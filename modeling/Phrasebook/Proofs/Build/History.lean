import Phrasebook.Proofs.Build.Listing
import Phrasebook.Proofs.Calendar.Format

/-!
Builds one after the other. The latest pair is that of the last build. Copies are kept under the second of
their build, so a second has one pair of copies, that of the last build that kept copies in it. The list
shows the latest build and then the copies by descending time.
-/

namespace Phrasebook.Build

open FileTree Calendar

def packName (stem : String) : String := stem ++ ".json"

def graphName (stem ext : String) : String := stem ++ "." ++ ext

section

variable {ext s s' : String}

theorem packName_inj : packName s = packName s' ↔ s = s' := by
  simp [packName]

theorem graphName_inj : graphName s ext = graphName s' ext ↔ s = s' := by
  simp [graphName]

theorem packName_ne_graphName (hExt : IsGraphExtension ext) : packName s ≠ graphName s' ext := by
  intro hSame
  have hLast := congrArg (fun name : String => name.toList.getLast?) hSame
  rcases hExt with rfl | rfl
  all_goals simp [packName, graphName] at hLast

end

/-- One build that is asked for. -/
structure Call where
  renderer : Renderer
  pack : Pack
  graph : String
  keep : Bool
  now : Int

namespace Call

def write (c : Call) (cwd : Place) (root : String) : Work Written :=
  Build.write c.renderer cwd root c.pack c.graph c.keep c.now

def second (c : Call) : Int := secondsOfMillis c.now

/-- The name of the copies, before the extension. -/
def stem (c : Call) : String := keptFront ++ fileStamp c.now

/-- The pack as it is written. -/
def text (c : Call) : List UInt8 := Text.utf8 c.pack.text

/-- What is drawn. -/
def drawing (c : Call) : List UInt8 :=
  match c.renderer.draw c.graph with
  | .ok (some content) => content
  | _ => []

/-- The files of a folder with the pair of a call under a stem. -/
def place (c : Call) (stem ext : String) (files : String → Option Node) : String → Option Node :=
  Function.update (Function.update files (packName stem) (some (.file c.text c.second)))
    (graphName stem ext) (some (.file c.drawing c.second))

/-- The files of a folder behind a call. -/
def enter (ext : String) (files : String → Option Node) (c : Call) : String → Option Node :=
  if c.keep then c.place c.stem ext (c.place latestStem ext files) else c.place latestStem ext files

variable {c d : Call} {ext stem name : String} {files : String → Option Node}

theorem place_of_ne (hPack : name ≠ packName stem) (hGraph : name ≠ graphName stem ext) :
    c.place stem ext files name = files name := by
  rw [place, Function.update_of_ne hGraph, Function.update_of_ne hPack]

theorem place_packName (hExt : IsGraphExtension ext) :
    c.place stem ext files (packName stem) = some (.file c.text c.second) := by
  rw [place, Function.update_of_ne (packName_ne_graphName hExt), Function.update_self]

theorem place_graphName : c.place stem ext files (graphName stem ext) = some (.file c.drawing c.second) := by
  rw [place, Function.update_self]

/-- A pair under another stem is in the way of no name. -/
theorem place_packName_of_ne (hExt : IsGraphExtension ext) {other : String} (hOther : other ≠ stem) :
    c.place stem ext files (packName other) = files (packName other) :=
  place_of_ne (fun h => hOther (packName_inj.1 h)) (packName_ne_graphName hExt)

theorem place_graphName_of_ne (hExt : IsGraphExtension ext) {other : String} (hOther : other ≠ stem) :
    c.place stem ext files (graphName other ext) = files (graphName other ext) :=
  place_of_ne (packName_ne_graphName hExt).symm fun h => hOther (graphName_inj.1 h)

theorem stem_ne_latestStem (c : Call) : c.stem ≠ latestStem := by
  intro hSame
  have hHead := congrArg (fun s : String => s.toList.head?) hSame
  simp [stem, keptFront, latestStem] at hHead

/-- The times of the calls lie in years that are written with four digits. -/
def IsDated (c : Call) : Prop := HasFourDigitYear c.second

theorem stem_congr (h : c.second = d.second) : c.stem = d.stem := by
  rw [stem, stem, fileStamp_congr h]

theorem stem_eq_iff (hc : c.IsDated) (hd : d.IsDated) : c.stem = d.stem ↔ c.second = d.second := by
  rw [stem, stem, String.append_right_inj]
  exact ⟨secondsOfMillis_eq_of_fileStamp hc hd, fileStamp_congr⟩

/-- A call leaves what is under other names than its own. -/
theorem enter_cases {n : Node} (h : c.enter ext files name = some n) :
    (name = packName latestStem ∨ name = graphName latestStem ext) ∨
      c.keep = true ∧ (name = packName c.stem ∨ name = graphName c.stem ext) ∨ files name = some n := by
  have hPlace : ∀ {stem files}, c.place stem ext files name = some n →
      (name = packName stem ∨ name = graphName stem ext) ∨ files name = some n := by
    intro stem files h
    by_cases hOwn : name = packName stem ∨ name = graphName stem ext
    · exact Or.inl hOwn
    · rw [not_or] at hOwn
      rw [place_of_ne hOwn.1 hOwn.2] at h
      exact Or.inr h
  rw [enter] at h
  split at h
  next hKeep =>
    rcases hPlace h with hOwn | h
    · exact Or.inr (Or.inl ⟨hKeep, hOwn⟩)
    · exact (hPlace h).imp_right Or.inr
  next => exact (hPlace h).imp_right Or.inr

end Call

/-- The call keeps copies, and no later call keeps copies in the same second. -/
def IsLastKept (calls : List Call) (c : Call) : Prop :=
  ∃ before after, calls = before ++ c :: after ∧ c.keep = true ∧
    ∀ d ∈ after, d.keep = true → d.second ≠ c.second

/-- Puts a call among calls by descending time, in the stead of one in the same second. -/
def enterKept (kept : List Call) (c : Call) : List Call :=
  kept.filter (fun d => c.second < d.second) ++ c :: kept.filter (fun d => d.second < c.second)

/-- The calls of which there are copies, by descending time. -/
def keptOf (calls : List Call) : List Call :=
  calls.foldl (fun kept c => if c.keep then enterKept kept c else kept) []

section

variable {calls kept : List Call} {c d : Call}

theorem mem_enterKept_iff : d ∈ enterKept kept c ↔ d = c ∨ d ∈ kept ∧ d.second ≠ c.second := by
  simp only [enterKept, List.mem_append, List.mem_cons, List.mem_filter, decide_eq_true_eq]
  have hOther : d.second ≠ c.second ↔ c.second < d.second ∨ d.second < c.second := by omega
  rw [hOther, and_or_left]
  tauto

theorem pairwise_enterKept (h : kept.Pairwise fun c d => d.second < c.second) (c : Call) :
    (enterKept kept c).Pairwise fun c d => d.second < c.second := by
  rw [enterKept, List.pairwise_append, List.pairwise_cons]
  refine ⟨h.filter _, ⟨?_, h.filter _⟩, ?_⟩
  · intro d hd
    simpa using (List.mem_filter.1 hd).2
  · intro d hd e he
    have hBefore : c.second < d.second := by simpa using (List.mem_filter.1 hd).2
    rcases List.mem_cons.1 he with rfl | he
    · exact hBefore
    · have hBehind : e.second < c.second := by simpa using (List.mem_filter.1 he).2
      omega

theorem keptOf_snoc (calls : List Call) (c : Call) :
    keptOf (calls ++ [c]) = if c.keep then enterKept (keptOf calls) c else keptOf calls := by
  rw [keptOf, List.foldl_append]
  rfl

theorem pairwise_keptOf (calls : List Call) : (keptOf calls).Pairwise fun c d => d.second < c.second := by
  induction calls using List.reverseRecOn with
  | nil => exact List.Pairwise.nil
  | append_singleton calls c ih =>
      rw [keptOf_snoc]
      split
      · exact pairwise_enterKept ih c
      · exact ih

theorem isLastKept_snoc : IsLastKept (calls ++ [d]) c ↔
    c = d ∧ d.keep = true ∨ IsLastKept calls c ∧ (d.keep = true → d.second ≠ c.second) := by
  constructor
  · rintro ⟨before, after, hCalls, hKeep, hLater⟩
    rcases List.eq_nil_or_concat after with rfl | ⟨after, e, rfl⟩
    · obtain ⟨-, hSame⟩ := List.append_inj' hCalls rfl
      obtain rfl := List.singleton_inj.1 hSame
      exact Or.inl ⟨rfl, hKeep⟩
    · rw [List.concat_eq_append, ← List.cons_append, ← List.append_assoc] at hCalls
      obtain ⟨rfl, hSame⟩ := List.append_inj' hCalls rfl
      obtain rfl := List.singleton_inj.1 hSame
      refine Or.inr ⟨⟨before, after, rfl, hKeep, fun d hd => hLater d ?_⟩, hLater d ?_⟩
      all_goals simp_all
  · rintro (⟨rfl, hKeep⟩ | ⟨⟨before, after, rfl, hKeep, hLater⟩, hLast⟩)
    · exact ⟨calls, [], rfl, hKeep, by simp⟩
    · refine ⟨before, after ++ [d], by simp, hKeep, fun e he => ?_⟩
      rcases List.mem_append.1 he with he | he
      · exact hLater e he
      · exact List.mem_singleton.1 he ▸ hLast

/-- Of each second the last call that keeps copies is left. -/
theorem mem_keptOf_iff : c ∈ keptOf calls ↔ IsLastKept calls c := by
  induction calls using List.reverseRecOn with
  | nil => simp [keptOf, IsLastKept]
  | append_singleton calls d ih =>
      rw [keptOf_snoc, isLastKept_snoc, ← ih]
      by_cases hKeep : d.keep = true
      · rw [if_pos hKeep, mem_enterKept_iff]
        simp [hKeep, ne_comm]
      · rw [if_neg hKeep]
        simp [hKeep]

/-- Every second in which copies were kept has some. -/
theorem exists_mem_keptOf (hMem : c ∈ calls) (hKeep : c.keep = true) :
    ∃ d ∈ keptOf calls, d.second = c.second := by
  induction calls using List.reverseRecOn with
  | nil => exact absurd hMem List.not_mem_nil
  | append_singleton calls d ih =>
      rw [keptOf_snoc]
      rcases List.mem_append.1 hMem with hMem | hMem
      · obtain ⟨e, he, hSecond⟩ := ih hMem
        split
        next =>
          by_cases hSame : e.second = d.second
          · exact ⟨d, mem_enterKept_iff.2 (Or.inl rfl), hSame.symm.trans hSecond⟩
          · exact ⟨e, mem_enterKept_iff.2 (Or.inr ⟨he, hSame⟩), hSecond⟩
        next => exact ⟨e, he, hSecond⟩
      · obtain rfl := List.mem_singleton.1 hMem
        rw [if_pos hKeep]
        exact ⟨c, mem_enterKept_iff.2 (Or.inl rfl), rfl⟩

theorem mem_of_mem_keptOf (h : c ∈ keptOf calls) : c ∈ calls := by
  obtain ⟨before, after, rfl, -⟩ := mem_keptOf_iff.1 h
  simp

end

/-- The files of a folder that was empty before the calls. -/
def filesAfter (ext : String) (calls : List Call) : String → Option Node :=
  calls.foldl (Call.enter ext) fun _ => none

section

variable {calls : List Call} {c : Call} {ext name : String}

theorem filesAfter_snoc (ext : String) (calls : List Call) (c : Call) :
    filesAfter ext (calls ++ [c]) = c.enter ext (filesAfter ext calls) := by
  rw [filesAfter, List.foldl_append]
  rfl

/-- The names of the files behind calls. -/
def IsNamed (ext : String) (calls : List Call) (name : String) : Prop :=
  calls ≠ [] ∧ (name = packName latestStem ∨ name = graphName latestStem ext) ∨
    ∃ c ∈ keptOf calls, name = packName c.stem ∨ name = graphName c.stem ext

/-- The latest pair is that of the last call. -/
theorem filesAfter_latest (hExt : IsGraphExtension ext) (calls : List Call) (c : Call) :
    filesAfter ext (calls ++ [c]) (packName latestStem) = some (.file c.text c.second) ∧
      filesAfter ext (calls ++ [c]) (graphName latestStem ext) = some (.file c.drawing c.second) := by
  have hOther := c.stem_ne_latestStem.symm
  rw [filesAfter_snoc, Call.enter]
  split
  · rw [Call.place_packName_of_ne hExt hOther, Call.place_graphName_of_ne hExt hOther]
    exact ⟨Call.place_packName hExt, Call.place_graphName⟩
  · exact ⟨Call.place_packName hExt, Call.place_graphName⟩

/-- The pair of copies of a second is that of the last call that kept copies in it. -/
theorem filesAfter_kept (hExt : IsGraphExtension ext) (hDated : ∀ c ∈ calls, c.IsDated)
    (hKept : c ∈ keptOf calls) :
    filesAfter ext calls (packName c.stem) = some (.file c.text c.second) ∧
      filesAfter ext calls (graphName c.stem ext) = some (.file c.drawing c.second) := by
  induction calls using List.reverseRecOn with
  | nil => exact absurd hKept List.not_mem_nil
  | append_singleton calls d ih =>
      have hLatest := c.stem_ne_latestStem
      have hd := hDated d (by simp)
      have hMore : ∀ c ∈ calls, c.IsDated := fun c hc => hDated c (List.mem_append_left _ hc)
      rw [filesAfter_snoc, Call.enter]
      rw [keptOf_snoc] at hKept
      split
      next hKeep =>
        rw [if_pos hKeep, mem_enterKept_iff] at hKept
        rcases hKept with rfl | ⟨hKept, hOther⟩
        · exact ⟨Call.place_packName hExt, Call.place_graphName⟩
        · have hStem : c.stem ≠ d.stem := fun hSame =>
            hOther ((Call.stem_eq_iff (hMore c (mem_of_mem_keptOf hKept)) hd).1 hSame)
          rw [Call.place_packName_of_ne hExt hStem, Call.place_graphName_of_ne hExt hStem,
            Call.place_packName_of_ne hExt hLatest, Call.place_graphName_of_ne hExt hLatest]
          exact ih hMore hKept
      next hKeep =>
        rw [if_neg hKeep] at hKept
        rw [Call.place_packName_of_ne hExt hLatest, Call.place_graphName_of_ne hExt hLatest]
        exact ih hMore hKept

/-- There are no other files. -/
theorem isNamed_of_filesAfter {n : Node} (h : filesAfter ext calls name = some n) :
    IsNamed ext calls name := by
  induction calls using List.reverseRecOn with
  | nil => simp [filesAfter] at h
  | append_singleton calls d ih =>
      have hNe : calls ++ [d] ≠ [] := by simp
      rw [filesAfter_snoc] at h
      rw [IsNamed, keptOf_snoc]
      rcases Call.enter_cases h with hLatest | ⟨hKeep, hOwn⟩ | h
      · exact Or.inl ⟨hNe, hLatest⟩
      · rw [if_pos hKeep]
        exact Or.inr ⟨d, mem_enterKept_iff.2 (Or.inl rfl), hOwn⟩
      · rcases ih h with ⟨-, hLatest⟩ | ⟨c, hc, hName⟩
        · exact Or.inl ⟨hNe, hLatest⟩
        · refine Or.inr ?_
          split
          next =>
            -- Copies of the same second are under the same names.
            by_cases hSame : c.second = d.second
            · exact ⟨d, mem_enterKept_iff.2 (Or.inl rfl), Call.stem_congr hSame ▸ hName⟩
            · exact ⟨c, mem_enterKept_iff.2 (Or.inr ⟨hc, hSame⟩), hName⟩
          next => exact ⟨c, hc, hName⟩

end

section

variable {t t' t₁ : FileTree} {cwd base : Place} {root ext : String} {c : Call} {written : Written}

/-- What a call leaves in a folder that is ready for it. -/
theorem Call.listing_of_write (hExt : IsGraphExtension c.renderer.extension)
    (hMake : t.makeFolders? cwd root = some t₁) (hReady : Ready t₁ cwd root base)
    (hDrawn : t₁.listing base (drawnName c.renderer.extension) = none)
    (hTemporary : t₁.listing base "latest.tmp" = none)
    (hWrite : c.write cwd root t = .ok written t') :
    c.renderer.draw c.graph = .ok (some c.drawing) ∧
      t'.listing base = c.enter c.renderer.extension (t₁.listing base) := by
  have hNames := areDistinct hExt
  obtain ⟨t₁', t₂, t₃, t₄, hMake', hDraw, hPack, hMove, hCopies⟩ := steps_of_write hWrite
  obtain rfl := Option.some.inj (hMake.symm.trans hMake')
  obtain ⟨content, hContent, hReady₄, hListing₄⟩ :=
    listing_of_steps hExt hReady (by simp [hDrawn]) hDraw hPack hMove
  have hDrawing : c.drawing = content := by rw [Call.drawing, hContent]
  have hLatest : t₄.listing base = c.place latestStem c.renderer.extension (t₁.listing base) := by
    funext name
    rw [hListing₄, Call.place, Function.update_apply, Function.update_apply, hDrawing]
    -- The names that are used on the way were free before the call, and they are free again.
    by_cases hFree : name = drawnName c.renderer.extension ∨ name = "latest.tmp"
    · have hNone : t₁.listing base name = none := by
        rcases hFree with rfl | rfl
        · exact hDrawn
        · exact hTemporary
      rw [if_pos hFree, hNone]
      rfl
    · rw [if_neg hFree]
      rfl
  refine ⟨hDrawing ▸ hContent, ?_⟩
  rcases hCopies with ⟨hKeep, rfl⟩ | ⟨hKeep, t₅, copied, hKept, hRead, hCopied⟩
  · rw [hLatest, Call.enter, if_neg (by simp [hKeep])]
  · obtain ⟨hReady₅, hListing₅⟩ := hReady₄.write (isOrdinary_kept c.now (by decide)) hKept
    have hGraph : t₅.listing base (graphName latestStem c.renderer.extension) =
        some (.file c.drawing c.second) := by
      rw [hListing₅, hLatest, Function.update_of_ne (kept_ne (by simp [graphName, latestStem])),
        Call.place_graphName]
    obtain rfl := Option.some.inj (hRead.symm.trans (hReady₅.read?_eq hNames.isOrdinary_graph hGraph))
    rw [String.append_assoc] at hCopied
    obtain ⟨-, hListing'⟩ :=
      hReady₅.write (isOrdinary_kept c.now (slash_notMem_extension hExt)) hCopied
    rw [hListing', hListing₅, hLatest, Call.enter, if_pos hKeep, ← String.append_assoc]
    rfl

end

/-- Writes builds until one fails. -/
def writeAll (cwd : Place) (root : String) (calls : List Call) : Work (List Written) :=
  calls.mapM fun c => c.write cwd root

/-- A folder that was empty before the calls is in order, and it holds what the calls have left. -/
structure Shows (t : FileTree) (cwd : Place) (root : String) (base : Place) (ext : String)
    (calls : List Call) : Prop where
  orderly : Orderly t cwd root base
  nodup : (t.namesIn base).Nodup
  listing : t.listing base = filesAfter ext calls
  drawn : ∀ c ∈ calls, c.renderer.draw c.graph = .ok (some c.drawing)

section

variable {t t' t₁ : FileTree} {cwd base : Place} {root ext : String} {calls done : List Call} {c : Call}
  {written : Written}

theorem nodup_isKeptByEdits (cwd : Place) (root : String) (base : Place) :
    IsKeptByEdits (fun t => (t.namesIn base).Nodup) cwd root :=
  ⟨fun _ h => nodup_namesIn_write? h, fun _ _ h => nodup_namesIn_rename? h,
    fun _ h => nodup_namesIn_removeFile? h⟩

theorem root_ne_empty {names : List String} (h : t.list? cwd root = some names) : root ≠ "" := by
  rintro rfl
  simp [list?, find] at h

theorem shows_nil (hLeads : t.LeadsTo cwd root base) (hEmpty : t.list? cwd root = some []) :
    Shows t cwd root base ext [] := by
  rw [hLeads.list?_eq (root_ne_empty hEmpty), Option.some.injEq] at hEmpty
  have hNone : ∀ name, t.listing base name = none := fun name => by
    refine Option.eq_none_iff_forall_ne_some.2 fun n hNode => ?_
    have hMem := mem_children_iff.2 ⟨n, hNode⟩
    rw [hEmpty] at hMem
    exact absurd hMem List.not_mem_nil
  have hNoNames : t.namesIn base = [] := by
    have hPerm := t.children_perm base
    rwa [hEmpty, List.nil_perm] at hPerm
  refine ⟨⟨⟨⟨hLeads, fun name target => ?_⟩, fun name => ?_⟩, fun name n hNode => ?_⟩, ?_, funext hNone, ?_⟩
  · rw [← FileTree.listing, hNone]
    simp
  · simp [hNone]
  · simp [hNone] at hNode
  · rw [hNoNames]
    exact List.nodup_nil
  · simp

/-- The names that are used on the way to the latest build are free between builds. -/
theorem Shows.free (hExt : IsGraphExtension ext) (h : Shows t cwd root base ext calls) :
    t.listing base (drawnName ext) = none ∧ t.listing base "latest.tmp" = none := by
  have hFree : ∀ name : String, name.toList.head? = some 'l' → name ≠ packName latestStem →
      name ≠ graphName latestStem ext → t.listing base name = none := by
    intro name hHead hPack hGraph
    refine Option.eq_none_iff_forall_ne_some.2 fun n hNode => ?_
    rw [h.listing] at hNode
    rcases isNamed_of_filesAfter hNode with ⟨-, hLatest⟩ | ⟨c, -, hName⟩
    · exact hLatest.elim hPack hGraph
    · rcases hName with hName | hName
      · exact kept_ne hHead hName
      · rw [graphName, String.append_assoc] at hName
        exact kept_ne hHead hName
  have hNames := areDistinct hExt
  refine ⟨hFree _ (by simp [drawnName, latestStem]) hNames.drawn_ne_pack hNames.drawn_ne_graph, ?_⟩
  rcases hExt with rfl | rfl
  · exact hFree _ (by decide) (by decide) (by decide)
  · exact hFree _ (by decide) (by decide) (by decide)

theorem Shows.write (hExt : IsGraphExtension ext) (hSame : c.renderer.extension = ext)
    (hMake : t.makeFolders? cwd root = some t₁) (h : Shows t₁ cwd root base ext calls)
    (hWrite : c.write cwd root t = .ok written t') : Shows t' cwd root base ext (calls ++ [c]) := by
  subst hSame
  obtain ⟨hDrawnFree, hTemporaryFree⟩ := h.free hExt
  obtain ⟨hDrawn, hListing⟩ :=
    Call.listing_of_write hExt hMake h.orderly.toReady hDrawnFree hTemporaryFree hWrite
  have hOrderly := h.orderly.endOf_write hExt hMake c.pack c.graph c.keep c.now
  have hNodup := (nodup_isKeptByEdits cwd root base).endOf_write hExt hMake h.nodup c.pack c.graph c.keep c.now
  rw [Call.write] at hWrite
  rw [hWrite] at hOrderly hNodup
  refine ⟨hOrderly, hNodup, ?_, ?_⟩
  · rw [hListing, h.listing, filesAfter_snoc]
  · intro d hd
    rcases List.mem_append.1 hd with hd | hd
    · exact h.drawn d hd
    · exact List.mem_singleton.1 hd ▸ hDrawn

theorem Shows.writeAll {all : List Written} (hExt : IsGraphExtension ext)
    (hSame : ∀ c ∈ calls, c.renderer.extension = ext) (h : Shows t cwd root base ext done)
    (hWrite : Build.writeAll cwd root calls t = .ok all t') : Shows t' cwd root base ext (done ++ calls) := by
  induction calls generalizing t done all with
  | nil =>
      obtain ⟨-, rfl⟩ := EStateM.Result.ok.inj hWrite
      rwa [List.append_nil]
  | cons c calls ih =>
      rw [Build.writeAll, List.mapM_cons] at hWrite
      obtain ⟨written, t₂, hFirst, hWrite⟩ := bind_eq_ok_iff.1 hWrite
      obtain ⟨more, t₃, hMore, hEnd⟩ := bind_eq_ok_iff.1 hWrite
      obtain ⟨-, rfl⟩ := EStateM.Result.ok.inj hEnd
      obtain ⟨t₁, _, _, _, hMake, -⟩ := steps_of_write hFirst
      obtain rfl := h.orderly.leadsTo.makeFolders?_eq hMake
      have hShows := h.write hExt (hSame c List.mem_cons_self) hMake hFirst
      rw [List.append_cons]
      exact ih (fun d hd => hSame d (List.mem_cons_of_mem c hd)) hShows hMore

/-- The first of the calls finds an empty folder or makes it. -/
theorem exists_shows_of_writeAll {all : List Written} (hExt : IsGraphExtension ext)
    (hSame : ∀ d ∈ c :: calls, d.renderer.extension = ext) (hMake : t.makeFolders? cwd root = some t₁)
    (hEmpty : t₁.list? cwd root = some [])
    (hWrite : Build.writeAll cwd root (c :: calls) t = .ok all t') :
    ∃ base, Shows t' cwd root base ext (c :: calls) := by
  rw [Build.writeAll, List.mapM_cons] at hWrite
  obtain ⟨written, t₂, hFirst, hWrite⟩ := bind_eq_ok_iff.1 hWrite
  obtain ⟨more, t₃, hMore, hEnd⟩ := bind_eq_ok_iff.1 hWrite
  obtain ⟨-, rfl⟩ := EStateM.Result.ok.inj hEnd
  obtain ⟨t₁', _, _, _, hMake', hDraw, hPack, -⟩ := steps_of_write hFirst
  obtain rfl := Option.some.inj (hMake.symm.trans hMake')
  have hNames := areDistinct hExt
  obtain ⟨base, hLeads⟩ :=
    exists_leadsTo_of_steps (hNames.temporary ▸ hNames.isOrdinary_temporary) hDraw hPack
  have hShows := (shows_nil hLeads hEmpty).write hExt (hSame c List.mem_cons_self) hMake hFirst
  exact ⟨base, hShows.writeAll hExt (fun d hd => hSame d (List.mem_cons_of_mem c hd)) hMore⟩

end

theorem mapM_map_eq_ok {α β γ ε : Type} {f : β → Except ε γ} {k : α → β} {g : α → γ} {xs : List α}
    (h : ∀ x ∈ xs, f (k x) = .ok (g x)) : (xs.map k).mapM f = .ok (xs.map g) := by
  induction xs with
  | nil => rfl
  | cons x xs ih =>
      rw [List.forall_mem_cons] at h
      rw [List.map_cons, List.mapM_cons, h.1, ih h.2]
      rfl

/-- The pair under a stem is that of a call. -/
def Call.IsUnder (c : Call) (t : FileTree) (cwd : Place) (root stem ext : String) : Prop :=
  ∃ drawing, c.renderer.draw c.graph = .ok (some drawing) ∧
    t.read? cwd (join root (packName stem)) = some (Text.utf8 c.pack.text) ∧
    t.read? cwd (join root (graphName stem ext)) = some drawing

/-- The entry of the pair of a call under a stem. -/
def Call.entry (c : Call) (url stem ext : String) : Entry where
  name := packName stem
  size := (Text.utf8 c.pack.text).length
  modified := c.second
  url := url ++ Text.percentEncode (packName stem)
  graph := some (graphName stem ext)

section

variable {t : FileTree} {cwd base : Place} {root ext url : String} {calls : List Call} {c last : Call}

theorem isOrdinary_pair (hExt : IsGraphExtension ext) (c : Call) :
    IsOrdinary (packName c.stem) ∧ IsOrdinary (graphName c.stem ext) := by
  refine ⟨isOrdinary_kept c.now (by decide), ?_⟩
  rw [graphName, Call.stem, String.append_assoc]
  exact isOrdinary_kept c.now (slash_notMem_extension hExt)

theorem isOrdinary_latestPair (hExt : IsGraphExtension ext) :
    IsOrdinary (packName latestStem) ∧ IsOrdinary (graphName latestStem ext) :=
  ⟨(areDistinct hExt).isOrdinary_pack, (areDistinct hExt).isOrdinary_graph⟩

theorem isKept_packName (c : Call) : isKept (packName c.stem) = true := by
  rw [isKept_iff, packName, Call.stem, String.toList_append, String.toList_append, List.append_assoc]
  exact ⟨List.prefix_append _ _, ⟨_, (List.append_assoc _ _ _)⟩⟩

theorem not_isKept_graphName (hExt : IsGraphExtension ext) (stem : String) :
    ¬isKept (graphName stem ext) = true := by
  rw [isKept_iff]
  rintro ⟨-, front, hFront⟩
  have hLast := congrArg List.getLast? hFront
  rcases hExt with rfl | rfl
  all_goals simp [graphName] at hLast

theorem not_isKept_latest : ¬isKept (packName latestStem) = true := by
  rw [isKept_iff]
  decide

theorem packName_lt {d : Call} (hc : c.IsDated) (hd : d.IsDated) (h : c.second < d.second) :
    packName c.stem < packName d.stem := by
  have hStamps := fileStamp_lt hc hd h
  rw [String.lt_iff] at hStamps ⊢
  have hLength : (fileStamp c.now).toList.length = (fileStamp d.now).toList.length := by
    rw [toList_fileStamp hc, toList_fileStamp hd, length_stampChars, length_stampChars]
  simp only [packName, Call.stem, String.toList_append, List.append_assoc]
  exact List.append_left_lt (Text.append_lt_append hLength (Or.inl hStamps))

/-- The names in the folder are those of the latest pair and of the copies. -/
theorem Shows.mem_children_iff (hExt : IsGraphExtension ext) (hDated : ∀ c ∈ calls ++ [last], c.IsDated)
    (h : Shows t cwd root base ext (calls ++ [last])) {name : String} :
    name ∈ t.children base ↔ (name = packName latestStem ∨ name = graphName latestStem ext) ∨
      ∃ c ∈ keptOf (calls ++ [last]), name = packName c.stem ∨ name = graphName c.stem ext := by
  rw [FileTree.mem_children_iff, h.listing]
  constructor
  · rintro ⟨n, hNode⟩
    exact (isNamed_of_filesAfter hNode).imp_left And.right
  · obtain ⟨hPack, hGraph⟩ := filesAfter_latest hExt calls last
    rintro ((rfl | rfl) | ⟨c, hKept, hName⟩)
    · exact ⟨_, hPack⟩
    · exact ⟨_, hGraph⟩
    · obtain ⟨hPack, hGraph⟩ := filesAfter_kept hExt hDated hKept
      rcases hName with rfl | rfl
      · exact ⟨_, hPack⟩
      · exact ⟨_, hGraph⟩

/-- Of the names in the folder, in their order, those of copies of packs are the ones of the kept calls by
ascending time. -/
theorem Shows.filter_children (hExt : IsGraphExtension ext) (hDated : ∀ c ∈ calls ++ [last], c.IsDated)
    (h : Shows t cwd root base ext (calls ++ [last])) :
    (t.children base).filter isKept = ((keptOf (calls ++ [last])).map fun c => packName c.stem).reverse := by
  have hAscending : (((keptOf (calls ++ [last])).map fun c => packName c.stem).reverse).Pairwise (· < ·) := by
    rw [List.pairwise_reverse, List.pairwise_map]
    refine (pairwise_keptOf _).imp_of_mem fun {c d} hc hd hLess => ?_
    exact packName_lt (hDated d (mem_of_mem_keptOf hd)) (hDated c (mem_of_mem_keptOf hc)) hLess
  -- Both lists are ascending, and they have the same members.
  have hNodup : ((t.children base).filter isKept).Nodup :=
    ((t.children_perm base).nodup_iff.2 h.nodup).filter _
  refine List.Perm.eq_of_pairwise (fun a b _ _ => le_antisymm) ((t.children_pairwise base).filter _)
    (hAscending.imp le_of_lt) ?_
  refine (List.perm_ext_iff_of_nodup hNodup (hAscending.imp ne_of_lt)).2 fun name => ?_
  rw [List.mem_filter, h.mem_children_iff hExt hDated, List.mem_reverse, List.mem_map]
  constructor
  · rintro ⟨(rfl | rfl) | ⟨c, hc, rfl | rfl⟩, hIsKept⟩
    · exact absurd hIsKept not_isKept_latest
    · exact absurd hIsKept (not_isKept_graphName hExt _)
    · exact ⟨c, hc, rfl⟩
    · exact absurd hIsKept (not_isKept_graphName hExt _)
  · rintro ⟨c, hc, rfl⟩
    exact ⟨Or.inr ⟨c, hc, Or.inl rfl⟩, isKept_packName c⟩

theorem Shows.isUnder {stem : String} (h : Shows t cwd root base ext calls) (hMem : c ∈ calls)
    (hNames : IsOrdinary (packName stem) ∧ IsOrdinary (graphName stem ext))
    (hPair : filesAfter ext calls (packName stem) = some (.file c.text c.second) ∧
      filesAfter ext calls (graphName stem ext) = some (.file c.drawing c.second)) :
    c.IsUnder t cwd root stem ext := by
  rw [← h.listing] at hPair
  exact ⟨c.drawing, h.drawn c hMem, h.orderly.toReady.read?_eq hNames.1 hPair.1,
    h.orderly.toReady.read?_eq hNames.2 hPair.2⟩

theorem Shows.entryOf_eq {stem : String} (hExt : IsGraphExtension ext) (h : Shows t cwd root base ext calls)
    (hStem : stem ≠ "") (hNames : IsOrdinary (packName stem) ∧ IsOrdinary (graphName stem ext))
    (hPair : filesAfter ext calls (packName stem) = some (.file c.text c.second) ∧
      filesAfter ext calls (graphName stem ext) = some (.file c.drawing c.second)) :
    entryOf t cwd root url ext (packName stem) = .ok (c.entry url stem ext) := by
  have hNe : ext ≠ "" := by rcases hExt with rfl | rfl <;> decide
  rw [← h.listing] at hPair
  exact entryOf_pair h.orderly.toReady hStem hNe hNames.1 hNames.2 hPair.1 hPair.2

/-- The latest build is listed first, and then the kept calls. -/
theorem Shows.list_eq (hExt : IsGraphExtension ext) (hDated : ∀ c ∈ calls ++ [last], c.IsDated)
    (hRoot : root ≠ "") (h : Shows t cwd root base ext (calls ++ [last])) (url : String) :
    list t cwd root url ext = .ok (last.entry url latestStem ext ::
      (keptOf (calls ++ [last])).map fun c => c.entry url c.stem ext) := by
  have hNames := isOrdinary_latestPair hExt
  have hLatest := filesAfter_latest hExt calls last
  have hStem : latestStem ≠ "" := by decide
  have hIsFile : t.isFile cwd (join root (packName latestStem)) = true := by
    rw [isFile, nodeAt?_join h.orderly.leadsTo h.orderly.noLinks hNames.1, h.listing, hLatest.1]
  have hListed : listedNames t cwd root =
      ((latestStem, last) :: (keptOf (calls ++ [last])).map fun c => (c.stem, c)).map
        fun pair => packName pair.1 := by
    rw [listedNames, ← packName, if_pos hIsFile, h.orderly.leadsTo.list?_eq hRoot, Option.getD_some,
      h.filter_children hExt hDated, List.reverse_reverse, List.map_cons, List.map_map]
    rfl
  have hEntries : ∀ pair ∈ (latestStem, last) :: (keptOf (calls ++ [last])).map fun c => (c.stem, c),
      entryOf t cwd root url ext (packName pair.1) = .ok (pair.2.entry url pair.1 ext) := by
    rw [List.forall_mem_cons, List.forall_mem_map]
    refine ⟨h.entryOf_eq hExt hStem hNames hLatest, fun c hc => ?_⟩
    exact h.entryOf_eq hExt (by simp [Call.stem, keptFront]) (isOrdinary_pair hExt c)
      (filesAfter_kept hExt hDated hc)
  have hAll := mapM_map_eq_ok hEntries
  rw [← hListed, List.map_cons, List.map_map] at hAll
  exact hAll

end

/-- Builds that are written one after the other into a folder that was empty or not there. The latest pair is
that of the last build. In each second in which copies were kept there is one pair of copies, that of the last
build that kept copies in this second, and there is nothing else in the folder. The list shows the latest build
and then the copies by descending time. -/
theorem builds_accumulate {t t₁ t' : FileTree} {cwd : Place} {root ext : String} {calls : List Call}
    {last : Call} {all : List Written} (hExt : IsGraphExtension ext)
    (hSame : ∀ c ∈ calls ++ [last], c.renderer.extension = ext) (hDated : ∀ c ∈ calls ++ [last], c.IsDated)
    (hMake : t.makeFolders? cwd root = some t₁) (hEmpty : t₁.list? cwd root = some [])
    (hWrite : writeAll cwd root (calls ++ [last]) t = .ok all t') (url : String) :
    ∃ (kept : List Call) (names : List String),
      (kept.Pairwise fun c d => d.second < c.second) ∧
      (∀ c, c ∈ kept ↔ IsLastKept (calls ++ [last]) c) ∧
      (∀ c ∈ calls ++ [last], c.keep = true → ∃ d ∈ kept, d.second = c.second) ∧
      last.IsUnder t' cwd root latestStem ext ∧ (∀ c ∈ kept, c.IsUnder t' cwd root c.stem ext) ∧
      t'.list? cwd root = some names ∧ names.Nodup ∧
      (∀ name, name ∈ names ↔ (name = packName latestStem ∨ name = graphName latestStem ext) ∨
        ∃ c ∈ kept, name = packName c.stem ∨ name = graphName c.stem ext) ∧
      list t' cwd root url ext =
        .ok (last.entry url latestStem ext :: kept.map fun c => c.entry url c.stem ext) := by
  have hRoot := root_ne_empty hEmpty
  obtain ⟨base, h⟩ : ∃ base, Shows t' cwd root base ext (calls ++ [last]) := by
    cases hCalls : calls ++ [last] with
    | nil => simp at hCalls
    | cons first more =>
        rw [hCalls] at hSame hWrite
        exact exists_shows_of_writeAll hExt hSame hMake hEmpty hWrite
  have hLatest := filesAfter_latest hExt calls last
  have hUnder : last.IsUnder t' cwd root latestStem ext :=
    h.isUnder (by simp) (isOrdinary_latestPair hExt) hLatest
  have hList : t'.list? cwd root = some (t'.children base) := h.orderly.leadsTo.list?_eq hRoot
  refine ⟨keptOf (calls ++ [last]), t'.children base, pairwise_keptOf _, fun c => mem_keptOf_iff,
    fun c => exists_mem_keptOf, hUnder, fun c hc => ?_, hList,
    (t'.children_perm base).nodup_iff.2 h.nodup, fun name => h.mem_children_iff hExt hDated, ?_⟩
  · exact h.isUnder (mem_of_mem_keptOf hc) (isOrdinary_pair hExt c) (filesAfter_kept hExt hDated hc)
  · exact h.list_eq hExt hDated hRoot url

/-- A build at the start of a day, of which copies are kept. -/
def callOn (day : Int) : Call := ⟨.text, .make [] "" 0, "", true, 86400000 * day⟩

theorem callOn_isDated : (callOn 0).IsDated ∧ (callOn 1).IsDated :=
  ⟨⟨by decide, by decide⟩, by decide, by decide⟩

/-- A build of the second day is followed by one of the first day. Then there are both pairs of copies, and
the list shows the first day twice, as the latest build and behind the second day. -/
theorem callsOn_accumulate :
    ∃ (all : List Written) (t' : FileTree) (kept : List Call),
      writeAll [] "build" [callOn 1, callOn 0] .empty = .ok all t' ∧
      (callOn 0).IsUnder t' [] "build" latestStem "dot" ∧ callOn 1 ∈ kept ∧ callOn 0 ∈ kept ∧
      (kept.Pairwise fun c d => d.second < c.second) ∧
      (∀ c ∈ kept, c.IsUnder t' [] "build" c.stem "dot") ∧
      list t' [] "build" "/" "dot" =
        .ok ((callOn 0).entry "/" latestStem "dot" :: kept.map fun c => c.entry "/" c.stem "dot") := by
  have hExt : ∀ day, IsGraphExtension (callOn day).renderer.extension := fun _ => Or.inl rfl
  have hDraw : ∀ day, (callOn day).renderer.draw (callOn day).graph = .ok (some (Text.utf8 "")) := fun _ => rfl
  have hEmpty : FileTree.list? (.ofNodes [(["build"], .folder)]) [] "build" = some [] := by
    rw [open_build.leadsTo.list?_eq (by decide)]
    cbv
  obtain ⟨first, t, hFirst⟩ := exists_write_eq_ok (hExt 1) makeFolders?_empty open_build (hDraw 1)
    (callOn 1).pack (callOn 1).keep (callOn 1).now
  have hShows := (shows_nil open_build.leadsTo hEmpty).write (hExt 1) rfl makeFolders?_empty hFirst
  have hMake : t.makeFolders? [] "build" = some t := by
    have hNode : t.node? ["build"] = some .folder := hShows.orderly.leadsTo.folder
    have hNames : names "build" = ["build"] := by cbv
    rw [makeFolders?, hNames]
    simp [makeFoldersFrom, origin, walk, hNode]
  obtain ⟨second, t', hSecond⟩ := exists_write_eq_ok (hExt 0) hMake hShows.orderly.toOpen (hDraw 0)
    (callOn 0).pack (callOn 0).keep (callOn 0).now
  have hAll : writeAll [] "build" ([callOn 1] ++ [callOn 0]) .empty = .ok [first, second] t' := by
    rw [writeAll, List.singleton_append, List.mapM_cons, List.mapM_cons]
    exact bind_eq_ok_iff.2 ⟨first, t, hFirst, bind_eq_ok_iff.2 ⟨[second], t',
      bind_eq_ok_iff.2 ⟨second, t', hSecond, rfl⟩, rfl⟩⟩
  have hDated : ∀ c ∈ [callOn 1] ++ [callOn 0], c.IsDated := by
    simp [callOn_isDated]
  obtain ⟨kept, names, hOrder, hKept, -, hLatest, hPairs, -, -, -, hList⟩ :=
    builds_accumulate (hExt 0) (by simp [callOn]) hDated makeFolders?_empty hEmpty hAll "/"
  have hOne : callOn 1 ∈ kept := (hKept _).2 ⟨[], [callOn 0], rfl, rfl, by simp [callOn, Call.second]; decide⟩
  have hZero : callOn 0 ∈ kept := (hKept _).2 ⟨[callOn 1], [], rfl, rfl, by simp⟩
  exact ⟨_, t', kept, hAll, hLatest, hOne, hZero, hOrder, hPairs, hList⟩

end Phrasebook.Build
