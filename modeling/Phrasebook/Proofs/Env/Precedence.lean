import Mathlib
import Phrasebook.Proofs.Env.Loading

/-!
Which value counts. Every variable is settled by what the environment has for it, then by the nearest local file and
last by the nearest common one. This is told of the variables that are unset or hold a text: the value of another
one cannot be read, so it does not count, and a file can put its own in its place.
-/

namespace Phrasebook.Env

/-- A file of a name in one of the folders, while the nearer ones, in front of it, have none. -/
def IsNearest (t : FileTree) (name : String) (folders nearer : List Place) (bytes : List UInt8) : Prop :=
  ∃ p, nearer ++ [p] <+: folders ∧ t.read? p name = some bytes ∧ ∀ q ∈ nearer, t.read? q name = none

theorem localFile?_eq_some_iff (t : FileTree) (cwd : Place) (bytes : List UInt8) :
    localFile? t cwd = some bytes ↔
      ∃ nearer, IsNearest t ".env.local" ((ancestors cwd).take (searchHeight + 1)) nearer bytes := by
  rw [localFile?, List.findSome?_eq_some_iff]
  constructor
  · rintro ⟨nearer, p, farther, hFolders, hRead, hNone⟩
    exact ⟨nearer, p, ⟨farther, by rw [hFolders, List.append_assoc]; rfl⟩, hRead, hNone⟩
  · rintro ⟨nearer, p, ⟨farther, hFolders⟩, hRead, hNone⟩
    exact ⟨nearer, p, farther, by rw [← hFolders, List.append_assoc]; rfl, hRead, hNone⟩

/-- Nothing but the want of a file keeps a name from leading to one. -/
def IsClear (t : FileTree) (name : String) (p : Place) : Prop := ∀ f, t.find p name = .error f → f = .missing

theorem commonFileFrom?_of_read {t : FileTree} {p : Place} {bytes : List UInt8} (more : List Place)
    (h : t.read? p ".env" = some bytes) : commonFileFrom? t (p :: more) = some bytes := by
  rw [FileTree.read?, FileTree.nodeAt?] at h
  rw [commonFileFrom?]
  cases hFind : t.find p ".env" with
  | error f =>
      rw [hFind] at h
      exact nomatch h
  | ok q =>
      rw [hFind] at h
      dsimp only at h ⊢
      cases hNode : t.node? q with
      | none => rw [hNode] at h; exact nomatch h
      | some n =>
          rw [hNode] at h
          cases n with
          | file content time => exact h
          | link target => exact nomatch h
          | folder => exact nomatch h

/-- Behind a folder without the common file the search goes on, unless the path is obstructed there. -/
theorem commonFileFrom?_of_none {t : FileTree} {p : Place} (more : List Place) (h : t.read? p ".env" = none) :
    (IsClear t ".env" p → commonFileFrom? t (p :: more) = commonFileFrom? t more) ∧
      (¬ IsClear t ".env" p → commonFileFrom? t (p :: more) = none) := by
  rw [FileTree.read?, FileTree.nodeAt?] at h
  rw [commonFileFrom?, IsClear]
  cases hFind : t.find p ".env" with
  | error f =>
      constructor
      · intro hClear
        rw [hClear f rfl]
      · intro hObstructed
        cases f with
        | missing => exact absurd (fun f hEq => (Except.error.inj hEq).symm) hObstructed
        | notFolder => rfl
        | manyLinks => rfl
  | ok q =>
      rw [hFind] at h
      dsimp only at h ⊢
      constructor
      · intro
        cases hNode : t.node? q with
        | none => rfl
        | some n =>
            rw [hNode] at h
            cases n with
            | file content time => exact nomatch h
            | link target => rfl
            | folder => rfl
      · intro hObstructed
        exact absurd (fun f hEq => nomatch hEq) hObstructed

theorem isNearest_cons {t : FileTree} {name : String} {p : Place} {more nearer : List Place} {bytes : List UInt8} :
    IsNearest t name (p :: more) nearer bytes ↔
      (nearer = [] ∧ t.read? p name = some bytes) ∨
        ∃ rest, nearer = p :: rest ∧ t.read? p name = none ∧ IsNearest t name more rest bytes := by
  constructor
  · rintro ⟨q, hPrefix, hRead, hNone⟩
    cases nearer with
    | nil =>
        obtain rfl : q = p := (List.cons_prefix_cons.1 hPrefix).1
        exact Or.inl ⟨rfl, hRead⟩
    | cons r rest =>
        obtain ⟨rfl, hRest⟩ := List.cons_prefix_cons.1 hPrefix
        obtain ⟨hHere, hBehind⟩ := List.forall_mem_cons.1 hNone
        exact Or.inr ⟨rest, rfl, hHere, q, hRest, hRead, hBehind⟩
  · rintro (⟨rfl, hRead⟩ | ⟨rest, rfl, hHere, q, hRest, hRead, hBehind⟩)
    · exact ⟨p, List.cons_prefix_cons.2 ⟨rfl, List.nil_prefix⟩, hRead, by simp⟩
    · exact ⟨q, List.cons_prefix_cons.2 ⟨rfl, hRest⟩, hRead, List.forall_mem_cons.2 ⟨hHere, hBehind⟩⟩

theorem commonFileFrom?_eq_some_iff (t : FileTree) (folders : List Place) (bytes : List UInt8) :
    commonFileFrom? t folders = some bytes ↔
      ∃ nearer, IsNearest t ".env" folders nearer bytes ∧ ∀ p ∈ nearer, IsClear t ".env" p := by
  induction folders with
  | nil =>
      constructor
      · intro h
        exact nomatch h
      · rintro ⟨nearer, ⟨p, hPrefix, -⟩, -⟩
        exact absurd (List.prefix_nil.1 hPrefix) (by simp)
  | cons p more ih =>
      simp only [isNearest_cons]
      cases hRead : t.read? p ".env" with
      | some content =>
          rw [commonFileFrom?_of_read more hRead]
          constructor
          · intro h
            exact ⟨[], Or.inl ⟨rfl, h⟩, by simp⟩
          · rintro ⟨nearer, ⟨-, h⟩ | ⟨rest, -, hNone, -⟩, -⟩
            · exact h
            · exact nomatch hNone
      | none =>
          obtain ⟨hGoesOn, hEnds⟩ := commonFileFrom?_of_none more hRead
          by_cases hClear : IsClear t ".env" p
          · rw [hGoesOn hClear, ih]
            constructor
            · rintro ⟨rest, hNearest, hAll⟩
              exact ⟨p :: rest, Or.inr ⟨rest, rfl, rfl, hNearest⟩, List.forall_mem_cons.2 ⟨hClear, hAll⟩⟩
            · rintro ⟨nearer, ⟨-, hFile⟩ | ⟨rest, rfl, -, hNearest⟩, hAll⟩
              · exact nomatch hFile
              · exact ⟨rest, hNearest, (List.forall_mem_cons.1 hAll).2⟩
          · rw [hEnds hClear]
            constructor
            · intro h
              exact nomatch h
            · rintro ⟨nearer, ⟨-, hFile⟩ | ⟨rest, rfl, -, -⟩, hAll⟩
              · exact nomatch hFile
              · exact absurd (hAll p List.mem_cons_self) hClear

/-- A variable is unset, or holds a text. -/
def IsLegible (env : Env) (key : String) : Prop := ∀ v, env.lookup key = some v → v.text?.isSome = true

/-- Variables have been set, each to a text; nothing else has been done. -/
def Extends (env now : Env) : Prop := ∃ front : Env, now = front ++ env ∧ ∀ entry ∈ front, entry.2.text?.isSome = true

section Extends

variable {env now : Env} {e? : Option Env} {name value key : String}

theorem Extends.refl (env : Env) : Extends env env := ⟨[], List.nil_append env, fun _ hMem => nomatch hMem⟩

theorem Extends.trans {next : Env} (h : Extends env now) (hNext : Extends now next) : Extends env next := by
  obtain ⟨front, hNow, hTexts⟩ := h
  obtain ⟨newer, hAll, hMore⟩ := hNext
  exact ⟨newer ++ front, by rw [hAll, hNow, List.append_assoc], List.forall_mem_append.2 ⟨hMore, hTexts⟩⟩

theorem Extends.isLegible (h : Extends env now) (hKey : env.IsLegible key) : now.IsLegible key := by
  obtain ⟨front, rfl, hTexts⟩ := h
  intro v hValue
  rw [List.lookup_append, Option.or_eq_some_iff] at hValue
  rcases hValue with hFront | ⟨-, hEnv⟩
  · obtain ⟨before, behind, hSplit, -⟩ := List.lookup_eq_some_iff.1 hFront
    exact hTexts (key, v) (by rw [hSplit]; simp)
  · exact hKey v hEnv

theorem Extends.isSome_lookup (h : Extends env now) (hSet : (env.lookup key).isSome = true) :
    (now.lookup key).isSome = true := by
  obtain ⟨front, rfl, -⟩ := h
  rw [List.lookup_append, Option.isSome_or, hSet, Bool.or_true]

theorem extends_of_set (h : env.set name value = some now) : Extends env now := by
  obtain ⟨v, hText, rfl⟩ := exists_of_set h
  exact ⟨[(name, v)], rfl, by simp [hText]⟩

theorem extends_of_setNew (h : env.setNew name value = some now) : Extends env now := by
  rw [setNew] at h
  split at h
  next =>
    obtain rfl := Option.some.inj h
    exact .refl env
  next => exact extends_of_set h

theorem extends_of_stop {wellFormed : Bool} {r : Env × Bool} (h : some (env, wellFormed) = some r) :
    Extends env r.1 := by
  rw [← Option.some.inj h]
  exact .refl env

theorem extends_of_runLines {file : List (String × String)} {all : List Line} {r : Env × Bool}
    (h : runLines env file all = some r) : Extends env r.1 := by
  induction all generalizing env file with
  | nil => exact extends_of_stop h
  | cons line more ih =>
      cases line with
      | fault => exact extends_of_stop h
      | text cs =>
          rw [runLines] at h
          cases hRead : readLine (referred env.get? file) cs with
          | nothing =>
              rw [hRead] at h
              exact ih h
          | malformed =>
              rw [hRead] at h
              exact extends_of_stop h
          | assignment name value =>
              rw [hRead] at h
              dsimp only at h
              cases hSet : env.setNew name (value.getD "") with
              | none => simp [hSet] at h
              | some next =>
                  rw [hSet] at h
                  exact (extends_of_setNew hSet).trans (ih h)

theorem extends_of_foldlM_fill {all : List (String × String)} (h : all.foldlM fill env = some now) :
    Extends env now := by
  induction all generalizing env with
  | nil =>
      obtain rfl := Option.some.inj h
      exact .refl env
  | cons entry more ih =>
      rw [List.foldlM_cons] at h
      obtain ⟨next, hFill, hMore⟩ := Option.bind_eq_some_iff.1 h
      refine Extends.trans ?_ (ih hMore)
      rw [fill] at hFill
      split at hFill
      next =>
        obtain rfl := Option.some.inj hFill
        exact .refl env
      next => exact extends_of_set hFill

theorem extends_of_loadLocal {bytes : List UInt8} (h : loadLocal env bytes = some now) : Extends env now := by
  rw [loadLocal] at h
  obtain ⟨⟨next, wellFormed⟩, hRun, hRest⟩ := Option.bind_eq_some_iff.1 h
  refine (extends_of_runLines hRun).trans ?_
  cases wellFormed with
  | true =>
      obtain rfl := Option.some.inj hRest
      exact .refl next
  | false =>
      dsimp only at hRest
      cases hText : Text.ofUtf8? bytes with
      | none =>
          rw [hText] at hRest
          obtain rfl := Option.some.inj hRest
          exact .refl next
      | some text =>
          rw [hText] at hRest
          exact extends_of_foldlM_fill hRest

theorem extends_of_loadCommon {bytes : List UInt8} (h : loadCommon env bytes = some now) : Extends env now := by
  obtain ⟨r, hRun, rfl⟩ := Option.map_eq_some_iff.1 h
  exact extends_of_runLines hRun

end Extends

/-- How a variable is settled: its value in the environment in front of the files, between the local file and the
common one, and behind both. -/
structure IsSettled (before middle after : String → Option String) (localBytes commonBytes : List UInt8)
    (key : String) : Prop where
  kept : IsFilled (before key) → middle key = before key ∧ after key = before key
  accepted : IsAccepted before localBytes →
    ((before key).isSome = true → middle key = before key) ∧
      (before key = none → middle key = firstAssigned? before localBytes key)
  rejected : ¬ IsAccepted before localBytes →
    (IsFilled (strictValue? before localBytes key) → middle key = strictValue? before localBytes key) ∧
      (¬ IsFilled (strictValue? before localBytes key) →
        middle key = (preferred? (found localBytes key)).or (strictValue? before localBytes key))
  common : ((middle key).isSome = true → after key = middle key) ∧
    (middle key = none → after key = firstAssigned? middle commonBytes key)
  isSome : ((before key).isSome = true → (middle key).isSome = true) ∧
    ((middle key).isSome = true → (after key).isSome = true)

section

variable {get : String → Option String} {bytes : List UInt8} {key value : String}

theorem strictValue?_of_isSome (bytes : List UInt8) (h : (get key).isSome = true) :
    strictValue? get bytes key = get key := by
  obtain ⟨value, hValue⟩ := Option.isSome_iff_exists.1 h
  rw [strictValue?, hValue]
  rfl

theorem strictValue?_of_none (bytes : List UInt8) (h : get key = none) :
    strictValue? get bytes key = firstAssigned? get bytes key := by
  rw [strictValue?, h]
  rfl

theorem isSome_of_isFilled (h : IsFilled (get key)) : (get key).isSome = true := by
  cases hGet : get key with
  | none =>
      rw [hGet] at h
      exact nomatch h
  | some value => rfl

theorem localValue?_of_isFilled (bytes : List UInt8) (h : IsFilled (get key)) :
    localValue? get bytes key = get key := by
  obtain ⟨value, hValue⟩ := Option.isSome_iff_exists.1 (isSome_of_isFilled h)
  have hStrict := strictValue?_of_isSome bytes (isSome_of_isFilled h)
  rw [hValue] at h hStrict ⊢
  exact localValue?_of_filled hStrict h

theorem isSome_localValue? (bytes : List UInt8) (h : (get key).isSome = true) :
    (localValue? get bytes key).isSome = true := by
  have hStrict : (strictValue? get bytes key).isSome = true := by
    rw [strictValue?_of_isSome bytes h]
    exact h
  rw [localValue?]
  split
  · exact hStrict
  · rw [filledValue?]
    split
    · exact hStrict
    · rw [Option.isSome_or, hStrict, Bool.or_true]

theorem isSettled_strictValue? (get : String → Option String) (localBytes commonBytes : List UInt8) (key : String) :
    IsSettled get (localValue? get localBytes) (strictValue? (localValue? get localBytes) commonBytes) localBytes
      commonBytes key := by
  have hStays (hSome : (localValue? get localBytes key).isSome = true) :
      strictValue? (localValue? get localBytes) commonBytes key = localValue? get localBytes key :=
    strictValue?_of_isSome commonBytes hSome
  constructor
  case kept =>
    intro hFilled
    have hMiddle := localValue?_of_isFilled localBytes hFilled
    exact ⟨hMiddle, (hStays (isSome_localValue? localBytes (isSome_of_isFilled hFilled))).trans hMiddle⟩
  case accepted =>
    intro hAccepted
    rw [localValue?, if_pos hAccepted]
    exact ⟨strictValue?_of_isSome localBytes, strictValue?_of_none localBytes⟩
  case rejected =>
    intro hRejected
    rw [localValue?, if_neg hRejected, filledValue?]
    exact ⟨fun hFilled => if_pos hFilled, fun hBlank => if_neg hBlank⟩
  case common => exact ⟨hStays, strictValue?_of_none commonBytes⟩
  case isSome =>
    refine ⟨isSome_localValue? localBytes, fun hSome => ?_⟩
    rw [hStays hSome]
    exact hSome

/-- A variable that was unset has a value from one of the files, if it has one. -/
theorem strictValue?_cases {localBytes commonBytes : List UInt8} (hUnset : get key = none)
    (h : strictValue? (localValue? get localBytes) commonBytes key = some value) :
    firstAssigned? get localBytes key = some value ∨ value ∈ found localBytes key ∨
      firstAssigned? (localValue? get localBytes) commonBytes key = some value := by
  have hStrict {v : String} (hValue : strictValue? get localBytes key = some v) :
      firstAssigned? get localBytes key = some v := by rw [← strictValue?_of_none localBytes hUnset, hValue]
  rw [strictValue?, Option.or_eq_some_iff] at h
  rcases h with hLocal | ⟨-, hCommon⟩
  · rw [localValue?] at hLocal
    split at hLocal
    next => exact Or.inl (hStrict hLocal)
    next =>
      rw [filledValue?] at hLocal
      split at hLocal
      next => exact Or.inl (hStrict hLocal)
      next =>
        rw [Option.or_eq_some_iff] at hLocal
        rcases hLocal with hFound | ⟨-, hValue⟩
        · exact Or.inr (Or.inl (mem_of_preferred? hFound))
        · exact Or.inl (hStrict hValue)
  · exact Or.inr (Or.inr hCommon)

end

/-- The line in the middle is malformed, so the one behind it is read leniently, where a blank value gives way. The
second assignment in the common file comes too late. -/
example :
    let middle := localValue? (fun _ => none) (Text.utf8 "BIND_ADDR=\n-\nBIND_ADDR=:80\n")
    let after := strictValue? middle (Text.utf8 "PACKS_DIR=packs\nPACKS_DIR=all\n")
    after "BIND_ADDR" = some ":80" ∧ after "PACKS_DIR" = some "packs" := by
  decide +kernel

theorem load_eq (t : FileTree) (cwd : Place) (env : Env) :
    load t cwd env = loadLocal env ((localFile? t cwd).getD []) >>= fun now =>
      loadCommon now ((commonFileFrom? t (ancestors cwd)).getD []) := by
  rw [load]
  cases localFile? t cwd <;> cases commonFileFrom? t (ancestors cwd) <;> rfl

theorem extends_of_load {t : FileTree} {cwd : Place} {env now : Env} (h : load t cwd env = some now) :
    Extends env now := by
  rw [load_eq] at h
  obtain ⟨middle, hLocal, hCommon⟩ := Option.bind_eq_some_iff.1 h
  exact (extends_of_loadLocal hLocal).trans (extends_of_loadCommon hCommon)

theorem yields_load (t : FileTree) (cwd : Place) (env : Env) :
    Yields (load t cwd env) (strictValue? (localValue? env.get? ((localFile? t cwd).getD []))
      ((commonFileFrom? t (ancestors cwd)).getD [])) := by
  rw [load_eq]
  refine (yields_loadLocal env _).bind (fun now hNow => ?_) fun key value hValue _ => ?_
  · rw [← hNow]
    exact yields_loadCommon now _
  · rw [strictValue?_of_isSome _ (by rw [hValue]; rfl), hValue]

/-- Every variable that is unset or holds a text is settled by the nearest local file, not more than six folders above
the working folder, and by the nearest common file. A file that is not there is as good as an empty one. The program
ends when a variable would get a value with a NUL in it, and no variable is ever unset. -/
theorem isSettled_load (t : FileTree) (cwd : Place) (env : Env) :
    ∃ localBytes? commonBytes? : Option (List UInt8), ∃ middle after : String → Option String,
      (∀ bytes, localBytes? = some bytes ↔
        ∃ nearer, IsNearest t ".env.local" ((ancestors cwd).take (6 + 1)) nearer bytes) ∧
      (∀ bytes, commonBytes? = some bytes ↔
        ∃ nearer, IsNearest t ".env" (ancestors cwd) nearer bytes ∧ ∀ p ∈ nearer, IsClear t ".env" p) ∧
      (∀ key, env.IsLegible key →
        IsSettled env.get? middle after (localBytes?.getD []) (commonBytes?.getD []) key) ∧
      (∀ key value, ¬ env.IsLegible key → after key = some value →
        firstAssigned? env.get? (localBytes?.getD []) key = some value ∨ value ∈ found (localBytes?.getD []) key ∨
          firstAssigned? middle (commonBytes?.getD []) key = some value) ∧
      (load t cwd env = none ↔ ∃ key value, after key = some value ∧ '\x00' ∈ value.toList) ∧
      ∀ now, load t cwd env = some now →
        (∀ key, env.IsLegible key → now.IsLegible key ∧ now.get? key = after key) ∧
          ∀ key, (env.lookup key).isSome = true → (now.lookup key).isSome = true := by
  have hYields := yields_load t cwd env
  refine ⟨localFile? t cwd, commonFileFrom? t (ancestors cwd), _, _, localFile?_eq_some_iff t cwd,
    commonFileFrom?_eq_some_iff t (ancestors cwd), fun key _ => isSettled_strictValue? env.get? _ _ key,
    fun key value hIllegible hValue => strictValue?_cases ?_ hValue, hYields.eq_none_iff, fun now hNow => ?_⟩
  · by_contra hSet
    obtain ⟨value, hValue⟩ := Option.ne_none_iff_exists'.1 hSet
    obtain ⟨v, hLookup, hText⟩ := Option.bind_eq_some_iff.1 hValue
    refine hIllegible fun w hOther => ?_
    obtain rfl := Option.some.inj (hLookup.symm.trans hOther)
    rw [hText]
    rfl
  · have hExtends := extends_of_load hNow
    exact ⟨fun key hKey => ⟨hExtends.isLegible hKey, congrFun (hYields.get? now hNow) key⟩,
      fun key hSet => hExtends.isSome_lookup hSet⟩

/-- A path in an encoding that is not UTF-8. -/
def oldPath : Value := ⟨Text.utf8 "/srv/" ++ [0xC6, 0xD1], by decide +kernel⟩

/-- The first line of the local file is malformed. -/
def fencedFolder : FileTree := .ofNodes [([".env.local"], .file (Text.utf8 "'''\nBUILD_ROOT=packs\n") 0)]

/-- In the common file stands a NUL. -/
def spoiledFolder : FileTree := .ofNodes [([".env"], .file (Text.utf8 "PACKS_DIR=a\x00b\n") 0)]

/-- In a folder below the common file stands a link of the same name, which leads to itself. -/
def tangledFolder : FileTree :=
  .ofNodes [([".env"], .file (Text.utf8 "BIND_ADDR=:80\n") 0), (["sub"], .folder), (["sub", ".env"], .link ".env")]

/-- A value that is no text is overwritten, a NUL in a file ends the program, and no common file is read behind an
obstructed path. -/
theorem precedence_ends :
    (∃ now, load fencedFolder [] [("BUILD_ROOT", oldPath)] = some now ∧ now.get? "BUILD_ROOT" = some "packs") ∧
      load spoiledFolder [] [] = none ∧
      IsNearest tangledFolder ".env" (ancestors ["sub"]) [["sub"]] (Text.utf8 "BIND_ADDR=:80\n") ∧
      firstAssigned? (get? []) (Text.utf8 "BIND_ADDR=:80\n") "BIND_ADDR" = some ":80" ∧
      load tangledFolder ["sub"] [] = some [] := by
  refine ⟨?overwritten, by cbv, ?nearest, by cbv, by cbv⟩
  case overwritten =>
    have hLocal : localFile? fencedFolder [] = some (Text.utf8 "'''\nBUILD_ROOT=packs\n") := by cbv
    have hCommon : commonFileFrom? fencedFolder (ancestors []) = none := by cbv
    have hLoaded : (loadLocal [("BUILD_ROOT", oldPath)] (Text.utf8 "'''\nBUILD_ROOT=packs\n")).map
        (·.get? "BUILD_ROOT") = some (some "packs") := by decide +kernel
    obtain ⟨now, hNow, hValue⟩ := Option.map_eq_some_iff.1 hLoaded
    refine ⟨now, ?_, hValue⟩
    rw [load, hLocal, hCommon]
    dsimp only
    rw [hNow]
    rfl
  case nearest =>
    have hRead : tangledFolder.read? [] ".env" = some (Text.utf8 "BIND_ADDR=:80\n") := by cbv
    have hNone : tangledFolder.read? ["sub"] ".env" = none := by cbv
    exact ⟨[], List.prefix_refl _, hRead, by simpa using hNone⟩

end Phrasebook.Env
