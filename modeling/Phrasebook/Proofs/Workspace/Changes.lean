import Phrasebook.Proofs.Store.History
import Phrasebook.Workspace.Command

/-!
What commands do to the store. Whatever a command is and however it ends, the store behind it is one that
a history of changes leads to. Every content among these changes was validated, every new name is trimmed,
and every batch comes with its digests.
-/

namespace Phrasebook

open Store (Change)

/-- Work on a state that has a store: wherever it begins and however it ends, the store is then behind a
history of changes that satisfy `P`. -/
def MadeOf {σ α : Type} (store : σ → Store) (P : Change → Prop) (op : EStateM Failure σ α) : Prop :=
  ∀ w, ∃ changes, (∀ c ∈ changes, P c) ∧ store (endOf (op w)) = (store w).after changes

namespace MadeOf

variable {σ α β : Type} {store : σ → Store} {P : Change → Prop}

/-- Work that leaves the store alone. -/
theorem of_same {op : EStateM Failure σ α} (h : ∀ w, store (endOf (op w)) = store w) :
    MadeOf store P op :=
  fun w => ⟨[], by simp, h w⟩

theorem of_change {op : EStateM Failure σ α} (c : Change) (hc : P c)
    (h : ∀ w, store (endOf (op w)) = c.apply (store w)) : MadeOf store P op :=
  fun w => ⟨[c], by simpa using hc, h w⟩

theorem mono {Q : Change → Prop} {op : EStateM Failure σ α} (h : MadeOf store P op)
    (hImp : ∀ c, P c → Q c) : MadeOf store Q op := by
  intro w
  obtain ⟨changes, hAll, hEnd⟩ := h w
  exact ⟨changes, fun c hc => hImp c (hAll c hc), hEnd⟩

theorem pure (a : α) : MadeOf store P (Pure.pure a) := of_same fun _ => rfl

theorem bind {op : EStateM Failure σ α} {f : α → EStateM Failure σ β} (h : MadeOf store P op)
    (k : ∀ a, MadeOf store P (f a)) : MadeOf store P (op >>= f) := by
  intro w
  obtain ⟨changes, hAll, hEnd⟩ := h w
  cases hOp : op w with
  | error e v =>
      rw [hOp] at hEnd
      refine ⟨changes, hAll, ?_⟩
      simp only [Bind.bind, EStateM.bind, hOp]
      exact hEnd
  | ok a v =>
      rw [hOp] at hEnd
      obtain ⟨more, hMore, hLast⟩ := k a v
      refine ⟨changes ++ more, List.forall_mem_append.2 ⟨hAll, hMore⟩, ?_⟩
      simp only [Bind.bind, EStateM.bind, hOp]
      rw [hLast, Store.after, Store.after, List.foldl_append]
      exact congrArg (fun s => more.foldl Change.apply s) hEnd

end MadeOf

/-- A change that a command may make. -/
def Store.Change.IsProper (c : Change) : Prop := c.IsAdmissible ∧ c.IsClean

/-- A change that an import makes: a batch, with the digests of its contents. -/
def Store.Change.IsBatch (c : Change) : Prop :=
  ∃ source batch, c = .addBatch source batch ∧ ∀ e ∈ batch, e.2 = Text.digest e.1

theorem Store.Change.IsBatch.isProper {c : Change} (h : c.IsBatch) : c.IsProper := by
  obtain ⟨source, batch, rfl, hDigests⟩ := h
  exact ⟨trivial, hDigests⟩

namespace Import

variable {lookup size : Nat}

theorem addBatch_madeOf (source : String) {batch : List (String × String)}
    (hDigests : ∀ e ∈ batch, e.2 = Text.digest e.1) (tally : Tally) :
    MadeOf id Change.IsBatch (addBatch (.store lookup) source batch tally) :=
  .bind (.of_change (.addBatch source batch) ⟨source, batch, rfl, hDigests⟩ fun _ => rfl)
    fun _ => .pure _

theorem addTexts_madeOf (source : String) {waiting records : List (String × String)}
    (hWaiting : ∀ e ∈ waiting, e.2 = Text.digest e.1)
    (hRecords : ∀ e ∈ records, e.2 = Text.digest e.1) (known : List String) (tally : Tally) :
    MadeOf id Change.IsBatch (addTexts (.store lookup) size source known waiting tally records) := by
  induction records generalizing known waiting tally with
  | nil =>
      rw [addTexts]
      split
      · exact .pure tally
      · exact addBatch_madeOf source hWaiting tally
  | cons e more ih =>
      rw [List.forall_mem_cons] at hRecords
      have hMore : ∀ e' ∈ waiting ++ [e], e'.2 = Text.digest e'.1 :=
        List.forall_mem_append.2 ⟨hWaiting, List.forall_mem_singleton.2 hRecords.1⟩
      rw [addTexts]
      split
      · exact ih hWaiting hRecords.2 known tally.passOver
      · dsimp only
        split
        · exact ih hMore hRecords.2 _ tally
        · exact .bind (addBatch_madeOf source hMore tally) fun tally =>
            ih (by simp) hRecords.2 _ tally

/-- Everything that is imported comes with its digest. -/
theorem importSource_madeOf (source : String) (records : List String) (tally : Tally) :
    MadeOf id Change.IsBatch (importSource (.store lookup) size source records tally) := by
  refine .bind (.of_same fun _ => rfl) fun known => ?_
  refine addTexts_madeOf source (by simp) (fun e he => ?_) known tally
  obtain ⟨content, -, rfl⟩ := List.mem_map.1 he
  rfl

theorem importFiles_madeOf (t : FileTree) (cwd : Place) (folder : String) (names : List String)
    (tally : Tally) :
    MadeOf id Change.IsBatch (importFiles (.store lookup) size t cwd folder names tally) := by
  induction names generalizing tally with
  | nil => exact .pure tally
  | cons name more ih =>
      rw [importFiles]
      split
      · exact .bind (importSource_madeOf _ _ tally) fun tally => ih tally
      · exact ih tally

theorem run_madeOf {limits : Limits} (t : FileTree) (cwd : Place) (folder : String) :
    MadeOf id Change.IsBatch (run limits t cwd folder) := by
  unfold run runOn
  split
  next =>
    dsimp only
    split
    · exact .pure _
    · exact .bind (importFiles_madeOf t cwd folder _ _) fun _ => .pure _
  next => exact .of_same fun _ => rfl

end Import

namespace Workspace

variable {P : Change → Prop} {α : Type}

theorem onStore_madeOf {op : Store.Op α} (h : MadeOf id P op) :
    MadeOf Workspace.store P (onStore op) := by
  intro w
  obtain ⟨changes, hAll, hEnd⟩ := h w.store
  refine ⟨changes, hAll, ?_⟩
  rw [onStore]
  cases hOp : op w.store <;> rw [hOp] at hEnd <;> exact hEnd

theorem askStore_madeOf (f : Store → Except Failure α) : MadeOf Workspace.store P (askStore f) :=
  onStore_madeOf (.of_same fun s => Store.endOf_ask f s)

theorem onFiles_madeOf (work : Build.Work α) : MadeOf Workspace.store P (onFiles work) := by
  refine .of_same fun w => ?_
  rw [onFiles]
  cases work w.files <;> rfl

theorem attempt_madeOf {op : Op α} (h : MadeOf Workspace.store P op) :
    MadeOf Workspace.store P (attempt op) := by
  intro w
  obtain ⟨changes, hAll, hEnd⟩ := h w
  refine ⟨changes, hAll, ?_⟩
  rw [attempt]
  cases hOp : op w <;> rw [hOp] at hEnd <;> exact hEnd

theorem exportPack_madeOf (u : Setup) (keep : Bool) (now : Int) :
    MadeOf Workspace.store P (exportPack u keep now) :=
  .bind (askStore_madeOf _) fun _ => .bind (onFiles_madeOf _) fun _ => .pure _

theorem refresh_madeOf (u : Setup) (now : Int) : MadeOf Workspace.store P (refresh u now) :=
  attempt_madeOf (exportPack_madeOf u true now)

theorem send_madeOf (u : Setup) (notice : Notifier → Notice) :
    MadeOf Workspace.store P (send u notice) := by
  unfold send
  split
  · exact .bind (.of_same fun _ => rfl) fun _ => .pure ()
  · exact .pure ()

theorem announce_madeOf (u : Setup) (m : Matcher) (action : Audit.Action) (actor : String)
    (now : Int) : MadeOf Workspace.store P (announce u m action actor now) :=
  .bind (refresh_madeOf u now) fun _ => send_madeOf u _

/-- Work with a checked result begins only when there is one. -/
theorem check_madeOf {β : Type} {result : Except Failure α} {f : α → Op β}
    (h : ∀ a, result = .ok a → MadeOf Workspace.store P (f a)) :
    MadeOf Workspace.store P (check result >>= f) := by
  cases result with
  | error e => exact .of_same fun _ => rfl
  | ok a => exact h a rfl

/-- A draft whose groups can be read again is validated to a content that can be added. -/
theorem isAdmissible_of_validate {d : Draft} {c : Matcher.Content} (h : d.validate = .ok c)
    (hReadable : Group.AreReadable d.groups) :
    (∃ d : Draft, d.validate = .ok c) ∧ Group.AreReadable c.groups := by
  obtain ⟨-, spec, -, hContent⟩ := (Draft.validate_eq_ok_iff d c).1 h
  exact ⟨⟨d, h⟩, by rw [hContent]; exact hReadable⟩

variable (u : Setup) (actor : String) (now : Int)

theorem createMatcher_madeOf {d : Draft} (hReadable : Group.AreReadable d.groups) :
    MadeOf Workspace.store Change.IsProper (createMatcher u d actor now) := by
  refine check_madeOf fun c hValid => .bind (onStore_madeOf ?_) fun m =>
    .bind (announce_madeOf u m _ actor now) fun _ => .pure m
  exact .of_change (.add c actor now) ⟨isAdmissible_of_validate hValid hReadable, trivial⟩
    fun _ => rfl

theorem updateMatcher_madeOf (id : Int) {d : Draft} (hReadable : Group.AreReadable d.groups) :
    MadeOf Workspace.store Change.IsProper (updateMatcher u id d actor now) := by
  refine check_madeOf fun c hValid => .bind (onStore_madeOf ?_) fun m =>
    .bind (announce_madeOf u m _ actor now) fun _ => .pure m
  exact .of_change (.update id c actor now) ⟨isAdmissible_of_validate hValid hReadable, trivial⟩
    fun _ => rfl

theorem deleteMatcher_madeOf (id : Int) :
    MadeOf Workspace.store Change.IsProper (deleteMatcher u id actor now) :=
  .bind (onStore_madeOf (.of_change (.remove id actor now) ⟨trivial, trivial⟩ fun _ => rfl))
    fun m => .bind (announce_madeOf u m _ actor now) fun _ => .pure m

/-- A renaming trims the new name before anything else. -/
theorem renameCategory_madeOf (old new : String) (dryRun : Bool) :
    MadeOf Workspace.store Change.IsProper (renameCategory u old new actor dryRun now) := by
  unfold renameCategory
  dsimp only
  split
  next => exact .bind (askStore_madeOf _) fun _ => .pure _
  next =>
    refine .bind (onStore_madeOf ?_) fun _ => .bind (refresh_madeOf u now) fun _ => .pure _
    exact .of_change (.rename (Text.trim old) (Text.trim new) actor now)
      ⟨trivial, Text.trim_trim new⟩ fun _ => rfl

theorem addPhrase_madeOf (source content : String) :
    MadeOf Workspace.store Change.IsProper (addPhrase u source content actor now) :=
  .bind
    (onStore_madeOf
      (.of_change (.addPhrase source content actor now) ⟨trivial, trivial⟩ fun _ => rfl))
    fun p => .bind (send_madeOf u _) fun _ => .pure p

theorem deletePhrase_madeOf (id : Int) :
    MadeOf Workspace.store Change.IsProper (deletePhrase u id actor now) :=
  .bind (onStore_madeOf (.of_change (.removePhrase id actor now) ⟨trivial, trivial⟩ fun _ => rfl))
    fun p => .bind (send_madeOf u _) fun _ => .pure p

theorem builds_madeOf : MadeOf Workspace.store Change.IsProper (builds u) := by
  refine .of_same fun w => ?_
  unfold builds
  split <;> rfl

end Workspace

namespace Command

/-- The groups of the drafts in a command can be read again. -/
def IsReadable : Command → Prop
  | createMatcher draft _ | updateMatcher _ draft _ => Group.AreReadable draft.groups
  | _ => True

/-- What a command does to the store, successful or not, is made of proper changes. -/
theorem run_madeOf (u : Setup) (now : Int) {c : Command} (hc : c.IsReadable) :
    MadeOf Workspace.store Change.IsProper (c.run u now) := by
  cases c with
  | createMatcher d actor =>
      exact .bind (Workspace.createMatcher_madeOf u actor now hc) fun _ => .pure _
  | updateMatcher id d actor =>
      exact .bind (Workspace.updateMatcher_madeOf u actor now id hc) fun _ => .pure _
  | deleteMatcher id actor =>
      exact .bind (Workspace.deleteMatcher_madeOf u actor now id) fun _ => .pure _
  | rename old new actor dryRun =>
      exact .bind (Workspace.renameCategory_madeOf u actor now old new dryRun) fun _ => .pure _
  | addPhrase source content actor =>
      exact .bind (Workspace.addPhrase_madeOf u actor now source content) fun _ => .pure _
  | deletePhrase id actor =>
      exact .bind (Workspace.deletePhrase_madeOf u actor now id) fun _ => .pure _
  | importPacks folder =>
      refine .bind ?_ fun _ => .pure _
      exact fun w => Workspace.onStore_madeOf
        ((Import.run_madeOf w.files u.cwd _).mono fun _ h => h.isProper) w
  | exportPack keep => exact .bind (Workspace.exportPack_madeOf u keep now) fun _ => .pure _
  | builds => exact .bind (Workspace.builds_madeOf u) fun _ => .pure _
  | getMatcher | listMatchers | categories | listPhrases | sources | preview | activity | recent =>
      exact .bind (Workspace.askStore_madeOf _) fun _ => .pure _

end Command

end Phrasebook
