import Phrasebook.Proofs.Workspace.Changes

/-!
Exports within commands. A command comes to an export when its work on the store has succeeded, and the
files behind the command are then those behind the export. A command that comes to no export leaves the
files as they were, and nothing that concerns matchers changes in its course.
-/

namespace Phrasebook

open Store (SameTable Change)

namespace Workspace

variable {α β : Type}

theorem bind_pure_ok {op : Op α} {g : α → β} {w v : Workspace} {a : α} (h : op w = .ok a v) :
    (op >>= fun a => pure (g a)) w = .ok (g a) v := by
  simp only [bind, EStateM.bind, h]
  rfl

/-- What is made of a result in the end has no effect. -/
theorem endOf_bind_pure (op : Op α) (g : α → β) (w : Workspace) :
    endOf ((op >>= fun a => pure (g a)) w) = endOf (op w) := by
  cases hOp : op w with
  | ok a v => rw [bind_pure_ok hOp]; rfl
  | error e v => simp only [bind, EStateM.bind, hOp]; rfl

/-- The files are the same, and nothing that concerns matchers differs. -/
structure SameBuild (w v : Workspace) : Prop where
  files : v.files = w.files
  table : SameTable w.store v.store

theorem SameBuild.refl (w : Workspace) : SameBuild w w := ⟨rfl, .refl w.store⟩

theorem SameBuild.trans {w v x : Workspace} (h : SameBuild w v) (k : SameBuild v x) :
    SameBuild w x :=
  ⟨k.files.trans h.files, h.table.trans k.table⟩

/-- Work that has nothing to do with builds. -/
def IsQuiet (op : Op α) : Prop := ∀ w, SameBuild w (endOf (op w))

theorem IsQuiet.bind {op : Op α} {f : α → Op β} (h : IsQuiet op) (k : ∀ a, IsQuiet (f a)) :
    IsQuiet (op >>= f) := by
  intro w
  have hFirst := h w
  cases hOp : op w with
  | error e v =>
      simp only [Bind.bind, EStateM.bind, hOp]
      rwa [hOp] at hFirst
  | ok a v =>
      simp only [Bind.bind, EStateM.bind, hOp]
      rw [hOp] at hFirst
      exact hFirst.trans (k a v)

theorem IsQuiet.pure (a : α) : IsQuiet (Pure.pure a) := fun w => .refl w

theorem onStore_isQuiet {op : Store.Op α} (h : ∀ s, SameTable s (endOf (op s))) :
    IsQuiet (onStore op) := by
  intro w
  have hTable := h w.store
  rw [onStore]
  cases hOp : op w.store <;> rw [hOp] at hTable <;> exact ⟨rfl, hTable⟩

theorem askStore_isQuiet (f : Store → Except Failure α) : IsQuiet (askStore f) := by
  refine onStore_isQuiet fun s => ?_
  rw [Store.endOf_ask]
  exact .refl s

/-- The notices behind work that has one to send, whatever becomes of it. -/
def sending (u : Setup) (notice : Notifier → Notice) (sent : List Notice) : List Notice :=
  if u.notifier.enabled then sent ++ [notice u.notifier] else sent

/-- A notice leaves everything else alone. -/
theorem send_eq (u : Setup) (notice : Notifier → Notice) (w : Workspace) :
    send u notice w = .ok () { w with sent := sending u notice w.sent } := by
  rw [send, sending]
  split <;> rfl

theorem send_isQuiet (u : Setup) (notice : Notifier → Notice) : IsQuiet (send u notice) := by
  intro w
  rw [send_eq]
  exact ⟨rfl, .refl w.store⟩

theorem builds_isQuiet (u : Setup) : IsQuiet (builds u) := by
  intro w
  unfold builds
  split <;> exact .refl w

/-- Batches concern no matcher, however many there are. -/
theorem sameTable_of_batches {op : Store.Op α} (h : MadeOf id Change.IsBatch op) (s : Store) :
    SameTable s (endOf (op s)) := by
  obtain ⟨changes, hBatches, hEnd⟩ := h s
  rw [id, id] at hEnd
  rw [hEnd]
  clear hEnd
  induction changes generalizing s with
  | nil => exact .refl s
  | cons c more ih =>
      rw [List.forall_mem_cons] at hBatches
      obtain ⟨source, batch, rfl, -⟩ := hBatches.1
      exact (Store.putPhrases_sameTable source batch s).trans (ih _ hBatches.2)

/-- How work goes that comes to an export in the workspace `v`. -/
structure ExportsAt (u : Setup) (keep : Bool) (now : Int) (w v : Workspace)
    (r : EStateM.Result Failure Workspace α) : Prop where
  begun : v.files = w.files
  store : (endOf r).store = v.store
  files : (endOf r).files = (endOf (exportPack u keep now v)).files
  succeeds : ∀ report v', exportPack u keep now v = .ok report v' → ∃ a v', r = .ok a v'

theorem ExportsAt.bind_pure {u : Setup} {keep : Bool} {now : Int} {w v : Workspace} {op : Op α}
    (h : ExportsAt u keep now w v (op w)) (g : α → β) :
    ExportsAt u keep now w v ((op >>= fun a => pure (g a)) w) where
  begun := h.begun
  store := by rw [endOf_bind_pure, h.store]
  files := by rw [endOf_bind_pure, h.files]
  succeeds report v' hExport := by
    obtain ⟨a, x, hOk⟩ := h.succeeds report v' hExport
    exact ⟨g a, x, bind_pure_ok hOk⟩

/-- An export leaves the store alone. -/
theorem endOf_exportPack_store (u : Setup) (keep : Bool) (now : Int) (w : Workspace) :
    (endOf (exportPack u keep now w)).store = w.store := by
  obtain ⟨changes, hNone, hEnd⟩ := exportPack_madeOf (P := fun _ => False) u keep now w
  cases changes with
  | nil => exact hEnd
  | cons c more => exact (hNone c List.mem_cons_self).elim

/-- Work that renews the build and never fails. -/
def Renews (u : Setup) (now : Int) (op : Op α) : Prop :=
  ∀ w, (∃ a v, op w = .ok a v) ∧ (endOf (op w)).store = w.store ∧
    (endOf (op w)).files = (endOf (exportPack u true now w)).files

theorem refresh_renews (u : Setup) (now : Int) : Renews u now (refresh u now) := by
  intro w
  have hStore := endOf_exportPack_store u true now w
  rw [refresh, attempt]
  cases hExport : exportPack u true now w <;> rw [hExport] at hStore <;>
    exact ⟨⟨_, _, rfl⟩, hStore, rfl⟩

theorem announce_renews (u : Setup) (m : Matcher) (action : Audit.Action) (actor : String)
    (now : Int) : Renews u now (announce u m action actor now) := by
  intro w
  obtain ⟨⟨_, v, hRefresh⟩, hStore, hFiles⟩ := refresh_renews u now w
  rw [hRefresh] at hStore hFiles
  have hRun : announce u m action actor now w =
      .ok () { v with sent := sending u (fun n => .ofMatcher n m action actor now) v.sent } := by
    simp only [announce, bind, EStateM.bind, hRefresh, send_eq]
  rw [hRun]
  exact ⟨⟨_, _, rfl⟩, hStore, hFiles⟩

/-- The workspace in which a build is renewed, if work on the store succeeds before. Copies are kept. -/
def renewalAfter? (op : Store.Op α) (w : Workspace) : Option (Bool × Workspace) :=
  match op w.store with
  | .ok _ s => some (true, { w with store := s })
  | .error .. => none

theorem exportsAt_of_renewal {u : Setup} {keep : Bool} {now : Int} {op : Store.Op α}
    {f : α → Op Unit} (hRenews : ∀ a, Renews u now (f a)) {g : α → β} {w v : Workspace}
    (h : renewalAfter? op w = some (keep, v)) :
    ExportsAt u keep now w v ((do let a ← onStore op; f a; return g a : Op β) w) := by
  unfold renewalAfter? at h
  split at h
  next a s hOp =>
    obtain ⟨rfl, rfl⟩ := Prod.mk.inj (Option.some.inj h)
    obtain ⟨⟨_, x, hOk⟩, hStore, hFiles⟩ := hRenews a { w with store := s }
    have hRun : (do let a ← onStore op; f a; return g a : Op β) w = .ok (g a) x := by
      simp only [bind, EStateM.bind, onStore, hOp, hOk]
      rfl
    rw [hOk] at hStore hFiles
    rw [hRun]
    exact ⟨rfl, hStore, hFiles, fun _ _ _ => ⟨_, _, rfl⟩⟩
  next => simp at h

/-- Work on the store that fails leaves everything else alone. -/
theorem endOf_of_no_renewal {op : Store.Op α} {f : α → Op β} {w : Workspace}
    (h : renewalAfter? op w = none) :
    ∃ e s, op w.store = .error e s ∧ endOf ((onStore op >>= f) w) = { w with store := s } := by
  unfold renewalAfter? at h
  split at h
  next => simp at h
  next e s hOp =>
    refine ⟨e, s, hOp, ?_⟩
    simp only [bind, EStateM.bind, onStore, hOp]
    rfl

theorem check_bind_ok {result : Except Failure α} {a : α} (h : result = .ok a) (f : α → Op β)
    (w : Workspace) : (check result >>= f) w = f a w := by
  rw [h]
  rfl

theorem check_bind_error {result : Except Failure α} {e : Failure} (h : result = .error e)
    (f : α → Op β) (w : Workspace) : (check result >>= f) w = .error e w := by
  rw [h]
  rfl

end Workspace

namespace Command

open Workspace

/-- Whether a command can come to an export. -/
def mayExport : Command → Bool
  | createMatcher .. | updateMatcher .. | deleteMatcher .. | exportPack _ => true
  | rename _ _ _ dryRun => !dryRun
  | _ => false

/-- The workspace in which the export of a command begins, and whether copies are kept. There is no export
when work before it fails. -/
def exportFrom? (now : Int) (w : Workspace) : Command → Option (Bool × Workspace)
  | createMatcher draft actor =>
    match draft.validate with
    | .ok content => renewalAfter? (Store.addMatcher content actor now) w
    | .error _ => none
  | updateMatcher id draft actor =>
    match draft.validate with
    | .ok content => renewalAfter? (Store.updateMatcher id content actor now) w
    | .error _ => none
  | deleteMatcher id actor => renewalAfter? (Store.removeMatcher id actor now) w
  | rename old new actor dryRun =>
    if dryRun then none
    else renewalAfter? (Store.rename (Text.trim old) (Text.trim new) actor now) w
  | exportPack keep => some (keep, w)
  | _ => none

theorem exportFrom?_of_mayExport {c : Command} (h : c.mayExport = false) (now : Int)
    (w : Workspace) : c.exportFrom? now w = none := by
  cases c with
  | rename old new actor dryRun =>
      obtain rfl : dryRun = true := by simpa [mayExport] using h
      rfl
  | createMatcher | updateMatcher | deleteMatcher | exportPack => simp [mayExport] at h
  | getMatcher | listMatchers | categories | addPhrase | deletePhrase | listPhrases | sources
  | preview | importPacks | builds | activity | recent => rfl

variable {u : Setup} {now : Int} {c : Command} {w v : Workspace} {keep : Bool}

/-- Commands that cannot come to an export have nothing to do with builds. -/
theorem run_isQuiet (h : c.mayExport = false) : IsQuiet (c.run u now) := by
  cases c with
  | createMatcher | updateMatcher | deleteMatcher | exportPack => simp [mayExport] at h
  | rename old new actor dryRun =>
      obtain rfl : dryRun = true := by simpa [mayExport] using h
      exact .bind (.bind (askStore_isQuiet _) fun _ => .pure _) fun _ => .pure _
  | addPhrase source content actor =>
      refine .bind (.bind (onStore_isQuiet fun s => ?_) fun p =>
        .bind (send_isQuiet u _) fun _ => .pure p) fun _ => .pure _
      exact (Store.addPhrase_changes s source content actor now).table
  | deletePhrase id actor =>
      refine .bind (.bind (onStore_isQuiet fun s => ?_) fun p =>
        .bind (send_isQuiet u _) fun _ => .pure p) fun _ => .pure _
      exact (Store.removePhrase_changes s id actor now).table
  | importPacks folder =>
      refine .bind (fun w => ?_) fun _ => .pure _
      exact onStore_isQuiet (sameTable_of_batches (Import.run_madeOf w.files u.cwd _)) w
  | builds => exact .bind (builds_isQuiet u) fun _ => .pure _
  | getMatcher | listMatchers | categories | listPhrases | sources | preview | activity | recent =>
      exact .bind (askStore_isQuiet _) fun _ => .pure _

/-- A command that comes to an export ends where this export ends. -/
theorem run_exportsAt (h : c.exportFrom? now w = some (keep, v)) :
    ExportsAt u keep now w v (c.run u now w) := by
  cases c with
  | createMatcher d actor =>
      cases hValid : d.validate with
      | error e => simp [exportFrom?, hValid] at h
      | ok content =>
          simp only [exportFrom?, hValid] at h
          refine ExportsAt.bind_pure ?_ _
          rw [Workspace.createMatcher, check_bind_ok hValid]
          exact exportsAt_of_renewal (fun m => announce_renews u m _ actor now) h
  | updateMatcher id d actor =>
      cases hValid : d.validate with
      | error e => simp [exportFrom?, hValid] at h
      | ok content =>
          simp only [exportFrom?, hValid] at h
          refine ExportsAt.bind_pure ?_ _
          rw [Workspace.updateMatcher, check_bind_ok hValid]
          exact exportsAt_of_renewal (fun m => announce_renews u m _ actor now) h
  | deleteMatcher id actor =>
      refine ExportsAt.bind_pure ?_ _
      exact exportsAt_of_renewal (fun m => announce_renews u m _ actor now) h
  | rename old new actor dryRun =>
      cases dryRun with
      | true => simp [exportFrom?] at h
      | false =>
          refine ExportsAt.bind_pure ?_ _
          exact exportsAt_of_renewal (fun _ => refresh_renews u now) h
  | exportPack keep =>
      obtain ⟨rfl, rfl⟩ := Prod.mk.inj (Option.some.inj h)
      refine ExportsAt.bind_pure ?_ _
      exact ⟨rfl, endOf_exportPack_store u _ now _, rfl, fun report v' hExport =>
        ⟨report, v', hExport⟩⟩
  | getMatcher | listMatchers | categories | addPhrase | deletePhrase | listPhrases | sources
  | preview | importPacks | builds | activity | recent => simp [exportFrom?] at h

/-- What may come to an export and does not has failed before. Then everything but the store is as it was,
and so is the store when it holds matchers. -/
theorem endOf_run_of_no_export (hMay : c.mayExport = true) (h : c.exportFrom? now w = none) :
    ∃ s, endOf (c.run u now w) = { w with store := s } ∧
      (c.IsReadable → ∀ ms, w.store.Holds ms → s = w.store) := by
  cases c with
  | createMatcher d actor =>
      rw [run, endOf_bind_pure, Workspace.createMatcher]
      cases hValid : d.validate with
      | error e => exact ⟨w.store, by rw [check_bind_error rfl, endOf], fun _ _ _ => rfl⟩
      | ok content =>
          simp only [exportFrom?, hValid] at h
          obtain ⟨e, s, hOp, hEnd⟩ := endOf_of_no_renewal h
          refine ⟨s, by rw [check_bind_ok rfl, hEnd], fun hReadable ms hs => ?_⟩
          have hStorable := Store.Holds.isStorable_of_admissible
            (isAdmissible_of_validate hValid hReadable)
          exact hs.eq_of_addMatcher_eq_error hStorable hOp
  | updateMatcher id d actor =>
      rw [run, endOf_bind_pure, Workspace.updateMatcher]
      cases hValid : d.validate with
      | error e => exact ⟨w.store, by rw [check_bind_error rfl, endOf], fun _ _ _ => rfl⟩
      | ok content =>
          simp only [exportFrom?, hValid] at h
          obtain ⟨e, s, hOp, hEnd⟩ := endOf_of_no_renewal h
          refine ⟨s, by rw [check_bind_ok rfl, hEnd], fun hReadable ms hs => ?_⟩
          have hStorable := Store.Holds.isStorable_of_admissible
            (isAdmissible_of_validate hValid hReadable)
          exact hs.eq_of_updateMatcher_eq_error hStorable hOp
  | deleteMatcher id actor =>
      obtain ⟨e, s, hOp, hEnd⟩ := endOf_of_no_renewal h
      rw [run, endOf_bind_pure]
      exact ⟨s, hEnd, fun _ _ _ => Store.eq_of_transaction_eq_error hOp⟩
  | rename old new actor dryRun =>
      obtain rfl : dryRun = false := by simpa [mayExport] using hMay
      obtain ⟨e, s, hOp, hEnd⟩ := endOf_of_no_renewal h
      rw [run, endOf_bind_pure]
      exact ⟨s, hEnd, fun _ _ _ => Store.eq_of_transaction_eq_error hOp⟩
  | exportPack keep => simp [exportFrom?] at h
  | getMatcher | listMatchers | categories | addPhrase | deletePhrase | listPhrases | sources
  | preview | importPacks | builds | activity | recent => simp [mayExport] at hMay

/-- A command that comes to no export leaves the files alone. -/
theorem files_run (h : c.exportFrom? now w = none) : (endOf (c.run u now w)).files = w.files := by
  by_cases hMay : c.mayExport
  · obtain ⟨s, hEnd, -⟩ := endOf_run_of_no_export (u := u) hMay h
    rw [hEnd]
  · exact (run_isQuiet (by simpa using hMay) w).files

/-- Besides the files it leaves the matchers alone, with their lines in the log. -/
theorem sameBuild_run (hReadable : c.IsReadable) {ms : List Matcher} (hs : w.store.Holds ms)
    (h : c.exportFrom? now w = none) : SameBuild w (endOf (c.run u now w)) := by
  by_cases hMay : c.mayExport
  · obtain ⟨s, hEnd, hSame⟩ := endOf_run_of_no_export (u := u) hMay h
    rw [hEnd, hSame hReadable ms hs]
    exact .refl w
  · exact run_isQuiet (by simpa using hMay) w

end Command

end Phrasebook
