import Phrasebook.Proofs.Build.Writer
import Phrasebook.Proofs.Store.Deeds
import Phrasebook.Proofs.Text.Canonical
import Phrasebook.Proofs.Workspace.Exports
import Phrasebook.Proofs.Workspace.News
import Phrasebook.Proofs.Workspace.Validity

/-!
Notices through a history of commands. When a command creates, updates or deletes a matcher, or adds or
deletes a phrase, one notice of it is handed to the webhook, and it shows the thing as it is stored. There is
none when such a command fails, and none of any other command. Which webhook there is, if any, and what it
replies makes no difference to the answers, the store and the files.
-/

namespace Phrasebook

namespace Setup

/-- The notices of news. There are none without a webhook. -/
def notices (u : Setup) (news : List News) : List Notice :=
  if u.notifier.enabled then news.map fun n => n.notice u.notifier else []

/-- The setup with another webhook, or without one. -/
def withWebhook (u : Setup) (url : Option String) (reply : List Notice → Reply) : Setup :=
  { u with settings := { u.settings with webhookUrl := url }, webhook := reply }

section

variable (u : Setup) (url : Option String) (reply : List Notice → Reply)

@[simp]
theorem withWebhook_renderer : (u.withWebhook url reply).renderer = u.renderer := rfl

@[simp]
theorem withWebhook_cwd : (u.withWebhook url reply).cwd = u.cwd := rfl

@[simp]
theorem withWebhook_engine : (u.withWebhook url reply).engine = u.engine := rfl

@[simp]
theorem withWebhook_buildRoot : (u.withWebhook url reply).settings.buildRoot = u.settings.buildRoot := rfl

@[simp]
theorem withWebhook_buildUrl : (u.withWebhook url reply).settings.buildUrl = u.settings.buildUrl := rfl

@[simp]
theorem withWebhook_packsDir : (u.withWebhook url reply).settings.packsDir = u.settings.packsDir := rfl

@[simp]
theorem withWebhook_categoryLink :
    (u.withWebhook url reply).settings.categoryLink = u.settings.categoryLink := rfl

@[simp]
theorem withWebhook_graphExtension :
    (u.withWebhook url reply).settings.graphExtension = u.settings.graphExtension := rfl

end

theorem notices_nil (u : Setup) : u.notices [] = [] := by
  simp [notices]

theorem notices_append (u : Setup) (news more : List News) :
    u.notices (news ++ more) = u.notices news ++ u.notices more := by
  rw [notices, notices, notices]
  split
  · exact List.map_append
  · rfl

end Setup

namespace Store

variable {s t : Store} {id now : Int} {actor : String}

theorem ask_eq_ok {α : Type} {f : Store → Except Failure α} {a : α} (h : ask f s = .ok a t) :
    f s = .ok a ∧ t = s := by
  unfold ask at h
  split at h
  next a' hAnswer =>
    obtain ⟨rfl, rfl⟩ := EStateM.Result.ok.inj h
    exact ⟨hAnswer, rfl⟩
  next => simp at h

theorem transaction_eq_ok {α : Type} {f : Store → Except Failure (α × Store)} {a : α}
    (h : transaction f s = .ok a t) : f s = .ok (a, t) := by
  unfold transaction at h
  split at h
  next a' s' hDone =>
    obtain ⟨rfl, rfl⟩ := EStateM.Result.ok.inj h
    exact hDone
  next => simp at h

theorem addMatcher_stored {c : Matcher.Content} {m : Matcher} (h : addMatcher c actor now s = .ok m t) :
    t.getMatcher (s.lastMatcher + 1) = .ok m := by
  obtain ⟨id, t', hInsert, hRead⟩ := Build.bind_eq_ok_iff.1 h
  obtain ⟨hGet, rfl⟩ := ask_eq_ok hRead
  obtain ⟨rfl, -, -⟩ := insertRow_eq_ok (transaction_eq_ok hInsert)
  exact hGet

theorem updateMatcher_stored {c : Matcher.Content} {m : Matcher}
    (h : updateMatcher id c actor now s = .ok m t) : t.getMatcher id = .ok m := by
  obtain ⟨_, t', -, hRead⟩ := Build.bind_eq_ok_iff.1 h
  obtain ⟨hGet, rfl⟩ := ask_eq_ok hRead
  exact hGet

theorem removeMatcher_stored {m : Matcher} (h : removeMatcher id actor now s = .ok m t) :
    s.getMatcher id = .ok m := by
  obtain ⟨n, hGet, hRest⟩ := bind_eq_ok_iff.1 (transaction_eq_ok h)
  obtain ⟨t', -, hPair⟩ := bind_eq_ok_iff.1 hRest
  obtain ⟨rfl, -⟩ := Prod.mk.inj (Except.ok.inj hPair)
  exact hGet

theorem addPhrase_stored {source content : String} {p : Phrase}
    (h : addPhrase source content actor now s = .ok p t) : t.getPhrase (s.lastPhrase + 1) = .ok p := by
  obtain ⟨id, t', hInsert, hRead⟩ := Build.bind_eq_ok_iff.1 h
  obtain ⟨hGet, rfl⟩ := ask_eq_ok hRead
  obtain ⟨rfl, -, -⟩ := insertPhrase_eq_ok (transaction_eq_ok hInsert)
  exact hGet

theorem removePhrase_stored {p : Phrase} (h : removePhrase id actor now s = .ok p t) :
    s.getPhrase id = .ok p := by
  obtain ⟨q, hGet, hRest⟩ := bind_eq_ok_iff.1 (transaction_eq_ok h)
  obtain ⟨t', -, hPair⟩ := bind_eq_ok_iff.1 hRest
  obtain ⟨rfl, -⟩ := Prod.mk.inj (Except.ok.inj hPair)
  exact hGet

end Store

namespace Workspace

variable {α β : Type}

/-- What comes of work, with other notices. -/
def withSent (sent : List Notice) :
    EStateM.Result Failure Workspace α → EStateM.Result Failure Workspace α
  | .ok a w => .ok a { w with sent }
  | .error e w => .error e { w with sent }

/-- Work that tells of `news` when it is done in the workspace `w`. With any webhook and behind any other
notices it comes to the same, but for the notices, and to these it adds those of the news. -/
def Sends (op : Setup → Op α) (u : Setup) (w : Workspace) (news : List News) : Prop :=
  ∀ url reply sent, op (u.withWebhook url reply) { w with sent } =
    withSent (sent ++ (u.withWebhook url reply).notices news) (op u w)

/-- Work that tells of nothing. -/
def IsMute (op : Setup → Op α) : Prop := ∀ u w, Sends op u w []

section

variable {op : Setup → Op α} {f : Setup → α → Op β} {u : Setup} {w v : Workspace} {news more : List News}

theorem Sends.bind_ok {a : α} (h : Sends op u w news) (hOk : op u w = .ok a v)
    (k : Sends (fun u => f u a) u v more) : Sends (fun u => op u >>= f u) u w (news ++ more) := by
  intro url reply sent
  have hFirst := h url reply sent
  have hSecond := k url reply (sent ++ (u.withWebhook url reply).notices news)
  rw [hOk, withSent] at hFirst
  simp only [bind, EStateM.bind, hFirst, hOk]
  rw [Setup.notices_append, ← List.append_assoc]
  exact hSecond

theorem Sends.bind_error {e : Failure} (h : Sends op u w news) (hError : op u w = .error e v) :
    Sends (fun u => op u >>= f u) u w news := by
  intro url reply sent
  have hFirst := h url reply sent
  rw [hError, withSent] at hFirst
  simp only [bind, EStateM.bind, hFirst, hError, withSent]

theorem IsMute.bind (h : IsMute op) (k : ∀ a, IsMute fun u => f u a) :
    IsMute fun u => op u >>= f u := by
  intro u w
  cases hOp : op u w with
  | ok a v => exact (h u w).bind_ok hOp (k a u v)
  | error e v => exact (h u w).bind_error hOp

/-- Work that neither looks at the notices nor depends on the webhook. -/
theorem IsMute.of_eq (h : ∀ u w url reply sent, op (u.withWebhook url reply) { w with sent } =
    withSent sent (op u w)) : IsMute op := by
  intro u w url reply sent
  rw [Setup.notices_nil, List.append_nil]
  exact h u w url reply sent

theorem IsMute.of_same (hSame : ∀ u url reply, op (u.withWebhook url reply) = op u)
    (h : ∀ u, IsMute fun _ => op u) : IsMute op := by
  intro u w url reply sent
  rw [hSame]
  exact h u u w url reply sent

theorem IsMute.pure (a : α) : IsMute fun _ => (Pure.pure a : Op α) := .of_eq fun _ _ _ _ _ => rfl

end

theorem onStore_withSent (op : Store.Op α) (w : Workspace) (sent : List Notice) :
    onStore op { w with sent } = withSent sent (onStore op w) := by
  rw [onStore, onStore]
  cases op w.store <;> rfl

theorem onStore_isMute (op : Store.Op α) : IsMute fun _ => onStore op :=
  .of_eq fun _ w _ _ sent => onStore_withSent op w sent

theorem askStore_isMute (f : Store → Except Failure α) : IsMute fun _ => askStore f :=
  onStore_isMute (Store.ask f)

theorem onFiles_isMute (work : Build.Work α) : IsMute fun _ => onFiles work := by
  refine .of_eq fun u w url reply sent => ?_
  rw [onFiles, onFiles]
  cases work w.files <;> rfl

theorem attempt_isMute {op : Setup → Op α} (h : IsMute op) : IsMute fun u => attempt (op u) := by
  intro u w url reply sent
  have hSame := h u w url reply sent
  simp only [attempt, hSame]
  cases op u w <;> rfl

theorem exportPack_isMute (keep : Bool) (now : Int) : IsMute fun u => exportPack u keep now := by
  refine .of_same (fun u url reply => ?_) fun u =>
    .bind (askStore_isMute _) fun pack => .bind (onFiles_isMute _) fun _ => .pure _
  simp only [exportPack, Setup.withWebhook_renderer, Setup.withWebhook_cwd, Setup.withWebhook_buildRoot,
    Setup.withWebhook_categoryLink]

theorem refresh_isMute (now : Int) : IsMute fun u => refresh u now :=
  attempt_isMute (exportPack_isMute true now)

theorem builds_isMute : IsMute builds := by
  refine .of_same (fun u url reply => ?_) fun u => .of_eq fun _ w _ _ sent => ?_
  · refine funext fun w => ?_
    simp only [builds, Setup.withWebhook_cwd, Setup.withWebhook_buildRoot, Setup.withWebhook_buildUrl,
      Setup.withWebhook_graphExtension]
  · simp only [builds]
    cases Build.list w.files u.cwd u.settings.buildRoot u.settings.buildUrl u.settings.graphExtension <;> rfl

/-- Work that tells of one thing. It always succeeds, and it leaves the store alone. -/
def IsAnnouncement (op : Setup → Op Unit) (news : News) : Prop :=
  ∀ u w, Sends op u w [news] ∧ ∃ v, op u w = .ok () v ∧ v.store = w.store

/-- What is handed over is the notice of the news, whatever is replied to it. -/
theorem send_isAnnouncement (news : News) : IsAnnouncement (fun u => send u news.notice) news := by
  refine fun u w => ⟨fun url reply sent => ?_, _, send_eq u news.notice w, rfl⟩
  simp only [send_eq, withSent, sending, Setup.notices]
  split
  · rfl
  · rw [List.append_nil]

/-- The notice is handed over whether or not the build could be renewed. -/
theorem announce_isAnnouncement (m : Matcher) (action : Audit.Action) (actor : String) (now : Int) :
    IsAnnouncement (fun u => announce u m action actor now) (.ofMatcher m action actor now) := by
  intro u w
  obtain ⟨⟨a, v, hRefresh⟩, -⟩ := refresh_renews u now w
  obtain ⟨⟨b, x, hOk⟩, hStore, -⟩ := announce_renews u m action actor now w
  obtain ⟨hSends, -⟩ := send_isAnnouncement (.ofMatcher m action actor now) u v
  rw [hOk] at hStore
  exact ⟨(refresh_isMute now u w).bind_ok hRefresh hSends, x, hOk, hStore⟩

/-- Work on the store, work that tells of its result, and the result as a user gets it. -/
def thenTell (op : Store.Op α) (f : α → Op Unit) (g : α → Json) : Op Json :=
  (do let a ← onStore op; f a; return a) >>= fun a => return g a

/-- What is done to the store is told of once when it succeeds, and not at all when it fails. -/
theorem sends_thenTell (op : Store.Op α) {f : Setup → α → Op Unit} {news : α → News} (g : α → Json)
    (hTells : ∀ a, IsAnnouncement (fun u => f u a) (news a)) (u : Setup) (w : Workspace) :
    (∃ a v, op w.store = .ok a v.store ∧ thenTell op (f u) g w = .ok (g a) v ∧
        Sends (fun u => thenTell op (f u) g) u w [news a]) ∨
      ∃ e v, thenTell op (f u) g w = .error e v ∧ Sends (fun u => thenTell op (f u) g) u w [] := by
  cases hOp : op w.store with
  | ok a s =>
      have hDone : onStore op w = .ok a { w with store := s } := by rw [onStore, hOp]
      obtain ⟨hSends, v, hTold, hStore⟩ := hTells a u { w with store := s }
      have hRest : (do f u a; return a : Op α) { w with store := s } = .ok a v := by
        simp only [bind, EStateM.bind, hTold]
        rfl
      have hAll : (do let a ← onStore op; f u a; return a : Op α) w = .ok a v := by
        rw [← hRest]
        simp only [bind, EStateM.bind, hDone]
      have hTells : Sends (fun u => do f u a; return a) u { w with store := s } ([news a] ++ []) :=
        hSends.bind_ok hTold (IsMute.pure a u v)
      have hBoth : Sends (fun u => do let a ← onStore op; f u a; return a) u w [news a] :=
        (onStore_isMute op u w).bind_ok hDone hTells
      exact Or.inl ⟨a, v, hStore ▸ rfl, bind_pure_ok hAll, hBoth.bind_ok hAll (IsMute.pure (g a) u v)⟩
  | error e s =>
      -- The failure comes before anything is told.
      have hFailed : onStore op w = .error e { w with store := s } := by rw [onStore, hOp]
      have hAll : (do let a ← onStore op; f u a; return a : Op α) w = .error e { w with store := s } := by
        simp only [bind, EStateM.bind, hFailed]
      refine Or.inr ⟨e, { w with store := s }, by simp only [thenTell, bind, EStateM.bind, hFailed], ?_⟩
      exact ((onStore_isMute op u w).bind_error hFailed).bind_error hAll

end Workspace

namespace Command

open Workspace

/-- Commands of which there is something to tell when they succeed. -/
def isTold : Command → Bool
  | createMatcher .. | updateMatcher .. | deleteMatcher .. | addPhrase .. | deletePhrase .. => true
  | _ => false

/-- What a command has done that led from the store `s` to the store `t`. What was added or changed is shown
as it is stored then, and what was deleted as it was stored before. -/
inductive Makes (now : Int) (s t : Store) : Command → News → Prop
  | creates {draft : Draft} {actor : String} {m : Matcher}
      (stored : t.getMatcher (s.lastMatcher + 1) = .ok m) :
      Makes now s t (.createMatcher draft actor) (.ofMatcher m .addition actor now)
  | updates {id : Int} {draft : Draft} {actor : String} {m : Matcher} (stored : t.getMatcher id = .ok m) :
      Makes now s t (.updateMatcher id draft actor) (.ofMatcher m .change actor now)
  | deletes {id : Int} {actor : String} {m : Matcher} (stored : s.getMatcher id = .ok m) :
      Makes now s t (.deleteMatcher id actor) (.ofMatcher m .deletion actor now)
  | adds {source content actor : String} {p : Phrase} (stored : t.getPhrase (s.lastPhrase + 1) = .ok p) :
      Makes now s t (.addPhrase source content actor) (.ofPhrase p .addition actor now)
  | drops {id : Int} {actor : String} {p : Phrase} (stored : s.getPhrase id = .ok p) :
      Makes now s t (.deletePhrase id actor) (.ofPhrase p .deletion actor now)

/-- What there is to tell of a command that was carried out in the workspace `w`. -/
inductive Tells (u : Setup) (now : Int) (w : Workspace) (c : Command) : List News → Prop
  | told {answer : Json} {v : Workspace} {news : News} (done : c.run u now w = .ok answer v)
      (makes : c.Makes now w.store v.store news) (answered : answer = news.answer) : Tells u now w c [news]
  | failed {e : Failure} {v : Workspace} (failed : c.run u now w = .error e v) : Tells u now w c []
  | silent (other : c.isTold = false) : Tells u now w c []

variable {u : Setup} {now : Int} {w : Workspace}

theorem run_isMute {c : Command} (h : c.isTold = false) (now : Int) : IsMute fun u => c.run u now := by
  cases c with
  | createMatcher | updateMatcher | deleteMatcher | addPhrase | deletePhrase => simp [isTold] at h
  | rename old new actor dryRun =>
      cases dryRun with
      | true => exact .bind (.bind (askStore_isMute _) fun _ => .pure _) fun _ => .pure _
      | false =>
          exact .bind (.bind (onStore_isMute _) fun _ => .bind (refresh_isMute now) fun _ => .pure _)
            fun _ => .pure _
  | importPacks folder =>
      refine .bind (.of_same (fun u url reply => ?_) fun u => .of_eq fun _ w _ _ sent => ?_) fun _ => .pure _
      · refine funext fun w => ?_
        simp only [importFrom, Setup.withWebhook_cwd, Setup.withWebhook_packsDir]
      · exact onStore_withSent _ w sent
  | exportPack keep => exact .bind (exportPack_isMute keep now) fun _ => .pure _
  | builds => exact .bind builds_isMute fun _ => .pure _
  | preview language source text limit =>
      refine .bind (.of_same (fun u url reply => ?_) fun u => askStore_isMute _) fun _ => .pure _
      refine congrArg askStore (funext fun s => ?_)
      simp only [Workspace.preview, Setup.withWebhook_engine]
  | getMatcher | listMatchers | categories | listPhrases | sources | activity | recent =>
      exact .bind (askStore_isMute _) fun _ => .pure _

/-- A command that is refused at once. -/
theorem exists_tells_of_refused {c : Command} (e : Failure) (hRun : ∀ u w, c.run u now w = .error e w)
    (u : Setup) (w : Workspace) :
    ∃ news, c.Tells u now w news ∧ Sends (fun u => c.run u now) u w news := by
  refine ⟨[], .failed (hRun u w), fun url reply sent => ?_⟩
  simp only [hRun, withSent, Setup.notices_nil, List.append_nil]

/-- A command that does something to the store and tells of it. -/
theorem exists_tells_of_thenTell {α : Type} {c : Command} (op : Store.Op α) {f : Setup → α → Op Unit}
    {news : α → News} (hRun : ∀ u, c.run u now = thenTell op (f u) fun a => (news a).answer)
    (hTells : ∀ a, IsAnnouncement (fun u => f u a) (news a))
    (hMakes : ∀ s a t, op s = .ok a t → c.Makes now s t (news a)) (u : Setup) (w : Workspace) :
    ∃ more, c.Tells u now w more ∧ Sends (fun u => c.run u now) u w more := by
  have hSame : (fun u => c.run u now) = fun u => thenTell op (f u) fun a => (news a).answer := funext hRun
  rw [hSame]
  rcases sends_thenTell op (fun a => (news a).answer) hTells u w with
    ⟨a, v, hOp, hDone, hSends⟩ | ⟨e, v, hFailed, hSends⟩
  · rw [← hRun] at hDone
    exact ⟨[news a], .told hDone (hMakes _ a _ hOp) rfl, hSends⟩
  · rw [← hRun] at hFailed
    exact ⟨[], .failed hFailed, hSends⟩

/-- What one command tells of. The webhook makes no difference to it. -/
theorem exists_tells (c : Command) (u : Setup) (now : Int) (w : Workspace) :
    ∃ news, c.Tells u now w news ∧ Sends (fun u => c.run u now) u w news := by
  cases c with
  | createMatcher draft actor =>
      cases hValid : draft.validate with
      | error e =>
          refine exists_tells_of_refused e (fun u w => ?_) u w
          rw [run, Workspace.createMatcher, hValid]
          rfl
      | ok content =>
          refine exists_tells_of_thenTell (Store.addMatcher content actor now) (fun u => ?_)
            (fun m => announce_isAnnouncement m .addition actor now) (fun s m t hAdd => ?_) u w
          · rw [run, Workspace.createMatcher, hValid]
            rfl
          · exact .creates (Store.addMatcher_stored hAdd)
  | updateMatcher id draft actor =>
      cases hValid : draft.validate with
      | error e =>
          refine exists_tells_of_refused e (fun u w => ?_) u w
          rw [run, Workspace.updateMatcher, hValid]
          rfl
      | ok content =>
          refine exists_tells_of_thenTell (Store.updateMatcher id content actor now) (fun u => ?_)
            (fun m => announce_isAnnouncement m .change actor now) (fun s m t hUpdate => ?_) u w
          · rw [run, Workspace.updateMatcher, hValid]
            rfl
          · exact .updates (Store.updateMatcher_stored hUpdate)
  | deleteMatcher id actor =>
      refine exists_tells_of_thenTell (Store.removeMatcher id actor now) (fun u => rfl)
        (fun m => announce_isAnnouncement m .deletion actor now) (fun s m t hRemove => ?_) u w
      exact .deletes (Store.removeMatcher_stored hRemove)
  | addPhrase source content actor =>
      refine exists_tells_of_thenTell (Store.addPhrase source content actor now) (fun u => rfl)
        (fun p => send_isAnnouncement (.ofPhrase p .addition actor now)) (fun s p t hAdd => ?_) u w
      exact .adds (Store.addPhrase_stored hAdd)
  | deletePhrase id actor =>
      refine exists_tells_of_thenTell (Store.removePhrase id actor now) (fun u => rfl)
        (fun p => send_isAnnouncement (.ofPhrase p .deletion actor now)) (fun s p t hRemove => ?_) u w
      exact .drops (Store.removePhrase_stored hRemove)
  | rename | importPacks | exportPack | builds | getMatcher | listMatchers | categories | listPhrases
  | sources | preview | activity | recent => exact ⟨[], .silent rfl, run_isMute rfl now u w⟩

end Command

namespace Workspace

/-- What a history of commands tells of, from the first command to the last. -/
inductive Tells (u : Setup) : Workspace → List (Int × Command) → List News → Prop
  | nil (w : Workspace) : Tells u w [] []
  | cons {w : Workspace} {now : Int} {c : Command} {more : List (Int × Command)} {news later : List News}
      (first : c.Tells u now w news) (rest : Tells u (endOf (c.run u now w)) more later) :
      Tells u w ((now, c) :: more) (news ++ later)

/-- Nothing but blanks is in an address. -/
def IsBlank (url : String) : Prop := ∀ c ∈ url.toList, Text.isBlank c = true

/-- What a user gets of work: what it results in, or why it fails. -/
def answerOf {α : Type} : EStateM.Result Failure Workspace α → Except Failure α
  | .ok a _ => .ok a
  | .error e _ => .error e

/-- The answers to a history of commands. -/
def answers (u : Setup) (w : Workspace) : List (Int × Command) → List (Except Failure Json)
  | [] => []
  | (now, c) :: more => answerOf (c.run u now w) :: answers u (endOf (c.run u now w)) more

theorem answerOf_withSent {α : Type} (sent : List Notice) (r : EStateM.Result Failure Workspace α) :
    answerOf (withSent sent r) = answerOf r := by
  cases r <;> rfl

theorem endOf_withSent {α : Type} (sent : List Notice) (r : EStateM.Result Failure Workspace α) :
    endOf (withSent sent r) = { endOf r with sent } := by
  cases r <;> rfl

/-- With any webhook and behind any other notices a history goes the same way, but for the notices. -/
theorem exists_tells (u : Setup) (w : Workspace) (history : List (Int × Command)) :
    ∃ news, Tells u w history news ∧ ∀ url reply sent,
      answers (u.withWebhook url reply) { w with sent } history = answers u w history ∧
      after (u.withWebhook url reply) { w with sent } history =
        { after u w history with sent := sent ++ (u.withWebhook url reply).notices news } := by
  induction history generalizing w with
  | nil =>
      refine ⟨[], .nil w, fun url reply sent => ⟨rfl, ?_⟩⟩
      rw [Setup.notices_nil, List.append_nil]
      rfl
  | cons e more ih =>
      obtain ⟨now, c⟩ := e
      obtain ⟨news, hFirst, hSends⟩ := c.exists_tells u now w
      obtain ⟨later, hRest, hLater⟩ := ih (endOf (c.run u now w))
      refine ⟨news ++ later, .cons hFirst hRest, fun url reply sent => ?_⟩
      -- The first command leaves workspaces that differ in the notices only.
      have hSame : c.run (u.withWebhook url reply) now { w with sent } = _ := hSends url reply sent
      obtain ⟨hAnswers, hAfter⟩ := hLater url reply (sent ++ (u.withWebhook url reply).notices news)
      constructor
      · rw [answers, answers, hSame, answerOf_withSent, endOf_withSent, hAnswers]
      · rw [after, List.foldl_cons, ← after, hSame, endOf_withSent, hAfter, Setup.notices_append,
          List.append_assoc]
        rfl

/-- Without a webhook, or with a blank address for it, there are no notices. -/
theorem notices_of_blank {u : Setup} (h : ∀ url, u.settings.webhookUrl = some url → IsBlank url) (news : List News) :
    u.notices news = [] := by
  refine if_neg ?_
  rw [Setup.notifier, Notifier.make, Notifier.enabled]
  cases hUrl : u.settings.webhookUrl with
  | none => exact Bool.false_ne_true
  | some url =>
      have hEmpty := Text.isEmpty_trim_iff.2 (h url hUrl)
      simp [Option.filter, hEmpty]

theorem notices_of_visible {u : Setup} {url : String} (hUrl : u.settings.webhookUrl = some url) (h : ¬IsBlank url)
    (news : List News) : u.notices news = news.map fun n => n.notice u.notifier := by
  have hNotEmpty : (Text.trim url).isEmpty = false := Bool.eq_false_iff.2 (mt Text.isEmpty_trim_iff.1 h)
  refine if_pos ?_
  rw [Setup.notifier, Notifier.make, Notifier.enabled, hUrl]
  simp [Option.filter, hNotEmpty]

/-- A history of commands tells of every creation, update or deletion of a matcher and every addition or deletion of
a phrase that succeeds. With a webhook whose address is not blank, one notice of each is sent, in their order, and
shows the thing, what was done to it and by whom; without one, none is. The answers, the store and the files are the
same with any other webhook, with none, and whatever is replied. -/
theorem notices_mirror_changes (u : Setup) (w : Workspace) (history : List (Int × Command)) :
    ∃ news, Tells u w history news ∧
      ((∀ url, u.settings.webhookUrl = some url → IsBlank url) → (after u w history).sent = w.sent) ∧
      (∀ url, u.settings.webhookUrl = some url → ¬IsBlank url →
        ∃ notices, (after u w history).sent = w.sent ++ notices ∧
          List.Forall₂ (Notice.Shows u.settings.externalUrl) news notices) ∧
      ∀ url reply, answers (u.withWebhook url reply) w history = answers u w history ∧
        (after (u.withWebhook url reply) w history).store = (after u w history).store ∧
        (after (u.withWebhook url reply) w history).files = (after u w history).files := by
  obtain ⟨news, hTells, hSame⟩ := exists_tells u w history
  have hSent : (after u w history).sent = w.sent ++ u.notices news := by
    have hAfter : after u w history = { after u w history with sent := w.sent ++ u.notices news } :=
      (hSame u.settings.webhookUrl u.webhook w.sent).2
    exact congrArg Workspace.sent hAfter
  refine ⟨news, hTells, fun hBlank => ?_, fun url hUrl hVisible => ⟨_, hSent, ?_⟩, fun url reply => ?_⟩
  · rw [hSent, notices_of_blank hBlank, List.append_nil]
  · rw [notices_of_visible hUrl hVisible, List.forall₂_map_right_iff]
    exact List.forall₂_same.2 fun n _ => Notice.shows_notice _ _ n
  · obtain ⟨hAnswers, hAfter⟩ := hSame url reply w.sent
    have hStore := congrArg Workspace.store hAfter
    have hFiles := congrArg Workspace.files hAfter
    exact ⟨hAnswers, hStore, hFiles⟩

/-- A setup with a webhook, and with slashes at the end of the address for links. -/
def loud : Setup :=
  .make { webhookUrl := some "http://hook", externalUrl := "https://words.test//" } [] fun _ => .ok (some [])

/-- A phrase is added, added again in vain, and deleted. -/
def breadCommands : List (Int × Command) :=
  [(0, .addPhrase "shop" "Bread" "kim"), (1, .addPhrase "shop" "Bread" "lee"), (2, .deletePhrase 1 "lee")]

/-- Two notices are sent, of what succeeds. -/
theorem bread_noticed :
    ∃ news notices, Tells loud ⟨.empty, .empty, []⟩ breadCommands news ∧
      (after loud ⟨.empty, .empty, []⟩ breadCommands).sent = notices ∧
      List.Forall₂ (Notice.Shows "https://words.test//") news notices ∧
      notices.map Notice.content =
        ["https://words.test/admin/core/translationdata/1/change/ (created, kim)",
          "https://words.test/admin/core/translationdata/1/change/ (deleted, lee)"] := by
  have hVisible : ¬IsBlank "http://hook" := fun hBlank => absurd (hBlank 'h' (by simp)) (by decide)
  obtain ⟨news, hTells, -, hSends, -⟩ := notices_mirror_changes loud ⟨.empty, .empty, []⟩ breadCommands
  obtain ⟨notices, hSent, hShows⟩ := hSends "http://hook" rfl hVisible
  refine ⟨news, notices, hTells, hSent, hShows, ?_⟩
  rw [← List.nil_append notices, ← hSent]
  decide +kernel

end Workspace

end Phrasebook
