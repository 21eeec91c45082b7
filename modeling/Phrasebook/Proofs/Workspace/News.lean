import Phrasebook.Proofs.Text.Ends
import Phrasebook.Proofs.Text.Numeral
import Phrasebook.Row
import Phrasebook.Workspace.Basic

/-!
What a notice shows. It begins with the address of the page of the changed thing, tells what was done to it and by
whom, and describes the thing part by part.
-/

namespace Phrasebook

/-- What there is to tell: a matcher or a phrase, what was done to it, by whom and when. -/
inductive News where
  | ofMatcher (m : Matcher) (action : Audit.Action) (actor : String) (now : Int)
  | ofPhrase (p : Phrase) (action : Audit.Action) (actor : String) (now : Int)

namespace News

def notice (news : News) (n : Notifier) : Notice :=
  match news with
  | ofMatcher m action actor now => .ofMatcher n m action actor now
  | ofPhrase p action actor now => .ofPhrase n p action actor now

/-- The thing as a user gets it. -/
def answer : News → Json
  | ofMatcher m .. => m.toJson
  | ofPhrase p .. => p.toJson

end News

namespace Notice

/-- The word that a notice has for what was done. -/
inductive IsWordFor : Audit.Action → String → Prop
  | addition : IsWordFor .addition "created"
  | change : IsWordFor .change "updated"
  | deletion : IsWordFor .deletion "deleted"

/-- An address without the slashes at its end. -/
structure IsBare (address base : String) : Prop where
  exists_slashes : ∃ k, address.toList = base.toList ++ List.replicate k '/'
  last : base.toList.getLast? ≠ some '/'

inductive IsSpecLine : Matcher.Spec → String → Prop
  | raw (text : String) : IsSpecLine (.raw text) ("raw: ```\n" ++ text ++ "\n```")
  | regex (pattern flags : String) :
      IsSpecLine (.regex pattern flags) ("regex: ```\n/" ++ pattern ++ "/" ++ flags ++ "\n```")

/-- A block for every text that is not empty, headed by its language. -/
inductive AreBlocks : List (String × String) → List String → Prop
  | nil : AreBlocks [] []
  | text (language : String) {text : String} {more : List (String × String)} {blocks : List String}
      (hText : text ≠ "") (rest : AreBlocks more blocks) :
      AreBlocks ((language, text) :: more) ((language ++ ": ```\n" ++ text ++ "\n```") :: blocks)
  | empty (language : String) {more : List (String × String)} {blocks : List String} (rest : AreBlocks more blocks) :
      AreBlocks ((language, "") :: more) blocks

/-- A line that is there for something that need not be. -/
inductive IsLineFor (present : Prop) (line : String) : List String → Prop
  | here (h : present) : IsLineFor present line [line]
  | missing (h : ¬present) : IsLineFor present line []

/-- A matcher part by part; what is empty has no line. -/
inductive Describes (m : Matcher) : String → Prop
  | lines {spec : String} {blocks groups memo ignored : List String} (hSpec : IsSpecLine m.spec spec)
      (hBlocks : AreBlocks m.replacements.entries blocks)
      (hGroups : IsLineFor (m.groups ≠ []) ("groups: " ++ Group.labels m.groups) groups)
      (hMemo : IsLineFor (m.memo ≠ "") ("memo: ```\n" ++ m.memo ++ "\n```") memo)
      (hIgnored : IsLineFor (m.ignorePart = true) "ignorePartTranslated: ```\nTrue\n```" ignored) :
      Describes m ("\n".intercalate (["category: `" ++ m.category ++ "`", spec] ++ blocks ++ groups ++ memo ++
        ["priority: `" ++ toString m.priority ++ "`"] ++ ignored))

/-- What a notice shows of news. Its links begin with an address that does not end in a slash. -/
inductive Shows (externalUrl : String) : News → Notice → Prop
  | ofMatcher {m : Matcher} {action : Audit.Action} {actor base word description : String} {now : Int}
      (hBase : IsBare externalUrl base) (hWord : IsWordFor action word) (hDescription : Describes m description) :
      Shows externalUrl (.ofMatcher m action actor now)
        ⟨base ++ "/admin/core/matcher/" ++ toString m.id ++ "/change/ (" ++ word ++ ", " ++
            actor ++ ")",
          description, Calendar.isoMillis "+00:00" now⟩
  | ofPhrase {p : Phrase} {action : Audit.Action} {actor base word : String} {now : Int}
      (hBase : IsBare externalUrl base) (hWord : IsWordFor action word) :
      Shows externalUrl (.ofPhrase p action actor now)
        ⟨base ++ "/admin/core/translationdata/" ++ toString p.id ++ "/change/ (" ++ word ++ ", " ++
            actor ++ ")",
          "source: `" ++ p.source ++ "`\ncontent: ```\n" ++ p.content ++ "\n```", Calendar.isoMillis "+00:00" now⟩

theorem isWordFor_verb (action : Audit.Action) : IsWordFor action action.verb := by
  cases action with
  | addition => exact .addition
  | change => exact .change
  | deletion => exact .deletion

theorem isBare_trimCharRight (address : String) : IsBare address (Text.trimCharRight '/' address) := by
  obtain ⟨k, hFront⟩ := Text.exists_replicate_append_dropWhile '/' address.toList.reverse
  constructor
  · refine ⟨k, ?_⟩
    rw [Text.trimCharRight, String.toList_ofList, ← List.reverse_replicate, ← List.reverse_append, ← hFront,
      List.reverse_reverse]
  · rw [Text.trimCharRight, String.toList_ofList, List.getLast?_reverse]
    exact Text.head?_dropWhile_ne '/' address.toList.reverse

theorem isSpecLine_codeBlock (spec : Matcher.Spec) : IsSpecLine spec (codeBlock spec.typeName spec.label) := by
  cases spec with
  | raw text => exact .raw text
  | regex pattern flags =>
      have hLine : codeBlock "regex" ("/" ++ pattern ++ "/" ++ flags) =
          "regex: ```\n/" ++ pattern ++ "/" ++ flags ++ "\n```" := by
        rw [← String.toList_inj]
        simp [codeBlock]
      exact hLine ▸ .regex pattern flags

theorem areBlocks_filter (entries : List (String × String)) :
    AreBlocks entries ((entries.filter fun (_, t) => !t.isEmpty).map fun (l, t) => codeBlock l t) := by
  induction entries with
  | nil => exact .nil
  | cons entry more ih =>
      obtain ⟨language, text⟩ := entry
      by_cases hText : text = ""
      · subst hText
        exact .empty language ih
      · rw [List.filter_cons_of_pos (by simpa using hText)]
        exact .text language hText ih

theorem isLineFor_lineIf {present : Prop} {flag : Bool} (h : flag = true ↔ present) (line : String) :
    IsLineFor present line (lineIf flag line) := by
  cases flag with
  | true => exact .here (h.1 rfl)
  | false => exact .missing fun hPresent => Bool.false_ne_true (h.2 hPresent)

theorem describes_describeMatcher (m : Matcher) : Describes m (describeMatcher m.toContent) := by
  have hPriority : inlineCode "priority" (Text.decimalInt m.priority) =
      "priority: `" ++ toString m.priority ++ "`" := by
    rw [Text.decimalInt_eq_toString]
    rfl
  rw [describeMatcher, hPriority]
  exact .lines (isSpecLine_codeBlock m.spec) (areBlocks_filter m.replacements.entries)
    (isLineFor_lineIf (by simp) _) (isLineFor_lineIf (by simp) _) (isLineFor_lineIf Iff.rfl _)

theorem content_make (base path id word actor : String) :
    base ++ path ++ id ++ "/change/" ++ " (" ++ word ++ ", " ++ actor ++ ")" =
      base ++ path ++ id ++ "/change/ (" ++ word ++ ", " ++ actor ++ ")" := by
  rw [← String.toList_inj]
  simp

theorem shows_notice (webhook : Option String) (externalUrl : String) (news : News) :
    Shows externalUrl news (news.notice (.make webhook externalUrl)) := by
  have hBase := isBare_trimCharRight externalUrl
  cases news with
  | ofMatcher m action actor now =>
      have hShows : Shows externalUrl (.ofMatcher m action actor now) _ :=
        .ofMatcher hBase (isWordFor_verb action) (describes_describeMatcher m)
      rw [← content_make, ← Text.decimalInt_eq_toString] at hShows
      exact hShows
  | ofPhrase p action actor now =>
      have hShows : Shows externalUrl (.ofPhrase p action actor now) _ := .ofPhrase hBase (isWordFor_verb action)
      have hDescription : describePhrase p =
          "source: `" ++ p.source ++ "`\ncontent: ```\n" ++ p.content ++ "\n```" := by
        rw [← String.toList_inj]
        simp [describePhrase, inlineCode, codeBlock]
      rw [← content_make, ← hDescription, ← Text.decimalInt_eq_toString] at hShows
      exact hShows

end Notice

end Phrasebook
