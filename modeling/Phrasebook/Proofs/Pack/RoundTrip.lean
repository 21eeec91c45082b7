import Phrasebook.Pack.Basic
import Phrasebook.Proofs.Matcher.Columns

/-!
The text of a pack. It is read back as the pack that it was made from exactly when the reader goes deep
enough for it, and no two packs are written alike, however deep they are. An entry tells everything of a
matcher but its memo and the time of its creation.
-/

namespace Phrasebook

namespace Json

theorem int?_ofInt {n : Int} (h : isWord n) : int? (ofInt n) = some n := by
  rw [ofInt, int?, if_pos h]

theorem isPlain_ofInt {n : Int} (h : isWord n) : (ofInt n).isPlain = true := by
  have hRange : (Text.signedEnd : Int) ≤ Text.unsignedEnd := by decide
  simp only [ofInt, isPlain, Number.isPlain, Bool.and_eq_true, decide_eq_true_eq]
  exact ⟨h.1, Int.lt_of_lt_of_le h.2 hRange⟩

section

variable {α : Type} (encode : α → Json)

theorem areSound_map (depth : Nat) (items : List α) :
    areSound depth (items.map encode) = items.all fun a => (encode a).isSound depth := by
  induction items with
  | nil => rfl
  | cons a more ih => rw [List.map_cons, areSound, ih, List.all_cons]

theorem arePlain_map (items : List α) :
    arePlain (items.map encode) = items.all fun a => (encode a).isPlain := by
  induction items with
  | nil => rfl
  | cons a more ih => rw [List.map_cons, arePlain, ih, List.all_cons]

/-- A list is read back when each of its items is. -/
theorem mapM_map_eq_ite {decode : Json → Option α} {P : α → Prop} [DecidablePred P] {items : List α}
    (h : ∀ a ∈ items, decode (encode a) = if P a then some a else none) :
    (items.map encode).mapM decode = if ∀ a ∈ items, P a then some items else none := by
  induction items with
  | nil => simp
  | cons a more ih =>
      rw [List.forall_mem_cons] at h
      rw [List.map_cons, List.mapM_cons, ih h.2, h.1, if_congr List.forall_mem_cons rfl rfl, ite_and]
      split <;> split <;> rfl

end

end Json

theorem Replacements.isSound_toJson (r : Replacements) (depth : Nat) :
    r.toJson.isSound (depth + 1) = true := by
  rw [toJson, Json.isSound]
  induction r.entries with
  | nil => rfl
  | cons e more ih => simpa [Json.areSoundFields, Json.isSound] using ih

/-- What a pack tells of a matcher. -/
structure Matcher.Published where
  id : Int
  category : String
  spec : Spec
  replacements : Replacements
  groups : List Group
  priority : Int
  ignorePart : Bool

def Matcher.published (m : Matcher) : Published :=
  ⟨m.id, m.category, m.spec, m.replacements, m.groups, m.priority, m.ignorePart⟩

namespace Pack

/-- The numbers of an entry are signed 64-bit words. -/
def Entry.HasWords (e : Entry) : Prop := Json.isWord e.priority ∧ Json.isWord e.id

instance (e : Entry) : Decidable e.HasWords := inferInstanceAs (Decidable (_ ∧ _))

def HasWords (p : Pack) : Prop := ∀ e ∈ p.matchers, e.HasWords

instance (p : Pack) : Decidable p.HasWords := inferInstanceAs (Decidable (∀ e ∈ p.matchers, _))

theorem Pattern.ofJson?_toJson (p : Pattern) (depth : Nat) :
    ofJson? (depth + 1) p.toJson = some p := by
  cases p with
  | bare pattern => rfl
  | flagged pattern flags =>
      simp [ofJson?, toJson, Json.isSound, Json.areSoundFields, Json.named?, Json.lone?,
        Json.valuesOf, Json.required?, Json.string?]

namespace Entry

/-- The matcher of which an entry tells. An entry with both a raw text and a pattern, or with neither, is of
no matcher. -/
def published? (e : Entry) : Option Matcher.Published :=
  match e.raw, e.regex with
  | some text, none =>
    some ⟨e.id, e.category, .raw text, e.replacements, e.groups, e.priority, e.ignorePart⟩
  | none, some p =>
    some ⟨e.id, e.category, .regex p.source p.flags, e.replacements, e.groups, e.priority,
      e.ignorePart⟩
  | _, _ => none

theorem published?_ofMatcher (m : Matcher) : (ofMatcher m).published? = some m.published := by
  cases hSpec : m.spec with
  | raw text => simp [published?, ofMatcher, Matcher.published, hSpec]
  | regex pattern flags =>
      by_cases hFlags : flags = "" <;>
        simp [published?, ofMatcher, Matcher.published, hSpec, Pattern.ofRegex, hFlags,
          Pattern.source, Pattern.flags]

/-- An entry has a raw text or a pattern, and not both. -/
theorem isSome_raw_ofMatcher (m : Matcher) :
    (ofMatcher m).raw.isSome = !(ofMatcher m).regex.isSome := by
  cases hSpec : m.spec <;> simp [ofMatcher, hSpec]

theorem regex_ofMatcher_eq_bare_iff (m : Matcher) (pattern : String) :
    (ofMatcher m).regex = some (.bare pattern) ↔ m.spec = .regex pattern "" := by
  cases hSpec : m.spec with
  | raw text => simp [ofMatcher, hSpec]
  | regex p flags => by_cases hFlags : flags = "" <;> simp [ofMatcher, hSpec, Pattern.ofRegex, hFlags]

/-- The values of an entry in the order of their names; those that are not written are absent. -/
def values (e : Entry) : List (Option Json) :=
  [some (.string e.category), some e.replacements.toJson, e.raw.map .string, e.regex.map Pattern.toJson,
    if e.groups.isEmpty then none else some (Group.listToJson e.groups),
    if e.ignorePart then some (.bool true) else none, some (.ofInt e.priority), some (.ofInt e.id)]

theorem record?_toJson (e : Entry) : e.toJson.record? names = some e.values := by
  obtain ⟨category, replacements, raw, regex, groups, ignorePart, priority, id⟩ := e
  cases raw <;> cases regex <;> cases groups <;> cases ignorePart <;>
    simp [toJson, Json.record?, Json.named?, names, Json.lone?, Json.valuesOf, field?, values]

/-- An entry is read back by every reader that goes deep enough for its groups. -/
theorem ofJson?_toJson {e : Entry} (h : e.HasWords) (depth : Nat) :
    ofJson? (depth + 1) e.toJson = if Group.nestingOf e.groups ≤ depth then some e else none := by
  have hRaw : Json.orElse? none (Json.optional? Json.string?) (e.raw.map .string) = some e.raw := by
    cases e.raw <;> rfl
  have hRegex : Json.orElse? none (Json.optional? (Pattern.ofJson? (depth + 1)))
      (e.regex.map Pattern.toJson) = some e.regex := by
    cases e.regex with
    | none => rfl
    | some p =>
        have hPattern := Pattern.ofJson?_toJson p depth
        cases p <;> simp_all [Json.orElse?, Json.optional?, Pattern.toJson]
  have hGroups : Json.orElse? [] (Group.listOfJson? (depth + 1))
      (if e.groups.isEmpty then none else some (Group.listToJson e.groups)) =
        if Group.nestingOf e.groups ≤ depth then some e.groups else none := by
    cases e.groups with
    | nil => simp [Json.orElse?, Group.nestingOf]
    | cons g more => exact Group.listOfJson?_listToJson (g :: more) depth
  have hIgnore : Json.orElse? false Json.bool? (if e.ignorePart then some (.bool true) else none) =
      some e.ignorePart := by
    cases e.ignorePart <;> rfl
  have hPriority : Json.orElse? 0 Json.int? (some (.ofInt e.priority)) = some e.priority :=
    Json.int?_ofInt h.1
  rw [ofJson?, record?_toJson, values]
  simp only [Option.bind_eq_bind, Option.bind_some, Json.required?, Json.string?,
    Replacements.ofJson?_toJson, hRaw, hRegex, hGroups, hIgnore, hPriority, Json.int?_ofInt h.2]
  split <;> rfl

/-- Entries that are written alike are the same: some reader goes deep enough for both. -/
theorem eq_of_toJson_eq {e f : Entry} (he : e.HasWords) (hf : f.HasWords)
    (h : e.toJson = f.toJson) : e = f := by
  have hRead := ofJson?_toJson he (max (Group.nestingOf e.groups) (Group.nestingOf f.groups))
  rw [h, ofJson?_toJson hf, if_pos (Nat.le_max_right _ _), if_pos (Nat.le_max_left _ _)] at hRead
  exact (Option.some.inj hRead).symm

theorem eq_of_map_toJson_eq {es fs : List Entry} (hes : ∀ e ∈ es, e.HasWords)
    (hfs : ∀ f ∈ fs, f.HasWords) (h : es.map toJson = fs.map toJson) : es = fs := by
  induction es generalizing fs with
  | nil => exact (List.map_eq_nil_iff.1 h.symm).symm
  | cons e more ih =>
      cases fs with
      | nil => simp at h
      | cons f rest =>
          rw [List.forall_mem_cons] at hes hfs
          obtain ⟨hFirst, hMore⟩ := List.cons.inj h
          rw [eq_of_toJson_eq hes.1 hfs.1 hFirst, ih hes.2 hfs.2 hMore]

theorem isPlain_toJson {e : Entry} (h : e.HasWords) : e.toJson.isPlain = true := by
  obtain ⟨category, replacements, raw, regex, groups, ignorePart, priority, id⟩ := e
  have hGroups : (Group.listToJson groups).isPlain = true := Group.arePlain_toJsons groups
  cases raw <;> rcases regex with _ | ⟨_ | _⟩ <;> cases groups <;> cases ignorePart <;>
    simp_all [toJson, Json.isPlain, Json.arePlainFields, field?, Replacements.isPlain_toJson,
      Json.isPlain_ofInt h.1, Json.isPlain_ofInt h.2, Pattern.toJson]

/-- An entry and the list of its groups are two levels. -/
theorem isSound_toJson (e : Entry) (depth : Nat) :
    e.toJson.isSound (depth + 2) = true ↔ Group.nestingOf e.groups ≤ depth := by
  obtain ⟨category, replacements, raw, regex, groups, ignorePart, priority, id⟩ := e
  have hGroups := Group.areSound_toJsons groups depth
  have hReplacements := replacements.isSound_toJson depth
  have hNumber : ∀ n, (Json.ofInt n).isSound (depth + 1) = true := fun _ => rfl
  cases raw <;> rcases regex with _ | ⟨_ | _⟩ <;> cases groups <;> cases ignorePart <;>
    simp_all [toJson, Json.isSound, Json.areSoundFields, field?, Pattern.toJson, Group.nestingOf,
      Group.listToJson]

end Entry

theorem isPlain_toJson {p : Pack} (h : p.HasWords) : p.toJson.isPlain = true := by
  have hEntries : Json.arePlain (p.matchers.map Entry.toJson) = true := by
    rw [Json.arePlain_map, List.all_eq_true]
    exact fun e he => Entry.isPlain_toJson (h e he)
  have hMessages : Json.arePlain (p.messages.map .string) = true := by
    rw [Json.arePlain_map, List.all_eq_true]
    exact fun _ _ => rfl
  simp [toJson, Json.ofStrings, Json.isPlain, Json.arePlainFields, hEntries, hMessages]

/-- The record and the list of entries are two levels more. -/
theorem isSound_toJson (p : Pack) (depth : Nat) :
    p.toJson.isSound (depth + 4) = true ↔ ∀ e ∈ p.matchers, Group.nestingOf e.groups ≤ depth := by
  have hMessages : Json.areSound (depth + 2) (p.messages.map .string) = true := by
    rw [Json.areSound_map, List.all_eq_true]
    exact fun _ _ => rfl
  simp [toJson, Json.ofStrings, Json.isSound, Json.areSoundFields, Json.areSound_map, hMessages,
    Entry.isSound_toJson]

theorem ofText?_text {p : Pack} (h : p.HasWords) :
    ofText? p.text = if p.toJson.isSound Json.maxDepth = true then some p else none := by
  have hMatchers := Json.mapM_map_eq_ite Entry.toJson fun e he =>
    Entry.ofJson?_toJson (h e he) (Json.maxDepth - 4)
  have hMessages : (p.messages.map Json.string).mapM Json.string? = some p.messages :=
    Json.mapM_map_eq_some (g := Json.string) (fun _ => rfl) p.messages
  have hRecord : p.toJson.record? ["matchers", "time", "messages"] =
      some [some (.array (p.matchers.map Entry.toJson)), some (.string p.time),
        some (.ofStrings p.messages)] := by
    simp [toJson, Json.record?, Json.named?, Json.lone?, Json.valuesOf]
  have hSound : p.toJson.isSound Json.maxDepth = true ↔ _ := isSound_toJson p (Json.maxDepth - 4)
  have hLevels : Json.maxDepth - 3 = Json.maxDepth - 4 + 1 := rfl
  rw [ofText?, text, Json.parse?_pretty (isPlain_toJson h), Option.bind_some, ofJson?, hRecord,
    hLevels, if_congr hSound rfl rfl]
  simp only [Option.bind_eq_bind, Option.bind_some, Json.required?, Json.string?, Json.ofStrings,
    Json.list?, hMessages, hMatchers]
  split <;> rfl

/-- Packs that are written alike have the same entries, also where the reader does not go deep enough. -/
theorem matchers_eq_of_text_eq {p q : Pack} (hp : p.HasWords) (hq : q.HasWords)
    (h : p.text = q.text) : p.matchers = q.matchers := by
  have hJson : p.toJson = q.toJson := by
    have hRead := Json.parse?_pretty (isPlain_toJson hp)
    rw [← text, h, text, Json.parse?_pretty (isPlain_toJson hq)] at hRead
    exact (Option.some.inj hRead).symm
  have hEntries : p.matchers.map Entry.toJson = q.matchers.map Entry.toJson := by
    rw [toJson, toJson] at hJson
    simpa using (List.cons.inj (Json.object.inj hJson)).1
  exact Entry.eq_of_map_toJson_eq hp hq hEntries

/-- Every pack is read back from its text, unless the text nests deeper than the reader goes. The
entry of a matcher has either a raw text or a pattern, which is bare when it has no flags, and tells
all that is published of the matcher. Matchers that differ in any of this are never written alike. -/
theorem text_lossless :
    (∀ p : Pack, p.HasWords →
      ofText? p.text = if p.toJson.isSound Json.maxDepth = true then some p else none) ∧
    (∀ m : Matcher,
      (Entry.ofMatcher m).raw.isSome = !(Entry.ofMatcher m).regex.isSome ∧
      (∀ pattern, (Entry.ofMatcher m).regex = some (.bare pattern) ↔ m.spec = .regex pattern "") ∧
      (Entry.ofMatcher m).published? = some m.published) ∧
    ∀ (ms ns : List Matcher) (message other : String) (now later : Int),
      (make ms message now).HasWords → (make ns other later).HasWords →
      (make ms message now).text = (make ns other later).text →
      ms.map Matcher.published = ns.map Matcher.published := by
  refine ⟨fun p hp => ofText?_text hp, fun m => ⟨Entry.isSome_raw_ofMatcher m,
    Entry.regex_ofMatcher_eq_bare_iff m, Entry.published?_ofMatcher m⟩, ?_⟩
  intro ms ns message other now later hms hns hText
  have hEntries : ms.map Entry.ofMatcher = ns.map Entry.ofMatcher :=
    matchers_eq_of_text_eq hms hns hText
  have hTold : (ms.map Matcher.published).map some = (ns.map Matcher.published).map some := by
    simpa only [List.map_map, Function.comp_def, Entry.published?_ofMatcher] using
      congrArg (List.map Entry.published?) hEntries
  exact List.map_injective_iff.2 (fun _ _ => Option.some.inj) hTold

/-- A pack with control characters, an empty list and a null in its groups, empty flags beside a pattern,
and the smallest and the largest number. -/
def sampler : Pack :=
  ⟨[{ category := "\x01\"\\\n", replacements := .ofList [("ko", "안녕")], raw := none
      regex := some (.flagged "^(.)$" ""), groups := [.null, .list [], .list [.name "a", .list [.null]]]
      ignorePart := true, priority := -9223372036854775808, id := 9223372036854775807 }], "", ["", "\t"]⟩

/-- The sampler is read back, and a flag makes a difference to the text of a greeting. -/
theorem sampler_lossless :
    ofText? sampler.text = some sampler ∧
    (make [⟨.greeting, 1, 0⟩] "" 0).text ≠
      (make [⟨{ Matcher.Content.greeting with spec := .regex "^hello (\\w+)$" "" }, 1, 0⟩] "" 0).text := by
  obtain ⟨hRead, -, hDiffer⟩ := text_lossless
  refine ⟨(hRead sampler (by decide)).trans (if_pos (by decide)), fun hText => ?_⟩
  have hSame := hDiffer _ _ _ _ _ _ (by decide) (by decide) hText
  have hSpec := congrArg Matcher.Published.spec (List.cons.inj hSame).1
  exact absurd hSpec (by decide)

end Pack

end Phrasebook
