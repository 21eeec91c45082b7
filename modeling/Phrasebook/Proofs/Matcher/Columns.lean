import Phrasebook.Matcher.Reading
import Phrasebook.Proofs.Json.RoundTrip
import Phrasebook.Proofs.Matcher.Legal
import Phrasebook.Store.Matchers

/-!
The columns of a matcher. Replacements and groups are stored as JSON texts, and a spec as three texts of
which some are empty. A row that was made from a matcher is read back as this matcher, as long as its
groups are not nested deeper than the reader goes.
-/

namespace Phrasebook

namespace Group

mutual

/-- How many brackets are open at a time in the JSON of an entry. -/
def nesting : Group → Nat
  | .name _ | .null => 0
  | .list entries => nestingOf entries + 1

def nestingOf : List Group → Nat
  | [] => 0
  | g :: more => max (nesting g) (nestingOf more)

end

/-- The reader of JSON takes the groups, whose list is one more bracket. -/
def AreReadable (groups : List Group) : Prop := nestingOf groups < Json.maxDepth

instance (groups : List Group) : Decidable (AreReadable groups) :=
  inferInstanceAs (Decidable (_ < _))

mutual

theorem isSound_toJson : ∀ (g : Group) (depth : Nat),
    (toJson g).isSound depth = true ↔ nesting g ≤ depth
  | .name _, _ => by simp [toJson, nesting, Json.isSound]
  | .null, _ => by simp [toJson, nesting, Json.isSound]
  | .list entries, 0 => by simp [toJson, nesting, Json.isSound]
  | .list entries, depth + 1 => by
      rw [toJson, Json.isSound, areSound_toJsons entries depth, nesting]
      omega

theorem areSound_toJsons : ∀ (groups : List Group) (depth : Nat),
    Json.areSound depth (toJsons groups) = true ↔ nestingOf groups ≤ depth
  | [], _ => by simp [toJsons, nestingOf, Json.areSound]
  | g :: more, depth => by
      rw [toJsons, Json.areSound, Bool.and_eq_true, isSound_toJson g depth,
        areSound_toJsons more depth, nestingOf]
      omega

end

mutual

theorem isPlain_toJson : ∀ g : Group, (toJson g).isPlain = true
  | .name _ => rfl
  | .null => rfl
  | .list entries => arePlain_toJsons entries

theorem arePlain_toJsons : ∀ groups : List Group, Json.arePlain (toJsons groups) = true
  | [] => rfl
  | g :: more => by
      rw [toJsons, Json.arePlain, isPlain_toJson g, arePlain_toJsons more]
      rfl

end

mutual

theorem ofJson?_toJson : ∀ g : Group, ofJson? (toJson g) = some g
  | .name _ => rfl
  | .null => rfl
  | .list entries => by
      rw [toJson, ofJson?, ofJsons?_toJsons entries]
      rfl

theorem ofJsons?_toJsons : ∀ groups : List Group, ofJsons? (toJsons groups) = some groups
  | [] => rfl
  | g :: more => by
      rw [toJsons, ofJsons?, ofJson?_toJson g, ofJsons?_toJsons more]
      rfl

end

mutual

/-- Only the JSON of an entry is read as the entry. -/
theorem toJson_of_ofJson? : ∀ {j : Json} {g : Group}, ofJson? j = some g → toJson g = j
  | .string _, _, h => by
      obtain rfl := Option.some.inj h
      rfl
  | .null, _, h => by
      obtain rfl := Option.some.inj h
      rfl
  | .array items, _, h => by
      obtain ⟨entries, hEntries, rfl⟩ := Option.map_eq_some_iff.1 h
      rw [toJson, toJsons_of_ofJsons? hEntries]
  | .bool _, _, h => absurd h (by simp [ofJson?])
  | .number _, _, h => absurd h (by simp [ofJson?])
  | .object _, _, h => absurd h (by simp [ofJson?])
  | .broken, _, h => absurd h (by simp [ofJson?])

theorem toJsons_of_ofJsons? : ∀ {items : List Json} {groups : List Group},
    ofJsons? items = some groups → toJsons groups = items
  | [], _, h => by
      obtain rfl := Option.some.inj h
      rfl
  | j :: more, _, h => by
      rw [ofJsons?] at h
      split at h
      next => simp at h
      next g hHead =>
        obtain ⟨rest, hRest, rfl⟩ := Option.map_eq_some_iff.1 h
        rw [toJsons, toJson_of_ofJson? hHead, toJsons_of_ofJsons? hRest]

end

/-- A list of groups is read back by every reader that goes deep enough for it. -/
theorem listOfJson?_listToJson (groups : List Group) (depth : Nat) :
    listOfJson? (depth + 1) (listToJson groups) =
      if nestingOf groups ≤ depth then some groups else none := by
  simp only [listOfJson?, listToJson, Json.isSound, areSound_toJsons, ofJsons?_toJsons]

/-- What was read from JSON can be read again, also when it is written by itself. -/
theorem areReadable_of_listOfJson? {depth : Nat} {j : Json} {groups : List Group}
    (h : listOfJson? depth j = some groups) (hDepth : depth ≤ Json.maxDepth) :
    AreReadable groups := by
  cases j with
  | array items =>
      simp only [listOfJson?, Option.ite_none_right_eq_some] at h
      obtain ⟨hSound, hItems⟩ := h
      obtain rfl := toJsons_of_ofJsons? hItems
      cases depth with
      | zero => exact absurd hSound (by simp [Json.isSound])
      | succ depth =>
          rw [Json.isSound, areSound_toJsons] at hSound
          exact Nat.lt_of_le_of_lt hSound hDepth
  | _ => simp [listOfJson?] at h

mutual

/-- Renaming changes no bracket. -/
theorem nesting_relabel (old new : String) : ∀ g : Group, nesting (relabel old new g).1 = nesting g
  | .name category => by
      rw [relabel]
      split <;> rfl
  | .null => rfl
  | .list entries => by rw [relabel, nesting, nesting, nestingOf_relabelAll old new entries]

theorem nestingOf_relabelAll (old new : String) :
    ∀ groups : List Group, nestingOf (relabelAll old new groups).1 = nestingOf groups
  | [] => rfl
  | g :: more => by
      rw [relabelAll, nestingOf, nestingOf, nesting_relabel old new g,
        nestingOf_relabelAll old new more]

end

theorem areReadable_relabelAll {groups : List Group} (h : AreReadable groups) (old new : String) :
    AreReadable (relabelAll old new groups).1 := by
  rw [AreReadable, nestingOf_relabelAll]
  exact h

end Group

theorem placeEntry_append {language text : String} {entries : List (String × String)}
    (h : ∀ e ∈ entries, e.1 < language) :
    placeEntry language text entries = entries ++ [(language, text)] := by
  induction entries with
  | nil => rfl
  | cons head rest ih =>
      obtain ⟨l, t⟩ := head
      have hHead : l < language := h (l, t) List.mem_cons_self
      have hNotLt : ¬language < l := fun hGt => String.lt_irrefl l (String.lt_trans hHead hGt)
      have hNe : language ≠ l := fun hEq => String.lt_irrefl l (hEq ▸ hHead)
      rw [placeEntry, if_neg hNotLt, if_neg hNe, ih fun e he => h e (List.mem_cons_of_mem _ he)]
      rfl

namespace Replacements

theorem entries_foldl_insert {done todo : List (String × String)} {r : Replacements}
    (hDone : r.entries = done) (h : (done ++ todo).Pairwise (·.1 < ·.1)) :
    (todo.foldl (fun r (language, text) => r.insert language text) r).entries = done ++ todo := by
  induction todo generalizing done r with
  | nil => rw [List.foldl_nil, hDone, List.append_nil]
  | cons e todo ih =>
      have hLast : ∀ d ∈ done, d.1 < e.1 := fun d hd =>
        (List.pairwise_append.1 h).2.2 d hd e List.mem_cons_self
      have hInsert : (r.insert e.1 e.2).entries = done ++ [e] := by
        rw [← placeEntry_append hLast, ← hDone, insert]
      rw [List.append_cons] at h ⊢
      exact ih hInsert h

theorem ofList_entries (r : Replacements) : ofList r.entries = r := by
  obtain ⟨entries, hAscending⟩ := r
  rw [ofList, Replacements.mk.injEq]
  exact entries_foldl_insert rfl hAscending

theorem ofJson?_toJson (r : Replacements) : ofJson? r.toJson = some r := by
  have hFields : ∀ entries : List (String × String),
      (entries.map fun (l, t) => (l, Json.string t)).mapM
        (fun (field : String × Json) => field.2.string?.map (field.1, ·)) = some entries := by
    intro entries
    induction entries with
    | nil => rfl
    | cons e more ih =>
        rw [List.map_cons, List.mapM_cons, ih]
        rfl
  rw [toJson, ofJson?, hFields, Option.map_some, ofList_entries]

theorem isPlain_toJson (r : Replacements) : r.toJson.isPlain = true := by
  rw [toJson, Json.isPlain]
  induction r.entries with
  | nil => rfl
  | cons e more ih => simpa [Json.arePlainFields, Json.isPlain] using ih

end Replacements

namespace Store

theorem readReplacements?_replacementsText (r : Replacements) :
    readReplacements? (replacementsText r) = some r := by
  rw [readReplacements?, replacementsText, Json.parse?_compact r.isPlain_toJson, Option.bind_some,
    Replacements.ofJson?_toJson]

theorem readGroups?_groupsText {groups : List Group} (h : Group.AreReadable groups) :
    readGroups? (groupsText groups) = some groups := by
  have hPlain : (Group.listToJson groups).isPlain = true := Group.arePlain_toJsons groups
  rw [readGroups?, groupsText, Json.parse?_compact hPlain, Option.bind_some, Json.maxDepth,
    Group.listOfJson?_listToJson, if_pos (Nat.le_of_lt_succ h)]

end Store

/-- A content that can be stored and read back. -/
structure Matcher.Content.IsStorable (c : Matcher.Content) : Prop where
  spec : c.spec.IsLegal
  groups : Group.AreReadable c.groups

/-- A content to try things with: a greeting that is said to a city, or to nobody in particular. -/
def Matcher.Content.greeting : Matcher.Content :=
  ⟨"greetings", .regex "^hello (\\w+)$" "i", ⟨[("ko", "안녕 $1")], List.pairwise_singleton _ _⟩,
    [.list [.name "cities", .null]], 3, false, ""⟩

theorem Matcher.Content.isLegal_greeting : greeting.IsLegal := by
  have hFlags : ("i" : String).toList.all (· ∈ Draft.knownFlags) = true := by decide
  refine ⟨by decide, by decide, by decide, ⟨by decide, by decide, by decide, fun c hc => ?_⟩,
    List.cons_ne_nil _ _⟩
  simpa using List.all_eq_true.1 hFlags c hc

/-- The row of a stored matcher. -/
def Matcher.stored (m : Matcher) : Store.Row := .ofContent m.id m.createdAt m.toContent

@[simp]
theorem Matcher.stored_id (m : Matcher) : m.stored.id = m.id := rfl

@[simp]
theorem Matcher.stored_createdAt (m : Matcher) : m.stored.createdAt = m.createdAt := rfl

namespace Store.Row

theorem spec_ofContent {c : Matcher.Content} (h : c.spec.IsLegal) (id createdAt : Int) :
    (ofContent id createdAt c).spec = c.spec := by
  cases hSpec : c.spec with
  | raw text =>
      rw [hSpec] at h
      have hText : text.isEmpty = false := by simpa using h.1
      simp [ofContent, spec, hSpec, Matcher.Spec.columns, hText]
  | regex pattern flags => simp [ofContent, spec, hSpec, Matcher.Spec.columns]

/-- A stored matcher is read back as it was. -/
theorem matcher_stored {m : Matcher} (h : m.toContent.IsStorable) : m.stored.matcher = .ok m := by
  have hSpec := spec_ofContent h.spec m.id m.createdAt
  have hReplacements := readReplacements?_replacementsText m.replacements
  have hGroups := readGroups?_groupsText h.groups
  rw [matcher, Matcher.stored, hSpec]
  simp only [ofContent, hReplacements, hGroups]

theorem hasOneSpec_ofContent {c : Matcher.Content} (h : c.spec.IsLegal) (id createdAt : Int) :
    (ofContent id createdAt c).hasOneSpec = true := by
  cases hSpec : c.spec with
  | raw text =>
      rw [hSpec] at h
      have hText : text.isEmpty = false := by simpa using h.1
      simp [ofContent, hasOneSpec, hSpec, Matcher.Spec.columns, hText]
  | regex pattern flags =>
      rw [hSpec] at h
      have hPattern : pattern.isEmpty = false := by simpa using h.1
      simp [ofContent, hasOneSpec, hSpec, Matcher.Spec.columns, hPattern]

/-- Rows are for the same texts exactly when their specs are equal. -/
theorem sameSpec_ofContent {c d : Matcher.Content} (hc : c.spec.IsLegal) (hd : d.spec.IsLegal)
    (i j s t : Int) :
    (ofContent i s c).sameSpec (ofContent j t d) = true ↔ c.spec = d.spec := by
  cases hLeft : c.spec <;> cases hRight : d.spec
  all_goals
    rw [hLeft] at hc
    rw [hRight] at hd
    have hLeftNe := hc.1
    have hRightNe := hd.1
    simp [ofContent, sameSpec, hLeft, hRight, Matcher.Spec.columns, hLeftNe, hRightNe]

end Store.Row

end Phrasebook
