import Mathlib.Data.List.Basic
import Phrasebook.Env.Load
import Phrasebook.Proofs.Env.Strict
import Phrasebook.Proofs.Text.Canonical

/-!
What the readings of environment files leave behind. A value that is there is kept, a blank one only by the strict
reading, and of several assignments in a file the first counts. A value with a NUL in it cannot be set, so whatever a
reading comes to, it comes to an environment with certain values or to the end of the program at one of them.
-/

namespace Phrasebook.Env

variable {env now : Env} {get values after : String → Option String} {name value key : String}

theorem zero_mem_utf8_iff : 0 ∈ Text.utf8 value ↔ '\x00' ∈ value.toList := by
  constructor
  · contrapose!
    exact Text.byte_notMem_utf8 rfl (by decide)
  · exact fun hNul => List.mem_flatMap.2 ⟨'\x00', hNul, by decide⟩

theorem Value.ofText?_eq_none_iff : Value.ofText? value = none ↔ '\x00' ∈ value.toList := by
  rw [← zero_mem_utf8_iff, Value.ofText?]
  split
  next hNul => exact iff_of_true rfl hNul
  next hNone => exact iff_of_false (fun hEq => nomatch hEq) hNone

theorem Value.text?_of_ofText? {v : Value} (h : Value.ofText? value = some v) : v.text? = some value := by
  rw [Value.ofText?] at h
  split at h
  next => exact nomatch h
  next =>
    obtain rfl := Option.some.inj h
    exact Text.ofUtf8?_utf8 value

/-- What can be read of a variable has no NUL in it. -/
theorem nul_notMem_of_get? (h : env.get? key = some value) : '\x00' ∉ value.toList := by
  obtain ⟨v, -, hText⟩ := Option.bind_eq_some_iff.1 h
  rw [← zero_mem_utf8_iff, Text.utf8_of_ofUtf8? hText]
  exact v.noNul

theorem set_eq_none_iff : env.set name value = none ↔ '\x00' ∈ value.toList := by
  rw [set, Option.map_eq_none_iff, Value.ofText?_eq_none_iff]

theorem exists_of_set (h : env.set name value = some now) :
    ∃ v : Value, v.text? = some value ∧ now = (name, v) :: env := by
  obtain ⟨v, hValue, rfl⟩ := Option.map_eq_some_iff.1 h
  exact ⟨v, Value.text?_of_ofText? hValue, rfl⟩

theorem get?_of_set (h : env.set name value = some now) (key : String) :
    now.get? key = if key = name then some value else env.get? key := by
  obtain ⟨v, hText, rfl⟩ := exists_of_set h
  rw [get?, List.lookup_cons]
  by_cases hKey : key = name
  · rw [if_pos hKey, beq_iff_eq.2 hKey]
    exact hText
  · rw [if_neg hKey, beq_false_of_ne hKey]
    rfl

/-- To set a variable that has no value yet is to put an assignment behind all others. -/
theorem get?_of_setNew (h : env.setNew name value = some now) (key : String) :
    now.get? key = (env.get? key).or ([(name, value)].lookup key) := by
  have hOne : [(name, value)].lookup key = if key = name then some value else none := by
    rw [List.lookup_cons]
    by_cases hKey : key = name
    · rw [if_pos hKey, beq_iff_eq.2 hKey]
    · rw [if_neg hKey, beq_false_of_ne hKey, List.lookup_nil]
  rw [hOne]
  by_cases hSet : (env.get? name).isSome = true
  · rw [setNew, if_pos hSet] at h
    obtain rfl := Option.some.inj h
    split
    next hKey =>
      obtain ⟨old, hOld⟩ := Option.isSome_iff_exists.1 hSet
      rw [hKey, hOld, Option.some_or]
    next => rw [Option.or_none]
  · rw [setNew, if_neg hSet] at h
    rw [get?_of_set h]
    split
    next hKey =>
      rw [Option.not_isSome_iff_eq_none] at hSet
      rw [hKey, hSet, Option.none_or]
    next => rw [Option.or_none]

theorem get?_of_setNew_eq_none (h : env.setNew name value = none) :
    env.get? name = none ∧ '\x00' ∈ value.toList := by
  rw [setNew] at h
  split at h
  next => exact nomatch h
  next hUnset => exact ⟨Option.not_isSome_iff_eq_none.1 hUnset, set_eq_none_iff.1 h⟩

/-- What comes of reading files: an environment with certain values, or the end of the program when one of these
has a NUL in it. -/
structure Yields (e? : Option Env) (values : String → Option String) : Prop where
  exists_nul : e? = none → ∃ key value, values key = some value ∧ '\x00' ∈ value.toList
  get? : ∀ e, e? = some e → e.get? = values

namespace Yields

variable {e? : Option Env}

theorem self (env : Env) : Yields (some env) env.get? where
  exists_nul hNone := nomatch hNone
  get? e hEq := by rw [Option.some.inj hEq]

theorem eq_none_iff (h : Yields e? values) :
    e? = none ↔ ∃ key value, values key = some value ∧ '\x00' ∈ value.toList := by
  refine ⟨h.exists_nul, fun ⟨key, value, hValue, hNul⟩ => Option.eq_none_iff_forall_ne_some.2 fun e hEq => ?_⟩
  rw [← h.get? e hEq] at hValue
  exact nul_notMem_of_get? hValue hNul

/-- One reading behind another, which keeps the values with a NUL. -/
theorem bind {f : Env → Option Env} (h : Yields e? values) (hNext : ∀ e, e.get? = values → Yields (f e) after)
    (hKept : ∀ key value, values key = some value → '\x00' ∈ value.toList → after key = some value) :
    Yields (e? >>= f) after := by
  cases e? with
  | none =>
      obtain ⟨key, value, hValue, hNul⟩ := h.exists_nul rfl
      exact ⟨fun _ => ⟨key, value, hKept key value hValue hNul, hNul⟩, fun e hEq => nomatch hEq⟩
  | some e => exact hNext e (h.get? e rfl)

end Yields

/-- What holds while lines are run: the environment is the one from the beginning with the assignments behind it, and
what the file holds is set in it. -/
structure IsBehind (get : String → Option String) (before file : List (String × String)) (now : Env) : Prop where
  get? : ∀ key, now.get? key = (get key).or (before.lookup key)
  isSome : ∀ key, (file.lookup key).isSome = true → (now.get? key).isSome = true

namespace IsBehind

variable {before file : List (String × String)}

theorem start (env : Env) : IsBehind env.get? [] [] env where
  get? := fun key => by rw [List.lookup_nil, Option.or_none]
  isSome := fun _ hSome => nomatch hSome

theorem assign (h : IsBehind get before file now) {next : Env} (hSet : now.setNew name value = some next) :
    IsBehind get (before ++ [(name, value)]) ((name, value) :: file) next := by
  constructor
  · intro key
    rw [get?_of_setNew hSet, h.get?, Option.or_assoc, ← List.lookup_append]
  · intro key hKey
    rw [get?_of_setNew hSet, Option.isSome_or, Bool.or_eq_true]
    by_cases hName : key = name
    · right
      rw [hName, List.lookup_cons_self]
      rfl
    · left
      rw [List.lookup_cons, beq_false_of_ne hName] at hKey
      exact h.isSome key hKey

/-- A reference never gets its value from the file alone. -/
theorem referred_eq (h : IsBehind get before file now) : referred now.get? file = referred get before := by
  funext name
  rw [referred, referred, h.get?]
  cases hGet : get name with
  | some value => rfl
  | none =>
      cases hBefore : before.lookup name with
      | some value => rfl
      | none =>
          have hNone : file.lookup name = none := by
            rw [← Option.not_isSome_iff_eq_none]
            intro hSome
            have hNow := h.isSome name hSome
            rw [h.get?, hGet, hBefore] at hNow
            exact nomatch hNow
          rw [hNone]
          rfl

/-- No more lines are run. -/
theorem stop (h : IsBehind get before file now) (wellFormed : Bool) :
    Yields ((some (now, wellFormed)).map Prod.fst) (fun key => (get key).or ((before ++ []).lookup key)) ∧
      ∀ r, some (now, wellFormed) = some r → r.2 = wellFormed := by
  have hNow : now.get? = fun key => (get key).or ((before ++ []).lookup key) := by
    funext key
    rw [List.append_nil, h.get?]
  rw [← hNow]
  exact ⟨.self now, fun r hEq => by rw [← Option.some.inj hEq]⟩

theorem runLines (h : IsBehind get before file now) (all : List Line) :
    Yields ((Env.runLines now file all).map Prod.fst)
        (fun key => (get key).or ((before ++ (assignments get before all).1).lookup key)) ∧
      ∀ r, Env.runLines now file all = some r → r.2 = (assignments get before all).2 := by
  induction all generalizing before file now with
  | nil => exact h.stop true
  | cons line more ih =>
      cases line with
      | fault => exact h.stop false
      | text cs =>
          rw [Env.runLines, assignments, h.referred_eq]
          cases readLine (referred get before) cs with
          | nothing => exact ih h
          | malformed => exact h.stop false
          | assignment name value =>
              dsimp only
              cases hSet : now.setNew name (value.getD "") with
              | none =>
                  obtain ⟨hUnset, hNul⟩ := get?_of_setNew_eq_none hSet
                  rw [h.get?, Option.or_eq_none_iff] at hUnset
                  refine ⟨⟨fun _ => ⟨name, value.getD "", ?_, hNul⟩, by simp⟩, by simp⟩
                  rw [List.lookup_append, hUnset.1, hUnset.2, List.lookup_cons_self]
                  rfl
              | some next =>
                  have hBehind := ih (h.assign hSet)
                  rw [List.append_assoc] at hBehind
                  exact hBehind

end IsBehind

/-- The first assignment of a variable in front of the first malformed line of a file. -/
def firstAssigned? (get : String → Option String) (bytes : List UInt8) (key : String) : Option String :=
  (assignments get [] (lines bytes)).1.lookup key

/-- No line of a file is malformed. -/
def IsAccepted (get : String → Option String) (bytes : List UInt8) : Prop :=
  (assignments get [] (lines bytes)).2 = true

instance (get : String → Option String) (bytes : List UInt8) : Decidable (IsAccepted get bytes) :=
  inferInstanceAs (Decidable (_ = _))

/-- The value of a variable behind the strict reading: the one it has, or the first that the file assigns. -/
def strictValue? (get : String → Option String) (bytes : List UInt8) (key : String) : Option String :=
  (get key).or (firstAssigned? get bytes key)

theorem yields_loadStrict (env : Env) (bytes : List UInt8) :
    Yields ((loadStrict env bytes).map Prod.fst) (strictValue? env.get? bytes) ∧
      ∀ r, loadStrict env bytes = some r → (r.2 = true ↔ IsAccepted env.get? bytes) := by
  obtain ⟨hYields, hAccepts⟩ := (IsBehind.start env).runLines (lines bytes)
  exact ⟨hYields, fun r hRun => by rw [hAccepts r hRun, IsAccepted]⟩

theorem yields_loadCommon (env : Env) (bytes : List UInt8) :
    Yields (loadCommon env bytes) (strictValue? env.get? bytes) := (yields_loadStrict env bytes).1

/-- A value is there and is not blank. -/
def IsFilled (value : Option String) : Prop := (value.bind Text.nonBlank?).isSome = true

instance (value : Option String) : Decidable (IsFilled value) := inferInstanceAs (Decidable (_ = _))

theorem isFilled_of_nul (h : '\x00' ∈ value.toList) : IsFilled (some value) := by
  have hTrim : '\x00' ∈ (Text.trim value).toList := Text.mem_trim h (by decide)
  have hNotEmpty : ¬(Text.trim value).isEmpty = true := by
    intro hEmpty
    rw [String.isEmpty_iff.1 hEmpty] at hTrim
    exact absurd hTrim (by decide)
  rw [IsFilled, Option.bind_some, Text.nonBlank?]
  exact (congrArg Option.isSome (if_neg hNotEmpty)).trans rfl

/-- The values that assignments have for a variable. -/
def valuesOf (all : List (String × String)) (key : String) : List String :=
  (all.filter fun entry => entry.1 == key).map Prod.snd

theorem valuesOf_cons_self (key value : String) (more : List (String × String)) :
    valuesOf ((key, value) :: more) key = value :: valuesOf more key := by
  rw [valuesOf, List.filter_cons_of_pos (by simp)]
  rfl

theorem valuesOf_cons_of_ne (h : key ≠ name) (value : String) (more : List (String × String)) :
    valuesOf ((name, value) :: more) key = valuesOf more key := by
  rw [valuesOf, List.filter_cons_of_neg (by simpa using Ne.symm h)]
  rfl

/-- The first value that is not blank, or the last one when all are. -/
def preferred? (values : List String) : Option String :=
  (values.find? fun value => (Text.nonBlank? value).isSome).or values.getLast?

/-- A blank value in front gives way to any other value. -/
theorem preferred?_cons (value : String) (more : List String) (old : Option String) :
    (preferred? (value :: more)).or old =
      if IsFilled (some value) then some value else (preferred? more).or (some value) := by
  have hFilled : IsFilled (some value) ↔ (Text.nonBlank? value).isSome = true := by rw [IsFilled, Option.bind_some]
  rw [preferred?, preferred?, List.find?_cons]
  split
  next hNonBlank => rw [if_pos (hFilled.2 hNonBlank), Option.some_or, Option.some_or]
  next hBlank =>
    rw [if_neg fun h => Bool.false_ne_true (hBlank.symm.trans (hFilled.1 h)), List.getLast?_cons, Option.or_assoc,
      Option.or_assoc]
    cases more.getLast? <;> rfl

theorem mem_of_preferred? {values : List String} (h : preferred? values = some value) : value ∈ values := by
  rw [preferred?, Option.or_eq_some_iff] at h
  rcases h with hFound | ⟨-, hLast⟩
  · exact List.mem_of_find?_eq_some hFound
  · exact List.mem_of_getLast? hLast

/-- The values behind assignments that only variables without a value, or with a blank one, take. -/
def filledValue? (get : String → Option String) (found : String → List String) (key : String) : Option String :=
  if IsFilled (get key) then get key else (preferred? (found key)).or (get key)

theorem filledValue?_nil (get : String → Option String) : filledValue? get (valuesOf []) = get := by
  funext key
  rw [filledValue?]
  split
  · rfl
  · rfl

section

variable (value) (more : List (String × String))

theorem filledValue?_cons_of_filled (h : IsFilled (get name)) :
    filledValue? get (valuesOf ((name, value) :: more)) = filledValue? get (valuesOf more) := by
  funext key
  rw [filledValue?, filledValue?]
  by_cases hName : key = name
  · rw [hName, if_pos h, if_pos h]
  · rw [valuesOf_cons_of_ne hName]

theorem filledValue?_cons_self (h : ¬IsFilled (get name)) :
    filledValue? get (valuesOf ((name, value) :: more)) name =
      if IsFilled (some value) then some value else (preferred? (valuesOf more name)).or (some value) := by
  rw [filledValue?, if_neg h, valuesOf_cons_self, preferred?_cons]

/-- An assignment is taken as if the value had been there from the beginning. -/
theorem filledValue?_cons_of_blank (h : ¬IsFilled (get name)) :
    filledValue? get (valuesOf ((name, value) :: more)) =
      filledValue? (fun key => if key = name then some value else get key) (valuesOf more) := by
  funext key
  by_cases hName : key = name
  · rw [hName, filledValue?_cons_self value more h, filledValue?, if_pos rfl]
  · rw [filledValue?, filledValue?, if_neg hName, valuesOf_cons_of_ne hName]

end

/-- Assigns a variable that has no value yet. -/
def fill (env : Env) (entry : String × String) : Option Env :=
  if env.hasValue entry.1 then some env else env.set entry.1 entry.2

theorem yields_foldlM_fill (all : List (String × String)) (env : Env) :
    Yields (all.foldlM fill env) (filledValue? env.get? (valuesOf all)) := by
  induction all generalizing env with
  | nil =>
      rw [filledValue?_nil]
      exact .self env
  | cons entry more ih =>
      obtain ⟨name, value⟩ := entry
      rw [List.foldlM_cons]
      by_cases hHas : IsFilled (env.get? name)
      · have hFill : env.fill (name, value) = some env := if_pos hHas
        rw [hFill, filledValue?_cons_of_filled value more hHas]
        exact ih env
      · have hFill : env.fill (name, value) = env.set name value := if_neg hHas
        rw [hFill]
        cases hSet : env.set name value with
        | none =>
            have hNul := set_eq_none_iff.1 hSet
            have hFirst := filledValue?_cons_self value more hHas
            rw [if_pos (isFilled_of_nul hNul)] at hFirst
            exact ⟨fun _ => ⟨name, value, hFirst, hNul⟩, fun e hEq => nomatch hEq⟩
        | some next =>
            have hNext : (fun key => if key = name then some value else env.get? key) = next.get? := by
              funext key
              rw [get?_of_set hSet]
            rw [filledValue?_cons_of_blank value more hHas, hNext]
            exact ih next

/-- The values that the lenient reading finds for a variable in a file; none in one that is no text. -/
def found (bytes : List UInt8) (key : String) : List String :=
  match Text.ofUtf8? bytes with
  | some text => valuesOf ((Text.lines text).filterMap lenientLine?) key
  | none => []

/-- The value of a variable behind the local file. -/
def localValue? (get : String → Option String) (bytes : List UInt8) : String → Option String :=
  if IsAccepted get bytes then strictValue? get bytes else filledValue? (strictValue? get bytes) (found bytes)

theorem localValue?_of_filled {bytes : List UInt8} (h : strictValue? get bytes key = some value)
    (hFilled : IsFilled (some value)) : localValue? get bytes key = some value := by
  rw [localValue?]
  split
  · exact h
  · rw [filledValue?, h, if_pos hFilled]

theorem yields_loadLocal (env : Env) (bytes : List UInt8) :
    Yields (loadLocal env bytes) (localValue? env.get? bytes) := by
  obtain ⟨hStrict, hAccepts⟩ := yields_loadStrict env bytes
  rw [loadLocal]
  cases hRun : loadStrict env bytes with
  | none =>
      rw [hRun] at hStrict
      obtain ⟨key, value, hValue, hNul⟩ := hStrict.exists_nul rfl
      exact ⟨fun _ => ⟨key, value, localValue?_of_filled hValue (isFilled_of_nul hNul), hNul⟩,
        fun e hEq => nomatch hEq⟩
  | some r =>
      obtain ⟨now, wellFormed⟩ := r
      rw [hRun] at hStrict
      have hNow : now.get? = strictValue? env.get? bytes := hStrict.get? now rfl
      have hFlag := hAccepts _ hRun
      cases wellFormed with
      | true =>
          rw [localValue?, if_pos (hFlag.1 rfl), ← hNow]
          exact .self now
      | false =>
          rw [localValue?, if_neg fun hAccepted => Bool.false_ne_true (hFlag.2 hAccepted), ← hNow]
          change Yields (match Text.ofUtf8? bytes with | some text => loadLenient now text | none => some now) _
          have hFound : found bytes = match Text.ofUtf8? bytes with
              | some text => valuesOf ((Text.lines text).filterMap lenientLine?)
              | none => valuesOf [] := by
            funext key
            rw [found]
            cases Text.ofUtf8? bytes <;> rfl
          rw [hFound]
          cases Text.ofUtf8? bytes with
          | none => exact yields_foldlM_fill [] now
          | some text => exact yields_foldlM_fill _ now

end Phrasebook.Env
