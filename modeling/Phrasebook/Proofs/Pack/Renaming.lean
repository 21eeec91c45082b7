import Phrasebook.Graph.Basic
import Phrasebook.Proofs.Group.Names

/-!
Entries under other names. A function on names changes an entry at its category and at the leaves of its
groups. What is to be the same for the entry and for the changed one asks that the function keeps the names
apart that are in use.
-/

namespace Phrasebook

namespace Pack.Entry

/-- The entry with every name changed by `f`. -/
def rename (f : String → String) (e : Entry) : Entry :=
  { e with category := f e.category, groups := Group.mapNamesOf f e.groups }

/-- All names of the entry are among some names. -/
def Uses (names : Set String) (e : Entry) : Prop := ∀ name ∈ Graph.entryNames e, name ∈ names

variable {names : Set String} {e : Entry}

theorem Uses.category (h : e.Uses names) : e.category ∈ names := h _ List.mem_cons_self

theorem Uses.leaf (h : e.Uses names) {name : String} (hName : name ∈ Group.leavesOf e.groups) :
    name ∈ names := h _ (List.mem_cons_of_mem _ hName)

end Pack.Entry

variable {f : String → String} {names : Set String}

theorem beq_of_injOn (hInj : Set.InjOn f names) {x y : String} (hx : x ∈ names) (hy : y ∈ names) :
    (f x == f y) = (x == y) := by
  rw [Bool.eq_iff_iff, beq_iff_eq, beq_iff_eq]
  exact hInj.eq_iff hx hy

theorem contains_map_of_injOn (hInj : Set.InjOn f names) {used : List String}
    (hUsed : ∀ name ∈ used, name ∈ names) {name : String} (hName : name ∈ names) :
    (used.map f).contains (f name) = used.contains name := by
  rw [Bool.eq_iff_iff, List.contains_iff_mem, List.contains_iff_mem, List.mem_map]
  constructor
  · rintro ⟨other, hOther, hSame⟩
    rwa [← hInj (hUsed other hOther) hName hSame]
  · exact fun hMem => ⟨name, hMem, rfl⟩

end Phrasebook
