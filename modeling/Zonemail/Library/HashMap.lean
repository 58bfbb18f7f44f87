import Mathlib.Data.List.AList

/-!
# Hash maps and their iteration order

A hash map is Mathlib's `AList`: entries with pairwise different keys. `HashMap.entry` is the
look-up-or-insert idiom. The order in which a hash map is walked is not specified, so a loop over
one is modelled with an `IterationOrder`, which may visit the entries in any order and visits each
of them once; what is proved for every order holds of the program.
-/

namespace Library

/-- A map from `Key` to `Value`. -/
abbrev HashMap (Key Value : Type) := AList (fun _ : Key => Value)

variable {Key Value : Type} [DecidableEq Key]

/-- Modify the value at a key in place, starting from `fallback` where there is none. -/
def HashMap.entry (map : HashMap Key Value) (key : Key) (fallback : Value)
    (modify : Value → Value) : HashMap Key Value :=
  map.insert key (modify ((map.lookup key).getD fallback))

/-- After an update in place, the updated key has the new value and every other key its old one. -/
theorem HashMap.lookup_entry (map : HashMap Key Value) (key other : Key) (fallback : Value)
    (modify : Value → Value) :
    (map.entry key fallback modify).lookup other =
      if other = key then some (modify ((map.lookup key).getD fallback)) else map.lookup other := by
  unfold HashMap.entry
  split
  · rename_i h
    subst other
    exact AList.lookup_insert map
  · rename_i h
    exact AList.lookup_insert_ne h

/-- A way to walk through a collection: some order of its elements. -/
structure IterationOrder (α : Type) where
  visit : List α → List α
  perm : ∀ elements, (visit elements).Perm elements

/-- Walking through a collection meets exactly its elements. -/
@[simp] theorem IterationOrder.mem_visit {α : Type} (order : IterationOrder α) {element : α}
    {elements : List α} : element ∈ order.visit elements ↔ element ∈ elements :=
  (order.perm elements).mem_iff

/-- The order in which the elements are listed. -/
def IterationOrder.listed (α : Type) : IterationOrder α := ⟨id, List.Perm.refl⟩

end Library
