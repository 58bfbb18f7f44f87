import Mathlib.Logic.Function.Basic
import Mathlib.Data.List.Nodup

/-!
# Tables with a primary key

A `Table key` is a list of rows in the order the store returns them, in which no two rows share a
key: the uniqueness that a primary key enforces is a field, so a table that breaks it cannot be
built. Reads go through `get?` and `select`; the writes are `insert?`, which fails on a key already
present, `modify`, which rewrites the row with one key, and `remove`, which deletes by a predicate.
An `AutoTable` also carries the counter that numbers new rows, which no row has reached yet.

The lemmas say what each write does to `get?`; a development over tables needs no others.
-/

namespace Library

variable {ρ κ : Type}

/-- Among rows that no two share a key, a row is the only one with its key. -/
theorem filter_key_eq_singleton [DecidableEq κ] {rows : List ρ} {key : ρ → κ} {row : ρ}
    (hnodup : (rows.map key).Nodup) (h : row ∈ rows) :
    rows.filter (fun other => key other = key row) = [row] := by
  induction rows with
  | nil => cases h
  | cons first rest ih =>
      rw [List.map_cons, List.nodup_cons] at hnodup
      rcases List.mem_cons.mp h with rfl | hmem
      · have hnone : rest.filter (fun other => key other = key row) = [] := by
          rw [List.filter_eq_nil_iff]
          intro other hother hkey
          exact hnodup.1 (List.mem_map.mpr ⟨other, hother, by simpa using hkey⟩)
        simp [hnone]
      · have hne : key first ≠ key row := by
          intro hkey
          exact hnodup.1 (List.mem_map.mpr ⟨row, hmem, hkey.symm⟩)
        simp [hne, ih hnodup.2 hmem]

/-- Rows no two of which share a key. -/
structure Table (key : ρ → κ) where
  rows : List ρ
  nodup : (rows.map key).Nodup

namespace Table

variable {key : ρ → κ}

/-- The table without rows. -/
def empty : Table key := ⟨[], List.nodup_nil⟩

/-- Two rows of a table with the same key are the same row. -/
theorem eq_of_key_eq (table : Table key) {row other : ρ} (h : row ∈ table.rows)
    (hother : other ∈ table.rows) (hkey : key row = key other) : row = other :=
  List.inj_on_of_nodup_map table.nodup h hother hkey

/-- The rows that meet a condition, in store order. -/
def select (table : Table key) (condition : ρ → Bool) : List ρ :=
  table.rows.filter condition

/-- Delete the rows that meet a condition. -/
def remove (table : Table key) (condition : ρ → Bool) : Table key where
  rows := table.rows.filter (fun row => !condition row)
  nodup := table.nodup.sublist (List.filter_sublist.map key)

variable [DecidableEq κ]

/-- The row with this key. -/
def get? (table : Table key) (k : κ) : Option ρ :=
  table.rows.find? (fun row => key row = k)

/-- Add a row at the end, or fail when its key is taken. -/
def insert? (table : Table key) (row : ρ) : Option (Table key) :=
  if h : key row ∈ table.rows.map key then none
  else some
    { rows := table.rows ++ [row]
      nodup := by
        rw [List.map_append, List.nodup_append]
        refine ⟨table.nodup, by simp, ?_⟩
        intro a ha b hb heq
        simp only [List.map_cons, List.map_nil, List.mem_singleton] at hb
        exact h (hb ▸ heq ▸ ha) }

/-- Rewrite the row with this key, if there is one, by a function that keeps keys. -/
def modify (table : Table key) (k : κ) (f : ρ → ρ) (hf : ∀ row, key (f row) = key row) :
    Table key where
  rows := table.rows.map (fun row => if key row = k then f row else row)
  nodup := by
    have hkeys : (table.rows.map (fun row => if key row = k then f row else row)).map key =
        table.rows.map key := by
      rw [List.map_map]
      apply List.map_congr_left
      intro row _
      by_cases h : key row = k <;> simp [h, hf]
    rw [hkeys]
    exact table.nodup

/-- A lookup finds a row exactly when the row is there and has the key. -/
theorem get?_eq_some {table : Table key} {k : κ} {row : ρ} :
    table.get? k = some row ↔ row ∈ table.rows ∧ key row = k := by
  constructor
  · intro h
    exact ⟨List.mem_of_find?_eq_some h, by simpa using List.find?_some h⟩
  · intro h
    obtain ⟨hmem, rfl⟩ := h
    cases hfind : table.get? (key row) with
    | none =>
        have hnone := List.find?_eq_none.mp hfind row hmem
        simp at hnone
    | some found =>
        have hfound : found ∈ table.rows := List.mem_of_find?_eq_some hfind
        have hkey : key found = key row := by simpa using List.find?_some hfind
        rw [table.eq_of_key_eq hfound hmem hkey]

/-- A lookup fails exactly when no row has the key. -/
theorem get?_eq_none {table : Table key} {k : κ} :
    table.get? k = none ↔ ∀ row ∈ table.rows, key row ≠ k := by
  simp [get?, List.find?_eq_none]

/-- The keys that a lookup finds are those of the rows. -/
theorem isSome_get? {table : Table key} {k : κ} :
    (table.get? k).isSome ↔ k ∈ table.rows.map key := by
  rw [Option.isSome_iff_exists, List.mem_map]
  simp only [get?_eq_some]

/-- The row a lookup returns is a row of the table. -/
theorem mem_of_get? {table : Table key} {k : κ} {row : ρ} (h : table.get? k = some row) :
    row ∈ table.rows := (get?_eq_some.mp h).1

/-- The row a lookup returns has the key that was looked up. -/
theorem key_of_get? {table : Table key} {k : κ} {row : ρ} (h : table.get? k = some row) :
    key row = k := (get?_eq_some.mp h).2

/-- Every row of a table is found under its own key. -/
theorem get?_of_mem {table : Table key} {row : ρ} (h : row ∈ table.rows) :
    table.get? (key row) = some row := get?_eq_some.mpr ⟨h, rfl⟩

@[simp] theorem get?_empty (k : κ) : (empty : Table key).get? k = none := rfl

/-- A successful insertion appends the row. -/
theorem rows_of_insert? {table next : Table key} {row : ρ} (h : table.insert? row = some next) :
    next.rows = table.rows ++ [row] := by
  unfold insert? at h
  split at h
  · cases h
  · cases h
    rfl

/-- A row is inserted only when its key finds nothing. -/
theorem get?_eq_none_of_insert? {table next : Table key} {row : ρ}
    (h : table.insert? row = some next) : table.get? (key row) = none := by
  rw [get?_eq_none]
  intro other hother hkey
  unfold insert? at h
  rw [dif_pos (List.mem_map.mpr ⟨other, hother, hkey⟩)] at h
  cases h

/-- An insertion fails only when the key finds a row. -/
theorem isSome_of_insert?_eq_none {table : Table key} {row : ρ} (h : table.insert? row = none) :
    (table.get? (key row)).isSome := by
  unfold insert? at h
  split at h
  · rename_i hmem
    obtain ⟨other, hother, hkey⟩ := List.mem_map.mp hmem
    exact Option.isSome_of_eq_some (get?_eq_some.mpr ⟨hother, hkey⟩)
  · cases h

/-- After a successful insertion the new key finds the new row, and every other key what it found
before. -/
theorem get?_of_insert? {table next : Table key} {row : ρ} (h : table.insert? row = some next)
    (k : κ) : next.get? k = if k = key row then some row else table.get? k := by
  by_cases hk : k = key row
  · rw [if_pos hk, hk]
    exact get?_of_mem (by simp [rows_of_insert? h])
  · have hne : ¬ key row = k := fun h => hk h.symm
    rw [if_neg hk]
    simp [get?, rows_of_insert? h, List.find?_append, hne]

/-- After a rewrite the key finds the rewritten row, and every other key what it found before. -/
theorem get?_modify (table : Table key) (k : κ) (f : ρ → ρ) (hf : ∀ row, key (f row) = key row)
    (other : κ) :
    (table.modify k f hf).get? other =
      if other = k then (table.get? k).map f else table.get? other := by
  have hkey : ∀ row, key (if key row = k then f row else row) = key row := by
    intro row
    by_cases h : key row = k <;> simp [h, hf]
  have hfind : (table.modify k f hf).get? other =
      (table.get? other).map (fun row => if key row = k then f row else row) := by
    simp only [get?, modify, List.find?_map, Function.comp_def, hkey]
  rw [hfind]
  by_cases h : other = k
  · subst other
    rw [if_pos rfl]
    cases hget : table.get? k with
    | none => rfl
    | some row => simp [key_of_get? hget]
  · rw [if_neg h]
    cases hget : table.get? other with
    | none => rfl
    | some row => simp [key_of_get? hget, h]

/-- What is found after a deletion was found before it. -/
theorem get?_of_remove {table : Table key} {condition : ρ → Bool} {k : κ} {row : ρ}
    (h : (table.remove condition).get? k = some row) : table.get? k = some row := by
  obtain ⟨hmem, hkey⟩ := get?_eq_some.mp h
  exact get?_eq_some.mpr ⟨List.mem_of_mem_filter hmem, hkey⟩

/-- A row that is not to be deleted is found after a deletion. -/
theorem get?_remove_of_not {table : Table key} {condition : ρ → Bool} {k : κ} {row : ρ}
    (h : table.get? k = some row) (hnot : condition row = false) :
    (table.remove condition).get? k = some row := by
  obtain ⟨hmem, hkey⟩ := get?_eq_some.mp h
  exact get?_eq_some.mpr ⟨List.mem_filter.mpr ⟨hmem, by simp [hnot]⟩, hkey⟩

/-- A deletion leaves what a lookup found unless it is to be deleted. -/
theorem get?_remove (table : Table key) (condition : ρ → Bool) (k : κ) :
    (table.remove condition).get? k = (table.get? k).filter (fun row => !condition row) := by
  cases hrow : table.get? k with
  | none =>
      refine get?_eq_none.mpr (fun row hmem => ?_)
      exact get?_eq_none.mp hrow row (List.mem_of_mem_filter hmem)
  | some row =>
      cases hcondition : condition row with
      | false =>
          rw [get?_remove_of_not hrow hcondition, Option.filter_some, hcondition]
          rfl
      | true =>
          rw [Option.filter_some, hcondition]
          refine get?_eq_none.mpr (fun other hmem hkey => ?_)
          obtain ⟨hother, hkept⟩ := List.mem_filter.mp hmem
          obtain rfl := Option.some.inj (hrow.symm.trans (get?_eq_some.mpr ⟨hother, hkey⟩))
          simp [hcondition] at hkept

/-- A deletion by the key is an update to nothing. -/
theorem get?_remove_key (table : Table key) (k : κ) :
    (fun other => (table.remove (fun row => key row = k)).get? other) =
      Function.update (fun other => table.get? other) k none := by
  funext other
  rw [get?_remove]
  by_cases hother : other = k
  · subst other
    rw [Function.update_self]
    refine Option.filter_eq_none_iff.mpr (fun row hrow => ?_)
    simp [key_of_get? hrow]
  · rw [Function.update_of_ne hother]
    cases hrow : table.get? other with
    | none => rfl
    | some row => simp [key_of_get? hrow, hother]

/-- A rewrite replaces a row that is there. -/
theorem get?_modify_key (table : Table key) {k : κ} (f : ρ → ρ)
    (hf : ∀ row, key (f row) = key row) {row : ρ} (hrow : table.get? k = some row) :
    (fun other => (table.modify k f hf).get? other) =
      Function.update (fun other => table.get? other) k (some (f row)) := by
  funext other
  rw [get?_modify]
  by_cases hother : other = k
  · rw [if_pos hother, hrow, hother, Function.update_self]
    rfl
  · rw [if_neg hother, Function.update_of_ne hother]

/-- A rewrite of a row that is not there does nothing. -/
theorem get?_modify_of_none (table : Table key) {k : κ} (f : ρ → ρ)
    (hf : ∀ row, key (f row) = key row) (hrow : table.get? k = none) :
    (fun other => (table.modify k f hf).get? other) = fun other => table.get? other := by
  funext other
  rw [get?_modify]
  split
  · rename_i hother
    rw [hother, hrow]
    rfl
  · rfl

/-- A deletion by the key of a row that is not there does nothing. -/
theorem get?_remove_of_none (table : Table key) {k : κ} (hrow : table.get? k = none) :
    (fun other => (table.remove (fun row => key row = k)).get? other) =
      fun other => table.get? other := by
  rw [get?_remove_key, Function.update_eq_self_iff]
  exact hrow.symm

/-- An insertion loses no key. -/
theorem isSome_of_insert? {table next : Table key} {row : ρ} (h : table.insert? row = some next)
    {k : κ} (hk : (table.get? k).isSome) : (next.get? k).isSome := by
  rw [get?_of_insert? h]
  split
  · rfl
  · exact hk

/-- A rewrite loses no key and adds none. -/
theorem isSome_modify (table : Table key) (k : κ) (f : ρ → ρ)
    (hf : ∀ row, key (f row) = key row) (other : κ) :
    ((table.modify k f hf).get? other).isSome = (table.get? other).isSome := by
  rw [get?_modify]
  split
  · rename_i h
    rw [h, Option.isSome_map]
  · rfl

end Table

/-- A table whose rows are numbered by a counter that no row has reached. -/
structure AutoTable (key : ρ → Nat) extends Table key where
  next : Nat
  fresh : ∀ row ∈ rows, key row < next

namespace AutoTable

variable {key : ρ → Nat}

/-- The table without rows; numbering starts at 1. -/
def empty : AutoTable key := ⟨Table.empty, 1, by simp [Table.empty]⟩

/-- Append the row made from the next number. -/
def push (table : AutoTable key) (make : Nat → ρ) (hmake : ∀ n, key (make n) = n) :
    AutoTable key where
  rows := table.rows ++ [make table.next]
  nodup := by
    rw [List.map_append, List.nodup_append]
    refine ⟨table.nodup, by simp, ?_⟩
    intro a ha b hb heq
    obtain ⟨row, hrow, rfl⟩ := List.mem_map.mp ha
    simp only [List.map_cons, List.map_nil, List.mem_singleton, hmake] at hb
    have := table.fresh row hrow
    omega
  next := table.next + 1
  fresh := by
    intro row hrow
    rcases List.mem_append.mp hrow with h | h
    · exact Nat.lt_succ_of_lt (table.fresh row h)
    · simp [List.mem_singleton.mp h, hmake]

/-- Rewrite the row with this number, if there is one, by a function that keeps numbers. -/
def modify (table : AutoTable key) (k : Nat) (f : ρ → ρ) (hf : ∀ row, key (f row) = key row) :
    AutoTable key where
  toTable := table.toTable.modify k f hf
  next := table.next
  fresh := by
    intro row hrow
    obtain ⟨old, hold, rfl⟩ := List.mem_map.mp hrow
    by_cases h : key old = k <;> simpa [h, hf] using table.fresh old hold

/-- Delete the rows that meet a condition; their numbers are not used again. -/
def remove (table : AutoTable key) (condition : ρ → Bool) : AutoTable key where
  toTable := table.toTable.remove condition
  next := table.next
  fresh := fun row hrow => table.fresh row (List.mem_of_mem_filter hrow)

@[simp] theorem rows_push (table : AutoTable key) (make : Nat → ρ)
    (hmake : ∀ n, key (make n) = n) :
    (table.push make hmake).rows = table.rows ++ [make table.next] := rfl

/-- After a push the new number finds the new row, and every other number what it found before. -/
theorem get?_push (table : AutoTable key) (make : Nat → ρ) (hmake : ∀ n, key (make n) = n)
    (k : Nat) :
    (table.push make hmake).get? k =
      if k = table.next then some (make table.next) else table.get? k := by
  by_cases hk : k = table.next
  · rw [if_pos hk, hk, Table.get?_eq_some]
    exact ⟨by simp, hmake _⟩
  · have hne : ¬ table.next = k := fun h => hk h.symm
    rw [if_neg hk]
    simp [Table.get?, List.find?_append, hmake, hne]

/-- A row's number is below the next one. -/
theorem lt_next_of_get? {table : AutoTable key} {k : Nat} {row : ρ}
    (h : table.get? k = some row) : k < table.next := by
  obtain ⟨hmem, rfl⟩ := Table.get?_eq_some.mp h
  exact table.fresh row hmem

/-- Rows were only added under new numbers or deleted: a number given out before finds what it
found before, or nothing. -/
structure Extends (next table : AutoTable key) : Prop where
  next_le : table.next ≤ next.next
  get?_of_lt : ∀ {k : Nat} {row : ρ}, k < table.next → next.get? k = some row →
    table.get? k = some row

theorem Extends.refl (table : AutoTable key) : Extends table table := ⟨Nat.le_refl _, fun _ h => h⟩

theorem extends_push (table : AutoTable key) (make : Nat → ρ) (hmake : ∀ n, key (make n) = n) :
    Extends (table.push make hmake) table where
  next_le := Nat.le_succ table.next
  get?_of_lt := fun hk h => by rwa [get?_push, if_neg (Nat.ne_of_lt hk)] at h

theorem extends_remove (table : AutoTable key) (condition : ρ → Bool) :
    Extends (table.remove condition) table where
  next_le := Nat.le_refl _
  get?_of_lt := fun _ h => Table.get?_of_remove h

end AutoTable

end Library
