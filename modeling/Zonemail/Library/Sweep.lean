import Mathlib.Data.List.Nodup
import Mathlib.Data.List.TakeWhile
import Mathlib.Logic.Function.Basic

/-!
# Sweeps over a row of cells

Some threads sweep over a row of cells, writing every cell in the order of the row, one at a time;
the others write one cell each. A thread's write is any function of the value it finds. The writes
of several threads interleave.

As long as no sweep catches up with another one, a finished interleaving has done to every cell what
the threads do one after the other, in an order that is the same for all cells. `Ordered` is the
invariant: of any two threads in the order, what the first one has still to write, the second one
has not written yet. A sweep enters the order at its end, and a single write right before the first
sweep that has still to come by its cell.
-/

namespace Library

/-- The threads over a row of cells, what they write, and the cells of each. -/
structure Sweeps (Thread Cell Value : Type) where
  sweep : List Cell
  nodup : sweep.Nodup
  plan : Thread → List Cell
  planned : ∀ thread, plan thread = sweep ∨ ∃ cell, plan thread = [cell]
  write : Thread → Cell → Value → Value

/-- The cells that each thread has still to write, and the values of the cells. -/
structure Board (Thread Cell Value : Type) where
  left : Thread → List Cell
  cells : Cell → Value

namespace Sweeps

variable {Thread Cell Value : Type}

/-- The cells of a thread are different ones. -/
theorem nodup_plan (sweeps : Sweeps Thread Cell Value) (thread : Thread) :
    (sweeps.plan thread).Nodup := by
  rcases sweeps.planned thread with h | ⟨cell, h⟩
  · rw [h]
    exact sweeps.nodup
  · rw [h]
    exact List.pairwise_singleton _ cell

/-- Where the thread sweeps, its next write does not bring it level with another sweep. -/
def NeverCatchesUp (sweeps : Sweeps Thread Cell Value) (board : Board Thread Cell Value)
    (thread : Thread) : Prop :=
  sweeps.plan thread = sweeps.sweep → ∀ other, other ≠ thread →
    sweeps.plan other = sweeps.sweep → board.left other ≠ [] →
    board.left other ≠ (board.left thread).tail

/-- Has the thread written the cell? -/
def Wrote (sweeps : Sweeps Thread Cell Value) (board : Board Thread Cell Value) (cell : Cell)
    (thread : Thread) : Prop :=
  cell ∈ sweeps.plan thread ∧ cell ∉ board.left thread

/-- A thread that has not begun has written nothing. -/
theorem not_wrote_of_plan {sweeps : Sweeps Thread Cell Value}
    {board : Board Thread Cell Value} {thread : Thread}
    (hplan : board.left thread = sweeps.plan thread)
    (written : Cell) : ¬ sweeps.Wrote board written thread := by
  rw [Wrote, hplan]
  simp

variable [DecidableEq Cell]

instance (sweeps : Sweeps Thread Cell Value) (board : Board Thread Cell Value) (cell : Cell)
    (thread : Thread) : Decidable (sweeps.Wrote board cell thread) :=
  inferInstanceAs (Decidable (_ ∧ _))

/-- What the threads that have written the cell do to it, one after the other. -/
def inOrder (sweeps : Sweeps Thread Cell Value) (board : Board Thread Cell Value) (cell : Cell)
    (order : List Thread) (value : Value) : Value :=
  (order.filter (sweeps.Wrote board cell)).foldl
    (fun value thread => sweeps.write thread cell value) value

/-- What the first thread has still to write the second one has not written, and of two sweeps the
first one is strictly ahead. -/
structure Before (sweeps : Sweeps Thread Cell Value) (board : Board Thread Cell Value)
    (first second : Thread) : Prop where
  cells : ∀ cell ∈ board.left first, ¬ sweeps.Wrote board cell second
  ahead : sweeps.plan first = sweeps.sweep → sweeps.plan second = sweeps.sweep →
    board.left first ≠ [] → (board.left first).length < (board.left second).length

/-- The threads that have begun, in an order in which they may have written the cells one after the
other. -/
structure Ordered (sweeps : Sweeps Thread Cell Value) (initial : Cell → Value)
    (board : Board Thread Cell Value) (order : List Thread) : Prop where
  nodup : order.Nodup
  suffix : ∀ thread, board.left thread <:+ sweeps.plan thread
  begun : ∀ thread, thread ∈ order ↔ board.left thread ≠ sweeps.plan thread
  values : ∀ cell, board.cells cell = sweeps.inOrder board cell order (initial cell)
  pairwise : order.Pairwise (sweeps.Before board)

variable {sweeps : Sweeps Thread Cell Value} {initial : Cell → Value}
  {board : Board Thread Cell Value} {order : List Thread} {thread other : Thread} {cell : Cell}
  {rest : List Cell}

theorem ordered_start (sweeps : Sweeps Thread Cell Value) (initial : Cell → Value) :
    sweeps.Ordered initial ⟨sweeps.plan, initial⟩ [] :=
  ⟨List.nodup_nil, fun _ => List.suffix_refl _, fun _ => by simp, fun _ => rfl, .nil⟩

/-- A thread that has begun and has something left sweeps. -/
theorem Ordered.sweep_of_mem (h : sweeps.Ordered initial board order) (hmem : thread ∈ order)
    (hleft : board.left thread ≠ []) : sweeps.plan thread = sweeps.sweep := by
  rcases sweeps.planned thread with hplan | ⟨cell, hplan⟩
  · exact hplan
  · have hbegun := (h.begun thread).mp hmem
    have hsuffix := h.suffix thread
    rw [hplan] at hbegun hsuffix
    rcases List.suffix_cons_iff.mp hsuffix with heq | hnil
    · exact absurd heq hbegun
    · exact absurd (List.suffix_nil.mp hnil) hleft

/-- A thread outside the order has everything left. -/
theorem Ordered.plan_of_not_mem (h : sweeps.Ordered initial board order) (hnew : thread ∉ order) :
    board.left thread = sweeps.plan thread := by
  by_contra hne
  exact hnew ((h.begun thread).mpr hne)

/-- The order has a place for a cell: those in front of it have passed the cell, and those behind it
have not written it. -/
theorem Ordered.exists_place (h : sweeps.Ordered initial board order) (cell : Cell) :
    ∃ front back, order = front ++ back ∧ (∀ other ∈ front, cell ∉ board.left other) ∧
      ∀ other ∈ back, ¬ sweeps.Wrote board cell other := by
  let reached : Thread → Bool := fun other => cell ∉ board.left other
  refine ⟨order.takeWhile reached, order.dropWhile reached,
    List.takeWhile_append_dropWhile.symm, fun other hother => ?_, ?_⟩
  · simpa [reached] using List.mem_takeWhile_imp hother
  · have hpairwise := h.pairwise.sublist (List.dropWhile_sublist reached)
    cases hback : order.dropWhile reached with
    | nil => nofun
    | cons first behind =>
        -- The first one behind has still to come by, and so have those after it.
        have hhead := List.head?_dropWhile_not reached order
        rw [hback] at hhead hpairwise
        have hfirst : cell ∈ board.left first := by simpa [reached] using hhead
        intro other hother
        rcases List.mem_cons.mp hother with rfl | hlater
        · exact fun hwrote => hwrote.2 hfirst
        · exact ((List.pairwise_cons.mp hpairwise).1 other hlater).cells cell hfirst

/-- What is written is what the threads that wrote the cell make of it. -/
theorem inOrder_congr {value : Value} {next : Board Thread Cell Value}
    (h : ∀ other ∈ order, sweeps.Wrote next cell other ↔ sweeps.Wrote board cell other) :
    sweeps.inOrder next cell order value = sweeps.inOrder board cell order value := by
  have hfilter : order.filter (sweeps.Wrote next cell) = order.filter (sweeps.Wrote board cell) :=
    List.filter_congr (fun other hother => by simp [h other hother])
  rw [inOrder, inOrder, hfilter]

/-- A thread that has not written the cell makes no difference to it. -/
theorem inOrder_skip {front back : List Thread} {value : Value}
    (h : ¬ sweeps.Wrote board cell thread) :
    sweeps.inOrder board cell (front ++ thread :: back) value =
      sweeps.inOrder board cell (front ++ back) value := by
  rw [inOrder, inOrder, List.filter_append, List.filter_append,
    List.filter_cons_of_neg (by simpa using h)]

/-- Threads that have not written the cell make no difference to it. -/
theorem inOrder_front {front back : List Thread} {value : Value}
    (h : ∀ other ∈ back, ¬ sweeps.Wrote board cell other) :
    sweeps.inOrder board cell (front ++ back) value = sweeps.inOrder board cell front value := by
  have hnone : back.filter (sweeps.Wrote board cell) = [] :=
    List.filter_eq_nil_iff.mpr (fun other hother => by simpa using h other hother)
  rw [inOrder, inOrder, List.filter_append, hnone, List.append_nil]

/-- What has been written by others before the thread, with its own write put behind them. -/
theorem inOrder_split {front back : List Thread} {value : Value} {next : Board Thread Cell Value}
    (hfront : ∀ other ∈ front, sweeps.Wrote next cell other ↔ sweeps.Wrote board cell other)
    (hback : ∀ other ∈ back, ¬ sweeps.Wrote next cell other)
    (hself : sweeps.Wrote next cell thread) :
    sweeps.inOrder next cell (front ++ thread :: back) value =
      sweeps.write thread cell (sweeps.inOrder board cell front value) := by
  have hfilter : front.filter (sweeps.Wrote next cell) = front.filter (sweeps.Wrote board cell) :=
    List.filter_congr (fun other hother => by simp [hfront other hother])
  have hnone : back.filter (sweeps.Wrote next cell) = [] :=
    List.filter_eq_nil_iff.mpr (fun other hother => by simpa using hback other hother)
  rw [inOrder, List.filter_append, List.filter_cons_of_pos (by simpa using hself), hnone, hfilter,
    List.foldl_append]
  rfl

/-- A sweep that was ahead of the thread stays strictly ahead. -/
theorem NeverCatchesUp.length_lt (hapart : sweeps.NeverCatchesUp board thread)
    (h : sweeps.Ordered initial board order) (hsweep : sweeps.plan thread = sweeps.sweep)
    (hleft : board.left thread = cell :: rest) {first : Thread} (hfirst : first ∈ order)
    (hne : first ≠ thread) (hsome : board.left first ≠ [])
    (hlt : (board.left first).length < (board.left thread).length) :
    (board.left first).length < rest.length := by
  have hother : sweeps.plan first = sweeps.sweep := h.sweep_of_mem hfirst hsome
  have hapart := hapart hsweep first hne hother hsome
  rw [hleft, List.tail_cons] at hapart
  have hrest : rest <:+ sweeps.sweep :=
    (List.suffix_cons cell rest).trans (hleft ▸ hsweep ▸ h.suffix thread)
  have hne : (board.left first).length ≠ rest.length := by
    intro heq
    have hsuffix := List.suffix_of_suffix_length_le (hother ▸ h.suffix first) hrest (by omega)
    exact hapart (hsuffix.eq_of_length heq)
  rw [hleft, List.length_cons] at hlt
  omega

/-! ## When every thread has ended -/

/-- What the threads do to a cell one after the other, each with all of its writes. -/
def serially (sweeps : Sweeps Thread Cell Value) (cell : Cell) (order : List Thread)
    (value : Value) : Value :=
  order.foldl (fun value thread =>
    if cell ∈ sweeps.plan thread then sweeps.write thread cell value else value) value

/-- When every thread has ended, every one that had something to write is in the order, and the
cells have the values that the threads give them one after the other. -/
theorem Ordered.finished (h : sweeps.Ordered initial board order)
    (hdone : ∀ thread, board.left thread = []) :
    (∀ thread, sweeps.plan thread ≠ [] → thread ∈ order) ∧
      ∀ cell, board.cells cell = sweeps.serially cell order (initial cell) := by
  refine ⟨fun thread hplan => ?_, fun cell => ?_⟩
  · rw [h.begun, hdone]
    exact Ne.symm hplan
  · have hwrote : ∀ thread, sweeps.Wrote board cell thread ↔ cell ∈ sweeps.plan thread := by
      intro thread
      rw [Wrote, hdone]
      simp
    rw [h.values, inOrder, serially, List.foldl_filter]
    simp only [hwrote, decide_eq_true_eq]

/-! ## One write -/

variable [DecidableEq Thread]

/-- The thread writes the next one of its cells. -/
def advance (sweeps : Sweeps Thread Cell Value) (board : Board Thread Cell Value)
    (thread : Thread) : Board Thread Cell Value :=
  match board.left thread with
  | [] => board
  | cell :: rest =>
      { left := Function.update board.left thread rest
        cells := Function.update board.cells cell
          (sweeps.write thread cell (board.cells cell)) }

theorem left_advance (h : board.left thread = cell :: rest) :
    (sweeps.advance board thread).left = Function.update board.left thread rest := by
  simp only [advance, h]

theorem cells_advance (h : board.left thread = cell :: rest) :
    (sweeps.advance board thread).cells =
      Function.update board.cells cell (sweeps.write thread cell (board.cells cell)) := by
  simp only [advance, h]

/-- Another thread has written what it had written. -/
theorem wrote_advance_of_ne (h : board.left thread = cell :: rest) (hne : other ≠ thread)
    (written : Cell) :
    sweeps.Wrote (sweeps.advance board thread) written other ↔
      sweeps.Wrote board written other := by
  rw [Wrote, Wrote, left_advance h, Function.update_of_ne hne]

/-- The thread has written one more cell. -/
theorem wrote_advance_self (h : board.left thread = cell :: rest)
    (hsuffix : board.left thread <:+ sweeps.plan thread) (written : Cell) :
    sweeps.Wrote (sweeps.advance board thread) written thread ↔
      sweeps.Wrote board written thread ∨ written = cell := by
  have hmem : cell ∈ sweeps.plan thread := hsuffix.subset (by rw [h]; exact List.mem_cons_self)
  have hrest : cell ∉ rest := by
    have hleft := (sweeps.nodup_plan thread).sublist hsuffix.sublist
    rw [h] at hleft
    exact (List.nodup_cons.mp hleft).1
  rw [Wrote, Wrote, left_advance h, Function.update_self, h, List.mem_cons]
  by_cases heq : written = cell
  · subst heq
    simp [hmem, hrest]
  · simp [heq]

/-- A thread that stays strictly ahead of a sweep stays before it. -/
theorem Before.advance_second (h : sweeps.Ordered initial board order)
    (hsweep : sweeps.plan thread = sweeps.sweep) (hleft : board.left thread = cell :: rest)
    {first : Thread} (hfirst : first ∈ order) (hne : first ≠ thread)
    (hcells : ∀ written ∈ board.left first, ¬ sweeps.Wrote board written thread)
    (hlt : board.left first ≠ [] → (board.left first).length < rest.length) :
    sweeps.Before (sweeps.advance board thread) first thread := by
  have hsame : (sweeps.advance board thread).left first = board.left first := by
    rw [left_advance hleft, Function.update_of_ne hne]
  have hself : (sweeps.advance board thread).left thread = rest := by
    rw [left_advance hleft, Function.update_self]
  refine ⟨fun written hwritten hwrote => ?_, fun _ _ hsome => ?_⟩
  · rw [hsame] at hwritten
    have hsome : board.left first ≠ [] := List.ne_nil_of_mem hwritten
    rcases (wrote_advance_self hleft (h.suffix thread) written).mp hwrote with hold | rfl
    · exact hcells written hwritten hold
    · -- What is left to the first thread is a part of what is left to the sweep.
      have hother : sweeps.plan first = sweeps.sweep := h.sweep_of_mem hfirst hsome
      have hrest : rest <:+ sweeps.sweep :=
        (List.suffix_cons written rest).trans (hleft ▸ hsweep ▸ h.suffix thread)
      have hsuffix := List.suffix_of_suffix_length_le (hother ▸ h.suffix first) hrest
        (Nat.le_of_lt (hlt hsome))
      have hnodup := (sweeps.nodup_plan thread).sublist (h.suffix thread).sublist
      rw [hleft] at hnodup
      exact (List.nodup_cons.mp hnodup).1 (hsuffix.subset hwritten)
  · rw [hsame] at hsome ⊢
    rw [hself]
    exact hlt hsome

/-- A thread that goes on stays before the others. -/
theorem Before.advance_first (h : sweeps.Before board thread other)
    (hleft : board.left thread = cell :: rest) (hne : other ≠ thread) :
    sweeps.Before (sweeps.advance board thread) thread other := by
  have hsame : (sweeps.advance board thread).left other = board.left other := by
    rw [left_advance hleft, Function.update_of_ne hne]
  have hself : (sweeps.advance board thread).left thread = rest := by
    rw [left_advance hleft, Function.update_self]
  refine ⟨fun written hwritten => ?_, fun hfirst hsecond _ => ?_⟩
  · rw [hself] at hwritten
    rw [wrote_advance_of_ne hleft hne]
    exact h.cells written (by rw [hleft]; exact List.mem_cons_of_mem _ hwritten)
  · have hlt := h.ahead hfirst hsecond (by rw [hleft]; exact List.cons_ne_nil _ _)
    rw [hleft, List.length_cons] at hlt
    rw [hself, hsame]
    omega

/-- The write of a thread is no matter between two others. -/
theorem Before.advance_other {first second : Thread} (h : sweeps.Before board first second)
    (hleft : board.left thread = cell :: rest) (hfirst : first ≠ thread)
    (hsecond : second ≠ thread) :
    sweeps.Before (sweeps.advance board thread) first second := by
  refine ⟨fun written hwritten => ?_, ?_⟩
  · rw [left_advance hleft, Function.update_of_ne hfirst] at hwritten
    rw [wrote_advance_of_ne hleft hsecond]
    exact h.cells written hwritten
  · rw [left_advance hleft, Function.update_of_ne hfirst, Function.update_of_ne hsecond]
    exact h.ahead

theorem Ordered.suffix_advance (h : sweeps.Ordered initial board order)
    (hleft : board.left thread = cell :: rest) (other : Thread) :
    (sweeps.advance board thread).left other <:+ sweeps.plan other := by
  rw [left_advance hleft]
  by_cases heq : other = thread
  · subst heq
    rw [Function.update_self]
    exact (List.suffix_cons cell rest).trans (hleft ▸ h.suffix other)
  · rw [Function.update_of_ne heq]
    exact h.suffix other

/-- The thread has begun, and so have those that had begun. -/
theorem Ordered.begun_advance (h : sweeps.Ordered initial board order)
    (hleft : board.left thread = cell :: rest) (other : Thread) :
    (sweeps.advance board thread).left other ≠ sweeps.plan other ↔
      other = thread ∨ other ∈ order := by
  rw [left_advance hleft]
  by_cases heq : other = thread
  · subst heq
    have hlength := (h.suffix other).length_le
    rw [hleft, List.length_cons] at hlength
    have hne : rest ≠ sweeps.plan other := by
      intro hplan
      rw [← hplan] at hlength
      omega
    simpa using hne
  · rw [Function.update_of_ne heq, ← h.begun]
    simp [heq]

/-- A write in its place in the order: those behind the thread have not written the cell. -/
theorem Ordered.values_advance (h : sweeps.Ordered initial board order)
    (hleft : board.left thread = cell :: rest) {front back : List Thread}
    (hfront : thread ∉ front) (hback : thread ∉ back)
    (hbehind : ∀ other ∈ back, ¬ sweeps.Wrote board cell other)
    (hvalues : ∀ written, board.cells written =
      sweeps.inOrder board written (front ++ thread :: back) (initial written)) (written : Cell) :
    (sweeps.advance board thread).cells written =
      sweeps.inOrder (sweeps.advance board thread) written (front ++ thread :: back)
        (initial written) := by
  have hself := wrote_advance_self hleft (h.suffix thread)
  have hother : ∀ other, other ≠ thread → ∀ written,
      (sweeps.Wrote (sweeps.advance board thread) written other ↔
        sweeps.Wrote board written other) :=
    fun other hne written => wrote_advance_of_ne hleft hne written
  rw [cells_advance hleft]
  by_cases heq : written = cell
  · subst heq
    have hunwritten : ¬ sweeps.Wrote board written thread := by
      rw [Wrote, hleft]
      simp
    rw [Function.update_self, hvalues, inOrder_skip hunwritten, inOrder_front hbehind,
      inOrder_split]
    · exact fun other hmem => hother other (ne_of_mem_of_not_mem hmem hfront) written
    · intro other hmem
      rw [hother other (ne_of_mem_of_not_mem hmem hback)]
      exact hbehind other hmem
    · exact (hself written).mpr (.inr rfl)
  · rw [Function.update_of_ne heq, hvalues]
    refine (inOrder_congr (fun other _ => ?_)).symm
    by_cases hthread : other = thread
    · subst hthread
      rw [hself]
      simp [heq]
    · exact hother other hthread written

/-- A sweep that is in the order goes on. -/
theorem Ordered.advance_mem (h : sweeps.Ordered initial board order) (hmem : thread ∈ order)
    (hleft : board.left thread = cell :: rest) (hapart : sweeps.NeverCatchesUp board thread) :
    sweeps.Ordered initial (sweeps.advance board thread) order := by
  have hsome : board.left thread ≠ [] := by
    rw [hleft]
    exact List.cons_ne_nil _ _
  have hsweep : sweeps.plan thread = sweeps.sweep := h.sweep_of_mem hmem hsome
  refine ⟨h.nodup, h.suffix_advance hleft, fun other => ?_, ?_, ?_⟩
  · rw [h.begun_advance hleft]
    exact ⟨.inr, fun hbegun => hbegun.elim (fun heq => heq ▸ hmem) id⟩
  · obtain ⟨front, back, rfl⟩ := List.append_of_mem hmem
    have hnodup := List.nodup_append.mp h.nodup
    have hpairwise := (List.pairwise_append.mp h.pairwise).2.1
    refine h.values_advance hleft ?_ (List.nodup_cons.mp hnodup.2.1).1 (fun other hother => ?_)
      h.values
    · exact fun hfront => hnodup.2.2 thread hfront thread List.mem_cons_self rfl
    · exact ((List.pairwise_cons.mp hpairwise).1 other hother).cells cell
        (by rw [hleft]; exact List.mem_cons_self)
  · refine (h.pairwise.and h.nodup).imp_of_mem ?_
    intro first second hfirst hsecond h
    obtain ⟨hbefore, hne⟩ := h
    by_cases hf : first = thread
    · subst hf
      exact hbefore.advance_first hleft (Ne.symm hne)
    · by_cases hs : second = thread
      · subst hs
        refine Before.advance_second h hsweep hleft hfirst hf hbefore.cells (fun hsome => ?_)
        exact hapart.length_lt h hsweep hleft hfirst hf hsome
          (hbefore.ahead (h.sweep_of_mem hfirst hsome) hsweep hsome)
      · exact hbefore.advance_other hleft hf hs

/-- A sweep that begins enters the order at its end. -/
theorem Ordered.advance_sweep (h : sweeps.Ordered initial board order) (hnew : thread ∉ order)
    (hsweep : sweeps.plan thread = sweeps.sweep) (hleft : board.left thread = cell :: rest)
    (hapart : sweeps.NeverCatchesUp board thread) :
    sweeps.Ordered initial (sweeps.advance board thread) (order ++ [thread]) := by
  have hplan := h.plan_of_not_mem hnew
  refine ⟨?_, h.suffix_advance hleft, fun other => ?_, ?_, ?_⟩
  · rw [List.nodup_append_comm, List.singleton_append]
    exact List.nodup_cons.mpr ⟨hnew, h.nodup⟩
  · rw [h.begun_advance hleft, List.mem_append, List.mem_singleton, or_comm]
  · refine h.values_advance hleft hnew List.not_mem_nil nofun (fun written => ?_)
    rw [inOrder_skip (not_wrote_of_plan hplan written), List.append_nil]
    exact h.values written
  · refine List.pairwise_append.mpr ⟨?_, List.pairwise_singleton _ _, ?_⟩
    · refine h.pairwise.imp_of_mem (fun hfirst hsecond hbefore => ?_)
      exact hbefore.advance_other hleft (ne_of_mem_of_not_mem hfirst hnew)
        (ne_of_mem_of_not_mem hsecond hnew)
    · intro first hfirst second hsecond
      rw [List.mem_singleton.mp hsecond]
      have hne := ne_of_mem_of_not_mem hfirst hnew
      refine Before.advance_second h hsweep hleft hfirst hne
        (fun written _ => not_wrote_of_plan hplan written) (fun hsome => ?_)
      refine hapart.length_lt h hsweep hleft hfirst hne hsome ?_
      -- A sweep that has begun has less left than one that has not.
      have hsuffix := h.suffix first
      have hbegun := (h.begun first).mp hfirst
      rw [hplan, hsweep, ← h.sweep_of_mem hfirst hsome]
      exact Nat.lt_of_le_of_ne hsuffix.length_le (fun heq => hbegun (hsuffix.eq_of_length heq))

/-- A single write enters the order right before the first sweep that has still to come by. -/
theorem Ordered.advance_single (h : sweeps.Ordered initial board order) (hnew : thread ∉ order)
    (hsingle : sweeps.plan thread ≠ sweeps.sweep) (hleft : board.left thread = cell :: rest) :
    ∃ after, sweeps.Ordered initial (sweeps.advance board thread) after := by
  have hplan := h.plan_of_not_mem hnew
  have hrest : rest = [] ∧ sweeps.plan thread = [cell] := by
    rcases sweeps.planned thread with hsweep | ⟨only, honly⟩
    · exact absurd hsweep hsingle
    · rw [hleft, honly, List.cons.injEq] at hplan
      exact ⟨hplan.2, by rw [honly, hplan.1]⟩
  obtain ⟨rfl, hcell⟩ := hrest
  obtain ⟨front, back, horder, hfront, hbehind⟩ := h.exists_place cell
  subst horder
  have hpairwise := List.pairwise_append.mp h.pairwise
  have hnewfront : thread ∉ front := fun hmem => hnew (List.mem_append_left _ hmem)
  have hnewback : thread ∉ back := fun hmem => hnew (List.mem_append_right _ hmem)
  refine ⟨front ++ thread :: back, ?_, h.suffix_advance hleft, fun other => ?_, ?_, ?_⟩
  · exact List.nodup_middle.mpr (List.nodup_cons.mpr ⟨hnew, h.nodup⟩)
  · rw [h.begun_advance hleft]
    simp only [List.mem_append, List.mem_cons]
    exact or_left_comm
  · refine h.values_advance hleft hnewfront hnewback hbehind (fun written => ?_)
    rw [inOrder_skip (not_wrote_of_plan hplan written)]
    exact h.values written
  · have hself : (sweeps.advance board thread).left thread = [] := by
      rw [left_advance hleft, Function.update_self]
    have hother : ∀ {first second}, first ∈ front ++ back → second ∈ front ++ back →
        sweeps.Before board first second →
        sweeps.Before (sweeps.advance board thread) first second :=
      fun hfirst hsecond hbefore => hbefore.advance_other hleft (ne_of_mem_of_not_mem hfirst hnew)
        (ne_of_mem_of_not_mem hsecond hnew)
    refine List.pairwise_append.mpr ⟨?_, List.pairwise_cons.mpr ⟨fun second _ => ?_, ?_⟩, ?_⟩
    · exact hpairwise.1.imp_of_mem (fun hfirst hsecond =>
        hother (List.mem_append_left _ hfirst) (List.mem_append_left _ hsecond))
    · refine ⟨fun written hwritten => ?_, fun hsweep => absurd hsweep hsingle⟩
      rw [hself] at hwritten
      cases hwritten
    · exact hpairwise.2.1.imp_of_mem (fun hfirst hsecond =>
        hother (List.mem_append_right _ hfirst) (List.mem_append_right _ hsecond))
    · intro first hfirst second hsecond
      rcases List.mem_cons.mp hsecond with rfl | hsecond
      · refine ⟨fun written hwritten hwrote => ?_, fun _ hsweep => absurd hsweep hsingle⟩
        rw [left_advance hleft, Function.update_of_ne (ne_of_mem_of_not_mem hfirst hnewfront)]
          at hwritten
        rcases (wrote_advance_self hleft (h.suffix second) written).mp hwrote with hold | rfl
        · exact not_wrote_of_plan hplan written hold
        · exact hfront first hfirst hwritten
      · exact hother (List.mem_append_left _ hfirst) (List.mem_append_right _ hsecond)
          (hpairwise.2.2 first hfirst second hsecond)

/-- A write of a thread that does not catch up with a sweep keeps the threads in some order. -/
theorem Ordered.advance (h : sweeps.Ordered initial board order)
    (hleft : board.left thread = cell :: rest) (hapart : sweeps.NeverCatchesUp board thread) :
    ∃ after, sweeps.Ordered initial (sweeps.advance board thread) after := by
  by_cases hmem : thread ∈ order
  · exact ⟨order, h.advance_mem hmem hleft hapart⟩
  · by_cases hsweep : sweeps.plan thread = sweeps.sweep
    · exact ⟨order ++ [thread], h.advance_sweep hmem hsweep hleft hapart⟩
    · exact h.advance_single hmem hsweep hleft

end Sweeps

end Library
