import Mathlib.Data.Fintype.Basic
import Zonemail.Library.Program

/-!
# Programs that take effect at their last step

A program is `Linear` when, however the store grows meanwhile, each of its effects either leaves the
store as it is and the program linear, or is the last one and does to the store at once what the
whole program would have done, run alone from there, with the same value. `serial` runs programs one
after the other. `linearizable_run` says that a finished interleaving of linear programs is a serial
run: the programs in the order of their last effects, after those that perform none.

The last part is about one cell of the store that some effects write. When each of these writes does
to the cell what a function of its thread does, a run does what the functions of its `writers` do
one after the other.
-/

namespace Library

variable {Effect : Type} {Answer : Effect → Type} {α σ : Type}

namespace Program

variable (execute : (effect : Effect) → σ → Answer effect × σ) (grows : σ → σ → Prop)

/-- What remains of `original` either leaves the store unchanged and is linear again after its next
effect, or ends there as `original` does when it is run alone. -/
def Linear (original : Program Effect Answer α) : Program Effect Answer α → σ → Prop
  | .done _, _ => False
  | .perform effect resume, store => ∀ later, grows store later →
      (∃ value, resume (execute effect later).1 = .done value ∧
        original.run execute later = (value, (execute effect later).2) ∧
        grows later (execute effect later).2) ∨
      (execute effect later).2 = later ∧ Linear original (resume (execute effect later).1) later

variable {execute grows} {original program : Program Effect Answer α} {store later : σ}

theorem not_linear_done {value : α} : ¬ Linear execute grows original (.done value) store := id

theorem linear_perform {effect : Effect} {resume : Answer effect → Program Effect Answer α} :
    Linear execute grows original (.perform effect resume) store ↔
      ∀ later, grows store later →
        (∃ value, resume (execute effect later).1 = .done value ∧
          original.run execute later = (value, (execute effect later).2) ∧
          grows later (execute effect later).2) ∨
        (execute effect later).2 = later ∧
          Linear execute grows original (resume (execute effect later).1) later := Iff.rfl

-- Deciding whether two of these propositions are the same would run the programs.
attribute [irreducible] Linear

/-- A linear program stays linear while the store grows. -/
theorem Linear.mono (htrans : ∀ {a b c}, grows a b → grows b c → grows a c)
    (h : Linear execute grows original program store) (hgrows : grows store later) :
    Linear execute grows original program later := by
  cases program with
  | done value => exact absurd h not_linear_done
  | perform effect resume =>
      rw [linear_perform] at h ⊢
      exact fun last hlast => h last (htrans hgrows hlast)

end Program

/-! ## One after the other -/

variable {Thread : Type}

/-- Run programs one after the other; the values are listed with their threads. -/
def serial (execute : (effect : Effect) → σ → Answer effect × σ)
    (programs : Thread → Program Effect Answer α) : List Thread → σ → List (Thread × α) × σ
  | [], store => ([], store)
  | thread :: rest, store =>
      let first := (programs thread).run execute store
      let others := serial execute programs rest first.2
      ((thread, first.1) :: others.1, others.2)

variable {execute : (effect : Effect) → σ → Answer effect × σ} {grows : σ → σ → Prop}
  {programs : Thread → Program Effect Answer α}

/-- Two groups of programs, one after the other. -/
theorem serial_append (first second : List Thread) (store : σ) :
    serial execute programs (first ++ second) store =
      ((serial execute programs first store).1 ++
          (serial execute programs second (serial execute programs first store).2).1,
        (serial execute programs second (serial execute programs first store).2).2) := by
  induction first generalizing store with
  | nil => rfl
  | cons thread rest ih =>
      rw [List.cons_append, serial, ih]
      rfl

/-- The values of a serial run are those of its threads, in order. -/
theorem map_fst_serial (order : List Thread) (store : σ) :
    (serial execute programs order store).1.map Prod.fst = order := by
  induction order generalizing store with
  | nil => rfl
  | cons thread rest ih =>
      rw [serial, List.map_cons, ih]

theorem mem_of_mem_serial {order : List Thread} {store : σ} {entry : Thread × α}
    (h : entry ∈ (serial execute programs order store).1) : entry.1 ∈ order := by
  have hmem := List.mem_map_of_mem (f := Prod.fst) h
  rwa [map_fst_serial] at hmem

/-- Programs that perform nothing leave the store as it is. -/
theorem serial_of_done {order : List Thread} {values : Thread → α}
    (h : ∀ thread ∈ order, programs thread = .done (values thread)) (store : σ) :
    serial execute programs order store =
      (order.map (fun thread => (thread, values thread)), store) := by
  induction order with
  | nil => rfl
  | cons thread rest ih =>
      obtain ⟨hthread, hrest⟩ := List.forall_mem_cons.mp h
      rw [serial, hthread, Program.run_done, ih hrest]
      rfl

/-- Every value of a serial run is that of a program run alone at some point of it, before and after
which the store only grew. -/
theorem exists_of_mem_serial (hrefl : ∀ a, grows a a)
    (htrans : ∀ {a b c}, grows a b → grows b c → grows a c)
    (hruns : ∀ thread store, grows store ((programs thread).run execute store).2)
    {order : List Thread} {store : σ} {thread : Thread} {value : α}
    (h : (thread, value) ∈ (serial execute programs order store).1) :
    ∃ before, grows store before ∧ ((programs thread).run execute before).1 = value ∧
      grows ((programs thread).run execute before).2 (serial execute programs order store).2 := by
  have hserial : ∀ order store, grows store (serial execute programs order store).2 := by
    intro order
    induction order with
    | nil => exact hrefl
    | cons thread rest ih => exact fun store => htrans (hruns thread store) (ih _)
  induction order generalizing store with
  | nil => cases h
  | cons first rest ih =>
      rcases List.mem_cons.mp h with heq | hmem
      · cases heq
        exact ⟨store, hrefl store, rfl, hserial rest _⟩
      · obtain ⟨before, hbefore, hvalue, hafter⟩ := ih hmem
        exact ⟨before, htrans (hruns first store) hbefore, hvalue, hafter⟩

/-- In a list with one element of a kind, that element stands where the kind stands. -/
theorem eq_of_append_cons_once {β : Type} {kind : β → Bool} {before after front back : List β}
    {once element : β} (h : before ++ once :: after = front ++ element :: back)
    (hbefore : ∀ other ∈ before, kind other = false) (hafter : ∀ other ∈ after, kind other = false)
    (hkind : kind element = true) : front = before ∧ element = once := by
  induction before generalizing front with
  | nil =>
      cases front with
      | nil => exact ⟨rfl, (List.cons.inj h).1.symm⟩
      | cons first front =>
          have hmem : element ∈ after := by
            rw [(List.cons.inj h).2]
            simp
          exact absurd (hafter element hmem) (by simp [hkind])
  | cons first before ih =>
      obtain ⟨hfirst, hothers⟩ := List.forall_mem_cons.mp hbefore
      cases front with
      | nil =>
          obtain ⟨rfl, -⟩ := List.cons.inj h
          exact absurd hfirst (by simp [hkind])
      | cons other front =>
          obtain ⟨rfl, htail⟩ := List.cons.inj h
          obtain ⟨rfl, helement⟩ := ih htail hothers
          exact ⟨rfl, helement⟩

/-! ## Interleavings -/

namespace Pool

variable [DecidableEq Thread]

/-- Perform an effect without any input. -/
def atomic (execute : (effect : Effect) → σ → Answer effect × σ) (effect : Effect) (_ : Unit)
    (store : σ) : Answer effect × σ := execute effect store

/-- How far a run has come: the threads in `order` have ended as in a serial run, which has the same
store, and every other thread is linear or has never had an effect to perform. -/
structure Linearized (execute : (effect : Effect) → σ → Answer effect × σ)
    (grows : σ → σ → Prop) (start : Pool Thread Effect Answer α σ) (order : List Thread)
    (pool : Pool Thread Effect Answer α σ) : Prop where
  nodup : order.Nodup
  store : (serial execute start.program order start.store).2 = pool.store
  values : ∀ entry ∈ (serial execute start.program order start.store).1,
    pool.program entry.1 = .done entry.2
  ended : ∀ thread ∈ order, ∃ value, pool.program thread = .done value
  others : ∀ thread, thread ∉ order →
    Program.Linear execute grows (start.program thread) (pool.program thread) pool.store ∨
      ∃ value, start.program thread = .done value ∧ pool.program thread = .done value

variable {start finish : Pool Thread Effect Answer α σ}
  {trace : List (Moment Thread Effect Answer σ)}

omit [DecidableEq Thread] in
/-- The step in which a thread ends: it comes last in the serial run. -/
theorem Linearized.ended_last {order : List Thread} {pool next : Pool Thread Effect Answer α σ}
    {thread : Thread} {value : α} (h : Linearized execute grows start order pool)
    (htrans : ∀ {a b c}, grows a b → grows b c → grows a c) (hnew : thread ∉ order)
    (hother : ∀ other, other ≠ thread → next.program other = pool.program other)
    (hdone : next.program thread = .done value)
    (hrun : (start.program thread).run execute pool.store = (value, next.store))
    (hgrows : grows pool.store next.store) :
    Linearized execute grows start (order ++ [thread]) next := by
  have hkept : ∀ other ∈ order, next.program other = pool.program other :=
    fun other hmem => hother other (fun heq => hnew (heq ▸ hmem))
  have hserial : serial execute start.program (order ++ [thread]) start.store =
      ((serial execute start.program order start.store).1 ++ [(thread, value)], next.store) := by
    rw [serial_append, h.store]
    simp [serial, hrun]
  refine ⟨?_, ?_, ?_, ?_, ?_⟩
  · exact List.nodup_append.mpr ⟨h.nodup, List.nodup_singleton _, fun a ha b hb heq =>
      hnew (List.mem_singleton.mp hb ▸ heq ▸ ha)⟩
  · rw [hserial]
  · rw [hserial]
    intro entry hentry
    rcases List.mem_append.mp hentry with hmem | hmem
    · rw [hkept entry.1 (mem_of_mem_serial hmem)]
      exact h.values entry hmem
    · rw [List.mem_singleton.mp hmem, hdone]
  · intro other hmem
    rcases List.mem_append.mp hmem with hmem | hmem
    · rw [hkept other hmem]
      exact h.ended other hmem
    · rw [List.mem_singleton.mp hmem]
      exact ⟨value, hdone⟩
  · intro other hmem
    simp only [List.mem_append, List.mem_singleton, not_or] at hmem
    rw [hother other hmem.2]
    rcases h.others other hmem.1 with hpending | hnothing
    · exact .inl (hpending.mono htrans hgrows)
    · exact .inr hnothing

/-- A step that changes nothing but what remains of one thread. -/
theorem Linearized.unchanged {order : List Thread} {pool next : Pool Thread Effect Answer α σ}
    {thread : Thread} (h : Linearized execute grows start order pool) (hnew : thread ∉ order)
    (hother : ∀ other, other ≠ thread → next.program other = pool.program other)
    (hstore : next.store = pool.store)
    (hlinear : Program.Linear execute grows (start.program thread) (next.program thread)
      pool.store) :
    Linearized execute grows start order next := by
  have hkept : ∀ other ∈ order, next.program other = pool.program other :=
    fun other hmem => hother other (fun heq => hnew (heq ▸ hmem))
  refine ⟨h.nodup, h.store.trans hstore.symm, ?_, ?_, ?_⟩
  · intro entry hentry
    rw [hkept entry.1 (mem_of_mem_serial hentry)]
    exact h.values entry hentry
  · intro other hmem
    rw [hkept other hmem]
    exact h.ended other hmem
  · intro other hmem
    rw [hstore]
    by_cases heq : other = thread
    · subst other
      exact .inl hlinear
    · rw [hother other heq]
      exact h.others other hmem

/-- One step keeps a run linearized: the thread that takes it ends, and then comes last in the
serial run, or it changes nothing. -/
theorem Linearized.step (hrefl : ∀ a, grows a a)
    (htrans : ∀ {a b c}, grows a b → grows b c → grows a c) {order : List Thread}
    {pool next : Pool Thread Effect Answer α σ} {label : Thread × Unit}
    {moments : List (Moment Thread Effect Answer σ)}
    (h : Linearized execute grows start order pool)
    (hstep : Pool.step (atomic execute) pool label = some (moments, next)) :
    ∃ extended, Linearized execute grows start extended next := by
  obtain ⟨effect, resume, hprogram, -, hstore, hprograms⟩ := step_eq_some hstep
  have hnew : label.1 ∉ order := by
    intro hmem
    obtain ⟨value, hvalue⟩ := h.ended label.1 hmem
    rw [hprogram] at hvalue
    cases hvalue
  have hother : ∀ thread, thread ≠ label.1 → next.program thread = pool.program thread := by
    intro thread hne
    rw [hprograms, Function.update_of_ne hne]
  have hown : next.program label.1 = resume (execute effect pool.store).1 := by
    rw [hprograms, Function.update_self]
    rfl
  have hafter : next.store = (execute effect pool.store).2 := hstore
  have hlinear := h.others label.1 hnew
  rw [hprogram] at hlinear
  obtain hlinear | ⟨value, -, hvalue⟩ := hlinear
  · rcases Program.linear_perform.mp hlinear pool.store (hrefl _) with
      ⟨value, hdone, hrun, hgrows⟩ | ⟨hsame, hrest⟩
    · refine ⟨order ++ [label.1], h.ended_last htrans hnew hother (hown.trans hdone) ?_ ?_⟩
      · rw [hafter]
        exact hrun
      · rw [hafter]
        exact hgrows
    · refine ⟨order, h.unchanged hnew hother (hafter.trans hsame) ?_⟩
      rw [hown]
      exact hrest
  · cases hvalue

/-- A finished interleaving of linear programs is a serial run of them in some order: it has the
same final store and the same values. -/
theorem linearizable_run [Fintype Thread] (hrefl : ∀ a, grows a a)
    (htrans : ∀ {a b c}, grows a b → grows b c → grows a c)
    (hlinear : ∀ thread, (∃ value, start.program thread = .done value) ∨
      Program.Linear execute grows (start.program thread) (start.program thread) start.store)
    (hrun : Run (Pool.step (atomic execute)) (fun _ _ => True) start trace finish)
    (hdone : ∀ thread, ∃ value, finish.program thread = .done value) :
    ∃ order : List Thread, order.Nodup ∧ (∀ thread, thread ∈ order) ∧
      (serial execute start.program order start.store).2 = finish.store ∧
      ∀ entry ∈ (serial execute start.program order start.store).1,
        finish.program entry.1 = .done entry.2 := by
  obtain ⟨order, h⟩ : ∃ order, Linearized execute grows start order finish := by
    refine hrun.invariant (fun pool => ∃ order, Linearized execute grows start order pool) ?_ ?_
    · refine ⟨[], List.nodup_nil, rfl, by simp [serial], by simp, fun thread _ => ?_⟩
      rcases hlinear thread with ⟨value, hvalue⟩ | hlinear
      · exact .inr ⟨value, hvalue, hvalue⟩
      · exact .inl hlinear
    · intro pool label moments next h _ hstep
      obtain ⟨order, h⟩ := h
      exact h.step hrefl htrans hstep
  -- The threads that are left performed nothing; they go first.
  choose values hvalues using hdone
  let idle := Finset.univ.toList.filter (fun thread => thread ∉ order)
  have hidle : ∀ thread ∈ idle, start.program thread = .done (values thread) := by
    intro thread hmem
    have hnew : thread ∉ order := by simpa using List.of_mem_filter hmem
    rcases h.others thread hnew with hpending | ⟨value, hstart, hfinish⟩
    · rw [hvalues] at hpending
      exact absurd hpending Program.not_linear_done
    · rw [hvalues] at hfinish
      cases hfinish
      exact hstart
  have hserial : serial execute start.program idle start.store =
      (idle.map (fun thread => (thread, values thread)), start.store) :=
    serial_of_done hidle start.store
  refine ⟨idle ++ order, ?_, ?_, ?_, ?_⟩
  · refine List.nodup_append.mpr ⟨(Finset.nodup_toList _).filter _, h.nodup, ?_⟩
    intro a ha b hb heq
    have hnew : a ∉ order := by simpa using List.of_mem_filter ha
    exact hnew (heq ▸ hb)
  · intro thread
    by_cases hmem : thread ∈ order
    · exact List.mem_append_right _ hmem
    · exact List.mem_append_left _ (List.mem_filter.mpr ⟨by simp, by simpa using hmem⟩)
  · rw [serial_append, hserial]
    exact h.store
  · rw [serial_append, hserial]
    intro entry hentry
    rcases List.mem_append.mp hentry with hmem | hmem
    · obtain ⟨thread, -, rfl⟩ := List.mem_map.mp hmem
      exact hvalues thread
    · exact h.values entry hmem

/-! ## The writes of one cell -/

variable {ι ρ : Type} {perform : (effect : Effect) → ι → σ → Answer effect × σ}
  {writes : Effect → Bool}

/-- The threads that write, in the order of their writes. -/
def writers (writes : Effect → Bool) (trace : List (Moment Thread Effect Answer σ)) :
    List Thread :=
  (trace.filter (fun moment => writes moment.effect)).map Moment.thread

omit [DecidableEq Thread] in
theorem writers_snoc (trace : List (Moment Thread Effect Answer σ))
    (moment : Moment Thread Effect Answer σ) :
    writers writes (trace ++ [moment]) =
      writers writes trace ++ if writes moment.effect then [moment.thread] else [] := by
  rw [writers, writers, List.filter_append, List.map_append]
  cases h : writes moment.effect with
  | true => simp [h]
  | false => simp [h]

/-- A thread writes as often as its history says. -/
theorem count_writers (thread : Thread) (trace : List (Moment Thread Effect Answer σ)) :
    (writers writes trace).count thread =
      (history thread trace).countP (fun event => writes event.1) := by
  induction trace using List.reverseRecOn with
  | nil => rfl
  | append_singleton trace moment ih =>
      rw [writers_snoc, List.count_append, ih]
      by_cases hthread : moment.thread = thread
      · rw [history_snoc_self trace hthread, List.countP_append]
        cases h : writes moment.effect with
        | true => simp [h, hthread]
        | false => simp [h]
      · rw [history_snoc_other trace hthread]
        cases h : writes moment.effect with
        | true => simp [hthread]
        | false => simp

/-- Threads that write once each are listed once each. -/
theorem writers_of_once {trace : List (Moment Thread Effect Answer σ)}
    (h : ∀ thread, (history thread trace).countP (fun event => writes event.1) = 1) :
    (writers writes trace).Nodup ∧ ∀ thread, thread ∈ writers writes trace := by
  constructor
  · rw [List.nodup_iff_count_le_one]
    intro thread
    rw [count_writers, h]
  · intro thread
    rw [← List.count_pos_iff, count_writers, h]
    exact Nat.one_pos

/-- When every write does to the cell what the function of its thread does, a run does what the
functions of its writers do one after the other. -/
theorem cell_of_run {start finish : Pool Thread Effect Answer α σ}
    {trace : List (Moment Thread Effect Answer σ)}
    {allowed : Pool Thread Effect Answer α σ → Thread × ι → Prop} {cell : σ → Option ρ}
    {change : Thread → ρ → Option ρ}
    (hrun : Run (step perform) allowed start trace finish)
    (hmoments : ∀ earlier moment later input, trace = earlier ++ moment :: later →
      moment.answer = (perform moment.effect input moment.before).1 →
      cell (perform moment.effect input moment.before).2 =
        if writes moment.effect then (cell moment.before).bind (change moment.thread)
        else cell moment.before) :
    cell finish.store = (cell start.store).bind
      (fun row => (writers writes trace).foldlM (fun row thread => change thread row) row) := by
  induction hrun with
  | refl => simp [writers]
  | @snoc trace events middle next label hrun hallowed hstep ih =>
      obtain ⟨effect, resume, hprogram, rfl, hstore, -⟩ := step_eq_some hstep
      have hlast := hmoments trace
        ⟨label.1, effect, (perform effect label.2 middle.store).1, middle.store⟩ [] label.2 rfl rfl
      have hbefore := ih (fun earlier moment later input htrace hanswer =>
        hmoments earlier moment (later ++ [_]) input
          (by rw [htrace, List.append_assoc, List.cons_append]) hanswer)
      rw [hstore, hlast, writers_snoc, hbefore]
      cases hwrites : writes effect with
      | true => simp [List.foldlM_append, Option.bind_assoc]
      | false => simp

end Pool

end Library
