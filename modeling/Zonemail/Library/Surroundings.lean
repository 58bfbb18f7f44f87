import Zonemail.Library.Program

/-!
# Pools whose store also moves by itself

The programs of a `Pool` need not be alone with their store: other machines may move it between two
of their effects. `Pool.stepAmid` lets a thread perform its next effect or the surroundings take a
step of their own, and its traces hold the moments of the threads among the events of the
surroundings. `Pool.obeys_amid` is the rule for such runs: what a thread obeys by itself it obeys
whatever the surroundings do.
-/

namespace Library

variable {Thread Effect : Type} {Answer : Effect → Type} {α σ ι κ β : Type}

namespace Pool

/-- The moments of the threads in a trace. -/
def moments (trace : List (Moment Thread Effect Answer σ ⊕ β)) :
    List (Moment Thread Effect Answer σ) :=
  trace.filterMap Sum.getLeft?

@[simp] theorem moments_append (first second : List (Moment Thread Effect Answer σ ⊕ β)) :
    moments (first ++ second) = moments first ++ moments second :=
  List.filterMap_append

@[simp] theorem moments_map_inl (own : List (Moment Thread Effect Answer σ)) :
    moments (own.map (Sum.inl : _ → Moment Thread Effect Answer σ ⊕ β)) = own := by
  simp [moments, List.filterMap_map, Function.comp_def]

@[simp] theorem moments_map_inr (events : List β) :
    moments (events.map (Sum.inr : β → Moment Thread Effect Answer σ ⊕ β)) = [] := by
  simp [moments, List.filterMap_map]

variable [DecidableEq Thread]

/-- A thread performs its next effect, or the surroundings take a step of their own. -/
def stepAmid (execute : (effect : Effect) → ι → σ → Answer effect × σ)
    (move : σ → κ → Option (List β × σ)) (pool : Pool Thread Effect Answer α σ) :
    (Thread × ι) ⊕ κ →
      Option (List (Moment Thread Effect Answer σ ⊕ β) × Pool Thread Effect Answer α σ)
  | .inl label =>
      match step execute pool label with
      | none => none
      | some (moments, next) => some (moments.map .inl, next)
  | .inr label =>
      match move pool.store label with
      | none => none
      | some (events, store) => some (events.map .inr, { pool with store })

/-- What a thread has performed is in the trace, as one of its moments. -/
theorem exists_moment_of_mem_history {thread : Thread}
    {trace : List (Moment Thread Effect Answer σ ⊕ β)} {event : Σ effect, Answer effect}
    (h : event ∈ history thread (moments trace)) :
    ∃ before, Sum.inl ⟨thread, event.1, event.2, before⟩ ∈ trace := by
  obtain ⟨moment, hmoment, rfl⟩ := List.mem_map.mp h
  obtain ⟨hmem, hthread⟩ := List.mem_filter.mp hmoment
  obtain ⟨entry, hentry, hleft⟩ := List.mem_filterMap.mp hmem
  obtain rfl : moment.thread = thread := by simpa using hthread
  cases entry with
  | inl found =>
      cases hleft
      exact ⟨_, hentry⟩
  | inr event => cases hleft

/-- Where the history of a thread splits at an effect, the trace splits at the moment that performed
it. -/
theorem exists_split_of_history {thread : Thread}
    {trace : List (Moment Thread Effect Answer σ ⊕ β)}
    {before after : Program.History Effect Answer} {event : Σ effect, Answer effect}
    (h : history thread (moments trace) = before ++ event :: after) :
    ∃ earlier moment later, trace = earlier ++ .inl moment :: later ∧ moment.thread = thread ∧
      ⟨moment.effect, moment.answer⟩ = event ∧ history thread (moments later) = after := by
  obtain ⟨front, moment, back, hmoments, hthread, hevent, -, hback⟩ := exists_moment_of_history h
  obtain ⟨start, rest, rfl, -, hrest⟩ := List.filterMap_eq_append_iff.mp hmoments
  obtain ⟨gap, entry, later, rfl, -, hentry, hlater⟩ := List.filterMap_eq_cons_iff.mp hrest
  obtain rfl := Sum.getLeft?_eq_some_iff.mp hentry
  refine ⟨start ++ gap, moment, later, by simp, hthread, hevent, ?_⟩
  rw [← hback, ← hlater]
  rfl

variable {execute : (effect : Effect) → ι → σ → Answer effect × σ}
  {move : σ → κ → Option (List β × σ)}

/-- An enabled step is one effect of one thread, or a step of the surroundings that leaves every
thread where it is. -/
theorem stepAmid_cases {pool next : Pool Thread Effect Answer α σ} {label : (Thread × ι) ⊕ κ}
    {events : List (Moment Thread Effect Answer σ ⊕ β)}
    (h : stepAmid execute move pool label = some (events, next)) :
    (∃ thread input effect resume, label = .inl (thread, input) ∧
      pool.program thread = .perform effect resume ∧
      events = [.inl ⟨thread, effect, (execute effect input pool.store).1, pool.store⟩] ∧
      next.store = (execute effect input pool.store).2 ∧
      step execute pool (thread, input) =
        some ([⟨thread, effect, (execute effect input pool.store).1, pool.store⟩], next)) ∨
    ∃ input own store, label = .inr input ∧ move pool.store input = some (own, store) ∧
      events = own.map .inr ∧ next = { pool with store } := by
  cases label with
  | inl label =>
      simp only [stepAmid] at h
      split at h
      · cases h
      · rename_i own after hstep
        cases h
        obtain ⟨effect, resume, hprogram, rfl, hstore, -⟩ := step_eq_some hstep
        exact .inl ⟨label.1, label.2, effect, resume, rfl, hprogram, rfl, hstore, hstep⟩
  | inr label =>
      simp only [stepAmid] at h
      split at h
      · cases h
      · rename_i own store hmove
        cases h
        exact .inr ⟨label, own, store, rfl, hmove, rfl, rfl⟩

/-- What a thread performed in a run is what led from its program to what remains of it. -/
theorem after_amid {pool finish : Pool Thread Effect Answer α σ}
    {trace : List (Moment Thread Effect Answer σ ⊕ β)}
    {allowed : Pool Thread Effect Answer α σ → (Thread × ι) ⊕ κ → Prop}
    (hrun : Run (stepAmid execute move) allowed pool trace finish) (thread : Thread) :
    Program.After (pool.program thread) (history thread (moments trace))
      (finish.program thread) := by
  refine hrun.invariant_trace
    (fun trace state => Program.After (pool.program thread) (history thread (moments trace))
      (state.program thread)) .refl ?_
  intro trace state label events next hafter _ hstep
  rcases stepAmid_cases hstep with ⟨other, input, effect, resume, -, hprogram, rfl, -, hown⟩ |
    ⟨input, own, store, -, -, rfl, rfl⟩
  · obtain ⟨_, rest, hpending, -, -, hprograms⟩ := step_eq_some hown
    cases hprogram.symm.trans hpending
    rw [hprograms, moments_append]
    show Program.After _ (history thread (moments trace ++
      [⟨other, effect, (execute effect input state.store).1, state.store⟩])) _
    by_cases h : thread = other
    · subst thread
      rw [Function.update_self, history_snoc_self (moments trace) (by rfl)]
      rw [hprogram] at hafter
      exact hafter.snoc _
    · rw [Function.update_of_ne h, history_snoc_other _ (Ne.symm h)]
      exact hafter
  · rw [moments_append, moments_map_inr, List.append_nil]
    exact hafter

/-- Every effect of a thread was answered by the store it met. -/
theorem answered_amid {pool finish : Pool Thread Effect Answer α σ}
    {trace : List (Moment Thread Effect Answer σ ⊕ β)}
    {allowed : Pool Thread Effect Answer α σ → (Thread × ι) ⊕ κ → Prop}
    (hrun : Run (stepAmid execute move) allowed pool trace finish)
    {moment : Moment Thread Effect Answer σ} (hmoment : .inl moment ∈ trace) :
    ∃ input, (execute moment.effect input moment.before).1 = moment.answer := by
  refine hrun.invariant_trace (fun trace _ => ∀ moment, .inl moment ∈ trace →
    ∃ input, (execute moment.effect input moment.before).1 = moment.answer)
    (fun moment h => absurd h List.not_mem_nil) ?_ moment hmoment
  intro trace state label events next hanswered _ hstep moment hmem
  rcases List.mem_append.mp hmem with hold | hnew
  · exact hanswered moment hold
  · rcases stepAmid_cases hstep with ⟨other, input, effect, resume, -, -, rfl, -, -⟩ |
      ⟨input, own, store, -, -, rfl, -⟩
    · obtain rfl := Sum.inl.inj (List.mem_singleton.mp hnew)
      exact ⟨input, rfl⟩
    · obtain ⟨_, -, h⟩ := List.mem_map.mp hnew
      cases h

/-- A step leaves every thread with what it may perform. -/
theorem performs_amid {permitted : Thread → Effect → Prop}
    {pool next : Pool Thread Effect Answer α σ}
    {label : (Thread × ι) ⊕ κ} {events : List (Moment Thread Effect Answer σ ⊕ β)}
    (hthreads : ∀ thread, (pool.program thread).Performs (permitted thread))
    (h : stepAmid execute move pool label = some (events, next)) (thread : Thread) :
    (next.program thread).Performs (permitted thread) := by
  rcases stepAmid_cases h with ⟨other, input, effect, resume, -, hprogram, -, -, hstep⟩ |
    ⟨input, own, store, -, -, -, rfl⟩
  · obtain ⟨_, next, hpending, -, -, hprograms⟩ := step_eq_some hstep
    have hother := hthreads other
    rw [hpending] at hother
    rw [hprograms]
    by_cases hthread : thread = other
    · subst thread
      rw [Function.update_self]
      cases hother with
      | perform _ hresume => exact hresume _
    · rw [Function.update_of_ne hthread]
      exact hthreads thread
  · exact hthreads thread

variable {possible : (effect : Effect) → Answer effect → Prop}
  {rule : Thread → Program.History Effect Answer → Effect → Prop}

/-- What `obeys_amid` proves of a run: every thread is safe from its history on, and every effect
performed obeyed the rule of its thread and got the answer the store gives. -/
structure Obeys (execute : (effect : Effect) → ι → σ → Answer effect × σ)
    (possible : (effect : Effect) → Answer effect → Prop)
    (rule : Thread → Program.History Effect Answer → Effect → Prop)
    (trace : List (Moment Thread Effect Answer σ ⊕ β)) (pool : Pool Thread Effect Answer α σ) :
    Prop where
  threads : ∀ thread, Program.Safe possible (rule thread) (fun _ _ => True)
    (pool.program thread) (history thread (moments trace))
  performed : ∀ earlier moment later, trace = earlier ++ .inl moment :: later →
    rule moment.thread (history moment.thread (moments earlier)) moment.effect ∧
    ∃ input, moment.answer = (execute moment.effect input moment.before).1

/-- A rule that every thread obeys by itself is obeyed in every interleaving of the threads with
each other and with their surroundings, as long as the store gives possible answers only. -/
theorem obeys_amid {pool finish : Pool Thread Effect Answer α σ}
    {trace : List (Moment Thread Effect Answer σ ⊕ β)}
    {allowed : Pool Thread Effect Answer α σ → (Thread × ι) ⊕ κ → Prop} {invariant : σ → Prop}
    (hpossible : ∀ effect input store, invariant store →
      possible effect (execute effect input store).1)
    (hkeep : ∀ thread history effect input store, invariant store →
      rule thread history effect → invariant (execute effect input store).2)
    (hmove : ∀ store input events next, invariant store →
      move store input = some (events, next) → invariant next)
    (hstore : invariant pool.store)
    (hthreads : ∀ thread, Program.Safe possible (rule thread) (fun _ _ => True)
      (pool.program thread) [])
    (hrun : Run (stepAmid execute move) allowed pool trace finish) :
    invariant finish.store ∧ Obeys execute possible rule trace finish := by
  refine hrun.invariant_trace
    (fun trace state => invariant state.store ∧ Obeys execute possible rule trace state)
    ⟨hstore, hthreads, fun earlier moment later h => by simp at h⟩ ?_
  intro trace state label events next hstate _ hstep
  obtain ⟨hinvariant, hobeys⟩ := hstate
  rcases stepAmid_cases hstep with ⟨thread, input, effect, resume, rfl, hprogram, rfl, hnext,
    hown⟩ | ⟨input, own, store, rfl, hmoved, rfl, rfl⟩
  · have hthread := hobeys.threads thread
    rw [hprogram, Program.safe_perform] at hthread
    obtain ⟨hrule, -⟩ := hthread
    refine ⟨?_, fun other => ?_, ?_⟩
    · rw [hnext]
      exact hkeep _ _ _ _ _ hinvariant hrule
    · rw [moments_append]
      exact safe_step (fun effect => hpossible effect input _ hinvariant) hobeys.threads hown other
    · intro earlier moment later htrace
      rcases List.eq_nil_or_concat later with rfl | ⟨front, last, rfl⟩
      · obtain ⟨rfl, hmoment⟩ := List.append_inj' htrace rfl
        cases hmoment
        exact ⟨hrule, input, rfl⟩
      · rw [List.concat_eq_append, ← List.cons_append, ← List.append_assoc] at htrace
        exact hobeys.performed earlier moment front (List.append_inj' htrace rfl).1
  · refine ⟨hmove _ _ _ _ hinvariant hmoved, fun other => ?_, ?_⟩
    · rw [moments_append, moments_map_inr, List.append_nil]
      exact hobeys.threads other
    · intro earlier moment later htrace
      -- The moment is none of the new events, so it splits the trace before them.
      have hnew : ∀ entry ∈ own.map Sum.inr, entry ≠ Sum.inl moment := by simp
      rcases List.append_eq_append_iff.mp htrace with ⟨middle, rfl, hown⟩ | ⟨middle, rfl, hrest⟩
      · exact absurd rfl (hnew (.inl moment) (by simp [hown]))
      · cases middle with
        | nil =>
            rw [List.nil_append] at hrest
            exact absurd rfl (hnew (.inl moment) (hrest ▸ List.mem_cons_self ..))
        | cons first middle =>
            obtain ⟨rfl, -⟩ := List.cons.inj hrest
            exact hobeys.performed earlier moment middle rfl

end Pool

end Library
