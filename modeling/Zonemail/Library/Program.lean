import Mathlib.Logic.Function.Basic
import Zonemail.Library.Run

/-!
# Programs over atomic effects, alone and interleaved

A `Program` performs one atomic effect after another on a shared store, each answered before the
next is chosen, and ends with a value. `Program.run` executes one program alone. `Pool` holds one
program per thread over one store, and `Pool.step` lets any thread perform its next effect, so the
runs of a pool are all interleavings of its programs at the level of single effects.

`Program.Safe` says that every effect a program performs obeys a rule that may look at the effects
the program performed before and at their answers, for all answers that are possible. It is proved
along the program text alone. `Pool.safe_run` carries it to every interleaving: when the rule keeps
an invariant of the store and the invariant allows only possible answers, every effect of every
thread in every run obeys the rule. `Program.Ends` is about the value alone: a condition holds of
every value that a program can end with.
-/

namespace Library

/-- A program that performs effects and ends with a value. -/
inductive Program (Effect : Type) (Answer : Effect → Type) (α : Type) where
  | done (value : α)
  | perform (effect : Effect) (resume : Answer effect → Program Effect Answer α)

variable {Effect : Type} {Answer : Effect → Type} {α β γ σ τ ι : Type}

namespace Program

/-- Run the second program on the value of the first. -/
def bind (program : Program Effect Answer α) (next : α → Program Effect Answer β) :
    Program Effect Answer β :=
  match program with
  | .done value => next value
  | .perform effect resume => .perform effect (fun answer => (resume answer).bind next)

instance : Monad (Program Effect Answer) where
  pure := .done
  bind := Program.bind

@[simp] theorem pure_eq_done (value : α) : (pure value : Program Effect Answer α) = .done value :=
  rfl

/-- Perform one effect and return its answer. -/
def call (effect : Effect) : Program Effect Answer (Answer effect) := .perform effect .done

@[simp] theorem call_bind (effect : Effect) (next : Answer effect → Program Effect Answer β) :
    (call effect : Program Effect Answer (Answer effect)) >>= next = .perform effect next := rfl

/-- The same program over more effects, each of which answers as the one it stands for. -/
def lift {Wider : Type} {Reply : Wider → Type} (embed : Effect → Wider)
    (answer : (effect : Effect) → Reply (embed effect) → Answer effect) :
    Program Effect Answer α → Program Wider Reply α
  | .done value => .done value
  | .perform effect resume =>
      .perform (embed effect) (fun reply => (resume (answer effect reply)).lift embed answer)

section Lift

variable {Wider : Type} {Reply : Wider → Type} {embed : Effect → Wider}
  {answer : (effect : Effect) → Reply (embed effect) → Answer effect}

/-- Only a program that has ended is lifted to one that has. -/
theorem eq_done_of_lift {program : Program Effect Answer α} {value : α}
    (h : program.lift embed answer = .done value) : program = .done value := by
  cases program with
  | done other =>
      cases h
      rfl
  | perform effect resume => cases h

/-- What a lifted program performs next is lifted. -/
theorem exists_of_lift_eq_perform {program : Program Effect Answer α} {wider : Wider}
    {resume : Reply wider → Program Wider Reply α}
    (h : program.lift embed answer = .perform wider resume) :
    ∃ effect next, program = .perform effect next ∧ wider = embed effect := by
  cases program with
  | done value => cases h
  | perform effect next =>
      cases h
      exact ⟨effect, next, rfl, rfl⟩

end Lift

/-! ## One program alone -/

/-- The value and the final store of a program whose effects are answered by `execute`. -/
def run (execute : (effect : Effect) → τ → Answer effect × τ) :
    Program Effect Answer α → τ → α × τ
  | .done value, store => (value, store)
  | .perform effect resume, store =>
      run execute (resume (execute effect store).1) (execute effect store).2

variable (execute : (effect : Effect) → τ → Answer effect × τ)

@[simp] theorem run_done (value : α) (store : τ) :
    run execute (.done value : Program Effect Answer α) store = (value, store) := rfl

@[simp] theorem run_perform (effect : Effect) (resume : Answer effect → Program Effect Answer α)
    (store : τ) :
    run execute (.perform effect resume) store =
      run execute (resume (execute effect store).1) (execute effect store).2 := rfl

/-- Running a sequence is running its first part and then the rest on the value it gave. -/
@[simp] theorem run_bind (program : Program Effect Answer α)
    (next : α → Program Effect Answer β) (store : τ) :
    run execute (program >>= next) store =
      run execute (next (run execute program store).1) (run execute program store).2 := by
  induction program generalizing store with
  | done value => rfl
  | perform effect resume ih => exact ih (execute effect store).1 (execute effect store).2

/-- A lifted program does the same to the part of a wider store that answers its effects. -/
theorem run_lift {Wider : Type} {Reply : Wider → Type} {embed : Effect → Wider}
    {answer : (effect : Effect) → Reply (embed effect) → Answer effect}
    {outer : (effect : Wider) → σ → Reply effect × σ} {part : σ → τ}
    (h : ∀ effect store, answer effect (outer (embed effect) store).1 =
        (execute effect (part store)).1 ∧
      part (outer (embed effect) store).2 = (execute effect (part store)).2)
    (program : Program Effect Answer α) (store : σ) :
    (run outer (program.lift embed answer) store).1 = (run execute program (part store)).1 ∧
      part (run outer (program.lift embed answer) store).2 =
        (run execute program (part store)).2 := by
  induction program generalizing store with
  | done value => exact ⟨rfl, rfl⟩
  | perform effect resume ih =>
      obtain ⟨hanswer, hstore⟩ := h effect store
      rw [lift, run_perform, run_perform, ← hanswer, ← hstore]
      exact ih _ _

/-! ## Rules on the effects a program performs -/

/-- What a program has performed so far: its effects with their answers. -/
abbrev History (Effect : Type) (Answer : Effect → Type) := List (Σ effect, Answer effect)

/-- Every effect the program performs after `history` obeys `rule`, whatever possible answers it
gets, and when it ends with a value, `post` holds of the history by then and that value. -/
inductive Safe (possible : (effect : Effect) → Answer effect → Prop)
    (rule : History Effect Answer → Effect → Prop) (post : History Effect Answer → α → Prop) :
    Program Effect Answer α → History Effect Answer → Prop where
  | done {value : α} {history : History Effect Answer} :
      post history value → Safe possible rule post (.done value) history
  | perform {effect : Effect} {resume : Answer effect → Program Effect Answer α}
      {history : History Effect Answer} :
      rule history effect →
      (∀ answer, possible effect answer →
        Safe possible rule post (resume answer) (history ++ [⟨effect, answer⟩])) →
      Safe possible rule post (.perform effect resume) history

variable {possible : (effect : Effect) → Answer effect → Prop}
  {rule : History Effect Answer → Effect → Prop}

/-- The pending effect of a safe program obeys the rule, and every possible answer leaves it
safe. -/
theorem safe_perform {effect : Effect} {resume : Answer effect → Program Effect Answer α}
    {post : History Effect Answer → α → Prop} {history : History Effect Answer} :
    Safe possible rule post (.perform effect resume) history ↔
      rule history effect ∧ ∀ answer, possible effect answer →
        Safe possible rule post (resume answer) (history ++ [⟨effect, answer⟩]) := by
  constructor
  · rintro (_ | ⟨hrule, hresume⟩)
    exact ⟨hrule, hresume⟩
  · exact fun h => .perform h.1 h.2

/-- A sequence is safe when its first part is, and leaves a value and a history from which the rest
is. -/
theorem safe_bind {program : Program Effect Answer α} {next : α → Program Effect Answer β}
    {middle : History Effect Answer → α → Prop} {post : History Effect Answer → β → Prop}
    {history : History Effect Answer} (h : Safe possible rule middle program history)
    (hnext : ∀ later value, middle later value → Safe possible rule post (next value) later) :
    Safe possible rule post (program >>= next) history := by
  induction h with
  | done hpost => exact hnext _ _ hpost
  | perform hrule _ ih => exact .perform hrule ih

/-- The effect that a program performs next. -/
def next? : Program Effect Answer α → Option Effect
  | .done _ => none
  | .perform effect _ => some effect

/-- The next effect of a safe program obeys the rule. -/
theorem Safe.next? {program : Program Effect Answer α} {post : History Effect Answer → α → Prop}
    {history : History Effect Answer} {effect : Effect}
    (h : Safe possible rule post program history)
    (hnext : program.next? = some effect) : rule history effect := by
  cases h with
  | done => cases hnext
  | perform hrule _ =>
      cases hnext
      exact hrule

/-- Weakening the postcondition. -/
theorem Safe.mono {program : Program Effect Answer α}
    {post weaker : History Effect Answer → α → Prop} {history : History Effect Answer}
    (h : Safe possible rule post program history)
    (hpost : ∀ history value, post history value → weaker history value) :
    Safe possible rule weaker program history := by
  induction h with
  | done h => exact .done (hpost _ _ h)
  | perform hrule _ ih => exact .perform hrule ih

/-- Every effect the program can perform, whatever answers it gets, is one of these. -/
inductive Performs (allowed : Effect → Prop) : Program Effect Answer α → Prop where
  | done {value : α} : Performs allowed (.done value)
  | perform {effect : Effect} {resume : Answer effect → Program Effect Answer α} :
      allowed effect → (∀ answer, Performs allowed (resume answer)) →
      Performs allowed (.perform effect resume)

/-- A program that is safe for every answer, under a rule that does not look back, performs what the
rule allows. -/
theorem Safe.performs {allowed : Effect → Prop} {post : History Effect Answer → α → Prop}
    {program : Program Effect Answer α} {history : History Effect Answer}
    (h : Safe (fun _ _ => True) (fun _ effect => allowed effect) post program history) :
    Performs allowed program := by
  induction h with
  | done => exact .done
  | perform heffect _ ih => exact .perform heffect (fun answer => ih answer trivial)

/-- A sequence performs what its parts perform. -/
theorem performs_bind {allowed : Effect → Prop} {program : Program Effect Answer α}
    {next : α → Program Effect Answer β} (h : Performs allowed program)
    (hnext : ∀ value, Performs allowed (next value)) : Performs allowed (program >>= next) := by
  induction h with
  | done => exact hnext _
  | perform heffect _ ih => exact .perform heffect ih

/-- A program that performs only these effects performs only effects that a weaker condition
allows. -/
theorem Performs.mono {allowed weaker : Effect → Prop} {program : Program Effect Answer α}
    (h : Performs allowed program) (hweaker : ∀ effect, allowed effect → weaker effect) :
    Performs weaker program := by
  induction h with
  | done => exact .done
  | perform heffect _ ih => exact .perform (hweaker _ heffect) ih

/-- A lifted program performs what the effects it stands for are lifted to. -/
theorem Performs.lift {Wider : Type} {Reply : Wider → Type} {embed : Effect → Wider}
    {answer : (effect : Effect) → Reply (embed effect) → Answer effect} {allowed : Effect → Prop}
    {wider : Wider → Prop} {program : Program Effect Answer α} (h : Performs allowed program)
    (hwider : ∀ effect, allowed effect → wider (embed effect)) :
    Performs wider (program.lift embed answer) := by
  induction h with
  | done => exact .done
  | perform heffect _ ih => exact .perform (hwider _ heffect) (fun reply => ih (answer _ reply))

/-- Every value the program can end with, whatever answers it gets, satisfies `post`. -/
inductive Ends (post : α → Prop) : Program Effect Answer α → Prop where
  | done {value : α} : post value → Ends post (.done value)
  | perform {effect : Effect} {resume : Answer effect → Program Effect Answer α} :
      (∀ answer, Ends post (resume answer)) → Ends post (.perform effect resume)

/-- A condition that holds of every value holds of those a program ends with. -/
theorem ends_of_forall {post : α → Prop} (h : ∀ value, post value)
    (program : Program Effect Answer α) : Ends post program := by
  induction program with
  | done value => exact .done (h value)
  | perform effect resume ih => exact .perform ih

/-- A sequence ends as its second part does on the values its first part ends with. -/
theorem Ends.bind {middle : α → Prop} {post : β → Prop} {program : Program Effect Answer α}
    {next : α → Program Effect Answer β} (h : Ends middle program)
    (hnext : ∀ value, middle value → Ends post (next value)) : Ends post (program >>= next) := by
  induction h with
  | done hvalue => exact hnext _ hvalue
  | perform _ ih => exact .perform ih

/-- A lifted program ends with the same values. -/
theorem Ends.lift {Wider : Type} {Reply : Wider → Type} {embed : Effect → Wider}
    {answer : (effect : Effect) → Reply (embed effect) → Answer effect} {post : α → Prop}
    {program : Program Effect Answer α} (h : Ends post program) :
    Ends post (program.lift embed answer) := by
  induction h with
  | done hvalue => exact .done hvalue
  | perform _ ih => exact .perform (fun reply => ih (answer _ reply))

/-- The value of a run is one the program can end with. -/
theorem Ends.run {post : α → Prop} {program : Program Effect Answer α} (h : Ends post program)
    (store : τ) : post (program.run execute store).1 := by
  induction h generalizing store with
  | done hvalue => exact hvalue
  | @perform effect _ _ ih => exact ih (execute effect store).1 (execute effect store).2

/-- The program performs this effect when it gets some answers. -/
inductive MayPerform (effect : Effect) : Program Effect Answer α → Prop where
  | here {resume : Answer effect → Program Effect Answer α} :
      MayPerform effect (.perform effect resume)
  | later {other : Effect} {resume : Answer other → Program Effect Answer α}
      (answer : Answer other) :
      MayPerform effect (resume answer) → MayPerform effect (.perform other resume)

/-- Whatever a program may perform is allowed to it. -/
theorem Performs.of_mayPerform {allowed : Effect → Prop} {program : Program Effect Answer α}
    {effect : Effect} (h : Performs allowed program) (hmay : MayPerform effect program) :
    allowed effect := by
  induction hmay with
  | here =>
      cases h with
      | perform heffect _ => exact heffect
  | later answer _ ih =>
      cases h with
      | perform _ hresume => exact ih (hresume answer)

/-- A program is safe when each of its effects obeys the rule as long as `keep` holds of the
history, and keeps it. -/
theorem Performs.safe {allowed : Effect → Prop} {keep : History Effect Answer → Prop}
    {program : Program Effect Answer α} {history : History Effect Answer}
    (h : Performs allowed program) (hstart : keep history)
    (hrule : ∀ history effect, keep history → allowed effect → rule history effect)
    (hkeep : ∀ history effect answer, keep history → allowed effect →
      keep (history ++ [⟨effect, answer⟩])) :
    Safe possible rule (fun later _ => keep later) program history := by
  induction h generalizing history with
  | done => exact .done hstart
  | perform heffect _ ih =>
      exact .perform (hrule history _ hstart heffect) (fun answer _ =>
        ih answer (hkeep history _ answer hstart heffect))

/-! ## What remains of a program -/

/-- The program that is left once the effects of the history were performed and answered. -/
inductive After : Program Effect Answer α → History Effect Answer → Program Effect Answer α →
    Prop where
  | refl {program : Program Effect Answer α} : After program [] program
  | step {effect : Effect} {resume : Answer effect → Program Effect Answer α}
      {rest : Program Effect Answer α} {history : History Effect Answer} (answer : Answer effect) :
      After (resume answer) history rest →
      After (.perform effect resume) (⟨effect, answer⟩ :: history) rest

/-- The next effect is performed last. -/
theorem After.snoc {program : Program Effect Answer α} {history : History Effect Answer}
    {effect : Effect} {resume : Answer effect → Program Effect Answer α}
    (h : After program history (.perform effect resume)) (answer : Answer effect) :
    After program (history ++ [⟨effect, answer⟩]) (resume answer) := by
  generalize hrest : Program.perform effect resume = rest at h
  induction h with
  | refl =>
      subst hrest
      exact .step answer .refl
  | step first _ ih => exact .step first (ih hrest)

/-- A program that has ended performed nothing. -/
theorem After.of_done {value : α} {history : History Effect Answer} {rest : Program Effect Answer α}
    (h : After (.done value) history rest) : history = [] ∧ rest = .done value := by
  cases h
  exact ⟨rfl, rfl⟩

/-- A program that ended performed its first effect first. -/
theorem After.of_perform {effect : Effect} {resume : Answer effect → Program Effect Answer α}
    {history : History Effect Answer} {value : α}
    (h : After (.perform effect resume) history (.done value)) :
    ∃ answer later, history = ⟨effect, answer⟩ :: later ∧
      After (resume answer) later (.done value) := by
  cases h with
  | step answer h => exact ⟨answer, _, rfl, h⟩

/-- A sequence that ended ran its first part to the end, and then the rest on the value it gave. -/
theorem After.of_bind {program : Program Effect Answer α} {next : α → Program Effect Answer β}
    {history : History Effect Answer} {result : β}
    (h : After (program >>= next) history (.done result)) :
    ∃ first second value, history = first ++ second ∧ After program first (.done value) ∧
      After (next value) second (.done result) := by
  induction program generalizing history with
  | done value => exact ⟨[], history, value, rfl, .refl, h⟩
  | perform effect resume ih =>
      cases h with
      | step answer h =>
          obtain ⟨first, second, value, rfl, hfirst, hsecond⟩ := ih answer h
          exact ⟨⟨effect, answer⟩ :: first, second, value, rfl, .step answer hfirst, hsecond⟩

/-- What remains of a sequence is to perform an effect of its first part, with the rest behind it,
or what remains of the rest on the value that the first part gave. -/
theorem After.bind_cases {program : Program Effect Answer α} {next : α → Program Effect Answer β}
    {history : History Effect Answer} {rest : Program Effect Answer β}
    (h : After (program >>= next) history rest) :
    (∃ effect resume, After program history (.perform effect resume) ∧
        rest = .perform effect (fun answer => resume answer >>= next)) ∨
      ∃ first second value, history = first ++ second ∧ After program first (.done value) ∧
        After (next value) second rest := by
  induction program generalizing history with
  | done value => exact .inr ⟨[], history, value, rfl, .refl, h⟩
  | perform effect resume ih =>
      cases h with
      | refl => exact .inl ⟨effect, resume, .refl, rfl⟩
      | step answer h =>
          rcases ih answer h with ⟨other, waiting, hafter, rfl⟩ |
            ⟨first, second, value, rfl, hfirst, hsecond⟩
          · exact .inl ⟨other, waiting, .step answer hafter, rfl⟩
          · exact .inr ⟨⟨effect, answer⟩ :: first, second, value, rfl, .step answer hfirst, hsecond⟩

/-- What remains of a lifted program is lifted, and the program itself comes as far by the answers
that the replies stand for. -/
theorem After.of_lift {Wider : Type} {Reply : Wider → Type} {embed : Effect → Wider}
    {answer : (effect : Effect) → Reply (embed effect) → Answer effect}
    {program : Program Effect Answer α} {history : History Wider Reply}
    {rest : Program Wider Reply α} (h : After (program.lift embed answer) history rest) :
    ∃ (replies : List (Σ effect, Reply (embed effect))) (remaining : Program Effect Answer α),
      history = replies.map (fun reply => ⟨embed reply.1, reply.2⟩) ∧
      After program (replies.map (fun reply => ⟨reply.1, answer reply.1 reply.2⟩)) remaining ∧
      rest = remaining.lift embed answer := by
  induction program generalizing history with
  | done value =>
      obtain ⟨rfl, rfl⟩ := h.of_done
      exact ⟨[], .done value, rfl, .refl, rfl⟩
  | perform effect resume ih =>
      cases h with
      | refl => exact ⟨[], .perform effect resume, rfl, .refl, rfl⟩
      | step reply h =>
          obtain ⟨replies, remaining, rfl, hafter, rfl⟩ := ih _ h
          exact ⟨⟨effect, reply⟩ :: replies, remaining, rfl, .step _ hafter, rfl⟩

/-- Whatever remains of a program performs what it does. -/
theorem Performs.after {allowed : Effect → Prop} {program rest : Program Effect Answer α}
    {history : History Effect Answer} (h : Performs allowed program)
    (hafter : After program history rest) : Performs allowed rest := by
  induction hafter with
  | refl => exact h
  | step answer _ ih =>
      cases h with
      | perform _ hresume => exact ih (hresume answer)

/-- A program has performed only what it may. -/
theorem Performs.of_after {allowed : Effect → Prop} {program rest : Program Effect Answer α}
    {history : History Effect Answer} (h : Performs allowed program)
    (hafter : After program history rest) : ∀ event ∈ history, allowed event.1 := by
  induction hafter with
  | refl => exact fun _ hevent => absurd hevent List.not_mem_nil
  | step answer _ ih =>
      cases h with
      | perform heffect hresume => exact List.forall_mem_cons.mpr ⟨heffect, ih (hresume answer)⟩

/-- What remains of a safe program after possible answers is safe. -/
theorem Safe.after {program rest : Program Effect Answer α}
    {post : History Effect Answer → α → Prop} {history later : History Effect Answer}
    (h : Safe possible rule post program history) (hafter : After program later rest)
    (hpossible : ∀ event ∈ later, possible event.1 event.2) :
    Safe possible rule post rest (history ++ later) := by
  induction hafter generalizing history with
  | refl => rwa [List.append_nil]
  | @step effect resume rest later answer _ ih =>
      obtain ⟨hanswer, hothers⟩ := List.forall_mem_cons.mp hpossible
      have hresume := ih ((safe_perform.mp h).2 answer hanswer) hothers
      rwa [List.append_assoc] at hresume

/-- A safe program that ended, with possible answers, meets its postcondition. -/
theorem Safe.of_after {program : Program Effect Answer α} {post : History Effect Answer → α → Prop}
    {history later : History Effect Answer} {value : α}
    (h : Safe possible rule post program history) (hafter : After program later (.done value))
    (hpossible : ∀ event ∈ later, possible event.1 event.2) : post (history ++ later) value := by
  cases h.after hafter hpossible with
  | done hpost => exact hpost

/-- A safe program leaves behind what led to its value. -/
theorem Safe.traced {program : Program Effect Answer α} {post : History Effect Answer → α → Prop}
    {history : History Effect Answer} (h : Safe possible rule post program history) :
    Safe possible rule
      (fun later value => ∃ part, later = history ++ part ∧ After program part (.done value))
      program history := by
  induction h with
  | done => exact .done ⟨[], (List.append_nil _).symm, .refl⟩
  | @perform effect resume history hrule _ ih =>
      refine .perform hrule (fun answer hanswer => (ih answer hanswer).mono ?_)
      intro later value hlater
      obtain ⟨part, rfl, hafter⟩ := hlater
      exact ⟨⟨effect, answer⟩ :: part, by simp, .step answer hafter⟩

/-- A program whose effects obey the rule wherever they stand leaves behind what led to its
value. -/
theorem Performs.safe_after {allowed : Effect → Prop} {program : Program Effect Answer α}
    {history : History Effect Answer} (h : Performs allowed program)
    (hrule : ∀ history effect, allowed effect → rule history effect) :
    Safe possible rule
      (fun later value => ∃ part, later = history ++ part ∧ After program part (.done value))
      program history := by
  have hsafe : Safe possible rule (fun _ _ => True) program history :=
    h.safe trivial (fun history effect _ => hrule history effect) (fun _ _ _ _ _ => trivial)
  exact hsafe.traced

end Program

/-! ## Interleavings -/

/-- One program per thread over one store. -/
structure Pool (Thread Effect : Type) (Answer : Effect → Type) (α σ : Type) where
  store : σ
  program : Thread → Program Effect Answer α

/-- One effect of a run: the thread that performed it, its answer, and the store it met. -/
structure Moment (Thread Effect : Type) (Answer : Effect → Type) (σ : Type) where
  thread : Thread
  effect : Effect
  answer : Answer effect
  before : σ

namespace Pool

variable {Thread : Type} [DecidableEq Thread]

/-- The thread named by the label performs its next effect, answered under the label's input. A
thread whose program has ended is not enabled. -/
def step (execute : (effect : Effect) → ι → σ → Answer effect × σ)
    (pool : Pool Thread Effect Answer α σ) (label : Thread × ι) :
    Option (List (Moment Thread Effect Answer σ) × Pool Thread Effect Answer α σ) :=
  match pool.program label.1 with
  | .done _ => none
  | .perform effect resume =>
      let result := execute effect label.2 pool.store
      some ([⟨label.1, effect, result.1, pool.store⟩],
        { store := result.2
          program := Function.update pool.program label.1 (resume result.1) })

/-- The moments of one thread. -/
def own (thread : Thread) (trace : List (Moment Thread Effect Answer σ)) :
    List (Moment Thread Effect Answer σ) :=
  trace.filter (fun moment => moment.thread = thread)

/-- What one thread performed in a run. -/
def history (thread : Thread) (trace : List (Moment Thread Effect Answer σ)) :
    Program.History Effect Answer :=
  (own thread trace).map (fun moment => ⟨moment.effect, moment.answer⟩)

/-- A thread's moments split at any of them as the run does. -/
theorem own_append_cons {thread : Thread} (earlier later : List (Moment Thread Effect Answer σ))
    {moment : Moment Thread Effect Answer σ} (h : moment.thread = thread) :
    own thread (earlier ++ moment :: later) = own thread earlier ++ moment :: own thread later := by
  simp [own, h]

theorem history_append (thread : Thread) (earlier later : List (Moment Thread Effect Answer σ)) :
    history thread (earlier ++ later) = history thread earlier ++ history thread later := by
  simp [history, own]

/-- A thread's history splits at each of its moments as the run does. -/
theorem history_append_cons (earlier later : List (Moment Thread Effect Answer σ))
    (moment : Moment Thread Effect Answer σ) :
    history moment.thread (earlier ++ moment :: later) =
      history moment.thread earlier ++
        ⟨moment.effect, moment.answer⟩ :: history moment.thread later := by
  rw [history, own_append_cons earlier later rfl, List.map_append, List.map_cons]
  rfl

/-- Every moment is in the history of its thread. -/
theorem mem_history_of_mem {trace : List (Moment Thread Effect Answer σ)}
    {moment : Moment Thread Effect Answer σ} (h : moment ∈ trace) :
    ⟨moment.effect, moment.answer⟩ ∈ history moment.thread trace :=
  List.mem_map.mpr ⟨moment, List.mem_filter.mpr ⟨h, decide_eq_true rfl⟩, rfl⟩

theorem history_snoc_self {thread : Thread} (trace : List (Moment Thread Effect Answer σ))
    {moment : Moment Thread Effect Answer σ} (h : moment.thread = thread) :
    history thread (trace ++ [moment]) =
      history thread trace ++ [⟨moment.effect, moment.answer⟩] := by
  simp [history, own, h]

theorem history_snoc_other {thread : Thread} (trace : List (Moment Thread Effect Answer σ))
    {moment : Moment Thread Effect Answer σ} (h : moment.thread ≠ thread) :
    history thread (trace ++ [moment]) = history thread trace := by
  simp [history, own, h]

/-- An effect in a thread's history is a moment of the run by that thread, and the thread's history
splits there as the run does. -/
theorem exists_moment_of_history {thread : Thread}
    {trace : List (Moment Thread Effect Answer σ)} {before after : Program.History Effect Answer}
    {event : Σ effect, Answer effect} (h : history thread trace = before ++ event :: after) :
    ∃ earlier moment later, trace = earlier ++ moment :: later ∧ moment.thread = thread ∧
      ⟨moment.effect, moment.answer⟩ = event ∧ history thread earlier = before ∧
      history thread later = after := by
  obtain ⟨front, rest, hown, hfront, hrest⟩ := List.map_eq_append_iff.mp h
  obtain ⟨moment, back, rfl, hevent, hback⟩ := List.map_eq_cons_iff.mp hrest
  obtain ⟨start, remaining, rfl, hstart, hremaining⟩ := List.filter_eq_append_iff.mp hown
  obtain ⟨gap, later, rfl, hgap, hthread, hlater⟩ := List.filter_eq_cons_iff.mp hremaining
  refine ⟨start ++ gap, moment, later, by simp, by simpa using hthread, hevent, ?_, ?_⟩
  · have hskip : gap.filter (fun moment => moment.thread = thread) = [] :=
      List.filter_eq_nil_iff.mpr hgap
    rw [← hfront, ← hstart]
    simp [history, own, hskip]
  · rw [← hback, ← hlater]
    rfl

variable {execute : (effect : Effect) → ι → σ → Answer effect × σ}

/-- An enabled step performs the pending effect of one thread and changes only that thread and the
store. -/
theorem step_eq_some {pool next : Pool Thread Effect Answer α σ} {label : Thread × ι}
    {moments : List (Moment Thread Effect Answer σ)}
    (h : step execute pool label = some (moments, next)) :
    ∃ effect resume, pool.program label.1 = .perform effect resume ∧
      moments = [⟨label.1, effect, (execute effect label.2 pool.store).1, pool.store⟩] ∧
      next.store = (execute effect label.2 pool.store).2 ∧
      next.program = Function.update pool.program label.1
        (resume (execute effect label.2 pool.store).1) := by
  unfold step at h
  split at h
  · cases h
  · rename_i effect resume hprogram
    simp only [Option.some.injEq, Prod.mk.injEq] at h
    obtain ⟨rfl, rfl⟩ := h
    exact ⟨effect, resume, hprogram, rfl, rfl, rfl⟩

/-- A run splits at each of its moments: into a run up to the store that the moment met, the step,
and a run from there on. -/
theorem run_split {pool finish : Pool Thread Effect Answer α σ}
    {trace earlier later : List (Moment Thread Effect Answer σ)}
    {moment : Moment Thread Effect Answer σ}
    {allowed : Pool Thread Effect Answer α σ → Thread × ι → Prop}
    (hrun : Run (step execute) allowed pool trace finish)
    (htrace : trace = earlier ++ moment :: later) :
    ∃ middle next input resume, Run (step execute) allowed pool earlier middle ∧
      allowed middle (moment.thread, input) ∧ middle.store = moment.before ∧
      middle.program moment.thread = .perform moment.effect resume ∧
      moment.answer = (execute moment.effect input moment.before).1 ∧
      next.store = (execute moment.effect input moment.before).2 ∧
      next.program = Function.update middle.program moment.thread (resume moment.answer) ∧
      Run (step execute) allowed next later finish := by
  induction hrun generalizing later with
  | refl => simp at htrace
  | snoc label hrun hallowed hstep ih =>
      obtain ⟨effect, resume, hprogram, rfl, hstore, hprograms⟩ := step_eq_some hstep
      rcases List.eq_nil_or_concat later with rfl | ⟨front, last, rfl⟩
      · obtain ⟨rfl, hmoment⟩ := List.append_inj' htrace rfl
        cases hmoment
        exact ⟨_, _, label.2, resume, hrun, hallowed, rfl, hprogram, rfl, hstore, hprograms, .refl⟩
      · rw [List.concat_eq_append, ← List.cons_append, ← List.append_assoc] at htrace
        obtain ⟨hfront, hlast⟩ := List.append_inj' htrace rfl
        obtain ⟨middle, next, input, waiting, hbefore, hinput, hmiddle, hpending, hanswer, hnext,
          hothers, hafter⟩ := ih hfront
        rw [List.concat_eq_append, ← hlast]
        exact ⟨middle, next, input, waiting, hbefore, hinput, hmiddle, hpending, hanswer, hnext,
          hothers, .snoc label hafter hallowed hstep⟩

/-- What was performed at a moment of a run, and its answer: the answer is what the store gave that
the run had reached. -/
theorem answered_of_run {pool finish : Pool Thread Effect Answer α σ}
    {trace earlier later : List (Moment Thread Effect Answer σ)}
    {moment : Moment Thread Effect Answer σ} {effect : Effect} {answer : Answer effect}
    {allowed : Pool Thread Effect Answer α σ → Thread × ι → Prop}
    (hrun : Run (step execute) allowed pool trace finish)
    (htrace : trace = earlier ++ moment :: later)
    (hevent : (⟨moment.effect, moment.answer⟩ : Σ effect, Answer effect) = ⟨effect, answer⟩) :
    ∃ middle input, Run (step execute) allowed pool earlier middle ∧
      middle.store = moment.before ∧ (execute effect input moment.before).1 = answer := by
  obtain ⟨middle, -, input, -, hbefore, -, hstore, -, hanswer, -⟩ := run_split hrun htrace
  obtain ⟨_, performed, given, before⟩ := moment
  simp only [Sigma.mk.injEq] at hevent
  obtain ⟨rfl, hgiven⟩ := hevent
  cases eq_of_heq hgiven
  exact ⟨middle, input, hbefore, hstore, hanswer.symm⟩

/-- A run without moments took no step. -/
theorem eq_of_run_nil {pool finish : Pool Thread Effect Answer α σ}
    {allowed : Pool Thread Effect Answer α σ → Thread × ι → Prop}
    (hrun : Run (step execute) allowed pool [] finish) : finish = pool := by
  generalize htrace : ([] : List (Moment Thread Effect Answer σ)) = trace at hrun
  cases hrun with
  | refl => rfl
  | snoc label _ _ hstep =>
      obtain ⟨effect, resume, -, rfl, -⟩ := step_eq_some hstep
      simp at htrace

/-- A run splits between any two of its moments. -/
theorem run_append {pool finish : Pool Thread Effect Answer α σ}
    {trace earlier later : List (Moment Thread Effect Answer σ)}
    {allowed : Pool Thread Effect Answer α σ → Thread × ι → Prop}
    (hrun : Run (step execute) allowed pool trace finish) (htrace : trace = earlier ++ later) :
    ∃ middle, Run (step execute) allowed pool earlier middle ∧
      Run (step execute) allowed middle later finish := by
  induction hrun generalizing later with
  | refl =>
      obtain ⟨rfl, rfl⟩ := List.append_eq_nil_iff.mp htrace.symm
      exact ⟨pool, .refl, .refl⟩
  | snoc label hrun hallowed hstep ih =>
      rcases List.eq_nil_or_concat later with rfl | ⟨front, last, rfl⟩
      · rw [List.append_nil] at htrace
        exact ⟨_, htrace ▸ .snoc label hrun hallowed hstep, .refl⟩
      · obtain ⟨effect, resume, -, rfl, -⟩ := step_eq_some hstep
        rw [List.concat_eq_append, ← List.append_assoc] at htrace
        obtain ⟨hfront, hlast⟩ := List.append_inj' htrace rfl
        obtain ⟨middle, hbefore, hafter⟩ := ih hfront
        rw [List.concat_eq_append, ← hlast]
        exact ⟨middle, hbefore, .snoc label hafter hallowed hstep⟩

/-- What a thread performed in a run is what led from its program to what remains of it. -/
theorem after_run {pool finish : Pool Thread Effect Answer α σ}
    {trace : List (Moment Thread Effect Answer σ)}
    {allowed : Pool Thread Effect Answer α σ → Thread × ι → Prop}
    (hrun : Run (step execute) allowed pool trace finish) (thread : Thread) :
    Program.After (pool.program thread) (history thread trace) (finish.program thread) := by
  refine hrun.invariant_trace
    (fun trace state => Program.After (pool.program thread) (history thread trace)
      (state.program thread)) .refl ?_
  intro trace state label moments next hafter _ hstep
  obtain ⟨effect, resume, hprogram, rfl, -, hprograms⟩ := step_eq_some hstep
  rw [hprograms]
  by_cases h : thread = label.1
  · subst thread
    rw [Function.update_self, history_snoc_self trace (by rfl)]
    rw [hprogram] at hafter
    exact hafter.snoc _
  · rw [Function.update_of_ne h, history_snoc_other _ (Ne.symm h)]
    exact hafter

/-- What `safe_run` proves of a run: the store keeps its invariant, every thread is safe from its
history on, and every effect performed obeyed the rule of its thread, met a store with the
invariant, and got the answer the store gives. -/
structure SafeRun (execute : (effect : Effect) → ι → σ → Answer effect × σ)
    (invariant : σ → Prop) (possible : (effect : Effect) → Answer effect → Prop)
    (rule : Thread → Program.History Effect Answer → Effect → Prop)
    (trace : List (Moment Thread Effect Answer σ)) (pool : Pool Thread Effect Answer α σ) :
    Prop where
  store : invariant pool.store
  threads : ∀ thread, Program.Safe possible (rule thread) (fun _ _ => True)
    (pool.program thread) (history thread trace)
  moments : ∀ earlier moment later, trace = earlier ++ moment :: later →
    rule moment.thread (history moment.thread earlier) moment.effect ∧
    invariant moment.before ∧
    ∃ input, moment.answer = (execute moment.effect input moment.before).1

variable {invariant : σ → Prop} {possible : (effect : Effect) → Answer effect → Prop}
  {rule : Thread → Program.History Effect Answer → Effect → Prop}

/-- A step leaves every thread safe. -/
theorem safe_step {pool next : Pool Thread Effect Answer α σ} {label : Thread × ι}
    {trace moments : List (Moment Thread Effect Answer σ)}
    (hpossible : ∀ effect, possible effect (execute effect label.2 pool.store).1)
    (hthreads : ∀ thread, Program.Safe possible (rule thread) (fun _ _ => True)
      (pool.program thread) (history thread trace))
    (hstep : step execute pool label = some (moments, next)) (thread : Thread) :
    Program.Safe possible (rule thread) (fun _ _ => True) (next.program thread)
      (history thread (trace ++ moments)) := by
  obtain ⟨effect, resume, hprogram, rfl, -, hprograms⟩ := step_eq_some hstep
  by_cases h : thread = label.1
  · subst thread
    have hthread := hthreads label.1
    rw [hprogram, Program.safe_perform] at hthread
    rw [hprograms, Function.update_self, history_snoc_self trace (by rfl)]
    exact hthread.2 _ (hpossible effect)
  · rw [hprograms, Function.update_of_ne h, history_snoc_other _ (Ne.symm h)]
    exact hthreads thread

/-- A rule that keeps the store's invariant and that every thread obeys by itself is obeyed in
every interleaving of the threads. -/
theorem safe_run {pool finish : Pool Thread Effect Answer α σ}
    {trace : List (Moment Thread Effect Answer σ)}
    {allowed : Pool Thread Effect Answer α σ → Thread × ι → Prop}
    (hpossible : ∀ effect input store, invariant store →
      possible effect (execute effect input store).1)
    (hkeep : ∀ thread history effect input store, invariant store →
      rule thread history effect → invariant (execute effect input store).2)
    (hstore : invariant pool.store)
    (hthreads : ∀ thread, Program.Safe possible (rule thread) (fun _ _ => True)
      (pool.program thread) [])
    (hrun : Run (step execute) allowed pool trace finish) :
    SafeRun execute invariant possible rule trace finish := by
  refine hrun.invariant_trace (SafeRun execute invariant possible rule) ?_ ?_
  · exact ⟨hstore, hthreads, fun earlier moment later h => by simp at h⟩
  · intro trace state label moments next hsafe _ hstep
    have hnextSafe := safe_step (fun effect => hpossible effect label.2 _ hsafe.store) hsafe.threads
      hstep
    obtain ⟨effect, resume, hprogram, rfl, hnext, hprograms⟩ := step_eq_some hstep
    have hthread := hsafe.threads label.1
    rw [hprogram, Program.safe_perform] at hthread
    obtain ⟨hrule, -⟩ := hthread
    refine ⟨?_, hnextSafe, ?_⟩
    · rw [hnext]
      exact hkeep _ _ _ _ _ hsafe.store hrule
    · intro earlier moment later htrace
      rcases List.eq_nil_or_concat later with rfl | ⟨front, last, rfl⟩
      · obtain ⟨rfl, hmoment⟩ := List.append_inj' htrace rfl
        cases hmoment
        exact ⟨hrule, hsafe.store, label.2, rfl⟩
      · rw [List.concat_eq_append, ← List.cons_append, ← List.append_assoc] at htrace
        exact hsafe.moments earlier moment front (List.append_inj' htrace rfl).1

end Pool

end Library
