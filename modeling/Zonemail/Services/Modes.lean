import Zonemail.Library.Linearizable
import Zonemail.Library.Sweep
import Zonemail.Services.Manager

/-!
# Mode switches

A mode switch takes the manager's lock once for every service, in the stable order of the services.
Two switches that run at the same time can overtake each other between two services, and then some
services are left as the one asked and the others as the other did. `serial_of_run` says that this
is the only thing that goes wrong: as long as no switch catches up with another one, any number of
switches and of single starts and stops leave the services as the same calls do one after the other,
and switches alone leave them as one of the modes that were asked for.

The statuses are the cells of the sweeps of `Library.Sweeps`: a switch sweeps over the services, and
a start or a stop is a single write.
-/

namespace Zonemail.Services

open Library

/-- The calls that a client of the API makes to the manager. -/
inductive SwitchCall where
  | start (svc : Service)
  | stop (svc : Service)
  | applyMode (mode : BootMode)
  deriving DecidableEq, Repr

def SwitchCall.call : SwitchCall → ServiceCall
  | .start svc => .start svc
  | .stop svc => .stop svc
  | .applyMode mode => .applyMode mode

def SwitchCall.program (call : SwitchCall) : ServiceProg Unit := call.call.program

/-! ## What a call does to the statuses -/

/-- A section without a failing spawn. -/
def Section.succeed (taken : Section) (ledger : Ledger) : taken.Answer × Ledger :=
  taken.execute none ledger

/-- The services that a call takes the lock for, in order. -/
def SwitchCall.plan : SwitchCall → List Service
  | .start svc | .stop svc => [svc]
  | .applyMode _ => Service.all

/-- The status that a start or a stop gives to a service; a service without an address is not
started. -/
def sets (configured up : Bool) (status : Status) : Status :=
  if up then (if configured then .running else status) else .idle

/-- Does the call want the service up? -/
def SwitchCall.wants (smtpsConfigured : Bool) : SwitchCall → Service → Bool
  | .start _, _ => true
  | .stop _, _ => false
  | .applyMode mode, svc => mode.wants smtpsConfigured svc

namespace Ledger

variable {ledger : Ledger}

/-- Is the service configured? -/
def configured (ledger : Ledger) (svc : Service) : Bool := (ledger.inner.addr svc).isSome

/-- No section changes the addresses. -/
theorem addr_succeed (taken : Section) (ledger : Ledger) (svc : Service) :
    (taken.succeed ledger).2.inner.addr svc = ledger.inner.addr svc :=
  Section.addr_perform _ _ taken ledger.inner ledger.tasks svc

/-- A start with a spawn that succeeds. -/
theorem statusOf_start (svc other : Service) :
    ((Section.start svc).succeed ledger).2.inner.statusOf other =
      if other = svc then sets (ledger.configured svc) true (ledger.inner.statusOf svc)
      else ledger.inner.statusOf other := by
  unfold configured Inner.statusOf sets
  cases haddr : ledger.inner.addr svc with
  | none =>
      simp only [Section.succeed, Section.execute, Section.perform, Inner.start, haddr]
      split
      · rename_i heq
        rw [heq]
        rfl
      · rfl
  | some addr =>
      cases hstatus : (ledger.inner.slot svc).status with
      | running =>
          simp only [Section.succeed, Section.execute, Section.perform, Inner.start, haddr, hstatus]
          split
          · rename_i heq
            rw [heq, hstatus]
            rfl
          · rfl
      | idle =>
          simp only [Section.succeed, Section.execute, Section.perform, Inner.start, haddr, hstatus,
            Tasks.spawn, Inner.slot_setSlot]
          split
          · rfl
          · rfl

/-- A stop. -/
theorem Sound.statusOf_stop (h : ledger.Sound) (svc other : Service) :
    ((Section.stop svc).succeed ledger).2.inner.statusOf other =
      if other = svc then .idle else ledger.inner.statusOf other := by
  unfold Section.succeed Inner.statusOf
  rcases ledger.stop_cases svc none with ⟨hnone, hstop⟩ | ⟨task, -, hstop⟩
  · rw [hstop]
    split
    · rename_i heq
      cases hstatus : (ledger.inner.slot svc).status with
      | idle => rw [heq, hstatus]
      | running =>
          have hsome := (h.status svc).mp hstatus
          rw [hnone] at hsome
          cases hsome
    · rfl
  · rw [hstop]
    simp only [Inner.slot_setSlot]
    split
    · rfl
    · rfl

/-- A start or a stop, as it is wanted. -/
theorem Sound.statusOf_switch (h : ledger.Sound) (up : Bool) (svc other : Service) :
    ((if up then Section.start svc else Section.stop svc).succeed ledger).2.inner.statusOf other =
      if other = svc then sets (ledger.configured svc) up (ledger.inner.statusOf svc)
      else ledger.inner.statusOf other := by
  cases up with
  | true => exact statusOf_start svc other
  | false => exact h.statusOf_stop svc other

theorem Sound.succeed (h : ledger.Sound) (taken : Section) : (taken.succeed ledger).2.Sound :=
  h.execute taken none

theorem configured_succeed (taken : Section) (ledger : Ledger) :
    (taken.succeed ledger).2.configured = ledger.configured :=
  funext (fun svc => congrArg Option.isSome (ledger.addr_succeed taken svc))

end Ledger

theorem Service.mem_all (svc : Service) : svc ∈ Service.all := by
  cases svc <;> decide

/-- A mode wants only services that are configured. -/
theorem sets_of_wants (ledger : Ledger) (mode : BootMode) (svc : Service) (status : Status) :
    sets (ledger.configured svc) (mode.wants (ledger.configured .smtps) svc) status =
      if mode.wants ledger.inner.smtpsConfigured svc then .running else .idle := by
  have hconfigured : mode.wants (ledger.configured .smtps) svc = true →
      ledger.configured svc = true := by
    intro hwants
    cases svc with
    | api => rfl
    | smtp => rfl
    | smtps => exact (Bool.and_eq_true_iff.mp hwants).1
    | dns => rfl
  change sets _ _ _ = if mode.wants (ledger.configured .smtps) svc then _ else _
  unfold sets
  split
  · rename_i hwants
    rw [hconfigured hwants]
    rfl
  · rfl

/-! ## One call alone -/

variable {ledger : Ledger}

/-- What is left of a switch once it knows whether a listener with implicit TLS is configured. -/
def switchRest (want : Service → Bool) (rest : List Service) : ServiceProg Unit := do
  let _ ← (do
    applyAll want rest
    Program.call Section.list : ServiceProg (List ServiceReport))
  pure ()

/-- The rest of a switch takes the lock for its next service. -/
theorem switchRest_cons (want : Service → Bool) (svc : Service) (rest : List Service) :
    switchRest want (svc :: rest) =
      .perform (if want svc then .start svc else .stop svc) (fun _ => switchRest want rest) := by
  cases hwant : want svc with
  | true =>
      simp only [switchRest, applyAll, hwant, if_true]
      rfl
  | false =>
      simp only [switchRest, applyAll, hwant, Bool.false_eq_true, if_false]
      rfl

/-- What a run of the rest of a switch leaves behind. -/
theorem switchRest_run (h : ledger.Sound) (want : Service → Bool) {rest : List Service}
    (hnodup : rest.Nodup) :
    ((switchRest want rest).run Section.succeed ledger).2.Sound ∧
    ((switchRest want rest).run Section.succeed ledger).2.configured = ledger.configured ∧
    ∀ svc, ((switchRest want rest).run Section.succeed ledger).2.inner.statusOf svc =
      if svc ∈ rest then sets (ledger.configured svc) (want svc) (ledger.inner.statusOf svc)
      else ledger.inner.statusOf svc := by
  induction rest generalizing ledger with
  | nil => exact ⟨h, rfl, fun svc => (if_neg List.not_mem_nil).symm⟩
  | cons first rest ih =>
      obtain ⟨hfirst, hrest⟩ := List.nodup_cons.mp hnodup
      rw [switchRest_cons, Program.run_perform]
      have hnext := h.succeed (if want first then .start first else .stop first)
      obtain ⟨hsound, hconfigured, hstatus⟩ := ih hnext hrest
      refine ⟨hsound, hconfigured.trans (Ledger.configured_succeed _ ledger), fun svc => ?_⟩
      rw [hstatus, Ledger.configured_succeed, h.statusOf_switch (want first) first svc]
      by_cases heq : svc = first
      · subst heq
        simp [hfirst]
      · simp [heq]

/-- What a call leaves behind. -/
theorem SwitchCall.program_run (h : ledger.Sound) (call : SwitchCall) :
    (call.program.run Section.succeed ledger).2.Sound ∧
    (call.program.run Section.succeed ledger).2.configured = ledger.configured ∧
    ∀ svc, (call.program.run Section.succeed ledger).2.inner.statusOf svc =
      if svc ∈ call.plan then
        sets (ledger.configured svc) (call.wants (ledger.configured .smtps) svc)
          (ledger.inner.statusOf svc)
      else ledger.inner.statusOf svc := by
  cases call with
  | start started =>
      refine ⟨h.execute (.start started) none, Ledger.configured_succeed (.start started) ledger,
        fun svc => ?_⟩
      refine (Ledger.statusOf_start started svc).trans ?_
      by_cases heq : svc = started
      · subst heq
        simp [plan, wants]
      · simp [plan, heq]
  | stop stopped =>
      refine ⟨h.execute (.stop stopped) none, Ledger.configured_succeed (.stop stopped) ledger,
        fun svc => ?_⟩
      refine (h.statusOf_stop stopped svc).trans ?_
      by_cases heq : svc = stopped
      · subst heq
        simp [plan, wants, sets]
      · simp [plan, heq]
  | applyMode mode =>
      have hall : Service.all.Nodup := by decide
      exact switchRest_run h (mode.wants (ledger.configured .smtps)) hall

/-! ## Sweeps -/

section Sweeps

variable {Thread : Type}

/-- The calls as threads over the row of the services. -/
def serviceSweeps (calls : Thread → SwitchCall) (configured : Service → Bool) :
    Sweeps Thread Service Status where
  sweep := Service.all
  nodup := by decide
  plan := fun thread => (calls thread).plan
  planned := fun thread => by
    cases calls thread with
    | start svc => exact .inr ⟨svc, rfl⟩
    | stop svc => exact .inr ⟨svc, rfl⟩
    | applyMode mode => exact .inl rfl
  write := fun thread svc status =>
    sets (configured svc) ((calls thread).wants (configured .smtps) svc) status

/-- Calls one after the other do to the statuses what the sweeps do. -/
theorem statusOf_serial (h : ledger.Sound) (calls : Thread → SwitchCall) (order : List Thread)
    (svc : Service) :
    (serial Section.succeed (fun thread => (calls thread).program) order ledger).2.inner.statusOf
        svc =
      (serviceSweeps calls ledger.configured).serially svc order (ledger.inner.statusOf svc) := by
  induction order generalizing ledger with
  | nil => rfl
  | cons thread rest ih =>
      obtain ⟨hsound, hconfigured, hstatus⟩ := (calls thread).program_run h
      rw [serial, ih hsound, hconfigured, hstatus]
      rfl

/-- Where a call stands: the services that it has still to take the lock for, and what is left of
its program. -/
inductive Stage (smtpsConfigured : Bool) : SwitchCall → List Service → ServiceProg Unit → Prop where
  | start (svc : Service) :
      Stage smtpsConfigured (.start svc) [svc] (SwitchCall.program (.start svc))
  | stop (svc : Service) :
      Stage smtpsConfigured (.stop svc) [svc] (SwitchCall.program (.stop svc))
  | begin (mode : BootMode) :
      Stage smtpsConfigured (.applyMode mode) Service.all (SwitchCall.program (.applyMode mode))
  | switching (mode : BootMode) (left : List Service) :
      Stage smtpsConfigured (.applyMode mode) left (switchRest (mode.wants smtpsConfigured) left)
  | done (call : SwitchCall) : Stage smtpsConfigured call [] (.done ())

theorem stage_program (smtpsConfigured : Bool) (call : SwitchCall) :
    Stage smtpsConfigured call call.plan call.program := by
  cases call with
  | start svc => exact .start svc
  | stop svc => exact .stop svc
  | applyMode mode => exact .begin mode

/-- A call that has ended has no service left. -/
theorem Stage.left_of_done {smtpsConfigured : Bool} {call : SwitchCall} {left : List Service}
    {program : ServiceProg Unit} (h : Stage smtpsConfigured call left program)
    (hdone : program = .done ()) : left = [] := by
  cases h with
  | start => cases hdone
  | stop => cases hdone
  | begin => cases hdone
  | switching mode =>
      cases left with
      | nil => rfl
      | cons svc rest =>
          rw [switchRest_cons] at hdone
          cases hdone
  | done => rfl

/-- The next section of a call only reads, or it starts or stops the next one of its services. -/
theorem Stage.step {call : SwitchCall} {left : List Service} {taken : Section}
    {resume : taken.Answer → ServiceProg Unit}
    (h : Stage (ledger.configured .smtps) call left (.perform taken resume)) :
    ((taken.succeed ledger).2 = ledger ∧
      Stage (ledger.configured .smtps) call left (resume (taken.succeed ledger).1)) ∨
    ∃ svc rest, left = svc :: rest ∧
      taken = (if call.wants (ledger.configured .smtps) svc then .start svc else .stop svc) ∧
      ∀ answer, Stage (ledger.configured .smtps) call rest (resume answer) := by
  generalize hprogram : Program.perform taken resume = program at h
  cases h with
  | start svc =>
      cases hprogram
      exact .inr ⟨svc, [], rfl, rfl, fun _ => .done _⟩
  | stop svc =>
      cases hprogram
      exact .inr ⟨svc, [], rfl, rfl, fun _ => .done _⟩
  | begin mode =>
      cases hprogram
      exact .inl ⟨rfl, @Stage.switching (ledger.configured .smtps) mode Service.all⟩
  | switching mode =>
      cases left with
      | nil =>
          cases hprogram
          exact .inl ⟨rfl, .done _⟩
      | cons svc rest =>
          rw [switchRest_cons] at hprogram
          cases hprogram
          exact .inr ⟨svc, rest, rfl, rfl, fun _ => .switching mode rest⟩
  | done => cases hprogram

/-! ## Interleavings -/

/-- The service that a program takes the lock for next. -/
def Section.service? : Section → Option Service
  | .start svc | .stop svc => some svc
  | .smtpsConfigured | .list => none

def pendingService (program : ServiceProg Unit) : Option Service :=
  program.next?.bind Section.service?

/-- The service that a switch comes by next. -/
def Service.following : Service → Option Service
  | .api => some .smtp
  | .smtp => some .smtps
  | .smtps => some .dns
  | .dns => none

/-- Every spawn succeeds, and a mode switch acts on a service only when no other switch is about to
act on the very next one. -/
def KeepsApart (calls : Thread → SwitchCall) (pool : Pool Thread Section Section.Answer Unit Ledger)
    (label : Thread × Option String) : Prop :=
  label.2 = none ∧ ∀ mode svc ahead, calls label.1 = .applyMode mode →
    pendingService (pool.program label.1) = some svc → svc.following = some ahead →
    ∀ other otherMode, other ≠ label.1 → calls other = .applyMode otherMode →
      pendingService (pool.program other) ≠ some ahead

/-- The board of the sweeps that the manager and its callers stand for. -/
structure Represents (calls : Thread → SwitchCall) (configured : Service → Bool)
    (pool : Pool Thread Section Section.Answer Unit Ledger)
    (board : Board Thread Service Status) : Prop where
  sound : pool.store.Sound
  addresses : pool.store.configured = configured
  cells : ∀ svc, pool.store.inner.statusOf svc = board.cells svc
  stages : ∀ thread,
    Stage (configured .smtps) (calls thread) (board.left thread) (pool.program thread)

variable {calls : Thread → SwitchCall} {configured : Service → Bool}
  {pool next : Pool Thread Section Section.Answer Unit Ledger} {board : Board Thread Service Status}
  {label : Thread × Option String}

/-- A switch that has begun is about to act on the first of the services left to it. -/
theorem Stage.pendingService {smtpsConfigured : Bool} {call : SwitchCall} {svc : Service}
    {rest : List Service} {program : ServiceProg Unit}
    (h : Stage smtpsConfigured call (svc :: rest) program) (hbegun : svc :: rest ≠ call.plan) :
    pendingService program = some svc := by
  generalize hleft : svc :: rest = left at h hbegun
  cases h with
  | start => exact absurd rfl hbegun
  | stop => exact absurd rfl hbegun
  | begin => exact absurd rfl hbegun
  | switching mode =>
      subst hleft
      rw [switchRest_cons]
      cases hwant : mode.wants smtpsConfigured svc with
      | true => simp [Services.pendingService, Program.next?, Section.service?]
      | false => simp [Services.pendingService, Program.next?, Section.service?]
  | done => cases hleft

theorem following_of_suffix {svc ahead : Service} {rest : List Service}
    (h : svc :: ahead :: rest <:+ Service.all) : svc.following = some ahead := by
  simp only [Service.all, List.suffix_cons_iff, List.cons.injEq, List.suffix_nil,
    List.cons_ne_nil, or_false] at h
  rcases h with ⟨rfl, rfl, -⟩ | ⟨rfl, rfl, -⟩ | ⟨rfl, rfl, -⟩ | ⟨-, h⟩
  · rfl
  · rfl
  · rfl
  · cases h

/-- Switches that keep apart do not catch up with each other on the board. -/
theorem KeepsApart.neverCatchesUp (hapart : KeepsApart calls pool label)
    (h : Represents calls configured pool board) {initial : Service → Status}
    {order : List Thread} (hordered : (serviceSweeps calls configured).Ordered initial board order)
    {svc : Service} {rest : List Service} (hleft : board.left label.1 = svc :: rest)
    (hpending : pendingService (pool.program label.1) = some svc) :
    (serviceSweeps calls configured).NeverCatchesUp board label.1 := by
  have hmode : ∀ thread, (calls thread).plan = Service.all →
      ∃ mode, calls thread = .applyMode mode := by
    intro thread hplan
    cases hcall : calls thread with
    | start svc => simp [hcall, SwitchCall.plan, Service.all] at hplan
    | stop svc => simp [hcall, SwitchCall.plan, Service.all] at hplan
    | applyMode mode => exact ⟨mode, rfl⟩
  intro hsweep other hne hother hsome hlevel
  rw [hleft, List.tail_cons] at hlevel
  have hsuffix : svc :: rest <:+ Service.all := by
    have hplanned := hordered.suffix label.1
    rwa [hsweep, hleft] at hplanned
  cases rest with
  | nil => exact hsome hlevel
  | cons ahead behind =>
      obtain ⟨mode, hcall⟩ := hmode label.1 hsweep
      obtain ⟨otherMode, hotherCall⟩ := hmode other hother
      have hstage := h.stages other
      rw [hlevel] at hstage
      refine hapart.2 mode svc ahead hcall hpending (following_of_suffix hsuffix) other
        otherMode hne
        hotherCall (hstage.pendingService (fun hplan => ?_))
      have hplan : ahead :: behind = Service.all := hplan.trans hother
      have hlength := hsuffix.length_le
      rw [← hplan, List.length_cons] at hlength
      omega

variable [DecidableEq Thread]

/-- A section of a caller is a write of the board, or nothing. -/
theorem Represents.step {moments : List (Moment Thread Section Section.Answer Ledger)}
    (h : Represents calls configured pool board) (hspawns : label.2 = none)
    (hstep : Pool.step Section.execute pool label = some (moments, next)) :
    Represents calls configured next board ∨
    ∃ svc rest, board.left label.1 = svc :: rest ∧
      pendingService (pool.program label.1) = some svc ∧
      Represents calls configured next
        ((serviceSweeps calls configured).advance board label.1) := by
  obtain ⟨taken, resume, hprogram, -, hstore, hprograms⟩ := Pool.step_eq_some hstep
  rw [hspawns] at hstore hprograms
  have hself : next.program label.1 = resume (taken.succeed pool.store).1 := by
    rw [hprograms, Function.update_self]
    rfl
  have hother : ∀ thread, thread ≠ label.1 → next.program thread = pool.program thread := by
    intro thread hne
    rw [hprograms, Function.update_of_ne hne]
  have hsound : next.store.Sound := hstore ▸ h.sound.succeed taken
  have haddresses : next.store.configured = configured := by
    rw [hstore, ← h.addresses]
    exact Ledger.configured_succeed taken pool.store
  have hstage := h.stages label.1
  rw [hprogram, ← h.addresses] at hstage
  rcases hstage.step with ⟨hsame, hstage⟩ | ⟨svc, rest, hleft, htaken, hstage⟩
  · -- The section only reads.
    rw [h.addresses] at hstage
    refine .inl ⟨hsound, haddresses, fun svc => ?_, fun thread => ?_⟩
    · rw [hstore]
      exact (congrArg (fun ledger => ledger.inner.statusOf svc) hsame).trans (h.cells svc)
    · by_cases hthread : thread = label.1
      · subst hthread
        rw [hself]
        exact hstage
      · rw [hother thread hthread]
        exact h.stages thread
  · refine .inr ⟨svc, rest, hleft, ?_, hsound, haddresses, fun other => ?_, fun thread => ?_⟩
    · rw [hprogram, pendingService, Program.next?, htaken]
      split
      · rfl
      · rfl
    · rw [hstore, Sweeps.cells_advance hleft, htaken]
      refine (h.sound.statusOf_switch _ svc other).trans ?_
      by_cases hcell : other = svc
      · subst hcell
        rw [if_pos rfl, Function.update_self, h.cells, h.addresses]
        rfl
      · rw [if_neg hcell, Function.update_of_ne hcell, h.cells]
    · rw [Sweeps.left_advance hleft]
      by_cases hthread : thread = label.1
      · subst hthread
        rw [Function.update_self, hself, ← h.addresses]
        exact hstage _
      · rw [Function.update_of_ne hthread, hother thread hthread]
        exact h.stages thread

/-- The callers over a manager. -/
def switchPool (calls : Thread → SwitchCall) (ledger : Ledger) :
    Pool Thread Section Section.Answer Unit Ledger :=
  ⟨ledger, fun thread => (calls thread).program⟩

/-- A run of calls that keep apart is, on the board, an order of the calls. -/
theorem ordered_of_run {trace : List (Moment Thread Section Section.Answer Ledger)}
    {finish : Pool Thread Section Section.Answer Unit Ledger} (hsound : ledger.Sound)
    (hrun : Run (Pool.step Section.execute) (KeepsApart calls) (switchPool calls ledger) trace
      finish) :
    ∃ board order, Represents calls ledger.configured finish board ∧
      (serviceSweeps calls ledger.configured).Ordered ledger.inner.statusOf board order := by
  refine hrun.invariant (fun pool => ∃ board order, Represents calls ledger.configured pool board ∧
      (serviceSweeps calls ledger.configured).Ordered ledger.inner.statusOf board order) ?_ ?_
  · refine ⟨⟨fun thread => (calls thread).plan, ledger.inner.statusOf⟩, [], ?_, ?_⟩
    · exact ⟨hsound, rfl, fun _ => rfl, fun thread => stage_program _ (calls thread)⟩
    · exact Sweeps.ordered_start (serviceSweeps calls ledger.configured) ledger.inner.statusOf
  · intro pool label moments next h hapart hstep
    obtain ⟨board, order, hboard, hordered⟩ := h
    rcases hboard.step hapart.1 hstep with hsame | ⟨svc, rest, hleft, hpending, hnext⟩
    · exact ⟨board, order, hsame, hordered⟩
    · obtain ⟨after, hafter⟩ := hordered.advance hleft
        (hapart.neverCatchesUp hboard hordered hleft hpending)
      exact ⟨_, after, hnext, hafter⟩

/-- **Mode switches that keep apart are atomic.** When any number of mode switches, starts and stops
have all returned, with their sections interleaved in any way in which no switch catches up with
another one, and with every spawn succeeding, the statuses are those of the same calls one after the
other in some order; and where all calls are switches, they are the statuses of one of the modes. -/
theorem serial_of_run {trace : List (Moment Thread Section Section.Answer Ledger)}
    {finish : Pool Thread Section Section.Answer Unit Ledger} (hsound : ledger.Sound)
    (hrun : Run (Pool.step Section.execute) (KeepsApart calls) (switchPool calls ledger) trace
      finish)
    (hdone : ∀ thread, finish.program thread = .done ()) :
    (∃ order : List Thread, order.Nodup ∧ (∀ thread, thread ∈ order) ∧
      ∀ svc, finish.store.inner.statusOf svc =
        (serial Section.succeed (fun thread => (calls thread).program) order
          ledger).2.inner.statusOf svc) ∧
    ((∀ thread, ∃ mode, calls thread = .applyMode mode) → ∀ _ : Thread,
      ∃ thread mode, calls thread = .applyMode mode ∧ ∀ svc, finish.store.inner.statusOf svc =
        if mode.wants ledger.inner.smtpsConfigured svc then .running else .idle) := by
  obtain ⟨board, order, hboard, hordered⟩ := ordered_of_run hsound hrun
  obtain ⟨hall, hvalues⟩ := hordered.finished
    (fun thread => (hboard.stages thread).left_of_done (hdone thread))
  have hmem : ∀ thread, thread ∈ order := by
    intro thread
    refine hall thread ?_
    rcases (serviceSweeps calls ledger.configured).planned thread with hplan | ⟨svc, hplan⟩
    · rw [hplan]
      exact List.cons_ne_nil _ _
    · rw [hplan]
      exact List.cons_ne_nil _ _
  refine ⟨⟨order, hordered.nodup, hmem, fun svc => ?_⟩, fun hmodes thread => ?_⟩
  · rw [hboard.cells, hvalues, statusOf_serial hsound]
  · obtain ⟨earlier, last, rfl⟩ : ∃ earlier last, order = earlier ++ [last] := by
      rcases List.eq_nil_or_concat order with rfl | ⟨earlier, last, hlast⟩
      · cases hmem thread
      · exact ⟨earlier, last, by rw [hlast, List.concat_eq_append]⟩
    obtain ⟨mode, hcall⟩ := hmodes last
    refine ⟨last, mode, hcall, fun svc => ?_⟩
    have hplan : svc ∈ (serviceSweeps calls ledger.configured).plan last := by
      have hall : (serviceSweeps calls ledger.configured).plan last = Service.all :=
        congrArg SwitchCall.plan hcall
      rw [hall]
      exact Service.mem_all svc
    rw [hboard.cells, hvalues, Sweeps.serially, List.foldl_append, List.foldl_cons, List.foldl_nil,
      if_pos hplan]
    simp only [serviceSweeps, hcall, SwitchCall.wants]
    exact sets_of_wants ledger mode svc _

end Sweeps

/-- Two switches, to the API alone and to SMTP alone. -/
def apiAndSmtp : Bool → SwitchCall
  | true => .applyMode .api
  | false => .applyMode .smtp

/-- A manager that has just been constructed, without implicit TLS. -/
def inertLedger : Ledger := .new inertAddr inertAddr inertAddr none

/-- One of two switches keeps apart from the other when it is not right behind it. -/
theorem keepsApart_apiAndSmtp {pool : Pool Bool Section Section.Answer Unit Ledger} {thread : Bool}
    (h : (pendingService (pool.program thread)).bind Service.following = none ∨
      (pendingService (pool.program thread)).bind Service.following ≠
        pendingService (pool.program !thread)) :
    KeepsApart apiAndSmtp pool (thread, none) := by
  refine ⟨rfl, fun mode svc ahead _ hpending hfollowing other otherMode hne _ hahead => ?_⟩
  have hother : other = !thread := Bool.eq_not_of_ne hne
  subst hother
  rw [hpending, Option.bind_some, hfollowing, hahead] at h
  simp at h

/-- The second switch follows the first one over the services: SMTP alone is left running. -/
theorem serial_followed : ∃ trace finish,
    Run (Pool.step Section.execute) (KeepsApart apiAndSmtp)
    (switchPool apiAndSmtp inertLedger) trace
      finish ∧
    (∀ thread, finish.program thread = .done ()) ∧
    finish.store.inner.list =
      [⟨.api, .idle⟩, ⟨.smtp, .running⟩, ⟨.smtps, .idle⟩, ⟨.dns, .idle⟩] ∧
    ∃ order : List Bool, order.Nodup ∧ (∀ thread, thread ∈ order) ∧
      ∀ svc, finish.store.inner.statusOf svc =
        (serial Section.succeed (fun thread => (apiAndSmtp thread).program) order
          inertLedger).2.inner.statusOf svc := by
  obtain ⟨trace, finish, hexecute, hapart, hdone, hlist⟩ : ∃ trace finish,
      execute (Pool.step Section.execute) (switchPool apiAndSmtp inertLedger)
        [(true, none), (false, none), (true, none), (true, none), (false, none), (true, none),
          (false, none), (true, none), (false, none), (true, none), (false, none), (false, none)] =
        some (trace, finish) ∧
      AllowedAlong (Pool.step Section.execute) (KeepsApart apiAndSmtp)
        (switchPool apiAndSmtp inertLedger)
        [(true, none), (false, none), (true, none), (true, none), (false, none), (true, none),
          (false, none), (true, none), (false, none), (true, none), (false, none), (false, none)] ∧
      (∀ thread, finish.program thread = .done ()) ∧
      finish.store.inner.list =
        [⟨.api, .idle⟩, ⟨.smtp, .running⟩, ⟨.smtps, .idle⟩, ⟨.dns, .idle⟩] := by
    refine ⟨_, _, rfl, ?_, ?_, rfl⟩
    · exact ⟨keepsApart_apiAndSmtp (.inl rfl), keepsApart_apiAndSmtp (.inl rfl),
        keepsApart_apiAndSmtp (.inr nofun), keepsApart_apiAndSmtp (.inr nofun),
        keepsApart_apiAndSmtp (.inr nofun), keepsApart_apiAndSmtp (.inr nofun),
        keepsApart_apiAndSmtp (.inr nofun), keepsApart_apiAndSmtp (.inl rfl),
        keepsApart_apiAndSmtp (.inr nofun), keepsApart_apiAndSmtp (.inl rfl),
        keepsApart_apiAndSmtp (.inl rfl), keepsApart_apiAndSmtp (.inl rfl), trivial⟩
    · rintro (_ | _)
      · rfl
      · rfl
  have hrun := execute_run_of_allowed hexecute hapart
  exact ⟨trace, finish, hrun, hdone, hlist,
    (serial_of_run (Ledger.sound_new _ _ _ _) hrun hdone).1⟩

/-- The first switch starts the API; the second one stops it and starts SMTP; the first one then
stops SMTP: both have returned and nothing runs, as after neither of the two orders. -/
theorem not_serial_overtaken : ∃ trace finish,
    Run (Pool.step Section.execute) (fun _ label => label.2 = none)
      (switchPool apiAndSmtp inertLedger) trace finish ∧
    (∀ thread, finish.program thread = .done ()) ∧
    (∀ order : List Bool, order.Nodup → (∀ thread, thread ∈ order) →
      ¬ ∀ svc, finish.store.inner.statusOf svc =
        (serial Section.succeed (fun thread => (apiAndSmtp thread).program) order
          inertLedger).2.inner.statusOf svc) := by
  obtain ⟨trace, finish, hexecute, hdone, hlist⟩ : ∃ trace finish,
      execute (Pool.step Section.execute) (switchPool apiAndSmtp inertLedger)
        [(true, none), (false, none), (true, none), (false, none), (false, none), (true, none),
          (true, none), (true, none), (true, none), (false, none), (false, none), (false, none)] =
        some (trace, finish) ∧
      (∀ thread, finish.program thread = .done ()) ∧
      ∀ svc, finish.store.inner.statusOf svc = .idle := by
    refine ⟨_, _, rfl, ?_, ?_⟩
    · rintro (_ | _)
      · rfl
      · rfl
    · rintro (_ | _ | _ | _)
      all_goals rfl
  refine ⟨trace, finish, ?_, hdone, fun order hnodup hall hserial => ?_⟩
  · exact execute_run_of_allowed hexecute
      ⟨rfl, rfl, rfl, rfl, rfl, rfl, rfl, rfl, rfl, rfl, rfl, rfl, trivial⟩
  · have horder : order = [true, false] ∨ order = [false, true] := by
      have hperm : order.Perm [true, false] :=
        (List.perm_ext_iff_of_nodup hnodup (by decide)).mpr (fun thread => by simp [hall thread])
      have hlength := hperm.length_eq
      match order, hlength with
      | [first, second], _ => revert hperm; cases first <;> cases second <;> decide
    rcases horder with rfl | rfl
    · exact absurd ((hlist .smtp).symm.trans (hserial .smtp)) (by decide)
    · exact absurd ((hlist .api).symm.trans (hserial .api)) (by decide)

end Zonemail.Services
