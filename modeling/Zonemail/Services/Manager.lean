import Zonemail.Library.HashMap
import Zonemail.Library.Program
import Zonemail.Services.Address

/-!
# The service manager

The control plane of `services.rs`: for each listener a slot with a status and the handle of its
task, guarded by one lock. `start` and `stop` each take the lock once; `apply_mode`, `boot` and
`stop_all` take it once per service, so that the sections of several callers interleave.

What the manager asks of the runtime, to spawn a task and to abort one, are functions on a state of
the runtime. `Tasks` is the state that remembers every task that was spawned and every task that was
aborted, and `ledger_of_run` says that the manager never loses track of one, in any interleaving of
any calls and with any spawn failing.
-/

namespace Zonemail.Services

open Library

/-! ## Services, statuses and modes -/

/-- A controllable listener. -/
inductive Service where
  | api
  | smtp
  | smtps
  | dns
  deriving DecidableEq, Repr

/-- Every controllable service, in a stable order. -/
def Service.all : List Service := [.api, .smtp, .smtps, .dns]

/-- The name of a service in messages. -/
def Service.asStr : Service → String
  | .api => "api"
  | .smtp => "smtp"
  | .smtps => "smtps"
  | .dns => "dns"

/-- Whether a task was spawned for a service and not yet stopped. -/
inductive Status where
  | idle
  | running
  deriving DecidableEq, Repr

/-- A named preset of services. -/
inductive BootMode where
  | full
  | api
  | smtp
  | dns
  | off
  deriving DecidableEq, Repr

/-- The services a mode brings up. -/
def BootMode.services : BootMode → List Service
  | .full => [.api, .smtp, .dns]
  | .api => [.api]
  | .smtp => [.smtp]
  | .dns => [.dns]
  | .off => []

/-- The status of one service. -/
structure ServiceReport where
  service : Service
  status : Status
  deriving DecidableEq, Repr

/-- The outcome of a start or a stop; `changed` is false when it had nothing to do. -/
structure ServiceResult where
  service : Service
  status : Status
  changed : Bool
  deriving DecidableEq, Repr

/-! ## Slots -/

/-- What the manager keeps for one service. -/
structure Slot (Task : Type) where
  status : Status
  handle : Option Task

/-- What the lock guards. -/
structure Inner (Task : Type) where
  api : Slot Task
  dns : Slot Task
  smtp : Slot Task
  smtps : Slot Task
  apiAddr : SocketAddr
  dnsAddr : SocketAddr
  smtpAddr : SocketAddr
  smtpsAddr : Option SocketAddr

variable {Task σ : Type}

namespace Inner

/-- The state in which a manager is constructed: nothing runs. -/
def new (apiAddr dnsAddr smtpAddr : SocketAddr) (smtpsAddr : Option SocketAddr) : Inner Task where
  api := ⟨.idle, none⟩
  dns := ⟨.idle, none⟩
  smtp := ⟨.idle, none⟩
  smtps := ⟨.idle, none⟩
  apiAddr := apiAddr
  dnsAddr := dnsAddr
  smtpAddr := smtpAddr
  smtpsAddr := smtpsAddr

/-- The slot of a service. -/
def slot (inner : Inner Task) : Service → Slot Task
  | .api => inner.api
  | .dns => inner.dns
  | .smtp => inner.smtp
  | .smtps => inner.smtps

/-- Write the slot of a service. -/
def setSlot (inner : Inner Task) (svc : Service) (slot : Slot Task) : Inner Task :=
  match svc with
  | .api => { inner with api := slot }
  | .dns => { inner with dns := slot }
  | .smtp => { inner with smtp := slot }
  | .smtps => { inner with smtps := slot }

/-- The bind address of a service. -/
def addr (inner : Inner Task) : Service → Option SocketAddr
  | .api => some inner.apiAddr
  | .dns => some inner.dnsAddr
  | .smtp => some inner.smtpAddr
  | .smtps => inner.smtpsAddr

def statusOf (inner : Inner Task) (svc : Service) : Status := (inner.slot svc).status

theorem slot_setSlot (inner : Inner Task) (svc other : Service) (slot : Slot Task) :
    (inner.setSlot svc slot).slot other = if other = svc then slot else inner.slot other := by
  cases svc <;> cases other <;> rfl

@[simp] theorem slot_setSlot_self (inner : Inner Task) (svc : Service) (slot : Slot Task) :
    (inner.setSlot svc slot).slot svc = slot := by
  rw [slot_setSlot, if_pos rfl]

theorem slot_setSlot_of_ne (inner : Inner Task) {svc other : Service} (h : other ≠ svc)
    (slot : Slot Task) : (inner.setSlot svc slot).slot other = inner.slot other := by
  rw [slot_setSlot, if_neg h]

@[simp] theorem addr_setSlot (inner : Inner Task) (svc other : Service) (slot : Slot Task) :
    (inner.setSlot svc slot).addr other = inner.addr other := by
  cases svc <;> cases other <;> rfl

@[simp] theorem slot_new (apiAddr dnsAddr smtpAddr : SocketAddr) (smtpsAddr : Option SocketAddr)
    (svc : Service) :
    (new apiAddr dnsAddr smtpAddr smtpsAddr : Inner Task).slot svc = ⟨.idle, none⟩ := by
  cases svc <;> rfl

/-! ## Starting and stopping -/

/-- Start one service. A service that runs already is left as it is, and so is one whose task could
not be spawned. -/
def start (spawn : Service → SocketAddr → σ → Except String Task × σ) (svc : Service)
    (inner : Inner Task) (world : σ) : Except String ServiceResult × Inner Task × σ :=
  match inner.addr svc with
  | none => (.error ("service '" ++ svc.asStr ++ "' is not configured"), inner, world)
  | some addr =>
      match (inner.slot svc).status with
      | .running => (.ok ⟨svc, .running, false⟩, inner, world)
      | .idle =>
          match spawn svc addr world with
          | (.error e, world) => (.error e, inner, world)
          | (.ok handle, world) =>
              (.ok ⟨svc, .running, true⟩, inner.setSlot svc ⟨.running, some handle⟩, world)

/-- Stop one service. Without a task there is nothing to abort. -/
def stop (abort : Task → σ → σ) (svc : Service) (inner : Inner Task) (world : σ) :
    Except String ServiceResult × Inner Task × σ :=
  match (inner.slot svc).handle with
  | some handle =>
      (.ok ⟨svc, .idle, true⟩, inner.setSlot svc ⟨.idle, none⟩, abort handle world)
  | none => (.ok ⟨svc, .idle, false⟩, inner, world)

/-- Is a listener with implicit TLS configured? -/
def smtpsConfigured (inner : Inner Task) : Bool := inner.smtpsAddr.isSome

/-- The status of every service, in a stable order. -/
def list (inner : Inner Task) : List ServiceReport :=
  Service.all.map (fun svc => ⟨svc, inner.statusOf svc⟩)

end Inner

/-! ## Critical sections -/

/-- What a caller does under the lock. -/
inductive Section where
  | start (svc : Service)
  | stop (svc : Service)
  | smtpsConfigured
  | list
  deriving DecidableEq, Repr

/-- What the caller learns from it. -/
@[reducible] def Section.Answer : Section → Type
  | .start _ | .stop _ => Except String ServiceResult
  | .smtpsConfigured => Bool
  | .list => List ServiceReport

/-- What a section does to the slots and to the state of the runtime. -/
def Section.perform (spawn : Service → SocketAddr → σ → Except String Task × σ)
    (abort : Task → σ → σ) (taken : Section) (inner : Inner Task) (world : σ) :
    taken.Answer × Inner Task × σ :=
  match taken with
  | .start svc => inner.start spawn svc world
  | .stop svc => inner.stop abort svc world
  | .smtpsConfigured => (inner.smtpsConfigured, inner, world)
  | .list => (inner.list, inner, world)

/-- No section changes the addresses. -/
theorem Section.addr_perform (spawn : Service → SocketAddr → σ → Except String Task × σ)
    (abort : Task → σ → σ) (taken : Section) (inner : Inner Task) (world : σ) (svc : Service) :
    (taken.perform spawn abort inner world).2.1.addr svc = inner.addr svc := by
  cases taken with
  | start started =>
      simp only [Section.perform, Inner.start]
      split
      · rfl
      · split
        · rfl
        · split
          · rfl
          · exact Inner.addr_setSlot _ _ _ _
  | stop stopped =>
      simp only [Section.perform, Inner.stop]
      split
      · exact Inner.addr_setSlot _ _ _ _
      · rfl
  | smtpsConfigured => rfl
  | list => rfl

/-- The programs of the callers. -/
abbrev ServiceProg (α : Type) := Program Section Section.Answer α

def startService (svc : Service) : ServiceProg (Except String ServiceResult) :=
  Program.call (Section.start svc)

def stopService (svc : Service) : ServiceProg (Except String ServiceResult) :=
  Program.call (Section.stop svc)

/-- Start what is wanted and stop the rest; a failure is logged. -/
def applyAll (want : Service → Bool) : List Service → ServiceProg Unit
  | [] => pure ()
  | svc :: rest => do
      let _ ← if want svc then startService svc else stopService svc
      applyAll want rest

/-- Which services a mode wants. A configured listener with implicit TLS follows plain SMTP. -/
def BootMode.wants (mode : BootMode) (smtpsConfigured : Bool) : Service → Bool
  | .smtps => smtpsConfigured && mode.services.contains .smtp
  | svc => mode.services.contains svc

/-- Bring up a named mode: start every service it wants, stop the rest. -/
def applyMode (mode : BootMode) : ServiceProg (List ServiceReport) := do
  let configured ← (Program.call Section.smtpsConfigured : ServiceProg Bool)
  applyAll (mode.wants configured) Service.all
  Program.call Section.list

/-- Start services in turn; a failure is logged. -/
def startAll : List Service → ServiceProg Unit
  | [] => pure ()
  | svc :: rest => do
      let _ ← startService svc
      startAll rest

/-- Boot the services of a mode, a hash set that is walked in some order, and then the listener with
implicit TLS where plain SMTP is among them. -/
def boot (order : IterationOrder Service) (mode : BootMode) : ServiceProg Unit := do
  startAll (order.visit mode.services)
  let configured ← (Program.call Section.smtpsConfigured : ServiceProg Bool)
  if configured && mode.services.contains .smtp then
    let _ ← startService .smtps
    pure ()

/-- Stop services in turn. -/
def stopEach : List Service → ServiceProg Unit
  | [] => pure ()
  | svc :: rest => do
      let _ ← stopService svc
      stopEach rest

/-- Stop every service. -/
def stopAll : ServiceProg Unit := stopEach Service.all

/-- A call to the manager. -/
inductive ServiceCall where
  | start (svc : Service)
  | stop (svc : Service)
  | applyMode (mode : BootMode)
  | boot (order : IterationOrder Service) (mode : BootMode)
  | stopAll

/-- The program of a call; its result is not of interest here. -/
def ServiceCall.program : ServiceCall → ServiceProg Unit
  | .start svc => do
      let _ ← startService svc
      pure ()
  | .stop svc => do
      let _ ← stopService svc
      pure ()
  | .applyMode mode => do
      let _ ← Services.applyMode mode
      pure ()
  | .boot order mode => Services.boot order mode
  | .stopAll => Services.stopAll

/-- A caller makes one call after the other. -/
def callEach : List ServiceCall → ServiceProg Unit
  | [] => pure ()
  | call :: rest => do
      call.program
      callEach rest

/-! ## The tasks of the runtime -/

/-- The tasks that were spawned, each with the service it was spawned for, and those that were
aborted. A task is its place in the first list. -/
structure Tasks where
  spawned : List Service
  aborted : List Nat

namespace Tasks

/-- Spawning a task succeeds with a new one, or it fails. -/
def spawn (failure : Option String) (svc : Service) (_ : SocketAddr) (tasks : Tasks) :
    Except String Nat × Tasks :=
  match failure with
  | some e => (.error e, tasks)
  | none => (.ok tasks.spawned.length, { tasks with spawned := tasks.spawned ++ [svc] })

def abort (task : Nat) (tasks : Tasks) : Tasks := { tasks with aborted := tasks.aborted ++ [task] }

/-- Was the task spawned for the service and not aborted? -/
def Live (tasks : Tasks) (svc : Service) (task : Nat) : Prop :=
  tasks.spawned[task]? = some svc ∧ task ∉ tasks.aborted

theorem live_spawned {tasks : Tasks} {svc other : Service} {task : Nat}
    (hnew : tasks.spawned.length ∉ tasks.aborted) :
    ({ tasks with spawned := tasks.spawned ++ [svc] } : Tasks).Live other task ↔
      tasks.Live other task ∨ (task = tasks.spawned.length ∧ svc = other) := by
  unfold Live
  rcases Nat.lt_trichotomy task tasks.spawned.length with hlt | rfl | hgt
  · simp [List.getElem?_append_left hlt, Nat.ne_of_lt hlt]
  · simp [hnew]
  · have hout : (tasks.spawned ++ [svc])[task]? = none :=
      List.getElem?_eq_none (by rw [List.length_append, List.length_singleton]; omega)
    have hold : tasks.spawned[task]? = none := List.getElem?_eq_none (by omega)
    simp [hout, hold, Nat.ne_of_gt hgt]

theorem live_aborted {tasks : Tasks} {svc : Service} {task aborted : Nat} :
    ({ tasks with aborted := tasks.aborted ++ [aborted] } : Tasks).Live svc task ↔
      tasks.Live svc task ∧ task ≠ aborted := by
  simp [Live, and_assoc]

/-- A task belongs to one service. -/
theorem Live.service_eq {tasks : Tasks} {svc other : Service} {task : Nat}
    (h : tasks.Live svc task) (hother : tasks.Live other task) : svc = other :=
  Option.some.inj (h.1.symm.trans hother.1)

end Tasks

/-- The slots of the manager and the tasks of the runtime. -/
structure Ledger where
  inner : Inner Nat
  tasks : Tasks

/-- What one section does; `failure` is the error of spawning a task, should it come to that. -/
def Section.execute (taken : Section) (failure : Option String) (ledger : Ledger) :
    taken.Answer × Ledger :=
  let (result, inner, tasks) :=
    taken.perform (Tasks.spawn failure) Tasks.abort ledger.inner ledger.tasks
  (result, ⟨inner, tasks⟩)

namespace Ledger

variable {ledger : Ledger} {failure : Option String}

/-- What a start does: it fails and changes nothing, finds the service running, or spawns a task for
an idle service. -/
theorem start_cases (ledger : Ledger) (svc : Service) (failure : Option String) :
    (∃ e, (Section.start svc).execute failure ledger = (.error e, ledger)) ∨
    ((ledger.inner.slot svc).status = .running ∧
      (Section.start svc).execute failure ledger = (.ok ⟨svc, .running, false⟩, ledger)) ∨
    ((ledger.inner.slot svc).status = .idle ∧ (ledger.inner.addr svc).isSome ∧
      (Section.start svc).execute failure ledger = (.ok ⟨svc, .running, true⟩,
        ⟨ledger.inner.setSlot svc ⟨.running, some ledger.tasks.spawned.length⟩,
          { ledger.tasks with spawned := ledger.tasks.spawned ++ [svc] }⟩)) := by
  cases haddr : ledger.inner.addr svc with
  | none =>
      refine .inl ⟨"service '" ++ svc.asStr ++ "' is not configured", ?_⟩
      simp only [Section.execute, Section.perform, Inner.start, haddr]
  | some addr =>
      cases hstatus : (ledger.inner.slot svc).status with
      | running =>
          refine .inr (.inl ⟨rfl, ?_⟩)
          simp only [Section.execute, Section.perform, Inner.start, haddr, hstatus]
      | idle =>
          cases failure with
          | some e =>
              refine .inl ⟨e, ?_⟩
              simp only [Section.execute, Section.perform, Inner.start, haddr, hstatus, Tasks.spawn]
          | none =>
              refine .inr (.inr ⟨rfl, rfl, ?_⟩)
              simp only [Section.execute, Section.perform, Inner.start, haddr, hstatus, Tasks.spawn]

/-- What a stop does: it finds no task, or it aborts the one it finds. -/
theorem stop_cases (ledger : Ledger) (svc : Service) (failure : Option String) :
    ((ledger.inner.slot svc).handle = none ∧
      (Section.stop svc).execute failure ledger = (.ok ⟨svc, .idle, false⟩, ledger)) ∨
    ∃ task, (ledger.inner.slot svc).handle = some task ∧
      (Section.stop svc).execute failure ledger = (.ok ⟨svc, .idle, true⟩,
        ⟨ledger.inner.setSlot svc ⟨.idle, none⟩,
          { ledger.tasks with aborted := ledger.tasks.aborted ++ [task] }⟩) := by
  cases hhandle : (ledger.inner.slot svc).handle with
  | none => exact .inl ⟨rfl, by simp only [Section.execute, Section.perform, Inner.stop, hhandle]⟩
  | some task =>
      refine .inr ⟨task, rfl, ?_⟩
      simp only [Section.execute, Section.perform, Inner.stop, hhandle, Tasks.abort]

/-- The slots and the tasks agree. -/
structure Sound (ledger : Ledger) : Prop where
  /-- A service is running when its slot holds a handle. -/
  status : ∀ svc, (ledger.inner.slot svc).status = .running ↔ (ledger.inner.slot svc).handle.isSome
  /-- A slot holds exactly the task of its service that was spawned and not aborted. -/
  held : ∀ svc task, (ledger.inner.slot svc).handle = some task ↔ ledger.tasks.Live svc task
  /-- Only spawned tasks were aborted. -/
  aborted : ∀ task ∈ ledger.tasks.aborted, task < ledger.tasks.spawned.length

/-- Nothing runs and nothing was spawned. -/
def new (apiAddr dnsAddr smtpAddr : SocketAddr) (smtpsAddr : Option SocketAddr) : Ledger :=
  ⟨.new apiAddr dnsAddr smtpAddr smtpsAddr, ⟨[], []⟩⟩

theorem sound_new (apiAddr dnsAddr smtpAddr : SocketAddr) (smtpsAddr : Option SocketAddr) :
    (new apiAddr dnsAddr smtpAddr smtpsAddr).Sound := by
  refine ⟨fun svc => ?_, fun svc task => ?_, nofun⟩
  · simp [new]
  · simp [new, Tasks.Live]

/-- A service that does not run has no live task. -/
theorem Sound.handle_of_idle (h : ledger.Sound) {svc : Service}
    (hidle : (ledger.inner.slot svc).status = .idle) : (ledger.inner.slot svc).handle = none := by
  cases hhandle : (ledger.inner.slot svc).handle with
  | none => rfl
  | some task =>
      have hrunning := (h.status svc).mpr (by rw [hhandle]; rfl)
      rw [hidle] at hrunning
      cases hrunning

/-- A new task for an idle service. -/
theorem Sound.spawned (h : ledger.Sound) {svc : Service}
    (hidle : (ledger.inner.slot svc).status = .idle) :
    Sound ⟨ledger.inner.setSlot svc ⟨.running, some ledger.tasks.spawned.length⟩,
      { ledger.tasks with spawned := ledger.tasks.spawned ++ [svc] }⟩ := by
  have hnew : ledger.tasks.spawned.length ∉ ledger.tasks.aborted :=
    fun hmem => Nat.lt_irrefl _ (h.aborted _ hmem)
  have hnone := h.handle_of_idle hidle
  refine ⟨fun other => ?_, fun other task => ?_, fun task htask => ?_⟩
  · by_cases hother : other = svc
    · subst hother
      simp
    · rw [Inner.slot_setSlot_of_ne _ hother]
      exact h.status other
  · rw [Tasks.live_spawned hnew, ← h.held]
    by_cases hother : other = svc
    · subst hother
      simp [hnone, eq_comm]
    · simp [Inner.slot_setSlot_of_ne _ hother, Ne.symm hother]
  · have hlt := h.aborted task htask
    rw [List.length_append]
    exact Nat.lt_add_right _ hlt

/-- The task of a service is aborted. -/
theorem Sound.aborts (h : ledger.Sound) {svc : Service} {task : Nat}
    (hhandle : (ledger.inner.slot svc).handle = some task) :
    Sound ⟨ledger.inner.setSlot svc ⟨.idle, none⟩,
      { ledger.tasks with aborted := ledger.tasks.aborted ++ [task] }⟩ := by
  have hlive : ledger.tasks.Live svc task := (h.held svc task).mp hhandle
  refine ⟨fun other => ?_, fun other held => ?_, fun aborted haborted => ?_⟩
  · by_cases hother : other = svc
    · subst hother
      simp
    · rw [Inner.slot_setSlot_of_ne _ hother]
      exact h.status other
  · rw [Tasks.live_aborted]
    by_cases hother : other = svc
    · subst hother
      rw [← h.held, hhandle]
      simp [eq_comm]
    · -- The task of another service is another task.
      rw [Inner.slot_setSlot_of_ne _ hother, h.held, iff_self_and]
      intro hheld heq
      obtain rfl := heq
      exact hother (hheld.service_eq hlive)
  · rcases List.mem_append.mp haborted with hold | hnew
    · exact h.aborted aborted hold
    · rw [List.mem_singleton.mp hnew]
      exact (List.getElem?_eq_some_iff.mp hlive.1).1

/-- Every section keeps the slots and the tasks in agreement. -/
theorem Sound.execute (h : ledger.Sound) (taken : Section) (failure : Option String) :
    (taken.execute failure ledger).2.Sound := by
  cases taken with
  | start svc =>
      rcases ledger.start_cases svc failure with ⟨e, hstart⟩ | ⟨-, hstart⟩ | ⟨hidle, -, hstart⟩
      · rw [hstart]
        exact h
      · rw [hstart]
        exact h
      · rw [hstart]
        exact h.spawned hidle
  | stop svc =>
      rcases ledger.stop_cases svc failure with ⟨-, hstop⟩ | ⟨task, hhandle, hstop⟩
      · rw [hstop]
        exact h
      · rw [hstop]
        exact h.aborts hhandle
  | smtpsConfigured => exact h
  | list => exact h

/-- A start that fails changes nothing. -/
theorem start_error {svc : Service} {e : String}
    (h : ((Section.start svc).execute failure ledger).1 = .error e) :
    ((Section.start svc).execute failure ledger).2 = ledger := by
  rcases ledger.start_cases svc failure with ⟨e, hstart⟩ | ⟨-, hstart⟩ | ⟨-, -, hstart⟩
  · rw [hstart]
  · rw [hstart] at h
    cases h
  · rw [hstart] at h
    cases h

/-- A start reports a change when it changed the status of the service. -/
theorem start_changed {svc : Service} {result : ServiceResult}
    (h : ((Section.start svc).execute failure ledger).1 = .ok result) :
    result.changed = true ↔
      ((Section.start svc).execute failure ledger).2.inner.statusOf svc ≠
        ledger.inner.statusOf svc := by
  rcases ledger.start_cases svc failure with ⟨e, hstart⟩ | ⟨-, hstart⟩ | ⟨hidle, -, hstart⟩
  · rw [hstart] at h
    cases h
  · rw [hstart] at h ⊢
    cases h
    simp
  · rw [hstart] at h ⊢
    cases h
    simp [Inner.statusOf, hidle]

/-- A stop reports a change when it changed the status of the service. -/
theorem Sound.stop_changed (hsound : ledger.Sound) {svc : Service} {result : ServiceResult}
    (h : ((Section.stop svc).execute failure ledger).1 = .ok result) :
    result.changed = true ↔
      ((Section.stop svc).execute failure ledger).2.inner.statusOf svc ≠
        ledger.inner.statusOf svc := by
  rcases ledger.stop_cases svc failure with ⟨-, hstop⟩ | ⟨task, hhandle, hstop⟩
  · rw [hstop] at h ⊢
    cases h
    simp
  · have hrunning : (ledger.inner.slot svc).status = .running :=
      (hsound.status svc).mpr (by rw [hhandle]; rfl)
    rw [hstop] at h ⊢
    cases h
    simp [Inner.statusOf, hrunning]

end Ledger

/-! ## Interleavings -/

section Interleavings

variable {Thread : Type}

/-- Callers over a manager that has been constructed with these addresses. -/
def servicePool (callers : Thread → List ServiceCall) (apiAddr dnsAddr smtpAddr : SocketAddr)
    (smtpsAddr : Option SocketAddr) : Pool Thread Section Section.Answer Unit Ledger :=
  ⟨.new apiAddr dnsAddr smtpAddr smtpsAddr, fun thread => callEach (callers thread)⟩

/-- In every interleaving the slots and the tasks agree. -/
theorem sound_of_run [DecidableEq Thread]
    {pool finish : Pool Thread Section Section.Answer Unit Ledger}
    {trace : List (Moment Thread Section Section.Answer Ledger)}
    {allowed : Pool Thread Section Section.Answer Unit Ledger → Thread × Option String → Prop}
    (hstart : pool.store.Sound) (hrun : Run (Pool.step Section.execute) allowed pool trace finish) :
    finish.store.Sound := by
  refine hrun.invariant (fun pool => pool.store.Sound) hstart ?_
  intro pool label moments next hsound _ hstep
  obtain ⟨taken, resume, -, -, hstore, -⟩ := Pool.step_eq_some hstep
  rw [hstore]
  exact hsound.execute taken label.2

/-- **The manager loses no task.** Whatever calls any number of callers make, however their sections
interleave and whichever spawns fail, in every state reached: a service is running exactly when its
slot holds a handle; every task that was ever spawned is held by the slot of its own service or
aborted, and not both, so that a service has at most one live task; a start that fails leaves every
slot as it is; and a start or a stop reports a change exactly when it changes the status of its
service. -/
theorem ledger_of_run [DecidableEq Thread] {callers : Thread → List ServiceCall}
    {apiAddr dnsAddr smtpAddr : SocketAddr} {smtpsAddr : Option SocketAddr}
    {trace : List (Moment Thread Section Section.Answer Ledger)}
    {finish : Pool Thread Section Section.Answer Unit Ledger}
    (hrun : Run (Pool.step Section.execute) (fun _ _ => True)
      (servicePool callers apiAddr dnsAddr smtpAddr smtpsAddr) trace finish) :
    (∀ svc, finish.store.inner.statusOf svc = .running ↔
      (finish.store.inner.slot svc).handle.isSome) ∧
    (∀ task svc, finish.store.tasks.spawned[task]? = some svc →
      ((finish.store.inner.slot svc).handle = some task ∨ task ∈ finish.store.tasks.aborted) ∧
      ¬ ((finish.store.inner.slot svc).handle = some task ∧
        task ∈ finish.store.tasks.aborted)) ∧
    (∀ svc task other, finish.store.tasks.Live svc task → finish.store.tasks.Live svc other →
      task = other) ∧
    (∀ svc failure e, ((Section.start svc).execute failure finish.store).1 = .error e →
      ((Section.start svc).execute failure finish.store).2.inner = finish.store.inner) ∧
    (∀ svc failure result, ((Section.start svc).execute failure finish.store).1 = .ok result →
      (result.changed = true ↔
        ((Section.start svc).execute failure finish.store).2.inner.statusOf svc ≠
          finish.store.inner.statusOf svc)) ∧
    (∀ svc failure result, ((Section.stop svc).execute failure finish.store).1 = .ok result →
      (result.changed = true ↔
        ((Section.stop svc).execute failure finish.store).2.inner.statusOf svc ≠
          finish.store.inner.statusOf svc)) := by
  have hsound : finish.store.Sound := sound_of_run (Ledger.sound_new _ _ _ _) hrun
  refine ⟨hsound.status, fun task svc hspawned => ?_, fun svc task other htask hother => ?_,
    fun svc failure e h => congrArg Ledger.inner (Ledger.start_error h),
    fun svc failure result h => Ledger.start_changed h,
    fun svc failure result h => hsound.stop_changed h⟩
  · have hheld := hsound.held svc task
    refine ⟨?_, fun ⟨h, haborted⟩ => (hheld.mp h).2 haborted⟩
    by_cases haborted : task ∈ finish.store.tasks.aborted
    · exact .inr haborted
    · exact .inl (hheld.mpr ⟨hspawned, haborted⟩)
  · have hhandle := (hsound.held svc task).mpr htask
    rw [(hsound.held svc other).mpr hother] at hhandle
    exact (Option.some.inj hhandle).symm

end Interleavings

/-- The address of a manager that binds no port. -/
def inertAddr : SocketAddr := ⟨.v4 [127, 0, 0, 1], 0⟩

/-- One caller switches modes while another stops everything. -/
def switchedAndStopped : Bool → List ServiceCall
  | true => [.applyMode .smtp, .applyMode .full]
  | false => [.stopAll]

/-- SMTP is started, stopped by the other caller and started again, and DNS could not be spawned: of
the three tasks that were spawned one is aborted and two are held. -/
theorem ledger_switchedAndStopped : ∃ trace finish,
    Run (Pool.step Section.execute) (fun _ _ => True)
      (servicePool switchedAndStopped inertAddr inertAddr inertAddr none) trace finish ∧
    (∀ thread, finish.program thread = .done ()) ∧
    finish.store.tasks.spawned = [.smtp, .api, .smtp] ∧ finish.store.tasks.aborted = [0] ∧
    finish.store.inner.statusOf .dns = .idle ∧
    (finish.store.inner.slot .smtp).handle = some 2 ∧
    (∀ task svc, finish.store.tasks.spawned[task]? = some svc →
      ((finish.store.inner.slot svc).handle = some task ∨ task ∈ finish.store.tasks.aborted) ∧
      ¬ ((finish.store.inner.slot svc).handle = some task ∧
        task ∈ finish.store.tasks.aborted)) := by
  obtain ⟨trace, finish, hexecute, hdone, hspawned, haborted, hdns, hsmtp⟩ : ∃ trace finish,
      execute (Pool.step Section.execute)
        (servicePool switchedAndStopped inertAddr inertAddr inertAddr none)
        [(true, none), (true, none), (true, none), (false, none), (false, none), (true, none),
          (true, none), (true, none), (true, none), (true, none), (true, none), (false, none),
          (false, none), (true, none), (true, some "no task"), (true, none)] =
        some (trace, finish) ∧
      (∀ thread, finish.program thread = .done ()) ∧
      finish.store.tasks.spawned = [.smtp, .api, .smtp] ∧ finish.store.tasks.aborted = [0] ∧
      finish.store.inner.statusOf .dns = .idle ∧
      (finish.store.inner.slot .smtp).handle = some 2 := by
    refine ⟨_, _, rfl, ?_, rfl, rfl, rfl, rfl⟩
    rintro (_ | _)
    · rfl
    · rfl
  have hrun := execute_run hexecute
  exact ⟨trace, finish, hrun, hdone, hspawned, haborted, hdns, hsmtp, (ledger_of_run hrun).2.1⟩

end Zonemail.Services
