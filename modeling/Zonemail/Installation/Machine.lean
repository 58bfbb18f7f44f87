import Zonemail.Inbound.Session
import Zonemail.Library.Surroundings
import Zonemail.Outbound.Finality
import Zonemail.Outbound.Moves
import Zonemail.Outbound.Rows

/-!
# Tasks and workers over one database

An installation is everything that runs over one database: SMTP sessions, requests and seeding, each
a thread with its own program, and any number of outbound workers. A step performs one effect of a
thread or moves one worker, so its runs are all interleavings of the two. A restart of the daemon is
a crash of its workers, after which threads that have not begun take over.

The trace of a run keeps each effect with its answer and each step of a worker with the program
point and the input it was taken from, so that what happened before can be looked up in it.
-/

namespace Zonemail

open Library

variable {Worker Thread : Type} [DecidableEq Worker] [DecidableEq Thread]

/-- One step of a worker as it was taken. -/
structure Turn (Worker : Type) where
  worker : Worker
  before : Control
  input : Input
  actions : List Action

/-- A worker takes a step. -/
def System.turn (ctx : Worker → Context) (system : System Worker) (label : Worker × Input) :
    Option (List (Turn Worker) × System Worker) :=
  match (system.control label.1).next (ctx label.1) system.db label.2 with
  | none => none
  | some (actions, after, db) =>
      some ([⟨label.1, system.control label.1, label.2, actions⟩], system.moved label.1 after db)

/-- An effect of a thread on the database that it shares with the workers. -/
def System.perform (effect : Effect) (fault : Statement.Fault) (system : System Worker) :
    Answer effect × System Worker :=
  let result := effect.execute fault system.db
  (result.1, { system with db := result.2 })

/-- The threads, the workers and the database. -/
abbrev Installation (Worker Thread : Type) := Pool Thread Effect Answer Unit (System Worker)

/-- What happens in an installation: an effect of a thread, or a step of a worker. -/
abbrev Happening (Worker Thread : Type) := Moment Thread Effect Answer (System Worker) ⊕ Turn Worker

/-- One task a thread over an empty database, with no worker running yet. -/
def installation (parse : MessageParser) (lettre : Api.Lettre) (task : Thread → Task) :
    Installation Worker Thread :=
  ⟨⟨Db.empty, fun _ => .stopped⟩, fun thread => (task thread).program parse lettre⟩

/-- One step of an installation. -/
def Installation.step (ctx : Worker → Context) (pool : Installation Worker Thread)
    (label : (Thread × Statement.Fault) ⊕ (Worker × Input)) :
    Option (List (Happening Worker Thread) × Installation Worker Thread) :=
  Pool.stepAmid System.perform (System.turn ctx) pool label

namespace Installation

variable {ctx : Worker → Context} {pool next finish : Installation Worker Thread}
  {label : (Thread × Statement.Fault) ⊕ (Worker × Input)}
  {events trace : List (Happening Worker Thread)}
  {allowed : Installation Worker Thread → (Thread × Statement.Fault) ⊕ (Worker × Input) → Prop}

/-- An enabled step is one effect of one thread, or one move of one worker. -/
theorem step_cases (h : step ctx pool label = some (events, next)) :
    (∃ thread effect fault resume, pool.program thread = .perform effect resume ∧
      events = [.inl ⟨thread, effect, (effect.execute fault pool.store.db).1, pool.store⟩] ∧
      next.store = { pool.store with db := (effect.execute fault pool.store.db).2 }) ∨
    ∃ worker input actions after db,
      events = [.inr ⟨worker, pool.store.control worker, input, actions⟩] ∧
      (pool.store.control worker).Move (ctx worker) pool.store.db input actions after db ∧
      next.store = pool.store.moved worker after db := by
  rcases Pool.stepAmid_cases h with ⟨thread, fault, effect, resume, -, hprogram, rfl, hnext,
    -⟩ | ⟨⟨worker, input⟩, own, store, -, hturn, rfl, rfl⟩
  · exact .inl ⟨thread, effect, fault, resume, hprogram, rfl, hnext⟩
  · simp only [System.turn] at hturn
    split at hturn
    · cases hturn
    · rename_i actions after db hnext
      cases hturn
      exact .inr ⟨worker, input, actions, after, db, rfl, Control.next_move hnext, rfl⟩

/-- Every step is one event. -/
theorem step_one (h : step ctx pool label = some (events, next)) : ∃ event, events = [event] := by
  rcases step_cases h with ⟨_, _, _, _, _, rfl, _⟩ | ⟨_, _, _, _, _, rfl, _⟩ <;> exact ⟨_, rfl⟩

/-- The threads create only the mailboxes that their tasks may create, and new jobs. -/
def Usual (task : Thread → Task) (pool : Installation Worker Thread) : Prop :=
  ∀ thread, (pool.program thread).Performs (UsualEffect (task thread).entries)

omit [DecidableEq Worker] [DecidableEq Thread] in
theorem usual_installation (parse : MessageParser) (lettre : Api.Lettre) (task : Thread → Task) :
    Usual task (installation parse lettre task : Installation Worker Thread) :=
  fun thread => Task.usual parse lettre (task thread)

omit [DecidableEq Worker] [DecidableEq Thread] in
theorem Usual.effect {task : Thread → Task} {thread : Thread} {effect : Effect}
    {resume : Answer effect → Prog Unit} (h : Usual task pool)
    (hprogram : pool.program thread = .perform effect resume) :
    UsualEffect (task thread).entries effect := by
  have hthread := h thread
  rw [hprogram] at hthread
  cases hthread with
  | perform heffect _ => exact heffect

theorem Usual.step {task : Thread → Task} (h : Usual task pool)
    (hstep : Installation.step ctx pool label = some (events, next)) : Usual task next :=
  Pool.performs_amid h hstep

/-- In every interleaving every thread obeys the rule of its task. -/
theorem obeys_of_run {parse : MessageParser} {lettre : Api.Lettre} {task : Thread → Task}
    (hrun : Run (step ctx) allowed (installation parse lettre task) trace finish) :
    Pool.Obeys System.perform PossibleAnswer
      (fun thread history effect => (task thread).Rule history effect) trace finish := by
  have hmove : ∀ (system : System Worker) (label : Worker × Input) (events : List (Turn Worker))
      (next : System Worker), system.db.Addressed → system.turn ctx label = some (events, next) →
      next.db.Addressed := by
    intro system label events next haddressed hturn
    simp only [System.turn] at hturn
    split at hturn
    · cases hturn
    · rename_i hnext
      cases hturn
      unfold Db.Addressed
      rw [System.moved_db, (Control.next_move hnext).frame.1]
      exact haddressed
  refine (Pool.obeys_amid ?_ ?_ hmove Db.addressed_empty
    (fun thread => Task.safe_program parse lettre (task thread)) hrun).2
  · exact fun effect fault system h => h.possibleAnswer effect fault
  · exact fun _ _ effect fault system h hrule => h.execute hrule.addressed fault

/-- Every effect of a thread was answered by the database it met. -/
theorem answer_of_run {moment : Moment Thread Effect Answer (System Worker)}
    {earlier later : List (Happening Worker Thread)}
    (hrun : Run (step ctx) allowed pool trace finish)
    (htrace : trace = earlier ++ .inl moment :: later) :
    ∃ fault, (moment.effect.execute fault moment.before.db).1 = moment.answer := by
  obtain ⟨middle, label, next, -, hstep, -⟩ := hrun.split (fun _ _ _ _ h => step_one h) htrace
  rcases step_cases hstep with ⟨thread, effect, fault, resume, -, hevents, -⟩ |
    ⟨worker, input, actions, after, db, hevents, -, -⟩
  · obtain rfl := Sum.inl.inj (List.cons.inj hevents).1
    exact ⟨fault, rfl⟩
  · cases hevents

/-- What an effect brings about lasts until a statement of a thread undoes it, when the workers
leave it alone. -/
theorem lasts_of_run (stays : Db → Prop)
    (undoes : Moment Thread Effect Answer (System Worker) → Prop)
    {moment : Moment Thread Effect Answer (System Worker)}
    {earlier later : List (Happening Worker Thread)}
    (hthread : ∀ thread statement answer (system : System Worker) after, stays system.db →
      Statement.Change system.db statement after →
      undoes ⟨thread, .sql statement, answer, system⟩ ∨ stays after)
    (hworker : ∀ worker db input before actions after next, stays db →
      Control.Move (ctx worker) db before input actions after next → stays next)
    (hrun : Run (step ctx) allowed pool trace finish)
    (htrace : trace = earlier ++ .inl moment :: later)
    (hmoment : ∀ fault, (moment.effect.execute fault moment.before.db).1 = moment.answer →
      stays (moment.effect.execute fault moment.before.db).2) :
    (∃ undoing, .inl undoing ∈ later ∧ undoes undoing) ∨ stays finish.store.db := by
  obtain ⟨middle, label, next, -, hfirst, hlater⟩ :=
    hrun.split (fun _ _ _ _ h => step_one h) htrace
  refine hlater.invariant_trace (fun later state =>
    (∃ undoing, .inl undoing ∈ later ∧ undoes undoing) ∨ stays state.store.db) ?_ ?_
  · rcases step_cases hfirst with ⟨thread, effect, fault, resume, -, hevents, hnext⟩ |
      ⟨worker, input, actions, after, db, hevents, -, -⟩
    · obtain rfl := Sum.inl.inj (List.cons.inj hevents).1
      rw [hnext]
      exact .inr (hmoment fault rfl)
    · cases hevents
  · intro later state label events next hstate _ hstep
    rcases hstate with ⟨undoing, hmem, hundoes⟩ | hstays
    · exact .inl ⟨undoing, List.mem_append_left _ hmem, hundoes⟩
    · rcases step_cases hstep with ⟨thread, effect, fault, resume, -, rfl, hnext⟩ |
        ⟨worker, input, actions, after, db, -, hmove, hnext⟩
      · rw [hnext]
        cases effect with
        | reply command accepted => exact .inr hstays
        | sql statement =>
            rcases statement.change_of_execute fault state.store.db with hsame | hchange
            · rw [Effect.execute, hsame]
              exact .inr hstays
            · rcases hthread thread _ (statement.execute fault state.store.db).1 _ _ hstays hchange
                with hundoes | hafter
              · exact .inl ⟨_, List.mem_append_right _ (List.mem_singleton_self _), hundoes⟩
              · exact .inr hafter
      · rw [hnext]
        exact .inr (hworker _ _ _ _ _ _ _ hstays hmove)

end Installation

/-! ## A forward and its delivery -/

/-- One thread seeds a forwarding mailbox, the other is a session that sends it a payload without
headers. -/
def relayTasks : Bool → Task
  | false => .seed ⟨["x.io"], [.detailed "a@x.io" (some "b@y.io")], []⟩
  | true => .session [.rcptTo "<A@x.io>", .data [1]]

/-- These tasks, with one worker. -/
def relayInstallation : Installation Unit Bool :=
  installation (fun _ => none) plainLettre relayTasks

/-- The session enqueues the forward, and the worker takes it to the mail host, which accepts it. -/
def relaySteps : List ((Bool × Statement.Fault) ⊕ (Unit × Input)) :=
  List.replicate 4 (.inl (false, none)) ++ List.replicate 7 (.inl (true, none)) ++
    [Input.restart, .database true, .queue 0 true, .database true, .database true,
      .resolver oneHost, .tls true, .reply (.ok "250"), .database true, .database true].map
        (fun input => .inr ((), input))

end Zonemail
