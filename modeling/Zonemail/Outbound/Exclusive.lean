import Zonemail.Outbound.Worker

/-!
# Who holds a job

A claim is a compare-and-set on the stored status, so a job that some worker holds cannot be
claimed again as long as its row stays in progress. `System.Owned` is that invariant. Every step
keeps it but one: `reclaim_in_progress` re-queues every row it has read as in progress, the rows
that a live peer holds among them. The runs in which it does not touch a held row are those in
which ownership is exclusive, and `twoHolders` is a run of two workers in which it does.
-/

namespace Zonemail

open Library

variable {Worker : Type}

namespace System

/-- No two workers hold one job. -/
def Exclusive (system : System Worker) : Prop :=
  ∀ first second id, system.Holds first id → system.Holds second id → first = second

/-- A held job has one holder, and its row, unless it was deleted, is in progress. -/
structure Owned (system : System Worker) : Prop where
  exclusive : system.Exclusive
  known : ∀ worker id, system.Holds worker id → id < system.db.outbounds.next
  inProgress : ∀ worker id row, system.Holds worker id →
    system.db.outbounds.get? id = some row → row.status = .inProgress

/-- A step that reclaims a row reclaims one that no worker holds. -/
def ReclaimsUnheld (system : System Worker) : Label Worker → Prop
  | .worker worker (.database true) =>
      match system.control worker with
      | .reclaimInProgress job _ => ∀ other, ¬ system.Holds other job.id
      | _ => True
  | _ => True

variable [DecidableEq Worker] {ctx : Worker → Context} {system next : System Worker}
    {label : Label Worker}
  {actions : List (Worker × Action)} {worker other : Worker} {after : Control} {db : Db} {id : Nat}

/-- After a worker's step the others hold what they held before. -/
theorem holds_update_of_ne (h : other ≠ worker) :
    (system.moved worker after db).Holds other id ↔
      system.Holds other id := by
  simp [Holds, system.moved_control_of_ne h]

/-- After a worker's step it holds the job of its new program point. -/
theorem holds_update_self :
    (system.moved worker after db).Holds worker id ↔
      ∃ job, after.held = some job ∧ job.id = id := by
  simp [Holds]

/-- When a step leaves or drops the job its worker holds, every holder afterwards was one before. -/
theorem holds_of_update (hheld : after.held = (system.control worker).held ∨ after.held = none)
    (h : (system.moved worker after db).Holds other id) :
    system.Holds other id := by
  by_cases hother : other = worker
  · subst other
    rw [holds_update_self] at h
    obtain ⟨job, hjob, hid⟩ := h
    rcases hheld with hsame | hnone
    · exact ⟨job, hsame ▸ hjob, hid⟩
    · rw [hnone] at hjob
      cases hjob
  · exact (holds_update_of_ne hother).mp h

omit [DecidableEq Worker] in
/-- Ownership survives a step in which nobody gains a job and in which the rows of the jobs still
held keep their status or disappear. -/
theorem Owned.shrink (howned : system.Owned)
    (hholds : ∀ worker id, next.Holds worker id → system.Holds worker id)
    (hnext : system.db.outbounds.next ≤ next.db.outbounds.next)
    (hrows : ∀ worker id row, next.Holds worker id → next.db.outbounds.get? id = some row →
      ∃ old, system.db.outbounds.get? id = some old ∧ row.status = old.status) :
    next.Owned where
  -- A holder afterwards was a holder before, so two of them were.
  exclusive := fun first second id hfirst hsecond =>
    howned.exclusive first second id (hholds _ _ hfirst) (hholds _ _ hsecond)
  known := fun worker id h => Nat.lt_of_lt_of_le (howned.known worker id (hholds _ _ h)) hnext
  inProgress := fun worker id row h hrow => by
    obtain ⟨old, hold, hstatus⟩ := hrows worker id row h hrow
    exact hstatus.trans (howned.inProgress worker id old (hholds _ _ h) hold)

/-- A write to a row that no worker holds afterwards leaves the rows of the held jobs alone. -/
theorem Owned.shrink_write {columns : OutboundColumns} {written : Nat} (howned : system.Owned)
    (hheld : after.held = (system.control worker).held ∨ after.held = none)
    (hfree : ∀ other, ¬ (system.moved worker after (system.db.updateOutbound written columns)).Holds
      other written) :
    (system.moved worker after (system.db.updateOutbound written columns)).Owned := by
  refine howned.shrink (fun _ _ => holds_of_update hheld) (Nat.le_refl _) ?_
  intro holder id row h hrow
  -- The written row has no holder, so the row of a held job is another one.
  have hne : id ≠ written := fun heq => hfree holder (heq ▸ h)
  rw [moved_db, Db.get?_updateOutbound, if_neg hne] at hrow
  exact ⟨row, hrow, rfl⟩

omit [DecidableEq Worker] in
/-- A statement of another part of the daemon keeps ownership. -/
theorem Owned.request (howned : system.Owned) (statement : Statement) (fault : Statement.Fault) :
    Owned { system with db := (statement.execute fault system.db).2 } := by
  have hextends := statement.extends_execute fault system.db
  refine howned.shrink (fun _ _ h => h) hextends.next_le ?_
  intro worker id row h hrow
  exact ⟨row, hextends.get?_of_lt (howned.known worker id h) hrow, rfl⟩

/-- A claim takes a queued row, which nobody held. -/
theorem Owned.claim {now : Timestamp} {scanned row : Outbound} {rest : List Outbound}
    (howned : system.Owned) (hrow : system.db.outbounds.get? scanned.id = some row)
    (hstatus : row.status = .queued) :
    (system.moved worker (.deliverOne ⟨now, rest, claimedColumns.apply row⟩)
      (system.db.updateOutbound scanned.id claimedColumns)).Owned := by
  have hid : row.id = scanned.id := Table.key_of_get? hrow
  have hfree : ∀ other, ¬ system.Holds other scanned.id := fun other h => by
    have := howned.inProgress other scanned.id row h hrow
    rw [hstatus] at this
    cases this
  -- The claiming worker holds exactly the claimed job, every other worker what it held before.
  have hself : ∀ id, (system.moved worker (.deliverOne ⟨now, rest, claimedColumns.apply row⟩)
      (system.db.updateOutbound scanned.id claimedColumns)).Holds worker id ↔ scanned.id = id := by
    intro id
    simp [holds_update_self, Control.held, hid]
  constructor
  · intro first second id hfirst hsecond
    by_cases h1 : first = worker
    · by_cases h2 : second = worker
      · rw [h1, h2]
      · rw [h1, hself] at hfirst
        rw [holds_update_of_ne h2, ← hfirst] at hsecond
        exact absurd hsecond (hfree second)
    · rw [holds_update_of_ne h1] at hfirst
      by_cases h2 : second = worker
      · rw [h2, hself] at hsecond
        rw [← hsecond] at hfirst
        exact absurd hfirst (hfree first)
      · rw [holds_update_of_ne h2] at hsecond
        exact howned.exclusive first second id hfirst hsecond
  · intro holder id h
    by_cases hholder : holder = worker
    · rw [hholder, hself] at h
      rw [moved_db, Db.next_updateOutbound, ← h]
      exact AutoTable.lt_next_of_get? hrow
    · exact howned.known holder id ((holds_update_of_ne hholder).mp h)
  · intro holder id stored h hstored
    rw [moved_db, Db.get?_updateOutbound] at hstored
    by_cases hwritten : id = scanned.id
    · rw [if_pos hwritten, hrow, Option.map_some, Option.some.injEq] at hstored
      rw [← hstored]
      rfl
    · rw [if_neg hwritten] at hstored
      have hholder : holder ≠ worker := by
        intro heq
        obtain rfl := heq
        exact hwritten ((hself id).mp h).symm
      exact howned.inProgress holder id stored ((holds_update_of_ne hholder).mp h) hstored

/-- A step that reclaims no held row keeps ownership. -/
theorem Owned.step (howned : system.Owned) (hreclaims : system.ReclaimsUnheld label)
    (h : system.step ctx label = some (actions, next)) : next.Owned := by
  rcases step_cases h with ⟨statement, fault, rfl, rfl, rfl⟩ |
    ⟨worker, input, shown, after, db, rfl, hnext, rfl, rfl⟩
  · exact howned.request statement fault
  · cases Control.next_effect hnext with
    | quiet houtbounds hheld hrows hsent =>
        refine howned.shrink (fun _ _ => holds_of_update (.inl hheld)) ?_ ?_
        · rw [moved_db, houtbounds]
        · exact fun _ _ row _ hrow => ⟨row, by rwa [moved_db, houtbounds] at hrow, rfl⟩
    | stop =>
        exact howned.shrink (fun _ _ => holds_of_update (.inr rfl)) (Nat.le_refl _)
          (fun _ _ row _ hrow => ⟨row, hrow, rfl⟩)
    | abandon hjob hreason =>
        exact howned.shrink (fun _ _ => holds_of_update (.inr (Control.held_drain _ _)))
          (Nat.le_refl _) (fun _ _ row _ hrow => ⟨row, hrow, rfl⟩)
    | scan hbefore =>
        exact howned.shrink (fun _ _ => holds_of_update (.inr (Control.held_reclaim _)))
          (Nat.le_refl _) (fun _ _ row _ hrow => ⟨row, hrow, rfl⟩)
    | @reclaim job rest hbefore hinput =>
        refine howned.shrink_write (.inr (Control.held_reclaim rest)) ?_
        intro other hother
        subst input
        simp only [ReclaimsUnheld, hbefore] at hreclaims
        exact hreclaims other (holds_of_update (.inr (Control.held_reclaim rest)) hother)
    | claim hbefore hrow hstatus => exact howned.claim hrow hstatus
    | @finish job now rest columns hjob _ _ _ =>
        refine howned.shrink_write (.inr (Control.held_drain _ _)) ?_
        intro other hother
        -- Its only holder was the worker that just wrote it back.
        have hworker : other = worker := howned.exclusive other worker job.id
          (holds_of_update (.inr (Control.held_drain _ _)) hother) ⟨job, hjob, rfl⟩
        rw [hworker, holds_update_self] at hother
        simp at hother

/-- A worker that waits for the answer to a hand-off of this job. -/
def Sends (system : System Worker) (worker : Worker) (id : Nat) : Prop :=
  ∃ handOff host hosts, system.control worker = .sendRaw handOff host hosts ∧ handOff.job.id = id

omit [DecidableEq Worker] in
/-- A worker hands over only a job it holds. -/
theorem Sends.holds (h : system.Sends worker id) : system.Holds worker id := by
  obtain ⟨handOff, host, hosts, hcontrol, hid⟩ := h
  exact ⟨handOff.job, by rw [hcontrol]; rfl, hid⟩

omit [DecidableEq Worker] in
/-- Nothing is owned while no worker holds anything. -/
theorem owned_of_free (hfree : ∀ worker, (system.control worker).held = none) : system.Owned := by
  have hnone : ∀ worker id, ¬ system.Holds worker id := by
    intro worker id h
    obtain ⟨job, hjob, -⟩ := h
    rw [hfree worker] at hjob
    cases hjob
  exact ⟨fun first _ id h _ => absurd h (hnone first id),
    fun worker id h => absurd h (hnone worker id),
    fun worker id _ h _ => absurd h (hnone worker id)⟩

/-- In every run of any number of workers, with any crashes, faults and other statements in
between, that never reclaims a held row, no two workers ever hold one job, so no job is handed to a
transport by two workers at once. -/
theorem exclusive_of_reclaimsUnheld (ctx : Worker → Context) {start finish : System Worker}
    {trace : List (Worker × Action)} (hfree : ∀ worker, (start.control worker).held = none)
    (hrun : Run (step ctx) ReclaimsUnheld start trace finish) :
    finish.Exclusive ∧ ∀ first second id, finish.Sends first id → finish.Sends second id →
      first = second := by
  have howned : finish.Owned := hrun.invariant Owned (owned_of_free hfree)
    (fun _ _ _ _ howned hreclaims h => howned.step hreclaims h)
  exact ⟨howned.exclusive, fun first second id hfirst hsecond =>
    howned.exclusive first second id hfirst.holds hsecond.holds⟩

end System

/-! ## Two workers -/

/-- The default worker parameters, with an address parser that takes every text as it is. -/
def defaultContext : Context where
  config := ⟨8, 60, 3600, ⟨.plain, none, false⟩, 25⟩
  var := fun _ => none
  parseAddress := .ok

/-- A message and a job that sends it. -/
def exampleMessage : MessageContent :=
  ⟨"a@x.io", [72, 105], none, none, none, none, [], [], []⟩
@[inherit_doc exampleMessage] def exampleJob : OutboundJob :=
  ⟨1, "b@y.io", "a@x.io", .queued, 0, none, none⟩

/-- A database with one queued job, and every worker waiting for its first tick. -/
def oneJob (Worker : Type) : System Worker where
  db := ((Statement.createOutbound exampleJob).execute none
    ((Statement.createMessage exampleMessage).execute none Db.empty).2).2
  control := fun _ => .idle

/-- The first worker claims the job and crashes, and the second reclaims its row and claims it. -/
def orphanTaken : List (Label Bool) :=
  [.worker false (.database true), .worker false (.queue 0 true), .worker false (.database true),
    .worker false .crash, .worker true (.database true), .worker true (.database true),
    .worker true (.queue 0 true), .worker true (.database true)]

/-- The row reclaimed in `orphanTaken` has no holder left, and its next holder is the only one. -/
theorem exclusive_orphanTaken : ∃ trace finish,
    Run (System.step (fun _ => defaultContext)) System.ReclaimsUnheld (oneJob Bool) trace finish ∧
      finish.Holds true 1 ∧ finish.Exclusive := by
  have hallowed : AllowedAlong (System.step (fun _ => defaultContext)) System.ReclaimsUnheld
      (oneJob Bool) orphanTaken := by
    refine ⟨trivial, trivial, trivial, trivial, trivial, ?_, trivial, trivial, trivial⟩
    rintro (_ | _) ⟨job, hheld, -⟩
    · cases hheld
    · cases hheld
  have hrun := execute_run_of_allowed (by rfl) hallowed
  exact ⟨_, _, hrun, ⟨_, rfl, rfl⟩,
    (System.exclusive_of_reclaimsUnheld (fun _ => defaultContext) (fun _ => rfl) hrun).1⟩

/-- The first worker ticks and claims the job. While it is about to deliver it, the second worker
ticks, reads the row as in progress, re-queues it and claims it too. -/
def twoHolders : List (Label Bool) :=
  [.worker false (.database true), .worker false (.queue 0 true), .worker false (.database true),
    .worker true (.database true), .worker true (.database true), .worker true (.queue 0 true),
    .worker true (.database true)]

/-- Without the condition ownership is not exclusive: after `twoHolders` both workers hold job 1. -/
theorem not_exclusive_twoHolders :
    ¬ ∀ (finish : System Bool) (trace : List (Bool × Action)),
      Run (System.step (fun _ => defaultContext)) (fun _ _ => True) (oneJob Bool) trace finish →
        finish.Exclusive := by
  intro h
  have hrun : ∃ trace finish,
      execute (System.step (fun _ => defaultContext)) (oneJob Bool) twoHolders =
        some (trace, finish) ∧ finish.Holds false 1 ∧ finish.Holds true 1 :=
    ⟨_, _, rfl, ⟨_, rfl, rfl⟩, ⟨_, rfl, rfl⟩⟩
  obtain ⟨trace, finish, hexecute, hfalse, htrue⟩ := hrun
  have := h finish trace (execute_run hexecute) false true 1 hfalse htrue
  cases this

end Zonemail
