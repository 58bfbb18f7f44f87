import Zonemail.Inbound.Session
import Zonemail.Outbound.Budget

/-!
# The rows of the queue

What a row of the job table looks like at each status, and how its status may change. Six writers
touch the row: the two producers, the claim, the reclaim, the delivered update and
`fail_or_requeue`. `RowChange` says what each of them does to a stored row, and
`System.rowChange_of_step` that one worker, among the statements of the other programs of the
daemon, does nothing else: the job it holds is the stored row, and the rows it reclaims are in
progress, whatever crashes and failures came before.
-/

namespace Zonemail

open Library

/-! ## Rows and their changes -/

/-- What a row looks like at its status, with this cap on the attempts. -/
def Outbound.Consistent (maxAttempts : Nat) (row : Outbound) : Prop :=
  match row.status with
  | .queued | .inProgress =>
      row.attempts ≤ maxAttempts ∧ (row.nextAttemptAt.isSome ↔ row.lastError.isSome) ∧
        (row.nextAttemptAt.isSome → 1 ≤ row.attempts)
  | .delivered =>
      1 ≤ row.attempts ∧ row.attempts ≤ maxAttempts + 1 ∧ row.nextAttemptAt = none ∧
        row.lastError = none
  | .failed =>
      row.attempts = maxAttempts + 1 ∧ row.nextAttemptAt = none ∧ row.lastError.isSome

/-- The changes of status in the life of a job. -/
inductive OutboundStatus.Changes : OutboundStatus → OutboundStatus → Prop where
  | claimed : Changes .queued .inProgress
  | requeued : Changes .inProgress .queued
  | delivered : Changes .inProgress .delivered
  | failed : Changes .inProgress .failed

/-- What a step may do to a stored row. -/
inductive RowChange (config : OutboundWorkerConfig) (row : Outbound) : Outbound → Prop where
  | same : RowChange config row row
  | claimed (hstatus : row.status = .queued) : RowChange config row (claimedColumns.apply row)
  | reclaimed (hstatus : row.status = .inProgress) :
      RowChange config row (reclaimedColumns.apply row)
  | delivered (hstatus : row.status = .inProgress) :
      RowChange config row ((deliveredColumns (row.attempts + 1)).apply row)
  | failedOrRequeued {now : Timestamp} {reason : String} {columns : OutboundColumns}
      (hstatus : row.status = .inProgress)
      (hcolumns : config.failOrRequeue row now reason = some columns) :
      RowChange config row (columns.apply row)

/-- A new job is a consistent row. -/
theorem consistent_newJob (maxAttempts messageId : Nat) (senderId rcptTo : String) (id : Nat) :
    Outbound.Consistent maxAttempts ⟨newJob messageId senderId rcptTo, id⟩ := by
  simp [Outbound.Consistent, newJob]

/-- The end of a failed cycle leaves a consistent row. -/
theorem consistent_failOrRequeue {config : OutboundWorkerConfig} {row : Outbound} {now : Timestamp}
    {reason : String} {columns : OutboundColumns} (hcap : row.attempts ≤ config.maxAttempts)
    (hcolumns : config.failOrRequeue row now reason = some columns) :
    (columns.apply row).Consistent config.maxAttempts := by
  simp only [OutboundWorkerConfig.failOrRequeue] at hcolumns
  split at hcolumns
  · rename_i hpast
    cases hcolumns
    simp only [Outbound.Consistent, OutboundColumns.apply, Option.getD_some, Option.isSome_some,
      and_true]
    omega
  · rename_i hwithin
    split at hcolumns
    · cases hcolumns
    · cases hcolumns
      simp only [Outbound.Consistent, OutboundColumns.apply, Option.getD_some, Option.isSome_some,
        true_and, forall_const]
      omega

/-- Every change keeps a row consistent. -/
theorem RowChange.consistent {config : OutboundWorkerConfig} {row later : Outbound}
    (h : RowChange config row later) (hrow : row.Consistent config.maxAttempts) :
    later.Consistent config.maxAttempts := by
  cases h with
  | same => exact hrow
  | claimed hstatus =>
      simp only [Outbound.Consistent, hstatus] at hrow
      exact hrow
  | reclaimed hstatus =>
      simp only [Outbound.Consistent, hstatus] at hrow
      simpa [Outbound.Consistent, OutboundColumns.apply, reclaimedColumns] using hrow.1
  | delivered hstatus =>
      simp only [Outbound.Consistent, hstatus] at hrow
      simpa [Outbound.Consistent, OutboundColumns.apply, deliveredColumns] using hrow.1
  | failedOrRequeued hstatus hcolumns =>
      simp only [Outbound.Consistent, hstatus] at hrow
      exact consistent_failOrRequeue hrow.1 hcolumns

/-- Every change leaves the status or moves it along the life of the job. -/
theorem RowChange.status {config : OutboundWorkerConfig} {row later : Outbound}
    (h : RowChange config row later) :
    later.status = row.status ∨ row.status.Changes later.status := by
  cases h with
  | same => exact .inl rfl
  | claimed hstatus =>
      rw [hstatus]
      exact .inr .claimed
  | reclaimed hstatus =>
      rw [hstatus]
      exact .inr .requeued
  | delivered hstatus =>
      rw [hstatus]
      exact .inr .delivered
  | failedOrRequeued hstatus hcolumns =>
      rw [hstatus, OutboundColumns.apply_status]
      rcases (OutboundWorkerConfig.failOrRequeue_cases hcolumns).2 with ⟨hfailed, -⟩ | ⟨hqueued, -⟩
      · rw [hfailed]
        exact .inr .failed
      · rw [hqueued]
        exact .inr .requeued

/-! ## What the programs of the daemon add -/

/-- A job found after a statement was found before it, or the statement created it. -/
theorem Statement.Change.outbound {statement : Statement} {db after : Db}
    (h : Change db statement after) {id : Nat} {row : Outbound}
    (hrow : after.outbounds.get? id = some row) :
    db.outbounds.get? id = some row ∨
      ∃ job, statement = .createOutbound job ∧ row = ⟨job, id⟩ ∧ db.outbounds.get? id = none := by
  cases h with
  | @createOutbound job =>
      rw [AutoTable.get?_push] at hrow
      by_cases hid : id = db.outbounds.next
      · rw [if_pos hid, Option.some.injEq] at hrow
        refine .inr ⟨job, rfl, by rw [← hrow, hid], ?_⟩
        cases hold : db.outbounds.get? id with
        | none => rfl
        | some old => exact absurd (AutoTable.lt_next_of_get? hold) (by omega)
      · rw [if_neg hid] at hrow
        exact .inl hrow
  | deleteOutboundsOfMessage | deleteMailbox => exact .inl (Table.get?_of_remove hrow)
  | deleteDomain =>
      unfold Db.removeDomain at hrow
      split at hrow
      · exact .inl hrow
      · exact .inl (Table.get?_of_remove hrow)
  | _ => exact .inl hrow

/-- The statement is one that some program of the daemon sends. -/
def Label.OfDaemon (parse : MessageParser) (lettre : Api.Lettre) : Label Unit → Prop
  | .worker _ _ => True
  | .request statement _ =>
      ∃ task : Task, (task.program parse lettre).MayPerform (.sql statement)

/-- A job found after a statement of the daemon was found before it, or is a new one. -/
theorem outbound_of_request {parse : MessageParser} {lettre : Api.Lettre} {statement : Statement}
    {fault : Statement.Fault} {db : Db} {id : Nat} {row : Outbound}
    (hdaemon : (Label.request statement fault).OfDaemon parse lettre)
    (hrow : (statement.execute fault db).2.outbounds.get? id = some row) :
    db.outbounds.get? id = some row ∨ db.outbounds.get? id = none ∧
      ∃ messageId senderId rcptTo, row = ⟨newJob messageId senderId rcptTo, id⟩ := by
  rcases statement.change_of_execute fault db with hsame | hchange
  · rw [hsame] at hrow
    exact .inl hrow
  · rcases hchange.outbound hrow with hold | ⟨job, rfl, rfl, hnone⟩
    · exact .inl hold
    · obtain ⟨task, hmay⟩ := hdaemon
      obtain ⟨messageId, senderId, rcptTo, rfl⟩ :=
        (Task.usual parse lettre task).of_mayPerform hmay
      exact .inr ⟨hnone, messageId, senderId, rcptTo, rfl⟩

/-! ## What one worker writes -/

namespace Control

variable {ctx : Context} {db next : Db} {before after : Control} {input : Input}
  {actions : List Action}

/-- The columns by which a cycle of the job ends. -/
def EndsCycle (config : OutboundWorkerConfig) (job : Outbound) (columns : OutboundColumns) : Prop :=
  columns = deliveredColumns (job.attempts + 1) ∨
    ∃ now reason, config.failOrRequeue job now reason = some columns

/-- A step inside `deliver_one` leaves the jobs as they are, or it is the last statement of the
cycle. -/
theorem write_cases {job : Outbound} (hheld : before.held = some job)
    (h : before.advance ctx db input = some (actions, after, next)) :
    next.outbounds = db.outbounds ∨
    (∃ delivery, before = .markDelivered delivery ∧
      next = db.updateOutbound delivery.job.id (deliveredColumns (delivery.job.attempts + 1))) ∨
    ∃ delivery reason columns, before = .failOrRequeue delivery reason ∧ input = .database true ∧
      ctx.config.failOrRequeue delivery.job delivery.now reason = some columns ∧
      next = db.updateOutbound delivery.job.id columns := by
  cases before with
  | markDelivered delivery =>
      cases input with
      | database ok =>
          cases h
          cases ok with
          | false => exact .inl rfl
          | true => exact .inr (.inl ⟨delivery, rfl, rfl⟩)
      | _ => cases h
  | failOrRequeue delivery reason =>
      cases input with
      | database ok =>
          simp only [advance] at h
          split at h
          · cases h
            exact .inl rfl
          · rename_i columns hcolumns
            cases h
            cases ok with
            | false => exact .inl rfl
            | true => exact .inr (.inr ⟨delivery, reason, columns, rfl, rfl, hcolumns, rfl⟩)
      | _ => cases h
  | deliverOne | lookupMxHosts | buildOutboundTls | sendRaw | recordAccepted | recordRefused =>
      -- Before its last statement a cycle writes at most to the audit trail.
      left
      unfold advance at h
      split at h <;> try contradiction
      all_goals
        first
          | cases h
            rfl
          | split at h <;> cases h <;> rfl
  | _ => cases hheld

/-- A step inside `deliver_one` leaves the jobs as they are or ends the cycle of the held one. -/
theorem write_of_held {job : Outbound} (hheld : before.held = some job)
    (h : before.advance ctx db input = some (actions, after, next)) :
    next.outbounds = db.outbounds ∨ ∃ columns, next = db.updateOutbound job.id columns ∧
      EndsCycle ctx.config job columns := by
  rcases write_cases hheld h with hsame | ⟨delivery, rfl, hwrite⟩ |
    ⟨delivery, reason, columns, rfl, -, hcolumns, hwrite⟩
  · exact .inl hsame
  · cases hheld
    exact .inr ⟨_, hwrite, .inl rfl⟩
  · cases hheld
    exact .inr ⟨columns, hwrite, .inr ⟨_, _, hcolumns⟩⟩

/-- The same for a worker that may also crash. -/
theorem write_of_next {job : Outbound} (hheld : before.held = some job)
    (h : before.next ctx db input = some (actions, after, next)) :
    next.outbounds = db.outbounds ∨ ∃ columns, next = db.updateOutbound job.id columns ∧
      EndsCycle ctx.config job columns := by
  rcases next_cases h with ⟨rfl, -⟩ | ⟨-, -, -, -, rfl⟩ | ⟨-, -, hadvance⟩
  · cases hheld
  · exact .inl rfl
  · exact write_of_held hheld hadvance

end Control

/-- The number of the job that an action is about. -/
def Action.jobId : Action → Nat
  | .claimed _ job => job.id
  | .sent id _ _ _ => id

namespace System

/-- The job that the worker holds is in progress and is its row as stored, unless that was
deleted. -/
structure HeldStored (system : System Unit) : Prop where
  inProgress : ∀ job, (system.control ()).held = some job → job.status = .inProgress
  known : ∀ job, (system.control ()).held = some job → job.id < system.db.outbounds.next
  stored : ∀ job, (system.control ()).held = some job → ∀ row,
    system.db.outbounds.get? job.id = some row → row = job

variable {ctx : Context} {system next : System Unit} {label : Label Unit} {id : Nat}
  {actions : List (Unit × Action)} {parse : MessageParser} {lettre : Api.Lettre}

/-- A worker that holds nothing holds no other row. -/
theorem heldStored_of_free (h : (system.control ()).held = none) : system.HeldStored := by
  constructor <;> simp [h]

/-- Every step keeps the held job the stored row. -/
theorem HeldStored.step (hheld : system.HeldStored)
    (h : system.step (fun _ => ctx) label = some (actions, next)) : next.HeldStored := by
  rcases step_cases h with ⟨statement, fault, rfl, rfl, rfl⟩ |
    ⟨⟨⟩, input, shown, after, db, rfl, hnext, rfl, rfl⟩
  · have hextends := statement.extends_execute fault system.db
    refine ⟨hheld.inProgress, ?_, ?_⟩
    · exact fun job hjob => Nat.lt_of_lt_of_le (hheld.known job hjob) hextends.next_le
    · exact fun job hjob row hrow => hheld.stored job hjob row
        (hextends.get?_of_lt (hheld.known job hjob) hrow)
  · cases Control.next_effect hnext with
    | quiet houtbounds hsame hrows hsent =>
        refine ⟨?_, ?_, ?_⟩
        · intro job hjob
          rw [moved_control_self, hsame] at hjob
          exact hheld.inProgress job hjob
        · intro job hjob
          rw [moved_control_self, hsame] at hjob
          rw [moved_db, houtbounds]
          exact hheld.known job hjob
        · intro job hjob row hrow
          rw [moved_control_self, hsame] at hjob
          rw [moved_db, houtbounds] at hrow
          exact hheld.stored job hjob row hrow
    | @claim now scanned row rest hbefore hrow hstatus =>
        have hid : row.id = scanned.id := Table.key_of_get? hrow
        refine ⟨?_, ?_, ?_⟩
        · intro job hjob
          rw [moved_control_self] at hjob
          cases hjob
          rfl
        · intro job hjob
          rw [moved_control_self] at hjob
          cases hjob
          show row.id < system.db.outbounds.next
          rw [hid]
          exact AutoTable.lt_next_of_get? hrow
        · intro job hjob stored hstored
          rw [moved_control_self] at hjob
          cases hjob
          rw [moved_db, Db.get?_updateOutbound, OutboundColumns.apply_id, if_pos hid, hrow,
            Option.map_some, Option.some.injEq] at hstored
          exact hstored.symm
    | stop => exact heldStored_of_free (by rw [moved_control_self]; rfl)
    | abandon | finish => exact heldStored_of_free (by rw [moved_control_self, Control.held_drain])
    | scan | reclaim =>
        exact heldStored_of_free (by rw [moved_control_self, Control.held_reclaim])

/-- A step of the worker changes a stored row as one of its writers does, and adds none. -/
theorem rowChange_of_worker {input : Input} {shown : List Action} {after : Control} {db : Db}
    (hready : system.ReclaimReady) (hheld : system.HeldStored)
    (h : (system.control ()).next ctx system.db input = some (shown, after, db)) {later : Outbound}
    (hlater : db.outbounds.get? id = some later) :
    ∃ row, system.db.outbounds.get? id = some row ∧ RowChange ctx.config row later := by
  have hsame (heq : db.outbounds = system.db.outbounds) :
      ∃ row, system.db.outbounds.get? id = some row ∧ RowChange ctx.config row later :=
    ⟨later, by rwa [heq] at hlater, .same⟩
  -- A write changes one row and leaves the others.
  have hwrite {written : Nat} {columns : OutboundColumns}
      (heq : db = system.db.updateOutbound written columns)
      (hchange : ∀ row, system.db.outbounds.get? written = some row →
        RowChange ctx.config row (columns.apply row)) :
      ∃ row, system.db.outbounds.get? id = some row ∧ RowChange ctx.config row later := by
    rw [heq, Db.get?_updateOutbound] at hlater
    by_cases hid : id = written
    · rw [if_pos hid, Option.map_eq_some_iff] at hlater
      obtain ⟨row, hrow, rfl⟩ := hlater
      exact ⟨row, hid ▸ hrow, hchange row hrow⟩
    · rw [if_neg hid] at hlater
      exact ⟨later, hlater, .same⟩
  cases hjob : (system.control ()).held with
  | some job =>
      rcases Control.write_of_next hjob h with heq | ⟨columns, heq, hends⟩
      · exact hsame heq
      · refine hwrite heq (fun row hrow => ?_)
        obtain rfl := hheld.stored job hjob row hrow
        rcases hends with rfl | ⟨now, reason, hcolumns⟩
        · exact .delivered (hheld.inProgress row hjob)
        · exact .failedOrRequeued (hheld.inProgress row hjob) hcolumns
  | none =>
      cases Control.next_effect h with
      | quiet houtbounds => exact hsame houtbounds
      | stop | scan => exact hsame rfl
      | abandon hholds | finish hholds =>
          rw [hjob] at hholds
          cases hholds
      | reclaim hbefore hinput =>
          refine hwrite rfl (fun row hrow => .reclaimed ?_)
          exact hready.inProgress _ (by simp [hbefore, Control.reclaimed]) row hrow
      | claim hbefore hrow hstatus =>
          refine hwrite rfl (fun row hstored => ?_)
          cases hrow.symm.trans hstored
          exact .claimed hstatus

/-- A step changes a stored row as one of its writers does, and adds only new jobs. -/
theorem rowChange_of_step (hready : system.ReclaimReady) (hheld : system.HeldStored)
    (hdaemon : label.OfDaemon parse lettre)
    (h : system.step (fun _ => ctx) label = some (actions, next)) {later : Outbound}
    (hlater : next.db.outbounds.get? id = some later) :
    (∃ row, system.db.outbounds.get? id = some row ∧ RowChange ctx.config row later) ∨
      system.db.outbounds.get? id = none ∧
        ∃ messageId senderId rcptTo, later = ⟨newJob messageId senderId rcptTo, id⟩ := by
  rcases step_cases h with ⟨statement, fault, rfl, rfl, rfl⟩ |
    ⟨⟨⟩, input, shown, after, db, rfl, hnext, rfl, rfl⟩
  · rcases outbound_of_request hdaemon hlater with hold | hnew
    · exact .inl ⟨later, hold, .same⟩
    · exact .inr hnew
  · exact .inl (rowChange_of_worker hready hheld hnext hlater)

/-- A step of the worker that has nothing to do with a job. -/
structure LeavesAlone (id : Nat) (system : System Unit) (shown : List Action) (after : Control)
    (db : Db) : Prop where
  number : system.db.outbounds.next = db.outbounds.next
  row : db.outbounds.get? id = system.db.outbounds.get? id
  unread : ∀ job ∈ after.reclaimed, job.id ≠ id
  unheld : ∀ job, after.held = some job → job.id ≠ id
  shown : ∀ action ∈ shown, action.jobId ≠ id

/-- A worker that neither holds a job nor has read it as in progress leaves it alone, or claims
it. -/
theorem free_cases {input : Input} {shown : List Action} {after : Control} {db : Db}
    (hfree : ¬ system.Holds () id) (hunread : ∀ job ∈ (system.control ()).reclaimed, job.id ≠ id)
    (hstatus : ∀ row, system.db.outbounds.get? id = some row → row.status ≠ .inProgress)
    (h : (system.control ()).next ctx system.db input = some (shown, after, db)) :
    system.LeavesAlone id shown after db ∨
    ∃ now scanned row rest, scanned.id = id ∧ system.control () = .drainOnce now scanned rest ∧
      system.db.outbounds.get? scanned.id = some row ∧
      shown = [.claimed now (claimedColumns.apply row)] ∧
      after = .deliverOne ⟨now, rest, claimedColumns.apply row⟩ ∧
      db = system.db.updateOutbound scanned.id claimedColumns := by
  have hunheld : ∀ job, (system.control ()).held = some job → job.id ≠ id :=
    fun job hjob hid => hfree ⟨job, hjob, hid⟩
  cases Control.next_effect h with
  | quiet houtbounds hheld hrows hsent =>
      refine .inl ⟨by rw [houtbounds], by rw [houtbounds],
        fun job hjob => hunread job (hrows.subset hjob), hheld ▸ hunheld, fun action haction => ?_⟩
      obtain ⟨job, dial, envelope, raw, hjob, rfl⟩ := hsent action haction
      exact hunheld job hjob
  | stop =>
      exact .inl ⟨rfl, rfl, fun _ hjob => (nomatch hjob), fun _ hjob => (nomatch hjob), by simp⟩
  | abandon hjob hreason => exact .inl ⟨rfl, rfl, by simp, by simp, by simp⟩
  | scan hbefore =>
      refine .inl ⟨rfl, rfl, fun job hjob hid => ?_, by simp, by simp⟩
      rw [Control.reclaimed_reclaim] at hjob
      obtain ⟨hmem, hprogress⟩ := List.mem_filter.mp hjob
      exact hstatus job (hid ▸ Table.get?_of_mem hmem) (of_decide_eq_true hprogress)
  | @reclaim job rest hbefore hinput =>
      rw [hbefore] at hunread
      refine .inl ⟨rfl, ?_, ?_, by simp, by simp⟩
      · rw [Db.get?_updateOutbound, if_neg (hunread job List.mem_cons_self).symm]
      · rw [Control.reclaimed_reclaim]
        exact fun other hother => hunread other (.tail _ hother)
  | @claim now scanned row rest hbefore hrow hqueued =>
      by_cases hid : scanned.id = id
      · exact .inr ⟨now, scanned, row, rest, hid, hbefore, hrow, rfl, rfl, rfl⟩
      · have hne : (claimedColumns.apply row).id ≠ id := by
          rwa [OutboundColumns.apply_id, Table.key_of_get? hrow]
        refine .inl ⟨rfl, ?_, fun _ hjob => (nomatch hjob), ?_, ?_⟩
        · rw [Db.get?_updateOutbound, if_neg (Ne.symm hid)]
        · intro job h
          cases h
          exact hne
        · intro action haction
          rw [List.mem_singleton.mp haction]
          exact hne
  | @finish job now rest columns hjob _ _ _ =>
      refine .inl ⟨rfl, ?_, by simp, by simp, by simp⟩
      rw [Db.get?_updateOutbound, if_neg (hunheld job hjob).symm]

/-- In every run of one worker from its start, with crashes, database failures and statements of
the other programs of the daemon at any point: every job has a consistent row, and every further
step leaves the status of a row or moves it along the life of the job. -/
theorem consistent_of_run (ctx : Context) (parse : MessageParser) (lettre : Api.Lettre)
    {start finish : System Unit} {trace : List (Unit × Action)}
    (hstart : start.control () = .idle)
    (hrows : ∀ row ∈ start.db.outbounds.rows, row.Consistent ctx.config.maxAttempts)
    (hrun : Run (step (fun _ => ctx)) (fun _ label => label.OfDaemon parse lettre) start trace
      finish) :
    (∀ row ∈ finish.db.outbounds.rows, row.Consistent ctx.config.maxAttempts) ∧
      ∀ label actions next, label.OfDaemon parse lettre →
        finish.step (fun _ => ctx) label = some (actions, next) →
        ∀ id row later, finish.db.outbounds.get? id = some row →
          next.db.outbounds.get? id = some later →
          later.status = row.status ∨ row.status.Changes later.status := by
  have hinvariant := hrun.invariant
    (fun system => system.ReclaimReady ∧ system.HeldStored ∧
      ∀ row ∈ system.db.outbounds.rows, row.Consistent ctx.config.maxAttempts)
    ⟨reclaimReady_of_nil (by rw [hstart]; rfl), heldStored_of_free (by rw [hstart]; rfl), hrows⟩
    (fun system label actions next hold hdaemon h => by
      obtain ⟨hready, hheld, hrows⟩ := hold
      refine ⟨hready.step h, hheld.step h, fun later hlater => ?_⟩
      rcases rowChange_of_step hready hheld hdaemon h (Table.get?_of_mem hlater) with
        ⟨row, hrow, hchange⟩ | ⟨-, messageId, senderId, rcptTo, hnew⟩
      · exact hchange.consistent (hrows row (Table.mem_of_get? hrow))
      · rw [hnew]
        exact consistent_newJob _ _ _ _ _)
  obtain ⟨hready, hheld, hconsistent⟩ := hinvariant
  refine ⟨hconsistent, fun label actions next hdaemon h id row later hrow hlater => ?_⟩
  rcases rowChange_of_step hready hheld hdaemon h hlater with ⟨stored, hstored, hchange⟩ |
    ⟨hnone, -⟩
  · cases hstored.symm.trans hrow
    exact hchange.status
  · rw [hnone] at hrow
    cases hrow

end System

/-- A mail library that takes every text for an address. -/
def plainLettre : Api.Lettre where
  parseMailbox text := .ok ⟨none, text⟩
  parseContentType text := .ok text
  build draft := .ok ⟨some draft.sender.email, []⟩

/-- The request to send an empty message. -/
def sendRequest : Task :=
  .request (.sendEmail (some ⟨"a@x.io", ["b@y.io"], [], [], none, "", none⟩))

/-- A message is sent, the host refuses it, and the worker crashes in its next cycle and starts
again. -/
def sentAndCrashed : List (Label Unit) :=
  [.request (.createMessage (sentContent (fun _ => none) ⟨some "a@x.io", []⟩)) none,
    .request (.createOutbound (newJob 1 "a@x.io" "b@y.io")) none] ++ refusedOnce ++
    [.worker () .crash, .worker () .restart, .worker () (.database true)]

/-- After `sentAndCrashed` the job is in progress at attempt 1, as its row has to be. -/
theorem consistent_sentAndCrashed : ∃ trace finish row,
    Run oneWorker (fun _ label => label.OfDaemon (fun _ => none) plainLettre)
      ⟨Db.empty, fun _ => .idle⟩ trace finish ∧
      finish.db.outbounds.get? 1 = some row ∧ row.status = .inProgress ∧ row.attempts = 1 ∧
      row.Consistent defaultContext.config.maxAttempts := by
  obtain ⟨trace, finish, row, hexecute, hdaemon, hrow, hstatus, hattempts⟩ : ∃ trace finish row,
      execute oneWorker ⟨Db.empty, fun _ => .idle⟩ sentAndCrashed = some (trace, finish) ∧
      AllowedAlong oneWorker (fun _ label => label.OfDaemon (fun _ => none) plainLettre)
        ⟨Db.empty, fun _ => .idle⟩ sentAndCrashed ∧
      finish.db.outbounds.get? 1 = some row ∧ row.status = .inProgress ∧ row.attempts = 1 := by
    refine ⟨_, _, _, rfl, ?_, rfl, rfl, rfl⟩
    refine ⟨⟨sendRequest, .later (.ok ⟨"a@x.io", "x.io", none⟩) .here⟩,
      ⟨sendRequest, .later (.ok ⟨"a@x.io", "x.io", none⟩)
        (.later (.ok ⟨sentContent (fun _ => none) ⟨some "a@x.io", []⟩, 1⟩) .here)⟩, ?_⟩
    repeat' constructor
  have hrun := execute_run_of_allowed hexecute hdaemon
  have hconsistent := System.consistent_of_run defaultContext (fun _ => none) plainLettre rfl
    (fun row hrow => absurd hrow List.not_mem_nil) hrun
  exact ⟨trace, finish, row, hrun, hrow, hstatus, hattempts,
    hconsistent.1 row (Table.mem_of_get? hrow)⟩

end Zonemail
