import Zonemail.Installation.Machine
import Zonemail.Outbound.Cycle

/-!
# What becomes of a job

With several workers a stale read may put a job back that a peer holds or has settled, so a job may
be sent twice. What no interleaving, crash or failed statement can do is lose a job or settle it
without cause. `Records` is the invariant: a row of the audit trail repeats a host's answer to a
hand-off, a delivered job was accepted by a host, and a job that was given up had more cycles
written back than the cap allows. `accounted_of_run` adds that a job leaves the table only with its
message or its sender.
-/

namespace Zonemail

open Library

variable {Worker Thread : Type}

/-! ## Looking things up in a trace -/

section Trace

variable (ctx : Worker → Context) (trace : List (Happening Worker Thread))

/-- The worker has handed the job's message to a connection with this host. -/
def Offered (worker : Worker) (id : Nat) (host : String) : Prop :=
  ∃ turn tls envelope raw, Sum.inr turn ∈ trace ∧ turn.worker = worker ∧
    .sent id ((ctx worker).dial host tls) envelope raw ∈ turn.actions

/-- The host has answered a hand-off of the job, which the same worker had made before. -/
def Answered (id : Nat) (host : String) (reply : Except String String) : Prop :=
  ∃ earlier turn later handOff hosts, trace = earlier ++ .inr turn :: later ∧
    turn.before = .sendRaw handOff host hosts ∧ turn.input = .reply reply ∧
    handOff.job.id = id ∧ Offered ctx earlier turn.worker id host

/-- Some host has accepted the job's message. -/
def Accepted (id : Nat) : Prop := ∃ host response, Answered ctx trace id host (.ok response)

/-- The step ends a cycle of the job by writing the row back with its cycle counted. -/
def Turn.writesBack (id : Nat) (turn : Turn Worker) : Bool :=
  match turn.before, turn.input with
  | .markDelivered delivery, .database true => delivery.job.id = id
  | .failOrRequeue delivery reason, .database true =>
      delivery.job.id = id ∧
        ((ctx turn.worker).config.failOrRequeue delivery.job delivery.now reason).isSome
  | _, _ => false

/-- How many cycles of the job were written back. -/
def writtenBack (id : Nat) : Nat :=
  trace.countP (fun event => event.elim (fun _ => false) (Turn.writesBack ctx id))

variable {ctx trace}

theorem Offered.append {worker : Worker} {id : Nat} {host : String}
    (h : Offered ctx trace worker id host) (later : List (Happening Worker Thread)) :
    Offered ctx (trace ++ later) worker id host := by
  obtain ⟨turn, tls, envelope, raw, hmem, hworker, hsent⟩ := h
  exact ⟨turn, tls, envelope, raw, List.mem_append_left _ hmem, hworker, hsent⟩

theorem Answered.append {id : Nat} {host : String} {reply : Except String String}
    (h : Answered ctx trace id host reply) (later : List (Happening Worker Thread)) :
    Answered ctx (trace ++ later) id host reply := by
  obtain ⟨earlier, turn, rest, handOff, hosts, rfl, hbefore, hinput, hid, hoffered⟩ := h
  exact ⟨earlier, turn, rest ++ later, handOff, hosts, by simp, hbefore, hinput, hid, hoffered⟩

theorem Accepted.append {id : Nat} (h : Accepted ctx trace id)
    (later : List (Happening Worker Thread)) : Accepted ctx (trace ++ later) id := by
  obtain ⟨host, response, hanswered⟩ := h
  exact ⟨host, response, hanswered.append later⟩

theorem writtenBack_append (id : Nat) (later : List (Happening Worker Thread)) :
    writtenBack ctx (trace ++ later) id = writtenBack ctx trace id + writtenBack ctx later id :=
  List.countP_append

theorem writtenBack_le (id : Nat) (later : List (Happening Worker Thread)) :
    writtenBack ctx trace id ≤ writtenBack ctx (trace ++ later) id := by
  rw [writtenBack_append]
  exact Nat.le_add_right _ _

/-- A step that writes a job back counts one more cycle of it. -/
theorem writtenBack_snoc {id : Nat} {turn : Turn Worker} (h : turn.writesBack ctx id = true) :
    writtenBack ctx (trace ++ [.inr turn]) id = writtenBack ctx trace id + 1 := by
  rw [writtenBack_append]
  simp [writtenBack, h]

end Trace

/-! ## What a worker has in hand -/

section Hands

variable {ctx : Worker → Context} {trace : List (Happening Worker Thread)} {worker : Worker}

/-- What a worker is about to record did happen. -/
def Control.Backed (ctx : Worker → Context) (trace : List (Happening Worker Thread))
    (worker : Worker) : Control → Prop
  | .sendRaw handOff host _ => Offered ctx trace worker handOff.job.id host
  | .recordAccepted handOff host response => Answered ctx trace handOff.job.id host (.ok response)
  | .recordRefused handOff host error _ => Answered ctx trace handOff.job.id host (.error error)
  | .markDelivered delivery => Accepted ctx trace delivery.job.id
  | _ => True

theorem Control.Backed.append {control : Control} (h : control.Backed ctx trace worker)
    (later : List (Happening Worker Thread)) : control.Backed ctx (trace ++ later) worker := by
  cases control with
  | sendRaw => exact Offered.append h later
  | recordAccepted | recordRefused => exact Answered.append h later
  | markDelivered => exact Accepted.append h later
  | _ => trivial

/-- A worker without a job has nothing to record. -/
theorem Control.backed_of_free {control : Control} (h : control.held = none) :
    control.Backed ctx trace worker := by
  cases control with
  | sendRaw | recordAccepted | recordRefused | markDelivered => cases h
  | _ => trivial

theorem Control.backed_deliverHosts (handOff : HandOff) (lastError : Option String)
    (hosts : List String) : (deliverHosts handOff lastError hosts).Backed ctx trace worker := by
  cases hosts <;> trivial

theorem Control.backed_offer (handOff : HandOff) (targets : List String) :
    (offer handOff targets).Backed ctx trace worker := by
  cases targets <;> trivial

end Hands

/-! ## The invariant -/

section Rows

variable {ctx : Worker → Context} {trace : List (Happening Worker Thread)}

/-- A row of the audit trail repeats a host's answer to a hand-off of its job. -/
def DeliveryStatus.Reported (ctx : Worker → Context) (trace : List (Happening Worker Thread))
    (row : DeliveryStatus) : Prop :=
  ∃ reply, Answered ctx trace row.outboundId row.peerHost reply ∧
    (row.code, row.message) = (Attempt.mk row.peerHost reply).audit

/-- A job's row says of its cycles no more than has happened. -/
structure Outbound.Recorded (ctx : Worker → Context) (trace : List (Happening Worker Thread))
    (row : Outbound) : Prop where
  counted : row.attempts ≤ writtenBack ctx trace row.id
  delivered : row.status = .delivered → Accepted ctx trace row.id
  givenUp : row.status = .failed →
    row.lastError.isSome ∧ ∃ worker, (ctx worker).config.maxAttempts < row.attempts

theorem DeliveryStatus.Reported.append {row : DeliveryStatus} (h : row.Reported ctx trace)
    (later : List (Happening Worker Thread)) : row.Reported ctx (trace ++ later) := by
  obtain ⟨reply, hanswered, hrow⟩ := h
  exact ⟨reply, hanswered.append later, hrow⟩

theorem Outbound.Recorded.append {row : Outbound} (h : row.Recorded ctx trace)
    (later : List (Happening Worker Thread)) : row.Recorded ctx (trace ++ later) where
  counted := h.counted.trans (writtenBack_le _ _)
  delivered := fun hstatus => (h.delivered hstatus).append later
  givenUp := h.givenUp

/-- A new job has had no cycle. -/
theorem recorded_newJob (messageId : Nat) (senderId rcptTo : String) (id : Nat) :
    (Outbound.mk (newJob messageId senderId rcptTo) id).Recorded ctx trace where
  counted := Nat.zero_le _
  delivered := fun h => by cases h
  givenUp := fun h => by cases h

/-- A write that leaves the job open and its cycles as they are. -/
theorem Outbound.Recorded.apply {row : Outbound} (h : row.Recorded ctx trace)
    {columns : OutboundColumns} (hattempts : columns.attempts = none)
    (hopen : columns.status = .queued ∨ columns.status = .inProgress) :
    (columns.apply row).Recorded ctx trace where
  counted := by
    rw [OutboundColumns.apply_attempts, hattempts]
    exact h.counted
  delivered := fun hstatus => by
    rw [OutboundColumns.apply_status] at hstatus
    rcases hopen with hopen | hopen <;> cases hopen.symm.trans hstatus
  givenUp := fun hstatus => by
    rw [OutboundColumns.apply_status] at hstatus
    rcases hopen with hopen | hopen <;> cases hopen.symm.trans hstatus

end Rows

/-- The end of a failed cycle says why it failed. -/
theorem OutboundWorkerConfig.lastError_of_failOrRequeue {config : OutboundWorkerConfig}
    {job : Outbound} {now : Timestamp} {reason : String} {columns : OutboundColumns}
    (h : config.failOrRequeue job now reason = some columns) :
    columns.lastError = some (some reason) := by
  simp only [failOrRequeue] at h
  split at h
  · cases h
    rfl
  · split at h
    · cases h
    · cases h
      rfl

/-- What stands in the database and in the hands of the workers happened. -/
structure Records (ctx : Worker → Context) (trace : List (Happening Worker Thread))
    (system : System Worker) : Prop where
  audit : ∀ row ∈ system.db.deliveryStatuses.rows, row.Reported ctx trace
  rows : ∀ id row, system.db.outbounds.get? id = some row → row.Recorded ctx trace
  held : ∀ worker job, (system.control worker).held = some job →
    job.attempts ≤ writtenBack ctx trace job.id
  backed : ∀ worker, (system.control worker).Backed ctx trace worker

/-- No statement of a task adds to the audit trail. -/
theorem Statement.Change.deliveryStatus {statement : Statement} {db after : Db}
    (h : Change db statement after) {row : DeliveryStatus}
    (hrow : row ∈ after.deliveryStatuses.rows) : row ∈ db.deliveryStatuses.rows := by
  cases h with
  | deleteOutboundsOfMessage | deleteMailbox => exact List.mem_of_mem_filter hrow
  | deleteDomain =>
      unfold Db.removeDomain at hrow
      split at hrow
      · exact hrow
      · exact List.mem_of_mem_filter hrow
  | _ => exact hrow

namespace Records

variable {ctx : Worker → Context} {trace : List (Happening Worker Thread)} {system : System Worker}
  {worker : Worker} {after : Control} {db : Db} {event : Happening Worker Thread}

theorem start :
    Records ctx ([] : List (Happening Worker Thread)) ⟨Db.empty, fun _ => .stopped⟩ where
  audit := fun row h => by cases h
  rows := fun id row h => by cases h
  held := fun worker job h => by cases h
  backed := fun worker => trivial

/-- An effect of a thread adds new jobs and may delete rows. -/
theorem perform (h : Records ctx trace system) {entries : List MailboxEntry} {effect : Effect}
    (heffect : UsualEffect entries effect) (fault : Statement.Fault)
    (event : Happening Worker Thread) :
    Records ctx (trace ++ [event]) { system with db := (effect.execute fault system.db).2 } := by
  have hbefore : Records ctx (trace ++ [event]) system :=
    ⟨fun row hrow => (h.audit row hrow).append _, fun id row hrow => (h.rows id row hrow).append _,
      fun worker job hjob => (h.held worker job hjob).trans (writtenBack_le _ _),
      fun worker => (h.backed worker).append _⟩
  cases effect with
  | reply command accepted => exact hbefore
  | sql statement =>
      rcases statement.change_of_execute fault system.db with hsame | hchange
      · rw [Effect.execute, hsame]
        exact hbefore
      · refine ⟨fun row hrow => hbefore.audit row (hchange.deliveryStatus hrow),
          fun id row hrow => ?_, hbefore.held, hbefore.backed⟩
        rcases hchange.outbound hrow with hold | ⟨job, rfl, rfl, -⟩
        · exact hbefore.rows id row hold
        · obtain ⟨messageId, senderId, rcptTo, rfl⟩ := heffect
          exact recorded_newJob messageId senderId rcptTo id

variable [DecidableEq Worker]

/-- A step of a worker that accounts for the rows it writes and for what it goes on with. -/
theorem moved (h : Records ctx trace system)
    (haudit : ∀ row ∈ db.deliveryStatuses.rows, row ∈ system.db.deliveryStatuses.rows ∨
      row.Reported ctx (trace ++ [event]))
    (hrows : ∀ id row, db.outbounds.get? id = some row →
      system.db.outbounds.get? id = some row ∨ row.Recorded ctx (trace ++ [event]))
    (hheld : ∀ job, after.held = some job →
      job.attempts ≤ writtenBack ctx (trace ++ [event]) job.id)
    (hbacked : after.Backed ctx (trace ++ [event]) worker) :
    Records ctx (trace ++ [event]) (system.moved worker after db) := by
  refine ⟨fun row hrow => ?_, fun id row hrow => ?_, fun other job hjob => ?_, fun other => ?_⟩
  · rcases haudit row hrow with hold | hnew
    · exact (h.audit row hold).append _
    · exact hnew
  · rcases hrows id row hrow with hold | hnew
    · exact (h.rows id row hold).append _
    · exact hnew
  · by_cases hother : other = worker
    · subst other
      rw [System.moved_control_self] at hjob
      exact hheld job hjob
    · rw [System.moved_control_of_ne _ hother] at hjob
      exact (h.held other job hjob).trans (writtenBack_le _ _)
  · by_cases hother : other = worker
    · subst other
      rw [System.moved_control_self]
      exact hbacked
    · rw [System.moved_control_of_ne _ hother]
      exact (h.backed other).append _

/-- A step that writes one row of the job table. -/
theorem moved_update (h : Records ctx trace system) {id : Nat} {columns : OutboundColumns}
    (hrow : ∀ row, system.db.outbounds.get? id = some row →
      (columns.apply row).Recorded ctx (trace ++ [event]))
    (hheld : ∀ job, after.held = some job →
      job.attempts ≤ writtenBack ctx (trace ++ [event]) job.id)
    (hbacked : after.Backed ctx (trace ++ [event]) worker) :
    Records ctx (trace ++ [event])
      (system.moved worker after (system.db.updateOutbound id columns)) := by
  refine h.moved (fun row hrow => .inl hrow) (fun other row hget => ?_) hheld hbacked
  rw [Db.get?_updateOutbound] at hget
  split at hget
  · obtain ⟨old, hold, rfl⟩ := Option.map_eq_some_iff.mp hget
    exact .inr (hrow old hold)
  · exact .inl hget

/-- A step that adds a row to the audit trail. -/
theorem moved_record (h : Records ctx trace system) {id : Nat} {host : String}
    {reply : Except String String}
    (hanswered : Answered ctx (trace ++ [event]) id host reply)
    (hheld : ∀ job, after.held = some job →
      job.attempts ≤ writtenBack ctx (trace ++ [event]) job.id)
    (hbacked : after.Backed ctx (trace ++ [event]) worker) :
    Records ctx (trace ++ [event]) (system.moved worker after
      (system.db.recordDelivery id host (Attempt.mk host reply).audit.1
        (Attempt.mk host reply).audit.2)) := by
  refine h.moved (fun row hrow => ?_) (fun _ _ hrow => .inl hrow) hheld hbacked
  rcases List.mem_append.mp hrow with hold | hnew
  · exact .inl hold
  · obtain rfl := List.mem_singleton.mp hnew
    exact .inr ⟨reply, hanswered, rfl⟩

/-- A step that writes the job of a worker back with its cycle counted. -/
theorem moved_finish (h : Records ctx trace system) {turn : Turn Worker} {delivery : Delivery}
    {columns : OutboundColumns} (hwrites : turn.writesBack ctx delivery.job.id = true)
    (hheld : delivery.job.attempts ≤ writtenBack ctx trace delivery.job.id)
    (hattempts : columns.attempts = some (delivery.job.attempts + 1))
    (hdelivered : columns.status = .delivered → Accepted ctx trace delivery.job.id)
    (hfailed : columns.status = .failed → (∃ reason, columns.lastError = some (some reason)) ∧
      ∃ worker, (ctx worker).config.maxAttempts < delivery.job.attempts + 1) :
    Records ctx (trace ++ [.inr turn]) (system.moved worker (Control.resume delivery)
      (system.db.updateOutbound delivery.job.id columns)) := by
  refine h.moved_update (fun row hrow => ?_) ?_ (Control.backed_of_free (Control.held_drain _ _))
  · have hid : row.id = delivery.job.id := Table.key_of_get? hrow
    refine ⟨?_, ?_, ?_⟩
    · rw [OutboundColumns.apply_attempts, OutboundColumns.apply_id, hattempts, hid,
        writtenBack_snoc hwrites]
      exact Nat.succ_le_succ hheld
    · rw [OutboundColumns.apply_status, OutboundColumns.apply_id, hid]
      exact fun hstatus => (hdelivered hstatus).append _
    · rw [OutboundColumns.apply_status, OutboundColumns.apply_attempts, hattempts]
      intro hstatus
      obtain ⟨⟨reason, hreason⟩, hcap⟩ := hfailed hstatus
      refine ⟨?_, hcap⟩
      simp [OutboundColumns.apply, hreason]
  · show ∀ job, (Control.drain delivery.now delivery.rest).held = some job → _
    rw [Control.held_drain]
    exact fun job hjob => by cases hjob

/-- Every move of a worker accounts for what it writes. -/
theorem move (h : Records ctx trace system) {input : Input} {actions : List Action}
    (hmove : (system.control worker).Move (ctx worker) system.db input actions after db) :
    Records ctx (trace ++ [.inr ⟨worker, system.control worker, input, actions⟩])
      (system.moved worker after db) := by
  have hkept : ∀ job, (system.control worker).held = some job → job.attempts ≤ writtenBack ctx
      (trace ++ [.inr ⟨worker, system.control worker, input, actions⟩]) job.id :=
    fun job hjob => (h.held worker job hjob).trans (writtenBack_le _ _)
  have hbacked := h.backed worker
  generalize hbefore : system.control worker = before at hmove hkept hbacked
  cases hmove with
  | release hfree =>
      refine h.moved (fun _ hrow => .inl hrow) (fun _ _ hrow => .inl hrow) ?_
        (Control.backed_of_free hfree)
      rw [hfree]
      exact fun job hjob => by cases hjob
  | reclaim =>
      refine h.moved_update (fun row hrow => ?_) ?_
        (Control.backed_of_free (Control.held_reclaim _))
      · exact ((h.rows _ row hrow).append _).apply rfl (.inl rfl)
      · rw [Control.held_reclaim]
        exact fun job hjob => by cases hjob
  | @claim now scanned row rest hrow hstatus =>
      have hrecorded := (h.rows _ row hrow).append
        [.inr ⟨worker, .drainOnce now scanned rest, .database true,
          [.claimed now (claimedColumns.apply row)]⟩]
      refine h.moved_update (fun other hother => ?_) (fun job hjob => ?_) trivial
      · obtain rfl := Option.some.inj (hrow.symm.trans hother)
        exact hrecorded.apply rfl (.inr rfl)
      · cases hjob
        exact hrecorded.counted
  | load hmessage henvelope =>
      exact h.moved (fun _ hrow => .inl hrow) (fun _ _ hrow => .inl hrow) hkept trivial
  | target htargets =>
      refine h.moved (fun _ hrow => .inl hrow) (fun _ _ hrow => .inl hrow) ?_
        (Control.backed_offer _ _)
      rw [Control.held_offer]
      exact hkept
  | @send handOff host hosts built tls htls =>
      refine h.moved (fun _ hrow => .inl hrow) (fun _ _ hrow => .inl hrow) hkept ?_
      exact ⟨_, tls, handOff.envelope, handOff.message.raw, List.mem_append_right _
        (List.mem_singleton_self _), rfl, List.mem_singleton_self _⟩
  | accept | refuse =>
      -- The worker waits at the host it has handed the message to.
      refine h.moved (fun _ hrow => .inl hrow) (fun _ _ hrow => .inl hrow) hkept ?_
      exact ⟨trace, _, [], _, _, rfl, rfl, rfl, rfl, hbacked⟩
  | recordAccepted =>
      have hanswered := Answered.append hbacked
      exact h.moved_record (hanswered _) hkept ⟨_, _, hanswered _⟩
  | recordRefused =>
      have hanswered := Answered.append hbacked
      refine h.moved_record (hanswered _) ?_ (Control.backed_deliverHosts _ _ _)
      rw [Control.held_deliverHosts]
      exact hkept
  | @markDelivered delivery =>
      refine h.moved_finish (by simp [Turn.writesBack]) ((h.held worker _ (by rw [hbefore]; rfl)))
        rfl (fun _ => hbacked) (fun hstatus => by cases hstatus)
  | @failOrRequeue delivery reason columns hcolumns =>
      obtain ⟨hattempts, hstatus⟩ := OutboundWorkerConfig.failOrRequeue_cases hcolumns
      refine h.moved_finish (by simp [Turn.writesBack, hcolumns])
        ((h.held worker _ (by rw [hbefore]; rfl))) hattempts ?_ ?_
      · rcases hstatus with ⟨hfailed, -⟩ | ⟨hqueued, -⟩
        · exact fun hstatus => by cases hfailed.symm.trans hstatus
        · exact fun hstatus => by cases hqueued.symm.trans hstatus
      · rcases hstatus with ⟨-, hcap⟩ | ⟨hqueued, -⟩
        · exact fun _ => ⟨⟨reason, OutboundWorkerConfig.lastError_of_failOrRequeue hcolumns⟩,
            worker, hcap⟩
        · exact fun hstatus => by cases hqueued.symm.trans hstatus

end Records

/-! ## What becomes of a row -/

variable {ctx : Worker → Context} {trace : List (Happening Worker Thread)}

/-- The effect deletes the job: with its message, with the mailbox that sent it, or with the domain
of that mailbox. -/
def Removes (job : OutboundJob) (moment : Moment Thread Effect Answer (System Worker)) : Prop :=
  match moment.effect with
  | .sql (.deleteOutboundsOfMessage messageId) => messageId = job.messageId
  | .sql (.deleteMailbox id) => id = job.senderId
  | .sql (.deleteDomain id) =>
      ∃ mailbox, moment.before.db.mailboxes.get? job.senderId = some mailbox ∧
        mailbox.domainId = id
  | _ => False

/-- What a row says of the fate of its job: it is still to be tried, some host accepted it, or it
was given up after more cycles than the cap allows, with a reason. -/
inductive Fate (ctx : Worker → Context) (trace : List (Happening Worker Thread))
    (row : Outbound) : Prop where
  | pending (hstatus : row.status = .queued ∨ row.status = .inProgress)
  | delivered (hstatus : row.status = .delivered) (haccepted : Accepted ctx trace row.id)
  | failed {worker : Worker} (hstatus : row.status = .failed) (herror : row.lastError.isSome)
      (hcycles : (ctx worker).config.maxAttempts < writtenBack ctx trace row.id)

/-- The row of a job whose cycles are recorded tells its fate. -/
theorem Outbound.Recorded.fate {row : Outbound} (h : row.Recorded ctx trace) :
    Fate ctx trace row := by
  cases hstatus : row.status with
  | queued => exact .pending (.inl hstatus)
  | inProgress => exact .pending (.inr hstatus)
  | delivered => exact .delivered hstatus (h.delivered hstatus)
  | failed =>
      obtain ⟨herror, worker, hcap⟩ := h.givenUp hstatus
      exact .failed hstatus herror (hcap.trans_le h.counted)

/-- The row is that of the job, whatever its cycles have made of it. -/
def Outbound.IsOf (row : Outbound) (job : OutboundJob) : Prop :=
  row.messageId = job.messageId ∧ row.rcptTo = job.rcptTo ∧ row.senderId = job.senderId

/-- A deletion of mailboxes keeps the jobs of the other senders. -/
theorem Db.get?_removeMailboxes {db : Db} {condition : Mailbox → Bool} {id : Nat} {row : Outbound}
    (h : db.outbounds.get? id = some row) :
    (db.removeMailboxes condition).outbounds.get? id = some row ∨
      ∃ mailbox ∈ db.mailboxes.rows, condition mailbox = true ∧ mailbox.id = row.senderId := by
  by_cases hsender : row.senderId ∈ (db.mailboxes.select condition).map Mailbox.id
  · obtain ⟨mailbox, hmailbox, hid⟩ := List.mem_map.mp hsender
    obtain ⟨hmem, hcondition⟩ := List.mem_filter.mp hmailbox
    exact .inr ⟨mailbox, hmem, hcondition, hid⟩
  · exact .inl (Table.get?_remove_of_not h (by simpa using hsender))

/-- A statement keeps the row of a job unless it deletes the job. -/
theorem Statement.Change.keeps {statement : Statement} {system : System Worker} {after : Db}
    {answer : Except DbError statement.Value} {thread : Thread} {job : OutboundJob} {id : Nat}
    {row : Outbound} (h : Change system.db statement after)
    (hrow : system.db.outbounds.get? id = some row) (hjob : row.IsOf job) :
    Removes job ⟨thread, .sql statement, answer, system⟩ ∨
      after.outbounds.get? id = some row := by
  cases h with
  | @deleteOutboundsOfMessage messageId =>
      by_cases hmessage : row.messageId = messageId
      · exact .inl (hmessage.symm.trans hjob.1)
      · exact .inr (Table.get?_remove_of_not hrow (by simpa using hmessage))
  | @deleteMailbox mailboxId =>
      rcases Db.get?_removeMailboxes hrow with hkept | ⟨mailbox, -, hcondition, hsender⟩
      · exact .inr hkept
      · have hid : mailbox.id = mailboxId := by simpa using hcondition
        exact .inl (hid.symm.trans (hsender.trans hjob.2.2))
  | @deleteDomain domainId =>
      unfold Db.removeDomain
      split
      · exact .inr hrow
      · rcases Db.get?_removeMailboxes hrow with hkept | ⟨mailbox, hmem, hcondition, hsender⟩
        · exact .inr hkept
        · refine .inl ⟨mailbox, ?_, by simpa using hcondition⟩
          rw [← hjob.2.2, ← hsender]
          exact Table.get?_of_mem hmem
  | createOutbound =>
      right
      rw [AutoTable.get?_push, if_neg (Nat.ne_of_lt (AutoTable.lt_next_of_get? hrow))]
      exact hrow
  | _ => exact .inr hrow

/-! ## Every run -/

variable [DecidableEq Worker] [DecidableEq Thread] {parse : MessageParser} {lettre : Api.Lettre}
  {task : Thread → Task} {finish : Installation Worker Thread}

/-- In every interleaving what the database says of the cycles of a job happened. -/
theorem records_of_run
    (hrun : Run (Installation.step ctx) (fun _ _ => True) (installation parse lettre task) trace
      finish) : Records ctx trace finish.store := by
  refine (hrun.invariant_trace
    (fun trace state => Installation.Usual task state ∧ Records ctx trace state.store)
    ⟨Installation.usual_installation parse lettre task, .start⟩ ?_).2
  intro trace state label events next hstate _ hstep
  obtain ⟨husual, hrecords⟩ := hstate
  refine ⟨husual.step hstep, ?_⟩
  rcases Installation.step_cases hstep with ⟨thread, effect, fault, resume, hprogram, rfl, hnext⟩ |
    ⟨worker, input, actions, after, db, rfl, hmove, hnext⟩
  · rw [hnext]
    exact hrecords.perform (husual.effect hprogram) fault _
  · rw [hnext]
    exact hrecords.move hmove

/-- Every row of the audit trail repeats what a host answered to a hand-off that was made before,
and every job that is marked as delivered was accepted by a host. -/
theorem receipted_of_run (ctx : Worker → Context) (parse : MessageParser) (lettre : Api.Lettre)
    (task : Thread → Task) {trace : List (Happening Worker Thread)}
    {finish : Installation Worker Thread}
    (hrun : Run (Installation.step ctx) (fun _ _ => True) (installation parse lettre task) trace
      finish) :
    (∀ row ∈ finish.store.db.deliveryStatuses.rows, row.Reported ctx trace) ∧
    ∀ row ∈ finish.store.db.outbounds.rows, row.status = .delivered →
      Accepted ctx trace row.id := by
  have hrecords := records_of_run hrun
  refine ⟨hrecords.audit, fun row hrow hstatus => ?_⟩
  exact (hrecords.rows row.id row (Table.get?_of_mem hrow)).delivered hstatus

/-- After `relaySteps` the audit trail holds the answer of the mail host, and the job is
delivered. -/
theorem receipted_relayed : ∃ trace finish row status,
    Run (Installation.step (fun _ => defaultContext)) (fun _ _ => True) relayInstallation trace
      finish ∧
    row ∈ finish.store.db.outbounds.rows ∧ row.status = .delivered ∧
    status ∈ finish.store.db.deliveryStatuses.rows ∧ status.code = some 250 ∧
    Accepted (fun _ => defaultContext) trace row.id ∧
    status.Reported (fun _ => defaultContext) trace := by
  obtain ⟨trace, finish, row, status, hexecute, hrow, hdelivered, hstatus, hcode⟩ :
      ∃ trace finish row status,
        execute (Installation.step (fun _ => defaultContext)) relayInstallation relaySteps =
          some (trace, finish) ∧
        finish.store.db.outbounds.rows = [row] ∧ row.status = .delivered ∧
        finish.store.db.deliveryStatuses.rows = [status] ∧ status.code = some 250 :=
    ⟨_, _, _, _, rfl, rfl, rfl, rfl, rfl⟩
  have hrun := execute_run hexecute
  have hmem : row ∈ finish.store.db.outbounds.rows := hrow ▸ List.mem_singleton_self row
  have hrecorded : status ∈ finish.store.db.deliveryStatuses.rows :=
    hstatus ▸ List.mem_singleton_self status
  obtain ⟨haudit, hjobs⟩ := receipted_of_run (fun _ => defaultContext) (fun _ => none) plainLettre
    relayTasks hrun
  exact ⟨trace, finish, row, status, hrun, hmem, hdelivered, hrecorded, hcode,
    hjobs row hmem hdelivered, haudit status hrecorded⟩

/-! ## No job is lost -/

/-- A job that was created is in the table. -/
theorem Statement.get?_of_createOutbound {job : OutboundJob} {fault : Fault} {db : Db}
    {created : Outbound} (h : ((createOutbound job).execute fault db).1 = .ok created) :
    ((createOutbound job).execute fault db).2.outbounds.get? created.id = some created ∧
      created.IsOf job := by
  cases fault with
  | some text => cases h
  | none =>
      cases h
      refine ⟨?_, rfl, rfl, rfl⟩
      show (db.outbounds.push (fun id => ⟨job, id⟩) (fun _ => rfl)).get? db.outbounds.next = _
      rw [AutoTable.get?_push, if_pos rfl]

/-- A worker deletes no job and leaves its addresses as they are. -/
theorem Control.Move.keeps {ctx : Context} {db next : Db} {before after : Control} {input : Input}
    {actions : List Action} {id : Nat} {row : Outbound} {job : OutboundJob}
    (h : before.Move ctx db input actions after next) (hrow : db.outbounds.get? id = some row)
    (hjob : row.IsOf job) :
    ∃ later, next.outbounds.get? id = some later ∧ later.IsOf job := by
  have hupdate (written : Nat) (columns : OutboundColumns) : ∃ later,
      (db.updateOutbound written columns).outbounds.get? id = some later ∧ later.IsOf job := by
    rw [Db.get?_updateOutbound]
    split
    · rename_i hid
      rw [← hid, hrow]
      exact ⟨columns.apply row, rfl, hjob⟩
    · exact ⟨row, hrow, hjob⟩
  cases h with
  | reclaim | claim | markDelivered | failOrRequeue => exact hupdate _ _
  | _ => exact ⟨row, hrow, hjob⟩

/-- From its creation on a job is in the table, until something deletes it. -/
theorem kept_of_run (hrun : Run (Installation.step ctx) (fun _ _ => True)
      (installation parse lettre task) trace finish)
    {earlier later : List (Happening Worker Thread)} {thread : Thread} {job : OutboundJob}
    {created : Outbound} {before : System Worker}
    (htrace : trace = earlier ++
      .inl ⟨thread, .sql (.createOutbound job), .ok created, before⟩ :: later) :
    (∃ moment, .inl moment ∈ later ∧ Removes job moment) ∨
      ∃ row, finish.store.db.outbounds.get? created.id = some row ∧ row.IsOf job := by
  refine Installation.lasts_of_run
    (fun db => ∃ row, db.outbounds.get? created.id = some row ∧ row.IsOf job) (Removes job)
    (fun thread statement answer system after hstays hchange => ?_)
    (fun worker db input before actions after next hstays hmove => ?_) hrun htrace
    (fun fault hanswer => ?_)
  · obtain ⟨row, hrow, hjob⟩ := hstays
    exact (hchange.keeps hrow hjob).imp_right (fun hsame => ⟨row, hsame, hjob⟩)
  · obtain ⟨row, hrow, hjob⟩ := hstays
    exact hmove.keeps hrow hjob
  · obtain ⟨hget, hjob⟩ := Statement.get?_of_createOutbound hanswer
    exact ⟨created, hget, hjob⟩

/-- Every job that was created is accounted for: it was deleted with its message or its sender, or
its row is in the table under the addresses it was created with, and tells its fate. -/
theorem accounted_of_run (ctx : Worker → Context) (parse : MessageParser) (lettre : Api.Lettre)
    (task : Thread → Task) {trace earlier later : List (Happening Worker Thread)}
    {finish : Installation Worker Thread} {thread : Thread} {job : OutboundJob}
    {created : Outbound} {before : System Worker}
    (hrun : Run (Installation.step ctx) (fun _ _ => True) (installation parse lettre task) trace
      finish)
    (htrace : trace = earlier ++
      .inl ⟨thread, .sql (.createOutbound job), .ok created, before⟩ :: later) :
    (∃ moment, .inl moment ∈ later ∧ Removes job moment) ∨
      ∃ row, finish.store.db.outbounds.get? created.id = some row ∧ row.IsOf job ∧
        Fate ctx trace row := by
  rcases kept_of_run hrun htrace with hremoved | ⟨row, hrow, hjob⟩
  · exact .inl hremoved
  · exact .inr ⟨row, hrow, hjob, ((records_of_run hrun).rows _ row hrow).fate⟩

/-- The forward of `relaySteps` is accounted for: its row is delivered. -/
theorem accounted_relayed : ∃ trace finish earlier later created before row,
    Run (Installation.step (fun _ => defaultContext)) (fun _ _ => True) relayInstallation trace
      finish ∧
    trace = earlier ++ .inl ⟨true, .sql (.createOutbound (newJob 1 "a@x.io" "b@y.io")),
      .ok created, before⟩ :: later ∧
    finish.store.db.outbounds.get? created.id = some row ∧
    Fate (fun _ => defaultContext) trace row := by
  obtain ⟨earlier, later, finish, created, before, row, hexecute, hget, hkept⟩ :
      ∃ earlier later finish created before row,
        execute (Installation.step (fun _ => defaultContext)) relayInstallation relaySteps =
          some (earlier ++ .inl ⟨true, .sql (.createOutbound (newJob 1 "a@x.io" "b@y.io")),
            .ok created, before⟩ :: later, finish) ∧
        finish.store.db.outbounds.get? created.id = some row ∧
        later.all (fun event => event.elim (fun moment => moment.effect =
          .reply (.data [1]) true) (fun _ => true)) = true :=
    ⟨[_, _, _, _, _, _, _, _, _], _, _, _, _, _, rfl, rfl, rfl⟩
  have hrun := execute_run hexecute
  have hremoved : ¬ ∃ moment, .inl moment ∈ later ∧
      Removes (newJob 1 "a@x.io" "b@y.io") moment := by
    intro h
    obtain ⟨moment, hmoment, hremoves⟩ := h
    have heffect := List.all_eq_true.mp hkept _ hmoment
    simp only [Sum.elim_inl, decide_eq_true_eq] at heffect
    simp [Removes, heffect] at hremoves
  obtain ⟨stored, hstored, -, hfate⟩ := (accounted_of_run (fun _ => defaultContext) (fun _ => none)
    plainLettre relayTasks hrun rfl).resolve_left hremoved
  obtain rfl := Option.some.inj (hget.symm.trans hstored)
  exact ⟨_, finish, earlier, later, created, before, row, hrun, rfl, hget, hfate⟩

end Zonemail
