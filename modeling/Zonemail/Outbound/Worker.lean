import Zonemail.Library.Run
import Zonemail.Outbound.Delivery

/-!
# Workers on one shared database

`Control` is the program point of one `run_outbound_worker` with its live variables, and
`Control.next` one step of it: one database statement, the claim transaction, one DNS lookup, the
construction of the TLS parameters, or the answer to one SMTP hand-off. `System` puts any number of
workers on one database, next to the statements of the other parts of the daemon, and
`System.step` lets any of them move, so its runs are all interleavings.

`Control.next_effect` says once what a step can do to the job table and to the job the worker
holds. The invariants of the following modules are derived from it and do not unfold the step.
-/

namespace Zonemail

open Library

/-! ## One worker -/

/-- A call of `deliver_one` under way: the instant its drain began, the scanned jobs still to come,
and the job as it was claimed. -/
structure Delivery where
  now : Timestamp
  rest : List Outbound
  job : Outbound

/-- A call of `deliver_hosts` under way: its delivery, the message and the envelope. -/
structure HandOff extends Delivery where
  message : Message
  envelope : Envelope

/-- The program point of a worker together with its live variables. -/
inductive Control where
  /-- Not running. -/
  | stopped
  /-- Waiting for the next tick. -/
  | idle
  /-- About to put `job` back into the queue. -/
  | reclaimInProgress (job : Outbound) (rest : List Outbound)
  /-- `drain_once` is about to read the queue. -/
  | fetchQueued
  /-- `drain_once` is about to claim `job`. -/
  | drainOnce (now : Timestamp) (job : Outbound) (rest : List Outbound)
  /-- About to load the message of a claimed job. -/
  | deliverOne (delivery : Delivery)
  | lookupMxHosts (delivery : Delivery) (message : Message) (envelope : Envelope)
  | buildOutboundTls (handOff : HandOff) (host : String) (hosts : List String)
  /-- Waiting for the host to accept or refuse the message. -/
  | sendRaw (handOff : HandOff) (host : String) (hosts : List String)
  /-- About to record that `host` accepted. -/
  | recordAccepted (handOff : HandOff) (host response : String)
  /-- About to record that `host` refused. -/
  | recordRefused (handOff : HandOff) (host error : String) (hosts : List String)
  | markDelivered (delivery : Delivery)
  | failOrRequeue (delivery : Delivery) (reason : String)

/-- What a step of a worker depends on besides its own variables and the database. -/
inductive Input where
  /-- A database statement succeeds or fails; a failed one changes nothing. -/
  | database (ok : Bool)
  /-- The clock, and whether reading the queue succeeds. -/
  | queue (now : Timestamp) (ok : Bool)
  | resolver (resolver : String → MxAnswer)
  /-- Whether the TLS stack can build its parameters. -/
  | tls (built : Bool)
  /-- The host's response, or why the hand-off failed. -/
  | reply (reply : Except String String)
  | crash
  | restart

/-- What can be seen of a worker's step from outside. -/
inductive Action where
  /-- `claim` returned a job inside the drain that began at `now`. -/
  | claimed (now : Timestamp) (job : Outbound)
  /-- The message of a job is handed to a transport. -/
  | sent (id : Nat) (dial : Dial) (envelope : Envelope) (raw : Bytes)

namespace Control

/-- `reclaim_in_progress` with these rows to go; after the last one `drain_once` begins. -/
def reclaim : List Outbound → Control
  | [] => .fetchQueued
  | job :: rest => .reclaimInProgress job rest

/-- `drain_once` with these due rows to go; after the last one the tick is over. -/
def drain (now : Timestamp) : List Outbound → Control
  | [] => .idle
  | job :: rest => .drainOnce now job rest

/-- The end of a call of `deliver_one`, with or without an error. -/
def resume (delivery : Delivery) : Control := drain delivery.now delivery.rest

/-- `deliver_hosts` with these targets to go, after the last target gave `lastError`. -/
def deliverHosts (handOff : HandOff) (lastError : Option String) : List String → Control
  | [] => .failOrRequeue handOff.toDelivery (lastError.getD "all MX attempts failed")
  | host :: hosts => .buildOutboundTls handOff host hosts

/-- The start of `deliver_hosts`. Without a target the cycle fails at once. -/
def offer (handOff : HandOff) : List String → Control
  | [] => .failOrRequeue handOff.toDelivery "no MX records for domain"
  | targets => deliverHosts handOff none targets

end Control

/-- Is a scanned job due? -/
def Outbound.due (now : Timestamp) (job : Outbound) : Bool :=
  match job.nextAttemptAt with
  | none => true
  | some next => !(now < next)

/-- The message of a claimed job with its envelope, when both can be had. -/
def Context.load (ctx : Context) (delivery : Delivery) (db : Db) :
    Except String (Message × Envelope) :=
  match db.messages.get? delivery.job.messageId with
  | none => .error (err "failed to load Message for Outbound" DbError.notFound.text)
  | some message =>
      match ctx.buildEnvelope message.mailFrom delivery.job.rcptTo with
      | .error error => .error error
      | .ok envelope => .ok (message, envelope)

/-- The targets of a delivery, from the MX lookup and the relay configuration. -/
def Context.findTargets (ctx : Context) (delivery : Delivery) (resolver : String → MxAnswer) :
    Except String (List String) :=
  match lookupMxHosts delivery.job.rcptTo resolver with
  | .error error => .error (err "failed to look up MX hosts" error)
  | .ok hosts => ctx.config.targets hosts

/-- One step of a running worker: the actions it shows, the next program point and the database
after it. An input that does not fit the program point is not enabled. -/
def Control.advance (ctx : Context) (db : Db) : Control → Input →
    Option (List Action × Control × Db)
  -- `reclaim_in_progress`: a failed scan or update is only logged.
  | .idle, .database ok =>
      some ([], if ok then reclaim (db.outbounds.select (fun job => job.status = .inProgress))
        else .fetchQueued, db)
  | .reclaimInProgress job rest, .database ok =>
      some ([], reclaim rest, if ok then db.updateOutbound job.id reclaimedColumns else db)
  -- `drain_once`: an error in it ends the tick.
  | .fetchQueued, .queue now ok =>
      some ([], if ok then drain now ((db.outbounds.select (fun job => job.status = .queued)).filter
        (Outbound.due now)) else .idle, db)
  | .drainOnce now job rest, .database ok =>
      if !ok then some ([], .idle, db)
      else match claim db job.id with
        | (none, after) => some ([], drain now rest, after)
        | (some taken, after) => some ([.claimed now taken], .deliverOne ⟨now, rest, taken⟩, after)
  -- `deliver_one`: an error in it leaves the row in progress and goes on with the next job.
  | .deliverOne delivery, .database ok =>
      match if ok then ctx.load delivery db else .error "" with
      | .error _ => some ([], resume delivery, db)
      | .ok (message, envelope) => some ([], .lookupMxHosts delivery message envelope, db)
  | .lookupMxHosts delivery message envelope, .resolver resolver =>
      match ctx.findTargets delivery resolver with
      | .error _ => some ([], resume delivery, db)
      | .ok targets => some ([], offer ⟨delivery, message, envelope⟩ targets, db)
  | .buildOutboundTls handOff host hosts, .tls built =>
      match Zonemail.buildOutboundTls ctx.config.transport host built with
      | none => some ([], resume handOff.toDelivery, db)
      | some tls =>
          some ([.sent handOff.job.id (ctx.dial host tls) handOff.envelope handOff.message.raw],
            .sendRaw handOff host hosts, db)
  | .sendRaw handOff host _, .reply (.ok response) =>
      some ([], .recordAccepted handOff host response, db)
  | .sendRaw handOff host hosts, .reply (.error error) =>
      some ([], .recordRefused handOff host error hosts, db)
  | .recordAccepted handOff host response, .database ok =>
      if !ok then some ([], resume handOff.toDelivery, db)
      else some ([], .markDelivered handOff.toDelivery,
        db.recordDelivery handOff.job.id host (some 250) (some response))
  | .recordRefused handOff host error hosts, .database ok =>
      if !ok then some ([], resume handOff.toDelivery, db)
      else some ([], deliverHosts handOff (some ("via " ++ host ++ ": " ++ error)) hosts,
        db.recordDelivery handOff.job.id host none (some error))
  | .markDelivered delivery, .database ok =>
      some ([], resume delivery, if ok then
        db.updateOutbound delivery.job.id (deliveredColumns (delivery.job.attempts + 1)) else db)
  | .failOrRequeue delivery reason, .database ok =>
      match ctx.config.failOrRequeue delivery.job delivery.now reason with
      -- Computing the backoff panicked, which ends the task.
      | none => some ([], .stopped, db)
      | some columns =>
          some ([], resume delivery, if ok then db.updateOutbound delivery.job.id columns else db)
  | _, _ => none

/-- One step of a worker, which may also crash or be started again. -/
def Control.next (ctx : Context) (db : Db) : Control → Input →
    Option (List Action × Control × Db)
  | .stopped, .restart => some ([], .idle, db)
  | .stopped, _ => none
  | _, .crash => some ([], .stopped, db)
  | control, input => control.advance ctx db input

/-! ## What a step can do -/

namespace Control

/-- The job a worker holds: it is between a claim that returned the job and the end of
`deliver_one` on it. -/
def held : Control → Option Outbound
  | .deliverOne delivery | .lookupMxHosts delivery _ _ | .markDelivered delivery
  | .failOrRequeue delivery _ => some delivery.job
  | .buildOutboundTls handOff _ _ | .sendRaw handOff _ _ | .recordAccepted handOff _ _
  | .recordRefused handOff _ _ _ => some handOff.job
  | .stopped | .idle | .reclaimInProgress _ _ | .fetchQueued | .drainOnce _ _ _ => none

@[simp] theorem held_reclaim (rows : List Outbound) : (reclaim rows).held = none := by
  cases rows <;> rfl

@[simp] theorem held_drain (now : Timestamp) (rows : List Outbound) :
    (drain now rows).held = none := by
  cases rows <;> rfl

@[simp] theorem held_deliverHosts (handOff : HandOff) (lastError : Option String)
    (hosts : List String) : (deliverHosts handOff lastError hosts).held = some handOff.job := by
  cases hosts <;> rfl

@[simp] theorem held_offer (handOff : HandOff) (targets : List String) :
    (offer handOff targets).held = some handOff.job := by
  cases targets <;> rfl

/-- The rows `reclaim_in_progress` has read and not yet written. -/
def reclaimed : Control → List Outbound
  | .reclaimInProgress job rest => job :: rest
  | _ => []

@[simp] theorem reclaimed_reclaim (rows : List Outbound) : (reclaim rows).reclaimed = rows := by
  cases rows <;> rfl

@[simp] theorem reclaimed_drain (now : Timestamp) (rows : List Outbound) :
    (drain now rows).reclaimed = [] := by
  cases rows <;> rfl

/-- A worker that holds a job has no rows to reclaim. -/
theorem reclaimed_of_held {control : Control} {job : Outbound} (h : control.held = some job) :
    control.reclaimed = [] := by
  cases control with
  | reclaimInProgress => cases h
  | _ => rfl

end Control

/-- Neither a crash nor a database failure. -/
def Input.Undisturbed : Input → Prop
  | .crash | .restart | .database false | .queue _ false => False
  | .database true | .queue _ true | .resolver _ | .tls _ | .reply _ => True

namespace Control

/-- The step does not run into an error that ends `deliver_one` before the job is written back: the
message is stored and its envelope can be built, the MX lookup succeeds, and the TLS parameters can
be built where TLS is asked for. -/
def Deliverable (ctx : Context) (db : Db) : Control → Input → Prop
  | .deliverOne delivery, _ =>
      ∃ message, db.messages.get? delivery.job.messageId = some message ∧
        ∃ envelope, ctx.buildEnvelope message.mailFrom delivery.job.rcptTo = .ok envelope
  | .lookupMxHosts delivery _ _, .resolver resolver =>
      ∃ hosts, Zonemail.lookupMxHosts delivery.job.rcptTo resolver = .ok hosts
  | .buildOutboundTls _ _ _, .tls built => ctx.config.transport.tlsEnabled = true → built = true
  | _, _ => True

/-- Everything a step can do to the job table, to the job the worker holds and to the rows it has
yet to reclaim. -/
inductive Effect (ctx : Context) (db : Db) (before : Control) (input : Input) :
    List Action → Control → Db → Prop where
  /-- The worker goes on, and hands at most the job it holds to a transport. -/
  | quiet {actions : List Action} {after : Control} {next : Db}
      (houtbounds : next.outbounds = db.outbounds) (hheld : after.held = before.held)
      (hrows : after.reclaimed.Sublist before.reclaimed)
      (hsent : ∀ action ∈ actions, ∃ job dial envelope raw, before.held = some job ∧
        action = .sent job.id dial envelope raw) : Effect ctx db before input actions after next
  /-- The worker dies, by a crash or a panic. -/
  | stop : Effect ctx db before input [] .stopped db
  /-- `deliver_one` ends with an error and leaves its row as it is. -/
  | abandon {job : Outbound} {now : Timestamp} {rest : List Outbound}
      (hjob : before.held = some job)
      (hreason : ¬ (input.Undisturbed ∧ Deliverable ctx db before input)) :
      Effect ctx db before input [] (drain now rest) db
  /-- The rows in progress are read. -/
  | scan (hbefore : before = .idle) :
      Effect ctx db before input []
        (Control.reclaim (db.outbounds.select (fun job => job.status = .inProgress))) db
  /-- A row read as in progress is put back into the queue. -/
  | reclaim {job : Outbound} {rest : List Outbound}
      (hbefore : before = .reclaimInProgress job rest) (hinput : input = .database true) :
      Effect ctx db before input [] (Control.reclaim rest)
        (db.updateOutbound job.id reclaimedColumns)
  /-- A queued row is claimed. -/
  | claim {now : Timestamp} {scanned row : Outbound} {rest : List Outbound}
      (hbefore : before = .drainOnce now scanned rest)
      (hrow : db.outbounds.get? scanned.id = some row) (hstatus : row.status = .queued) :
      Effect ctx db before input [.claimed now (claimedColumns.apply row)]
        (.deliverOne ⟨now, rest, claimedColumns.apply row⟩)
        (db.updateOutbound scanned.id claimedColumns)
  /-- The held job is written back with its cycle counted: delivered, failed, or queued within the
  cap. -/
  | finish {job : Outbound} {now : Timestamp} {rest : List Outbound} {columns : OutboundColumns}
      (hjob : before.held = some job)
      (hattempts : columns.attempts = some (job.attempts + 1))
      (hstatus : columns.status ≠ .inProgress)
      (hcap : columns.status = .queued → job.attempts + 1 ≤ ctx.config.maxAttempts) :
      Effect ctx db before input [] (drain now rest) (db.updateOutbound job.id columns)

end Control

/-- A relay that counts as configured has a host, so choosing the targets does not fail. -/
theorem OutboundWorkerConfig.targets_ok (config : OutboundWorkerConfig) (hosts : List String) :
    ∃ targets, config.targets hosts = .ok targets := by
  unfold targets
  split
  · rename_i hrelay
    unfold OutboundTransport.relayConfigured at hrelay
    cases h : config.transport.relay with
    | none => simp [h] at hrelay
    | some relay =>
        cases hhost : relay.host with
        | none => simp [h, OutboundRelay.isConfigured, hhost] at hrelay
        | some host => exact ⟨[host], by simp [hhost]⟩
  · exact ⟨hosts, rfl⟩

/-- Loading fails only without a message or an envelope. -/
theorem Context.not_deliverable_of_load {ctx : Context} {db : Db} {delivery : Delivery}
    {input : Input} {error : String} (h : ctx.load delivery db = .error error) :
    ¬ Control.Deliverable ctx db (.deliverOne delivery) input := by
  intro hdeliverable
  obtain ⟨message, hmessage, envelope, henvelope⟩ := hdeliverable
  simp [load, hmessage, henvelope] at h

/-- Finding the targets fails only when the MX lookup does. -/
theorem Context.not_deliverable_of_findTargets {ctx : Context} {db : Db} {delivery : Delivery}
    {message : Message} {envelope : Envelope} {resolver : String → MxAnswer} {error : String}
    (h : ctx.findTargets delivery resolver = .error error) :
    ¬ Control.Deliverable ctx db (.lookupMxHosts delivery message envelope)
      (.resolver resolver) := by
  intro hdeliverable
  obtain ⟨hosts, hhosts⟩ := hdeliverable
  obtain ⟨targets, htargets⟩ := ctx.config.targets_ok hosts
  simp [findTargets, hhosts, htargets] at h

/-- The TLS selection fails only when TLS is asked for and its parameters cannot be built. -/
theorem not_deliverable_of_buildOutboundTls {ctx : Context} {db : Db} {handOff : HandOff}
    {host : String} {hosts : List String} {built : Bool}
    (h : buildOutboundTls ctx.config.transport host built = none) :
    ¬ Control.Deliverable ctx db (.buildOutboundTls handOff host hosts) (.tls built) := by
  intro hdeliverable
  unfold buildOutboundTls at h
  split at h
  · cases h
  · rename_i henabled
    split at h
    · rename_i hbuilt
      have := hdeliverable (by simpa using henabled)
      simp [this] at hbuilt
    · cases h

namespace Control

variable {ctx : Context} {db next : Db} {before after : Control} {input : Input}
  {actions : List Action}

/-- A worker that goes on with the job it holds has no rows to reclaim. -/
theorem Effect.quiet_of_held {job : Outbound} (houtbounds : next.outbounds = db.outbounds)
    (hbefore : before.held = some job) (hafter : after.held = some job)
    (hsent : ∀ action ∈ actions, ∃ job dial envelope raw, before.held = some job ∧
      action = .sent job.id dial envelope raw) : Effect ctx db before input actions after next := by
  refine .quiet houtbounds (hafter.trans hbefore.symm) ?_ hsent
  rw [reclaimed_of_held hafter]
  exact List.nil_sublist _

/-- A step outside `deliver_one` scans, reclaims one row or claims one job. -/
theorem advance_effect_of_held_none (hfree : before.held = none)
    (h : before.advance ctx db input = some (actions, after, next)) :
    Effect ctx db before input actions after next := by
  cases before with
  | idle =>
      cases input with
      | database ok =>
          cases h
          cases ok with
          | false => exact .quiet rfl rfl (List.nil_sublist _) (by simp)
          | true => exact .scan rfl
      | _ => cases h
  | reclaimInProgress job rest =>
      cases input with
      | database ok =>
          cases h
          cases ok with
          | false =>
              refine .quiet rfl (held_reclaim rest) ?_ (by simp)
              rw [reclaimed_reclaim]
              exact List.sublist_cons_self job rest
          | true => exact .reclaim rfl rfl
      | _ => cases h
  | fetchQueued =>
      cases input with
      | queue now ok =>
          cases h
          cases ok with
          | false => exact .quiet rfl rfl (List.nil_sublist _) (by simp)
          | true => exact .quiet rfl (held_drain now _) (by simp) (by simp)
      | _ => cases h
  | drainOnce now job rest =>
      cases input with
      | database ok =>
          cases ok with
          | false =>
              cases h
              exact .quiet rfl rfl (List.nil_sublist _) (by simp)
          | true =>
              simp only [advance, Bool.not_true, Bool.false_eq_true, if_false] at h
              split at h
              · rename_i hclaim
                rcases claim_cases hclaim with ⟨_, _, _, htaken, _⟩ | ⟨_, rfl⟩
                · cases htaken
                · cases h
                  exact .quiet rfl (held_drain now rest) (by simp) (by simp)
              · rename_i hclaim
                rcases claim_cases hclaim with ⟨row, hrow, hstatus, htaken, rfl⟩ | ⟨htaken, _⟩
                · cases htaken
                  cases h
                  exact .claim rfl hrow hstatus
                · cases htaken
      | _ => cases h
  | stopped => cases h
  | _ => cases hfree

/-- The last statement of a cycle writes the job back, unless it fails or computing the backoff
panics. -/
theorem advance_effect_of_last {delivery : Delivery}
    (hlast : before = .markDelivered delivery ∨ ∃ reason, before = .failOrRequeue delivery reason)
    (h : before.advance ctx db input = some (actions, after, next)) :
    Effect ctx db before input actions after next := by
  rcases hlast with rfl | ⟨reason, rfl⟩
  · cases input with
    | database ok =>
        cases h
        cases ok with
        | false => exact .abandon rfl (fun hok => hok.1)
        | true =>
            have hdelivered :
                (deliveredColumns (delivery.job.attempts + 1)).status = .delivered := rfl
            exact .finish rfl rfl (by simp [hdelivered]) (by simp [hdelivered])
    | _ => cases h
  · cases input with
    | database ok =>
        simp only [advance] at h
        split at h
        · cases h
          exact .stop
        · rename_i columns hcolumns
          cases h
          obtain ⟨hattempts, hstatus⟩ := OutboundWorkerConfig.failOrRequeue_cases hcolumns
          cases ok with
          | false => exact .abandon rfl (fun hok => hok.1)
          | true =>
              refine .finish rfl hattempts ?_ ?_
              · rcases hstatus with ⟨hfailed, _⟩ | ⟨hqueued, _⟩
                · simp [hfailed]
                · simp [hqueued]
              · rcases hstatus with ⟨hfailed, _⟩ | ⟨_, hcap⟩
                · simp [hfailed]
                · exact fun _ => hcap
    | _ => cases h

/-- A step inside `deliver_one` goes on with the held job, gives it up or writes it back. -/
theorem advance_effect_of_held {job : Outbound} (hheld : before.held = some job)
    (h : before.advance ctx db input = some (actions, after, next)) :
    Effect ctx db before input actions after next := by
  cases before with
  | deliverOne delivery =>
      cases input with
      | database ok =>
          simp only [advance] at h
          split at h
          · rename_i hload
            cases h
            refine .abandon rfl ?_
            cases ok with
            | false => exact fun hok => hok.1
            | true => exact fun hok => ctx.not_deliverable_of_load hload hok.2
          · cases h
            exact .quiet rfl rfl (List.nil_sublist _) (by simp)
      | _ => cases h
  | lookupMxHosts delivery message envelope =>
      cases input with
      | resolver resolver =>
          simp only [advance] at h
          split at h
          · rename_i htargets
            cases h
            exact .abandon rfl
              (fun hok => ctx.not_deliverable_of_findTargets htargets hok.2)
          · cases h
            exact .quiet_of_held rfl rfl (held_offer _ _) (by simp)
      | _ => cases h
  | buildOutboundTls handOff host hosts =>
      cases input with
      | tls built =>
          simp only [advance] at h
          split at h
          · rename_i htls
            cases h
            exact .abandon rfl
              (fun hok => not_deliverable_of_buildOutboundTls htls hok.2)
          · cases h
            refine .quiet rfl rfl (List.nil_sublist _) ?_
            intro action haction
            rw [List.mem_singleton] at haction
            exact ⟨handOff.job, _, _, _, rfl, haction⟩
      | _ => cases h
  | sendRaw handOff host hosts =>
      cases input with
      | reply reply =>
          cases reply with
          | ok response =>
              cases h
              exact .quiet rfl rfl (List.nil_sublist _) (by simp)
          | error error =>
              cases h
              exact .quiet rfl rfl (List.nil_sublist _) (by simp)
      | _ => cases h
  | recordAccepted handOff host response =>
      cases input with
      | database ok =>
          cases ok with
          | false =>
              cases h
              exact .abandon rfl (fun hok => hok.1)
          | true =>
              cases h
              exact .quiet rfl rfl (List.nil_sublist _) (by simp)
      | _ => cases h
  | recordRefused handOff host error hosts =>
      cases input with
      | database ok =>
          cases ok with
          | false =>
              cases h
              exact .abandon rfl (fun hok => hok.1)
          | true =>
              cases h
              exact .quiet_of_held rfl rfl (held_deliverHosts _ _ _) (by simp)
      | _ => cases h
  | markDelivered delivery => exact advance_effect_of_last (.inl rfl) h
  | failOrRequeue delivery reason => exact advance_effect_of_last (.inr ⟨reason, rfl⟩) h
  | _ => cases hheld

/-- A step starts a stopped worker, kills a running one, or is a step of a running one. -/
theorem next_cases (h : before.next ctx db input = some (actions, after, next)) :
    (before = .stopped ∧ input = .restart ∧ actions = [] ∧ after = .idle ∧ next = db) ∨
    (before ≠ .stopped ∧ input = .crash ∧ actions = [] ∧ after = .stopped ∧ next = db) ∨
    (before ≠ .stopped ∧ input ≠ .crash ∧
      before.advance ctx db input = some (actions, after, next)) := by
  unfold Control.next at h
  split at h
  · cases h
    exact .inl ⟨rfl, rfl, rfl, rfl, rfl⟩
  · cases h
  · rename_i hrunning
    cases h
    exact .inr (.inl ⟨hrunning, rfl, rfl, rfl, rfl⟩)
  · rename_i hrunning hcrash _
    exact .inr (.inr ⟨hrunning, hcrash, h⟩)

/-- Every enabled step of a worker has one of the effects. -/
theorem next_effect (h : before.next ctx db input = some (actions, after, next)) :
    Effect ctx db before input actions after next := by
  rcases next_cases h with ⟨rfl, -, rfl, rfl, rfl⟩ | ⟨-, -, rfl, rfl, rfl⟩ | ⟨-, -, hadvance⟩
  · exact .quiet rfl rfl (List.nil_sublist _) (by simp)
  · exact .stop
  · cases hheld : before.held with
    | none => exact advance_effect_of_held_none hheld hadvance
    | some job => exact advance_effect_of_held hheld hadvance

/-- A stopped worker moves only by being started again. -/
theorem next_stopped (h : stopped.next ctx db input = some (actions, after, next)) :
    input = .restart := by
  cases input with
  | restart => rfl
  | _ => cases h

end Control

/-! ## All workers -/

/-- The workers and the database they share. -/
structure System (Worker : Type) where
  db : Db
  control : Worker → Control

/-- What moves next: a worker, or a statement of another part of the daemon. -/
inductive Label (Worker : Type) where
  | worker (worker : Worker) (input : Input)
  | request (statement : Statement) (fault : Statement.Fault)

variable {Worker : Type} [DecidableEq Worker]

/-- One worker has moved on and left this database. -/
def System.moved (system : System Worker) (worker : Worker) (after : Control) (db : Db) :
    System Worker where
  db := db
  control := Function.update system.control worker after

@[simp] theorem System.moved_db (system : System Worker) (worker : Worker) (after : Control)
    (db : Db) : (system.moved worker after db).db = db := rfl

@[simp] theorem System.moved_control_self (system : System Worker) (worker : Worker)
    (after : Control) (db : Db) : (system.moved worker after db).control worker = after := by
  simp [System.moved]

theorem System.moved_control_of_ne (system : System Worker) {worker other : Worker}
    (h : other ≠ worker) (after : Control) (db : Db) :
    (system.moved worker after db).control other = system.control other := by
  simp [System.moved, h]

/-- One step of the whole: the actions it shows, each with the worker that took it. Each worker
runs in its own context. -/
def System.step (ctx : Worker → Context) (system : System Worker) :
    Label Worker → Option (List (Worker × Action) × System Worker)
  | .worker worker input =>
      match (system.control worker).next (ctx worker) system.db input with
      | none => none
      | some (actions, after, db) =>
          some (actions.map (fun action => (worker, action)), system.moved worker after db)
  | .request statement fault =>
      some ([], { system with db := (statement.execute fault system.db).2 })

namespace System

/-- Does this worker hold this job? -/
def Holds (system : System Worker) (worker : Worker) (id : Nat) : Prop :=
  ∃ job, (system.control worker).held = some job ∧ job.id = id

/-- Every enabled step is a request's statement or one worker's step, which has one of its
effects. -/
theorem step_cases {ctx : Worker → Context} {system next : System Worker} {label : Label Worker}
    {actions : List (Worker × Action)} (h : system.step ctx label = some (actions, next)) :
    (∃ statement fault, label = .request statement fault ∧ actions = [] ∧
      next = { system with db := (statement.execute fault system.db).2 }) ∨
    ∃ worker input shown after db, label = .worker worker input ∧
      (system.control worker).next (ctx worker) system.db input = some (shown, after, db) ∧
      actions = shown.map (fun action => (worker, action)) ∧
      next = system.moved worker after db := by
  cases label with
  | request statement fault =>
      cases h
      exact .inl ⟨statement, fault, rfl, rfl, rfl⟩
  | worker worker input =>
      simp only [step] at h
      split at h
      · cases h
      · rename_i shown after db hnext
        cases h
        exact .inr ⟨worker, input, shown, after, db, rfl, hnext, rfl, rfl⟩

end System

end Zonemail
