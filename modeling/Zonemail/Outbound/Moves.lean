import Zonemail.Outbound.Worker

/-!
# The moves of a worker

`Control.Move` lists the transitions of a worker with everything they take along: the message and
the envelope of a hand-off, the host and its reply, the row of the audit trail and the columns
written to the job. Where `Control.Effect` says what a step does to the job table, this says how a
message gets from the store to a host. `next_move` shows that there are no other transitions.
-/

namespace Zonemail

open Library

namespace Control

/-- The transitions of a worker, those that end with no job in its hands and leave the database as
it is taken together. -/
inductive Move (ctx : Context) (db : Db) :
    Control → Input → List Action → Control → Db → Prop where
  /-- The worker goes on without a job. -/
  | release {before after : Control} {input : Input} (hfree : after.held = none) :
      Move ctx db before input [] after db
  | reclaim {job : Outbound} {rest : List Outbound} :
      Move ctx db (.reclaimInProgress job rest) (.database true) [] (Control.reclaim rest)
        (db.updateOutbound job.id reclaimedColumns)
  | claim {now : Timestamp} {scanned row : Outbound} {rest : List Outbound}
      (hrow : db.outbounds.get? scanned.id = some row) (hstatus : row.status = .queued) :
      Move ctx db (.drainOnce now scanned rest) (.database true)
        [.claimed now (claimedColumns.apply row)]
        (.deliverOne ⟨now, rest, claimedColumns.apply row⟩)
        (db.updateOutbound scanned.id claimedColumns)
  | load {delivery : Delivery} {message : Message} {envelope : Envelope}
      (hmessage : db.messages.get? delivery.job.messageId = some message)
      (henvelope : ctx.buildEnvelope message.mailFrom delivery.job.rcptTo = .ok envelope) :
      Move ctx db (.deliverOne delivery) (.database true) []
        (.lookupMxHosts delivery message envelope) db
  | target {delivery : Delivery} {message : Message} {envelope : Envelope}
      {resolver : String → MxAnswer} {targets : List String}
      (htargets : ctx.findTargets delivery resolver = .ok targets) :
      Move ctx db (.lookupMxHosts delivery message envelope) (.resolver resolver) []
        (offer ⟨delivery, message, envelope⟩ targets) db
  | send {handOff : HandOff} {host : String} {hosts : List String} {built : Bool} {tls : Tls}
      (htls : Zonemail.buildOutboundTls ctx.config.transport host built = some tls) :
      Move ctx db (.buildOutboundTls handOff host hosts) (.tls built)
        [.sent handOff.job.id (ctx.dial host tls) handOff.envelope handOff.message.raw]
        (.sendRaw handOff host hosts) db
  | accept {handOff : HandOff} {host response : String} {hosts : List String} :
      Move ctx db (.sendRaw handOff host hosts) (.reply (.ok response)) []
        (.recordAccepted handOff host response) db
  | refuse {handOff : HandOff} {host error : String} {hosts : List String} :
      Move ctx db (.sendRaw handOff host hosts) (.reply (.error error)) []
        (.recordRefused handOff host error hosts) db
  | recordAccepted {handOff : HandOff} {host response : String} :
      Move ctx db (.recordAccepted handOff host response) (.database true) []
        (.markDelivered handOff.toDelivery)
        (db.recordDelivery handOff.job.id host (some 250) (some response))
  | recordRefused {handOff : HandOff} {host error : String} {hosts : List String} :
      Move ctx db (.recordRefused handOff host error hosts) (.database true) []
        (deliverHosts handOff (some ("via " ++ host ++ ": " ++ error)) hosts)
        (db.recordDelivery handOff.job.id host none (some error))
  | markDelivered {delivery : Delivery} :
      Move ctx db (.markDelivered delivery) (.database true) [] (resume delivery)
        (db.updateOutbound delivery.job.id (deliveredColumns (delivery.job.attempts + 1)))
  | failOrRequeue {delivery : Delivery} {reason : String} {columns : OutboundColumns}
      (hcolumns : ctx.config.failOrRequeue delivery.job delivery.now reason = some columns) :
      Move ctx db (.failOrRequeue delivery reason) (.database true) [] (resume delivery)
        (db.updateOutbound delivery.job.id columns)

variable {ctx : Context} {db next : Db} {before after : Control} {input : Input}
  {actions : List Action}

/-- A loaded message is the stored one, with the envelope built from it. -/
theorem load_eq_ok {delivery : Delivery} {message : Message} {envelope : Envelope}
    (h : ctx.load delivery db = .ok (message, envelope)) :
    db.messages.get? delivery.job.messageId = some message ∧
      ctx.buildEnvelope message.mailFrom delivery.job.rcptTo = .ok envelope := by
  unfold Context.load at h
  split at h
  · cases h
  · rename_i found hmessage
    split at h
    · cases h
    · rename_i built henvelope
      cases h
      exact ⟨hmessage, henvelope⟩

/-- Outside `deliver_one` a step reclaims a row, claims a job, or leaves the database as it is. -/
theorem move_of_free (hfree : before.held = none)
    (h : before.advance ctx db input = some (actions, after, next)) :
    Move ctx db before input actions after next := by
  cases before with
  | idle =>
      cases input with
      | database ok =>
          cases h
          cases ok with
          | false => exact .release rfl
          | true => exact .release (held_reclaim _)
      | _ => cases h
  | reclaimInProgress job rest =>
      cases input with
      | database ok =>
          cases h
          cases ok with
          | false => exact .release (held_reclaim rest)
          | true => exact .reclaim
      | _ => cases h
  | fetchQueued =>
      cases input with
      | queue now ok =>
          cases h
          cases ok with
          | false => exact .release rfl
          | true => exact .release (held_drain now _)
      | _ => cases h
  | drainOnce now job rest =>
      cases input with
      | database ok =>
          cases ok with
          | false =>
              cases h
              exact .release rfl
          | true =>
              simp only [advance, Bool.not_true, Bool.false_eq_true, if_false] at h
              split at h
              · rename_i hclaim
                rcases claim_cases hclaim with ⟨_, _, _, htaken, _⟩ | ⟨_, rfl⟩
                · cases htaken
                · cases h
                  exact .release (held_drain now rest)
              · rename_i hclaim
                rcases claim_cases hclaim with ⟨row, hrow, hstatus, htaken, rfl⟩ | ⟨htaken, _⟩
                · cases htaken
                  cases h
                  exact .claim hrow hstatus
                · cases htaken
      | _ => cases h
  | stopped => cases h
  | _ => cases hfree

/-- Inside `deliver_one` a step takes the job on, gives it up or writes it back. -/
theorem move_of_held {job : Outbound} (hheld : before.held = some job)
    (h : before.advance ctx db input = some (actions, after, next)) :
    Move ctx db before input actions after next := by
  cases before with
  | deliverOne delivery =>
      cases input with
      | database ok =>
          simp only [advance] at h
          split at h
          · cases h
            exact .release (held_drain _ _)
          · rename_i message envelope hload
            cases h
            cases ok with
            | false => cases hload
            | true =>
                obtain ⟨hmessage, henvelope⟩ := load_eq_ok hload
                exact .load hmessage henvelope
      | _ => cases h
  | lookupMxHosts delivery message envelope =>
      cases input with
      | resolver resolver =>
          simp only [advance] at h
          split at h
          · cases h
            exact .release (held_drain _ _)
          · rename_i targets htargets
            cases h
            exact .target htargets
      | _ => cases h
  | buildOutboundTls handOff host hosts =>
      cases input with
      | tls built =>
          simp only [advance] at h
          split at h
          · cases h
            exact .release (held_drain _ _)
          · rename_i tls htls
            cases h
            exact .send htls
      | _ => cases h
  | sendRaw handOff host hosts =>
      cases input with
      | reply reply =>
          cases reply with
          | ok response =>
              cases h
              exact .accept
          | error error =>
              cases h
              exact .refuse
      | _ => cases h
  | recordAccepted handOff host response =>
      cases input with
      | database ok =>
          cases ok with
          | false =>
              cases h
              exact .release (held_drain _ _)
          | true =>
              cases h
              exact .recordAccepted
      | _ => cases h
  | recordRefused handOff host error hosts =>
      cases input with
      | database ok =>
          cases ok with
          | false =>
              cases h
              exact .release (held_drain _ _)
          | true =>
              cases h
              exact .recordRefused
      | _ => cases h
  | markDelivered delivery =>
      cases input with
      | database ok =>
          cases h
          cases ok with
          | false => exact .release (held_drain _ _)
          | true => exact .markDelivered
      | _ => cases h
  | failOrRequeue delivery reason =>
      cases input with
      | database ok =>
          simp only [advance] at h
          split at h
          · cases h
            exact .release rfl
          · rename_i columns hcolumns
            cases h
            cases ok with
            | false => exact .release (held_drain _ _)
            | true => exact .failOrRequeue hcolumns
      | _ => cases h
  | _ => cases hheld

/-- Every enabled step of a worker is one of the moves. -/
theorem next_move (h : before.next ctx db input = some (actions, after, next)) :
    Move ctx db before input actions after next := by
  rcases next_cases h with ⟨rfl, -, rfl, rfl, rfl⟩ | ⟨-, -, rfl, rfl, rfl⟩ | ⟨-, -, hadvance⟩
  · exact .release rfl
  · exact .release rfl
  · cases hheld : before.held with
    | none => exact move_of_free hheld hadvance
    | some job => exact move_of_held hheld hadvance

/-- A worker writes to the job table and to the audit trail only. -/
theorem Move.frame (h : Move ctx db before input actions after next) :
    next.mailboxes = db.mailboxes ∧ next.messages = db.messages ∧ next.inbounds = db.inbounds := by
  cases h <;> exact ⟨rfl, rfl, rfl⟩

end Control

end Zonemail
