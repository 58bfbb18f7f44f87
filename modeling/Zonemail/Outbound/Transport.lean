import Zonemail.Outbound.Cycle

/-!
# The relay and the mail hosts

Where a cycle connects to, and with what. The target of a cycle is the relay when it has a host, and
the mail hosts of the recipient otherwise; but the port and the credentials are taken from the relay
table whether or not it has a host, and the mail hosts are looked up before the relay is considered.

`confined_iff` says for which configurations the relay's port and credentials stay with the relay,
and `sameEffect_iff` when two results of the lookup make no difference to a cycle with a relay.
-/

namespace Zonemail

open Library

/-! ## What is dialled -/

/-- The connection of a hand-off. -/
def Action.dial? : Action → Option Dial
  | .sent _ dial _ _ => some dial
  | .claimed _ _ => none

/-- A call of `deliver_hosts` for these mail hosts. -/
def Context.callDeliverHosts (ctx : Context) (handOff : HandOff) (hosts : List String) : Control :=
  match ctx.config.targets hosts with
  | .error _ => Control.resume handOff.toDelivery
  | .ok targets => Control.offer handOff targets

namespace Control

variable {ctx : Context} {outside : Outside} {control after : Control} {db next : Db}
  {actions : List Action} {input : Input} {job : Outbound} {fuel : Nat}

/-- The targets that a call of `deliver_hosts` has still to dial. -/
def toDial : Control → List String
  | .buildOutboundTls _ host hosts => host :: hosts
  | .sendRaw _ _ hosts | .recordRefused _ _ _ hosts => hosts
  | _ => []

@[simp] theorem toDial_drain (now : Timestamp) (rows : List Outbound) :
    (drain now rows).toDial = [] := by
  cases rows <;> rfl

@[simp] theorem toDial_deliverHosts (handOff : HandOff) (lastError : Option String)
    (hosts : List String) : (deliverHosts handOff lastError hosts).toDial = hosts := by
  cases hosts <;> rfl

@[simp] theorem toDial_offer (handOff : HandOff) (targets : List String) :
    (offer handOff targets).toDial = targets := by
  cases targets <;> rfl

/-- The targets of the job have been chosen, or it is not about a job at all. -/
def Chosen : Control → Prop
  | .deliverOne _ | .lookupMxHosts _ _ _ => False
  | _ => True

theorem chosen_drain (now : Timestamp) (rows : List Outbound) : (drain now rows).Chosen := by
  cases rows <;> trivial

theorem chosen_deliverHosts (handOff : HandOff) (lastError : Option String) (hosts : List String) :
    (deliverHosts handOff lastError hosts).Chosen := by
  cases hosts <;> trivial

theorem chosen_offer (handOff : HandOff) (targets : List String) :
    (offer handOff targets).Chosen := by
  cases targets <;> trivial

/-- An upper bound on the steps to the end of a call of `deliver_hosts`. -/
def remaining : Control → Nat
  | .buildOutboundTls _ _ hosts => 3 * hosts.length + 4
  | .sendRaw _ _ hosts => 3 * hosts.length + 3
  | .recordRefused _ _ _ hosts => 3 * hosts.length + 2
  | .recordAccepted _ _ _ => 2
  | .markDelivered _ | .failOrRequeue _ _ => 1
  | _ => 0

@[simp] theorem remaining_drain (now : Timestamp) (rows : List Outbound) :
    (drain now rows).remaining = 0 := by
  cases rows <;> rfl

theorem remaining_deliverHosts (handOff : HandOff) (lastError : Option String)
    (hosts : List String) :
    (deliverHosts handOff lastError hosts).remaining = 3 * hosts.length + 1 := by
  cases hosts <;> rfl

/-- A step of a call of `deliver_hosts`: it dials at most the next target, with the port and the
credentials of the configuration, and it comes closer to the end of the call. -/
structure ChosenStep (ctx : Context) (control : Control) (actions : List Action)
    (after : Control) : Prop where
  chosen : after.Chosen
  hosts : ((actions.filterMap Action.dial?).map Dial.host) ++ after.toDial <+: control.toDial
  dials : ∀ dial ∈ actions.filterMap Action.dial?, dial = ctx.dial dial.host dial.tls
  remaining : after.remaining < control.remaining

/-- A step that dials nothing. -/
theorem chosenStep_of_nil (hchosen : after.Chosen) (hhosts : after.toDial <+: control.toDial)
    (hremaining : after.remaining < control.remaining) : ChosenStep ctx control [] after :=
  ⟨hchosen, hhosts, by simp, hremaining⟩

/-- A step with which the call ends. -/
theorem chosenStep_resume (delivery : Delivery) (hremaining : 0 < control.remaining) :
    ChosenStep ctx control [] (resume delivery) := by
  refine chosenStep_of_nil (chosen_drain _ _) ?_ ?_
  · rw [resume, toDial_drain]
    exact List.nil_prefix
  · rwa [resume, remaining_drain]

theorem chosenStep_of_advance (hchosen : control.Chosen) (hheld : control.held = some job)
    (h : control.advance ctx db input = some (actions, after, next)) :
    ChosenStep ctx control actions after := by
  cases control with
  | buildOutboundTls handOff host hosts =>
      cases input with
      | tls built =>
          simp only [advance] at h
          split at h
          · cases h
            exact chosenStep_resume _ (Nat.zero_lt_succ _)
          · cases h
            exact ⟨trivial, List.prefix_refl _, by simp [Action.dial?, Context.dial],
              Nat.lt_succ_self _⟩
      | _ => cases h
  | sendRaw handOff host hosts =>
      cases input with
      | reply reply =>
          cases reply with
          | ok response =>
              cases h
              exact chosenStep_of_nil trivial List.nil_prefix (by simp [remaining])
          | error error =>
              cases h
              exact chosenStep_of_nil trivial (List.prefix_refl _) (Nat.lt_succ_self _)
      | _ => cases h
  | recordAccepted handOff host response =>
      cases input with
      | database ok =>
          cases ok with
          | false =>
              cases h
              exact chosenStep_resume _ (Nat.zero_lt_succ _)
          | true =>
              cases h
              exact chosenStep_of_nil trivial List.nil_prefix (Nat.lt_succ_self _)
      | _ => cases h
  | recordRefused handOff host error hosts =>
      cases input with
      | database ok =>
          cases ok with
          | false =>
              cases h
              exact chosenStep_resume _ (Nat.zero_lt_succ _)
          | true =>
              cases h
              refine chosenStep_of_nil (chosen_deliverHosts _ _ _) ?_ ?_
              · rw [toDial_deliverHosts]
                exact List.prefix_refl hosts
              · rw [remaining_deliverHosts]
                exact Nat.lt_succ_self _
      | _ => cases h
  | markDelivered delivery =>
      cases input with
      | database ok =>
          cases h
          exact chosenStep_resume _ Nat.zero_lt_one
      | _ => cases h
  | failOrRequeue delivery reason =>
      cases input with
      | database ok =>
          simp only [advance] at h
          split at h
          · cases h
            exact chosenStep_of_nil trivial List.nil_prefix Nat.zero_lt_one
          · cases h
            exact chosenStep_resume _ Nat.zero_lt_one
      | _ => cases h
  | deliverOne | lookupMxHosts => exact hchosen.elim
  | _ => cases hheld

/-- A call of `deliver_hosts` is never stuck. -/
theorem exists_advance (hchosen : control.Chosen) (hheld : control.held = some job) :
    ∃ actions after next,
      control.advance ctx db (outside.input control) = some (actions, after, next) := by
  cases control with
  | buildOutboundTls handOff host hosts =>
      simp only [Outside.input, advance]
      split
      · exact ⟨_, _, _, rfl⟩
      · exact ⟨_, _, _, rfl⟩
  | sendRaw handOff host hosts =>
      cases hreply : outside.reply host hosts with
      | ok response => exact ⟨_, _, _, by simp only [Outside.input, advance, hreply]; rfl⟩
      | error error => exact ⟨_, _, _, by simp only [Outside.input, advance, hreply]; rfl⟩
  | recordAccepted | recordRefused =>
      simp only [Outside.input, advance]
      split
      · exact ⟨_, _, _, rfl⟩
      · exact ⟨_, _, _, rfl⟩
  | markDelivered delivery => exact ⟨_, _, _, rfl⟩
  | failOrRequeue delivery reason =>
      simp only [Outside.input, advance]
      split
      · exact ⟨_, _, _, rfl⟩
      · exact ⟨_, _, _, rfl⟩
  | deliverOne | lookupMxHosts => exact hchosen.elim
  | _ => cases hheld

/-- A call of `deliver_hosts` returns within the bound, whatever it is answered. -/
theorem held_cycle (hchosen : control.Chosen) (hfuel : control.remaining ≤ fuel) :
    (cycle ctx outside fuel control db).2.1.held = none := by
  induction fuel generalizing control db with
  | zero =>
      cases hheld : control.held with
      | none => simp [hheld]
      | some job =>
          obtain ⟨actions, after, next, hadvance⟩ :=
            @exists_advance ctx outside _ db _ hchosen hheld
          have hless := (chosenStep_of_advance hchosen hheld hadvance).remaining
          omega
  | succ fuel ih =>
      cases hheld : control.held with
      | none => simp [hheld]
      | some job =>
          obtain ⟨actions, after, next, hadvance⟩ :=
            @exists_advance ctx outside _ db _ hchosen hheld
          have hstep := chosenStep_of_advance hchosen hheld hadvance
          rw [cycle_step hheld hadvance]
          exact ih hstep.chosen (by have := hstep.remaining; omega)

/-- A cycle dials its targets in their order, each with the port and the credentials of the
configuration, as far as it comes. -/
theorem dials_of_cycle (hchosen : control.Chosen) :
    (((cycle ctx outside fuel control db).1.filterMap Action.dial?).map Dial.host) <+:
        control.toDial ∧
      ∀ dial ∈ (cycle ctx outside fuel control db).1.filterMap Action.dial?,
        dial = ctx.dial dial.host dial.tls := by
  induction fuel generalizing control db with
  | zero => exact ⟨List.nil_prefix, by simp [cycle]⟩
  | succ fuel ih =>
      rw [cycle]
      split
      · rename_i job actions after next hheld hadvance
        obtain ⟨hafter, hprefix, hdials, -⟩ := chosenStep_of_advance hchosen hheld hadvance
        obtain ⟨hlater, hothers⟩ := @ih after next hafter
        simp only [List.filterMap_append, List.map_append]
        refine ⟨((List.prefix_append_right_inj _).mpr hlater).trans hprefix, fun dial hdial => ?_⟩
        rcases List.mem_append.mp hdial with hmem | hmem
        · exact hdials dial hmem
        · exact hothers dial hmem
      · exact ⟨List.nil_prefix, by simp⟩

end Control

/-! ## Where the relay's credentials go -/

/-- What the connections of a call of `deliver_hosts` should be: with a relay host, to that host, on
the relay's port and with its credentials; otherwise to the mail hosts in their order, on the
submission port and without credentials. -/
def Confined (ctx : Context) (hosts : List String) (dials : List Dial) : Prop :=
  match ctx.config.transport.relay.bind (fun relay => relay.host.map (fun host => (relay, host)))
  with
  | some (relay, host) =>
      ∀ dial ∈ dials, dial.host = host ∧
        dial.port = (if relay.port = 0 then ctx.config.submissionPort else relay.port) ∧
        dial.credentials = relay.credentials ctx.var
  | none =>
      dials.map Dial.host <+: hosts ∧
        ∀ dial ∈ dials, dial.port = ctx.config.submissionPort ∧ dial.credentials = none

/-- Then credentials go to the relay's host only. -/
theorem Confined.host_of_credentials {ctx : Context} {hosts : List String} {dials : List Dial}
    (h : Confined ctx hosts dials) {dial : Dial} (hdial : dial ∈ dials)
    (hcredentials : dial.credentials.isSome) :
    ctx.config.transport.relay.bind OutboundRelay.host = some dial.host := by
  unfold Confined at h
  split at h
  · rename_i relay host hrelay
    obtain ⟨table, htable, hhost⟩ := Option.bind_eq_some_iff.mp hrelay
    obtain ⟨_, hgiven, heq⟩ := Option.map_eq_some_iff.mp hhost
    cases heq
    rw [htable, Option.bind_some, hgiven, (h dial hdial).1]
  · rw [(h.2 dial hdial).2] at hcredentials
    cases hcredentials

/-- With a relay host the call is about that host. -/
theorem Context.callDeliverHosts_of_relay {ctx : Context} {handOff : HandOff} {hosts : List String}
    {host : String} (hrelay : ctx.config.transport.relay.bind OutboundRelay.host = some host) :
    ctx.callDeliverHosts handOff hosts = Control.offer handOff [host] := by
  obtain ⟨relay, htable, hhost⟩ := Option.bind_eq_some_iff.mp hrelay
  have hconfigured : ctx.config.transport.relayConfigured = true := by
    rw [OutboundTransport.relayConfigured, htable, Option.any_some, OutboundRelay.isConfigured,
      hhost, Option.isSome_some]
  simp only [callDeliverHosts, OutboundWorkerConfig.targets, hconfigured, if_true, hrelay]

/-- Without one it is about the mail hosts. -/
theorem Context.callDeliverHosts_of_none {ctx : Context} {handOff : HandOff} {hosts : List String}
    (hrelay : ctx.config.transport.relay.bind OutboundRelay.host = none) :
    ctx.callDeliverHosts handOff hosts = Control.offer handOff hosts := by
  have hconfigured : ctx.config.transport.relayConfigured = false := by
    unfold OutboundTransport.relayConfigured
    cases htable : ctx.config.transport.relay with
    | none => rfl
    | some relay =>
        rw [htable, Option.bind_some] at hrelay
        rw [Option.any_some, OutboundRelay.isConfigured, hrelay, Option.isSome_none]
  simp only [callDeliverHosts, OutboundWorkerConfig.targets, hconfigured, Bool.false_eq_true,
    if_false]

/-- The connections of a call with a relay host. -/
theorem confined_of_relay {ctx : Context} {hosts : List String} {dials : List Dial} {host : String}
    (hrelay : ctx.config.transport.relay.bind OutboundRelay.host = some host)
    (hhosts : dials.map Dial.host <+: [host])
    (hdials : ∀ dial ∈ dials, dial = ctx.dial dial.host dial.tls) : Confined ctx hosts dials := by
  obtain ⟨relay, htable, hhost⟩ := Option.bind_eq_some_iff.mp hrelay
  simp only [Confined, htable, Option.bind_some, hhost, Option.map_some]
  intro dial hdial
  have hmem : dial.host ∈ [host] := hhosts.subset (List.mem_map_of_mem hdial)
  refine ⟨List.mem_singleton.mp hmem, ?_, ?_⟩
  · rw [hdials dial hdial]
    show ctx.config.port = _
    rw [OutboundWorkerConfig.port, htable]
  · rw [hdials dial hdial]
    show ctx.config.transport.relay.bind (fun relay => relay.credentials ctx.var) = _
    rw [htable, Option.bind_some]

/-- A relay table that changes neither the port nor the credentials. -/
theorem plain_iff {ctx : Context} :
    (∀ relay, ctx.config.transport.relay = some relay →
      (relay.port = 0 ∨ relay.port = ctx.config.submissionPort) ∧
        relay.credentials ctx.var = none) ↔
    ∀ host tls, (ctx.dial host tls).port = ctx.config.submissionPort ∧
      (ctx.dial host tls).credentials = none := by
  cases htable : ctx.config.transport.relay with
  | none => simp [Context.dial, OutboundWorkerConfig.port, htable]
  | some relay =>
      have hport : ctx.config.port = ctx.config.submissionPort ↔
          relay.port = 0 ∨ relay.port = ctx.config.submissionPort := by
        simp only [OutboundWorkerConfig.port, htable]
        split
        · simp_all
        · simp_all
      constructor
      · intro h host tls
        obtain ⟨hsame, hcredentials⟩ := h relay rfl
        refine ⟨hport.mpr hsame, ?_⟩
        show ctx.config.transport.relay.bind (fun relay => relay.credentials ctx.var) = none
        rw [htable, Option.bind_some, hcredentials]
      · rintro h _ ⟨⟩
        obtain ⟨hsame, hcredentials⟩ := h "" .none
        refine ⟨hport.mp hsame, ?_⟩
        rwa [Context.dial, htable] at hcredentials

/-- The connections of a call without one. -/
theorem confined_iff_of_none {ctx : Context} {hosts : List String} {dials : List Dial}
    (hrelay : ctx.config.transport.relay.bind OutboundRelay.host = none)
    (hhosts : dials.map Dial.host <+: hosts)
    (hdials : ∀ dial ∈ dials, dial = ctx.dial dial.host dial.tls) :
    Confined ctx hosts dials ↔ dials = [] ∨ ∀ relay, ctx.config.transport.relay = some relay →
      (relay.port = 0 ∨ relay.port = ctx.config.submissionPort) ∧
        relay.credentials ctx.var = none := by
  have hnone : ctx.config.transport.relay.bind
      (fun relay => relay.host.map (fun host => (relay, host))) = none := by
    cases htable : ctx.config.transport.relay with
    | none => rfl
    | some relay =>
        rw [htable, Option.bind_some] at hrelay
        rw [Option.bind_some, hrelay, Option.map_none]
  rw [Confined, hnone, plain_iff]
  constructor
  · intro h
    obtain ⟨-, hplain⟩ := h
    cases dials with
    | nil => exact .inl rfl
    | cons dial rest =>
        refine .inr (fun host tls => ?_)
        have hfirst := hplain dial List.mem_cons_self
        rw [hdials dial List.mem_cons_self] at hfirst
        exact hfirst
  · rintro (rfl | hplain)
    · exact ⟨hhosts, nofun⟩
    · refine ⟨hhosts, fun dial hdial => ?_⟩
      rw [hdials dial hdial]
      exact hplain _ _

/-- A relay table that has a host, or none that would change the port or the credentials. -/
def RelayUsed (ctx : Context) : Prop :=
  (ctx.config.transport.relay.bind OutboundRelay.host).isSome ∨
    ∀ relay, ctx.config.transport.relay = some relay →
      (relay.port = 0 ∨ relay.port = ctx.config.submissionPort) ∧ relay.credentials ctx.var = none

/-- A call about these targets dials them in their order, as far as it comes. -/
theorem dials_of_offer {ctx : Context} {handOff : HandOff} {hosts targets : List String} {db : Db}
    (hcall : ctx.callDeliverHosts handOff hosts = Control.offer handOff targets) (outside : Outside)
    (fuel : Nat) :
    (((Control.cycle ctx outside fuel (ctx.callDeliverHosts handOff hosts) db).1.filterMap
        Action.dial?).map Dial.host) <+: targets ∧
      ∀ dial ∈ (Control.cycle ctx outside fuel (ctx.callDeliverHosts handOff hosts)
        db).1.filterMap Action.dial?, dial = ctx.dial dial.host dial.tls := by
  rw [hcall]
  have hdials := @Control.dials_of_cycle ctx outside _ db fuel
    (Control.chosen_offer handOff targets)
  rwa [Control.toDial_offer] at hdials

/-- The connections of a call, with a relay table that is used or changes nothing. -/
theorem confined_of_relayUsed {ctx : Context} {hosts : List String} {handOff : HandOff} {db : Db}
    (h : hosts = [] ∨ RelayUsed ctx) (outside : Outside) (fuel : Nat) :
    Confined ctx hosts ((Control.cycle ctx outside fuel (ctx.callDeliverHosts handOff hosts)
      db).1.filterMap Action.dial?) := by
  cases hrelay : ctx.config.transport.relay.bind OutboundRelay.host with
  | some host =>
      obtain ⟨hhosts, hdials⟩ := @dials_of_offer _ _ _ _ db
        (Context.callDeliverHosts_of_relay hrelay) outside fuel
      exact confined_of_relay hrelay hhosts hdials
  | none =>
      obtain ⟨hhosts, hdials⟩ := @dials_of_offer _ _ _ _ db
        (Context.callDeliverHosts_of_none hrelay) outside fuel
      refine (confined_iff_of_none hrelay hhosts hdials).mpr ?_
      rcases h with rfl | hsome | hplain
      · exact .inl (List.map_eq_nil_iff.mp (List.prefix_nil.mp hhosts))
      · rw [hrelay] at hsome
        cases hsome
      · exact .inr hplain

/-- Without a relay host and with a TLS stack that works, the first mail host is dialled. -/
theorem dials_firstHost {ctx : Context} {host : String} {hosts : List String} {handOff : HandOff}
    {db : Db} (hrelay : ctx.config.transport.relay.bind OutboundRelay.host = none)
    {outside : Outside} (hbuilds : outside.Builds ctx) :
    (Control.cycle ctx outside 1 (ctx.callDeliverHosts handOff (host :: hosts)) db).1.filterMap
      Action.dial? ≠ [] := by
  have hfirst : Control.offer handOff (host :: hosts) = .buildOutboundTls handOff host hosts := rfl
  rw [Context.callDeliverHosts_of_none hrelay, hfirst,
    Control.cycle_step (by rfl) (Control.advance_buildOutboundTls hbuilds ⟨host, .ok ""⟩ rfl)]
  exact List.cons_ne_nil _ _

/-- **When the relay's port and credentials stay with the relay.** Whatever the TLS stack, the hosts
and the database do, every call of `deliver_hosts` dials as it should and offers credentials to the
relay's host only, if and only if there is no host to dial, the relay table has a host, or it has
neither a port of its own nor credentials that resolve. -/
theorem confined_iff {ctx : Context} {hosts : List String} {handOff : HandOff} {db : Db} :
    (∀ (outside : Outside) (fuel : Nat),
      let dials := (Control.cycle ctx outside fuel (ctx.callDeliverHosts handOff hosts)
        db).1.filterMap Action.dial?
      Confined ctx hosts dials ∧ ∀ dial ∈ dials, dial.credentials.isSome →
        ctx.config.transport.relay.bind OutboundRelay.host = some dial.host) ↔
    hosts = [] ∨ RelayUsed ctx := by
  constructor
  · intro h
    cases hosts with
    | nil => exact .inl rfl
    | cons host hosts =>
        right
        cases hrelay : ctx.config.transport.relay.bind OutboundRelay.host with
        | some relay => exact .inl (by rw [hrelay]; rfl)
        | none =>
            right
            let outside : Outside := ⟨.failed, fun _ _ => true, fun _ _ => .ok "", fun _ => true⟩
            obtain ⟨hhosts, hdials⟩ := @dials_of_offer _ _ _ _ db
              (Context.callDeliverHosts_of_none hrelay) outside 1
            have hdialled := @dials_firstHost ctx host hosts handOff db hrelay outside
              (fun _ _ _ => rfl)
            exact ((confined_iff_of_none hrelay hhosts hdials).mp (h outside 1).1).resolve_left
              hdialled
  · intro h outside fuel
    have hconfined := @confined_of_relayUsed ctx hosts handOff db h outside fuel
    exact ⟨hconfined, fun dial hdial => hconfined.host_of_credentials hdial⟩

/-- A relay table with a port and an account, and with no host. -/
def hostlessRelay : Context :=
  { defaultContext with
    config :=
      { defaultContext.config with
        transport := ⟨.plain, some ⟨none, 587, some "postmaster", some "secret", none⟩, false⟩ } }

/-- The account is offered to the mail host of the recipient, on the port of the relay. -/
theorem not_confined_hostlessRelay : ¬ ∀ (ctx : Context) (hosts : List String) (handOff : HandOff)
    (db : Db) (outside : Outside) (fuel : Nat),
    Confined ctx hosts ((Control.cycle ctx outside fuel (ctx.callDeliverHosts handOff hosts)
      db).1.filterMap Action.dial?) := by
  intro h
  have hconfined := h hostlessRelay ["mx1.y.io"]
    ⟨⟨0, [], ⟨exampleJob, 1⟩⟩, ⟨exampleMessage, 1⟩, ⟨some "a@x.io", "b@y.io"⟩⟩ Db.empty secondHost 1
  obtain ⟨-, hplain⟩ := hconfined
  obtain ⟨hport, -⟩ := hplain ⟨"mx1.y.io", 587, .none, some ("postmaster", "secret")⟩
    (List.mem_singleton_self _)
  cases hport

/-! ## Two results of the lookup -/

/-- What a call of `deliver_one` does as far as it can be seen: its connections, the audit trail and
the row of the job. -/
def Context.callDeliverOne (ctx : Context) (outside : Outside) (fuel : Nat) (delivery : Delivery)
    (db : Db) : List Dial × List DeliveryStatus × Option Outbound :=
  let result := Control.cycle ctx outside fuel (.deliverOne delivery) db
  (result.1.filterMap Action.dial?, result.2.2.deliveryStatuses.rows,
    result.2.2.outbounds.get? delivery.job.id)

/-- The same answers, but for those of the resolver. -/
def Outside.resolving (outside : Outside) (resolver : String → MxAnswer) : Outside :=
  { outside with resolver }

/-- The message of the job can be loaded and has an envelope. -/
def Outside.Loads (outside : Outside) (ctx : Context) (delivery : Delivery) (db : Db) : Prop :=
  outside.database (.deliverOne delivery) = true ∧
    ∃ message envelope, ctx.load delivery db = .ok (message, envelope)

namespace Control

variable {ctx : Context} {outside : Outside} {control : Control} {db : Db} {fuel : Nat}
  {delivery : Delivery} {message : Message} {envelope : Envelope} {resolver : String → MxAnswer}

/-- Once the targets are chosen, nothing depends on the resolver. -/
theorem cycle_resolving (hchosen : control.Chosen) (first second : String → MxAnswer) :
    cycle ctx (outside.resolving first) fuel control db =
      cycle ctx (outside.resolving second) fuel control db := by
  induction fuel generalizing control db with
  | zero => rfl
  | succ fuel ih =>
      have hinput : (outside.resolving first).input control =
          (outside.resolving second).input control := by
        cases control with
        | lookupMxHosts => exact hchosen.elim
        | _ => rfl
      rw [cycle, cycle, hinput]
      split
      · rename_i job actions after next hheld hadvance
        rw [ih (chosenStep_of_advance hchosen hheld hadvance).chosen]
      · rfl

/-- A message that cannot be loaded ends the call. -/
theorem cycle_deliverOne_of_not (h : ¬ outside.Loads ctx delivery db) :
    cycle ctx outside (fuel + 1) (.deliverOne delivery) db = ([], resume delivery, db) := by
  have hadvance : (deliverOne delivery).advance ctx db (outside.input (.deliverOne delivery)) =
      some ([], resume delivery, db) := by
    simp only [Outside.input, advance]
    cases hdatabase : outside.database (.deliverOne delivery) with
    | false => rfl
    | true =>
        cases hload : ctx.load delivery db with
        | error error => rfl
        | ok loaded => exact absurd ⟨hdatabase, loaded.1, loaded.2, hload⟩ h
  rw [cycle_step (by rfl) hadvance, resume, cycle_of_free (held_drain _ _)]
  rfl

/-- With its message loaded, the call goes on to the lookup. -/
theorem cycle_deliverOne (hdatabase : outside.database (.deliverOne delivery) = true)
    (hload : ctx.load delivery db = .ok (message, envelope)) :
    cycle ctx outside (fuel + 1) (.deliverOne delivery) db =
      cycle ctx outside fuel (.lookupMxHosts delivery message envelope) db := by
  have hadvance : (deliverOne delivery).advance ctx db (outside.input (.deliverOne delivery)) =
      some ([], .lookupMxHosts delivery message envelope, db) := by
    simp only [Outside.input, advance, hdatabase, if_true, hload]
  rw [cycle_step (by rfl) hadvance]
  rfl

/-- A lookup that fails ends the call. -/
theorem cycle_lookupMxHosts_error {error : String}
    (hlookup : Zonemail.lookupMxHosts delivery.job.rcptTo resolver = .error error) :
    cycle ctx (outside.resolving resolver) (fuel + 1)
        (.lookupMxHosts delivery message envelope) db =
      ([], resume delivery, db) := by
  have hadvance : (lookupMxHosts delivery message envelope).advance ctx db
      ((outside.resolving resolver).input (.lookupMxHosts delivery message envelope)) =
      some ([], resume delivery, db) := by
    simp only [Outside.input, Outside.resolving, advance, Context.findTargets, hlookup]
  rw [cycle_step (by rfl) hadvance, resume, cycle_of_free (held_drain _ _)]
  rfl

/-- A lookup that succeeds leads to `deliver_hosts`. -/
theorem cycle_lookupMxHosts_ok {hosts : List String}
    (hlookup : Zonemail.lookupMxHosts delivery.job.rcptTo resolver = .ok hosts) :
    cycle ctx (outside.resolving resolver) (fuel + 1)
        (.lookupMxHosts delivery message envelope) db =
      cycle ctx (outside.resolving resolver) fuel
        (ctx.callDeliverHosts ⟨delivery, message, envelope⟩ hosts) db := by
  have hadvance : (lookupMxHosts delivery message envelope).advance ctx db
      ((outside.resolving resolver).input (.lookupMxHosts delivery message envelope)) =
      some ([], ctx.callDeliverHosts ⟨delivery, message, envelope⟩ hosts, db) := by
    simp only [Outside.input, Outside.resolving, advance, Context.findTargets, hlookup,
      Context.callDeliverHosts]
    cases ctx.config.targets hosts with
    | error error => rfl
    | ok targets => rfl
  rw [cycle_step (by rfl) hadvance]
  rfl

/-- With a relay host, what follows the lookup is about that host. -/
theorem cycle_of_relay {host : String} {hosts : List String}
    (hrelay : ctx.config.transport.relay.bind OutboundRelay.host = some host)
    (hdatabase : outside.database (.deliverOne delivery) = true)
    (hload : ctx.load delivery db = .ok (message, envelope))
    (hlookup : Zonemail.lookupMxHosts delivery.job.rcptTo resolver = .ok hosts) :
    cycle ctx (outside.resolving resolver) (fuel + 2) (.deliverOne delivery) db =
      cycle ctx (outside.resolving resolver) fuel
        (offer ⟨delivery, message, envelope⟩ [host]) db := by
  have hloaded := @cycle_deliverOne ctx (outside.resolving resolver) db (fuel + 1) delivery message
    envelope hdatabase hload
  rw [hloaded,
    cycle_lookupMxHosts_ok hlookup, Context.callDeliverHosts_of_relay hrelay]

/-- When the TLS parameters cannot be built, the call ends without a connection. -/
theorem cycle_unbuilt {handOff : HandOff} {host : String}
    (hbuilt : Zonemail.buildOutboundTls ctx.config.transport host (outside.built host []) = none) :
    cycle ctx outside (fuel + 1) (offer handOff [host]) db =
      ([], resume handOff.toDelivery, db) := by
  have hadvance : (offer handOff [host]).advance ctx db (outside.input (offer handOff [host])) =
      some ([], resume handOff.toDelivery, db) := by
    simp only [offer, deliverHosts, Outside.input, advance, hbuilt]
  rw [cycle_step (held_offer _ _) hadvance, resume, cycle_of_free (held_drain _ _)]
  rfl

/-- When they can, the host is dialled. -/
theorem dials_ne_nil {handOff : HandOff} {host : String}
    (hbuilt : Zonemail.buildOutboundTls ctx.config.transport host (outside.built host []) ≠ none) :
    (cycle ctx outside (fuel + 1) (offer handOff [host]) db).1.filterMap Action.dial? ≠ [] := by
  obtain ⟨tls, htls⟩ := Option.ne_none_iff_exists'.mp hbuilt
  have hadvance : (offer handOff [host]).advance ctx db (outside.input (offer handOff [host])) =
      some ([.sent handOff.job.id (ctx.dial host tls) handOff.envelope handOff.message.raw],
        .sendRaw handOff host [], db) := by
    simp only [offer, deliverHosts, Outside.input, advance, htls]
  rw [cycle_step (held_offer _ _) hadvance]
  exact List.cons_ne_nil _ _

end Control

section Relay

variable {ctx : Context} {outside : Outside} {db : Db} {delivery : Delivery} {host : String}
  {first second : String → MxAnswer} {fuel : Nat}

/-- What can be seen of a call whose lookup fails. -/
theorem Context.callDeliverOne_of_error {resolver : String → MxAnswer} {error : String}
    (hloads : outside.Loads ctx delivery db)
    (hlookup : lookupMxHosts delivery.job.rcptTo resolver = .error error) :
    ctx.callDeliverOne (outside.resolving resolver) (fuel + 2) delivery db =
      ([], db.deliveryStatuses.rows, db.outbounds.get? delivery.job.id) := by
  obtain ⟨hdatabase, message, envelope, hload⟩ := hloads
  have hloaded := @Control.cycle_deliverOne ctx (outside.resolving resolver) db (fuel + 1) delivery
    message envelope hdatabase hload
  rw [callDeliverOne, hloaded, Control.cycle_lookupMxHosts_error hlookup]
  rfl

/-- One lookup that fails and one that does not make no difference exactly when the host cannot be
dialled. -/
theorem sameEffect_iff_of_error {error : String} {hosts : List String}
    (hrelay : ctx.config.transport.relay.bind OutboundRelay.host = some host)
    (hloads : outside.Loads ctx delivery db)
    (hfirst : lookupMxHosts delivery.job.rcptTo first = .error error)
    (hsecond : lookupMxHosts delivery.job.rcptTo second = .ok hosts) :
    ctx.callDeliverOne (outside.resolving first) (fuel + 3) delivery db =
        ctx.callDeliverOne (outside.resolving second) (fuel + 3) delivery db ↔
      buildOutboundTls ctx.config.transport host (outside.built host []) = none := by
  have hfailed := @Context.callDeliverOne_of_error ctx outside db delivery (fuel + 1) first error
    hloads hfirst
  obtain ⟨hdatabase, message, envelope, hload⟩ := hloads
  have hcycle := @Control.cycle_of_relay ctx outside db (fuel + 1) delivery message envelope second
    host hosts hrelay hdatabase hload hsecond
  rw [hfailed, Context.callDeliverOne, hcycle]
  constructor
  · intro hsame
    by_contra hbuilt
    exact @Control.dials_ne_nil ctx (outside.resolving second) db fuel _ host hbuilt
      (congrArg Prod.fst hsame).symm
  · intro hbuilt
    rw [@Control.cycle_unbuilt ctx (outside.resolving second) db fuel _ host hbuilt]
    rfl

/-- Two lookups that find hosts make no difference: both calls go on to the relay, and from there
nothing depends on the resolver. -/
theorem sameEffect_of_ok {hosts others : List String}
    (hrelay : ctx.config.transport.relay.bind OutboundRelay.host = some host)
    (hloads : outside.Loads ctx delivery db)
    (hfirst : lookupMxHosts delivery.job.rcptTo first = .ok hosts)
    (hsecond : lookupMxHosts delivery.job.rcptTo second = .ok others) :
    ctx.callDeliverOne (outside.resolving first) (fuel + 2) delivery db =
      ctx.callDeliverOne (outside.resolving second) (fuel + 2) delivery db := by
  obtain ⟨hdatabase, message, envelope, hload⟩ := hloads
  have hcycle := calc
    Control.cycle ctx (outside.resolving first) (fuel + 2) (.deliverOne delivery) db
    _ = Control.cycle ctx (outside.resolving first) fuel
          (Control.offer ⟨delivery, message, envelope⟩ [host]) db :=
        Control.cycle_of_relay hrelay hdatabase hload hfirst
    _ = Control.cycle ctx (outside.resolving second) fuel
          (Control.offer ⟨delivery, message, envelope⟩ [host]) db :=
        Control.cycle_resolving (Control.chosen_offer _ _) first second
    _ = Control.cycle ctx (outside.resolving second) (fuel + 2) (.deliverOne delivery) db :=
        (Control.cycle_of_relay hrelay hdatabase hload hsecond).symm
  rw [Context.callDeliverOne, hcycle, Context.callDeliverOne]

/-- A call that cannot load its message does nothing. -/
theorem cycle_of_not_loads (hloads : ¬ outside.Loads ctx delivery db)
    (resolver : String → MxAnswer) :
    Control.cycle ctx (outside.resolving resolver) (fuel + 1) (.deliverOne delivery) db =
      ([], Control.resume delivery, db) :=
  @Control.cycle_deliverOne_of_not ctx (outside.resolving resolver) db fuel delivery hloads

/-- With a relay host every call of `deliver_one` returns within six steps. -/
theorem held_cycle_deliverOne
    (hrelay : ctx.config.transport.relay.bind OutboundRelay.host = some host)
    (resolver : String → MxAnswer) :
    (Control.cycle ctx (outside.resolving resolver) (fuel + 6) (.deliverOne delivery)
      db).2.1.held = none := by
  by_cases hloads : outside.Loads ctx delivery db
  · obtain ⟨hdatabase, message, envelope, hload⟩ := hloads
    cases hlookup : lookupMxHosts delivery.job.rcptTo resolver with
    | error error =>
        have hloaded := @Control.cycle_deliverOne ctx (outside.resolving resolver) db (fuel + 5)
          delivery message envelope hdatabase hload
        rw [hloaded, Control.cycle_lookupMxHosts_error hlookup]
        exact Control.held_drain _ _
    | ok hosts =>
        rw [Control.cycle_of_relay hrelay hdatabase hload hlookup]
        exact Control.held_cycle (Control.chosen_offer _ _) (Nat.le_add_left 4 fuel)
  · rw [cycle_of_not_loads hloads]
    exact Control.held_drain _ _

/-- **When the lookup does not matter.** With a relay host, whatever the database, the TLS stack and
the relay do, every call of `deliver_one` returns; and two results of the MX lookup lead to the same
connections, audit trail and row of the job if and only if both are host lists or both are errors,
or the call ends before the lookup, or the relay cannot be dialled. -/
theorem sameEffect_iff
    (hrelay : ctx.config.transport.relay.bind OutboundRelay.host = some host) (hfuel : 6 ≤ fuel) :
    (∀ resolver, (Control.cycle ctx (outside.resolving resolver) fuel (.deliverOne delivery)
      db).2.1.held = none) ∧
    (ctx.callDeliverOne (outside.resolving first) fuel delivery db =
        ctx.callDeliverOne (outside.resolving second) fuel delivery db ↔
      (lookupMxHosts delivery.job.rcptTo first).isOk =
          (lookupMxHosts delivery.job.rcptTo second).isOk ∨
        ¬ outside.Loads ctx delivery db ∨
        buildOutboundTls ctx.config.transport host (outside.built host []) = none) := by
  obtain ⟨fuel, rfl⟩ : ∃ more, fuel = more + 6 := ⟨fuel - 6, by omega⟩
  refine ⟨held_cycle_deliverOne hrelay, ?_⟩
  by_cases hloads : outside.Loads ctx delivery db
  · cases hfirst : lookupMxHosts delivery.job.rcptTo first with
    | error error =>
        cases hsecond : lookupMxHosts delivery.job.rcptTo second with
        | error other =>
            have hsame : ctx.callDeliverOne (outside.resolving first) (fuel + 6) delivery db =
                ctx.callDeliverOne (outside.resolving second) (fuel + 6) delivery db :=
              (Context.callDeliverOne_of_error hloads hfirst).trans
                (Context.callDeliverOne_of_error hloads hsecond).symm
            exact iff_of_true hsame (.inl rfl)
        | ok hosts =>
            rw [sameEffect_iff_of_error hrelay hloads hfirst hsecond]
            simp [Except.isOk, Except.toBool, hloads]
    | ok hosts =>
        cases hsecond : lookupMxHosts delivery.job.rcptTo second with
        | error error =>
            rw [eq_comm, sameEffect_iff_of_error hrelay hloads hsecond hfirst]
            simp [Except.isOk, Except.toBool, hloads]
        | ok others => exact iff_of_true (sameEffect_of_ok hrelay hloads hfirst hsecond) (.inl rfl)
  · refine iff_of_true ?_ (.inr (.inl hloads))
    rw [Context.callDeliverOne, cycle_of_not_loads hloads, Context.callDeliverOne,
      cycle_of_not_loads hloads]

end Relay

/-- A relay table with a host. -/
def relayed : Context :=
  { defaultContext with
    config :=
      { defaultContext.config with
        transport := ⟨.plain, some ⟨some "relay.x.io", 587, none, none, none⟩, false⟩ } }

/-- The claimed job, at the start of `deliver_one`. -/
def claimedJob : Delivery := ⟨0, [], ⟨{ exampleJob with status := .inProgress }, 1⟩⟩

/-- Two host lists lead to the same call. -/
theorem sameEffect_relayed :
    relayed.callDeliverOne (secondHost.resolving (fun _ => .records [])) 6 claimedJob
        (oneJob Unit).db =
      relayed.callDeliverOne (secondHost.resolving (fun _ => .records [⟨10, "mx1.y.io."⟩])) 6
        claimedJob (oneJob Unit).db :=
  (@sameEffect_iff relayed secondHost (oneJob Unit).db claimedJob "relay.x.io" _ _ 6 rfl
    (Nat.le_refl 6)).2.mpr (.inl (by decide))

/-- When the lookup fails, nothing is dialled; when it finds no host, the relay is. -/
theorem not_sameEffect_relayed : ¬ ∀ (ctx : Context) (outside : Outside) (db : Db)
    (delivery : Delivery) (host : String) (first second : String → MxAnswer) (fuel : Nat),
    ctx.config.transport.relay.bind OutboundRelay.host = some host → 6 ≤ fuel →
      ctx.callDeliverOne (outside.resolving first) fuel delivery db =
        ctx.callDeliverOne (outside.resolving second) fuel delivery db := by
  intro h
  have hsame := h relayed secondHost (oneJob Unit).db claimedJob "relay.x.io"
    (fun _ => .failed "SERVFAIL") (fun _ => .records []) 6 rfl (Nat.le_refl 6)
  have hdials := congrArg (fun effect => effect.1.length) hsame
  revert hdials
  decide

end Zonemail
