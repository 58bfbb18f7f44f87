import Zonemail.Auth.Guard
import Zonemail.Gateway.Routes

/-!
# Requests behind the guard

A request as the listener serves it: the framework finds the endpoint, the guard decides, and the
handler runs when the guard lets the request pass. The decision works on the key cache of the
service and the handler on the database and the service manager, so that the programs here perform
the effects of both, over a store that has all three. `gateway` holds any number of requests and of
background refreshes over one store, and its runs are their interleavings.
-/

namespace Zonemail.Api

open Library
open Auth (AuthService HttpRequest KeyAnswer KeyEffect KeyProg KeyWorld Platform)

variable {Jwk Key : Type}

/-! ## Effects -/

/-- One atomic effect of a request. -/
inductive GatewayEffect (Jwk : Type) where
  | key (effect : KeyEffect Jwk)
  | backend (effect : RouterEffect)

/-- What a request learns from an effect. -/
@[reducible] def GatewayAnswer : GatewayEffect Jwk → Type
  | .key effect => KeyAnswer effect
  | .backend effect => RouterAnswer effect

/-- The programs of the listener. -/
abbrev GatewayProg (Jwk α : Type) := Program (GatewayEffect Jwk) GatewayAnswer α

/-- A program over the key cache, as one of the listener. -/
def onKeys {α : Type} (program : KeyProg Jwk α) : GatewayProg Jwk α :=
  program.lift GatewayEffect.key (fun _ answer => answer)

/-- A program of an endpoint, as one of the listener. -/
def onBackend {α : Type} (program : RouterProg α) : GatewayProg Jwk α :=
  program.lift GatewayEffect.backend (fun _ answer => answer)

/-- The key cache, the database and the service manager. -/
structure GatewayWorld (Jwk : Type) where
  keys : KeyWorld Jwk
  backend : Backend

/-- What surrounds one effect: the time that has passed, what a fetch would find now, and whether
the database or the spawning of a task fails. -/
structure GatewayInput (Jwk : Type) where
  elapsed : Nat
  source : Except String (List Jwk)
  fault : Statement.Fault

/-- Perform one effect; `ttl` is the age at which the key set is stale. -/
def gatewayExecute (ttl : Nat) (effect : GatewayEffect Jwk) (input : GatewayInput Jwk)
    (world : GatewayWorld Jwk) : GatewayAnswer effect × GatewayWorld Jwk :=
  match effect with
  | .key effect =>
      let result := Auth.keyExecute ttl effect (input.elapsed, input.source) world.keys
      (result.1, { world with keys := result.2 })
  | .backend effect =>
      let result := effect.execute input.fault world.backend
      (result.1, { world with backend := result.2 })

/-! ## Programs -/

/-- What the listener runs on: the token library, the service built from the configuration, the
framework, the mail libraries, and whether the service manager was injected. -/
structure Listener (Jwk Key : Type) where
  platform : Platform Jwk Key
  service : AuthService Jwk Key
  framework : Framework
  parse : MessageParser
  lettre : Lettre
  manager : Bool

/-- A request as it arrives: the time at which its token is decoded, what the guard and the
framework read of it, and what its query and body read as. -/
structure Arrival where
  now : Nat
  http : HttpRequest
  content : Content

/-- Serve a request. Without a matching route the framework answers by itself, and neither the guard
nor a handler runs. -/
def Listener.serve (listener : Listener Jwk Key) (arrival : Arrival) :
    GatewayProg Jwk (Option Rendered) :=
  match listener.framework.detect arrival.http with
  | none => pure none
  | some (endpoint, params) => do
      let decision ← onKeys (listener.service.enforce listener.platform arrival.now arrival.http)
      let rendered ← onBackend (Api.serve listener.parse listener.lettre listener.manager decision
        (endpoint.request params arrival.content))
      pure (some rendered)

/-- What runs over the store of a listener. -/
inductive GatewayTask where
  | request (arrival : Arrival)
  | refresh (rounds : Nat)

/-- The program of a task. -/
def GatewayTask.program (listener : Listener Jwk Key) :
    GatewayTask → GatewayProg Jwk (Option Rendered)
  | .request arrival => listener.serve arrival
  | .refresh rounds => do
      onKeys (Auth.spawnRefresh rounds)
      pure none

/-- The tasks over a store. -/
abbrev Gateway (Thread Jwk : Type) :=
  Pool Thread (GatewayEffect Jwk) GatewayAnswer (Option Rendered) (GatewayWorld Jwk)

/-- One effect of one task of a gateway. -/
abbrev GatewayMoment (Thread Jwk : Type) :=
  Moment Thread (GatewayEffect Jwk) GatewayAnswer (GatewayWorld Jwk)

/-- The tasks over any store. -/
def gateway {Thread : Type} (listener : Listener Jwk Key) (tasks : Thread → GatewayTask)
    (world : GatewayWorld Jwk) : Gateway Thread Jwk where
  store := world
  program := fun thread => (tasks thread).program listener

/-- Any task performs its next effect. -/
def Listener.step {Thread : Type} [DecidableEq Thread] (listener : Listener Jwk Key) :
    Gateway Thread Jwk → Thread × GatewayInput Jwk →
      Option (List (GatewayMoment Thread Jwk) × Gateway Thread Jwk) :=
  Pool.step (gatewayExecute listener.service.ttl)

/-! ## What remains of a request -/

/-- The accesses to the key cache in a history. -/
def keyHistory (history : Program.History (GatewayEffect Jwk) GatewayAnswer) :
    Program.History (KeyEffect Jwk) KeyAnswer :=
  history.filterMap (fun event => match event with
    | ⟨.key effect, answer⟩ => some ⟨effect, answer⟩
    | ⟨.backend _, _⟩ => none)

/-- The effects on the backend in a history. -/
def backendHistory (history : Program.History (GatewayEffect Jwk) GatewayAnswer) :
    Program.History RouterEffect RouterAnswer :=
  history.filterMap (fun event => match event with
    | ⟨.key _, _⟩ => none
    | ⟨.backend effect, answer⟩ => some ⟨effect, answer⟩)

/-- How far a request has come: the framework has answered, the guard is at work, or it has decided
and the handler is at work or done. -/
inductive Listener.Stage (listener : Listener Jwk Key) (arrival : Arrival)
    (history : Program.History (GatewayEffect Jwk) GatewayAnswer) :
    GatewayProg Jwk (Option Rendered) → Prop where
  | unrouted (hdetect : listener.framework.detect arrival.http = none) :
      Stage listener arrival history (.done none)
  | guarding {effect : KeyEffect Jwk}
      {resume : KeyAnswer effect → GatewayProg Jwk (Option Rendered)} :
      Stage listener arrival history (.perform (.key effect) resume)
  | handling {endpoint : Endpoint} {params : List String} {decision : Auth.Decision}
      {remaining : RouterProg Rendered}
      (hdetect : listener.framework.detect arrival.http = some (endpoint, params))
      (hdecision : Program.After
        (listener.service.enforce listener.platform arrival.now arrival.http) (keyHistory history)
        (.done decision))
      (hhandler : Program.After (Api.serve listener.parse listener.lettre listener.manager decision
        (endpoint.request params arrival.content)) (backendHistory history) remaining) :
      Stage listener arrival history
        (onBackend remaining >>= fun rendered => pure (some rendered))

/-- What remains of a program over the key cache, behind the listener. -/
theorem after_onKeys {α : Type} {program : KeyProg Jwk α} {rest : GatewayProg Jwk α}
    {history : Program.History (GatewayEffect Jwk) GatewayAnswer}
    (h : Program.After (onKeys program) history rest) :
    ∃ (keys : Program.History (KeyEffect Jwk) KeyAnswer) (remaining : KeyProg Jwk α),
      history = keys.map (fun event => ⟨.key event.1, event.2⟩) ∧
      Program.After program keys remaining ∧ rest = onKeys remaining := by
  obtain ⟨keys, remaining, rfl, hafter, rfl⟩ := h.of_lift
  exact ⟨_, remaining, rfl, (List.map_id keys) ▸ hafter, rfl⟩

/-- What remains of a program of an endpoint, behind the listener. -/
theorem after_onBackend {α : Type} {program : RouterProg α} {rest : GatewayProg Jwk α}
    {history : Program.History (GatewayEffect Jwk) GatewayAnswer}
    (h : Program.After (onBackend program) history rest) :
    ∃ (effects : Program.History RouterEffect RouterAnswer) (remaining : RouterProg α),
      history = effects.map (fun event => ⟨.backend event.1, event.2⟩) ∧
      Program.After program effects remaining ∧ rest = onBackend remaining := by
  obtain ⟨effects, remaining, rfl, hafter, rfl⟩ := h.of_lift
  exact ⟨_, remaining, rfl, (List.map_id effects) ▸ hafter, rfl⟩

variable {listener : Listener Jwk Key} {arrival : Arrival}
  {history : Program.History (GatewayEffect Jwk) GatewayAnswer}
  {rest : GatewayProg Jwk (Option Rendered)}

/-- A handler at work, from what the guard and the handler have performed. -/
theorem Listener.stage_handling {endpoint : Endpoint} {params : List String}
    {decision : Auth.Decision} {remaining : RouterProg Rendered}
    {keys : Program.History (KeyEffect Jwk) KeyAnswer}
    {effects : Program.History RouterEffect RouterAnswer}
    (hdetect : listener.framework.detect arrival.http = some (endpoint, params))
    (hkeys : Program.After
      (listener.service.enforce listener.platform arrival.now arrival.http) keys (.done decision))
    (hhandler : Program.After (Api.serve listener.parse listener.lettre listener.manager decision
      (endpoint.request params arrival.content)) effects remaining) :
    listener.Stage arrival (keys.map (fun event => ⟨.key event.1, event.2⟩) ++
      effects.map (fun event => ⟨.backend event.1, event.2⟩))
      (onBackend remaining >>= fun rendered => pure (some rendered)) := by
  have hkey : keyHistory (keys.map (fun event => ⟨.key event.1, event.2⟩) ++
      effects.map (fun event => ⟨.backend event.1, event.2⟩)) = keys := by simp [keyHistory]
  have hbackend : backendHistory (keys.map (fun event => ⟨.key event.1, event.2⟩) ++
      effects.map (fun event => ⟨.backend event.1, event.2⟩)) = effects := by
    simp [backendHistory]
  exact .handling hdetect (hkey.symm ▸ hkeys) (hbackend.symm ▸ hhandler)

/-- What remains of a request after any answers is at one of the stages. -/
theorem Listener.stage_of_after (h : Program.After (listener.serve arrival) history rest) :
    listener.Stage arrival history rest := by
  unfold Listener.serve at h
  split at h
  · rename_i hdetect
    obtain ⟨rfl, rfl⟩ := h.of_done
    exact .unrouted hdetect
  · rename_i endpoint params hdetect
    rcases h.bind_cases with ⟨wider, resume, hafter, rfl⟩ |
      ⟨first, second, decision, rfl, hfirst, hsecond⟩
    · obtain ⟨keys, remaining, -, -, hrest⟩ := after_onKeys hafter
      obtain ⟨effect, next, -, rfl⟩ := Program.exists_of_lift_eq_perform hrest.symm
      exact .guarding
    · obtain ⟨keys, remaining, rfl, hkeys, hrest⟩ := after_onKeys hfirst
      obtain rfl := Program.eq_done_of_lift hrest.symm
      rcases hsecond.bind_cases with ⟨wider, resume, hafter, rfl⟩ |
        ⟨second, last, rendered, rfl, heffects, hlast⟩
      · obtain ⟨effects, remaining, rfl, hhandler, hrest⟩ := after_onBackend hafter
        obtain ⟨effect, next, rfl, rfl⟩ := Program.exists_of_lift_eq_perform hrest.symm
        cases hrest
        exact stage_handling hdetect hkeys hhandler
      · obtain ⟨effects, remaining, rfl, hhandler, hrest⟩ := after_onBackend heffects
        obtain rfl := Program.eq_done_of_lift hrest.symm
        obtain ⟨rfl, rfl⟩ := hlast.of_done
        rw [List.append_nil]
        exact stage_handling hdetect hkeys hhandler

end Zonemail.Api
