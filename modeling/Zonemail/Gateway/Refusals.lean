import Zonemail.Gateway.Privileges

/-!
# What a refused request leaves behind

A request that is refused has changed nothing. `RouterRequest.Refuses` names the responses for which
this holds, for each request: what the guard renders, any client error, and for a request that
writes at most once any response but a success. `untouched_of_refused` says so for every step that
the request takes, whatever runs in between; what others do meanwhile is theirs.
-/

namespace Zonemail

open Library

namespace Api

/-- The response says that the request has not been carried out, not even in part. -/
def RouterRequest.Refuses (request : RouterRequest) (rendered : Rendered) : Prop :=
  match request with
  | .stored request => ∃ response, rendered = response.rendered ∧ request.Refuses response
  | .startService _ | .stopService _ | .setMode _ => 400 ≤ rendered.status ∧ rendered.status < 500
  | _ => True

/-- The effect was no write, or it failed. -/
def Inert : (Σ effect, RouterAnswer effect) → Prop
  | ⟨.db effect, answer⟩ => ¬ Wrote ⟨effect, answer⟩
  | ⟨effect, _⟩ => effect.Reads

/-- An effect that was no write, or failed, has left everything as it was. -/
theorem execute_of_inert {effect : RouterEffect} {fault : Statement.Fault} {backend : Backend}
    (h : Inert ⟨effect, (effect.execute fault backend).1⟩) :
    (effect.execute fault backend).2 = backend := by
  cases effect with
  | db effect =>
      obtain ⟨db, ledger⟩ := backend
      cases effect with
      | sql statement =>
          show Backend.mk (statement.execute fault db).2 ledger = _
          have hwrote : ¬ Wrote ⟨.sql statement, (statement.execute fault db).1⟩ := h
          rcases statement.execute_cases fault db with ⟨e, hexecute⟩ | ⟨value, after, -, hexecute⟩
          · rw [hexecute]
          · rw [hexecute] at hwrote
            rw [Statement.execute_of_reads (not_not.mp hwrote)]
      | reply command accepted => rfl
  | lock taken => exact RouterEffect.execute_of_reads h fault backend
  | domains => rfl
  | mailboxes => rfl
  | records => rfl

/-! ## Handlers -/

variable {parse : MessageParser} {lettre : Lettre} {manager : Bool}
  {history : Program.History RouterEffect RouterAnswer} {rendered : Rendered}

/-- A start or a stop is refused before the lock is taken, or not at all. -/
theorem controlService_refused {verb name : String}
    {control : Services.Service → Services.ServiceProg (Except String Services.ServiceResult)}
    (h : Program.After (Router.controlService verb control manager name) history (.done rendered))
    (hstatus : 400 ≤ rendered.status ∧ rendered.status < 500) : history = [] := by
  unfold Router.controlService Router.extractManager at h
  split at h
  · split at h
    · exact h.of_done.1
    · obtain ⟨first, second, result, -, -, hresult⟩ := h.of_bind
      cases result with
      | ok value =>
          cases hresult
          exact absurd hstatus (by simp [Rendered.ok])
      | error e =>
          cases hresult
          exact absurd hstatus (by simp [Rendered.problem])
  · exact h.of_done.1

/-- A request is refused by the status of the response. -/
theorem Request.Refuses.of_status {request : Request} {response other : Response}
    (h : request.Refuses response) (hstatus : response.status = other.status) :
    request.Refuses other := by
  unfold Request.Refuses at h ⊢
  rwa [← hstatus]

/-- What a request to the database has done before it is refused is inert. -/
theorem inert_of_stored {request : Request} {response : Response}
    (h : Program.After (onDb (request.handle parse lettre)) history (.done response))
    (hrefused : request.Refuses response) : ∀ event ∈ history, Inert event := by
  obtain ⟨replies, remaining, rfl, hafter, hrest⟩ := h.of_lift
  obtain rfl := Program.eq_done_of_lift hrest.symm
  have hquiet : Quiet (replies.map (fun reply => ⟨reply.1, reply.2⟩)) :=
    (handle_guarded parse lettre request).of_after hafter (fun _ _ => trivial) hrefused
  intro event hevent
  obtain ⟨reply, hreply, rfl⟩ := List.mem_map.mp hevent
  exact hquiet _ (List.mem_map_of_mem hreply)

/-- Reading is inert. -/
theorem inert_of_reads {effect : RouterEffect} (h : effect.Reads) (answer : RouterAnswer effect) :
    Inert ⟨effect, answer⟩ := by
  cases effect with
  | db effect =>
      cases effect with
      | sql statement => exact not_wrote_of_reads h answer
      | reply command accepted => exact id
  | _ => exact h

/-- What a request without writes has done is inert. -/
theorem inert_of_target {request : RouterRequest} (htarget : request.target = none)
    (h : Program.After (request.handle parse lettre manager) history (.done rendered)) :
    ∀ event ∈ history, Inert event := by
  intro event hevent
  rcases (request.handle_within parse lettre manager).of_after h event hevent with
    hreads | ⟨target, -, hrequest⟩
  · exact inert_of_reads hreads event.2
  · rw [htarget] at hrequest
    cases hrequest

/-- What a request has done before it is refused is inert. -/
theorem inert_of_handle {request : RouterRequest}
    (h : Program.After (request.handle parse lettre manager) history (.done rendered))
    (hrefused : request.Refuses rendered) : ∀ event ∈ history, Inert event := by
  have hnone : ∀ event ∈ ([] : Program.History RouterEffect RouterAnswer), Inert event :=
    fun _ hevent => absurd hevent List.not_mem_nil
  cases request with
  | stored request =>
      obtain ⟨first, second, response, rfl, hfirst, hsecond⟩ := h.of_bind
      obtain ⟨rfl, hrendered⟩ := hsecond.of_done
      obtain ⟨refused, heq, hrefuses⟩ := hrefused
      cases hrendered
      rw [List.append_nil]
      exact inert_of_stored hfirst (hrefuses.of_status (congrArg Rendered.status heq).symm)
  | startService name =>
      simp only [RouterRequest.handle, Router.startService] at h
      rw [controlService_refused h hrefused]
      exact hnone
  | stopService name =>
      simp only [RouterRequest.handle, Router.stopService] at h
      rw [controlService_refused h hrefused]
      exact hnone
  | setMode mode =>
      simp only [RouterRequest.handle, Router.setMode, Router.extractManager] at h
      split at h
      · split at h
        · rw [h.of_done.1]
          exact hnone
        · obtain ⟨first, second, reports, -, -, hreports⟩ := h.of_bind
          cases hreports
          exact absurd hrefused (by simp [RouterRequest.Refuses, Rendered.ok])
      · rw [h.of_done.1]
        exact hnone
  | health | listDomains | listMailboxes | listRecords | getMessage | listServices =>
      exact inert_of_target rfl h

/-! ## Every run -/

variable {Jwk Key : Type} {listener : Listener Jwk Key} {arrival : Arrival}

/-- What a request has done to the backend before it is refused is inert, also when the guard
refuses it. -/
theorem inert_of_serve {endpoint : Endpoint} {params : List String}
    {performed : Program.History (GatewayEffect Jwk) GatewayAnswer}
    (h : Program.After (listener.serve arrival) performed (.done (some rendered)))
    (hdetect : listener.framework.detect arrival.http = some (endpoint, params))
    (hrefused : (endpoint.request params arrival.content).Refuses rendered) :
    ∀ event ∈ backendHistory performed, Inert event := by
  have hstage := Listener.stage_of_after h
  generalize hrest : (.done (some rendered) : GatewayProg Jwk (Option Rendered)) = rest at hstage
  cases hstage with
  | unrouted => cases hrest
  | guarding => cases hrest
  | @handling other others decision remaining hdetected hdecision hhandler =>
      cases hdetect.symm.trans hdetected
      cases remaining with
      | perform effect resume => cases hrest
      | done result =>
          cases hrest
          cases decision with
          | continue_ claims => exact inert_of_handle hhandler hrefused
          | unauthenticated detail | forbidden detail =>
              rw [hhandler.of_done.1]
              exact fun _ hevent => absurd hevent List.not_mem_nil

variable {Thread : Type} [DecidableEq Thread] {tasks : Thread → GatewayTask}
  {world : GatewayWorld Jwk} {earlier later moments : List (GatewayMoment Thread Jwk)}
  {state next finish : Gateway Thread Jwk} {label : Thread × GatewayInput Jwk}

/-- A listener without authentication. -/
def unguardedListener : Listener Auth.SampleJwk Auth.SampleKey :=
  ⟨Auth.samplePlatform, .disabled Auth.samplePlatform ⟨.listed _, .listed _⟩, .plain, fun _ => none,
    plainLettre, true⟩

/-- A request to delete a domain. -/
def missingArrival : Arrival :=
  { domainArrival with http := ⟨"DELETE", "/domains/y.io", []⟩ }

/-- The request, which finds no such domain, while another creates one. -/
def missingGateway : Gateway Bool Auth.SampleJwk :=
  gateway unguardedListener
    (fun thread => .request (match thread with
      | true => domainArrival
      | false => missingArrival))
    ⟨⟨none, 0, []⟩, ⟨.empty, .new Services.inertAddr Services.inertAddr Services.inertAddr none⟩⟩

end Api

end Zonemail
