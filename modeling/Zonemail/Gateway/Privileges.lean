import Zonemail.Api.Footprints
import Zonemail.Api.Spelling
import Zonemail.Gateway.Requests
import Zonemail.Text.Folding

/-!
# What a change needs

Each effect that changes the database or the service manager belongs to a permission: a resource
and a verb. `granted_of_change` says that, whatever requests and refreshes interleave, a request
that changes anything is entitled to that permission by the configuration: authentication is off,
the resource is public, the service fails open and has no keys, or the bearer token of the request
was verified to roles that reach a matching grant. The verb is that of the method, so a request that
reads changes nothing.

The guard sees the path of a request as it was sent, and the framework the decoded one. A path with
an escape may therefore be routed to a resource that the guard did not ask for. It gains nothing
when no name in the configuration has a `%` in it: then only grants for every resource cover it.
-/

namespace Zonemail

open Library
open Auth (AuthConfig AuthService BuildOrder Grant KeyAnswer KeyEffect Permits RouteTarget Verb
  extractBearer roleNames)
open Text (splitOnce toAsciiLowercase trim)

/-- The permission that a statement of a request belongs to, if it writes. -/
def Statement.target : Statement → Option RouteTarget
  | .createDomain _ => some ⟨"domains", .write⟩
  | .deleteDomain _ => some ⟨"domains", .delete⟩
  | .createMailbox _ | .updateMailbox _ _ _ => some ⟨"mailboxes", .write⟩
  | .deleteMailbox _ => some ⟨"mailboxes", .delete⟩
  | .createRecord _ | .updateRecord _ _ => some ⟨"records", .write⟩
  | .deleteRecord _ => some ⟨"records", .delete⟩
  | .createMessage _ | .createOutbound _ => some ⟨"mail", .write⟩
  | .deleteInboundsOfMessage _ | .deleteOutboundsOfMessage _ | .deleteMessage _ =>
      some ⟨"messages", .delete⟩
  | _ => none

namespace Api

/-! ## The permission of a request -/

/-- The permission that an effect of an endpoint belongs to, if it changes anything. -/
def RouterEffect.target : RouterEffect → Option RouteTarget
  | .db (.sql statement) => statement.target
  | .lock (.start _) | .lock (.stop _) => some ⟨"services", .write⟩
  | _ => none

/-- The effect leaves the database and the service manager as they are. -/
def RouterEffect.Reads : RouterEffect → Prop
  | .db (.sql statement) => statement.Reads
  | .lock (.start _) | .lock (.stop _) => False
  | _ => True

theorem RouterEffect.execute_of_reads {effect : RouterEffect} (h : effect.Reads)
    (fault : Statement.Fault) (backend : Backend) : (effect.execute fault backend).2 = backend := by
  obtain ⟨db, ledger⟩ := backend
  cases effect with
  | db effect =>
      cases effect with
      | sql statement =>
          show Backend.mk (statement.execute fault db).2 ledger = _
          rw [Statement.execute_of_reads h]
      | reply command accepted => rfl
  | lock taken =>
      cases taken with
      | start svc => exact h.elim
      | stop svc => exact h.elim
      | smtpsConfigured => rfl
      | list => rfl
  | domains => rfl
  | mailboxes => rfl
  | records => rfl

/-- The permission that the writes of a request belong to, if it has any. -/
def Request.target : Request → Option RouteTarget
  | .createDomain _ => some ⟨"domains", .write⟩
  | .deleteDomain _ => some ⟨"domains", .delete⟩
  | .createMailbox _ | .patchMailbox _ _ => some ⟨"mailboxes", .write⟩
  | .deleteMailbox _ => some ⟨"mailboxes", .delete⟩
  | .createRecord _ | .patchRecord _ _ => some ⟨"records", .write⟩
  | .deleteRecord _ => some ⟨"records", .delete⟩
  | .sendEmail _ => some ⟨"mail", .write⟩
  | .deleteMessage _ => some ⟨"messages", .delete⟩
  | _ => none

def RouterRequest.target : RouterRequest → Option RouteTarget
  | .stored request => request.target
  | .startService _ | .stopService _ | .setMode _ => some ⟨"services", .write⟩
  | _ => none

/-- The permission of the requests that an endpoint answers. -/
def Endpoint.target : Endpoint → Option RouteTarget
  | .createDomain => some ⟨"domains", .write⟩
  | .deleteDomain => some ⟨"domains", .delete⟩
  | .createMailbox | .patchMailbox => some ⟨"mailboxes", .write⟩
  | .deleteMailbox => some ⟨"mailboxes", .delete⟩
  | .createRecord | .patchRecord => some ⟨"records", .write⟩
  | .deleteRecord => some ⟨"records", .delete⟩
  | .sendEmail => some ⟨"mail", .write⟩
  | .setMode | .startService | .stopService => some ⟨"services", .write⟩
  | .deleteMessage => some ⟨"messages", .delete⟩
  | _ => none

theorem Endpoint.target_request (endpoint : Endpoint) (params : List String) (content : Content) :
    (endpoint.request params content).target = endpoint.target := by
  cases endpoint <;> rfl

/-- The path is named after the resource, and the method has the verb. -/
def namesTarget (method : String) : List PathPart → Option RouteTarget → Bool
  | .name name :: _, some target =>
      target = ⟨name, Verb.fromMethod method⟩ ∧ toAsciiLowercase name = name
  | _, _ => true

/-- A route that writes is named after the resource, and its method has the verb. -/
theorem target_of_route {route : Route} {target : RouteTarget} {name : String}
    {parts : List PathPart} (hroute : route ∈ createRouter)
    (hpath : route.path = .name name :: parts)
    (htarget : route.endpoint.target = some target) :
    target = ⟨name, Verb.fromMethod route.method⟩ ∧ toAsciiLowercase name = name := by
  have hall : createRouter.all (fun route =>
      namesTarget route.method route.path route.endpoint.target) = true := by decide +kernel
  have h := List.all_eq_true.mp hall route hroute
  rw [hpath, htarget] at h
  exact of_decide_eq_true h

variable {parse : MessageParser} {lettre : Lettre}

/-- What a request may write belongs to its permission. -/
theorem Request.MayWrite.target {request : Request} {statement : Statement}
    (h : request.MayWrite parse lettre statement) :
    ∃ target, statement.target = some target ∧ request.target = some target := by
  unfold Request.MayWrite at h
  split at h
  all_goals first | exact h.elim | exact ⟨_, rfl, rfl⟩

/-- The effect only reads, or it belongs to the permission of the request. -/
def RouterRequest.Within (request : RouterRequest) (effect : RouterEffect) : Prop :=
  effect.Reads ∨ ∃ target, effect.target = some target ∧ request.target = some target

/-- Every section of a switch of the mode only reads or belongs to its permission. -/
theorem applyMode_within (mode : Services.BootMode) : (Services.applyMode mode).Performs
    (fun taken => (RouterRequest.setMode (some mode)).Within (.lock taken)) := by
  have hall (want : Services.Service → Bool) (services : List Services.Service) :
      (Services.applyAll want services).Performs
        (fun taken => (RouterRequest.setMode (some mode)).Within (.lock taken)) := by
    induction services with
    | nil => exact .done
    | cons svc rest ih =>
        rw [Services.applyAll]
        split
        · exact .perform (.inr ⟨_, rfl, rfl⟩) (fun _ => ih)
        · exact .perform (.inr ⟨_, rfl, rfl⟩) (fun _ => ih)
  rw [Services.applyMode]
  refine Program.performs_bind (.perform (.inl trivial) (fun _ => .done)) (fun configured => ?_)
  exact Program.performs_bind (hall _ _) (fun _ => .perform (.inl trivial) (fun _ => .done))

/-- Every effect of a request only reads or belongs to its permission. -/
theorem RouterRequest.handle_within (parse : MessageParser) (lettre : Lettre) (manager : Bool)
    (request : RouterRequest) :
    (request.handle parse lettre manager).Performs request.Within := by
  cases request with
  | stored request =>
      refine Program.performs_bind ((handle_performs parse lettre request).lift ?_)
        (fun _ => .done)
      intro effect hfootprint
      cases effect with
      | sql statement =>
          rcases hfootprint with hreads | hwrites
          · exact .inl hreads
          · exact .inr hwrites.target
      | reply command accepted => exact hfootprint.elim
  | health => exact .done
  | listDomains query | listMailboxes query =>
      refine .perform (.inl trivial) (fun answer => ?_)
      cases answer <;> exact .done
  | listRecords query =>
      simp only [handle, Router.listRecords]
      split
      · exact .done
      · refine .perform (.inl trivial) (fun answer => ?_)
        cases answer <;> exact .done
  | getMessage messageId =>
      refine .perform (.inl trivial) (fun answer => ?_)
      cases answer <;> exact .done
  | listServices =>
      simp only [handle, Router.listServices, Router.extractManager]
      split
      · exact .perform (.inl trivial) (fun _ => .done)
      · exact .done
  | startService name | stopService name =>
      simp only [handle, Router.startService, Router.stopService, Router.controlService,
        Router.extractManager]
      split
      · split
        · exact .done
        · refine .perform (.inr ⟨_, rfl, rfl⟩) (fun answer => ?_)
          cases answer <;> exact .done
      · exact .done
  | setMode mode =>
      simp only [handle, Router.setMode, Router.extractManager]
      split
      · split
        · exact .done
        · exact Program.performs_bind ((applyMode_within _).lift (fun _ h => h)) (fun _ => .done)
      · exact .done

/-- Behind the guard too. -/
theorem serve_within (parse : MessageParser) (lettre : Lettre) (manager : Bool)
    (decision : Auth.Decision) (request : RouterRequest) :
    (serve parse lettre manager decision request).Performs request.Within := by
  unfold serve
  split
  · exact .done
  · exact request.handle_within parse lettre manager

end Api

/-! ## Escapes in a path -/

namespace Auth

/-- No public resource and no grant of the configuration has a `%` in it. -/
structure AuthConfig.Unescaped (config : AuthConfig) : Prop where
  isPublic : ∀ name ∈ config.public_, '%' ∉ name.toList
  grants : ∀ entry ∈ config.roles.entries, ∀ token ∈ entry.2.grants, '%' ∉ token.toList

theorem percent_mem_of_toAsciiLowercase {s : String} (h : '%' ∈ (toAsciiLowercase s).toList) :
    '%' ∈ s.toList := by
  rw [toAsciiLowercase, String.toList_ofList] at h
  obtain ⟨c, hc, hlower⟩ := List.mem_map.mp h
  rwa [← Text.eq_of_toLower_eq hlower (by decide)]

/-- What stands before a separator is part of the text. -/
theorem mem_of_splitOnce {separator c : Char} {s left right : String}
    (h : splitOnce separator s = some (left, right)) (hc : c ∈ left.toList) : c ∈ s.toList := by
  unfold splitOnce at h
  rw [List.span_eq_takeWhile_dropWhile] at h
  split at h
  · cases h
  · rename_i before first after hspan
    cases h
    obtain ⟨hbefore, -⟩ := Prod.mk.inj hspan
    rw [String.toList_ofList, ← hbefore] at hc
    exact List.takeWhile_subset _ hc

/-- The resource that a grant names. -/
def Grant.named : Grant → Option String
  | .anyVerb resource | .exact resource _ => some resource
  | _ => none

/-- A grant that covers a resource covers them all or names it. -/
theorem Grant.matches_cases {grant : Grant} {resource : String} {verb : Verb}
    (h : grant.matches resource verb = true) :
    (∀ other, grant.matches other verb = true) ∨ grant.named = some resource := by
  cases grant with
  | all => exact .inl (fun _ => rfl)
  | anyResource granted => exact .inl (fun _ => h)
  | anyVerb granted =>
      have hgranted : granted = resource := by simpa [Grant.matches] using h
      exact .inr (congrArg some hgranted)
  | exact granted other =>
      have hgranted : granted = resource ∧ other = verb := by simpa [Grant.matches] using h
      exact .inr (congrArg some hgranted.1)

/-- A `%` in the resource that a grant names stands in its token. -/
theorem Grant.percent_of_parse {token resource : String} {grant : Grant}
    (hparse : Grant.parse token = some grant) (hnamed : grant.named = some resource)
    (h : '%' ∈ resource.toList) : '%' ∈ token.toList := by
  have htrim (hmem : '%' ∈ (trim token).toList) : '%' ∈ token.toList :=
    Text.mem_of_mem_trimMatches hmem
  have hleft {left right : String} (hsplit : splitOnce ':' (trim token) = some (left, right))
      (hmem : '%' ∈ (toAsciiLowercase (trim left)).toList) : '%' ∈ token.toList :=
    htrim (mem_of_splitOnce hsplit
      (Text.mem_of_mem_trimMatches (percent_mem_of_toAsciiLowercase hmem)))
  simp only [Grant.parse] at hparse
  split at hparse
  · rw [← Option.some.inj hparse] at hnamed
    cases hnamed
  · split at hparse
    · rw [← Option.some.inj hparse] at hnamed
      exact htrim (Option.some.inj hnamed ▸ h)
    · rename_i left right hsplit
      split at hparse
      · split at hparse
        · rw [← Option.some.inj hparse] at hnamed
          cases hnamed
        · rw [← Option.some.inj hparse] at hnamed
          exact hleft hsplit (Option.some.inj hnamed ▸ h)
      · split at hparse
        · obtain ⟨granted, -, heq⟩ := Option.map_eq_some_iff.mp hparse
          rw [← heq] at hnamed
          cases hnamed
        · obtain ⟨granted, -, heq⟩ := Option.map_eq_some_iff.mp hparse
          rw [← heq] at hnamed
          exact hleft hsplit (Option.some.inj hnamed ▸ h)

/-- What is permitted on a resource with a `%` is permitted on every resource. -/
theorem Permits.of_escaped {config : AuthConfig} {callers : List String} {escaped : String}
    {verb : Verb} (hconfig : config.Unescaped) (hescaped : '%' ∈ escaped.toList)
    (h : Permits config.roles config.public_ callers ⟨escaped, verb⟩) (resource : String) :
    Permits config.roles config.public_ callers ⟨resource, verb⟩ := by
  have hlower : '%' ∈ (toAsciiLowercase escaped).toList := by
    rw [toAsciiLowercase, String.toList_ofList]
    exact List.mem_map.mpr ⟨'%', hescaped, by decide⟩
  rcases h with hpublic | ⟨caller, hcaller, name, grant, hreach, hgrant, hmatches⟩
  · obtain ⟨public_, hmem, heq⟩ := List.mem_map.mp hpublic
    rw [← heq] at hlower
    exact absurd (percent_mem_of_toAsciiLowercase hlower) (hconfig.isPublic public_ hmem)
  · refine .inr ⟨caller, hcaller, name, grant, hreach, hgrant, ?_⟩
    obtain ⟨entry, hentry, -, hmem⟩ := hgrant
    obtain ⟨token, htoken, hparse⟩ := List.mem_filterMap.mp hmem
    rcases Grant.matches_cases hmatches with hall | hnamed
    · exact hall _
    · exact absurd (Grant.percent_of_parse hparse hnamed hlower)
        (hconfig.grants entry hentry token htoken)

/-- The policy of a service that is enabled is compiled from its configuration. -/
theorem AuthService.policy_of_build {Jwk Key : Type} {platform : Platform Jwk Key}
    {order : BuildOrder} {config : AuthConfig} {service : AuthService Jwk Key}
    (henabled : config.enabled = true)
    (h : AuthService.build platform order config = .ok service) :
    service.policy = .build order config.roles config.public_ := by
  simp only [AuthService.build, henabled, if_true] at h
  split at h
  · cases h
  · split at h
    · cases h
    · cases h
      rfl

end Auth

namespace Api

/-! ## What entitles a request -/

variable {Jwk Key : Type}

/-- Why a request may do what a permission covers; the history is that of its accesses to the key
cache. -/
inductive Granted (config : AuthConfig) (listener : Listener Jwk Key) (arrival : Arrival)
    (history : Program.History (KeyEffect Jwk) KeyAnswer) (target : RouteTarget) : Prop where
  | disabled (hdisabled : config.enabled = false)
  | isPublic (hpublic : target.resource ∈ config.public_.map toAsciiLowercase)
  | failedOpen {front : Program.History (KeyEffect Jwk) KeyAnswer}
      (hopen : config.keys.failClosed = false) (hempty : history = front ++ [⟨.current, none⟩])
  | permitted {token : String} {claims : Auth.VerifiedClaims}
      (hbearer : extractBearer arrival.http = some token)
      (hverify : Program.After (listener.service.verify listener.platform arrival.now token) history
        (.done (.ok claims)))
      (hpermits : Permits config.roles config.public_ claims.roles target)

variable {config : AuthConfig} {listener : Listener Jwk Key} {arrival : Arrival}
  {history : Program.History (KeyEffect Jwk) KeyAnswer} {order : BuildOrder}

/-- A request that the guard lets pass is entitled to the permission of the endpoint it is routed
to. -/
theorem granted_of_enforce {endpoint : Endpoint} {params : List String} {target : RouteTarget}
    {claims : Option Auth.VerifiedClaims} (hsize : (roleNames config.roles).card < 10000)
    (hconfig : config.Unescaped) (hframework : listener.framework.Documented)
    (hbuild : AuthService.build listener.platform order config = .ok listener.service)
    (hdetect : listener.framework.detect arrival.http = some (endpoint, params))
    (htarget : endpoint.target = some target)
    (henforce : Program.After
      (listener.service.enforce listener.platform arrival.now arrival.http) history
      (.done (.continue_ claims))) :
    target.verb = Verb.fromMethod arrival.http.method ∧
      Granted config listener arrival history target := by
  obtain ⟨hsegment, route, hroute, name, parts, rfl, hmethod, hpath, hname⟩ :=
    hframework.target hdetect
  obtain ⟨rfl, hlower⟩ := target_of_route hroute hpath htarget
  refine ⟨congrArg Verb.fromMethod hmethod, ?_⟩
  cases henabled : config.enabled with
  | false => exact .disabled henabled
  | true =>
      have hguarded := AuthService.guardedBy_of_build henabled hbuild
      have hgrounds := AuthService.grounds_of_enforce hguarded.enabled henforce
      cases hgrounds with
      | ungoverned hempty => exact absurd hempty hsegment
      | isPublic hpublic =>
          obtain ⟨public_, hmem, heq⟩ := hguarded.isPublic _ (of_decide_eq_true hpublic)
          rcases hname with hescape | hname
          · -- A public name would have the escape in it.
            have hpercent : '%' ∈ (toAsciiLowercase public_).toList := by
              rw [heq, toAsciiLowercase, String.toList_ofList]
              exact List.mem_map.mpr ⟨'%', hescape, by decide⟩
            exact absurd (Auth.percent_mem_of_toAsciiLowercase hpercent)
              (hconfig.isPublic public_ hmem)
          · rw [hname, hlower] at heq
            exact .isPublic (List.mem_map.mpr ⟨public_, hmem, heq⟩)
      | failedOpen hopen hverify =>
          obtain ⟨-, front, hfront⟩ := AuthService.current_of_verify hverify
          exact .failedOpen (hguarded.failClosed ▸ hopen) hfront
      | allowed hbearer hverify hallows =>
          refine .permitted hbearer hverify ?_
          rw [AuthService.policy_of_build henabled hbuild,
            Auth.allows_build_iff order _ _ hsize] at hallows
          rw [hmethod]
          rcases hname with hescape | hname
          · exact Permits.of_escaped hconfig hescape hallows name
          · exact hname ▸ hallows

/-! ## Every run -/

variable {Thread : Type} [DecidableEq Thread] {tasks : Thread → GatewayTask}
  {world : GatewayWorld Jwk} {trace : List (GatewayMoment Thread Jwk)}
  {state : Gateway Thread Jwk}

/-- An effect of a task on the backend is one of a request, whose guard has let it pass. -/
theorem handling_of_run {thread : Thread} {effect : RouterEffect}
    {resume : RouterAnswer effect → GatewayProg Jwk (Option Rendered)}
    (hrun : Run listener.step (fun _ _ => True) (gateway listener tasks world) trace state)
    (hprogram : state.program thread = .perform (.backend effect) resume) :
    ∃ arrival endpoint params claims, tasks thread = .request arrival ∧
      listener.framework.detect arrival.http = some (endpoint, params) ∧
      Program.After (listener.service.enforce listener.platform arrival.now arrival.http)
        (keyHistory (Pool.history thread trace)) (.done (.continue_ claims)) ∧
      (endpoint.request params arrival.content).Within effect := by
  have hafter := Pool.after_run hrun thread
  rw [hprogram] at hafter
  simp only [gateway] at hafter
  cases htask : tasks thread with
  | refresh rounds =>
      rw [htask, GatewayTask.program] at hafter
      rcases hafter.bind_cases with ⟨wider, waiting, hkeys, hrest⟩ | ⟨_, _, _, -, -, hlast⟩
      · obtain ⟨_, remaining, -, -, hkeys⟩ := after_onKeys hkeys
        obtain ⟨access, next, -, rfl⟩ := Program.exists_of_lift_eq_perform hkeys.symm
        cases hrest
      · cases hlast
  | request arrival =>
      rw [htask] at hafter
      have hstage := Listener.stage_of_after hafter
      generalize hrest : (.perform (.backend effect) resume : GatewayProg Jwk (Option Rendered)) =
        rest at hstage
      cases hstage with
      | unrouted => cases hrest
      | guarding => cases hrest
      | @handling endpoint params decision remaining hdetect hdecision hhandler =>
          cases remaining with
          | done rendered => cases hrest
          | perform performed next =>
              cases hrest
              have hwithin := (serve_within listener.parse listener.lettre listener.manager decision
                (endpoint.request params arrival.content)).after hhandler
              cases hwithin with
              | perform hwithin _ =>
                  cases decision with
                  | continue_ claims =>
                      exact ⟨arrival, endpoint, params, claims, rfl, hdetect, hdecision, hwithin⟩
                  | unauthenticated detail => cases hhandler.of_done.2
                  | forbidden detail => cases hhandler.of_done.2

/-- A listener whose service fails open. -/
def openListener : Listener Auth.SampleJwk Auth.SampleKey :=
  ⟨Auth.remotePlatform, Auth.remoteService, .plain, fun _ => none, plainLettre, true⟩

/-- A request to create a domain. -/
def domainArrival : Arrival :=
  { now := 1700000000
    http := ⟨"POST", "/domains",
      [("authorization", Auth.asBytes "Bearer eyJhbGciOiJFUzI1NiJ9.e30.AA")]⟩
    content :=
      { query := ⟨⟨none, none, none⟩, none, none⟩
        newDomain := some ⟨"x.io"⟩
        patchDomainParsed := false
        newMailbox := none
        patchMailbox := none
        newRecord := none
        patchRecord := none
        sendEmail := none
        mode := none } }

/-- The request over an empty database, before any key set has arrived. -/
def openGateway : Gateway Unit Auth.SampleJwk :=
  gateway openListener (fun _ => .request domainArrival)
    ⟨⟨none, 0, []⟩, ⟨.empty, .new Services.inertAddr Services.inertAddr Services.inertAddr none⟩⟩

/-- A step while the key source cannot be reached. -/
def unreachable : Unit × GatewayInput Auth.SampleJwk := ((), ⟨0, .error "http: unreachable", none⟩)

end Api

end Zonemail
