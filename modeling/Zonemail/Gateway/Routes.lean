import Zonemail.Api.Router

/-!
# The route table

The routes of `create_router`, and what each endpoint reads of a request that is routed to it. The
web framework that dispatches requests is not part of the program: `Framework` has what it does as
functions, and `Framework.Documented` what its documentation says of them.

The framework matches the decoded segments of a path, the guard looks at the first segment as it
was sent. `Framework.Documented.target` says how far the two agree.
-/

namespace Zonemail.Api

open Auth (HttpRequest RouteTarget Verb firstSegment)
open Services (BootMode)

/-! ## Routes -/

/-- A part of the path of a route: a name, or any one segment, whose text is a parameter. -/
inductive PathPart where
  | name (text : String)
  | param
  deriving DecidableEq, Repr

/-- The functions that answer requests. -/
inductive Endpoint where
  | health
  | listDomains
  | createDomain
  | getDomain
  | patchDomain
  | deleteDomain
  | listMailboxes
  | createMailbox
  | getMailbox
  | patchMailbox
  | deleteMailbox
  | listMailboxMessages
  | listMailboxInbox
  | listMailboxSent
  | listRecords
  | createRecord
  | getRecord
  | patchRecord
  | deleteRecord
  | sendEmail
  | listServices
  | setMode
  | startService
  | stopService
  | getMessage
  | deleteMessage
  deriving DecidableEq, Repr

/-- A method on a path, and the endpoint that answers it. -/
structure Route where
  method : String
  path : List PathPart
  endpoint : Endpoint
  deriving DecidableEq, Repr

/-- The routes of the API. -/
def createRouter : List Route :=
  [⟨"GET", [.name "health"], .health⟩,
    ⟨"GET", [.name "domains"], .listDomains⟩,
    ⟨"POST", [.name "domains"], .createDomain⟩,
    ⟨"GET", [.name "domains", .param], .getDomain⟩,
    ⟨"PATCH", [.name "domains", .param], .patchDomain⟩,
    ⟨"DELETE", [.name "domains", .param], .deleteDomain⟩,
    ⟨"GET", [.name "mailboxes"], .listMailboxes⟩,
    ⟨"POST", [.name "mailboxes"], .createMailbox⟩,
    ⟨"GET", [.name "mailboxes", .param], .getMailbox⟩,
    ⟨"PATCH", [.name "mailboxes", .param], .patchMailbox⟩,
    ⟨"DELETE", [.name "mailboxes", .param], .deleteMailbox⟩,
    ⟨"GET", [.name "mailboxes", .param, .name "messages"], .listMailboxMessages⟩,
    ⟨"GET", [.name "mailboxes", .param, .name "messages", .name "inbox"], .listMailboxInbox⟩,
    ⟨"GET", [.name "mailboxes", .param, .name "messages", .name "sent"], .listMailboxSent⟩,
    ⟨"GET", [.name "records"], .listRecords⟩,
    ⟨"POST", [.name "records"], .createRecord⟩,
    ⟨"GET", [.name "records", .param], .getRecord⟩,
    ⟨"PATCH", [.name "records", .param], .patchRecord⟩,
    ⟨"DELETE", [.name "records", .param], .deleteRecord⟩,
    ⟨"POST", [.name "mail"], .sendEmail⟩,
    ⟨"GET", [.name "services"], .listServices⟩,
    ⟨"POST", [.name "services", .name "mode"], .setMode⟩,
    ⟨"POST", [.name "services", .param, .name "start"], .startService⟩,
    ⟨"POST", [.name "services", .param, .name "stop"], .stopService⟩,
    ⟨"GET", [.name "messages", .param], .getMessage⟩,
    ⟨"DELETE", [.name "messages", .param], .deleteMessage⟩]

/-- The parameters of a path that these segments match. -/
def captures : List PathPart → List String → Option (List String)
  | [], [] => some []
  | .name text :: parts, segment :: segments =>
      if segment = text then captures parts segments else none
  | .param :: parts, segment :: segments => (captures parts segments).map (segment :: ·)
  | _, _ => none

/-! ## What an endpoint reads -/

/-- What the query and the body of a request read as, for each type that an endpoint asks for; a
body that cannot be parsed is `none`. -/
structure Content where
  query : FilterQuery
  newDomain : Option NewDomain
  patchDomainParsed : Bool
  newMailbox : Option NewMailbox
  patchMailbox : Option PatchMailbox
  newRecord : Option NewRecord
  patchRecord : Option PatchRecord
  sendEmail : Option SendEmail
  mode : Option BootMode

/-- A parameter as text; a missing one is empty. -/
def textParam (params : List String) : String := params.headD ""

/-- A parameter as a number. -/
def idParam (params : List String) : Option Nat := params.head?.bind (Text.parseUnsigned 64)

/-- The request that an endpoint answers. -/
def Endpoint.request (params : List String) (content : Content) : Endpoint → RouterRequest
  | .health => .health
  | .listDomains => .listDomains content.query.toQuery
  | .createDomain => .stored (.createDomain content.newDomain)
  | .getDomain => .stored (.getDomain (textParam params))
  | .patchDomain => .stored (.patchDomain (textParam params) content.patchDomainParsed)
  | .deleteDomain => .stored (.deleteDomain (textParam params))
  | .listMailboxes => .listMailboxes content.query
  | .createMailbox => .stored (.createMailbox content.newMailbox)
  | .getMailbox => .stored (.getMailbox (textParam params))
  | .patchMailbox => .stored (.patchMailbox (textParam params) content.patchMailbox)
  | .deleteMailbox => .stored (.deleteMailbox (textParam params))
  | .listMailboxMessages =>
      .stored (.listMailboxMessages (textParam params) content.query.toQuery)
  | .listMailboxInbox => .stored (.listMailboxInbox (textParam params) content.query.toQuery)
  | .listMailboxSent => .stored (.listMailboxSent (textParam params) content.query.toQuery)
  | .listRecords => .listRecords content.query
  | .createRecord => .stored (.createRecord content.newRecord)
  | .getRecord => .stored (.getRecord (idParam params))
  | .patchRecord => .stored (.patchRecord (idParam params) content.patchRecord)
  | .deleteRecord => .stored (.deleteRecord (idParam params))
  | .sendEmail => .stored (.sendEmail content.sendEmail)
  | .listServices => .listServices
  | .setMode => .setMode content.mode
  | .startService => .startService (textParam params)
  | .stopService => .stopService (textParam params)
  | .getMessage => .getMessage ((idParam params).getD 0)
  | .deleteMessage => .stored (.deleteMessage ((idParam params).getD 0))

/-! ## Dispatch -/

/-- The web framework: how it decodes a segment of a path, and which endpoint it calls for a
request, with which parameters. -/
structure Framework where
  decode : String → String
  detect : HttpRequest → Option (Endpoint × List String)

/-- The segments of a path, decoded. -/
def Framework.segments (framework : Framework) (path : String) : List String :=
  ((Text.split '/' path).filter (fun segment => !segment.isEmpty)).map framework.decode

/-- A segment without an escape stands for itself, and an endpoint is called only for a request that
one of its routes matches. -/
structure Framework.Documented (framework : Framework) : Prop where
  decode : ∀ segment : String, '%' ∉ segment.toList → framework.decode segment = segment
  detect : ∀ request endpoint params, framework.detect request = some (endpoint, params) →
    ∃ route ∈ createRouter, route.endpoint = endpoint ∧ route.method = request.method ∧
      captures route.path (framework.segments request.path) = some params

/-- A framework that knows no escapes and takes the first route that matches. -/
def Framework.plain : Framework where
  decode := fun segment => segment
  detect := fun request => createRouter.findSome? (fun route =>
    if route.method = request.method then
      (captures route.path ((Text.split '/' request.path).filter
        (fun segment => !segment.isEmpty))).map (fun params => (route.endpoint, params))
    else none)

theorem Framework.plain_documented : Framework.plain.Documented where
  decode := fun _ _ => rfl
  detect := by
    intro request endpoint params h
    obtain ⟨route, hroute, hdetect⟩ := List.exists_of_findSome?_eq_some h
    split at hdetect
    · rename_i hmethod
      obtain ⟨captured, hcaptures, heq⟩ := Option.map_eq_some_iff.mp hdetect
      cases heq
      refine ⟨route, hroute, rfl, hmethod, ?_⟩
      simpa only [Framework.segments, Framework.plain, List.map_id'] using hcaptures
    · cases hdetect

example : (Framework.plain.detect ⟨"GET", "//mailboxes/a@x.io/messages/", []⟩) =
    some (.listMailboxMessages, ["a@x.io"]) := by decide +kernel

/-! ## The two views of a path -/

/-- The first segment that is not empty is the one that the guard looks at. -/
theorem firstSegment_of_segments {path segment : String} {segments : List String}
    (h : (Text.split '/' path).filter (fun segment => !segment.isEmpty) = segment :: segments) :
    firstSegment path = segment ∧ segment ≠ "" := by
  have hempty : (fun segment : String => !segment.isEmpty) ∘ String.ofList =
      fun part => !part.isEmpty := by
    funext part
    cases part with
    | nil => rfl
    | cons c rest => simp
  rw [Text.split, List.filter_map, hempty] at h
  obtain ⟨part, parts, hparts, rfl, rfl⟩ := List.map_eq_cons_iff.mp h
  rw [List.splitOn_eq_splitOnP] at hparts
  obtain ⟨lead, after, hpath, hlead, hne, hpart, hafter, -⟩ := Text.exists_of_parts_eq_cons hparts
  refine ⟨?_, by simpa using hne⟩
  -- The leading slashes are gone, and the segment ends at a slash or at the end.
  have hhead : (part ++ after).dropWhile (· == '/') = part ++ after := by
    cases part with
    | nil => exact absurd rfl hne
    | cons c rest => simp [hpart c List.mem_cons_self]
  have hdrop : path.toList.dropWhile (· == '/') = part ++ after := by
    rw [hpath, List.append_assoc, List.dropWhile_append_of_pos hlead, hhead]
  rw [firstSegment, Text.split, Text.trimStartMatches, String.toList_ofList, hdrop,
    List.splitOn_eq_splitOnP]
  cases after with
  | nil => simp [List.splitOnP_eq_singleton hpart]
  | cons c rest =>
      rw [List.splitOnP_append_cons_of_forall_mem hpart c (hafter c rfl)]
      simp

/-- A path that begins with a name matches only segments that do. -/
theorem captures_name {parts : List PathPart} {segments params : List String} {name : String}
    (h : captures (.name name :: parts) segments = some params) :
    ∃ rest, segments = name :: rest := by
  cases segments with
  | nil => cases h
  | cons segment rest =>
      simp only [captures] at h
      split at h
      · rename_i heq
        exact ⟨rest, by rw [heq]⟩
      · cases h

/-- The path begins with a name in lower case. -/
def beginsInLowerCase : List PathPart → Bool
  | .name name :: _ => Text.toAsciiLowercase name = name
  | _ => false

/-- Every route begins with a name in lower case. -/
theorem exists_name_of_route {route : Route} (h : route ∈ createRouter) :
    ∃ name parts, route.path = .name name :: parts ∧ Text.toAsciiLowercase name = name := by
  have hall : createRouter.all (fun route => beginsInLowerCase route.path) = true := by
    decide +kernel
  have hroute := List.all_eq_true.mp hall route h
  unfold beginsInLowerCase at hroute
  split at hroute
  · rename_i name parts hpath
    exact ⟨name, parts, hpath, of_decide_eq_true hroute⟩
  · cases hroute

/-- The guard asks for the name of the route that is taken, unless the first segment is sent with an
escape. -/
theorem Framework.Documented.target {framework : Framework} (h : framework.Documented)
    {request : HttpRequest} {endpoint : Endpoint} {params : List String}
    (hdetect : framework.detect request = some (endpoint, params)) :
    firstSegment request.path ≠ "" ∧ ∃ route ∈ createRouter, ∃ name parts,
      route.endpoint = endpoint ∧ route.method = request.method ∧
      route.path = .name name :: parts ∧
      ('%' ∈ request.target.resource.toList ∨ request.target.resource = name) := by
  obtain ⟨route, hroute, hendpoint, hmethod, hcaptures⟩ := h.detect request endpoint params hdetect
  obtain ⟨name, parts, hpath, hlower⟩ := exists_name_of_route hroute
  rw [hpath] at hcaptures
  obtain ⟨rest, hsegments⟩ := captures_name hcaptures
  obtain ⟨segment, others, hparts, hdecoded, -⟩ := List.map_eq_cons_iff.mp hsegments
  obtain ⟨hfirst, hne⟩ := firstSegment_of_segments hparts
  refine ⟨hfirst ▸ hne, route, hroute, name, parts, hendpoint, hmethod, hpath, ?_⟩
  rw [HttpRequest.target, hfirst]
  by_cases hescape : '%' ∈ segment.toList
  · left
    rw [Text.toAsciiLowercase, String.toList_ofList]
    exact List.mem_map.mpr ⟨'%', hescape, by decide⟩
  · right
    rw [← hdecoded, h.decode segment hescape] at hlower
    rw [← hdecoded, h.decode segment hescape]
    exact hlower

end Zonemail.Api
