import Zonemail.Api.Router
import Zonemail.Api.Spelling

/-!
# The status in a problem document

Every handler sets the HTTP status of its response apart from the document that it renders, at some
dozens of places. They agree everywhere but at one: a body that could not be parsed is answered with
400, and its document says 422. `truthful_iff` says so over all endpoints, the guard in front of
them, and whatever the database and the service manager answer.
-/

namespace Zonemail.Api

open Library
open Auth (Decision)

/-- The status in a problem document is the HTTP status, and a success envelope comes with 200. -/
def TellsStatus {α : Type} (status : Nat) : Except ApiProblem α → Prop
  | .error problem => problem.status = status
  | .ok _ => status = 200

def Response.Truthful (response : Response) : Prop := TellsStatus response.status response.body

def Rendered.Truthful (rendered : Rendered) : Prop := TellsStatus rendered.status rendered.body

theorem Response.truthful_rendered {response : Response} :
    response.rendered.Truthful ↔ response.Truthful := by
  obtain ⟨status, body⟩ := response
  cases body with
  | error problem => exact Iff.rfl
  | ok payload => exact Iff.rfl

/-- The request has a body that its handler reads and cannot parse. A patch of a record whose id is
not a number does not get so far. -/
def Request.unparsed : Request → Bool
  | .createDomain none | .patchDomain _ false | .createMailbox none | .patchMailbox _ none
  | .createRecord none | .patchRecord (some _) none | .sendEmail none => true
  | _ => false

def RouterRequest.unparsed : RouterRequest → Bool
  | .stored request => request.unparsed
  | _ => false

/-- The document of a body that could not be parsed has another status. -/
theorem not_truthful_unparsed : ¬ Response.unparsed.Truthful := by
  intro h
  have hstatus : 422 = 400 := h
  omega

/-- A program that begins with a statement ends as what follows does on each answer. -/
theorem ends_sql {α : Type} {post : α → Prop} {statement : Statement}
    {next : Except DbError statement.Value → Prog α} (h : ∀ answer, (next answer).Ends post) :
    (sql statement >>= next : Prog α).Ends post := .perform h

/-! ## Domains -/

theorem insertDomain_truthful (domainId : String) :
    (insertDomain domainId).Ends Response.Truthful := by
  refine ends_sql (fun created => ?_)
  cases created with
  | ok domain => exact .done rfl
  | error e =>
      refine ends_sql (fun read => ?_)
      cases read with
      | ok domain => exact .done rfl
      | error _ => exact .done rfl

theorem createDomain_truthful (body : NewDomain) :
    (createDomain (some body)).Ends Response.Truthful := by
  simp only [createDomain]
  split
  · exact .done rfl
  · refine ends_sql (fun read => ?_)
    cases read with
    | ok domain => exact .done rfl
    | error _ => exact insertDomain_truthful _

theorem getDomain_truthful (domainId : String) : (getDomain domainId).Ends Response.Truthful := by
  refine ends_sql (fun read => ?_)
  cases read with
  | ok domain => exact .done rfl
  | error _ => exact .done rfl

theorem deleteDomain_truthful (domainId : String) :
    (deleteDomain domainId).Ends Response.Truthful := by
  refine ends_sql (fun read => ?_)
  cases read with
  | error _ => exact .done rfl
  | ok domain =>
      refine ends_sql (fun deleted => ?_)
      cases deleted with
      | ok _ => exact .done rfl
      | error e => exact .done rfl

/-! ## Mailboxes -/

theorem mailboxResolve_truthful (existing incoming : Mailbox) :
    (mailboxResolve existing incoming).Truthful := by
  unfold mailboxResolve
  split
  · rfl
  · rfl

theorem truthful_of_overrideDomain {mailbox : Mailbox} {domainId : Option String}
    {response : Response} (h : overrideDomain mailbox domainId = .error response) :
    response.Truthful := by
  cases domainId with
  | none => cases h
  | some domainId =>
      simp only [overrideDomain] at h
      split at h
      · cases h
        rfl
      · cases h

theorem truthful_of_newMailbox {body : NewMailbox} {response : Response}
    (h : newMailbox body = .error response) : response.Truthful := by
  simp only [newMailbox] at h
  split at h
  · cases h
    rfl
  · split at h
    · cases h
      rfl
    · split at h
      · rename_i hdomain
        cases h
        exact truthful_of_overrideDomain hdomain
      · cases h

theorem insertMailbox_truthful (mailbox : Mailbox) :
    (insertMailbox mailbox).Ends Response.Truthful := by
  refine ends_sql (fun created => ?_)
  cases created with
  | ok created => exact .done rfl
  | error e =>
      refine ends_sql (fun read => ?_)
      cases read with
      | ok existing => exact .done (mailboxResolve_truthful existing mailbox)
      | error _ => exact .done rfl

theorem createMailbox_truthful (body : NewMailbox) :
    (createMailbox (some body)).Ends Response.Truthful := by
  simp only [createMailbox]
  split
  · rename_i hrefused
    exact .done (truthful_of_newMailbox hrefused)
  · rename_i mailbox _
    refine ends_sql (fun read => ?_)
    cases read with
    | ok existing => exact .done (mailboxResolve_truthful existing mailbox)
    | error _ => exact insertMailbox_truthful mailbox

theorem getMailbox_truthful (mailboxId : String) :
    (getMailbox mailboxId).Ends Response.Truthful := by
  refine ends_sql (fun read => ?_)
  cases read with
  | ok mailbox => exact .done rfl
  | error _ => exact .done rfl

theorem updateMailbox_truthful (mailboxId : String) (mailbox : Mailbox) :
    (updateMailbox mailboxId mailbox).Ends Response.Truthful := by
  refine ends_sql (fun updated => ?_)
  cases updated with
  | error e => exact .done rfl
  | ok _ =>
      refine ends_sql (fun read => ?_)
      cases read with
      | ok updated => exact .done rfl
      | error _ => exact .done rfl

theorem patchMailbox_truthful (mailboxId : String) (body : PatchMailbox) :
    (patchMailbox mailboxId (some body)).Ends Response.Truthful := by
  refine ends_sql (fun read => ?_)
  cases read with
  | error _ => exact .done rfl
  | ok mailbox =>
      dsimp only
      cases hdomain : overrideDomain mailbox body.domainId with
      | error response => exact .done (truthful_of_overrideDomain hdomain)
      | ok overridden => exact updateMailbox_truthful mailboxId _

theorem deleteMailbox_truthful (mailboxId : String) :
    (deleteMailbox mailboxId).Ends Response.Truthful := by
  refine ends_sql (fun read => ?_)
  cases read with
  | error _ => exact .done rfl
  | ok mailbox =>
      refine ends_sql (fun deleted => ?_)
      cases deleted with
      | ok _ => exact .done rfl
      | error e => exact .done rfl

/-! ## DNS records -/

/-- An unknown record type is a bad request. -/
theorem status_of_parseRecordType {s : String} {problem : ApiProblem}
    (h : parseRecordType s = .error problem) : problem.status = 400 := by
  simp only [parseRecordType] at h
  split at h
  · cases h
    rfl
  · cases h

theorem status_of_typeFilter {query : FilterQuery} {problem : ApiProblem}
    (h : typeFilter query = .error problem) : problem.status = 400 := by
  unfold typeFilter at h
  split at h
  · rename_i raw _
    cases hparsed : parseRecordType (Text.trim raw) with
    | ok recordType =>
        rw [hparsed] at h
        cases h
    | error refused =>
        rw [hparsed] at h
        cases h
        exact status_of_parseRecordType hparsed
  · cases h

theorem status_of_patchedRecord {record : Record} {body : PatchRecord} {problem : ApiProblem}
    (h : patchedRecord record body = .error problem) : problem.status = 400 := by
  simp only [patchedRecord] at h
  split at h
  · rename_i refused hrefused
    cases h
    cases hgiven : body.recordType with
    | none =>
        rw [hgiven] at hrefused
        cases hrefused
    | some recordType =>
        rw [hgiven] at hrefused
        exact status_of_parseRecordType hrefused
  · cases h

/-- The document of an offending field has a status of its own, which the response takes over. -/
theorem validateRecordFields_status (domainId value : String) :
    (validateRecordFields domainId value).Ends (fun checked =>
      ∀ problem, checked = .error problem → problem.status = statusOf problem) := by
  unfold validateRecordFields
  split
  · refine .done ?_
    intro problem h
    cases h
    rfl
  · refine ends_sql (fun read => ?_)
    cases read with
    | ok domain =>
        refine .done ?_
        intro problem h
        cases h
    | error _ =>
        refine .done ?_
        intro problem h
        cases h
        rfl

theorem truthful_of_recordResolve {rows : List Record} {recordType : RecordType} {value : String}
    {ttl : Nat} {response : Response}
    (h : recordResolve rows recordType value ttl = some response) :
    response.Truthful := by
  simp only [recordResolve] at h
  split at h
  · cases h
  · split at h
    · cases h
      rfl
    · cases h
      rfl

theorem insertRecord_truthful (record : RecordDTO) :
    (insertRecord record).Ends Response.Truthful := by
  refine ends_sql (fun created => ?_)
  cases created with
  | ok created => exact .done rfl
  | error e =>
      refine ends_sql (fun scanned => ?_)
      cases scanned with
      | error _ => exact .done rfl
      | ok rows =>
          refine .done ?_
          cases hresolved : recordResolve rows record.recordType record.value record.ttl with
          | none => exact rfl
          | some response => exact truthful_of_recordResolve hresolved

theorem createRecord_truthful (body : NewRecord) :
    (createRecord (some body)).Ends Response.Truthful := by
  simp only [createRecord]
  split
  · rename_i hrefused
    exact .done (status_of_parseRecordType hrefused)
  · refine (validateRecordFields_status _ _).bind (fun checked hchecked => ?_)
    cases checked with
    | error problem => exact .done (hchecked problem rfl)
    | ok _ =>
        refine ends_sql (fun scanned => ?_)
        cases scanned with
        | error e => exact .done rfl
        | ok rows =>
            dsimp only
            split
            · rename_i hresolved
              exact .done (truthful_of_recordResolve hresolved)
            · exact insertRecord_truthful _

theorem getRecord_truthful (recordId : Option Nat) :
    (getRecord recordId).Ends Response.Truthful := by
  cases recordId with
  | none => exact .done rfl
  | some recordId =>
      refine ends_sql (fun read => ?_)
      cases read with
      | ok record => exact .done rfl
      | error _ => exact .done rfl

theorem updateRecord_truthful (recordId : Nat) (record : RecordDTO) :
    (updateRecord recordId record).Ends Response.Truthful := by
  refine ends_sql (fun updated => ?_)
  cases updated with
  | error e => exact .done rfl
  | ok _ =>
      refine ends_sql (fun read => ?_)
      cases read with
      | ok updated => exact .done rfl
      | error _ => exact .done rfl

theorem patchRecord_truthful (recordId : Nat) (body : PatchRecord) :
    (patchRecord (some recordId) (some body)).Ends Response.Truthful := by
  refine ends_sql (fun read => ?_)
  cases read with
  | error _ => exact .done rfl
  | ok record =>
      dsimp only
      cases hpatched : patchedRecord record body with
      | error problem => exact .done (status_of_patchedRecord hpatched)
      | ok patched =>
          refine (validateRecordFields_status _ _).bind (fun checked hchecked => ?_)
          cases checked with
          | error problem => exact .done (hchecked problem rfl)
          | ok _ =>
              refine ends_sql (fun scanned => ?_)
              cases scanned with
              | error e => exact .done rfl
              | ok rows =>
                  dsimp only
                  split
                  · exact .done rfl
                  · exact updateRecord_truthful recordId patched

theorem deleteRecord_truthful (recordId : Option Nat) :
    (deleteRecord recordId).Ends Response.Truthful := by
  cases recordId with
  | none => exact .done rfl
  | some recordId =>
      refine ends_sql (fun read => ?_)
      cases read with
      | error _ => exact .done rfl
      | ok record =>
          refine ends_sql (fun deleted => ?_)
          cases deleted with
          | ok _ => exact .done rfl
          | error e => exact .done rfl

/-! ## Sending and messages -/

theorem enqueueRest_truthful (messageId : Nat) (sender : String) (outboundIds : List Nat)
    (recipients : List String) :
    (enqueueRest messageId sender outboundIds recipients).Ends Response.Truthful := by
  induction recipients generalizing outboundIds with
  | nil => exact .done rfl
  | cons recipient rest ih =>
      refine (Program.ends_of_forall (fun _ => trivial) _).bind (fun enqueued _ => ?_)
      cases enqueued with
      | error e => exact .done rfl
      | ok outboundId => exact ih (outboundIds ++ [outboundId])

theorem sendEmail_truthful (parse : MessageParser) (lettre : Lettre) (email : SendEmail) :
    (sendEmail parse lettre (some email)).Ends Response.Truthful := by
  simp only [sendEmail]
  split
  · exact .done rfl
  · refine ends_sql (fun read => ?_)
    cases read with
    | error _ => exact .done rfl
    | ok mailbox =>
        dsimp only
        split
        · exact .done rfl
        · refine (Program.ends_of_forall (fun _ => trivial) _).bind (fun enqueued _ => ?_)
          cases enqueued with
          | error e => exact .done rfl
          | ok ids => exact enqueueRest_truthful ids.1 email.sender [ids.2] _

theorem deleteMessage_truthful (messageId : Nat) :
    (deleteMessage messageId).Ends Response.Truthful := by
  refine ends_sql (fun read => ?_)
  cases read with
  | error _ => exact .done rfl
  | ok message =>
      refine ends_sql (fun received => ?_)
      cases received with
      | error e => exact .done rfl
      | ok _ =>
          refine ends_sql (fun sent => ?_)
          cases sent with
          | error e => exact .done rfl
          | ok _ =>
              refine ends_sql (fun deleted => ?_)
              cases deleted with
              | ok _ => exact .done rfl
              | error e => exact .done rfl

theorem ensureMailboxExists_truthful (mailboxId : String) :
    (ensureMailboxExists mailboxId).Ends (fun found =>
      ∀ response, found = .error response → response.Truthful) := by
  refine ends_sql (fun read => ?_)
  cases read with
  | ok mailbox =>
      refine .done ?_
      intro response h
      cases h
  | error _ =>
      refine .done ?_
      intro response h
      cases h
      rfl

theorem listMessages_truthful (mailboxId : String) (direction : Option MessageDirection)
    (limit offset : Nat) :
    (listMessages mailboxId direction limit offset).Ends Response.Truthful := by
  refine (ensureMailboxExists_truthful mailboxId).bind (fun found hfound => ?_)
  cases found with
  | error response => exact .done (hfound response rfl)
  | ok _ =>
      refine (Program.ends_of_forall (fun _ => trivial) _).bind (fun loaded _ => ?_)
      cases loaded with
      | error e => exact .done rfl
      | ok items => exact .done rfl

theorem listMailboxMessages_truthful (mailboxId : String) (query : Query) :
    (listMailboxMessages mailboxId query).Ends Response.Truthful := by
  unfold listMailboxMessages
  split
  · exact listMessages_truthful _ _ _ _
  · exact listMessages_truthful _ _ _ _

/-! ## All endpoints -/

section

variable (parse : MessageParser) (lettre : Lettre)

/-- A handler that can parse the body, or needs none, tells its status. -/
theorem Request.handle_truthful {request : Request} (h : request.unparsed = false) :
    (request.handle parse lettre).Ends Response.Truthful := by
  cases request with
  | createDomain body =>
      cases body with
      | none => cases h
      | some body => exact createDomain_truthful body
  | getDomain domainId => exact getDomain_truthful domainId
  | patchDomain domainId parsed =>
      cases parsed with
      | false => cases h
      | true => exact getDomain_truthful domainId
  | deleteDomain domainId => exact deleteDomain_truthful domainId
  | createMailbox body =>
      cases body with
      | none => cases h
      | some body => exact createMailbox_truthful body
  | getMailbox mailboxId => exact getMailbox_truthful mailboxId
  | patchMailbox mailboxId body =>
      cases body with
      | none => cases h
      | some body => exact patchMailbox_truthful mailboxId body
  | deleteMailbox mailboxId => exact deleteMailbox_truthful mailboxId
  | createRecord body =>
      cases body with
      | none => cases h
      | some body => exact createRecord_truthful body
  | getRecord recordId => exact getRecord_truthful recordId
  | patchRecord recordId body =>
      cases recordId with
      | none => exact .done rfl
      | some recordId =>
          cases body with
          | none => cases h
          | some body => exact patchRecord_truthful recordId body
  | deleteRecord recordId => exact deleteRecord_truthful recordId
  | sendEmail body =>
      cases body with
      | none => cases h
      | some body => exact sendEmail_truthful parse lettre body
  | deleteMessage messageId => exact deleteMessage_truthful messageId
  | listMailboxMessages mailboxId query => exact listMailboxMessages_truthful mailboxId query
  | listMailboxInbox mailboxId query => exact listMessages_truthful mailboxId _ _ _
  | listMailboxSent mailboxId query => exact listMessages_truthful mailboxId _ _ _

/-- A body that cannot be parsed is answered before any statement. -/
theorem Request.handle_of_unparsed {request : Request} (h : request.unparsed = true) :
    request.handle parse lettre = .done .unparsed := by
  unfold Request.unparsed at h
  split at h
  · rfl
  · rfl
  · rfl
  · rfl
  · rfl
  · rfl
  · rfl
  · cases h

/-- Without the service manager an endpoint that needs it fails truthfully. -/
theorem extractManager_truthful (manager : Bool) {next : RouterProg Rendered}
    (h : next.Ends Rendered.Truthful) :
    (Router.extractManager manager next).Ends Rendered.Truthful := by
  cases manager with
  | false => exact .done rfl
  | true => exact h

theorem controlService_truthful (verb : String)
    (control : Services.Service → Services.ServiceProg (Except String Services.ServiceResult))
    (manager : Bool) (name : String) :
    (Router.controlService verb control manager name).Ends Rendered.Truthful := by
  refine extractManager_truthful manager ?_
  split
  · exact .done rfl
  · refine (Program.ends_of_forall (fun _ => trivial) _).bind (fun result _ => ?_)
    cases result with
    | ok result => exact .done rfl
    | error e => exact .done rfl

theorem RouterRequest.handle_truthful (manager : Bool) {request : RouterRequest}
    (h : request.unparsed = false) :
    (request.handle parse lettre manager).Ends Rendered.Truthful := by
  cases request with
  | stored request =>
      refine (request.handle_truthful parse lettre h).lift.bind (fun response hresponse => ?_)
      exact .done (Response.truthful_rendered.mpr hresponse)
  | health => exact .done rfl
  | listDomains query =>
      refine .perform (fun scanned => ?_)
      cases scanned with
      | ok domains => exact .done rfl
      | error e => exact .done rfl
  | listMailboxes query =>
      refine .perform (fun scanned => ?_)
      cases scanned with
      | ok mailboxes => exact .done rfl
      | error e => exact .done rfl
  | listRecords query =>
      simp only [handle, Router.listRecords]
      cases hfilter : typeFilter query with
      | error problem => exact .done (status_of_typeFilter hfilter)
      | ok recordType =>
          refine .perform (fun scanned => ?_)
          cases scanned with
          | ok records => exact .done rfl
          | error e => exact .done rfl
  | getMessage messageId =>
      refine .perform (fun read => ?_)
      cases read with
      | ok message => exact .done rfl
      | error _ => exact .done rfl
  | listServices =>
      refine extractManager_truthful manager ?_
      refine (Program.ends_of_forall (fun _ => trivial) _).bind (fun reports _ => ?_)
      exact .done rfl
  | startService name =>
      exact controlService_truthful "start" Services.startService manager name
  | stopService name => exact controlService_truthful "stop" Services.stopService manager name
  | setMode mode =>
      refine extractManager_truthful manager ?_
      cases mode with
      | none => exact .done rfl
      | some mode =>
          refine (Program.ends_of_forall (fun _ => trivial) _).bind (fun reports _ => ?_)
          exact .done rfl

/-- **When a response tells its status**: over every endpoint with the guard in front of it, and
whatever the database and the service manager answer, always but for a request that the guard lets
pass and whose body its handler cannot parse. -/
theorem truthful_iff {σ : Type} (execute : (effect : RouterEffect) → σ → RouterAnswer effect × σ)
    (store : σ) (manager : Bool) (decision : Decision) (request : RouterRequest) :
    ((serve parse lettre manager decision request).run execute store).1.Truthful ↔
      ¬ ((∃ claims, decision = .continue_ claims) ∧ request.unparsed = true) := by
  cases decision with
  | continue_ claims =>
      cases hunparsed : request.unparsed with
      | false =>
          refine iff_of_true ?_ (fun h => by cases h.2)
          exact (request.handle_truthful parse lettre manager hunparsed).run execute store
      | true =>
          refine iff_of_false ?_ (fun h => h ⟨⟨claims, rfl⟩, rfl⟩)
          cases request with
          | stored request =>
              have hserve : serve parse lettre manager (.continue_ claims) (.stored request) =
                  .done Response.unparsed.rendered := by
                show (onDb (request.handle parse lettre) >>= _ : RouterProg Rendered) = _
                rw [request.handle_of_unparsed parse lettre hunparsed]
                rfl
              rw [hserve, Program.run_done, Response.truthful_rendered]
              exact not_truthful_unparsed
          | _ => cases hunparsed
  | unauthenticated detail =>
      refine iff_of_true rfl ?_
      intro hpasses
      obtain ⟨⟨claims, hclaims⟩, -⟩ := hpasses
      cases hclaims
  | forbidden detail =>
      refine iff_of_true rfl ?_
      intro hpasses
      obtain ⟨⟨claims, hclaims⟩, -⟩ := hpasses
      cases hclaims

end

/-- A create of a domain whose body does not parse: the response is 400, its document says 422. -/
theorem not_truthful_createDomain :
    ¬ ∀ (parse : MessageParser) (lettre : Lettre) (manager : Bool) (decision : Decision)
      (request : RouterRequest) (fault : Statement.Fault) (backend : Backend),
      ((serve parse lettre manager decision request).run (fun effect => effect.execute fault)
        backend).1.Truthful := by
  intro h
  have hcreate : Response.unparsed.rendered.Truthful := h (fun _ => none) plainLettre true
    (.continue_ none) (.stored (.createDomain none)) none
    ⟨.empty, .new Services.inertAddr Services.inertAddr Services.inertAddr none⟩
  exact not_truthful_unparsed (Response.truthful_rendered.mp hcreate)

end Zonemail.Api
