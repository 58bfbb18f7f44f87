import Mathlib.Data.List.Sort
import Zonemail.Api.Response

/-!
# Request handlers

The handlers of `api.rs` that write, those that read one row, and those that list the messages of a
mailbox, as programs over the database. A body that could not be parsed is `none`, and so is a
numeric path parameter that is missing or not a number. The mail library enters as a structure of
its parsing and building functions.
-/

namespace Zonemail.Api

open Library

/-! ## Domains -/

/-- Body for creating a domain. -/
structure NewDomain where
  id : String
  deriving DecidableEq, Repr

/-- A domain has no mutable fields, so an existing row is the requested one. -/
def renderDomainCreated (domain : Domain) : Response := .ok (.domain domain)

def domainNotFound (domainId : String) : Response :=
  .problem 404 (.notFound ("domain '" ++ domainId ++ "' not found"))

/-- Insert a domain, or confirm the row that won a race. -/
def insertDomain (domainId : String) : Prog Response := do
  match ← sql (.createDomain domainId) with
  | .ok domain => pure (renderDomainCreated domain)
  | .error e =>
      match ← sql (.getDomain domainId) with
      | .ok domain => pure (renderDomainCreated domain)
      | .error _ => pure (.failed e)

def createDomain : Option NewDomain → Prog Response
  | none => pure .unparsed
  | some body => do
      let domainId := Text.trim body.id
      if domainId.isEmpty then
        pure (.problem 400 (.badRequest "domain id must not be empty"))
      else
        match ← sql (.getDomain domainId) with
        | .ok domain => pure (renderDomainCreated domain)
        | .error _ => insertDomain domainId

def getDomain (domainId : String) : Prog Response := do
  match ← sql (.getDomain domainId) with
  | .ok domain => pure (.ok (.domain domain))
  | .error _ => pure (domainNotFound domainId)

/-- A patch echoes the row; its body, parsed or not, has no effect on it. -/
def patchDomain (domainId : String) (parsed : Bool) : Prog Response :=
  if parsed then getDomain domainId else pure .unparsed

def deleteDomain (domainId : String) : Prog Response := do
  match ← sql (.getDomain domainId) with
  | .error _ => pure (domainNotFound domainId)
  | .ok _ =>
      match ← sql (.deleteDomain domainId) with
      | .ok () => pure (.ok .unit)
      | .error e => pure (.failed e)

/-! ## Mailboxes -/

/-- Body for creating a mailbox. -/
structure NewMailbox where
  id : String
  domainId : Option String
  forwardTo : Option String
  deriving DecidableEq, Repr

/-- Body for patching a mailbox. -/
structure PatchMailbox where
  domainId : Option String
  forwardTo : Option String
  deriving DecidableEq, Repr

def mailboxNotFound (mailboxId : String) : Response :=
  .problem 404 (.notFound ("mailbox '" ++ mailboxId ++ "' not found"))

def domainMismatch : Response :=
  .problem 400 (.badRequest "domain_id does not match the domain part of the address")

/-- A create that meets an existing row confirms an identical configuration and refuses any
other. -/
def mailboxResolve (existing incoming : Mailbox) : Response :=
  if existing.forwardTo = incoming.forwardTo ∧ existing.domainId = incoming.domainId then
    .ok (.mailbox existing)
  else
    .problem 409 (.conflict
      ("mailbox '" ++ existing.id ++ "' already exists with a different configuration"))

/-- The owning domain given explicitly, which has to be the stored one. -/
def overrideDomain (mailbox : Mailbox) : Option String → Except Response Mailbox
  | none => .ok mailbox
  | some domainId =>
      let provided := Text.toLowercase (Text.trim domainId)
      if provided ≠ mailbox.domainId then .error domainMismatch
      else .ok { mailbox with domainId := provided }

/-- The mailbox a body asks for. -/
def newMailbox (body : NewMailbox) : Except Response Mailbox :=
  let mailboxId := Text.toLowercase (Text.trim body.id)
  if mailboxId.isEmpty then
    .error (.problem 400 (.badRequest "email address must not be empty"))
  else
    match Mailbox.tryFrom mailboxId with
    | .error .invalidFormat =>
        .error (.problem 400 (.badRequest "invalid email address (missing domain part)"))
    | .ok mailbox =>
        match overrideDomain mailbox body.domainId with
        | .error response => .error response
        | .ok mailbox => .ok { mailbox with forwardTo := body.forwardTo }

/-- Insert a mailbox, or resolve against the row that won a race. -/
def insertMailbox (mailbox : Mailbox) : Prog Response := do
  match ← sql (.createMailbox mailbox) with
  | .ok created => pure (.ok (.mailbox created))
  | .error e =>
      match ← sql (.getMailbox mailbox.id) with
      | .ok existing => pure (mailboxResolve existing mailbox)
      | .error _ => pure (.failed e)

def createMailbox : Option NewMailbox → Prog Response
  | none => pure .unparsed
  | some body =>
      match newMailbox body with
      | .error response => pure response
      | .ok mailbox => do
          match ← sql (.getMailbox mailbox.id) with
          | .ok existing => pure (mailboxResolve existing mailbox)
          | .error _ => insertMailbox mailbox

def getMailbox (mailboxId : String) : Prog Response := do
  match ← sql (.getMailbox mailboxId) with
  | .ok mailbox => pure (.ok (.mailbox mailbox))
  | .error _ => pure (mailboxNotFound mailboxId)

/-- Write back a patched mailbox and read it again. -/
def updateMailbox (mailboxId : String) (mailbox : Mailbox) : Prog Response := do
  match ← sql (.updateMailbox mailbox.id mailbox.domainId mailbox.forwardTo) with
  | .error e => pure (.failed e)
  | .ok () =>
      match ← sql (.getMailbox mailboxId) with
      | .ok updated => pure (.ok (.mailbox updated))
      | .error _ => pure (.problem 500 (.serverError "mailbox vanished after update"))

def patchMailbox (mailboxId : String) : Option PatchMailbox → Prog Response
  | none => pure .unparsed
  | some body => do
      match ← sql (.getMailbox mailboxId) with
      | .error _ => pure (mailboxNotFound mailboxId)
      | .ok mailbox =>
          match overrideDomain mailbox body.domainId with
          | .error response => pure response
          | .ok mailbox =>
              updateMailbox mailboxId
                { mailbox with forwardTo := body.forwardTo.or mailbox.forwardTo }

def deleteMailbox (mailboxId : String) : Prog Response := do
  match ← sql (.getMailbox mailboxId) with
  | .error _ => pure (mailboxNotFound mailboxId)
  | .ok _ =>
      match ← sql (.deleteMailbox mailboxId) with
      | .ok () => pure (.ok .unit)
      | .error e => pure (.failed e)

/-! ## DNS records -/

/-- Body for creating a DNS record; a missing `ttl` was filled in when the body was read. -/
structure NewRecord where
  domainId : String
  recordType : String
  value : String
  ttl : Nat
  deriving DecidableEq, Repr

/-- Body for patching a DNS record. -/
structure PatchRecord where
  domainId : Option String
  recordType : Option String
  value : Option String
  ttl : Option Nat
  deriving DecidableEq, Repr

/-- The response of a record id that names no record. -/
def recordNotFound : Option Nat → Response
  | none => .problem 404 (.notFound "record not found")
  | some recordId => .problem 404 (.notFound ("record '" ++ toString recordId ++ "' not found"))

/-- The first offending field of a record: a blank value, or a domain that is not provisioned. -/
def validateRecordFields (domainId value : String) : Prog (Except ApiProblem Unit) :=
  if (Text.trim value).isEmpty then pure (.error (.badRequest "value must not be empty"))
  else do
    match ← sql (.getDomain domainId) with
    | .ok _ => pure (.ok ())
    | .error _ =>
        pure (.error (.badRequest ("domain '" ++ domainId ++ "' is not provisioned")))

/-- The HTTP status of a problem document, where it is one. -/
def statusOf (problem : ApiProblem) : Nat :=
  if 100 ≤ problem.status ∧ problem.status < 1000 then problem.status else 400

/-- A create that meets a row of the same type and value confirms an equal `ttl` and refuses any
other; without such a row nothing is decided. -/
def recordResolve (rows : List Record) (recordType : RecordType) (value : String) (ttl : Nat) :
    Option Response :=
  match rows.find? (fun row => row.recordType = recordType ∧ row.value = value) with
  | none => none
  | some existing =>
      if existing.ttl = ttl then some (.ok (.record (.ofRecord existing)))
      else some (.problem 409 (.conflict ("a " ++ recordTypeToString recordType ++
        " record for this domain with value '" ++ value ++
        "' already exists with a different ttl")))

/-- Insert a record, or resolve against the row that won a race. -/
def insertRecord (record : RecordDTO) : Prog Response := do
  match ← sql (.createRecord record) with
  | .ok created => pure (.ok (.record (.ofRecord created)))
  | .error e =>
      match ← sql (.recordsOfDomain record.domainId) with
      | .error _ => pure (.failed e)
      | .ok rows =>
          pure ((recordResolve rows record.recordType record.value record.ttl).getD (.failed e))

def createRecord : Option NewRecord → Prog Response
  | none => pure .unparsed
  | some body =>
      let domainId := Text.toLowercase (Text.trim body.domainId)
      let value := Text.trim body.value
      match parseRecordType (Text.trim body.recordType) with
      | .error problem => pure (.problem 400 problem)
      | .ok recordType => do
          match ← validateRecordFields domainId value with
          | .error problem => pure (.problem (statusOf problem) problem)
          | .ok () =>
              match ← sql (.recordsOfDomain domainId) with
              | .error e => pure (.failed e)
              | .ok rows =>
                  match recordResolve rows recordType value body.ttl with
                  | some response => pure response
                  | none => insertRecord ⟨domainId, recordType, value, body.ttl⟩

def getRecord : Option Nat → Prog Response
  | none => pure (recordNotFound none)
  | some recordId => do
      match ← sql (.getRecord recordId) with
      | .ok record => pure (.ok (.record (.ofRecord record)))
      | .error _ => pure (recordNotFound (some recordId))

/-- The fields of a record with a patch laid over them. -/
def patchedRecord (record : Record) (body : PatchRecord) : Except ApiProblem RecordDTO :=
  let recordType : Except ApiProblem RecordType := match body.recordType with
    | none => .ok record.recordType
    | some recordType => parseRecordType (Text.trim recordType)
  match recordType with
  | .error problem => .error problem
  | .ok recordType => .ok
      { domainId := (body.domainId.map (fun id => Text.toLowercase (Text.trim id))).getD
          record.domainId
        recordType := recordType
        value := (body.value.map Text.trim).getD record.value
        ttl := body.ttl.getD record.ttl }

/-- Write back a patched record and read it again. -/
def updateRecord (recordId : Nat) (record : RecordDTO) : Prog Response := do
  match ← sql (.updateRecord recordId record) with
  | .error e => pure (.failed e)
  | .ok () =>
      match ← sql (.getRecord recordId) with
      | .ok updated => pure (.ok (.record (.ofRecord updated)))
      | .error _ => pure (.problem 500 (.serverError "record vanished after update"))

def patchRecord : Option Nat → Option PatchRecord → Prog Response
  | none, _ => pure (recordNotFound none)
  | some _, none => pure .unparsed
  | some recordId, some body => do
      match ← sql (.getRecord recordId) with
      | .error _ => pure (recordNotFound (some recordId))
      | .ok record =>
          match patchedRecord record body with
          | .error problem => pure (.problem 400 problem)
          | .ok patched =>
              match ← validateRecordFields patched.domainId patched.value with
              | .error problem => pure (.problem (statusOf problem) problem)
              | .ok () =>
                  match ← sql (.recordsOfDomain patched.domainId) with
                  | .error e => pure (.failed e)
                  | .ok rows =>
                      if rows.any (fun row => row.id ≠ recordId ∧
                          row.recordType = patched.recordType ∧ row.value = patched.value) then
                        pure (.problem 409 (.conflict
                          "a record with the same domain, type, and value already exists"))
                      else updateRecord recordId patched

def deleteRecord : Option Nat → Prog Response
  | none => pure (recordNotFound none)
  | some recordId => do
      match ← sql (.getRecord recordId) with
      | .error _ => pure (recordNotFound (some recordId))
      | .ok _ =>
          match ← sql (.deleteRecord recordId) with
          | .ok () => pure (.ok .unit)
          | .error e => pure (.failed e)

/-! ## Sending -/

/-- A mailbox as the mail library parses it: an optional display name and an address. -/
structure LettreMailbox where
  name : Option String
  email : String
  deriving DecidableEq, Repr

/-- What a message is built from. -/
structure LettreDraft where
  sender : LettreMailbox
  toAddresses : List LettreMailbox
  ccAddresses : List LettreMailbox
  bccAddresses : List LettreMailbox
  contentType : Option String
  subject : Option String
  body : String
  deriving DecidableEq, Repr

/-- The mail library: how it parses a mailbox and a content type, and builds a message. -/
structure Lettre where
  parseMailbox : String → Except String LettreMailbox
  parseContentType : String → Except String String
  build : LettreDraft → Except String LettreMessage

/-- Body for sending a message. -/
structure SendEmail where
  sender : String
  toAddresses : List String
  ccAddresses : List String
  bccAddresses : List String
  subject : Option String
  body : String
  contentType : Option String
  deriving DecidableEq, Repr

/-- The recipients in first-seen order. -/
def SendEmail.recipients (email : SendEmail) : List String :=
  (email.toAddresses ++ email.ccAddresses ++ email.bccAddresses).foldl
    (fun seen recipient => if recipient ∈ seen then seen else seen ++ [recipient]) []

/-- The message of a body, or why it cannot be built. -/
def buildSendMessage (lettre : Lettre) (email : SendEmail) : Except String LettreMessage := do
  let sender ← (lettre.parseMailbox email.sender).mapError
    (fun e => "invalid From address '" ++ email.sender ++ "': " ++ e)
  let toAddresses ← email.toAddresses.mapM lettre.parseMailbox
  let ccAddresses ← email.ccAddresses.mapM lettre.parseMailbox
  let bccAddresses ← email.bccAddresses.mapM lettre.parseMailbox
  let contentType ← match email.contentType with
    | none => pure none
    | some text =>
        let parsed := (lettre.parseContentType text).mapError
          (fun e => "invalid content_type '" ++ text ++ "': " ++ e)
        some <$> parsed
  (lettre.build ⟨sender, toAddresses, ccAddresses, bccAddresses, contentType, email.subject,
    email.body⟩).mapError (fun e => "failed to build message: " ++ e)

/-- One job per further recipient; the first failure ends the request. -/
def enqueueRest (messageId : Nat) (sender : String) (outboundIds : List Nat) :
    List String → Prog Response
  | [] => pure (.ok (.sent ⟨messageId, outboundIds⟩))
  | recipient :: rest => do
      match ← enqueueForward messageId sender recipient with
      | .error e => pure (.problem 500 (.serverError e))
      | .ok outboundId => enqueueRest messageId sender (outboundIds ++ [outboundId]) rest

def sendEmail (parse : MessageParser) (lettre : Lettre) : Option SendEmail → Prog Response
  | none => pure .unparsed
  | some email =>
      match email.recipients with
      | [] => pure (.problem 400 (.badRequest
          "no recipients: at least one of to, cc, or bcc is required"))
      | first :: rest => do
          match ← sql (.getMailbox email.sender) with
          | .error _ => pure (.problem 409 (.conflict
              ("sender '" ++ email.sender ++ "' is not a provisioned mailbox")))
          | .ok _ =>
              match buildSendMessage lettre email with
              | .error e => pure (.problem 400 (.badRequest e))
              | .ok message =>
                  match ← enqueueOutbound parse email.sender first message with
                  | .error e => pure (.problem 500 (.serverError e))
                  | .ok (messageId, outboundId) =>
                      enqueueRest messageId email.sender [outboundId] rest

/-! ## Messages -/

/-- Delete a message after its links; a missing or malformed id is 0. -/
def deleteMessage (messageId : Nat) : Prog Response := do
  match ← sql (.getMessage messageId) with
  | .error _ =>
      pure (.problem 404 (.notFound ("message '" ++ toString messageId ++ "' not found")))
  | .ok _ =>
      match ← sql (.deleteInboundsOfMessage messageId) with
      | .error e => pure (.failed e)
      | .ok () =>
          match ← sql (.deleteOutboundsOfMessage messageId) with
          | .error e => pure (.failed e)
          | .ok () =>
              match ← sql (.deleteMessage messageId) with
              | .ok () => pure (.ok .unit)
              | .error e => pure (.failed e)

/-! ## Messages of a mailbox -/

/-- Is the mailbox provisioned, in any letter case? -/
def ensureMailboxExists (mailboxId : String) : Prog (Except Response Unit) := do
  match ← sql (.getMailbox (Text.toLowercase mailboxId)) with
  | .ok _ => pure (.ok ())
  | .error _ => pure (.error (mailboxNotFound mailboxId))

/-- The messages that the mailbox received, with their direction; no statement when they are not
wanted. -/
def inboundIds (wanted : Bool) (mailboxId : String) :
    Prog (Except DbError (List (Nat × String))) :=
  if wanted then do
    match ← sql (.inboundsOfRecipient (Text.toLowercase mailboxId)) with
    | .error e => pure (.error e)
    | .ok links => pure (.ok (links.map (fun link => (link.messageId, "inbound"))))
  else pure (.ok [])

/-- The messages that the mailbox sent. -/
def outboundIds (wanted : Bool) (mailboxId : String) :
    Prog (Except DbError (List (Nat × String))) :=
  if wanted then do
    match ← sql (.outboundsOfSender (Text.toLowercase mailboxId)) with
    | .error e => pure (.error e)
    | .ok jobs => pure (.ok (jobs.map (fun job => (job.messageId, "outbound"))))
  else pure (.ok [])

/-- Load the messages in turn; one that is gone is skipped. The later of two directions counts. -/
def loadMessages (directions : List (Nat × String)) (items : List MessageDTO) :
    List Nat → Prog (List MessageDTO)
  | [] => pure items
  | id :: rest => do
      match ← sql (.getMessage id) with
      | .error _ => loadMessages directions items rest
      | .ok message =>
          loadMessages directions
            (items ++ [{ MessageDTO.ofMessage message with
              direction := directions.reverse.lookup id }]) rest

/-- The messages of a mailbox, each once, in the order of their numbers. -/
def loadMailboxMessages (mailboxId : String) (direction : Option MessageDirection) :
    Prog (Except DbError (List MessageDTO)) := do
  match ← inboundIds (direction ≠ some .outbound) mailboxId with
  | .error e => pure (.error e)
  | .ok received =>
      match ← outboundIds (direction ≠ some .inbound) mailboxId with
      | .error e => pure (.error e)
      | .ok sent =>
          let directions := received ++ sent
          let ids := ((directions.map Prod.fst).insertionSort (· ≤ ·)).dedup
          let items ← loadMessages directions [] ids
          pure (.ok items)

/-- List messages of a provisioned mailbox. -/
def listMessages (mailboxId : String) (direction : Option MessageDirection) (limit offset : Nat) :
    Prog Response := do
  match ← ensureMailboxExists mailboxId with
  | .error response => pure response
  | .ok () =>
      match ← loadMailboxMessages mailboxId direction with
      | .error e => pure (.failed e)
      | .ok items => pure (.ok (.messages (.fromAll items limit offset)))

/-- The page of a query that was parsed as a whole is taken as it is; one that was not goes through
`page_params`. -/
def listMailboxMessages (mailboxId : String) (query : Query) : Prog Response :=
  match ListMessagesQuery.parse query with
  | some parsed =>
      listMessages mailboxId parsed.direction (parsed.limit.getD defaultPageLimit)
        (parsed.offset.getD 0)
  | none => listMessages mailboxId none (pageParams query).1 (pageParams query).2

def listMailboxInbox (mailboxId : String) (query : Query) : Prog Response :=
  listMessages mailboxId (some .inbound) (pageParams query).1 (pageParams query).2

def listMailboxSent (mailboxId : String) (query : Query) : Prog Response :=
  listMessages mailboxId (some .outbound) (pageParams query).1 (pageParams query).2

/-! ## Requests -/

/-- The requests of the handlers above. -/
inductive Request where
  | createDomain (body : Option NewDomain)
  | getDomain (domainId : String)
  | patchDomain (domainId : String) (parsed : Bool)
  | deleteDomain (domainId : String)
  | createMailbox (body : Option NewMailbox)
  | getMailbox (mailboxId : String)
  | patchMailbox (mailboxId : String) (body : Option PatchMailbox)
  | deleteMailbox (mailboxId : String)
  | createRecord (body : Option NewRecord)
  | getRecord (recordId : Option Nat)
  | patchRecord (recordId : Option Nat) (body : Option PatchRecord)
  | deleteRecord (recordId : Option Nat)
  | sendEmail (body : Option SendEmail)
  | deleteMessage (messageId : Nat)
  | listMailboxMessages (mailboxId : String) (query : Query)
  | listMailboxInbox (mailboxId : String) (query : Query)
  | listMailboxSent (mailboxId : String) (query : Query)

/-- The handler of a request. -/
def Request.handle (parse : MessageParser) (lettre : Lettre) : Request → Prog Response
  | .createDomain body => Api.createDomain body
  | .getDomain domainId => Api.getDomain domainId
  | .patchDomain domainId parsed => Api.patchDomain domainId parsed
  | .deleteDomain domainId => Api.deleteDomain domainId
  | .createMailbox body => Api.createMailbox body
  | .getMailbox mailboxId => Api.getMailbox mailboxId
  | .patchMailbox mailboxId body => Api.patchMailbox mailboxId body
  | .deleteMailbox mailboxId => Api.deleteMailbox mailboxId
  | .createRecord body => Api.createRecord body
  | .getRecord recordId => Api.getRecord recordId
  | .patchRecord recordId body => Api.patchRecord recordId body
  | .deleteRecord recordId => Api.deleteRecord recordId
  | .sendEmail body => Api.sendEmail parse lettre body
  | .deleteMessage messageId => Api.deleteMessage messageId
  | .listMailboxMessages mailboxId query => Api.listMailboxMessages mailboxId query
  | .listMailboxInbox mailboxId query => Api.listMailboxInbox mailboxId query
  | .listMailboxSent mailboxId query => Api.listMailboxSent mailboxId query

end Zonemail.Api
