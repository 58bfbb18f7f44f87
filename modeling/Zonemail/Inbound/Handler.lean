import Zonemail.Outbound.Enqueue

/-!
# The inbound SMTP handler

The handler of `email.rs`, which lives as long as one connection: what it does with a recipient and
with a payload, and the session that calls it command by command.
-/

namespace Zonemail

open Library

/-! ## What is stored -/

/-- The first address of a header value, or the empty text. -/
def addressToString : Address → String
  | .list addresses => (addresses.head?.join).getD ""
  | .group groups => (groups.findSome? (fun addresses => addresses.head?.join)).getD ""

/-- Every address of a header value. -/
def addressListToStrings : Address → List String
  | .list addresses => addresses.filterMap id
  | .group groups => groups.flatten.filterMap id

/-- What is stored of a payload: the payload itself and the headers, best effort. -/
def messageContent (parsed : Option ParsedMessage) (data : Bytes) : MessageContent :=
  let fromAddress := (parsed.bind ParsedMessage.fromAddress).map addressToString
  { mailFrom := fromAddress.getD ""
    raw := data
    subject := parsed.bind ParsedMessage.subject
    messageIdHeader := parsed.bind ParsedMessage.messageId
    contentType := parsed.bind ParsedMessage.contentType
    fromAddress := fromAddress
    toAddresses := (parsed.bind ParsedMessage.toAddresses).elim [] addressListToStrings
    ccAddresses := (parsed.bind ParsedMessage.ccAddresses).elim [] addressListToStrings
    bccAddresses := (parsed.bind ParsedMessage.bccAddresses).elim [] addressListToStrings }

/-! ## The handler -/

/-- The connection-scoped handler: the recipients accepted so far. -/
structure ZonedMailHandler where
  recipients : List String
  deriving DecidableEq, Repr

/-- A new connection has no recipients. -/
def newHandler : ZonedMailHandler := ⟨[]⟩

/-- Why a command is refused. -/
inductive SmtpError where
  | abort
  deriving DecidableEq, Repr

/-- The address a `RCPT TO` names. -/
def cleanEmail (path : String) : String :=
  Text.toLowercase (Text.trimMatches (fun c => c == '<' || c == '>' || c == ' ') path)

/-- Accept a recipient that is a provisioned mailbox. -/
def ZonedMailHandler.handleRcpt (handler : ZonedMailHandler) (path : String) :
    Prog (Except SmtpError Unit × ZonedMailHandler) := do
  let cleaned := cleanEmail path
  match ← sql (.getMailbox cleaned) with
  | .ok _ => pure (.ok (), ⟨handler.recipients ++ [cleaned]⟩)
  | .error _ => pure (.error .abort, handler)

/-- The key under which an earlier copy of a message is looked up. -/
def dedupKey (content : MessageContent) : Option String :=
  (content.messageIdHeader.map Text.trim).filter (fun key => !key.isEmpty)

/-- The number of the message found. A failed lookup is only logged. -/
def foundId : Except DbError (Option Message) → Option Nat
  | .ok (some existing) => some existing.id
  | .ok none | .error _ => none

/-- The stored message with this key, when there is a key and the lookup finds one. -/
def findDuplicate (content : MessageContent) : Prog (Option Nat) :=
  match dedupKey content with
  | none => pure none
  | some key => do
      let found ← sql (.firstMessageWithHeader key)
      pure (foundId found)

/-- The number of the message: an earlier copy's, or that of a new row. -/
def storeMessage (content : MessageContent) : Prog (Except SmtpError Nat) := do
  match ← findDuplicate content with
  | some id => pure (.ok id)
  | none =>
      match ← sql (.createMessage content) with
      | .ok created => pure (.ok created.id)
      | .error _ => pure (.error .abort)

/-- One received-mail link per recipient; the first failure aborts. -/
def linkInbounds (messageId : Nat) : List String → Prog (Except SmtpError Unit)
  | [] => pure (.ok ())
  | recipient :: rest => do
      match ← sql (.createInbound messageId recipient) with
      | .ok _ => linkInbounds messageId rest
      | .error _ => pure (.error .abort)

/-- Forward to the registered address of a recipient, if it has one. Failures are only logged. -/
def forward (messageId : Nat) (recipient : String) : Prog Unit := do
  match ← sql (.getMailbox recipient) with
  | .error _ => pure ()
  | .ok mailbox =>
      match mailbox.forwardTo with
      | none => pure ()
      | some forwardTo =>
          let _ ← enqueueForward messageId recipient forwardTo
          pure ()

/-- Forward for every recipient in turn. -/
def forwardAll (messageId : Nat) : List String → Prog Unit
  | [] => pure ()
  | recipient :: rest => do
      forward messageId recipient
      forwardAll messageId rest

/-- The recipients a payload is stored for. -/
def storedFor (recipients : List String) : List String :=
  if recipients.isEmpty then ["unknown"] else recipients

/-- A payload is stored for the accepted recipients, or for the fallback name when there are
none. -/
theorem mem_storedFor {recipients : List String} {recipient : String} :
    recipient ∈ storedFor recipients ↔
      recipient ∈ recipients ∨ recipients = [] ∧ recipient = "unknown" := by
  cases recipients <;> simp [storedFor]

/-- Store a payload for these recipients, link it to each and forward it. -/
def deliver (parse : MessageParser) (recipients : List String) (data : Bytes) :
    Prog (Except SmtpError Unit) := do
  match ← storeMessage (messageContent (parse data) data) with
  | .error e => pure (.error e)
  | .ok messageId =>
      match ← linkInbounds messageId recipients with
      | .error e => pure (.error e)
      | .ok () =>
          forwardAll messageId recipients
          pure (.ok ())

/-- Take the accepted recipients and store the payload for them, or for the fallback name when there
are none. -/
def ZonedMailHandler.handleEmail (parse : MessageParser) (handler : ZonedMailHandler)
    (data : Bytes) : Prog (Except SmtpError Unit × ZonedMailHandler) := do
  let result ← deliver parse (storedFor handler.recipients) data
  pure (result, ⟨[]⟩)

/-! ## Sessions -/

/-- Was the command accepted? -/
def accepted : Except SmtpError Unit → Bool
  | .ok () => true
  | .error _ => false

/-- One command of a session. `MAIL FROM` and `RSET` reach no method of the handler. -/
def ZonedMailHandler.command (parse : MessageParser) (handler : ZonedMailHandler) :
    SmtpCommand → Prog ZonedMailHandler
  | .mailFrom path => do
      reply (.mailFrom path) true
      pure handler
  | .rset => do
      reply .rset true
      pure handler
  | .rcptTo path => do
      let (result, next) ← handler.handleRcpt path
      reply (.rcptTo path) (accepted result)
      pure next
  | .data payload => do
      let (result, next) ← handler.handleEmail parse payload
      reply (.data payload) (accepted result)
      pure next

/-- A session: the commands of one connection, one after the other. -/
def ZonedMailHandler.session (parse : MessageParser) (handler : ZonedMailHandler) :
    List SmtpCommand → Prog Unit
  | [] => pure ()
  | command :: commands => do
      let next ← handler.command parse command
      next.session parse commands

end Zonemail
