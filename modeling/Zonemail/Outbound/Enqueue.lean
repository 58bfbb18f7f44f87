import Zonemail.Db.Effect
import Zonemail.Mail.Headers
import Zonemail.Outbound.Delivery

/-!
# The producers of the queue

`enqueue_outbound` stores a message that is to be sent and its first delivery job,
`enqueue_forward` adds a job for a message that is already stored. Neither touches the network.
-/

namespace Zonemail

open Library

/-- A message built by the mail library: the sender of its envelope and its bytes. -/
structure LettreMessage where
  envelopeFrom : Option String
  formatted : Bytes
  deriving DecidableEq, Repr

/-- The first address of a header value, or the empty text. -/
def firstAddress : Address → String
  | .list addresses => (addresses.head?.join).getD ""
  | .group groups => (groups.findSome? (fun addresses => addresses.head?.join)).getD ""

/-- Every address of a header value. -/
def addrsToStrings : Address → List String
  | .list addresses => addresses.filterMap id
  | .group groups => groups.flatten.filterMap id

/-- What is stored of a message that is to be sent. -/
def sentContent (parse : MessageParser) (message : LettreMessage) : MessageContent :=
  let parsed := parse message.formatted
  { mailFrom := message.envelopeFrom.getD ""
    raw := message.formatted
    subject := parsed.bind ParsedMessage.subject
    messageIdHeader := parsed.bind ParsedMessage.messageId
    contentType := parsed.bind ParsedMessage.contentType
    fromAddress := (parsed.bind ParsedMessage.fromAddress).map firstAddress
    toAddresses := (parsed.bind ParsedMessage.toAddresses).elim [] addrsToStrings
    ccAddresses := (parsed.bind ParsedMessage.ccAddresses).elim [] addrsToStrings
    bccAddresses := (parsed.bind ParsedMessage.bccAddresses).elim [] addrsToStrings }

/-- A new job: queued, never tried, due at once. -/
def newJob (messageId : Nat) (senderId rcptTo : String) : OutboundJob :=
  ⟨messageId, rcptTo, senderId, .queued, 0, none, none⟩

/-- Store a message and enqueue its delivery to one recipient: the numbers of both rows. -/
def enqueueOutbound (parse : MessageParser) (sender recipient : String) (message : LettreMessage) :
    Prog (Except String (Nat × Nat)) := do
  match ← sql (.createMessage (sentContent parse message)) with
  | .error e => pure (.error (err "failed to store outbound Message" e.text))
  | .ok created =>
      match ← sql (.createOutbound (newJob created.id sender recipient)) with
      | .error e => pure (.error (err "failed to enqueue Outbound" e.text))
      | .ok job => pure (.ok (created.id, job.id))

/-- Enqueue delivery of a stored message to a new address. -/
def enqueueForward (messageId : Nat) (senderId forwardTo : String) : Prog (Except String Nat) := do
  match ← sql (.createOutbound (newJob messageId senderId forwardTo)) with
  | .error e => pure (.error (err "failed to enqueue forward Outbound" e.text))
  | .ok job => pure (.ok job.id)

end Zonemail
