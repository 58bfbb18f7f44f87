import Zonemail.Db.Schema

/-!
# Pages and list queries

The pagination envelope of `api.rs`, how `limit` and `offset` are read from a query string, and the
wire form of a listed message.
-/

namespace Zonemail.Api

/-- The parameters of a query string, as they are written; `none` when missing. -/
structure Query where
  direction : Option String
  limit : Option String
  offset : Option String
  deriving DecidableEq, Repr

def defaultPageLimit : Nat := 50

def maxPageLimit : Nat := 200

/-- The largest `usize`. -/
def usizeMax : Nat := 2 ^ 64 - 1

/-- One page of a list. `nextOffset` is there only when more rows follow. -/
structure Page (α : Type) where
  items : List α
  limit : Nat
  offset : Nat
  nextOffset : Option Nat
  deriving DecidableEq, Repr

/-- The page of a list that begins at an offset. -/
def Page.fromAll {α : Type} (rows : List α) (limit offset : Nat) : Page α :=
  let stop := min (offset + limit) usizeMax
  { items := (rows.drop offset).take limit
    limit := limit
    offset := offset
    nextOffset := if stop < rows.length then some stop else none }

/-- `limit`, from 1 to the cap, and `offset`. A malformed value counts as missing. -/
def pageParams (query : Query) : Nat × Nat :=
  let limit := (query.limit.bind (Text.parseUnsigned 64)).getD defaultPageLimit
  let offset := (query.offset.bind (Text.parseUnsigned 64)).getD 0
  (min (max limit 1) maxPageLimit, min offset (2 ^ 63 - 1))

/-- Which messages of a mailbox are listed. -/
inductive MessageDirection where
  | both
  | inbound
  | outbound
  deriving DecidableEq, Repr

/-- The direction with this name. -/
def MessageDirection.parse : String → Option MessageDirection
  | "Both" => some .both
  | "Inbound" => some .inbound
  | "Outbound" => some .outbound
  | _ => none

/-- The query of the message list. -/
structure ListMessagesQuery where
  direction : Option MessageDirection
  limit : Option Nat
  offset : Option Nat
  deriving DecidableEq, Repr

/-- Parse a field that may be missing but not malformed. -/
def parseField {α : Type} (parse : String → Option α) : Option String → Option (Option α)
  | none => some none
  | some text => (parse text).map some

/-- Parse the query as a whole; one malformed field fails it. -/
def ListMessagesQuery.parse (query : Query) : Option ListMessagesQuery := do
  let direction ← parseField MessageDirection.parse query.direction
  let limit ← parseField (Text.parseUnsigned 64) query.limit
  let offset ← parseField (Text.parseUnsigned 64) query.offset
  pure ⟨direction, limit, offset⟩

/-- A listed message, with the way it went when it is listed for a mailbox. -/
structure MessageDTO where
  id : Nat
  direction : Option String
  mailFrom : String
  subject : Option String
  messageIdHeader : Option String
  contentType : Option String
  fromAddress : Option String
  toAddresses : List String
  ccAddresses : List String
  bccAddresses : List String
  deriving DecidableEq, Repr

def MessageDTO.ofMessage (message : Message) : MessageDTO where
  id := message.id
  direction := none
  mailFrom := message.mailFrom
  subject := message.subject
  messageIdHeader := message.messageIdHeader
  contentType := message.contentType
  fromAddress := message.fromAddress
  toAddresses := message.toAddresses
  ccAddresses := message.ccAddresses
  bccAddresses := message.bccAddresses

end Zonemail.Api
