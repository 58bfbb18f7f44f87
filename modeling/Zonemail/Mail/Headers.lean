import Zonemail.Db.Schema

/-!
# Parsed headers

What the mail parser makes out of a payload. The parser itself is a parameter of everything that
stores a message: a function from the payload to the headers.
-/

namespace Zonemail

/-- An address list of a parsed header; each address part may be missing. -/
inductive Address where
  | list (addresses : List (Option String))
  | group (groups : List (List (Option String)))
  deriving DecidableEq, Repr

/-- The headers the mail parser made out. -/
structure ParsedMessage where
  fromAddress : Option Address
  subject : Option String
  contentType : Option String
  messageId : Option String
  toAddresses : Option Address
  ccAddresses : Option Address
  bccAddresses : Option Address
  deriving DecidableEq, Repr

/-- The mail parser. -/
abbrev MessageParser := Bytes → Option ParsedMessage

end Zonemail
