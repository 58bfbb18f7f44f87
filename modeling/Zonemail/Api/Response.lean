import Zonemail.Api.Paging
import Zonemail.Outbound.Enqueue

/-!
# Responses of the HTTP interface

The problem document and the success envelope of `api.rs`, and the wire names of the DNS record
types. A response carries its HTTP status apart from the status inside a problem document, as the
handlers set the two separately. Creation and update times are left out, as in the stored rows.
-/

namespace Zonemail.Api

/-! ## Problem documents -/

/-- The problem document of an error response. -/
structure ApiProblem where
  status : Nat
  type : String
  detail : Option String
  deriving DecidableEq, Repr

namespace ApiProblem

def badRequest (msg : String) : ApiProblem := ⟨400, "bad request", some msg⟩
def notFound (msg : String) : ApiProblem := ⟨404, "not_found", some msg⟩
def validationError (detail : String) : ApiProblem := ⟨422, "validation_error", some detail⟩
def conflict (msg : String) : ApiProblem := ⟨409, "conflict", some msg⟩
def serverError (msg : String) : ApiProblem := ⟨500, "server_error", some msg⟩

end ApiProblem

/-! ## Record types on the wire -/

/-- Every record type. -/
def recordTypes : List RecordType :=
  [.A, .AAAA, .ANAME, .ANY, .AXFR, .CAA, .CDS, .CDNSKEY, .CERT, .CNAME, .DNAME, .CSYNC, .DNSKEY,
    .DS, .HINFO, .HTTPS, .IXFR, .KEY, .MX, .NAPTR, .NS, .NSEC, .NSEC3, .NSEC3PARAM, .NULL,
    .OPENPGPKEY, .OPT, .PTR, .RRSIG, .SIG, .SMIMEA, .SOA, .SRV, .SSHFP, .SVCB, .TLSA, .TSIG, .TXT,
    .Unknown, .ZERO]

/-- The wire name of a record type: its name in the source. -/
def recordTypeToString : RecordType → String
  | .A => "A" | .AAAA => "AAAA" | .ANAME => "ANAME" | .ANY => "ANY" | .AXFR => "AXFR"
  | .CAA => "CAA" | .CDS => "CDS" | .CDNSKEY => "CDNSKEY" | .CERT => "CERT" | .CNAME => "CNAME"
  | .DNAME => "DNAME" | .CSYNC => "CSYNC" | .DNSKEY => "DNSKEY" | .DS => "DS" | .HINFO => "HINFO"
  | .HTTPS => "HTTPS" | .IXFR => "IXFR" | .KEY => "KEY" | .MX => "MX" | .NAPTR => "NAPTR"
  | .NS => "NS" | .NSEC => "NSEC" | .NSEC3 => "NSEC3" | .NSEC3PARAM => "NSEC3PARAM"
  | .NULL => "NULL" | .OPENPGPKEY => "OPENPGPKEY" | .OPT => "OPT" | .PTR => "PTR"
  | .RRSIG => "RRSIG" | .SIG => "SIG" | .SMIMEA => "SMIMEA" | .SOA => "SOA" | .SRV => "SRV"
  | .SSHFP => "SSHFP" | .SVCB => "SVCB" | .TLSA => "TLSA" | .TSIG => "TSIG" | .TXT => "TXT"
  | .Unknown => "Unknown" | .ZERO => "ZERO"

/-- The value of a hexadecimal digit. -/
def hexDigit (c : Char) : Option Nat :=
  if '0' ≤ c ∧ c ≤ '9' then some (c.toNat - '0'.toNat)
  else if 'a' ≤ c ∧ c ≤ 'f' then some (c.toNat - 'a'.toNat + 10)
  else if 'A' ≤ c ∧ c ≤ 'F' then some (c.toNat - 'A'.toNat + 10)
  else none

/-- The code unit of four hexadecimal digits. -/
def codeUnit (a b c d : Char) : Option Nat := do
  pure (((← hexDigit a) * 16 + (← hexDigit b)) * 256 + (← hexDigit c) * 16 + (← hexDigit d))

/-- The character of an escape letter other than `u`. -/
def escaped : Char → Option Char
  | '"' => some '"'
  | '\\' => some '\\'
  | '/' => some '/'
  | 'b' => some '\x08'
  | 'f' => some '\x0c'
  | 'n' => some '\n'
  | 'r' => some '\r'
  | 't' => some '\t'
  | _ => none

/-- The text of a JSON string literal, given what stands between its quotes. A bare quote ends the
literal early, which leaves trailing characters, and a control character is not allowed. -/
def unescape : List Char → Option (List Char)
  | [] => some []
  | '\\' :: 'u' :: a :: b :: c :: d :: rest =>
      match codeUnit a b c d with
      | none => none
      | some unit =>
          if 0xDC00 ≤ unit ∧ unit ≤ 0xDFFF then none
          else if 0xD800 ≤ unit ∧ unit ≤ 0xDBFF then
            match rest with
            | '\\' :: 'u' :: a :: b :: c :: d :: rest =>
                match codeUnit a b c d with
                | none => none
                | some low =>
                    if 0xDC00 ≤ low ∧ low ≤ 0xDFFF then
                      (unescape rest).map
                        (Char.ofNat (0x10000 + (unit - 0xD800) * 0x400 + (low - 0xDC00)) :: ·)
                    else none
            | _ => none
          else (unescape rest).map (Char.ofNat unit :: ·)
  | '\\' :: c :: rest =>
      match escaped c with
      | none => none
      | some c => (unescape rest).map (c :: ·)
  | c :: rest =>
      if c = '"' ∨ c = '\\' ∨ c < ' ' then none else (unescape rest).map (c :: ·)

/-- The record type with this wire name, read as what stands between the quotes of a JSON string
literal. -/
def parseRecordType (s : String) : Except ApiProblem RecordType :=
  let named := (unescape s.toList).bind (fun name =>
    recordTypes.find? (fun recordType => (recordTypeToString recordType).toList = name))
  match named with
  | none => .error (.badRequest ("unknown record type '" ++ s ++ "'"))
  | some recordType => .ok recordType

/-! ## Responses -/

/-- The wire form of a DNS record. -/
structure RecordApiDTO where
  id : Nat
  domainId : String
  recordType : String
  value : String
  ttl : Nat
  deriving DecidableEq, Repr

def RecordApiDTO.ofRecord (record : Record) : RecordApiDTO where
  id := record.id
  domainId := record.domainId
  recordType := recordTypeToString record.recordType
  value := record.value
  ttl := record.ttl

/-- The result of a successful send. -/
structure SendResult where
  messageId : Nat
  outboundIds : List Nat
  deriving DecidableEq, Repr

/-- What a success envelope carries. -/
inductive Payload where
  | domain (domain : Domain)
  | mailbox (mailbox : Mailbox)
  | record (record : RecordApiDTO)
  | sent (result : SendResult)
  | messages (page : Page MessageDTO)
  | unit
  deriving DecidableEq, Repr

/-- A response: the HTTP status, and a problem document or a success envelope. -/
structure Response where
  status : Nat
  body : Except ApiProblem Payload

namespace Response

/-- 200 with a success envelope. -/
def ok (payload : Payload) : Response := ⟨200, .ok payload⟩

/-- An HTTP status with a problem document. -/
def problem (status : Nat) (problem : ApiProblem) : Response := ⟨status, .error problem⟩

/-- The body of the request was not what the endpoint expects. -/
def unparsed : Response := problem 400 (.validationError "Failed to parse request body")

/-- The database failed. -/
def failed (e : DbError) : Response := problem 500 (.serverError e.text)

end Response

end Zonemail.Api
