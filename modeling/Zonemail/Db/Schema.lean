import Zonemail.Text.Strings

/-!
# The stored rows

The models of `db.rs`: what each table stores, less the creation and update times, which no
modelled function reads. A model whose key the database numbers is split into its contents, which a
create statement supplies, and the row, which adds the key.
-/

namespace Zonemail

/-- A payload as it came over the wire. -/
abbrev Bytes := List UInt8

/-- An instant, in nanoseconds since the Unix epoch. -/
abbrev Timestamp := Int

/-- The DNS record types a record may be stored under. -/
inductive RecordType where
  | A | AAAA | ANAME | ANY | AXFR | CAA | CDS | CDNSKEY | CERT | CNAME | DNAME | CSYNC | DNSKEY
  | DS | HINFO | HTTPS | IXFR | KEY | MX | NAPTR | NS | NSEC | NSEC3 | NSEC3PARAM | NULL
  | OPENPGPKEY | OPT | PTR | RRSIG | SIG | SMIMEA | SOA | SRV | SSHFP | SVCB | TLSA | TSIG | TXT
  | Unknown | ZERO
  deriving DecidableEq, Repr

/-- A provisioned domain. -/
structure Domain where
  id : String
  deriving DecidableEq, Repr

/-- The contents of a DNS record. -/
structure RecordDTO where
  domainId : String
  recordType : RecordType
  value : String
  ttl : Nat
  deriving DecidableEq, Repr

/-- A stored DNS record. -/
structure Record extends RecordDTO where
  id : Nat
  deriving DecidableEq, Repr

/-- The columns of a record that are unique together. -/
def RecordDTO.triple (record : RecordDTO) : String × RecordType × String :=
  (record.domainId, record.recordType, record.value)

/-- A provisioned address. Without `forwardTo` its mail is only stored. -/
structure Mailbox where
  id : String
  domainId : String
  forwardTo : Option String
  deriving DecidableEq, Repr

/-- Why an address is not a mailbox. -/
inductive MailboxError where
  | invalidFormat
  deriving DecidableEq, Repr

/-- The store-only mailbox of an address, whose domain is what stands between its first and second
`@`. -/
def Mailbox.tryFrom (id : String) : Except MailboxError Mailbox :=
  match (Text.split '@' id)[1]? with
  | none => .error .invalidFormat
  | some domainId =>
      if domainId.isEmpty then .error .invalidFormat
      else .ok ⟨id, domainId, none⟩

/-- The contents of a message. -/
structure MessageContent where
  mailFrom : String
  raw : Bytes
  subject : Option String
  messageIdHeader : Option String
  contentType : Option String
  fromAddress : Option String
  toAddresses : List String
  ccAddresses : List String
  bccAddresses : List String
  deriving DecidableEq, Repr

/-- A stored message. -/
structure Message extends MessageContent where
  id : Nat
  deriving DecidableEq, Repr

/-- The link between a received message and the address it came for. -/
structure Inbound where
  id : Nat
  messageId : Nat
  rcptTo : String
  deriving DecidableEq, Repr

/-- Where a delivery job stands. `delivered` and `failed` are meant to be terminal. -/
inductive OutboundStatus where
  | queued | inProgress | delivered | failed
  deriving DecidableEq, Repr

/-- The contents of a delivery job. -/
structure OutboundJob where
  messageId : Nat
  rcptTo : String
  senderId : String
  status : OutboundStatus
  attempts : Nat
  nextAttemptAt : Option Timestamp
  lastError : Option String
  deriving DecidableEq, Repr

/-- A delivery job: the queue entry and its audit trail. -/
structure Outbound extends OutboundJob where
  id : Nat
  deriving DecidableEq, Repr

/-- One recorded delivery attempt on one host. -/
structure DeliveryStatus where
  id : Nat
  outboundId : Nat
  peerHost : String
  code : Option Nat
  message : Option String
  deriving DecidableEq, Repr

/-- A mailbox is stored under its address, and its domain is what stands between the first and the
second `@` of it. -/
theorem Mailbox.of_tryFrom {id : String} {mailbox : Mailbox}
    (h : Mailbox.tryFrom id = .ok mailbox) : mailbox.id = id ∧
      (Text.split '@' id)[1]? = some mailbox.domainId ∧ mailbox.domainId ≠ "" := by
  unfold Mailbox.tryFrom at h
  split at h
  · cases h
  · rename_i domainId hsplit
    split at h
    · cases h
    · rename_i hnonempty
      cases h
      exact ⟨rfl, hsplit, by simpa using hnonempty⟩

/-- The address of a mailbox contains an `@`. -/
theorem Mailbox.at_mem_of_tryFrom {id : String} {mailbox : Mailbox}
    (h : Mailbox.tryFrom id = .ok mailbox) : mailbox.id = id ∧ '@' ∈ id.toList := by
  obtain ⟨hid, hsplit, -⟩ := Mailbox.of_tryFrom h
  exact ⟨hid, Text.at_mem_of_split hsplit⟩

end Zonemail
