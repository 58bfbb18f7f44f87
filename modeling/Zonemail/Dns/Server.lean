import Zonemail.Api.Handlers
import Zonemail.Seed

/-!
# The DNS server

The handling of one DNS query in `dns.rs`. A request is what the protocol library decodes from a
packet, and a name is the text that the library prints for it: the letters as they came over the
wire, with the dot of the root at its end. Parsing a name is the library's and enters as a function.

Two names are the same for the DNS when they differ in letter case and in that dot only. The server
compares what is left of the printed name without its dots with the stored text, letter by letter,
and asks for one type at a time: `nxDomain_iff` says when the response code nevertheless tells
whether the name exists, and `found_iff` when a lookup finds every stored record of the name.
-/

namespace Zonemail.Dns

open Library
open Text (trimEndMatches splitWhitespace parseUnsigned eqIgnoreAsciiCase)

/-! ## Messages -/

/-- The record types of the protocol library. The enumeration is open: `unlisted` stands for the
types that the conversion does not list. -/
inductive HickoryRecordType where
  | A | AAAA | ANAME | ANY | AXFR | CAA | CDS | CDNSKEY | CNAME | CSYNC | DNSKEY | DS
  | HINFO | HTTPS | IXFR | KEY | MX | NAPTR | NS | NSEC | NSEC3 | NSEC3PARAM | NULL | OPENPGPKEY
  | OPT | PTR | RRSIG | SIG | SOA | SRV | SSHFP | SVCB | TLSA | TSIG | TXT | Unknown (code : Nat)
  | ZERO | unlisted
  deriving DecidableEq, Repr

/-- The stored type of a queried one. The conversion panics on a type that it does not list. -/
def HickoryRecordType.recordType : HickoryRecordType → Option RecordType
  | .A => some .A | .AAAA => some .AAAA | .ANAME => some .ANAME | .ANY => some .ANY
  | .AXFR => some .AXFR | .CAA => some .CAA | .CDS => some .CDS | .CDNSKEY => some .CDNSKEY
  | .CNAME => some .CNAME | .CSYNC => some .CSYNC | .DNSKEY => some .DNSKEY | .DS => some .DS
  | .HINFO => some .HINFO | .HTTPS => some .HTTPS | .IXFR => some .IXFR | .KEY => some .KEY
  | .MX => some .MX | .NAPTR => some .NAPTR | .NS => some .NS | .NSEC => some .NSEC
  | .NSEC3 => some .NSEC3 | .NSEC3PARAM => some .NSEC3PARAM | .NULL => some .NULL
  | .OPENPGPKEY => some .OPENPGPKEY | .OPT => some .OPT | .PTR => some .PTR
  | .RRSIG => some .RRSIG | .SIG => some .SIG | .SOA => some .SOA | .SRV => some .SRV
  | .SSHFP => some .SSHFP | .SVCB => some .SVCB | .TLSA => some .TLSA | .TSIG => some .TSIG
  | .TXT => some .TXT | .Unknown _ => some .Unknown | .ZERO => some .ZERO
  | .unlisted => none

/-- One question. -/
structure Query where
  name : String
  queryType : HickoryRecordType
  deriving DecidableEq, Repr

/-- A decoded request. -/
structure Request where
  id : Nat
  opCode : Nat
  recursionDesired : Bool
  queries : List Query
  deriving DecidableEq, Repr

/-- The response codes the server sets. -/
inductive ResponseCode where
  | noError
  | nxDomain
  deriving DecidableEq, Repr

/-- The data of an answer. -/
inductive RData where
  | A (octets : List Nat)
  | TXT (texts : List String)
  | MX (preference : Nat) (exchange : String)
  | PTR (name : String)
  deriving DecidableEq, Repr

/-- One answer. -/
structure AnswerRecord where
  name : String
  ttl : Nat
  rdata : RData
  deriving DecidableEq, Repr

/-- A response. -/
structure Response where
  id : Nat
  opCode : Nat
  recursionDesired : Bool
  recursionAvailable : Bool
  authoritative : Bool
  queries : List Query
  responseCode : ResponseCode
  answers : List AnswerRecord
  deriving DecidableEq, Repr

/-! ## Record data -/

/-- A number of an IPv4 address: one to three digits, without a leading zero, at most 255. -/
def parseOctet (s : String) : Option Nat :=
  let digits := s.toList
  if !digits.isEmpty ∧ digits.length ≤ 3 ∧ digits.all Char.isDigit ∧
      (digits.length = 1 ∨ digits.head? ≠ some '0') ∧ Text.decimal digits ≤ 255 then
    some (Text.decimal digits)
  else none

/-- `Ipv4Addr::from_str`. -/
def parseIpv4 (s : String) : Option (List Nat) :=
  match Text.split '.' s with
  | [a, b, c, d] => do
      pure [← parseOctet a, ← parseOctet b, ← parseOctet c, ← parseOctet d]
  | _ => none

variable (parseName : String → Option String)

/-- The data of a stored value. Only four types are served. -/
def parseRdata (queryType : HickoryRecordType) (value : String) : Option RData :=
  match queryType with
  | .A => (parseIpv4 value).map .A
  | .TXT => some (.TXT [value])
  | .MX =>
      match splitWhitespace value with
      | [preference, exchange] =>
          (parseName exchange).map (.MX ((parseUnsigned 16 preference).getD 10))
      | _ => none
  | .PTR => (parseName value).map .PTR
  | _ => none

/-! ## Queries -/

/-- The stored records of a name and a type, or `none` when the conversion of the type panics. A
failed statement finds nothing. -/
def queryRecords (name : String) (queryType : HickoryRecordType) : Prog (Option (List Record)) :=
  match queryType.recordType with
  | none => pure none
  | some recordType => do
      match ← sql (.recordsOfType name recordType) with
      | .ok records => pure (some records)
      | .error _ => pure (some [])

/-- The name under which the records of a question are looked up. -/
def Query.cleanName (query : Query) : String := trimEndMatches (· == '.') query.name

/-- Add what was found for a question to the response. -/
def Response.addRecords (response : Response) (query : Query) (records : List Record) : Response :=
  let asked := { response with queries := response.queries ++ [query] }
  if records.isEmpty then { asked with responseCode := .nxDomain }
  else
    { asked with
      responseCode := .noError
      answers := asked.answers ++ records.filterMap (fun record =>
        (parseRdata parseName query.queryType record.value).map (fun rdata =>
          ⟨query.name, record.ttl, rdata⟩)) }

/-- Answer the questions in turn; a panic leaves the request without a response. -/
def answerQueries (response : Response) : List Query → Prog (Option Response)
  | [] => pure (some response)
  | query :: rest => do
      match ← queryRecords query.cleanName query.queryType with
      | none => pure none
      | some records => answerQueries (response.addRecords parseName query records) rest

/-- The response before the first question. -/
def Request.response (request : Request) : Response :=
  { id := request.id
    opCode := request.opCode
    recursionDesired := request.recursionDesired
    recursionAvailable := false
    authoritative := true
    queries := []
    responseCode := .noError
    answers := [] }

/-- The response to a request, if it could be decoded. -/
def handleDnsQuery : Option Request → Prog (Option Response)
  | none => pure none
  | some request => answerQueries parseName request.response request.queries

/-! ## Names -/

/-- Two texts denote the same DNS name: they differ in letter case and in dots at the end only. A
name has no empty labels, so at most the dot of the root stands there. -/
def SameName (name other : String) : Prop :=
  eqIgnoreAsciiCase (trimEndMatches (· == '.') name) (trimEndMatches (· == '.') other) = true

instance (name other : String) : Decidable (SameName name other) :=
  inferInstanceAs (Decidable (_ = true))

theorem sameName_cleanName (query : Query) : SameName query.cleanName query.name := by
  simp [SameName, Query.cleanName, eqIgnoreAsciiCase, trimEndMatches, List.rdropWhile_idempotent]

/-! ## What a lookup finds -/

/-- The records that a lookup without faults finds. -/
def found (db : Db) (name : String) (recordType : RecordType) : List Record :=
  db.records.select (fun record => record.domainId = name ∧ record.recordType = recordType)

theorem mem_found {db : Db} {name : String} {recordType : RecordType} {record : Record} :
    record ∈ found db name recordType ↔
      record ∈ db.records.rows ∧ record.domainId = name ∧ record.recordType = recordType := by
  simp [found, Table.select]

/-- A lookup finds the records of the name and the type, or nothing when the statement fails. -/
theorem eval_queryRecords {name : String} {queryType : HickoryRecordType} {recordType : RecordType}
    (htype : queryType.recordType = some recordType) (world : World) :
    ((queryRecords name queryType).eval world).1 =
      some (if world.faults.head?.join = none then found world.db name recordType else []) := by
  simp only [queryRecords, htype, Prog.eval_sql_bind]
  cases world.faults.head?.join with
  | none => rfl
  | some text => rfl

/-! ## The response code -/

/-- The response code says whether the name of the question exists: it is `nxDomain` exactly when no
record of any type is stored for the name, and a name that has records, but none of the type asked
for, gets `noError` and no answers. -/
structure TellsName (db : Db) (query : Query) (response : Response) : Prop where
  nxDomain : response.responseCode = .nxDomain ↔
    ∀ record ∈ db.records.rows, ¬ SameName record.domainId query.name
  noData : (∃ record ∈ db.records.rows, SameName record.domainId query.name) →
    (∀ record ∈ db.records.rows, SameName record.domainId query.name →
      query.queryType.recordType ≠ some record.recordType) →
    response.responseCode = .noError ∧ response.answers = []

variable {parseName}

/-- A question gets `nxDomain` exactly when nothing was found for it. -/
theorem Response.responseCode_addRecords {response : Response} {query : Query}
    {records : List Record} :
    (response.addRecords parseName query records).responseCode = .nxDomain ↔ records = [] := by
  cases records with
  | nil => simp [Response.addRecords]
  | cons record rest => simp [Response.addRecords]

/-- The response to a single question is made from what was found for it. -/
theorem eval_handleDnsQuery {request : Request} {query : Query} {recordType : RecordType}
    (hqueries : request.queries = [query])
    (htype : query.queryType.recordType = some recordType) (world : World) :
    ((handleDnsQuery parseName (some request)).eval world).1 =
      some (request.response.addRecords parseName query
        (if world.faults.head?.join = none then found world.db query.cleanName recordType
          else [])) := by
  have hrecords : ((queryRecords query.cleanName query.queryType).eval world).1 = _ :=
    eval_queryRecords htype world
  simp only [handleDnsQuery, hqueries, answerQueries, Prog.eval_bind, hrecords]
  rfl

/-- The response code to a single question tells whether the name exists exactly when the type is
one that the server can convert and either no record of any type is stored for the name, or the
lookup succeeds and a record of the type is stored under the name letter for letter. -/
theorem nxDomain_iff {world : World} {request : Request} {query : Query}
    (hqueries : request.queries = [query]) :
    (∃ response, ((handleDnsQuery parseName (some request)).eval world).1 = some response ∧
      TellsName world.db query response) ↔
    ∃ recordType, query.queryType.recordType = some recordType ∧
      ((∀ record ∈ world.db.records.rows, ¬ SameName record.domainId query.name) ∨
        world.faults.head?.join = none ∧ ∃ record ∈ world.db.records.rows,
          record.domainId = query.cleanName ∧ record.recordType = recordType) := by
  cases htype : query.queryType.recordType with
  | none => simp [handleDnsQuery, hqueries, answerQueries, queryRecords, htype, Prog.eval]
  | some recordType =>
      have hresponse : ((handleDnsQuery parseName (some request)).eval world).1 = _ :=
        eval_handleDnsQuery hqueries htype world
      constructor
      · intro h
        obtain ⟨response, hsome, htells⟩ := h
        refine ⟨recordType, rfl, ?_⟩
        rw [hresponse, Option.some.injEq] at hsome
        subst hsome
        by_cases hnone : ∀ record ∈ world.db.records.rows, ¬ SameName record.domainId query.name
        · exact .inl hnone
        · -- The name exists, so the code is not `nxDomain`, so something was found.
          have hfound := (not_congr htells.nxDomain).mpr hnone
          rw [Response.responseCode_addRecords] at hfound
          by_cases hfault : world.faults.head?.join = none
          · rw [if_pos hfault] at hfound
            obtain ⟨record, hrecord⟩ := List.exists_mem_of_ne_nil _ hfound
            obtain ⟨hrow, hname, hrecordType⟩ := mem_found.mp hrecord
            exact .inr ⟨hfault, record, hrow, hname, hrecordType⟩
          · exact absurd (if_neg hfault) hfound
      · intro h
        obtain ⟨_, ⟨⟩, hcondition⟩ := h
        refine ⟨_, hresponse, ?_⟩
        rcases hcondition with hnone | ⟨hfault, record, hrow, hname, hrecordType⟩
        · refine ⟨⟨fun _ => hnone, fun _ => ?_⟩, ?_⟩
          · have hempty : found world.db query.cleanName recordType = [] := by
              rw [List.eq_nil_iff_forall_not_mem]
              intro record hrecord
              obtain ⟨hrow, hname, -⟩ := mem_found.mp hrecord
              exact hnone record hrow (hname ▸ sameName_cleanName query)
            rw [Response.responseCode_addRecords, hempty, ite_self]
          · intro h
            obtain ⟨record, hrow, hsame⟩ := h
            exact absurd hsame (hnone record hrow)
        · have hsame : SameName record.domainId query.name := hname ▸ sameName_cleanName query
          refine ⟨⟨fun hcode => ?_, fun hnone => absurd hsame (hnone record hrow)⟩, ?_⟩
          · rw [Response.responseCode_addRecords, if_pos hfault] at hcode
            exact absurd (mem_found.mpr ⟨hrow, hname, hrecordType⟩) (by simp [hcode])
          · intro _ hothers
            exact absurd (htype.trans (congrArg some hrecordType.symm)) (hothers record hrow hsame)

/-- A domain that only receives mail. -/
def mailOnly : Config := ⟨["x.io"], [], [⟨"x.io", .MX, "10 mx.x.io", 3600⟩]⟩

/-- The database after seeding it. -/
def mailOnlyDb : Db := ((seedFromConfig mailOnly).eval ⟨.empty, []⟩).2.db

theorem mailOnlyDb_rows : mailOnlyDb.records.rows = [⟨⟨"x.io", .MX, "10 mx.x.io", 3600⟩, 1⟩] := rfl

/-- A request with one question. -/
def asking (query : Query) : Request := ⟨1, 0, true, [query]⟩

/-- The code tells the truth about a name that has a record of the type. -/
theorem tellsName_mailOnly : ∃ response,
    ((handleDnsQuery some (some (asking ⟨"x.io.", .MX⟩))).eval ⟨mailOnlyDb, []⟩).1 = some response ∧
      TellsName mailOnlyDb ⟨"x.io.", .MX⟩ response :=
  (@nxDomain_iff some ⟨mailOnlyDb, []⟩ (asking ⟨"x.io.", .MX⟩) ⟨"x.io.", .MX⟩ rfl).mpr
    ⟨.MX, rfl, .inr ⟨rfl, _, mailOnlyDb_rows ▸ List.mem_singleton_self _, by decide, rfl⟩⟩

/-- The name has an `MX` record, and a question for an address is told that it does not exist. -/
theorem not_tellsName_mailOnly : ∃ response,
    ((handleDnsQuery some (some (asking ⟨"x.io.", .AAAA⟩))).eval ⟨mailOnlyDb, []⟩).1 =
      some response ∧
    response.responseCode = .nxDomain ∧ ¬ TellsName mailOnlyDb ⟨"x.io.", .AAAA⟩ response := by
  refine ⟨_, rfl, by decide, fun htells => ?_⟩
  have hnone := htells.nxDomain.mp (by decide)
  exact hnone ⟨⟨"x.io", .MX, "10 mx.x.io", 3600⟩, 1⟩
    (mailOnlyDb_rows ▸ List.mem_singleton_self _) (by decide)

/-! ## Names in other letters -/

/-- What a lookup of a name and a type without faults returns. -/
def lookup (db : Db) (query : Query) : Option (List Record) :=
  ((queryRecords query.cleanName query.queryType).eval ⟨db, []⟩).1

/-- A lookup finds every stored record of the name and the type exactly when all of them are stored
letter for letter as the question has the name, without dots at the end. Two questions for one name
in different letters get the same answer exactly when the letters are the same or neither finds
anything. -/
theorem found_iff {db : Db} {query : Query} {recordType : RecordType}
    (htype : query.queryType.recordType = some recordType) :
    ((∀ record ∈ db.records.rows, SameName record.domainId query.name →
        record.recordType = recordType → ∃ records, lookup db query = some records ∧
          record ∈ records) ↔
      ∀ record ∈ db.records.rows, SameName record.domainId query.name →
        record.recordType = recordType → record.domainId = query.cleanName) ∧
    ∀ other : Query, other.queryType = query.queryType → SameName other.name query.name →
      (lookup db other = lookup db query ↔ other.cleanName = query.cleanName ∨
        ∀ record ∈ db.records.rows, record.recordType = recordType →
          record.domainId ≠ other.cleanName ∧ record.domainId ≠ query.cleanName) := by
  have hlookup : ∀ asked : Query, asked.queryType = query.queryType →
      lookup db asked = some (found db asked.cleanName recordType) := by
    intro asked hasked
    exact eval_queryRecords (hasked ▸ htype) ⟨db, []⟩
  constructor
  · rw [hlookup query rfl]
    constructor
    · intro hfound record hrow hsame hrecordType
      obtain ⟨_, ⟨⟩, hrecord⟩ := hfound record hrow hsame hrecordType
      exact (mem_found.mp hrecord).2.1
    · intro hletters record hrow hsame hrecordType
      exact ⟨_, rfl, mem_found.mpr ⟨hrow, hletters record hrow hsame hrecordType, hrecordType⟩⟩
  · intro other hother _
    rw [hlookup other hother, hlookup query rfl, Option.some.injEq]
    constructor
    · intro heq
      by_cases hletters : other.cleanName = query.cleanName
      · exact .inl hletters
      · -- A record found for both names would be stored under both.
        refine .inr (fun record hrow hrecordType => ⟨fun hname => ?_, fun hname => ?_⟩)
        · have hrecord : record ∈ found db query.cleanName recordType :=
            heq ▸ mem_found.mpr ⟨hrow, hname, hrecordType⟩
          exact hletters (hname.symm.trans (mem_found.mp hrecord).2.1)
        · have hrecord : record ∈ found db other.cleanName recordType :=
            heq ▸ mem_found.mpr ⟨hrow, hname, hrecordType⟩
          exact hletters ((mem_found.mp hrecord).2.1.symm.trans hname)
    · rintro (hletters | hnone)
      · rw [hletters]
      · have hempty : ∀ name, (∀ record ∈ db.records.rows, record.recordType = recordType →
            record.domainId ≠ name) → found db name recordType = [] := by
          intro name hname
          rw [List.eq_nil_iff_forall_not_mem]
          intro record hrecord
          obtain ⟨hrow, hstored, hrecordType⟩ := mem_found.mp hrecord
          exact hname record hrow hrecordType hstored
        rw [hempty _ (fun record hrow htyped => (hnone record hrow htyped).1),
          hempty _ (fun record hrow htyped => (hnone record hrow htyped).2)]

/-- The database after a domain and a record for it were created. -/
def createdDb : Db :=
  (((do
    let _ ← Api.createDomain (some ⟨"x.io"⟩)
    Api.createRecord (some ⟨"x.io", "A", "192.0.2.1", 300⟩)) : Prog Api.Response).eval
      ⟨.empty, []⟩).2.db

theorem createdDb_rows : createdDb.records.rows = [⟨⟨"x.io", .A, "192.0.2.1", 300⟩, 1⟩] := rfl

/-- A question in the letters of the stored name finds the record. -/
theorem found_createdDb : ∃ records, lookup createdDb ⟨"x.io.", .A⟩ = some records ∧
    ⟨⟨"x.io", .A, "192.0.2.1", 300⟩, 1⟩ ∈ records := by
  have hletters := (@found_iff createdDb ⟨"x.io.", .A⟩ .A rfl).1.mpr (by
    intro record hrow _ _
    rw [createdDb_rows, List.mem_singleton] at hrow
    rw [hrow]
    rfl)
  exact hletters _ (createdDb_rows ▸ List.mem_singleton_self _) (by decide) rfl

/-- The same question in other letters does not. -/
theorem not_found_createdDb : (∃ record ∈ createdDb.records.rows,
      SameName record.domainId "X.io." ∧ record.recordType = .A) ∧
    lookup createdDb ⟨"X.io.", .A⟩ = some [] ∧ lookup createdDb ⟨"x.io.", .A⟩ ≠ some [] := by
  refine ⟨⟨_, createdDb_rows ▸ List.mem_singleton_self _, by decide, rfl⟩, ?_, ?_⟩
  · decide +kernel
  · decide +kernel

end Zonemail.Dns
