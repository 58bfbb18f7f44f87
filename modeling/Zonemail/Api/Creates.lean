import Zonemail.Api.Addressed
import Zonemail.Library.Linearizable

/-!
# Concurrent creations

The three handlers that create a domain, a mailbox or a record look for the row, insert it, and when
the insertion fails because the row is there by now, read it and decide as if it had been there from
the start. Without updates and deletions rows only become more, so each of them is linear in the
sense of the library: its last statement does what the whole request would have done there, alone.
`creates_linearizable` says what follows for every interleaving of such requests when the only
statements that fail are insertions of a key that is taken: the final tables and the responses are
those of some sequential order, every requested key has one row, and every request that is not
refused by validation is answered by that row with 200 or 409.
-/

namespace Zonemail

open Library
open Text (toLowercase trim)

/-! ## Rows only become more -/

/-- Every row stored before is still stored as it was. -/
structure Db.Grows (before after : Db) : Prop where
  domains : ∀ id row, before.domains.get? id = some row → after.domains.get? id = some row
  mailboxes : ∀ id row, before.mailboxes.get? id = some row → after.mailboxes.get? id = some row
  records : ∀ row ∈ before.records.rows, row ∈ after.records.rows

theorem Db.Grows.refl (db : Db) : db.Grows db :=
  ⟨fun _ _ h => h, fun _ _ h => h, fun _ h => h⟩

theorem Db.Grows.trans {first second third : Db} (h : first.Grows second)
    (hnext : second.Grows third) : first.Grows third :=
  ⟨fun id row hrow => hnext.domains id row (h.domains id row hrow),
    fun id row hrow => hnext.mailboxes id row (h.mailboxes id row hrow),
    fun row hrow => hnext.records row (h.records row hrow)⟩

/-- A table with an inserted row finds what it found before. -/
theorem get?_of_grown {ρ κ : Type} {key : ρ → κ} [DecidableEq κ] {table next : Table key}
    {row found : ρ} {k : κ} (hinsert : table.insert? row = some next)
    (h : table.get? k = some found) : next.get? k = some found := by
  rw [Table.get?_of_insert? hinsert, if_neg]
  · exact h
  · intro heq
    obtain rfl := heq
    rw [Table.get?_eq_none_of_insert? hinsert] at h
    cases h

theorem Db.grows_createDomain {db : Db} {domain : Domain} {domains : Table Domain.id}
    (h : db.domains.insert? domain = some domains) : db.Grows { db with domains } :=
  ⟨fun _ _ hrow => get?_of_grown h hrow, fun _ _ hrow => hrow, fun _ hrow => hrow⟩

theorem Db.grows_createMailbox {db : Db} {mailbox : Mailbox} {mailboxes : Table Mailbox.id}
    (h : db.mailboxes.insert? mailbox = some mailboxes) : db.Grows { db with mailboxes } :=
  ⟨fun _ _ hrow => hrow, fun _ _ hrow => get?_of_grown h hrow, fun _ hrow => hrow⟩

theorem Db.grows_createRecord {db : Db} {record : RecordDTO}
    (h : ((db.records.push (fun id => ⟨record, id⟩) (fun _ => rfl)).rows.map
      (fun record => record.triple)).Nodup) :
    db.Grows { db with
      records := db.records.push (fun id => ⟨record, id⟩) (fun _ => rfl)
      tripleUnique := h } :=
  ⟨fun _ _ hrow => hrow, fun _ _ hrow => hrow, fun _ hrow => List.mem_append_left _ hrow⟩

/-- A record can be added exactly when no row has its triple. -/
theorem Db.nodup_push_iff {db : Db} {record : RecordDTO} :
    ((db.records.push (fun id => (⟨record, id⟩ : Record)) (fun _ => rfl)).rows.map
      (fun record => record.triple)).Nodup ↔
      ∀ row ∈ db.records.rows, row.triple ≠ record.triple := by
  rw [AutoTable.rows_push, List.map_append, List.nodup_append]
  constructor
  · intro h row hrow
    obtain ⟨-, -, hdisjoint⟩ := h
    exact hdisjoint _ (List.mem_map_of_mem hrow) _ (List.mem_singleton_self _)
  · intro h
    refine ⟨db.tripleUnique, List.nodup_singleton _, fun triple htriple other hother => ?_⟩
    obtain ⟨row, hrow, rfl⟩ := List.mem_map.mp htriple
    rw [List.mem_singleton.mp hother]
    exact h row hrow

/-! ## Statements without faults -/

namespace Api

/-- Perform an effect without a fault of the database. -/
def faultless (effect : Effect) (db : Db) : Answer effect × Db := effect.execute none db

theorem faultless_getDomain (id : String) (db : Db) :
    faultless (.sql (.getDomain id)) db =
      ((db.domains.get? id).elim (.error .notFound) .ok, db) := by
  cases h : db.domains.get? id with
  | none => simp [faultless, Effect.execute, Statement.execute, Statement.run, Statement.found, h]
  | some row =>
      simp [faultless, Effect.execute, Statement.execute, Statement.run, Statement.found, h]

theorem faultless_getMailbox (id : String) (db : Db) :
    faultless (.sql (.getMailbox id)) db =
      ((db.mailboxes.get? id).elim (.error .notFound) .ok, db) := by
  cases h : db.mailboxes.get? id with
  | none => simp [faultless, Effect.execute, Statement.execute, Statement.run, Statement.found, h]
  | some row =>
      simp [faultless, Effect.execute, Statement.execute, Statement.run, Statement.found, h]

theorem faultless_createDomain (id : String) (db : Db) :
    faultless (.sql (.createDomain id)) db =
      match db.domains.insert? ⟨id⟩ with
      | none => (.error .uniqueViolation, db)
      | some domains => (.ok ⟨id⟩, { db with domains }) := by
  cases h : db.domains.insert? ⟨id⟩ with
  | none => simp [faultless, Effect.execute, Statement.execute, Statement.run, h]
  | some domains => simp [faultless, Effect.execute, Statement.execute, Statement.run, h]

theorem faultless_createMailbox (mailbox : Mailbox) (db : Db) :
    faultless (.sql (.createMailbox mailbox)) db =
      match db.mailboxes.insert? mailbox with
      | none => (.error .uniqueViolation, db)
      | some mailboxes => (.ok mailbox, { db with mailboxes }) := by
  cases h : db.mailboxes.insert? mailbox with
  | none => simp [faultless, Effect.execute, Statement.execute, Statement.run, h]
  | some mailboxes => simp [faultless, Effect.execute, Statement.execute, Statement.run, h]

theorem faultless_createRecord (record : RecordDTO) (db : Db) :
    faultless (.sql (.createRecord record)) db =
      if h : ((db.records.push (fun id => ⟨record, id⟩) (fun _ => rfl)).rows.map
          (fun record => record.triple)).Nodup then
        (.ok ⟨record, db.records.next⟩, { db with
          records := db.records.push (fun id => ⟨record, id⟩) (fun _ => rfl)
          tripleUnique := h })
      else (.error .uniqueViolation, db) := by
  simp only [faultless, Effect.execute, Statement.execute, Statement.run]
  split
  · rename_i e hrun
    split at hrun
    · cases hrun
    · rename_i hunique
      cases hrun
      rw [dif_neg hunique]
  · rename_i hrun
    split at hrun
    · rename_i hunique
      cases hrun
      rw [dif_pos hunique]
    · cases hrun

/-- A program that begins with a statement goes on with its answer. -/
theorem run_sql_bind {α : Type} (statement : Statement)
    (next : Except DbError statement.Value → Prog α) (db : Db) :
    (@bind Prog _ (no_index (Except DbError statement.Value)) α (sql statement) next).run faultless
        db =
      (next (faultless (.sql statement) db).1).run faultless (faultless (.sql statement) db).2 :=
  rfl

/-- The programs that take effect at their last statement. -/
abbrev Linear (original program : Prog Response) (db : Db) : Prop :=
  Program.Linear faultless Db.Grows original program db

/-- A program that begins with a statement is linear when the statement ends it as the whole program
would end there, or changes nothing and leaves a linear one. -/
theorem linear_sql_bind {original : Prog Response} {statement : Statement}
    {next : Except DbError statement.Value → Prog Response} {db : Db}
    (h : ∀ later, db.Grows later →
      (∃ response, next (faultless (.sql statement) later).1 = .done response ∧
        original.run faultless later = (response, (faultless (.sql statement) later).2) ∧
        later.Grows (faultless (.sql statement) later).2) ∨
      (faultless (.sql statement) later).2 = later ∧
        Linear original (next (faultless (.sql statement) later).1) later) :
    Linear original (sql statement >>= next) db := Program.linear_perform.mpr h

/-! ## Domains -/

section Domains

variable {body : NewDomain} {db : Db}

/-- A domain that is there is confirmed. -/
theorem run_createDomain_of_stored {domain : Domain} (hbody : (trim body.id).isEmpty = false)
    (h : db.domains.get? (trim body.id) = some domain) :
    (createDomain (some body)).run faultless db = (.ok (.domain domain), db) := by
  simp only [createDomain, hbody, Bool.false_eq_true, if_false, run_sql_bind,
    faultless_getDomain, h]
  rfl

/-- A domain that is not there is inserted. -/
theorem run_createDomain_of_insert {domains : Table Domain.id}
    (hbody : (trim body.id).isEmpty = false)
    (h : db.domains.insert? ⟨trim body.id⟩ = some domains) :
    (createDomain (some body)).run faultless db =
      (.ok (.domain ⟨trim body.id⟩), { db with domains }) := by
  have hnone : db.domains.get? (trim body.id) = none := Table.get?_eq_none_of_insert? h
  simp only [createDomain, insertDomain, hbody, Bool.false_eq_true, if_false, run_sql_bind,
    faultless_getDomain, hnone, Option.elim_none, faultless_createDomain, h]
  rfl

/-- Looking a stored domain up ends as the request does there, and inserting one, too. -/
theorem linear_of_createDomain {original : Prog Response} (hbody : (trim body.id).isEmpty = false)
    (hstored : ∀ later domain, later.domains.get? (trim body.id) = some domain →
      original.run faultless later = (renderDomainCreated domain, later))
    (hinsert : ∀ later domains, later.domains.insert? ⟨trim body.id⟩ = some domains →
      original.run faultless later =
        (renderDomainCreated ⟨trim body.id⟩, { later with domains })) :
    Linear original (createDomain (some body)) db := by
  simp only [createDomain, hbody, Bool.false_eq_true, if_false]
  refine linear_sql_bind (fun first _ => ?_)
  rw [faultless_getDomain]
  cases hfirst : first.domains.get? (trim body.id) with
  | some domain => exact .inl ⟨_, rfl, hstored first domain hfirst, .refl first⟩
  | none =>
      refine .inr ⟨rfl, linear_sql_bind (fun second _ => ?_)⟩
      rw [faultless_createDomain]
      cases hsecond : second.domains.insert? ⟨trim body.id⟩ with
      | some domains =>
          exact .inl ⟨_, rfl, hinsert second domains hsecond, Db.grows_createDomain hsecond⟩
      | none =>
          -- The row that is in the way is still there when it is read.
          refine .inr ⟨rfl, linear_sql_bind (fun third hthird => ?_)⟩
          obtain ⟨domain, hdomain⟩ :=
            Option.isSome_iff_exists.mp (Table.isSome_of_insert?_eq_none hsecond)
          have hread := hthird.domains _ _ hdomain
          rw [faultless_getDomain, hread]
          exact .inl ⟨_, rfl, hstored third domain hread, .refl third⟩

theorem linear_createDomain (hbody : (trim body.id).isEmpty = false) (db : Db) :
    Linear (createDomain (some body)) (createDomain (some body)) db :=
  linear_of_createDomain hbody (fun _ _ hstored => run_createDomain_of_stored hbody hstored)
    (fun _ _ hinsert => run_createDomain_of_insert hbody hinsert)

end Domains

/-! ## Mailboxes -/

section Mailboxes

variable {body : NewMailbox} {mailbox : Mailbox} {db : Db}

/-- A mailbox that is there is compared with the one asked for. -/
theorem run_createMailbox_of_stored {existing : Mailbox} (hbody : newMailbox body = .ok mailbox)
    (h : db.mailboxes.get? mailbox.id = some existing) :
    (createMailbox (some body)).run faultless db = (mailboxResolve existing mailbox, db) := by
  simp only [createMailbox, hbody, run_sql_bind, faultless_getMailbox, h]
  rfl

/-- A mailbox that is not there is inserted. -/
theorem run_createMailbox_of_insert {mailboxes : Table Mailbox.id}
    (hbody : newMailbox body = .ok mailbox) (h : db.mailboxes.insert? mailbox = some mailboxes) :
    (createMailbox (some body)).run faultless db =
      (.ok (.mailbox mailbox), { db with mailboxes }) := by
  have hnone : db.mailboxes.get? mailbox.id = none := Table.get?_eq_none_of_insert? h
  simp only [createMailbox, insertMailbox, hbody, run_sql_bind, faultless_getMailbox, hnone,
    Option.elim_none, faultless_createMailbox, h]
  rfl

theorem linear_of_createMailbox {original : Prog Response} (hbody : newMailbox body = .ok mailbox)
    (hstored : ∀ later existing, later.mailboxes.get? mailbox.id = some existing →
      original.run faultless later = (mailboxResolve existing mailbox, later))
    (hinsert : ∀ later mailboxes, later.mailboxes.insert? mailbox = some mailboxes →
      original.run faultless later = (.ok (.mailbox mailbox), { later with mailboxes })) :
    Linear original (createMailbox (some body)) db := by
  simp only [createMailbox, hbody]
  refine linear_sql_bind (fun first _ => ?_)
  rw [faultless_getMailbox]
  cases hfirst : first.mailboxes.get? mailbox.id with
  | some existing => exact .inl ⟨_, rfl, hstored first existing hfirst, .refl first⟩
  | none =>
      refine .inr ⟨rfl, linear_sql_bind (fun second _ => ?_)⟩
      rw [faultless_createMailbox]
      cases hsecond : second.mailboxes.insert? mailbox with
      | some mailboxes =>
          exact .inl ⟨_, rfl, hinsert second mailboxes hsecond, Db.grows_createMailbox hsecond⟩
      | none =>
          refine .inr ⟨rfl, linear_sql_bind (fun third hthird => ?_)⟩
          obtain ⟨existing, hexisting⟩ :=
            Option.isSome_iff_exists.mp (Table.isSome_of_insert?_eq_none hsecond)
          have hread := hthird.mailboxes _ _ hexisting
          rw [faultless_getMailbox, hread]
          exact .inl ⟨_, rfl, hstored third existing hread, .refl third⟩

theorem linear_createMailbox (hbody : newMailbox body = .ok mailbox) (db : Db) :
    Linear (createMailbox (some body)) (createMailbox (some body)) db :=
  linear_of_createMailbox hbody (fun _ _ hstored => run_createMailbox_of_stored hbody hstored)
    (fun _ _ hinsert => run_createMailbox_of_insert hbody hinsert)

end Mailboxes

/-! ## Records -/

/-- The record a body asks for. -/
def NewRecord.record (body : NewRecord) (recordType : RecordType) : RecordDTO :=
  ⟨toLowercase (trim body.domainId), recordType, trim body.value, body.ttl⟩

/-- The records that are read to decide about this one. -/
def rowsOf (db : Db) (record : RecordDTO) : List Record :=
  db.records.select (fun row => row.domainId = record.domainId)

theorem faultless_recordsOfDomain (record : RecordDTO) (db : Db) :
    faultless (.sql (.recordsOfDomain record.domainId)) db = (.ok (rowsOf db record), db) := rfl

/-- What a request for a record gets when a row has its triple. -/
def recordAnswer (row : Record) (record : RecordDTO) : Response :=
  if row.ttl = record.ttl then .ok (.record (.ofRecord row))
  else .problem 409 (.conflict ("a " ++ recordTypeToString record.recordType ++
    " record for this domain with value '" ++ record.value ++
    "' already exists with a different ttl"))

section Records

variable {body : NewRecord} {recordType : RecordType} {record : RecordDTO} {row : Record} {db : Db}

/-- Without a row of its triple nothing is decided about a record. -/
theorem recordResolve_eq_none (h : ∀ row ∈ db.records.rows, row.triple ≠ record.triple) :
    recordResolve (rowsOf db record) record.recordType record.value record.ttl = none := by
  have hnone : (rowsOf db record).find?
      (fun row => row.recordType = record.recordType ∧ row.value = record.value) = none := by
    rw [List.find?_eq_none]
    intro row hrow hsame
    obtain ⟨hmem, hdomain⟩ := List.mem_filter.mp hrow
    simp only [decide_eq_true_eq] at hdomain hsame
    exact h row hmem (by simp [RecordDTO.triple, hdomain, hsame])
  rw [recordResolve, hnone]

/-- With one it is decided. -/
theorem recordResolve_eq_some (hrow : row ∈ db.records.rows)
    (htriple : row.triple = record.triple) :
    recordResolve (rowsOf db record) record.recordType record.value record.ttl =
      some (recordAnswer row record) := by
  have hfields : row.domainId = record.domainId ∧ row.recordType = record.recordType ∧
      row.value = record.value := by
    simpa [RecordDTO.triple] using htriple
  have hmem : row ∈ rowsOf db record :=
    List.mem_filter.mpr ⟨hrow, by simpa using hfields.1⟩
  cases hfind : (rowsOf db record).find?
      (fun row => row.recordType = record.recordType ∧ row.value = record.value) with
  | none =>
      rw [List.find?_eq_none] at hfind
      exact absurd hfields.2 (by simpa using hfind row hmem)
  | some found =>
      -- The row that is found has the same triple, so it is this one.
      obtain ⟨hfound, hdomain⟩ := List.mem_filter.mp (List.mem_of_find?_eq_some hfind)
      have hsame := List.find?_some hfind
      simp only [decide_eq_true_eq] at hdomain hsame
      have heq : found = row := by
        refine List.inj_on_of_nodup_map db.tripleUnique hfound hrow ?_
        rw [htriple]
        simp [RecordDTO.triple, hdomain, hsame]
      rw [recordResolve, hfind, heq, recordAnswer]
      dsimp only
      split
      · rfl
      · rfl

/-- A request that passes the checks of its own fields. -/
structure NewRecord.Valid (body : NewRecord) (recordType : RecordType) : Prop where
  type : parseRecordType (trim body.recordType) = .ok recordType
  value : (trim (trim body.value)).isEmpty = false

/-- The refusal of a record whose domain is not there. -/
def unprovisioned (domainId : String) : ApiProblem :=
  .badRequest ("domain '" ++ domainId ++ "' is not provisioned")

/-- Look a record up and insert it when nothing is decided about it. -/
def lookupRecord (record : RecordDTO) : Prog Response := do
  match ← sql (.recordsOfDomain record.domainId) with
  | .error e => pure (.failed e)
  | .ok rows =>
      match recordResolve rows record.recordType record.value record.ttl with
      | some response => pure response
      | none => insertRecord record

/-- A valid request checks the domain first, and then looks the record up. -/
theorem createRecord_eq (hbody : body.Valid recordType) :
    createRecord (some body) =
      (sql (.getDomain (body.record recordType).domainId) : Prog (Except DbError Domain)) >>=
        fun answer => match answer with
          | .ok _ => lookupRecord (body.record recordType)
          | .error _ => pure (.problem 400 (unprovisioned (body.record recordType).domainId)) := by
  simp only [createRecord, hbody.type, validateRecordFields, hbody.value, Bool.false_eq_true,
    if_false]
  refine congrArg (Program.perform (Effect.sql (.getDomain _))) (funext (fun answer => ?_))
  cases answer with
  | error e => rfl
  | ok domain =>
      refine congrArg (Program.perform (Effect.sql (.recordsOfDomain _))) (funext (fun rows => ?_))
      cases rows with
      | error e => rfl
      | ok rows =>
          rfl

/-- A record for a domain that is not there is refused. -/
theorem run_createRecord_of_unprovisioned (hbody : body.Valid recordType)
    (h : db.domains.get? (body.record recordType).domainId = none) :
    (createRecord (some body)).run faultless db =
      (.problem 400 (unprovisioned (body.record recordType).domainId), db) := by
  rw [createRecord_eq hbody, run_sql_bind, faultless_getDomain, h]
  rfl

/-- With a row of its triple it is decided by that row. -/
theorem run_createRecord_of_stored {domain : Domain} (hbody : body.Valid recordType)
    (h : db.domains.get? (body.record recordType).domainId = some domain)
    (hrow : row ∈ db.records.rows) (htriple : row.triple = (body.record recordType).triple) :
    (createRecord (some body)).run faultless db =
      (recordAnswer row (body.record recordType), db) := by
  have hresolve := recordResolve_eq_some hrow htriple
  rw [createRecord_eq hbody, run_sql_bind, faultless_getDomain, h, Option.elim_some]
  dsimp only [lookupRecord]
  rw [run_sql_bind, faultless_recordsOfDomain]
  dsimp only
  rw [hresolve]
  rfl

/-- Without one it is inserted. -/
theorem run_createRecord_of_insert {domain : Domain} (hbody : body.Valid recordType)
    (h : db.domains.get? (body.record recordType).domainId = some domain)
    (hunique : ((db.records.push (fun id => ⟨body.record recordType, id⟩) (fun _ => rfl)).rows.map
      (fun record => record.triple)).Nodup) :
    (createRecord (some body)).run faultless db =
      (.ok (.record (.ofRecord ⟨body.record recordType, db.records.next⟩)), { db with
        records := db.records.push (fun id => ⟨body.record recordType, id⟩) (fun _ => rfl)
        tripleUnique := hunique }) := by
  have hresolve := recordResolve_eq_none (Db.nodup_push_iff.mp hunique)
  rw [createRecord_eq hbody, run_sql_bind, faultless_getDomain, h, Option.elim_some]
  dsimp only [lookupRecord]
  rw [run_sql_bind, faultless_recordsOfDomain]
  dsimp only
  rw [hresolve]
  dsimp only [insertRecord]
  rw [run_sql_bind, faultless_createRecord, dif_pos hunique]
  rfl

/-- Looking a record up, once its domain is there, ends as the request does at that point, and so
does inserting it. -/
theorem linear_lookupRecord {original : Prog Response} {domain : Domain}
    (hdomain : db.domains.get? record.domainId = some domain)
    (hstored : ∀ later domain row, later.domains.get? record.domainId = some domain →
      row ∈ later.records.rows → row.triple = record.triple →
      original.run faultless later = (recordAnswer row record, later))
    (hinsert : ∀ (later : Db) domain, later.domains.get? record.domainId = some domain →
      ∀ hunique : ((later.records.push (fun id => ⟨record, id⟩) (fun _ => rfl)).rows.map
        (fun record => record.triple)).Nodup,
      original.run faultless later = (.ok (.record (.ofRecord ⟨record, later.records.next⟩)),
        { later with
          records := later.records.push (fun id => ⟨record, id⟩) (fun _ => rfl)
          tripleUnique := hunique })) :
    Linear original (lookupRecord record) db := by
  refine linear_sql_bind (fun first hfirst => ?_)
  have hdomain := hfirst.domains _ _ hdomain
  rw [faultless_recordsOfDomain]
  dsimp only
  by_cases hnew : ∀ row ∈ first.records.rows, row.triple ≠ record.triple
  · rw [recordResolve_eq_none hnew]
    refine .inr ⟨rfl, linear_sql_bind (fun second hsecond => ?_)⟩
    have hdomain := hsecond.domains _ _ hdomain
    rw [faultless_createRecord]
    by_cases hunique : ((second.records.push (fun id => (⟨record, id⟩ : Record))
        (fun _ => rfl)).rows.map (fun record => record.triple)).Nodup
    · rw [dif_pos hunique]
      exact .inl ⟨_, rfl, hinsert second domain hdomain hunique, Db.grows_createRecord hunique⟩
    · -- The row that is in the way is still there when it is read.
      rw [dif_neg hunique]
      refine .inr ⟨rfl, linear_sql_bind (fun third hthird => ?_)⟩
      have hdomain := hthird.domains _ _ hdomain
      rw [Db.nodup_push_iff] at hunique
      push Not at hunique
      obtain ⟨row, hrow, htriple⟩ := hunique
      have hrow := hthird.records row hrow
      rw [faultless_recordsOfDomain]
      dsimp only
      rw [recordResolve_eq_some hrow htriple]
      exact .inl ⟨_, rfl, hstored third domain row hdomain hrow htriple, .refl third⟩
  · push Not at hnew
    obtain ⟨row, hrow, htriple⟩ := hnew
    rw [recordResolve_eq_some hrow htriple]
    exact .inl ⟨_, rfl, hstored first domain row hdomain hrow htriple, .refl first⟩

theorem linear_of_createRecord {original : Prog Response} (hbody : body.Valid recordType)
    (hrefused : ∀ later : Db, later.domains.get? (body.record recordType).domainId = none →
      original.run faultless later =
        (.problem 400 (unprovisioned (body.record recordType).domainId), later))
    (hlookup : ∀ later domain, later.domains.get? (body.record recordType).domainId = some domain →
      Linear original (lookupRecord (body.record recordType)) later) :
    Linear original (createRecord (some body)) db := by
  rw [createRecord_eq hbody]
  refine linear_sql_bind (fun first _ => ?_)
  rw [faultless_getDomain]
  cases hdomain : first.domains.get? (body.record recordType).domainId with
  | none => exact .inl ⟨_, rfl, hrefused first hdomain, .refl first⟩
  | some domain => exact .inr ⟨rfl, hlookup first domain hdomain⟩

theorem linear_createRecord (hbody : body.Valid recordType) (db : Db) :
    Linear (createRecord (some body)) (createRecord (some body)) db := by
  refine linear_of_createRecord hbody
    (fun _ hdomain => run_createRecord_of_unprovisioned hbody hdomain)
    (fun later domain hdomain => ?_)
  exact linear_lookupRecord hdomain
    (fun _ _ _ hthere hrow htriple => run_createRecord_of_stored hbody hthere hrow htriple)
    (fun _ _ hthere hunique => run_createRecord_of_insert hbody hthere hunique)

end Records

/-! ## Requests -/

/-- The requests that create. -/
inductive CreateRequest where
  | domain (body : Option NewDomain)
  | mailbox (body : Option NewMailbox)
  | record (body : Option NewRecord)

def CreateRequest.program : CreateRequest → Prog Response
  | .domain body => createDomain body
  | .mailbox body => createMailbox body
  | .record body => createRecord body

theorem CreateRequest.program_domain (body : Option NewDomain) :
    (CreateRequest.domain body).program = createDomain body := rfl

theorem CreateRequest.program_mailbox (body : Option NewMailbox) :
    (CreateRequest.mailbox body).program = createMailbox body := rfl

theorem CreateRequest.program_record (body : Option NewRecord) :
    (CreateRequest.record body).program = createRecord body := rfl

/-- The body cannot be parsed or does not pass the checks of its own fields. -/
def CreateRequest.Refused : CreateRequest → Prop
  | .domain body => ∀ parsed, body = some parsed → trim parsed.id = ""
  | .mailbox body => ∀ parsed, body = some parsed → ∃ response, newMailbox parsed = .error response
  | .record body => ∀ parsed, body = some parsed → ∀ recordType, ¬ parsed.Valid recordType

/-- The row is the only one among the rows with its key. -/
def OnlyRow {ρ κ : Type} [DecidableEq κ] (rows : List ρ) (key : ρ → κ) (row : ρ) : Prop :=
  rows.filter (fun other => key other = key row) = [row]

/-- How a request that creates is answered, given the tables in the beginning and in the end. Unless
it is refused, for its own fields or for a domain that was not there in the beginning, its key has
exactly one row, and it is answered with 200 when its configuration is that of the row, and with 409
when it is not. -/
inductive Settled (start db : Db) : CreateRequest → Response → Prop where
  | refused {request : CreateRequest} {response : Response} (hrefused : request.Refused)
      (hstatus : response.status = 400) : Settled start db request response
  | unprovisioned {body : NewRecord} {recordType : RecordType} (hbody : body.Valid recordType)
      (hdomain : start.domains.get? (body.record recordType).domainId = none) :
      Settled start db (.record (some body))
        (.problem 400 (unprovisioned (body.record recordType).domainId))
  | domain {body : NewDomain} {row : Domain} (hkey : row.id = trim body.id)
      (hrow : OnlyRow db.domains.rows Domain.id row) :
      Settled start db (.domain (some body)) (.ok (.domain row))
  | mailbox {body : NewMailbox} {mailbox row : Mailbox} (hbody : newMailbox body = .ok mailbox)
      (hkey : row.id = mailbox.id) (hrow : OnlyRow db.mailboxes.rows Mailbox.id row)
      (hsame : row = mailbox) :
      Settled start db (.mailbox (some body)) (.ok (.mailbox row))
  | mailboxConflict {body : NewMailbox} {mailbox row : Mailbox} {response : Response}
      (hbody : newMailbox body = .ok mailbox) (hkey : row.id = mailbox.id)
      (hrow : OnlyRow db.mailboxes.rows Mailbox.id row) (hdiffers : row ≠ mailbox)
      (hstatus : response.status = 409) :
      Settled start db (.mailbox (some body)) response
  | record {body : NewRecord} {recordType : RecordType} {row : Record}
      (hbody : body.Valid recordType) (hkey : row.triple = (body.record recordType).triple)
      (hrow : OnlyRow db.records.rows (fun row => row.triple) row) (hsame : row.ttl = body.ttl) :
      Settled start db (.record (some body)) (.ok (.record (.ofRecord row)))
  | recordConflict {body : NewRecord} {recordType : RecordType} {row : Record} {response : Response}
      (hbody : body.Valid recordType) (hkey : row.triple = (body.record recordType).triple)
      (hrow : OnlyRow db.records.rows (fun row => row.triple) row) (hdiffers : row.ttl ≠ body.ttl)
      (hstatus : response.status = 409) :
      Settled start db (.record (some body)) response

theorem onlyRow_iff {ρ κ : Type} [DecidableEq κ] {rows : List ρ} {key : ρ → κ} {row : ρ}
    (hnodup : (rows.map key).Nodup) : OnlyRow rows key row ↔ row ∈ rows := by
  constructor
  · intro h
    have hmem : row ∈ rows.filter (fun other => key other = key row) := by
      rw [show rows.filter (fun other => key other = key row) = [row] from h]
      exact List.mem_singleton_self row
    exact List.mem_of_mem_filter hmem
  · exact filter_key_eq_singleton hnodup

/-- What is settled stays settled, as rows are only added, and was settled from an earlier start. -/
theorem Settled.mono {start first before after : Db} {request : CreateRequest}
    {response : Response} (h : Settled first before request response)
    (hstart : start.Grows first) (hgrows : before.Grows after) :
    Settled start after request response := by
  have hdomain : ∀ row, OnlyRow before.domains.rows Domain.id row →
      OnlyRow after.domains.rows Domain.id row := by
    intro row hrow
    rw [onlyRow_iff before.domains.nodup] at hrow
    rw [onlyRow_iff after.domains.nodup]
    exact Table.mem_of_get? (hgrows.domains _ _ (Table.get?_of_mem hrow))
  have hmailbox : ∀ row, OnlyRow before.mailboxes.rows Mailbox.id row →
      OnlyRow after.mailboxes.rows Mailbox.id row := by
    intro row hrow
    rw [onlyRow_iff before.mailboxes.nodup] at hrow
    rw [onlyRow_iff after.mailboxes.nodup]
    exact Table.mem_of_get? (hgrows.mailboxes _ _ (Table.get?_of_mem hrow))
  have hrecord : ∀ row, OnlyRow before.records.rows (fun row => row.triple) row →
      OnlyRow after.records.rows (fun row => row.triple) row := by
    intro row hrow
    rw [onlyRow_iff before.tripleUnique] at hrow
    rw [onlyRow_iff after.tripleUnique]
    exact hgrows.records row hrow
  cases h with
  | refused hrefused hstatus => exact .refused hrefused hstatus
  | unprovisioned hbody hdomain =>
      refine .unprovisioned hbody ?_
      by_contra hthere
      obtain ⟨row, hrow⟩ := Option.ne_none_iff_exists'.mp hthere
      rw [hstart.domains _ _ hrow] at hdomain
      cases hdomain
  | domain hkey hrow => exact .domain hkey (hdomain _ hrow)
  | mailbox hbody hkey hrow hsame => exact .mailbox hbody hkey (hmailbox _ hrow) hsame
  | mailboxConflict hbody hkey hrow hdiffers hstatus =>
      exact .mailboxConflict hbody hkey (hmailbox _ hrow) hdiffers hstatus
  | record hbody hkey hrow hsame => exact .record hbody hkey (hrecord _ hrow) hsame
  | recordConflict hbody hkey hrow hdiffers hstatus =>
      exact .recordConflict hbody hkey (hrecord _ hrow) hdiffers hstatus

/-- What one request does alone: it settles itself and only adds rows. -/
structure RunsWell (request : CreateRequest) (db : Db) : Prop where
  settled : Settled db (request.program.run faultless db).2 request
    (request.program.run faultless db).1
  grows : db.Grows (request.program.run faultless db).2

/-- A request that is refused ends at once. -/
theorem RunsWell.of_done {request : CreateRequest} {response : Response}
    (hprogram : request.program = .done response) (hrefused : request.Refused)
    (hstatus : response.status = 400) (db : Db) : RunsWell request db := by
  constructor
  · rw [hprogram]
    exact .refused hrefused hstatus
  · rw [hprogram]
    exact .refl db

theorem RunsWell.of_run {request : CreateRequest} {program : Prog Response} {response : Response}
    {db after : Db} (hprogram : request.program = program)
    (hrun : program.run faultless db = (response, after))
    (hsettled : Settled db after request response) (hgrows : db.Grows after) :
    RunsWell request db := by
  constructor
  · rw [hprogram, hrun]
    exact hsettled
  · rw [hprogram, hrun]
    exact hgrows

theorem runsWell_domain {body : NewDomain} (hbody : (trim body.id).isEmpty = false) (db : Db) :
    RunsWell (.domain (some body)) db := by
  cases hstored : db.domains.get? (trim body.id) with
  | some row =>
      refine .of_run (CreateRequest.program_domain _) (run_createDomain_of_stored hbody hstored)
        (.domain ?_ ?_) (.refl db)
      · exact Table.key_of_get? hstored
      · exact (onlyRow_iff db.domains.nodup).mpr (Table.mem_of_get? hstored)
  | none =>
      cases hinsert : db.domains.insert? ⟨trim body.id⟩ with
      | none => exact absurd (Table.isSome_of_insert?_eq_none hinsert) (by simp [hstored])
      | some domains =>
          refine .of_run (CreateRequest.program_domain _)
            (run_createDomain_of_insert hbody hinsert) (.domain rfl ?_)
            (Db.grows_createDomain hinsert)
          rw [onlyRow_iff domains.nodup, Table.rows_of_insert? hinsert]
          simp

theorem runsWell_mailbox {body : NewMailbox} {mailbox : Mailbox}
    (hbody : newMailbox body = .ok mailbox) (db : Db) : RunsWell (.mailbox (some body)) db := by
  cases hstored : db.mailboxes.get? mailbox.id with
  | some row =>
      have hkey : row.id = mailbox.id := Table.key_of_get? hstored
      have hrow := (onlyRow_iff db.mailboxes.nodup).mpr (Table.mem_of_get? hstored)
      have hsettled : Settled db db (.mailbox (some body)) (mailboxResolve row mailbox) := by
        unfold mailboxResolve
        split
        · rename_i hsame
          refine .mailbox hbody hkey hrow ?_
          cases row
          cases mailbox
          simp_all
        · rename_i hdiffers
          refine .mailboxConflict hbody hkey hrow ?_ rfl
          intro heq
          obtain rfl := heq
          exact hdiffers ⟨rfl, rfl⟩
      exact .of_run (CreateRequest.program_mailbox _) (run_createMailbox_of_stored hbody hstored)
        hsettled (.refl db)
  | none =>
      cases hinsert : db.mailboxes.insert? mailbox with
      | none => exact absurd (Table.isSome_of_insert?_eq_none hinsert) (by simp [hstored])
      | some mailboxes =>
          have hrow : OnlyRow mailboxes.rows Mailbox.id mailbox := by
            rw [onlyRow_iff mailboxes.nodup, Table.rows_of_insert? hinsert]
            simp
          have hsettled : Settled db { db with mailboxes } (.mailbox (some body))
              (.ok (.mailbox mailbox)) := .mailbox hbody rfl hrow rfl
          exact .of_run (CreateRequest.program_mailbox _)
            (run_createMailbox_of_insert hbody hinsert) hsettled (Db.grows_createMailbox hinsert)

theorem runsWell_record {body : NewRecord} {recordType : RecordType}
    (hbody : body.Valid recordType) (db : Db) : RunsWell (.record (some body)) db := by
  cases hdomain : db.domains.get? (body.record recordType).domainId with
  | none =>
      exact .of_run (CreateRequest.program_record _)
        (run_createRecord_of_unprovisioned hbody hdomain)
        (.unprovisioned hbody hdomain) (.refl db)
  | some domain =>
      by_cases hnew : ∀ row ∈ db.records.rows, row.triple ≠ (body.record recordType).triple
      · have hunique := Db.nodup_push_iff.mpr hnew
        have hrow : OnlyRow (db.records.push (fun id => ⟨body.record recordType, id⟩)
            (fun _ => rfl)).rows (fun row => row.triple)
            ⟨body.record recordType, db.records.next⟩ := by
          rw [onlyRow_iff hunique]
          simp
        have hsettled : Settled db { db with records := _, tripleUnique := hunique }
            (.record (some body)) (.ok (.record (.ofRecord ⟨body.record recordType,
              db.records.next⟩))) := .record hbody rfl hrow rfl
        exact .of_run (CreateRequest.program_record _)
          (run_createRecord_of_insert hbody hdomain hunique) hsettled
          (Db.grows_createRecord hunique)
      · push Not at hnew
        obtain ⟨row, hmem, htriple⟩ := hnew
        have hrow := (onlyRow_iff db.tripleUnique).mpr hmem
        have hsettled : Settled db db (.record (some body))
            (recordAnswer row (body.record recordType)) := by
          unfold recordAnswer
          split
          · rename_i hsame
            exact .record hbody htriple hrow hsame
          · rename_i hdiffers
            exact .recordConflict hbody htriple hrow hdiffers rfl
        exact .of_run (CreateRequest.program_record _)
          (run_createRecord_of_stored hbody hdomain hmem htriple) hsettled (.refl db)

/-- The errors of `newMailbox` are answers with 400. -/
theorem status_of_newMailbox {body : NewMailbox} {response : Response}
    (h : newMailbox body = .error response) : response.status = 400 := by
  simp only [newMailbox] at h
  split at h
  · cases h
    rfl
  · split at h
    · cases h
      rfl
    · split at h
      · rename_i hdomain
        cases h
        exact status_of_overrideDomain hdomain
      · cases h

/-- The request is refused before any statement, or it takes effect at its last one. -/
def CreateRequest.RefusedOrLinear (request : CreateRequest) : Prop :=
  (∃ response, request.program = .done response ∧ request.Refused ∧ response.status = 400) ∨
    ∀ db, Linear request.program request.program db ∧ RunsWell request db

theorem refusedOrLinear_domain (body : Option NewDomain) :
    (CreateRequest.domain body).RefusedOrLinear := by
  cases body with
  | none => exact .inl ⟨.unparsed, rfl, by rintro _ ⟨⟩, rfl⟩
  | some body =>
      cases hempty : (trim body.id).isEmpty with
      | true =>
          refine .inl ⟨.problem 400 (.badRequest "domain id must not be empty"), ?_, ?_, rfl⟩
          · simp only [CreateRequest.program, createDomain, hempty, if_true]
            rfl
          · intro parsed h
            cases h
            exact String.isEmpty_iff.mp hempty
      | false =>
          refine .inr (fun db => ⟨?_, runsWell_domain hempty db⟩)
          rw [CreateRequest.program_domain]
          exact linear_createDomain hempty db

theorem refusedOrLinear_mailbox (body : Option NewMailbox) :
    (CreateRequest.mailbox body).RefusedOrLinear := by
  cases body with
  | none => exact .inl ⟨.unparsed, rfl, by rintro _ ⟨⟩, rfl⟩
  | some body =>
      cases hbody : newMailbox body with
      | error response =>
          refine .inl ⟨response, ?_, ?_, status_of_newMailbox hbody⟩
          · simp only [CreateRequest.program, createMailbox, hbody]
            rfl
          · intro parsed h
            cases h
            exact ⟨response, hbody⟩
      | ok mailbox =>
          refine .inr (fun db => ⟨?_, runsWell_mailbox hbody db⟩)
          rw [CreateRequest.program_mailbox]
          exact linear_createMailbox hbody db

theorem refusedOrLinear_record (body : Option NewRecord) :
    (CreateRequest.record body).RefusedOrLinear := by
  cases body with
  | none => exact .inl ⟨.unparsed, rfl, by rintro _ ⟨⟩, rfl⟩
  | some body =>
      cases htype : parseRecordType (trim body.recordType) with
      | error problem =>
          refine .inl ⟨.problem 400 problem, ?_, ?_, rfl⟩
          · simp only [CreateRequest.program, createRecord, htype]
            rfl
          · intro parsed h recordType hvalid
            cases h
            rw [hvalid.type] at htype
            cases htype
      | ok recordType =>
          cases hempty : (trim (trim body.value)).isEmpty with
          | true =>
              refine .inl ⟨.problem 400 (.badRequest "value must not be empty"), ?_, ?_, rfl⟩
              · simp only [CreateRequest.program, createRecord, htype, validateRecordFields,
                  hempty, if_true]
                rfl
              · intro parsed h recordType hvalid
                cases h
                rw [hvalid.value] at hempty
                cases hempty
          | false =>
              refine .inr (fun db => ⟨?_, runsWell_record ⟨htype, hempty⟩ db⟩)
              rw [CreateRequest.program_record]
              exact linear_createRecord ⟨htype, hempty⟩ db

theorem CreateRequest.refusedOrLinear (request : CreateRequest) : request.RefusedOrLinear := by
  cases request with
  | domain body => exact refusedOrLinear_domain body
  | mailbox body => exact refusedOrLinear_mailbox body
  | record body => exact refusedOrLinear_record body

theorem CreateRequest.runsWell (request : CreateRequest) (db : Db) : RunsWell request db := by
  rcases request.refusedOrLinear with ⟨response, hprogram, hrefused, hstatus⟩ | h
  · exact .of_done hprogram hrefused hstatus db
  · exact (h db).2

/-! ## Interleavings -/

/-- Requests that create, before any of them has begun. -/
def creating {Thread : Type} (requests : Thread → CreateRequest) (db : Db) :
    Pool Thread Effect Answer Response Db :=
  ⟨db, fun thread => (requests thread).program⟩

/-- **Creations are linearizable.** When any number of requests that create have all been answered,
with their statements interleaved in any way and no statement failing but on a key that is taken,
then the tables and the responses are those of the same requests one after the other in some order.
Every request that was not refused has exactly one row for its key, and was answered with 200 when
its configuration is that of the row and with 409 when it is not. -/
theorem creates_linearizable {Thread : Type} [Fintype Thread] [DecidableEq Thread]
    (requests : Thread → CreateRequest) (db : Db)
    {trace : List (Moment Thread Effect Answer Db)}
    {finish : Pool Thread Effect Answer Response Db}
    (hrun : Run (Pool.step (Pool.atomic faultless)) (fun _ _ => True) (creating requests db) trace
      finish)
    (hdone : ∀ thread, ∃ response, finish.program thread = .done response) :
    (∃ order : List Thread, order.Nodup ∧ (∀ thread, thread ∈ order) ∧
      (serial faultless (fun thread => (requests thread).program) order db).2 = finish.store ∧
      ∀ thread response, finish.program thread = .done response ↔
        (thread, response) ∈
          (serial faultless (fun thread => (requests thread).program) order db).1) ∧
      ∀ thread response, finish.program thread = .done response →
        Settled db finish.store (requests thread) response := by
  have hlinear : ∀ thread,
      (∃ response, (creating requests db).program thread = .done response) ∨
        Program.Linear faultless Db.Grows ((creating requests db).program thread)
          ((creating requests db).program thread) (creating requests db).store := by
    intro thread
    rcases (requests thread).refusedOrLinear with ⟨response, hprogram, -⟩ | h
    · exact .inl ⟨response, hprogram⟩
    · exact .inr (h db).1
  obtain ⟨order, hnodup, hall, hstore, hvalues⟩ :=
    Pool.linearizable_run Db.Grows.refl Db.Grows.trans hlinear hrun hdone
  have hlisted : ∀ thread response, finish.program thread = .done response →
      (thread, response) ∈ (serial faultless (creating requests db).program order db).1 := by
    intro thread response hthread
    have hmem : thread ∈
        (serial faultless (creating requests db).program order db).1.map Prod.fst := by
      rw [map_fst_serial]
      exact hall thread
    obtain ⟨entry, hentry, rfl⟩ := List.mem_map.mp hmem
    have hvalue := hvalues entry hentry
    rw [hthread] at hvalue
    cases hvalue
    exact hentry
  refine ⟨⟨order, hnodup, hall, hstore, fun thread response =>
    ⟨hlisted thread response, hvalues (thread, response)⟩⟩, fun thread response hthread => ?_⟩
  obtain ⟨before, hbefore, hvalue, hafter⟩ := exists_of_mem_serial Db.Grows.refl Db.Grows.trans
    (fun thread store => ((requests thread).runsWell store).grows) (hlisted thread response hthread)
  have hsettled := ((requests thread).runsWell before).settled
  rw [hvalue] at hsettled
  rw [← hstore]
  exact hsettled.mono hbefore hafter

/-- Two requests for one mailbox that do not agree on where it forwards to. -/
def disagreeing : Bool → CreateRequest
  | true => .mailbox (some ⟨"a@x.io", none, none⟩)
  | false => .mailbox (some ⟨"A@x.io", none, some "b@y.io"⟩)

/-- Both find no row and try to insert one; the second fails, reads the row of the first and is
answered with a conflict. -/
theorem settled_disagreeing : ∃ trace finish response,
    Run (Pool.step (Pool.atomic faultless)) (fun _ _ => True) (creating disagreeing .empty) trace
      finish ∧
    finish.program true = .done (.ok (.mailbox ⟨"a@x.io", "x.io", none⟩)) ∧
    finish.program false = .done response ∧ response.status = 409 ∧
    (∃ order : List Bool,
      (serial faultless (fun thread => (disagreeing thread).program) order .empty).2 =
        finish.store) ∧
    Settled .empty finish.store (disagreeing false) response := by
  obtain ⟨trace, finish, response, hexecute, htrue, hfalse, hstatus⟩ : ∃ trace finish response,
      execute (Pool.step (Pool.atomic faultless)) (creating disagreeing .empty)
        [(true, ()), (false, ()), (true, ()), (false, ()), (false, ())] = some (trace, finish) ∧
      finish.program true = .done (.ok (.mailbox ⟨"a@x.io", "x.io", none⟩)) ∧
      finish.program false = .done response ∧ response.status = 409 :=
    ⟨_, _, _, rfl, rfl, rfl, rfl⟩
  have hrun := execute_run hexecute
  have hdone : ∀ thread, ∃ response, finish.program thread = .done response := by
    intro thread
    cases thread with
    | true => exact ⟨_, htrue⟩
    | false => exact ⟨response, hfalse⟩
  obtain ⟨⟨order, -, -, hstore, -⟩, hsettled⟩ := creates_linearizable disagreeing .empty hrun hdone
  exact ⟨trace, finish, response, hrun, htrue, hfalse, hstatus, ⟨order, hstore⟩,
    hsettled false response hfalse⟩

end Api

end Zonemail
