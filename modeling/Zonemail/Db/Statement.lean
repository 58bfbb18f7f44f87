import Zonemail.Db.Schema
import Zonemail.Library.Table

/-!
# The database and its statements

`Db` holds the seven tables with their primary keys and the unique triple of a DNS record.
`Statement` is every statement that a request handler, the SMTP handler, the DNS server or seeding
sends to the database, and `Statement.run` what the database does with it, atomically: a read leaves
the tables as they are, a write that would break a uniqueness rule fails and changes nothing, an
update writes the named columns of the row with that key, and a deletion cascades along the
`has_many` relations.
-/

namespace Zonemail

open Library

/-- The database. -/
structure Db where
  domains : Table Domain.id
  mailboxes : Table Mailbox.id
  records : AutoTable Record.id
  tripleUnique : (records.rows.map (fun record => record.triple)).Nodup
  messages : AutoTable Message.id
  inbounds : AutoTable Inbound.id
  outbounds : AutoTable Outbound.id
  deliveryStatuses : AutoTable DeliveryStatus.id

namespace Db

/-- A database right after its schema was created. -/
def empty : Db where
  domains := .empty
  mailboxes := .empty
  records := .empty
  tripleUnique := List.nodup_nil
  messages := .empty
  inbounds := .empty
  outbounds := .empty
  deliveryStatuses := .empty

/-- Delete jobs, and with each its delivery records. -/
def removeOutbounds (db : Db) (condition : Outbound → Bool) : Db :=
  let ids := (db.outbounds.select condition).map Outbound.id
  { db with
    outbounds := db.outbounds.remove condition
    deliveryStatuses := db.deliveryStatuses.remove (fun status => status.outboundId ∈ ids) }

/-- Delete mailboxes, and with each its received-mail links and the jobs it sent. -/
def removeMailboxes (db : Db) (condition : Mailbox → Bool) : Db :=
  let ids := (db.mailboxes.select condition).map Mailbox.id
  { db.removeOutbounds (fun job => job.senderId ∈ ids) with
    mailboxes := db.mailboxes.remove condition
    inbounds := db.inbounds.remove (fun link => link.rcptTo ∈ ids) }

/-- Delete DNS records. -/
def removeRecords (db : Db) (condition : Record → Bool) : Db :=
  { db with
    records := db.records.remove condition
    tripleUnique := db.tripleUnique.sublist (List.filter_sublist.map _) }

/-- Delete a domain, and with it its mailboxes and records. Without such a domain nothing is
deleted. -/
def removeDomain (db : Db) (id : String) : Db :=
  match db.domains.get? id with
  | none => db
  | some _ =>
      let pruned := (db.removeMailboxes (fun mailbox => mailbox.domainId = id)).removeRecords
        (fun record => record.domainId = id)
      { pruned with domains := pruned.domains.remove (fun domain => domain.id = id) }

end Db

/-- Why a statement failed. -/
inductive DbError where
  | notFound
  | uniqueViolation
  | failure (text : String)
  deriving DecidableEq, Repr

/-- The text of an error. It is the database layer's own and only ends up in a response or a log. -/
def DbError.text : DbError → String
  | .notFound => "record not found"
  | .uniqueViolation => "unique constraint violated"
  | .failure text => text

/-- The statements of the request handlers, the SMTP handler, the DNS server and seeding. -/
inductive Statement where
  | getDomain (id : String)
  | createDomain (id : String)
  | deleteDomain (id : String)
  | getMailbox (id : String)
  | createMailbox (mailbox : Mailbox)
  | updateMailbox (id domainId : String) (forwardTo : Option String)
  | deleteMailbox (id : String)
  | getRecord (id : Nat)
  | recordsOfDomain (domainId : String)
  | recordsOfType (domainId : String) (recordType : RecordType)
  | createRecord (record : RecordDTO)
  | updateRecord (id : Nat) (record : RecordDTO)
  | deleteRecord (id : Nat)
  | getMessage (id : Nat)
  | firstMessageWithHeader (messageIdHeader : String)
  | createMessage (content : MessageContent)
  | deleteMessage (id : Nat)
  | inboundsOfRecipient (rcptTo : String)
  | createInbound (messageId : Nat) (rcptTo : String)
  | deleteInboundsOfMessage (messageId : Nat)
  | outboundsOfSender (senderId : String)
  | createOutbound (job : OutboundJob)
  | deleteOutboundsOfMessage (messageId : Nat)
  deriving DecidableEq, Repr

namespace Statement

/-- What a statement returns when it succeeds. -/
@[reducible] def Value : Statement → Type
  | .getDomain _ | .createDomain _ => Domain
  | .getMailbox _ | .createMailbox _ => Mailbox
  | .getRecord _ | .createRecord _ => Record
  | .recordsOfDomain _ | .recordsOfType _ _ => List Record
  | .getMessage _ | .createMessage _ => Message
  | .firstMessageWithHeader _ => Option Message
  | .inboundsOfRecipient _ => List Inbound
  | .createInbound _ _ => Inbound
  | .outboundsOfSender _ => List Outbound
  | .createOutbound _ => Outbound
  | .deleteDomain _ | .updateMailbox _ _ _ | .deleteMailbox _ | .updateRecord _ _ | .deleteRecord _
  | .deleteMessage _ | .deleteInboundsOfMessage _ | .deleteOutboundsOfMessage _ => Unit

/-- The result of a lookup by primary key. -/
def found {ρ : Type} (db : Db) : Option ρ → Except DbError (ρ × Db)
  | none => .error .notFound
  | some row => .ok (row, db)

/-- What the database does with a statement. -/
def run : (statement : Statement) → Db → Except DbError (statement.Value × Db)
  | .getDomain id, db => found db (db.domains.get? id)
  | .createDomain id, db =>
      match db.domains.insert? ⟨id⟩ with
      | none => .error .uniqueViolation
      | some domains => .ok (⟨id⟩, { db with domains })
  | .deleteDomain id, db => .ok ((), db.removeDomain id)
  | .getMailbox id, db => found db (db.mailboxes.get? id)
  | .createMailbox mailbox, db =>
      match db.mailboxes.insert? mailbox with
      | none => .error .uniqueViolation
      | some mailboxes => .ok (mailbox, { db with mailboxes })
  | .updateMailbox id domainId forwardTo, db =>
      .ok ((), { db with
        mailboxes := db.mailboxes.modify id (fun row => { row with domainId, forwardTo })
          (fun _ => rfl) })
  | .deleteMailbox id, db => .ok ((), db.removeMailboxes (fun mailbox => mailbox.id = id))
  | .getRecord id, db => found db (db.records.get? id)
  | .recordsOfDomain domainId, db =>
      .ok (db.records.select (fun record => record.domainId = domainId), db)
  | .recordsOfType domainId recordType, db =>
      .ok (db.records.select (fun record => record.domainId = domainId ∧
        record.recordType = recordType), db)
  | .createRecord record, db =>
      let records := db.records.push (fun id => ⟨record, id⟩) (fun _ => rfl)
      if h : (records.rows.map (fun record => record.triple)).Nodup then
        .ok (⟨record, db.records.next⟩, { db with records, tripleUnique := h })
      else .error .uniqueViolation
  | .updateRecord id record, db =>
      let records := db.records.modify id (fun row => ⟨record, row.id⟩) (fun _ => rfl)
      if h : (records.rows.map (fun record => record.triple)).Nodup then
        .ok ((), { db with records, tripleUnique := h })
      else .error .uniqueViolation
  | .deleteRecord id, db => .ok ((), db.removeRecords (fun record => record.id = id))
  | .getMessage id, db => found db (db.messages.get? id)
  | .firstMessageWithHeader header, db =>
      .ok ((db.messages.select (fun message => message.messageIdHeader = some header)).head?, db)
  | .createMessage content, db =>
      .ok (⟨content, db.messages.next⟩,
        { db with messages := db.messages.push (fun id => ⟨content, id⟩) (fun _ => rfl) })
  | .deleteMessage id, db =>
      .ok ((), { db with messages := db.messages.remove (fun message => message.id = id) })
  | .inboundsOfRecipient rcptTo, db =>
      .ok (db.inbounds.select (fun link => link.rcptTo = rcptTo), db)
  | .createInbound messageId rcptTo, db =>
      .ok (⟨db.inbounds.next, messageId, rcptTo⟩,
        { db with inbounds := db.inbounds.push (fun id => ⟨id, messageId, rcptTo⟩) (fun _ => rfl) })
  | .deleteInboundsOfMessage messageId, db =>
      .ok ((), { db with
        inbounds := db.inbounds.remove (fun link => link.messageId = messageId) })
  | .outboundsOfSender senderId, db =>
      .ok (db.outbounds.select (fun job => job.senderId = senderId), db)
  | .createOutbound job, db =>
      .ok (⟨job, db.outbounds.next⟩,
        { db with outbounds := db.outbounds.push (fun id => ⟨job, id⟩) (fun _ => rfl) })
  | .deleteOutboundsOfMessage messageId, db =>
      .ok ((), db.removeOutbounds (fun job => job.messageId = messageId))

/-- A fault of the database at one statement: the text of the error, or no fault. -/
abbrev Fault := Option String

/-- The answer to a statement and the database after it. A failed statement changes nothing. -/
def execute (statement : Statement) (fault : Fault) (db : Db) :
    Except DbError statement.Value × Db :=
  match fault with
  | some text => (.error (.failure text), db)
  | none =>
      match statement.run db with
      | .error e => (.error e, db)
      | .ok (value, after) => (.ok value, after)

/-- A statement that succeeds was answered from the database it met. -/
theorem execute_cases (statement : Statement) (fault : Fault) (db : Db) :
    (∃ e, statement.execute fault db = (.error e, db)) ∨
    ∃ value after, statement.run db = .ok (value, after) ∧
      statement.execute fault db = (.ok value, after) := by
  unfold execute
  cases fault with
  | some text => exact .inl ⟨_, rfl⟩
  | none =>
      cases h : statement.run db with
      | error e => exact .inl ⟨e, rfl⟩
      | ok result => exact .inr ⟨result.1, result.2, rfl, rfl⟩

/-- Does the statement only read? -/
def Reads : Statement → Prop
  | .getDomain _ | .getMailbox _ | .getRecord _ | .recordsOfDomain _ | .recordsOfType _ _
  | .getMessage _ | .firstMessageWithHeader _ | .inboundsOfRecipient _
  | .outboundsOfSender _ => True
  | _ => False

/-- What a statement that succeeds does to the database. -/
inductive Change (db : Db) : Statement → Db → Prop where
  | read {statement : Statement} (hreads : statement.Reads) : Change db statement db
  | createDomain {id : String} {domains : Table Domain.id}
      (hinsert : db.domains.insert? ⟨id⟩ = some domains) :
      Change db (.createDomain id) { db with domains }
  | deleteDomain {id : String} : Change db (.deleteDomain id) (db.removeDomain id)
  | createMailbox {mailbox : Mailbox} {mailboxes : Table Mailbox.id}
      (hinsert : db.mailboxes.insert? mailbox = some mailboxes) :
      Change db (.createMailbox mailbox) { db with mailboxes }
  | updateMailbox {id domainId : String} {forwardTo : Option String} :
      Change db (.updateMailbox id domainId forwardTo) { db with
        mailboxes := db.mailboxes.modify id (fun row => { row with domainId, forwardTo })
          (fun _ => rfl) }
  | deleteMailbox {id : String} :
      Change db (.deleteMailbox id) (db.removeMailboxes (fun mailbox => mailbox.id = id))
  | createRecord {record : RecordDTO}
      (hunique : ((db.records.push (fun id => ⟨record, id⟩) (fun _ => rfl)).rows.map
        (fun record => record.triple)).Nodup) :
      Change db (.createRecord record) { db with
        records := db.records.push (fun id => ⟨record, id⟩) (fun _ => rfl)
        tripleUnique := hunique }
  | updateRecord {id : Nat} {record : RecordDTO}
      (hunique : ((db.records.modify id (fun row => ⟨record, row.id⟩) (fun _ => rfl)).rows.map
        (fun record => record.triple)).Nodup) :
      Change db (.updateRecord id record) { db with
        records := db.records.modify id (fun row => ⟨record, row.id⟩) (fun _ => rfl)
        tripleUnique := hunique }
  | deleteRecord {id : Nat} :
      Change db (.deleteRecord id) (db.removeRecords (fun record => record.id = id))
  | createMessage {content : MessageContent} :
      Change db (.createMessage content) { db with
        messages := db.messages.push (fun id => ⟨content, id⟩) (fun _ => rfl) }
  | deleteMessage {id : Nat} :
      Change db (.deleteMessage id) { db with
        messages := db.messages.remove (fun message => message.id = id) }
  | createInbound {messageId : Nat} {rcptTo : String} :
      Change db (.createInbound messageId rcptTo) { db with
        inbounds := db.inbounds.push (fun id => ⟨id, messageId, rcptTo⟩) (fun _ => rfl) }
  | deleteInboundsOfMessage {messageId : Nat} :
      Change db (.deleteInboundsOfMessage messageId) { db with
        inbounds := db.inbounds.remove (fun link => link.messageId = messageId) }
  | createOutbound {job : OutboundJob} :
      Change db (.createOutbound job) { db with
        outbounds := db.outbounds.push (fun id => ⟨job, id⟩) (fun _ => rfl) }
  | deleteOutboundsOfMessage {messageId : Nat} :
      Change db (.deleteOutboundsOfMessage messageId)
        (db.removeOutbounds (fun job => job.messageId = messageId))

/-- Every statement that succeeds has its change. -/
theorem change_of_run {statement : Statement} {db after : Db} {value : statement.Value}
    (h : statement.run db = .ok (value, after)) : Change db statement after := by
  cases statement with
  | getDomain id | getMailbox id | getRecord id | getMessage id =>
      simp only [run, found] at h
      split at h
      · cases h
      · cases h
        exact .read trivial
  | recordsOfDomain | recordsOfType | firstMessageWithHeader | inboundsOfRecipient
  | outboundsOfSender =>
      cases h
      exact .read trivial
  | createDomain id =>
      simp only [run] at h
      split at h
      · cases h
      · rename_i hinsert
        cases h
        exact .createDomain hinsert
  | createMailbox mailbox =>
      simp only [run] at h
      split at h
      · cases h
      · rename_i hinsert
        cases h
        exact .createMailbox hinsert
  | createRecord record =>
      simp only [run] at h
      split at h
      · rename_i hunique
        cases h
        exact .createRecord hunique
      · cases h
  | updateRecord id record =>
      simp only [run] at h
      split at h
      · rename_i hunique
        cases h
        exact .updateRecord hunique
      · cases h
  | deleteDomain =>
      cases h
      exact .deleteDomain
  | updateMailbox =>
      cases h
      exact .updateMailbox
  | deleteMailbox =>
      cases h
      exact .deleteMailbox
  | deleteRecord =>
      cases h
      exact .deleteRecord
  | createMessage =>
      cases h
      exact .createMessage
  | deleteMessage =>
      cases h
      exact .deleteMessage
  | createInbound =>
      cases h
      exact .createInbound
  | deleteInboundsOfMessage =>
      cases h
      exact .deleteInboundsOfMessage
  | createOutbound =>
      cases h
      exact .createOutbound
  | deleteOutboundsOfMessage =>
      cases h
      exact .deleteOutboundsOfMessage

/-- A statement changes nothing, or it succeeds and has its change. -/
theorem change_of_execute (statement : Statement) (fault : Fault) (db : Db) :
    (statement.execute fault db).2 = db ∨ Change db statement (statement.execute fault db).2 := by
  rcases execute_cases statement fault db with ⟨e, h⟩ | ⟨value, after, hrun, h⟩
  · rw [h]
    exact .inl rfl
  · rw [h]
    exact .inr (change_of_run hrun)

/-- A statement that succeeds has its change. -/
theorem change_of_answer {statement : Statement} {fault : Fault} {db : Db}
    {value : statement.Value} (h : (statement.execute fault db).1 = .ok value) :
    Change db statement (statement.execute fault db).2 := by
  rcases execute_cases statement fault db with ⟨e, hfailed⟩ | ⟨value, after, hrun, hdone⟩
  · rw [hfailed] at h
    cases h
  · rw [hdone]
    exact change_of_run hrun

/-- A statement that only reads changes nothing. -/
theorem execute_of_reads {statement : Statement} (h : statement.Reads) (fault : Fault) (db : Db) :
    (statement.execute fault db).2 = db := by
  rcases change_of_execute statement fault db with hsame | hchange
  · exact hsame
  · generalize (statement.execute fault db).2 = after at hchange
    cases hchange with
    | read => rfl
    | _ => exact h.elim

/-- Reading a domain finds the stored row or fails, and changes nothing. -/
theorem execute_getDomain (id : String) (fault : Fault) (db : Db) :
    (∃ domain, db.domains.get? id = some domain ∧
      (getDomain id).execute fault db = (.ok domain, db)) ∨
    ∃ e, (getDomain id).execute fault db = (.error e, db) := by
  cases fault with
  | some text => exact .inr ⟨_, rfl⟩
  | none =>
      cases h : db.domains.get? id with
      | none => exact .inr ⟨.notFound, by simp [execute, run, h, found]⟩
      | some domain => exact .inl ⟨domain, rfl, by simp [execute, run, h, found]⟩

/-- Reading a mailbox finds the stored row or fails, and changes nothing. -/
theorem execute_getMailbox (id : String) (fault : Fault) (db : Db) :
    (∃ mailbox, db.mailboxes.get? id = some mailbox ∧
      (getMailbox id).execute fault db = (.ok mailbox, db)) ∨
    ∃ e, (getMailbox id).execute fault db = (.error e, db) := by
  cases fault with
  | some text => exact .inr ⟨_, rfl⟩
  | none =>
      cases h : db.mailboxes.get? id with
      | none => exact .inr ⟨.notFound, by simp [execute, run, h, found]⟩
      | some mailbox => exact .inl ⟨mailbox, rfl, by simp [execute, run, h, found]⟩

end Statement

/-- Deleting mailboxes deletes jobs only. -/
theorem Db.extends_removeMailboxes (db : Db) (condition : Mailbox → Bool) :
    AutoTable.Extends (db.removeMailboxes condition).outbounds db.outbounds :=
  AutoTable.extends_remove _ _

/-- Deleting a domain deletes jobs only. -/
theorem Db.extends_removeDomain (db : Db) (id : String) :
    AutoTable.Extends (db.removeDomain id).outbounds db.outbounds := by
  unfold Db.removeDomain
  split
  · exact .refl _
  · exact db.extends_removeMailboxes _

/-- No statement of the daemon's other parts writes an existing job; it may add or delete jobs. -/
theorem Statement.Change.extends {statement : Statement} {db after : Db}
    (h : Change db statement after) : AutoTable.Extends after.outbounds db.outbounds := by
  cases h with
  | deleteDomain => exact db.extends_removeDomain _
  | deleteMailbox => exact db.extends_removeMailboxes _
  | deleteOutboundsOfMessage => exact AutoTable.extends_remove _ _
  | createOutbound => exact AutoTable.extends_push _ _ (fun _ => rfl)
  | _ => exact .refl _

/-- The same with database faults. -/
theorem Statement.extends_execute (statement : Statement) (fault : Fault) (db : Db) :
    AutoTable.Extends (statement.execute fault db).2.outbounds db.outbounds := by
  rcases statement.change_of_execute fault db with h | h
  · rw [h]
    exact .refl _
  · exact h.extends

/-! ## What is never lost without a deletion -/

/-- Does the statement delete rows? -/
def Statement.Deletes : Statement → Prop
  | .deleteDomain _ | .deleteMailbox _ | .deleteRecord _ | .deleteMessage _
  | .deleteInboundsOfMessage _ | .deleteOutboundsOfMessage _ => True
  | _ => False

/-- Every domain and every mailbox stored before is still stored. -/
structure Db.Retains (after before : Db) : Prop where
  domains : ∀ id, (before.domains.get? id).isSome → (after.domains.get? id).isSome
  mailboxes : ∀ id, (before.mailboxes.get? id).isSome → (after.mailboxes.get? id).isSome

theorem Db.Retains.refl (db : Db) : db.Retains db := ⟨fun _ h => h, fun _ h => h⟩

theorem Db.Retains.trans {first second third : Db} (h : third.Retains second)
    (hfirst : second.Retains first) : third.Retains first :=
  ⟨fun id hid => h.domains id (hfirst.domains id hid),
    fun id hid => h.mailboxes id (hfirst.mailboxes id hid)⟩

/-- A statement that does not delete keeps every domain and every mailbox. -/
theorem Statement.Change.retains {statement : Statement} {db after : Db}
    (h : Change db statement after) (hkeep : ¬ statement.Deletes) : after.Retains db := by
  cases h with
  | createDomain hinsert =>
      exact ⟨fun _ hid => Table.isSome_of_insert? hinsert hid, fun _ hid => hid⟩
  | createMailbox hinsert =>
      exact ⟨fun _ hid => hid, fun _ hid => Table.isSome_of_insert? hinsert hid⟩
  | updateMailbox =>
      refine ⟨fun _ hid => hid, fun other hother => ?_⟩
      rwa [Table.isSome_modify]
  | read | createRecord | updateRecord | createMessage | createInbound | createOutbound =>
      exact ⟨fun _ hid => hid, fun _ hid => hid⟩
  | deleteDomain | deleteMailbox | deleteRecord | deleteMessage | deleteInboundsOfMessage
  | deleteOutboundsOfMessage => exact absurd trivial hkeep

theorem Statement.retains_run {statement : Statement} {db after : Db} {value : statement.Value}
    (h : statement.run db = .ok (value, after)) (hkeep : ¬ statement.Deletes) :
    after.Retains db := (change_of_run h).retains hkeep

/-- The same with database faults. -/
theorem Statement.retains_execute (statement : Statement) (hkeep : ¬ statement.Deletes)
    (fault : Fault) (db : Db) : (statement.execute fault db).2.Retains db := by
  rcases statement.change_of_execute fault db with h | h
  · rw [h]
    exact .refl _
  · exact h.retains hkeep

/-- A domain that was created is there. -/
theorem Statement.get?_of_createDomain {id : String} {db after : Db} {domain : Domain}
    (h : (createDomain id).run db = .ok (domain, after)) : (after.domains.get? id).isSome := by
  simp only [Statement.run] at h
  split at h
  · cases h
  · rename_i hinsert
    cases h
    rw [Table.get?_of_insert? hinsert, if_pos rfl]
    rfl

/-- A mailbox that was created is there. -/
theorem Statement.get?_of_createMailbox {mailbox created : Mailbox} {db after : Db}
    (h : (createMailbox mailbox).run db = .ok (created, after)) :
    (after.mailboxes.get? mailbox.id).isSome := by
  simp only [Statement.run] at h
  split at h
  · cases h
  · rename_i hinsert
    cases h
    rw [Table.get?_of_insert? hinsert, if_pos rfl]
    rfl

end Zonemail
