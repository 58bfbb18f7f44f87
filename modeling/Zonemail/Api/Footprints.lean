import Zonemail.Api.Addressed

/-!
# What a request may write

`Request.MayWrite` names, for each request, the writes its handler may send to the database: which
tables, which keys, and what is stored there. A request without a line in it only reads.
`Request.Refuses` names the responses by which nothing has been written, whatever the database
answered: any but a success, or only the client errors where a handler writes twice or reads again
after it has written. `handle_guarded` proves both for every handler at once, so later modules need
not look at the handlers again.
-/

namespace Zonemail

open Library

namespace Api

/-- The writes that a request may send to the database. -/
def Request.MayWrite (parse : MessageParser) (lettre : Lettre) : Request → Statement → Prop
  | .createDomain (some body), .createDomain id => id = Text.trim body.id
  | .deleteDomain domainId, .deleteDomain id => id = domainId
  | .createMailbox (some body), .createMailbox mailbox => newMailbox body = .ok mailbox
  | .patchMailbox _ (some body), .updateMailbox _ _ forwardTo =>
      ∃ stored, forwardTo = body.forwardTo.or stored
  | .deleteMailbox mailboxId, .deleteMailbox id => id = mailboxId
  | .createRecord (some body), .createRecord record =>
      record.domainId = Text.toLowercase (Text.trim body.domainId) ∧
        record.value = Text.trim body.value ∧ record.ttl = body.ttl ∧
        parseRecordType (Text.trim body.recordType) = .ok record.recordType
  | .patchRecord (some recordId) (some body), .updateRecord id record =>
      id = recordId ∧ ∃ stored, patchedRecord stored body = .ok record
  | .deleteRecord (some recordId), .deleteRecord id => id = recordId
  | .sendEmail (some email), .createMessage content =>
      ∃ message, buildSendMessage lettre email = .ok message ∧ content = sentContent parse message
  | .sendEmail (some email), .createOutbound job =>
      ∃ messageId, ∃ recipient ∈ email.recipients, job = newJob messageId email.sender recipient
  | .deleteMessage messageId, .deleteInboundsOfMessage id
  | .deleteMessage messageId, .deleteOutboundsOfMessage id
  | .deleteMessage messageId, .deleteMessage id => id = messageId
  | _, _ => False

/-- The effects of a request: statements that read, and the writes it may send. -/
def Request.Footprint (parse : MessageParser) (lettre : Lettre) (request : Request) :
    Effect → Prop
  | .sql statement => statement.Reads ∨ request.MayWrite parse lettre statement
  | .reply _ _ => False

/-- The effect was a write, and it succeeded. -/
def Wrote : (Σ effect, Answer effect) → Prop
  | ⟨.sql statement, .ok _⟩ => ¬ statement.Reads
  | _ => False

/-- Nothing has been written. -/
def Quiet (history : Program.History Effect Answer) : Prop := ∀ event ∈ history, ¬ Wrote event

/-- The response says that the request has not been carried out, not even in part. -/
def Request.Refuses (request : Request) (response : Response) : Prop :=
  match request with
  | .patchMailbox _ _ | .patchRecord _ _ | .sendEmail _ | .deleteMessage _ =>
      400 ≤ response.status ∧ response.status < 500
  | _ => response.status ≠ 200

/-- The program performs only these effects, and when it refuses it has written nothing. -/
def Guarded (footprint : Effect → Prop) (refuses : Response → Prop) (program : Prog Response)
    (history : Program.History Effect Answer) : Prop :=
  program.Safe (fun _ _ => True) (fun _ effect => footprint effect)
    (fun later response => refuses response → Quiet later) history

/-- The program is guarded as the handler of this request. -/
abbrev Request.Guards (parse : MessageParser) (lettre : Lettre) (request : Request)
    (program : Prog Response) (history : Program.History Effect Answer) : Prop :=
  Guarded (request.Footprint parse lettre) request.Refuses program history

/-! ## Rules -/

variable {footprint : Effect → Prop} {refuses : Response → Prop}
  {history : Program.History Effect Answer}

theorem quiet_nil : Quiet [] := fun _ h => absurd h List.not_mem_nil

theorem Quiet.snoc (h : Quiet history) {event : Σ effect, Answer effect} (hevent : ¬ Wrote event) :
    Quiet (history ++ [event]) := by
  intro other hother
  rcases List.mem_append.mp hother with hold | hnew
  · exact h other hold
  · rw [List.mem_singleton.mp hnew]
    exact hevent

/-- A statement that only reads writes nothing. -/
theorem not_wrote_of_reads {statement : Statement} (h : statement.Reads)
    (answer : Except DbError statement.Value) : ¬ Wrote ⟨.sql statement, answer⟩ := by
  cases answer with
  | error e => exact id
  | ok value => exact fun hwrote => hwrote h

/-- A response, when nothing has been written. -/
theorem guarded_pure {response : Response} (h : Quiet history) :
    Guarded footprint refuses (pure response) history := .done (fun _ => h)

/-- A statement that reads, and then the rest. -/
theorem guarded_read {statement : Statement} {next : Except DbError statement.Value → Prog Response}
    (hreads : statement.Reads) (heffect : footprint (.sql statement)) (h : Quiet history)
    (hnext : ∀ answer later, Quiet later → Guarded footprint refuses (next answer) later) :
    Guarded footprint refuses (sql statement >>= next) history :=
  .perform heffect (fun answer _ => hnext answer _ (h.snoc (not_wrote_of_reads hreads answer)))

/-- The effect is a statement that only reads. -/
def ReadEffect : Effect → Prop
  | .sql statement => statement.Reads
  | .reply _ _ => False

/-- A program that only reads writes nothing. -/
theorem safe_of_reads {α : Type} {program : Prog α} (hprogram : program.Performs ReadEffect)
    (hreads : ∀ effect, ReadEffect effect → footprint effect) (h : Quiet history) :
    program.Safe (fun _ _ => True) (fun _ effect => footprint effect) (fun later _ => Quiet later)
      history := by
  refine hprogram.safe h (fun _ effect _ heffect => hreads effect heffect) ?_
  intro history effect answer hquiet heffect
  cases effect with
  | sql statement => exact hquiet.snoc (not_wrote_of_reads heffect answer)
  | reply command accepted => exact heffect.elim

/-- A part that only reads, and then the rest. -/
theorem guarded_bind {α : Type} {program : Prog α} {next : α → Prog Response}
    (hprogram : program.Performs ReadEffect)
    (hreads : ∀ effect, ReadEffect effect → footprint effect) (h : Quiet history)
    (hnext : ∀ value later, Quiet later → Guarded footprint refuses (next value) later) :
    Guarded footprint refuses (program >>= next) history :=
  Program.safe_bind (safe_of_reads hprogram hreads h)
    (fun later value hlater => hnext value later hlater)

/-- A request that only reads is guarded. -/
theorem guarded_of_reads {program : Prog Response} (hprogram : program.Performs ReadEffect)
    (hreads : ∀ effect, ReadEffect effect → footprint effect) (h : Quiet history) :
    Guarded footprint refuses program history :=
  (safe_of_reads hprogram hreads h).mono (fun _ _ hquiet _ => hquiet)

/-- A response that is no refusal, whatever has been written. -/
theorem guarded_of_not {response : Response} (h : ¬ refuses response) :
    Guarded footprint refuses (pure response) history := .done (fun hrefuses => absurd hrefuses h)

/-- A statement after which nothing is refused. -/
theorem guarded_sql {statement : Statement} {next : Except DbError statement.Value → Prog Response}
    (heffect : footprint (.sql statement))
    (hnext : ∀ answer later, Guarded footprint refuses (next answer) later) :
    Guarded footprint refuses (sql statement >>= next) history :=
  .perform heffect (fun answer _ => hnext answer _)

/-- A part after which nothing is refused. -/
theorem guarded_then {α : Type} {program : Prog α} {next : α → Prog Response}
    (hprogram : program.Performs footprint)
    (hnext : ∀ value later, Guarded footprint refuses (next value) later) :
    Guarded footprint refuses (program >>= next) history := by
  have hsafe : program.Safe (fun _ _ => True) (fun _ effect => footprint effect) (fun _ _ => True)
      history := hprogram.safe trivial (fun _ _ _ h => h) (fun _ _ _ _ _ => trivial)
  exact Program.safe_bind hsafe (fun later value _ => hnext value later)

/-- A write after which the request is refused only when the write failed. -/
theorem guarded_write {statement : Statement}
    {next : Except DbError statement.Value → Prog Response}
    (heffect : footprint (.sql statement)) (h : Quiet history)
    (hfailed : ∀ e later, Quiet later → Guarded footprint refuses (next (.error e)) later)
    (hdone : ∀ value later, Guarded footprint refuses (next (.ok value)) later) :
    Guarded footprint refuses (sql statement >>= next) history := by
  refine .perform heffect (fun answer _ => ?_)
  cases answer with
  | error e => exact hfailed e _ (h.snoc id)
  | ok value => exact hdone value _

/-- A success refuses nothing. -/
theorem not_refuses_ok (request : Request) (payload : Payload) :
    ¬ request.Refuses (.ok payload) := by
  unfold Request.Refuses
  split <;> simp [Response.ok]

/-! ## The handlers -/

variable {parse : MessageParser} {lettre : Lettre}

/-- A statement that reads is within the footprint of every request. -/
theorem ReadEffect.permitted {effect : Effect} (h : ReadEffect effect) (request : Request) :
    request.Footprint parse lettre effect := by
  cases effect with
  | sql statement => exact .inl h
  | reply command accepted => exact h.elim

theorem createDomain_guarded (body : NewDomain) (h : Quiet history) :
    (Request.createDomain (some body)).Guards parse lettre (createDomain (some body)) history := by
  simp only [createDomain]
  split
  · exact guarded_pure h
  · refine guarded_read trivial (.inl trivial) h (fun answer later hlater => ?_)
    split
    · exact guarded_pure hlater
    · refine guarded_write (.inr rfl) hlater (fun e later hlater => ?_)
        (fun value later => guarded_of_not (not_refuses_ok _ _))
      refine guarded_read trivial (.inl trivial) hlater (fun answer last hlast => ?_)
      split <;> exact guarded_pure hlast

theorem createMailbox_guarded (body : NewMailbox) (h : Quiet history) :
    (Request.createMailbox (some body)).Guards parse lettre
      (createMailbox (some body)) history := by
  simp only [createMailbox]
  split
  · exact guarded_pure h
  · rename_i mailbox hmailbox
    refine guarded_read trivial (.inl trivial) h (fun answer later hlater => ?_)
    split
    · exact guarded_pure hlater
    · -- The insertion may lose to another request, and is then resolved against its row.
      refine guarded_write (.inr hmailbox) hlater (fun e later hlater => ?_) (fun value later => ?_)
      · refine guarded_read trivial (.inl trivial) hlater (fun answer last hlast => ?_)
        split <;> exact guarded_pure hlast
      · exact guarded_of_not (not_refuses_ok _ _)

theorem patchMailbox_guarded (mailboxId : String) (body : PatchMailbox) (h : Quiet history) :
    (Request.patchMailbox mailboxId (some body)).Guards parse lettre
      (patchMailbox mailboxId (some body)) history := by
  refine guarded_read trivial (.inl trivial) h (fun answer later hlater => ?_)
  split
  · exact guarded_pure hlater
  · split
    · exact guarded_pure hlater
    · refine guarded_sql (.inr ⟨_, rfl⟩) (fun answer later => ?_)
      split
      · exact guarded_of_not (by simp [Request.Refuses, Response.failed, Response.problem])
      · refine guarded_sql (.inl trivial) (fun answer later => ?_)
        split
        · exact guarded_of_not (not_refuses_ok _ _)
        · exact guarded_of_not (by simp [Request.Refuses, Response.problem])

theorem validateRecordFields_reads (domainId value : String) :
    (validateRecordFields domainId value).Performs ReadEffect := by
  rw [validateRecordFields]
  split
  · exact .done
  · refine performs_sql trivial (fun answer => ?_)
    split <;> exact .done

theorem createRecord_guarded (body : NewRecord) (h : Quiet history) :
    (Request.createRecord (some body)).Guards parse lettre
      (createRecord (some body)) history := by
  simp only [createRecord]
  split
  · exact guarded_pure h
  · rename_i recordType htype
    refine guarded_bind (validateRecordFields_reads _ _) (fun _ h => h.permitted _) h
      (fun result later hlater => ?_)
    split
    · exact guarded_pure hlater
    · refine guarded_read trivial (.inl trivial) hlater (fun answer last hlast => ?_)
      split
      · exact guarded_pure hlast
      · split
        · exact guarded_pure hlast
        · refine guarded_write (.inr ⟨rfl, rfl, rfl, htype⟩) hlast (fun e later hlater => ?_)
            (fun value later => guarded_of_not (not_refuses_ok _ _))
          refine guarded_read trivial (.inl trivial) hlater (fun answer last hlast => ?_)
          split <;> exact guarded_pure hlast

theorem patchRecord_guarded (recordId : Nat) (body : PatchRecord) (h : Quiet history) :
    (Request.patchRecord (some recordId) (some body)).Guards parse lettre
      (patchRecord (some recordId) (some body)) history := by
  refine guarded_read trivial (.inl trivial) h (fun answer later hlater => ?_)
  split
  · exact guarded_pure hlater
  · split
    · exact guarded_pure hlater
    · rename_i patched hpatched
      refine guarded_bind (validateRecordFields_reads _ _) (fun _ h => h.permitted _) hlater
        (fun result later hlater => ?_)
      split
      · exact guarded_pure hlater
      · refine guarded_read trivial (.inl trivial) hlater (fun answer last hlast => ?_)
        split
        · exact guarded_pure hlast
        · split
          · exact guarded_pure hlast
          · refine guarded_sql (.inr ⟨rfl, _, hpatched⟩) (fun answer later => ?_)
            split
            · exact guarded_of_not (by simp [Request.Refuses, Response.failed, Response.problem])
            · refine guarded_sql (.inl trivial) (fun answer later => ?_)
              split
              · exact guarded_of_not (not_refuses_ok _ _)
              · exact guarded_of_not (by simp [Request.Refuses, Response.problem])

/-- Every job of a send is for one of its recipients. -/
theorem enqueueRest_guarded {email : SendEmail} (messageId : Nat) {recipients : List String}
    (hrecipients : recipients ⊆ email.recipients) (outboundIds : List Nat) :
    (Request.sendEmail (some email)).Guards parse lettre
      (enqueueRest messageId email.sender outboundIds recipients) history := by
  induction recipients generalizing outboundIds history with
  | nil => exact guarded_of_not (not_refuses_ok _ _)
  | cons recipient rest ih =>
      obtain ⟨hfirst, hrest⟩ := List.cons_subset.mp hrecipients
      rw [enqueueRest, enqueueForward]
      refine guarded_then (performs_sql (.inr ⟨messageId, recipient, hfirst, rfl⟩)
        (fun answer => ?_)) (fun result later => ?_)
      · split <;> exact .done
      · split
        · exact guarded_of_not (by simp [Request.Refuses, Response.problem])
        · exact ih hrest _

theorem sendEmail_guarded (email : SendEmail) (h : Quiet history) :
    (Request.sendEmail (some email)).Guards parse lettre
      (sendEmail parse lettre (some email)) history := by
  simp only [sendEmail]
  split
  · exact guarded_pure h
  · rename_i first rest hrecipients
    have hmem : first :: rest ⊆ email.recipients := hrecipients ▸ List.Subset.refl _
    obtain ⟨hfirst, hrest⟩ := List.cons_subset.mp hmem
    refine guarded_read trivial (.inl trivial) h (fun answer later hlater => ?_)
    split
    · exact guarded_pure hlater
    · split
      · exact guarded_pure hlater
      · rename_i message hmessage
        rw [enqueueOutbound]
        refine guarded_then (performs_sql (.inr ⟨message, hmessage, rfl⟩) (fun answer => ?_))
          (fun result later => ?_)
        · split
          · exact .done
          · refine performs_sql (.inr ⟨_, first, hfirst, rfl⟩) (fun answer => ?_)
            split <;> exact .done
        · split
          · exact guarded_of_not (by simp [Request.Refuses, Response.problem])
          · exact enqueueRest_guarded _ hrest _

theorem deleteMessage_guarded (messageId : Nat) (h : Quiet history) :
    (Request.deleteMessage messageId).Guards parse lettre (deleteMessage messageId)
      history := by
  refine guarded_read trivial (.inl trivial) h (fun answer later hlater => ?_)
  split
  · exact guarded_pure hlater
  · refine guarded_sql (.inr rfl) (fun answer later => ?_)
    split
    · exact guarded_of_not (by simp [Request.Refuses, Response.failed, Response.problem])
    · refine guarded_sql (.inr rfl) (fun answer later => ?_)
      split
      · exact guarded_of_not (by simp [Request.Refuses, Response.failed, Response.problem])
      · refine guarded_sql (.inr rfl) (fun answer later => ?_)
        split
        · exact guarded_of_not (not_refuses_ok _ _)
        · exact guarded_of_not (by simp [Request.Refuses, Response.failed, Response.problem])

theorem loadMessages_reads (directions : List (Nat × String)) (items : List MessageDTO)
    (ids : List Nat) : (loadMessages directions items ids).Performs ReadEffect := by
  induction ids generalizing items with
  | nil => exact .done
  | cons id rest ih =>
      refine performs_sql trivial (fun answer => ?_)
      split
      · exact ih items
      · exact ih _

theorem loadMailboxMessages_reads (mailboxId : String) (direction : Option MessageDirection) :
    (loadMailboxMessages mailboxId direction).Performs ReadEffect := by
  rw [loadMailboxMessages, inboundIds, outboundIds]
  refine Program.performs_bind ?_ (fun received => ?_)
  · split
    · refine performs_sql trivial (fun answer => ?_)
      split <;> exact .done
    · exact .done
  · split
    · exact .done
    · refine Program.performs_bind ?_ (fun sent => ?_)
      · split
        · refine performs_sql trivial (fun answer => ?_)
          split <;> exact .done
        · exact .done
      · split
        · exact .done
        · exact Program.performs_bind (loadMessages_reads _ _ _) (fun _ => .done)

theorem listMessages_reads (mailboxId : String) (direction : Option MessageDirection)
    (limit offset : Nat) :
    (listMessages mailboxId direction limit offset).Performs ReadEffect := by
  rw [listMessages]
  refine Program.performs_bind (performs_sql trivial (fun answer => ?_)) (fun result => ?_)
  · split <;> exact .done
  · split
    · exact .done
    · refine Program.performs_bind (loadMailboxMessages_reads _ _) (fun result => ?_)
      split <;> exact .done

/-- Every request stays within its footprint, and one that is refused has written nothing. -/
theorem handle_guarded (parse : MessageParser) (lettre : Lettre) (request : Request) :
    request.Guards parse lettre (request.handle parse lettre) [] := by
  cases request with
  | createDomain body =>
      cases body with
      | none => exact guarded_pure quiet_nil
      | some body => exact createDomain_guarded body quiet_nil
  | createMailbox body =>
      cases body with
      | none => exact guarded_pure quiet_nil
      | some body => exact createMailbox_guarded body quiet_nil
  | patchMailbox mailboxId body =>
      cases body with
      | none => exact guarded_pure quiet_nil
      | some body => exact patchMailbox_guarded mailboxId body quiet_nil
  | createRecord body =>
      cases body with
      | none => exact guarded_pure quiet_nil
      | some body => exact createRecord_guarded body quiet_nil
  | patchRecord recordId body =>
      cases recordId with
      | none => exact guarded_pure quiet_nil
      | some recordId =>
          cases body with
          | none => exact guarded_pure quiet_nil
          | some body => exact patchRecord_guarded recordId body quiet_nil
  | sendEmail body =>
      cases body with
      | none => exact guarded_pure quiet_nil
      | some email => exact sendEmail_guarded email quiet_nil
  | deleteMessage messageId => exact deleteMessage_guarded messageId quiet_nil
  | listMailboxMessages mailboxId query =>
      refine guarded_of_reads ?_ (fun _ h => h.permitted _) quiet_nil
      simp only [Request.handle, listMailboxMessages]
      split <;> exact listMessages_reads _ _ _ _
  | listMailboxInbox mailboxId query | listMailboxSent mailboxId query =>
      exact guarded_of_reads (listMessages_reads _ _ _ _) (fun _ h => h.permitted _) quiet_nil
  | patchDomain domainId parsed =>
      simp only [Request.handle, patchDomain]
      split
      · refine guarded_read trivial (.inl trivial) quiet_nil (fun answer later hlater => ?_)
        split <;> exact guarded_pure hlater
      · exact guarded_pure quiet_nil
  | getDomain domainId | getMailbox mailboxId =>
      refine guarded_read trivial (.inl trivial) quiet_nil (fun answer later hlater => ?_)
      split <;> exact guarded_pure hlater
  | getRecord recordId =>
      cases recordId with
      | none => exact guarded_pure quiet_nil
      | some recordId =>
          refine guarded_read trivial (.inl trivial) quiet_nil (fun answer later hlater => ?_)
          split <;> exact guarded_pure hlater
  | deleteDomain domainId | deleteMailbox mailboxId =>
      refine guarded_read trivial (.inl trivial) quiet_nil (fun answer later hlater => ?_)
      split
      · exact guarded_pure hlater
      · exact guarded_write (.inr rfl) hlater (fun e last hlast => guarded_pure hlast)
          (fun value last => guarded_of_not (not_refuses_ok _ _))
  | deleteRecord recordId =>
      cases recordId with
      | none => exact guarded_pure quiet_nil
      | some recordId =>
          refine guarded_read trivial (.inl trivial) quiet_nil (fun answer later hlater => ?_)
          split
          · exact guarded_pure hlater
          · exact guarded_write (.inr rfl) hlater (fun e last hlast => guarded_pure hlast)
              (fun value last => guarded_of_not (not_refuses_ok _ _))

/-- A request performs only what is in its footprint. -/
theorem handle_performs (parse : MessageParser) (lettre : Lettre) (request : Request) :
    (request.handle parse lettre).Performs (request.Footprint parse lettre) :=
  (handle_guarded parse lettre request).performs

end Api

/-! ## Seeding -/

open Api (ReadEffect)

/-- The effects of seeding: statements that read, and the rows of the configuration. -/
def Config.Footprint (config : Config) : Effect → Prop
  | .sql (.createDomain id) => id ∈ config.domains
  | .sql (.createMailbox mailbox) => ∃ entry ∈ config.mailboxes, entry.mailbox = some mailbox
  | .sql (.createRecord record) => record ∈ config.records
  | effect => ReadEffect effect

theorem seedDomains_performs {config : Config} {domains : List String}
    (h : domains ⊆ config.domains) : (seedDomains domains).Performs config.Footprint := by
  induction domains with
  | nil => exact .done
  | cons id rest ih =>
      obtain ⟨hfirst, hrest⟩ := List.cons_subset.mp h
      refine performs_sql trivial (fun answer => ?_)
      split
      · exact ih hrest
      · refine performs_sql hfirst (fun answer => ?_)
        split
        · exact .done
        · exact ih hrest

theorem seedMailboxes_performs {config : Config} {entries : List MailboxEntry}
    (h : entries ⊆ config.mailboxes) : (seedMailboxes entries).Performs config.Footprint := by
  induction entries with
  | nil => exact .done
  | cons entry rest ih =>
      obtain ⟨hfirst, hrest⟩ := List.cons_subset.mp h
      rw [seedMailboxes]
      split
      · exact ih hrest
      · rename_i mailbox hmailbox
        refine performs_sql trivial (fun answer => ?_)
        split
        · exact ih hrest
        · refine performs_sql ⟨entry, hfirst, hmailbox⟩ (fun answer => ?_)
          split
          · exact .done
          · exact ih hrest

theorem seedRecords_performs {config : Config} {records : List RecordDTO}
    (h : records ⊆ config.records) : (seedRecords records).Performs config.Footprint := by
  induction records with
  | nil => exact .done
  | cons record rest ih =>
      obtain ⟨hfirst, hrest⟩ := List.cons_subset.mp h
      refine performs_sql hfirst (fun answer => ?_)
      split
      · exact .done
      · exact ih hrest

/-- Seeding creates the rows of the configuration and nothing else. -/
theorem seedFromConfig_performs (config : Config) :
    (seedFromConfig config).Performs config.Footprint := by
  rw [seedFromConfig]
  refine Program.performs_bind (seedDomains_performs (List.Subset.refl _)) (fun result => ?_)
  split
  · exact .done
  · refine Program.performs_bind (seedMailboxes_performs (List.Subset.refl _)) (fun result => ?_)
    split
    · exact .done
    · exact seedRecords_performs (List.Subset.refl _)

end Zonemail
