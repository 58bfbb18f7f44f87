import Zonemail.Api.Addressed
import Zonemail.Inbound.Handler
import Zonemail.Text.Lowercase

/-!
# Spellings of addresses and domains

Every entry point derives the key of a mailbox from the text it is given in its own way: creation
trims and lower-cases, seeding and the message lists lower-case, a `RCPT TO` drops brackets and
spaces and lower-cases, and the other handlers and the sender check take the text as it is. Domains
are stored trimmed, and looked up by records and mailboxes in lower case. `foundEverywhere_iff` and
`domain_usable_iff` say for which spellings these ways meet.
-/

namespace Zonemail.Api

open Library
open Text (toLowercase trim eqIgnoreAsciiCase)

variable {db : Db} {address : String} {mailbox : Mailbox}

/-! ## Handlers that look up a mailbox -/

/-- A program that begins by reading a mailbox, without a fault. -/
theorem eval_getMailbox_bind {α : Type} (db : Db) (address : String)
    (next : Except DbError Mailbox → Prog α) :
    (@bind Prog _ (no_index (Except DbError Mailbox)) α (sql (.getMailbox address)) next).eval
        ⟨db, []⟩ =
      (next ((db.mailboxes.get? address).elim (.error .notFound) .ok)).eval ⟨db, []⟩ := by
  rw [Prog.eval_sql_bind]
  cases h : db.mailboxes.get? address with
  | none => simp [Statement.execute, Statement.run, Statement.found, h]
  | some mailbox => simp [Statement.execute, Statement.run, Statement.found, h]

theorem eval_getMailbox_iff : ((getMailbox address).eval ⟨db, []⟩).1 = .ok (.mailbox mailbox) ↔
    db.mailboxes.get? address = some mailbox := by
  rw [getMailbox, eval_getMailbox_bind]
  cases db.mailboxes.get? address with
  | none => simp [Prog.eval, mailboxNotFound, Response.ok, Response.problem]
  | some stored => simp [Prog.eval, Response.ok]

theorem eval_handleRcpt_iff {handler : ZonedMailHandler} {path : String} :
    ((handler.handleRcpt path).eval ⟨db, []⟩).1.1 = .ok () ↔
      (db.mailboxes.get? (cleanEmail path)).isSome := by
  rw [ZonedMailHandler.handleRcpt, eval_getMailbox_bind]
  cases db.mailboxes.get? (cleanEmail path) with
  | none => simp [Prog.eval]
  | some stored => simp [Prog.eval]

/-- Writing a patched mailbox back never ends in a 404. -/
theorem status_updateMailbox (mailboxId : String) (mailbox : Mailbox) (world : World) :
    ((updateMailbox mailboxId mailbox).eval world).1.status ≠ 404 := by
  rw [updateMailbox, Prog.eval_sql_bind]
  split
  · simp [Prog.eval, Response.failed, Response.problem]
  · rw [Prog.eval_sql_bind]
    split
    · simp [Prog.eval, Response.ok]
    · simp [Prog.eval, Response.problem]

theorem status_patchMailbox (h : db.mailboxes.get? address = some mailbox) (body : PatchMailbox) :
    ((patchMailbox address (some body)).eval ⟨db, []⟩).1.status ≠ 404 := by
  rw [patchMailbox, eval_getMailbox_bind, h]
  cases hdomain : overrideDomain mailbox body.domainId with
  | ok patched =>
      simp only [Option.elim_some, hdomain]
      exact status_updateMailbox _ _ _
  | error response =>
      simp only [Option.elim_some, hdomain]
      cases hbody : body.domainId with
      | none =>
          rw [hbody] at hdomain
          cases hdomain
      | some domainId =>
          rw [hbody, overrideDomain] at hdomain
          split at hdomain
          · cases hdomain
            simp [Prog.eval, domainMismatch, Response.problem]
          · cases hdomain

theorem status_deleteMailbox (h : db.mailboxes.get? address = some mailbox) :
    ((deleteMailbox address).eval ⟨db, []⟩).1.status ≠ 404 := by
  rw [deleteMailbox, eval_getMailbox_bind, h, Option.elim_some, Prog.eval_sql_bind]
  split
  · simp [Prog.eval, Response.ok]
  · simp [Prog.eval, Response.failed, Response.problem]

/-- A list of messages is found under the lower-case address. -/
theorem status_listMessages (h : db.mailboxes.get? (toLowercase address) = some mailbox)
    (direction : Option MessageDirection) (limit offset : Nat) :
    ((listMessages address direction limit offset).eval ⟨db, []⟩).1.status ≠ 404 := by
  have hexists : (ensureMailboxExists address).eval ⟨db, []⟩ = (.ok (), ⟨db, []⟩) := by
    rw [ensureMailboxExists, eval_getMailbox_bind, h]
    rfl
  rw [listMessages, Prog.eval_bind, hexists]
  dsimp only
  rw [Prog.eval_bind]
  cases ((loadMailboxMessages address direction).eval ⟨db, []⟩).1 with
  | error e => simp [Prog.eval, Response.failed, Response.problem]
  | ok items => simp [Prog.eval, Response.ok]

/-- The sender check passes: no later stage of a send answers 409. -/
theorem status_sendEmail {parse : MessageParser} {lettre : Lettre} {email : SendEmail}
    (h : db.mailboxes.get? email.sender = some mailbox) (hrecipients : email.recipients ≠ []) :
    ((sendEmail parse lettre (some email)).eval ⟨db, []⟩).1.status ≠ 409 := by
  obtain ⟨first, rest, hsplit⟩ := List.exists_cons_of_ne_nil hrecipients
  have hrest : ∀ messageId ids recipients world,
      ((enqueueRest messageId email.sender ids recipients).eval world).1.status ≠ 409 := by
    intro messageId ids recipients
    induction recipients generalizing ids with
    | nil => exact fun world => by simp [enqueueRest, Prog.eval, Response.ok]
    | cons recipient recipients ih =>
        intro world
        rw [enqueueRest, Prog.eval_bind]
        cases ((enqueueForward messageId email.sender recipient).eval world).1 with
        | error e => simp [Prog.eval, Response.problem]
        | ok outboundId => exact ih _ _
  simp only [sendEmail, hsplit]
  rw [eval_getMailbox_bind, h, Option.elim_some]
  cases buildSendMessage lettre email with
  | error e => simp [Prog.eval, Response.problem]
  | ok message =>
      dsimp only
      rw [Prog.eval_bind]
      cases ((enqueueOutbound parse email.sender first message).eval ⟨db, []⟩).1 with
      | error e => simp [Prog.eval, Response.problem]
      | ok ids => exact hrest _ _ _ _

/-! ## Addresses -/

/-- Creation or seeding was given this address and stored a mailbox under the id of this one. -/
inductive StoredFor (address : String) (mailbox : Mailbox) : Prop where
  | create {body : NewMailbox} {created : Mailbox} (hbody : body.id = address)
      (hcreated : newMailbox body = .ok created) (hid : created.id = mailbox.id)
  | seed {entry : MailboxEntry} {created : Mailbox} (hentry : entry.address = address)
      (hcreated : entry.mailbox = some created) (hid : created.id = mailbox.id)

/-- Mailboxes are stored in lower case. -/
theorem StoredFor.toLowercase_id (h : StoredFor address mailbox) :
    toLowercase mailbox.id = mailbox.id := by
  cases h with
  | create _ hcreated hid =>
      rw [← hid, (of_newMailbox hcreated).1, Text.toLowercase_toLowercase]
  | seed _ hcreated hid =>
      unfold MailboxEntry.mailbox at hcreated
      split at hcreated
      · cases hcreated
      · cases hcreated
        rw [← hid, Text.toLowercase_toLowercase]

/-- Every entry point that is given the address finds the mailbox: a `RCPT TO` in brackets is
accepted, a send passes the sender check, and the handlers find the row. -/
structure FoundEverywhere (parse : MessageParser) (lettre : Lettre) (db : Db) (address : String)
    (mailbox : Mailbox) : Prop where
  rcpt : ∀ handler : ZonedMailHandler,
    ((handler.handleRcpt ("<" ++ address ++ ">")).eval ⟨db, []⟩).1.1 = .ok ()
  send : ∀ email : SendEmail, email.sender = address → email.recipients ≠ [] →
    ((sendEmail parse lettre (some email)).eval ⟨db, []⟩).1.status ≠ 409
  get : ((getMailbox address).eval ⟨db, []⟩).1 = .ok (.mailbox mailbox)
  patch : ∀ body, ((patchMailbox address (some body)).eval ⟨db, []⟩).1.status ≠ 404
  delete : ((deleteMailbox address).eval ⟨db, []⟩).1.status ≠ 404
  messages : ∀ query, ((listMailboxMessages address query).eval ⟨db, []⟩).1.status ≠ 404
  inbox : ∀ query, ((listMailboxInbox address query).eval ⟨db, []⟩).1.status ≠ 404
  sent : ∀ query, ((listMailboxSent address query).eval ⟨db, []⟩).1.status ≠ 404

/-- A stored mailbox is found by every entry point under a spelling that differs in letter case only
exactly when the spelling is the stored id, and a mailbox is stored under what a `RCPT TO` makes of
it: that is the same one unless the id begins or ends with a bracket or a space. -/
theorem foundEverywhere_iff {parse : MessageParser} {lettre : Lettre} {address : String}
    (hstored : StoredFor address mailbox) (hrow : mailbox ∈ db.mailboxes.rows) :
    ∀ spelling, eqIgnoreAsciiCase spelling address = true →
      (FoundEverywhere parse lettre db spelling mailbox ↔
        spelling = mailbox.id ∧
          (db.mailboxes.get? (cleanEmail ("<" ++ spelling ++ ">"))).isSome) := by
  intro spelling _
  constructor
  · intro h
    have hget := eval_getMailbox_iff.mp h.get
    exact ⟨(Table.key_of_get? hget).symm, eval_handleRcpt_iff.mp (h.rcpt newHandler)⟩
  · intro h
    obtain ⟨rfl, hrcpt⟩ := h
    have hget : db.mailboxes.get? mailbox.id = some mailbox := Table.get?_of_mem hrow
    have hlower : db.mailboxes.get? (toLowercase mailbox.id) = some mailbox := by
      rw [hstored.toLowercase_id]
      exact hget
    refine
      { rcpt := fun handler => eval_handleRcpt_iff.mpr hrcpt
        send := fun email hsender hrecipients => status_sendEmail (hsender ▸ hget) hrecipients
        get := eval_getMailbox_iff.mpr hget
        patch := status_patchMailbox hget
        delete := status_deleteMailbox hget
        messages := fun query => ?_
        inbox := fun query => status_listMessages hlower _ _ _
        sent := fun query => status_listMessages hlower _ _ _ }
    unfold listMailboxMessages
    split
    · exact status_listMessages hlower _ _ _
    · exact status_listMessages hlower _ _ _

/-- A mail library that takes addresses as they are and has no message to send. -/
def plainLettre : Lettre :=
  ⟨fun address => .ok ⟨none, address⟩, .ok, fun _ => .error "missing body"⟩

/-- The database after a mailbox was created. -/
def userDb : Db := ((createMailbox (some ⟨"user@x.io", none, none⟩)).eval ⟨.empty, []⟩).2.db

theorem userDb_rows : userDb.mailboxes.rows = [⟨"user@x.io", "x.io", none⟩] := by decide +kernel

/-- The mailbox was stored for the address as it was given. -/
theorem storedFor_user : StoredFor "user@x.io" ⟨"user@x.io", "x.io", none⟩ :=
  @StoredFor.create _ _ ⟨"user@x.io", none, none⟩ ⟨"user@x.io", "x.io", none⟩ rfl (by rfl) rfl

/-- The stored spelling is found everywhere. -/
theorem foundEverywhere_user :
    FoundEverywhere (fun _ => none) plainLettre userDb "user@x.io" ⟨"user@x.io", "x.io", none⟩ :=
  (foundEverywhere_iff storedFor_user (userDb_rows ▸ List.mem_singleton_self _) "user@x.io"
    (by decide)).mpr ⟨rfl, by decide +kernel⟩

/-- With a capital letter it is not: the handlers do not know the mailbox, while a `RCPT TO` for it
is accepted. -/
theorem not_foundEverywhere_user : eqIgnoreAsciiCase "User@x.io" "user@x.io" = true ∧
    ((getMailbox "User@x.io").eval ⟨userDb, []⟩).1.status = 404 ∧
    ((newHandler.handleRcpt "<User@x.io>").eval ⟨userDb, []⟩).1.1 = .ok () ∧
    ¬ FoundEverywhere (fun _ => none) plainLettre userDb "User@x.io"
      ⟨"user@x.io", "x.io", none⟩ := by
  refine ⟨by decide, by decide +kernel, eval_handleRcpt_iff.mpr (by decide +kernel), fun h => ?_⟩
  have hget := eval_getMailbox_iff.mp h.get
  exact absurd (Table.key_of_get? hget) (by decide)

/-! ## Domains -/

variable {domainId : String}

/-- A domain whose creation was answered with 200 is stored as it was given, without the white space
around it. -/
theorem stored_of_createDomain {world : World} {body : NewDomain}
    (h : ((createDomain (some body)).eval world).1.status = 200) : trim body.id ≠ "" ∧
      (((createDomain (some body)).eval world).2.db.domains.get? (trim body.id)).isSome := by
  simp only [createDomain] at h ⊢
  by_cases hempty : (trim body.id).isEmpty = true
  · rw [if_pos hempty] at h
    exact absurd h (by simp [Prog.eval, Response.problem])
  · refine ⟨by simpa using hempty, ?_⟩
    rw [if_neg hempty] at h ⊢
    rw [Prog.eval_sql_bind] at h ⊢
    rcases Statement.execute_getDomain (trim body.id) world.faults.head?.join world.db with
      ⟨domain, hstored, hget⟩ | ⟨_, hget⟩
    · rw [hget]
      exact Option.isSome_of_eq_some hstored
    · rw [hget] at h ⊢
      dsimp only [insertDomain] at h ⊢
      rw [Prog.eval_sql_bind] at h ⊢
      rcases Statement.execute_cases (.createDomain (trim body.id)) world.faults.tail.head?.join
        world.db with ⟨e, hcreate⟩ | ⟨domain, after, hrun, hcreate⟩
      · rw [hcreate] at h ⊢
        dsimp only at h ⊢
        rw [Prog.eval_sql_bind] at h ⊢
        rcases Statement.execute_getDomain (trim body.id) world.faults.tail.tail.head?.join
          world.db with ⟨domain, hstored, hagain⟩ | ⟨_, hagain⟩
        · rw [hagain]
          exact Option.isSome_of_eq_some hstored
        · rw [hagain] at h
          exact absurd h (by simp [Prog.eval, Response.failed, Response.problem])
      · rw [hcreate]
        exact Statement.get?_of_createDomain hrun

/-- The mailbox of an address with this domain. -/
theorem newMailbox_at (hnonempty : trim domainId ≠ "") (hat : '@' ∉ domainId.toList)
    (forwardTo : Option String) :
    newMailbox ⟨"x@" ++ trim domainId, none, forwardTo⟩ =
      .ok ⟨"x@" ++ toLowercase (trim domainId), toLowercase (trim domainId), forwardTo⟩ := by
  have hlist : ∀ s : String, "x@" ++ s = String.ofList (['x'] ++ '@' :: s.toList) := by
    intro s
    apply String.toList_injective
    simp
  have htrim : trim ("x@" ++ trim domainId) = "x@" ++ trim domainId := by
    rw [hlist]
    exact @Text.trimMatches_cons_trimMatches _ 'x' ['@'] _ (by decide +kernel) hnonempty
  have hlower : toLowercase ("x@" ++ trim domainId) = "x@" ++ toLowercase (trim domainId) := by
    rw [hlist, hlist, toLowercase, String.toList_ofList, Text.lowerFrom_at]
    simp only [toLowercase, String.toList_ofList]
    rfl
  have hnot : '@' ∉ (toLowercase (trim domainId)).toList := by
    intro hmem
    rw [toLowercase, String.toList_ofList] at hmem
    exact hat (Text.mem_of_mem_trimMatches (Text.at_mem_of_lowerFrom hmem))
  have hsplit : (Text.split '@' ("x@" ++ toLowercase (trim domainId)))[1]? =
      some (toLowercase (trim domainId)) := by
    rw [hlist, Text.split_append_cons (by decide) hnot]
    simp
  have htry : Mailbox.tryFrom ("x@" ++ toLowercase (trim domainId)) =
      .ok ⟨"x@" ++ toLowercase (trim domainId), toLowercase (trim domainId), none⟩ := by
    rw [Mailbox.tryFrom, hsplit]
    simp [Text.toLowercase_ne_empty hnonempty]
  simp [newMailbox, htrim, hlower, htry, overrideDomain]

/-- A record that meets one of the same type and value is confirmed or refused as a conflict. -/
theorem status_recordResolve {rows : List Record} {recordType : RecordType} {value : String}
    {ttl : Nat} {response : Response}
    (h : recordResolve rows recordType value ttl = some response) : response.status ≠ 400 := by
  unfold recordResolve at h
  split at h
  · cases h
  · split at h
    · cases h
      simp [Response.ok]
    · cases h
      simp [Response.problem]

theorem status_insertRecord (record : RecordDTO) (world : World) :
    ((insertRecord record).eval world).1.status ≠ 400 := by
  rw [insertRecord, Prog.eval_sql_bind]
  split
  · simp [Prog.eval, Response.ok]
  · rw [Prog.eval_sql_bind]
    split
    · simp [Prog.eval, Response.failed, Response.problem]
    · rename_i rows _
      cases hresolve : recordResolve rows record.recordType record.value record.ttl with
      | none => simp [Prog.eval, Response.failed, Response.problem]
      | some response => simpa [Prog.eval] using status_recordResolve hresolve

/-- The fields of a record with a value are valid exactly when its domain is stored. -/
theorem eval_validateRecordFields {value : String} (db : Db) (domainId : String)
    (hvalue : (trim value).isEmpty = false) :
    (validateRecordFields domainId value).eval ⟨db, []⟩ =
      (if (db.domains.get? domainId).isSome then .ok ()
        else .error (.badRequest ("domain '" ++ domainId ++ "' is not provisioned")),
        ⟨db, []⟩) := by
  rw [validateRecordFields, if_neg (by simp [hvalue]), Prog.eval_sql_bind]
  cases h : db.domains.get? domainId with
  | none =>
      simp only [List.head?_nil, Option.join_none, Statement.execute, Statement.run, h,
        Statement.found]
      rfl
  | some domain =>
      simp only [List.head?_nil, Option.join_none, Statement.execute, Statement.run, h,
        Statement.found]
      rfl

/-- A record of a valid type with a value is refused exactly when its domain is not stored in lower
case. -/
theorem status_createRecord_iff {body : NewRecord} {recordType : RecordType}
    (htype : parseRecordType (trim body.recordType) = .ok recordType)
    (hvalue : trim body.value ≠ "") :
    ((createRecord (some body)).eval ⟨db, []⟩).1.status ≠ 400 ↔
      (db.domains.get? (toLowercase (trim body.domainId))).isSome := by
  have hnonempty : (trim (trim body.value)).isEmpty = false := by
    obtain ⟨c, hmem, hc⟩ := Text.trimMatches_ne_empty_iff.mp hvalue
    have htrim : trim (trim body.value) ≠ "" :=
      Text.trimMatches_ne_empty_iff.mpr ⟨c, Text.mem_trimMatches hmem hc, hc⟩
    simpa using htrim
  simp only [createRecord, htype]
  rw [Prog.eval_bind, eval_validateRecordFields db _ hnonempty]
  cases hdomain : (db.domains.get? (toLowercase (trim body.domainId))).isSome with
  | false => simp [Prog.eval, Response.problem, statusOf, ApiProblem.badRequest]
  | true =>
      simp only [if_true, ne_eq, iff_true]
      rw [Prog.eval_sql_bind]
      split
      · simp [Prog.eval, Response.failed, Response.problem]
      · split
        · rename_i response hresolve
          exact status_recordResolve hresolve
        · exact status_insertRecord _ _

/-- What a domain that was created as `domainId` is for: a record of a valid type with a value can
be created for it, and a mailbox of it belongs to the stored domain, so that it goes when the domain
is deleted. -/
structure Usable (db : Db) (domainId : String) : Prop where
  record : ∀ (body : NewRecord) (recordType : RecordType), body.domainId = domainId →
    parseRecordType (trim body.recordType) = .ok recordType → trim body.value ≠ "" →
    ((createRecord (some body)).eval ⟨db, []⟩).1.status ≠ 400
  mailbox : '@' ∉ domainId.toList → ∀ forwardTo, ∃ created,
    newMailbox ⟨"x@" ++ trim domainId, none, forwardTo⟩ = .ok created ∧
    created.domainId = trim domainId ∧
    ∀ later : Db, (later.domains.get? (trim domainId)).isSome →
      created ∉ (later.removeDomain (trim domainId)).mailboxes.rows

/-- Deleting a domain deletes the mailboxes that belong to it. -/
theorem not_mem_removeDomain {later : Db} {mailbox : Mailbox}
    (h : (later.domains.get? mailbox.domainId).isSome) :
    mailbox ∉ (later.removeDomain mailbox.domainId).mailboxes.rows := by
  obtain ⟨domain, hdomain⟩ := Option.isSome_iff_exists.mp h
  intro hmem
  rw [Db.removeDomain, hdomain] at hmem
  simpa using List.of_mem_filter hmem

/-- A domain whose creation succeeded is usable exactly when it was given in lower case, or it
contains an `@` and the domain in lower case is stored, too. -/
theorem domain_usable_iff {world : World} {body : NewDomain}
    (hcreated : ((createDomain (some body)).eval world).1.status = 200) :
    Usable ((createDomain (some body)).eval world).2.db body.id ↔
      toLowercase (trim body.id) = trim body.id ∨ '@' ∈ body.id.toList ∧
        (((createDomain (some body)).eval world).2.db.domains.get?
          (toLowercase (trim body.id))).isSome := by
  obtain ⟨hnonempty, hstored⟩ := stored_of_createDomain hcreated
  constructor
  · intro h
    by_cases hat : '@' ∈ body.id.toList
    · have htype : parseRecordType (trim "A") = .ok .A := by decide +kernel
      have hvalue : trim "v" ≠ "" := by decide +kernel
      have hrecord := h.record ⟨body.id, "A", "v", 0⟩ .A rfl htype hvalue
      have hstored :=
        (@status_createRecord_iff _ ⟨body.id, "A", "v", 0⟩ .A htype hvalue).mp hrecord
      exact .inr ⟨hat, hstored⟩
    · obtain ⟨created, hbody, hdomain, -⟩ := h.mailbox hat none
      rw [newMailbox_at hnonempty hat] at hbody
      cases hbody
      exact .inl hdomain
  · intro hcondition
    refine ⟨?_, ?_⟩
    · rintro record recordType hdomain htype hvalue
      rw [status_createRecord_iff htype hvalue, hdomain]
      rcases hcondition with hlower | ⟨-, hlower⟩
      · rw [hlower]
        exact hstored
      · exact hlower
    · intro hat forwardTo
      rcases hcondition with hlower | ⟨hmem, -⟩
      · refine ⟨_, newMailbox_at hnonempty hat forwardTo, hlower, fun later hlater => ?_⟩
        have hgone := @not_mem_removeDomain later
          ⟨"x@" ++ toLowercase (trim body.id), toLowercase (trim body.id), forwardTo⟩
        rw [hlower] at hgone ⊢
        exact hgone hlater
      · exact absurd hmem hat

/-- A domain given in lower case is usable. -/
theorem usable_lower :
    Usable ((createDomain (some ⟨"x.io"⟩)).eval ⟨.empty, []⟩).2.db "x.io" :=
  (@domain_usable_iff ⟨.empty, []⟩ ⟨"x.io"⟩ (by decide +kernel)).mpr
    (.inl (by decide +kernel))

/-- The database after a domain was created with a capital letter. -/
def capitalDb : Db := ((createDomain (some ⟨"X.io"⟩)).eval ⟨.empty, []⟩).2.db

/-- The creation is answered with 200, and a record for the domain with 400. -/
theorem not_usable_capital :
    ((createDomain (some ⟨"X.io"⟩)).eval ⟨.empty, []⟩).1.status = 200 ∧
    ((createRecord (some ⟨"X.io", "A", "192.0.2.1", 300⟩)).eval ⟨capitalDb, []⟩).1.status = 400 ∧
    ¬ Usable capitalDb "X.io" := by
  have hrefused : ((createRecord (some ⟨"X.io", "A", "192.0.2.1", 300⟩)).eval
    ⟨capitalDb, []⟩).1.status = 400 := by decide +kernel
  refine ⟨by decide +kernel, hrefused, fun h => ?_⟩
  exact h.record ⟨"X.io", "A", "192.0.2.1", 300⟩ .A rfl (by decide +kernel) (by decide +kernel)
    hrefused

end Zonemail.Api
