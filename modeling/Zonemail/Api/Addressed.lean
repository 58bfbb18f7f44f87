import Zonemail.Api.Handlers
import Zonemail.Seed

/-!
# What requests and seeding write

`UsualEffect` says which mailboxes and which jobs a request or seeding creates: the mailboxes that a
body or an entry of the configuration asks for, and new jobs. Every such mailbox went through
`Mailbox::try_from`, so its id contains an `@`. As no statement changes the id of a stored mailbox,
all of them do, and the lookup of a name without one finds nothing.
-/

namespace Zonemail

open Library

/-- A mailbox is created only as a body or one of these entries asks for it, and a job only as a new
one. -/
def UsualEffect (entries : List MailboxEntry) : Effect → Prop
  | .sql (.createMailbox mailbox) =>
      (∃ body, Api.newMailbox body = .ok mailbox) ∨ ∃ entry ∈ entries, entry.mailbox = some mailbox
  | .sql (.createOutbound job) =>
      ∃ messageId senderId rcptTo, job = newJob messageId senderId rcptTo
  | _ => True

/-- A mailbox is created only under an address. -/
def AddressedEffect : Effect → Prop
  | .sql (.createMailbox mailbox) => '@' ∈ mailbox.id.toList
  | _ => True

/-- What sending and forwarding a message send to the database. -/
def SendingEffect : Effect → Prop
  | .sql (.getMailbox _) | .sql (.createMessage _) => True
  | .sql (.createOutbound job) =>
      ∃ messageId senderId rcptTo, job = newJob messageId senderId rcptTo
  | _ => False

theorem SendingEffect.usual {effect : Effect} (h : SendingEffect effect) :
    UsualEffect [] effect := by
  unfold UsualEffect
  split
  · exact h.elim
  · exact h
  · trivial

/-- A program that begins with a statement performs it and what follows. -/
theorem performs_sql {α : Type} {allowed : Effect → Prop} {statement : Statement}
    {next : Except DbError statement.Value → Prog α} (h : allowed (.sql statement))
    (hnext : ∀ answer, (next answer).Performs allowed) :
    (sql statement >>= next : Prog α).Performs allowed := .perform h hnext

namespace Api

/-- An explicit owning domain is the one of the mailbox, so it changes nothing. -/
theorem eq_of_overrideDomain {mailbox overridden : Mailbox} {domainId : Option String}
    (h : overrideDomain mailbox domainId = .ok overridden) : overridden = mailbox := by
  cases domainId with
  | none =>
      cases h
      rfl
  | some domainId =>
      simp only [overrideDomain] at h
      split at h
      · cases h
      · rename_i hdomain
        cases h
        rw [not_not.mp hdomain]

/-- An owning domain that is not the one of the mailbox is answered with 400. -/
theorem status_of_overrideDomain {mailbox : Mailbox} {domainId : Option String}
    {response : Response} (h : overrideDomain mailbox domainId = .error response) :
    response.status = 400 := by
  cases domainId with
  | none => cases h
  | some domainId =>
      simp only [overrideDomain] at h
      split at h
      · cases h
        rfl
      · cases h

/-- The mailbox of a body is that of the trimmed address in lower case. -/
theorem of_newMailbox {body : NewMailbox} {mailbox : Mailbox} (h : newMailbox body = .ok mailbox) :
    mailbox.id = Text.toLowercase (Text.trim body.id) ∧
      (Text.split '@' mailbox.id)[1]? = some mailbox.domainId ∧ mailbox.domainId ≠ "" := by
  simp only [newMailbox] at h
  split at h
  · cases h
  · split at h
    · cases h
    · rename_i parsed hparsed
      split at h
      · cases h
      · rename_i overridden hoverride
        obtain rfl := eq_of_overrideDomain hoverride
        cases h
        obtain ⟨hid, hsplit, hnonempty⟩ := Mailbox.of_tryFrom hparsed
        exact ⟨hid, hid ▸ hsplit, hnonempty⟩

/-- The mailbox of a body has an address. -/
theorem at_mem_of_newMailbox {body : NewMailbox} {mailbox : Mailbox}
    (h : newMailbox body = .ok mailbox) : '@' ∈ mailbox.id.toList :=
  Text.at_mem_of_split (of_newMailbox h).2.1

theorem createMailbox_usual (body : Option NewMailbox) :
    (createMailbox body).Performs (UsualEffect []) := by
  cases body with
  | none => exact .done
  | some body =>
      simp only [createMailbox]
      split
      · exact .done
      · rename_i mailbox hmailbox
        refine performs_sql trivial (fun answer => ?_)
        split
        · exact .done
        · refine performs_sql (.inl ⟨body, hmailbox⟩) (fun answer => ?_)
          split
          · exact .done
          · refine performs_sql trivial (fun answer => ?_)
            split <;> exact .done

theorem enqueueRest_performs (messageId : Nat) (sender : String) (recipients : List String)
    (outboundIds : List Nat) :
    (enqueueRest messageId sender outboundIds recipients).Performs SendingEffect := by
  induction recipients generalizing outboundIds with
  | nil => exact .done
  | cons recipient rest ih =>
      rw [enqueueRest, enqueueForward]
      refine Program.performs_bind (performs_sql ⟨_, _, _, rfl⟩ (fun answer => ?_))
        (fun result => ?_)
      · split <;> exact .done
      · split
        · exact .done
        · exact ih _

theorem sendEmail_performs (parse : MessageParser) (lettre : Lettre) (body : Option SendEmail) :
    (sendEmail parse lettre body).Performs SendingEffect := by
  cases body with
  | none => exact .done
  | some email =>
      simp only [sendEmail]
      split
      · exact .done
      · refine performs_sql trivial (fun answer => ?_)
        split
        · exact .done
        · split
          · exact .done
          · rw [enqueueOutbound]
            refine Program.performs_bind (performs_sql trivial (fun answer => ?_))
              (fun result => ?_)
            · split
              · exact .done
              · refine performs_sql ⟨_, _, _, rfl⟩ (fun answer => ?_)
                split <;> exact .done
            · split
              · exact .done
              · exact enqueueRest_performs _ _ _ _

theorem patchMailbox_usual (mailboxId : String) (body : Option PatchMailbox) :
    (patchMailbox mailboxId body).Performs (UsualEffect []) := by
  cases body with
  | none => exact .done
  | some body =>
      refine performs_sql trivial (fun answer => ?_)
      split
      · exact .done
      · split
        · exact .done
        · refine performs_sql trivial (fun answer => ?_)
          split
          · exact .done
          · refine performs_sql trivial (fun answer => ?_)
            split <;> exact .done

theorem validateRecordFields_usual (domainId value : String) :
    (validateRecordFields domainId value).Performs (UsualEffect []) := by
  rw [validateRecordFields]
  split
  · exact .done
  · refine performs_sql trivial (fun answer => ?_)
    split <;> exact .done

theorem createRecord_usual (body : Option NewRecord) :
    (createRecord body).Performs (UsualEffect []) := by
  cases body with
  | none => exact .done
  | some body =>
      simp only [createRecord]
      split
      · exact .done
      · refine Program.performs_bind (validateRecordFields_usual _ _) (fun result => ?_)
        split
        · exact .done
        · refine performs_sql trivial (fun answer => ?_)
          split
          · exact .done
          · split
            · exact .done
            · refine performs_sql trivial (fun answer => ?_)
              split
              · exact .done
              · refine performs_sql trivial (fun answer => ?_)
                split <;> exact .done

theorem patchRecord_usual (recordId : Option Nat) (body : Option PatchRecord) :
    (patchRecord recordId body).Performs (UsualEffect []) := by
  unfold patchRecord
  split
  · exact .done
  · exact .done
  · refine performs_sql trivial (fun answer => ?_)
    split
    · exact .done
    · split
      · exact .done
      · refine Program.performs_bind (validateRecordFields_usual _ _) (fun result => ?_)
        split
        · exact .done
        · refine performs_sql trivial (fun answer => ?_)
          split
          · exact .done
          · split
            · exact .done
            · refine performs_sql trivial (fun answer => ?_)
              split
              · exact .done
              · refine performs_sql trivial (fun answer => ?_)
                split <;> exact .done

theorem loadMessages_usual (directions : List (Nat × String)) (items : List MessageDTO)
    (ids : List Nat) : (loadMessages directions items ids).Performs (UsualEffect []) := by
  induction ids generalizing items with
  | nil => exact .done
  | cons id rest ih =>
      refine performs_sql trivial (fun answer => ?_)
      split
      · exact ih items
      · exact ih _

theorem listMessages_usual (mailboxId : String) (direction : Option MessageDirection)
    (limit offset : Nat) :
    (listMessages mailboxId direction limit offset).Performs (UsualEffect []) := by
  rw [listMessages]
  refine Program.performs_bind (performs_sql trivial (fun answer => ?_)) (fun result => ?_)
  · split <;> exact .done
  · split
    · exact .done
    · refine Program.performs_bind ?_ (fun result => ?_)
      · rw [loadMailboxMessages, inboundIds, outboundIds]
        refine Program.performs_bind ?_ (fun received => ?_)
        · split
          · refine performs_sql trivial (fun answer => ?_)
            split <;> exact .done
          · exact .done
        · split
          · exact .done
          · refine Program.performs_bind ?_ (fun sent => ?_)
            · split
              · refine performs_sql trivial (fun answer => ?_)
                split <;> exact .done
              · exact .done
            · split
              · exact .done
              · exact Program.performs_bind (loadMessages_usual _ _ _) (fun _ => .done)
      · split <;> exact .done

/-- A request creates only the mailboxes that bodies ask for, and new jobs. -/
theorem handle_usual (parse : MessageParser) (lettre : Lettre) (request : Request) :
    (request.handle parse lettre).Performs (UsualEffect []) := by
  cases request with
  | createMailbox body => exact createMailbox_usual body
  | patchMailbox mailboxId body => exact patchMailbox_usual mailboxId body
  | createRecord body => exact createRecord_usual body
  | patchRecord recordId body => exact patchRecord_usual recordId body
  | sendEmail body => exact (sendEmail_performs parse lettre body).mono (fun _ h => h.usual)
  | listMailboxMessages mailboxId query =>
      simp only [Request.handle, listMailboxMessages]
      split
      · exact listMessages_usual _ _ _ _
      · exact listMessages_usual _ _ _ _
  | listMailboxInbox mailboxId query | listMailboxSent mailboxId query =>
      exact listMessages_usual _ _ _ _
  | createDomain body =>
      cases body with
      | none => exact .done
      | some body =>
          simp only [Request.handle, createDomain]
          split
          · exact .done
          · refine performs_sql trivial (fun answer => ?_)
            split
            · exact .done
            · refine performs_sql trivial (fun answer => ?_)
              split
              · exact .done
              · refine performs_sql trivial (fun answer => ?_)
                split <;> exact .done
  | patchDomain domainId parsed =>
      simp only [Request.handle, patchDomain]
      split
      · refine performs_sql trivial (fun answer => ?_)
        split <;> exact .done
      · exact .done
  | getDomain domainId | getMailbox mailboxId =>
      refine performs_sql trivial (fun answer => ?_)
      split <;> exact .done
  | deleteDomain domainId | deleteMailbox mailboxId =>
      refine performs_sql trivial (fun answer => ?_)
      split
      · exact .done
      · refine performs_sql trivial (fun answer => ?_)
        split <;> exact .done
  | getRecord recordId =>
      cases recordId with
      | none => exact .done
      | some recordId =>
          refine performs_sql trivial (fun answer => ?_)
          split <;> exact .done
  | deleteRecord recordId =>
      cases recordId with
      | none => exact .done
      | some recordId =>
          refine performs_sql trivial (fun answer => ?_)
          split
          · exact .done
          · refine performs_sql trivial (fun answer => ?_)
            split <;> exact .done
  | deleteMessage messageId =>
      refine performs_sql trivial (fun answer => ?_)
      split
      · exact .done
      · refine performs_sql trivial (fun answer => ?_)
        split
        · exact .done
        · refine performs_sql trivial (fun answer => ?_)
          split
          · exact .done
          · refine performs_sql trivial (fun answer => ?_)
            split <;> exact .done

end Api

/-! ## Seeding -/

/-- The mailbox of a configuration entry has an address. -/
theorem MailboxEntry.at_mem_of_mailbox {entry : MailboxEntry} {mailbox : Mailbox}
    (h : entry.mailbox = some mailbox) : '@' ∈ mailbox.id.toList := by
  unfold MailboxEntry.mailbox at h
  split at h
  · cases h
  · rename_i parsed hparsed
    cases h
    obtain ⟨hid, hat⟩ := Mailbox.at_mem_of_tryFrom hparsed
    exact Text.at_mem_toLowercase (hid ▸ hat)

theorem seedDomains_usual (domains : List String) (entries : List MailboxEntry) :
    (seedDomains domains).Performs (UsualEffect entries) := by
  induction domains with
  | nil => exact .done
  | cons id rest ih =>
      refine performs_sql trivial (fun answer => ?_)
      split
      · exact ih
      · refine performs_sql trivial (fun answer => ?_)
        split
        · exact .done
        · exact ih

theorem seedMailboxes_usual {entries rest : List MailboxEntry} (h : rest ⊆ entries) :
    (seedMailboxes rest).Performs (UsualEffect entries) := by
  induction rest with
  | nil => exact .done
  | cons entry rest ih =>
      obtain ⟨hfirst, hrest⟩ := List.cons_subset.mp h
      rw [seedMailboxes]
      split
      · exact ih hrest
      · rename_i mailbox hmailbox
        refine performs_sql trivial (fun answer => ?_)
        split
        · exact ih hrest
        · refine performs_sql (.inr ⟨entry, hfirst, hmailbox⟩) (fun answer => ?_)
          split
          · exact .done
          · exact ih hrest

theorem seedRecords_usual (records : List RecordDTO) (entries : List MailboxEntry) :
    (seedRecords records).Performs (UsualEffect entries) := by
  induction records with
  | nil => exact .done
  | cons record rest ih =>
      refine performs_sql trivial (fun answer => ?_)
      split
      · exact .done
      · exact ih

/-- Seeding creates only the mailboxes of the configuration, and no jobs. -/
theorem seedFromConfig_usual (config : Config) :
    (seedFromConfig config).Performs (UsualEffect config.mailboxes) := by
  rw [seedFromConfig]
  refine Program.performs_bind (seedDomains_usual config.domains _) (fun result => ?_)
  split
  · exact .done
  · refine Program.performs_bind (seedMailboxes_usual (List.Subset.refl _)) (fun result => ?_)
    split
    · exact .done
    · exact seedRecords_usual config.records _

/-- Every mailbox created has an address. -/
theorem UsualEffect.addressed {entries : List MailboxEntry} {effect : Effect}
    (h : UsualEffect entries effect) : AddressedEffect effect := by
  unfold AddressedEffect
  split
  · rcases h with ⟨body, hbody⟩ | ⟨entry, -, hentry⟩
    · exact Api.at_mem_of_newMailbox hbody
    · exact MailboxEntry.at_mem_of_mailbox hentry
  · trivial

/-! ## The stored mailboxes -/

/-- Every stored mailbox has an address. -/
def Db.Addressed (db : Db) : Prop := ∀ id, (db.mailboxes.get? id).isSome → '@' ∈ id.toList

theorem Db.addressed_empty : Db.empty.Addressed := fun id h => by simp [Db.empty] at h

/-- A mailbox stored after a statement was stored before it, or the statement created it, or it
wrote the owning domain and the forward target of a stored one. -/
theorem Statement.Change.mailbox {statement : Statement} {db after : Db}
    (h : Change db statement after) {row : Mailbox} (hrow : row ∈ after.mailboxes.rows) :
    row ∈ db.mailboxes.rows ∨ statement = .createMailbox row ∨
      ∃ old ∈ db.mailboxes.rows, old.id = row.id ∧
        statement = .updateMailbox row.id row.domainId row.forwardTo := by
  cases h with
  | createMailbox hinsert =>
      rw [Table.rows_of_insert? hinsert, List.mem_append, List.mem_singleton] at hrow
      rcases hrow with hrow | rfl
      · exact .inl hrow
      · exact .inr (.inl rfl)
  | @updateMailbox id domainId forwardTo =>
      obtain ⟨old, hold, rfl⟩ := List.mem_map.mp hrow
      by_cases hid : old.id = id
      · subst id
        rw [if_pos rfl]
        exact .inr (.inr ⟨old, hold, rfl, rfl⟩)
      · rw [if_neg hid]
        exact .inl hold
  | deleteMailbox => exact .inl (List.mem_of_mem_filter hrow)
  | deleteDomain =>
      unfold Db.removeDomain at hrow
      split at hrow
      · exact .inl hrow
      · exact .inl (List.mem_of_mem_filter hrow)
  | _ => exact .inl hrow

/-- An effect that creates a mailbox only under an address keeps the stored mailboxes addressed. -/
theorem Db.Addressed.execute {db : Db} {effect : Effect} (h : db.Addressed)
    (heffect : AddressedEffect effect) (fault : Statement.Fault) :
    (effect.execute fault db).2.Addressed := by
  cases effect with
  | reply command accepted => exact h
  | sql statement =>
      rcases statement.change_of_execute fault db with hsame | hchange
      · rw [Effect.execute, hsame]
        exact h
      · intro id hid
        obtain ⟨row, hget⟩ := Option.isSome_iff_exists.mp hid
        obtain rfl := Table.key_of_get? hget
        rcases hchange.mailbox (Table.mem_of_get? hget) with hold | rfl | ⟨old, hold, hsame, -⟩
        · exact h row.id (Option.isSome_of_eq_some (Table.get?_of_mem hold))
        · exact heffect
        · exact h row.id (hsame ▸ Option.isSome_of_eq_some (Table.get?_of_mem hold))

end Zonemail
