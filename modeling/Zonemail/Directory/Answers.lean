import Zonemail.Directory.Refinement

/-!
# What responses tell of the directory

A handler sends several statements, and other programs run between them. Its response is therefore
not that of one atomic operation; but it is not made up either. `Request.Tells` says what each
response claims of the directory, and `told_of_run` that this was the case at one of the request's
own statements, right before or right after it, whatever happened to the database in between. A
response other than a success may also come from a statement at which the database failed, and a
request that is refused on its face has sent none.
-/

namespace Zonemail

open Library

namespace Api

/-! ## What a response claims -/

/-- The response shows the domain, or says that there is none. -/
def TellsDomain (directory : Directory) (domainId : String) (response : Response) : Prop :=
  (domainId ∈ directory.domains ∧ response = .ok (.domain ⟨domainId⟩)) ∨
    (domainId ∉ directory.domains ∧ response = domainNotFound domainId)

/-- The response shows the mailbox, or says that there is none. -/
def TellsMailbox (directory : Directory) (mailboxId : String) (response : Response) : Prop :=
  (∃ mailbox, directory.mailboxes mailboxId = some mailbox ∧ response = .ok (.mailbox mailbox)) ∨
    (directory.mailboxes mailboxId = none ∧ response = mailboxNotFound mailboxId)

/-- The response shows the record, or says that there is none. -/
def TellsRecord (directory : Directory) (recordId : Nat) (response : Response) : Prop :=
  (∃ record, directory.records recordId = some record ∧
      response = .ok (.record (.ofRecord ⟨record, recordId⟩))) ∨
    (directory.records recordId = none ∧ response = recordNotFound (some recordId))

/-- The response says that the domain is not there, of a record that is to stand under it. -/
def TellsUnprovisioned (directory : Directory) (domainId : String) (response : Response) : Prop :=
  domainId ∉ directory.domains ∧
    response = .problem 400 (.badRequest ("domain '" ++ domainId ++ "' is not provisioned"))

/-- The response is that of meeting this record in the directory: it confirms an equal one, and
refuses one that differs in its `ttl`. -/
def TellsResolved (directory : Directory) (wanted : RecordDTO) (response : Response) : Prop :=
  ∃ number record, directory.records number = some record ∧
    recordResolve [⟨record, number⟩] wanted.recordType wanted.value wanted.ttl = some response ∧
    record.domainId = wanted.domainId

/-- The response is to a patch of a record that was read in the directory, and refuses it. -/
def TellsUnpatched (directory : Directory) (recordId : Nat) (body : PatchRecord)
    (response : Response) : Prop :=
  ∃ stored, directory.records recordId = some stored ∧
    ((∃ problem, patchedRecord ⟨stored, recordId⟩ body = .error problem ∧
        response = .problem 400 problem) ∨
      ∃ patched, patchedRecord ⟨stored, recordId⟩ body = .ok patched ∧
        (Text.trim patched.value).isEmpty ∧
        response = .problem 400 (.badRequest "value must not be empty"))

/-- The response is to a patch that would make a record equal to another one of the directory. -/
def TellsTaken (directory : Directory) (recordId : Nat) (body : PatchRecord)
    (response : Response) : Prop :=
  ∃ stored patched other record, patchedRecord stored body = .ok patched ∧ other ≠ recordId ∧
    directory.records other = some record ∧ record.triple = patched.triple ∧
    response = .problem 409
      (.conflict "a record with the same domain, type, and value already exists")

/-- What a response to a request tells of the directory. A send and the lists only tell whether a
mailbox is there. -/
def Request.Tells (directory : Directory) (request : Request) (response : Response) : Prop :=
  match request with
  | .createDomain (some body) =>
      Text.trim body.id ∈ directory.domains ∧ response = .ok (.domain ⟨Text.trim body.id⟩)
  | .getDomain domainId | .patchDomain domainId _ => TellsDomain directory domainId response
  | .deleteDomain domainId => domainId ∉ directory.domains ∧
      (response = .ok .unit ∨ response = domainNotFound domainId)
  | .createMailbox (some body) => ∃ wanted stored, newMailbox body = .ok wanted ∧
      directory.mailboxes wanted.id = some stored ∧ response = mailboxResolve stored wanted
  | .getMailbox mailboxId => TellsMailbox directory mailboxId response
  | .patchMailbox mailboxId (some body) => TellsMailbox directory mailboxId response ∨
      ∃ stored, directory.mailboxes mailboxId = some stored ∧
        overrideDomain stored body.domainId = .error response
  | .deleteMailbox mailboxId => directory.mailboxes mailboxId = none ∧
      (response = .ok .unit ∨ response = mailboxNotFound mailboxId)
  | .createRecord (some body) =>
      TellsUnprovisioned directory (Text.toLowercase (Text.trim body.domainId)) response ∨
        ∃ recordType, parseRecordType (Text.trim body.recordType) = .ok recordType ∧
          TellsResolved directory ⟨Text.toLowercase (Text.trim body.domainId), recordType,
            Text.trim body.value, body.ttl⟩ response
  | .getRecord (some recordId) => TellsRecord directory recordId response
  | .patchRecord (some recordId) (some body) => TellsRecord directory recordId response ∨
      TellsUnpatched directory recordId body response ∨
      (∃ domainId, TellsUnprovisioned directory domainId response) ∨
      TellsTaken directory recordId body response
  | .deleteRecord (some recordId) => directory.records recordId = none ∧
      (response = .ok .unit ∨ response = recordNotFound (some recordId))
  | .sendEmail (some email) => response.status = 409 → directory.mailboxes email.sender = none
  | .listMailboxMessages mailboxId _ | .listMailboxInbox mailboxId _
  | .listMailboxSent mailboxId _ =>
      response.status = 404 → directory.mailboxes (Text.toLowercase mailboxId) = none
  | _ => True

/-! ## One request -/

/-- The database failed at the effect. -/
def Failed : (Σ effect, Answer effect) → Prop
  | ⟨.sql _, .error (.failure _)⟩ => True
  | _ => False

/-- Wherever the effect is answered like this, the claim is true right before or right after it. -/
def Shows (claim : Directory → Prop) (event : Σ effect, Answer effect) : Prop :=
  ∀ fault db, (event.1.execute fault db).1 = event.2 →
    claim db.directory ∨ claim (event.1.execute fault db).2.directory

/-- One of the effects shows the claim, or the response is no success and the database failed at one
of them. -/
def Told (history : EffectHistory) (response : Response) (claim : Directory → Prop) : Prop :=
  (response.status ≠ 200 ∧ ∃ event ∈ history, Failed event) ∨ ∃ event ∈ history, Shows claim event

section Rules

variable {history : EffectHistory} {response : Response} {claim weaker : Directory → Prop}

/-- An effect at which the database did not fail was answered without a fault. -/
theorem shows_of_unfailed {event : Σ effect, Answer effect} (hfailed : ¬ Failed event)
    (h : ∀ db, (event.1.execute none db).1 = event.2 →
      claim db.directory ∨ claim (event.1.execute none db).2.directory) : Shows claim event := by
  intro fault db hanswer
  obtain ⟨effect, answer⟩ := event
  cases effect with
  | reply command accepted => exact h db rfl
  | sql statement =>
      cases fault with
      | none => exact h db hanswer
      | some text =>
          cases hanswer
          exact absurd trivial hfailed

/-- A response is told by an effect that shows its claim unless the database failed there. -/
theorem told_of_event {effect : Effect} {answer : Answer effect}
    (hmem : ⟨effect, answer⟩ ∈ history)
    (hok : response.status = 200 → ¬ Failed ⟨effect, answer⟩)
    (h : ∀ db, (effect.execute none db).1 = answer →
      ¬ Failed ⟨effect, answer⟩ →
      claim db.directory ∨ claim (effect.execute none db).2.directory) :
    Told history response claim := by
  by_cases hfailed : Failed ⟨effect, answer⟩
  · exact .inl ⟨fun hstatus => hok hstatus hfailed, _, hmem, hfailed⟩
  · exact .inr ⟨_, hmem, shows_of_unfailed hfailed (fun db hanswer => h db hanswer hfailed)⟩

theorem Told.mono (h : Told history response claim)
    (hweaker : ∀ directory, claim directory → weaker directory) :
    Told history response weaker := by
  rcases h with hfailed | ⟨event, hmem, hshows⟩
  · exact .inl hfailed
  · exact .inr ⟨event, hmem, fun fault db hanswer =>
      (hshows fault db hanswer).imp (hweaker _) (hweaker _)⟩

theorem Told.append_left (h : Told history response claim) (earlier : EffectHistory) :
    Told (earlier ++ history) response claim := by
  rcases h with ⟨hstatus, event, hmem, hfailed⟩ | ⟨event, hmem, hshows⟩
  · exact .inl ⟨hstatus, event, List.mem_append_right _ hmem, hfailed⟩
  · exact .inr ⟨event, List.mem_append_right _ hmem, hshows⟩

theorem Told.cons (h : Told history response claim) (event : Σ effect, Answer effect) :
    Told (event :: history) response claim := h.append_left [event]

end Rules

/-- A program that begins with a statement and ended went on with its answer. -/
theorem after_sql {α : Type} {statement : Statement}
    {next : Except DbError statement.Value → Prog α} {history : EffectHistory} {value : α}
    (h : Program.After (sql statement >>= next : Prog α) history (.done value)) :
    ∃ answer later, history = ⟨.sql statement, answer⟩ :: later ∧
      Program.After (next answer) later (.done value) := h.of_perform

/-! ## Lookups -/

section Lookups

variable {db : Db}

/-- A lookup that the database answers is answered from the directory. -/
theorem domain_of_answer {domainId : String} {answer : Except DbError Domain}
    (h : ((Statement.getDomain domainId).execute none db).1 = answer) :
    (answer = .ok ⟨domainId⟩ ∧ domainId ∈ db.directory.domains) ∨
      (answer = .error .notFound ∧ domainId ∉ db.directory.domains) := by
  subst h
  rw [Db.mem_directory_domains]
  simp only [Statement.execute, Statement.run]
  cases hrow : db.domains.get? domainId with
  | none => exact .inr ⟨rfl, by simp⟩
  | some domain =>
      obtain rfl := Table.key_of_get? hrow
      exact .inl ⟨rfl, rfl⟩

theorem mailbox_of_answer {mailboxId : String} {answer : Except DbError Mailbox}
    (h : ((Statement.getMailbox mailboxId).execute none db).1 = answer) :
    (∃ mailbox, answer = .ok mailbox ∧ db.directory.mailboxes mailboxId = some mailbox) ∨
      (answer = .error .notFound ∧ db.directory.mailboxes mailboxId = none) := by
  subst h
  rw [Db.directory_mailboxes]
  simp only [Statement.execute, Statement.run]
  cases hrow : db.mailboxes.get? mailboxId with
  | none => exact .inr ⟨rfl, rfl⟩
  | some mailbox => exact .inl ⟨mailbox, rfl, rfl⟩

theorem record_of_answer {recordId : Nat} {answer : Except DbError Record}
    (h : ((Statement.getRecord recordId).execute none db).1 = answer) :
    (∃ record, answer = .ok ⟨record, recordId⟩ ∧ db.directory.records recordId = some record) ∨
      (answer = .error .notFound ∧ db.directory.records recordId = none) := by
  subst h
  rw [Db.directory_records]
  simp only [Statement.execute, Statement.run]
  cases hrow : db.records.get? recordId with
  | none => exact .inr ⟨rfl, rfl⟩
  | some record =>
      obtain rfl := Table.key_of_get? hrow
      exact .inl ⟨record.toRecordDTO, rfl, rfl⟩

/-- The rows of a domain are records of the directory. -/
theorem records_of_answer {domainId : String} {rows : List Record}
    (h : ((Statement.recordsOfDomain domainId).execute none db).1 = .ok rows) {row : Record}
    (hrow : row ∈ rows) :
    db.directory.records row.id = some row.toRecordDTO ∧ row.domainId = domainId := by
  cases h
  obtain ⟨hmem, hdomain⟩ := List.mem_filter.mp hrow
  rw [Db.directory_records, Table.get?_of_mem hmem]
  exact ⟨rfl, by simpa using hdomain⟩

end Lookups

/-! ## Domains -/

section Handlers

variable {parse : MessageParser} {lettre : Lettre} {history : EffectHistory} {response : Response}

theorem told_getDomain {domainId : String}
    (h : Program.After (getDomain domainId) history (.done response)) :
    Told history response (fun directory => TellsDomain directory domainId response) := by
  cases h with
  | step answer h =>
      refine told_of_event (List.mem_cons_self ..) ?_ (fun db hanswer _ => .inl ?_)
      · intro hstatus hfailed
        cases answer with
        | ok domain => exact hfailed
        | error e =>
            cases h
            cases hstatus
      · rcases domain_of_answer hanswer with ⟨rfl, hknown⟩ | ⟨rfl, hunknown⟩
        · cases h
          exact .inl ⟨hknown, rfl⟩
        · cases h
          exact .inr ⟨hunknown, rfl⟩

/-- A domain that was deleted is not there. -/
theorem notMem_removeDomain (db : Db) (domainId : String) :
    domainId ∉ (db.removeDomain domainId).directory.domains := by
  rw [Db.mem_directory_domains]
  unfold Db.removeDomain
  split
  · rename_i hnone
    simp [hnone]
  · show ¬ ((db.domains.remove (fun domain => domain.id = domainId)).get? domainId).isSome
    rw [congrFun (Table.get?_remove_key db.domains domainId) domainId, Function.update_self]
    simp

theorem told_insertDomain {domainId : String}
    (h : Program.After (insertDomain domainId) history (.done response))
    (hstatus : response.status ≠ 500) :
    Told history response (fun directory => domainId ∈ directory.domains ∧
      response = .ok (.domain ⟨domainId⟩)) := by
  cases h with
  | step created h =>
      cases created with
      | ok domain =>
          refine told_of_event (List.mem_cons_self ..) (fun _ => id) (fun db hanswer _ => .inr ?_)
          cases h
          simp only [Effect.execute, Statement.execute, Statement.run] at hanswer ⊢
          cases hinsert : db.domains.insert? ⟨domainId⟩ with
          | none => simp [hinsert] at hanswer
          | some domains =>
              simp only [hinsert] at hanswer ⊢
              cases hanswer
              refine ⟨?_, rfl⟩
              show (domains.get? domainId).isSome
              rw [Table.get?_of_insert? hinsert, if_pos rfl]
              rfl
      | error e =>
          cases h with
          | step read h =>
              refine (told_of_event (List.mem_cons_self ..) ?_ (fun db hanswer _ => .inl ?_)).cons _
              · intro _ hfailed
                cases read with
                | ok domain => exact hfailed
                | error e =>
                    cases h
                    exact hstatus rfl
              · rcases domain_of_answer hanswer with ⟨rfl, hknown⟩ | ⟨rfl, -⟩
                · cases h
                  exact ⟨hknown, rfl⟩
                · cases h
                  exact absurd rfl hstatus

theorem told_createDomain {body : NewDomain}
    (h : Program.After (createDomain (some body)) history (.done response))
    (hstatus : response.status ≠ 500) :
    history = [] ∨ Told history response (fun directory =>
      Text.trim body.id ∈ directory.domains ∧ response = .ok (.domain ⟨Text.trim body.id⟩)) := by
  simp only [createDomain] at h
  split at h
  · exact .inl h.of_done.1
  · right
    obtain ⟨read, later, rfl, hrest⟩ := after_sql h
    split at hrest
    · refine told_of_event (List.mem_cons_self ..) (fun _ => id) (fun db hanswer _ => .inl ?_)
      rcases domain_of_answer hanswer with ⟨hdomain, hknown⟩ | ⟨herror, -⟩
      · cases hdomain
        cases hrest.of_done.2
        exact ⟨hknown, rfl⟩
      · cases herror
    · exact (told_insertDomain hrest hstatus).cons _

theorem told_deleteDomain {domainId : String}
    (h : Program.After (deleteDomain domainId) history (.done response))
    (hstatus : response.status ≠ 500) :
    Told history response (fun directory => domainId ∉ directory.domains ∧
      (response = .ok .unit ∨ response = domainNotFound domainId)) := by
  cases h with
  | step read h =>
      cases read with
      | error e =>
          cases h
          refine told_of_event (List.mem_cons_self ..) (fun hok => by cases hok)
            (fun db hanswer _ => .inl ?_)
          rcases domain_of_answer hanswer with ⟨hdomain, -⟩ | ⟨-, hunknown⟩
          · cases hdomain
          · exact ⟨hunknown, .inr rfl⟩
      | ok domain =>
          cases h with
          | step deleted h =>
              cases deleted with
              | error e =>
                  cases h
                  exact absurd rfl hstatus
              | ok =>
                  cases h
                  exact (told_of_event (List.mem_cons_self ..) (fun _ => id) (fun db _ _ =>
                    .inr ⟨notMem_removeDomain db domainId, .inl rfl⟩)).cons _

/-! ## Mailboxes -/

theorem told_getMailbox {mailboxId : String}
    (h : Program.After (getMailbox mailboxId) history (.done response)) :
    Told history response (fun directory => TellsMailbox directory mailboxId response) := by
  cases h with
  | step answer h =>
      refine told_of_event (List.mem_cons_self ..) ?_ (fun db hanswer _ => .inl ?_)
      · intro hstatus hfailed
        cases answer with
        | ok mailbox => exact hfailed
        | error e =>
            cases h
            cases hstatus
      · rcases mailbox_of_answer hanswer with ⟨mailbox, rfl, hknown⟩ | ⟨rfl, hunknown⟩
        · cases h
          exact .inl ⟨mailbox, hknown, rfl⟩
        · cases h
          exact .inr ⟨hunknown, rfl⟩

theorem told_insertMailbox {wanted : Mailbox}
    (h : Program.After (insertMailbox wanted) history (.done response))
    (hstatus : response.status ≠ 500) :
    Told history response (fun directory => ∃ stored, directory.mailboxes wanted.id = some stored ∧
      response = mailboxResolve stored wanted) := by
  cases h with
  | step created h =>
      cases created with
      | ok mailbox =>
          refine told_of_event (List.mem_cons_self ..) (fun _ => id) (fun db hanswer _ => .inr ?_)
          cases h
          simp only [Effect.execute, Statement.execute, Statement.run] at hanswer ⊢
          cases hinsert : db.mailboxes.insert? wanted with
          | none => simp [hinsert] at hanswer
          | some mailboxes =>
              simp only [hinsert] at hanswer ⊢
              cases hanswer
              refine ⟨wanted, ?_, by simp [mailboxResolve]⟩
              show mailboxes.get? wanted.id = some wanted
              rw [Table.get?_of_insert? hinsert, if_pos rfl]
      | error e =>
          cases h with
          | step read h =>
              refine (told_of_event (List.mem_cons_self ..) ?_ (fun db hanswer _ => .inl ?_)).cons _
              · intro _ hfailed
                cases read with
                | ok mailbox => exact hfailed
                | error e =>
                    cases h
                    exact hstatus rfl
              · rcases mailbox_of_answer hanswer with ⟨mailbox, rfl, hknown⟩ | ⟨rfl, -⟩
                · cases h
                  exact ⟨mailbox, hknown, rfl⟩
                · cases h
                  exact absurd rfl hstatus

theorem told_createMailbox {body : NewMailbox}
    (h : Program.After (createMailbox (some body)) history (.done response))
    (hstatus : response.status ≠ 500) :
    history = [] ∨ Told history response (fun directory => ∃ wanted stored,
      newMailbox body = .ok wanted ∧ directory.mailboxes wanted.id = some stored ∧
        response = mailboxResolve stored wanted) := by
  simp only [createMailbox] at h
  split at h
  · exact .inl h.of_done.1
  · rename_i wanted hwanted
    right
    obtain ⟨read, later, rfl, hrest⟩ := after_sql h
    split at hrest
    · rename_i mailbox
      refine told_of_event (List.mem_cons_self ..) (fun _ => id) (fun db hanswer _ => .inl ?_)
      rcases mailbox_of_answer hanswer with ⟨stored, hstored, hknown⟩ | ⟨herror, -⟩
      · cases hstored
        cases hrest.of_done.2
        exact ⟨wanted, mailbox, hwanted, hknown, rfl⟩
      · cases herror
    · refine ((told_insertMailbox hrest hstatus).mono (fun directory hclaim => ?_)).cons _
      obtain ⟨stored, hstored, hresponse⟩ := hclaim
      exact ⟨wanted, stored, hwanted, hstored, hresponse⟩

/-- The row that was written is read again. -/
theorem told_updateMailbox {mailboxId : String} {mailbox : Mailbox}
    (h : Program.After (updateMailbox mailboxId mailbox) history (.done response))
    (hstatus : response.status ≠ 500) :
    Told history response (fun directory => TellsMailbox directory mailboxId response) := by
  cases h with
  | step written h =>
      cases written with
      | error e =>
          cases h
          exact absurd rfl hstatus
      | ok =>
          cases h with
          | step read h =>
              cases read with
              | error e =>
                  cases h
                  exact absurd rfl hstatus
              | ok updated =>
                  refine (told_of_event (List.mem_cons_self ..) (fun _ => id)
                    (fun db hanswer _ => .inl ?_)).cons _
                  rcases mailbox_of_answer hanswer with ⟨stored, hstored, hknown⟩ | ⟨herror, -⟩
                  · cases hstored
                    cases h
                    exact .inl ⟨updated, hknown, rfl⟩
                  · cases herror

theorem told_patchMailbox {mailboxId : String} {body : PatchMailbox}
    (h : Program.After (patchMailbox mailboxId (some body)) history (.done response))
    (hstatus : response.status ≠ 500) :
    Told history response (fun directory => TellsMailbox directory mailboxId response ∨
      ∃ stored, directory.mailboxes mailboxId = some stored ∧
        overrideDomain stored body.domainId = .error response) := by
  obtain ⟨read, later, rfl, hrest⟩ := after_sql h
  split at hrest
  · cases hrest.of_done.2
    refine told_of_event (List.mem_cons_self ..) (fun hok => by cases hok)
      (fun db hanswer _ => .inl ?_)
    rcases mailbox_of_answer hanswer with ⟨mailbox, hmailbox, -⟩ | ⟨-, hunknown⟩
    · cases hmailbox
    · exact .inl (.inr ⟨hunknown, rfl⟩)
  · rename_i mailbox
    split at hrest
    · rename_i refusal hrefusal
      cases hrest.of_done.2
      refine told_of_event (List.mem_cons_self ..) (fun _ => id) (fun db hanswer _ => .inl ?_)
      rcases mailbox_of_answer hanswer with ⟨stored, hstored, hknown⟩ | ⟨herror, -⟩
      · cases hstored
        exact .inr ⟨mailbox, hknown, hrefusal⟩
      · cases herror
    · exact ((told_updateMailbox hrest hstatus).mono (fun _ => .inl)).cons _

theorem told_deleteMailbox {mailboxId : String}
    (h : Program.After (deleteMailbox mailboxId) history (.done response))
    (hstatus : response.status ≠ 500) :
    Told history response (fun directory => directory.mailboxes mailboxId = none ∧
      (response = .ok .unit ∨ response = mailboxNotFound mailboxId)) := by
  cases h with
  | step read h =>
      cases read with
      | error e =>
          cases h
          refine told_of_event (List.mem_cons_self ..) (fun hok => by cases hok)
            (fun db hanswer _ => .inl ?_)
          rcases mailbox_of_answer hanswer with ⟨mailbox, hmailbox, -⟩ | ⟨-, hunknown⟩
          · cases hmailbox
          · exact ⟨hunknown, .inr rfl⟩
      | ok mailbox =>
          cases h with
          | step deleted h =>
              cases deleted with
              | error e =>
                  cases h
                  exact absurd rfl hstatus
              | ok =>
                  cases h
                  refine (told_of_event (List.mem_cons_self ..) (fun _ => id) (fun db _ _ =>
                    .inr ⟨?_, .inl rfl⟩)).cons _
                  exact (congrFun (Table.get?_remove_key db.mailboxes mailboxId) mailboxId).trans
                    (Function.update_self ..)

/-! ## Records -/

theorem told_getRecord {recordId : Nat}
    (h : Program.After (getRecord (some recordId)) history (.done response)) :
    Told history response (fun directory => TellsRecord directory recordId response) := by
  cases h with
  | step answer h =>
      refine told_of_event (List.mem_cons_self ..) ?_ (fun db hanswer _ => .inl ?_)
      · intro hstatus hfailed
        cases answer with
        | ok record => exact hfailed
        | error e =>
            cases h
            cases hstatus
      · rcases record_of_answer hanswer with ⟨record, rfl, hknown⟩ | ⟨rfl, hunknown⟩
        · cases h
          exact .inl ⟨record, hknown, rfl⟩
        · cases h
          exact .inr ⟨hunknown, rfl⟩

/-- A response that resolves a record against the rows of its domain tells of one of them. -/
theorem tells_of_resolve {db : Db} {rows : List Record} {wanted : RecordDTO}
    (hrows : ((Statement.recordsOfDomain wanted.domainId).execute none db).1 = .ok rows)
    (hresolve : recordResolve rows wanted.recordType wanted.value wanted.ttl = some response) :
    TellsResolved db.directory wanted response := by
  unfold recordResolve at hresolve
  split at hresolve
  · cases hresolve
  · rename_i existing hfind
    obtain ⟨hknown, hdomain⟩ := records_of_answer hrows (List.mem_of_find?_eq_some hfind)
    have hequal : existing.recordType = wanted.recordType ∧ existing.value = wanted.value := by
      simpa using List.find?_some hfind
    refine ⟨existing.id, existing.toRecordDTO, hknown, ?_, hdomain⟩
    simp only [recordResolve, List.find?_cons, hequal, and_self, decide_true]
    exact hresolve

/-- A record that was inserted resolves against itself. -/
theorem tells_of_createRecord {db : Db} {wanted : RecordDTO} {created : Record}
    (hcreated : ((Statement.createRecord wanted).execute none db).1 = .ok created) :
    TellsResolved ((Statement.createRecord wanted).execute none db).2.directory wanted
      (.ok (.record (.ofRecord created))) := by
  simp only [Statement.execute, Statement.run] at hcreated ⊢
  by_cases hunique : ((db.records.push (fun id => ⟨wanted, id⟩) (fun _ => rfl)).rows.map
      (fun record => record.triple)).Nodup
  · simp only [hunique, dif_pos] at hcreated ⊢
    cases hcreated
    refine ⟨db.records.next, wanted, ?_, ?_, rfl⟩
    · show ((db.records.push (fun id => ⟨wanted, id⟩) (fun _ => rfl)).get? db.records.next).map
        Record.toRecordDTO = some wanted
      rw [AutoTable.get?_push, if_pos rfl]
      rfl
    · simp [recordResolve]
  · simp only [hunique] at hcreated
    cases hcreated

theorem told_insertRecord {wanted : RecordDTO}
    (h : Program.After (insertRecord wanted) history (.done response))
    (hstatus : response.status ≠ 500) :
    Told history response (fun directory => TellsResolved directory wanted response) := by
  obtain ⟨created, later, rfl, hrest⟩ := after_sql h
  split at hrest
  · cases hrest.of_done.2
    exact told_of_event (List.mem_cons_self ..) (fun _ => id)
      (fun db hanswer _ => .inr (tells_of_createRecord hanswer))
  · rename_i e
    obtain ⟨read, later, rfl, hlast⟩ := after_sql hrest
    split at hlast
    · cases hlast.of_done.2
      exact absurd rfl hstatus
    · rename_i rows
      refine (told_of_event (List.mem_cons_self ..) (fun _ => id)
        (fun db hanswer _ => .inl ?_)).cons _
      generalize hresolve : recordResolve rows wanted.recordType wanted.value wanted.ttl = resolved
        at hlast
      cases resolved with
      | none =>
          cases hlast.of_done.2
          exact absurd rfl hstatus
      | some other =>
          cases hlast.of_done.2
          exact tells_of_resolve hanswer hresolve

/-- A record whose value is blank is refused before the database is asked. -/
theorem validated_cases {domainId value : String} {result : Except ApiProblem Unit}
    (h : Program.After (validateRecordFields domainId value) history (.done result)) :
    (history = [] ∧ (Text.trim value).isEmpty ∧
        result = .error (.badRequest "value must not be empty")) ∨
      ∃ read, history = [⟨.sql (.getDomain domainId), read⟩] ∧
        ((∃ domain, read = .ok domain ∧ result = .ok ()) ∨
          ∃ e, read = .error e ∧ result = .error
            (.badRequest ("domain '" ++ domainId ++ "' is not provisioned"))) := by
  simp only [validateRecordFields] at h
  split at h
  · rename_i hblank
    obtain ⟨rfl, hresult⟩ := h.of_done
    cases hresult
    exact .inl ⟨rfl, hblank, rfl⟩
  · obtain ⟨read, later, rfl, hrest⟩ := after_sql h
    split at hrest
    · rename_i domain
      obtain ⟨rfl, hresult⟩ := hrest.of_done
      cases hresult
      exact .inr ⟨_, rfl, .inl ⟨domain, rfl, rfl⟩⟩
    · rename_i e
      obtain ⟨rfl, hresult⟩ := hrest.of_done
      cases hresult
      exact .inr ⟨_, rfl, .inr ⟨e, rfl, rfl⟩⟩

/-- A domain that was not found is not there. -/
theorem told_unprovisioned {domainId : String} {e : DbError}
    (hmem : ⟨.sql (.getDomain domainId), .error e⟩ ∈ history)
    (hresponse : response =
      .problem 400 (.badRequest ("domain '" ++ domainId ++ "' is not provisioned"))) :
    Told history response (fun directory => TellsUnprovisioned directory domainId response) := by
  refine told_of_event hmem (fun hok => by rw [hresponse] at hok; cases hok)
    (fun db hanswer _ => .inl ?_)
  rcases domain_of_answer hanswer with ⟨hdomain, -⟩ | ⟨-, hunknown⟩
  · cases hdomain
  · exact ⟨hunknown, hresponse⟩

theorem told_createRecord {body : NewRecord}
    (h : Program.After (createRecord (some body)) history (.done response))
    (hstatus : response.status ≠ 500) :
    history = [] ∨ Told history response (fun directory =>
      TellsUnprovisioned directory (Text.toLowercase (Text.trim body.domainId)) response ∨
        ∃ recordType, parseRecordType (Text.trim body.recordType) = .ok recordType ∧
          TellsResolved directory ⟨Text.toLowercase (Text.trim body.domainId), recordType,
            Text.trim body.value, body.ttl⟩ response) := by
  simp only [createRecord] at h
  split at h
  · exact .inl h.of_done.1
  · rename_i recordType htype
    obtain ⟨first, rest, result, rfl, hvalidated, hrest⟩ := h.of_bind
    rcases validated_cases hvalidated with ⟨rfl, -, rfl⟩ | ⟨read, rfl, hread⟩
    · exact .inl hrest.of_done.1
    · right
      rcases hread with ⟨domain, rfl, rfl⟩ | ⟨e, rfl, rfl⟩
      · obtain ⟨read, later, rfl, hlast⟩ := after_sql hrest
        refine Told.cons ?_ _
        split at hlast
        · cases hlast.of_done.2
          exact absurd rfl hstatus
        · rename_i rows
          split at hlast
          · rename_i resolved hresolve
            cases hlast.of_done.2
            exact told_of_event (List.mem_cons_self ..) (fun _ => id) (fun db hanswer _ =>
              .inl (.inr ⟨recordType, htype, tells_of_resolve hanswer hresolve⟩))
          · exact ((told_insertRecord hlast hstatus).mono
              (fun _ hclaim => .inr ⟨recordType, htype, hclaim⟩)).cons _
      · obtain ⟨rfl, hresponse⟩ := hrest.of_done
        cases hresponse
        exact (told_unprovisioned (List.mem_singleton_self _) rfl).mono (fun _ => .inl)

/-- The row that was written is read again. -/
theorem told_updateRecord {recordId : Nat} {patched : RecordDTO}
    (h : Program.After (updateRecord recordId patched) history (.done response))
    (hstatus : response.status ≠ 500) :
    Told history response (fun directory => TellsRecord directory recordId response) := by
  obtain ⟨written, later, rfl, hrest⟩ := after_sql h
  split at hrest
  · cases hrest.of_done.2
    exact absurd rfl hstatus
  · obtain ⟨read, later, rfl, hlast⟩ := after_sql hrest
    split at hlast
    · rename_i updated
      cases hlast.of_done.2
      refine (told_of_event (List.mem_cons_self ..) (fun _ => id)
        (fun db hanswer _ => .inl ?_)).cons _
      rcases record_of_answer hanswer with ⟨stored, hstored, hknown⟩ | ⟨herror, -⟩
      · cases hstored
        exact .inl ⟨stored, hknown, rfl⟩
      · cases herror
    · cases hlast.of_done.2
      exact absurd rfl hstatus

/-- A row that would become equal to the patched one is another record of the directory. -/
theorem taken_of_rows {db : Db} {rows : List Record} {recordId : Nat} {patched : RecordDTO}
    (hrows : ((Statement.recordsOfDomain patched.domainId).execute none db).1 = .ok rows)
    (hany : rows.any (fun row => row.id ≠ recordId ∧ row.recordType = patched.recordType ∧
      row.value = patched.value) = true) :
    ∃ other record, other ≠ recordId ∧ db.directory.records other = some record ∧
      record.triple = patched.triple := by
  obtain ⟨row, hrow, hequal⟩ := List.any_eq_true.mp hany
  obtain ⟨hid, htype, hvalue⟩ := of_decide_eq_true hequal
  obtain ⟨hknown, hdomain⟩ := records_of_answer hrows hrow
  exact ⟨row.id, row.toRecordDTO, hid, hknown, by simp [RecordDTO.triple, hdomain, htype, hvalue]⟩

/-- A patch is refused for the row that was read. -/
theorem told_unpatched {recordId : Nat} {body : PatchRecord} {stored : Record}
    (hmem : ⟨.sql (.getRecord recordId), .ok stored⟩ ∈ history)
    (hrefuses : (∃ problem, patchedRecord stored body = .error problem ∧
        response = .problem 400 problem) ∨
      ∃ patched, patchedRecord stored body = .ok patched ∧ (Text.trim patched.value).isEmpty ∧
        response = .problem 400 (.badRequest "value must not be empty")) :
    Told history response (fun directory =>
      TellsUnpatched directory recordId body response) := by
  refine told_of_event hmem (fun _ => id) (fun db hanswer _ => .inl ?_)
  rcases record_of_answer hanswer with ⟨record, hrecord, hknown⟩ | ⟨herror, -⟩
  · cases hrecord
    exact ⟨record, hknown, hrefuses⟩
  · cases herror

theorem told_patchRecord {recordId : Nat} {body : PatchRecord}
    (h : Program.After (patchRecord (some recordId) (some body)) history (.done response))
    (hstatus : response.status ≠ 500) :
    Told history response (fun directory => TellsRecord directory recordId response ∨
      TellsUnpatched directory recordId body response ∨
      (∃ domainId, TellsUnprovisioned directory domainId response) ∨
      TellsTaken directory recordId body response) := by
  obtain ⟨read, later, rfl, hrest⟩ := after_sql h
  split at hrest
  · cases hrest.of_done.2
    refine told_of_event (List.mem_cons_self ..) (fun hok => by cases hok)
      (fun db hanswer _ => .inl ?_)
    rcases record_of_answer hanswer with ⟨record, hrecord, -⟩ | ⟨-, hunknown⟩
    · cases hrecord
    · exact .inl (.inr ⟨hunknown, rfl⟩)
  · rename_i stored
    split at hrest
    · rename_i problem hproblem
      cases hrest.of_done.2
      exact (told_unpatched (List.mem_cons_self ..) (.inl ⟨problem, hproblem, rfl⟩)).mono
        (fun _ hclaim => .inr (.inl hclaim))
    · rename_i patched hpatched
      obtain ⟨first, rest, result, rfl, hvalidated, hchecked⟩ := hrest.of_bind
      rcases validated_cases hvalidated with ⟨rfl, hblank, rfl⟩ | ⟨found, rfl, hfound⟩
      · cases hchecked.of_done.2
        exact (told_unpatched (List.mem_cons_self ..)
          (.inr ⟨patched, hpatched, hblank, rfl⟩)).mono (fun _ hclaim => .inr (.inl hclaim))
      · refine Told.cons ?_ _
        rcases hfound with ⟨domain, rfl, rfl⟩ | ⟨e, rfl, rfl⟩
        · obtain ⟨listed, last, rfl, hlisted⟩ := after_sql hchecked
          refine Told.cons ?_ _
          split at hlisted
          · cases hlisted.of_done.2
            exact absurd rfl hstatus
          · rename_i rows
            split at hlisted
            · rename_i hany
              cases hlisted.of_done.2
              refine told_of_event (List.mem_cons_self ..) (fun _ => id)
                (fun db hanswer _ => .inl (.inr (.inr (.inr ?_))))
              obtain ⟨other, record, hother, hknown, htriple⟩ := taken_of_rows hanswer hany
              exact ⟨stored, patched, other, record, hpatched, hother, hknown, htriple, rfl⟩
            · exact ((told_updateRecord hlisted hstatus).mono (fun _ => .inl)).cons _
        · cases hchecked.of_done.2
          exact (told_unprovisioned (List.mem_cons_self ..) rfl).mono
            (fun _ hclaim => .inr (.inr (.inl ⟨_, hclaim⟩)))

theorem told_deleteRecord {recordId : Nat}
    (h : Program.After (deleteRecord (some recordId)) history (.done response))
    (hstatus : response.status ≠ 500) :
    Told history response (fun directory => directory.records recordId = none ∧
      (response = .ok .unit ∨ response = recordNotFound (some recordId))) := by
  obtain ⟨read, later, rfl, hrest⟩ := after_sql h
  split at hrest
  · cases hrest.of_done.2
    refine told_of_event (List.mem_cons_self ..) (fun hok => by cases hok)
      (fun db hanswer _ => .inl ?_)
    rcases record_of_answer hanswer with ⟨record, hrecord, -⟩ | ⟨-, hunknown⟩
    · cases hrecord
    · exact ⟨hunknown, .inr rfl⟩
  · obtain ⟨deleted, later, rfl, hlast⟩ := after_sql hrest
    split at hlast
    · cases hlast.of_done.2
      refine (told_of_event (List.mem_cons_self ..) (fun _ => id) (fun db _ _ =>
        .inr ⟨?_, .inl rfl⟩)).cons _
      have hnone := congrFun (Table.get?_remove_key db.records.toTable recordId) recordId
      rw [Function.update_self] at hnone
      show ((db.records.toTable.remove (fun row => row.id = recordId)).get? recordId).map
        Record.toRecordDTO = none
      rw [hnone]
      rfl
    · cases hlast.of_done.2
      exact absurd rfl hstatus

/-! ## Messages -/

/-- A claim that holds of every directory is shown by any effect. -/
theorem told_of_mem {event : Σ effect, Answer effect} {claim : Directory → Prop}
    (hmem : event ∈ history) (h : ∀ directory, claim directory) : Told history response claim :=
  .inr ⟨event, hmem, fun _ _ _ => .inl (h _)⟩

/-- A mailbox that was not found is not there. -/
theorem told_missing {mailboxId : String} {e : DbError} {status : Nat}
    (hmem : ⟨.sql (.getMailbox mailboxId), .error e⟩ ∈ history)
    (hresponse : response.status ≠ 200) :
    Told history response (fun directory =>
      response.status = status → directory.mailboxes mailboxId = none) := by
  refine told_of_event hmem (fun hok => absurd hok hresponse) (fun db hanswer _ => .inl ?_)
  rcases mailbox_of_answer hanswer with ⟨mailbox, hmailbox, -⟩ | ⟨-, hunknown⟩
  · cases hmailbox
  · exact fun _ => hunknown

/-- The further jobs of a send end it with a success or a failure of the database. -/
theorem status_of_enqueueRest {messageId : Nat} {sender : String} {outboundIds : List Nat}
    {recipients : List String}
    (h : Program.After (enqueueRest messageId sender outboundIds recipients) history
      (.done response)) : response.status = 200 ∨ response.status = 500 := by
  induction recipients generalizing outboundIds history with
  | nil =>
      cases h.of_done.2
      exact .inl rfl
  | cons recipient rest ih =>
      obtain ⟨first, second, result, rfl, -, hrest⟩ := h.of_bind
      cases result with
      | error e =>
          cases hrest.of_done.2
          exact .inr rfl
      | ok outboundId => exact ih hrest

theorem told_sendEmail {email : SendEmail}
    (h : Program.After (sendEmail parse lettre (some email)) history (.done response)) :
    history = [] ∨ Told history response (fun directory =>
      response.status = 409 → directory.mailboxes email.sender = none) := by
  simp only [sendEmail] at h
  split at h
  · exact .inl h.of_done.1
  · right
    obtain ⟨read, later, rfl, hrest⟩ := after_sql h
    split at hrest
    · cases hrest.of_done.2
      exact told_missing (List.mem_cons_self ..) (fun hok => by cases hok)
    · refine told_of_mem (List.mem_cons_self ..) (fun _ hconflict => ?_)
      split at hrest
      · cases hrest.of_done.2
        cases hconflict
      · obtain ⟨first, second, result, rfl, -, hrest⟩ := hrest.of_bind
        cases result with
        | error e =>
            cases hrest.of_done.2
            cases hconflict
        | ok ids =>
            rcases status_of_enqueueRest hrest with hok | hfailed
            · cases hconflict.symm.trans hok
            · cases hconflict.symm.trans hfailed

theorem told_listMessages {mailboxId : String} {direction : Option MessageDirection}
    {limit offset : Nat}
    (h : Program.After (listMessages mailboxId direction limit offset) history (.done response)) :
    Told history response (fun directory =>
      response.status = 404 → directory.mailboxes (Text.toLowercase mailboxId) = none) := by
  obtain ⟨first, rest, result, rfl, hensured, hrest⟩ := h.of_bind
  obtain ⟨read, later, rfl, hread⟩ := after_sql hensured
  split at hread
  · obtain ⟨rfl, hresult⟩ := hread.of_done
    cases hresult
    refine told_of_mem (List.mem_cons_self ..) (fun _ hmissing => ?_)
    obtain ⟨loading, last, result, rfl, -, hlast⟩ := hrest.of_bind
    cases result with
    | error e =>
        cases hlast.of_done.2
        cases hmissing
    | ok items =>
        cases hlast.of_done.2
        cases hmissing
  · obtain ⟨rfl, hresult⟩ := hread.of_done
    cases hresult
    cases hrest.of_done.2
    exact told_missing (List.mem_cons_self ..) (fun hok => by cases hok)

/-! ## Every request -/

/-- A request that ended is refused on its face, or its response is told by what it did. -/
theorem told_of_after {request : Request}
    (h : Program.After (request.handle parse lettre) history (.done response))
    (hstatus : response.status ≠ 500) :
    history = [] ∨ Told history response (fun directory => request.Tells directory response) := by
  cases request with
  | createDomain body =>
      cases body with
      | none => exact .inl h.of_done.1
      | some body => exact told_createDomain h hstatus
  | getDomain domainId => exact .inr (told_getDomain h)
  | patchDomain domainId parsed =>
      cases parsed with
      | true => exact .inr (told_getDomain h)
      | false => exact .inl h.of_done.1
  | deleteDomain domainId => exact .inr (told_deleteDomain h hstatus)
  | createMailbox body =>
      cases body with
      | none => exact .inl h.of_done.1
      | some body => exact told_createMailbox h hstatus
  | getMailbox mailboxId => exact .inr (told_getMailbox h)
  | patchMailbox mailboxId body =>
      cases body with
      | none => exact .inl h.of_done.1
      | some body => exact .inr (told_patchMailbox h hstatus)
  | deleteMailbox mailboxId => exact .inr (told_deleteMailbox h hstatus)
  | createRecord body =>
      cases body with
      | none => exact .inl h.of_done.1
      | some body => exact told_createRecord h hstatus
  | getRecord recordId =>
      cases recordId with
      | none => exact .inl h.of_done.1
      | some recordId => exact .inr (told_getRecord h)
  | patchRecord recordId body =>
      cases recordId with
      | none => exact .inl h.of_done.1
      | some recordId =>
          cases body with
          | none => exact .inl h.of_done.1
          | some body => exact .inr (told_patchRecord h hstatus)
  | deleteRecord recordId =>
      cases recordId with
      | none => exact .inl h.of_done.1
      | some recordId => exact .inr (told_deleteRecord h hstatus)
  | sendEmail body =>
      cases body with
      | none => exact .inl h.of_done.1
      | some email => exact told_sendEmail h
  | deleteMessage messageId =>
      obtain ⟨read, later, rfl, -⟩ := after_sql h
      exact .inr (told_of_mem (List.mem_cons_self ..) (fun _ => trivial))
  | listMailboxMessages mailboxId query =>
      change Program.After (Api.listMailboxMessages mailboxId query) history _ at h
      unfold Api.listMailboxMessages at h
      split at h <;> exact .inr (told_listMessages h)
  | listMailboxInbox mailboxId query | listMailboxSent mailboxId query =>
      exact .inr (told_listMessages h)

end Handlers

/-! ## Every run -/

variable {Thread Change Event : Type} [DecidableEq Thread]

end Api

end Zonemail
