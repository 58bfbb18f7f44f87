import Zonemail.Api.Addressed
import Zonemail.Text.Lowercase

/-!
# The rows of the mailbox table

A mailbox is meant to be stored under its address in lower case, with the domain of that address as
its owner. Creation and patching keep it so, in any interleaving: a patch writes back the owner that
it has read, which the id determines. Seeding lower-cases the id but takes the owner from the
address as it is configured. `wellFormed_of_run` says that all rows are well formed as long as the
domains of the configured addresses are in lower case.
-/

namespace Zonemail

open Library
open Text (toLowercase)

/-- The id is in lower case, and the owner is what stands between its first and second `@`. -/
structure Mailbox.WellFormed (mailbox : Mailbox) : Prop where
  lower : toLowercase mailbox.id = mailbox.id
  nonempty : mailbox.domainId ≠ ""
  domain : (Text.split '@' mailbox.id)[1]? = some mailbox.domainId

/-- What stands between the first and the second `@` of the configured address is in lower case. -/
def MailboxEntry.LowerDomain (entry : MailboxEntry) : Prop :=
  ∀ domainId, (Text.split '@' entry.address)[1]? = some domainId → toLowercase domainId = domainId

/-- The mailbox of a body is well formed. -/
theorem Api.wellFormed_of_newMailbox {body : NewMailbox} {mailbox : Mailbox}
    (h : newMailbox body = .ok mailbox) : mailbox.WellFormed := by
  obtain ⟨hid, hdomain, hnonempty⟩ := of_newMailbox h
  exact ⟨by rw [hid, Text.toLowercase_toLowercase], hnonempty, hdomain⟩

/-- The mailbox of an entry is well formed when its domain is in lower case. -/
theorem MailboxEntry.wellFormed {entry : MailboxEntry} {mailbox : Mailbox}
    (h : entry.mailbox = some mailbox) (hlower : entry.LowerDomain) : mailbox.WellFormed := by
  unfold MailboxEntry.mailbox at h
  split at h
  · cases h
  · rename_i parsed hparsed
    cases h
    obtain ⟨hid, hdomain, hnonempty⟩ := Mailbox.of_tryFrom hparsed
    refine ⟨Text.toLowercase_toLowercase _, hnonempty, ?_⟩
    rw [hid, Text.split_toLowercase, List.getElem?_map, hdomain, Option.map_some,
      hlower _ hdomain]

/-! ## What the programs write -/

/-- The tasks of the mailbox table. -/
inductive MailboxTask where
  | seed (config : Config)
  | createMailbox (body : Option Api.NewMailbox)
  | patchMailbox (mailboxId : String) (body : Option Api.PatchMailbox)
  | deleteMailbox (mailboxId : String)
  | deleteDomain (domainId : String)

/-- The program of a task; its response is not of interest here. -/
def MailboxTask.program : MailboxTask → Prog Unit
  | .seed config => do
      let _ ← seedFromConfig config
      pure ()
  | .createMailbox body => do
      let _ ← Api.createMailbox body
      pure ()
  | .patchMailbox mailboxId body => do
      let _ ← Api.patchMailbox mailboxId body
      pure ()
  | .deleteMailbox mailboxId => do
      let _ ← Api.deleteMailbox mailboxId
      pure ()
  | .deleteDomain domainId => do
      let _ ← Api.deleteDomain domainId
      pure ()

/-- The configured addresses have domains in lower case. -/
def MailboxTask.LowerDomains : MailboxTask → Prop
  | .seed config => ∀ entry ∈ config.mailboxes, entry.LowerDomain
  | _ => True

/-- A created mailbox is well formed, and an update writes the owner that the id determines. -/
def WellFormedEffect : Effect → Prop
  | .sql (.createMailbox mailbox) => mailbox.WellFormed
  | .sql (.updateMailbox id domainId _) =>
      domainId ≠ "" ∧ (Text.split '@' id)[1]? = some domainId
  | _ => True

/-- A mailbox that is read is well formed. -/
def WellFormedAnswer : (effect : Effect) → Answer effect → Prop
  | .sql (.getMailbox _), .ok mailbox => mailbox.WellFormed
  | _, _ => True

/-- A program obeys the rule on its writes, as long as it reads well-formed rows. -/
abbrev WritesWell {α : Type} (program : Prog α) : Prop :=
  ∀ history, Program.Safe WellFormedAnswer (fun _ effect => WellFormedEffect effect)
    (fun _ _ => True) program history

variable {α β : Type}

theorem WritesWell.done {value : α} : WritesWell (.done value : Prog α) := fun _ => .done trivial

/-- A program that begins with a statement. -/
theorem WritesWell.sql {statement : Statement}
    {next : Except DbError statement.Value → Prog α} (hwrite : WellFormedEffect (.sql statement))
    (hnext : ∀ answer, WellFormedAnswer (.sql statement) answer → WritesWell (next answer)) :
    WritesWell (Zonemail.sql statement >>= next : Prog α) :=
  fun _ => .perform hwrite (fun answer hanswer => hnext answer hanswer _)

theorem WritesWell.bind {program : Prog α} {next : α → Prog β} (h : WritesWell program)
    (hnext : ∀ value, WritesWell (next value)) : WritesWell (program >>= next : Prog β) :=
  fun history => Program.safe_bind (h history) (fun later value _ => hnext value later)

theorem Api.createMailbox_writesWell (body : Option NewMailbox) :
    WritesWell (createMailbox body) := by
  cases body with
  | none => exact .done
  | some body =>
      simp only [createMailbox]
      split
      · exact .done
      · rename_i mailbox hmailbox
        refine .sql trivial (fun answer _ => ?_)
        split
        · exact .done
        · refine .sql (wellFormed_of_newMailbox hmailbox) (fun answer _ => ?_)
          split
          · exact .done
          · refine .sql trivial (fun answer _ => ?_)
            split
            · exact .done
            · exact .done

/-- A patch writes the owner of the row that it has read. -/
theorem Api.patchMailbox_writesWell (mailboxId : String) (body : Option PatchMailbox) :
    WritesWell (patchMailbox mailboxId body) := by
  cases body with
  | none => exact .done
  | some body =>
      refine .sql trivial (fun answer hanswer => ?_)
      cases answer with
      | error e => exact .done
      | ok mailbox =>
          dsimp only
          cases hdomain : overrideDomain mailbox body.domainId with
          | error response => exact .done
          | ok overridden =>
              obtain rfl := eq_of_overrideDomain hdomain
              have hread : overridden.WellFormed := hanswer
              refine .sql ⟨hread.nonempty, hread.domain⟩ (fun answer _ => ?_)
              split
              · exact .done
              · refine .sql trivial (fun answer _ => ?_)
                split
                · exact .done
                · exact .done

theorem Api.deleteMailbox_writesWell (mailboxId : String) :
    WritesWell (deleteMailbox mailboxId) := by
  refine .sql trivial (fun answer _ => ?_)
  split
  · exact .done
  · refine .sql trivial (fun answer _ => ?_)
    split
    · exact .done
    · exact .done

theorem Api.deleteDomain_writesWell (domainId : String) : WritesWell (deleteDomain domainId) := by
  refine .sql trivial (fun answer _ => ?_)
  split
  · exact .done
  · refine .sql trivial (fun answer _ => ?_)
    split
    · exact .done
    · exact .done

theorem seedDomains_writesWell (domains : List String) : WritesWell (seedDomains domains) := by
  induction domains with
  | nil => exact .done
  | cons id rest ih =>
      refine .sql trivial (fun answer _ => ?_)
      split
      · exact ih
      · refine .sql trivial (fun answer _ => ?_)
        split
        · exact .done
        · exact ih

theorem seedMailboxes_writesWell {entries : List MailboxEntry}
    (h : ∀ entry ∈ entries, entry.LowerDomain) : WritesWell (seedMailboxes entries) := by
  induction entries with
  | nil => exact .done
  | cons entry rest ih =>
      obtain ⟨hentry, hrest⟩ := List.forall_mem_cons.mp h
      rw [seedMailboxes]
      split
      · exact ih hrest
      · rename_i mailbox hmailbox
        refine .sql trivial (fun answer _ => ?_)
        split
        · exact ih hrest
        · refine .sql (entry.wellFormed hmailbox hentry) (fun answer _ => ?_)
          split
          · exact .done
          · exact ih hrest

theorem seedRecords_writesWell (records : List RecordDTO) : WritesWell (seedRecords records) := by
  induction records with
  | nil => exact .done
  | cons record rest ih =>
      refine .sql trivial (fun answer _ => ?_)
      split
      · exact .done
      · exact ih

theorem seedFromConfig_writesWell {config : Config}
    (h : ∀ entry ∈ config.mailboxes, entry.LowerDomain) : WritesWell (seedFromConfig config) := by
  refine .bind (seedDomains_writesWell _) (fun result => ?_)
  split
  · exact .done
  · refine .bind (seedMailboxes_writesWell h) (fun result => ?_)
    split
    · exact .done
    · exact seedRecords_writesWell _

theorem MailboxTask.writesWell {task : MailboxTask} (h : task.LowerDomains) :
    WritesWell task.program := by
  cases task with
  | seed config => exact .bind (seedFromConfig_writesWell h) (fun _ => .done)
  | createMailbox body => exact .bind (Api.createMailbox_writesWell body) (fun _ => .done)
  | patchMailbox id body => exact .bind (Api.patchMailbox_writesWell id body) (fun _ => .done)
  | deleteMailbox id => exact .bind (Api.deleteMailbox_writesWell id) (fun _ => .done)
  | deleteDomain id => exact .bind (Api.deleteDomain_writesWell id) (fun _ => .done)

/-! ## Every run -/

/-- Every stored mailbox is well formed. -/
def Db.MailboxesWellFormed (db : Db) : Prop := ∀ row ∈ db.mailboxes.rows, row.WellFormed

/-- An effect that obeys the rule keeps the rows well formed. -/
theorem Db.MailboxesWellFormed.execute {db : Db} {effect : Effect} (h : db.MailboxesWellFormed)
    (heffect : WellFormedEffect effect) (fault : Statement.Fault) :
    (effect.execute fault db).2.MailboxesWellFormed := by
  cases effect with
  | reply command accepted => exact h
  | sql statement =>
      rcases statement.change_of_execute fault db with hsame | hchange
      · rw [Effect.execute, hsame]
        exact h
      · intro row hrow
        rcases hchange.mailbox hrow with hold | rfl | ⟨old, hold, hid, rfl⟩
        · exact h row hold
        · exact heffect
        · exact ⟨hid ▸ (h old hold).lower, heffect.1, heffect.2⟩

/-- What is read from well-formed rows is well formed. -/
theorem Db.MailboxesWellFormed.answer {db : Db} (h : db.MailboxesWellFormed) (effect : Effect)
    (fault : Statement.Fault) : WellFormedAnswer effect (effect.execute fault db).1 := by
  unfold WellFormedAnswer
  split
  · rename_i id mailbox hanswer
    rcases Statement.execute_getMailbox id fault db with ⟨stored, hstored, hget⟩ | ⟨e, hget⟩
    · rw [Effect.execute, hget] at hanswer
      cases hanswer
      exact h _ (Table.mem_of_get? hstored)
    · rw [Effect.execute, hget] at hanswer
      cases hanswer
  · trivial

/-- The tasks over an empty database. -/
def mailboxPool {Thread : Type} (tasks : Thread → MailboxTask) :
    Pool Thread Effect Answer Unit Db := ⟨.empty, fun thread => (tasks thread).program⟩

/-- In every interleaving of seedings, creations, patches and deletions, with any faults, every
stored mailbox is well formed, as long as the domains of the seeded addresses are in lower case. -/
theorem wellFormed_of_run {Thread : Type} [DecidableEq Thread] {tasks : Thread → MailboxTask}
    {trace : List (Moment Thread Effect Answer Db)} {finish : Pool Thread Effect Answer Unit Db}
    (hlower : ∀ thread, (tasks thread).LowerDomains)
    (hrun : Run (Pool.step Effect.execute) (fun _ _ => True) (mailboxPool tasks) trace finish) :
    finish.store.MailboxesWellFormed := by
  have hsafe : Pool.SafeRun Effect.execute Db.MailboxesWellFormed WellFormedAnswer
      (fun _ _ effect => WellFormedEffect effect) trace finish := Pool.safe_run
    (fun effect input store hstore => hstore.answer effect input)
    (fun thread history effect input store hstore hrule => hstore.execute hrule input)
    (fun row hrow => by cases hrow)
    (fun thread => MailboxTask.writesWell (hlower thread) []) hrun
  exact hsafe.store

/-- One seeded address, and a patch of the mailbox. -/
def seededTasks (address : String) : Bool → MailboxTask
  | true => .seed ⟨[], [.simple address], []⟩
  | false => .patchMailbox "a@x.io" (some ⟨none, some "b@y.io"⟩)

/-- The mailbox is stored in lower case, with its owner, and patched. -/
theorem wellFormed_seeded : ∃ trace finish,
    Run (Pool.step Effect.execute) (fun _ _ => True) (mailboxPool (seededTasks "A@x.io")) trace
      finish ∧
    finish.store.mailboxes.rows = [⟨"a@x.io", "x.io", some "b@y.io"⟩] ∧
    finish.store.MailboxesWellFormed := by
  obtain ⟨trace, finish, hexecute, hrows⟩ : ∃ trace finish,
      execute (Pool.step Effect.execute) (mailboxPool (seededTasks "A@x.io"))
        [(true, none), (true, none), (false, none), (false, none)] = some (trace, finish) ∧
      finish.store.mailboxes.rows = [⟨"a@x.io", "x.io", some "b@y.io"⟩] := ⟨_, _, rfl, rfl⟩
  have hrun := execute_run hexecute
  refine ⟨trace, finish, hrun, hrows, wellFormed_of_run (fun thread => ?_) hrun⟩
  cases thread with
  | false => trivial
  | true =>
      intro entry hentry domainId hdomain
      rw [List.mem_singleton.mp hentry] at hdomain
      have hsplit : (Text.split '@' "A@x.io")[1]? = some "x.io" := by decide
      cases hsplit.symm.trans hdomain
      decide +kernel

/-- A capital letter in the domain of a seeded address is in the owner and not in the id. -/
theorem not_wellFormed_seeded : ∃ trace finish,
    Run (Pool.step Effect.execute) (fun _ _ => True) (mailboxPool (seededTasks "A@X.io")) trace
      finish ∧
    finish.store.mailboxes.rows = [⟨"a@x.io", "X.io", none⟩] ∧
    ¬ finish.store.MailboxesWellFormed := by
  obtain ⟨trace, finish, hexecute, hrows⟩ : ∃ trace finish,
      execute (Pool.step Effect.execute) (mailboxPool (seededTasks "A@X.io"))
        [(true, none), (true, none)] = some (trace, finish) ∧
      finish.store.mailboxes.rows = [⟨"a@x.io", "X.io", none⟩] := ⟨_, _, rfl, rfl⟩
  refine ⟨trace, finish, execute_run hexecute, hrows, fun h => ?_⟩
  have hrow := h ⟨"a@x.io", "X.io", none⟩ (hrows ▸ List.mem_singleton_self _)
  exact absurd hrow.domain (by decide)

end Zonemail
