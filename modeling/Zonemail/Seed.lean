import Zonemail.Db.Effect

/-!
# Seeding from the configuration

`seed_from_config` of `app.rs`, which runs at every start of the daemon. Domains and mailboxes are
looked up before they are created, DNS records are created without a look. `seed_again_iff` says
exactly when a second start with the same configuration succeeds and changes nothing.
-/

namespace Zonemail

open Library

/-- A mailbox of the configuration, with or without a forward target. -/
inductive MailboxEntry where
  | simple (id : String)
  | detailed (id : String) (forwardTo : Option String)
  deriving DecidableEq, Repr

def MailboxEntry.address : MailboxEntry → String
  | .simple id => id
  | .detailed id _ => id

def MailboxEntry.forwardTo : MailboxEntry → Option String
  | .simple _ => none
  | .detailed _ forwardTo => forwardTo

/-- The part of the configuration that is seeded. -/
structure Config where
  domains : List String
  mailboxes : List MailboxEntry
  records : List RecordDTO
  deriving DecidableEq, Repr

/-- Create every domain that is not there yet. -/
def seedDomains : List String → Prog (Except DbError Unit)
  | [] => pure (.ok ())
  | domainId :: rest => do
      match ← sql (.getDomain domainId) with
      | .ok _ => seedDomains rest
      | .error _ =>
          match ← sql (.createDomain domainId) with
          | .error e => pure (.error e)
          | .ok _ => seedDomains rest

/-- The mailbox of an entry, under its lower-case address; an entry that is not an address is
skipped. -/
def MailboxEntry.mailbox (entry : MailboxEntry) : Option Mailbox :=
  match Mailbox.tryFrom entry.address with
  | .error _ => none
  | .ok mailbox => some ⟨Text.toLowercase mailbox.id, mailbox.domainId, entry.forwardTo⟩

/-- Create every mailbox that is not there yet. -/
def seedMailboxes : List MailboxEntry → Prog (Except DbError Unit)
  | [] => pure (.ok ())
  | entry :: rest =>
      match entry.mailbox with
      | none => seedMailboxes rest
      | some mailbox => do
          match ← sql (.getMailbox mailbox.id) with
          | .ok _ => seedMailboxes rest
          | .error _ =>
              match ← sql (.createMailbox mailbox) with
              | .error e => pure (.error e)
              | .ok _ => seedMailboxes rest

/-- Create every DNS record. -/
def seedRecords : List RecordDTO → Prog (Except DbError Unit)
  | [] => pure (.ok ())
  | record :: rest => do
      match ← sql (.createRecord record) with
      | .error e => pure (.error e)
      | .ok _ => seedRecords rest

/-- Seed domains, mailboxes and records; the first error ends it. -/
def seedFromConfig (config : Config) : Prog (Except DbError Unit) := do
  match ← seedDomains config.domains with
  | .error e => pure (.error e)
  | .ok () =>
      match ← seedMailboxes config.mailboxes with
      | .error e => pure (.error e)
      | .ok () => seedRecords config.records

/-! ## After a successful seeding -/

/-- Every domain and every mailbox of the configuration is stored. -/
structure Seeded (config : Config) (db : Db) : Prop where
  domains : ∀ domainId ∈ config.domains, (db.domains.get? domainId).isSome
  mailboxes : ∀ entry ∈ config.mailboxes, ∀ mailbox, entry.mailbox = some mailbox →
    (db.mailboxes.get? mailbox.id).isSome

/-- Without deletions what was seeded stays. -/
theorem Seeded.retains {config : Config} {db after : Db} (h : Seeded config db)
    (hretains : after.Retains db) : Seeded config after :=
  ⟨fun id hid => hretains.domains id (h.domains id hid),
    fun entry hentry mailbox hmailbox =>
      hretains.mailboxes mailbox.id (h.mailboxes entry hentry mailbox hmailbox)⟩

variable {world after : World}

/-- A successful loop over the domains loses nothing and leaves them all stored. -/
theorem seedDomains_spec {domains : List String}
    (h : (seedDomains domains).eval world = (.ok (), after)) :
    after.db.Retains world.db ∧ ∀ id ∈ domains, (after.db.domains.get? id).isSome := by
  induction domains generalizing world with
  | nil =>
      cases h
      exact ⟨.refl _, by simp⟩
  | cons id rest ih =>
      rw [seedDomains, Prog.eval_sql_bind] at h
      rcases Statement.execute_getDomain id world.faults.head?.join world.db with
        ⟨domain, hstored, hget⟩ | ⟨_, hget⟩
      · rw [hget] at h
        obtain ⟨hretains, hrest⟩ := ih h
        have hid : (after.db.domains.get? id).isSome :=
          hretains.domains id (Option.isSome_of_eq_some hstored)
        exact ⟨hretains, List.forall_mem_cons.mpr ⟨hid, hrest⟩⟩
      · rw [hget] at h
        simp only [Prog.eval_sql_bind] at h
        rcases Statement.execute_cases (.createDomain id) world.faults.tail.head?.join world.db with
          ⟨e, hcreate⟩ | ⟨value, next, hrun, hcreate⟩
        · rw [hcreate] at h
          cases h
        · rw [hcreate] at h
          obtain ⟨hretains, hrest⟩ := ih h
          have hid : (after.db.domains.get? id).isSome :=
            hretains.domains id (Statement.get?_of_createDomain hrun)
          exact ⟨hretains.trans (Statement.retains_run hrun (fun h => h)),
            List.forall_mem_cons.mpr ⟨hid, hrest⟩⟩

/-- A successful loop over the mailboxes loses nothing and leaves them all stored. -/
theorem seedMailboxes_spec {entries : List MailboxEntry}
    (h : (seedMailboxes entries).eval world = (.ok (), after)) :
    after.db.Retains world.db ∧ ∀ entry ∈ entries, ∀ mailbox, entry.mailbox = some mailbox →
      (after.db.mailboxes.get? mailbox.id).isSome := by
  induction entries generalizing world with
  | nil =>
      cases h
      exact ⟨.refl _, by simp⟩
  | cons entry rest ih =>
      rw [seedMailboxes] at h
      cases hentry : entry.mailbox with
      | none =>
          rw [hentry] at h
          obtain ⟨hretains, hrest⟩ := ih h
          refine ⟨hretains, List.forall_mem_cons.mpr ⟨?_, hrest⟩⟩
          intro mailbox hmailbox
          rw [hentry] at hmailbox
          cases hmailbox
      | some mailbox =>
          simp only [hentry, Prog.eval_sql_bind] at h
          have hstored : ∀ {db : Db}, after.db.Retains db → (db.mailboxes.get? mailbox.id).isSome →
              ∀ other, entry.mailbox = some other → (after.db.mailboxes.get? other.id).isSome := by
            intro db hretains hid other hother
            cases hentry.symm.trans hother
            exact hretains.mailboxes mailbox.id hid
          rcases Statement.execute_getMailbox mailbox.id world.faults.head?.join world.db with
            ⟨existing, hexisting, hget⟩ | ⟨_, hget⟩
          · rw [hget] at h
            obtain ⟨hretains, hrest⟩ := ih h
            exact ⟨hretains, List.forall_mem_cons.mpr
              ⟨hstored hretains (Option.isSome_of_eq_some hexisting), hrest⟩⟩
          · rw [hget] at h
            simp only [Prog.eval_sql_bind] at h
            rcases Statement.execute_cases (.createMailbox mailbox) world.faults.tail.head?.join
              world.db with ⟨e, hcreate⟩ | ⟨value, next, hrun, hcreate⟩
            · rw [hcreate] at h
              cases h
            · rw [hcreate] at h
              obtain ⟨hretains, hrest⟩ := ih h
              exact ⟨hretains.trans (Statement.retains_run hrun (fun h => h)),
                List.forall_mem_cons.mpr
                  ⟨hstored hretains (Statement.get?_of_createMailbox hrun), hrest⟩⟩

/-- A created record takes the next number, and nothing else happens. -/
theorem createRecord_spec {created : Record} {content : RecordDTO} {db next : Db}
    (h : (Statement.createRecord content).run db = .ok (created, next)) :
    next.domains = db.domains ∧ next.mailboxes = db.mailboxes ∧
      next.records.next = db.records.next + 1 := by
  simp only [Statement.run] at h
  split at h
  · cases h
    exact ⟨rfl, rfl, rfl⟩
  · cases h

/-- A successful loop over the records has numbered one more row for each. -/
theorem seedRecords_spec {records : List RecordDTO}
    (h : (seedRecords records).eval world = (.ok (), after)) :
    after.db.domains = world.db.domains ∧ after.db.mailboxes = world.db.mailboxes ∧
      after.db.records.next = world.db.records.next + records.length := by
  induction records generalizing world with
  | nil =>
      cases h
      exact ⟨rfl, rfl, rfl⟩
  | cons record rest ih =>
      simp only [seedRecords, Prog.eval_sql_bind] at h
      rcases Statement.execute_cases (.createRecord record) world.faults.head?.join world.db with
        ⟨e, hcreate⟩ | ⟨value, next, hrun, hcreate⟩
      · rw [hcreate] at h
        cases h
      · rw [hcreate] at h
        obtain ⟨hdomains, hmailboxes, hnext⟩ := ih h
        obtain ⟨hdomain, hmailbox, hone⟩ := createRecord_spec hrun
        refine ⟨hdomains.trans hdomain, hmailboxes.trans hmailbox, ?_⟩
        rw [hnext, hone, List.length_cons]
        omega

/-- The three loops of a successful seeding. -/
theorem seedFromConfig_ok {config : Config}
    (h : (seedFromConfig config).eval world = (.ok (), after)) :
    ∃ first second, (seedDomains config.domains).eval world = (.ok (), first) ∧
      (seedMailboxes config.mailboxes).eval first = (.ok (), second) ∧
      (seedRecords config.records).eval second = (.ok (), after) := by
  rw [seedFromConfig, Prog.eval_bind] at h
  cases hdomains : (seedDomains config.domains).eval world with
  | mk result first =>
      rw [hdomains] at h
      cases result with
      | error e => cases h
      | ok value =>
          simp only [Prog.eval_bind] at h
          cases hmailboxes : (seedMailboxes config.mailboxes).eval first with
          | mk result second =>
              rw [hmailboxes] at h
              cases result with
              | error e => cases h
              | ok value => exact ⟨first, second, rfl, hmailboxes, h⟩

/-- After a successful seeding the domains and mailboxes of the configuration are stored. -/
theorem seeded_of_ok {config : Config}
    (h : (seedFromConfig config).eval world = (.ok (), after)) : Seeded config after.db := by
  obtain ⟨first, second, hdomains, hmailboxes, hrecords⟩ := seedFromConfig_ok h
  have hfirst := seedDomains_spec hdomains
  have hsecond := seedMailboxes_spec hmailboxes
  obtain ⟨hkeptDomains, hkeptMailboxes, -⟩ := seedRecords_spec hrecords
  constructor
  · intro id hid
    rw [hkeptDomains]
    exact hsecond.1.domains id (hfirst.2 id hid)
  · intro entry hentry mailbox hmailbox
    rw [hkeptMailboxes]
    exact hsecond.2 entry hentry mailbox hmailbox

/-! ## A second seeding -/

/-- Stored domains are not created again. -/
theorem seedDomains_stored {db : Db} {domains : List String}
    (h : ∀ id ∈ domains, (db.domains.get? id).isSome) :
    (seedDomains domains).eval ⟨db, []⟩ = (.ok (), ⟨db, []⟩) := by
  induction domains with
  | nil => rfl
  | cons id rest ih =>
      obtain ⟨hid, hrest⟩ := List.forall_mem_cons.mp h
      obtain ⟨domain, hdomain⟩ := Option.isSome_iff_exists.mp hid
      have hget : (Statement.getDomain id).execute none db = (.ok domain, db) := by
        simp [Statement.execute, Statement.run, Statement.found, hdomain]
      simp only [seedDomains, Prog.eval_sql_bind, List.head?_nil, Option.join_none, hget,
        List.tail_nil]
      exact ih hrest

/-- Stored mailboxes are not created again. -/
theorem seedMailboxes_stored {db : Db} {entries : List MailboxEntry}
    (h : ∀ entry ∈ entries, ∀ mailbox, entry.mailbox = some mailbox →
      (db.mailboxes.get? mailbox.id).isSome) :
    (seedMailboxes entries).eval ⟨db, []⟩ = (.ok (), ⟨db, []⟩) := by
  induction entries with
  | nil => rfl
  | cons entry rest ih =>
      obtain ⟨hfirst, hrest⟩ := List.forall_mem_cons.mp h
      rw [seedMailboxes]
      cases hentry : entry.mailbox with
      | none => exact ih hrest
      | some mailbox =>
          obtain ⟨existing, hexisting⟩ := Option.isSome_iff_exists.mp (hfirst mailbox hentry)
          have hget : (Statement.getMailbox mailbox.id).execute none db = (.ok existing, db) := by
            simp [Statement.execute, Statement.run, Statement.found, hexisting]
          simp only [Prog.eval_sql_bind, List.head?_nil, Option.join_none, hget, List.tail_nil]
          exact ih hrest

/-- Where the domains and mailboxes are stored, seeding is the loop over the records. -/
theorem seedFromConfig_seeded {config : Config} {db : Db} (h : Seeded config db) :
    (seedFromConfig config).eval ⟨db, []⟩ = (seedRecords config.records).eval ⟨db, []⟩ := by
  rw [seedFromConfig, Prog.eval_bind, seedDomains_stored h.domains]
  simp only [Prog.eval_bind]
  rw [seedMailboxes_stored h.mailboxes]

/-- The database after statements of other requests. -/
def afterStatements (db : Db) (statements : List (Statement × Statement.Fault)) : Db :=
  statements.foldl (fun db request => (request.1.execute request.2 db).2) db

/-- Statements that delete nothing keep every domain and every mailbox. -/
theorem retains_afterStatements {statements : List (Statement × Statement.Fault)} (db : Db)
    (hkeep : ∀ request ∈ statements, ¬ request.1.Deletes) :
    (afterStatements db statements).Retains db := by
  induction statements generalizing db with
  | nil => exact .refl db
  | cons request rest ih =>
      obtain ⟨hfirst, hrest⟩ := List.forall_mem_cons.mp hkeep
      exact (ih _ hrest).trans (request.1.retains_execute hfirst request.2 db)

/-- After a successful seeding, and any statements that delete nothing, a second seeding with the
same configuration succeeds and leaves domains, mailboxes and records unchanged exactly when the
configuration has no records. -/
theorem seed_again_iff (config : Config) {world after : World}
    (statements : List (Statement × Statement.Fault))
    (hfirst : (seedFromConfig config).eval world = (.ok (), after))
    (hkeep : ∀ request ∈ statements, ¬ request.1.Deletes) :
    (∃ again, (seedFromConfig config).eval ⟨afterStatements after.db statements, []⟩ =
        (.ok (), again) ∧
      again.db.domains = (afterStatements after.db statements).domains ∧
      again.db.mailboxes = (afterStatements after.db statements).mailboxes ∧
      again.db.records = (afterStatements after.db statements).records) ↔ config.records = [] := by
  have hseeded : Seeded config (afterStatements after.db statements) :=
    (seeded_of_ok hfirst).retains (retains_afterStatements after.db hkeep)
  rw [seedFromConfig_seeded hseeded]
  constructor
  · intro hagain
    obtain ⟨again, hagain, -, -, hrecords⟩ := hagain
    have hnext : again.db.records.next =
        (afterStatements after.db statements).records.next + config.records.length :=
      (seedRecords_spec hagain).2.2
    rw [hrecords] at hnext
    exact List.length_eq_zero_iff.mp (by omega)
  · intro hnil
    rw [hnil]
    exact ⟨_, rfl, rfl, rfl, rfl⟩

/-- A configuration without records can be seeded again after a further domain was created. -/
theorem seed_again_domain : ∃ after again,
    (seedFromConfig ⟨["x.io"], [.simple "A@x.io"], []⟩).eval ⟨Db.empty, []⟩ = (.ok (), after) ∧
      (seedFromConfig ⟨["x.io"], [.simple "A@x.io"], []⟩).eval
        ⟨afterStatements after.db [(.createDomain "y.io", none)], []⟩ = (.ok (), again) := by
  obtain ⟨after, hfirst⟩ : ∃ after, (seedFromConfig ⟨["x.io"], [.simple "A@x.io"], []⟩).eval
      ⟨Db.empty, []⟩ = (.ok (), after) := ⟨_, rfl⟩
  obtain ⟨again, hagain, -⟩ := (seed_again_iff ⟨["x.io"], [.simple "A@x.io"], []⟩
    [(.createDomain "y.io", none)] hfirst (by simp [Statement.Deletes])).mpr rfl
  exact ⟨after, again, hfirst, hagain⟩

/-- A configuration with one record stops the second start: the record is there already. -/
theorem not_seed_again_record :
    ¬ ∀ (config : Config) (world after : World),
      (seedFromConfig config).eval world = (.ok (), after) →
      ((seedFromConfig config).eval ⟨after.db, []⟩).1 = .ok () := by
  intro h
  obtain ⟨after, hfirst, hagain⟩ : ∃ after,
      (seedFromConfig ⟨["x.io"], [], [⟨"x.io", .A, "192.0.2.1", 3600⟩]⟩).eval ⟨Db.empty, []⟩ =
        (.ok (), after) ∧
      ((seedFromConfig ⟨["x.io"], [], [⟨"x.io", .A, "192.0.2.1", 3600⟩]⟩).eval ⟨after.db, []⟩).1 =
        .error .uniqueViolation := ⟨_, rfl, rfl⟩
  have hok := h _ _ after hfirst
  rw [hagain] at hok
  cases hok

end Zonemail
