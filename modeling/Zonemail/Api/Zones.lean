import Zonemail.Api.Handlers

/-!
# The domain of a record

`create_record` and `patch_record` look up the domain that a record names, so that the DNS server
answers from a provisioned zone, and write the record some statements later. `delete_domain` takes
the records of the domain along. A domain that is deleted between the lookup and the write leaves
the record without a domain. `provisioned_of_run` says that this is the only way: in every
interleaving of any number of requests, with any faults, every record names a stored domain as long
as no domain is deleted while a request that has been let through is still to write a record of it.
-/

namespace Zonemail

open Library

/-- Every record names a stored domain. -/
def Db.Provisioned (db : Db) : Prop :=
  ∀ record ∈ db.records.rows, (db.domains.get? record.domainId).isSome

/-- The effect writes a record of the domain. -/
def WritesRecordOf (domainId : String) : Effect → Prop
  | .sql (.createRecord record) => record.domainId = domainId
  | .sql (.updateRecord _ record) => record.domainId = domainId
  | _ => False

/-! ## What a statement does to domains and records -/

namespace Statement

variable {statement : Statement} {db after : Db}

/-- A record after a statement was there, or the statement wrote it. -/
theorem Change.record (h : Change db statement after) {record : Record}
    (hrecord : record ∈ after.records.rows) :
    record ∈ db.records.rows ∨ WritesRecordOf record.domainId (.sql statement) := by
  cases h with
  | createRecord =>
      rw [AutoTable.rows_push] at hrecord
      rcases List.mem_append.mp hrecord with hold | hnew
      · exact .inl hold
      · rw [List.mem_singleton.mp hnew]
        exact .inr rfl
  | updateRecord =>
      obtain ⟨row, hrow, rfl⟩ := List.mem_map.mp hrecord
      split
      · exact .inr rfl
      · exact .inl hrow
  | deleteRecord => exact .inl (List.mem_of_mem_filter hrecord)
  | deleteDomain =>
      unfold Db.removeDomain at hrecord
      split at hrecord
      · exact .inl hrecord
      · exact .inl (List.mem_of_mem_filter hrecord)
  | _ => exact .inl hrecord

/-- Only `deleteDomain` removes a domain. -/
theorem Change.domain (h : Change db statement after) {id : String}
    (hid : (db.domains.get? id).isSome) :
    (after.domains.get? id).isSome ∨ statement = .deleteDomain id := by
  cases h with
  | createDomain hinsert => exact .inl (Table.isSome_of_insert? hinsert hid)
  | @deleteDomain deleted =>
      by_cases hsame : deleted = id
      · exact .inr (by rw [hsame])
      · obtain ⟨domain, hdomain⟩ := Option.isSome_iff_exists.mp hid
        have hkey : domain.id = id := Table.key_of_get? hdomain
        unfold Db.removeDomain
        split
        · exact .inl hid
        · refine .inl (Option.isSome_of_eq_some (Table.get?_remove_of_not hdomain ?_))
          simp [hkey, Ne.symm hsame]
  | _ => exact .inl hid

/-- A stored domain is deleted with its records. -/
theorem Change.records_deleted {id : String} (h : Change db (.deleteDomain id) after)
    (hid : (db.domains.get? id).isSome) : ∀ record ∈ after.records.rows, record.domainId ≠ id := by
  cases h with
  | read hreads => exact hreads.elim
  | deleteDomain =>
      intro record hrecord
      unfold Db.removeDomain at hrecord
      split at hrecord
      · rename_i hnone
        rw [hnone] at hid
        cases hid
      · simpa using (List.mem_filter.mp hrecord).2

/-- A statement that writes records only of stored domains keeps every record's domain. -/
theorem Change.provisioned (h : Change db statement after) (hdb : db.Provisioned)
    (hwrites : ∀ id, WritesRecordOf id (.sql statement) → (db.domains.get? id).isSome) :
    after.Provisioned := by
  intro record hrecord
  have hstored : (db.domains.get? record.domainId).isSome := by
    rcases h.record hrecord with hold | hwritten
    · exact hdb record hold
    · exact hwrites record.domainId hwritten
  rcases h.domain hstored with hkept | rfl
  · exact hkept
  · exact absurd rfl (h.records_deleted hstored record hrecord)

end Statement

/-! ## Requests -/

/-- The requests that provision and delete domains and write and delete records. -/
inductive ZoneRequest where
  | createDomain (body : Option Api.NewDomain)
  | deleteDomain (domainId : String)
  | createRecord (body : Option Api.NewRecord)
  | patchRecord (recordId : Option Nat) (body : Option Api.PatchRecord)
  | deleteRecord (recordId : Option Nat)

/-- The handler of a request. -/
def ZoneRequest.program : ZoneRequest → Prog Api.Response
  | .createDomain body => Api.createDomain body
  | .deleteDomain domainId => Api.deleteDomain domainId
  | .createRecord body => Api.createRecord body
  | .patchRecord recordId body => Api.patchRecord recordId body
  | .deleteRecord recordId => Api.deleteRecord recordId

/-- What a request has performed. -/
abbrev RequestHistory := Program.History Effect Answer

/-- The lookups of the domain among what a request has performed. -/
def lookups (domainId : String) (history : RequestHistory) : RequestHistory :=
  history.filter (fun event => event.1 = .sql (.getDomain domainId))

/-- The last lookup of the domain found it. -/
def FoundLast (domainId : String) (history : RequestHistory) : Prop :=
  ∃ domain, (lookups domainId history).getLast? =
    some ⟨.sql (.getDomain domainId), .ok domain⟩

/-- Anything but a lookup leaves the last one. -/
theorem FoundLast.of_other {domainId : String} {history : RequestHistory}
    {event : Σ effect, Answer effect} (h : FoundLast domainId history)
    (hother : event.1 ≠ .sql (.getDomain domainId)) : FoundLast domainId (history ++ [event]) := by
  obtain ⟨domain, hlast⟩ := h
  exact ⟨domain, by simpa [lookups, hother] using hlast⟩

/-- A lookup that has just been made is the last one. -/
theorem FoundLast.answer {domainId : String} {history : RequestHistory}
    {answer : Except DbError Domain}
    (h : FoundLast domainId (history ++ [⟨.sql (.getDomain domainId), answer⟩])) :
    ∃ domain, answer = .ok domain := by
  obtain ⟨domain, hlast⟩ := h
  rw [lookups, List.filter_append, List.filter_cons_of_pos (by simp), List.filter_nil,
    List.getLast?_concat, Option.some.injEq] at hlast
  exact ⟨domain, eq_of_heq (Sigma.mk.inj_iff.mp hlast).2⟩

/-- A record is written only when the last lookup of its domain found it. -/
def ChecksDomain (history : RequestHistory) (effect : Effect) : Prop :=
  ∀ domainId, WritesRecordOf domainId effect → FoundLast domainId history

/-- A program keeps to that. -/
abbrev KeepsChecking {α : Type} (program : Prog α) (history : RequestHistory) : Prop :=
  program.Safe (fun _ _ => True) ChecksDomain (fun _ _ => True) history

/-- The request has been let through: it may write a record of the domain without another lookup. -/
def Admitted {α : Type} (program : Prog α) (domainId : String) : Prop :=
  ∃ later rest effect, program.After later rest ∧ lookups domainId later = [] ∧
    rest.next? = some effect ∧ WritesRecordOf domainId effect

/-- A request that may write without another lookup has found the domain at the last one. -/
theorem KeepsChecking.of_admitted {α : Type} {program : Prog α} {history : RequestHistory}
    {domainId : String} (h : KeepsChecking program history)
    (hadmitted : Admitted program domainId) :
    FoundLast domainId history := by
  obtain ⟨later, rest, effect, hafter, hnone, hnext, hwrites⟩ := hadmitted
  obtain ⟨domain, hlast⟩ := (h.after hafter (fun _ _ => trivial)).next? hnext domainId hwrites
  rw [lookups, List.filter_append, ← lookups, ← lookups, hnone, List.append_nil] at hlast
  exact ⟨domain, hlast⟩

/-- A request that has looked up nothing has not been let through. -/
theorem KeepsChecking.not_admitted {α : Type} {program : Prog α} {domainId : String}
    (h : KeepsChecking program []) : ¬ Admitted program domainId := by
  intro hadmitted
  obtain ⟨domain, hlast⟩ := h.of_admitted hadmitted
  cases hlast

namespace Api

theorem keepsChecking_insertDomain (domainId : String) (history : RequestHistory) :
    KeepsChecking (insertDomain domainId) history := by
  refine .perform nofun (fun created _ => ?_)
  cases created with
  | ok domain => exact .done trivial
  | error e =>
      refine .perform nofun (fun found _ => ?_)
      cases found with
      | ok domain => exact .done trivial
      | error _ => exact .done trivial

theorem keepsChecking_createDomain (body : Option NewDomain) (history : RequestHistory) :
    KeepsChecking (createDomain body) history := by
  cases body with
  | none => exact .done trivial
  | some body =>
      simp only [createDomain]
      split
      · exact .done trivial
      · refine .perform nofun (fun found _ => ?_)
        cases found with
        | ok domain => exact .done trivial
        | error e => exact keepsChecking_insertDomain _ _

theorem keepsChecking_deleteDomain (domainId : String) (history : RequestHistory) :
    KeepsChecking (deleteDomain domainId) history := by
  refine .perform nofun (fun found _ => ?_)
  cases found with
  | error e => exact .done trivial
  | ok domain =>
      refine .perform nofun (fun deleted _ => ?_)
      cases deleted with
      | ok => exact .done trivial
      | error e => exact .done trivial

/-- A record that passes the check has its domain found at the last lookup. -/
theorem keepsChecking_validateRecordFields (domainId value : String) (history : RequestHistory) :
    (validateRecordFields domainId value).Safe (fun _ _ => True) ChecksDomain
      (fun later result => result = .ok () → FoundLast domainId later) history := by
  unfold validateRecordFields
  split
  · exact .done nofun
  · refine .perform nofun (fun found _ => ?_)
    cases found with
    | ok domain => exact .done (fun _ => ⟨domain, by simp [lookups]⟩)
    | error e => exact .done nofun

theorem keepsChecking_insertRecord (record : RecordDTO) {history : RequestHistory}
    (hfound : FoundLast record.domainId history) : KeepsChecking (insertRecord record) history := by
  refine .perform ?_ (fun created _ => ?_)
  · intro domainId heq
    obtain rfl := heq
    exact hfound
  · cases created with
    | ok created => exact .done trivial
    | error e =>
        refine .perform nofun (fun rows _ => ?_)
        cases rows with
        | error _ => exact .done trivial
        | ok rows => exact .done trivial

theorem keepsChecking_createRecord (body : Option NewRecord) (history : RequestHistory) :
    KeepsChecking (createRecord body) history := by
  cases body with
  | none => exact .done trivial
  | some body =>
      simp only [createRecord]
      split
      · exact .done trivial
      · refine Program.safe_bind (keepsChecking_validateRecordFields _ _ history)
          (fun later result hresult => ?_)
        cases result with
        | error problem => exact .done trivial
        | ok =>
            refine .perform nofun (fun rows _ => ?_)
            cases rows with
            | error e => exact .done trivial
            | ok rows =>
                dsimp only [Program.bind]
                split
                · exact .done trivial
                · exact keepsChecking_insertRecord _ (FoundLast.of_other (hresult rfl) nofun)

theorem keepsChecking_updateRecord (recordId : Nat) (record : RecordDTO) {history : RequestHistory}
    (hfound : FoundLast record.domainId history) :
    KeepsChecking (updateRecord recordId record) history := by
  refine .perform ?_ (fun updated _ => ?_)
  · intro domainId heq
    obtain rfl := heq
    exact hfound
  · cases updated with
    | error e => exact .done trivial
    | ok =>
        refine .perform nofun (fun found _ => ?_)
        cases found with
        | ok record => exact .done trivial
        | error e => exact .done trivial

theorem keepsChecking_patchRecord (recordId : Option Nat) (body : Option PatchRecord)
    (history : RequestHistory) : KeepsChecking (patchRecord recordId body) history := by
  cases recordId with
  | none => exact .done trivial
  | some recordId =>
      cases body with
      | none => exact .done trivial
      | some body =>
          refine .perform nofun (fun found _ => ?_)
          cases found with
          | error e => exact .done trivial
          | ok record =>
              dsimp only [Program.bind]
              split
              · exact .done trivial
              · refine Program.safe_bind (keepsChecking_validateRecordFields _ _ _)
                  (fun later result hresult => ?_)
                cases result with
                | error problem => exact .done trivial
                | ok =>
                    refine .perform nofun (fun rows _ => ?_)
                    cases rows with
                    | error e => exact .done trivial
                    | ok rows =>
                        dsimp only [Program.bind]
                        split
                        · exact .done trivial
                        · exact keepsChecking_updateRecord _ _
                            (FoundLast.of_other (hresult rfl) nofun)

theorem keepsChecking_deleteRecord (recordId : Option Nat) (history : RequestHistory) :
    KeepsChecking (deleteRecord recordId) history := by
  cases recordId with
  | none => exact .done trivial
  | some recordId =>
      refine .perform nofun (fun found _ => ?_)
      cases found with
      | error e => exact .done trivial
      | ok record =>
          refine .perform nofun (fun deleted _ => ?_)
          cases deleted with
          | ok => exact .done trivial
          | error e => exact .done trivial

end Api

theorem ZoneRequest.keepsChecking (request : ZoneRequest) : KeepsChecking request.program [] := by
  cases request with
  | createDomain body => exact Api.keepsChecking_createDomain body []
  | deleteDomain domainId => exact Api.keepsChecking_deleteDomain domainId []
  | createRecord body => exact Api.keepsChecking_createRecord body []
  | patchRecord recordId body => exact Api.keepsChecking_patchRecord recordId body []
  | deleteRecord recordId => exact Api.keepsChecking_deleteRecord recordId []

/-! ## Interleavings -/

section Interleavings

variable {Thread : Type}

/-- A domain is deleted only while no request that has been let through is still to write a record
of it. -/
def DeletedUnclaimed (pool : Pool Thread Effect Answer Api.Response Db)
    (label : Thread × Statement.Fault) : Prop :=
  match (pool.program label.1).next?, label.2 with
  | some (.sql (.deleteDomain domainId)), none =>
      ∀ thread, ¬ Admitted (pool.program thread) domainId
  | _, _ => True

/-- Every record names a stored domain, and so does every record that a request let through may
still write. -/
structure ZonesKept (pool : Pool Thread Effect Answer Api.Response Db) : Prop where
  provisioned : pool.store.Provisioned
  admitted : ∀ thread domainId, Admitted (pool.program thread) domainId →
    (pool.store.domains.get? domainId).isSome

variable {pool next : Pool Thread Effect Answer Api.Response Db}
  {label : Thread × Statement.Fault} {effect : Effect}
  {resume : Answer effect → Prog Api.Response}

/-- An allowed step keeps the domain that a request let through is to write a record of. -/
theorem DeletedUnclaimed.domain (h : DeletedUnclaimed pool label)
    (hprogram : pool.program label.1 = .perform effect resume) {thread : Thread}
    {domainId : String} (hadmitted : Admitted (pool.program thread) domainId)
    (hstored : (pool.store.domains.get? domainId).isSome) :
    ((effect.execute label.2 pool.store).2.domains.get? domainId).isSome := by
  cases effect with
  | reply command accepted => exact hstored
  | sql statement =>
      cases hfault : label.2 with
      | some text => exact hstored
      | none =>
          rcases statement.change_of_execute none pool.store with hsame | hchange
          · rw [Effect.execute, hsame]
            exact hstored
          · rcases hchange.domain hstored with hkept | rfl
            · exact hkept
            · simp only [DeletedUnclaimed, hprogram, hfault, Program.next?] at h
              exact absurd hadmitted (h thread)

/-- A pending write is one that the request may make without another lookup. -/
theorem admitted_of_next? {α : Type} {program : Prog α} {effect : Effect} {domainId : String}
    (hnext : program.next? = some effect) (hwrites : WritesRecordOf domainId effect) :
    Admitted program domainId :=
  ⟨[], program, effect, .refl, rfl, hnext, hwrites⟩

/-- An allowed step keeps every record's domain. -/
theorem ZonesKept.provisioned_execute (h : ZonesKept pool)
    (hprogram : pool.program label.1 = .perform effect resume) :
    (effect.execute label.2 pool.store).2.Provisioned := by
  cases effect with
  | reply command accepted => exact h.provisioned
  | sql statement =>
      rcases statement.change_of_execute label.2 pool.store with hsame | hchange
      · rw [Effect.execute, hsame]
        exact h.provisioned
      · refine hchange.provisioned h.provisioned (fun domainId hwrites => ?_)
        refine h.admitted label.1 domainId (admitted_of_next? ?_ hwrites)
        rw [hprogram, Program.next?]

variable [DecidableEq Thread]

/-- One allowed step of requests that check the domain of a record before they write it. -/
theorem ZonesKept.step {trace moments : List (Moment Thread Effect Answer Db)} (h : ZonesKept pool)
    (hunclaimed : DeletedUnclaimed pool label)
    (hstep : Pool.step Effect.execute pool label = some (moments, next))
    (hchecks : KeepsChecking (next.program label.1) (Pool.history label.1 (trace ++ moments))) :
    ZonesKept next := by
  obtain ⟨effect, resume, hprogram, rfl, hstore, hprograms⟩ := Pool.step_eq_some hstep
  constructor
  · rw [hstore]
    exact h.provisioned_execute hprogram
  · intro thread domainId hadmitted
    rw [hstore]
    by_cases hthread : thread = label.1
    · subst thread
      by_cases hlookup : effect = .sql (.getDomain domainId)
      · -- The lookup that let the request through has found the domain.
        subst hlookup
        have hfound := hchecks.of_admitted hadmitted
        rw [Pool.history_snoc_self _ (by rfl)] at hfound
        obtain ⟨domain, hanswer⟩ := hfound.answer
        rcases Statement.execute_getDomain domainId label.2 pool.store with
          ⟨stored, hstored, hdone⟩ | ⟨e, hfailed⟩
        · rw [Effect.execute, hdone]
          exact Option.isSome_of_eq_some hstored
        · rw [Effect.execute, hfailed] at hanswer
          cases hanswer
      · -- The request could write without another lookup before this step, too.
        obtain ⟨later, rest, written, hafter, hnone, hnext, hwrites⟩ := hadmitted
        rw [hprograms, Function.update_self] at hafter
        have hbefore : Admitted (pool.program label.1) domainId := by
          rw [hprogram]
          refine ⟨_, rest, written, .step _ hafter, ?_, hnext, hwrites⟩
          rw [lookups, List.filter_cons_of_neg (by simpa using hlookup)]
          exact hnone
        exact hunclaimed.domain hprogram hbefore (h.admitted label.1 domainId hbefore)
    · rw [hprograms, Function.update_of_ne hthread] at hadmitted
      exact hunclaimed.domain hprogram hadmitted (h.admitted thread domainId hadmitted)

/-- The requests over a database. -/
def zonePool (requests : Thread → ZoneRequest) (db : Db) :
    Pool Thread Effect Answer Api.Response Db :=
  ⟨db, fun thread => (requests thread).program⟩

/-- In every interleaving of any number of requests that write domains and records, with any faults,
every record names a stored domain, as long as no domain is deleted while a request that has been
let through is still to write a record of it. -/
theorem provisioned_of_run {requests : Thread → ZoneRequest} {db : Db}
    {trace : List (Moment Thread Effect Answer Db)}
    {finish : Pool Thread Effect Answer Api.Response Db} (hstart : db.Provisioned)
    (hrun : Run (Pool.step Effect.execute) DeletedUnclaimed (zonePool requests db) trace finish) :
    finish.store.Provisioned := by
  have hsafe : ∀ {trace finish},
      Run (Pool.step Effect.execute) DeletedUnclaimed (zonePool requests db) trace finish →
      Pool.SafeRun Effect.execute (fun _ => True) (fun _ _ => True) (fun _ => ChecksDomain) trace
        finish :=
    fun hrun => Pool.safe_run (fun _ _ _ _ => trivial) (fun _ _ _ _ _ _ _ => trivial) trivial
      (fun thread => (requests thread).keepsChecking) hrun
  suffices hkept : ZonesKept finish from hkept.provisioned
  induction hrun with
  | refl =>
      -- A request begins without having looked up any domain.
      exact ⟨hstart, fun thread domainId hadmitted =>
        absurd hadmitted (requests thread).keepsChecking.not_admitted⟩
  | snoc label hrun hunclaimed hstep ih =>
      exact ih.step hunclaimed hstep ((hsafe (hrun.snoc label hunclaimed hstep)).threads label.1)

end Interleavings

/-- One domain without records. -/
def oneZone : Db := ((Api.createDomain (some ⟨"x.io"⟩)).eval ⟨.empty, []⟩).2.db

theorem provisioned_oneZone : oneZone.Provisioned := nofun

/-- The domain is deleted while a record of it is created. -/
def deletedAndWritten : Bool → ZoneRequest
  | true => .deleteDomain "x.io"
  | false => .createRecord (some ⟨"x.io", "A", "1.2.3.4", 60⟩)

/-- The record is created before the domain is deleted, and goes with it. -/
theorem provisioned_writtenBefore : ∃ trace finish,
    Run (Pool.step Effect.execute) DeletedUnclaimed (zonePool deletedAndWritten oneZone) trace
      finish ∧
    (∀ thread, (finish.program thread).next? = none) ∧ finish.store.records.rows = [] ∧
    finish.store.records.next = 2 ∧ finish.store.Provisioned := by
  obtain ⟨trace, finish, hexecute, hunclaimed, hdone, hrecords, hnext⟩ : ∃ trace finish,
      execute (Pool.step Effect.execute) (zonePool deletedAndWritten oneZone)
        [(false, none), (true, none), (false, none), (false, none), (true, none)] =
          some (trace, finish) ∧
      AllowedAlong (Pool.step Effect.execute) DeletedUnclaimed (zonePool deletedAndWritten oneZone)
        [(false, none), (true, none), (false, none), (false, none), (true, none)] ∧
      (∀ thread, (finish.program thread).next? = none) ∧ finish.store.records.rows = [] ∧
      finish.store.records.next = 2 := by
    refine ⟨_, _, rfl, ?_, ?_, rfl, rfl⟩
    · refine ⟨trivial, trivial, trivial, trivial, ?_, trivial⟩
      rintro (_ | _)
      · exact KeepsChecking.not_admitted (.done trivial)
      · refine KeepsChecking.not_admitted (.perform nofun (fun deleted _ => ?_))
        cases deleted with
        | ok => exact .done trivial
        | error e => exact .done trivial
    · rintro (_ | _)
      · rfl
      · rfl
  have hrun := execute_run_of_allowed hexecute hunclaimed
  exact ⟨trace, finish, hrun, hdone, hrecords, hnext, provisioned_of_run provisioned_oneZone hrun⟩

/-- The domain is deleted after the record's check and before its insert: when both requests have
ended the domain is gone and the record is there. -/
theorem unprovisioned_writtenAfter : oneZone.Provisioned ∧ ∃ trace finish,
    Run (Pool.step Effect.execute) (fun _ _ => True) (zonePool deletedAndWritten oneZone) trace
      finish ∧
    (∀ thread, (finish.program thread).next? = none) ∧ ¬ finish.store.Provisioned := by
  refine ⟨provisioned_oneZone, ?_⟩
  obtain ⟨trace, finish, hexecute, hdone, hrecords, hdomains⟩ : ∃ trace finish,
      execute (Pool.step Effect.execute) (zonePool deletedAndWritten oneZone)
        [(false, none), (true, none), (true, none), (false, none), (false, none)] =
          some (trace, finish) ∧
      (∀ thread, (finish.program thread).next? = none) ∧
      finish.store.records.rows = [⟨⟨"x.io", .A, "1.2.3.4", 60⟩, 1⟩] ∧
      finish.store.domains.get? "x.io" = none := by
    refine ⟨_, _, rfl, ?_, rfl, rfl⟩
    rintro (_ | _)
    · rfl
    · rfl
  refine ⟨trace, finish, execute_run hexecute, hdone, fun h => ?_⟩
  have hstored := h ⟨⟨"x.io", .A, "1.2.3.4", 60⟩, 1⟩ (hrecords ▸ List.mem_singleton_self _)
  rw [hdomains] at hstored
  cases hstored

end Zonemail
