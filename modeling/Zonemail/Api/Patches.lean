import Zonemail.Api.Addressed
import Zonemail.Library.Linearizable

/-!
# Concurrent patches of one row

A patch of a record or of a mailbox reads the row, lays its fields over what it has read, checks the
result and writes every column of it back, so it also writes the columns that it was to leave
untouched, as they were when it read them. A patch of another column that was written meanwhile is
lost. `patched_of_run` says that this is the only way: when at every such write the columns that the
request omits still have the values it has read, requests that are all answered with 200 leave the
row that their patches make of it, laid over it one after the other in the order of the writes.
-/

namespace Zonemail

open Library

namespace Api

/-! ## Rows and patches -/

/-- The row that requests patch. -/
inductive PatchTarget where
  | record (recordId : Nat)
  | mailbox (mailboxId : String)

namespace PatchTarget

@[reducible] def Body : PatchTarget → Type
  | .record _ => PatchRecord
  | .mailbox _ => PatchMailbox

@[reducible] def Row : PatchTarget → Type
  | .record _ => Record
  | .mailbox _ => Mailbox

/-- The handler of a patch. -/
def program : (target : PatchTarget) → target.Body → Prog Response
  | .record recordId, body => patchRecord (some recordId) (some body)
  | .mailbox mailboxId, body => patchMailbox mailboxId (some body)

/-- The row as it is stored. -/
def row : (target : PatchTarget) → Db → Option target.Row
  | .record recordId, db => db.records.get? recordId
  | .mailbox mailboxId, db => db.mailboxes.get? mailboxId

/-- The row with a patch laid over it, unless the patch does not fit the row. -/
def patched : (target : PatchTarget) → target.Body → target.Row → Option target.Row
  | .record _, body, row =>
      (patchedRecord row body).toOption.map (fun fields => ⟨fields, row.id⟩)
  | .mailbox _, body, row =>
      (overrideDomain row body.domainId).toOption.map (fun owned =>
        { owned with forwardTo := body.forwardTo.or owned.forwardTo })

/-- Two rows have the same values in the columns that a patch omits. -/
def SameOmitted : (target : PatchTarget) → target.Body → target.Row → target.Row → Prop
  | .record _, body, first, second =>
      (body.domainId = none → first.domainId = second.domainId) ∧
        (body.recordType = none → first.recordType = second.recordType) ∧
        (body.value = none → first.value = second.value) ∧
        (body.ttl = none → first.ttl = second.ttl)
  | .mailbox _, body, first, second =>
      (body.domainId = none → first.domainId = second.domainId) ∧
        (body.forwardTo = none → first.forwardTo = second.forwardTo)

/-- Reading the row. -/
def readEvent : (target : PatchTarget) → target.Row → Σ effect, Answer effect
  | .record recordId, row => ⟨.sql (.getRecord recordId), .ok row⟩
  | .mailbox mailboxId, row => ⟨.sql (.getMailbox mailboxId), .ok row⟩

/-- Writing every column of the row. -/
def write : (target : PatchTarget) → target.Row → Statement
  | .record recordId, row => .updateRecord recordId row.toRecordDTO
  | .mailbox _, row => .updateMailbox row.id row.domainId row.forwardTo

@[reducible] def Fixed : PatchTarget → Type
  | .record _ => Nat
  | .mailbox _ => String × String

/-- The part of a row that no patch changes. -/
def fixed : (target : PatchTarget) → target.Row → target.Fixed
  | .record _, row => row.id
  | .mailbox _, row => (row.id, row.domainId)

end PatchTarget

/-! ## What a patch makes of a row -/

/-- The type that a patch gives to a record. -/
def PatchRecord.type (body : PatchRecord) (old : RecordType) : Except ApiProblem RecordType :=
  match body.recordType with
  | none => .ok old
  | some recordType => parseRecordType (Text.trim recordType)

theorem patchedRecord_eq (record : Record) (body : PatchRecord) :
    patchedRecord record body = (body.type record.recordType).map (fun recordType =>
      { domainId := (body.domainId.map (fun id => Text.toLowercase (Text.trim id))).getD
          record.domainId
        recordType := recordType
        value := (body.value.map Text.trim).getD record.value
        ttl := body.ttl.getD record.ttl }) := by
  cases htype : body.recordType with
  | none => simp [patchedRecord, PatchRecord.type, htype, Except.map]
  | some recordType =>
      simp only [patchedRecord, PatchRecord.type, htype]
      cases parseRecordType (Text.trim recordType) with
      | error problem => rfl
      | ok parsed => rfl

/-- What replaces a missing value matters only when the value is missing. -/
theorem getD_congr {β : Type} {value : Option β} {first second : β}
    (h : value = none → first = second) : value.getD first = value.getD second := by
  cases value with
  | none => exact h rfl
  | some value => rfl

namespace PatchTarget

theorem patched_record {recordId : Nat} {body : PatchRecord} {read written : Record}
    (h : (PatchTarget.record recordId).patched body read = some written) :
    patchedRecord read body = .ok written.toRecordDTO ∧ written.id = read.id := by
  obtain ⟨fields, hfields, rfl⟩ := Option.map_eq_some_iff.mp h
  cases hpatched : patchedRecord read body with
  | error problem =>
      rw [hpatched] at hfields
      cases hfields
  | ok dto =>
      rw [hpatched] at hfields
      cases hfields
      exact ⟨rfl, rfl⟩

theorem patched_mailbox {mailboxId : String} {body : PatchMailbox} {read written : Mailbox}
    (h : (PatchTarget.mailbox mailboxId).patched body read = some written) :
    overrideDomain read body.domainId = .ok read ∧
      written = { read with forwardTo := body.forwardTo.or read.forwardTo } := by
  obtain ⟨owned, howned, rfl⟩ := Option.map_eq_some_iff.mp h
  cases hdomain : overrideDomain read body.domainId with
  | error response =>
      rw [hdomain] at howned
      cases howned
  | ok overridden =>
      rw [hdomain] at howned
      cases howned
      obtain rfl := eq_of_overrideDomain hdomain
      exact ⟨rfl, rfl⟩

variable {target : PatchTarget} {body : target.Body} {read current written : target.Row}

theorem fixed_patched (h : target.patched body read = some written) :
    target.fixed written = target.fixed read := by
  cases target with
  | record recordId => exact (patched_record h).2
  | mailbox mailboxId =>
      rw [(patched_mailbox h).2]
      rfl

/-- A patch does not change the columns that it omits. -/
theorem sameOmitted_patched (h : target.patched body read = some written) :
    target.SameOmitted body read written := by
  cases target with
  | record recordId =>
      have hfields := (patched_record h).1
      rw [patchedRecord_eq] at hfields
      cases htype : PatchRecord.type body read.recordType with
      | error problem =>
          rw [htype] at hfields
          cases hfields
      | ok recordType =>
          rw [htype] at hfields
          have hdto := Except.ok.inj hfields
          refine ⟨fun hnone => ?_, fun hnone => ?_, fun hnone => ?_, fun hnone => ?_⟩
          · rw [← hdto, hnone]
            rfl
          · rw [PatchRecord.type, hnone] at htype
            rw [← hdto]
            exact Except.ok.inj htype
          · rw [← hdto, hnone]
            rfl
          · rw [← hdto, hnone]
            rfl
  | mailbox mailboxId =>
      rw [(patched_mailbox h).2]
      refine ⟨fun _ => rfl, fun hnone => ?_⟩
      rw [hnone]
      rfl

theorem sameOmitted_refl (body : target.Body) (row : target.Row) :
    target.SameOmitted body row row := by
  cases target with
  | record recordId => exact ⟨fun _ => rfl, fun _ => rfl, fun _ => rfl, fun _ => rfl⟩
  | mailbox mailboxId => exact ⟨fun _ => rfl, fun _ => rfl⟩

/-- A patch makes the same of two rows that agree on the fixed part and on the columns it omits. -/
theorem patched_congr (hfixed : target.fixed current = target.fixed read)
    (hsame : target.SameOmitted body read current)
    (h : target.patched body read = some written) : target.patched body current = some written := by
  cases target with
  | record recordId =>
      obtain ⟨hdomain, htype, hvalue, httl⟩ := hsame
      obtain ⟨hfields, hid⟩ := patched_record h
      have hparsed : PatchRecord.type body current.recordType =
          PatchRecord.type body read.recordType := by
        unfold PatchRecord.type
        split
        · rename_i hnone
          rw [htype hnone]
        · rfl
      have heq : patchedRecord current body = .ok written.toRecordDTO := by
        rw [← hfields, patchedRecord_eq, patchedRecord_eq, hparsed,
          getD_congr (fun hnone => (hdomain (Option.map_eq_none_iff.mp hnone)).symm),
          getD_congr (fun hnone => (hvalue (Option.map_eq_none_iff.mp hnone)).symm),
          getD_congr (fun hnone => (httl hnone).symm)]
      have hkey : current.id = written.id := Eq.trans hfixed hid.symm
      simp only [patched, heq, Except.toOption, Option.map_some, hkey]
  | mailbox mailboxId =>
      obtain ⟨howned, rfl⟩ := patched_mailbox h
      obtain ⟨hid, hdomain⟩ := Prod.mk.inj hfixed
      have hcurrent : overrideDomain current body.domainId = .ok current := by
        cases hgiven : body.domainId with
        | none => rfl
        | some domainId =>
            rw [hgiven] at howned
            simp only [overrideDomain] at howned ⊢
            split at howned
            · cases howned
            · rename_i hprovided
              rw [hdomain, if_neg hprovided]
              rw [not_not.mp hprovided, ← hdomain]
      have hforward : body.forwardTo.or current.forwardTo = body.forwardTo.or read.forwardTo := by
        cases hgiven : body.forwardTo with
        | none => exact (hsame.2 hgiven).symm
        | some forwardTo => rfl
      simp only [patched, hcurrent, Except.toOption, Option.map_some, hforward]
      rw [show current.id = read.id from hid, show current.domainId = read.domainId from hdomain]

/-- A write that succeeds replaces the stored row. -/
theorem row_write {fault : Statement.Fault} {db : Db} {value : (target.write written).Value}
    (hok : ((target.write written).execute fault db).1 = .ok value)
    (hfixed : ∀ stored, target.row db = some stored → target.fixed stored = target.fixed written) :
    target.row ((target.write written).execute fault db).2 =
      (target.row db).map (fun _ => written) := by
  have hchange := Statement.change_of_answer hok
  generalize ((target.write written).execute fault db).2 = after at hchange
  cases target with
  | record recordId =>
      cases hchange with
      | read hreads => exact hreads.elim
      | updateRecord hunique =>
          have hmodify := Table.get?_modify db.records.toTable recordId
            (fun row => ⟨written.toRecordDTO, row.id⟩) (fun _ => rfl) recordId
          rw [if_pos rfl] at hmodify
          refine hmodify.trans ?_
          cases hstored : db.records.get? recordId with
          | none =>
              simp only [row, hstored]
              rfl
          | some stored =>
              have hid : stored.id = written.id := hfixed stored hstored
              simp only [row, hstored, Option.map_some, hid]
  | mailbox mailboxId =>
      cases hchange with
      | read hreads => exact hreads.elim
      | updateMailbox =>
          simp only [row, Table.get?_modify]
          cases hstored : db.mailboxes.get? mailboxId with
          | none =>
              split
              · rename_i hid
                rw [← hid, hstored]
                rfl
              · rfl
          | some stored =>
              have hid : stored.id = written.id :=
                (Prod.mk.inj (hfixed stored hstored)).1
              have hkey : stored.id = mailboxId := Table.key_of_get? hstored
              rw [if_pos (hkey.symm.trans hid), ← hid, hkey, hstored]
              simp [hid]

/-! ## What a request performs -/

/-- A statement that only reads. -/
def ReadEffect (effect : Effect) : Prop :=
  ∃ statement : Statement, effect = .sql statement ∧ statement.Reads

/-- A request reads, and writes rows with this fixed part only. -/
def PatchEffect (target : PatchTarget) (owner : Option target.Fixed) (effect : Effect) : Prop :=
  ReadEffect effect ∨
    ∃ written, effect = .sql (target.write written) ∧ owner = some (target.fixed written)

/-- A row that is read has this fixed part. -/
def PatchAnswer (target : PatchTarget) (owner : Option target.Fixed) (effect : Effect)
    (answer : Answer effect) : Prop :=
  ∀ row, (⟨effect, answer⟩ : Σ effect, Answer effect) = target.readEvent row →
    owner = some (target.fixed row)

/-- The request read the row, wrote what its patch makes of what it had read, and otherwise only
read. -/
def Performed (target : PatchTarget) (body : target.Body)
    (history : Program.History Effect Answer) : Prop :=
  ∃ before read written value after,
    history = before ++ ⟨.sql (target.write written), .ok value⟩ :: after ∧
      target.readEvent read ∈ before ∧ target.patched body read = some written ∧
      (∀ event ∈ before, ReadEffect event.1) ∧ ∀ event ∈ after, ReadEffect event.1

/-- What is shown of a request: its effects, and what it performed when it is answered with 200. -/
abbrev Patches (target : PatchTarget) (body : target.Body) (owner : Option target.Fixed)
    (program : Prog Response) (history : Program.History Effect Answer) : Prop :=
  program.Safe (PatchAnswer target owner) (fun _ => PatchEffect target owner)
    (fun history response => response.status = 200 → target.Performed body history) history

variable {owner : Option target.Fixed} {history : Program.History Effect Answer}

/-- A request that is refused. -/
theorem patches_refused {response : Response} (status : Nat) (h : response.status = status)
    (hstatus : status ≠ 200) : target.Patches body owner (.done response) history :=
  .done (fun hok => absurd (h.symm.trans hok) hstatus)

/-- A request that begins by reading. -/
theorem patches_read {statement : Statement} {next : Except DbError statement.Value → Prog Response}
    (hreads : statement.Reads)
    (hnext : ∀ answer, target.PatchAnswer owner (.sql statement) answer →
      target.Patches body owner (next answer) (history ++ [⟨.sql statement, answer⟩])) :
    target.Patches body owner (sql statement >>= next) history :=
  .perform (.inl ⟨statement, rfl, hreads⟩) hnext

theorem patches_record (recordId : Nat) (body : PatchRecord) (owner : Option Nat) :
    (PatchTarget.record recordId).Patches body owner
      ((PatchTarget.record recordId).program body) [] := by
  refine patches_read trivial (fun found hfound => ?_)
  cases found with
  | error e => exact patches_refused 404 rfl (by decide)
  | ok read =>
      have howner : owner = some read.id := hfound read rfl
      cases hpatched : patchedRecord read body with
      | error problem =>
          dsimp only
          rw [hpatched]
          exact patches_refused 400 rfl (by decide)
      | ok fields =>
          have hwritten : (PatchTarget.record recordId).patched body read =
              some ⟨fields, read.id⟩ := by
            simp only [patched, hpatched, Except.toOption, Option.map_some]
          dsimp only
          rw [hpatched]
          dsimp only
          rw [validateRecordFields]
          split
          · exact patches_refused 400 rfl (by decide)
          · refine patches_read trivial (fun domain _ => ?_)
            cases domain with
            | error e => exact patches_refused 400 rfl (by decide)
            | ok domain =>
                refine patches_read trivial (fun rows _ => ?_)
                cases rows with
                | error e => exact patches_refused 500 rfl (by decide)
                | ok rows =>
                    dsimp only
                    split
                    · exact patches_refused 409 rfl (by decide)
                    · refine .perform (.inr ⟨⟨fields, read.id⟩, rfl, howner⟩) (fun answer _ => ?_)
                      cases answer with
                      | error e => exact patches_refused 500 rfl (by decide)
                      | ok value =>
                          refine patches_read trivial (fun updated _ => ?_)
                          cases updated with
                          | error e => exact patches_refused 500 rfl (by decide)
                          | ok updated =>
                              refine .done (fun _ => ⟨[⟨.sql (.getRecord recordId), .ok read⟩,
                                ⟨.sql (.getDomain fields.domainId), .ok domain⟩,
                                ⟨.sql (.recordsOfDomain fields.domainId), .ok rows⟩], read,
                                ⟨fields, read.id⟩, value,
                                [⟨.sql (.getRecord recordId), .ok updated⟩], rfl,
                                List.mem_cons_self, hwritten, ?_, ?_⟩)
                              · simp [ReadEffect, Statement.Reads]
                              · simp [ReadEffect, Statement.Reads]

theorem patches_mailbox (mailboxId : String) (body : PatchMailbox)
    (owner : Option (String × String)) :
    (PatchTarget.mailbox mailboxId).Patches body owner
      ((PatchTarget.mailbox mailboxId).program body) [] := by
  refine patches_read trivial (fun found hfound => ?_)
  cases found with
  | error e => exact patches_refused 404 rfl (by decide)
  | ok read =>
      have howner : owner = some (read.id, read.domainId) := hfound read rfl
      cases hdomain : overrideDomain read body.domainId with
      | error response =>
          dsimp only
          rw [hdomain]
          exact patches_refused 400 (status_of_overrideDomain hdomain) (by decide)
      | ok owned =>
          obtain rfl := eq_of_overrideDomain hdomain
          have hwritten : (PatchTarget.mailbox mailboxId).patched body owned =
              some { owned with forwardTo := body.forwardTo.or owned.forwardTo } := by
            simp only [patched, hdomain, Except.toOption, Option.map_some]
          dsimp only
          rw [hdomain]
          refine .perform (.inr ⟨_, rfl, howner⟩) (fun answer _ => ?_)
          cases answer with
          | error e => exact patches_refused 500 rfl (by decide)
          | ok value =>
              refine patches_read trivial (fun updated _ => ?_)
              cases updated with
              | error e => exact patches_refused 500 rfl (by decide)
              | ok updated =>
                  refine .done (fun _ => ⟨[⟨.sql (.getMailbox mailboxId), .ok owned⟩], owned,
                    { owned with forwardTo := body.forwardTo.or owned.forwardTo }, value,
                    [⟨.sql (.getMailbox mailboxId), .ok updated⟩], rfl, List.mem_cons_self,
                    hwritten, ?_, ?_⟩)
                  · simp [ReadEffect, Statement.Reads]
                  · simp [ReadEffect, Statement.Reads]

theorem patches_program (target : PatchTarget) (body : target.Body)
    (owner : Option target.Fixed) : target.Patches body owner (target.program body) [] := by
  cases target with
  | record recordId => exact patches_record recordId body owner
  | mailbox mailboxId => exact patches_mailbox mailboxId body owner

/-! ## Interleavings -/

/-- Does the effect write a row back? -/
def Writes : Effect → Bool
  | .sql (.updateRecord _ _) | .sql (.updateMailbox _ _ _) => true
  | _ => false

theorem writes_write : Writes (.sql (target.write written)) = true := by
  cases target with
  | record recordId => rfl
  | mailbox mailboxId => rfl

theorem ReadEffect.writes {effect : Effect} (h : ReadEffect effect) : Writes effect = false := by
  obtain ⟨statement, rfl, hreads⟩ := h
  cases statement with
  | updateRecord | updateMailbox => exact hreads.elim
  | _ => rfl

/-- What is read is the stored row. -/
theorem row_of_readEvent {effect : Effect} {fault : Statement.Fault} {db : Db}
    (h : (⟨effect, (effect.execute fault db).1⟩ : Σ effect, Answer effect) =
      target.readEvent read) : target.row db = some read := by
  cases target with
  | record recordId =>
      obtain ⟨rfl, hanswer⟩ := Sigma.mk.inj_iff.mp h
      have hok : ((Statement.getRecord recordId).execute fault db).1 = .ok read := eq_of_heq hanswer
      cases fault with
      | some text => cases hok
      | none =>
          cases hstored : db.records.get? recordId with
          | none => simp [Statement.execute, Statement.run, Statement.found, hstored] at hok
          | some stored =>
              simp [Statement.execute, Statement.run, Statement.found, hstored] at hok
              rw [row, hstored, hok]
  | mailbox mailboxId =>
      obtain ⟨rfl, hanswer⟩ := Sigma.mk.inj_iff.mp h
      have hok : ((Statement.getMailbox mailboxId).execute fault db).1 = .ok read :=
        eq_of_heq hanswer
      rcases Statement.execute_getMailbox mailboxId fault db with
        ⟨stored, hstored, hget⟩ | ⟨e, hget⟩
      · rw [hget] at hok
        cases hok
        exact hstored
      · rw [hget] at hok
        cases hok

/-- What is read of a row with this fixed part has it. -/
theorem patchAnswer_execute {db : Db} (h : (target.row db).map target.fixed = owner)
    (effect : Effect) (fault : Statement.Fault) :
    target.PatchAnswer owner effect (effect.execute fault db).1 := by
  intro row hrow
  rw [← h, row_of_readEvent hrow, Option.map_some]

/-- The effects of a request keep the fixed part of the row. -/
theorem fixed_execute {db : Db} {effect : Effect}
    (h : (target.row db).map target.fixed = owner) (heffect : target.PatchEffect owner effect)
    (fault : Statement.Fault) :
    (target.row (effect.execute fault db).2).map target.fixed = owner := by
  rcases heffect with ⟨statement, rfl, hreads⟩ | ⟨written, rfl, hwritten⟩
  · rw [Effect.execute, Statement.execute_of_reads hreads]
    exact h
  · rw [Effect.execute]
    rcases Statement.execute_cases (target.write written) fault db with
      ⟨e, hfailed⟩ | ⟨value, after, -, hdone⟩
    · rw [hfailed]
      exact h
    · rw [row_write (by rw [hdone]) ?_]
      · cases hstored : target.row db with
        | none =>
            rw [hstored] at h
            exact h
        | some stored => exact hwritten.symm
      · intro stored hstored
        rw [hstored, hwritten] at h
        exact Option.some.inj h

section Interleavings

variable {Thread : Type}

/-- Requests that patch one row, before any of them has begun. -/
def patching (target : PatchTarget) (bodies : Thread → target.Body) (db : Db) :
    Pool Thread Effect Answer Response Db := ⟨db, fun thread => target.program (bodies thread)⟩

variable [DecidableEq Thread]

/-- When a request writes the row back, the columns that it omits have the values it has read. -/
def OmittedKept (target : PatchTarget) (bodies : Thread → target.Body)
    (trace : List (Moment Thread Effect Answer Db)) : Prop :=
  ∀ earlier moment later, trace = earlier ++ moment :: later → Writes moment.effect = true →
    ∀ read current, target.readEvent read ∈ Pool.history moment.thread earlier →
      target.row moment.before = some current →
      target.SameOmitted (bodies moment.thread) read current

variable {bodies : Thread → target.Body} {db : Db} {trace : List (Moment Thread Effect Answer Db)}
  {finish : Pool Thread Effect Answer Response Db}

/-- Every effect of a run of such requests keeps the fixed part of the row. -/
theorem safeRun_patching
    (hrun : Run (Pool.step Effect.execute) (fun _ _ => True) (target.patching bodies db) trace
      finish) :
    Pool.SafeRun Effect.execute
      (fun store => (target.row store).map target.fixed = (target.row db).map target.fixed)
      (target.PatchAnswer ((target.row db).map target.fixed))
      (fun _ _ => target.PatchEffect ((target.row db).map target.fixed)) trace finish := by
  refine Pool.safe_run (fun effect fault store h => patchAnswer_execute h effect fault)
    (fun _ _ effect fault store h heffect => fixed_execute h heffect fault) rfl (fun thread => ?_)
    hrun
  exact (target.patches_program (bodies thread) _).mono (fun _ _ _ => trivial)

/-- Whatever such requests read of the row has the fixed part of the row. -/
theorem patchAnswer_of_history
    (hrun : Run (Pool.step Effect.execute) (fun _ _ => True) (target.patching bodies db) trace
      finish) {thread : Thread} {event : Σ effect, Answer effect}
    (hevent : event ∈ Pool.history thread trace) :
    target.PatchAnswer ((target.row db).map target.fixed) event.1 event.2 := by
  obtain ⟨before, after, hsplit⟩ := List.append_of_mem hevent
  obtain ⟨earlier, moment, later, htrace, -, rfl, -, -⟩ := Pool.exists_moment_of_history hsplit
  obtain ⟨-, hbefore, fault, hanswer⟩ := (safeRun_patching hrun).moments _ _ _ htrace
  rw [hanswer]
  exact patchAnswer_execute hbefore moment.effect fault

/-- A request that was answered with 200 has read and written the row. -/
theorem performed_of_run
    (hrun : Run (Pool.step Effect.execute) (fun _ _ => True) (target.patching bodies db) trace
      finish) {thread : Thread} {response : Response}
    (hdone : finish.program thread = .done response) (hstatus : response.status = 200) :
    target.Performed (bodies thread) (Pool.history thread trace) := by
  have hafter := Pool.after_run hrun thread
  rw [hdone] at hafter
  exact (target.patches_program (bodies thread) ((target.row db).map target.fixed)).of_after hafter
    (fun _ hevent => patchAnswer_of_history hrun hevent) hstatus

/-- A moment of such a request is a read, or it is its write and comes after its reading of the
row. -/
theorem Performed.moment {earlier later : List (Moment Thread Effect Answer Db)}
    {moment : Moment Thread Effect Answer Db}
    (h : target.Performed body (Pool.history moment.thread (earlier ++ moment :: later))) :
    ReadEffect moment.effect ∨ ∃ read written value,
      target.readEvent read ∈ Pool.history moment.thread earlier ∧
        target.patched body read = some written ∧
        (⟨moment.effect, moment.answer⟩ : Σ effect, Answer effect) =
          ⟨.sql (target.write written), .ok value⟩ := by
  obtain ⟨before, read, written, value, after, hhistory, hread, hwritten, hbefore, hafter⟩ := h
  rw [Pool.history_append_cons] at hhistory
  cases hwrites : Writes moment.effect with
  | false =>
      have hmem : ⟨moment.effect, moment.answer⟩ ∈
          before ++ ⟨.sql (target.write written), .ok value⟩ :: after := by
        rw [← hhistory]
        simp
      rcases List.mem_append.mp hmem with hmem | hmem
      · exact .inl (hbefore _ hmem)
      · rcases List.mem_cons.mp hmem with heq | hmem
        · rw [(Sigma.mk.inj_iff.mp heq).1, writes_write] at hwrites
          cases hwrites
        · exact .inl (hafter _ hmem)
  | true =>
      obtain ⟨hearlier, hevent⟩ := eq_of_append_cons_once hhistory.symm
        (fun event h => (hbefore event h).writes) (fun event h => (hafter event h).writes) hwrites
      rw [hearlier]
      exact .inr ⟨read, written, value, hread, hwritten, hevent⟩

/-- Each effect of requests that were all answered with 200 leaves the row as it is, or it is a
write and lays the patch of its request over the row. -/
theorem row_of_moment
    (hrun : Run (Pool.step Effect.execute) (fun _ _ => True) (target.patching bodies db) trace
      finish)
    (hanswered : ∀ thread, ∃ response, finish.program thread = .done response ∧
      response.status = 200)
    (hkept : target.OmittedKept bodies trace)
    (earlier : List (Moment Thread Effect Answer Db)) (moment : Moment Thread Effect Answer Db)
    (later : List (Moment Thread Effect Answer Db)) (fault : Statement.Fault)
    (htrace : trace = earlier ++ moment :: later)
    (hanswer : moment.answer = (moment.effect.execute fault moment.before).1) :
    target.row (moment.effect.execute fault moment.before).2 =
      if Writes moment.effect then
        (target.row moment.before).bind (target.patched (bodies moment.thread))
      else target.row moment.before := by
  obtain ⟨response, hdone, hstatus⟩ := hanswered moment.thread
  have hperformed := performed_of_run hrun hdone hstatus
  rw [htrace] at hperformed
  rcases hperformed.moment with hreads | ⟨read, written, value, hread, hwritten, hevent⟩
  · rw [hreads.writes, if_neg Bool.false_ne_true]
    obtain ⟨statement, hstatement, hreads⟩ := hreads
    rw [hstatement, Effect.execute, Statement.execute_of_reads hreads]
  · have hknown : target.readEvent read ∈ Pool.history moment.thread trace := by
      rw [htrace, Pool.history_append_cons]
      exact List.mem_append_left _ hread
    have howner := patchAnswer_of_history hrun hknown read rfl
    obtain ⟨-, hfixed, -⟩ := (safeRun_patching hrun).moments _ _ _ htrace
    have hsame : ∀ stored, target.row moment.before = some stored →
        target.fixed stored = target.fixed read := by
      intro stored hstored
      rw [hstored, howner] at hfixed
      exact Option.some.inj hfixed
    have homitted := hkept earlier moment later htrace
    obtain ⟨thread, effect, answer, store⟩ := moment
    cases hevent
    dsimp only at hanswer hsame homitted ⊢
    rw [Effect.execute, row_write hanswer.symm (fun stored hstored =>
      (hsame stored hstored).trans (fixed_patched hwritten).symm), if_pos writes_write]
    cases hstored : target.row store with
    | none => rfl
    | some stored =>
        exact (patched_congr (hsame stored hstored)
          (homitted writes_write read stored hread hstored) hwritten).symm

/-- **Patches are not lost.** When any number of patches of one row, with their statements
interleaved in any way, are all answered with 200, and each of them wrote the row back while the
columns it omits had the values it had read, then the final row is what the patches make of the
first one, laid over it one after the other in some order, and no request changed a column that it
omits. -/
theorem patched_of_run
    (hrun : Run (Pool.step Effect.execute) (fun _ _ => True) (target.patching bodies db) trace
      finish)
    (hanswered : ∀ thread, ∃ response, finish.program thread = .done response ∧
      response.status = 200)
    (hkept : target.OmittedKept bodies trace) :
    (∃ order : List Thread, order.Nodup ∧ (∀ thread, thread ∈ order) ∧
      ∀ start, target.row db = some start → ∃ last, target.row finish.store = some last ∧
        order.foldlM (fun row thread => target.patched (bodies thread) row) start = some last) ∧
      ∀ earlier moment later fault, trace = earlier ++ moment :: later →
        moment.answer = (moment.effect.execute fault moment.before).1 →
        ∀ stored after, target.row moment.before = some stored →
          target.row (moment.effect.execute fault moment.before).2 = some after →
          target.SameOmitted (bodies moment.thread) stored after := by
  have hmoments := row_of_moment hrun hanswered hkept
  constructor
  · have honce : ∀ thread,
        (Pool.history thread trace).countP (fun event => Writes event.1) = 1 := by
      intro thread
      obtain ⟨response, hdone, hstatus⟩ := hanswered thread
      obtain ⟨before, read, written, value, after, hhistory, -, -, hbefore, hafter⟩ :=
        performed_of_run hrun hdone hstatus
      have hnone : ∀ events : Program.History Effect Answer,
          (∀ event ∈ events, ReadEffect event.1) →
          events.countP (fun event => Writes event.1) = 0 := by
        intro events hevents
        rw [List.countP_eq_zero]
        intro event hevent
        simp [(hevents event hevent).writes]
      rw [hhistory, List.countP_append, hnone before hbefore, List.countP_cons, hnone after hafter,
        if_pos writes_write]
    obtain ⟨hnodup, hall⟩ := Pool.writers_of_once honce
    refine ⟨Pool.writers Writes trace, hnodup, hall, fun start hstart => ?_⟩
    have hlast : target.row finish.store = (target.row db).bind (fun row =>
        (Pool.writers Writes trace).foldlM (fun row thread => target.patched (bodies thread) row)
          row) := Pool.cell_of_run hrun hmoments
    have hfixed := (safeRun_patching hrun).store
    rw [hstart, Option.bind_some] at hlast
    rw [hstart] at hfixed
    obtain ⟨last, hrow, -⟩ := Option.map_eq_some_iff.mp hfixed
    exact ⟨last, hrow, hlast.symm.trans hrow⟩
  · intro earlier moment later fault htrace hanswer stored after hstored hafter
    rw [hmoments earlier moment later fault htrace hanswer, hstored] at hafter
    split at hafter
    · exact sameOmitted_patched hafter
    · cases hafter
      exact sameOmitted_refl _ _

end Interleavings

/-- A mailbox. -/
def forwardingDb : Db :=
  ((Statement.createMailbox ⟨"a@x.io", "x.io", none⟩).execute none Db.empty).2

/-- Two patches that give every column of the mailbox. -/
def wholePatches : Bool → PatchMailbox
  | true => ⟨some "x.io", some "b@y.io"⟩
  | false => ⟨some "x.io", some "c@y.io"⟩

/-- Both read the mailbox before either writes it; the second write stays. -/
theorem patched_wholePatches : ∃ trace finish,
    Run (Pool.step Effect.execute) (fun _ _ => True)
      ((PatchTarget.mailbox "a@x.io").patching wholePatches forwardingDb) trace finish ∧
    (PatchTarget.mailbox "a@x.io").row finish.store = some ⟨"a@x.io", "x.io", some "c@y.io"⟩ ∧
    ∃ order : List Bool, (∀ thread, thread ∈ order) ∧
      order.foldlM (fun row thread => (PatchTarget.mailbox "a@x.io").patched (wholePatches thread)
        row) ⟨"a@x.io", "x.io", none⟩ = some ⟨"a@x.io", "x.io", some "c@y.io"⟩ := by
  obtain ⟨trace, finish, hexecute, hanswered, hrow⟩ : ∃ trace finish,
      execute (Pool.step Effect.execute)
        ((PatchTarget.mailbox "a@x.io").patching wholePatches forwardingDb)
        [(true, none), (false, none), (true, none), (false, none), (true, none), (false, none)] =
          some (trace, finish) ∧
      (∀ thread, ∃ response, finish.program thread = .done response ∧ response.status = 200) ∧
      (PatchTarget.mailbox "a@x.io").row finish.store = some ⟨"a@x.io", "x.io", some "c@y.io"⟩ := by
    refine ⟨_, _, rfl, ?_, rfl⟩
    rintro (_ | _)
    · exact ⟨_, rfl, rfl⟩
    · exact ⟨_, rfl, rfl⟩
  have hrun := execute_run hexecute
  have hkept : (PatchTarget.mailbox "a@x.io").OmittedKept wholePatches trace := by
    rintro earlier ⟨_ | _, effect, answer, store⟩ later - - read current - -
    · exact ⟨nofun, nofun⟩
    · exact ⟨nofun, nofun⟩
  obtain ⟨⟨order, -, hall, hlast⟩, -⟩ := patched_of_run hrun hanswered hkept
  obtain ⟨last, hfinal, hfold⟩ := hlast ⟨"a@x.io", "x.io", none⟩ rfl
  rw [hrow] at hfinal
  cases hfinal
  exact ⟨trace, finish, hrun, hrow, order, hall, hfold⟩

/-- A record and its domain. -/
def recordDb : Db :=
  ((Statement.createRecord ⟨"x.io", .A, "192.0.2.1", 300⟩).execute none
    ((Statement.createDomain "x.io").execute none Db.empty).2).2

/-- One patch gives the ttl of the record, the other its value. -/
def partPatches : Bool → PatchRecord
  | true => ⟨none, none, none, some 60⟩
  | false => ⟨none, none, some "192.0.2.2", none⟩

/-- In every order the patches make a record with the new ttl. -/
theorem ttl_partPatches {order : List Bool} {row last : Record}
    (h : true ∈ order ∨ row.ttl = 60)
    (hfold : order.foldlM (fun row thread => (PatchTarget.record 1).patched (partPatches thread)
      row) row = some last) : last.ttl = 60 := by
  induction order generalizing row with
  | nil =>
      cases hfold
      simpa using h
  | cons thread rest ih =>
      cases thread with
      | true => exact ih (.inr rfl) hfold
      | false =>
          refine ih ?_ hfold
          simpa [partPatches] using h

/-- Both are answered with 200, and the second write takes the first one back: in no order do the
patches make of the record what is left. -/
theorem not_patched_partPatches : ∃ trace finish,
    Run (Pool.step Effect.execute) (fun _ _ => True)
      ((PatchTarget.record 1).patching partPatches recordDb) trace finish ∧
    (∀ thread, ∃ response, finish.program thread = .done response ∧ response.status = 200) ∧
    ¬ ∃ order : List Bool, order.Nodup ∧ (∀ thread, thread ∈ order) ∧
      ∀ start, (PatchTarget.record 1).row recordDb = some start →
        ∃ last, (PatchTarget.record 1).row finish.store = some last ∧
          order.foldlM (fun row thread => (PatchTarget.record 1).patched (partPatches thread) row)
            start = some last := by
  obtain ⟨trace, finish, hexecute, hanswered, hrow⟩ : ∃ trace finish,
      execute (Pool.step Effect.execute)
        ((PatchTarget.record 1).patching partPatches recordDb)
        [(true, none), (false, none), (true, none), (true, none), (true, none), (true, none),
          (false, none), (false, none), (false, none), (false, none)] = some (trace, finish) ∧
      (∀ thread, ∃ response, finish.program thread = .done response ∧ response.status = 200) ∧
      (PatchTarget.record 1).row finish.store = some ⟨⟨"x.io", .A, "192.0.2.2", 300⟩, 1⟩ := by
    refine ⟨_, _, rfl, ?_, rfl⟩
    rintro (_ | _)
    · exact ⟨_, rfl, rfl⟩
    · exact ⟨_, rfl, rfl⟩
  refine ⟨trace, finish, execute_run hexecute, hanswered, ?_⟩
  intro h
  obtain ⟨order, -, hall, hlast⟩ := h
  obtain ⟨last, hfinal, hfold⟩ := hlast ⟨⟨"x.io", .A, "192.0.2.1", 300⟩, 1⟩ rfl
  rw [hrow] at hfinal
  cases hfinal
  exact absurd (ttl_partPatches (.inl (hall true)) hfold) (by decide)

end PatchTarget

end Api

end Zonemail
