import Zonemail.Api.Footprints
import Zonemail.Directory.Model
import Zonemail.Installation.Machine

/-!
# The database as a directory

`Db.directory` is what the tables say of domains, mailboxes and records. A statement changes it as
its directive says or not at all (`Statement.Change.directory`), and a task sends only statements
whose directives were asked for: by its configuration, by the body of its request, or, where a patch
is laid over a row, by the body and the row that the request had read. `directed_of_run` puts the
two together: whatever tasks and workers do, the directory goes from empty to what it is by changes
that were asked for, and holds nothing else.
-/

namespace Zonemail

open Library

/-! ## Statements -/

/-- What the database says of domains, mailboxes and records. -/
def Db.directory (db : Db) : Directory where
  domains := {domain | (db.domains.get? domain).isSome}
  mailboxes := fun address => db.mailboxes.get? address
  records := fun number => (db.records.get? number).map Record.toRecordDTO
  named := fun _ _ h => Table.key_of_get? h
  distinct := by
    intro first second record other hfirst hsecond htriple
    obtain ⟨row, hrow, rfl⟩ := Option.map_eq_some_iff.mp hfirst
    obtain ⟨twin, htwin, rfl⟩ := Option.map_eq_some_iff.mp hsecond
    obtain ⟨hmem, rfl⟩ := Table.get?_eq_some.mp hrow
    obtain ⟨hother, rfl⟩ := Table.get?_eq_some.mp htwin
    rw [List.inj_on_of_nodup_map db.tripleUnique hmem hother htriple]

@[simp] theorem Db.mem_directory_domains {db : Db} {domain : String} :
    domain ∈ db.directory.domains ↔ (db.domains.get? domain).isSome := Iff.rfl

@[simp] theorem Db.directory_mailboxes (db : Db) (address : String) :
    db.directory.mailboxes address = db.mailboxes.get? address := rfl

@[simp] theorem Db.directory_records (db : Db) (number : Nat) :
    db.directory.records number = (db.records.get? number).map Record.toRecordDTO := rfl

/-- The directive of a statement. -/
def Statement.directive : Statement → Option Directive
  | .createDomain id => some (.provision id)
  | .deleteDomain id => some (.retire id)
  | .createMailbox mailbox => some (.openMailbox mailbox)
  | .updateMailbox id domainId forwardTo => some (.configure ⟨id, domainId, forwardTo⟩)
  | .deleteMailbox id => some (.close id)
  | .createRecord record => some (.publish record)
  | .updateRecord id record => some (.revise id record)
  | .deleteRecord id => some (.withdraw id)
  | _ => none

theorem Db.directory_empty : Db.empty.directory = .empty := by
  refine Directory.ext (Set.ext fun domain => ?_) rfl rfl
  exact iff_of_false (by simp [Db.empty]) (Set.notMem_empty domain)

/-- A directory depends on what is found in the tables only. -/
theorem Db.directory_congr {db after : Db}
    (hdomains : (fun domain => after.domains.get? domain) = fun domain => db.domains.get? domain)
    (hmailboxes : (fun address => after.mailboxes.get? address) =
      fun address => db.mailboxes.get? address)
    (hrecords : (fun number => after.records.get? number) =
      fun number => db.records.get? number) : after.directory = db.directory := by
  refine Directory.ext (Set.ext fun domain => ?_) hmailboxes (funext fun number => ?_)
  · rw [Db.mem_directory_domains, congrFun hdomains domain]
    rfl
  · rw [Db.directory_records, congrFun hrecords number]
    rfl

/-- The records of a directory whose rows were updated at one number. -/
theorem Db.records_update {db after : Db} {number : Nat} {row : Option Record}
    {entry : Option RecordDTO}
    (h : (fun other => after.records.get? other) =
      Function.update (fun other => db.records.get? other) number row)
    (hentry : row.map Record.toRecordDTO = entry) :
    after.directory.records = Function.update db.directory.records number entry := by
  funext other
  rw [Db.directory_records, congrFun h other, ← hentry]
  by_cases hother : other = number
  · rw [hother, Function.update_self, Function.update_self]
  · rw [Function.update_of_ne hother, Function.update_of_ne hother]
    rfl

/-- A statement changes the directory as its directive says, or not at all. -/
theorem Statement.Change.directory {statement : Statement} {db after : Db}
    (h : Change db statement after) :
    after.directory = db.directory ∨ ∃ directive, statement.directive = some directive ∧
      Directory.Change db.directory directive after.directory := by
  cases h with
  | @createDomain id domains hinsert =>
      refine .inr ⟨_, rfl, .provision ?_ (Set.ext fun domain => ?_) rfl rfl⟩
      · have hnone : db.domains.get? id = none := Table.get?_eq_none_of_insert? hinsert
        simp [hnone]
      · show (domains.get? domain).isSome ↔ domain = id ∨ (db.domains.get? domain).isSome
        rw [Table.get?_of_insert? hinsert]
        split
        · rename_i hid
          simp [hid]
        · rename_i hid
          simp [hid]
  | @deleteDomain id =>
      unfold Db.removeDomain
      split
      · exact .inl rfl
      · rename_i domain hdomain
        refine .inr ⟨_, rfl, .retire ?_ (Set.ext fun other => ?_) (funext fun address => ?_)
          (funext fun number => ?_)⟩
        · simp [hdomain]
        · show ((db.domains.remove (fun domain => domain.id = id)).get? other).isSome ↔
            (db.domains.get? other).isSome ∧ other ≠ id
          rw [congrFun (Table.get?_remove_key db.domains id) other]
          by_cases hother : other = id <;> simp [hother]
        · show (db.mailboxes.remove (fun mailbox => mailbox.domainId = id)).get? address = _
          rw [Table.get?_remove]
          simp
        · show ((db.records.toTable.remove (fun record => record.domainId = id)).get? number).map
            Record.toRecordDTO = _
          rw [Table.get?_remove]
          cases hrow : db.records.get? number with
          | none => simp [hrow]
          | some row =>
              rw [Db.directory_records, hrow, Option.map_some, Option.filter_some,
                Option.filter_some]
              by_cases hid : row.domainId = id <;> simp [hid]
  | @createMailbox mailbox mailboxes hinsert =>
      refine .inr ⟨_, rfl, .openMailbox (Table.get?_eq_none_of_insert? hinsert) rfl ?_ rfl⟩
      funext address
      show mailboxes.get? address = _
      rw [Table.get?_of_insert? hinsert]
      split
      · rename_i haddress
        rw [haddress, Function.update_self]
      · rename_i haddress
        rw [Function.update_of_ne haddress]
        rfl
  | @updateMailbox id domainId forwardTo =>
      have hkey : ∀ row : Mailbox, (Mailbox.mk row.id domainId forwardTo).id = row.id :=
        fun _ => rfl
      cases hrow : db.mailboxes.get? id with
      | none =>
          exact .inl (Db.directory_congr rfl (Table.get?_modify_of_none db.mailboxes
            (fun row => ⟨row.id, domainId, forwardTo⟩) hkey hrow) rfl)
      | some row =>
          obtain rfl := Table.key_of_get? hrow
          exact .inr ⟨_, rfl, .configure (by simp [hrow]) rfl (Table.get?_modify_key db.mailboxes
            (fun row => ⟨row.id, domainId, forwardTo⟩) hkey hrow) rfl⟩
  | @deleteMailbox id =>
      cases hrow : db.mailboxes.get? id with
      | none => exact .inl (Db.directory_congr rfl (Table.get?_remove_of_none _ hrow) rfl)
      | some row =>
          exact .inr ⟨_, rfl, .close (by simp [hrow]) rfl (Table.get?_remove_key _ id) rfl⟩
  | @createRecord record hunique =>
      have hnone : db.records.get? db.records.next = none := by
        refine Option.eq_none_iff_forall_ne_some.mpr (fun row hrow => ?_)
        exact Nat.lt_irrefl _ (AutoTable.lt_next_of_get? hrow)
      have hrows :
          (fun other => (db.records.push (fun id => ⟨record, id⟩) (fun _ => rfl)).get? other) =
            Function.update (fun other => db.records.get? other) db.records.next
              (some ⟨record, db.records.next⟩) := by
        funext other
        rw [AutoTable.get?_push, Function.update_apply]
      have hnew : db.directory.records db.records.next = none := by simp [hnone]
      exact .inr ⟨_, rfl, .publish hnew rfl rfl (Db.records_update hrows rfl)⟩
  | @updateRecord id record hunique =>
      have hkey : ∀ row : Record, (Record.mk record row.id).id = row.id := fun _ => rfl
      cases hrow : db.records.get? id with
      | none =>
          exact .inl (Db.directory_congr rfl rfl (Table.get?_modify_of_none db.records.toTable
            (fun row => ⟨record, row.id⟩) hkey hrow))
      | some row =>
          have hrows := Table.get?_modify_key db.records.toTable (fun row => ⟨record, row.id⟩) hkey
            hrow
          exact .inr ⟨_, rfl, .revise (by simp [hrow]) rfl rfl (Db.records_update hrows rfl)⟩
  | @deleteRecord id =>
      cases hrow : db.records.get? id with
      | none => exact .inl (Db.directory_congr rfl rfl (Table.get?_remove_of_none _ hrow))
      | some row =>
          have hrows := Table.get?_remove_key db.records.toTable id
          exact .inr ⟨_, rfl, .withdraw (by simp [hrow]) rfl rfl (Db.records_update hrows rfl)⟩
  | _ => exact .inl (Db.directory_congr rfl rfl rfl)

/-! ## Tasks -/

/-- What a request asks of the directory. A patch is laid over a row that the request had read. -/
def Api.Request.Asks (history : EffectHistory) : Api.Request → Directive → Prop
  | .createDomain (some body), .provision domain => domain = Text.trim body.id
  | .deleteDomain domainId, .retire domain => domain = domainId
  | .createMailbox (some body), .openMailbox mailbox => Api.newMailbox body = .ok mailbox
  | .patchMailbox mailboxId (some body), .configure mailbox => mailbox.id = mailboxId ∧
      ∃ stored, ⟨.sql (.getMailbox mailboxId), .ok stored⟩ ∈ history ∧
        mailbox = { stored with forwardTo := body.forwardTo.or stored.forwardTo }
  | .deleteMailbox mailboxId, .close address => address = mailboxId
  | .createRecord (some body), .publish record =>
      record.domainId = Text.toLowercase (Text.trim body.domainId) ∧
        record.value = Text.trim body.value ∧ record.ttl = body.ttl ∧
        Api.parseRecordType (Text.trim body.recordType) = .ok record.recordType
  | .patchRecord (some recordId) (some body), .revise number record => number = recordId ∧
      ∃ stored, ⟨.sql (.getRecord recordId), .ok stored⟩ ∈ history ∧
        Api.patchedRecord stored body = .ok record
  | .deleteRecord (some recordId), .withdraw number => number = recordId
  | _, _ => False

/-- What a task asks of the directory after what it has done: its configuration, or its request. -/
def Task.Asks (task : Task) (history : EffectHistory) (directive : Directive) : Prop :=
  match task with
  | .seed config =>
      match directive with
      | .provision domain => domain ∈ config.domains
      | .openMailbox mailbox => ∃ entry ∈ config.mailboxes, entry.mailbox = some mailbox
      | .publish record => record ∈ config.records
      | _ => False
  | .request incoming => incoming.Asks history directive
  | .session _ => False

/-- The directive of an effect. -/
def Effect.directive : Effect → Option Directive
  | .sql statement => statement.directive
  | .reply _ _ => none

/-- A directive is asked for. -/
def DirectiveRule (asks : EffectHistory → Directive → Prop) (history : EffectHistory)
    (effect : Effect) : Prop :=
  ∀ directive, effect.directive = some directive → asks history directive

/-- A mailbox is found under its address. -/
def ProperAnswer : (effect : Effect) → Answer effect → Prop
  | .sql (.getMailbox id), .ok mailbox => mailbox.id = id
  | _, _ => True

theorem properAnswer_execute (effect : Effect) (fault : Statement.Fault) (db : Db) :
    ProperAnswer effect (effect.execute fault db).1 := by
  unfold ProperAnswer
  split
  · rename_i id mailbox hanswer
    exact Table.key_of_get? (Statement.get?_of_execute_getMailbox hanswer)
  · trivial

section Tasks

variable {parse : MessageParser} {lettre : Api.Lettre} {history : EffectHistory}

/-- Whatever has a directive is asked for, as long as the history keeps what it is asked for by. -/
theorem safe_of_asks {α : Type} {asks : EffectHistory → Directive → Prop}
    (keep : EffectHistory → Prop) {program : Prog α} (hstart : keep history)
    (hkeep : ∀ history event, keep history → keep (history ++ [event]))
    (h : program.Performs (fun effect => ∀ history, keep history →
      DirectiveRule asks history effect)) :
    program.Safe ProperAnswer (DirectiveRule asks) (fun _ _ => True) history := by
  have hsafe : program.Safe ProperAnswer (DirectiveRule asks) (fun later _ => keep later)
      history :=
    h.safe hstart (fun history effect hheld hasks => hasks history hheld)
      (fun history effect answer hheld _ => hkeep history ⟨effect, answer⟩ hheld)
  exact hsafe.mono (fun _ _ _ => trivial)

/-- A statement that reads has no directive. -/
theorem Statement.directive_of_reads {statement : Statement} (h : statement.Reads) :
    statement.directive = none := by
  cases statement with
  | createDomain | deleteDomain | createMailbox | updateMailbox | deleteMailbox | createRecord
  | updateRecord | deleteRecord => exact h.elim
  | _ => rfl

theorem directiveRule_of_reads {asks : EffectHistory → Directive → Prop} {effect : Effect}
    (h : Api.ReadEffect effect) : DirectiveRule asks history effect := by
  intro directive hdirective
  cases effect with
  | sql statement => cases (Statement.directive_of_reads h).symm.trans hdirective
  | reply command accepted => cases hdirective

/-- The rest of a patch of a mailbox writes the row that was read, with the patch laid over it. -/
theorem updateMailbox_asks {mailboxId : String} {body : Api.PatchMailbox} {stored : Mailbox}
    (hid : stored.id = mailboxId) :
    (Api.updateMailbox mailboxId
      { stored with forwardTo := body.forwardTo.or stored.forwardTo }).Performs
      (fun effect => ∀ history, ⟨.sql (.getMailbox mailboxId), .ok stored⟩ ∈ history →
        DirectiveRule (Api.Request.patchMailbox mailboxId (some body)).Asks history effect) := by
  rw [Api.updateMailbox]
  refine performs_sql (fun history hread directive h => ?_) (fun answer => ?_)
  · cases h
    exact ⟨hid, stored, hread, rfl⟩
  · split
    · exact .done
    · refine performs_sql (fun _ _ => directiveRule_of_reads trivial) (fun answer => ?_)
      split <;> exact .done

theorem safe_patchMailbox (mailboxId : String) (body : Api.PatchMailbox) :
    (Api.patchMailbox mailboxId (some body)).Safe ProperAnswer
      (DirectiveRule (Api.Request.patchMailbox mailboxId (some body)).Asks) (fun _ _ => True)
      history := by
  have hread : DirectiveRule (Api.Request.patchMailbox mailboxId (some body)).Asks history
      (.sql (.getMailbox mailboxId)) := directiveRule_of_reads trivial
  refine Prog.safe_sql hread (fun answer hanswer => ?_)
  split
  · exact .done trivial
  · rename_i stored
    split
    · exact .done trivial
    · rename_i merged hmerged
      obtain rfl := Api.eq_of_overrideDomain hmerged
      exact safe_of_asks (fun history => ⟨.sql (.getMailbox mailboxId), .ok merged⟩ ∈ history)
        (List.mem_append_right _ (List.mem_singleton_self _))
        (fun _ _ hmem => List.mem_append_left _ hmem) (updateMailbox_asks hanswer)

/-- The rest of a patch of a record writes the row that was read, with the patch laid over it. -/
theorem updateRecord_asks {recordId : Nat} {body : Api.PatchRecord} {stored : Record}
    {patched : RecordDTO} (hpatched : Api.patchedRecord stored body = .ok patched) :
    (Api.updateRecord recordId patched).Performs
      (fun effect => ∀ history, ⟨.sql (.getRecord recordId), .ok stored⟩ ∈ history →
        DirectiveRule (Api.Request.patchRecord (some recordId) (some body)).Asks history
          effect) := by
  rw [Api.updateRecord]
  refine performs_sql (fun history hread directive h => ?_) (fun answer => ?_)
  · cases h
    exact ⟨rfl, stored, hread, hpatched⟩
  · split
    · exact .done
    · refine performs_sql (fun _ _ => directiveRule_of_reads trivial) (fun answer => ?_)
      split <;> exact .done

theorem safe_patchRecord (recordId : Nat) (body : Api.PatchRecord) :
    (Api.patchRecord (some recordId) (some body)).Safe ProperAnswer
      (DirectiveRule (Api.Request.patchRecord (some recordId) (some body)).Asks) (fun _ _ => True)
      history := by
  have hread : DirectiveRule (Api.Request.patchRecord (some recordId) (some body)).Asks history
      (.sql (.getRecord recordId)) := directiveRule_of_reads trivial
  refine Prog.safe_sql hread (fun answer hanswer => ?_)
  split
  · exact .done trivial
  · rename_i stored
    split
    · exact .done trivial
    · rename_i patched hpatched
      refine safe_of_asks (fun history => ⟨.sql (.getRecord recordId), .ok stored⟩ ∈ history)
        (List.mem_append_right _ (List.mem_singleton_self _))
        (fun _ _ hmem => List.mem_append_left _ hmem) ?_
      refine Program.performs_bind ((Api.validateRecordFields_reads _ _).mono
        (fun _ hreads _ _ => directiveRule_of_reads hreads)) (fun result => ?_)
      split
      · exact .done
      · refine performs_sql (fun _ _ => directiveRule_of_reads trivial) (fun answer => ?_)
        split
        · exact .done
        · split
          · exact .done
          · exact updateRecord_asks hpatched

/-- The writes of a request other than a patch have directives that it asks for. -/
theorem asks_of_mayWrite {request : Api.Request} {statement : Statement} {directive : Directive}
    (hmailbox : ∀ mailboxId body, request ≠ .patchMailbox mailboxId body)
    (hrecord : ∀ recordId body, request ≠ .patchRecord recordId body)
    (h : request.MayWrite parse lettre statement)
    (hdirective : statement.directive = some directive) : request.Asks history directive := by
  unfold Api.Request.MayWrite at h
  split at h
  all_goals first
    | exact absurd rfl (hmailbox _ _)
    | exact absurd rfl (hrecord _ _)
    | exact h.elim
    | (cases hdirective; exact h)
    | cases hdirective

/-- A delivery or a command has nothing to do with the directory. -/
theorem session_undirected (handler : ZonedMailHandler) (commands : List SmtpCommand) :
    (handler.session parse commands).Performs (fun effect => effect.directive = none) := by
  induction commands generalizing handler with
  | nil => exact .done
  | cons command rest ih =>
      refine Program.performs_bind ?_ (fun next => ih next)
      cases command with
      | mailFrom path | rset => exact .perform rfl (fun _ => .done)
      | rcptTo path =>
          refine Program.performs_bind (performs_sql rfl (fun answer => ?_)) (fun result => ?_)
          · split <;> exact .done
          · exact .perform rfl (fun _ => .done)
      | data payload =>
          have hdeliver : (deliver parse (storedFor handler.recipients) payload).Performs
              (fun effect => effect.directive = none) := by
            refine deliver_performs parse _ payload (fun effect h => ?_) (fun effect h => ?_)
            · unfold StoringEffect at h
              split at h <;> first | rfl | exact h.elim
            · unfold SendingEffect at h
              split at h <;> first | rfl | cases h
          refine Program.performs_bind (Program.performs_bind hdeliver (fun _ => .done))
            (fun result => ?_)
          exact .perform rfl (fun _ => .done)

/-- Every task asks for the directives of its statements. -/
theorem Task.safe_directives (parse : MessageParser) (lettre : Api.Lettre) (task : Task) :
    (task.program parse lettre).Safe ProperAnswer (DirectiveRule task.Asks) (fun _ _ => True)
      [] := by
  have hplain {program : Prog Unit} (h : program.Performs (fun effect => ∀ history,
      DirectiveRule task.Asks history effect)) :
      program.Safe ProperAnswer (DirectiveRule task.Asks) (fun _ _ => True) [] :=
    safe_of_asks (fun _ => True) trivial (fun _ _ _ => trivial)
      (h.mono (fun _ h history _ => h history))
  cases task with
  | seed config =>
      refine hplain (Program.performs_bind ((seedFromConfig_performs config).mono ?_)
        (fun _ => .done))
      intro effect h history directive hdirective
      unfold Config.Footprint at h
      split at h
      · cases hdirective
        exact h
      · cases hdirective
        exact h
      · cases hdirective
        exact h
      · exact directiveRule_of_reads h directive hdirective
  | session commands =>
      refine hplain ((session_undirected newHandler commands).mono ?_)
      intro effect hnone history directive hdirective
      cases hnone.symm.trans hdirective
  | request request =>
      have hother (hmailbox : ∀ mailboxId body, request ≠ .patchMailbox mailboxId body)
          (hrecord : ∀ recordId body, request ≠ .patchRecord recordId body) :
          (Task.program parse lettre (.request request)).Safe ProperAnswer
            (DirectiveRule (Task.request request).Asks) (fun _ _ => True) [] := by
        refine hplain (Program.performs_bind ((Api.handle_performs parse lettre request).mono ?_)
          (fun _ => .done))
        intro effect h history directive hdirective
        cases effect with
        | reply command accepted => cases hdirective
        | sql statement =>
            rcases h with hreads | hwrites
            · have heffect : Api.ReadEffect (.sql statement) := hreads
              exact directiveRule_of_reads heffect directive hdirective
            · exact asks_of_mayWrite hmailbox hrecord hwrites hdirective
      cases request with
      | patchMailbox mailboxId body =>
          cases body with
          | none => exact .done trivial
          | some body =>
              exact Program.safe_bind (safe_patchMailbox mailboxId body)
                (fun _ _ _ => .done trivial)
      | patchRecord recordId body =>
          cases recordId with
          | none => exact .done trivial
          | some recordId =>
              cases body with
              | none => exact .done trivial
              | some body =>
                  exact Program.safe_bind (safe_patchRecord recordId body)
                    (fun _ _ _ => .done trivial)
      | _ => exact hother (fun _ _ h => by cases h) (fun _ _ h => by cases h)

end Tasks

/-! ## Every run -/

variable {Worker Thread : Type} [DecidableEq Worker] [DecidableEq Thread]

/-- Some task asked for the directive after what it had done at some point of the trace. -/
def Directed (task : Thread → Task) (trace : List (Happening Worker Thread))
    (directive : Directive) : Prop :=
  ∃ thread earlier later, trace = earlier ++ later ∧
    (task thread).Asks (Pool.history thread (Pool.moments earlier)) directive

omit [DecidableEq Worker] in
theorem Directed.append {task : Thread → Task} {trace : List (Happening Worker Thread)}
    {directive : Directive} (h : Directed task trace directive)
    (more : List (Happening Worker Thread)) : Directed task (trace ++ more) directive := by
  obtain ⟨thread, earlier, later, rfl, hasks⟩ := h
  exact ⟨thread, earlier, later ++ more, by simp, hasks⟩

variable {ctx : Worker → Context} {parse : MessageParser} {lettre : Api.Lettre}
  {task : Thread → Task} {trace : List (Happening Worker Thread)}
  {finish : Installation Worker Thread}

/-- In every interleaving every thread asks for the directives of its statements. -/
theorem asks_of_run
    (hrun : Run (Installation.step ctx) (fun _ _ => True) (installation parse lettre task) trace
      finish) :
    Pool.Obeys System.perform ProperAnswer
      (fun thread => DirectiveRule (task thread).Asks) trace finish := by
  have hmove : ∀ (system : System Worker) (label : Worker × Input) (events : List (Turn Worker))
      (next : System Worker), True → system.turn ctx label = some (events, next) → True :=
    fun _ _ _ _ _ _ => trivial
  exact (Pool.obeys_amid (fun effect fault system _ => properAnswer_execute effect fault system.db)
    (fun _ _ _ _ _ _ _ => trivial) hmove trivial
    (fun thread => Task.safe_directives parse lettre (task thread)) hrun).2

omit [DecidableEq Worker] [DecidableEq Thread] in
/-- A worker leaves the directory as it is. -/
theorem Control.Move.directory {ctx : Context} {db next : Db} {before after : Control}
    {input : Input} {actions : List Action} (h : before.Move ctx db input actions after next) :
    next.directory = db.directory := by
  cases h <;> rfl

/-- A step leaves the directory as it is or changes it as a task asked. -/
theorem directed_of_step {label : (Thread × Statement.Fault) ⊕ (Worker × Input)}
    {events : List (Happening Worker Thread)} {next : Installation Worker Thread}
    (hrun : Run (Installation.step ctx) (fun _ _ => True) (installation parse lettre task) trace
      finish) (hstep : Installation.step ctx finish label = some (events, next)) :
    next.store.db.directory = finish.store.db.directory ∨
      Directory.Moves (Directed task (trace ++ events)) finish.store.db.directory
        next.store.db.directory := by
  have hobeys := asks_of_run (.snoc label hrun trivial hstep)
  rcases Installation.step_cases hstep with ⟨thread, effect, fault, resume, -, rfl, hnext⟩ |
    ⟨worker, input, actions, after, db, -, hmove, hnext⟩
  · obtain ⟨hrule, -⟩ := hobeys.performed trace _ [] rfl
    rw [hnext]
    cases effect with
    | reply command accepted => exact .inl rfl
    | sql statement =>
        rcases statement.change_of_execute fault finish.store.db with hsame | hchange
        · exact .inl (congrArg Db.directory hsame)
        · rcases hchange.directory with hsame | ⟨directive, hdirective, hdirected⟩
          · exact .inl hsame
          · exact .inr ⟨directive, ⟨thread, trace, _, rfl, hrule directive hdirective⟩, hdirected⟩
  · rw [hnext]
    exact .inl (by rw [System.moved_db, hmove.directory])

end Zonemail
