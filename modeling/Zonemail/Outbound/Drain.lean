import Zonemail.Outbound.Cycle

/-!
# One drain of the queue

A call of `drain_once` by one worker with nobody else at the database. No statement fails, and what
the resolver, the TLS stack and the hosts answer depends on the claimed job. `Outside.deliver` says
what one delivery comes to, by itself: the attempts it records and the write that ends it, if it
gets that far. `unclaimed_deliverOne` says that the steps of the worker do just this, and
`finish_of_drainRun` that the whole call does it for one due row after the other.
-/

namespace Zonemail

open Library

/-! ## What a delivery comes to -/

/-- How a delivery ends: with an error that leaves the row in progress, with a panic, or with a
write to the row. -/
inductive Ending where
  | abandoned
  | panicked
  | written (columns : OutboundColumns)

/-- The attempts that a delivery records, and how it ends. -/
structure Outcome where
  trail : List Attempt
  ending : Ending

/-- The end of a cycle in which no host accepted. -/
def OutboundWorkerConfig.refused (config : OutboundWorkerConfig) (job : Outbound) (now : Timestamp)
    (reason : String) : Ending :=
  match config.failOrRequeue job now reason with
  | none => .panicked
  | some columns => .written columns

/-- What the loop over the hosts comes to, after an earlier host gave `lastError`. -/
def Outside.deliverHosts (outside : Outside) (ctx : Context) (now : Timestamp) (job : Outbound) :
    Option String → List String → Outcome
  | lastError, [] => ⟨[], ctx.config.refused job now (lastError.getD "all MX attempts failed")⟩
  | _, host :: hosts =>
      match buildOutboundTls ctx.config.transport host (outside.built host hosts) with
      | none => ⟨[], .abandoned⟩
      | some _ =>
          match outside.reply host hosts with
          | .ok response =>
              ⟨[⟨host, .ok response⟩], .written (deliveredColumns (job.attempts + 1))⟩
          | .error error =>
              let rest := outside.deliverHosts ctx now job (some (viaError host error)) hosts
              ⟨⟨host, .error error⟩ :: rest.trail, rest.ending⟩

/-- What the delivery comes to once its targets are known. -/
def Outside.offer (outside : Outside) (ctx : Context) (now : Timestamp) (job : Outbound) :
    List String → Outcome
  | [] => ⟨[], ctx.config.refused job now "no MX records for domain"⟩
  | targets => outside.deliverHosts ctx now job none targets

/-- What the delivery of a claimed job comes to. -/
def Outside.deliver (outside : Outside) (ctx : Context) (db : Db) (now : Timestamp)
    (job : Outbound) : Outcome :=
  match ctx.load ⟨now, [], job⟩ db with
  | .error _ => ⟨[], .abandoned⟩
  | .ok _ =>
      match ctx.findTargets ⟨now, [], job⟩ outside.resolver with
      | .error _ => ⟨[], .abandoned⟩
      | .ok targets => outside.offer ctx now job targets

/-- The row of a job after its delivery. -/
def Outcome.row (outcome : Outcome) (job : Outbound) : Outbound :=
  match outcome.ending with
  | .written columns => columns.apply job
  | .abandoned | .panicked => job

/-- The database after a delivery. -/
def Outcome.store (outcome : Outcome) (db : Db) (id : Nat) : Db :=
  match outcome.ending with
  | .written columns => (db.recordAll id outcome.trail).updateOutbound id columns
  | .abandoned | .panicked => db.recordAll id outcome.trail

/-- Where the worker is after a delivery. -/
def Outcome.resume (outcome : Outcome) (delivery : Delivery) : Control :=
  match outcome.ending with
  | .panicked => .stopped
  | .abandoned | .written _ => Control.resume delivery

/-- What the audit trail keeps of the attempts at a job, in order: host, code and text. The number
that a row of the trail draws is left out. -/
def Db.trail (db : Db) (id : Nat) : List (String × Option Nat × Option String) :=
  (db.deliveryStatuses.rows.filter (fun row => row.outboundId = id)).map
    (fun row => (row.peerHost, row.code, row.message))

@[simp] theorem Db.trail_updateOutbound (db : Db) (id : Nat) (columns : OutboundColumns)
    (other : Nat) : (db.updateOutbound id columns).trail other = db.trail other := rfl

theorem Db.trail_recordDelivery (db : Db) (id : Nat) (host : String) (code : Option Nat)
    (message : Option String) (other : Nat) :
    (db.recordDelivery id host code message).trail other =
      db.trail other ++ if other = id then [(host, code, message)] else [] := by
  by_cases h : other = id
  · simp [Db.trail, recordDelivery, h]
  · simp [Db.trail, recordDelivery, h, Ne.symm h]

/-- Recording attempts at a job adds to its own trail and to no other. -/
theorem Db.trail_recordAll (db : Db) (id : Nat) (trail : List Attempt) (other : Nat) :
    (db.recordAll id trail).trail other = db.trail other ++
      if other = id then trail.map (fun attempt => (attempt.host, attempt.audit)) else [] := by
  induction trail generalizing db with
  | nil => simp [recordAll]
  | cons attempt trail ih =>
      have hcons : db.recordAll id (attempt :: trail) =
          (db.recordDelivery id attempt.host attempt.audit.1 attempt.audit.2).recordAll id trail :=
        rfl
      rw [hcons, ih, db.trail_recordDelivery]
      by_cases h : other = id
      · simp [h]
      · simp [h]

/-- Recording one more attempt after the others. -/
theorem Db.recordAll_append (db : Db) (id : Nat) (front : List Attempt) (attempt : Attempt) :
    db.recordAll id (front ++ [attempt]) =
      (db.recordAll id front).recordDelivery id attempt.host attempt.audit.1 attempt.audit.2 :=
  List.foldl_append

@[simp] theorem Db.messages_recordAll (db : Db) (id : Nat) (trail : List Attempt) :
    (db.recordAll id trail).messages = db.messages := by
  induction trail generalizing db with
  | nil => rfl
  | cons attempt trail ih => exact ih _

namespace Outcome

variable (outcome : Outcome) (db : Db) (id : Nat)

@[simp] theorem messages_store : (outcome.store db id).messages = db.messages := by
  unfold store
  split <;> exact db.messages_recordAll id outcome.trail

/-- A delivery adds to the trail of its job and to no other. -/
theorem trail_store (other : Nat) : (outcome.store db id).trail other = db.trail other ++
    if other = id then outcome.trail.map (fun attempt => (attempt.host, attempt.audit))
    else [] := by
  unfold store
  split <;> exact db.trail_recordAll id outcome.trail other

/-- A delivery writes the row of its job and no other. -/
theorem get?_store (other : Nat) : (outcome.store db id).outbounds.get? other =
    if other = id then (db.outbounds.get? id).map outcome.row else db.outbounds.get? other := by
  have hrecorded := (db.recordAll_spec id outcome.trail).1
  have hunwritten : db.outbounds.get? other =
      if other = id then (db.outbounds.get? id).map (fun job => job)
      else db.outbounds.get? other := by
    split
    · rename_i h
      rw [h, Option.map_id']
    · rfl
  obtain ⟨trail, ending⟩ := outcome
  cases ending with
  | written columns =>
      exact (Db.get?_updateOutbound _ id columns other).trans (by rw [hrecorded]; rfl)
  | abandoned => exact (congrArg (fun table => table.get? other) hrecorded).trans hunwritten
  | panicked => exact (congrArg (fun table => table.get? other) hrecorded).trans hunwritten

/-- A delivery that does not panic returns to the loop over the rows. -/
theorem resume_eq {outcome : Outcome} {delivery : Delivery} (h : outcome.ending ≠ .panicked) :
    outcome.resume delivery = Control.resume delivery := by
  unfold resume
  split
  · rename_i hpanicked
    exact absurd hpanicked h
  · rfl
  · rfl

end Outcome

/-! ## The steps of a drain -/

/-- What a worker is answered during a drain that began at `now`. -/
def Control.answer (answers : Outbound → Outside) (now : Timestamp) : Control → Option Input
  | .stopped | .idle | .reclaimInProgress _ _ => none
  | .fetchQueued => some (.queue now true)
  | .lookupMxHosts delivery _ _ => some (.resolver (answers delivery.job).resolver)
  | .buildOutboundTls handOff host hosts => some (.tls ((answers handOff.job).built host hosts))
  | .sendRaw handOff host hosts => some (.reply ((answers handOff.job).reply host hosts))
  | .drainOnce _ _ _ | .deliverOne _ | .recordAccepted _ _ _ | .recordRefused _ _ _ _
  | .markDelivered _ | .failOrRequeue _ _ => some (.database true)

/-- One worker at this program point, and the database. -/
def System.single (control : Control) (db : Db) : System Unit := ⟨db, fun _ => control⟩

/-- The worker takes the answer that its program point asks for. -/
def System.Answered (answers : Outbound → Outside) (now : Timestamp) (system : System Unit)
    (label : Label Unit) : Prop :=
  ∃ input, (system.control ()).answer answers now = some input ∧ label = .worker () input

/-- The runs of one worker in a drain that began at `now`. -/
abbrev DrainRun (ctx : Context) (answers : Outbound → Outside) (now : Timestamp) :=
  Run (System.step (fun _ : Unit => ctx)) (System.Answered answers now)

/-- The jobs that a run claimed, in order, as they were returned. -/
def claimedJobs (trace : List (Unit × Action)) : List Outbound :=
  trace.filterMap (fun
    | (_, .claimed _ job) => some job
    | (_, .sent _ _ _ _) => none)

@[simp] theorem claimedJobs_append (trace later : List (Unit × Action)) :
    claimedJobs (trace ++ later) = claimedJobs trace ++ claimedJobs later :=
  List.filterMap_append

variable {ctx : Context} {answers : Outbound → Outside} {now : Timestamp}

theorem answered_unique {system : System Unit} {label other : Label Unit}
    (h : system.Answered answers now label) (hother : system.Answered answers now other) :
    label = other := by
  obtain ⟨input, hinput, rfl⟩ := h
  obtain ⟨another, hanother, rfl⟩ := hother
  cases hinput.symm.trans hanother
  rfl

/-- A worker that has returned is asked nothing. -/
theorem not_answered {control : Control} {db : Db} (h : control.answer answers now = none)
    (label : Label Unit) : ¬ (System.single control db).Answered answers now label := by
  intro h
  obtain ⟨input, hinput, -⟩ := h
  cases h.symm.trans hinput

/-- An answer is neither a crash nor a restart. -/
theorem Control.next_of_answer {control : Control} {input : Input} {db : Db}
    (h : control.answer answers now = some input) :
    control.next ctx db input = control.advance ctx db input := by
  cases control with
  | stopped | idle | reclaimInProgress => cases h
  | _ =>
      cases h
      rfl

/-- One step of a drain. -/
theorem drainRun_step {control after : Control} {input : Input} {db next : Db}
    {actions : List Action} (hanswer : control.answer answers now = some input)
    (h : control.advance ctx db input = some (actions, after, next)) :
    DrainRun ctx answers now (.single control db) (actions.map (Prod.mk ()))
      (.single after next) := by
  have hstep : (System.single control db).step (fun _ => ctx) (.worker () input) =
      some (actions.map (Prod.mk ()), .single after next) := by
    have hnext : control.next ctx db input = some (actions, after, next) :=
      (Control.next_of_answer hanswer).trans h
    simp only [System.step, System.single, hnext]
    rfl
  exact .snoc _ .refl ⟨input, hanswer, rfl⟩ hstep

/-- From one program point and database to the other, without a claim. -/
def Unclaimed (ctx : Context) (answers : Outbound → Outside) (now : Timestamp)
    (start : Control × Db)
    (finish : Control × Db) : Prop :=
  ∃ trace, claimedJobs trace = [] ∧
    DrainRun ctx answers now (.single start.1 start.2) trace (.single finish.1 finish.2)

namespace Unclaimed

variable {control after : Control} {input : Input} {db next : Db} {start finish : Control × Db}

theorem refl (start : Control × Db) : Unclaimed ctx answers now start start :=
  ⟨[], rfl, .refl⟩

/-- A step that shows nothing, and what follows it. -/
theorem quiet (h : control.advance ctx db input = some ([], after, next))
    (hanswer : control.answer answers now = some input)
    (hrest : Unclaimed ctx answers now (after, next) finish) :
    Unclaimed ctx answers now (control, db) finish := by
  obtain ⟨trace, htrace, hrun⟩ := hrest
  exact ⟨trace, htrace, (drainRun_step hanswer h).append hrun⟩

/-- A step that hands a message to a transport, and what follows it. -/
theorem sent {id : Nat} {dial : Dial} {envelope : Envelope} {raw : Bytes}
    (h : control.advance ctx db input = some ([.sent id dial envelope raw], after, next))
    (hanswer : control.answer answers now = some input)
    (hrest : Unclaimed ctx answers now (after, next) finish) :
    Unclaimed ctx answers now (control, db) finish := by
  obtain ⟨trace, htrace, hrun⟩ := hrest
  exact ⟨((), .sent id dial envelope raw) :: trace, htrace, (drainRun_step hanswer h).append hrun⟩

end Unclaimed

/-- The last statement of a refused cycle. -/
theorem unclaimed_refused (delivery : Delivery) (reason : String) (start : Db)
    (trail : List Attempt) {outcome : Outcome}
    (houtcome : outcome = ⟨trail, ctx.config.refused delivery.job delivery.now reason⟩) :
    Unclaimed ctx answers now
      (.failOrRequeue delivery reason, start.recordAll delivery.job.id trail)
      (outcome.resume delivery, outcome.store start delivery.job.id) := by
  subst houtcome
  cases hcolumns : ctx.config.failOrRequeue delivery.job delivery.now reason with
  | none =>
      simp only [OutboundWorkerConfig.refused, hcolumns]
      refine .quiet ?_ rfl (.refl _)
      simp only [Control.advance, hcolumns]
      rfl
  | some columns =>
      simp only [OutboundWorkerConfig.refused, hcolumns]
      refine .quiet ?_ rfl (.refl _)
      simp only [Control.advance, hcolumns]
      rfl

/-- The loop over the hosts comes to what it should, after these attempts at earlier hosts. -/
theorem unclaimed_deliverHosts (handOff : HandOff) (lastError : Option String)
    (hosts : List String) (front : List Attempt) (start : Db) {outcome : Outcome}
    (houtcome : outcome = (answers handOff.job).deliverHosts ctx handOff.now handOff.job lastError
      hosts) :
    Unclaimed ctx answers now
      (Control.deliverHosts handOff lastError hosts, start.recordAll handOff.job.id front)
      (outcome.resume handOff.toDelivery,
        (Outcome.mk (front ++ outcome.trail) outcome.ending).store start handOff.job.id) := by
  subst houtcome
  induction hosts generalizing lastError front with
  | nil =>
      simp only [Outside.deliverHosts, List.append_nil]
      exact unclaimed_refused handOff.toDelivery _ start front rfl
  | cons host hosts ih =>
      simp only [Outside.deliverHosts]
      cases htls : buildOutboundTls ctx.config.transport host
          ((answers handOff.job).built host hosts) with
      | none =>
          simp only [List.append_nil]
          refine .quiet ?_ rfl (.refl _)
          simp only [Control.deliverHosts, Control.advance, htls]
          rfl
      | some tls =>
          refine .sent (by simp only [Control.deliverHosts, Control.advance, htls]; rfl) rfl ?_
          cases hreply : (answers handOff.job).reply host hosts with
          | ok response =>
              -- The row of the attempt, and the update of the job.
              refine .quiet (by simp only [Control.advance, hreply]; rfl) rfl ?_
              refine .quiet (by simp only [Control.advance]; rfl) rfl ?_
              refine .quiet (by simp only [Control.advance]; rfl) rfl ?_
              simp only [if_true, Outcome.store, Db.recordAll_append]
              exact .refl _
          | error error =>
              refine .quiet (by simp only [Control.advance, hreply]; rfl) rfl ?_
              refine .quiet (by simp only [Control.advance]; rfl) rfl ?_
              have hrest := ih (some (viaError host error)) (front ++ [⟨host, .error error⟩])
              rw [Db.recordAll_append, List.append_assoc] at hrest
              exact hrest

/-- What `deliver` comes to depends on the stored messages and on nothing else of the database. -/
theorem Outside.deliver_congr {outside : Outside} {db other : Db} (h : db.messages = other.messages)
    (job : Outbound) : outside.deliver ctx db now job = outside.deliver ctx other now job := by
  have hload : ctx.load ⟨now, [], job⟩ db = ctx.load ⟨now, [], job⟩ other := by
    simp only [Context.load, h]
  rw [deliver, hload, deliver]

/-- The delivery of a claimed job comes to what it should. -/
theorem unclaimed_deliverOne (rest : List Outbound) (job : Outbound) (db : Db) {outcome : Outcome}
    (houtcome : outcome = (answers job).deliver ctx db now job) :
    Unclaimed ctx answers now (.deliverOne ⟨now, rest, job⟩, db)
      (outcome.resume ⟨now, rest, job⟩, outcome.store db job.id) := by
  have hload : ctx.load ⟨now, [], job⟩ db = ctx.load ⟨now, rest, job⟩ db := rfl
  have htargets : ctx.findTargets ⟨now, [], job⟩ (answers job).resolver =
      ctx.findTargets ⟨now, rest, job⟩ (answers job).resolver := rfl
  rw [Outside.deliver, hload, htargets] at houtcome
  cases hloaded : ctx.load ⟨now, rest, job⟩ db with
  | error e =>
      rw [hloaded] at houtcome
      subst houtcome
      refine .quiet ?_ rfl (.refl _)
      simp only [Control.advance, hloaded, if_true]
      rfl
  | ok loaded =>
      obtain ⟨message, envelope⟩ := loaded
      rw [hloaded] at houtcome
      refine .quiet (by simp only [Control.advance, hloaded, if_true]; rfl) rfl ?_
      cases hfound : ctx.findTargets ⟨now, rest, job⟩ (answers job).resolver with
      | error e =>
          simp only [hfound] at houtcome
          subst houtcome
          refine .quiet ?_ rfl (.refl _)
          simp only [Control.advance, hfound]
          rfl
      | ok targets =>
          simp only [hfound] at houtcome
          refine .quiet (by simp only [Control.advance, hfound]; rfl) rfl ?_
          cases targets with
          | nil => exact unclaimed_refused ⟨now, rest, job⟩ _ db [] houtcome
          | cons host hosts =>
              exact unclaimed_deliverHosts ⟨⟨now, rest, job⟩, message, envelope⟩ none
                (host :: hosts) [] db houtcome

/-! ## The loop over the rows -/

/-- What the delivery of a scanned row comes to, once it has been claimed. -/
def Db.delivered (ctx : Context) (answers : Outbound → Outside) (now : Timestamp) (db : Db)
    (row : Outbound) : Outcome :=
  (answers (claimedColumns.apply row)).deliver ctx db now (claimedColumns.apply row)

/-- The database after these rows have been claimed and delivered in turn. -/
def Db.drained (ctx : Context) (answers : Outbound → Outside) (now : Timestamp) :
    List Outbound → Db → Db
  | [], db => db
  | row :: rest, db =>
      Db.drained ctx answers now rest ((db.delivered ctx answers now row).store
        (db.updateOutbound row.id claimedColumns) row.id)

/-- The rows are different from each other, and they are stored as they were scanned. -/
structure Db.Scanned (db : Db) (rows : List Outbound) : Prop where
  nodup : (rows.map Outbound.id).Nodup
  stored : ∀ row ∈ rows, db.outbounds.get? row.id = some row
  queued : ∀ row ∈ rows, row.status = .queued

variable {db final : Db} {row : Outbound} {rows rest : List Outbound}

/-- A claim and a delivery leave the rows after it as they were scanned. -/
theorem Db.Scanned.next (h : db.Scanned (row :: rest)) (outcome : Outcome) :
    (outcome.store (db.updateOutbound row.id claimedColumns) row.id).Scanned rest := by
  obtain ⟨hfresh, hnodup⟩ := List.nodup_cons.mp h.nodup
  refine ⟨hnodup, fun other hother => ?_, fun other hother => h.queued other (.tail _ hother)⟩
  have hne : other.id ≠ row.id := fun hid => hfresh (hid ▸ List.mem_map_of_mem hother)
  rw [outcome.get?_store, if_neg hne, Db.get?_updateOutbound, if_neg hne]
  exact h.stored other (.tail _ hother)

/-- A row that is stored as it was scanned is claimed. -/
theorem drainRun_claim (h : db.Scanned (row :: rest)) :
    DrainRun ctx answers now (.single (.drainOnce now row rest) db)
      [((), .claimed now (claimedColumns.apply row))]
      (.single (.deliverOne ⟨now, rest, claimedColumns.apply row⟩)
        (db.updateOutbound row.id claimedColumns)) := by
  have hclaim : claim db row.id =
      (some (claimedColumns.apply row), db.updateOutbound row.id claimedColumns) := by
    simp only [claim, h.stored row List.mem_cons_self, h.queued row List.mem_cons_self, ne_eq,
      not_true_eq_false, if_false]
  have hadvance : (Control.drainOnce now row rest).advance ctx db (.database true) =
      some ([.claimed now (claimedColumns.apply row)],
        .deliverOne ⟨now, rest, claimedColumns.apply row⟩,
        db.updateOutbound row.id claimedColumns) := by
    simp only [Control.advance, hclaim]
    rfl
  exact drainRun_step rfl hadvance

variable (ctx answers now) in
/-- A row is claimed and delivered, with one claim to be seen. -/
theorem drainRun_row (h : db.Scanned (row :: rest)) : ∃ trace,
    claimedJobs trace = [claimedColumns.apply row] ∧
    DrainRun ctx answers now (.single (.drainOnce now row rest) db) trace
      (.single ((db.delivered ctx answers now row).resume ⟨now, rest, claimedColumns.apply row⟩)
        ((db.delivered ctx answers now row).store (db.updateOutbound row.id claimedColumns)
          row.id)) := by
  have houtcome : db.delivered ctx answers now row =
      (answers (claimedColumns.apply row)).deliver ctx (db.updateOutbound row.id claimedColumns) now
        (claimedColumns.apply row) :=
    Outside.deliver_congr rfl _
  obtain ⟨sent, hsent, hrun⟩ := unclaimed_deliverOne rest (claimedColumns.apply row) _ houtcome
  refine ⟨_, ?_, (drainRun_claim h).append hrun⟩
  rw [claimedJobs_append, hsent, List.append_nil]
  rfl

/-- What the delivery of one row comes to does not depend on the delivery of another. -/
theorem delivered_store (outcome : Outcome) (first row : Outbound) :
    (outcome.store (db.updateOutbound first.id claimedColumns) first.id).delivered ctx answers now
        row = db.delivered ctx answers now row :=
  Outside.deliver_congr (outcome.messages_store _ _) _

/-- A drain that returns has claimed the scanned rows in turn, each once, and has left what their
deliveries come to. -/
theorem finish_of_drainRun {trace : List (Unit × Action)} (h : db.Scanned rows)
    (hrun : DrainRun ctx answers now (.single (Control.drain now rows) db) trace
      (.single .idle final)) :
    final = db.drained ctx answers now rows ∧ claimedJobs trace = rows.map claimedColumns.apply ∧
      ∀ row ∈ rows, (db.delivered ctx answers now row).ending ≠ .panicked := by
  induction rows generalizing db trace with
  | nil =>
      rcases hrun.cases_head with ⟨rfl, hfinish⟩ | ⟨label, _, _, _, hlabel, -⟩
      · cases hfinish
        exact ⟨rfl, rfl, by simp⟩
      · exact absurd hlabel (not_answered rfl label)
  | cons row rest ih =>
      obtain ⟨front, hfront, hrow⟩ := drainRun_row ctx answers now h
      have hstuck : ∀ label, ¬ (System.single .idle final).Answered answers now label :=
        not_answered rfl
      obtain ⟨later, hlater, rfl⟩ := hrow.rest_of_stuck hrun (fun _ _ _ => answered_unique) hstuck
      have hreturned : (db.delivered ctx answers now row).ending ≠ .panicked := by
        intro hpanicked
        -- After a panic the worker does not return.
        simp only [Outcome.resume, hpanicked] at hlater
        rcases hlater.cases_head with ⟨-, hfinish⟩ | ⟨label, _, _, _, hlabel, -⟩
        · cases congrFun (congrArg System.control hfinish) ()
        · exact not_answered rfl label hlabel
      rw [Outcome.resume_eq hreturned] at hlater
      obtain ⟨hfinal, hclaims, hrest⟩ := ih (h.next _) hlater
      refine ⟨hfinal, ?_, List.forall_mem_cons.mpr ⟨hreturned, fun other hother => ?_⟩⟩
      · rw [claimedJobs_append, hfront, hclaims]
        rfl
      · rw [← delivered_store (db.delivered ctx answers now row) row other]
        exact hrest other hother

variable (ctx answers now) in
/-- When no delivery panics, a drain returns. -/
theorem exists_drainRun (h : db.Scanned rows)
    (hreturned : ∀ row ∈ rows, (db.delivered ctx answers now row).ending ≠ .panicked) :
    ∃ trace, DrainRun ctx answers now (.single (Control.drain now rows) db) trace
      (.single .idle (db.drained ctx answers now rows)) := by
  induction rows generalizing db with
  | nil => exact ⟨[], .refl⟩
  | cons row rest ih =>
      obtain ⟨hrow, hrest⟩ := List.forall_mem_cons.mp hreturned
      obtain ⟨front, -, hfront⟩ := drainRun_row ctx answers now h
      obtain ⟨later, hlater⟩ := ih (h.next (db.delivered ctx answers now row))
        (fun other hother => by
          rw [delivered_store]
          exact hrest other hother)
      rw [Outcome.resume_eq hrow] at hfront
      exact ⟨_, hfront.append hlater⟩

/-- When the backoff can be represented no delivery panics. -/
theorem refused_ne_panicked (hbackoff : ctx.config.Representable now) (job : Outbound)
    (reason : String) : ctx.config.refused job now reason ≠ .panicked := by
  obtain ⟨columns, hcolumns, -⟩ := OutboundWorkerConfig.exists_failOrRequeue hbackoff job reason
  rw [OutboundWorkerConfig.refused, hcolumns]
  nofun

theorem deliverHosts_ne_panicked {outside : Outside} (hbackoff : ctx.config.Representable now)
    (job : Outbound) (lastError : Option String) (hosts : List String) :
    (outside.deliverHosts ctx now job lastError hosts).ending ≠ .panicked := by
  induction hosts generalizing lastError with
  | nil => exact refused_ne_panicked hbackoff job _
  | cons host hosts ih =>
      simp only [Outside.deliverHosts]
      split
      · nofun
      · split
        · nofun
        · exact ih _

theorem deliver_ne_panicked {outside : Outside} (hbackoff : ctx.config.Representable now) (db : Db)
    (job : Outbound) : (outside.deliver ctx db now job).ending ≠ .panicked := by
  unfold Outside.deliver
  split
  · nofun
  · split
    · nofun
    · rename_i targets _
      cases targets with
      | nil => exact refused_ne_panicked hbackoff job _
      | cons host hosts => exact deliverHosts_ne_panicked hbackoff job none (host :: hosts)

/-! ## What a drain leaves of each job -/

variable (ctx answers now) in
/-- A row that is not among the scanned ones is left as it is, and so is its trail. -/
theorem drained_of_not_mem (db : Db) {id : Nat} (hnot : ∀ row ∈ rows, row.id ≠ id) :
    (db.drained ctx answers now rows).outbounds.get? id = db.outbounds.get? id ∧
      (db.drained ctx answers now rows).trail id = db.trail id := by
  induction rows generalizing db with
  | nil => exact ⟨rfl, rfl⟩
  | cons row rest ih =>
      obtain ⟨hrow, htrail⟩ := @ih ((db.delivered ctx answers now row).store
        (db.updateOutbound row.id claimedColumns) row.id)
        (fun other hother => hnot other (.tail _ hother))
      have hne : id ≠ row.id := fun h => hnot row List.mem_cons_self h.symm
      constructor
      · rw [Db.drained, hrow, Outcome.get?_store, if_neg hne, Db.get?_updateOutbound, if_neg hne]
      · rw [Db.drained, htrail, Outcome.trail_store, if_neg hne, List.append_nil,
          Db.trail_updateOutbound]

variable (ctx answers now) in
/-- A scanned row ends as its own delivery leaves it, and so does its trail. -/
theorem drained_of_mem (h : db.Scanned rows) (hmem : row ∈ rows) :
    (db.drained ctx answers now rows).outbounds.get? row.id =
        some ((db.delivered ctx answers now row).row (claimedColumns.apply row)) ∧
      (db.drained ctx answers now rows).trail row.id = db.trail row.id ++
        (db.delivered ctx answers now row).trail.map
          (fun attempt => (attempt.host, attempt.audit)) := by
  induction rows generalizing db with
  | nil => cases hmem
  | cons first rest ih =>
      cases hmem with
      | head =>
          have hnot : ∀ other ∈ rest, other.id ≠ row.id := fun other hother hid =>
            (List.nodup_cons.mp h.nodup).1 (hid ▸ List.mem_map_of_mem hother)
          obtain ⟨hrow, htrail⟩ := drained_of_not_mem ctx answers now
            ((db.delivered ctx answers now row).store (db.updateOutbound row.id claimedColumns)
              row.id) hnot
          constructor
          · rw [Db.drained, hrow, Outcome.get?_store, if_pos rfl,
              Db.get?_updateOutbound, if_pos rfl, h.stored row List.mem_cons_self]
            rfl
          · rw [Db.drained, htrail, Outcome.trail_store, if_pos rfl, Db.trail_updateOutbound]
      | tail _ hmem =>
          have hne : row.id ≠ first.id := fun hid =>
            (List.nodup_cons.mp h.nodup).1 (hid ▸ List.mem_map_of_mem hmem)
          obtain ⟨hrow, htrail⟩ := ih (h.next _) hmem
          rw [delivered_store] at hrow htrail
          refine ⟨hrow, htrail.trans ?_⟩
          rw [Outcome.trail_store, if_neg hne, List.append_nil, Db.trail_updateOutbound]

/-! ## Each job by itself -/

/-- The rows that are queued and due. -/
def Db.due (db : Db) (now : Timestamp) : List Outbound :=
  (db.outbounds.select (fun job => job.status = .queued)).filter (Outbound.due now)

/-- The database with this job as the only one in the queue. -/
def Db.alone (db : Db) (id : Nat) : Db :=
  { db with outbounds := db.outbounds.remove (fun row => row.id ≠ id) }

/-- One call of `drain_once`, from its scan of the queue to its return. -/
def Drained (ctx : Context) (answers : Outbound → Outside) (now : Timestamp) (db : Db)
    (trace : List (Unit × Action)) (final : Db) : Prop :=
  DrainRun ctx answers now (.single .fetchQueued db) trace (.single .idle final)

theorem mem_due : row ∈ db.due now ↔
    row ∈ db.outbounds.rows ∧ row.status = .queued ∧ row.due now = true := by
  rw [Db.due, List.mem_filter, Table.select, List.mem_filter, decide_eq_true_eq, and_assoc]

/-- The scanned rows are as they are stored. -/
theorem scanned_due (db : Db) (now : Timestamp) : db.Scanned (db.due now) where
  nodup := db.outbounds.nodup.sublist
    ((List.filter_sublist.trans List.filter_sublist).map Outbound.id)
  stored := fun _ hrow => Table.get?_of_mem (mem_due.mp hrow).1
  queued := fun _ hrow => (mem_due.mp hrow).2.1

/-- A call of `drain_once` scans the rows and then goes through them. -/
theorem drainRun_fetch (db : Db) : DrainRun ctx answers now (.single .fetchQueued db) []
    (.single (Control.drain now (db.due now)) db) :=
  have hadvance : Control.fetchQueued.advance ctx db (.queue now true) =
      some ([], Control.drain now (db.due now), db) := rfl
  drainRun_step rfl hadvance

theorem drained_iff {trace : List (Unit × Action)} :
    Drained ctx answers now db trace final ↔
    DrainRun ctx answers now (.single (Control.drain now (db.due now)) db) trace
      (.single .idle final) := by
  constructor
  · intro hrun
    obtain ⟨rest, hrest, rfl⟩ := (drainRun_fetch db).rest_of_stuck hrun
      (fun _ _ _ => answered_unique) (not_answered rfl)
    exact hrest
  · exact (drainRun_fetch db).append

/-- The queue of one job has the row of the job. -/
theorem get?_alone (db : Db) (id : Nat) :
    (db.alone id).outbounds.get? id = db.outbounds.get? id := by
  cases hrow : db.outbounds.get? id with
  | none =>
      cases halone : (db.alone id).outbounds.get? id with
      | none => rfl
      | some row => exact absurd (Table.get?_of_remove halone) (by simp [hrow])
  | some row =>
      exact Table.get?_remove_of_not hrow (by simp [Table.key_of_get? hrow])

/-- And no other. -/
theorem mem_due_alone {id : Nat} :
    row ∈ (db.alone id).due now ↔ row ∈ db.due now ∧ row.id = id := by
  rw [mem_due, mem_due]
  simp only [Db.alone, AutoTable.remove, Table.remove, List.mem_filter]
  by_cases hid : row.id = id
  · simp [hid]
  · simp [hid]

/-- **The jobs of one tick do not affect each other.** For every database, every configuration and
all answers that depend on the claimed job, a call of `drain_once` in which no statement fails
returns, unless computing a backoff panics; and whenever it returns it has claimed exactly the rows
that were queued and due at its scan, each once. Whatever way its delivery ended, each job has then
the row and the trail that a call with this job alone in the queue leaves; and the rows that were
not queued or not due are as they were, with their trails. -/
theorem drained_alone (ctx : Context) (answers : Outbound → Outside) (now : Timestamp) (db : Db) :
    (ctx.config.Representable now → ∃ trace final, Drained ctx answers now db trace final) ∧
    ∀ trace final, Drained ctx answers now db trace final →
      claimedJobs trace = (db.due now).map claimedColumns.apply ∧
      ((claimedJobs trace).map Outbound.id).Nodup ∧
      (∀ id, ∃ aloneTrace alone, Drained ctx answers now (db.alone id) aloneTrace alone ∧
        final.outbounds.get? id = alone.outbounds.get? id ∧ final.trail id = alone.trail id) ∧
      ∀ row ∈ db.outbounds.rows, ¬ (row.status = .queued ∧ row.due now = true) →
        final.outbounds.get? row.id = some row ∧ final.trail row.id = db.trail row.id := by
  refine ⟨fun hbackoff => ?_, fun trace final hdrained => ?_⟩
  · obtain ⟨trace, hrun⟩ := exists_drainRun ctx answers now (scanned_due db now)
      (fun row _ => deliver_ne_panicked hbackoff db _)
    exact ⟨trace, _, drained_iff.mpr hrun⟩
  · obtain ⟨rfl, hclaims, hreturned⟩ := finish_of_drainRun (scanned_due db now)
      (drained_iff.mp hdrained)
    refine ⟨hclaims, ?_, fun id => ?_, fun row hrow hnot => ?_⟩
    · rw [hclaims, List.map_map]
      exact (scanned_due db now).nodup
    · have hsame (row : Outbound) : (db.alone id).delivered ctx answers now row =
          db.delivered ctx answers now row := Outside.deliver_congr rfl _
      obtain ⟨aloneTrace, halone⟩ := exists_drainRun ctx answers now
        (scanned_due (db.alone id) now)
        (fun row hrow => by
          rw [hsame]
          exact hreturned row (mem_due_alone.mp hrow).1)
      refine ⟨aloneTrace, _, drained_iff.mpr halone, ?_⟩
      by_cases hdue : ∃ row ∈ db.due now, row.id = id
      · obtain ⟨row, hrow, rfl⟩ := hdue
        obtain ⟨hfinal, htrail⟩ := drained_of_mem ctx answers now
          (scanned_due db now) hrow
        obtain ⟨hfinal', htrail'⟩ := drained_of_mem ctx answers now
          (scanned_due (db.alone row.id) now) (mem_due_alone.mpr ⟨hrow, rfl⟩)
        rw [hfinal, htrail, hfinal', htrail', hsame]
        exact ⟨rfl, rfl⟩
      · obtain ⟨hfinal, htrail⟩ := drained_of_not_mem ctx answers now db
          (fun row hrow hid => hdue ⟨row, hrow, hid⟩)
        obtain ⟨hfinal', htrail'⟩ := drained_of_not_mem ctx answers now (db.alone id)
          (fun row hrow hid => hdue ⟨row, (mem_due_alone.mp hrow).1, hid⟩)
        rw [hfinal, htrail, hfinal', htrail', get?_alone]
        exact ⟨rfl, rfl⟩
    · have hfree : ∀ other ∈ db.due now, other.id ≠ row.id := by
        intro other hother hid
        obtain ⟨hmem, hdue⟩ := mem_due.mp hother
        rw [db.outbounds.eq_of_key_eq hmem hrow hid] at hdue
        exact hnot hdue
      obtain ⟨hfinal, htrail⟩ := drained_of_not_mem ctx answers now db hfree
      exact ⟨hfinal.trans (Table.get?_of_mem hrow), htrail⟩

/-- Two queued jobs. -/
def twoJobs : Db :=
  ((Statement.createOutbound exampleJob).execute none (oneJob Unit).db).2

/-- The lookup for the first job fails; the first host of any other job refuses and the second
accepts. -/
def firstUnresolved (job : Outbound) : Outside :=
  if job.id = 1 then { secondHost with resolver := fun _ => .failed "timeout" } else secondHost

/-- The first job is left in progress, and the second is delivered. -/
theorem drained_twoJobs : ∃ trace final,
    Drained defaultContext firstUnresolved 0 twoJobs trace final ∧
    (claimedJobs trace).map Outbound.id = [1, 2] ∧
    ∃ aloneTrace alone,
      Drained defaultContext firstUnresolved 0 (twoJobs.alone 2) aloneTrace alone ∧
      final.outbounds.get? 2 = alone.outbounds.get? 2 ∧ final.trail 2 = alone.trail 2 := by
  have hbackoff : defaultContext.config.Representable 0 := ⟨by decide, by decide, by decide⟩
  obtain ⟨hreturns, hfinal⟩ := drained_alone defaultContext firstUnresolved 0 twoJobs
  obtain ⟨trace, final, hdrained⟩ := hreturns hbackoff
  obtain ⟨hclaims, -, halone, -⟩ := hfinal trace final hdrained
  refine ⟨trace, final, hdrained, ?_, halone 2⟩
  rw [hclaims]
  rfl

end Zonemail
