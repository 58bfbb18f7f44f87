import Zonemail.Outbound.Rows

/-!
# The attempt cap

`max_attempts` is the number of cycles after which a job is to be `Failed`. `fail_or_requeue` counts
the cycle first and gives the job up when the counter is past the cap. So the cycle that brings the
counter to `max_attempts` still puts the job back, and it takes one more to settle it.
`System.Tried` is what any number of refused cycles make of a job and its row. From it follows that
the documented cap is kept until the job's `max_attempts`-th cycle ends, and not beyond.
-/

namespace Zonemail

open Library

/-! ## Cycles of a job -/

/-- The cycles of a job after one more action. -/
def Action.cycles (id : Nat) (earlier : List Bool) : Action → List Bool
  | .claimed _ job => if job.id = id then false :: earlier else earlier
  | .sent handed _ _ _ => if handed = id then true :: earlier.tail else earlier

/-- The cycles of a job in a run, the latest first: each says whether the message was handed to a
transport in it. A claim of the job begins a cycle. -/
def cycles (id : Nat) (trace : List (Unit × Action)) : List Bool :=
  trace.foldl (fun earlier event => event.2.cycles id earlier) []

theorem cycles_append (id : Nat) (trace : List (Unit × Action)) (actions : List Action) :
    cycles id (trace ++ actions.map (Prod.mk ())) =
      actions.foldl (Action.cycles id) (cycles id trace) := by
  rw [cycles, List.foldl_append, List.foldl_map]
  rfl

/-- Handing over the job in one of its cycles does not begin another. -/
theorem length_cycles_of_sent {id : Nat} {earlier : List Bool} {actions : List Action}
    (hopen : earlier ≠ [])
    (h : ∀ action ∈ actions, ∃ dial envelope raw, action = .sent id dial envelope raw) :
    (actions.foldl (Action.cycles id) earlier).length = earlier.length := by
  induction actions generalizing earlier with
  | nil => rfl
  | cons action actions ih =>
      obtain ⟨hfirst, hrest⟩ := List.forall_mem_cons.mp h
      obtain ⟨dial, envelope, raw, rfl⟩ := hfirst
      rw [List.foldl_cons, Action.cycles, if_pos rfl, ih (List.cons_ne_nil _ _) hrest,
        List.length_cons, List.length_tail, Nat.sub_add_cancel (List.length_pos_of_ne_nil hopen)]

/-- What is done with another job changes nothing. -/
theorem cycles_of_ne {id : Nat} {earlier : List Bool} {actions : List Action}
    (h : ∀ action ∈ actions, action.jobId ≠ id) :
    actions.foldl (Action.cycles id) earlier = earlier := by
  induction actions generalizing earlier with
  | nil => rfl
  | cons action actions ih =>
      obtain ⟨hfirst, hrest⟩ := List.forall_mem_cons.mp h
      have hsame : action.cycles id earlier = earlier := by
        cases action with
        | claimed | sent => exact if_neg hfirst
      rw [List.foldl_cons, hsame, ih hrest]

/-! ## A refused cycle -/

namespace Control

/-- The hosts refuse, and the end of the cycle can be computed: the cycle goes through
`fail_or_requeue`. -/
def Refused (ctx : Context) : Control → Input → Prop
  | .sendRaw _ _ _, .reply (.ok _) => False
  | .recordAccepted _ _ _, _ | .markDelivered _, _ => False
  | .failOrRequeue delivery reason, _ =>
      ctx.config.failOrRequeue delivery.job delivery.now reason ≠ none
  | _, _ => True

variable {ctx : Context} {db next : Db} {before after : Control} {input : Input}
  {actions : List Action}

/-- A step of a cycle that is not a crash is one of a running worker. -/
theorem advance_of_next {job : Outbound} (hheld : before.held = some job)
    (hundisturbed : input.Undisturbed)
    (h : before.next ctx db input = some (actions, after, next)) :
    before.advance ctx db input = some (actions, after, next) := by
  rcases next_cases h with ⟨rfl, -⟩ | ⟨-, rfl, -⟩ | ⟨-, -, hadvance⟩
  · cases hheld
  · exact hundisturbed.elim
  · exact hadvance

/-- A step of a cycle that is refused and meets no error goes on with the held job, or ends the
cycle in `fail_or_requeue`. -/
theorem refused_cases {job : Outbound} (hheld : before.held = some job)
    (hundisturbed : input.Undisturbed) (hdeliverable : before.Deliverable ctx db input)
    (hrefused : before.Refused ctx input)
    (h : before.next ctx db input = some (actions, after, next)) :
    (next.outbounds = db.outbounds ∧ after.held = some job ∧
      (∀ action ∈ actions, ∃ dial envelope raw, action = .sent job.id dial envelope raw) ∧
      ∀ delivery reason, before ≠ .failOrRequeue delivery reason) ∨
    ∃ delivery reason columns, before = .failOrRequeue delivery reason ∧ delivery.job = job ∧
      ctx.config.failOrRequeue job delivery.now reason = some columns ∧ actions = [] ∧
      after = resume delivery ∧ next = db.updateOutbound job.id columns := by
  replace h := advance_of_next hheld hundisturbed h
  cases before with
  | deliverOne delivery =>
      cases hheld
      cases input with
      | database ok =>
          cases ok with
          | false => exact hundisturbed.elim
          | true =>
              simp only [advance, if_true] at h
              split at h
              · rename_i hload
                exact absurd hdeliverable (ctx.not_deliverable_of_load hload)
              · cases h
                exact .inl ⟨rfl, rfl, by simp, by simp⟩
      | _ => cases h
  | lookupMxHosts delivery message envelope =>
      cases hheld
      cases input with
      | resolver resolver =>
          simp only [advance] at h
          split at h
          · rename_i htargets
            exact absurd hdeliverable (ctx.not_deliverable_of_findTargets htargets)
          · cases h
            exact .inl ⟨rfl, held_offer _ _, by simp, by simp⟩
      | _ => cases h
  | buildOutboundTls handOff host hosts =>
      cases hheld
      cases input with
      | tls built =>
          simp only [advance] at h
          split at h
          · rename_i htls
            exact absurd hdeliverable (not_deliverable_of_buildOutboundTls htls)
          · cases h
            refine .inl ⟨rfl, rfl, fun action haction => ?_, by simp⟩
            rw [List.mem_singleton] at haction
            exact ⟨_, _, _, haction⟩
      | _ => cases h
  | sendRaw handOff host hosts =>
      cases hheld
      cases input with
      | reply reply =>
          cases reply with
          | ok response => exact hrefused.elim
          | error error =>
              cases h
              exact .inl ⟨rfl, rfl, by simp, by simp⟩
      | _ => cases h
  | recordRefused handOff host error hosts =>
      cases hheld
      cases input with
      | database ok =>
          cases ok with
          | false => exact hundisturbed.elim
          | true =>
              cases h
              exact .inl ⟨rfl, held_deliverHosts _ _ _, by simp, by simp⟩
      | _ => cases h
  | failOrRequeue delivery reason =>
      cases hheld
      cases input with
      | database ok =>
          cases ok with
          | false => exact hundisturbed.elim
          | true =>
              simp only [advance] at h
              split at h
              · rename_i hnone
                exact absurd hnone hrefused
              · rename_i columns hcolumns
                cases h
                exact .inr ⟨delivery, reason, columns, rfl, rfl, hcolumns, rfl, rfl, rfl⟩
      | _ => cases h
  | recordAccepted | markDelivered => exact hrefused.elim
  | _ => cases hheld

end Control

namespace System

/-- Every cycle of the job goes through `fail_or_requeue`. Steps outside its cycles are free. -/
def Refused (ctx : Context) (id : Nat) (system : System Unit) : Label Unit → Prop
  | .worker _ input => system.Holds () id → input.Undisturbed ∧
      (system.control ()).Deliverable ctx system.db input ∧ (system.control ()).Refused ctx input
  | .request _ _ => True

/-- The cycle that brings the attempts of the job to the cap does not end. -/
def BelowCap (ctx : Context) (id : Nat) (system : System Unit) : Label Unit → Prop
  | .worker _ _ =>
      match system.control () with
      | .failOrRequeue delivery _ =>
          delivery.job.id = id → delivery.job.attempts + 1 ≠ ctx.config.maxAttempts
      | _ => True
  | .request _ _ => True

/-- The job is stored as it was enqueued, and the worker has nothing to do with it yet. -/
structure Fresh (id : Nat) (system : System Unit) : Prop where
  stored : ∃ row, system.db.outbounds.get? id = some row ∧ row.status = .queued ∧ row.attempts = 0
  free : ¬ system.Holds () id
  unread : ∀ job ∈ (system.control ()).reclaimed, job.id ≠ id

/-- The cycles of the job that have ended. -/
def cyclesEnded (id : Nat) (trace : List (Unit × Action)) (system : System Unit) : Nat :=
  match (system.control ()).held with
  | some job => if job.id = id then (cycles id trace).length - 1 else (cycles id trace).length
  | none => (cycles id trace).length

/-- The attempt cap is the documented one: the message is handed to a transport in at most
`max_attempts` cycles, and the row of the job, unless it was deleted, is `Failed` from the end of
its `max_attempts`-th cycle on and not before. -/
structure CapKept (ctx : Context) (id : Nat) (trace : List (Unit × Action))
    (system : System Unit) : Prop where
  handed : (cycles id trace).count true ≤ ctx.config.maxAttempts
  failed : ∀ row, system.db.outbounds.get? id = some row →
    (row.status = .failed ↔ ctx.config.maxAttempts ≤ system.cyclesEnded id trace)

/-- The job after these cycles, all of them refused: its row counts those that have ended, and is
in progress while the worker holds the job. -/
structure Tried (ctx : Context) (id : Nat) (cycles : List Bool) (system : System Unit) :
    Prop where
  known : id < system.db.outbounds.next
  unread : ∀ job ∈ (system.control ()).reclaimed, job.id ≠ id
  held : ∀ job, (system.control ()).held = some job → job.id = id →
    cycles.length = job.attempts + 1 ∧
      ∀ row, system.db.outbounds.get? id = some row → row.status = .inProgress
  ended : ¬ system.Holds () id → ∀ row, system.db.outbounds.get? id = some row →
    row.attempts = cycles.length ∧
      row.status = if ctx.config.maxAttempts < cycles.length then .failed else .queued

variable {ctx : Context} {system next : System Unit} {label : Label Unit} {id : Nat}
  {earlier : List Bool} {trace actions : List (Unit × Action)} {after : Control} {db : Db}

/-- A worker without a job is free to do anything. -/
theorem refused_of_free (h : (system.control ()).held = none) : system.Refused ctx id label := by
  cases label with
  | request => trivial
  | worker worker input =>
      intro h
      obtain ⟨job, hjob, -⟩ := h
      cases h.symm.trans hjob

/-- A job that was not tried yet. -/
theorem Fresh.tried (h : system.Fresh id) : system.Tried ctx id [] := by
  obtain ⟨row, hrow, hstatus, hattempts⟩ := h.stored
  refine ⟨AutoTable.lt_next_of_get? hrow, h.unread, ?_, ?_⟩
  · exact fun job hjob hid => absurd ⟨job, hjob, hid⟩ h.free
  · intro _ stored hstored
    cases hrow.symm.trans hstored
    exact ⟨hattempts, by rw [hstatus]; rfl⟩

/-- A step that leaves the job alone outside its cycles. -/
theorem Tried.moved (htried : system.Tried ctx id earlier)
    (hfree : ¬ system.Holds () id) {shown : List Action}
    (hleaves : system.LeavesAlone id shown after db) :
    (system.moved () after db).Tried ctx id earlier where
  known := hleaves.number ▸ htried.known
  unread := by
    rw [moved_control_self]
    exact hleaves.unread
  held := fun job hjob hid => by
    rw [moved_control_self] at hjob
    exact absurd hid (hleaves.unheld job hjob)
  ended := fun _ row hstored => by
    rw [moved_db, hleaves.row] at hstored
    exact htried.ended hfree row hstored

/-- Claiming the job begins a cycle. -/
theorem Tried.claim {now : Timestamp} {scanned row : Outbound} {rest : List Outbound}
    (htried : system.Tried ctx scanned.id earlier)
    (hbefore : system.control () = .drainOnce now scanned rest)
    (hrow : system.db.outbounds.get? scanned.id = some row) :
    (system.moved () (.deliverOne ⟨now, rest, claimedColumns.apply row⟩)
      (system.db.updateOutbound scanned.id claimedColumns)).Tried ctx scanned.id
        (false :: earlier) where
  known := htried.known
  unread := by
    rw [moved_control_self]
    exact fun job hjob => nomatch hjob
  held := fun job hjob _ => by
    rw [moved_control_self] at hjob
    cases hjob
    have hfree : ¬ system.Holds () scanned.id := by simp [Holds, hbefore, Control.held]
    refine ⟨?_, fun stored hstored => ?_⟩
    · show earlier.length + 1 = row.attempts + 1
      rw [(htried.ended hfree row hrow).1]
    · rw [moved_db, Db.get?_updateOutbound, if_pos rfl, hrow] at hstored
      cases hstored
      rfl
  ended := fun hnot =>
    absurd (holds_update_self.mpr
      ⟨claimedColumns.apply row, rfl, (claimedColumns.apply_id row).trans (Table.key_of_get? hrow)⟩)
      hnot

/-- The end of a cycle of the job counts it, and gives the job up once the counter is past the
cap. -/
theorem Tried.finish {delivery : Delivery} {reason : String} {columns : OutboundColumns}
    (htried : system.Tried ctx delivery.job.id earlier)
    (hheld : (system.control ()).held = some delivery.job)
    (hcolumns : ctx.config.failOrRequeue delivery.job delivery.now reason = some columns) :
    (system.moved () (Control.resume delivery)
      (system.db.updateOutbound delivery.job.id columns)).Tried ctx delivery.job.id earlier where
  known := htried.known
  unread := by
    rw [moved_control_self, Control.resume, Control.reclaimed_drain]
    exact fun job hjob => nomatch hjob
  held := fun job hjob => by
    rw [moved_control_self, Control.resume, Control.held_drain] at hjob
    cases hjob
  ended := fun _ row hstored => by
    obtain ⟨hlength, -⟩ := htried.held delivery.job hheld rfl
    rw [moved_db, Db.get?_updateOutbound, if_pos rfl, Option.map_eq_some_iff] at hstored
    obtain ⟨old, -, rfl⟩ := hstored
    obtain ⟨hattempts, hstatus⟩ := OutboundWorkerConfig.failOrRequeue_cases hcolumns
    rw [OutboundColumns.apply_attempts, OutboundColumns.apply_status, hattempts, hlength]
    refine ⟨rfl, ?_⟩
    rcases hstatus with ⟨hfailed, hcap⟩ | ⟨hqueued, hcap⟩
    · rw [hfailed, if_pos hcap]
    · rw [hqueued, if_neg (Nat.not_lt.mpr hcap)]

/-- A refused cycle of the job that goes on hands over at most the job itself. -/
theorem Tried.goes_on {job : Outbound} {shown : List Action}
    (htried : system.Tried ctx job.id earlier) (hjob : (system.control ()).held = some job)
    (houtbounds : db.outbounds = system.db.outbounds) (hheld : after.held = some job)
    (hsent : ∀ action ∈ shown, ∃ dial envelope raw, action = .sent job.id dial envelope raw) :
    (system.moved () after db).Tried ctx job.id (shown.foldl (Action.cycles job.id) earlier) := by
  obtain ⟨hlength, hstatus⟩ := htried.held job hjob rfl
  have hopen : earlier ≠ [] := by
    intro heq
    obtain rfl := heq
    cases hlength
  refine ⟨?_, ?_, ?_, ?_⟩
  · rw [moved_db, houtbounds]
    exact htried.known
  · rw [moved_control_self, Control.reclaimed_of_held hheld]
    exact fun other hother => nomatch hother
  · intro other hother _
    rw [moved_control_self, hheld] at hother
    cases hother
    rw [length_cycles_of_sent hopen hsent, moved_db, houtbounds]
    exact ⟨hlength, hstatus⟩
  · exact fun hnot => absurd (holds_update_self.mpr ⟨job, hheld, rfl⟩) hnot

/-- Outside the cycles of the job a step leaves it alone, or claims it. -/
theorem Tried.free_cases {input : Input} {shown : List Action}
    (htried : system.Tried ctx id earlier) (hfree : ¬ system.Holds () id)
    (h : (system.control ()).next ctx system.db input = some (shown, after, db)) :
    system.LeavesAlone id shown after db ∧ shown.foldl (Action.cycles id) earlier = earlier ∨
    ∃ now scanned row rest, scanned.id = id ∧ system.control () = .drainOnce now scanned rest ∧
      system.db.outbounds.get? scanned.id = some row ∧
      after = .deliverOne ⟨now, rest, claimedColumns.apply row⟩ ∧
      db = system.db.updateOutbound scanned.id claimedColumns ∧
      shown.foldl (Action.cycles id) earlier = false :: earlier := by
  have hstatus : ∀ row, system.db.outbounds.get? id = some row → row.status ≠ .inProgress := by
    intro row hrow hprogress
    obtain ⟨-, hended⟩ := htried.ended hfree row hrow
    rw [hprogress] at hended
    split at hended <;> cases hended
  rcases System.free_cases hfree htried.unread hstatus h with hleaves |
    ⟨now, scanned, row, rest, hid, hbefore, hrow, rfl, hafter, hdb⟩
  · exact .inl ⟨hleaves, cycles_of_ne hleaves.shown⟩
  · have hrowId : (claimedColumns.apply row).id = id :=
      (claimedColumns.apply_id row).trans ((Table.key_of_get? hrow).trans hid)
    refine .inr ⟨now, scanned, row, rest, hid, hbefore, hrow, hafter, hdb, ?_⟩
    rw [List.foldl_cons, List.foldl_nil, Action.cycles, if_pos hrowId]

/-- Every step in which the cycles of the job are refused keeps count of them. -/
theorem Tried.step (htried : system.Tried ctx id (cycles id trace))
    (hrefused : system.Refused ctx id label)
    (h : system.step (fun _ => ctx) label = some (actions, next)) :
    next.Tried ctx id (cycles id (trace ++ actions)) := by
  rcases step_cases h with ⟨statement, fault, rfl, rfl, rfl⟩ |
    ⟨⟨⟩, input, shown, after, db, rfl, hnext, rfl, rfl⟩
  · have hextends := statement.extends_execute fault system.db
    have hkept {row : Outbound} (hrow : (statement.execute fault system.db).2.outbounds.get? id =
        some row) : system.db.outbounds.get? id = some row :=
      hextends.get?_of_lt htried.known hrow
    rw [List.append_nil]
    refine ⟨Nat.lt_of_lt_of_le htried.known hextends.next_le, htried.unread, ?_, ?_⟩
    · intro job hjob hid
      obtain ⟨hlength, hstatus⟩ := htried.held job hjob hid
      exact ⟨hlength, fun row hrow => hstatus row (hkept hrow)⟩
    · exact fun hfree row hrow => htried.ended hfree row (hkept hrow)
  · rw [cycles_append]
    by_cases hholds : system.Holds () id
    · obtain ⟨hundisturbed, hdeliverable, hcontrol⟩ := hrefused hholds
      obtain ⟨job, hjob, rfl⟩ := hholds
      rcases Control.refused_cases hjob hundisturbed hdeliverable hcontrol hnext with
        ⟨houtbounds, hheld, hsent, -⟩ |
        ⟨delivery, reason, columns, hbefore, rfl, hcolumns, rfl, rfl, rfl⟩
      · exact htried.goes_on hjob houtbounds hheld hsent
      · exact htried.finish hjob hcolumns
    · rcases htried.free_cases hholds hnext with ⟨hleaves, hcycles⟩ |
        ⟨now, scanned, row, rest, rfl, hbefore, hrow, rfl, rfl, hcycles⟩
      · rw [hcycles]
        exact htried.moved hholds hleaves
      · rw [hcycles]
        exact htried.claim hbefore hrow

/-! ## The cap -/

/-- Of so many cycles none is the one that exceeds the cap. -/
def Within (ctx : Context) (id : Nat) (cycles : List Bool) (system : System Unit) : Prop :=
  cycles.length ≤ ctx.config.maxAttempts ∧
    (¬ system.Holds () id → cycles.length < ctx.config.maxAttempts)

/-- No step brings the job to the cap when the cycle that would do it does not end. -/
theorem Within.step (hwithin : system.Within ctx id (cycles id trace))
    (htried : system.Tried ctx id (cycles id trace)) (hrefused : system.Refused ctx id label)
    (hbelow : system.BelowCap ctx id label)
    (h : system.step (fun _ => ctx) label = some (actions, next)) :
    next.Within ctx id (cycles id (trace ++ actions)) := by
  rcases step_cases h with ⟨statement, fault, rfl, rfl, rfl⟩ |
    ⟨⟨⟩, input, shown, after, db, rfl, hnext, rfl, rfl⟩
  · rw [List.append_nil]
    exact hwithin
  · rw [cycles_append]
    by_cases hholds : system.Holds () id
    · obtain ⟨hundisturbed, hdeliverable, hcontrol⟩ := hrefused hholds
      obtain ⟨job, hjob, rfl⟩ := hholds
      obtain ⟨hlength, -⟩ := htried.held job hjob rfl
      rcases Control.refused_cases hjob hundisturbed hdeliverable hcontrol hnext with
        ⟨houtbounds, hheld, hsent, -⟩ |
        ⟨delivery, reason, columns, hbefore, rfl, hcolumns, rfl, rfl, rfl⟩
      · have hopen : cycles job.id trace ≠ [] := by
          intro hnil
          rw [hnil] at hlength
          cases hlength
        rw [Within, length_cycles_of_sent hopen hsent]
        exact ⟨hwithin.1, fun hnot => absurd (holds_update_self.mpr ⟨job, hheld, rfl⟩) hnot⟩
      · simp only [BelowCap, hbefore, forall_const] at hbelow
        have hle := hwithin.1
        exact ⟨hle, fun _ => by
          show (cycles delivery.job.id trace).length < ctx.config.maxAttempts
          omega⟩
    · have hlt := hwithin.2 hholds
      rcases htried.free_cases hholds hnext with ⟨-, hcycles⟩ |
        ⟨now, scanned, row, rest, rfl, hbefore, hrow, rfl, rfl, hcycles⟩
      · rw [hcycles]
        exact ⟨hwithin.1, fun _ => hlt⟩
      · rw [hcycles]
        refine ⟨hlt, fun hnot => absurd (holds_update_self.mpr ⟨_, rfl, ?_⟩) hnot⟩
        exact (claimedColumns.apply_id row).trans (Table.key_of_get? hrow)

theorem cyclesEnded_of_free (hfree : ¬ system.Holds () id) :
    system.cyclesEnded id trace = (cycles id trace).length := by
  unfold cyclesEnded
  split
  · rename_i job hjob
    exact if_neg (fun hid => hfree ⟨job, hjob, hid⟩)
  · rfl

theorem cyclesEnded_of_holds (hholds : system.Holds () id) :
    system.cyclesEnded id trace = (cycles id trace).length - 1 := by
  obtain ⟨job, hjob, hid⟩ := hholds
  simp only [cyclesEnded, hjob, if_pos hid]

/-- Below the cap it is kept: the job has not failed, and should not have. -/
theorem Within.capKept (hwithin : system.Within ctx id (cycles id trace))
    (htried : system.Tried ctx id (cycles id trace)) (hmax : 1 ≤ ctx.config.maxAttempts) :
    system.CapKept ctx id trace := by
  obtain ⟨hle, hlt⟩ := hwithin
  refine ⟨Nat.le_trans List.count_le_length hle, fun row hrow => ?_⟩
  by_cases hholds : system.Holds () id
  · rw [cyclesEnded_of_holds hholds]
    obtain ⟨job, hjob, hid⟩ := hholds
    rw [(htried.held job hjob hid).2 row hrow]
    constructor
    · exact fun hfailed => nomatch hfailed
    · intro hcap
      omega
  · have hlt := hlt hholds
    rw [cyclesEnded_of_free hholds, (htried.ended hholds row hrow).2,
      if_neg (Nat.not_lt.mpr (Nat.le_of_lt hlt))]
    constructor
    · exact fun hfailed => nomatch hfailed
    · intro hcap
      omega

/-- The end of the cycle that brings the job to the cap leaves it in the queue. -/
theorem not_capKept_of_cap (htried : system.Tried ctx id (cycles id trace))
    (hrefused : system.Refused ctx id label) (hcap : ¬ system.BelowCap ctx id label)
    (h : system.step (fun _ => ctx) label = some (actions, next))
    (hstored : (next.db.outbounds.get? id).isSome) :
    ¬ next.CapKept ctx id (trace ++ actions) := by
  rcases step_cases h with ⟨statement, fault, rfl, rfl, rfl⟩ |
    ⟨⟨⟩, input, shown, after, db, rfl, hnext, rfl, rfl⟩
  · exact absurd trivial hcap
  · simp only [BelowCap] at hcap
    split at hcap
    · rename_i delivery reason hbefore
      rw [Classical.not_imp, not_not] at hcap
      obtain ⟨rfl, hattempts⟩ := hcap
      have hjob : (system.control ()).held = some delivery.job := by
        rw [hbefore]
        rfl
      obtain ⟨hundisturbed, hdeliverable, hcontrol⟩ := hrefused ⟨_, hjob, rfl⟩
      obtain ⟨hlength, -⟩ := htried.held delivery.job hjob rfl
      rcases Control.refused_cases hjob hundisturbed hdeliverable hcontrol hnext with
        ⟨-, -, -, hnot⟩ | ⟨other, _, columns, hother, hsame, hcolumns, rfl, rfl, rfl⟩
      · exact absurd hbefore (hnot delivery reason)
      · intro hkept
        obtain ⟨row, hrow⟩ := Option.isSome_iff_exists.mp hstored
        have hended := (htried.step hrefused h).ended (by
          rw [holds_update_self, Control.resume, Control.held_drain]
          simp) row hrow
        have hfailed := hkept.failed row hrow
        rw [cyclesEnded_of_free (by
          rw [holds_update_self, Control.resume, Control.held_drain]
          simp), List.map_nil, List.append_nil, hlength, hattempts] at hfailed
        rw [List.map_nil, List.append_nil, hlength, hattempts, if_neg (Nat.lt_irrefl _)] at hended
        rw [hended.2] at hfailed
        exact nomatch hfailed.mpr (Nat.le_refl _)
    · exact absurd trivial hcap

/-- **When the attempt cap is the documented one.** For every configuration with a cap, and every
run of one worker, with other statements in between, in which every cycle of a job that was enqueued
before goes through `fail_or_requeue`: as long as the cycle that brings its attempts to
`max_attempts` does not end, the job is handed to a transport in at most `max_attempts` cycles and
is `Failed` exactly from the end of its `max_attempts`-th cycle on. The step that ends that cycle
breaks this, unless the row was deleted. -/
theorem capKept_iff_belowCap (ctx : Context) (hmax : 1 ≤ ctx.config.maxAttempts)
    {start middle : System Unit} (hfresh : start.Fresh id)
    (hrun : Run (step (fun _ => ctx))
      (fun system label => system.Refused ctx id label ∧ system.BelowCap ctx id label) start trace
      middle) :
    middle.CapKept ctx id trace ∧
      ∀ label actions next, middle.Refused ctx id label →
        middle.step (fun _ => ctx) label = some (actions, next) →
        (next.db.outbounds.get? id).isSome →
        (next.CapKept ctx id (trace ++ actions) ↔ middle.BelowCap ctx id label) := by
  have hinvariant := hrun.invariant_trace
    (fun trace system => system.Tried ctx id (cycles id trace) ∧
      system.Within ctx id (cycles id trace))
    ⟨hfresh.tried, Nat.zero_le _, fun _ => hmax⟩
    (fun trace system label actions next hold hallowed h =>
      ⟨hold.1.step hallowed.1 h, hold.2.step hold.1 hallowed.1 hallowed.2 h⟩)
  obtain ⟨htried, hwithin⟩ := hinvariant
  refine ⟨hwithin.capKept htried hmax, fun label actions next hrefused h hstored => ?_⟩
  constructor
  · intro hkept
    by_contra hcap
    exact not_capKept_of_cap htried hrefused hcap h hstored hkept
  · intro hbelow
    exact (hwithin.step htried hrefused hbelow h).capKept (htried.step hrefused h) hmax

end System

/-- The host refuses the job, which is to be tried once only, and is offered it again when the
backoff is over. -/
def offeredAgain : List (Label Unit) :=
  refusedOnce ++ [.worker () (.database true), .worker () (.resolver oneHost),
    .worker () (.tls true)]

/-- The default parameters with a cap of one attempt. -/
def onceContext : Context :=
  { defaultContext with config := { defaultContext.config with maxAttempts := 1 } }

/-- With the default cap, two cycles leave it intact. -/
theorem capKept_refusedOnce : ∃ trace middle,
    Run oneWorker (fun system label => system.Refused defaultContext 1 label ∧
      system.BelowCap defaultContext 1 label) (oneJob Unit) trace middle ∧
    cycles 1 trace = [false, true] ∧ middle.CapKept defaultContext 1 trace := by
  obtain ⟨trace, middle, hexecute, hallowed, hcycles⟩ : ∃ trace middle,
      execute oneWorker (oneJob Unit) refusedOnce = some (trace, middle) ∧
      AllowedAlong oneWorker (fun system label => system.Refused defaultContext 1 label ∧
        system.BelowCap defaultContext 1 label) (oneJob Unit) refusedOnce ∧
      cycles 1 trace = [false, true] := by
    refine ⟨_, _, rfl, ?_, rfl⟩
    refine ⟨⟨System.refused_of_free rfl, trivial⟩, ⟨System.refused_of_free rfl, trivial⟩,
      ⟨System.refused_of_free rfl, trivial⟩,
      ⟨fun _ => ⟨trivial, ⟨_, rfl, _, rfl⟩, trivial⟩, trivial⟩,
      ⟨fun _ => ⟨trivial, ⟨_, rfl⟩, trivial⟩, trivial⟩,
      ⟨fun _ => ⟨trivial, fun _ => rfl, trivial⟩, trivial⟩,
      ⟨fun _ => ⟨trivial, trivial, trivial⟩, trivial⟩,
      ⟨fun _ => ⟨trivial, trivial, trivial⟩, trivial⟩,
      ⟨fun _ => ⟨trivial, trivial, nofun⟩, fun _ => by decide⟩,
      ⟨System.refused_of_free rfl, trivial⟩, ⟨System.refused_of_free rfl, trivial⟩,
      ⟨System.refused_of_free rfl, trivial⟩, trivial⟩
  have hrun := execute_run_of_allowed hexecute hallowed
  have hfresh : (oneJob Unit).Fresh 1 := ⟨⟨_, rfl, rfl, rfl⟩, nofun, nofun⟩
  exact ⟨trace, middle, hrun, hcycles,
    (System.capKept_iff_belowCap defaultContext (by decide) hfresh hrun).1⟩

/-- A cap of one attempt is not kept: after its first cycle the job is back in the queue, and it is
handed to the host in a second one. -/
theorem not_capKept_offeredAgain : ¬ ∀ (ctx : Context) (trace : List (Unit × Action))
    (finish : System Unit), 1 ≤ ctx.config.maxAttempts →
    Run (System.step (fun _ => ctx)) (System.Refused ctx 1) (oneJob Unit) trace finish →
    (cycles 1 trace).count true ≤ ctx.config.maxAttempts ∨
      ∀ row, finish.db.outbounds.get? 1 = some row →
        (row.status = .failed ↔ ctx.config.maxAttempts ≤ finish.cyclesEnded 1 trace) := by
  intro h
  obtain ⟨trace, finish, row, hexecute, hallowed, hcycles, hrow, hstatus, hended⟩ :
      ∃ trace finish row,
        execute (System.step (fun _ => onceContext)) (oneJob Unit) offeredAgain =
          some (trace, finish) ∧
        AllowedAlong (System.step (fun _ => onceContext)) (System.Refused onceContext 1)
          (oneJob Unit) offeredAgain ∧
        cycles 1 trace = [true, true] ∧ finish.db.outbounds.get? 1 = some row ∧
        row.status = .inProgress ∧ finish.cyclesEnded 1 trace = 1 := by
    refine ⟨_, _, _, rfl, ?_, rfl, rfl, rfl, rfl⟩
    refine ⟨System.refused_of_free rfl, System.refused_of_free rfl, System.refused_of_free rfl,
      fun _ => ⟨trivial, ⟨_, rfl, _, rfl⟩, trivial⟩, fun _ => ⟨trivial, ⟨_, rfl⟩, trivial⟩,
      fun _ => ⟨trivial, fun _ => rfl, trivial⟩, fun _ => ⟨trivial, trivial, trivial⟩,
      fun _ => ⟨trivial, trivial, trivial⟩, fun _ => ⟨trivial, trivial, nofun⟩,
      System.refused_of_free rfl, System.refused_of_free rfl, System.refused_of_free rfl,
      fun _ => ⟨trivial, ⟨_, rfl, _, rfl⟩, trivial⟩, fun _ => ⟨trivial, ⟨_, rfl⟩, trivial⟩,
      fun _ => ⟨trivial, fun _ => rfl, trivial⟩, trivial⟩
  rcases h onceContext trace finish (by decide) (execute_run_of_allowed hexecute hallowed) with
    hhanded | hfailed
  · rw [hcycles] at hhanded
    exact absurd hhanded (by decide)
  · have := (hfailed row hrow).mpr (by rw [hended]; decide)
    rw [hstatus] at this
    cases this

end Zonemail
