import Mathlib.Data.List.Chain
import Zonemail.Outbound.Finality

/-!
# The retry budget of a job

A cycle that ends in `fail_or_requeue` or in a delivery counts itself in the job's attempts, and
`fail_or_requeue` stops re-queueing past the cap. A cycle that an error ends earlier leaves the row
in progress as it was claimed: the next tick reclaims it, and neither the counter nor the backoff
has moved. `System.Budget` is the invariant of one job and one worker in the runs whose cycles all
reach their end, and `claimedForever` is the start of a run that claims a job over and over at
attempt 0.
-/

namespace Zonemail

open Library

/-- The attempt counters with which a job was claimed, in order. -/
def claimedAttempts (id : Nat) (trace : List (Unit × Action)) : List Nat :=
  trace.filterMap (fun
    | (_, .claimed _ job) => if job.id = id then some job.attempts else none
    | (_, .sent _ _ _ _) => none)

@[simp] theorem claimedAttempts_append (id : Nat) (trace later : List (Unit × Action)) :
    claimedAttempts id (trace ++ later) = claimedAttempts id trace ++ claimedAttempts id later :=
  List.filterMap_append

/-- Steps that only send claim nothing. -/
theorem claimedAttempts_eq_nil {id : Nat} {actions : List Action}
    (h : ∀ action ∈ actions, ∃ id dial envelope raw, action = .sent id dial envelope raw) :
    claimedAttempts id (actions.map (fun action => ((), action))) = [] := by
  rw [claimedAttempts, List.filterMap_eq_nil_iff]
  intro event hevent
  obtain ⟨action, haction, rfl⟩ := List.mem_map.mp hevent
  obtain ⟨_, _, _, _, rfl⟩ := h action haction
  rfl

namespace System

/-- No crash, no database failure, and no error that ends the cycle before the job is written
back. -/
def Counted (ctx : Context) (system : System Unit) : Label Unit → Prop
  | .worker _ input =>
      input.Undisturbed ∧ (system.control ()).Deliverable ctx system.db input
  | .request _ _ => True

/-- The rows that are to be reclaimed are different, known, and in progress unless deleted. -/
structure ReclaimReady (system : System Unit) : Prop where
  nodup : ((system.control ()).reclaimed.map Outbound.id).Nodup
  known : ∀ job ∈ (system.control ()).reclaimed, job.id < system.db.outbounds.next
  inProgress : ∀ job ∈ (system.control ()).reclaimed, ∀ row,
    system.db.outbounds.get? job.id = some row → row.status = .inProgress

/-- The claims of a job so far were made at successive attempts and are within the cap. While its
worker holds the job, the last of them is this cycle's; otherwise the row, unless it was deleted,
has counted that cycle and is queued only within the cap. -/
structure Budget (ctx : Context) (id : Nat) (claims : List Nat) (system : System Unit) :
    Prop where
  chain : claims.IsChain (fun earlier later => later = earlier + 1)
  length_le_last : ∀ last, claims.getLast? = some last → claims.length ≤ last + 1
  length_le : claims.length ≤ ctx.config.maxAttempts + 1
  known : claims ≠ [] → id < system.db.outbounds.next
  held : ∀ job, (system.control ()).held = some job → job.id = id →
    claims.getLast? = some job.attempts
  counted : ∀ last row, system.control () ≠ .stopped → ¬ system.Holds () id →
    claims.getLast? = some last → system.db.outbounds.get? id = some row →
    row.status ≠ .inProgress ∧ row.attempts = last + 1 ∧
      (row.status = .queued → row.attempts ≤ ctx.config.maxAttempts)

variable {ctx : Context} {system next : System Unit} {label : Label Unit} {id : Nat}
  {claims : List Nat} {actions : List (Unit × Action)} {after : Control} {db : Db}

/-- With no rows left to reclaim there is nothing to check. -/
theorem reclaimReady_of_nil (h : (system.control ()).reclaimed = []) : system.ReclaimReady := by
  constructor <;> simp [h]

/-- The rows just read as in progress. -/
theorem reclaimReady_scan : (system.moved () (Control.reclaim (system.db.outbounds.select
    (fun job => job.status = .inProgress))) system.db).ReclaimReady := by
  have hstored : ∀ job ∈ system.db.outbounds.select (fun job => job.status = .inProgress),
      system.db.outbounds.get? job.id = some job ∧ job.status = .inProgress := by
    intro job hjob
    obtain ⟨hmem, hstatus⟩ := List.mem_filter.mp hjob
    exact ⟨Table.get?_of_mem hmem, by simpa using hstatus⟩
  constructor
  · rw [moved_control_self, Control.reclaimed_reclaim]
    exact system.db.outbounds.nodup.sublist (List.filter_sublist.map Outbound.id)
  · intro job hjob
    rw [moved_control_self, Control.reclaimed_reclaim] at hjob
    exact AutoTable.lt_next_of_get? (hstored job hjob).1
  · intro job hjob row hrow
    rw [moved_control_self, Control.reclaimed_reclaim] at hjob
    rw [moved_db, (hstored job hjob).1] at hrow
    cases hrow
    exact (hstored job hjob).2

/-- Reclaiming one row leaves the others, which have different numbers, in progress. -/
theorem ReclaimReady.reclaim {job : Outbound} {rest : List Outbound}
    (hready : system.ReclaimReady) (hbefore : system.control () = .reclaimInProgress job rest) :
    (system.moved () (Control.reclaim rest)
      (system.db.updateOutbound job.id reclaimedColumns)).ReclaimReady := by
  obtain ⟨hnodup, hknown, hstatus⟩ := hready
  rw [hbefore] at hnodup hknown hstatus
  obtain ⟨hfresh, hnodup⟩ := List.nodup_cons.mp hnodup
  constructor
  · rwa [moved_control_self, Control.reclaimed_reclaim]
  · intro other hother
    rw [moved_control_self, Control.reclaimed_reclaim] at hother
    exact hknown other (List.mem_cons_of_mem _ hother)
  · intro other hother row hrow
    rw [moved_control_self, Control.reclaimed_reclaim] at hother
    -- The scan read each row once.
    have hne : other.id ≠ job.id := fun heq => hfresh (heq ▸ List.mem_map_of_mem hother)
    rw [moved_db, Db.get?_updateOutbound, if_neg hne] at hrow
    exact hstatus other (List.mem_cons_of_mem _ hother) row hrow

/-- Every step keeps the rows to be reclaimed ready. -/
theorem ReclaimReady.step (hready : system.ReclaimReady)
    (h : system.step (fun _ => ctx) label = some (actions, next)) : next.ReclaimReady := by
  rcases step_cases h with ⟨statement, fault, rfl, rfl, rfl⟩ |
    ⟨⟨⟩, input, shown, after, db, rfl, hnext, rfl, rfl⟩
  · have hextends := statement.extends_execute fault system.db
    refine ⟨hready.nodup, ?_, ?_⟩
    · exact fun job hjob => Nat.lt_of_lt_of_le (hready.known job hjob) hextends.next_le
    · exact fun job hjob row hrow => hready.inProgress job hjob row
        (hextends.get?_of_lt (hready.known job hjob) hrow)
  · cases Control.next_effect hnext with
    | quiet houtbounds hheld hrows hsent =>
        refine ⟨?_, ?_, ?_⟩
        · rw [moved_control_self]
          exact hready.nodup.sublist (hrows.map Outbound.id)
        · intro job hjob
          rw [moved_control_self] at hjob
          rw [moved_db, houtbounds]
          exact hready.known job (hrows.subset hjob)
        · intro job hjob row hrow
          rw [moved_control_self] at hjob
          rw [moved_db, houtbounds] at hrow
          exact hready.inProgress job (hrows.subset hjob) row hrow
    | stop => exact reclaimReady_of_nil (by rw [moved_control_self]; rfl)
    | abandon hjob hreason => exact reclaimReady_of_nil (by simp)
    | scan hbefore => exact reclaimReady_scan
    | reclaim hbefore hinput => exact hready.reclaim hbefore
    | claim hbefore hrow hstatus => exact reclaimReady_of_nil (by rw [moved_control_self]; rfl)
    | finish hjob _ _ _ => exact reclaimReady_of_nil (by simp)

/-- A step that does not concern the job keeps its budget. -/
theorem Budget.frame (hbudget : Budget ctx id claims system)
    (hnext : system.db.outbounds.next ≤ next.db.outbounds.next)
    (hheld : ∀ job, (next.control ()).held = some job → job.id = id →
      (system.control ()).held = some job)
    (hcounted : ∀ row, next.control () ≠ .stopped → ¬ next.Holds () id → claims ≠ [] →
      next.db.outbounds.get? id = some row →
      system.control () ≠ .stopped ∧ ¬ system.Holds () id ∧
        system.db.outbounds.get? id = some row) : Budget ctx id claims next where
  chain := hbudget.chain
  length_le_last := hbudget.length_le_last
  length_le := hbudget.length_le
  known := fun hne => Nat.lt_of_lt_of_le (hbudget.known hne) hnext
  held := fun job hjob hid => hbudget.held job (hheld job hjob hid) hid
  counted := fun last row hrunning hfree hlast hrow => by
    have hne : claims ≠ [] := by
      intro heq
      obtain rfl := heq
      cases hlast
    obtain ⟨hrunning, hfree, hrow⟩ := hcounted row hrunning hfree hne hrow
    exact hbudget.counted last row hrunning hfree hlast hrow

/-- Writing the row of another job keeps the budget. -/
theorem Budget.other {other : Nat} {after : Control} {columns : OutboundColumns}
    (hbudget : Budget ctx id claims system) (hid : id ≠ other)
    (hrunning : system.control () ≠ .stopped) (hfree : ¬ system.Holds () id)
    (hheld : ∀ job, after.held = some job → job.id ≠ id) :
    Budget ctx id claims (system.moved () after (system.db.updateOutbound other columns)) := by
  refine hbudget.frame (Nat.le_refl _) ?_ ?_
  · intro job hjob hjobId
    rw [moved_control_self] at hjob
    exact absurd hjobId (hheld job hjob)
  · intro row _ _ _ hrow
    rw [moved_db, Db.get?_updateOutbound, if_neg hid] at hrow
    exact ⟨hrunning, hfree, hrow⟩

/-- Reclaiming keeps the budget: a row read as in progress has no counted cycle behind it. -/
theorem Budget.reclaim {job : Outbound} {rest : List Outbound}
    (hbudget : Budget ctx id claims system) (hready : system.ReclaimReady)
    (hbefore : system.control () = .reclaimInProgress job rest) :
    Budget ctx id claims (system.moved () (Control.reclaim rest)
      (system.db.updateOutbound job.id reclaimedColumns)) := by
  have hrunning : system.control () ≠ .stopped := by simp [hbefore]
  have hfree : ¬ system.Holds () id := by simp [Holds, hbefore, Control.held]
  by_cases hid : id = job.id
  · refine hbudget.frame (Nat.le_refl _) (fun job hjob _ => by simp at hjob) ?_
    intro row _ _ hne hrow
    rw [moved_db, Db.get?_updateOutbound, if_pos hid, Option.map_eq_some_iff] at hrow
    obtain ⟨old, hold, -⟩ := hrow
    have hstatus := hready.inProgress job (by simp [hbefore, Control.reclaimed]) old hold
    obtain ⟨last, hlast⟩ := Option.isSome_iff_exists.mp (List.getLast?_isSome.mpr hne)
    rw [← hid] at hold
    exact absurd hstatus (hbudget.counted last old hrunning hfree hlast hold).1
  · exact hbudget.other hid hrunning hfree (fun job hjob => by simp at hjob)

/-- Claiming the job opens its next cycle: the counter has moved by one since the last claim, and
is still within the cap. -/
theorem Budget.claim {now : Timestamp} {scanned row : Outbound} {rest : List Outbound}
    (hbudget : Budget ctx scanned.id claims system)
    (hbefore : system.control () = .drainOnce now scanned rest)
    (hrow : system.db.outbounds.get? scanned.id = some row) (hstatus : row.status = .queued) :
    Budget ctx scanned.id (claims ++ [row.attempts])
      (system.moved () (.deliverOne ⟨now, rest, claimedColumns.apply row⟩)
        (system.db.updateOutbound scanned.id claimedColumns)) := by
  have hrowId : row.id = scanned.id := Table.key_of_get? hrow
  have hrunning : system.control () ≠ .stopped := by simp [hbefore]
  have hfree : ¬ system.Holds () scanned.id := by simp [Holds, hbefore, Control.held]
  have hcounted : ∀ last, claims.getLast? = some last →
      row.attempts = last + 1 ∧ row.attempts ≤ ctx.config.maxAttempts := fun last hlast => by
    obtain ⟨-, hattempts, hcap⟩ := hbudget.counted last row hrunning hfree hlast hrow
    exact ⟨hattempts, hcap hstatus⟩
  have hlength : claims.length ≤ row.attempts ∧
      (claims ≠ [] → row.attempts ≤ ctx.config.maxAttempts) := by
    cases hlast : claims.getLast? with
    | none =>
        rw [List.getLast?_eq_none_iff] at hlast
        simp [hlast]
    | some last =>
        obtain ⟨hattempts, hcap⟩ := hcounted last hlast
        have := hbudget.length_le_last last hlast
        exact ⟨by omega, fun _ => hcap⟩
  constructor
  · refine List.isChain_append.mpr ⟨hbudget.chain, List.isChain_singleton _, ?_⟩
    intro last hlast attempts hattempts
    cases hattempts
    exact (hcounted last hlast).1
  · intro last hlast
    rw [List.getLast?_concat, Option.some.injEq] at hlast
    rw [List.length_append, List.length_singleton]
    omega
  · rw [List.length_append, List.length_singleton]
    by_cases hempty : claims = []
    · simp [hempty]
    · have := hlength.2 hempty
      omega
  · intro _
    rw [moved_db, Db.next_updateOutbound]
    exact AutoTable.lt_next_of_get? hrow
  · intro job hjob _
    rw [moved_control_self] at hjob
    cases hjob
    rw [List.getLast?_concat]
    rfl
  · intro last stored _ hnot
    exact absurd (holds_update_self.mpr ⟨claimedColumns.apply row, rfl, hrowId⟩) hnot

/-- Writing the job back counts its cycle. -/
theorem Budget.finish {job : Outbound} {now : Timestamp} {rest : List Outbound}
    {columns : OutboundColumns} (hbudget : Budget ctx job.id claims system)
    (hjob : (system.control ()).held = some job)
    (hattempts : columns.attempts = some (job.attempts + 1))
    (hstatus : columns.status ≠ .inProgress)
    (hcap : columns.status = .queued → job.attempts + 1 ≤ ctx.config.maxAttempts) :
    Budget ctx job.id claims (system.moved () (Control.drain now rest)
      (system.db.updateOutbound job.id columns)) where
  chain := hbudget.chain
  length_le_last := hbudget.length_le_last
  length_le := hbudget.length_le
  known := hbudget.known
  held := fun other hother => by simp at hother
  counted := fun last row _ _ hlast hrow => by
    rw [hbudget.held job hjob rfl, Option.some.injEq] at hlast
    rw [moved_db, Db.get?_updateOutbound, if_pos rfl, Option.map_eq_some_iff] at hrow
    obtain ⟨old, -, rfl⟩ := hrow
    rw [OutboundColumns.apply_status, OutboundColumns.apply_attempts, hattempts, Option.getD_some,
      ← hlast]
    exact ⟨hstatus, rfl, hcap⟩

/-- A counted step keeps the budget of every job, with the claims it makes. -/
theorem Budget.step (hbudget : Budget ctx id claims system) (hready : system.ReclaimReady)
    (hcounted : system.Counted ctx label)
    (h : system.step (fun _ => ctx) label = some (actions, next)) :
    Budget ctx id (claims ++ claimedAttempts id actions) next := by
  rcases step_cases h with ⟨statement, fault, rfl, rfl, rfl⟩ |
    ⟨⟨⟩, input, shown, after, db, rfl, hnext, rfl, rfl⟩
  · have hextends := statement.extends_execute fault system.db
    rw [claimedAttempts, List.filterMap_nil, List.append_nil]
    exact hbudget.frame hextends.next_le (fun _ hjob _ => hjob)
      (fun row hrunning hfree hne hrow =>
        ⟨hrunning, hfree, hextends.get?_of_lt (hbudget.known hne) hrow⟩)
  · have hrunning : system.control () ≠ .stopped := by
      intro hstopped
      rw [hstopped] at hnext
      cases Control.next_stopped hnext
      exact hcounted.1
    cases Control.next_effect hnext with
    | quiet houtbounds hheld hrows hsent =>
        rw [claimedAttempts_eq_nil (fun action haction => ?_), List.append_nil]
        · refine hbudget.frame (by rw [moved_db, houtbounds]) ?_ ?_
          · intro job hjob _
            rwa [moved_control_self, hheld] at hjob
          · intro row _ hfree _ hrow
            rw [Holds, moved_control_self, hheld] at hfree
            rw [moved_db, houtbounds] at hrow
            exact ⟨hrunning, hfree, hrow⟩
        · obtain ⟨job, dial, envelope, raw, -, rfl⟩ := hsent action haction
          exact ⟨_, _, _, _, rfl⟩
    | stop =>
        rw [List.map_nil, claimedAttempts, List.filterMap_nil, List.append_nil]
        exact hbudget.frame (Nat.le_refl _) (fun job hjob _ => by simp [Control.held] at hjob)
          (fun row hrunning _ _ _ => by simp at hrunning)
    | abandon hjob hreason => exact absurd hcounted hreason
    | scan hbefore =>
        rw [List.map_nil, claimedAttempts, List.filterMap_nil, List.append_nil]
        refine hbudget.frame (Nat.le_refl _) (fun job hjob _ => by simp at hjob) ?_
        exact fun row _ _ _ hrow => ⟨hrunning, by simp [Holds, hbefore, Control.held], hrow⟩
    | reclaim hbefore hinput =>
        rw [List.map_nil, claimedAttempts, List.filterMap_nil, List.append_nil]
        exact hbudget.reclaim hready hbefore
    | @claim now scanned row rest hbefore hrow hstatus =>
        have hrowId : row.id = scanned.id := Table.key_of_get? hrow
        by_cases hid : id = scanned.id
        · subst hid
          have hclaim : claimedAttempts scanned.id
              (List.map (fun action => ((), action)) [.claimed now (claimedColumns.apply row)]) =
                [row.attempts] := by
            simp [claimedAttempts, hrowId, claimedColumns]
          rw [hclaim]
          exact hbudget.claim hbefore hrow hstatus
        · have hclaim : claimedAttempts id
              (List.map (fun action => ((), action)) [.claimed now (claimedColumns.apply row)]) =
                [] := by
            simp [claimedAttempts, hrowId, Ne.symm hid]
          rw [hclaim, List.append_nil]
          refine hbudget.other hid hrunning (by simp [Holds, hbefore, Control.held]) ?_
          intro job h hjobId
          cases h
          exact hid (hjobId.symm.trans hrowId)
    | @finish job now rest columns hjob hattempts hstatus hcap =>
        rw [List.map_nil, claimedAttempts, List.filterMap_nil, List.append_nil]
        by_cases hid : id = job.id
        · subst hid
          exact hbudget.finish hjob hattempts hstatus hcap
        · refine hbudget.other hid hrunning ?_ (fun job hjob => by simp at hjob)
          intro h
          obtain ⟨other, hother, hotherId⟩ := h
          cases hjob.symm.trans hother
          exact hid hotherId.symm

/-- Before the first tick nothing is claimed. -/
theorem budget_of_idle (h : system.control () = .idle) : Budget ctx id [] system := by
  constructor <;> simp [h, Control.held]

/-- In every run of one worker from its start, with other statements in between, without crashes
and database failures and without errors that end a cycle early: a job's successive claims find its
attempt counter grown by exactly one, and there are at most `max_attempts + 1` of them. -/
theorem claims_within_budget (ctx : Context) {start finish : System Unit}
    {trace : List (Unit × Action)} (hstart : start.control () = .idle)
    (hrun : Run (step (fun _ => ctx)) (Counted ctx) start trace finish) (id : Nat) :
    (claimedAttempts id trace).IsChain (fun earlier later => later = earlier + 1) ∧
      (claimedAttempts id trace).length ≤ ctx.config.maxAttempts + 1 := by
  have hinvariant := hrun.invariant_trace
    (fun trace system => system.ReclaimReady ∧ Budget ctx id (claimedAttempts id trace) system)
    ⟨reclaimReady_of_nil (by rw [hstart]; rfl), budget_of_idle hstart⟩
    (fun trace system label actions next hold hcounted h => by
      refine ⟨hold.1.step h, ?_⟩
      rw [claimedAttempts_append]
      exact hold.2.step hold.1 hcounted h)
  exact ⟨hinvariant.2.chain, hinvariant.2.length_le⟩

/-- Neither a crash nor a database failure of the worker. -/
def Undisturbed (_ : System Unit) : Label Unit → Prop
  | .worker _ input => input.Undisturbed
  | .request _ _ => True

end System

/-- The step of one worker with the default parameters. -/
def oneWorker : System Unit → Label Unit → Option (List (Unit × Action) × System Unit) :=
  System.step (fun _ => defaultContext)

/-- The host refuses the job, which is re-queued for a minute later and claimed again then. -/
def refusedOnce : List (Label Unit) :=
  [.worker () (.database true), .worker () (.queue 0 true), .worker () (.database true),
    .worker () (.database true), .worker () (.resolver oneHost), .worker () (.tls true),
    .worker () (.reply (.error "451")), .worker () (.database true), .worker () (.database true),
    .worker () (.database true), .worker () (.queue 60000000000 true), .worker () (.database true)]

/-- The two claims of `refusedOnce` are made at attempts 0 and 1. -/
theorem within_budget_refusedOnce : ∃ trace finish,
    Run oneWorker (System.Counted defaultContext) (oneJob Unit) trace finish ∧
      claimedAttempts 1 trace = [0, 1] ∧
      (claimedAttempts 1 trace).IsChain (fun earlier later => later = earlier + 1) ∧
      (claimedAttempts 1 trace).length ≤ defaultContext.config.maxAttempts + 1 := by
  obtain ⟨trace, finish, hexecute, hcounted, hclaims⟩ : ∃ trace finish,
      execute oneWorker (oneJob Unit) refusedOnce = some (trace, finish) ∧
      AllowedAlong oneWorker (System.Counted defaultContext) (oneJob Unit) refusedOnce ∧
      claimedAttempts 1 trace = [0, 1] := by
    refine ⟨_, _, rfl, ?_, rfl⟩
    refine ⟨⟨trivial, trivial⟩, ⟨trivial, trivial⟩, ⟨trivial, trivial⟩,
      ⟨trivial, _, rfl, _, rfl⟩, ⟨trivial, _, rfl⟩, ⟨trivial, fun _ => rfl⟩, ⟨trivial, trivial⟩,
      ⟨trivial, trivial⟩, ⟨trivial, trivial⟩, ⟨trivial, trivial⟩, ⟨trivial, trivial⟩,
      ⟨trivial, trivial⟩, trivial⟩
  have hrun := execute_run_of_allowed hexecute hcounted
  exact ⟨trace, finish, hrun, hclaims,
    System.claims_within_budget defaultContext rfl hrun 1⟩

/-- A tick with a job to claim whose MX lookup fails. -/
def lookupFailed : List (Label Unit) :=
  [.worker () (.queue 0 true), .worker () (.database true), .worker () (.database true),
    .worker () (.resolver (fun _ => .failed "timeout"))]

/-- The MX lookup of the job fails at one tick after the other. From the second tick on, the worker
first reclaims the row. -/
def claimedForever (ticks : Nat) : List (Label Unit) :=
  .worker () (.database true) :: (lookupFailed ++
    (List.replicate ticks ([.worker () (.database true), .worker () (.database true)] ++
      lookupFailed)).flatten)

/-- Without the condition a job is claimed again at the same attempt, and more than
`max_attempts + 1` times: the ten ticks of `claimedForever 9` all claim it at attempt 0. -/
theorem not_within_budget_claimedForever :
    ¬ ∀ (trace : List (Unit × Action)) (finish : System Unit),
      Run oneWorker System.Undisturbed (oneJob Unit) trace finish →
        (claimedAttempts 1 trace).IsChain (fun earlier later => later = earlier + 1) ∨
          (claimedAttempts 1 trace).length ≤ defaultContext.config.maxAttempts + 1 := by
  intro h
  obtain ⟨trace, finish, hexecute, hundisturbed, hclaims⟩ : ∃ trace finish,
      execute oneWorker (oneJob Unit) (claimedForever 9) = some (trace, finish) ∧
      AllowedAlong oneWorker System.Undisturbed (oneJob Unit) (claimedForever 9) ∧
      claimedAttempts 1 trace = List.replicate 10 0 :=
    ⟨_, _, rfl, by repeat' constructor, rfl⟩
  rcases h trace finish (execute_run_of_allowed hexecute hundisturbed) with hchain | hlength
  · rw [hclaims] at hchain
    simp at hchain
  · rw [hclaims] at hlength
    simp [defaultContext] at hlength

end Zonemail
