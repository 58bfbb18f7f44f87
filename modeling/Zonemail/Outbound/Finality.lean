import Zonemail.Outbound.Exclusive

/-!
# Delivered and failed jobs

Only the holder of a job writes it back, and a held row is in progress, so a row that reached
`delivered` or `failed` has no holder who could write it again. The one other writer is
`reclaim_in_progress`, which writes from rows it read earlier: by the time it writes, the peer that
held the job may have settled it. `System.Settled` is the invariant of a settled row in the runs
whose reclaims meet neither a settled nor a held row, and `deliveredTwice` is a run in which a
delivered job is re-queued and sent again.
-/

namespace Zonemail

open Library

/-- The statuses that are meant to be terminal. -/
def OutboundStatus.Final : OutboundStatus → Prop
  | .delivered | .failed => True
  | .queued | .inProgress => False

variable {Worker : Type}

namespace System

/-- A step that reclaims a row reclaims one that no worker holds and that is not settled by now. -/
def ReclaimsOpen (system : System Worker) : Label Worker → Prop
  | .worker worker (.database true) =>
      match system.control worker with
      | .reclaimInProgress job _ => (∀ other, ¬ system.Holds other job.id) ∧
          ∀ row, system.db.outbounds.get? job.id = some row → ¬ row.status.Final
      | _ => True
  | _ => True

theorem ReclaimsOpen.reclaimsUnheld {system : System Worker} {label : Label Worker}
    (h : system.ReclaimsOpen label) : system.ReclaimsUnheld label := by
  unfold ReclaimsOpen at h
  unfold ReclaimsUnheld
  split
  · simp only at h
    split
    · rename_i hcontrol
      rw [hcontrol] at h
      exact h.1
    · trivial
  · trivial

/-- The job was numbered, has no holder, and its row, unless it was deleted, has this status. -/
structure Settled (id : Nat) (status : OutboundStatus) (system : System Worker) : Prop where
  known : id < system.db.outbounds.next
  free : ∀ worker, ¬ system.Holds worker id
  kept : ∀ row, system.db.outbounds.get? id = some row → row.status = status

variable [DecidableEq Worker] {ctx : Worker → Context} {system next : System Worker}
  {label : Label Worker} {actions : List (Worker × Action)} {worker : Worker} {after : Control}
  {db : Db} {id written : Nat} {columns : OutboundColumns} {status : OutboundStatus}

/-- A worker's step that leaves or drops its job and leaves the row as it is keeps a settled job
settled. -/
theorem Settled.moved (hsettled : system.Settled id status)
    (hheld : after.held = (system.control worker).held ∨ after.held = none)
    (hnext : system.db.outbounds.next = db.outbounds.next)
    (hrow : db.outbounds.get? id = system.db.outbounds.get? id) :
    (system.moved worker after db).Settled id status where
  known := by
    rw [moved_db, ← hnext]
    exact hsettled.known
  free := fun other h => hsettled.free other (holds_of_update hheld h)
  kept := fun row h => hsettled.kept row (by rwa [moved_db, hrow] at h)

/-- A write to another job's row keeps a settled job settled. -/
theorem Settled.moved_write (hsettled : system.Settled id status) (hne : id ≠ written)
    (hheld : after.held = (system.control worker).held ∨ after.held = none) :
    (system.moved worker after (system.db.updateOutbound written columns)).Settled id status :=
  hsettled.moved hheld rfl (by rw [Db.get?_updateOutbound, if_neg hne])

/-- A step that reclaims neither held nor settled rows keeps a settled job settled and does not
hand it to a transport. -/
theorem Settled.step (hsettled : system.Settled id status) (hfinal : status.Final)
    (hreclaims : system.ReclaimsOpen label) (h : system.step ctx label = some (actions, next)) :
    next.Settled id status ∧
      ∀ worker dial envelope raw, (worker, Action.sent id dial envelope raw) ∉ actions := by
  rcases step_cases h with ⟨statement, fault, rfl, rfl, rfl⟩ |
    ⟨worker, input, shown, after, db, rfl, hnext, rfl, rfl⟩
  · have hextends := statement.extends_execute fault system.db
    refine ⟨⟨Nat.lt_of_lt_of_le hsettled.known hextends.next_le, hsettled.free, ?_⟩, by simp⟩
    exact fun row hrow => hsettled.kept row (hextends.get?_of_lt hsettled.known hrow)
  · cases Control.next_effect hnext with
    | quiet houtbounds hheld hrows hsent =>
        refine ⟨hsettled.moved (.inl hheld) (by rw [houtbounds]) (by rw [houtbounds]), ?_⟩
        intro sender dial envelope raw hmem
        obtain ⟨action, haction, heq⟩ := List.mem_map.mp hmem
        obtain ⟨job, _, _, _, hjob, rfl⟩ := hsent action haction
        cases heq
        exact hsettled.free worker ⟨job, hjob, rfl⟩
    | stop => exact ⟨hsettled.moved (.inr rfl) rfl rfl, by simp⟩
    | abandon hjob hreason =>
        exact ⟨hsettled.moved (.inr (Control.held_drain _ _)) rfl rfl, by simp⟩
    | scan hbefore => exact ⟨hsettled.moved (.inr (Control.held_reclaim _)) rfl rfl, by simp⟩
    | @reclaim job rest hbefore hinput =>
        subst input
        simp only [ReclaimsOpen, hbefore] at hreclaims
        refine ⟨?_, by simp⟩
        by_cases hid : id = job.id
        · -- The row read earlier is not settled, so it is gone and there is nothing to write.
          have hgone : system.db.outbounds.get? id = none := by
            cases hrow : system.db.outbounds.get? id with
            | none => rfl
            | some row =>
                have hstatus := hsettled.kept row hrow
                rw [hid] at hrow
                exact absurd (hstatus ▸ hfinal) (hreclaims.2 row hrow)
          refine hsettled.moved (.inr (Control.held_reclaim rest)) rfl ?_
          rw [Db.get?_updateOutbound, if_pos hid, ← hid, hgone, Option.map_none]
        · exact hsettled.moved_write hid (.inr (Control.held_reclaim rest))
    | @claim now scanned row rest hbefore hrow hstatus =>
        have hrowId : row.id = scanned.id := Table.key_of_get? hrow
        have hid : id ≠ scanned.id := by
          intro heq
          obtain rfl := heq
          rw [hsettled.kept row hrow] at hstatus
          rw [hstatus] at hfinal
          exact hfinal
        refine ⟨⟨hsettled.known, ?_, ?_⟩, by simp⟩
        · intro other hother
          by_cases hworker : other = worker
          · rw [hworker, holds_update_self] at hother
            obtain ⟨job, hjob, hjobId⟩ := hother
            cases hjob
            exact hid (hjobId.symm.trans hrowId)
          · exact hsettled.free other ((holds_update_of_ne hworker).mp hother)
        · intro stored hstored
          rw [moved_db, Db.get?_updateOutbound, if_neg hid] at hstored
          exact hsettled.kept stored hstored
    | @finish job now rest columns hjob _ _ _ =>
        -- The job that is written back was held, and the settled one is not.
        have hid : id ≠ job.id := fun hid => hsettled.free worker ⟨job, hjob, hid.symm⟩
        exact ⟨hsettled.moved_write hid (.inr (Control.held_drain _ _)), by simp⟩

/-- In every run of any number of workers, with any crashes, faults and other statements in
between, whose reclaims meet neither a held nor a settled row: once a job is delivered or failed,
its row keeps that status and no worker hands it to a transport any more. -/
theorem final_of_reclaimsOpen (ctx : Worker → Context) {start middle finish : System Worker}
    {trace later : List (Worker × Action)} {row : Outbound}
    (hfree : ∀ worker, (start.control worker).held = none)
    (hrun : Run (step ctx) ReclaimsOpen start trace middle)
    (hrow : middle.db.outbounds.get? id = some row) (hfinal : row.status.Final)
    (hlater : Run (step ctx) ReclaimsOpen middle later finish) :
    (∀ stored, finish.db.outbounds.get? id = some stored → stored.status = row.status) ∧
      ∀ worker dial envelope raw, (worker, Action.sent id dial envelope raw) ∉ later := by
  have howned : middle.Owned := hrun.invariant Owned (owned_of_free hfree)
    (fun _ _ _ _ howned hreclaims h => howned.step hreclaims.reclaimsUnheld h)
  have hsettled : middle.Settled id row.status := by
    refine ⟨AutoTable.lt_next_of_get? hrow, ?_, ?_⟩
    · intro worker hholds
      rw [howned.inProgress worker id row hholds hrow] at hfinal
      exact hfinal
    · intro stored hstored
      cases hrow.symm.trans hstored
      rfl
  have hinvariant := hlater.invariant_trace
    (fun trace system => system.Settled id row.status ∧
      ∀ worker dial envelope raw, (worker, Action.sent id dial envelope raw) ∉ trace)
    ⟨hsettled, by simp⟩
    (fun trace system label actions next hold hreclaims h => by
      obtain ⟨hnext, hactions⟩ := hold.1.step hfinal hreclaims h
      refine ⟨hnext, fun worker dial envelope raw hmem => ?_⟩
      rcases List.mem_append.mp hmem with hmem | hmem
      · exact hold.2 worker dial envelope raw hmem
      · exact hactions worker dial envelope raw hmem)
  exact ⟨hinvariant.1.kept, hinvariant.2⟩

end System

/-- A resolver that knows one mail host for every domain. -/
def oneHost (_ : String) : MxAnswer := .records [⟨10, "mx.y.io."⟩]

/-- A worker claims the job and hands it to the host, which accepts it. -/
def handedOver (worker : Bool) : List (Label Bool) :=
  [.worker worker (.database true), .worker worker (.queue 0 true), .worker worker (.database true),
    .worker worker (.database true), .worker worker (.resolver oneHost), .worker worker (.tls true),
    .worker worker (.reply (.ok "250")), .worker worker (.database true)]

/-- The step of two workers with the default parameters. -/
def twoWorkers : System Bool → Label Bool → Option (List (Bool × Action) × System Bool) :=
  System.step (fun _ => defaultContext)

/-- One worker delivers the job and marks it delivered. -/
def delivered : List (Label Bool) := handedOver false ++ [.worker false (.database true)]

/-- Both workers tick. -/
def bothTick : List (Label Bool) :=
  [.worker true (.database true), .worker true (.queue 0 true), .worker false (.database true),
    .worker false (.queue 0 true)]

/-- The job that one worker delivered stays delivered when both tick again. -/
theorem final_delivered : ∃ trace later middle finish row,
    Run twoWorkers System.ReclaimsOpen (oneJob Bool) trace middle ∧
      middle.db.outbounds.get? 1 = some row ∧ row.status = .delivered ∧
      Run twoWorkers System.ReclaimsOpen middle later finish ∧
      ∀ stored, finish.db.outbounds.get? 1 = some stored → stored.status = row.status := by
  obtain ⟨trace, middle, later, finish, row, hexecute, hallowed, hrow, hstatus, hticks, hopen⟩ :
      ∃ trace middle later finish row,
        execute twoWorkers (oneJob Bool) delivered = some (trace, middle) ∧
        AllowedAlong twoWorkers System.ReclaimsOpen (oneJob Bool) delivered ∧
        middle.db.outbounds.get? 1 = some row ∧ row.status = .delivered ∧
        execute twoWorkers middle bothTick = some (later, finish) ∧
        AllowedAlong twoWorkers System.ReclaimsOpen middle bothTick :=
    ⟨_, _, _, _, _, rfl, by repeat' constructor, rfl, rfl, rfl, by repeat' constructor⟩
  have hrun := execute_run_of_allowed hexecute hallowed
  have hlater := execute_run_of_allowed hticks hopen
  exact ⟨trace, later, middle, finish, row, hrun, hrow, hstatus, hlater,
    (System.final_of_reclaimsOpen _ (fun _ => rfl) hrun hrow (hstatus ▸ trivial) hlater).1⟩

/-- The first worker hands the job over. Before it marks it delivered, the second worker ticks and
reads the row as in progress. -/
def staleRead : List (Label Bool) :=
  handedOver false ++ [.worker true (.database true), .worker false (.database true)]

/-- The second worker re-queues the row it read, claims it and hands it over again. -/
def deliveredTwice : List (Label Bool) :=
  [.worker true (.database true), .worker true (.queue 0 true), .worker true (.database true),
    .worker true (.database true), .worker true (.resolver oneHost), .worker true (.tls true)]

/-- Without the condition a delivered job is not final, in neither respect: after `staleRead` it is
delivered, and `deliveredTwice` takes it back into progress and sends it again. -/
theorem not_final_deliveredTwice :
    ¬ ∀ (middle finish : System Bool) (trace later : List (Bool × Action)) (row : Outbound),
      Run twoWorkers (fun _ _ => True) (oneJob Bool) trace middle →
      middle.db.outbounds.get? 1 = some row → row.status.Final →
      Run twoWorkers (fun _ _ => True) middle later finish →
      (∀ stored, finish.db.outbounds.get? 1 = some stored → stored.status = row.status) ∨
        ∀ worker dial envelope raw, (worker, Action.sent 1 dial envelope raw) ∉ later := by
  intro h
  obtain ⟨trace, middle, later, finish, row, stored, dial, envelope, raw, hexecute, hrow, hstatus,
      hagain, hstored, hchanged, hsent⟩ :
      ∃ trace middle later finish row stored dial envelope raw,
        execute twoWorkers (oneJob Bool) staleRead = some (trace, middle) ∧
        middle.db.outbounds.get? 1 = some row ∧ row.status = .delivered ∧
        execute twoWorkers middle deliveredTwice = some (later, finish) ∧
        finish.db.outbounds.get? 1 = some stored ∧ stored.status = .inProgress ∧
        later.getLast? = some (true, Action.sent 1 dial envelope raw) :=
    ⟨_, _, _, _, _, _, _, _, _, rfl, rfl, rfl, rfl, rfl, rfl, rfl⟩
  rcases h middle finish trace later row (execute_run hexecute) hrow (hstatus ▸ trivial)
    (execute_run hagain) with hkept | hunsent
  · have := hkept stored hstored
    rw [hstatus, hchanged] at this
    cases this
  · exact hunsent true dial envelope raw (List.mem_of_getLast? hsent)

end Zonemail
