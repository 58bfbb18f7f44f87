import Zonemail.Outbound.Rows

/-!
# What a claim gives and when

`claim` tests the stored status and sets it in one transaction. So a job is claimed at most once
from the moment its row is queued until it is queued again, however many workers have scanned it:
`claimed_once`. But the status is all that it tests. Whether the job is due was decided on the row
as it was scanned, and a peer may have tried the job since and put it off: `punctual_of_run` says
which steps have to be left out for every claim to be due, and `staleClaim` is a run with one of
them.
-/

namespace Zonemail

open Library

variable {Worker : Type}

/-- The row of the job is queued. -/
def Db.Queued (db : Db) (id : Nat) : Prop :=
  ∃ row, db.outbounds.get? id = some row ∧ row.status = .queued

/-- The job as the calls of `claim` returned it, in order. -/
def claims (id : Nat) (trace : List (Worker × Action)) : List Outbound :=
  trace.filterMap (fun
    | (_, .claimed _ job) => if job.id = id then some job else none
    | (_, .sent _ _ _ _) => none)

@[simp] theorem claims_append (id : Nat) (trace later : List (Worker × Action)) :
    claims id (trace ++ later) = claims id trace ++ claims id later :=
  List.filterMap_append

/-- A job that was not claimed is not among the claims. -/
theorem claims_eq_nil {id : Nat} {actions : List (Worker × Action)}
    (h : ∀ worker now job, (worker, .claimed now job) ∈ actions → job.id ≠ id) :
    claims id actions = [] := by
  rw [claims, List.filterMap_eq_nil_iff]
  intro h hmem
  obtain ⟨worker, action⟩ := h
  cases action with
  | claimed now job => exact if_neg (h worker now job hmem)
  | sent => rfl

/-- A call of `claim` that returns a job found its row queued and stored what it returned; a call
that returns none changes nothing. -/
theorem claim_spec {db after : Db} {id : Nat} {taken : Option Outbound}
    (h : claim db id = (taken, after)) :
    (∃ row, db.outbounds.get? id = some row ∧ row.status = .queued ∧
      taken = some { row with status := .inProgress } ∧ after.outbounds.get? id = taken) ∨
    taken = none ∧ after = db := by
  rcases claim_cases h with ⟨row, hrow, hstatus, rfl, rfl⟩ | hnone
  · refine .inl ⟨row, hrow, hstatus, rfl, ?_⟩
    rw [Db.get?_updateOutbound, if_pos rfl, hrow, Option.map_some]
  · exact .inr hnone

namespace System

/-- The step does not turn the job into a queued one, by a new row or by a new status. -/
def KeepsUnqueued [DecidableEq Worker] (ctx : Worker → Context) (id : Nat)
    (system : System Worker) (label : Label Worker) : Prop :=
  ∀ actions next, system.step ctx label = some (actions, next) →
    next.db.Queued id → system.db.Queued id

variable [DecidableEq Worker] {ctx : Worker → Context} {system next : System Worker}
  {label : Label Worker} {actions : List (Worker × Action)} {id : Nat}

/-- A job is shown as claimed exactly when a call of `claim` returned it. -/
theorem claimed_iff (h : system.step ctx label = some (actions, next)) {worker : Worker}
    {now : Timestamp} {job : Outbound} :
    (worker, Action.claimed now job) ∈ actions ↔
      ∃ scanned rest, label = .worker worker (.database true) ∧
        system.control worker = .drainOnce now scanned rest ∧
        claim system.db scanned.id = (some job, next.db) := by
  constructor
  · intro hmem
    rcases step_cases h with ⟨statement, fault, rfl, rfl, rfl⟩ |
      ⟨mover, input, shown, after, db, rfl, hnext, rfl, rfl⟩
    · cases hmem
    · obtain ⟨action, haction, heq⟩ := List.mem_map.mp hmem
      cases heq
      cases Control.next_effect hnext with
      | quiet houtbounds hheld hrows hsent =>
          obtain ⟨_, _, _, _, -, hsame⟩ := hsent _ haction
          cases hsame
      | @claim began scanned row rest hbefore hrow hstatus =>
          cases List.mem_singleton.mp haction
          have hclaim : claim system.db scanned.id =
              (some (claimedColumns.apply row), system.db.updateOutbound scanned.id
                claimedColumns) := by
            simp only [claim, hrow, hstatus, ne_eq, not_true_eq_false, if_false]
          refine ⟨scanned, rest, ?_, hbefore, hclaim⟩
          rw [hbefore] at hnext
          cases input with
          | database ok =>
              cases ok with
              | false => cases hnext
              | true => rfl
          | _ => cases hnext
      | _ => cases haction
  · intro h
    obtain ⟨scanned, rest, rfl, hcontrol, hclaim⟩ := h
    simp only [step, hcontrol, Control.next, Control.advance, hclaim, Bool.not_true,
      Bool.false_eq_true, if_false, Option.some.injEq, Prod.mk.injEq] at h
    obtain ⟨rfl, -⟩ := h
    exact List.mem_singleton_self _

/-- A step claims the job at most once, and then it was queued before and is not so afterwards. -/
theorem claims_of_step (h : system.step ctx label = some (actions, next)) :
    claims id actions = [] ∨
      (claims id actions).length = 1 ∧ system.db.Queued id ∧ ¬ next.db.Queued id := by
  by_cases hclaimed : ∃ worker now job, (worker, Action.claimed now job) ∈ actions ∧ job.id = id
  · obtain ⟨worker, now, job, hmem, hid⟩ := hclaimed
    obtain ⟨scanned, rest, rfl, hcontrol, hclaim⟩ := (claimed_iff h).mp hmem
    rcases claim_spec hclaim with ⟨row, hrow, hstatus, htaken, hstored⟩ | ⟨hnone, -⟩
    · cases htaken
      have hscanned : scanned.id = id := (Table.key_of_get? hrow).symm.trans hid
      have hactions : actions = [(worker, .claimed now { row with status := .inProgress })] := by
        simp only [step, hcontrol, Control.next, Control.advance, hclaim, Bool.not_true,
          Bool.false_eq_true, if_false, Option.some.injEq, Prod.mk.injEq] at h
        exact h.1.symm
      refine .inr ⟨?_, ⟨row, hscanned ▸ hrow, hstatus⟩, ?_⟩
      · rw [hactions]
        simp only [claims, List.filterMap_cons, List.filterMap_nil, if_pos hid,
          List.length_singleton]
      · intro h
        obtain ⟨later, hlater, hqueued⟩ := h
        rw [← hscanned, hstored] at hlater
        cases hlater
        cases hqueued
    · cases hnone
  · exact .inl (claims_eq_nil
      (fun worker now job hmem hid => hclaimed ⟨worker, now, job, hmem, hid⟩))

/-- **A claim is a compare-and-set.** For any number of workers, any interleaving of their steps
with each other, with crashes, failures and the statements of other parts of the daemon, and from
any state: as long as no step makes a job queued, at most one call of `claim` returns it. What a
call returns is the row as of that call with the status in progress, which is also what it stores;
and a call that returns nothing changes nothing. -/
theorem claimed_once (ctx : Worker → Context) {start finish : System Worker}
    {trace : List (Worker × Action)}
    (hrun : Run (step ctx) (fun system label => system.KeepsUnqueued ctx id label) start trace
      finish) :
    (claims id trace).length ≤ 1 ∧
      ∀ label actions next, finish.step ctx label = some (actions, next) →
        (∀ worker now job, (worker, Action.claimed now job) ∈ actions ↔
          ∃ scanned rest, label = .worker worker (.database true) ∧
            finish.control worker = .drainOnce now scanned rest ∧
            claim finish.db scanned.id = (some job, next.db)) ∧
        ∀ worker now scanned rest taken after, label = .worker worker (.database true) →
          finish.control worker = .drainOnce now scanned rest →
          claim finish.db scanned.id = (taken, after) →
          next.db = after ∧
            ((∃ row, finish.db.outbounds.get? scanned.id = some row ∧ row.status = .queued ∧
                taken = some { row with status := .inProgress } ∧
                next.db.outbounds.get? scanned.id = taken) ∨
              taken = none ∧ next.db = finish.db) := by
  have hinvariant := hrun.invariant_trace
    (fun trace system => claims id trace = [] ∨
      (claims id trace).length = 1 ∧ ¬ system.db.Queued id)
    (.inl rfl)
    (fun trace system label actions next hold hkeeps h => by
      rw [claims_append]
      rcases hold with hnil | ⟨hone, hunqueued⟩
      · rw [hnil, List.nil_append]
        exact (claims_of_step h).imp_right (fun hstep => ⟨hstep.1, hstep.2.2⟩)
      · -- Nothing has made the job queued since it was claimed, so it is not claimed again.
        rcases claims_of_step h with hnil | ⟨-, hqueued, -⟩
        · rw [hnil, List.append_nil]
          exact .inr ⟨hone, fun hqueued => hunqueued (hkeeps _ _ h hqueued)⟩
        · exact absurd hqueued hunqueued)
  refine ⟨?_, fun label actions next h => ⟨fun worker now job => claimed_iff h, ?_⟩⟩
  · rcases hinvariant with hnil | ⟨hone, -⟩
    · rw [hnil]
      exact Nat.zero_le 1
    · exact Nat.le_of_eq hone
  · intro worker now scanned rest taken after heq hcontrol hclaim
    obtain rfl := heq
    have hnext : next.db = after := by
      simp only [step, hcontrol, Control.next, Control.advance, hclaim, Bool.not_true,
        Bool.false_eq_true, if_false] at h
      cases taken with
      | none =>
          cases h
          rfl
      | some job =>
          cases h
          rfl
    rw [hnext]
    exact ⟨rfl, claim_spec hclaim⟩

end System

/-- Both workers scan the job before either claims it. -/
def contended : List (Label Bool) :=
  bothTick ++ [.worker false (.database true), .worker true (.database true)]

/-- Of two workers that scanned the job, one claims it. -/
theorem claimed_once_contended : ∃ trace finish job,
    Run twoWorkers (fun system label => system.KeepsUnqueued (fun _ => defaultContext) 1 label)
      (oneJob Bool) trace finish ∧
    claims 1 trace = [job] ∧ (claims 1 trace).length ≤ 1 := by
  obtain ⟨trace, finish, job, hexecute, hallowed, hclaims⟩ : ∃ trace finish job,
      execute twoWorkers (oneJob Bool) contended = some (trace, finish) ∧
      AllowedAlong twoWorkers
        (fun system label => system.KeepsUnqueued (fun _ => defaultContext) 1 label)
        (oneJob Bool) contended ∧ claims 1 trace = [job] := by
    refine ⟨_, _, _, rfl, ?_, rfl⟩
    -- The row is queued until the first worker claims it, and the second finds it in progress.
    have hqueued {system : System Bool} {label : Label Bool} (h : system.db.Queued 1) :
        system.KeepsUnqueued (fun _ => defaultContext) 1 label := fun _ _ _ _ => h
    refine ⟨hqueued ⟨_, rfl, rfl⟩, hqueued ⟨_, rfl, rfl⟩, hqueued ⟨_, rfl, rfl⟩,
      hqueued ⟨_, rfl, rfl⟩, hqueued ⟨_, rfl, rfl⟩, ?_, trivial⟩
    intro actions next hstep hnext
    cases hstep
    exact hnext
  have hrun := execute_run_of_allowed hexecute hallowed
  exact ⟨trace, finish, job, hrun, hclaims, (System.claimed_once _ hrun).1⟩

/-! ## Due when scanned, due when claimed -/

/-- A cycle that puts its job back into the queue names the next attempt. -/
theorem OutboundWorkerConfig.exists_nextAttemptAt {config : OutboundWorkerConfig} {job : Outbound}
    {now : Timestamp} {reason : String} {columns : OutboundColumns}
    (hcolumns : config.failOrRequeue job now reason = some columns)
    (hqueued : columns.status = .queued) :
    ∃ instant, columns.nextAttemptAt = some (some instant) := by
  simp only [failOrRequeue] at hcolumns
  split at hcolumns
  · cases hcolumns
    cases hqueued
  · split at hcolumns
    · cases hcolumns
    · rename_i instant _
      cases hcolumns
      exact ⟨instant, rfl⟩

namespace Control

/-- The rows that a worker has scanned as due and not yet tried to claim, each with the instant its
drain began. -/
def scanned : Control → List (Timestamp × Outbound)
  | .drainOnce now job rest => (job :: rest).map (Prod.mk now)
  | .deliverOne delivery | .lookupMxHosts delivery _ _ | .markDelivered delivery
  | .failOrRequeue delivery _ => delivery.rest.map (Prod.mk delivery.now)
  | .buildOutboundTls handOff _ _ | .sendRaw handOff _ _ | .recordAccepted handOff _ _
  | .recordRefused handOff _ _ _ => handOff.rest.map (Prod.mk handOff.now)
  | .stopped | .idle | .reclaimInProgress _ _ | .fetchQueued => []

@[simp] theorem scanned_drain (now : Timestamp) (rows : List Outbound) :
    (drain now rows).scanned = rows.map (Prod.mk now) := by
  cases rows <;> rfl

@[simp] theorem scanned_reclaim (rows : List Outbound) : (reclaim rows).scanned = [] := by
  cases rows <;> rfl

@[simp] theorem scanned_deliverHosts (handOff : HandOff) (lastError : Option String)
    (hosts : List String) :
    (deliverHosts handOff lastError hosts).scanned = handOff.rest.map (Prod.mk handOff.now) := by
  cases hosts <;> rfl

@[simp] theorem scanned_offer (handOff : HandOff) (targets : List String) :
    (offer handOff targets).scanned = handOff.rest.map (Prod.mk handOff.now) := by
  cases targets <;> rfl

variable {ctx : Context} {db next : Db} {before after : Control} {input : Input}
  {actions : List Action}

/-- The end of `deliver_one` leaves the scanned rows as they are. -/
theorem scanned_resume (delivery : Delivery) :
    (resume delivery).scanned = delivery.rest.map (Prod.mk delivery.now) :=
  scanned_drain delivery.now delivery.rest

/-- A step inside `deliver_one` leaves the scanned rows as they are, unless the worker dies. -/
theorem scanned_of_held {job : Outbound} (hheld : before.held = some job)
    (h : before.advance ctx db input = some (actions, after, next)) :
    after.scanned = before.scanned ∨ after = .stopped := by
  cases before with
  | deliverOne delivery =>
      cases input with
      | database ok =>
          simp only [advance] at h
          split at h
          · cases h
            exact .inl (scanned_resume delivery)
          · cases h
            exact .inl rfl
      | _ => cases h
  | lookupMxHosts delivery message envelope =>
      cases input with
      | resolver resolver =>
          simp only [advance] at h
          split at h
          · cases h
            exact .inl (scanned_resume delivery)
          · cases h
            exact .inl (scanned_offer _ _)
      | _ => cases h
  | buildOutboundTls handOff host hosts =>
      cases input with
      | tls built =>
          simp only [advance] at h
          split at h
          · cases h
            exact .inl (scanned_resume handOff.toDelivery)
          · cases h
            exact .inl rfl
      | _ => cases h
  | sendRaw handOff host hosts =>
      cases input with
      | reply reply =>
          cases reply with
          | ok response =>
              cases h
              exact .inl rfl
          | error error =>
              cases h
              exact .inl rfl
      | _ => cases h
  | recordAccepted handOff host response =>
      cases input with
      | database ok =>
          cases ok with
          | false =>
              cases h
              exact .inl (scanned_resume handOff.toDelivery)
          | true =>
              cases h
              exact .inl rfl
      | _ => cases h
  | recordRefused handOff host error hosts =>
      cases input with
      | database ok =>
          cases ok with
          | false =>
              cases h
              exact .inl (scanned_resume handOff.toDelivery)
          | true =>
              cases h
              exact .inl (scanned_deliverHosts _ _ _)
      | _ => cases h
  | markDelivered delivery =>
      cases input with
      | database ok =>
          cases h
          exact .inl (scanned_resume delivery)
      | _ => cases h
  | failOrRequeue delivery reason =>
      cases input with
      | database ok =>
          simp only [advance] at h
          split at h
          · cases h
            exact .inr rfl
          · cases h
            exact .inl (scanned_resume delivery)
      | _ => cases h
  | _ => cases hheld

/-- A worker that holds a job goes on with it or lets it go. -/
theorem held_of_held {job : Outbound} (hheld : before.held = some job)
    (h : before.next ctx db input = some (actions, after, next)) :
    after.held = some job ∨ after.held = none := by
  cases next_effect h with
  | quiet houtbounds hsame hrows hsent => exact .inl (hsame.trans hheld)
  | stop => exact .inr rfl
  | abandon | finish => exact .inr (held_drain _ _)
  | scan hbefore | reclaim hbefore | claim hbefore =>
      rw [hbefore] at hheld
      cases hheld

/-- Outside `deliver_one` a step leaves the scanned rows or takes the first away. -/
theorem scanned_of_free (hfree : before.held = none) (hfetch : before ≠ .fetchQueued)
    (h : before.advance ctx db input = some (actions, after, next)) :
    after.scanned <:+ before.scanned := by
  cases before with
  | fetchQueued => exact absurd rfl hfetch
  | idle =>
      cases input with
      | database ok =>
          cases h
          cases ok with
          | false => exact List.nil_suffix
          | true =>
              simp only [if_true, scanned_reclaim]
              exact List.nil_suffix
      | _ => cases h
  | reclaimInProgress job rest =>
      cases input with
      | database ok =>
          cases h
          rw [scanned_reclaim]
          exact List.nil_suffix
      | _ => cases h
  | drainOnce now job rest =>
      cases input with
      | database ok =>
          cases ok with
          | false =>
              cases h
              exact List.nil_suffix
          | true =>
              simp only [advance, Bool.not_true, Bool.false_eq_true, if_false] at h
              split at h
              · cases h
                rw [scanned_drain]
                exact List.suffix_cons _ _
              · cases h
                exact List.suffix_cons _ _
      | _ => cases h
  | stopped => cases h
  | _ => cases hfree

/-- Outside `fetchQueued` a worker scans nothing. -/
theorem scanned_of_next (h : before.next ctx db input = some (actions, after, next))
    (hfetch : before ≠ .fetchQueued) : after.scanned <:+ before.scanned := by
  rcases next_cases h with ⟨rfl, -, -, rfl, -⟩ | ⟨-, -, -, rfl, -⟩ | ⟨-, -, hadvance⟩
  · exact List.suffix_refl _
  · exact List.nil_suffix
  · cases hheld : before.held with
    | none => exact scanned_of_free hheld hfetch hadvance
    | some job =>
        rcases scanned_of_held hheld hadvance with hsame | hstopped
        · simp only [hsame, List.suffix_refl]
        · rw [hstopped]
          exact List.nil_suffix

/-- `fetchQueued` scans the queued rows that are due. -/
theorem scanned_of_fetchQueued
    (h : fetchQueued.next ctx db input = some (actions, after, next)) :
    next = db ∧ after.held = none ∧ (after.scanned = [] ∨ ∃ now, after.scanned =
      ((db.outbounds.select (fun job => job.status = .queued)).filter (Outbound.due now)).map
        (Prod.mk now)) := by
  cases input with
  | queue now ok =>
      cases h
      cases ok with
      | false => exact ⟨rfl, rfl, .inl rfl⟩
      | true => exact ⟨rfl, held_drain _ _, .inr ⟨now, scanned_drain _ _⟩⟩
  | crash =>
      cases h
      exact ⟨rfl, rfl, .inl rfl⟩
  | _ => cases h

end Control

namespace System

/-- A cycle that puts its job off does so for no longer than any drain that has scanned the job
before and has not come to it yet: the drain began at the end of the backoff or later. -/
def PutsOffUnscanned (ctx : Worker → Context) (system : System Worker) : Label Worker → Prop
  | .worker worker (.database true) =>
      match system.control worker with
      | .failOrRequeue delivery reason => ∀ columns next,
          (ctx worker).config.failOrRequeue delivery.job delivery.now reason = some columns →
          columns.nextAttemptAt = some (some next) →
          ∀ other, other ≠ worker → ∀ entry ∈ (system.control other).scanned,
            entry.2.id = delivery.job.id → next ≤ entry.1
      | _ => True
  | _ => True

/-- The scanned rows are known, different from each other and from the held job, and as stored they
are still due at the instant their drain began, unless they are no longer queued. -/
structure Punctual (system : System Worker) : Prop where
  known : ∀ worker, ∀ entry ∈ (system.control worker).scanned,
    entry.2.id < system.db.outbounds.next
  nodup : ∀ worker, ((system.control worker).scanned.map (fun entry => entry.2.id)).Nodup
  held : ∀ worker job, (system.control worker).held = some job →
    ∀ entry ∈ (system.control worker).scanned, entry.2.id ≠ job.id
  due : ∀ worker, ∀ entry ∈ (system.control worker).scanned, ∀ row,
    system.db.outbounds.get? entry.2.id = some row → row.status = .queued →
    row.due entry.1 = true

variable [DecidableEq Worker] {ctx : Worker → Context} {system next : System Worker}
  {label : Label Worker} {actions : List (Worker × Action)} {worker : Worker} {after : Control}
  {db : Db} {id : Nat}

/-- A step that scans nothing keeps the scanned rows due, when every one of them that is queued
after it is as it was or due. -/
theorem Punctual.moved (hpunctual : system.Punctual)
    (hnext : system.db.outbounds.next ≤ db.outbounds.next)
    (hscanned : after.scanned <:+ (system.control worker).scanned)
    (hheld : ∀ job, after.held = some job → ∀ entry ∈ after.scanned, entry.2.id ≠ job.id)
    (hrows : ∀ holder, ∀ entry ∈ (system.control holder).scanned, ∀ row,
      db.outbounds.get? entry.2.id = some row → row.status = .queued →
      system.db.outbounds.get? entry.2.id = some row ∨ row.due entry.1 = true) :
    (system.moved worker after db).Punctual := by
  have hbefore : ∀ holder, ((system.moved worker after db).control holder).scanned <:+
      (system.control holder).scanned := by
    intro holder
    by_cases hholder : holder = worker
    · subst holder
      rwa [moved_control_self]
    · simp only [moved_control_of_ne _ hholder, List.suffix_refl]
  constructor
  · exact fun holder entry hentry =>
      Nat.lt_of_lt_of_le (hpunctual.known holder entry ((hbefore holder).subset hentry)) hnext
  · exact fun holder =>
      (hpunctual.nodup holder).sublist ((hbefore holder).sublist.map _)
  · intro holder job hjob entry hentry
    by_cases hholder : holder = worker
    · subst holder
      rw [moved_control_self] at hjob hentry
      exact hheld job hjob entry hentry
    · rw [moved_control_of_ne _ hholder] at hjob hentry
      exact hpunctual.held holder job hjob entry hentry
  · intro holder entry hentry row hrow hstatus
    have hmem := (hbefore holder).subset hentry
    rcases hrows holder entry hmem row hrow hstatus with hold | hdue
    · exact hpunctual.due holder entry hmem row hold hstatus
    · exact hdue

/-- Reading the queue makes the scanned rows those that are due. -/
theorem Punctual.fetched (hpunctual : system.Punctual) {now : Timestamp}
    (hheld : after.held = none)
    (hscanned : after.scanned =
      ((system.db.outbounds.select (fun job => job.status = .queued)).filter
      (Outbound.due now)).map (Prod.mk now)) :
    (system.moved worker after system.db).Punctual := by
  have hentry : ∀ entry ∈ after.scanned, entry.1 = now ∧ entry.2.due now = true ∧
      system.db.outbounds.get? entry.2.id = some entry.2 := by
    intro entry hmem
    rw [hscanned] at hmem
    obtain ⟨row, hrow, rfl⟩ := List.mem_map.mp hmem
    obtain ⟨hselected, hdue⟩ := List.mem_filter.mp hrow
    exact ⟨rfl, hdue, Table.get?_of_mem (List.mem_of_mem_filter hselected)⟩
  constructor
  · intro holder entry hmem
    by_cases hholder : holder = worker
    · subst holder
      rw [moved_control_self] at hmem
      exact AutoTable.lt_next_of_get? (hentry entry hmem).2.2
    · rw [moved_control_of_ne _ hholder] at hmem
      exact hpunctual.known holder entry hmem
  · intro holder
    by_cases hholder : holder = worker
    · subst holder
      rw [moved_control_self, hscanned, List.map_map]
      have hsublist := (List.filter_sublist (p := Outbound.due now)).trans
        (List.filter_sublist (p := fun job : Outbound => decide (job.status = .queued))
          (l := system.db.outbounds.rows))
      exact system.db.outbounds.nodup.sublist (hsublist.map Outbound.id)
    · rw [moved_control_of_ne _ hholder]
      exact hpunctual.nodup holder
  · intro holder job hjob
    by_cases hholder : holder = worker
    · subst holder
      rw [moved_control_self, hheld] at hjob
      cases hjob
    · rw [moved_control_of_ne _ hholder] at hjob ⊢
      exact hpunctual.held holder job hjob
  · intro holder entry hmem row hrow hstatus
    by_cases hholder : holder = worker
    · subst holder
      rw [moved_control_self] at hmem
      obtain ⟨hnow, hdue, hstored⟩ := hentry entry hmem
      cases hrow.symm.trans hstored
      rwa [hnow]
    · rw [moved_control_of_ne _ hholder] at hmem
      exact hpunctual.due holder entry hmem row hrow hstatus

omit [DecidableEq Worker] in
/-- Outside `deliver_one` a queued row that has changed was put back by `reclaim_in_progress`. -/
theorem rows_of_free {input : Input} {shown : List Action}
    (hfree : (system.control worker).held = none)
    (h : (system.control worker).next (ctx worker) system.db input = some (shown, after, db)) :
    system.db.outbounds.next = db.outbounds.next ∧ ∀ row,
      db.outbounds.get? id = some row → row.status = .queued →
      system.db.outbounds.get? id = some row ∨ row.nextAttemptAt = none := by
  have hsame (heq : db.outbounds = system.db.outbounds) :
      system.db.outbounds.next = db.outbounds.next ∧ ∀ row,
        db.outbounds.get? id = some row → row.status = .queued →
        system.db.outbounds.get? id = some row ∨ row.nextAttemptAt = none :=
    ⟨by rw [heq], fun row hrow _ => .inl (by rwa [heq] at hrow)⟩
  cases Control.next_effect h with
  | quiet houtbounds hheld hrows hsent => exact hsame houtbounds
  | stop | scan => exact hsame rfl
  | abandon hjob | finish hjob =>
      rw [hfree] at hjob
      cases hjob
  | @reclaim job rest hbefore hinput =>
      refine ⟨rfl, fun row hrow _ => ?_⟩
      rw [Db.get?_updateOutbound] at hrow
      by_cases hid : id = job.id
      · rw [if_pos hid, Option.map_eq_some_iff] at hrow
        obtain ⟨old, -, rfl⟩ := hrow
        exact .inr rfl
      · rw [if_neg hid] at hrow
        exact .inl hrow
  | @claim now scanned old rest hbefore hold hstatus =>
      refine ⟨rfl, fun row hrow hqueued => ?_⟩
      rw [Db.get?_updateOutbound] at hrow
      by_cases hid : id = scanned.id
      · rw [if_pos hid, Option.map_eq_some_iff] at hrow
        obtain ⟨old, -, rfl⟩ := hrow
        cases hqueued
      · rw [if_neg hid] at hrow
        exact .inl hrow

omit [DecidableEq Worker] in
/-- Inside `deliver_one` a queued row that has changed is that of the held job, and its cycle has
put it off as the condition on the steps allows. -/
theorem rows_of_held {input : Input} {shown : List Action} {job : Outbound}
    (hheld : (system.control worker).held = some job)
    (hputs : system.PutsOffUnscanned ctx (.worker worker input))
    (h : (system.control worker).next (ctx worker) system.db input = some (shown, after, db)) :
    system.db.outbounds.next = db.outbounds.next ∧ ∀ row,
      db.outbounds.get? id = some row → row.status = .queued →
      system.db.outbounds.get? id = some row ∨ job.id = id ∧
        ∀ other, other ≠ worker → ∀ entry ∈ (system.control other).scanned,
          entry.2.id = id → row.due entry.1 = true := by
  have hsame (heq : db.outbounds = system.db.outbounds) :
      system.db.outbounds.next = db.outbounds.next ∧ ∀ row,
        db.outbounds.get? id = some row → row.status = .queued →
        system.db.outbounds.get? id = some row ∨ job.id = id ∧
          ∀ other, other ≠ worker → ∀ entry ∈ (system.control other).scanned,
            entry.2.id = id → row.due entry.1 = true :=
    ⟨by rw [heq], fun row hrow _ => .inl (by rwa [heq] at hrow)⟩
  rcases Control.next_cases h with ⟨hcontrol, -⟩ | ⟨-, -, -, -, rfl⟩ | ⟨-, -, hadvance⟩
  · rw [hcontrol] at hheld
    cases hheld
  · exact hsame rfl
  · rcases Control.write_cases hheld hadvance with heq | ⟨delivery, hbefore, rfl⟩ |
      ⟨delivery, reason, columns, hbefore, rfl, hcolumns, rfl⟩
    · exact hsame heq
    · refine ⟨rfl, fun row hrow hqueued => ?_⟩
      rw [Db.get?_updateOutbound] at hrow
      by_cases hid : id = delivery.job.id
      · rw [if_pos hid, Option.map_eq_some_iff] at hrow
        obtain ⟨old, -, rfl⟩ := hrow
        cases hqueued
      · rw [if_neg hid] at hrow
        exact .inl hrow
    · refine ⟨rfl, fun row hrow hqueued => ?_⟩
      rw [hbefore] at hheld
      cases hheld
      rw [Db.get?_updateOutbound] at hrow
      by_cases hid : id = delivery.job.id
      · rw [if_pos hid, Option.map_eq_some_iff] at hrow
        obtain ⟨old, -, rfl⟩ := hrow
        refine .inr ⟨hid.symm, fun other hother entry hentry hentryId => ?_⟩
        obtain ⟨instant, hinstant⟩ :=
          OutboundWorkerConfig.exists_nextAttemptAt hcolumns hqueued
        simp only [PutsOffUnscanned, hbefore] at hputs
        have hreached := hputs columns instant hcolumns hinstant other hother entry hentry
          (hentryId.trans hid)
        simp only [Outbound.due, OutboundColumns.apply, hinstant, Option.getD_some,
          Bool.not_eq_true', decide_eq_false_iff_not]
        exact not_lt.mpr hreached
      · rw [if_neg hid] at hrow
        exact .inl hrow

omit [DecidableEq Worker] in
/-- A statement of another part of the daemon keeps the scanned rows due. -/
theorem Punctual.request (hpunctual : system.Punctual) (statement : Statement)
    (fault : Statement.Fault) :
    Punctual { system with db := (statement.execute fault system.db).2 } := by
  have hextends := statement.extends_execute fault system.db
  refine ⟨?_, hpunctual.nodup, hpunctual.held, ?_⟩
  · exact fun worker entry hentry =>
      Nat.lt_of_lt_of_le (hpunctual.known worker entry hentry) hextends.next_le
  · exact fun worker entry hentry row hrow => hpunctual.due worker entry hentry row
      (hextends.get?_of_lt (hpunctual.known worker entry hentry) hrow)

/-- So does a worker that reads the queue. -/
theorem Punctual.moved_fetchQueued {input : Input} {shown : List Action}
    (hpunctual : system.Punctual)
    (h : Control.fetchQueued.next (ctx worker) system.db input = some (shown, after, db)) :
    (system.moved worker after db).Punctual := by
  obtain ⟨rfl, hheld, hscanned⟩ := Control.scanned_of_fetchQueued h
  rcases hscanned with hnone | ⟨now, hscanned⟩
  · refine hpunctual.moved (Nat.le_refl _) ?_ ?_ (fun _ _ _ _ hrow _ => .inl hrow)
    · rw [hnone]
      exact List.nil_suffix
    · intro job hjob
      rw [hheld] at hjob
      cases hjob
  · exact hpunctual.fetched hheld hscanned

/-- So does a worker without a job that does anything else. -/
theorem Punctual.moved_free {input : Input} {shown : List Action} (hpunctual : system.Punctual)
    (hfetch : system.control worker ≠ .fetchQueued)
    (hfree : (system.control worker).held = none)
    (h : (system.control worker).next (ctx worker) system.db input = some (shown, after, db)) :
    (system.moved worker after db).Punctual := by
  refine hpunctual.moved (Nat.le_of_eq (@rows_of_free _ _ _ _ _ _ 0 _ _ hfree h).1)
    (Control.scanned_of_next h hfetch) ?_ ?_
  · -- A worker comes to hold a job by claiming the first row of those it has scanned.
    intro taken htaken entry hentry
    cases Control.next_effect h with
    | quiet houtbounds hsame hrows hsent =>
        rw [hsame, hfree] at htaken
        cases htaken
    | claim hbefore hrow hstatus =>
        cases htaken
        have hnodup := hpunctual.nodup worker
        rw [hbefore, Control.scanned, List.map_cons, List.map_cons] at hnodup
        rw [OutboundColumns.apply_id, Table.key_of_get? hrow]
        exact fun hid => (List.nodup_cons.mp hnodup).1
          (hid ▸ List.mem_map_of_mem (f := fun entry => entry.2.id) hentry)
    | stop => cases htaken
    | abandon | finish =>
        rw [Control.held_drain] at htaken
        cases htaken
    | scan | reclaim =>
        rw [Control.held_reclaim] at htaken
        cases htaken
  · intro holder entry hentry row hrow hstatus
    refine ((rows_of_free hfree h).2 row hrow hstatus).imp_right (fun hnone => ?_)
    rw [Outbound.due, hnone]

/-- So does a worker with a job, as far as it meets the condition. -/
theorem Punctual.moved_held {input : Input} {shown : List Action} {job : Outbound}
    (hpunctual : system.Punctual) (hjob : (system.control worker).held = some job)
    (hputs : system.PutsOffUnscanned ctx (.worker worker input))
    (h : (system.control worker).next (ctx worker) system.db input = some (shown, after, db)) :
    (system.moved worker after db).Punctual := by
  have hfetch : system.control worker ≠ .fetchQueued := by
    intro hfetch
    rw [hfetch] at hjob
    cases hjob
  have hscanned := Control.scanned_of_next h hfetch
  refine hpunctual.moved (Nat.le_of_eq (@rows_of_held _ _ _ _ _ _ 0 _ _ _ hjob hputs h).1)
    hscanned ?_ ?_
  · intro taken htaken entry hentry
    rcases Control.held_of_held hjob h with hsame | hnone
    · rw [hsame] at htaken
      cases htaken
      exact hpunctual.held worker job hjob entry (hscanned.subset hentry)
    · rw [hnone] at htaken
      cases htaken
  · intro holder entry hentry row hrow hstatus
    rcases (rows_of_held hjob hputs h).2 row hrow hstatus with hold | ⟨hid, hdue⟩
    · exact .inl hold
    · -- The worker itself has not scanned the job that it holds a second time.
      have hholder : holder ≠ worker := by
        intro heq
        obtain rfl := heq
        exact hpunctual.held holder job hjob entry hentry hid.symm
      exact .inr (hdue holder hholder entry hentry rfl)

/-- Every step that meets the condition keeps the scanned rows due. -/
theorem Punctual.step (hpunctual : system.Punctual) (hputs : system.PutsOffUnscanned ctx label)
    (h : system.step ctx label = some (actions, next)) : next.Punctual := by
  rcases step_cases h with ⟨statement, fault, rfl, rfl, rfl⟩ |
    ⟨worker, input, shown, after, db, rfl, hnext, rfl, rfl⟩
  · exact hpunctual.request statement fault
  · cases hjob : (system.control worker).held with
    | some job => exact hpunctual.moved_held hjob hputs hnext
    | none =>
        by_cases hfetch : system.control worker = .fetchQueued
        · exact hpunctual.moved_fetchQueued (hfetch ▸ hnext)
        · exact hpunctual.moved_free hfetch hjob hnext

/-- **When a claim keeps to the backoff.** In every run of any number of workers whose steps put a
job off only when no drain that began before the end of its backoff has the job among the rows still
to come: whenever a claim returns a job, the row as of the claim has no next attempt or one that is
not later than the instant at which the drain began. -/
theorem punctual_of_run (ctx : Worker → Context) {start middle next : System Worker}
    {trace : List (Worker × Action)} (hstart : ∀ worker, (start.control worker).scanned = [])
    (hfree : ∀ worker, (start.control worker).held = none)
    (hrun : Run (step ctx) (PutsOffUnscanned ctx) start trace middle)
    (h : middle.step ctx label = some (actions, next)) {worker : Worker} {now : Timestamp}
    {job : Outbound} (hclaimed : (worker, Action.claimed now job) ∈ actions) :
    ∃ row, middle.db.outbounds.get? job.id = some row ∧ row.status = .queued ∧
      ∀ instant, row.nextAttemptAt = some instant → instant ≤ now := by
  have hpunctual : middle.Punctual := by
    refine hrun.invariant Punctual ⟨?_, ?_, ?_, ?_⟩
      (fun _ _ _ _ hpunctual hputs h => hpunctual.step hputs h)
    · intro worker entry hentry
      rw [hstart worker] at hentry
      cases hentry
    · intro worker
      rw [hstart worker]
      exact List.nodup_nil
    · intro worker job hjob
      rw [hfree worker] at hjob
      cases hjob
    · intro worker entry hentry
      rw [hstart worker] at hentry
      cases hentry
  obtain ⟨scanned, rest, rfl, hcontrol, hclaim⟩ := (claimed_iff h).mp hclaimed
  rcases claim_spec hclaim with ⟨row, hrow, hstatus, htaken, -⟩ | ⟨hnone, -⟩
  · cases htaken
    have hid : row.id = scanned.id := Table.key_of_get? hrow
    refine ⟨row, hid ▸ hrow, hstatus, fun instant hinstant => ?_⟩
    have hentry : (now, scanned) ∈ (middle.control worker).scanned := by
      rw [hcontrol]
      exact List.mem_cons_self
    have hdue := hpunctual.due worker _ hentry row hrow hstatus
    simp only [Outbound.due, hinstant, Bool.not_eq_true', decide_eq_false_iff_not] at hdue
    exact not_lt.mp hdue
  · cases hnone

end System

/-- The first worker tries the job and puts it off for a minute, at the end of which the second
worker scans it. -/
def claimedWhenDue : List (Label Bool) :=
  [.worker false (.database true), .worker false (.queue 0 true), .worker false (.database true),
    .worker false (.database true), .worker false (.resolver oneHost), .worker false (.tls true),
    .worker false (.reply (.error "451")), .worker false (.database true),
    .worker false (.database true), .worker true (.database true),
    .worker true (.queue (60 * 10 ^ 9) true)]

/-- A job that was put off is claimed by the second worker at the end of its backoff. -/
theorem punctual_claimedWhenDue : ∃ trace middle actions next job,
    Run twoWorkers (System.PutsOffUnscanned (fun _ => defaultContext)) (oneJob Bool) trace middle ∧
    twoWorkers middle (.worker true (.database true)) = some (actions, next) ∧
    (true, Action.claimed (60 * 10 ^ 9) job) ∈ actions ∧
    ∃ row, middle.db.outbounds.get? job.id = some row ∧ row.status = .queued ∧
      ∀ instant, row.nextAttemptAt = some instant → instant ≤ 60 * 10 ^ 9 := by
  obtain ⟨trace, middle, actions, next, job, hexecute, hallowed, hstep, hclaimed⟩ :
      ∃ trace middle actions next job,
        execute twoWorkers (oneJob Bool) claimedWhenDue = some (trace, middle) ∧
        AllowedAlong twoWorkers (System.PutsOffUnscanned (fun _ => defaultContext)) (oneJob Bool)
          claimedWhenDue ∧
        twoWorkers middle (.worker true (.database true)) = some (actions, next) ∧
        (true, Action.claimed (60 * 10 ^ 9) job) ∈ actions := by
    refine ⟨_, _, _, _, _, rfl, ?_, rfl, List.mem_singleton_self _⟩
    refine ⟨trivial, trivial, trivial, trivial, trivial, trivial, trivial, trivial, ?_, trivial,
      trivial, trivial⟩
    -- When the first worker puts the job off, the second has not scanned anything.
    rintro columns next _ _ (_ | _) hother entry hentry
    · exact absurd rfl hother
    · cases hentry
  have hrun := execute_run_of_allowed hexecute hallowed
  exact ⟨trace, middle, actions, next, job, hrun, hstep, hclaimed,
    System.punctual_of_run (fun _ => defaultContext) (fun _ => rfl) (fun _ => rfl) hrun hstep
      hclaimed⟩

/-- Both workers scan the job. The first tries it and puts it off for a minute. -/
def staleClaim : List (Label Bool) :=
  bothTick ++
    [.worker false (.database true), .worker false (.database true),
      .worker false (.resolver oneHost), .worker false (.tls true),
      .worker false (.reply (.error "451")), .worker false (.database true),
      .worker false (.database true)]

/-- The second worker then claims it all the same. -/
theorem not_punctual_staleClaim : ¬ ∀ (middle next : System Bool) (label : Label Bool)
    (trace actions : List (Bool × Action)) (worker : Bool) (now : Timestamp) (job : Outbound),
    Run twoWorkers (fun _ _ => True) (oneJob Bool) trace middle →
    twoWorkers middle label = some (actions, next) →
    (worker, Action.claimed now job) ∈ actions →
    ∃ row, middle.db.outbounds.get? job.id = some row ∧
      ∀ instant, row.nextAttemptAt = some instant → instant ≤ now := by
  intro h
  obtain ⟨trace, middle, actions, next, job, row, hexecute, hstep, hclaimed, hrow, hlater⟩ :
      ∃ trace middle actions next job row,
        execute twoWorkers (oneJob Bool) staleClaim = some (trace, middle) ∧
        twoWorkers middle (.worker true (.database true)) = some (actions, next) ∧
        (true, Action.claimed 0 job) ∈ actions ∧ middle.db.outbounds.get? job.id = some row ∧
        row.nextAttemptAt = some (60 * 10 ^ 9) :=
    ⟨_, _, _, _, _, _, rfl, rfl, List.mem_singleton_self _, rfl, rfl⟩
  obtain ⟨stored, hstored, hdue⟩ := h middle next _ trace actions true 0 job
    (execute_run hexecute) hstep hclaimed
  cases hrow.symm.trans hstored
  exact absurd (hdue _ hlater) (by decide)

end Zonemail
