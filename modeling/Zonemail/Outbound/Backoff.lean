import Zonemail.Outbound.Claims

/-!
# The clock of a failure

A tick reads the clock once, and every job that fails in it is put off from that reading. A cycle
that begins after slow hand-offs, or is slow itself, fails later than that, and its backoff is
shorter by the difference. `Clocked` is one worker with a clock that goes on between its steps.
Its step says how long that took and what the worker does next; `System.Waiting` is what a job that
was put off looks like until its time has come.
-/

namespace Zonemail

open Library

/-! ## A worker and its clock -/

/-- A system and the time. -/
structure Clocked where
  clock : Timestamp
  system : System Unit

/-- The worker reads this clock whenever it reads one. -/
def Label.reading (clock : Timestamp) : Label Unit → Label Unit
  | .worker _ (.queue _ ok) => .worker () (.queue clock ok)
  | label => label

/-- Some time passes, and the system takes a step. -/
def Clocked.step (ctx : Context) (state : Clocked) :
    Nat × Label Unit → Option (List (Unit × Action) × Clocked)
  | (elapsed, label) =>
      let clock := state.clock + (elapsed : Int)
      match state.system.step (fun _ => ctx) (label.reading clock) with
      | none => none
      | some (actions, next) => some (actions, ⟨clock, next⟩)

theorem Label.eq_of_reading {clock now : Timestamp} {label : Label Unit} {ok : Bool}
    (h : label.reading clock = .worker () (.queue now ok)) : now = clock := by
  unfold reading at h
  split at h
  · cases h
    rfl
  · rename_i hother
    exact absurd h (hother () now ok)

namespace Clocked

variable {ctx : Context} {state next : Clocked} {elapsed : Nat} {label : Label Unit}
  {actions : List (Unit × Action)}

/-- A step of the clocked system is a step of the system, and its clock does not go back. -/
theorem step_cases {label : Nat × Label Unit}
    (h : state.step ctx label = some (actions, next)) :
    state.clock ≤ next.clock ∧
      state.system.step (fun _ => ctx) (label.2.reading next.clock) =
        some (actions, next.system) := by
  obtain ⟨elapsed, label⟩ := label
  simp only [step] at h
  split at h
  · cases h
  · rename_i hstep
    cases h
    exact ⟨Int.le_add_of_nonneg_right (Int.natCast_nonneg elapsed), hstep⟩

end Clocked

/-! ## What a failed cycle stores -/

/-- The end of a backoff is as many seconds after `now` as the cast of the delay says. -/
theorem OutboundWorkerConfig.instant_of_failOrRequeue {config : OutboundWorkerConfig}
    {job : Outbound} {now : Timestamp} {reason : String} {columns : OutboundColumns}
    (hcolumns : config.failOrRequeue job now reason = some columns)
    (hqueued : columns.status = .queued) :
    columns.nextAttemptAt =
        some (some (now + asI64 (config.backoffDelay (job.attempts + 1)) * 10 ^ 9)) ∧
      now + asI64 (config.backoffDelay (job.attempts + 1)) * 10 ^ 9 ≤ maxTimestamp := by
  simp only [failOrRequeue] at hcolumns
  split at hcolumns
  · cases hcolumns
    cases hqueued
  · split at hcolumns
    · cases hcolumns
    · rename_i instant hinstant
      cases hcolumns
      obtain ⟨rfl, hlast⟩ := eq_of_afterSeconds hinstant
      exact ⟨rfl, hlast⟩

/-- A delay that fits the cast is kept by it, and any other is not reached by an instant that can be
represented. -/
theorem le_after_iff {clock now : Timestamp} {delay : Nat} (hclock : minTimestamp ≤ clock)
    (hinstant : now + asI64 delay * 10 ^ 9 ≤ maxTimestamp) :
    clock + (delay : Int) * 10 ^ 9 ≤ now + asI64 delay * 10 ^ 9 ↔
      clock ≤ now ∧ delay < 2 ^ 63 := by
  by_cases hdelay : delay < 2 ^ 63
  · rw [asI64, if_pos hdelay]
    constructor
    · exact fun h => ⟨Int.le_of_add_le_add_right h, hdelay⟩
    · exact fun h => Int.add_le_add_right h.1 _
  · constructor
    · intro h
      have hspan : (delay : Int) ≤ 631107417600 := le_maxSpanSeconds hclock (h.trans hinstant)
      omega
    · exact fun h => absurd h.2 hdelay

namespace System

variable {ctx : Context} {system next : System Unit} {label : Label Unit} {id : Nat}
  {clock instant : Timestamp} {actions : List (Unit × Action)} {after : Control} {db : Db}

/-- Nobody holds the job or is about to try or to reclaim it, and its row, unless it was deleted, is
queued and not due before `instant`. -/
structure Waiting (id : Nat) (instant : Timestamp) (system : System Unit) : Prop where
  known : id < system.db.outbounds.next
  free : ¬ system.Holds () id
  unread : ∀ job ∈ (system.control ()).reclaimed, job.id ≠ id
  unscanned : ∀ entry ∈ (system.control ()).scanned, entry.2.id ≠ id
  putOff : ∀ row, system.db.outbounds.get? id = some row → row.status = .queued ∧
    ∃ next, row.nextAttemptAt = some next ∧ instant ≤ next

/-- A worker that reads the queue before `instant` does not find the job due. -/
theorem Waiting.unscanned_of_fetchQueued {input : Input} {shown : List Action}
    (hwaiting : system.Waiting id instant)
    (hinput : ∀ now ok, input = .queue now ok → now < instant)
    (h : Control.fetchQueued.next ctx system.db input = some (shown, after, db)) :
    ∀ entry ∈ after.scanned, entry.2.id ≠ id := by
  intro entry hentry hid
  cases input with
  | queue now ok =>
      cases h
      cases ok with
      | false => cases hentry
      | true =>
          rw [if_pos rfl, Control.scanned_drain] at hentry
          obtain ⟨row, hrow, rfl⟩ := List.mem_map.mp hentry
          obtain ⟨hmem, hdue⟩ := List.mem_filter.mp hrow
          obtain ⟨-, later, hlater, hle⟩ :=
            hwaiting.putOff row (hid ▸ Table.get?_of_mem (List.mem_filter.mp hmem).1)
          have hbefore : now < later := (hinput now true rfl).trans_le hle
          simp [Outbound.due, hlater, hbefore] at hdue
  | crash =>
      cases h
      cases hentry
  | _ => cases h

/-- Before `instant` every step leaves the job waiting, and alone. -/
theorem Waiting.step (hwaiting : system.Waiting id instant) (hclock : clock < instant)
    (h : system.step (fun _ => ctx) (label.reading clock) = some (actions, next)) :
    next.Waiting id instant ∧
      ∀ now job, ((), Action.claimed now job) ∈ actions → job.id ≠ id := by
  rcases step_cases h with ⟨statement, fault, hlabel, rfl, rfl⟩ |
    ⟨⟨⟩, input, shown, after, db, hlabel, hnext, rfl, rfl⟩
  · have hextends := statement.extends_execute fault system.db
    refine ⟨⟨Nat.lt_of_lt_of_le hwaiting.known hextends.next_le, hwaiting.free, hwaiting.unread,
      hwaiting.unscanned, ?_⟩, by simp⟩
    exact fun row hrow => hwaiting.putOff row (hextends.get?_of_lt hwaiting.known hrow)
  · have hstatus : ∀ row, system.db.outbounds.get? id = some row → row.status ≠ .inProgress := by
      intro row hrow
      rw [(hwaiting.putOff row hrow).1]
      nofun
    rcases free_cases hwaiting.free hwaiting.unread hstatus hnext with hleaves |
      ⟨now, scanned, row, rest, rfl, hbefore, -⟩
    · have hunscanned : ∀ entry ∈ after.scanned, entry.2.id ≠ id := by
        by_cases hfetch : system.control () = .fetchQueued
        · rw [hfetch] at hnext
          refine hwaiting.unscanned_of_fetchQueued ?_ hnext
          intro now ok heq
          obtain rfl := heq
          rwa [Label.eq_of_reading hlabel]
        · exact fun entry hentry => hwaiting.unscanned entry
            ((Control.scanned_of_next hnext hfetch).subset hentry)
      refine ⟨⟨?_, ?_, ?_, ?_, ?_⟩, fun now job hmem => ?_⟩
      · exact hleaves.number ▸ hwaiting.known
      · rw [holds_update_self]
        intro h
        obtain ⟨job, hjob, hid⟩ := h
        exact hleaves.unheld job hjob hid
      · rw [moved_control_self]
        exact hleaves.unread
      · rw [moved_control_self]
        exact hunscanned
      · rw [moved_db, hleaves.row]
        exact hwaiting.putOff
      · obtain ⟨action, haction, heq⟩ := List.mem_map.mp hmem
        cases heq
        exact hleaves.shown _ haction
    · refine absurd rfl (hwaiting.unscanned (now, scanned) ?_)
      rw [hbefore]
      exact List.mem_cons_self

/-- With one worker there is no other whose scan could be overtaken. -/
theorem putsOffUnscanned_of_one : system.PutsOffUnscanned (fun _ => ctx) label := by
  unfold PutsOffUnscanned
  split
  · split
    · exact fun _ _ _ _ other hother => absurd (Subsingleton.elim other _) hother
    · trivial
  · trivial

end System

namespace Clocked

variable {ctx : Context} {start middle next finish : Clocked} {label : Nat × Label Unit}
  {trace actions : List (Unit × Action)} {id : Nat} {instant : Timestamp}

/-- What every run of one worker keeps: the clock does not go back, the worker holds the job as
stored, and what it has scanned is no job that it holds. -/
structure Sound (start : Timestamp) (state : Clocked) : Prop where
  clock : start ≤ state.clock
  stored : state.system.HeldStored
  punctual : state.system.Punctual

theorem sound_of_idle (h : start.system.control () = .idle) : start.Sound start.clock where
  clock := Int.le_refl _
  stored := System.heldStored_of_free (by rw [h]; rfl)
  punctual := by
    have hscanned : ∀ worker, (start.system.control worker).scanned = [] := by
      intro h
      cases h
      rw [h]
      rfl
    constructor <;> simp [hscanned]

theorem Sound.step {clock : Timestamp} (hsound : middle.Sound clock)
    (h : middle.step ctx label = some (actions, next)) : next.Sound clock := by
  obtain ⟨hclock, hstep⟩ := step_cases h
  exact ⟨hsound.clock.trans hclock, hsound.stored.step hstep,
    hsound.punctual.step System.putsOffUnscanned_of_one hstep⟩

/-- A cycle that ends with its job back in the queue has written the columns of
`fail_or_requeue`. -/
theorem requeued_cases {delivery : Delivery} {reason : String} {row : Outbound}
    (hstored : middle.system.HeldStored)
    (hfailed : middle.system.control () = .failOrRequeue delivery reason)
    (h : middle.step ctx label = some (actions, next))
    (hrow : next.system.db.outbounds.get? delivery.job.id = some row)
    (hqueued : row.status = .queued) :
    ∃ columns, ctx.config.failOrRequeue delivery.job delivery.now reason = some columns ∧
      columns.status = .queued ∧ row = columns.apply delivery.job ∧
      next.system = middle.system.moved () (Control.resume delivery)
        (middle.system.db.updateOutbound delivery.job.id columns) := by
  have hjob : (middle.system.control ()).held = some delivery.job := by
    rw [hfailed]
    rfl
  -- While the worker holds the job its row is in progress.
  have hnot : middle.system.db.outbounds.get? delivery.job.id ≠ some row := by
    intro hold
    obtain rfl := hstored.stored delivery.job hjob row hold
    rw [hstored.inProgress _ hjob] at hqueued
    cases hqueued
  rcases System.step_cases (step_cases h).2 with ⟨statement, fault, hlabel, rfl, hnext⟩ |
    ⟨⟨⟩, input, shown, after, db, hlabel, hstep, rfl, hnext⟩
  · rw [hnext] at hrow
    exact absurd ((statement.extends_execute fault middle.system.db).get?_of_lt
      (hstored.known delivery.job hjob) hrow) hnot
  · rw [hnext] at hrow ⊢
    rw [hfailed] at hstep
    cases input with
    | database ok =>
        simp only [Control.next, Control.advance] at hstep
        split at hstep
        · cases hstep
          exact absurd hrow hnot
        · rename_i columns hcolumns
          cases hstep
          cases ok with
          | false => exact absurd hrow hnot
          | true =>
              rw [if_pos rfl, System.moved_db, Db.get?_updateOutbound, if_pos rfl,
                Option.map_eq_some_iff] at hrow
              obtain ⟨old, hold, rfl⟩ := hrow
              obtain rfl := hstored.stored delivery.job hjob old hold
              exact ⟨columns, hcolumns, hqueued, rfl, rfl⟩
    | crash =>
        cases hstep
        exact absurd hrow hnot
    | _ => cases hstep

/-- A job that was put off and is not due yet waits for it. -/
def Deferred (id : Nat) (instant : Timestamp) (state : Clocked) : Prop :=
  instant ≤ state.clock ∨ state.system.Waiting id instant

theorem Deferred.step (hdeferred : middle.Deferred id instant)
    (h : middle.step ctx label = some (actions, next)) :
    next.Deferred id instant ∧
      ∀ now job, ((), Action.claimed now job) ∈ actions → job.id = id → instant ≤ next.clock := by
  obtain ⟨hclock, hstep⟩ := step_cases h
  by_cases hdue : instant ≤ next.clock
  · exact ⟨.inl hdue, fun _ _ _ _ => hdue⟩
  · rcases hdeferred with hpast | hwaiting
    · exact absurd (hpast.trans hclock) hdue
    · obtain ⟨hnext, halone⟩ := hwaiting.step (Int.not_le.mp hdue) hstep
      exact ⟨.inr hnext, fun now job hmem hid => absurd hid (halone now job hmem)⟩

/-- The end of a failed cycle leaves its job waiting for the instant it has stored. -/
theorem Sound.waiting {clock : Timestamp} {delivery : Delivery} {reason : String}
    {columns : OutboundColumns} (hsound : middle.Sound clock)
    (hfailed : middle.system.control () = .failOrRequeue delivery reason)
    (hqueued : columns.status = .queued)
    (hinstant : columns.nextAttemptAt = some (some instant)) :
    (middle.system.moved () (Control.resume delivery)
      (middle.system.db.updateOutbound delivery.job.id columns)).Waiting
        delivery.job.id instant := by
  have hjob : (middle.system.control ()).held = some delivery.job := by
    rw [hfailed]
    rfl
  refine ⟨hsound.stored.known delivery.job hjob, ?_, ?_, ?_, ?_⟩
  · rw [System.holds_update_self, Control.resume, Control.held_drain]
    intro h
    obtain ⟨job, hnone, -⟩ := h
    cases hnone
  · rw [System.moved_control_self, Control.resume, Control.reclaimed_drain]
    exact fun _ hmem => nomatch hmem
  · have hscanned := hsound.punctual.held () delivery.job hjob
    rw [hfailed] at hscanned
    rw [System.moved_control_self, Control.scanned_resume]
    exact hscanned
  · intro row hrow
    rw [System.moved_db, Db.get?_updateOutbound, if_pos rfl, Option.map_eq_some_iff] at hrow
    obtain ⟨old, -, rfl⟩ := hrow
    refine ⟨hqueued, instant, ?_, Int.le_refl _⟩
    simp only [OutboundColumns.apply, hinstant, Option.getD_some]

/-- **When the backoff is measured from the failure.** In every run of one worker from its start,
over any queue, with any time passing between its steps, any crashes and failures and any statements
of the others in between: a cycle that fails and puts its job back into the queue stores a next
attempt that is at least the backoff after the failure if and only if the clock still shows what its
tick has read, and the delay in seconds fits an `i64`. Then every later cycle of the job begins at
least the backoff after the failure. -/
theorem backoff_from_failure_iff (ctx : Context) (hclock : minTimestamp ≤ start.clock)
    (hstart : start.system.control () = .idle)
    (hrun : Run (step ctx) (fun _ _ => True) start trace middle) {delivery : Delivery}
    {reason : String} {row : Outbound}
    (hfailed : middle.system.control () = .failOrRequeue delivery reason)
    (h : middle.step ctx label = some (actions, next))
    (hrow : next.system.db.outbounds.get? delivery.job.id = some row)
    (hqueued : row.status = .queued) :
    ((∃ instant, row.nextAttemptAt = some instant ∧
        next.clock + (ctx.config.backoffDelay row.attempts : Int) * 10 ^ 9 ≤ instant) ↔
      next.clock ≤ delivery.now ∧ ctx.config.backoffDelay row.attempts < 2 ^ 63) ∧
    (next.clock ≤ delivery.now → ctx.config.backoffDelay row.attempts < 2 ^ 63 →
      ∀ later last label actions finish now job,
        Run (step ctx) (fun _ _ => True) next later last →
        last.step ctx label = some (actions, finish) →
        ((), Action.claimed now job) ∈ actions → job.id = delivery.job.id →
        next.clock + (ctx.config.backoffDelay row.attempts : Int) * 10 ^ 9 ≤ finish.clock) := by
  have hsound : middle.Sound start.clock := hrun.invariant (Sound start.clock)
    (sound_of_idle hstart) (fun _ _ _ _ hsound _ h => hsound.step h)
  obtain ⟨columns, hcolumns, hstatus, rfl, hnext⟩ :=
    requeued_cases hsound.stored hfailed h hrow hqueued
  obtain ⟨hinstant, hrepresentable⟩ :=
    OutboundWorkerConfig.instant_of_failOrRequeue hcolumns hstatus
  have hattempts : (columns.apply delivery.job).attempts = delivery.job.attempts + 1 := by
    rw [OutboundColumns.apply_attempts,
      (OutboundWorkerConfig.failOrRequeue_cases hcolumns).1, Option.getD_some]
  have hstored : (columns.apply delivery.job).nextAttemptAt =
      some (delivery.now +
        asI64 (ctx.config.backoffDelay (delivery.job.attempts + 1)) * 10 ^ 9) := by
    simp only [OutboundColumns.apply, hinstant, Option.getD_some]
  have hiff := le_after_iff ((hclock.trans hsound.clock).trans (step_cases h).1) hrepresentable
  rw [hattempts]
  refine ⟨⟨?_, fun hcondition => ⟨_, hstored, hiff.mpr hcondition⟩⟩, ?_⟩
  · intro h
    obtain ⟨instant, hsome, hle⟩ := h
    cases hstored.symm.trans hsome
    exact hiff.mp hle
  · intro hprompt hdelay later last label actions finish now job hlater hstep hclaimed hid
    have hdeferred : last.Deferred delivery.job.id _ :=
      hlater.invariant (Deferred delivery.job.id _)
      (.inr (hnext ▸ hsound.waiting hfailed hstatus hinstant))
      (fun _ _ _ _ hdeferred _ h => (hdeferred.step h).1)
    exact (hiff.mpr ⟨hprompt, hdelay⟩).trans ((hdeferred.step hstep).2 now job hclaimed hid)

end Clocked

/-- The step of one worker with the default parameters and a clock. -/
def clockedWorker : Clocked → Nat × Label Unit → Option (List (Unit × Action) × Clocked) :=
  Clocked.step defaultContext

/-- One queued job at the instant 0. -/
def clockedJob : Clocked := ⟨0, oneJob Unit⟩

/-- The worker tries the job and is refused by its host after this much time. -/
def refusedAfter (elapsed : Nat) : List (Nat × Label Unit) :=
  [(0, .worker () (.database true)), (0, .worker () (.queue 0 true)),
    (0, .worker () (.database true)), (0, .worker () (.database true)),
    (0, .worker () (.resolver oneHost)), (0, .worker () (.tls true)),
    (elapsed, .worker () (.reply (.error "451"))), (0, .worker () (.database true))]

/-- The next tick, which begins after this much time. -/
def tickAfter (elapsed : Nat) : List (Nat × Label Unit) :=
  [(elapsed, .worker () (.database true)), (0, .worker () (.queue 0 true))]

/-- A job that is refused at once is tried again after its backoff, a minute later. -/
theorem backoff_refusedAfter : ∃ trace middle actions next later last claims finish now job,
    Run clockedWorker (fun _ _ => True) clockedJob trace middle ∧
    clockedWorker middle (0, .worker () (.database true)) = some (actions, next) ∧
    Run clockedWorker (fun _ _ => True) next later last ∧
    clockedWorker last (0, .worker () (.database true)) = some (claims, finish) ∧
    ((), Action.claimed now job) ∈ claims ∧
    next.clock + (defaultContext.config.backoffDelay 1 : Int) * 10 ^ 9 ≤ finish.clock := by
  have hruns : ∃ trace middle actions next delivery reason row,
        execute clockedWorker clockedJob (refusedAfter 0) = some (trace, middle) ∧
        middle.system.control () = .failOrRequeue delivery reason ∧
        clockedWorker middle (0, .worker () (.database true)) = some (actions, next) ∧
        next.system.db.outbounds.get? delivery.job.id = some row ∧ row.status = .queued ∧
        row.attempts = 1 ∧ next.clock ≤ delivery.now ∧
        ∃ later last claims finish now job,
          execute clockedWorker next (tickAfter (60 * 10 ^ 9)) = some (later, last) ∧
          clockedWorker last (0, .worker () (.database true)) = some (claims, finish) ∧
          claims = [((), .claimed now job)] ∧ job.id = delivery.job.id :=
    ⟨_, _, _, _, _, _, _, rfl, rfl, rfl, rfl, rfl, rfl, by decide, _, _, _, _, _, _, rfl, rfl, rfl,
      rfl⟩
  obtain ⟨trace, middle, actions, next, delivery, reason, row, hexecute, hfailed, hstep, hrow,
    hqueued, hattempts, hprompt, later, last, claims, finish, now, job, htick, hclaim, hclaims,
    hid⟩ := hruns
  have hclaimed : ((), Action.claimed now job) ∈ claims := by
    rw [hclaims]
    exact List.mem_singleton_self _
  have hrun := execute_run hexecute
  have hlater := execute_run htick
  have hapart := (Clocked.backoff_from_failure_iff defaultContext (by decide) rfl hrun hfailed hstep
    hrow hqueued).2 hprompt (by rw [hattempts]; decide) later last _ claims finish _ job
    hlater hclaim hclaimed hid
  rw [hattempts] at hapart
  exact ⟨trace, middle, actions, next, later, last, claims, finish, now, job, hrun, hstep,
    hlater, hclaim, hclaimed, hapart⟩

/-- A host that takes a hundred seconds to refuse the job: the stored next attempt is past by then,
and the next tick tries the job at once. -/
theorem not_backoff_refusedAfter : ¬ ∀ (trace later : List (Unit × Action))
    (middle next last finish : Clocked) (actions claims : List (Unit × Action))
    (delivery : Delivery)
    (reason : String) (row job : Outbound) (now : Timestamp) (label : Nat × Label Unit),
    Run clockedWorker (fun _ _ => True) clockedJob trace middle →
    middle.system.control () = .failOrRequeue delivery reason →
    clockedWorker middle (0, .worker () (.database true)) = some (actions, next) →
    next.system.db.outbounds.get? delivery.job.id = some row → row.status = .queued →
    Run clockedWorker (fun _ _ => True) next later last →
    clockedWorker last label = some (claims, finish) →
    ((), Action.claimed now job) ∈ claims → job.id = delivery.job.id →
    (∃ instant, row.nextAttemptAt = some instant ∧
      next.clock + (defaultContext.config.backoffDelay row.attempts : Int) * 10 ^ 9 ≤ instant) ∨
    next.clock + (defaultContext.config.backoffDelay row.attempts : Int) * 10 ^ 9 ≤
      finish.clock := by
  intro h
  have hruns : ∃ trace middle actions next delivery reason row,
        execute clockedWorker clockedJob (refusedAfter (100 * 10 ^ 9)) = some (trace, middle) ∧
        middle.system.control () = .failOrRequeue delivery reason ∧
        clockedWorker middle (0, .worker () (.database true)) = some (actions, next) ∧
        next.system.db.outbounds.get? delivery.job.id = some row ∧ row.status = .queued ∧
        row.attempts = 1 ∧ row.nextAttemptAt = some (60 * 10 ^ 9) ∧
        next.clock = 100 * 10 ^ 9 ∧
        ∃ later last claims finish now job,
          execute clockedWorker next (tickAfter 0) = some (later, last) ∧
          clockedWorker last (0, .worker () (.database true)) = some (claims, finish) ∧
          claims = [((), .claimed now job)] ∧ job.id = delivery.job.id ∧
          finish.clock = 100 * 10 ^ 9 :=
    ⟨_, _, _, _, _, _, _, rfl, rfl, rfl, rfl, rfl, rfl, rfl, rfl, _, _, _, _, _, _, rfl, rfl, rfl,
      rfl, rfl⟩
  obtain ⟨trace, middle, actions, next, delivery, reason, row, hexecute, hfailed, hstep, hrow,
    hqueued, hattempts, hinstant, hbegun, later, last, claims, finish, now, job, htick, hclaim,
    hclaims, hid, hfinish⟩ := hruns
  have hclaimed : ((), Action.claimed now job) ∈ claims := by
    rw [hclaims]
    exact List.mem_singleton_self _
  rcases h trace later middle next last finish actions claims delivery reason row job _ _
    (execute_run hexecute) hfailed hstep hrow hqueued (execute_run htick) hclaim hclaimed hid with
    ⟨instant, hsome, hle⟩ | hle
  · cases hinstant.symm.trans hsome
    rw [hattempts, hbegun] at hle
    exact absurd hle (by decide)
  · rw [hattempts, hbegun, hfinish] at hle
    exact absurd hle (by decide)

end Zonemail
