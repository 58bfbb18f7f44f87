import Mathlib.Order.MinMax
import Zonemail.Library.Word
import Zonemail.Outbound.Budget

/-!
# The arithmetic of a re-queue

`fail_or_requeue` adds 1 to a `u64`, computes a backoff with a capped shift and a product that
saturates, casts it to an `i64`, and adds it to the clock as a span. `backoff_delay` itself is exact
as long as `max_backoff` is at most 2^62 (`min_backoffDelay`). The rest is not guarded: the sum may
overflow, the cast may change the delay, and an instant that cannot be represented panics.
`OutboundWorkerConfig.Requeueable` says when none of it happens. A worker all of whose re-queues
meet it stops only by a crash.
-/

namespace Zonemail

open Library

/-! ## The delay on machine words -/

/-- `backoff_delay` on its `u64` values. -/
def backoffDelayU64 (baseBackoff maxBackoff attempts : UInt64) : UInt64 :=
  let shift := min (saturatingSub attempts 1) 62
  let multiplier := 1 <<< shift
  let seconds := saturatingMul baseBackoff multiplier
  min seconds maxBackoff

namespace OutboundWorkerConfig

variable {config : OutboundWorkerConfig}

/-- The shift stays within the word, so the delay on words is the one on numbers. -/
theorem toNat_backoffDelayU64 {baseBackoff maxBackoff : UInt64} (attempts : UInt64)
    (hbase : baseBackoff.toNat = config.baseBackoff)
    (hmax : maxBackoff.toNat = config.maxBackoff) :
    (backoffDelayU64 baseBackoff maxBackoff attempts).toNat =
      config.backoffDelay attempts.toNat := by
  have hshift : (min (saturatingSub attempts 1) 62).toNat = min (attempts.toNat - 1) 62 := by
    rw [toNat_min, toNat_saturatingSub]
    rfl
  have hlt : (min (saturatingSub attempts 1) 62).toNat < 64 := by
    rw [hshift]
    omega
  rw [backoffDelayU64, toNat_min, toNat_saturatingMul, toNat_one_shiftLeft hlt, hshift, hbase,
    hmax]
  rfl

/-- The cast of a delay is the machine's. -/
theorem toInt_toInt64_ofNat {delay : Nat} (h : delay ≤ u64Max) :
    (UInt64.ofNat delay).toInt64.toInt = asI64 delay := by
  have hlt : delay < 2 ^ 64 := by
    unfold u64Max at h
    omega
  rw [toInt_toInt64, UInt64.toNat_ofNat_of_lt' hlt]
  rfl

/-! ## The documented delay -/

/-- `base_backoff * 2 ^ (attempts - 1)` seconds, capped at `max_backoff`, in unbounded numbers. -/
def exactBackoff (config : OutboundWorkerConfig) (attempts : Nat) : Nat :=
  min (config.baseBackoff * 2 ^ (attempts - 1)) config.maxBackoff

/-- Below 2^62 neither the cap of the shift nor the saturation shows. -/
theorem min_backoffDelay (config : OutboundWorkerConfig) (attempts : Nat) :
    min (config.backoffDelay attempts) (2 ^ 62) =
      min (config.exactBackoff attempts) (2 ^ 62) := by
  have hproducts : config.baseBackoff * 2 ^ min (attempts - 1) 62 =
        config.baseBackoff * 2 ^ (attempts - 1) ∨
      2 ^ 62 ≤ config.baseBackoff * 2 ^ min (attempts - 1) 62 ∧
        2 ^ 62 ≤ config.baseBackoff * 2 ^ (attempts - 1) := by
    rcases Nat.le_total (attempts - 1) 62 with hshift | hshift
    · exact .inl (by rw [Nat.min_eq_left hshift])
    · rw [Nat.min_eq_right hshift]
      rcases Nat.eq_zero_or_pos config.baseBackoff with hbase | hbase
      · exact .inl (by rw [hbase, Nat.zero_mul, Nat.zero_mul])
      -- A base of at least 1 second shifted by 62 or more is past the bound either way.
      · have hpow : 2 ^ 62 ≤ 2 ^ (attempts - 1) := Nat.pow_le_pow_right (by omega) hshift
        exact .inr ⟨Nat.le_mul_of_pos_left _ hbase,
          hpow.trans (Nat.le_mul_of_pos_left _ hbase)⟩
  simp only [backoffDelay, exactBackoff, u64Max]
  omega

theorem backoffDelay_le (config : OutboundWorkerConfig) (attempts : Nat) :
    config.backoffDelay attempts ≤ config.maxBackoff :=
  Nat.min_le_right _ _

theorem backoffDelay_eq_exactBackoff (hmax : config.maxBackoff ≤ 2 ^ 62) (attempts : Nat) :
    config.backoffDelay attempts = config.exactBackoff attempts := by
  have hsame := config.min_backoffDelay attempts
  have hdelay := config.backoffDelay_le attempts
  have hexact : config.exactBackoff attempts ≤ config.maxBackoff := Nat.min_le_right _ _
  omega

theorem exactBackoff_mono (config : OutboundWorkerConfig) {earlier later : Nat}
    (h : earlier ≤ later) : config.exactBackoff earlier ≤ config.exactBackoff later := by
  have hpow : 2 ^ (earlier - 1) ≤ 2 ^ (later - 1) :=
    Nat.pow_le_pow_right (by omega) (Nat.sub_le_sub_right h 1)
  exact min_le_min_right _ (Nat.mul_le_mul_left _ hpow)

/-! ## The end of a failed cycle -/

variable {job : Outbound} {now next : Timestamp} {reason : String}

/-- A job within the cap is due again at the instant that the cast delay leads to. -/
theorem failOrRequeue_of_afterSeconds (hcap : job.attempts + 1 ≤ config.maxAttempts)
    (hnext : afterSeconds now (asI64 (config.backoffDelay (job.attempts + 1))) = some next) :
    ∃ columns, config.failOrRequeue job now reason = some columns ∧ columns.status = .queued ∧
      columns.nextAttemptAt = some (some next) := by
  simp only [failOrRequeue]
  rw [if_neg (Nat.not_lt.mpr hcap), hnext]
  exact ⟨_, rfl, rfl, rfl⟩

/-- A failed cycle panics only where the job is within the cap and its instant cannot be
computed. -/
theorem failOrRequeue_ne_none_iff : config.failOrRequeue job now reason ≠ none ↔
    (job.attempts + 1 ≤ config.maxAttempts →
      ∃ next, afterSeconds now (asI64 (config.backoffDelay (job.attempts + 1))) = some next) := by
  simp only [failOrRequeue]
  split
  · rename_i hcap
    exact iff_of_true (Option.some_ne_none _) (fun hle => absurd hcap (Nat.not_lt.mpr hle))
  · rename_i hcap
    have hle : job.attempts + 1 ≤ config.maxAttempts := Nat.not_lt.mp hcap
    cases hnext : afterSeconds now (asI64 (config.backoffDelay (job.attempts + 1))) with
    | none => simp [hle]
    | some next => simp

/-- A `max_backoff` of at most 2^62 seconds makes the backoff the documented one. It does not
decrease from one attempt to the next, never exceeds `max_backoff`, and is what a job waits for
after `now` whenever the end of that wait can be represented. -/
theorem backoffDelay_exact (config : OutboundWorkerConfig) (hmax : config.maxBackoff ≤ 2 ^ 62) :
    (∀ attempts, 1 ≤ attempts → config.backoffDelay attempts =
      min (config.baseBackoff * 2 ^ (attempts - 1)) config.maxBackoff) ∧
    (∀ baseBackoff maxBackoff attempts : UInt64, baseBackoff.toNat = config.baseBackoff →
      maxBackoff.toNat = config.maxBackoff → 1 ≤ attempts.toNat →
      (backoffDelayU64 baseBackoff maxBackoff attempts).toNat =
        min (config.baseBackoff * 2 ^ (attempts.toNat - 1)) config.maxBackoff) ∧
    (∀ earlier later, 1 ≤ earlier → earlier ≤ later →
      config.backoffDelay earlier ≤ config.backoffDelay later) ∧
    (∀ attempts, config.backoffDelay attempts ≤ config.maxBackoff) ∧
    ∀ (job : Outbound) (now : Timestamp) (reason : String),
      job.attempts + 1 ≤ config.maxAttempts → minTimestamp ≤ now →
      now + (config.backoffDelay (job.attempts + 1) : Int) * 10 ^ 9 ≤ maxTimestamp →
      ∃ columns, config.failOrRequeue job now reason = some columns ∧ columns.status = .queued ∧
        columns.nextAttemptAt =
          some (some (now + (config.backoffDelay (job.attempts + 1) : Int) * 10 ^ 9)) := by
  have hexact := backoffDelay_eq_exactBackoff hmax
  refine ⟨fun attempts _ => hexact attempts, ?_, ?_, config.backoffDelay_le, ?_⟩
  · intro baseBackoff maxBackoff attempts hbase hcap _
    exact (toNat_backoffDelayU64 attempts hbase hcap).trans (hexact attempts.toNat)
  · intro earlier later _ hle
    rw [hexact, hexact]
    exact config.exactBackoff_mono hle
  · intro job now reason hcap hstart hfinish
    have hle := config.backoffDelay_le (job.attempts + 1)
    refine failOrRequeue_of_afterSeconds hcap ?_
    rw [asI64, if_pos (by omega), afterSeconds_eq_some_iff hstart]
    exact ⟨rfl, hfinish⟩

end OutboundWorkerConfig

/-- The default parameters: the fourth failure is followed by a wait of 480 seconds. -/
theorem backoffDelay_exact_default :
    defaultContext.config.maxBackoff ≤ 2 ^ 62 ∧ defaultContext.config.backoffDelay 4 = 480 :=
  ⟨by decide, (OutboundWorkerConfig.backoffDelay_exact defaultContext.config (by decide)).1 4
    (by decide)⟩

/-! ## Safe re-queues -/

namespace OutboundWorkerConfig

/-- The end of a failed cycle counts it in a `u64`, keeps the delay when casting it to an `i64`, and
does not panic. -/
structure RequeueSafe (config : OutboundWorkerConfig) (job : Outbound) (now : Timestamp) :
    Prop where
  counted : (UInt64.ofNat job.attempts + 1).toNat = job.attempts + 1
  kept : job.attempts + 1 ≤ config.maxAttempts →
    asI64 (config.backoffDelay (job.attempts + 1)) = config.backoffDelay (job.attempts + 1)
  completes : ∀ reason, config.failOrRequeue job now reason ≠ none

/-- The attempts of the job leave room for one more, and it is past the cap or the documented
backoff ends at an instant that can be represented. -/
def Requeueable (config : OutboundWorkerConfig) (job : Outbound) (now : Timestamp) : Prop :=
  job.attempts < u64Max ∧ (config.maxAttempts ≤ job.attempts ∨
    now + (min (config.baseBackoff * 2 ^ job.attempts) config.maxBackoff : Nat) * (10 ^ 9 : Int) ≤
      maxTimestamp)

variable {config : OutboundWorkerConfig} {job : Outbound} {now : Timestamp}

/-- The cast keeps the delay and its end can be computed exactly where the documented delay ends at
an instant that can be represented. -/
theorem kept_and_after_iff (config : OutboundWorkerConfig) (hnow : minTimestamp ≤ now)
    (attempts : Nat) :
    (asI64 (config.backoffDelay attempts) = config.backoffDelay attempts ∧
        ∃ next, afterSeconds now (asI64 (config.backoffDelay attempts)) = some next) ↔
      now + (config.exactBackoff attempts : Int) * 10 ^ 9 ≤ maxTimestamp := by
  have hsame := config.min_backoffDelay attempts
  have hnear : ∀ delay : Nat, now + (delay : Int) * 10 ^ 9 ≤ maxTimestamp → delay < 2 ^ 62 := by
    intro delay hdelay
    have hspan : (delay : Int) ≤ 631107417600 := le_maxSpanSeconds hnow hdelay
    omega
  constructor
  · intro h
    obtain ⟨hkept, next, hnext⟩ := h
    rw [hkept, afterSeconds_eq_some_iff hnow] at hnext
    obtain ⟨rfl, hlast⟩ := hnext
    have hsmall := hnear _ hlast
    rwa [show config.exactBackoff attempts = config.backoffDelay attempts by omega]
  · intro h
    have hsmall := hnear _ h
    have hdelay : config.backoffDelay attempts = config.exactBackoff attempts := by omega
    rw [hdelay, asI64, if_pos (by omega)]
    exact ⟨rfl, _, (afterSeconds_eq_some_iff hnow).mpr ⟨rfl, h⟩⟩

/-- A re-queue is safe exactly for a job that can be re-queued. -/
theorem requeueSafe_iff_requeueable (hnow : minTimestamp ≤ now) :
    config.RequeueSafe job now ↔ config.Requeueable job now := by
  have hend := config.kept_and_after_iff hnow (job.attempts + 1)
  constructor
  · intro h
    refine ⟨toNat_ofNat_add_one_iff.mp h.counted, ?_⟩
    rcases Nat.lt_or_ge job.attempts config.maxAttempts with hcap | hcap
    · exact .inr (hend.mp ⟨h.kept hcap, failOrRequeue_ne_none_iff.mp (h.completes "") hcap⟩)
    · exact .inl hcap
  · intro h
    obtain ⟨hcounted, hcap | hlast⟩ := h
    · have hpast : ¬ job.attempts + 1 ≤ config.maxAttempts := by omega
      exact ⟨toNat_ofNat_add_one_iff.mpr hcounted, fun hle => absurd hle hpast,
        fun _ => failOrRequeue_ne_none_iff.mpr (fun hle => absurd hle hpast)⟩
    · obtain ⟨hkept, hnext⟩ := hend.mpr hlast
      exact ⟨toNat_ofNat_add_one_iff.mpr hcounted, fun _ => hkept,
        fun _ => failOrRequeue_ne_none_iff.mpr (fun _ => hnext)⟩

end OutboundWorkerConfig

/-- The first failure of a job under the default parameters. -/
theorem requeueSafe_default :
    minTimestamp ≤ 0 ∧ defaultContext.config.RequeueSafe ⟨exampleJob, 1⟩ 0 := by
  refine ⟨by decide, (OutboundWorkerConfig.requeueSafe_iff_requeueable (by decide)).mpr ?_⟩
  exact ⟨(by decide : 0 < u64Max), .inr (by decide)⟩

/-! ## Workers that are never stopped by a re-queue -/

namespace Control

variable {ctx : Context} {db next : Db} {before after : Control} {input : Input}
  {actions : List Action}

theorem reclaim_ne_stopped (rows : List Outbound) : reclaim rows ≠ .stopped := by
  cases rows <;> simp [reclaim]

theorem drain_ne_stopped (now : Timestamp) (rows : List Outbound) : drain now rows ≠ .stopped := by
  cases rows <;> simp [drain]

theorem ne_stopped_of_held {job : Outbound} (h : after.held = some job) : after ≠ .stopped := by
  intro hstopped
  rw [hstopped] at h
  cases h

/-- A step outside `deliver_one` does not stop the worker. -/
theorem ne_stopped_of_free (hfree : before.held = none)
    (h : before.advance ctx db input = some (actions, after, next)) : after ≠ .stopped := by
  intro hstopped
  cases before with
  | idle =>
      cases input with
      | database ok =>
          cases h
          cases ok with
          | false => cases hstopped
          | true => exact absurd hstopped (reclaim_ne_stopped _)
      | _ => cases h
  | reclaimInProgress job rest =>
      cases input with
      | database ok =>
          cases h
          exact absurd hstopped (reclaim_ne_stopped rest)
      | _ => cases h
  | fetchQueued =>
      cases input with
      | queue now ok =>
          cases h
          cases ok with
          | false => cases hstopped
          | true => exact absurd hstopped (drain_ne_stopped now _)
      | _ => cases h
  | drainOnce now job rest =>
      cases input with
      | database ok =>
          simp only [advance] at h
          split at h
          · cases h
            cases hstopped
          · split at h
            · cases h
              exact absurd hstopped (drain_ne_stopped now rest)
            · cases h
              cases hstopped
      | _ => cases h
  | stopped => cases h
  | _ => cases hfree

/-- Inside it the worker stops only where the end of a failed cycle cannot be computed. -/
theorem failOrRequeue_of_held {job : Outbound} (hheld : before.held = some job)
    (h : before.advance ctx db input = some (actions, after, next)) (hstopped : after = .stopped) :
    ∃ delivery reason, before = .failOrRequeue delivery reason ∧
      ctx.config.failOrRequeue delivery.job delivery.now reason = none := by
  cases before with
  | deliverOne delivery =>
      cases input with
      | database ok =>
          simp only [advance] at h
          split at h
          · cases h
            exact absurd hstopped (drain_ne_stopped _ _)
          · cases h
            cases hstopped
      | _ => cases h
  | lookupMxHosts delivery message envelope =>
      cases input with
      | resolver resolver =>
          simp only [advance] at h
          split at h
          · cases h
            exact absurd hstopped (drain_ne_stopped _ _)
          · cases h
            exact absurd hstopped (ne_stopped_of_held (held_offer _ _))
      | _ => cases h
  | buildOutboundTls handOff host hosts =>
      cases input with
      | tls built =>
          simp only [advance] at h
          split at h
          · cases h
            exact absurd hstopped (drain_ne_stopped _ _)
          · cases h
            cases hstopped
      | _ => cases h
  | sendRaw handOff host hosts =>
      cases input with
      | reply reply =>
          cases reply with
          | ok response =>
              cases h
              cases hstopped
          | error error =>
              cases h
              cases hstopped
      | _ => cases h
  | recordAccepted handOff host response =>
      cases input with
      | database ok =>
          simp only [advance] at h
          split at h
          · cases h
            exact absurd hstopped (drain_ne_stopped _ _)
          · cases h
            cases hstopped
      | _ => cases h
  | recordRefused handOff host error hosts =>
      cases input with
      | database ok =>
          simp only [advance] at h
          split at h
          · cases h
            exact absurd hstopped (drain_ne_stopped _ _)
          · cases h
            exact absurd hstopped (ne_stopped_of_held (held_deliverHosts _ _ _))
      | _ => cases h
  | markDelivered delivery =>
      cases input with
      | database ok =>
          cases h
          exact absurd hstopped (drain_ne_stopped _ _)
      | _ => cases h
  | failOrRequeue delivery reason =>
      cases input with
      | database ok =>
          simp only [advance] at h
          split at h
          · rename_i hnone
            exact ⟨delivery, reason, rfl, hnone⟩
          · cases h
            exact absurd hstopped (drain_ne_stopped _ _)
      | _ => cases h
  | _ => cases hheld

/-- A running worker that is not killed stops only there. -/
theorem failOrRequeue_of_stopped (hrunning : before ≠ .stopped) (hcrash : input ≠ .crash)
    (h : before.next ctx db input = some (actions, after, next)) (hstopped : after = .stopped) :
    ∃ delivery reason, before = .failOrRequeue delivery reason ∧
      ctx.config.failOrRequeue delivery.job delivery.now reason = none := by
  rcases next_cases h with ⟨hbefore, -⟩ | ⟨-, hinput, -⟩ | ⟨-, -, hadvance⟩
  · exact absurd hbefore hrunning
  · exact absurd hinput hcrash
  · cases hheld : before.held with
    | none => exact absurd hstopped (ne_stopped_of_free hheld hadvance)
    | some job => exact failOrRequeue_of_held hheld hadvance hstopped

end Control

namespace System

variable {Worker : Type} [DecidableEq Worker] {ctx : Worker → Context}
  {system start next finish : System Worker} {trace actions : List (Worker × Action)}

/-- No worker is killed, and every cycle that fails is one of a job that can be re-queued. -/
def Requeues (ctx : Worker → Context) (system : System Worker) : Label Worker → Prop
  | .worker worker input => input ≠ .crash ∧ ∀ delivery reason,
      system.control worker = .failOrRequeue delivery reason → minTimestamp ≤ delivery.now ∧
        (ctx worker).config.Requeueable delivery.job delivery.now
  | .request _ _ => True

/-- A step does not stop a worker. -/
theorem running_step {label : Label Worker} {worker : Worker}
    (hrunning : system.control worker ≠ .stopped) (hrequeues : system.Requeues ctx label)
    (h : system.step ctx label = some (actions, next)) : next.control worker ≠ .stopped := by
  rcases step_cases h with ⟨_, _, _, _, rfl⟩ | ⟨moving, input, _, after, _, rfl, hnext, _, rfl⟩
  · exact hrunning
  · by_cases hmoving : worker = moving
    · subst hmoving
      rw [moved_control_self]
      intro hstopped
      obtain ⟨hcrash, hsafe⟩ := hrequeues
      obtain ⟨delivery, reason, hbefore, hnone⟩ :=
        Control.failOrRequeue_of_stopped hrunning hcrash hnext hstopped
      obtain ⟨hstart, hrequeueable⟩ := hsafe delivery reason hbefore
      exact ((OutboundWorkerConfig.requeueSafe_iff_requeueable hstart).mpr
        hrequeueable).completes reason hnone
    · rwa [moved_control_of_ne _ hmoving]

/-- Nor does a run of any number of workers. -/
theorem running_of_requeues {worker : Worker} (hstart : start.control worker ≠ .stopped)
    (hrun : Run (System.step ctx) (System.Requeues ctx) start trace finish) :
    finish.control worker ≠ .stopped :=
  hrun.invariant (fun system => system.control worker ≠ .stopped) hstart
    (fun _ _ _ _ hrunning hrequeues h => running_step hrunning hrequeues h)

end System

/-- The default parameters with backoffs of 10^12 seconds, about 31700 years. -/
def longBackoffContext : Context :=
  { defaultContext with
    config := { defaultContext.config with baseBackoff := 10 ^ 12, maxBackoff := 10 ^ 12 } }

/-- A host refuses a job for the first time, and the instant of its next attempt cannot be
computed: the re-queue panics. -/
theorem not_requeueSafe_longBackoff : ¬ ∀ (ctx : Context) (trace : List (Unit × Action))
    (finish : System Unit) (delivery : Delivery) (reason : String),
    Run (System.step (fun _ => ctx)) (fun _ _ => True) (oneJob Unit) trace finish →
    finish.control () = .failOrRequeue delivery reason → minTimestamp ≤ delivery.now →
    ctx.config.RequeueSafe delivery.job delivery.now := by
  intro h
  have hrefused : ∃ trace finish delivery reason,
      execute (System.step (fun _ => longBackoffContext)) (oneJob Unit) (refusedOnce.take 8) =
        some (trace, finish) ∧
      finish.control () = .failOrRequeue delivery reason ∧ minTimestamp ≤ delivery.now ∧
      longBackoffContext.config.failOrRequeue delivery.job delivery.now reason = none :=
    ⟨_, _, _, _, rfl, rfl, by decide, rfl⟩
  obtain ⟨trace, finish, delivery, reason, hexecute, hcontrol, hnow, hnone⟩ := hrefused
  exact (h longBackoffContext trace finish delivery reason (execute_run hexecute) hcontrol
    hnow).completes reason hnone

end Zonemail
