import Zonemail.Outbound.Budget

/-!
# A lost row of the audit trail

`deliver_hosts` writes the audit trail before it goes on, and a failed insert ends the cycle: with
the delivered update still to come, when the host had accepted, and with the remaining hosts still
to try, when it had refused. The row stays in progress, and the next tick reclaims and sends it
again. `auditIndependent_of_auditKept` says which inserts must not fail for a lost row to be no more
than that, and `lostAcceptance` is a run in which a message goes out twice.
-/

namespace Zonemail

open Library

namespace System

/-- The worker does not crash, and every read and update of a job succeeds. -/
def Steady (system : System Unit) : Label Unit → Prop
  | .worker _ .crash => False
  | .worker _ (.queue _ ok) => ok = true
  | .worker _ (.database ok) =>
      match system.control () with
      | .deliverOne _ | .recordAccepted _ _ _ | .recordRefused _ _ _ _ => True
      | _ => ok = true
  | .worker _ _ | .request _ _ => True

/-- The audit trail keeps the row of a host that accepts, and that of a host that refuses while
there are others to try. -/
def AuditKept (system : System Unit) : Label Unit → Prop
  | .worker _ (.database ok) =>
      match system.control () with
      | .recordAccepted _ _ _ => ok = true
      | .recordRefused _ _ _ hosts => hosts ≠ [] → ok = true
      | _ => True
  | _ => True

/-- In the runs whose steps are allowed, a job whose message a host has accepted is not handed to a
transport again, and after a refusal the worker goes on with the next host. -/
structure AuditIndependent (ctx : Context) (allowed : System Unit → Label Unit → Prop)
    (start : System Unit) : Prop where
  once : ∀ {trace later : List (Unit × Action)} {actions : List (Unit × Action)}
    {middle accepted finish : System Unit} {handOff : HandOff} {host response : String}
    {hosts : List String},
    Run (step (fun _ => ctx)) allowed start trace middle →
    middle.control () = .sendRaw handOff host hosts →
    middle.step (fun _ => ctx) (.worker () (.reply (.ok response))) = some (actions, accepted) →
    Run (step (fun _ => ctx)) allowed accepted later finish →
    ∀ dial envelope raw, ((), Action.sent handOff.job.id dial envelope raw) ∉ later
  rest : ∀ {trace actions : List (Unit × Action)} {middle after : System Unit} {handOff : HandOff}
    {host error next : String} {hosts : List String} {ok : Bool},
    Run (step (fun _ => ctx)) allowed start trace middle →
    middle.control () = .recordRefused handOff host error (next :: hosts) →
    allowed middle (.worker () (.database ok)) →
    middle.step (fun _ => ctx) (.worker () (.database ok)) = some (actions, after) →
    after.control () = .buildOutboundTls handOff next hosts

/-- The message of the job has been accepted: that is about to be recorded, or the job to be marked
delivered, or it has been. -/
inductive Accepted (id : Nat) (system : System Unit) : Prop where
  | unrecorded (handOff : HandOff) (host response : String)
      (hcontrol : system.control () = .recordAccepted handOff host response)
      (hid : handOff.job.id = id) : Accepted id system
  | recorded (delivery : Delivery) (hcontrol : system.control () = .markDelivered delivery)
      (hid : delivery.job.id = id) : Accepted id system
  | settled (hsettled : system.Settled id .delivered) : Accepted id system

variable {ctx : Context} {system next : System Unit} {label : Label Unit} {id : Nat}
  {actions : List (Unit × Action)}

/-- One worker reclaims neither its own job nor a settled one. -/
theorem ReclaimReady.reclaimsOpen (hready : system.ReclaimReady) : system.ReclaimsOpen label := by
  unfold ReclaimsOpen
  split
  · split
    · rename_i job rest hcontrol
      refine ⟨?_, fun row hrow hfinal => ?_⟩
      · rintro ⟨⟩ ⟨held, hheld, -⟩
        rw [hcontrol] at hheld
        cases hheld
      · have hstatus := hready.inProgress job (by rw [hcontrol]; exact List.mem_cons_self) row hrow
        rw [hstatus] at hfinal
        exact hfinal
    · trivial
  · trivial

/-- The delivered update settles the job. -/
theorem Owned.settled {delivery : Delivery} (howned : system.Owned)
    (hcontrol : system.control () = .markDelivered delivery) :
    (system.moved () (Control.resume delivery) (system.db.updateOutbound delivery.job.id
      (deliveredColumns (delivery.job.attempts + 1)))).Settled delivery.job.id .delivered where
  known := howned.known () delivery.job.id ⟨delivery.job, by rw [hcontrol]; rfl, rfl⟩
  free := by
    rintro ⟨⟩ ⟨job, hjob, -⟩
    rw [moved_control_self, Control.resume, Control.held_drain] at hjob
    cases hjob
  kept := by
    intro row hrow
    rw [moved_db, Db.get?_updateOutbound, if_pos rfl, Option.map_eq_some_iff] at hrow
    obtain ⟨old, -, rfl⟩ := hrow
    rfl

/-- With its audit row kept, an accepted message stays accepted and is not sent again. -/
theorem Accepted.step (haccepted : system.Accepted id) (howned : system.Owned)
    (hready : system.ReclaimReady) (hsteady : system.Steady label) (hkept : system.AuditKept label)
    (h : system.step (fun _ => ctx) label = some (actions, next)) :
    next.Accepted id ∧ ∀ dial envelope raw, ((), Action.sent id dial envelope raw) ∉ actions := by
  cases haccepted with
  | settled hsettled =>
      obtain ⟨hnext, hunsent⟩ := hsettled.step trivial hready.reclaimsOpen h
      exact ⟨.settled hnext, hunsent ()⟩
  | unrecorded handOff host response hcontrol hid =>
      rcases step_cases h with ⟨statement, fault, rfl, rfl, rfl⟩ |
        ⟨⟨⟩, input, shown, after, db, rfl, hnext, rfl, rfl⟩
      · exact ⟨.unrecorded handOff host response hcontrol hid, by simp⟩
      · rw [hcontrol] at hnext
        cases input with
        | crash => exact hsteady.elim
        | database ok =>
            simp only [AuditKept, hcontrol] at hkept
            subst hkept
            cases hnext
            exact ⟨.recorded handOff.toDelivery (moved_control_self _ _ _ _) hid, by simp⟩
        | _ => cases hnext
  | recorded delivery hcontrol hid =>
      rcases step_cases h with ⟨statement, fault, rfl, rfl, rfl⟩ |
        ⟨⟨⟩, input, shown, after, db, rfl, hnext, rfl, rfl⟩
      · exact ⟨.recorded delivery hcontrol hid, by simp⟩
      · rw [hcontrol] at hnext
        cases input with
        | crash => exact hsteady.elim
        | database ok =>
            simp only [Steady, hcontrol] at hsteady
            subst hsteady
            cases hnext
            subst id
            exact ⟨.settled (howned.settled hcontrol), by simp⟩
        | _ => cases hnext

/-- **When a lost row of the audit trail is no more than that.** In every run of one worker without
crashes in which every read and update of a job succeeds and no audit insert fails after an
acceptance, or after a refusal with hosts left: once a host has accepted the message of a job, the
job is not handed to a transport again, and a failed insert never keeps the hosts of a cycle from
being tried. -/
theorem auditIndependent_of_auditKept (ctx : Context) {start : System Unit}
    (hstart : start.control () = .idle) :
    AuditIndependent ctx (fun system label => system.Steady label ∧ system.AuditKept label)
      start where
  once := by
    intro trace later actions middle accepted finish handOff host response hosts hrun hcontrol
      hstep hlater
    have hreplied : middle.Steady (.worker () (.reply (.ok response))) ∧
        middle.AuditKept (.worker () (.reply (.ok response))) := ⟨trivial, trivial⟩
    have hinvariant := (hrun.snoc _ hreplied hstep).invariant
      (fun system => system.Owned ∧ system.ReclaimReady)
      ⟨owned_of_free (fun _ => by rw [hstart]; rfl), reclaimReady_of_nil (by rw [hstart]; rfl)⟩
      (fun system label actions next hold _ h =>
        ⟨hold.1.step hold.2.reclaimsOpen.reclaimsUnheld h, hold.2.step h⟩)
    have haccepted : accepted.Accepted handOff.job.id := by
      simp only [step, hcontrol, Control.next, Control.advance, Option.some.injEq,
        Prod.mk.injEq] at hstep
      obtain ⟨-, rfl⟩ := hstep
      exact .unrecorded handOff host response (moved_control_self _ _ _ _) rfl
    have hunsent := hlater.invariant_trace
      (fun trace system => (system.Owned ∧ system.ReclaimReady) ∧
        system.Accepted handOff.job.id ∧
        ∀ dial envelope raw, ((), Action.sent handOff.job.id dial envelope raw) ∉ trace)
      ⟨hinvariant, haccepted, by simp⟩
      (fun trace system label actions next hold hallowed h => by
        obtain ⟨⟨howned, hready⟩, haccepted, hunsent⟩ := hold
        obtain ⟨hnext, hactions⟩ :=
          haccepted.step howned hready hallowed.1 hallowed.2 h
        refine ⟨⟨howned.step hready.reclaimsOpen.reclaimsUnheld h, hready.step h⟩, hnext, ?_⟩
        intro dial envelope raw hmem
        rcases List.mem_append.mp hmem with hmem | hmem
        · exact hunsent dial envelope raw hmem
        · exact hactions dial envelope raw hmem)
    exact hunsent.2.2
  rest := by
    intro trace actions middle after handOff host error next hosts ok _ hcontrol hallowed hstep
    have hkept := hallowed.2
    simp only [AuditKept, hcontrol] at hkept
    obtain rfl := hkept (List.cons_ne_nil _ _)
    simp only [step, hcontrol, Control.next, Control.advance, Bool.not_true, Bool.false_eq_true,
      if_false, Option.some.injEq, Prod.mk.injEq] at hstep
    obtain ⟨-, rfl⟩ := hstep
    exact moved_control_self _ _ _ _

end System

/-- A tick with one job, which is handed to its one host; the host has not answered yet. -/
def sentToHost : List (Label Unit) :=
  [.worker () (.database true), .worker () (.queue 0 true), .worker () (.database true),
    .worker () (.database true), .worker () (.resolver oneHost), .worker () (.tls true)]

/-- The host has accepted, its row of the audit trail is lost, and the next tick reclaims the job
and hands it to the host again. -/
def lostAcceptance : List (Label Unit) :=
  [.worker () (.database false), .worker () (.database true), .worker () (.database true),
    .worker () (.queue 0 true), .worker () (.database true), .worker () (.database true),
    .worker () (.resolver oneHost), .worker () (.tls true)]

/-- After `sentToHost`, with no row lost, the message goes out once. -/
theorem auditIndependent_sentToHost : ∃ trace middle actions accepted later finish handOff,
    execute oneWorker (oneJob Unit) sentToHost = some (trace, middle) ∧
    middle.control () = .sendRaw handOff "mx.y.io" [] ∧
    oneWorker middle (.worker () (.reply (.ok "250"))) = some (actions, accepted) ∧
    execute oneWorker accepted [.worker () (.database true), .worker () (.database true),
      .worker () (.database true), .worker () (.queue 0 true)] = some (later, finish) ∧
    ∀ dial envelope raw, ((), Action.sent handOff.job.id dial envelope raw) ∉ later := by
  obtain ⟨trace, middle, actions, accepted, later, finish, handOff, hexecute, hallowed, hcontrol,
      hstep, hlater, hkept⟩ : ∃ trace middle actions accepted later finish handOff,
      execute oneWorker (oneJob Unit) sentToHost = some (trace, middle) ∧
      AllowedAlong oneWorker (fun system label => system.Steady label ∧ system.AuditKept label)
        (oneJob Unit) sentToHost ∧
      middle.control () = .sendRaw handOff "mx.y.io" [] ∧
      oneWorker middle (.worker () (.reply (.ok "250"))) = some (actions, accepted) ∧
      execute oneWorker accepted [.worker () (.database true), .worker () (.database true),
        .worker () (.database true), .worker () (.queue 0 true)] = some (later, finish) ∧
      AllowedAlong oneWorker (fun system label => system.Steady label ∧ system.AuditKept label)
        accepted [.worker () (.database true), .worker () (.database true),
          .worker () (.database true), .worker () (.queue 0 true)] :=
    ⟨_, _, _, _, _, _, _, rfl, by repeat' constructor, rfl, rfl, rfl, by repeat' constructor⟩
  exact ⟨trace, middle, actions, accepted, later, finish, handOff, hexecute, hcontrol,
    hstep, hlater, (System.auditIndependent_of_auditKept defaultContext rfl).once
      (execute_run_of_allowed hexecute hallowed) hcontrol hstep
      (execute_run_of_allowed hlater hkept)⟩

/-- Without the condition an accepted message goes out again. -/
theorem not_auditIndependent_lostAcceptance : ¬ ∀ (ctx : Context) (start : System Unit),
    start.control () = .idle → System.AuditIndependent ctx System.Steady start := by
  intro h
  obtain ⟨trace, middle, actions, accepted, later, finish, handOff, dial, envelope, raw, hexecute,
      hsteady, hcontrol, hstep, hlater, hstill, hlast⟩ :
      ∃ trace middle actions accepted later finish handOff dial envelope raw,
        execute oneWorker (oneJob Unit) sentToHost = some (trace, middle) ∧
        AllowedAlong oneWorker System.Steady (oneJob Unit) sentToHost ∧
        middle.control () = .sendRaw handOff "mx.y.io" [] ∧
        oneWorker middle (.worker () (.reply (.ok "250"))) = some (actions, accepted) ∧
        execute oneWorker accepted lostAcceptance = some (later, finish) ∧
        AllowedAlong oneWorker System.Steady accepted lostAcceptance ∧
        later.getLast? = some ((), Action.sent handOff.job.id dial envelope raw) :=
    ⟨_, _, _, _, _, _, _, _, _, _, rfl, by repeat' constructor, rfl, rfl, rfl,
      by repeat' constructor, rfl⟩
  exact (h defaultContext (oneJob Unit) rfl).once (execute_run_of_allowed hexecute hsteady) hcontrol
    hstep (execute_run_of_allowed hlater hstill) dial envelope raw (List.mem_of_getLast? hlast)

end Zonemail
