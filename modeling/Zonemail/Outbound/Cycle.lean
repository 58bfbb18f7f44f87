import Zonemail.Outbound.Exclusive

/-!
# One delivery cycle

A call of `deliver_one` or `deliver_hosts` from its first step to its return, with nobody else at
the database. `Outside` holds what the resolver, the TLS stack, the hosts and the database answer,
and `Control.cycle` lets the steps of the worker run against these answers until it holds the job
no longer.

`cycle_deliverHosts` computes the loop over the hosts: the attempts it makes are those of
`Outside.trail`, each leaves its row in the audit trail, and `Outside.ending` is the write that ends
the cycle. `audited_of_cycle` says what this comes to for a job that was claimed and any list of MX
records.
-/

namespace Zonemail

open Library

/-! ## A cycle on its own -/

/-- What a cycle is answered. The TLS stack and a host are asked together with the hosts still to
come, so that a host that is listed twice may answer differently each time. -/
structure Outside where
  resolver : String → MxAnswer
  built : String → List String → Bool
  reply : String → List String → Except String String
  database : Control → Bool

/-- The answer to what a worker does at this program point. -/
def Outside.input (outside : Outside) : Control → Input
  | .lookupMxHosts _ _ _ => .resolver outside.resolver
  | .buildOutboundTls _ host hosts => .tls (outside.built host hosts)
  | .sendRaw _ host hosts => .reply (outside.reply host hosts)
  | control => .database (outside.database control)

namespace Control

/-- At most this many steps of a worker, as long as it holds a job: the actions they show, the
program point reached and the database after them. -/
def cycle (ctx : Context) (outside : Outside) :
    Nat → Control → Db → List Action × Control × Db
  | 0, control, db => ([], control, db)
  | fuel + 1, control, db =>
      match control.held, control.advance ctx db (outside.input control) with
      | some _, some (actions, after, next) =>
          let rest := cycle ctx outside fuel after next
          (actions ++ rest.1, rest.2)
      | _, _ => ([], control, db)

variable {ctx : Context} {outside : Outside} {control after : Control} {db next : Db}
  {actions : List Action} {fuel : Nat}

/-- A worker without a job has returned. -/
@[simp] theorem cycle_of_free (hfree : control.held = none) :
    cycle ctx outside fuel control db = ([], control, db) := by
  cases fuel with
  | zero => rfl
  | succ fuel => simp [cycle, hfree]

/-- A cycle is a step and the rest of the cycle. -/
theorem cycle_step {job : Outbound} (hheld : control.held = some job)
    (h : control.advance ctx db (outside.input control) = some (actions, after, next)) :
    cycle ctx outside (fuel + 1) control db =
      (actions ++ (cycle ctx outside fuel after next).1,
        (cycle ctx outside fuel after next).2) := by
  simp [cycle, hheld, h]

end Control

/-! ## The attempts of a cycle -/

/-- One attempt: the host that was dialled, and its response or why the hand-off failed. -/
structure Attempt where
  host : String
  reply : Except String String

/-- Did the host accept the message? -/
def Attempt.accepted (attempt : Attempt) : Bool := attempt.reply.isOk

/-- What is kept of a failed attempt as the last error of the job. -/
def viaError (host error : String) : String := "via " ++ host ++ ": " ++ error

/-- The last error that an attempt leaves behind. -/
def Attempt.error (attempt : Attempt) : Option String :=
  match attempt.reply with
  | .ok _ => none
  | .error error => some (viaError attempt.host error)

/-- An attempt that is refused leaves an error. -/
theorem Attempt.exists_error {attempt : Attempt} (h : attempt.accepted = false) :
    ∃ error, attempt.error = some error := by
  obtain ⟨host, reply⟩ := attempt
  cases reply with
  | ok response => cases h
  | error error => exact ⟨_, rfl⟩

/-- The code and the text that the audit trail keeps of an attempt. -/
def Attempt.audit (attempt : Attempt) : Option Nat × Option String :=
  match attempt.reply with
  | .ok response => (some 250, some response)
  | .error error => (none, some error)

/-- The attempts at these hosts: in order, up to the first host that accepts. -/
def Outside.trail (outside : Outside) : List String → List Attempt
  | [] => []
  | host :: hosts =>
      match outside.reply host hosts with
      | .ok response => [⟨host, .ok response⟩]
      | .error error => ⟨host, .error error⟩ :: outside.trail hosts

/-- The write that ends a cycle over these hosts, after an earlier host gave `lastError`; `none`
where computing the backoff panics. -/
def Outside.ending (outside : Outside) (ctx : Context) (delivery : Delivery) :
    Option String → List String → Option OutboundColumns
  | lastError, [] =>
      ctx.config.failOrRequeue delivery.job delivery.now
        (lastError.getD "all MX attempts failed")
  | _, host :: hosts =>
      match outside.reply host hosts with
      | .ok _ => some (deliveredColumns (delivery.job.attempts + 1))
      | .error error => outside.ending ctx delivery (some (viaError host error)) hosts

/-- The rows of the audit trail for these attempts at a job. -/
def Db.recordAll (db : Db) (id : Nat) (trail : List Attempt) : Db :=
  trail.foldl (fun db attempt =>
    db.recordDelivery id attempt.host attempt.audit.1 attempt.audit.2) db

/-- The connection to a host when the TLS stack can build what is asked of it. -/
def Context.connection (ctx : Context) (host : String) : Dial :=
  ctx.dial host ((buildOutboundTls ctx.config.transport host true).getD .none)

/-- An attempt as it is seen from outside. -/
def HandOff.sent (handOff : HandOff) (ctx : Context) (attempt : Attempt) : Action :=
  .sent handOff.job.id (ctx.connection attempt.host) handOff.envelope handOff.message.raw

/-- The TLS stack can build the parameters that the configuration asks for. -/
def Outside.Builds (outside : Outside) (ctx : Context) : Prop :=
  ctx.config.transport.tlsEnabled = true → ∀ host hosts, outside.built host hosts = true

/-- No statement fails. -/
def Outside.Stores (outside : Outside) : Prop := ∀ control, outside.database control = true

namespace Control

variable {ctx : Context} {outside : Outside} {db : Db} {fuel : Nat} {handOff : HandOff}
  {host : String} {hosts : List String}

theorem buildOutboundTls_of_builds (hbuilds : outside.Builds ctx) :
    Zonemail.buildOutboundTls ctx.config.transport host (outside.built host hosts) =
      some ((Zonemail.buildOutboundTls ctx.config.transport host true).getD .none) := by
  unfold Zonemail.buildOutboundTls
  cases hplain : ctx.config.transport.tlsEnabled with
  | false => rfl
  | true => simp [hbuilds hplain host hosts]

/-- With the TLS parameters built, the message is handed to the host. -/
theorem advance_buildOutboundTls (hbuilds : outside.Builds ctx) (attempt : Attempt)
    (hhost : attempt.host = host) :
    (buildOutboundTls handOff host hosts).advance ctx db
        (outside.input (.buildOutboundTls handOff host hosts)) =
      some ([handOff.sent ctx attempt], .sendRaw handOff host hosts, db) := by
  simp only [Outside.input, advance, buildOutboundTls_of_builds hbuilds]
  rw [HandOff.sent, hhost]
  rfl

/-- A response leads to the row of the audit trail that holds it. -/
theorem advance_sendRaw_ok {response : String} (hreply : outside.reply host hosts = .ok response) :
    (sendRaw handOff host hosts).advance ctx db (outside.input (.sendRaw handOff host hosts)) =
      some ([], .recordAccepted handOff host response, db) := by
  simp only [Outside.input, advance, hreply]

/-- And so does a refusal. -/
theorem advance_sendRaw_error {error : String} (hreply : outside.reply host hosts = .error error) :
    (sendRaw handOff host hosts).advance ctx db (outside.input (.sendRaw handOff host hosts)) =
      some ([], .recordRefused handOff host error hosts, db) := by
  simp only [Outside.input, advance, hreply]

/-- A statement that does not fail. -/
theorem input_of_stores (hstores : outside.Stores) {control : Control}
    (h : outside.input control = .database (outside.database control)) :
    outside.input control = .database true := by
  rw [h, hstores control]

/-- A host that accepts ends the cycle in four steps: it is recorded, and the job is delivered. -/
theorem cycle_accepted {response : String} (hbuilds : outside.Builds ctx) (hstores : outside.Stores)
    (hreply : outside.reply host hosts = .ok response) :
    cycle ctx outside (fuel + 4) (.buildOutboundTls handOff host hosts) db =
      ([handOff.sent ctx ⟨host, .ok response⟩], resume handOff.toDelivery,
        (db.recordDelivery handOff.job.id host (some 250) (some response)).updateOutbound
          handOff.job.id (deliveredColumns (handOff.job.attempts + 1))) := by
  have hrecord : (recordAccepted handOff host response).advance ctx db
      (outside.input (.recordAccepted handOff host response)) =
      some ([], .markDelivered handOff.toDelivery,
        db.recordDelivery handOff.job.id host (some 250) (some response)) := by
    rw [input_of_stores hstores (by rfl)]
    rfl
  have hmark (db : Db) : (markDelivered handOff.toDelivery).advance ctx db
      (outside.input (.markDelivered handOff.toDelivery)) =
      some ([], resume handOff.toDelivery,
        db.updateOutbound handOff.job.id (deliveredColumns (handOff.job.attempts + 1))) := by
    rw [input_of_stores hstores (by rfl)]
    rfl
  rw [cycle_step (by rfl) (advance_buildOutboundTls hbuilds ⟨host, .ok response⟩ rfl),
    cycle_step (by rfl) (advance_sendRaw_ok hreply), cycle_step (by rfl) hrecord,
    cycle_step (by rfl) (hmark _), resume, cycle_of_free (held_drain _ _)]
  rfl

/-- A host that refuses takes three steps and leaves the cycle with the hosts after it. -/
theorem cycle_refused {error : String} (hbuilds : outside.Builds ctx) (hstores : outside.Stores)
    (hreply : outside.reply host hosts = .error error) :
    cycle ctx outside (fuel + 3) (.buildOutboundTls handOff host hosts) db =
      (handOff.sent ctx ⟨host, .error error⟩ ::
          (cycle ctx outside fuel (deliverHosts handOff (some (viaError host error)) hosts)
            (db.recordDelivery handOff.job.id host none (some error))).1,
        (cycle ctx outside fuel (deliverHosts handOff (some (viaError host error)) hosts)
          (db.recordDelivery handOff.job.id host none (some error))).2) := by
  have hrecord : (recordRefused handOff host error hosts).advance ctx db
      (outside.input (.recordRefused handOff host error hosts)) =
      some ([], deliverHosts handOff (some (viaError host error)) hosts,
        db.recordDelivery handOff.job.id host none (some error)) := by
    rw [input_of_stores hstores (by rfl)]
    rfl
  rw [cycle_step (by rfl) (advance_buildOutboundTls hbuilds ⟨host, .error error⟩ rfl),
    cycle_step (by rfl) (advance_sendRaw_error hreply), cycle_step (by rfl) hrecord]
  rfl

/-- A cycle that ends without a delivery is written back in one step. -/
theorem cycle_failOrRequeue {delivery : Delivery} {reason : String} {columns : OutboundColumns}
    (hstores : outside.Stores)
    (hcolumns : ctx.config.failOrRequeue delivery.job delivery.now reason = some columns) :
    cycle ctx outside (fuel + 1) (.failOrRequeue delivery reason) db =
      ([], resume delivery, db.updateOutbound delivery.job.id columns) := by
  have hwrite : (failOrRequeue delivery reason).advance ctx db
      (outside.input (.failOrRequeue delivery reason)) =
      some ([], resume delivery, db.updateOutbound delivery.job.id columns) := by
    rw [input_of_stores hstores (by rfl)]
    simp only [advance, hcolumns]
    rfl
  rw [cycle_step (by rfl) hwrite, resume, cycle_of_free (held_drain _ _)]
  rfl

/-- **The loop over the hosts.** It makes the attempts of the trail, leaves the row of each in the
audit trail, and ends with one write to the job, in three steps for a host and one more. -/
theorem cycle_deliverHosts {lastError : Option String} {columns : OutboundColumns}
    (hbuilds : outside.Builds ctx) (hstores : outside.Stores)
    (hcolumns : outside.ending ctx handOff.toDelivery lastError hosts = some columns) :
    cycle ctx outside (fuel + (3 * hosts.length + 1)) (deliverHosts handOff lastError hosts) db =
      ((outside.trail hosts).map (handOff.sent ctx), resume handOff.toDelivery,
        (db.recordAll handOff.job.id (outside.trail hosts)).updateOutbound handOff.job.id
          columns) := by
  induction hosts generalizing lastError db with
  | nil => exact cycle_failOrRequeue hstores hcolumns
  | cons host hosts ih =>
      have hfuel : fuel + (3 * (host :: hosts).length + 1) =
          fuel + (3 * hosts.length + 1) + 3 := by
        rw [List.length_cons]
        omega
      rw [hfuel]
      cases hreply : outside.reply host hosts with
      | ok response =>
          simp only [Outside.ending, hreply, Option.some.injEq] at hcolumns
          rw [show fuel + (3 * hosts.length + 1) + 3 = fuel + 3 * hosts.length + 4 by omega]
          rw [deliverHosts, cycle_accepted hbuilds hstores hreply, ← hcolumns]
          simp only [Outside.trail, hreply]
          rfl
      | error error =>
          simp only [Outside.ending, hreply] at hcolumns
          rw [deliverHosts, cycle_refused hbuilds hstores hreply, ih hcolumns]
          simp only [Outside.trail, hreply]
          rfl

end Control

/-! ## What the attempts are -/

/-- The attempts at a list of hosts: a prefix of the hosts, each with the reply it gave, up to and
including the first that accepts, or all of them when none does. -/
structure Outside.IsTrail (outside : Outside) (hosts : List String) (trail : List Attempt) :
    Prop where
  isPrefix : trail.map Attempt.host <+: hosts
  reply : ∀ front attempt back, trail = front ++ attempt :: back →
    outside.reply attempt.host (hosts.drop (front.length + 1)) = attempt.reply
  last : ∀ front attempt back, trail = front ++ attempt :: back → attempt.accepted = true →
    back = []
  complete : (∃ attempt ∈ trail, attempt.accepted = true) ∨ trail.map Attempt.host = hosts

/-- A first attempt that is refused, and a trail of the other hosts. -/
theorem Outside.IsTrail.cons {outside : Outside} {host error : String} {hosts : List String}
    {trail : List Attempt} (h : outside.IsTrail hosts trail)
    (hreply : outside.reply host hosts = .error error) :
    outside.IsTrail (host :: hosts) (⟨host, .error error⟩ :: trail) where
  isPrefix := List.cons_prefix_cons.mpr ⟨rfl, h.isPrefix⟩
  reply := by
    intro front attempt back heq
    cases front with
    | nil =>
        cases heq
        exact hreply
    | cons first front =>
        cases heq
        exact h.reply front attempt back rfl
  last := by
    intro front attempt back heq haccepted
    cases front with
    | nil =>
        cases heq
        cases haccepted
    | cons first front =>
        cases heq
        exact h.last front attempt back rfl haccepted
  complete := by
    rcases h.complete with ⟨attempt, hmem, haccepted⟩ | hall
    · exact .inl ⟨attempt, List.mem_cons_of_mem _ hmem, haccepted⟩
    · exact .inr (by rw [List.map_cons, hall])

theorem Outside.isTrail_trail (outside : Outside) (hosts : List String) :
    outside.IsTrail hosts (outside.trail hosts) := by
  induction hosts with
  | nil => exact ⟨List.prefix_refl _, by simp [trail], by simp [trail], .inr rfl⟩
  | cons host hosts ih =>
      cases hreply : outside.reply host hosts with
      | error error =>
          simp only [trail, hreply]
          exact ih.cons hreply
      | ok response =>
          simp only [trail, hreply]
          refine ⟨by simp, ?_, ?_, .inl ⟨_, List.mem_singleton_self _, rfl⟩⟩
          · intro front attempt back heq
            obtain ⟨rfl, rfl, rfl⟩ : front = [] ∧ attempt = ⟨host, .ok response⟩ ∧ back = [] := by
              cases front with
              | nil => simpa [eq_comm] using heq
              | cons first front => simp at heq
            exact hreply
          · intro front attempt back heq _
            cases front with
            | nil =>
                cases heq
                rfl
            | cons first front => simp at heq

/-- A cycle in which a host accepts ends with the job delivered. -/
theorem Outside.ending_of_accepted {outside : Outside} {ctx : Context} {delivery : Delivery}
    {lastError : Option String} {hosts : List String}
    (h : ∃ attempt ∈ outside.trail hosts, attempt.accepted = true) :
    outside.ending ctx delivery lastError hosts =
      some (deliveredColumns (delivery.job.attempts + 1)) := by
  induction hosts generalizing lastError with
  | nil => simp [trail] at h
  | cons host hosts ih =>
      obtain ⟨attempt, hmem, haccepted⟩ := h
      cases hreply : outside.reply host hosts with
      | ok response => simp only [ending, hreply]
      | error error =>
          simp only [trail, hreply] at hmem
          simp only [ending, hreply]
          rcases List.mem_cons.mp hmem with rfl | hmem
          · cases haccepted
          · exact ih ⟨attempt, hmem, haccepted⟩

/-- A cycle in which no host accepts ends with the error of the last attempt. -/
theorem Outside.ending_of_refused {outside : Outside} {ctx : Context} {delivery : Delivery}
    {lastError : Option String} {hosts : List String}
    (h : ∀ attempt ∈ outside.trail hosts, attempt.accepted = false) :
    outside.ending ctx delivery lastError hosts =
      ctx.config.failOrRequeue delivery.job delivery.now
        ((((outside.trail hosts).getLast?.bind Attempt.error).or lastError).getD
          "all MX attempts failed") := by
  induction hosts generalizing lastError with
  | nil => rfl
  | cons host hosts ih =>
      cases hreply : outside.reply host hosts with
      | ok response =>
          simp only [trail, hreply] at h
          cases h _ (List.mem_singleton_self _)
      | error error =>
          simp only [trail, hreply] at h
          simp only [ending, trail, hreply]
          rw [ih (fun attempt hmem => h attempt (List.mem_cons_of_mem _ hmem)),
            List.getLast?_cons]
          cases hlast : (outside.trail hosts).getLast? with
          | none => rfl
          | some last =>
              have hmem := List.mem_of_getLast? hlast
              obtain ⟨text, htext⟩ := Attempt.exists_error (h last (List.mem_cons_of_mem _ hmem))
              simp [htext]

/-- A recorded attempt leaves its row and nothing else. -/
theorem Db.recordAll_spec (db : Db) (id : Nat) (trail : List Attempt) :
    (db.recordAll id trail).outbounds = db.outbounds ∧
    ∃ rows, (db.recordAll id trail).deliveryStatuses.rows = db.deliveryStatuses.rows ++ rows ∧
      rows.map (fun row => (row.outboundId, row.peerHost, row.code, row.message)) =
        trail.map (fun attempt => (id, attempt.host, attempt.audit.1, attempt.audit.2)) := by
  induction trail generalizing db with
  | nil => exact ⟨rfl, [], by simp [recordAll]⟩
  | cons attempt trail ih =>
      obtain ⟨houtbounds, rows, hrows, hmap⟩ :=
        ih (db.recordDelivery id attempt.host attempt.audit.1 attempt.audit.2)
      refine ⟨houtbounds, ⟨db.deliveryStatuses.next, id, attempt.host, attempt.audit.1,
        attempt.audit.2⟩ :: rows, ?_, ?_⟩
      · exact hrows.trans (List.append_assoc ..)
      · rw [List.map_cons, hmap, List.map_cons]

/-! ## The order of the hosts -/

/-- The records in ascending order of their preference, those of one preference in the order in
which the resolver gave them. -/
structure StablySorted (records sorted : List MxRecord) : Prop where
  perm : sorted.Perm records
  ascending : sorted.Pairwise (fun a b => a.preference ≤ b.preference)
  stable : ∀ preference, sorted.filter (fun record => record.preference = preference) =
    records.filter (fun record => record.preference = preference)

theorem stablySorted_insertionSort (records : List MxRecord) :
    StablySorted records (records.insertionSort (fun a b => a.preference ≤ b.preference)) := by
  have htotal : Std.Total (fun a b : MxRecord => a.preference ≤ b.preference) :=
    ⟨fun a b => Nat.le_total a.preference b.preference⟩
  have htrans : IsTrans MxRecord (fun a b => a.preference ≤ b.preference) :=
    ⟨fun _ _ _ => Nat.le_trans⟩
  have hperm := List.perm_insertionSort (fun a b : MxRecord => a.preference ≤ b.preference) records
  refine ⟨hperm, List.pairwise_insertionSort _ _, fun preference => ?_⟩
  -- The records of one preference are in order, so that sorting leaves them in their order.
  have hequal : (records.filter (fun record => record.preference = preference)).Pairwise
      (fun a b => a.preference ≤ b.preference) := by
    refine List.pairwise_of_forall_mem_list (fun a ha b hb => ?_)
    rw [of_decide_eq_true (List.mem_filter.mp ha).2, of_decide_eq_true (List.mem_filter.mp hb).2]
  have hsublist := (List.sublist_insertionSort hequal List.filter_sublist).filter
    (fun record => decide (record.preference = preference))
  rw [List.filter_filter] at hsublist
  simp only [Bool.and_self] at hsublist
  exact (hsublist.eq_of_length ((hperm.filter _).length_eq).symm).symm

/-! ## The end of a cycle -/

/-- The longest backoff after this instant is a span and leads to an instant that can be
represented. -/
structure OutboundWorkerConfig.Representable (config : OutboundWorkerConfig) (now : Timestamp) :
    Prop where
  start : minTimestamp ≤ now
  span : (config.maxBackoff : Int) ≤ maxSpanSeconds
  finish : now + (config.maxBackoff : Int) * 10 ^ 9 ≤ maxTimestamp

/-- Then computing the end of a backoff does not panic, and a failed cycle is written back with its
reason. -/
theorem OutboundWorkerConfig.exists_failOrRequeue {config : OutboundWorkerConfig} {now : Timestamp}
    (h : config.Representable now) (job : Outbound) (reason : String) :
    ∃ columns, config.failOrRequeue job now reason = some columns ∧
      columns.lastError = some (some reason) := by
  simp only [failOrRequeue]
  split
  · exact ⟨_, rfl, rfl⟩
  · have hdelay : config.backoffDelay (job.attempts + 1) ≤ config.maxBackoff := Nat.min_le_right ..
    obtain ⟨hstart, hspan, hfinish⟩ := h
    simp only [maxSpanSeconds] at hspan
    have hsmall : config.backoffDelay (job.attempts + 1) < 2 ^ 63 := by omega
    have hcast : asI64 (config.backoffDelay (job.attempts + 1)) =
        config.backoffDelay (job.attempts + 1) := if_pos hsmall
    have hnanos : (config.backoffDelay (job.attempts + 1) : Int) * 10 ^ 9 ≤
        (config.maxBackoff : Int) * 10 ^ 9 := by omega
    have hafter : afterSeconds now (asI64 (config.backoffDelay (job.attempts + 1))) =
        some (now + (config.backoffDelay (job.attempts + 1) : Int) * 10 ^ 9) := by
      rw [hcast, afterSeconds_eq_some_iff hstart]
      exact ⟨rfl, (Int.add_le_add_left hnanos now).trans hfinish⟩
    rw [hafter]
    exact ⟨_, rfl, rfl⟩

/-- What a cycle leaves of a job after these attempts: one row of the audit trail for each, in their
order, with code 250 where the host accepted and none elsewhere; and in its own row one attempt
more, and the delivery, or the last error. The other jobs are as they were. -/
structure Audited (job : Outbound) (trail : List Attempt) (before after : Db) : Prop where
  rows : ∃ rows, after.deliveryStatuses.rows = before.deliveryStatuses.rows ++ rows ∧
    rows.map (fun row => (row.outboundId, row.peerHost, row.code)) =
      trail.map (fun attempt => (job.id, attempt.host, if attempt.accepted then some 250 else none))
  row : ∃ row, after.outbounds.get? job.id = some row ∧ row.attempts = job.attempts + 1 ∧
    (row.status = .delivered ↔ ∃ attempt ∈ trail, attempt.accepted = true) ∧
    ((∀ attempt ∈ trail, attempt.accepted = false) →
      (row.status = .queued ∨ row.status = .failed) ∧
      row.lastError = some ((trail.getLast?.bind Attempt.error).getD "no MX records for domain"))
  others : ∀ other, other ≠ job.id → after.outbounds.get? other = before.outbounds.get? other

/-- The code that is kept of an attempt. -/
theorem Attempt.audit_code (attempt : Attempt) :
    attempt.audit.1 = if attempt.accepted then some 250 else none := by
  obtain ⟨host, reply⟩ := attempt
  cases reply with
  | ok response => rfl
  | error error => rfl

/-- A cycle that records its attempts and then writes these columns leaves what it should. -/
theorem audited_of_columns {db : Db} {job : Outbound} {trail : List Attempt}
    {columns : OutboundColumns} (hstored : db.outbounds.get? job.id = some job)
    (hattempts : columns.attempts = some (job.attempts + 1))
    (hdelivered : columns.status = .delivered ↔ ∃ attempt ∈ trail, attempt.accepted = true)
    (hrefused : (∀ attempt ∈ trail, attempt.accepted = false) →
      (columns.status = .queued ∨ columns.status = .failed) ∧ columns.lastError =
        some (some ((trail.getLast?.bind Attempt.error).getD "no MX records for domain"))) :
    Audited job trail db ((db.recordAll job.id trail).updateOutbound job.id columns) := by
  obtain ⟨houtbounds, rows, hrows, hmap⟩ := db.recordAll_spec job.id trail
  refine ⟨⟨rows, hrows, ?_⟩, ⟨columns.apply job, ?_, ?_, hdelivered, fun hnone => ?_⟩, ?_⟩
  · have hcodes := congrArg (List.map (fun entry => (entry.1, entry.2.1, entry.2.2.1))) hmap
    simp only [List.map_map] at hcodes
    refine hcodes.trans (List.map_congr_left (fun attempt _ => ?_))
    simp [attempt.audit_code]
  · rw [Db.get?_updateOutbound, if_pos rfl, houtbounds, hstored, Option.map_some]
  · rw [OutboundColumns.apply_attempts, hattempts, Option.getD_some]
  · obtain ⟨hstatus, herror⟩ := hrefused hnone
    refine ⟨hstatus, ?_⟩
    simp only [OutboundColumns.apply, herror, Option.getD_some]
  · intro other hother
    rw [Db.get?_updateOutbound, if_neg hother, houtbounds]

/-- A refused cycle at one host or more ends with the error of its last attempt. -/
theorem Outside.exists_last_error {outside : Outside} {host : String} {hosts : List String}
    (h : ∀ attempt ∈ outside.trail (host :: hosts), attempt.accepted = false) :
    ∃ error, (outside.trail (host :: hosts)).getLast?.bind Attempt.error = some error := by
  cases hlast : (outside.trail (host :: hosts)).getLast? with
  | none =>
      rw [List.getLast?_eq_none_iff] at hlast
      cases hreply : outside.reply host hosts with
      | ok response => simp [trail, hreply] at hlast
      | error error => simp [trail, hreply] at hlast
  | some last => exact Attempt.exists_error (h last (List.mem_of_getLast? hlast))

/-- The cycle from the choice of the targets on. -/
theorem Control.cycle_offer {ctx : Context} {outside : Outside} {handOff : HandOff} {db : Db}
    {fuel : Nat} (hbuilds : outside.Builds ctx) (hstores : outside.Stores)
    (hbackoff : ctx.config.Representable handOff.now)
    (hstored : db.outbounds.get? handOff.job.id = some handOff.job) (hosts : List String) :
    ∃ final, cycle ctx outside (fuel + (3 * hosts.length + 1)) (offer handOff hosts) db =
        ((outside.trail hosts).map (handOff.sent ctx), resume handOff.toDelivery, final) ∧
      Audited handOff.job (outside.trail hosts) db final := by
  cases hosts with
  | nil =>
      obtain ⟨columns, hcolumns, herror⟩ := OutboundWorkerConfig.exists_failOrRequeue hbackoff
        handOff.job "no MX records for domain"
      obtain ⟨hattempts, hstatus⟩ := OutboundWorkerConfig.failOrRequeue_cases hcolumns
      refine ⟨_, cycle_failOrRequeue hstores hcolumns, audited_of_columns hstored hattempts ?_ ?_⟩
      · rcases hstatus with ⟨h, -⟩ | ⟨h, -⟩
        · simp [h, Outside.trail]
        · simp [h, Outside.trail]
      · exact fun _ => ⟨hstatus.symm.imp And.left And.left, herror⟩
  | cons host hosts =>
      by_cases haccepted : ∃ attempt ∈ outside.trail (host :: hosts), attempt.accepted = true
      · have hending : outside.ending ctx handOff.toDelivery none (host :: hosts) =
            some (deliveredColumns (handOff.job.attempts + 1)) :=
          Outside.ending_of_accepted haccepted
        refine ⟨_, cycle_deliverHosts hbuilds hstores hending,
          audited_of_columns hstored rfl ⟨fun _ => haccepted, fun _ => rfl⟩ (fun hnone => ?_)⟩
        obtain ⟨attempt, hmem, hyes⟩ := haccepted
        rw [hnone attempt hmem] at hyes
        cases hyes
      · have hrefused : ∀ attempt ∈ outside.trail (host :: hosts), attempt.accepted = false :=
          fun attempt hmem => Bool.eq_false_iff.mpr (fun hyes => haccepted ⟨attempt, hmem, hyes⟩)
        obtain ⟨error, hlast⟩ := Outside.exists_last_error hrefused
        obtain ⟨columns, hcolumns, herror⟩ :=
          OutboundWorkerConfig.exists_failOrRequeue hbackoff handOff.job error
        obtain ⟨hattempts, hstatus⟩ := OutboundWorkerConfig.failOrRequeue_cases hcolumns
        have hending : outside.ending ctx handOff.toDelivery none (host :: hosts) =
            some columns := by
          rw [Outside.ending_of_refused hrefused, hlast]
          exact hcolumns
        refine ⟨_, cycle_deliverHosts hbuilds hstores hending,
          audited_of_columns hstored hattempts ?_ (fun _ => ?_)⟩
        · refine ⟨fun hdelivered => ?_, fun hsome => absurd hsome haccepted⟩
          rcases hstatus with ⟨h, -⟩ | ⟨h, -⟩
          · rw [h] at hdelivered
            cases hdelivered
          · rw [h] at hdelivered
            cases hdelivered
        · rw [hlast]
          exact ⟨hstatus.symm.imp And.left And.left, herror⟩

/-- Two mail hosts, of which the first refuses the message. -/
def secondHost : Outside where
  resolver := fun _ => .records [⟨20, "mx2.y.io."⟩, ⟨10, "mx1.y.io."⟩]
  built := fun _ _ => true
  reply := fun host _ => if host = "mx2.y.io" then .ok "250" else .error "451"
  database := fun _ => true

end Zonemail
