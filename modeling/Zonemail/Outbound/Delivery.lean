import Mathlib.Algebra.Ring.Nat
import Mathlib.Algebra.Ring.Int.Defs
import Mathlib.Data.List.Sort
import Zonemail.Db.Statement

/-!
# What one delivery attempt computes

The pure parts of `send.rs`: the transport configuration and what it makes of a target host, the
envelope, the order of the MX hosts, the backoff, and the column writes by which a job is claimed,
reclaimed, delivered, re-queued or given up. `Outbound.Worker` puts them in sequence.

The SMTP and DNS libraries enter as data: how they parse an address is a function of the context,
and what a resolver, a TLS stack or a peer answers is an argument.
-/

namespace Zonemail

open Library

/-! ## Configuration -/

/-- TLS posture of the outbound connection. -/
inductive OutboundTlsMode where
  | plain | opportunistic | required | implicit
  deriving DecidableEq, Repr

/-- A fixed upstream submission relay. Port 0 stands for the worker's submission port. -/
structure OutboundRelay where
  host : Option String
  port : Nat
  user : Option String
  password : Option String
  passwordEnv : Option String
  deriving DecidableEq, Repr

/-- Was a host given? -/
def OutboundRelay.isConfigured (relay : OutboundRelay) : Bool := relay.host.isSome

/-- The user with the password from the environment variable, when one is named, else with the
inline password. -/
def OutboundRelay.credentials (relay : OutboundRelay) (var : String → Option String) :
    Option (String × String) := do
  let user ← relay.user
  let pass ← match relay.passwordEnv with
    | some env => var env
    | none => relay.password
  pure (user, pass)

/-- Outbound transport and security configuration. -/
structure OutboundTransport where
  tls : OutboundTlsMode
  relay : Option OutboundRelay
  insecure : Bool
  deriving DecidableEq, Repr

/-- Is any TLS requested? -/
def OutboundTransport.tlsEnabled (transport : OutboundTransport) : Bool := transport.tls ≠ .plain

/-- Is a fixed relay usable? -/
def OutboundTransport.relayConfigured (transport : OutboundTransport) : Bool :=
  transport.relay.any OutboundRelay.isConfigured

/-- The parameters of the worker; the backoffs are whole seconds. -/
structure OutboundWorkerConfig where
  maxAttempts : Nat
  baseBackoff : Nat
  maxBackoff : Nat
  transport : OutboundTransport
  submissionPort : Nat
  deriving DecidableEq, Repr

/-- What a worker runs with: its parameters, the process environment, and the address parser of the
SMTP library, which gives the canonical address or says what is wrong with the text. -/
structure Context where
  config : OutboundWorkerConfig
  var : String → Option String
  parseAddress : String → Except String String

/-! ## One target host -/

/-- The peer name and trust setting of a TLS connection. -/
structure TlsParameters where
  domain : String
  acceptInvalid : Bool
  deriving DecidableEq, Repr

/-- The TLS selection of one connection. -/
inductive Tls where
  | none
  | opportunistic (parameters : TlsParameters)
  | required (parameters : TlsParameters)
  | wrapper (parameters : TlsParameters)
  deriving DecidableEq, Repr

/-- The TLS selection for a peer, or `none` when the TLS stack could not build its parameters. -/
def buildOutboundTls (transport : OutboundTransport) (domain : String) (built : Bool) :
    Option Tls :=
  if !transport.tlsEnabled then some .none
  else if !built then none
  else
    let parameters : TlsParameters := ⟨domain, transport.insecure⟩
    some (match transport.tls with
      | .opportunistic => .opportunistic parameters
      | .required => .required parameters
      | .implicit => .wrapper parameters
      | .plain => .none)

/-- How a host is dialled. -/
structure Dial where
  host : String
  port : Nat
  tls : Tls
  credentials : Option (String × String)
  deriving DecidableEq, Repr

/-- The port dialled on a target. -/
def OutboundWorkerConfig.port (config : OutboundWorkerConfig) : Nat :=
  match config.transport.relay with
  | none => config.submissionPort
  | some relay => if relay.port = 0 then config.submissionPort else relay.port

/-- The connection to a target with this TLS selection. -/
def Context.dial (ctx : Context) (host : String) (tls : Tls) : Dial where
  host := host
  port := ctx.config.port
  tls := tls
  credentials := ctx.config.transport.relay.bind (fun relay => relay.credentials ctx.var)

/-- The hosts a job is offered to: the relay when one is configured, else the MX hosts. -/
def OutboundWorkerConfig.targets (config : OutboundWorkerConfig) (hosts : List String) :
    Except String (List String) :=
  if config.transport.relayConfigured then
    match config.transport.relay.bind OutboundRelay.host with
    | none => .error "outbound relay is configured but has no `host`"
    | some host => .ok [host]
  else .ok hosts

/-! ## Envelope and MX hosts -/

/-- An error with its context in front. -/
def err (context text : String) : String := context ++ ": " ++ text

/-- The SMTP envelope of one job. -/
structure Envelope where
  reversePath : Option String
  forwardPath : String
  deriving DecidableEq, Repr

/-- The stored `MAIL FROM`, which may be blank, and the job's recipient. -/
def Context.buildEnvelope (ctx : Context) (mailFrom recipient : String) :
    Except String Envelope := do
  let reversePath ←
    if (Text.trim mailFrom).isEmpty then pure none
    else some <$> (ctx.parseAddress mailFrom).mapError (err "invalid MAIL FROM")
  let forwardPath ← (ctx.parseAddress recipient).mapError (err "invalid RCPT TO")
  pure ⟨reversePath, forwardPath⟩

/-- One MX record of a lookup. -/
structure MxRecord where
  preference : Nat
  exchange : String
  deriving DecidableEq, Repr

/-- What the system resolver does with an MX lookup. -/
inductive MxAnswer where
  | noResolver (text : String)
  | failed (text : String)
  | records (records : List MxRecord)

/-- The SMTP target of an MX record: its exchange without the root dot. -/
def mxHost (record : MxRecord) : Option String :=
  let host := Text.trimEndMatches (· == '.') record.exchange
  if host.isEmpty then none else some host

/-- The MX hosts of a recipient's domain, lowest preference first; ties keep resolver order. -/
def lookupMxHosts (recipient : String) (resolver : String → MxAnswer) :
    Except String (List String) :=
  match (Text.split '@' recipient).getLast? with
  | none => .error (err "invalid RCPT TO: no domain part" "recipient")
  | some domain =>
      match resolver domain with
      | .noResolver text => .error (err "failed to build DNS resolver" text)
      | .failed text => .error (err "MX lookup failed" text)
      | .records records =>
          .ok ((records.insertionSort (fun a b => a.preference ≤ b.preference)).filterMap mxHost)

/-! ## Backoff -/

/-- The largest `u64`. -/
def u64Max : Nat := 2 ^ 64 - 1

/-- `base_backoff * 2 ^ (attempts - 1)` seconds, capped at `max_backoff`, in `u64` arithmetic that
saturates. -/
def OutboundWorkerConfig.backoffDelay (config : OutboundWorkerConfig) (attempts : Nat) : Nat :=
  let shift := min (attempts - 1) 62
  let seconds := min (config.baseBackoff * 2 ^ shift) u64Max
  min seconds config.maxBackoff

/-- The value of a `u64` cast to `i64`. -/
def asI64 (n : Nat) : Int := if n < 2 ^ 63 then n else (n : Int) - 2 ^ 64

/-- The largest number of seconds of a span. -/
def maxSpanSeconds : Int := 631107417600

/-- The first and last instants that can be represented. -/
def minTimestamp : Timestamp := -377705023201 * 10 ^ 9
@[inherit_doc minTimestamp] def maxTimestamp : Timestamp := 253402207200 * 10 ^ 9 + 999999999

/-- The instant a number of seconds after `now`, or `none` where computing it panics. -/
def afterSeconds (now : Timestamp) (seconds : Int) : Option Timestamp :=
  if seconds < -maxSpanSeconds ∨ maxSpanSeconds < seconds then none
  else
    let next := now + seconds * 10 ^ 9
    if next < minTimestamp ∨ maxTimestamp < next then none else some next

/-- The instant reached is the one asked for. -/
theorem eq_of_afterSeconds {now next : Timestamp} {seconds : Int}
    (h : afterSeconds now seconds = some next) :
    next = now + seconds * 10 ^ 9 ∧ next ≤ maxTimestamp := by
  simp only [afterSeconds] at h
  split at h
  · cases h
  · split at h
    · cases h
    · rename_i hrange
      cases h
      exact ⟨rfl, Int.not_lt.mp (not_or.mp hrange).2⟩

/-- Instants that can be represented are at most the longest span apart. -/
theorem le_maxSpanSeconds {now : Timestamp} {seconds : Int} (hnow : minTimestamp ≤ now)
    (hlast : now + seconds * 10 ^ 9 ≤ maxTimestamp) : seconds ≤ maxSpanSeconds := by
  have hdistance : ∀ start span : Int, -377705023201 * 10 ^ 9 ≤ start →
      start + span * 10 ^ 9 ≤ 253402207200 * 10 ^ 9 + 999999999 → span ≤ 631107417600 := by
    omega
  exact hdistance now seconds hnow hlast

/-- Going forward panics only where it would pass the last instant. -/
theorem afterSeconds_eq_some_iff {now next : Timestamp} {seconds : Nat}
    (hnow : minTimestamp ≤ now) :
    afterSeconds now (seconds : Int) = some next ↔
      next = now + (seconds : Int) * 10 ^ 9 ∧ next ≤ maxTimestamp := by
  constructor
  · exact eq_of_afterSeconds
  · intro h
    obtain ⟨rfl, hlast⟩ := h
    have hspan : ¬ ((seconds : Int) < -maxSpanSeconds ∨ maxSpanSeconds < (seconds : Int)) := by
      have hle := le_maxSpanSeconds hnow hlast
      unfold maxSpanSeconds at hle ⊢
      omega
    have hforward : minTimestamp ≤ now + (seconds : Int) * 10 ^ 9 :=
      hnow.trans (Int.le_add_of_nonneg_right (by omega))
    rw [afterSeconds, if_neg hspan]
    exact if_neg (not_or.mpr ⟨Int.not_lt.mpr hforward, Int.not_lt.mpr hlast⟩)

/-! ## Column writes -/

/-- The columns an update of a job names; `none` leaves a column as it is stored. -/
structure OutboundColumns where
  status : OutboundStatus
  attempts : Option Nat := none
  nextAttemptAt : Option (Option Timestamp) := none
  lastError : Option (Option String) := none
  deriving DecidableEq, Repr

/-- Write the named columns into a row. -/
def OutboundColumns.apply (columns : OutboundColumns) (row : Outbound) : Outbound :=
  { row with
    status := columns.status
    attempts := columns.attempts.getD row.attempts
    nextAttemptAt := columns.nextAttemptAt.getD row.nextAttemptAt
    lastError := columns.lastError.getD row.lastError }

@[simp] theorem OutboundColumns.apply_id (columns : OutboundColumns) (row : Outbound) :
    (columns.apply row).id = row.id := rfl

@[simp] theorem OutboundColumns.apply_status (columns : OutboundColumns) (row : Outbound) :
    (columns.apply row).status = columns.status := rfl

@[simp] theorem OutboundColumns.apply_attempts (columns : OutboundColumns) (row : Outbound) :
    (columns.apply row).attempts = columns.attempts.getD row.attempts := rfl

/-- The update of one job by its primary key. -/
def Db.updateOutbound (db : Db) (id : Nat) (columns : OutboundColumns) : Db :=
  { db with outbounds := db.outbounds.modify id columns.apply (fun _ => rfl) }

/-- Back to the queue, to be tried at once. The attempt counter is not touched. -/
def reclaimedColumns : OutboundColumns where
  status := .queued
  nextAttemptAt := some none
  lastError := some none

/-- In the hands of a worker. -/
def claimedColumns : OutboundColumns where
  status := .inProgress

/-- Delivered at this attempt. -/
def deliveredColumns (attempts : Nat) : OutboundColumns where
  status := .delivered
  attempts := some attempts
  nextAttemptAt := some none
  lastError := some none

/-- Given up once the attempt exceeds the cap, else re-queued with a backoff counted from `now`;
`none` where computing the backoff panics. -/
def OutboundWorkerConfig.failOrRequeue (config : OutboundWorkerConfig) (job : Outbound)
    (now : Timestamp) (reason : String) : Option OutboundColumns :=
  let attempts := job.attempts + 1
  if config.maxAttempts < attempts then
    some
      { status := .failed
        attempts := some attempts
        nextAttemptAt := some none
        lastError := some (some reason) }
  else
    match afterSeconds now (asI64 (config.backoffDelay attempts)) with
    | none => none
    | some next => some
        { status := .queued
          attempts := some attempts
          nextAttemptAt := some (some next)
          lastError := some (some reason) }

/-- Take a queued job: the row as of the claim, now in progress, or nothing when the row is gone or
no longer queued. One write-locked transaction. -/
def claim (db : Db) (id : Nat) : Option Outbound × Db :=
  match db.outbounds.get? id with
  | none => (none, db)
  | some job =>
      if job.status ≠ .queued then (none, db)
      else (some (claimedColumns.apply job), db.updateOutbound id claimedColumns)

/-- Append a row to the audit trail. -/
def Db.recordDelivery (db : Db) (outboundId : Nat) (peerHost : String) (code : Option Nat)
    (message : Option String) : Db :=
  { db with
    deliveryStatuses := db.deliveryStatuses.push
      (fun id => ⟨id, outboundId, peerHost, code, message⟩) (fun _ => rfl) }

/-- What an update of one job leaves at each key. -/
@[simp] theorem Db.get?_updateOutbound (db : Db) (id : Nat) (columns : OutboundColumns)
    (other : Nat) :
    (db.updateOutbound id columns).outbounds.get? other =
      if other = id then (db.outbounds.get? id).map columns.apply
      else db.outbounds.get? other :=
  db.outbounds.toTable.get?_modify id columns.apply (fun _ => rfl) other

@[simp] theorem Db.next_updateOutbound (db : Db) (id : Nat) (columns : OutboundColumns) :
    (db.updateOutbound id columns).outbounds.next = db.outbounds.next := rfl

/-- A claim takes a job exactly when its row is queued; it then writes only the row's status. -/
theorem claim_cases {db after : Db} {id : Nat} {taken : Option Outbound}
    (h : claim db id = (taken, after)) :
    (∃ job, db.outbounds.get? id = some job ∧ job.status = .queued ∧
      taken = some (claimedColumns.apply job) ∧ after = db.updateOutbound id claimedColumns) ∨
    (taken = none ∧ after = db) := by
  unfold claim at h
  split at h
  · cases h
    exact .inr ⟨rfl, rfl⟩
  · rename_i job hjob
    split at h
    · cases h
      exact .inr ⟨rfl, rfl⟩
    · rename_i hstatus
      cases h
      exact .inl ⟨job, hjob, not_not.mp hstatus, rfl, rfl⟩

/-- The end of a failed cycle counts it, and leaves the job queued within the cap or failed past
it. -/
theorem OutboundWorkerConfig.failOrRequeue_cases {config : OutboundWorkerConfig} {job : Outbound}
    {now : Timestamp} {reason : String} {columns : OutboundColumns}
    (h : config.failOrRequeue job now reason = some columns) :
    columns.attempts = some (job.attempts + 1) ∧
      (columns.status = .failed ∧ config.maxAttempts < job.attempts + 1 ∨
        columns.status = .queued ∧ job.attempts + 1 ≤ config.maxAttempts) := by
  simp only [failOrRequeue] at h
  split at h
  · rename_i hcap
    cases h
    exact ⟨rfl, .inl ⟨rfl, hcap⟩⟩
  · rename_i hcap
    split at h
    · cases h
    · cases h
      exact ⟨rfl, .inr ⟨rfl, Nat.le_of_not_lt hcap⟩⟩

end Zonemail
