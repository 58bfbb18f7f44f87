import Zonemail.Services.Manager

/-!
# TLS of the inbound listeners

The settings of `[smtp_tls]` in `config.rs`, the TLS mode that `email.rs` builds from them, and the
way of the certificate from the files through `Daemon::build` into the tasks that the manager
spawns. Reading a file and decoding a certificate enter as functions that give a result or an error.

Both builders of `email.rs` have a branch for a missing certificate, in which the listener is plain
or stays down. `secured_of_run` says that no task of a daemon that could be built takes it.
-/

namespace Zonemail.Services

open Library

/-! ## Settings -/

/-- What the plain listener does with STARTTLS. -/
inductive StartTlsMode where
  | none
  | optional
  | required
  deriving DecidableEq, Repr

/-- Where the certificate and its key come from. -/
inductive CertSource where
  | files (certPath keyPath : String)
  | acme (acmeServer accountKeyPath dnsDomain : Option String)
  deriving DecidableEq, Repr

/-- The settings of the inbound TLS. -/
structure SmtpTlsConfig where
  mode : StartTlsMode
  smtpsPort : UInt16
  certSource : Option CertSource
  deriving DecidableEq, Repr

namespace SmtpTlsConfig

/-- Does a listener need a certificate? -/
def needsCert (tls : SmtpTlsConfig) : Bool := tls.mode ≠ .none || tls.smtpsPort ≠ 0

def smtpsEnabled (tls : SmtpTlsConfig) : Bool := tls.smtpsPort ≠ 0

/-- The address of the listener with implicit TLS. -/
def smtpsAddr (tls : SmtpTlsConfig) (host : String) : Option SocketAddr :=
  if !tls.smtpsEnabled then none else SocketAddr.parse (formatAddr host tls.smtpsPort)

variable {Identity : Type} (read : String → Except String Bytes)
  (fromPkcs8 : Bytes → Bytes → Except String Identity)

/-- The certificate of the files, with its key. -/
def filesIdentity (certPath keyPath : String) : Except String (Option Identity) :=
  match read certPath with
  | .error e => .error ("failed to read smtp_tls cert '" ++ certPath ++ "': " ++ e)
  | .ok cert =>
      match read keyPath with
      | .error e => .error ("failed to read smtp_tls key '" ++ keyPath ++ "': " ++ e)
      | .ok key =>
          match fromPkcs8 cert key with
          | .error e =>
              .error ("failed to build TLS identity from '" ++ certPath ++ "'/'" ++ keyPath ++
                "': " ++ e ++ " (key must be PKCS#8 PEM)")
          | .ok identity => .ok (some identity)

/-- The certificate that the listeners share, if one is needed. -/
def identity (tls : SmtpTlsConfig) : Except String (Option Identity) :=
  match tls.certSource with
  | some (.acme _ _ _) =>
      .error ("smtp_tls cert_source 'acme' is not yet implemented; " ++
        "ACME/DNS-01 issuance is a planned feature")
  | source =>
      if !tls.needsCert then .ok none
      else
        match source with
        | none =>
            .error ("smtp_tls requires a `cert_source` when `mode` is not `none` " ++
              "or `smtps_port` is non-zero")
        | some (.files certPath keyPath) => filesIdentity read fromPkcs8 certPath keyPath
        | some (.acme _ _ _) => .error "smtp_tls cert_source 'acme' is not yet implemented"

variable {read fromPkcs8}

/-- Files give a certificate or an error. -/
theorem filesIdentity_ne_none (certPath keyPath : String) :
    filesIdentity read fromPkcs8 certPath keyPath ≠ .ok none := by
  intro h
  unfold filesIdentity at h
  split at h
  · cases h
  · split at h
    · cases h
    · split at h
      · cases h
      · cases h

/-- Files that are there and decode give their certificate. -/
theorem filesIdentity_eq_ok {certPath keyPath : String} {cert key : Bytes} {identity : Identity}
    (hcert : read certPath = .ok cert) (hkey : read keyPath = .ok key)
    (hdecode : fromPkcs8 cert key = .ok identity) :
    filesIdentity read fromPkcs8 certPath keyPath = .ok (some identity) := by
  simp only [filesIdentity, hcert, hkey, hdecode]

/-- Where a certificate is needed and files are given, it is theirs. -/
theorem identity_files {tls : SmtpTlsConfig} {certPath keyPath : String}
    (hneeds : tls.needsCert = true) (hsource : tls.certSource = some (.files certPath keyPath)) :
    tls.identity read fromPkcs8 = filesIdentity read fromPkcs8 certPath keyPath := by
  rw [identity, hsource, hneeds]
  rfl

/-- Where a certificate is needed, it is there or there is an error. -/
theorem identity_ne_none {tls : SmtpTlsConfig} (h : tls.needsCert = true) :
    tls.identity read fromPkcs8 ≠ .ok none := by
  intro hnone
  cases hsource : tls.certSource with
  | none =>
      rw [identity, hsource, h] at hnone
      cases hnone
  | some source =>
      cases source with
      | acme acmeServer accountKeyPath dnsDomain =>
          rw [identity, hsource] at hnone
          cases hnone
      | files certPath keyPath =>
          rw [identity_files h hsource] at hnone
          exact filesIdentity_ne_none certPath keyPath hnone

end SmtpTlsConfig

/-! ## The mail listeners -/

variable {Identity : Type}

/-- The TLS mode of the SMTP library. -/
inductive TlsMode (Identity : Type) where
  | disabled
  | explicit (identity : Identity)
  | required (identity : Identity)
  | implicit (identity : Identity)
  deriving DecidableEq, Repr

/-- What the SMTP library binds a listener with. The address stands for its printed form. -/
structure SmtpConfig (Identity : Type) where
  bindAddr : SocketAddr
  requireAuth : Bool
  tlsMode : TlsMode Identity
  deriving DecidableEq, Repr

/-- The TLS mode of the plain listener. Without a certificate it is plain. -/
def buildStarttlsMode (mode : StartTlsMode) (identity : Option Identity) : TlsMode Identity :=
  match mode with
  | .none => .disabled
  | .optional =>
      match identity with
      | some id => .explicit id
      | none => .disabled
  | .required =>
      match identity with
      | some id => .required id
      | none => .disabled

def buildSmtpConfig (bindAddr : SocketAddr) (tls : SmtpTlsConfig) (identity : Option Identity) :
    SmtpConfig Identity :=
  ⟨bindAddr, false, buildStarttlsMode tls.mode identity⟩

/-- The configuration of the listener with implicit TLS. Without a certificate there is none. -/
def buildSmtpsConfig (bindAddr : SocketAddr) (identity : Option Identity) :
    Option (SmtpConfig Identity) :=
  match identity with
  | some id => some ⟨bindAddr, false, .implicit id⟩
  | none => none

/-- What the mail server hands to the SMTP library. -/
def runMailServer (bindAddr : SocketAddr) (tlsMode : TlsMode Identity) : SmtpConfig Identity :=
  ⟨bindAddr, false, tlsMode⟩

/-! ## The tasks of the manager -/

/-- What a task does: it serves the API, mail or DNS, or it ends with a warning. -/
inductive Listener (Identity : Type) where
  | api (addr : SocketAddr)
  | mail (config : SmtpConfig Identity)
  | dns (addr : SocketAddr)
  | down
  deriving DecidableEq, Repr

/-- The task of a service. -/
def listener (tls : SmtpTlsConfig) (identity : Option Identity) (svc : Service)
    (addr : SocketAddr) : Listener Identity :=
  match svc with
  | .api => .api addr
  | .smtp => .mail (runMailServer addr (buildSmtpConfig addr tls identity).tlsMode)
  | .smtps =>
      match buildSmtpsConfig addr identity with
      | some config => .mail (runMailServer addr config.tlsMode)
      | none => .down
  | .dns => .dns addr

/-- The settings of the listeners. -/
structure Config where
  host : String
  dns : UInt16
  smtp : UInt16
  api : UInt16
  smtpTls : SmtpTlsConfig
  deriving DecidableEq, Repr

namespace Config

def apiAddr (cfg : Config) : Option SocketAddr := SocketAddr.parse (formatAddr cfg.host cfg.api)

def smtpAddr (cfg : Config) : Option SocketAddr := SocketAddr.parse (formatAddr cfg.host cfg.smtp)

def dnsAddr (cfg : Config) : Option SocketAddr := SocketAddr.parse (formatAddr cfg.host cfg.dns)

end Config

/-- How the construction of a daemon ends without one. -/
inductive BuildFailure where
  | error (text : String)
  | panic (text : String)
  deriving DecidableEq, Repr

/-- The manager: its slots, and what its tasks share. -/
structure ServiceManager (Identity : Type) where
  inner : Inner Nat
  smtpTls : SmtpTlsConfig
  identity : Option Identity

/-- An address of the configuration. -/
def expectAddr (name : String) (addr : Option SocketAddr) : Except BuildFailure SocketAddr :=
  match addr with
  | some addr => .ok addr
  | none => .error (.panic ("config " ++ name ++ " address must be valid; validated at load: " ++
      "AddrParseError(Socket)"))

/-- Construct the manager; an address that does not parse panics. -/
def ServiceManager.new (cfg : Config) (identity : Option Identity) :
    Except BuildFailure (ServiceManager Identity) := do
  let dnsAddr ← expectAddr "dns" cfg.dnsAddr
  let smtpAddr ← expectAddr "smtp" cfg.smtpAddr
  let apiAddr ← expectAddr "api" cfg.apiAddr
  pure ⟨.new apiAddr dnsAddr smtpAddr (cfg.smtpTls.smtpsAddr cfg.host), cfg.smtpTls, identity⟩

/-- The daemon. -/
structure Daemon (Identity : Type) where
  cfg : Config
  services : ServiceManager Identity

/-- Open the database, load the certificate and construct the manager. -/
def Daemon.build (read : String → Except String Bytes)
    (fromPkcs8 : Bytes → Bytes → Except String Identity) (init : Except String Unit)
    (cfg : Config) : Except BuildFailure (Daemon Identity) :=
  match init with
  | .error e => .error (.error e)
  | .ok () =>
      match cfg.smtpTls.identity read fromPkcs8 with
      | .error e => .error (.error ("failed to build SMTP TLS identity: " ++ e))
      | .ok identity =>
          match ServiceManager.new cfg identity with
          | .error failure => .error failure
          | .ok services => .ok ⟨cfg, services⟩

/-- The manager while it runs: its slots, and every task that was ever spawned. -/
structure Running (Identity : Type) where
  inner : Inner Nat
  spawned : List (Service × Listener Identity)

/-- Spawning a task of the manager never fails. -/
def ServiceManager.spawn (services : ServiceManager Identity) (svc : Service) (addr : SocketAddr)
    (spawned : List (Service × Listener Identity)) :
    Except String Nat × List (Service × Listener Identity) :=
  (.ok spawned.length, spawned ++ [(svc, listener services.smtpTls services.identity svc addr)])

/-- What one section does to the running manager. -/
def ServiceManager.execute (services : ServiceManager Identity) (taken : Section) (_ : Unit)
    (running : Running Identity) : taken.Answer × Running Identity :=
  let (answer, inner, spawned) :=
    taken.perform services.spawn (fun _ spawned => spawned) running.inner running.spawned
  (answer, ⟨inner, spawned⟩)

/-! ## What a daemon that was built runs -/

section Built

variable {read : String → Except String Bytes} {fromPkcs8 : Bytes → Bytes → Except String Identity}
  {init : Except String Unit} {cfg : Config} {daemon : Daemon Identity}

/-- A daemon is built from a host that parses and the certificate of the settings. -/
theorem Daemon.build_eq_ok_iff : Daemon.build read fromPkcs8 init cfg = .ok daemon ↔
    init = .ok () ∧ ∃ identity ip, cfg.smtpTls.identity read fromPkcs8 = .ok identity ∧
      parseHost cfg.host = some ip ∧
      daemon = ⟨cfg, ⟨.new ⟨ip, cfg.api.toNat⟩ ⟨ip, cfg.dns.toNat⟩ ⟨ip, cfg.smtp.toNat⟩
        (cfg.smtpTls.smtpsAddr cfg.host), cfg.smtpTls, identity⟩⟩ := by
  unfold Daemon.build
  simp only [ServiceManager.new, Config.dnsAddr, Config.smtpAddr, Config.apiAddr, parse_format]
  cases init with
  | error e => simp
  | ok =>
      cases cfg.smtpTls.identity read fromPkcs8 with
      | error e => simp
      | ok identity =>
          cases parseHost cfg.host with
          | none => simp [expectAddr, bind, Except.bind]
          | some ip => simp [expectAddr, bind, Except.bind, pure, Except.pure, eq_comm]

/-- The running manager has the addresses it was constructed with, and its tasks are those of their
services. -/
structure ServiceManager.Runs (services : ServiceManager Identity) (running : Running Identity) :
    Prop where
  addr : ∀ svc, running.inner.addr svc = services.inner.addr svc
  spawned : ∀ svc task, (svc, task) ∈ running.spawned → ∃ addr,
    services.inner.addr svc = some addr ∧
      task = listener services.smtpTls services.identity svc addr

variable {services : ServiceManager Identity} {running : Running Identity}

/-- A start of an idle service with an address spawns its task. -/
theorem ServiceManager.execute_start {svc : Service} {addr : SocketAddr}
    (haddr : running.inner.addr svc = some addr) (hidle : running.inner.statusOf svc = .idle) :
    services.execute (.start svc) () running = (.ok ⟨svc, .running, true⟩,
      ⟨running.inner.setSlot svc ⟨.running, some running.spawned.length⟩,
        running.spawned ++ [(svc, listener services.smtpTls services.identity svc addr)]⟩) := by
  have hstatus : (running.inner.slot svc).status = .idle := hidle
  simp only [ServiceManager.execute, Section.perform, Inner.start, haddr, hstatus,
    ServiceManager.spawn]

/-- A section spawns nothing but the task of a service with an address. -/
theorem ServiceManager.spawned_execute (services : ServiceManager Identity) (taken : Section)
    (running : Running Identity) :
    (services.execute taken () running).2.spawned = running.spawned ∨
    ∃ svc addr, running.inner.addr svc = some addr ∧
      (services.execute taken () running).2.spawned =
        running.spawned ++ [(svc, listener services.smtpTls services.identity svc addr)] := by
  cases taken with
  | start svc =>
      cases haddr : running.inner.addr svc with
      | none =>
          refine .inl ?_
          simp only [ServiceManager.execute, Section.perform, Inner.start, haddr]
      | some addr =>
          cases hstatus : running.inner.statusOf svc with
          | running =>
              have hrunning : (running.inner.slot svc).status = .running := hstatus
              refine .inl ?_
              simp only [ServiceManager.execute, Section.perform, Inner.start, haddr, hrunning]
          | idle => exact .inr ⟨svc, addr, haddr, by rw [execute_start haddr hstatus]⟩
  | stop svc =>
      refine .inl ?_
      cases hhandle : (running.inner.slot svc).handle with
      | none => simp only [ServiceManager.execute, Section.perform, Inner.stop, hhandle]
      | some task => simp only [ServiceManager.execute, Section.perform, Inner.stop, hhandle]
  | smtpsConfigured => exact .inl rfl
  | list => exact .inl rfl

/-- Every section keeps the addresses and the tasks. -/
theorem ServiceManager.Runs.execute (h : services.Runs running) (taken : Section) :
    services.Runs (services.execute taken () running).2 := by
  refine ⟨fun svc => ?_, fun svc task htask => ?_⟩
  · exact (Section.addr_perform _ _ taken running.inner running.spawned svc).trans (h.addr svc)
  · rcases services.spawned_execute taken running with hsame | ⟨started, addr, haddr, hspawned⟩
    · rw [hsame] at htask
      exact h.spawned svc task htask
    · rw [hspawned, List.mem_append, List.mem_singleton] at htask
      rcases htask with hold | hnew
      · exact h.spawned svc task hold
      · cases hnew
        exact ⟨addr, (h.addr svc).symm.trans haddr, rfl⟩

/-- The service has an address and a certificate, every task that was ever spawned for it binds with
this mode, and starting it while it is idle spawns one. -/
def ServiceManager.Binds (services : ServiceManager Identity) (running : Running Identity)
    (svc : Service) (tlsMode : Identity → TlsMode Identity) : Prop :=
  ∃ addr identity, running.inner.addr svc = some addr ∧ services.identity = some identity ∧
    (∀ task, (svc, task) ∈ running.spawned → task = .mail ⟨addr, false, tlsMode identity⟩) ∧
    (running.inner.statusOf svc = .idle →
      (services.execute (.start svc) () running).1 = .ok ⟨svc, .running, true⟩ ∧
      (services.execute (.start svc) () running).2.spawned =
        running.spawned ++ [(svc, .mail ⟨addr, false, tlsMode identity⟩)])

/-- A service with an address binds with the mode of its task. -/
theorem ServiceManager.Runs.binds (h : services.Runs running) {svc : Service} {addr : SocketAddr}
    {identity : Identity} {tlsMode : Identity → TlsMode Identity}
    (haddr : services.inner.addr svc = some addr) (hidentity : services.identity = some identity)
    (htask : listener services.smtpTls (some identity) svc addr =
      .mail ⟨addr, false, tlsMode identity⟩) : services.Binds running svc tlsMode := by
  have hrunning : running.inner.addr svc = some addr := (h.addr svc).trans haddr
  refine ⟨addr, identity, hrunning, hidentity, fun task hspawned => ?_, fun hidle => ?_⟩
  · obtain ⟨bound, hbound, rfl⟩ := h.spawned svc task hspawned
    rw [haddr] at hbound
    cases hbound
    rw [hidentity, htask]
  · rw [execute_start hrunning hidle, hidentity, htask]
    exact ⟨rfl, rfl⟩

variable {Thread : Type}

/-- Callers over the manager of a daemon that has just been built. -/
def daemonPool (daemon : Daemon Identity) (callers : Thread → List ServiceCall) :
    Pool Thread Section Section.Answer Unit (Running Identity) :=
  ⟨⟨daemon.services.inner, []⟩, fun thread => callEach (callers thread)⟩

/-- In every interleaving the tasks are those of their services. -/
theorem runs_of_run [DecidableEq Thread] {callers : Thread → List ServiceCall}
    {trace : List (Moment Thread Section Section.Answer (Running Identity))}
    {finish : Pool Thread Section Section.Answer Unit (Running Identity)}
    (hrun : Run (Pool.step daemon.services.execute) (fun _ _ => True)
      (daemonPool daemon callers) trace finish) : daemon.services.Runs finish.store := by
  refine hrun.invariant (fun pool => daemon.services.Runs pool.store) ⟨fun _ => rfl, nofun⟩ ?_
  intro pool label moments next hruns _ hstep
  obtain ⟨taken, resume, -, -, hstore, -⟩ := Pool.step_eq_some hstep
  rw [hstore]
  exact hruns.execute taken

/-- **TLS does not degrade.** Whatever the settings and the files are, when a daemon could be built,
then after every interleaving of any calls to its manager the plain listener binds with the mode
that was asked for, and a listener with implicit TLS that has a port is configured and binds with
implicit TLS. -/
theorem secured_of_run [DecidableEq Thread] {callers : Thread → List ServiceCall}
    {trace : List (Moment Thread Section Section.Answer (Running Identity))}
    {finish : Pool Thread Section Section.Answer Unit (Running Identity)}
    (hbuild : Daemon.build read fromPkcs8 init cfg = .ok daemon)
    (hrun : Run (Pool.step daemon.services.execute) (fun _ _ => True)
      (daemonPool daemon callers) trace finish) :
    (cfg.smtpTls.mode = .optional → daemon.services.Binds finish.store .smtp .explicit) ∧
    (cfg.smtpTls.mode = .required → daemon.services.Binds finish.store .smtp .required) ∧
    (cfg.smtpTls.smtpsPort ≠ 0 → finish.store.inner.smtpsConfigured = true ∧
      daemon.services.Binds finish.store .smtps .implicit) := by
  have hruns : daemon.services.Runs finish.store := runs_of_run hrun
  obtain ⟨-, identity, ip, hidentity, hhost, rfl⟩ := Daemon.build_eq_ok_iff.mp hbuild
  -- A certificate is needed, so the settings gave one.
  have hcert : cfg.smtpTls.needsCert = true → ∃ certificate, identity = some certificate := by
    intro hneeds
    cases identity with
    | none => exact absurd hidentity (SmtpTlsConfig.identity_ne_none hneeds)
    | some certificate => exact ⟨certificate, rfl⟩
  refine ⟨fun hmode => ?_, fun hmode => ?_, fun hport => ?_⟩
  · obtain ⟨certificate, rfl⟩ := hcert (by simp [SmtpTlsConfig.needsCert, hmode])
    refine hruns.binds rfl rfl ?_
    simp only [listener, buildSmtpConfig, hmode, buildStarttlsMode, runMailServer]
  · obtain ⟨certificate, rfl⟩ := hcert (by simp [SmtpTlsConfig.needsCert, hmode])
    refine hruns.binds rfl rfl ?_
    simp only [listener, buildSmtpConfig, hmode, buildStarttlsMode, runMailServer]
  · obtain ⟨certificate, rfl⟩ := hcert (by simp [SmtpTlsConfig.needsCert, hport])
    have haddr : cfg.smtpTls.smtpsAddr cfg.host = some ⟨ip, cfg.smtpTls.smtpsPort.toNat⟩ := by
      simp [SmtpTlsConfig.smtpsAddr, SmtpTlsConfig.smtpsEnabled, hport, parse_format, hhost]
    refine ⟨?_, hruns.binds haddr rfl rfl⟩
    have hsmtps : finish.store.inner.smtpsAddr = _ := (hruns.addr .smtps).trans haddr
    rw [Inner.smtpsConfigured, hsmtps]
    rfl

end Built

/-- A file in PEM. -/
def pem (label : String) (lines : List String) : Bytes :=
  ("-----BEGIN " ++ label ++ "-----\n" ++ String.join (lines.map (· ++ "\n")) ++ "-----END " ++
    label ++ "-----\n").toList.flatMap String.utf8EncodeChar

/-- A certificate for `x.io`. -/
def certPem : Bytes := pem "CERTIFICATE" [
  "MIHaMIGNAhQvqZHOMsgbp2tgUE/yEJmvsqAFUjAFBgMrZXAwDzENMAsGA1UEAwwE",
  "eC5pbzAgFw0yNjExMTgwNzQxNTFaGA8yMTI2MTAyNTA3NDE1MVowDzENMAsGA1UE",
  "AwwEeC5pbzAqMAUGAytlcAMhAOEelaxBbswTjFI7CGSI4KQCuz6oD6I/9h47IajR",
  "rHXnMAUGAytlcANBAPWnSmiKQ1nhGQS9w/RB0bvoE3B3StvYRryz3wVyhAsKJ4oB",
  "4NppUr1i2sUtescBGda1gdsL0XSYfhYp6hS1TQI="]

/-- Its key. -/
def keyPem : Bytes := pem "PRIVATE KEY" [
  "MC4CAQAwBQYDK2VwBCIEICeJ8suyKwl5NbCZ/cKD4l/DWkSRWTVMQbNMliQcJ1kf"]

/-- The files of the two. -/
def pemFiles (path : String) : Except String Bytes :=
  if path = "cert.pem" then .ok certPem
  else if path = "key.pem" then .ok keyPem
  else .error "No such file or directory (os error 2)"

/-- A decoder that knows the two and gives the subject of the certificate. -/
def decodePem (cert key : Bytes) : Except String String :=
  if cert = certPem ∧ key = keyPem then .ok "x.io" else .error "expected PKCS#8 PEM"

/-- STARTTLS is required, and there is a listener with implicit TLS. -/
def tlsConfig : Config :=
  ⟨"0.0.0.0", 53, 25, 8081, ⟨.required, 465, some (.files "cert.pem" "key.pem")⟩⟩

/-- The daemon of these settings. -/
def tlsDaemon : Daemon String :=
  ⟨tlsConfig, ⟨.new ⟨.v4 [0, 0, 0, 0], 8081⟩ ⟨.v4 [0, 0, 0, 0], 53⟩ ⟨.v4 [0, 0, 0, 0], 25⟩
    (some ⟨.v4 [0, 0, 0, 0], 465⟩), tlsConfig.smtpTls, some "x.io"⟩⟩

theorem build_tlsConfig : Daemon.build pemFiles decodePem (.ok ()) tlsConfig = .ok tlsDaemon := by
  have hhost : parseHost "0.0.0.0" = some (.v4 [0, 0, 0, 0]) := by decide +kernel
  have hcert : pemFiles "cert.pem" = .ok certPem := if_pos rfl
  have hkey : pemFiles "key.pem" = .ok keyPem := (if_neg (by decide)).trans (if_pos rfl)
  have hdecode : decodePem certPem keyPem = .ok "x.io" := if_pos ⟨rfl, rfl⟩
  refine Daemon.build_eq_ok_iff.mpr ⟨rfl, some "x.io", .v4 [0, 0, 0, 0], ?_, hhost, ?_⟩
  · rw [SmtpTlsConfig.identity_files (by decide) rfl]
    exact SmtpTlsConfig.filesIdentity_eq_ok hcert hkey hdecode
  · simp [tlsDaemon, tlsConfig, SmtpTlsConfig.smtpsAddr, SmtpTlsConfig.smtpsEnabled, parse_format,
      hhost]

/-- After a switch to the mail mode both listeners run, and each binds with its mode. -/
theorem secured_tlsDaemon : ∃ trace finish,
    Daemon.build pemFiles decodePem (.ok ()) tlsConfig = .ok tlsDaemon ∧
    Run (Pool.step tlsDaemon.services.execute) (fun _ _ => True)
      (daemonPool tlsDaemon (fun _ : Unit => [.applyMode .smtp])) trace finish ∧
    finish.store.spawned.map Prod.fst = [.smtp, .smtps] ∧
    tlsDaemon.services.Binds finish.store .smtp .required ∧
    tlsDaemon.services.Binds finish.store .smtps .implicit := by
  obtain ⟨trace, finish, hexecute, hspawned⟩ : ∃ trace finish,
      execute (Pool.step tlsDaemon.services.execute)
        (daemonPool tlsDaemon (fun _ : Unit => [.applyMode .smtp]))
        (List.replicate 6 ((), ())) = some (trace, finish) ∧
      finish.store.spawned.map Prod.fst = [.smtp, .smtps] := ⟨_, _, rfl, rfl⟩
  have hrun := execute_run hexecute
  obtain ⟨-, hrequired, himplicit⟩ := secured_of_run build_tlsConfig hrun
  exact ⟨trace, finish, build_tlsConfig, hrun, hspawned, hrequired rfl, (himplicit (by decide)).2⟩

end Zonemail.Services
