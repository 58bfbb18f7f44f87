import Zonemail.Api.Pages
import Zonemail.Auth.Guard
import Zonemail.Services.Manager

/-!
# The router

Every endpoint of `create_router` behind the guard. The requests of `Request` send statements to the
database and nothing else. To these come the health probe, the lists of whole tables, reading one
message, and the control of the services, so that the programs of the router perform wider effects:
those of the database, the scans, and the sections under the lock of the service manager.

The application state is in the depot of every request. The service manager need not be, and a host
that does not inject it gets an error.

`run_serve_stored` says that the router adds nothing to the handlers of `Request`: what they answer
and what they do to the database is what they do alone.
-/

namespace Zonemail.Api

open Library
open Auth (Decision)
open Services (BootMode Section Service ServiceProg ServiceReport ServiceResult)

/-! ## What is rendered -/

/-- Payload of the health probe. -/
structure HealthInfo where
  service : String
  version : String
  status : String
  deriving DecidableEq, Repr

/-- What a success envelope carries, over all endpoints. -/
inductive Data where
  | stored (payload : Payload)
  | health (info : HealthInfo)
  | domains (page : Page Domain)
  | mailboxes (page : Page Mailbox)
  | records (page : Page RecordApiDTO)
  | message (message : MessageDTO)
  | services (reports : List ServiceReport)
  | service (result : ServiceResult)
  deriving DecidableEq, Repr

/-- The HTTP status and the body that an endpoint has rendered. -/
structure Rendered where
  status : Nat
  body : Except ApiProblem Data

namespace Rendered

/-- 200 with a success envelope. -/
def ok (data : Data) : Rendered := ⟨200, .ok data⟩

/-- An HTTP status with a problem document. -/
def problem (status : Nat) (problem : ApiProblem) : Rendered := ⟨status, .error problem⟩

/-- The database failed. -/
def failed (e : DbError) : Rendered := problem 500 (.serverError e.text)

end Rendered

def Response.rendered (response : Response) : Rendered :=
  ⟨response.status, response.body.map .stored⟩

/-! ## Effects -/

/-- One atomic effect of an endpoint. -/
inductive RouterEffect where
  | db (effect : Effect)
  | lock (taken : Section)
  | domains
  | mailboxes
  | records

/-- What an endpoint learns from an effect. -/
@[reducible] def RouterAnswer : RouterEffect → Type
  | .db effect => Answer effect
  | .lock taken => taken.Answer
  | .domains => Except DbError (List Domain)
  | .mailboxes => Except DbError (List Mailbox)
  | .records => Except DbError (List Record)

/-- The programs of the endpoints. -/
abbrev RouterProg (α : Type) := Program RouterEffect RouterAnswer α

/-- A program over the database, as one of an endpoint. -/
def onDb {α : Type} (program : Prog α) : RouterProg α :=
  program.lift RouterEffect.db (fun _ answer => answer)

/-- A program over the service manager, as one of an endpoint. -/
def onManager {α : Type} (program : ServiceProg α) : RouterProg α :=
  program.lift RouterEffect.lock (fun _ answer => answer)

/-- The database, and the slots and tasks of the service manager. -/
structure Backend where
  db : Db
  ledger : Services.Ledger

/-- Every row of a table, unless the database fails. -/
def scan {α : Type} (fault : Statement.Fault) (rows : List α) : Except DbError (List α) :=
  match fault with
  | some text => .error (.failure text)
  | none => .ok rows

/-- The answer to an effect, given what the database or the spawning of a task fails with. -/
def RouterEffect.execute (effect : RouterEffect) (fault : Statement.Fault) (backend : Backend) :
    RouterAnswer effect × Backend :=
  match effect with
  | .db effect =>
      let result := effect.execute fault backend.db
      (result.1, { backend with db := result.2 })
  | .lock taken =>
      let result := taken.execute fault backend.ledger
      (result.1, { backend with ledger := result.2 })
  | .domains => (scan fault backend.db.domains.rows, backend)
  | .mailboxes => (scan fault backend.db.mailboxes.rows, backend)
  | .records => (scan fault backend.db.records.rows, backend)

/-! ## Endpoints -/

namespace Router

def health : RouterProg Rendered := pure (.ok (.health ⟨"zonemail", "0.1.0", "healthy"⟩))

def listDomains (query : Query) : RouterProg Rendered := do
  match ← (Program.call RouterEffect.domains : RouterProg (Except DbError (List Domain))) with
  | .ok domains => pure (.ok (.domains (Api.listDomains domains query)))
  | .error e => pure (.failed e)

/-- The statement of the source has the filter in it; here it is applied to the rows read. -/
def listMailboxes (query : FilterQuery) : RouterProg Rendered := do
  match ← (Program.call RouterEffect.mailboxes : RouterProg (Except DbError (List Mailbox))) with
  | .ok mailboxes => pure (.ok (.mailboxes (Api.listMailboxes mailboxes query)))
  | .error e => pure (.failed e)

/-- An unknown record type is refused before the records are loaded. -/
def listRecords (query : FilterQuery) : RouterProg Rendered :=
  match typeFilter query with
  | .error problem => pure (.problem 400 problem)
  | .ok recordType => do
      match ← (Program.call RouterEffect.records : RouterProg (Except DbError (List Record))) with
      | .ok records => pure (.ok (.records (.fromAll (recordRows records query recordType)
          (pageParams query.toQuery).1 (pageParams query.toQuery).2)))
      | .error e => pure (.failed e)

/-- Read one message; a missing or malformed id is 0. -/
def getMessage (messageId : Nat) : RouterProg Rendered := do
  match ← onDb (sql (.getMessage messageId)) with
  | .ok message => pure (.ok (.message (.ofMessage message)))
  | .error _ => pure (.problem 404 (.notFound ("message '" ++ toString messageId ++ "' not found")))

/-- Go on with the injected manager, or fail the request. -/
def extractManager (manager : Bool) (next : RouterProg Rendered) : RouterProg Rendered :=
  if manager then next else pure (.problem 500 (.serverError "service manager not injected"))

def listServices (manager : Bool) : RouterProg Rendered :=
  extractManager manager do
    let reports ← onManager (Program.call Section.list)
    pure (.ok (.services reports))

/-- The service with this name, in any letter case. -/
def parseService (name : String) : Option Service :=
  match Text.toAsciiLowercase (Text.trim name) with
  | "api" => some .api
  | "smtp" => some .smtp
  | "smtps" => some .smtps
  | "dns" => some .dns
  | _ => none

/-- The name of a service in an error. -/
def debugService : Service → String
  | .api => "Api"
  | .smtp => "Smtp"
  | .smtps => "Smtps"
  | .dns => "Dns"

/-- Start or stop the service with this name. -/
def controlService (verb : String) (control : Service → ServiceProg (Except String ServiceResult))
    (manager : Bool) (name : String) : RouterProg Rendered :=
  extractManager manager
    (match parseService name with
    | none => pure (.problem 400 (.badRequest ("unknown service '" ++ name ++
        "'; expected one of 'api', 'smtp', 'smtps', 'dns'")))
    | some svc => do
        match ← onManager (control svc) with
        | .ok result => pure (.ok (.service result))
        | .error e => pure (.problem 500 (.serverError
            ("failed to " ++ verb ++ " " ++ debugService svc ++ ": " ++ e))))

def startService : Bool → String → RouterProg Rendered :=
  controlService "start" Services.startService

def stopService : Bool → String → RouterProg Rendered :=
  controlService "stop" Services.stopService

def setMode (manager : Bool) (mode : Option BootMode) : RouterProg Rendered :=
  extractManager manager
    (match mode with
    | none =>
        pure (.problem 400 (.badRequest "invalid mode; expected one of full|smtp|dns|api-only"))
    | some mode => do
        let reports ← onManager (Services.applyMode mode)
        pure (.ok (.services reports)))

end Router

/-! ## Routing -/

/-- The requests that the router knows. A body that could not be parsed is `none`. -/
inductive RouterRequest where
  | stored (request : Request)
  | health
  | listDomains (query : Query)
  | listMailboxes (query : FilterQuery)
  | listRecords (query : FilterQuery)
  | getMessage (messageId : Nat)
  | listServices
  | startService (name : String)
  | stopService (name : String)
  | setMode (mode : Option BootMode)

/-- The handler of a request; `manager` says whether the host injected the service manager. -/
def RouterRequest.handle (parse : MessageParser) (lettre : Lettre) (manager : Bool) :
    RouterRequest → RouterProg Rendered
  | .stored request => do
      let response ← onDb (request.handle parse lettre)
      pure response.rendered
  | .health => Router.health
  | .listDomains query => Router.listDomains query
  | .listMailboxes query => Router.listMailboxes query
  | .listRecords query => Router.listRecords query
  | .getMessage messageId => Router.getMessage messageId
  | .listServices => Router.listServices manager
  | .startService name => Router.startService manager name
  | .stopService name => Router.stopService manager name
  | .setMode mode => Router.setMode manager mode

/-- The guard stands in front of the handlers: what it renders is the response, and no handler runs
after that. -/
def serve (parse : MessageParser) (lettre : Lettre) (manager : Bool) (decision : Decision)
    (request : RouterRequest) : RouterProg Rendered :=
  match (Auth.AuthGuard.apply decision).response with
  | some rejection => pure rejection.rendered
  | none => request.handle parse lettre manager

/-- A program over the database is answered behind the router as it is alone, and does the same to
the database. -/
theorem run_onDb {α : Type} (program : Prog α) (fault : Statement.Fault) (backend : Backend) :
    ((onDb program).run (fun effect => effect.execute fault) backend).1 =
        (program.run (fun effect => effect.execute fault) backend.db).1 ∧
      ((onDb program).run (fun effect => effect.execute fault) backend).2.db =
        (program.run (fun effect => effect.execute fault) backend.db).2 :=
  Program.run_lift (fun effect => effect.execute fault) (fun _ _ => ⟨rfl, rfl⟩) program backend

/-- So is a program over the service manager. -/
theorem run_onManager {α : Type} (program : ServiceProg α) (failure : Option String)
    (backend : Backend) :
    ((onManager program).run (fun effect => effect.execute failure) backend).1 =
        (program.run (fun taken => taken.execute failure) backend.ledger).1 ∧
      ((onManager program).run (fun effect => effect.execute failure) backend).2.ledger =
        (program.run (fun taken => taken.execute failure) backend.ledger).2 :=
  Program.run_lift (fun taken => taken.execute failure) (fun _ _ => ⟨rfl, rfl⟩) program backend

/-- A request that the guard lets pass gets the response of its handler. -/
theorem run_serve_stored (parse : MessageParser) (lettre : Lettre) (manager : Bool)
    (claims : Option Auth.VerifiedClaims) (request : Request) (fault : Statement.Fault)
    (backend : Backend) :
    let served := (serve parse lettre manager (.continue_ claims) (.stored request)).run
      (fun effect => effect.execute fault) backend
    let handled := (request.handle parse lettre).run (fun effect => effect.execute fault) backend.db
    served.1 = handled.1.rendered ∧ served.2.db = handled.2 := by
  intro served handled
  obtain ⟨hresponse, hdb⟩ := run_onDb (request.handle parse lettre) fault backend
  have hserved : served = ((onDb (request.handle parse lettre) >>=
      fun response => pure response.rendered : RouterProg Rendered).run
        (fun effect => effect.execute fault) backend) := rfl
  rw [hserved, Program.run_bind, hresponse]
  exact ⟨rfl, hdb⟩

end Zonemail.Api
