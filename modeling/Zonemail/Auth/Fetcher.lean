import Zonemail.Auth.Cache
import Zonemail.Library.Expand

/-!
# Fetching keys over HTTP

The fetcher of `keys.rs`: its location is fixed, given relative to the issuer, or announced by the
discovery document of the issuer and then remembered. A fetch is a program whose effects are the
single HTTP requests and the accesses to the remembered location, so that other fetches may run
between any two of them. `HttpKeysClient.perform` answers the accesses of the programs that use a
key set: a fetch by this program, the others by the cache.
-/

namespace Zonemail.Auth

open Library
open Text (trim trimEndMatches trimStartMatches startsWith)

/-! ## Locations and credentials -/

/-- A base and a path as one URL. A path that is a URL itself is that URL. -/
def joinUrl (base path : String) : String :=
  if startsWith path "http://" || startsWith path "https://" then path
  else
    let base := trimEndMatches (· == '/') base
    let path := trimStartMatches (· == '/') path
    if path.isEmpty then base else base ++ "/" ++ path

/-- What the HTTP and JSON libraries make of texts: the names and values of headers that they accept,
and what they read from a discovery document and from a key set. -/
structure Web (Jwk : Type) where
  headerName : String → Option String
  headerValue : String → Option String
  parseJson : String → Except String Json
  parseJwkSet : String → Except String (List Jwk)

/-- The credential that the configuration has for the source. -/
structure JanuxConfig where
  januxToken : Option String
  januxAuthHeader : Option String
  januxBearer : Bool

variable {Jwk : Type} (web : Web Jwk)

/-- The header with the credential. A blank token is none, and a name that is no header name stands
for `authorization`. -/
def januxCredential (token headerName : Option String) (bearer : Bool) :
    Option (String × String) :=
  match token.map trim with
  | none => none
  | some token =>
      if token.isEmpty then none
      else
        let name :=
          match (headerName.map trim).filter (fun name => !name.isEmpty) with
          | some name => (web.headerName name).getD "authorization"
          | none => "authorization"
        let value := if bearer then "Bearer " ++ token else token
        (web.headerValue value).map (fun value => (name, value))

/-- A fetcher with its credential. -/
structure HttpKeysClient extends HttpKeysFetcher where
  authHeader : Option (String × String)

/-- The client of a remote source, as `build_key_material` makes it. -/
def buildClient (keys : KeyConfig) (janux : JanuxConfig) : Option HttpKeysClient :=
  let credential := januxCredential web janux.januxToken janux.januxAuthHeader janux.januxBearer
  match keys.kind with
  | .jwksRemote => keys.jwksUrl.map (fun url => ⟨.jwks url, credential⟩)
  | .issuer =>
      keys.issuer.map (fun issuer => ⟨.issuer issuer keys.discoveryPath keys.jwksPath, credential⟩)
  | _ => none

/-! ## Effects -/

/-- What comes of a request: it fails, its body fails, or there is a body. -/
inductive HttpReply where
  | unsent (error : String)
  | unread (error : String)
  | text (body : String)

/-- The body, or an error that says for what the request was. -/
def HttpReply.read (purpose : String) : HttpReply → Except String String
  | .unsent error => .error (purpose ++ "http: " ++ error)
  | .unread error => .error (purpose ++ "body: " ++ error)
  | .text body => .ok body

/-- One access to the key cache or to the remembered location, or one HTTP request. -/
inductive WebEffect (Jwk : Type) where
  | current
  | shouldRefetch
  | store (set : List Jwk)
  | resolved
  | resolve (url : String)
  | get (url : String) (authHeader : Option (String × String))

/-- What a program learns from an access. -/
@[reducible] def WebAnswer {Jwk : Type} : WebEffect Jwk → Type
  | .current => Option (List Jwk)
  | .shouldRefetch => Bool
  | .store _ => Unit
  | .resolved => Option String
  | .resolve _ => Unit
  | .get _ _ => HttpReply

/-- Programs that fetch over HTTP. -/
abbrev WebProg (Jwk α : Type) := Program (WebEffect Jwk) WebAnswer α

/-- The key cache, the clock in nanoseconds and the remembered location. -/
structure WebWorld (Jwk : Type) where
  cache : Option (CachedSet Jwk)
  clock : Nat
  resolved : Option String

/-- Perform one access after some time has passed, with the reply that a request gets now. -/
def webExecute (ttl : Nat) (effect : WebEffect Jwk) (input : Nat × HttpReply)
    (world : WebWorld Jwk) : WebAnswer effect × WebWorld Jwk :=
  let clock := world.clock + input.1
  match effect with
  | .current => (world.cache.map CachedSet.jwkSet, { world with clock })
  | .shouldRefetch =>
      (world.cache.elim true (fun cached => decide (ttl ≤ clock - cached.fetchedAt)),
        { world with clock })
  | .store set => ((), { world with clock, cache := some ⟨set, clock⟩ })
  | .resolved => (world.resolved, { world with clock })
  | .resolve url => ((), { world with clock, resolved := some url })
  | .get _ _ => (input.2, { world with clock })

/-! ## Fetches -/

namespace HttpKeysClient

variable (client : HttpKeysClient)

/-- The location of the discovery document. -/
def discoveryUrl : String := joinUrl client.base client.discoveryPath

/-- The location that a discovery document announces. A relative one is under the issuer. -/
def announced (text : String) : Except String String :=
  match web.parseJson text with
  | .error e => .error ("discovery parse: " ++ e)
  | .ok doc =>
      match (doc.get "jwks_uri").bind Json.asStr with
      | none => .error "discovery document missing `jwks_uri`"
      | some uri => .ok (if startsWith uri "http" then uri else joinUrl client.base uri)

/-- The location of the key set. -/
def jwksLocation : WebProg Jwk (Except String String) :=
  match client.jwksPathOverride with
  | some path => pure (.ok (joinUrl client.base path))
  | none =>
      if client.discovery then do
        match ← Program.call WebEffect.resolved with
        | some url => pure (.ok url)
        | none =>
            let reply : HttpReply ←
              Program.call (WebEffect.get client.discoveryUrl client.authHeader)
            match reply.read "discovery " with
            | .error e => pure (.error e)
            | .ok text =>
                match client.announced web text with
                | .error e => pure (.error e)
                | .ok url =>
                    Program.call (WebEffect.resolve url)
                    pure (.ok url)
      else pure (.ok client.base)

/-- The key set in a body. A set without keys is an error. -/
def parseSet (text : String) : Except String (List Jwk) :=
  match web.parseJwkSet text with
  | .error e => .error ("jwks parse: " ++ e)
  | .ok set => if set.isEmpty then .error "empty JWKS" else .ok set

/-- Download the key set from its location. -/
def fetch : WebProg Jwk (Except String (List Jwk)) := do
  match ← client.jwksLocation web with
  | .error e => pure (.error e)
  | .ok url =>
      let reply : HttpReply ← Program.call (WebEffect.get url client.authHeader)
      match reply.read "" with
      | .error e => pure (.error e)
      | .ok text => pure (parseSet web text)

/-- Answer an access of a program that uses a key set. -/
def perform : (effect : KeyEffect Jwk) → WebProg Jwk (KeyAnswer effect)
  | .current => Program.call WebEffect.current
  | .shouldRefetch => Program.call WebEffect.shouldRefetch
  | .fetch => client.fetch web
  | .store set => Program.call (WebEffect.store set)

end HttpKeysClient

/-- The tasks over the key set of a client that has just been made. -/
def webPool {Key Thread : Type} (platform : Platform Jwk Key) (service : AuthService Jwk Key)
    (client : HttpKeysClient) (ttl : Nat) (tasks : Thread → CacheTask) :
    Pool Thread (WebEffect Jwk) WebAnswer (CacheOutcome Key) (WebWorld Jwk) where
  store := ⟨none, 0, none⟩
  program := fun thread =>
    ((tasks thread).program platform service (.remote client.toHttpKeysFetcher ttl)).expand
      (client.perform web)

end Zonemail.Auth
