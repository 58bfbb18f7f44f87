import Mathlib.Data.List.Sort
import Zonemail.Auth.Keys
import Zonemail.Auth.Policy

/-!
# The authentication service

The configuration of `config.rs` that concerns authentication, the construction of the service from
it, and the verification of a token.
-/

namespace Zonemail.Auth

open Library
open Text (toAsciiUppercase trim)

/-! ## Configuration -/

/-- Where the key material comes from. -/
inductive KeysKind where
  | secret
  | jwks
  | jwksRemote
  | issuer
  deriving DecidableEq, Repr

/-- The key source and how it is kept fresh. -/
structure KeyConfig where
  kind : KeysKind
  secret : Option String
  secretB64 : Option String
  secretEnv : Option String
  jwks : Option Json
  jwksUrl : Option String
  issuer : Option String
  discoveryPath : Option String
  jwksPath : Option String
  cacheTtlSecs : Nat
  failClosed : Bool
  algorithms : List String

def KeyConfig.default : KeyConfig :=
  { kind := .secret
    secret := none
    secretB64 := none
    secretEnv := none
    jwks := none
    jwksUrl := none
    issuer := none
    discoveryPath := none
    jwksPath := none
    cacheTtlSecs := 300
    failClosed := true
    algorithms := [] }

/-- The algorithms of a source when none are configured. -/
def KeyConfig.defaultAlgorithms (keys : KeyConfig) : List String :=
  match keys.kind with
  | .secret => ["HS256"]
  | _ => ["RS256", "ES256"]

/-- The authentication part of the configuration. -/
structure AuthConfig where
  enabled : Bool
  issuer : Option String
  audience : List String
  clockSkewSecs : Nat
  subjectClaim : String
  roleClaims : List String
  public_ : List String
  keys : KeyConfig
  roles : HashMap String RoleConfig

def AuthConfig.defaultPublic : List String := ["health", "doc"]

def AuthConfig.default : AuthConfig :=
  { enabled := false
    issuer := none
    audience := []
    clockSkewSecs := 30
    subjectClaim := "sub"
    roleClaims := ["role"]
    public_ := AuthConfig.defaultPublic
    keys := KeyConfig.default
    roles := ∅ }

/-! ## Construction -/

/-- Why a service cannot be built. -/
inductive AuthBuildError where
  | noKeyMaterial
  | unknownAlgorithm (name : String)
  | jwksParse (text : String)
  | noSecret
  deriving DecidableEq, Repr

/-- Parse the name of an algorithm in any case. -/
def parseAlgorithm (name : String) : Option Algorithm :=
  match toAsciiUppercase name with
  | "HS256" => some .HS256
  | "HS384" => some .HS384
  | "HS512" => some .HS512
  | "ES256" => some .ES256
  | "ES384" => some .ES384
  | "RS256" => some .RS256
  | "RS384" => some .RS384
  | "RS512" => some .RS512
  | "PS256" => some .PS256
  | "PS384" => some .PS384
  | "PS512" => some .PS512
  | "EDDSA" => some .EdDSA
  | _ => none

/-- Parse one configured algorithm. -/
def buildAlgorithm (name : String) : Except AuthBuildError Algorithm :=
  match parseAlgorithm name with
  | some alg => .ok alg
  | none => .error (.unknownAlgorithm name)

/-- The allow-list: the configured algorithms, or the default ones of the source. -/
def buildAlgorithms (keys : KeyConfig) : Except AuthBuildError (List Algorithm) :=
  (if keys.algorithms.isEmpty then keys.defaultAlgorithms else keys.algorithms).mapM buildAlgorithm

/-- What surrounds the service: the token library, the environment variables and the two base64
decoders. -/
structure Platform (Jwk Key : Type) where
  jwt : JsonWebToken Jwk Key
  env : String → Option String
  base64Standard : String → Option Bytes
  base64UrlSafe : String → Option Bytes

/-- The bytes of a string. -/
def asBytes (s : String) : Bytes := s.toList.flatMap String.utf8EncodeChar

variable {Jwk Key : Type} (platform : Platform Jwk Key)

/-- The secret from a base64 text or a plain one. -/
def resolveConfiguredSecret (keys : KeyConfig) : Except AuthBuildError Bytes :=
  match keys.secretB64, keys.secret with
  | some b64, _ =>
      match platform.base64Standard (trim b64) with
      | some bytes => .ok bytes
      | none =>
          match platform.base64UrlSafe (trim b64) with
          | some bytes => .ok bytes
          | none => .error .noSecret
  | none, some secret => .ok (asBytes secret)
  | none, none => .error .noSecret

/-- The secret: from the environment, or else from the configuration. -/
def resolveSecretBytes (keys : KeyConfig) : Except AuthBuildError Bytes :=
  match keys.secretEnv with
  | none => resolveConfiguredSecret platform keys
  | some env =>
      -- A variable that is not set stands for its own name.
      let value := trim ((platform.env env).getD env)
      if value.isEmpty then resolveConfiguredSecret platform keys else .ok (asBytes value)

/-- A duration in nanoseconds. -/
def fromSecs (secs : Nat) : Nat := secs * 1000000000

/-- The key material of the configured source. -/
def buildKeyMaterial (config : AuthConfig) : Except AuthBuildError (KeyMaterial Jwk Key) :=
  match config.keys.kind with
  | .secret =>
      match resolveSecretBytes platform config.keys with
      | .error e => .error e
      | .ok bytes => .ok (.secret (platform.jwt.fromSecret bytes))
  | .jwks =>
      match config.keys.jwks with
      | none => .error .noKeyMaterial
      | some value =>
          match platform.jwt.parseJwks value with
          | .error e => .error (.jwksParse e)
          | .ok set =>
              if set.isEmpty then .error .noKeyMaterial else .ok (.set (.staticSet set))
  | .jwksRemote =>
      match config.keys.jwksUrl with
      | none => .error .noKeyMaterial
      | some url => .ok (.set (.remote (.jwks url) (fromSecs config.keys.cacheTtlSecs)))
  | .issuer =>
      match config.keys.issuer with
      | none => .error .noKeyMaterial
      | some issuer =>
          .ok (.set (.remote (.issuer issuer config.keys.discoveryPath config.keys.jwksPath)
            (fromSecs config.keys.cacheTtlSecs)))

/-- The service. -/
structure AuthService (Jwk Key : Type) where
  enabled : Bool
  issuer : Option String
  audience : List String
  leeway : Nat
  algorithms : List Algorithm
  subjectClaim : String
  roleClaims : List String
  policy : AuthPolicy
  keyMaterial : KeyMaterial Jwk Key
  failClosed : Bool

/-- The service that lets everything pass. -/
def AuthService.disabled (order : BuildOrder) : AuthService Jwk Key :=
  { enabled := false
    issuer := none
    audience := []
    leeway := 60
    algorithms := [.HS256]
    subjectClaim := "sub"
    roleClaims := ["role"]
    policy := .build order ∅ AuthConfig.defaultPublic
    keyMaterial := .secret (platform.jwt.fromSecret (asBytes "z"))
    failClosed := true }

/-- Build the service from a configuration. -/
def AuthService.build (order : BuildOrder) (config : AuthConfig) :
    Except AuthBuildError (AuthService Jwk Key) :=
  if config.enabled then
    match buildAlgorithms config.keys with
    | .error e => .error e
    | .ok algorithms =>
        match buildKeyMaterial platform config with
        | .error e => .error e
        | .ok keyMaterial =>
            .ok
              { enabled := config.enabled
                issuer := config.issuer
                audience := config.audience
                leeway := config.clockSkewSecs
                algorithms := algorithms
                subjectClaim := config.subjectClaim
                roleClaims := config.roleClaims
                policy := .build order config.roles config.public_
                keyMaterial := keyMaterial
                failClosed := config.keys.failClosed }
  else .ok (AuthService.disabled platform order)

/-! ## The verified principal -/

/-- Who is calling. -/
structure VerifiedClaims where
  subject : Option String
  roles : List String
  deriving DecidableEq, Repr

/-- Walk a dotted path through objects. -/
def walk (root : Json) (path : String) : Option Json :=
  (Text.split '.' path).foldlM Json.get root

/-- The text at a path. -/
def fieldStr (value : Json) (path : String) : Option String := (walk value path).bind Json.asStr

/-- The texts at a path: a text, or those of an array. -/
def collectRoles (value : Json) (path : String) : List String :=
  match walk value path with
  | none => []
  | some found =>
      found.asStr.toList ++ (found.asArray.getD []).filterMap Json.asStr

/-- Subject and roles of the claims, the roles sorted and without duplicates. -/
def VerifiedClaims.extract (raw : Json) (subjectClaim : String) (roleClaims : List String) :
    VerifiedClaims :=
  { subject := fieldStr raw subjectClaim
    roles := ((roleClaims.flatMap (collectRoles raw)).dedup).insertionSort (· ≤ ·) }

/-! ## Verification -/

/-- The settings with which a token is decoded. -/
def AuthService.validation (service : AuthService Jwk Key) (alg : Algorithm) : Validation :=
  -- Required claims, `nbf` and the audience check stay at their defaults.
  let base := { Validation.new alg with algorithms := service.algorithms, leeway := service.leeway }
  let withIssuer :=
    match service.issuer with
    | some issuer => base.setIssuer [issuer]
    | none => base
  if service.audience.isEmpty then withIssuer else withIssuer.setAudience service.audience

/-- The key for a token. -/
def AuthService.selectKey (service : AuthService Jwk Key) (header : Header) :
    KeyProg Jwk (Except AuthError Key) :=
  match service.keyMaterial with
  | .secret key => pure (.ok key)
  | .set keys => keys.resolve platform.jwt header

/-- Verify a token: its algorithm before any key is touched, then signature and claims. -/
def AuthService.verify (service : AuthService Jwk Key) (now : Nat) (token : String) :
    KeyProg Jwk (Except AuthError VerifiedClaims) :=
  match platform.jwt.decodeHeader token with
  | .error e => pure (.error (.verify e))
  | .ok header =>
      if header.alg ∈ service.algorithms then do
        match ← service.selectKey platform header with
        | .error e => pure (.error e)
        | .ok key =>
            match platform.jwt.decode now token key (service.validation header.alg) with
            | .error e => pure (.error (.verify e))
            | .ok claims =>
                pure (.ok (.extract claims service.subjectClaim service.roleClaims))
      else pure (.error (.algorithmDisallowed header.alg.debug))

end Zonemail.Auth
