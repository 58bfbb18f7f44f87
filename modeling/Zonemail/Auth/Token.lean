import Zonemail.Db.Schema

/-!
# Tokens and the library that decodes them

JSON values, the algorithms and headers of tokens, and the settings of a validation. Decoding itself
is done by the `jsonwebtoken` library, which is a parameter here: `JsonWebToken` lists what the
program calls, together with the observations in which the library's documentation is stated, and
`JsonWebToken.Documented` states it.
-/

namespace Zonemail.Auth

/-! ## JSON -/

/-- A JSON value. Numbers are kept as they are written. -/
inductive Json where
  | null
  | bool (value : Bool)
  | number (literal : String)
  | string (text : String)
  | array (items : List Json)
  | object (fields : List (String × Json))

/-- The field of an object. -/
def Json.get : Json → String → Option Json
  | .object fields, key => fields.lookup key
  | _, _ => none

def Json.asStr : Json → Option String
  | .string text => some text
  | _ => none

def Json.asArray : Json → Option (List Json)
  | .array items => some items
  | _ => none

/-! ## Headers -/

/-- The signature algorithms. -/
inductive Algorithm where
  | HS256 | HS384 | HS512
  | ES256 | ES384
  | RS256 | RS384 | RS512
  | PS256 | PS384 | PS512
  | EdDSA
  deriving DecidableEq, Repr

/-- The kinds of key. -/
inductive Family where
  | hmac
  | rsa
  | ec
  | ed
  deriving DecidableEq, Repr

/-- The kind of key an algorithm works with. -/
def Algorithm.family : Algorithm → Family
  | .HS256 | .HS384 | .HS512 => .hmac
  | .RS256 | .RS384 | .RS512 | .PS256 | .PS384 | .PS512 => .rsa
  | .ES256 | .ES384 => .ec
  | .EdDSA => .ed

/-- The name of an algorithm as `Debug` prints it. -/
def Algorithm.debug : Algorithm → String
  | .HS256 => "HS256"
  | .HS384 => "HS384"
  | .HS512 => "HS512"
  | .ES256 => "ES256"
  | .ES384 => "ES384"
  | .RS256 => "RS256"
  | .RS384 => "RS384"
  | .RS512 => "RS512"
  | .PS256 => "PS256"
  | .PS384 => "PS384"
  | .PS512 => "PS512"
  | .EdDSA => "EdDSA"

/-- What the program reads of a token's header. -/
structure Header where
  alg : Algorithm
  kid : Option String
  deriving DecidableEq, Repr

/-! ## Validation -/

/-- The claims a validation may require. -/
inductive SpecClaim where
  | exp
  | nbf
  | iss
  | aud
  deriving DecidableEq, Repr

/-- The claims of a token that a validation reads, as far as the token has them. A single audience
is a list of one. -/
structure Registered where
  exp : Option Nat
  nbf : Option Nat
  iss : Option String
  aud : Option (List String)
  deriving DecidableEq, Repr

/-- Does the token have the claim? -/
def Registered.has (claims : Registered) : SpecClaim → Bool
  | .exp => claims.exp.isSome
  | .nbf => claims.nbf.isSome
  | .iss => claims.iss.isSome
  | .aud => claims.aud.isSome

/-- The settings of a validation. -/
structure Validation where
  requiredSpecClaims : List SpecClaim
  leeway : Nat
  validateExp : Bool
  validateNbf : Bool
  validateAud : Bool
  aud : Option (List String)
  iss : Option (List String)
  algorithms : List Algorithm
  deriving DecidableEq, Repr

/-- The default settings. -/
def Validation.new (alg : Algorithm) : Validation :=
  { requiredSpecClaims := [.exp]
    leeway := 60
    validateExp := true
    validateNbf := false
    validateAud := true
    aud := none
    iss := none
    algorithms := [alg] }

/-- Tokens must come from one of these issuers. -/
def Validation.setIssuer (validation : Validation) (items : List String) : Validation :=
  { validation with iss := some items }

/-- Tokens must be meant for one of these audiences. -/
def Validation.setAudience (validation : Validation) (items : List String) : Validation :=
  { validation with aud := some items }

/-- Do the claims pass the validation? A claim that the token does not have is checked only when it
is required; an audience claim passes only when audiences were set. -/
structure Validation.Accepts (validation : Validation) (now : Nat) (claims : Registered) :
    Prop where
  required : ∀ claim ∈ validation.requiredSpecClaims, claims.has claim = true
  exp : validation.validateExp = true → ∀ exp ∈ claims.exp, now ≤ exp + validation.leeway
  nbf : validation.validateNbf = true → ∀ nbf ∈ claims.nbf, nbf ≤ now + validation.leeway
  iss : ∀ allowed ∈ validation.iss, ∀ iss ∈ claims.iss, iss ∈ allowed
  aud : validation.validateAud = true → ∀ aud ∈ claims.aud,
    ∃ allowed ∈ validation.aud, ∃ audience ∈ aud, audience ∈ allowed

/-! ## The library -/

/-- What the program calls of the library, and what can be observed of its keys and tokens: the kind
of a key, whether the signature of a token is valid, the payload of a token, and the registered
claims of a payload. -/
structure JsonWebToken (Jwk Key : Type) where
  decodeHeader : String → Except String Header
  decode : Nat → String → Key → Validation → Except String Json
  fromSecret : Bytes → Key
  fromJwk : Jwk → Except String Key
  keyId : Jwk → Option String
  parseJwks : Json → Except String (List Jwk)
  family : Key → Family
  signed : Algorithm → Key → String → Prop
  payload : String → Option Json
  registered : Json → Registered

/-- What the library's documentation says. Decoding succeeds exactly when the algorithm of the
token is among those of the validation, all of these work with the key, the signature is valid and
the claims pass. -/
structure JsonWebToken.Documented {Jwk Key : Type} (lib : JsonWebToken Jwk Key) : Prop where
  decode_eq_ok : ∀ now token key validation claims,
    lib.decode now token key validation = .ok claims ↔
      ∃ header, lib.decodeHeader token = .ok header ∧ header.alg ∈ validation.algorithms ∧
        (∀ alg ∈ validation.algorithms, alg.family = lib.family key) ∧
        lib.signed header.alg key token ∧ lib.payload token = some claims ∧
        validation.Accepts now (lib.registered claims)

end Zonemail.Auth
