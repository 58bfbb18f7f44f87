import Zonemail.Auth.Token
import Zonemail.Library.Program

/-!
# Verification keys

The key material of `keys.rs`. A key set lives in a cache that the resolution of a key, and a
background task, may replace with a newly fetched set. Resolution is a program whose effects are
the single accesses to the cache, the clock and the key source, so that other programs may run
between any two of them. `KeySet.safe_resolve` says what a resolution does whatever these answer: it
stores only what it has just fetched, and its result rests on its last look at the cache.
-/

namespace Zonemail.Auth

open Library

/-- Why a token is rejected. -/
inductive AuthError where
  | algorithmDisallowed (name : String)
  | unknownKid
  | sourceUnavailable
  | verify (text : String)
  deriving DecidableEq, Repr

/-- Where a remote key set is fetched from. -/
structure HttpKeysFetcher where
  base : String
  discovery : Bool
  discoveryPath : String
  jwksPathOverride : Option String
  deriving DecidableEq, Repr

/-- The fetcher of a key set with a fixed location. -/
def HttpKeysFetcher.jwks (url : String) : HttpKeysFetcher :=
  ⟨url, false, "/.well-known/openid-configuration", none⟩

/-- The fetcher of a key set whose location the issuer tells, or is given relative to it. -/
def HttpKeysFetcher.issuer (issuer : String) (discoveryPath jwksPath : Option String) :
    HttpKeysFetcher :=
  ⟨issuer, jwksPath.isNone, discoveryPath.getD "/.well-known/openid-configuration", jwksPath⟩

/-- A key set: what its cache starts with, how it is fetched, if at all, and the age in nanoseconds
at which it is stale. -/
structure KeySet (Jwk : Type) where
  initial : Option (List Jwk)
  fetcher : Option HttpKeysFetcher
  ttl : Nat

/-- A set given in the configuration. -/
def KeySet.staticSet {Jwk : Type} (set : List Jwk) : KeySet Jwk := ⟨some set, none, 0⟩

/-- A set that starts out empty and is fetched. -/
def KeySet.remote {Jwk : Type} (fetcher : HttpKeysFetcher) (ttl : Nat) : KeySet Jwk :=
  ⟨none, some fetcher, ttl⟩

/-- How signatures are checked. -/
inductive KeyMaterial (Jwk Key : Type) where
  | secret (key : Key)
  | set (keys : KeySet Jwk)

/-! ## Effects on the cache -/

/-- One access to the cache or to the key source. -/
inductive KeyEffect (Jwk : Type) where
  | current
  | shouldRefetch
  | fetch
  | store (set : List Jwk)

/-- What a program learns from an access. -/
@[reducible] def KeyAnswer {Jwk : Type} : KeyEffect Jwk → Type
  | .current => Option (List Jwk)
  | .shouldRefetch => Bool
  | .fetch => Except String (List Jwk)
  | .store _ => Unit

/-- Programs that use a key set. -/
abbrev KeyProg (Jwk α : Type) := Program (KeyEffect Jwk) KeyAnswer α

/-- The last set fetched, and when. -/
structure CachedSet (Jwk : Type) where
  jwkSet : List Jwk
  fetchedAt : Nat

/-- The cache, the clock in nanoseconds, and what the fetches to come will find. -/
structure KeyWorld (Jwk : Type) where
  cache : Option (CachedSet Jwk)
  clock : Nat
  fetches : List (Except String (List Jwk))

/-- Perform one access. A cache is stale when it is empty or has reached the age. -/
def KeyWorld.perform {Jwk : Type} (ttl : Nat) :
    (effect : KeyEffect Jwk) → KeyWorld Jwk → KeyAnswer effect × KeyWorld Jwk
  | .current, world => (world.cache.map CachedSet.jwkSet, world)
  | .shouldRefetch, world =>
      (world.cache.elim true (fun cached => decide (ttl ≤ world.clock - cached.fetchedAt)), world)
  | .fetch, world =>
      (world.fetches.head?.getD (.error "http: unreachable"),
        { world with fetches := world.fetches.tail })
  | .store set, world => ((), { world with cache := some ⟨set, world.clock⟩ })

/-! ## Resolution -/

variable {Jwk Key : Type} (lib : JsonWebToken Jwk Key)

/-- The key for a header: with a key id the matching one, without the only one that has none. -/
def pickKey (set : List Jwk) (header : Header) : Option Key :=
  match header.kid with
  | some kid =>
      (set.find? (fun jwk => lib.keyId jwk == some kid)).bind
        (fun jwk => (lib.fromJwk jwk).toOption)
  | none =>
      match set.filter (fun jwk => (lib.keyId jwk).isNone) with
      | [jwk] => (lib.fromJwk jwk).toOption
      | _ => none

/-- The key from whatever the cache holds. -/
def KeySet.resolveCached (header : Header) : KeyProg Jwk (Except AuthError Key) := do
  match ← Program.call KeyEffect.current with
  | some set =>
      match pickKey lib set header with
      | some key => pure (.ok key)
      | none => pure (.error .unknownKid)
  | none => pure (.error .sourceUnavailable)

/-- The key for a header: from the cache, or else from a newly fetched set when the cache is
stale. -/
def KeySet.resolve (keys : KeySet Jwk) (header : Header) :
    KeyProg Jwk (Except AuthError Key) := do
  -- Fast path: the cached set has the key.
  let cached : Option (List Jwk) ← Program.call KeyEffect.current
  match cached.bind (fun set => pickKey lib set header) with
  | some key => pure (.ok key)
  | none =>
      match keys.fetcher with
      | none => KeySet.resolveCached lib header
      | some _ =>
          if ← Program.call KeyEffect.shouldRefetch then
            match ← Program.call KeyEffect.fetch with
            | .ok set =>
                -- A set fetched by another program may be in the cache by the time it is read.
                Program.call (KeyEffect.store set)
                let fresh : Option (List Jwk) ← Program.call KeyEffect.current
                match fresh.bind (fun set => pickKey lib set header) with
                | some key => pure (.ok key)
                | none => pure (.error .unknownKid)
            -- The source cannot be reached: any stale set will do.
            | .error _ => KeySet.resolveCached lib header
          else KeySet.resolveCached lib header

/-- A key that the cached set has is resolved at once. -/
theorem KeySet.run_resolve_of_pickKey {keys : KeySet Jwk} {header : Header} {ttl : Nat}
    {world : KeyWorld Jwk} {cached : CachedSet Jwk} {key : Key} (hcache : world.cache = some cached)
    (hpick : pickKey lib cached.jwkSet header = some key) :
    (keys.resolve lib header).run (KeyWorld.perform ttl) world = (.ok key, world) := by
  simp [KeySet.resolve, KeyWorld.perform, hcache, hpick]

variable {lib}

/-! ## What a resolution does by itself -/

/-- Only a set that was fetched just before is stored. -/
def StoresFetched (history : Program.History (KeyEffect Jwk) KeyAnswer)
    (effect : KeyEffect Jwk) : Prop :=
  ∀ set, effect = .store set → ∃ front, history = front ++ [⟨.fetch, .ok set⟩]

/-- What the result of a resolution rests on: the last look at the cache. -/
def Served (lib : JsonWebToken Jwk Key) (header : Header)
    (history : Program.History (KeyEffect Jwk) KeyAnswer) : Except AuthError Key → Prop
  | .ok key => ∃ front set, history = front ++ [⟨.current, some set⟩] ∧
      pickKey lib set header = some key
  | .error .sourceUnavailable => ∃ front, history = front ++ [⟨.current, none⟩]
  | .error _ => True

variable {history : Program.History (KeyEffect Jwk) KeyAnswer}

/-- An access that stores nothing obeys the rule. -/
theorem storesFetched_of_ne {effect : KeyEffect Jwk} (h : ∀ set, effect ≠ .store set) :
    StoresFetched history effect :=
  fun set heffect => absurd heffect (h set)

theorem KeySet.safe_resolveCached (header : Header) :
    Program.Safe (fun _ _ => True) StoresFetched (Served lib header)
      (KeySet.resolveCached lib header) history := by
  simp only [KeySet.resolveCached, Program.call_bind]
  refine .perform (storesFetched_of_ne nofun) (fun answer _ => ?_)
  cases answer with
  | none => exact .done ⟨history, rfl⟩
  | some set =>
      dsimp only
      cases hpick : pickKey lib set header with
      | some key => exact .done ⟨history, set, rfl, hpick⟩
      | none => exact .done trivial

theorem KeySet.safe_resolve (keys : KeySet Jwk) (header : Header) :
    Program.Safe (fun _ _ => True) StoresFetched (Served lib header)
      (keys.resolve lib header) history := by
  simp only [KeySet.resolve, Program.call_bind]
  refine .perform (storesFetched_of_ne nofun) (fun cached _ => ?_)
  cases hcached : cached.bind (fun set => pickKey lib set header) with
  | some key =>
      obtain ⟨set, rfl, hpick⟩ := Option.bind_eq_some_iff.mp hcached
      exact .done ⟨history, set, rfl, hpick⟩
  | none =>
      cases keys.fetcher with
      | none => exact KeySet.safe_resolveCached header
      | some fetcher =>
          refine .perform (storesFetched_of_ne nofun) (fun stale _ => ?_)
          cases stale with
          | false => exact KeySet.safe_resolveCached header
          | true =>
              refine .perform (storesFetched_of_ne nofun) (fun fetched _ => ?_)
              cases fetched with
              | error e => exact KeySet.safe_resolveCached header
              | ok set =>
                  refine .perform ?_ (fun _ _ => ?_)
                  · intro _ h
                    cases h
                    exact ⟨_, rfl⟩
                  · refine .perform (storesFetched_of_ne nofun) (fun fresh _ => ?_)
                    cases hfresh : fresh.bind (fun set => pickKey lib set header) with
                    | some key =>
                        obtain ⟨last, rfl, hpick⟩ := Option.bind_eq_some_iff.mp hfresh
                        exact .done ⟨_, last, rfl, hpick⟩
                    | none => exact .done trivial

end Zonemail.Auth
