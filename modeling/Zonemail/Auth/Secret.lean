import Zonemail.Auth.Verification

/-!
# Where a secret comes from

The secret is documented as the first non-empty of three: the value of the variable that
`secret_env` names, the base64 text and the plain secret. The code takes a variable that is not set
for its own name, and does not look whether the configured secret it takes is empty. `guarded_iff`
says for which configurations and environments this makes no difference.
-/

namespace Zonemail.Auth

open Text (trim)

/-! ## The documented order -/

/-- A source that was found, and gives an empty key. -/
def emptyKey : Except AuthBuildError Bytes → Bool
  | .ok [] => true
  | _ => false

/-- The first source that does not give an empty key; a text that does not decode is an error. -/
def firstNonEmpty (sources : List (Except AuthBuildError Bytes)) : Except AuthBuildError Bytes :=
  (sources.find? (fun source => !emptyKey source)).getD (.error .noSecret)

section Sources

variable {Jwk Key : Type} (platform : Platform Jwk Key)

/-- A base64 text, decoded with the standard alphabet or else the URL-safe one. -/
def decodeSecret (b64 : String) : Except AuthBuildError Bytes :=
  ((platform.base64Standard (trim b64)).or (platform.base64UrlSafe (trim b64))).elim
    (.error .noSecret) .ok

/-- The secrets of the configuration itself. -/
def configuredSecrets (keys : KeyConfig) : List (Except AuthBuildError Bytes) :=
  (keys.secretB64.map (decodeSecret platform)).toList ++
    (keys.secret.map (fun secret => .ok (asBytes secret))).toList

/-- The trimmed value of the variable that `secret_env` names, when it is set. -/
def variableValue (keys : KeyConfig) : Option String :=
  (keys.secretEnv.bind platform.env).map trim

/-- All three sources, in the documented order. -/
def documentedSecrets (keys : KeyConfig) : List (Except AuthBuildError Bytes) :=
  ((variableValue platform keys).map (fun value => .ok (asBytes value))).toList ++
    configuredSecrets platform keys

/-- Secret resolution as it is documented: the first non-empty source; no empty key; and without a
value of the variable a key from the configuration. -/
structure Guarded (keys : KeyConfig) : Prop where
  first : resolveSecretBytes platform keys = firstNonEmpty (documentedSecrets platform keys)
  nonempty : resolveSecretBytes platform keys ≠ .ok []
  unset : variableValue platform keys = none →
    resolveSecretBytes platform keys = firstNonEmpty (configuredSecrets platform keys)

/-- What the configuration and the environment must be for that. -/
inductive Covered (keys : KeyConfig) : Prop where
  /-- The variable is set, and not blank. -/
  | value {value : String} (hvalue : variableValue platform keys = some value) (hne : value ≠ "")
  /-- The variable, or its name when it is not set, is blank, and the first configured secret does
  not give an empty key. -/
  | configured (hblank : ∀ name, keys.secretEnv = some name →
      trim ((platform.env name).getD name) = "")
      (hfirst : ∀ source, (configuredSecrets platform keys).head? = some source →
        emptyKey source = false)
  /-- The variable is not set, and its name happens to be the configured secret. -/
  | name {name : String} (hname : keys.secretEnv = some name) (hunset : platform.env name = none)
      (hne : trim name ≠ "")
      (hsame : firstNonEmpty (configuredSecrets platform keys) = .ok (asBytes (trim name)))

end Sources

variable {Jwk Key : Type} {platform : Platform Jwk Key} {keys : KeyConfig}

theorem emptyKey_ok (bytes : Bytes) : emptyKey (.ok bytes) = true ↔ bytes = [] := by
  cases bytes with
  | nil => simp [emptyKey]
  | cons byte rest => simp [emptyKey]

/-- A text that is not empty has bytes. -/
theorem asBytes_ne_nil {s : String} (h : s ≠ "") : asBytes s ≠ [] := by
  intro hbytes
  refine h (String.toList_eq_nil_iff.mp (List.eq_nil_iff_forall_not_mem.mpr (fun c hc => ?_)))
  exact String.utf8EncodeChar_ne_nil (List.flatMap_eq_nil_iff.mp hbytes c hc)

theorem firstNonEmpty_cons (source : Except AuthBuildError Bytes)
    (sources : List (Except AuthBuildError Bytes)) :
    firstNonEmpty (source :: sources) =
      if emptyKey source then firstNonEmpty sources else source := by
  cases h : emptyKey source <;> simp [firstNonEmpty, h]

/-- No empty key comes out of the documented order. -/
theorem firstNonEmpty_ne (sources : List (Except AuthBuildError Bytes)) :
    firstNonEmpty sources ≠ .ok [] := by
  induction sources with
  | nil => simp [firstNonEmpty]
  | cons source sources ih =>
      rw [firstNonEmpty_cons]
      split
      · exact ih
      · rename_i hsource
        intro heq
        obtain rfl := heq
        exact hsource rfl

/-- Taking the first source is the documented order unless that source gives an empty key. -/
theorem head_eq_firstNonEmpty_iff {sources : List (Except AuthBuildError Bytes)} :
    sources.head?.getD (.error .noSecret) = firstNonEmpty sources ↔
      ∀ source, sources.head? = some source → emptyKey source = false := by
  cases sources with
  | nil => simp [firstNonEmpty]
  | cons source sources =>
      rw [firstNonEmpty_cons]
      cases hsource : emptyKey source with
      | false => simp [hsource]
      | true =>
          have hempty : source = .ok [] := by
            unfold emptyKey at hsource
            split at hsource
            · rfl
            · cases hsource
          subst hempty
          simp [(firstNonEmpty_ne sources).symm, emptyKey]

/-! ## What the code does -/

/-- Without the variable the code takes the first configured secret. -/
theorem resolveConfiguredSecret_eq (keys : KeyConfig) :
    resolveConfiguredSecret platform keys =
      (configuredSecrets platform keys).head?.getD (.error .noSecret) := by
  unfold resolveConfiguredSecret configuredSecrets
  cases keys.secretB64 with
  | none => cases keys.secret <;> rfl
  | some b64 =>
      cases hstandard : platform.base64Standard (trim b64) with
      | some bytes => simp [decodeSecret, hstandard]
      | none =>
          cases hurl : platform.base64UrlSafe (trim b64) with
          | none => simp [decodeSecret, hstandard, hurl]
          | some bytes => simp [decodeSecret, hstandard, hurl]

theorem resolveSecretBytes_of_blank (h : ∀ name, keys.secretEnv = some name →
    trim ((platform.env name).getD name) = "") :
    resolveSecretBytes platform keys = resolveConfiguredSecret platform keys := by
  unfold resolveSecretBytes
  cases hname : keys.secretEnv with
  | none => rfl
  | some name => simp [h name hname]

theorem resolveSecretBytes_of_ne {name : String} (hname : keys.secretEnv = some name)
    (hne : trim ((platform.env name).getD name) ≠ "") :
    resolveSecretBytes platform keys = .ok (asBytes (trim ((platform.env name).getD name))) := by
  simp [resolveSecretBytes, hname, hne]

/-- Without a value of the variable, or with a blank one, the documented order is that of the
configuration. -/
theorem firstNonEmpty_documentedSecrets (h : ∀ value, variableValue platform keys = some value →
    value = "") : firstNonEmpty (documentedSecrets platform keys) =
      firstNonEmpty (configuredSecrets platform keys) := by
  cases hvalue : variableValue platform keys with
  | none => simp [documentedSecrets, hvalue]
  | some value =>
      obtain rfl := h value hvalue
      simp [documentedSecrets, hvalue, firstNonEmpty_cons, emptyKey, asBytes]

theorem variableValue_of {name : String} (hname : keys.secretEnv = some name) :
    variableValue platform keys = (platform.env name).map trim := by
  rw [variableValue, hname, Option.bind_some]

/-- The first of the three properties gives the other two. -/
theorem guarded_iff_first : Guarded platform keys ↔
    resolveSecretBytes platform keys = firstNonEmpty (documentedSecrets platform keys) := by
  constructor
  · exact Guarded.first
  · intro h
    refine ⟨h, ?_, fun hunset => ?_⟩
    · rw [h]
      exact firstNonEmpty_ne _
    · rw [h]
      exact firstNonEmpty_documentedSecrets
        (fun value hvalue => by rw [hunset] at hvalue; cases hvalue)

/-- When only blanks are read for the variable, what counts is the first configured secret. -/
theorem guarded_iff_of_blank (hblank : ∀ name, keys.secretEnv = some name →
    trim ((platform.env name).getD name) = "") :
    Guarded platform keys ↔
      ∀ source, (configuredSecrets platform keys).head? = some source →
        emptyKey source = false := by
  have hvalue : ∀ value, variableValue platform keys = some value → value = "" := by
    intro value hvalue
    obtain ⟨text, htext, rfl⟩ := Option.map_eq_some_iff.mp hvalue
    obtain ⟨name, hname, hset⟩ := Option.bind_eq_some_iff.mp htext
    have htrim := hblank name hname
    rwa [hset, Option.getD_some] at htrim
  rw [guarded_iff_first, firstNonEmpty_documentedSecrets hvalue, resolveSecretBytes_of_blank hblank,
    resolveConfiguredSecret_eq, head_eq_firstNonEmpty_iff]

/-- When the variable is set and not blank, its value is the secret. -/
theorem guarded_of_value {value : String} (hvalue : variableValue platform keys = some value)
    (hne : value ≠ "") : Guarded platform keys := by
  obtain ⟨text, htext, rfl⟩ := Option.map_eq_some_iff.mp hvalue
  obtain ⟨name, hname, hset⟩ := Option.bind_eq_some_iff.mp htext
  have hresolve : resolveSecretBytes platform keys = .ok (asBytes (trim text)) := by
    have hread : (platform.env name).getD name = text := by rw [hset, Option.getD_some]
    rw [← hread]
    exact resolveSecretBytes_of_ne hname (by rwa [hread])
  have hkey : emptyKey (.ok (asBytes (trim text))) = false :=
    Bool.eq_false_iff.mpr (fun h => asBytes_ne_nil hne ((emptyKey_ok _).mp h))
  rw [guarded_iff_first, hresolve, documentedSecrets, hvalue]
  simp [firstNonEmpty_cons, hkey]

/-- When the variable is not set, its name is the secret. -/
theorem guarded_iff_of_unset {name : String} (hname : keys.secretEnv = some name)
    (hunset : platform.env name = none) (hne : trim name ≠ "") :
    Guarded platform keys ↔
      firstNonEmpty (configuredSecrets platform keys) = .ok (asBytes (trim name)) := by
  have hresolve : resolveSecretBytes platform keys = .ok (asBytes (trim name)) := by
    have hread : (platform.env name).getD name = name := by rw [hunset, Option.getD_none]
    have h := resolveSecretBytes_of_ne hname (by rwa [hread])
    rwa [hread] at h
  have hvalue : variableValue platform keys = none := by
    rw [variableValue_of hname, hunset, Option.map_none]
  rw [guarded_iff_first, hresolve, firstNonEmpty_documentedSecrets (by simp [hvalue])]
  exact eq_comm

/-- **When secret resolution is as documented**: the first non-empty source, never an empty key and
never the name of a variable that is not set. It is exactly when the variable is set and not blank,
or nothing but blanks is read for it and the first configured secret is not empty, or the name of
the unset variable is the secret that is configured. -/
theorem guarded_iff (platform : Platform Jwk Key) (keys : KeyConfig) :
    Guarded platform keys ↔ Covered platform keys := by
  constructor
  · intro h
    by_cases hblank : ∀ name, keys.secretEnv = some name → trim ((platform.env name).getD name) = ""
    · exact .configured hblank ((guarded_iff_of_blank hblank).mp h)
    · push Not at hblank
      obtain ⟨name, hname, hne⟩ := hblank
      cases hset : platform.env name with
      | none =>
          rw [hset, Option.getD_none] at hne
          exact .name hname hset hne ((guarded_iff_of_unset hname hset hne).mp h)
      | some text =>
          rw [hset, Option.getD_some] at hne
          exact .value (by rw [variableValue_of hname, hset, Option.map_some]) hne
  · intro h
    cases h with
    | value hvalue hne => exact guarded_of_value hvalue hne
    | configured hblank hfirst => exact (guarded_iff_of_blank hblank).mpr hfirst
    | name hname hunset hne hsame => exact (guarded_iff_of_unset hname hunset hne).mpr hsame

/-- The secret is in a variable, and the variable is not set. -/
def unsetVariable : KeyConfig :=
  { KeyConfig.default with secretEnv := some "ZONEMAIL_JWT_SECRET" }

/-- Without the variable, tokens are checked with its name. -/
theorem not_guarded_unsetVariable : ¬ ∀ keys : KeyConfig, Guarded samplePlatform keys := by
  intro h
  have hunset := (h unsetVariable).unset rfl
  have hname : resolveSecretBytes samplePlatform unsetVariable =
      .ok (asBytes "ZONEMAIL_JWT_SECRET") := by rfl
  rw [hname] at hunset
  cases hunset

/-- A plain secret that is empty is taken as it is. -/
example : resolveSecretBytes samplePlatform { KeyConfig.default with secret := some "" } = .ok [] :=
  rfl

end Zonemail.Auth
