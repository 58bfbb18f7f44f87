import Zonemail.Api.Response
import Zonemail.Auth.Verification

/-!
# The guard in front of the handlers

The decision of `AuthService::enforce` for one request, and what `AuthGuard` makes of it. A request
that needs a key performs the accesses of `verify` to the key cache, between which other requests
and the background refresh of the cache may run: `authPool` holds any number of both over one cache,
and its runs are their interleavings.

`guard_sound` says what a decision rests on in every such run. A request passes without claims only
on a path without a resource, on a public resource, or when the service fails open and no key set
has ever reached the cache; it passes with claims only when its bearer token was verified to them
and the policy allows them; otherwise the guard answers 401 or 403 and stops the handlers behind it.
-/

namespace Zonemail.Auth

open Library
open Text (toAsciiLowercase trim splitWhitespace trimStartMatches eqIgnoreAsciiCase isWhitespace)

/-! ## Requests -/

/-- What the guard reads of a request: the method, the path of the target, and the headers under
their lower-case names, in the order of their values. -/
structure HttpRequest where
  method : String
  path : String
  headers : List (String × Bytes)

/-- The first value of a header. -/
def HttpRequest.header (request : HttpRequest) (name : String) : Option Bytes :=
  request.headers.lookup name

/-- `HeaderValue::to_str`: the text of a value of visible ASCII characters and tabs. -/
def toStr (value : Bytes) : Option String :=
  if value.all (fun byte => (32 ≤ byte && byte < 127) || byte == 9) then
    some (String.ofList (value.map (fun byte => Char.ofNat byte.toNat)))
  else none

/-- Classify an HTTP method. A method that is not listed is a write. -/
def Verb.fromMethod (method : String) : Verb :=
  match method with
  | "GET" | "HEAD" | "OPTIONS" => .read
  | "DELETE" => .delete
  | _ => .write

/-- The first segment of a path after its leading slashes. -/
def firstSegment (path : String) : String :=
  ((Text.split '/' (trimStartMatches (· == '/') path)).head?).getD ""

/-- The resource a path belongs to, if any. -/
def resourceForPath (path : String) : Option String :=
  let segment := firstSegment path
  if segment.isEmpty then none else some (toAsciiLowercase segment)

/-- What a request asks for. -/
def routeTarget (path method : String) : Option RouteTarget :=
  (resourceForPath path).map (fun resource => ⟨resource, Verb.fromMethod method⟩)

/-- The token of a bearer `Authorization` header. -/
def extractBearer (request : HttpRequest) : Option String :=
  match (request.header "authorization").bind toStr with
  | none => none
  | some value =>
      match splitWhitespace (trim value) with
      | [scheme, token] => if eqIgnoreAsciiCase scheme "bearer" then some token else none
      | _ => none

/-! ## The decision -/

/-- What becomes of a request. -/
inductive Decision where
  | continue_ (claims : Option VerifiedClaims)
  | unauthenticated (detail : String)
  | forbidden (detail : String)
  deriving DecidableEq, Repr

variable {Jwk Key : Type} (platform : Platform Jwk Key)

/-- The decision for a request; `now` is the time at which a token is decoded. -/
def AuthService.enforce (service : AuthService Jwk Key) (now : Nat) (request : HttpRequest) :
    KeyProg Jwk Decision :=
  if !service.enabled then pure (.continue_ none)
  else
    match routeTarget request.path request.method with
    | none => pure (.continue_ none)
    | some target =>
        if service.policy.isPublic target.resource then pure (.continue_ none)
        else
          match extractBearer request with
          | none => pure (.unauthenticated "missing bearer token on `Authorization`")
          | some token => do
              match ← service.verify platform now token with
              | .ok claims =>
                  if service.policy.allows claims.roles target then
                    pure (.continue_ (some claims))
                  else pure (.forbidden "authenticated roles do not permit this route")
              | .error .sourceUnavailable =>
                  if service.failClosed then
                    pure (.unauthenticated "verification key source is unavailable")
                  else pure (.continue_ none)
              | .error _ => pure (.unauthenticated "invalid or expired token")

/-- What the guard did to a request: the claims it left for the handlers, the response it wrote, and
whether it stopped the remaining handlers. -/
structure GuardResult where
  injected : Option VerifiedClaims
  response : Option Api.Response
  skipRest : Bool

/-- A rejection: an HTTP status with its problem document. -/
def writeRejection (status : Nat) (detail : String) : Api.Response :=
  .problem status ⟨status, "authentication_error", some detail⟩

/-- What the guard makes of a decision. -/
def AuthGuard.apply : Decision → GuardResult
  | .continue_ claims => ⟨claims, none, false⟩
  | .unauthenticated detail => ⟨none, some (writeRejection 401 detail), true⟩
  | .forbidden detail => ⟨none, some (writeRejection 403 detail), true⟩

/-! ## Requests and refreshes over one cache -/

/-- The background refresh, for this many rounds. A failed fetch keeps the last set. -/
def spawnRefresh : Nat → KeyProg Jwk Unit
  | 0 => pure ()
  | rounds + 1 => do
      match ← Program.call KeyEffect.fetch with
      | .ok set =>
          Program.call (KeyEffect.store set)
          spawnRefresh rounds
      | .error _ => spawnRefresh rounds

/-- What runs over the key cache of a service. -/
inductive KeyTask where
  | request (now : Nat) (received : HttpRequest)
  | refresh (rounds : Nat)

/-- The program of a task. A request ends with its decision and what the guard made of it. -/
def KeyTask.program (service : AuthService Jwk Key) :
    KeyTask → KeyProg Jwk (Option (Decision × GuardResult))
  | .request now received => do
      let decision ← service.enforce platform now received
      pure (some (decision, AuthGuard.apply decision))
  | .refresh rounds => do
      spawnRefresh rounds
      pure none

/-- The key set of a service, if it has one. -/
def AuthService.keySet (service : AuthService Jwk Key) : Option (KeySet Jwk) :=
  match service.keyMaterial with
  | .secret _ => none
  | .set keys => some keys

/-- Perform one access after some time has passed, with what a fetch would find now. -/
def keyExecute (ttl : Nat) (effect : KeyEffect Jwk) (input : Nat × Except String (List Jwk))
    (world : KeyWorld Jwk) : KeyAnswer effect × KeyWorld Jwk :=
  KeyWorld.perform ttl effect { world with clock := world.clock + input.1, fetches := [input.2] }

/-- The age at which the key set of a service is stale. -/
def AuthService.ttl (service : AuthService Jwk Key) : Nat := (service.keySet.map KeySet.ttl).getD 0

/-- The tasks over the cache as it is right after the service was built. -/
def authPool {Thread : Type} (service : AuthService Jwk Key) (tasks : Thread → KeyTask) :
    Pool Thread (KeyEffect Jwk) KeyAnswer (Option (Decision × GuardResult)) (KeyWorld Jwk) where
  store := ⟨(service.keySet.bind KeySet.initial).map (fun set => ⟨set, 0⟩), 0, []⟩
  program := fun thread => (tasks thread).program platform service

/-! ## Bearer tokens -/

/-- The text is a bearer scheme in any letter case and this token, with white space between them,
and none but white space around them. -/
def BearerText (text token : String) : Prop :=
  ∃ lead scheme gap tail : List Char, text.toList = lead ++ scheme ++ gap ++ token.toList ++ tail ∧
    toAsciiLowercase (String.ofList scheme) = "bearer" ∧ token.toList ≠ [] ∧
    (∀ c ∈ token.toList, isWhitespace c = false) ∧ gap ≠ [] ∧
    ∀ c ∈ lead ++ gap ++ tail, isWhitespace c

/-- Two words are all that a text splits into. -/
theorem exists_of_splitWhitespace {text first second : String}
    (h : splitWhitespace (trim text) = [first, second]) :
    ∃ lead gap tail : List Char,
      text.toList = lead ++ first.toList ++ gap ++ second.toList ++ tail ∧ second.toList ≠ [] ∧
      (∀ c ∈ second.toList, isWhitespace c = false) ∧ gap ≠ [] ∧
      ∀ c ∈ lead ++ gap ++ tail, isWhitespace c := by
  obtain ⟨before, after, htext, hbefore, hafter⟩ := Text.exists_of_trimMatches isWhitespace text
  obtain ⟨word, words, hparts, rfl, hwords⟩ := List.map_eq_cons_iff.mp h
  obtain ⟨word', rest, rfl, rfl, hrest⟩ := List.map_eq_cons_iff.mp hwords
  obtain rfl := List.map_eq_nil_iff.mp hrest
  obtain ⟨lead, middle, htrim, hlead, -, -, hmiddle, hparts⟩ := Text.exists_of_parts_eq_cons hparts
  obtain ⟨gap, last, rfl, hgap, hne, hword, -, hparts⟩ := Text.exists_of_parts_eq_cons hparts
  have hlast := Text.forall_of_parts_eq_nil hparts
  refine ⟨before ++ lead, gap, last ++ after, ?_, by simpa using hne, by simpa using hword, ?_, ?_⟩
  · rw [htext]
    change before ++ (trim text).toList ++ after = _
    rw [htrim]
    simp
  · intro heq
    obtain rfl := heq
    -- Without a gap the first character of the second word would separate the words.
    cases word' with
    | nil => exact hne rfl
    | cons c word' =>
        have hc := hword c (List.mem_cons_self ..)
        rw [hmiddle c rfl] at hc
        cases hc
  · intro c hc
    simp only [List.mem_append] at hc
    rcases hc with ((h | h) | h) | h | h
    · exact hbefore c h
    · exact hlead c h
    · exact hgap c h
    · exact hlast c h
    · exact hafter c h

theorem bearerText_of_extractBearer {request : HttpRequest} {token : String}
    (h : extractBearer request = some token) :
    ∃ value text, request.header "authorization" = some value ∧ toStr value = some text ∧
      BearerText text token := by
  unfold extractBearer at h
  split at h
  · cases h
  · rename_i text htext
    obtain ⟨value, hvalue, hstr⟩ := Option.bind_eq_some_iff.mp htext
    split at h
    · rename_i scheme word hwords
      split at h
      · rename_i hscheme
        cases h
        obtain ⟨lead, gap, tail, hsplit, hrest⟩ := exists_of_splitWhitespace hwords
        refine ⟨value, text, hvalue, hstr, lead, scheme.toList, gap, tail, hsplit, ?_, hrest⟩
        have hbearer : toAsciiLowercase "bearer" = "bearer" := by decide
        rw [String.ofList_toList, ← hbearer]
        exact beq_iff_eq.mp hscheme
      · cases h
    · cases h

/-! ## What a decision rests on -/

variable {platform} {service : AuthService Jwk Key}

/-- What a request asks for, when it asks for a resource. -/
def HttpRequest.target (request : HttpRequest) : RouteTarget :=
  ⟨toAsciiLowercase (firstSegment request.path), Verb.fromMethod request.method⟩

/-- A request asks for nothing when the first segment of its path is empty. -/
theorem HttpRequest.routeTarget_eq (request : HttpRequest) :
    routeTarget request.path request.method =
      if firstSegment request.path = "" then none else some request.target := by
  by_cases hsegment : firstSegment request.path = ""
  · simp [routeTarget, resourceForPath, hsegment]
  · have hnonempty : (firstSegment request.path).isEmpty = false := by simpa using hsegment
    simp [routeTarget, resourceForPath, hnonempty, hsegment, HttpRequest.target]

/-- What each decision of an enabled service rests on; the history is that of the request. -/
inductive AuthService.Grounds (platform : Platform Jwk Key) (service : AuthService Jwk Key)
    (now : Nat) (request : HttpRequest) (history : Program.History (KeyEffect Jwk) KeyAnswer) :
    Decision → Prop where
  | ungoverned (hsegment : firstSegment request.path = "") :
      Grounds platform service now request history (.continue_ none)
  | isPublic (hpublic : service.policy.isPublic request.target.resource = true) :
      Grounds platform service now request history (.continue_ none)
  | failedOpen {token : String} (hopen : service.failClosed = false)
      (hverify : Program.After (service.verify platform now token) history
        (.done (.error .sourceUnavailable))) :
      Grounds platform service now request history (.continue_ none)
  | allowed {token : String} {claims : VerifiedClaims}
      (hbearer : extractBearer request = some token)
      (hverify : Program.After (service.verify platform now token) history (.done (.ok claims)))
      (hallows : service.policy.allows claims.roles request.target = true) :
      Grounds platform service now request history (.continue_ (some claims))
  | unauthenticated {detail : String} :
      Grounds platform service now request history (.unauthenticated detail)
  | forbidden {detail : String} :
      Grounds platform service now request history (.forbidden detail)

theorem AuthService.grounds_of_enforce {now : Nat} {request : HttpRequest}
    {history : Program.History (KeyEffect Jwk) KeyAnswer} {decision : Decision}
    (henabled : service.enabled = true)
    (h : Program.After (service.enforce platform now request) history (.done decision)) :
    service.Grounds platform now request history decision := by
  simp only [AuthService.enforce, henabled, Bool.not_true, Bool.false_eq_true, if_false,
    request.routeTarget_eq] at h
  by_cases hsegment : firstSegment request.path = ""
  · rw [if_pos hsegment] at h
    cases h
    exact .ungoverned hsegment
  · rw [if_neg hsegment] at h
    dsimp only at h
    cases hpublic : service.policy.isPublic request.target.resource with
    | true =>
        rw [if_pos hpublic] at h
        cases h
        exact .isPublic hpublic
    | false =>
        rw [if_neg (Bool.eq_false_iff.mp hpublic)] at h
        cases hbearer : extractBearer request with
        | none =>
            rw [hbearer] at h
            cases h
            exact .unauthenticated
        | some token =>
            rw [hbearer] at h
            obtain ⟨verifying, rest, result, rfl, hverify, hresult⟩ := h.of_bind
            cases result with
            | ok claims =>
                dsimp only at hresult
                split at hresult
                · rename_i hallows
                  cases hresult
                  rw [List.append_nil]
                  exact .allowed hbearer hverify hallows
                · cases hresult
                  exact .forbidden
            | error e =>
                cases e with
                | sourceUnavailable =>
                    dsimp only at hresult
                    split at hresult
                    · cases hresult
                      exact .unauthenticated
                    · rename_i hopen
                      cases hresult
                      rw [List.append_nil]
                      exact .failedOpen (Bool.eq_false_iff.mpr hopen) hverify
                | _ =>
                    cases hresult
                    exact .unauthenticated

/-! ## The cache along a run -/

section Runs

variable {Thread α : Type} [DecidableEq Thread] {ttl : Nat}
  {pool finish : Pool Thread (KeyEffect Jwk) KeyAnswer α (KeyWorld Jwk)}
  {trace : List (Moment Thread (KeyEffect Jwk) KeyAnswer (KeyWorld Jwk))}
  {allowed : Pool Thread (KeyEffect Jwk) KeyAnswer α (KeyWorld Jwk) →
    Thread × (Nat × Except String (List Jwk)) → Prop}

/-- A cache that holds a set, or in which one was stored, holds a set. -/
theorem cache_isSome_of_run (hrun : Run (Pool.step (keyExecute ttl)) allowed pool trace finish)
    (h : pool.store.cache.isSome ∨ ∃ moment ∈ trace, ∃ set, moment.effect = .store set) :
    finish.store.cache.isSome := by
  refine hrun.invariant_trace (fun trace state =>
    (pool.store.cache.isSome ∨ ∃ moment ∈ trace, ∃ set, moment.effect = .store set) →
      state.store.cache.isSome) ?_ ?_ h
  · rintro (h | ⟨_, hmem, _⟩)
    · exact h
    · cases hmem
  · intro trace state label moments next ih _ hstep h
    obtain ⟨effect, resume, -, rfl, hstore, -⟩ := Pool.step_eq_some hstep
    rw [hstore]
    cases effect with
    | store set => rfl
    | _ =>
        refine ih (h.imp_right ?_)
        intro h
        obtain ⟨moment, hmoment, set, heffect⟩ := h
        rcases List.mem_append.mp hmoment with hmem | hmem
        · exact ⟨moment, hmem, set, heffect⟩
        · rw [List.mem_singleton.mp hmem] at heffect
          cases heffect

/-- What a look at the cache answers is what the cache holds. -/
theorem cache_of_current {thread : Thread} {answer : Option (List Jwk)}
    {front back : Program.History (KeyEffect Jwk) KeyAnswer}
    (hrun : Run (Pool.step (keyExecute ttl)) allowed pool trace finish)
    (hhistory : Pool.history thread trace = front ++ ⟨.current, answer⟩ :: back) :
    ∃ earlier moment later middle, trace = earlier ++ moment :: later ∧ moment.thread = thread ∧
      Pool.history thread later = back ∧
      Run (Pool.step (keyExecute ttl)) allowed pool earlier middle ∧
      middle.store = moment.before ∧ moment.before.cache.map CachedSet.jwkSet = answer := by
  obtain ⟨earlier, moment, later, htrace, hthread, hevent, -, hlater⟩ :=
    Pool.exists_moment_of_history hhistory
  obtain ⟨middle, -, input, -, hbefore, -, hstore, -, hanswer, -⟩ := Pool.run_split hrun htrace
  refine ⟨earlier, moment, later, middle, htrace, hthread, hlater, hbefore, hstore, ?_⟩
  obtain ⟨_, effect, given, before⟩ := moment
  simp only [Sigma.mk.injEq] at hevent
  obtain ⟨rfl, hgiven⟩ := hevent
  cases eq_of_heq hgiven
  exact hanswer.symm

end Runs

/-! ## When the key source counts as unavailable -/

/-- A resolution reports the source as unavailable only when the cache is empty at its last look. -/
theorem KeySet.current_of_resolve {lib : JsonWebToken Jwk Key} {keys : KeySet Jwk}
    {header : Header} {history : Program.History (KeyEffect Jwk) KeyAnswer}
    (h : Program.After (keys.resolve lib header) history (.done (.error .sourceUnavailable))) :
    ∃ front, history = front ++ [⟨.current, none⟩] :=
  (@KeySet.safe_resolve _ _ _ [] keys header).of_after h (fun _ _ => trivial)

theorem AuthService.current_of_verify {now : Nat} {token : String}
    {history : Program.History (KeyEffect Jwk) KeyAnswer}
    (h : Program.After (service.verify platform now token) history
      (.done (.error .sourceUnavailable))) :
    (∃ keys, service.keyMaterial = .set keys) ∧
      ∃ front, history = front ++ [⟨.current, none⟩] := by
  unfold AuthService.verify at h
  split at h
  · cases h
  · rename_i header hheader
    split at h
    · obtain ⟨selecting, rest, result, rfl, hselect, hresult⟩ := h.of_bind
      cases result with
      | ok key =>
          dsimp only at hresult
          split at hresult
          · cases hresult
          · cases hresult
      | error e =>
          cases hresult
          rw [List.append_nil]
          unfold AuthService.selectKey at hselect
          split at hselect
          · cases hselect
          · rename_i keys hkeys
            exact ⟨⟨keys, hkeys⟩, KeySet.current_of_resolve hselect⟩
    · cases h

/-- A cache that is empty was empty from the start, and nothing was stored in it. -/
theorem empty_of_cache_run {Thread : Type} [DecidableEq Thread] {tasks : Thread → KeyTask}
    {trace : List (Moment Thread (KeyEffect Jwk) KeyAnswer (KeyWorld Jwk))}
    {finish : Pool Thread (KeyEffect Jwk) KeyAnswer (Option (Decision × GuardResult))
      (KeyWorld Jwk)}
    (hrun : Run (Pool.step (keyExecute service.ttl)) (fun _ _ => True)
      (authPool platform service tasks) trace finish) (hcache : finish.store.cache = none) :
    service.keySet.bind KeySet.initial = none ∧
      ∀ moment ∈ trace, ∀ set, moment.effect ≠ .store set := by
  have hnever : ¬(((authPool platform service tasks).store.cache.isSome) ∨
      ∃ moment ∈ trace, ∃ set, moment.effect = .store set) := by
    intro h
    have hsome := cache_isSome_of_run hrun h
    rw [hcache] at hsome
    cases hsome
  obtain ⟨hinitial, hnone⟩ := not_or.mp hnever
  refine ⟨by simpa [authPool] using hinitial, ?_⟩
  intro moment hmoment set heffect
  exact hnone ⟨moment, hmoment, set, heffect⟩

/-! ## Soundness -/

/-- What an enabled service takes over from the configuration. -/
structure AuthService.GuardedBy (service : AuthService Jwk Key) (config : AuthConfig) : Prop where
  enabled : service.enabled = true
  failClosed : service.failClosed = config.keys.failClosed
  isPublic : ∀ name ∈ service.policy.public_, ∃ public_ ∈ config.public_,
    toAsciiLowercase public_ = name
  remote : ∀ keys, service.keyMaterial = .set keys → keys.initial = none →
    config.keys.kind = .jwksRemote ∨ config.keys.kind = .issuer

/-- A key set without initial keys comes from a remote source. -/
theorem remote_of_buildKeyMaterial {config : AuthConfig} {keys : KeySet Jwk}
    (h : buildKeyMaterial platform config = .ok (.set keys)) (hinitial : keys.initial = none) :
    config.keys.kind = .jwksRemote ∨ config.keys.kind = .issuer := by
  unfold buildKeyMaterial at h
  cases hkind : config.keys.kind with
  | secret =>
      rw [hkind] at h
      dsimp only at h
      split at h
      · cases h
      · cases h
  | jwks =>
      rw [hkind] at h
      dsimp only at h
      split at h
      · cases h
      · split at h
        · cases h
        · split at h
          · cases h
          · cases h
            cases hinitial
  | jwksRemote => exact .inl rfl
  | issuer => exact .inr rfl

theorem AuthService.guardedBy_of_build {order : BuildOrder} {config : AuthConfig}
    (henabled : config.enabled = true)
    (h : AuthService.build platform order config = .ok service) : service.GuardedBy config := by
  simp only [AuthService.build, henabled, if_true] at h
  split at h
  · cases h
  · split at h
    · cases h
    · rename_i keyMaterial hmaterial
      cases h
      refine ⟨rfl, rfl, ?_, ?_⟩
      · intro name hname
        have hmem : name ∈ (config.public_.map toAsciiLowercase).toFinset := hname
        exact List.mem_map.mp (List.mem_toFinset.mp hmem)
      · intro keys hkeys hinitial
        rw [show keyMaterial = .set keys from hkeys] at hmaterial
        exact remote_of_buildKeyMaterial hmaterial hinitial

/-- Up to the last access of the thread to the cache, which found it empty, nobody had stored a key
set. -/
def NeverDelivered {Thread : Type} [DecidableEq Thread] (thread : Thread)
    (trace : List (Moment Thread (KeyEffect Jwk) KeyAnswer (KeyWorld Jwk))) : Prop :=
  ∃ earlier moment later, trace = earlier ++ moment :: later ∧ moment.thread = thread ∧
    moment.before.cache = none ∧ Pool.history thread later = [] ∧
    ∀ other ∈ earlier, ∀ set, other.effect ≠ .store set

/-- A thread that found the source unavailable did so before any key set was stored. -/
theorem neverDelivered_of_history {Thread : Type} [DecidableEq Thread] {tasks : Thread → KeyTask}
    {trace : List (Moment Thread (KeyEffect Jwk) KeyAnswer (KeyWorld Jwk))}
    {finish : Pool Thread (KeyEffect Jwk) KeyAnswer (Option (Decision × GuardResult))
      (KeyWorld Jwk)}
    (hrun : Run (Pool.step (keyExecute service.ttl)) (fun _ _ => True)
      (authPool platform service tasks) trace finish) {thread : Thread}
    {front : Program.History (KeyEffect Jwk) KeyAnswer}
    (hhistory : Pool.history thread trace = front ++ [⟨.current, none⟩]) :
    service.keySet.bind KeySet.initial = none ∧ NeverDelivered thread trace := by
  obtain ⟨earlier, moment, later, middle, htrace, hthread, hlater, hbefore, hstore, hanswer⟩ :=
    cache_of_current hrun hhistory
  have hempty : middle.store.cache = none := by
    rw [hstore]
    exact Option.map_eq_none_iff.mp hanswer
  obtain ⟨hinitial, hnone⟩ := empty_of_cache_run hbefore hempty
  exact ⟨hinitial, earlier, moment, later, htrace, hthread, hstore ▸ hempty, hlater, hnone⟩

/-- Whatever requests and refreshes run over the cache of an enabled service, a request passes
without claims only on a path without a resource, on a public resource, or when the service fails
open and the remote source has never delivered a key set; it passes with claims only when its bearer
token was verified to them and the policy allows their roles; otherwise the guard writes a 401 or a
403 and stops the remaining handlers. -/
theorem guard_sound {Thread : Type} [DecidableEq Thread] {order : BuildOrder} {config : AuthConfig}
    {tasks : Thread → KeyTask}
    {trace : List (Moment Thread (KeyEffect Jwk) KeyAnswer (KeyWorld Jwk))}
    {finish : Pool Thread (KeyEffect Jwk) KeyAnswer (Option (Decision × GuardResult))
      (KeyWorld Jwk)}
    {thread : Thread} {now : Nat} {request : HttpRequest} {decision : Decision}
    {result : GuardResult} (henabled : config.enabled = true)
    (hbuild : AuthService.build platform order config = .ok service)
    (hrun : Run (Pool.step (keyExecute service.ttl)) (fun _ _ => True)
      (authPool platform service tasks) trace finish)
    (htask : tasks thread = .request now request)
    (hdone : finish.program thread = .done (some (decision, result))) :
    (decision = .continue_ none → firstSegment request.path = "" ∨
      (∃ name ∈ config.public_, eqIgnoreAsciiCase name (firstSegment request.path) = true) ∨
      config.keys.failClosed = false ∧
        (config.keys.kind = .jwksRemote ∨ config.keys.kind = .issuer) ∧
        NeverDelivered thread trace) ∧
    (∀ claims, decision = .continue_ (some claims) → ∃ value text token,
      request.header "authorization" = some value ∧ toStr value = some text ∧
      BearerText text token ∧
      Program.After (service.verify platform now token) (Pool.history thread trace)
        (.done (.ok claims)) ∧
      service.policy.allows claims.roles request.target = true) ∧
    ((∀ claims, decision ≠ .continue_ claims) → ∃ response, result.response = some response ∧
      (response.status = 401 ∨ response.status = 403) ∧ result.skipRest = true) := by
  have hafter := Pool.after_run hrun thread
  simp only [hdone, authPool, htask, KeyTask.program] at hafter
  obtain ⟨first, rest, value, hhistory, hfirst, hrest⟩ := hafter.of_bind
  cases hrest
  rw [List.append_nil] at hhistory
  have hguarded := AuthService.guardedBy_of_build henabled hbuild
  have hgrounds := AuthService.grounds_of_enforce hguarded.enabled hfirst
  rw [← hhistory] at hgrounds
  refine ⟨?_, ?_, ?_⟩
  · intro heq
    obtain rfl := heq
    cases hgrounds with
    | ungoverned hsegment => exact .inl hsegment
    | isPublic hpublic =>
        obtain ⟨name, hname, heq⟩ := hguarded.isPublic _ (of_decide_eq_true hpublic)
        refine .inr (.inl ⟨name, hname, ?_⟩)
        rw [eqIgnoreAsciiCase, heq]
        simp [HttpRequest.target]
    | failedOpen hopen hverify =>
        obtain ⟨⟨keys, hkeys⟩, front, hfront⟩ := AuthService.current_of_verify hverify
        obtain ⟨hinitial, hnever⟩ := neverDelivered_of_history hrun hfront
        refine .inr (.inr ⟨hguarded.failClosed ▸ hopen, hguarded.remote keys hkeys ?_, hnever⟩)
        simpa [AuthService.keySet, hkeys] using hinitial
  · intro claims heq
    obtain rfl := heq
    cases hgrounds with
    | allowed hbearer hverify hallows =>
        obtain ⟨value, text, hvalue, htext, hbearerText⟩ := bearerText_of_extractBearer hbearer
        exact ⟨value, text, _, hvalue, htext, hbearerText, hverify, hallows⟩
  · intro hstopped
    cases decision with
    | continue_ claims => exact absurd rfl (hstopped claims)
    | unauthenticated detail => exact ⟨_, rfl, .inl rfl, rfl⟩
    | forbidden detail => exact ⟨_, rfl, .inr rfl, rfl⟩

/-- A service with a remote key source that fails open. -/
def remoteConfig : AuthConfig :=
  { AuthConfig.default with
    enabled := true
    keys :=
      { KeyConfig.default with
        kind := .jwksRemote
        jwksUrl := some "https://keys.example/jwks.json"
        failClosed := false } }

/-- The sample library, which also reads the header of one more token. -/
def remotePlatform : Platform SampleJwk SampleKey :=
  { samplePlatform with
    jwt :=
      { sampleJwt with
        decodeHeader := fun text =>
          if text = "eyJhbGciOiJFUzI1NiJ9.e30.AA" then .ok ⟨.ES256, none⟩
          else sampleJwt.decodeHeader text } }

/-- The service of the configuration. -/
def remoteService : AuthService SampleJwk SampleKey :=
  { enabled := true
    issuer := none
    audience := []
    leeway := 30
    algorithms := [.RS256, .ES256]
    subjectClaim := "sub"
    roleClaims := ["role"]
    policy := .build ⟨.listed _, .listed _⟩ ∅ AuthConfig.defaultPublic
    keyMaterial := .set (.remote (.jwks "https://keys.example/jwks.json") (fromSecs 300))
    failClosed := false }

/-- A request for the mailboxes with that token, and a refresh. -/
def remoteTasks : Bool → KeyTask
  | true => .request 1700000000 ⟨"GET", "/mailboxes",
      [("authorization", asBytes "Bearer eyJhbGciOiJFUzI1NiJ9.e30.AA")]⟩
  | false => .refresh 1

/-- The request comes while the source cannot be reached; the refresh that follows it succeeds. -/
def remoteLabels : List (Bool × (Nat × Except String (List SampleJwk))) :=
  [(true, 0, .error "unused"), (true, 0, .error "unused"), (true, 0, .error "http: unreachable"),
    (true, 0, .error "unused"), (false, 0, .ok [⟨none, sampleEcKey⟩]), (false, 0, .error "unused")]

/-- A service that fails open lets a request pass before any key set has arrived. -/
theorem guard_sound_failedOpen : ∃ trace finish,
    Run (Pool.step (keyExecute remoteService.ttl)) (fun _ _ => True)
      (authPool remotePlatform remoteService remoteTasks) trace finish ∧
    finish.program true = .done (some (.continue_ none, ⟨none, none, false⟩)) ∧
    remoteConfig.keys.failClosed = false ∧ NeverDelivered true trace := by
  obtain ⟨trace, finish, hexecute, hdone⟩ : ∃ trace finish,
      execute (Pool.step (keyExecute remoteService.ttl))
        (authPool remotePlatform remoteService remoteTasks) remoteLabels = some (trace, finish) ∧
      finish.program true = .done (some (.continue_ none, ⟨none, none, false⟩)) :=
    ⟨_, _, rfl, rfl⟩
  have hrun := execute_run hexecute
  have hbuild : AuthService.build remotePlatform ⟨.listed _, .listed _⟩ remoteConfig =
    .ok remoteService := rfl
  obtain ⟨hpassed, -⟩ := guard_sound (by rfl) hbuild hrun rfl hdone
  rcases hpassed rfl with hsegment | hpublic | ⟨hopen, -, hnever⟩
  · exact absurd hsegment (by decide)
  · exact absurd hpublic (by decide)
  · exact ⟨trace, finish, hrun, hdone, hopen, hnever⟩

end Zonemail.Auth
