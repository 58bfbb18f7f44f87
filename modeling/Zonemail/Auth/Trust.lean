import Zonemail.Auth.Fetcher

/-!
# Where trusted keys come from

A token that the guard accepts was checked with a key from the key cache. Here that key is followed
back to the configuration, over every interleaving of requests, resolutions and refreshes at the
level of single HTTP requests. `WebRule` says what a fetch does by itself, wherever it comes in; the
rule is carried to the runs, where what one task remembers another one uses. Every set in the cache
was downloaded from a location that the configuration gives, or that a discovery document from a
configured location announced, and the credential goes to these locations only.
-/

namespace Zonemail.Auth

open Library

variable {Jwk Key : Type} {web : Web Jwk} {client : HttpKeysClient}

/-! ## What a fetch does by itself -/

/-- What a program did before it knew where the key set is. -/
inductive HttpKeysClient.Located (web : Web Jwk) (client : HttpKeysClient)
    (history : Program.History (WebEffect Jwk) WebAnswer) : String → Prop where
  | relative {path : String} (hpath : client.jwksPathOverride = some path) :
      Located web client history (joinUrl client.base path)
  | direct (hpath : client.jwksPathOverride = none) (hdirect : client.discovery = false) :
      Located web client history client.base
  | remembered {front : Program.History (WebEffect Jwk) WebAnswer} {url : String}
      (hhistory : history = front ++ [⟨.resolved, some url⟩]) :
      Located web client history url
  | announced {front : Program.History (WebEffect Jwk) WebAnswer} {text url : String}
      (htext : client.announced web text = .ok url)
      (hhistory : history = front ++
        [⟨.get client.discoveryUrl client.authHeader, .text text⟩, ⟨.resolve url, ()⟩]) :
      Located web client history url

/-- What a program that fetches over HTTP may do after what it did. -/
inductive HttpKeysClient.WebRule (web : Web Jwk) (client : HttpKeysClient)
    (history : Program.History (WebEffect Jwk) WebAnswer) : WebEffect Jwk → Prop where
  | current : WebRule web client history .current
  | shouldRefetch : WebRule web client history .shouldRefetch
  | resolved : WebRule web client history .resolved
  | discover {front : Program.History (WebEffect Jwk) WebAnswer}
      (hhistory : history = front ++ [⟨.resolved, none⟩]) :
      WebRule web client history (.get client.discoveryUrl client.authHeader)
  | resolve {front : Program.History (WebEffect Jwk) WebAnswer} {text url : String}
      (htext : client.announced web text = .ok url)
      (hhistory : history =
        front ++ [⟨.get client.discoveryUrl client.authHeader, .text text⟩]) :
      WebRule web client history (.resolve url)
  | download {url : String} (hurl : client.Located web history url) :
      WebRule web client history (.get url client.authHeader)
  | store {front : Program.History (WebEffect Jwk) WebAnswer} {url text : String}
      {set : List Jwk} (hurl : client.Located web front url)
      (hset : HttpKeysClient.parseSet web text = .ok set)
      (hhistory : history = front ++ [⟨.get url client.authHeader, .text text⟩]) :
      WebRule web client history (.store set)

variable {history front : Program.History (WebEffect Jwk) WebAnswer}

theorem HttpReply.read_eq_ok {purpose text : String} {reply : HttpReply}
    (h : reply.read purpose = .ok text) : reply = .text text := by
  cases reply with
  | unsent error => cases h
  | unread error => cases h
  | text body =>
      cases h
      rfl

theorem HttpKeysClient.safe_jwksLocation :
    Program.Safe (fun _ _ => True) (client.WebRule web)
      (fun later result => ∀ url, result = .ok url → client.Located web later url)
      (client.jwksLocation web) history := by
  simp only [HttpKeysClient.jwksLocation, Program.call_bind]
  split
  · rename_i path hpath
    refine .done (fun url hurl => ?_)
    cases hurl
    exact .relative hpath
  · rename_i hpath
    split
    · refine .perform .resolved (fun answer _ => ?_)
      cases answer with
      | some url =>
          refine .done (fun other hother => ?_)
          cases hother
          exact .remembered rfl
      | none =>
          refine .perform (.discover rfl) (fun reply _ => ?_)
          split
          · exact .done nofun
          · rename_i text hread
            cases HttpReply.read_eq_ok hread
            split
            · exact .done nofun
            · rename_i url hurl
              refine .perform (.resolve hurl rfl) (fun answer _ => .done (fun other hother => ?_))
              cases hother
              exact .announced hurl (by rw [List.append_assoc]; rfl)
    · rename_i hdirect
      refine .done (fun url hurl => ?_)
      cases hurl
      exact .direct hpath (Bool.eq_false_iff.mpr hdirect)

/-- A fetch obeys the rule, and what it delivers was just downloaded. -/
theorem HttpKeysClient.safe_fetch (history : Program.History (WebEffect Jwk) WebAnswer) :
    Program.Safe (fun _ _ => True) (client.WebRule web)
      (fun later result => ∀ set, result = .ok set → client.WebRule web later (.store set))
      (client.fetch web) history := by
  simp only [HttpKeysClient.fetch, Program.call_bind]
  refine Program.safe_bind HttpKeysClient.safe_jwksLocation (fun later location hlocation => ?_)
  cases location with
  | error e => exact .done nofun
  | ok url =>
      have hurl := hlocation url rfl
      refine .perform (.download hurl) (fun reply _ => ?_)
      split
      · exact .done nofun
      · rename_i text hread
        cases HttpReply.read_eq_ok hread
        exact .done (fun set hset => .store hurl hset rfl)

/-- Every access is answered by a program that obeys the rule, when a set is stored only right after
it was fetched. -/
theorem HttpKeysClient.safe_perform {upper : Program.History (KeyEffect Jwk) KeyAnswer}
    {effect : KeyEffect Jwk} (hupper : Program.Expands (client.perform web) upper history)
    (hrule : StoresFetched upper effect) :
    Program.Safe (fun _ _ => True) (client.WebRule web) (fun _ _ => True)
      (client.perform web effect) history := by
  cases effect with
  | current => exact .perform .current (fun _ _ => .done trivial)
  | shouldRefetch => exact .perform .shouldRefetch (fun _ _ => .done trivial)
  | fetch => exact (HttpKeysClient.safe_fetch history).mono (fun _ _ _ => trivial)
  | store set =>
      obtain ⟨front, rfl⟩ := hrule set rfl
      obtain ⟨before, part, rfl, -, hpart⟩ := hupper.of_snoc
      have hfetched := (HttpKeysClient.safe_fetch before).of_after hpart (fun _ _ => trivial)
      exact .perform (hfetched set rfl) (fun _ _ => .done trivial)

/-- Every task obeys the rule. -/
theorem CacheTask.safe_expand (platform : Platform Jwk Key) (service : AuthService Jwk Key)
    (keys : KeySet Jwk) (task : CacheTask) :
    Program.Safe (fun _ _ => True) (client.WebRule web) (fun _ _ => True)
      ((task.program platform service keys).expand (client.perform web)) [] :=
  ((task.safe_program platform service keys).expand .nil
    (fun _ _ _ hupper hrule => HttpKeysClient.safe_perform hupper hrule)).mono
      (fun _ _ _ => trivial)

/-! ## Along a run -/

section Runs

variable {Thread : Type}

/-- The discovery document announced this location. -/
def HttpKeysClient.Discovered (web : Web Jwk) (client : HttpKeysClient)
    (trace : List (Moment Thread (WebEffect Jwk) WebAnswer (WebWorld Jwk))) (url : String) : Prop :=
  ∃ moment ∈ trace, ∃ text,
    (⟨moment.effect, moment.answer⟩ : Σ effect, WebAnswer effect) =
      ⟨.get client.discoveryUrl client.authHeader, .text text⟩ ∧
    client.announced web text = .ok url

/-- Where keys may come from: the location that the configuration gives, or one that the discovery
document announced. -/
inductive HttpKeysClient.Trusted (web : Web Jwk) (client : HttpKeysClient)
    (trace : List (Moment Thread (WebEffect Jwk) WebAnswer (WebWorld Jwk))) : String → Prop where
  | relative {path : String} (hpath : client.jwksPathOverride = some path) :
      Trusted web client trace (joinUrl client.base path)
  | direct (hpath : client.jwksPathOverride = none) (hdirect : client.discovery = false) :
      Trusted web client trace client.base
  | announced {url : String} (hurl : client.Discovered web trace url) :
      Trusted web client trace url

/-- The set was in the reply of a location that keys might come from by then. -/
def HttpKeysClient.Downloaded (web : Web Jwk) (client : HttpKeysClient)
    (trace : List (Moment Thread (WebEffect Jwk) WebAnswer (WebWorld Jwk))) (set : List Jwk) :
    Prop :=
  ∃ earlier moment later url text, trace = earlier ++ moment :: later ∧
    (⟨moment.effect, moment.answer⟩ : Σ effect, WebAnswer effect) =
      ⟨.get url client.authHeader, .text text⟩ ∧
    client.Trusted web earlier url ∧ HttpKeysClient.parseSet web text = .ok set

variable {trace : List (Moment Thread (WebEffect Jwk) WebAnswer (WebWorld Jwk))}

theorem HttpKeysClient.Discovered.append {url : String} (h : client.Discovered web trace url)
    (more : List (Moment Thread (WebEffect Jwk) WebAnswer (WebWorld Jwk))) :
    client.Discovered web (trace ++ more) url := by
  obtain ⟨moment, hmoment, hannounced⟩ := h
  exact ⟨moment, List.mem_append_left _ hmoment, hannounced⟩

theorem HttpKeysClient.Trusted.append {url : String} (h : client.Trusted web trace url)
    (more : List (Moment Thread (WebEffect Jwk) WebAnswer (WebWorld Jwk))) :
    client.Trusted web (trace ++ more) url := by
  cases h with
  | relative hpath => exact .relative hpath
  | direct hpath hdirect => exact .direct hpath hdirect
  | announced hurl => exact .announced (hurl.append more)

theorem HttpKeysClient.Downloaded.append {set : List Jwk} (h : client.Downloaded web trace set)
    (more : List (Moment Thread (WebEffect Jwk) WebAnswer (WebWorld Jwk))) :
    client.Downloaded web (trace ++ more) set := by
  obtain ⟨earlier, moment, later, url, text, rfl, hdownload⟩ := h
  exact ⟨earlier, moment, later ++ more, url, text, by simp, hdownload⟩

variable [DecidableEq Thread] {platform : Platform Jwk Key} {service : AuthService Jwk Key}
  {ttl : Nat} {tasks : Thread → CacheTask}
  {finish : Pool Thread (WebEffect Jwk) WebAnswer (CacheOutcome Key) (WebWorld Jwk)}

variable (hrun : Run (Pool.step (webExecute ttl)) (fun _ _ => True)
  (webPool web platform service client ttl tasks) trace finish)

include hrun

/-- In every interleaving every step obeys the rule. -/
theorem webRule_of_run {earlier later : List (Moment Thread (WebEffect Jwk) WebAnswer _)}
    {moment : Moment Thread (WebEffect Jwk) WebAnswer (WebWorld Jwk)}
    (htrace : trace = earlier ++ moment :: later) :
    client.WebRule web (Pool.history moment.thread earlier) moment.effect := by
  have hsafe : Pool.SafeRun (webExecute ttl) (fun _ => True) (fun _ _ => True)
      (fun _ => client.WebRule web) trace finish :=
    Pool.safe_run (fun _ _ _ _ => trivial) (fun _ _ _ _ _ _ _ => trivial) trivial
      (fun thread => (tasks thread).safe_expand platform service _) hrun
  exact (hsafe.moments earlier moment later htrace).1

/-- The next step obeys the rule. -/
theorem webRule_of_step {label : Thread × (Nat × HttpReply)}
    {moments : List (Moment Thread (WebEffect Jwk) WebAnswer (WebWorld Jwk))}
    {next : Pool Thread (WebEffect Jwk) WebAnswer (CacheOutcome Key) (WebWorld Jwk)}
    (hstep : Pool.step (webExecute ttl) finish label = some (moments, next)) :
    ∃ effect, moments = [⟨label.1, effect, (webExecute ttl effect label.2 finish.store).1,
        finish.store⟩] ∧
      next.store = (webExecute ttl effect label.2 finish.store).2 ∧
      client.WebRule web (Pool.history label.1 trace) effect := by
  have hnext := Run.snoc label hrun trivial hstep
  obtain ⟨effect, resume, -, rfl, hstore, -⟩ := Pool.step_eq_some hstep
  exact ⟨effect, rfl, hstore, webRule_of_run hnext rfl⟩

/-- A location that is remembered was announced. -/
theorem discovered_of_resolved {url : String} (hresolved : finish.store.resolved = some url) :
    client.Discovered web trace url := by
  induction hrun with
  | refl => cases hresolved
  | snoc label hrun _ hstep ih =>
      obtain ⟨effect, rfl, hstore, heffect⟩ := webRule_of_step hrun hstep
      rw [hstore] at hresolved
      cases effect with
      | resolve found =>
          cases hresolved
          cases heffect with
          | resolve htext hhistory =>
              obtain ⟨earlier, moment, later, rfl, -, hevent, -⟩ :=
                Pool.exists_moment_of_history hhistory
              exact ⟨moment, by simp, _, hevent, htext⟩
      | _ => exact (ih hresolved).append _

/-- A location that a thread knows is one that keys may come from. -/
theorem trusted_of_located {thread : Thread} {url : String}
    (h : client.Located web (Pool.history thread trace) url) : client.Trusted web trace url := by
  cases h with
  | relative hpath => exact .relative hpath
  | direct hpath hdirect => exact .direct hpath hdirect
  | remembered hhistory =>
      obtain ⟨earlier, moment, later, rfl, -, hevent, -⟩ := Pool.exists_moment_of_history hhistory
      obtain ⟨middle, input, hbefore, hstore, hanswer⟩ := Pool.answered_of_run hrun rfl hevent
      have hresolved : middle.store.resolved = some url := hstore ▸ hanswer
      exact .announced ((discovered_of_resolved hbefore hresolved).append _)
  | announced htext hhistory =>
      obtain ⟨earlier, moment, later, rfl, -, hevent, -⟩ := Pool.exists_moment_of_history hhistory
      exact .announced ⟨moment, by simp, _, hevent, htext⟩

/-- A set that may be stored was downloaded. -/
theorem downloaded_of_rule {thread : Thread} {set : List Jwk}
    (h : client.WebRule web (Pool.history thread trace) (.store set)) :
    client.Downloaded web trace set := by
  cases h with
  | store hurl hset hhistory =>
      obtain ⟨earlier, moment, later, rfl, hthread, hevent, hfront, -⟩ :=
        Pool.exists_moment_of_history hhistory
      obtain ⟨middle, -, -, -, hbefore, -⟩ := Pool.run_split hrun rfl
      subst hfront
      exact ⟨earlier, moment, later, _, _, rfl, hevent, trusted_of_located hbefore hurl, hset⟩

/-- A set that is in the cache was downloaded. -/
theorem downloaded_of_cache {cached : CachedSet Jwk} (hcache : finish.store.cache = some cached) :
    client.Downloaded web trace cached.jwkSet := by
  induction hrun with
  | refl => cases hcache
  | snoc label hrun _ hstep ih =>
      obtain ⟨effect, rfl, hstore, heffect⟩ := webRule_of_step hrun hstep
      rw [hstore] at hcache
      cases effect with
      | store set =>
          cases hcache
          exact (downloaded_of_rule hrun heffect).append _
      | _ => exact (ih hcache).append _

end Runs

/-- Once a location was remembered, one is remembered. -/
theorem resolved_isSome_of_run {Thread α : Type} [DecidableEq Thread] {ttl : Nat}
    {pool finish : Pool Thread (WebEffect Jwk) WebAnswer α (WebWorld Jwk)}
    {trace : List (Moment Thread (WebEffect Jwk) WebAnswer (WebWorld Jwk))}
    {allowed : Pool Thread (WebEffect Jwk) WebAnswer α (WebWorld Jwk) →
      Thread × (Nat × HttpReply) → Prop}
    (hrun : Run (Pool.step (webExecute ttl)) allowed pool trace finish)
    (h : ∃ moment ∈ trace, ∃ url, moment.effect = .resolve url) :
    finish.store.resolved.isSome := by
  revert h
  refine hrun.invariant_trace (fun trace state =>
    (∃ moment ∈ trace, ∃ url, moment.effect = .resolve url) → state.store.resolved.isSome) ?_ ?_
  · intro h
    obtain ⟨moment, hmoment, -⟩ := h
    cases hmoment
  · intro trace state label moments next ih _ hstep h
    obtain ⟨moment, hmoment, url, hresolve⟩ := h
    obtain ⟨effect, resume, -, rfl, hstore, -⟩ := Pool.step_eq_some hstep
    rw [hstore]
    rcases List.mem_append.mp hmoment with hold | hnew
    · have hsome := ih ⟨moment, hold, url, hresolve⟩
      cases effect with
      | resolve other => rfl
      | _ => exact hsome
    · rw [List.mem_singleton.mp hnew] at hresolve
      cases hresolve
      rfl

/-! ## Tokens -/

/-- A token that was verified over a key set was checked with a key that was picked at the last look
at the cache. -/
theorem AuthService.picked_of_verify {platform : Platform Jwk Key} {service : AuthService Jwk Key}
    {keys : KeySet Jwk} {now : Nat} {token : String} {claims : VerifiedClaims}
    {history : Program.History (KeyEffect Jwk) KeyAnswer} (hkeys : service.keyMaterial = .set keys)
    (h : Program.After (service.verify platform now token) history (.done (.ok claims))) :
    ∃ header key payload front set, platform.jwt.decodeHeader token = .ok header ∧
      history = front ++ [⟨.current, some set⟩] ∧ KeyFor platform.jwt set header key ∧
      platform.jwt.decode now token key (service.validation header.alg) = .ok payload ∧
      claims = .extract payload service.subjectClaim service.roleClaims := by
  unfold AuthService.verify at h
  split at h
  · cases h
  · rename_i header hheader
    split at h
    · obtain ⟨selecting, rest, result, rfl, hselect, hresult⟩ := h.of_bind
      cases result with
      | error e => cases hresult
      | ok key =>
          dsimp only at hresult
          split at hresult
          · cases hresult
          · rename_i payload hdecode
            cases hresult
            simp only [AuthService.selectKey, hkeys] at hselect
            obtain ⟨front, set, hhistory, hpick⟩ :=
              (@KeySet.safe_resolve _ _ _ [] keys header).of_after hselect (fun _ _ => trivial)
            exact ⟨header, key, payload, front, set, hheader, by simpa using hhistory,
              keyFor_of_pickKey hpick, hdecode, rfl⟩
    · cases h

/-- The key set of a remote source is that of its client. -/
theorem buildKeyMaterial_of_buildClient {platform : Platform Jwk Key} {config : AuthConfig}
    {janux : JanuxConfig} (hclient : buildClient web config.keys janux = some client) :
    buildKeyMaterial platform config =
      .ok (.set (.remote client.toHttpKeysFetcher (fromSecs config.keys.cacheTtlSecs))) := by
  unfold buildClient at hclient
  unfold buildKeyMaterial
  cases hkind : config.keys.kind with
  | secret => simp [hkind] at hclient
  | jwks => simp [hkind] at hclient
  | jwksRemote =>
      simp only [hkind] at hclient
      obtain ⟨url, hurl, rfl⟩ := Option.map_eq_some_iff.mp hclient
      simp [hurl]
  | issuer =>
      simp only [hkind] at hclient
      obtain ⟨issuer, hissuer, rfl⟩ := Option.map_eq_some_iff.mp hclient
      simp [hissuer]

/-- An enabled service with a remote source uses the key set of its client. -/
theorem AuthService.keyMaterial_of_build {platform : Platform Jwk Key} {order : BuildOrder}
    {config : AuthConfig} {janux : JanuxConfig} {service : AuthService Jwk Key}
    (hbuild : AuthService.build platform order config = .ok service)
    (hclient : buildClient web config.keys janux = some client)
    (henabled : service.enabled = true) :
    service.keyMaterial =
      .set (.remote client.toHttpKeysFetcher (fromSecs config.keys.cacheTtlSecs)) := by
  unfold AuthService.build at hbuild
  split at hbuild
  · split at hbuild
    · cases hbuild
    · rw [buildKeyMaterial_of_buildClient hclient] at hbuild
      cases hbuild
      rfl
  · cases hbuild
    cases henabled

/-- **Tokens are checked with keys from trusted places only.** Over every configuration with a remote
key source, every number of requests, resolutions and refreshes, every interleaving of their HTTP
requests and of their accesses to the key cache and to the remembered location, and all replies: the
credential is presented, and requests go, to the discovery document and to places that keys may come
from only; once a location is remembered, no fetch asks for the discovery document again, unless it
had looked before; and a request passes with claims only when its bearer token was checked with a
key of a set that had been downloaded from a place keys may come from, of which the request took the
set at its last look at the cache. -/
theorem trusted_of_run {Thread : Type} [DecidableEq Thread] {platform : Platform Jwk Key}
    {order : BuildOrder} {config : AuthConfig} {janux : JanuxConfig}
    {service : AuthService Jwk Key} {tasks : Thread → CacheTask}
    {trace : List (Moment Thread (WebEffect Jwk) WebAnswer (WebWorld Jwk))}
    {finish : Pool Thread (WebEffect Jwk) WebAnswer (CacheOutcome Key) (WebWorld Jwk)}
    (hbuild : AuthService.build platform order config = .ok service)
    (hclient : buildClient web config.keys janux = some client)
    (hrun : Run (Pool.step (webExecute (fromSecs config.keys.cacheTtlSecs))) (fun _ _ => True)
      (webPool web platform service client (fromSecs config.keys.cacheTtlSecs) tasks) trace
      finish) :
    (∀ earlier moment later url credential, trace = earlier ++ moment :: later →
      moment.effect = .get url credential → credential = client.authHeader ∧
        (client.Trusted web earlier url ∨
          url = client.discoveryUrl ∧
            ∃ front, Pool.history moment.thread earlier = front ++ [⟨.resolved, none⟩])) ∧
    (∀ earlier first middle look later url, trace = earlier ++ first :: (middle ++ look :: later) →
      first.effect = .resolve url →
      (⟨look.effect, look.answer⟩ : Σ effect, WebAnswer effect) ≠ ⟨.resolved, none⟩) ∧
    ∀ thread now request claims, tasks thread = .request now request →
      finish.program thread = .done (.decided (.continue_ (some claims))) →
      ∃ earlier look later token header key payload set,
        trace = earlier ++ look :: later ∧ look.thread = thread ∧
        Pool.history thread later = [] ∧ client.Downloaded web earlier set ∧
        look.before.cache.map CachedSet.jwkSet = some set ∧
        extractBearer request = some token ∧ platform.jwt.decodeHeader token = .ok header ∧
        KeyFor platform.jwt set header key ∧
        platform.jwt.decode now token key (service.validation header.alg) = .ok payload ∧
        claims = .extract payload service.subjectClaim service.roleClaims := by
  refine ⟨fun earlier moment later url credential htrace heffect => ?_,
    fun earlier first middle look later url htrace hresolve hnone => ?_,
    fun thread now request claims htask hdone => ?_⟩
  · have hrule := webRule_of_run hrun htrace
    rw [heffect] at hrule
    obtain ⟨before, -, -, -, hbefore, -⟩ := Pool.run_split hrun htrace
    cases hrule with
    | discover hhistory => exact ⟨rfl, .inr ⟨rfl, _, hhistory⟩⟩
    | download hurl => exact ⟨rfl, .inl (trusted_of_located hbefore hurl)⟩
  · rw [← List.cons_append, ← List.append_assoc] at htrace
    obtain ⟨state, input, hbefore, hstore, hanswer⟩ := Pool.answered_of_run hrun htrace hnone
    have hsome := resolved_isSome_of_run hbefore ⟨first, by simp, url, hresolve⟩
    have hresolved : look.before.resolved = none := hanswer
    rw [hstore, hresolved] at hsome
    cases hsome
  · have hafter := Pool.after_run hrun thread
    simp only [hdone, webPool, htask] at hafter
    obtain ⟨upper, hexpands, hafter⟩ := hafter.of_expand
    simp only [CacheTask.program] at hafter
    obtain ⟨deciding, rest, decision, rfl, hdeciding, hrest⟩ := hafter.of_bind
    cases hrest
    rw [List.append_nil] at hexpands
    cases henabled : service.enabled with
    | false =>
        simp only [AuthService.enforce, henabled] at hdeciding
        cases hdeciding
    | true =>
        cases AuthService.grounds_of_enforce henabled hdeciding with
        | allowed hbearer hverify hallows =>
            obtain ⟨header, key, payload, front, set, hheader, rfl, hkey, hdecode, hclaims⟩ :=
              AuthService.picked_of_verify
                (AuthService.keyMaterial_of_build hbuild hclient henabled) hverify
            -- The last look at the cache is a moment of the run.
            obtain ⟨before, part, hhistory, -, hpart⟩ := hexpands.of_snoc
            obtain ⟨answer, last, rfl, hlast⟩ := hpart.of_perform
            cases hlast
            obtain ⟨earlier, look, later, htrace, hthread, hevent, -, hlater⟩ :=
              Pool.exists_moment_of_history hhistory
            obtain ⟨state, input, hreached, hstore, hcache⟩ :=
              Pool.answered_of_run hrun htrace hevent
            obtain ⟨cached, hcached, rfl⟩ := Option.map_eq_some_iff.mp hcache
            rw [← hstore] at hcached
            exact ⟨earlier, look, later, _, header, key, payload, cached.jwkSet, htrace, hthread,
              hlater, downloaded_of_cache hreached hcached, hcache, hbearer, hheader, hkey,
              hdecode, hclaims⟩

end Zonemail.Auth
