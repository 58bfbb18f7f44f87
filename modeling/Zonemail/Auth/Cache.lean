import Zonemail.Auth.Guard

/-!
# The key cache over a whole run

Resolutions of keys, requests to the guard and the background refresh over one key cache, with any
fetch failing or succeeding. `served_of_run` says what holds in every interleaving: only a set that
was just fetched is stored, and a failed fetch leaves the cache as it is; a cache that holds a set
never becomes empty again, so that the branch in which the guard fails open is closed from then on;
and a key is always picked from the set that the cache holds at that moment.

All of it follows from what a task does by itself: `CacheTask.safe_program` states it as a rule on
its accesses to the cache, and `served_of_done` what the result of a resolution rests on.
-/

namespace Zonemail.Auth

open Library

variable {Jwk Key : Type}

/-! ## What a key is picked for -/

/-- The key is that of the first entry with the key id of the header or, for a header without one,
that of the only entry without a key id. -/
def KeyFor (lib : JsonWebToken Jwk Key) (set : List Jwk) (header : Header) (key : Key) : Prop :=
  ∃ front jwk back, set = front ++ jwk :: back ∧ lib.fromJwk jwk = .ok key ∧
    match header.kid with
    | some kid => lib.keyId jwk = some kid ∧ ∀ other ∈ front, lib.keyId other ≠ some kid
    | none => lib.keyId jwk = none ∧ ∀ other ∈ front ++ back, lib.keyId other ≠ none

variable {lib : JsonWebToken Jwk Key}

theorem fromJwk_eq_ok {jwk : Jwk} {key : Key} (h : (lib.fromJwk jwk).toOption = some key) :
    lib.fromJwk jwk = .ok key := by
  cases hjwk : lib.fromJwk jwk with
  | error e => simp [hjwk, Except.toOption] at h
  | ok found =>
      rw [hjwk] at h
      cases h
      rfl

theorem keyFor_of_pickKey {set : List Jwk} {header : Header} {key : Key}
    (h : pickKey lib set header = some key) : KeyFor lib set header key := by
  unfold pickKey at h
  unfold KeyFor
  cases hkid : header.kid with
  | some kid =>
      rw [hkid] at h
      obtain ⟨jwk, hfind, hkey⟩ := Option.bind_eq_some_iff.mp h
      obtain ⟨hid, front, back, hset, hfront⟩ := List.find?_eq_some_iff_append.mp hfind
      refine ⟨front, jwk, back, hset, fromJwk_eq_ok hkey, by simpa using hid, ?_⟩
      intro other hother
      simpa using hfront other hother
  | none =>
      rw [hkid] at h
      dsimp only at h
      split at h
      · rename_i jwk hfilter
        obtain ⟨front, back, hset, hfront, hnone, hback⟩ := List.filter_eq_cons_iff.mp hfilter
        refine ⟨front, jwk, back, hset, fromJwk_eq_ok h, by simpa using hnone, ?_⟩
        intro other hother
        rcases List.mem_append.mp hother with hmem | hmem
        · simpa using hfront other hmem
        · simpa using List.filter_eq_nil_iff.mp hback other hmem
      · cases h

variable {history : Program.History (KeyEffect Jwk) KeyAnswer}

/-! ## What the other tasks do -/

theorem safe_spawnRefresh (rounds : Nat) :
    Program.Safe (fun _ _ => True) StoresFetched (fun _ _ => True)
      (spawnRefresh rounds : KeyProg Jwk Unit) history := by
  induction rounds generalizing history with
  | zero => exact .done trivial
  | succ rounds ih =>
      refine .perform (storesFetched_of_ne nofun) (fun fetched _ => ?_)
      cases fetched with
      | error e => exact ih
      | ok set =>
          refine .perform ?_ (fun _ _ => ih)
          intro _ h
          cases h
          exact ⟨_, rfl⟩

section Service

variable {platform : Platform Jwk Key} {service : AuthService Jwk Key}

/-- A verification accesses the cache through the resolution of its key only. -/
theorem AuthService.safe_verify {now : Nat} {token : String} :
    Program.Safe (fun _ _ => True) StoresFetched (fun _ _ => True)
      (service.verify platform now token) history := by
  unfold AuthService.verify
  split
  · exact .done trivial
  · split
    · rename_i header _ _
      have hselect : Program.Safe (fun _ _ => True) StoresFetched (fun _ _ => True)
          (service.selectKey platform header) history := by
        unfold AuthService.selectKey
        split
        · exact .done trivial
        · exact (KeySet.safe_resolve _ header).mono (fun _ _ _ => trivial)
      refine Program.safe_bind hselect (fun later selected _ => ?_)
      cases selected with
      | error e => exact .done trivial
      | ok key =>
          dsimp only
          split
          · exact .done trivial
          · exact .done trivial
    · exact .done trivial

/-- A request accesses the cache through the verification of its token only. -/
theorem AuthService.safe_enforce {now : Nat} {request : HttpRequest} :
    Program.Safe (fun _ _ => True) StoresFetched (fun _ _ => True)
      (service.enforce platform now request) history := by
  unfold AuthService.enforce
  split
  · exact .done trivial
  · split
    · exact .done trivial
    · split
      · exact .done trivial
      · split
        · exact .done trivial
        · refine Program.safe_bind AuthService.safe_verify (fun later verified _ => ?_)
          split
          · split
            · exact .done trivial
            · exact .done trivial
          · split
            · exact .done trivial
            · exact .done trivial
          · exact .done trivial

end Service

/-! ## Tasks over one cache -/

/-- What runs over a key cache: the resolution of a key, a request to the guard, or the background
refresh for this many rounds. -/
inductive CacheTask where
  | resolve (header : Header)
  | request (now : Nat) (received : HttpRequest)
  | refresh (rounds : Nat)

/-- How a task ends. -/
inductive CacheOutcome (Key : Type) where
  | resolved (result : Except AuthError Key)
  | decided (decision : Decision)
  | refreshed

/-- The background refresh of a key set; a set without a fetcher has none. -/
def KeySet.refresh (keys : KeySet Jwk) (rounds : Nat) : KeyProg Jwk Unit :=
  match keys.fetcher with
  | none => pure ()
  | some _ => spawnRefresh rounds

/-- The program of a task. -/
def CacheTask.program (platform : Platform Jwk Key) (service : AuthService Jwk Key)
    (keys : KeySet Jwk) : CacheTask → KeyProg Jwk (CacheOutcome Key)
  | .resolve header => do
      let result ← keys.resolve platform.jwt header
      pure (.resolved result)
  | .request now received => do
      let decision ← service.enforce platform now received
      pure (.decided decision)
  | .refresh rounds => do
      keys.refresh rounds
      pure .refreshed

/-- The tasks over the cache of a key set that has just been made. -/
def cachePool {Thread : Type} (platform : Platform Jwk Key) (service : AuthService Jwk Key)
    (keys : KeySet Jwk) (tasks : Thread → CacheTask) :
    Pool Thread (KeyEffect Jwk) KeyAnswer (CacheOutcome Key) (KeyWorld Jwk) where
  store := ⟨keys.initial.map (fun set => ⟨set, 0⟩), 0, []⟩
  program := fun thread => (tasks thread).program platform service keys

/-- Every task stores only what it fetched just before. -/
theorem CacheTask.safe_program (platform : Platform Jwk Key) (service : AuthService Jwk Key)
    (keys : KeySet Jwk) (task : CacheTask) :
    Program.Safe (fun _ _ => True) StoresFetched (fun _ _ => True)
      (task.program platform service keys) history := by
  cases task with
  | resolve header =>
      exact Program.safe_bind (keys.safe_resolve header) (fun _ _ _ => .done trivial)
  | request now received =>
      exact Program.safe_bind AuthService.safe_enforce (fun _ _ _ => .done trivial)
  | refresh rounds =>
      have hrefresh : Program.Safe (fun _ _ => True) StoresFetched (fun _ _ => True)
          (keys.refresh rounds) history := by
        unfold KeySet.refresh
        split
        · exact .done trivial
        · exact safe_spawnRefresh rounds
      exact Program.safe_bind hrefresh (fun _ _ _ => .done trivial)

/-! ## The cache along a run -/

section Runs

variable {Thread α : Type} [DecidableEq Thread] {ttl : Nat}
  {pool finish : Pool Thread (KeyEffect Jwk) KeyAnswer α (KeyWorld Jwk)}
  {trace earlier later : List (Moment Thread (KeyEffect Jwk) KeyAnswer (KeyWorld Jwk))}
  {allowed : Pool Thread (KeyEffect Jwk) KeyAnswer α (KeyWorld Jwk) →
    Thread × (Nat × Except String (List Jwk)) → Prop}

/-- A task whose last access comes after a set was stored does not end on an empty cache. -/
theorem not_current_none {thread : Thread} {front : Program.History (KeyEffect Jwk) KeyAnswer}
    (hrun : Run (Pool.step (keyExecute ttl)) allowed pool trace finish)
    (htrace : trace = earlier ++ later)
    (hstored : pool.store.cache.isSome ∨ ∃ moment ∈ earlier, ∃ set, moment.effect = .store set)
    (hacts : Pool.history thread later ≠ []) :
    Pool.history thread trace ≠ front ++ [⟨.current, none⟩] := by
  intro hhistory
  obtain ⟨middle, hfirst, hsecond⟩ := Pool.run_append hrun htrace
  have hsome := cache_isSome_of_run hfirst hstored
  -- The last access of the thread is its last access in the second part of the run.
  obtain ⟨rest, last, hlast⟩ :=
    (List.eq_nil_or_concat (Pool.history thread later)).resolve_left hacts
  rw [htrace, Pool.history_append, hlast, List.concat_eq_append, ← List.append_assoc] at hhistory
  obtain ⟨-, hevent⟩ := List.append_inj' hhistory rfl
  rw [List.concat_eq_append, hevent] at hlast
  obtain ⟨start, moment, -, reached, -, -, -, hreached, hstore, hempty⟩ :=
    cache_of_current hsecond hlast
  have hstill := cache_isSome_of_run hreached (.inl hsome)
  rw [hstore] at hstill
  cases hcache : moment.before.cache with
  | none =>
      rw [hcache] at hstill
      cases hstill
  | some cached =>
      rw [hcache] at hempty
      cases hempty

/-- What the cache holds before the rest of a run. -/
def cacheBefore (later : List (Moment Thread (KeyEffect Jwk) KeyAnswer (KeyWorld Jwk)))
    (finish : Pool Thread (KeyEffect Jwk) KeyAnswer α (KeyWorld Jwk)) : Option (CachedSet Jwk) :=
  match later with
  | [] => finish.store.cache
  | moment :: _ => moment.before.cache

theorem cacheBefore_of_run (hrun : Run (Pool.step (keyExecute ttl)) allowed pool trace finish) :
    cacheBefore trace finish = pool.store.cache := by
  cases trace with
  | nil => rw [Pool.eq_of_run_nil hrun]; rfl
  | cons moment rest =>
      obtain ⟨middle, -, -, -, hbefore, -, hstore, -⟩ :=
        Pool.run_split hrun (List.nil_append _).symm
      cases Pool.eq_of_run_nil hbefore
      exact congrArg KeyWorld.cache hstore.symm

end Runs

/-! ## What the cache serves -/

section Done

variable {Thread : Type} [DecidableEq Thread] {platform : Platform Jwk Key}
  {service : AuthService Jwk Key} {keys : KeySet Jwk} {tasks : Thread → CacheTask}
  {trace : List (Moment Thread (KeyEffect Jwk) KeyAnswer (KeyWorld Jwk))}
  {finish : Pool Thread (KeyEffect Jwk) KeyAnswer (CacheOutcome Key) (KeyWorld Jwk)}
  {thread : Thread}

/-- What the result of a resolution rests on in a run. -/
theorem served_of_done {header : Header} {result : Except AuthError Key}
    (hrun : Run (Pool.step (keyExecute keys.ttl)) (fun _ _ => True)
      (cachePool platform service keys tasks) trace finish)
    (htask : tasks thread = .resolve header)
    (hdone : finish.program thread = .done (.resolved result)) :
    Served platform.jwt header (Pool.history thread trace) result := by
  have hafter := Pool.after_run hrun thread
  simp only [hdone, cachePool, htask, CacheTask.program] at hafter
  obtain ⟨first, rest, value, hhistory, hfirst, hrest⟩ := hafter.of_bind
  cases hrest
  rw [hhistory, List.append_nil]
  exact (@KeySet.safe_resolve _ _ _ [] keys header).of_after hfirst (fun _ _ => trivial)

/-- What the decision for a request rests on in a run. -/
theorem grounds_of_done {now : Nat} {request : HttpRequest} {decision : Decision}
    (hrun : Run (Pool.step (keyExecute keys.ttl)) (fun _ _ => True)
      (cachePool platform service keys tasks) trace finish)
    (henabled : service.enabled = true) (htask : tasks thread = .request now request)
    (hdone : finish.program thread = .done (.decided decision)) :
    service.Grounds platform now request (Pool.history thread trace) decision := by
  have hafter := Pool.after_run hrun thread
  simp only [hdone, cachePool, htask, CacheTask.program] at hafter
  obtain ⟨first, rest, value, hhistory, hfirst, hrest⟩ := hafter.of_bind
  cases hrest
  rw [hhistory, List.append_nil]
  exact AuthService.grounds_of_enforce henabled hfirst

end Done

/-- **The key cache never goes empty again and serves only what it holds.** For every key set, every
number of resolutions, requests and refreshes over it, every interleaving of their accesses and all
results of the fetches: a failed fetch leaves the cache as it was, and only a set that the task has
just fetched is stored; once the cache holds a set, no resolution that still looks at it finds the
source unavailable, and no request passes because the guard fails open; and every key that a
resolution returns is picked from the set in the cache at its last look. -/
theorem served_of_run {Thread : Type} [DecidableEq Thread] {platform : Platform Jwk Key}
    {service : AuthService Jwk Key} {keys : KeySet Jwk} {tasks : Thread → CacheTask}
    {trace : List (Moment Thread (KeyEffect Jwk) KeyAnswer (KeyWorld Jwk))}
    {finish : Pool Thread (KeyEffect Jwk) KeyAnswer (CacheOutcome Key) (KeyWorld Jwk)}
    (hrun : Run (Pool.step (keyExecute keys.ttl)) (fun _ _ => True)
      (cachePool platform service keys tasks) trace finish) :
    (∀ earlier moment later, trace = earlier ++ moment :: later →
      (∀ e, (⟨moment.effect, moment.answer⟩ : Σ effect, KeyAnswer effect) = ⟨.fetch, .error e⟩ →
        cacheBefore later finish = moment.before.cache) ∧
      StoresFetched (Pool.history moment.thread earlier) moment.effect) ∧
    (∀ earlier later, trace = earlier ++ later →
      (keys.initial.isSome ∨ ∃ moment ∈ earlier, ∃ set, moment.effect = .store set) →
      ∀ thread, Pool.history thread later ≠ [] →
        (∀ header, tasks thread = .resolve header →
          finish.program thread ≠ .done (.resolved (.error .sourceUnavailable))) ∧
        ∀ now request, tasks thread = .request now request → service.enabled = true →
          finish.program thread = .done (.decided (.continue_ none)) →
            firstSegment request.path = "" ∨
              service.policy.isPublic request.target.resource = true) ∧
    (∀ thread header key, tasks thread = .resolve header →
      finish.program thread = .done (.resolved (.ok key)) →
      ∃ earlier moment later cached, trace = earlier ++ moment :: later ∧
        moment.thread = thread ∧ Pool.history thread later = [] ∧
        moment.before.cache = some cached ∧ pickKey platform.jwt cached.jwkSet header = some key ∧
        KeyFor platform.jwt cached.jwkSet header key) := by
  have hsafe : Pool.SafeRun (keyExecute keys.ttl) (fun _ => True) (fun _ _ => True)
      (fun _ => StoresFetched) trace finish :=
    Pool.safe_run (fun _ _ _ _ => trivial) (fun _ _ _ _ _ _ _ => trivial) trivial
      (fun thread => (tasks thread).safe_program platform service keys) hrun
  have hinitial : keys.initial.isSome →
      (cachePool platform service keys tasks).store.cache.isSome := by
    simp [cachePool]
  refine ⟨fun earlier moment later htrace => ⟨fun e hevent => ?_, ?_⟩,
    fun earlier later htrace hstored thread hacts =>
      ⟨fun header htask hdone => ?_, fun now request htask henabled hdone => ?_⟩,
    fun thread header key htask hdone => ?_⟩
  · obtain ⟨-, next, input, -, -, -, -, -, -, hnext, -, hafter⟩ := Pool.run_split hrun htrace
    rw [cacheBefore_of_run hafter, hnext]
    obtain ⟨_, effect, answer, before⟩ := moment
    simp only [Sigma.mk.injEq] at hevent
    obtain ⟨rfl, -⟩ := hevent
    rfl
  · exact (hsafe.moments earlier moment later htrace).1
  · obtain ⟨front, hfront⟩ := served_of_done hrun htask hdone
    exact not_current_none hrun htrace (hstored.imp_left hinitial) hacts hfront
  · cases grounds_of_done hrun henabled htask hdone with
    | ungoverned hsegment => exact .inl hsegment
    | isPublic hpublic => exact .inr hpublic
    | failedOpen hopen hverify =>
        obtain ⟨-, front, hfront⟩ := AuthService.current_of_verify hverify
        exact absurd hfront (not_current_none hrun htrace (hstored.imp_left hinitial) hacts)
  · obtain ⟨front, set, hhistory, hpick⟩ := served_of_done hrun htask hdone
    obtain ⟨earlier, moment, later, -, htrace, hthread, hlater, -, -, hcache⟩ :=
      cache_of_current hrun hhistory
    obtain ⟨cached, hcached, rfl⟩ := Option.map_eq_some_iff.mp hcache
    exact ⟨earlier, moment, later, cached, htrace, hthread, hlater, hcached, hpick,
      keyFor_of_pickKey hpick⟩

/-- A resolution before the source delivers, a refresh of two rounds, and a resolution after it. -/
def refreshTasks : Fin 3 → CacheTask
  | 0 => .resolve ⟨.ES256, none⟩
  | 1 => .refresh 2
  | 2 => .resolve ⟨.ES256, none⟩

/-- The source cannot be reached at first, then delivers a key, and then cannot be reached again. -/
def refreshLabels : List (Fin 3 × (Nat × Except String (List SampleJwk))) :=
  [(0, 0, .error "unused"), (0, 0, .error "unused"), (0, 0, .error "http: unreachable"),
    (0, 0, .error "unused"), (1, 0, .ok [⟨none, sampleEcKey⟩]), (1, 0, .error "unused"),
    (1, fromSecs 300, .error "http: unreachable"), (2, 0, .error "unused")]

/-- The first resolution finds the source unavailable, and the last one, after another failed fetch,
the key that is still in the cache. -/
theorem served_refreshTasks : ∃ trace finish,
    Run (Pool.step (keyExecute (fromSecs 300))) (fun _ _ => True)
      (cachePool remotePlatform remoteService
        (.remote (.jwks "https://keys.example/jwks.json") (fromSecs 300)) refreshTasks)
      trace finish ∧
    finish.program 0 = .done (.resolved (.error .sourceUnavailable)) ∧
    finish.program 2 = .done (.resolved (.ok sampleEcKey)) ∧
    ∃ earlier moment later cached, trace = earlier ++ moment :: later ∧ moment.thread = 2 ∧
      Pool.history 2 later = [] ∧ moment.before.cache = some cached ∧
      KeyFor remotePlatform.jwt cached.jwkSet ⟨.ES256, none⟩ sampleEcKey := by
  obtain ⟨trace, finish, hexecute, hfirst, hlast⟩ : ∃ trace finish,
      execute (Pool.step (keyExecute (fromSecs 300)))
        (cachePool remotePlatform remoteService
          (.remote (.jwks "https://keys.example/jwks.json") (fromSecs 300)) refreshTasks)
        refreshLabels = some (trace, finish) ∧
      finish.program 0 = .done (.resolved (.error .sourceUnavailable)) ∧
      finish.program 2 = .done (.resolved (.ok sampleEcKey)) := ⟨_, _, rfl, rfl, rfl⟩
  have hrun := execute_run hexecute
  obtain ⟨-, -, hserved⟩ := @served_of_run _ _ _ _ _ _
    (.remote (.jwks "https://keys.example/jwks.json") (fromSecs 300)) _ _ _ hrun
  obtain ⟨earlier, moment, later, cached, htrace, hthread, hlater, hcached, -, hkey⟩ :=
    hserved 2 _ _ rfl hlast
  exact ⟨trace, finish, hrun, hfirst, hlast, earlier, moment, later, cached, htrace,
    hthread, hlater, hcached, hkey⟩

end Zonemail.Auth
