import Zonemail.Auth.Cache

/-!
# Key rotation under concurrent fetches

A fetch takes time: it starts, and some time later it completes with what the source served in
between. Here the fetch of a program is split into these two steps, and every fetch that starts gets
a number, so that the fetches are ordered by their start. The programs are those of `KeySet.resolve`
and of the background refresh; `timed` splits their fetches and notes with every store which fetch
the set comes from.

A store replaces whatever the cache holds. A set of an early fetch that is stored after a later
fetch has been stored rolls a key rotation back. `forward_of_run` says that this needs a fetch to be
overtaken: as long as a set is stored only while no later fetch has delivered, the cache only ever
moves to later fetches.
-/

namespace Zonemail.Auth

open Library

variable {Jwk Key α : Type}

/-! ## Fetches that take time -/

/-- One access, with the start and the completion of a fetch apart. -/
inductive TimedEffect (Jwk : Type) where
  | current
  | shouldRefetch
  | fetchStart
  | fetchComplete (fetch : Nat)
  | store (fetch : Option Nat) (set : List Jwk)

/-- What a program learns from an access; a fetch that starts gets a number. -/
@[reducible] def TimedAnswer {Jwk : Type} : TimedEffect Jwk → Type
  | .current => Option (List Jwk)
  | .shouldRefetch => Bool
  | .fetchStart => Nat
  | .fetchComplete _ => Except String (List Jwk)
  | .store _ _ => Unit

/-- Programs whose fetches take time. -/
abbrev TimedProg (Jwk α : Type) := Program (TimedEffect Jwk) TimedAnswer α

/-- Split the fetches of a program; `last` is its last fetch. -/
def timed (last : Option Nat) : KeyProg Jwk α → TimedProg Jwk α
  | .done value => .done value
  | .perform .current resume => .perform .current (fun answer => timed last (resume answer))
  | .perform .shouldRefetch resume =>
      .perform .shouldRefetch (fun answer => timed last (resume answer))
  | .perform .fetch resume =>
      .perform .fetchStart (fun fetch =>
        .perform (.fetchComplete fetch) (fun answer => timed (some fetch) (resume answer)))
  | .perform (.store set) resume =>
      .perform (.store last set) (fun answer => timed last (resume answer))

/-- The cache with the fetch its set comes from, the clock, the number of fetches that have started,
and those that have delivered a set. -/
structure TimedWorld (Jwk : Type) where
  cache : Option (CachedSet Jwk × Option Nat)
  clock : Nat
  started : Nat
  delivered : List Nat

/-- Perform one access after some time has passed, with what a fetch that completes now delivers. -/
def timedExecute (ttl : Nat) (effect : TimedEffect Jwk) (input : Nat × Except String (List Jwk))
    (world : TimedWorld Jwk) : TimedAnswer effect × TimedWorld Jwk :=
  let clock := world.clock + input.1
  match effect with
  | .current => (world.cache.map (fun cached => cached.1.jwkSet), { world with clock })
  | .shouldRefetch =>
      (world.cache.elim true (fun cached => decide (ttl ≤ clock - cached.1.fetchedAt)),
        { world with clock })
  | .fetchStart => (world.started, { world with clock, started := world.started + 1 })
  | .fetchComplete fetch =>
      match input.2 with
      | .error e => (.error e, { world with clock })
      | .ok set => (.ok set, { world with clock, delivered := world.delivered ++ [fetch] })
  | .store fetch set => ((), { world with clock, cache := some (⟨set, clock⟩, fetch) })

/-! ## What a program stores -/

/-- Only a set that the program's own fetch has just delivered is stored, under the number that the
fetch got when it started. -/
def StoresDelivered (history : Program.History (TimedEffect Jwk) TimedAnswer)
    (effect : TimedEffect Jwk) : Prop :=
  ∀ fetch set, effect = .store fetch set → ∃ front number, fetch = some number ∧
    history = front ++ [⟨.fetchStart, number⟩, ⟨.fetchComplete number, .ok set⟩]

/-- An access that stores nothing obeys the rule. -/
theorem storesDelivered_of_ne {history : Program.History (TimedEffect Jwk) TimedAnswer}
    {effect : TimedEffect Jwk} (h : ∀ fetch set, effect ≠ .store fetch set) :
    StoresDelivered history effect :=
  fun fetch set heffect => absurd heffect (h fetch set)

/-- The last fetch of a program before its fetches were split is its last one after. -/
def Tracks (last : Option Nat) (history : Program.History (KeyEffect Jwk) KeyAnswer)
    (split : Program.History (TimedEffect Jwk) TimedAnswer) : Prop :=
  ∀ front set, history = front ++ [⟨.fetch, .ok set⟩] → ∃ before number, last = some number ∧
    split = before ++ [⟨.fetchStart, number⟩, ⟨.fetchComplete number, .ok set⟩]

theorem tracks_nil {last : Option Nat} :
    Tracks last ([] : Program.History (KeyEffect Jwk) _) [] := by
  intro front set heq
  simp at heq

/-- After another access the last one is no fetch. -/
theorem tracks_snoc {last : Option Nat} {history : Program.History (KeyEffect Jwk) KeyAnswer}
    {split : Program.History (TimedEffect Jwk) TimedAnswer} {effect : KeyEffect Jwk}
    {answer : KeyAnswer effect} (h : effect ≠ .fetch) :
    Tracks last (history ++ [⟨effect, answer⟩]) split := by
  intro front set heq
  obtain ⟨-, hevent⟩ := List.append_inj' heq rfl
  simp only [List.cons.injEq, Sigma.mk.injEq] at hevent
  exact absurd hevent.1.1 h

/-- A program that stores only what it fetched just before does so with its fetches split. -/
theorem safe_timed {program : KeyProg Jwk α} {last : Option Nat}
    {post : Program.History (KeyEffect Jwk) KeyAnswer → α → Prop}
    {history : Program.History (KeyEffect Jwk) KeyAnswer}
    {split : Program.History (TimedEffect Jwk) TimedAnswer}
    (h : Program.Safe (fun _ _ => True) StoresFetched post program history)
    (htracks : Tracks last history split) :
    Program.Safe (fun _ _ => True) StoresDelivered (fun _ _ => True)
      (timed last program) split := by
  induction h generalizing last split with
  | done => exact .done trivial
  | @perform effect resume history hrule _ ih =>
      cases effect with
      | current =>
          exact .perform (storesDelivered_of_ne nofun)
            (fun answer _ => ih answer trivial (tracks_snoc nofun))
      | shouldRefetch =>
          exact .perform (storesDelivered_of_ne nofun)
            (fun answer _ => ih answer trivial (tracks_snoc nofun))
      | store set =>
          refine .perform ?_ (fun answer _ => ih answer trivial (tracks_snoc nofun))
          intro _ _ h
          cases h
          obtain ⟨front, hfetched⟩ := hrule set rfl
          exact htracks front set hfetched
      | fetch =>
          refine .perform (storesDelivered_of_ne nofun) (fun number _ => ?_)
          refine .perform (storesDelivered_of_ne nofun) (fun answer _ => ih answer trivial ?_)
          intro front set heq
          obtain ⟨-, hevent⟩ := List.append_inj' heq rfl
          simp only [List.cons.injEq, Sigma.mk.injEq, heq_eq_eq, true_and, and_true] at hevent
          subst hevent
          exact ⟨split, number, rfl, by simp⟩

/-! ## Rollbacks -/

section Runs

variable {Thread : Type}

/-- The tasks over the cache of a key set that has just been made, with fetches that take time. -/
def timedPool (platform : Platform Jwk Key) (service : AuthService Jwk Key) (keys : KeySet Jwk)
    (tasks : Thread → CacheTask) :
    Pool Thread (TimedEffect Jwk) TimedAnswer (CacheOutcome Key) (TimedWorld Jwk) where
  store := ⟨keys.initial.map (fun set => (⟨set, 0⟩, none)), 0, 0, []⟩
  program := fun thread => timed none ((tasks thread).program platform service keys)

/-- A set is stored after that of a fetch that started later. -/
def RolledBack (trace : List (Moment Thread (TimedEffect Jwk) TimedAnswer (TimedWorld Jwk))) :
    Prop :=
  ∃ earlier first middle second later newer older newerSet olderSet,
    trace = earlier ++ first :: (middle ++ second :: later) ∧
    first.effect = .store (some newer) newerSet ∧ second.effect = .store (some older) olderSet ∧
    older < newer

/-- A set is stored only while no fetch that started after its own has delivered. -/
def Unovertaken (pool : Pool Thread (TimedEffect Jwk) TimedAnswer α (TimedWorld Jwk))
    (label : Thread × (Nat × Except String (List Jwk))) : Prop :=
  ∀ fetch set, (pool.program label.1).next? = some (.store (some fetch) set) →
    ∀ other ∈ pool.store.delivered, other ≤ fetch

variable [DecidableEq Thread] {ttl : Nat}
  {pool finish : Pool Thread (TimedEffect Jwk) TimedAnswer α (TimedWorld Jwk)}
  {trace : List (Moment Thread (TimedEffect Jwk) TimedAnswer (TimedWorld Jwk))}
  {allowed : Pool Thread (TimedEffect Jwk) TimedAnswer α (TimedWorld Jwk) →
    Thread × (Nat × Except String (List Jwk)) → Prop}

/-- What was performed and answered. -/
def event (moment : Moment Thread (TimedEffect Jwk) TimedAnswer (TimedWorld Jwk)) :
    Σ effect : TimedEffect Jwk, TimedAnswer effect :=
  ⟨moment.effect, moment.answer⟩

/-- The fetches that completed with a set have delivered, and those that started were numbered. -/
structure Counted (trace : List (Moment Thread (TimedEffect Jwk) TimedAnswer (TimedWorld Jwk)))
    (world : TimedWorld Jwk) : Prop where
  delivered : ∀ moment ∈ trace, ∀ fetch set, event moment = ⟨.fetchComplete fetch, .ok set⟩ →
    fetch ∈ world.delivered
  started : ∀ moment ∈ trace, ∀ number, event moment = ⟨.fetchStart, number⟩ →
    number < world.started

omit [DecidableEq Thread] in
/-- What is counted stays counted when the counts only grow and cover one more moment. -/
theorem Counted.snoc {world next : TimedWorld Jwk} (h : Counted trace world)
    {moment : Moment Thread (TimedEffect Jwk) TimedAnswer (TimedWorld Jwk)}
    (hdelivered : ∀ fetch ∈ world.delivered, fetch ∈ next.delivered)
    (hstarted : world.started ≤ next.started)
    (hcompletes : ∀ fetch set, event moment = ⟨.fetchComplete fetch, .ok set⟩ →
      fetch ∈ next.delivered)
    (hstarts : ∀ number, event moment = ⟨.fetchStart, number⟩ → number < next.started) :
    Counted (trace ++ [moment]) next := by
  refine ⟨fun other hother fetch set hevent => ?_, fun other hother number hevent => ?_⟩
  · rcases List.mem_append.mp hother with hold | hnew
    · exact hdelivered fetch (h.delivered other hold fetch set hevent)
    · rw [List.mem_singleton.mp hnew] at hevent
      exact hcompletes fetch set hevent
  · rcases List.mem_append.mp hother with hold | hnew
    · exact Nat.lt_of_lt_of_le (h.started other hold number hevent) hstarted
    · rw [List.mem_singleton.mp hnew] at hevent
      exact hstarts number hevent

omit [DecidableEq Thread] in
/-- One more access is counted. -/
theorem Counted.execute {world : TimedWorld Jwk} (h : Counted trace world) (thread : Thread)
    (effect : TimedEffect Jwk) (input : Nat × Except String (List Jwk)) :
    Counted (trace ++ [⟨thread, effect, (timedExecute ttl effect input world).1, world⟩])
      (timedExecute ttl effect input world).2 := by
  cases effect with
  | fetchStart =>
      refine h.snoc (fun _ hmem => hmem) (Nat.le_succ _) nofun ?_
      intro number h
      cases h
      exact Nat.lt_succ_self _
  | fetchComplete completed =>
      obtain ⟨elapsed, result⟩ := input
      cases result with
      | error e => exact h.snoc (fun _ hmem => hmem) (Nat.le_refl _) nofun nofun
      | ok found =>
          refine h.snoc (fun _ hmem => List.mem_append_left _ hmem) (Nat.le_refl _) ?_ nofun
          intro fetch set h
          cases h
          exact List.mem_append_right _ (List.mem_singleton_self _)
  | current => exact h.snoc (fun _ hmem => hmem) (Nat.le_refl _) nofun nofun
  | shouldRefetch => exact h.snoc (fun _ hmem => hmem) (Nat.le_refl _) nofun nofun
  | store fetch set => exact h.snoc (fun _ hmem => hmem) (Nat.le_refl _) nofun nofun

theorem counted_of_run (hrun : Run (Pool.step (timedExecute ttl)) allowed pool trace finish) :
    Counted trace finish.store := by
  refine hrun.invariant_trace (fun trace state => Counted trace state.store) ⟨nofun, nofun⟩ ?_
  intro trace state label moments next hcounted _ hstep
  obtain ⟨effect, resume, -, rfl, hstore, -⟩ := Pool.step_eq_some hstep
  rw [hstore]
  exact hcounted.execute label.1 effect label.2

/-- Fetches are numbered in the order of their starts. -/
theorem lt_of_started {earlier middle later :
      List (Moment Thread (TimedEffect Jwk) TimedAnswer (TimedWorld Jwk))}
    {first second : Moment Thread (TimedEffect Jwk) TimedAnswer (TimedWorld Jwk)}
    {number next : Nat}
    (hrun : Run (Pool.step (timedExecute ttl)) allowed pool trace finish)
    (htrace : trace = earlier ++ first :: (middle ++ second :: later))
    (hfirst : event first = ⟨.fetchStart, number⟩) (hsecond : event second = ⟨.fetchStart, next⟩) :
    number < next := by
  rw [← List.cons_append, ← List.append_assoc] at htrace
  obtain ⟨state, -, input, -, hbefore, -, hstore, -, hanswer, -⟩ := Pool.run_split hrun htrace
  have hlt := (counted_of_run hbefore).started first (by simp) number hfirst
  rw [hstore] at hlt
  obtain ⟨_, effect, answer, before⟩ := second
  simp only [event, Sigma.mk.injEq] at hsecond
  obtain ⟨rfl, hnext⟩ := hsecond
  cases eq_of_heq hnext
  have hnumbered : next = before.started := hanswer
  rwa [hnumbered]

end Runs

/-- **When a rotation is not rolled back.** Whatever resolutions, requests and refreshes run over
one key set and however the starts and the completions of their fetches and their stores interleave:
fetches are numbered in the order of their starts, and a set is stored by the task that fetched it
under the number of that fetch; and if a set is stored only while no fetch that started after its
own has delivered, no set is ever stored after that of a fetch that started later. -/
theorem forward_of_run {Thread : Type} [DecidableEq Thread] {platform : Platform Jwk Key}
    {service : AuthService Jwk Key} {keys : KeySet Jwk} {tasks : Thread → CacheTask}
    {trace : List (Moment Thread (TimedEffect Jwk) TimedAnswer (TimedWorld Jwk))}
    {finish : Pool Thread (TimedEffect Jwk) TimedAnswer (CacheOutcome Key) (TimedWorld Jwk)}
    (hrun : Run (Pool.step (timedExecute keys.ttl)) Unovertaken
      (timedPool platform service keys tasks) trace finish) :
    (∀ earlier first middle second later number next,
      trace = earlier ++ first :: (middle ++ second :: later) →
      event first = ⟨.fetchStart, number⟩ → event second = ⟨.fetchStart, next⟩ → number < next) ∧
    (∀ earlier moment later, trace = earlier ++ moment :: later →
      StoresDelivered (Pool.history moment.thread earlier) moment.effect) ∧
    ¬ RolledBack trace := by
  have hsafe : Pool.SafeRun (timedExecute keys.ttl) (fun _ => True) (fun _ _ => True)
      (fun _ => StoresDelivered) trace finish :=
    Pool.safe_run (fun _ _ _ _ => trivial) (fun _ _ _ _ _ _ _ => trivial) trivial
      (fun thread => safe_timed ((tasks thread).safe_program platform service keys) tracks_nil) hrun
  have hstores := fun earlier moment later htrace =>
    (hsafe.moments earlier moment later htrace).1
  refine ⟨fun earlier first middle second later number next htrace hfirst hsecond =>
    lt_of_started hrun htrace hfirst hsecond, hstores, ?_⟩
  rintro ⟨earlier, first, middle, second, later, newer, older, newerSet, olderSet, htrace, hfirst,
    hsecond, hlt⟩
  -- The newer set was delivered before it was stored, so before the older one is stored.
  obtain ⟨front, number, hnumber, hhistory⟩ := hstores earlier first _ htrace _ _ hfirst
  cases hnumber
  obtain ⟨before, complete, after, hearlier, -, hevent, -⟩ :=
    Pool.exists_moment_of_history (hhistory.trans (List.append_cons front _ _))
  rw [← List.cons_append, ← List.append_assoc] at htrace
  obtain ⟨state, -, input, resume, hbefore, hallowed, -, hprogram, -⟩ := Pool.run_split hrun htrace
  have hdelivered := (counted_of_run hbefore).delivered complete (by simp [hearlier]) newer newerSet
    hevent
  have hnext : (state.program second.thread).next? = some (.store (some older) olderSet) := by
    rw [hprogram, ← hsecond]
    rfl
  exact Nat.not_lt_of_le (hallowed older olderSet hnext newer hdelivered) hlt

/-- The keys before a rotation and after it. -/
def oldKeys : List SampleJwk := [⟨some "old", sampleEcKey⟩]

def newKeys : List SampleJwk := [⟨some "new", sampleEcKey⟩]

/-- A remote key set. -/
def rotatedSet : KeySet SampleJwk :=
  .remote (.jwks "https://keys.example/jwks.json") (fromSecs 300)

/-- The first round of the refresh, and the resolution of a new key. -/
def rotationTasks : Bool → CacheTask
  | true => .refresh 1
  | false => .resolve ⟨.ES256, some "new"⟩

/-- The fetches start one after the other and deliver in the same order. -/
def orderedLabels : List (Bool × (Nat × Except String (List SampleJwk))) :=
  [(true, 0, .error "unused"), (false, 0, .error "unused"), (false, 0, .error "unused"),
    (false, 0, .error "unused"), (true, 0, .ok oldKeys), (true, 0, .error "unused"),
    (false, 0, .ok newKeys), (false, 0, .error "unused"), (false, 0, .error "unused")]

/-- The fetch that started later delivers first, and its set is stored first. -/
def overtakenLabels : List (Bool × (Nat × Except String (List SampleJwk))) :=
  [(true, 0, .error "unused"), (false, 0, .error "unused"), (false, 0, .error "unused"),
    (false, 0, .error "unused"), (false, 0, .ok newKeys), (false, 0, .error "unused"),
    (true, 0, .ok oldKeys), (true, 0, .error "unused"), (false, 0, .error "unused")]

/-- Fetches in order move the cache to the new keys. -/
theorem forward_ordered : ∃ trace finish,
    Run (Pool.step (timedExecute rotatedSet.ttl)) Unovertaken
      (timedPool remotePlatform remoteService rotatedSet rotationTasks) trace finish ∧
    finish.store.cache = some (⟨newKeys, 0⟩, some 1) ∧
    finish.program false = .done (.resolved (.ok sampleEcKey)) ∧ ¬ RolledBack trace := by
  obtain ⟨trace, finish, hexecute, hcache, hdone⟩ : ∃ trace finish,
      execute (Pool.step (timedExecute rotatedSet.ttl))
        (timedPool remotePlatform remoteService rotatedSet rotationTasks) orderedLabels =
        some (trace, finish) ∧
      finish.store.cache = some (⟨newKeys, 0⟩, some 1) ∧
      finish.program false = .done (.resolved (.ok sampleEcKey)) := ⟨_, _, rfl, rfl, rfl⟩
  have hallowed : AllowedAlong (Pool.step (timedExecute rotatedSet.ttl)) Unovertaken
      (timedPool remotePlatform remoteService rotatedSet rotationTasks) orderedLabels := by
    refine ⟨nofun, nofun, nofun, nofun, nofun, ?_, nofun, ?_, nofun, trivial⟩
    · intro fetch set h other hother
      cases h
      exact Nat.le_of_eq (List.mem_singleton.mp hother)
    · intro fetch set h other hother
      cases h
      rcases List.mem_pair.mp hother with rfl | rfl
      · exact Nat.zero_le _
      · exact Nat.le_refl _
  have hrun := execute_run_of_allowed hexecute hallowed
  exact ⟨trace, finish, hrun, hcache, hdone, (forward_of_run hrun).2.2⟩

/-- The new keys are replaced with the old ones, and the new key is unknown. -/
theorem rolledBack_overtaken : ∃ trace finish,
    Run (Pool.step (timedExecute rotatedSet.ttl)) (fun _ _ => True)
      (timedPool remotePlatform remoteService rotatedSet rotationTasks) trace finish ∧
    finish.store.cache = some (⟨oldKeys, 0⟩, some 0) ∧
    finish.program false = .done (.resolved (.error .unknownKid)) ∧ RolledBack trace := by
  obtain ⟨trace, finish, hexecute, hcache, hdone, hrolled⟩ : ∃ trace finish,
      execute (Pool.step (timedExecute rotatedSet.ttl))
        (timedPool remotePlatform remoteService rotatedSet rotationTasks) overtakenLabels =
        some (trace, finish) ∧
      finish.store.cache = some (⟨oldKeys, 0⟩, some 0) ∧
      finish.program false = .done (.resolved (.error .unknownKid)) ∧ RolledBack trace :=
    ⟨_, _, rfl, rfl, rfl, [_, _, _, _, _], _, [_], _, [_], 1, 0, newKeys, oldKeys, rfl, rfl, rfl,
      Nat.zero_lt_one⟩
  exact ⟨trace, finish, execute_run hexecute, hcache, hdone, hrolled⟩

end Zonemail.Auth
