import Zonemail.Auth.Rotation

/-!
# A herd on the key source

A resolution that misses fetches the set itself when the cache is stale. The cache is stale until a
fetched set is stored, so while a fetch is under way, or when it failed, every other resolution that
misses starts one more. `spaced_of_run` says that nothing else starts too many: when each check that
finds the cache stale finds every fetch of the last ttl stored, and no other resolution on the way
from its check to its fetch, the fetches begin at least a ttl apart.
-/

namespace Zonemail.Auth

open Library

variable {Jwk Key α : Type}

/-! ## Resolutions and their fetches -/

/-- A world that notes the clock at the start of every fetch, in the order of their numbers, and the
fetches whose sets were stored. -/
structure NotedWorld (Jwk : Type) extends TimedWorld Jwk where
  begun : List Nat
  stored : List Nat

/-- Perform one access and note it. -/
def notedExecute (ttl : Nat) (effect : TimedEffect Jwk) (input : Nat × Except String (List Jwk))
    (world : NotedWorld Jwk) : TimedAnswer effect × NotedWorld Jwk :=
  let result := timedExecute ttl effect input world.toTimedWorld
  (result.1,
    { toTimedWorld := result.2
      begun := match effect with
        | .fetchStart => world.begun ++ [result.2.clock]
        | _ => world.begun
      stored := match effect with
        | .store (some fetch) _ => world.stored ++ [fetch]
        | _ => world.stored })

/-- Any number of resolutions over one key set, whose cache holds anything. -/
def resolvePool {Thread : Type} (lib : JsonWebToken Jwk Key) (keys : KeySet Jwk)
    (headers : Thread → Header) (cache : Option (CachedSet Jwk × Option Nat)) (clock : Nat) :
    Pool Thread (TimedEffect Jwk) TimedAnswer (Except AuthError Key) (NotedWorld Jwk) where
  store := ⟨⟨cache, clock, 0, []⟩, [], []⟩
  program := fun thread => timed none (keys.resolve lib (headers thread))

/-- A check that finds the cache stale finds every fetch that began less than a ttl before stored,
and no other thread about to begin one. -/
def Orderly {Thread : Type} (ttl : Nat)
    (pool : Pool Thread (TimedEffect Jwk) TimedAnswer α (NotedWorld Jwk))
    (label : Thread × (Nat × Except String (List Jwk))) : Prop :=
  (pool.program label.1).next? = some .shouldRefetch →
    (timedExecute ttl .shouldRefetch label.2 pool.store.toTimedWorld).1 = true →
    (∀ fetch start, pool.store.begun[fetch]? = some start →
      pool.store.clock + label.2.1 < start + ttl → fetch ∈ pool.store.stored) ∧
    ∀ other, other ≠ label.1 → (pool.program other).next? ≠ some .fetchStart

/-! ## What a resolution does by itself -/

/-- A fetch begins right after the check found the cache stale, and only a fetch of its own is
stored. -/
def Disciplined (history : Program.History (TimedEffect Jwk) TimedAnswer) :
    TimedEffect Jwk → Prop
  | .fetchStart => ∃ front, history = front ++ [⟨.shouldRefetch, true⟩]
  | .store fetch _ => ∃ number, fetch = some number ∧ ⟨.fetchStart, number⟩ ∈ history
  | _ => True

variable {lib : JsonWebToken Jwk Key}
  {history : Program.History (TimedEffect Jwk) TimedAnswer}

theorem KeySet.disciplined_resolveCached {last : Option Nat} (header : Header) :
    Program.Safe (fun _ _ => True) Disciplined (fun _ _ => True)
      (timed last (KeySet.resolveCached lib header)) history := by
  simp only [KeySet.resolveCached, Program.call_bind]
  refine .perform trivial (fun answer _ => ?_)
  cases answer with
  | none => exact .done trivial
  | some set =>
      dsimp only
      cases pickKey lib set header with
      | some key => exact .done trivial
      | none => exact .done trivial

theorem KeySet.disciplined_resolve (keys : KeySet Jwk) (header : Header) :
    Program.Safe (fun _ _ => True) Disciplined (fun _ _ => True)
      (timed none (keys.resolve lib header)) history := by
  simp only [KeySet.resolve, Program.call_bind]
  refine .perform trivial (fun cached _ => ?_)
  dsimp only
  cases cached.bind (fun set => pickKey lib set header) with
  | some key => exact .done trivial
  | none =>
      cases keys.fetcher with
      | none => exact KeySet.disciplined_resolveCached header
      | some fetcher =>
          refine .perform trivial (fun stale _ => ?_)
          dsimp only
          cases stale with
          | false => exact KeySet.disciplined_resolveCached header
          | true =>
              refine .perform ⟨_, rfl⟩ (fun number _ => .perform trivial (fun fetched _ => ?_))
              dsimp only
              cases fetched with
              | error e => exact KeySet.disciplined_resolveCached header
              | ok set =>
                  refine .perform ⟨number, rfl, by simp⟩ (fun _ _ => ?_)
                  refine .perform trivial (fun fresh _ => ?_)
                  dsimp only
                  cases fresh.bind (fun set => pickKey lib set header) with
                  | some key => exact .done trivial
                  | none => exact .done trivial

/-! ## The notes -/

/-- What the notes say about the cache and the clock, with fetches a ttl apart. -/
structure Noted (ttl : Nat) (world : NotedWorld Jwk) : Prop where
  numbered : world.started = world.begun.length
  stored : ∀ fetch ∈ world.stored, fetch < world.begun.length
  begun : ∀ start ∈ world.begun, start ≤ world.clock
  spaced : world.begun.Pairwise (fun first second => first + ttl ≤ second)
  fresh : ∀ fetch ∈ world.stored, ∀ start, world.begun[fetch]? = some start →
    ∃ cached, world.cache = some cached ∧ start ≤ cached.1.fetchedAt

variable {ttl : Nat} {world : NotedWorld Jwk}

/-- A fetch that was stored keeps the cache fresh for a ttl from its start. -/
theorem Noted.started_before (h : Noted ttl world) {input : Nat × Except String (List Jwk)}
    (hstale : (timedExecute ttl .shouldRefetch input world.toTimedWorld).1 = true)
    (hrecent : ∀ fetch start, world.begun[fetch]? = some start →
      world.clock + input.1 < start + ttl → fetch ∈ world.stored) :
    ∀ start ∈ world.begun, start + ttl ≤ world.clock + input.1 := by
  intro start hstart
  by_contra hlate
  obtain ⟨fetch, hfetch⟩ := List.mem_iff_getElem?.mp hstart
  obtain ⟨cached, hcache, hbefore⟩ :=
    h.fresh fetch (hrecent fetch start hfetch (Nat.lt_of_not_le hlate)) start hfetch
  have hage : ttl ≤ world.clock + input.1 - cached.1.fetchedAt := by
    simpa [timedExecute, hcache] using hstale
  have hnow := h.begun start hstart
  omega

/-- What has begun lies in the past when the clock has moved on. -/
theorem Noted.begun_later (h : Noted ttl world) (elapsed : Nat) :
    ∀ start ∈ world.begun, start ≤ world.clock + elapsed :=
  fun start hmem => Nat.le_trans (h.begun start hmem) (Nat.le_add_right _ _)

/-- A fetch begins. -/
theorem Noted.fetchStart (h : Noted ttl world) (input : Nat × Except String (List Jwk))
    (hstart : ∀ start ∈ world.begun, start + ttl ≤ world.clock) :
    Noted ttl (notedExecute ttl .fetchStart input world).2 := by
  refine ⟨?_, ?_, ?_, ?_, ?_⟩
  · show world.started + 1 = (world.begun ++ [world.clock + input.1]).length
    rw [List.length_append, h.numbered, List.length_singleton]
  · intro fetch hfetch
    show fetch < (world.begun ++ [world.clock + input.1]).length
    have := h.stored fetch hfetch
    rw [List.length_append]
    omega
  · intro start hmem
    rcases List.mem_append.mp hmem with hold | hnew
    · exact h.begun_later input.1 start hold
    · rw [List.mem_singleton.mp hnew]
      exact Nat.le_refl _
  · refine List.pairwise_append.mpr ⟨h.spaced, List.pairwise_singleton _ _, ?_⟩
    intro first hfirst second hsecond
    rw [List.mem_singleton.mp hsecond]
    exact Nat.le_trans (hstart first hfirst) (Nat.le_add_right _ _)
  · intro fetch hfetch start hget
    have hold : world.begun[fetch]? = some start := by
      rwa [show (notedExecute ttl .fetchStart input world).2.begun =
        world.begun ++ [world.clock + input.1] from rfl,
        List.getElem?_append_left (h.stored fetch hfetch)] at hget
    exact h.fresh fetch hfetch start hold

/-- A set is stored, the result of a fetch that has begun or of none. -/
theorem Noted.store (h : Noted ttl world) (input : Nat × Except String (List Jwk))
    (fetch : Option Nat) (set : List Jwk)
    (hstore : ∀ number, fetch = some number → number < world.started) :
    Noted ttl (notedExecute ttl (.store fetch set) input world).2 := by
  refine ⟨h.numbered, ?_, h.begun_later input.1, h.spaced, ?_⟩
  · cases fetch with
    | none => exact h.stored
    | some number =>
        intro other hother
        rcases List.mem_append.mp hother with hold | hnew
        · exact h.stored other hold
        · rw [List.mem_singleton.mp hnew]
          have hnumber := hstore number rfl
          rwa [h.numbered] at hnumber
  · intro fetch _ start hget
    exact ⟨_, rfl, h.begun_later input.1 start (List.mem_of_getElem? hget)⟩

/-- One access keeps the notes right, when a fetch begins only a ttl after all others. -/
theorem Noted.execute (h : Noted ttl world) {effect : TimedEffect Jwk}
    (input : Nat × Except String (List Jwk))
    (hstart : effect = .fetchStart → ∀ start ∈ world.begun, start + ttl ≤ world.clock)
    (hstore : ∀ fetch set, effect = .store (some fetch) set → fetch < world.started) :
    Noted ttl (notedExecute ttl effect input world).2 := by
  cases effect with
  | current => exact ⟨h.numbered, h.stored, h.begun_later input.1, h.spaced, h.fresh⟩
  | shouldRefetch => exact ⟨h.numbered, h.stored, h.begun_later input.1, h.spaced, h.fresh⟩
  | fetchComplete fetch =>
      obtain ⟨elapsed, result⟩ := input
      cases result with
      | error e => exact ⟨h.numbered, h.stored, h.begun_later elapsed, h.spaced, h.fresh⟩
      | ok set => exact ⟨h.numbered, h.stored, h.begun_later elapsed, h.spaced, h.fresh⟩
  | fetchStart => exact h.fetchStart input (hstart rfl)
  | store fetch set =>
      refine h.store input fetch set ?_
      intro number heq
      obtain rfl := heq
      exact hstore number set rfl

/-! ## Runs -/

section Runs

variable {Thread : Type} [DecidableEq Thread]
  {pool next finish : Pool Thread (TimedEffect Jwk) TimedAnswer α (NotedWorld Jwk)}
  {trace moments : List (Moment Thread (TimedEffect Jwk) TimedAnswer (NotedWorld Jwk))}
  {label : Thread × (Nat × Except String (List Jwk))}

/-- How far a run has come: the notes are right, and a thread that is about to begin a fetch is the
only one, and may. -/
structure Spaced (ttl : Nat)
    (trace : List (Moment Thread (TimedEffect Jwk) TimedAnswer (NotedWorld Jwk)))
    (pool : Pool Thread (TimedEffect Jwk) TimedAnswer α (NotedWorld Jwk)) : Prop where
  threads : ∀ thread, Program.Safe (fun _ _ => True) Disciplined (fun _ _ => True)
    (pool.program thread) (Pool.history thread trace)
  owned : ∀ thread number, ⟨.fetchStart, number⟩ ∈ Pool.history thread trace →
    number < pool.store.started
  noted : Noted ttl pool.store
  ready : ∀ thread, (pool.program thread).next? = some .fetchStart →
    ∀ start ∈ pool.store.begun, start + ttl ≤ pool.store.clock
  alone : ∀ thread other, (pool.program thread).next? = some .fetchStart →
    (pool.program other).next? = some .fetchStart → thread = other

/-- The clock does not go back. -/
theorem clock_le_notedExecute (effect : TimedEffect Jwk) (input : Nat × Except String (List Jwk))
    (world : NotedWorld Jwk) : world.clock ≤ (notedExecute ttl effect input world).2.clock := by
  have hclock : world.clock ≤ world.clock + input.1 := Nat.le_add_right _ _
  cases effect with
  | fetchComplete fetch =>
      obtain ⟨elapsed, result⟩ := input
      cases result <;> exact hclock
  | current => exact hclock
  | shouldRefetch => exact hclock
  | fetchStart => exact hclock
  | store fetch set => exact hclock

theorem started_le_notedExecute (effect : TimedEffect Jwk)
    (input : Nat × Except String (List Jwk)) (world : NotedWorld Jwk) :
    world.started ≤ (notedExecute ttl effect input world).2.started := by
  cases effect with
  | fetchComplete fetch =>
      obtain ⟨elapsed, result⟩ := input
      cases result <;> exact Nat.le_refl _
  | fetchStart => exact Nat.le_succ _
  | current => exact Nat.le_refl _
  | shouldRefetch => exact Nat.le_refl _
  | store fetch set => exact Nat.le_refl _

/-- Only the start of a fetch is noted as one. -/
theorem begun_notedExecute {effect : TimedEffect Jwk} (h : effect ≠ .fetchStart)
    (input : Nat × Except String (List Jwk)) (world : NotedWorld Jwk) :
    (notedExecute ttl effect input world).2.begun = world.begun := by
  cases effect with
  | fetchStart => exact absurd rfl h
  | fetchComplete fetch =>
      obtain ⟨elapsed, result⟩ := input
      cases result <;> rfl
  | current => rfl
  | shouldRefetch => rfl
  | store fetch set => rfl

/-- After a step, too, the fetches that a thread has begun are among the noted ones. -/
theorem Spaced.owned_step (h : Spaced ttl trace pool)
    (hstep : Pool.step (notedExecute ttl) pool label = some (moments, next)) {thread : Thread}
    {number : Nat} (hmem : ⟨.fetchStart, number⟩ ∈ Pool.history thread (trace ++ moments)) :
    number < next.store.started := by
  obtain ⟨effect, resume, -, rfl, hstore, -⟩ := Pool.step_eq_some hstep
  rw [hstore]
  by_cases hthread : label.1 = thread
  · subst hthread
    rw [Pool.history_snoc_self trace (by rfl)] at hmem
    rcases List.mem_append.mp hmem with hold | hnew
    · exact Nat.lt_of_lt_of_le (h.owned label.1 number hold) (started_le_notedExecute ..)
    · simp only [List.mem_singleton, Sigma.mk.injEq] at hnew
      obtain ⟨rfl, hanswer⟩ := hnew
      rw [eq_of_heq hanswer]
      exact Nat.lt_succ_self _
  · rw [Pool.history_snoc_other trace hthread] at hmem
    exact Nat.lt_of_lt_of_le (h.owned thread number hmem) (started_le_notedExecute ..)

/-- A thread that is about to begin a fetch after a step was so before, or found the cache stale in
this step. -/
theorem about_to_fetch_cases (h : Spaced ttl trace pool)
    (hstep : Pool.step (notedExecute ttl) pool label = some (moments, next)) (thread : Thread)
    (hnext : (next.program thread).next? = some .fetchStart) :
    (thread ≠ label.1 ∧ (pool.program thread).next? = some .fetchStart) ∨
      thread = label.1 ∧ (pool.program label.1).next? = some .shouldRefetch ∧
        (timedExecute ttl .shouldRefetch label.2 pool.store.toTimedWorld).1 = true ∧
        next.store = (notedExecute ttl .shouldRefetch label.2 pool.store).2 := by
  have hsafe := Pool.safe_step (fun _ => trivial) h.threads hstep thread
  obtain ⟨effect, resume, hprogram, rfl, hstore, hprograms⟩ := Pool.step_eq_some hstep
  by_cases hthread : thread = label.1
  · subst hthread
    obtain ⟨front, hhistory⟩ := hsafe.next? hnext
    rw [Pool.history_snoc_self trace (by rfl)] at hhistory
    obtain ⟨-, hevent⟩ := List.append_inj' hhistory rfl
    simp only [List.cons.injEq, Sigma.mk.injEq, and_true] at hevent
    obtain ⟨rfl, hanswer⟩ := hevent
    exact .inr ⟨rfl, by rw [hprogram]; rfl, eq_of_heq hanswer, hstore⟩
  · rw [hprograms, Function.update_of_ne hthread] at hnext
    exact .inl ⟨hthread, hnext⟩

/-- The step lemma. -/
theorem Spaced.step (h : Spaced ttl trace pool) (horderly : Orderly ttl pool label)
    (hstep : Pool.step (notedExecute ttl) pool label = some (moments, next)) :
    Spaced ttl (trace ++ moments) next := by
  have hthreads := Pool.safe_step (fun _ => trivial) h.threads hstep
  have hcases := about_to_fetch_cases h hstep
  obtain ⟨effect, resume, hprogram, rfl, hstore, hprograms⟩ := Pool.step_eq_some hstep
  have hpending : (pool.program label.1).next? = some effect := by
    rw [hprogram]
    rfl
  have hrule : Disciplined (Pool.history label.1 trace) effect := (h.threads label.1).next? hpending
  refine ⟨hthreads, fun _ _ hmem => h.owned_step hstep hmem, ?_, ?_, ?_⟩
  · rw [hstore]
    refine h.noted.execute label.2 ?_ ?_
    · intro heq
      obtain rfl := heq
      exact h.ready label.1 hpending
    · intro fetch set heq
      obtain rfl := heq
      obtain ⟨number, hnumber, hmem⟩ := hrule
      cases hnumber
      exact h.owned label.1 fetch hmem
  · intro thread hnext
    rcases hcases thread hnext with ⟨hother, hbefore⟩ | ⟨-, hcheck, hstale, hworld⟩
    · have heffect : effect ≠ .fetchStart := by
        intro heq
        obtain rfl := heq
        exact hother (h.alone thread label.1 hbefore hpending)
      intro start hmem
      rw [hstore, begun_notedExecute heffect] at hmem
      rw [hstore]
      exact Nat.le_trans (h.ready thread hbefore start hmem) (clock_le_notedExecute ..)
    · rw [hworld]
      exact h.noted.started_before hstale (horderly hcheck hstale).1
  · intro thread other hthread hother
    rcases hcases thread hthread with ⟨hne, hbefore⟩ | ⟨rfl, hcheck, hstale, -⟩
    · rcases hcases other hother with ⟨-, hotherBefore⟩ | ⟨rfl, hcheck, hstale, -⟩
      · exact h.alone thread other hbefore hotherBefore
      · exact absurd hbefore ((horderly hcheck hstale).2 thread hne)
    · rcases hcases other hother with ⟨hne, hotherBefore⟩ | ⟨rfl, -⟩
      · exact absurd hotherBefore ((horderly hcheck hstale).2 other hne)
      · rfl

end Runs

/-- **When the fetches of resolutions are a ttl apart.** Any number of resolutions run over one key
set, from any cache, with fetches that take any time and succeed or fail: when each check that finds
the cache stale finds every fetch of the last ttl stored and no other resolution about to begin one,
then in every state reached the fetches have begun at least a ttl apart. -/
theorem spaced_of_run {Thread : Type} [DecidableEq Thread] {lib : JsonWebToken Jwk Key}
    {keys : KeySet Jwk} {headers : Thread → Header} {cache : Option (CachedSet Jwk × Option Nat)}
    {clock : Nat} {trace : List (Moment Thread (TimedEffect Jwk) TimedAnswer (NotedWorld Jwk))}
    {finish : Pool Thread (TimedEffect Jwk) TimedAnswer (Except AuthError Key) (NotedWorld Jwk)}
    (hrun : Run (Pool.step (notedExecute keys.ttl)) (Orderly keys.ttl)
      (resolvePool lib keys headers cache clock) trace finish) :
    finish.store.begun.Pairwise (fun first second => first + keys.ttl ≤ second) := by
  have hspaced : Spaced keys.ttl trace finish := by
    refine hrun.invariant_trace (Spaced keys.ttl) ?_
      (fun trace state label moments next hspaced horderly hstep => hspaced.step horderly hstep)
    have hdisciplined (thread : Thread) : Program.Safe (fun _ _ => True) Disciplined
        (fun _ _ => True) (timed none (keys.resolve lib (headers thread))) [] :=
      keys.disciplined_resolve (headers thread)
    -- No program begins with a fetch.
    have hnone (thread : Thread) :
        (timed none (keys.resolve lib (headers thread))).next? ≠ some .fetchStart := by
      intro hnext
      obtain ⟨front, hhistory⟩ := (hdisciplined thread).next? hnext
      simp at hhistory
    refine ⟨hdisciplined, fun _ _ hmem => absurd hmem List.not_mem_nil,
      ⟨rfl, fun _ hmem => absurd hmem List.not_mem_nil, fun _ hmem => absurd hmem List.not_mem_nil,
        .nil, fun _ hmem => absurd hmem List.not_mem_nil⟩,
      fun thread hnext => absurd hnext (hnone thread),
      fun thread _ hnext => absurd hnext (hnone thread)⟩
  exact hspaced.noted.spaced

/-- Two resolutions of keys that the cache does not have. -/
def missHeaders : Bool → Header
  | true => ⟨.ES256, some "new"⟩
  | false => ⟨.ES256, some "other"⟩

/-- One after the other: the first stores what it fetched, the second misses a ttl later. -/
def spacedLabels : List (Bool × (Nat × Except String (List SampleJwk))) :=
  [(true, 0, .error "unused"), (true, 0, .error "unused"), (true, 0, .error "unused"),
    (true, 0, .ok newKeys), (true, 0, .error "unused"), (true, 0, .error "unused"),
    (false, fromSecs 300, .error "unused"), (false, 0, .error "unused"),
    (false, 0, .error "unused")]

/-- Both find the cache stale before either begins its fetch. -/
def herdLabels : List (Bool × (Nat × Except String (List SampleJwk))) :=
  [(true, 0, .error "unused"), (false, 0, .error "unused"), (true, 0, .error "unused"),
    (false, 0, .error "unused"), (true, 0, .error "unused"), (false, 0, .error "unused")]

/-- A failed fetch leaves the cache empty, and the next resolution begins one more. -/
def outageLabels : List (Bool × (Nat × Except String (List SampleJwk))) :=
  [(true, 0, .error "unused"), (true, 0, .error "unused"), (true, 0, .error "unused"),
    (true, 0, .error "http: unreachable"), (true, 0, .error "unused"), (false, 0, .error "unused"),
    (false, 0, .error "unused"), (false, 0, .error "unused")]

/-- Two fetches, a ttl apart. -/
theorem spaced_oneByOne : ∃ trace finish,
    Run (Pool.step (notedExecute rotatedSet.ttl)) (Orderly rotatedSet.ttl)
      (resolvePool sampleJwt rotatedSet missHeaders none 0) trace finish ∧
    finish.store.begun = [0, fromSecs 300] ∧
    finish.store.begun.Pairwise (fun first second => first + rotatedSet.ttl ≤ second) := by
  have hcomputed : ∃ trace finish,
      execute (Pool.step (notedExecute rotatedSet.ttl))
        (resolvePool sampleJwt rotatedSet missHeaders none 0) spacedLabels =
        some (trace, finish) ∧
      finish.store.begun = [0, fromSecs 300] := ⟨_, _, rfl, rfl⟩
  obtain ⟨trace, finish, hexecute, hbegun⟩ := hcomputed
  have hallowed : AllowedAlong (Pool.step (notedExecute rotatedSet.ttl)) (Orderly rotatedSet.ttl)
      (resolvePool sampleJwt rotatedSet missHeaders none 0) spacedLabels := by
    refine ⟨nofun, ?_, nofun, nofun, nofun, nofun, nofun, ?_, nofun, trivial⟩
    · refine fun _ _ => ⟨nofun, fun other hother hnext => ?_⟩
      cases other with
      | true => exact hother rfl
      | false => cases hnext
    · refine fun _ _ => ⟨fun fetch start hstart hrecent => ?_, fun other hother hnext => ?_⟩
      · obtain rfl : start = 0 := List.mem_singleton.mp (List.mem_of_getElem? hstart)
        exact absurd hrecent (Nat.lt_irrefl (fromSecs 300))
      · cases other with
        | true => cases hnext
        | false => exact hother rfl
  have hrun := execute_run_of_allowed hexecute hallowed
  exact ⟨trace, finish, hrun, hbegun, spaced_of_run hrun⟩

/-- Without order two fetches begin at once. -/
theorem not_spaced_herd : ¬ ∀ trace finish,
    Run (Pool.step (notedExecute rotatedSet.ttl)) (fun _ _ => True)
      (resolvePool sampleJwt rotatedSet missHeaders none 0) trace finish →
    finish.store.begun.Pairwise (fun first second => first + rotatedSet.ttl ≤ second) := by
  intro h
  have hcomputed : ∃ trace finish,
      execute (Pool.step (notedExecute rotatedSet.ttl))
        (resolvePool sampleJwt rotatedSet missHeaders none 0) herdLabels = some (trace, finish) ∧
      finish.store.begun = [0, 0] := ⟨_, _, rfl, rfl⟩
  obtain ⟨trace, finish, hexecute, hbegun⟩ := hcomputed
  have hspaced := h trace finish (execute_run hexecute)
  rw [hbegun] at hspaced
  exact absurd hspaced (by decide)

/-- The same during an outage, with one resolution after the other. -/
example : (execute (Pool.step (notedExecute rotatedSet.ttl))
    (resolvePool sampleJwt rotatedSet missHeaders none 0) outageLabels).map
      (fun result => result.2.store.begun) = some [0, 0] := rfl

end Zonemail.Auth
