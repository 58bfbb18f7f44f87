import Mathlib.Data.Finset.Dedup
import Zonemail.Library.HashMap
import Zonemail.Library.Reach
import Zonemail.Text.Strings

/-!
# The role policy

The policy of `policy.rs`: grant tokens, the compilation of the configured roles into one effective
set of grants per role, and the decision. Compilation merges, round after round, the grants of the
roles that a role extends, until a round adds nothing or the rounds are used up. `allows_iff` says
that the compiled policy means what the configuration says: a role has the grants of all roles that
it reaches by extension.
-/

namespace Zonemail.Auth

open Library
open Relation (ReflTransGen)
open Text (toAsciiLowercase trim splitOnce)

/-! ## Grants -/

/-- A class of request. -/
inductive Verb where
  | read
  | write
  | delete
  deriving DecidableEq, Repr

/-- The verb a token names. -/
def Verb.parse (token : String) : Option Verb :=
  match toAsciiLowercase (trim token) with
  | "read" | "get" | "r" => some .read
  | "write" | "post" | "put" | "patch" | "w" => some .write
  | "delete" | "del" | "d" => some .delete
  | _ => none

/-- A single permission. -/
inductive Grant where
  | all
  | anyVerb (resource : String)
  | anyResource (verb : Verb)
  | exact (resource : String) (verb : Verb)
  deriving DecidableEq, Repr

/-- Parse one grant token. An unrecognised verb gives nothing. -/
def Grant.parse (token : String) : Option Grant :=
  let raw := trim token
  if raw = "*" ∨ raw = "*:*" ∨ toAsciiLowercase raw = "all" then some .all
  else
    match splitOnce ':' raw with
    -- No colon: a bare resource, taken as it is written.
    | none => some (.anyVerb raw)
    | some (left, right) =>
        let lhs := trim left
        let rhs := trim right
        if rhs = "*" ∨ rhs = "" then
          some (if lhs = "*" then .all else .anyVerb (toAsciiLowercase lhs))
        else if lhs = "*" then (Verb.parse rhs).map .anyResource
        else (Verb.parse rhs).map (.exact (toAsciiLowercase lhs))

/-- Does the grant cover the resource and the verb? -/
def Grant.matches (grant : Grant) (resource : String) (verb : Verb) : Bool :=
  match grant with
  | .all => true
  | .anyVerb granted => granted == resource
  | .anyResource granted => granted == verb
  | .exact grantedResource grantedVerb => grantedResource == resource && grantedVerb == verb

/-- What a request asks for. -/
structure RouteTarget where
  resource : String
  verb : Verb
  deriving DecidableEq, Repr

/-! ## Compilation -/

/-- A role of the configuration. -/
structure RoleConfig where
  grants : List String
  extends_ : List String
  deriving DecidableEq, Repr

/-- One configured role under its name, as a loop over the configuration meets it. -/
abbrev RoleEntry := Σ _ : String, RoleConfig

/-- One role with the roles it extends. -/
abbrev ExtendsEntry := Σ _ : String, List String

/-- Grants per role. -/
abbrev RoleGrants := HashMap String (Finset Grant)

/-- Add a configured role's own grants to those of its lower-cased name. -/
def collectDirect (direct : RoleGrants) (entry : RoleEntry) : RoleGrants :=
  direct.entry (toAsciiLowercase entry.1) ∅
    (fun set => set ∪ (entry.2.grants.filterMap Grant.parse).toFinset)

/-- Add the roles that a configured role extends to those of its lower-cased name. -/
def collectExtends (extends_ : HashMap String (List String)) (entry : RoleEntry) :
    HashMap String (List String) :=
  extends_.entry (toAsciiLowercase entry.1) []
    (fun list => list ++ entry.2.extends_.map toAsciiLowercase)

/-- The grants of a role and, from the snapshot, of the roles it extends. Unknown roles add none. -/
def merged (snapshot : RoleGrants) (entry : ExtendsEntry) : Finset Grant :=
  entry.2.foldl (fun merged dep => merged ∪ (snapshot.lookup dep).getD ∅)
    ((snapshot.lookup entry.1).getD ∅)

/-- Merge for one role, and note it when its set grew. -/
def mergeRole (snapshot : RoleGrants) (state : RoleGrants × Bool) (entry : ExtendsEntry) :
    RoleGrants × Bool :=
  if (merged snapshot entry).card ≠ ((snapshot.lookup entry.1).getD ∅).card then
    (state.1.entry entry.1 ∅ (fun set => set ∪ merged snapshot entry), true)
  else state

/-- One round over all roles: the grants after it, and whether any set grew. -/
def round (entries : List ExtendsEntry) (effective : RoleGrants) : RoleGrants × Bool :=
  entries.foldl (mergeRole effective) (effective, false)

/-- Rounds until nothing changes, at most this many. -/
def fixpoint (entries : List ExtendsEntry) : Nat → RoleGrants → RoleGrants
  | 0, effective => effective
  | fuel + 1, effective =>
      -- Every set is merged from the snapshot at the start of the round.
      if (round entries effective).2 then fixpoint entries fuel (round entries effective).1
      else (round entries effective).1

/-- The compiled policy. -/
structure AuthPolicy where
  roleGrants : RoleGrants
  public_ : Finset String

/-- The orders in which compilation walks through its hash maps. -/
structure BuildOrder where
  roles : IterationOrder RoleEntry
  extends_ : IterationOrder ExtendsEntry

/-- Compile the roles and the list of public resources. -/
def AuthPolicy.build (order : BuildOrder) (roles : HashMap String RoleConfig)
    (public_ : List String) : AuthPolicy :=
  let visited := order.roles.visit roles.entries
  let direct := visited.foldl collectDirect ∅
  let extends_ := visited.foldl collectExtends ∅
  { roleGrants := fixpoint (order.extends_.visit extends_.entries) 10000 direct
    public_ := (public_.map toAsciiLowercase).toFinset }

/-- Is the resource public? -/
def AuthPolicy.isPublic (policy : AuthPolicy) (resource : String) : Bool :=
  decide (toAsciiLowercase resource ∈ policy.public_)

/-- May a caller with these roles do this? -/
def AuthPolicy.allows (policy : AuthPolicy) (roles : List String) (target : RouteTarget) : Bool :=
  let resource := toAsciiLowercase target.resource
  decide (resource ∈ policy.public_) ||
    roles.any (fun role =>
      match policy.roleGrants.lookup (toAsciiLowercase role) with
      | some grants => decide (∃ grant ∈ grants, grant.matches resource target.verb = true)
      | none => false)

/-! ## What the configuration says -/

/-- A configured role of the lower-cased name `source` extends the lower-cased name `next`. -/
def Extends (roles : HashMap String RoleConfig) (source next : String) : Prop :=
  ∃ entry ∈ roles.entries, toAsciiLowercase entry.1 = source ∧
    next ∈ entry.2.extends_.map toAsciiLowercase

/-- A configured role of this lower-cased name has a token that parses to the grant. -/
def Grants (roles : HashMap String RoleConfig) (name : String) (grant : Grant) : Prop :=
  ∃ entry ∈ roles.entries, toAsciiLowercase entry.1 = name ∧
    grant ∈ entry.2.grants.filterMap Grant.parse

/-! ## The two maps that are collected -/

/-- The grants a map holds for a role. -/
def grantsOf (map : RoleGrants) (role : String) : Finset Grant := (map.lookup role).getD ∅

/-- The roles a map holds as extended by a role. -/
def depsOf (map : HashMap String (List String)) (role : String) : List String :=
  (map.lookup role).getD []

theorem mem_grantsOf_collectDirect {direct : RoleGrants} {entry : RoleEntry} {role : String}
    {grant : Grant} :
    grant ∈ grantsOf (collectDirect direct entry) role ↔ grant ∈ grantsOf direct role ∨
      toAsciiLowercase entry.1 = role ∧ grant ∈ entry.2.grants.filterMap Grant.parse := by
  unfold grantsOf collectDirect
  rw [HashMap.lookup_entry]
  by_cases h : role = toAsciiLowercase entry.1
  · subst role
    simp
  · simp [h, Ne.symm h]

/-- After the loop over the configuration, a role has the grants configured under its name. -/
theorem mem_grantsOf_direct {entries : List RoleEntry} {direct : RoleGrants} {role : String}
    {grant : Grant} :
    grant ∈ grantsOf (entries.foldl collectDirect direct) role ↔ grant ∈ grantsOf direct role ∨
      ∃ entry ∈ entries, toAsciiLowercase entry.1 = role ∧
        grant ∈ entry.2.grants.filterMap Grant.parse := by
  induction entries generalizing direct with
  | nil => simp
  | cons entry rest ih =>
      rw [List.foldl_cons, ih, mem_grantsOf_collectDirect, List.exists_mem_cons_iff, or_assoc]

theorem mem_depsOf_collectExtends {extends_ : HashMap String (List String)} {entry : RoleEntry}
    {role dep : String} :
    dep ∈ depsOf (collectExtends extends_ entry) role ↔ dep ∈ depsOf extends_ role ∨
      toAsciiLowercase entry.1 = role ∧ dep ∈ entry.2.extends_.map toAsciiLowercase := by
  unfold depsOf collectExtends
  rw [HashMap.lookup_entry]
  by_cases h : role = toAsciiLowercase entry.1
  · subst role
    simp
  · simp [h, Ne.symm h]

/-- After the loop over the configuration, a role has the extensions configured under its name. -/
theorem mem_depsOf_extends {entries : List RoleEntry} {extends_ : HashMap String (List String)}
    {role dep : String} :
    dep ∈ depsOf (entries.foldl collectExtends extends_) role ↔ dep ∈ depsOf extends_ role ∨
      ∃ entry ∈ entries, toAsciiLowercase entry.1 = role ∧
        dep ∈ entry.2.extends_.map toAsciiLowercase := by
  induction entries generalizing extends_ with
  | nil => simp
  | cons entry rest ih =>
      rw [List.foldl_cons, ih, mem_depsOf_collectExtends, List.exists_mem_cons_iff, or_assoc]

/-! ## One round -/

/-- Merging adds, to the grants of the role, those of each role it extends. -/
theorem mem_merged {snapshot : RoleGrants} {entry : ExtendsEntry} {grant : Grant} :
    grant ∈ merged snapshot entry ↔ grant ∈ grantsOf snapshot entry.1 ∨
      ∃ dep ∈ entry.2, grant ∈ grantsOf snapshot dep := by
  obtain ⟨role, deps⟩ := entry
  unfold merged
  show grant ∈ List.foldl _ (grantsOf snapshot role) deps ↔ _
  generalize grantsOf snapshot role = start
  induction deps generalizing start with
  | nil => simp
  | cons dep rest ih =>
      rw [List.foldl_cons, ih, Finset.mem_union, List.exists_mem_cons_iff, or_assoc]
      rfl

/-- A set that did not grow has all that was merged into it. -/
theorem merged_eq_of_card {snapshot : RoleGrants} {entry : ExtendsEntry}
    (h : (merged snapshot entry).card = (grantsOf snapshot entry.1).card) :
    merged snapshot entry = grantsOf snapshot entry.1 := by
  refine (Finset.eq_of_subset_of_card_le (fun grant hgrant => ?_) h.le).symm
  exact mem_merged.mpr (.inl hgrant)

/-- The state of a round: nothing of the snapshot is lost. -/
def Above (snapshot state : RoleGrants) : Prop :=
  ∀ role, grantsOf snapshot role ⊆ grantsOf state role

/-- Merging for one role adds to that role what was merged, and to no other role anything. -/
theorem mem_grantsOf_mergeRole {snapshot : RoleGrants} {state : RoleGrants × Bool}
    {entry : ExtendsEntry} {role : String} {grant : Grant} (habove : Above snapshot state.1) :
    grant ∈ grantsOf (mergeRole snapshot state entry).1 role ↔ grant ∈ grantsOf state.1 role ∨
      entry.1 = role ∧ grant ∈ merged snapshot entry := by
  unfold mergeRole
  split
  · unfold grantsOf
    rw [HashMap.lookup_entry]
    by_cases h : role = entry.1
    · subst role
      simp
    · simp [h, Ne.symm h]
  · rename_i hcard
    -- The set did not grow, so what was merged is in the snapshot, and nothing of that is lost.
    rw [merged_eq_of_card (not_not.mp hcard)]
    constructor
    · exact .inl
    · rintro (h | ⟨rfl, h⟩)
      · exact h
      · exact habove entry.1 h

/-- When no set grew, merging for this role added nothing either. -/
theorem mergeRole_unchanged {snapshot : RoleGrants} {state : RoleGrants × Bool}
    {entry : ExtendsEntry} (h : (mergeRole snapshot state entry).2 = false) :
    state.2 = false ∧ merged snapshot entry ⊆ grantsOf snapshot entry.1 := by
  unfold mergeRole at h
  split at h
  · cases h
  · rename_i hcard
    exact ⟨h, (merged_eq_of_card (not_not.mp hcard)).subset⟩

/-- Merging for many roles. -/
theorem mem_grantsOf_mergeRoles {snapshot : RoleGrants} {entries : List ExtendsEntry}
    {state : RoleGrants × Bool} {role : String} {grant : Grant} (habove : Above snapshot state.1) :
    grant ∈ grantsOf (entries.foldl (mergeRole snapshot) state).1 role ↔
      grant ∈ grantsOf state.1 role ∨
        ∃ entry ∈ entries, entry.1 = role ∧ grant ∈ merged snapshot entry := by
  induction entries generalizing state with
  | nil => simp
  | cons entry rest ih =>
      have hnext : Above snapshot (mergeRole snapshot state entry).1 := fun role grant hgrant =>
        (mem_grantsOf_mergeRole habove).mpr (.inl (habove role hgrant))
      rw [List.foldl_cons, ih hnext, mem_grantsOf_mergeRole habove, List.exists_mem_cons_iff,
        or_assoc]

theorem mergeRoles_unchanged {snapshot : RoleGrants} {entries : List ExtendsEntry}
    {state : RoleGrants × Bool} (h : (entries.foldl (mergeRole snapshot) state).2 = false) :
    state.2 = false ∧ ∀ entry ∈ entries, merged snapshot entry ⊆ grantsOf snapshot entry.1 := by
  induction entries generalizing state with
  | nil => exact ⟨h, by simp⟩
  | cons entry rest ih =>
      obtain ⟨hfirst, hrest⟩ := ih h
      obtain ⟨hstate, hentry⟩ := mergeRole_unchanged hfirst
      exact ⟨hstate, List.forall_mem_cons.mpr ⟨hentry, hrest⟩⟩

/-- A round gives each role its grants and those of the roles it extends. -/
theorem mem_grantsOf_round {entries : List ExtendsEntry} {effective : RoleGrants} {role : String}
    {grant : Grant} :
    grant ∈ grantsOf (round entries effective).1 role ↔ grant ∈ grantsOf effective role ∨
      ∃ entry ∈ entries, entry.1 = role ∧ ∃ dep ∈ entry.2, grant ∈ grantsOf effective dep := by
  have hstart : Above effective ((effective, false) : RoleGrants × Bool).1 := fun _ _ h => h
  rw [round, mem_grantsOf_mergeRoles hstart]
  constructor
  · intro hmerged
    rcases hmerged with h | ⟨entry, hentry, rfl, h⟩
    · exact .inl h
    · rcases mem_merged.mp h with hold | hnew
      · exact .inl hold
      · exact .inr ⟨entry, hentry, rfl, hnew⟩
  · intro hinherited
    rcases hinherited with h | ⟨entry, hentry, rfl, h⟩
    · exact .inl h
    · exact .inr ⟨entry, hentry, rfl, mem_merged.mpr (.inr h)⟩

/-- When no set grew in a round, every role has the grants of the roles it extends. -/
theorem round_unchanged {entries : List ExtendsEntry} {effective : RoleGrants}
    (h : (round entries effective).2 = false) {entry : ExtendsEntry} (hentry : entry ∈ entries)
    {dep : String} (hdep : dep ∈ entry.2) {grant : Grant}
    (hgrant : grant ∈ grantsOf effective dep) :
    grant ∈ grantsOf effective entry.1 :=
  (mergeRoles_unchanged h).2 entry hentry (mem_merged.mpr (.inr ⟨dep, hdep, hgrant⟩))

/-! ## All rounds -/

section Rounds

variable {entries : List ExtendsEntry} {edge : String → String → Prop}
  {fact : String → Grant → Prop}

/-- A role has the grants of the roles that it reaches by at most `n` extensions. -/
def Within (edge : String → String → Prop) (fact : String → Grant → Prop) (effective : RoleGrants)
    (n : Nat) : Prop :=
  ∀ role grant, grant ∈ grantsOf effective role ↔
    ∃ target, ReachIn edge n role target ∧ fact target grant

/-- One more round allows one more extension. -/
theorem Within.round {effective : RoleGrants} {n : Nat} (h : Within edge fact effective n)
    (hedge : ∀ source next, edge source next ↔
      ∃ entry ∈ entries, entry.1 = source ∧ next ∈ entry.2) :
    Within edge fact (round entries effective).1 (n + 1) := by
  intro role grant
  rw [mem_grantsOf_round]
  constructor
  · intro hround
    rcases hround with hold | ⟨entry, hentry, rfl, dep, hdep, hgrant⟩
    · obtain ⟨target, hreach, hfact⟩ := (h role grant).mp hold
      exact ⟨target, hreach.succ, hfact⟩
    · obtain ⟨target, hreach, hfact⟩ := (h dep grant).mp hgrant
      exact ⟨target, .head ((hedge _ _).mpr ⟨entry, hentry, rfl, hdep⟩) hreach, hfact⟩
  · intro hwithin
    obtain ⟨target, hreach, hfact⟩ := hwithin
    cases hreach with
    | refl => exact .inl ((h role grant).mpr ⟨role, .refl n role, hfact⟩)
    | head hstep hreach =>
        obtain ⟨entry, hentry, hrole, hdep⟩ := (hedge _ _).mp hstep
        exact .inr ⟨entry, hentry, hrole, _, hdep, (h _ grant).mpr ⟨target, hreach, hfact⟩⟩

/-- When no set grew in a round, one more extension leads to no new grant. -/
theorem Within.stable {effective : RoleGrants} {n : Nat} (h : Within edge fact effective n)
    (hedge : ∀ source next, edge source next ↔ ∃ entry ∈ entries, entry.1 = source ∧ next ∈ entry.2)
    (hunchanged : (Auth.round entries effective).2 = false) (source : String) (grant : Grant)
    (hmore : ∃ target, ReachIn edge (n + 1) source target ∧ fact target grant) :
    ∃ target, ReachIn edge n source target ∧ fact target grant := by
  obtain ⟨target, hreach, hfact⟩ := hmore
  cases hreach with
  | refl => exact ⟨source, .refl n source, hfact⟩
  | head hstep hreach =>
      obtain ⟨entry, hentry, rfl, hdep⟩ := (hedge _ _).mp hstep
      have hgrant := (h _ grant).mpr ⟨target, hreach, hfact⟩
      exact (h entry.1 grant).mp (round_unchanged hunchanged hentry hdep hgrant)

/-- The rounds end with the grants within as many extensions as there were rounds, or when more
extensions lead to no new grant. -/
theorem Within.fixpoint {effective : RoleGrants} {n : Nat} (h : Within edge fact effective n)
    (hedge : ∀ source next, edge source next ↔ ∃ entry ∈ entries, entry.1 = source ∧ next ∈ entry.2)
    (fuel : Nat) :
    ∃ m, Within edge fact (fixpoint entries fuel effective) m ∧
      (m = n + fuel ∨ ∀ source grant,
        (∃ target, ReachIn edge (m + 1) source target ∧ fact target grant) →
          ∃ target, ReachIn edge m source target ∧ fact target grant) := by
  induction fuel generalizing effective n with
  | zero => exact ⟨n, h, .inl rfl⟩
  | succ fuel ih =>
      rw [Auth.fixpoint]
      split
      · obtain ⟨m, hm, hend⟩ := ih (h.round hedge)
        refine ⟨m, hm, hend.imp_left (fun hsum => ?_)⟩
        omega
      · rename_i hchanged
        have hunchanged : (Auth.round entries effective).2 = false := by simpa using hchanged
        -- The last round changed nothing, so its result is also what `n` extensions give.
        have hstable := h.stable hedge hunchanged
        refine ⟨n, fun role grant => ?_, .inr hstable⟩
        rw [h.round hedge role grant]
        exact ⟨hstable role grant, fun ⟨target, hreach, hfact⟩ => ⟨target, hreach.succ, hfact⟩⟩

end Rounds

/-! ## The compiled policy -/

variable (order : BuildOrder) (roles : HashMap String RoleConfig) (public_ : List String)

/-- The names of the configured roles, lower-cased. -/
def roleNames : Finset String := (roles.keys.map toAsciiLowercase).toFinset

/-- The collected extensions are those of the configuration. -/
theorem extends_iff (source next : String) :
    Extends roles source next ↔
      ∃ entry ∈ order.extends_.visit
          ((order.roles.visit roles.entries).foldl collectExtends ∅).entries,
        entry.1 = source ∧ next ∈ entry.2 := by
  have hdeps : Extends roles source next ↔
      next ∈ depsOf ((order.roles.visit roles.entries).foldl collectExtends ∅) source := by
    rw [mem_depsOf_extends]
    simp [Extends, depsOf]
  rw [hdeps, depsOf]
  generalize (order.roles.visit roles.entries).foldl collectExtends ∅ = collected
  constructor
  · intro h
    cases hlookup : collected.lookup source with
    | none => simp [hlookup] at h
    | some deps =>
        rw [hlookup] at h
        exact ⟨⟨source, deps⟩, by simpa using AList.mem_lookup_iff.mp hlookup, rfl, h⟩
  · intro hentries
    obtain ⟨⟨role, deps⟩, hentry, rfl, hdep⟩ := hentries
    have hlookup : collected.lookup role = some deps :=
      AList.mem_lookup_iff.mpr (by simpa using hentry)
    rw [hlookup]
    exact hdep

/-- Before the first round a role has its own grants. -/
theorem within_direct :
    Within (Extends roles) (Grants roles)
      ((order.roles.visit roles.entries).foldl collectDirect ∅) 0 := by
  intro role grant
  rw [mem_grantsOf_direct]
  constructor
  · intro hdirect
    rcases hdirect with h | h
    · simp [grantsOf] at h
    · exact ⟨role, .refl 0 role, by simpa [Grants] using h⟩
  · intro hwithin
    obtain ⟨target, hreach, hfact⟩ := hwithin
    cases hreach
    exact .inr (by simpa [Grants] using hfact)

/-- A path of extensions leaves only configured roles. -/
theorem reach_from_roleNames {source target : String}
    (h : ReflTransGen (Extends roles) source target) :
    ReflTransGen (fun a b => a ∈ roleNames roles ∧ Extends roles a b) source target := by
  refine ReflTransGen.mono (fun a b hedge => ?_) source target h
  refine ⟨?_, hedge⟩
  obtain ⟨entry, hentry, rfl, -⟩ := hedge
  rw [roleNames, List.mem_toFinset]
  exact List.mem_map_of_mem (List.mem_map_of_mem hentry)

/-- A role of the compiled policy has the grants of the roles it reaches by extension. -/
theorem mem_grantsOf_build (hsize : (roleNames roles).card < 10000) (role : String)
    (grant : Grant) :
    grant ∈ grantsOf (AuthPolicy.build order roles public_).roleGrants role ↔
      ∃ target, ReflTransGen (Extends roles) role target ∧ Grants roles target grant := by
  obtain ⟨m, hwithin, hend⟩ :=
    (within_direct order roles).fixpoint (extends_iff order roles) 10000
  rw [AuthPolicy.build, hwithin role grant]
  constructor
  · intro hbounded
    obtain ⟨target, hreach, hfact⟩ := hbounded
    exact ⟨target, hreach.reflTransGen, hfact⟩
  · intro hreachable
    obtain ⟨target, hreach, hfact⟩ := hreachable
    rcases hend with hfuel | hstable
    · -- The rounds were used up: there were more of them than roles a path can leave.
      have hbounded := reachIn_card (reach_from_roleNames roles hreach)
      exact ⟨target, hbounded.mono (by omega), hfact⟩
    · exact reach_of_stable hstable hreach hfact

/-- The decision reads the grants of each caller role. -/
theorem AuthPolicy.allows_eq_true_iff (policy : AuthPolicy) (callers : List String)
    (target : RouteTarget) :
    policy.allows callers target = true ↔ toAsciiLowercase target.resource ∈ policy.public_ ∨
      ∃ caller ∈ callers, ∃ grant ∈ grantsOf policy.roleGrants (toAsciiLowercase caller),
        grant.matches (toAsciiLowercase target.resource) target.verb = true := by
  unfold AuthPolicy.allows grantsOf
  rw [Bool.or_eq_true, decide_eq_true_eq, List.any_eq_true]
  refine or_congr Iff.rfl (exists_congr (fun caller => and_congr Iff.rfl ?_))
  split <;> simp_all

/-- What the configuration says about a request. -/
def Permits (callers : List String) (target : RouteTarget) : Prop :=
  toAsciiLowercase target.resource ∈ public_.map toAsciiLowercase ∨
  ∃ caller ∈ callers, ∃ name grant,
    ReflTransGen (Extends roles) (toAsciiLowercase caller) name ∧ Grants roles name grant ∧
      grant.matches (toAsciiLowercase target.resource) target.verb = true

/-- The compiled policy decides what the configuration says. -/
theorem allows_build_iff (hsize : (roleNames roles).card < 10000) (callers : List String)
    (target : RouteTarget) :
    (AuthPolicy.build order roles public_).allows callers target = true ↔
      Permits roles public_ callers target := by
  rw [AuthPolicy.allows_eq_true_iff]
  refine or_congr (by simp [AuthPolicy.build]) (exists_congr (fun caller => and_congr Iff.rfl ?_))
  constructor
  · intro hgranted
    obtain ⟨grant, hgrant, hmatches⟩ := hgranted
    obtain ⟨name, hreach, hfact⟩ := (mem_grantsOf_build order roles public_ hsize _ _).mp hgrant
    exact ⟨name, grant, hreach, hfact, hmatches⟩
  · intro hpermits
    obtain ⟨name, grant, hreach, hfact, hmatches⟩ := hpermits
    exact ⟨grant, (mem_grantsOf_build order roles public_ hsize _ _).mpr ⟨name, hreach, hfact⟩,
      hmatches⟩

/-- A caller is allowed exactly when the resource is public or one of the caller's roles reaches, by
extension, a configured role with a token that parses to a matching grant; and the order in which
hash maps are walked makes no difference. -/
theorem allows_iff (hsize : (roleNames roles).card < 10000) (callers : List String)
    (target : RouteTarget) :
    ((AuthPolicy.build order roles public_).allows callers target = true ↔
      Permits roles public_ callers target) ∧
    ∀ other : BuildOrder, (AuthPolicy.build other roles public_).allows callers target =
      (AuthPolicy.build order roles public_).allows callers target := by
  have hbuild (order : BuildOrder) := allows_build_iff order roles public_ hsize callers target
  refine ⟨hbuild order, fun other => ?_⟩
  rw [Bool.eq_iff_iff, hbuild other, hbuild order]

/-- Two roles that extend each other, one of them spelled in two ways. -/
theorem allows_iff_cycle :
    Permits (List.toAList [⟨"a", ⟨["records:read"], ["B"]⟩⟩, ⟨"b", ⟨["domains:*"], ["A", "x"]⟩⟩])
      [] ["A"] ⟨"domains", .write⟩ := by
  rw [← (allows_iff ⟨.listed _, .listed _⟩ _ _ (by decide) _ _).1]
  decide +kernel

end Zonemail.Auth
