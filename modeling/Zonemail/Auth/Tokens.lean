import Zonemail.Auth.Policy
import Zonemail.Text.Folding

/-!
# Spellings of a grant token

A resource that a token names is compared with the lower-cased resource of a request. With a colon
in the token the resource is lower-cased before it is kept, without one it is kept as it is written.
`consistent_iff` says for which tokens this makes no difference: all but a bare resource with a
capital letter, which grants nothing.
-/

namespace Zonemail.Auth

open Library
open Relation (ReflTransGen)
open Text (toAsciiLowercase trim splitOnce trimmedParts)

/-! ## What a token should grant -/

/-- The words for a verb. -/
def Verb.words : Verb → List String
  | .read => ["read", "get", "r"]
  | .write => ["write", "post", "put", "patch", "w"]
  | .delete => ["delete", "del", "d"]

/-- The text is a word for the verb, in any case. -/
def Verb.Word (verb : Verb) (text : String) : Prop := toAsciiLowercase (trim text) ∈ verb.words

/-- The token is this text in some ASCII case, with some white space around it. -/
def Spells (token text : String) : Prop :=
  toAsciiLowercase (trim token) = toAsciiLowercase (trim text)

/-- The resource that a name stands for. -/
def resourceOf (name : String) : String := toAsciiLowercase (trim name)

/-- A name for one resource, which is no wildcard. -/
structure ResourceName (name : String) : Prop where
  colon : ':' ∉ name.toList
  star : resourceOf name ≠ "*"
  all : resourceOf name ≠ "all"

/-- A configuration with one role, which has one token. -/
def oneToken (token : String) : HashMap String RoleConfig :=
  List.toAList [⟨"role", ⟨[token], []⟩⟩]

/-- What the token grants: the lower-case resources and the verbs that its role is allowed. -/
def granted (order : BuildOrder) (token : String) : Set RouteTarget :=
  { target | toAsciiLowercase target.resource = target.resource ∧
    (AuthPolicy.build order (oneToken token) []).allows ["role"] target = true }

/-- The token grants what its text says, however it is spelled. -/
structure Consistent (order : BuildOrder) (token : String) : Prop where
  resource (name : String) : ResourceName name →
    Spells token name ∨ Spells token (name ++ ":") ∨ Spells token (name ++ ":*") →
    granted order token = { target | target.resource = resourceOf name }
  exact (name word : String) (verb : Verb) : ResourceName name → verb.Word word →
    Spells token (name ++ ":" ++ word) → granted order token = {⟨resourceOf name, verb⟩}
  unknown (left right : String) : splitOnce ':' token = some (left, right) → trim right ≠ "" →
    trim right ≠ "*" → (∀ verb : Verb, ¬ verb.Word right) → granted order token = ∅

/-- A text in another case, with white space around it, is a spelling of it. -/
theorem spells_of_toList {token text : String} {lead middle tail : List Char}
    (htoken : token.toList = lead ++ middle ++ tail)
    (hlead : ∀ c ∈ lead, Text.isWhitespace c = true)
    (htail : ∀ c ∈ tail, Text.isWhitespace c = true)
    (hmiddle : toAsciiLowercase (String.ofList middle) = toAsciiLowercase text) :
    Spells token text := by
  have htrim : trim token = trim (String.ofList middle) := by
    rw [← String.ofList_toList (s := token), htoken, ← Text.trim_rdropWhile,
      Text.rdropWhile_append_of_forall htail, Text.trim_rdropWhile, ← Text.trim_dropWhile,
      List.dropWhile_append_of_pos hlead, Text.trim_dropWhile]
  rw [Spells, htrim, ← Text.trim_toAsciiLowercase, hmiddle, Text.trim_toAsciiLowercase]

/-! ## What the parser reads -/

variable {token name word lhs rhs : String} {verb : Verb}

theorem Verb.parse_iff {text : String} : Verb.parse text = some verb ↔ verb.Word text := by
  unfold Verb.parse Verb.Word
  generalize toAsciiLowercase (trim text) = word
  constructor
  · intro h
    split at h <;> cases h <;> simp [Verb.words]
  · intro h
    cases verb <;> simp only [Verb.words, List.mem_cons, List.not_mem_nil, or_false] at h <;>
      rcases h with rfl | rfl | rfl | rfl | rfl <;> rfl

theorem Verb.parse_eq_none_iff {text : String} :
    Verb.parse text = none ↔ ∀ verb : Verb, ¬ verb.Word text := by
  rw [Option.eq_none_iff_forall_ne_some]
  exact forall_congr' (fun verb => not_congr Verb.parse_iff)

theorem eq_star_of_toAsciiLowercase {s : String} (h : toAsciiLowercase s = "*") : s = "*" := by
  refine Text.eq_of_toAsciiLowercase_eq h (fun c hc => ?_)
  obtain rfl : c = '*' := List.mem_singleton.mp hc
  decide

theorem eq_empty_of_toAsciiLowercase {s : String} (h : toAsciiLowercase s = "") : s = "" :=
  Text.eq_of_toAsciiLowercase_eq h (fun _ hc => absurd hc List.not_mem_nil)

/-- The parts of a token without the white space around it. -/
theorem trimmedParts_trim_eq (token : String) :
    trimmedParts ':' (trim token) = trimmedParts ':' token :=
  Text.trimmedParts_trim (by decide +kernel) token

theorem trimmedParts_toLower (token : String) : trimmedParts ':' (toAsciiLowercase token) =
    (trimmedParts ':' token).map (Prod.map toAsciiLowercase toAsciiLowercase) :=
  Text.trimmedParts_toAsciiLowercase (by decide) (by decide) token

/-- A token with a colon is none of the wildcards. -/
theorem ne_wildcard_of_parts (h : trimmedParts ':' token = some (lhs, rhs))
    (hparts : lhs ≠ "*" ∨ rhs ≠ "*") :
    ¬ (trim token = "*" ∨ trim token = "*:*" ∨ toAsciiLowercase (trim token) = "all") := by
  rw [← trimmedParts_trim_eq] at h
  rintro (hstar | hboth | hall)
  · rw [hstar, show trimmedParts ':' "*" = none by decide +kernel] at h
    cases h
  · rw [hboth, show trimmedParts ':' "*:*" = some ("*", "*") by decide +kernel] at h
    cases h
    exact hparts.elim (fun h => h rfl) (fun h => h rfl)
  · have hlower := trimmedParts_toLower (trim token)
    rw [h, hall, show trimmedParts ':' "all" = none by decide +kernel] at hlower
    cases hlower

/-- A token with a colon whose left part is no wildcard. -/
theorem parse_of_parts (h : trimmedParts ':' token = some (lhs, rhs)) (hstar : lhs ≠ "*") :
    Grant.parse token =
      if rhs = "*" ∨ rhs = "" then some (.anyVerb (toAsciiLowercase lhs))
      else (Verb.parse rhs).map (.exact (toAsciiLowercase lhs)) := by
  have hwildcard := ne_wildcard_of_parts h (.inl hstar)
  rw [← trimmedParts_trim_eq, trimmedParts, Option.map_eq_some_iff] at h
  obtain ⟨⟨left, right⟩, hsplit, hparts⟩ := h
  cases hparts
  simp only [Grant.parse, if_neg hwildcard, hsplit, if_neg hstar]

/-- A token whose right part is no word for a verb. -/
theorem parse_of_unknown (h : trimmedParts ':' token = some (lhs, rhs)) (hempty : rhs ≠ "")
    (hstar : rhs ≠ "*") (hunknown : Verb.parse rhs = none) : Grant.parse token = none := by
  have hwildcard := ne_wildcard_of_parts h (.inr hstar)
  rw [← trimmedParts_trim_eq, trimmedParts, Option.map_eq_some_iff] at h
  obtain ⟨⟨left, right⟩, hsplit, hparts⟩ := h
  cases hparts
  have hrhs : ¬ (trim right = "*" ∨ trim right = "") := not_or.mpr ⟨hstar, hempty⟩
  simp only [Grant.parse, if_neg hwildcard, hsplit, if_neg hrhs, hunknown,
    Option.map_none, ite_self]

/-- A token without a colon is kept as it is written. -/
theorem parse_of_bare (hcolon : ':' ∉ token.toList) (hstar : trim token ≠ "*")
    (hall : toAsciiLowercase (trim token) ≠ "all") :
    Grant.parse token = some (.anyVerb (trim token)) := by
  have htrim : ':' ∉ (trim token).toList :=
    fun hmem => hcolon (Text.mem_of_mem_trimMatches hmem)
  have hboth : trim token ≠ "*:*" := by
    intro h
    rw [h] at htrim
    exact htrim (by decide)
  have hwildcard : ¬ (trim token = "*" ∨ trim token = "*:*" ∨
      toAsciiLowercase (trim token) = "all") := not_or.mpr ⟨hstar, not_or.mpr ⟨hboth, hall⟩⟩
  simp only [Grant.parse, if_neg hwildcard, Text.splitOnce_of_not_mem htrim]

/-! ## Spellings -/

theorem trimmedParts_name_word (hcolon : ':' ∉ name.toList) (word : String) :
    trimmedParts ':' (name ++ ":" ++ word) = some (trim name, trim word) := by
  have htext : name ++ ":" ++ word = String.ofList (name.toList ++ ':' :: word.toList) :=
    String.toList_inj.mp (by simp)
  rw [htext, Text.trimmedParts_append hcolon, String.ofList_toList, String.ofList_toList]

/-- Spellings have the same parts, up to case. -/
theorem parts_of_spells {text : String} (h : Spells token text) :
    (trimmedParts ':' token).map (Prod.map toAsciiLowercase toAsciiLowercase) =
      (trimmedParts ':' text).map (Prod.map toAsciiLowercase toAsciiLowercase) := by
  rw [← trimmedParts_trim_eq token, ← trimmedParts_trim_eq text, ← trimmedParts_toLower,
    ← trimmedParts_toLower, h]

/-- The parts of a spelling of a name, a colon and a word. -/
theorem exists_parts_of_spells (hname : ResourceName name)
    (h : Spells token (name ++ ":" ++ word)) :
    ∃ lhs rhs, trimmedParts ':' token = some (lhs, rhs) ∧ toAsciiLowercase lhs = resourceOf name ∧
      lhs ≠ "*" ∧ toAsciiLowercase rhs = toAsciiLowercase (trim word) ∧ trim rhs = rhs := by
  have hparts := parts_of_spells h
  rw [trimmedParts_name_word hname.colon, Option.map_some, Option.map_eq_some_iff] at hparts
  obtain ⟨⟨lhs, rhs⟩, htoken, hlower⟩ := hparts
  obtain ⟨hlhs, hrhs⟩ := Prod.mk.inj hlower
  refine ⟨lhs, rhs, htoken, hlhs, fun hstar => hname.star ?_, hrhs, ?_⟩
  · rw [resourceOf, ← hlhs, hstar]
    decide
  · obtain ⟨⟨left, right⟩, -, heq⟩ := Option.map_eq_some_iff.mp htoken
    cases heq
    exact Text.trim_trim right

/-- A spelling of a bare name has no colon, and is no wildcard. -/
theorem bare_of_spells (hname : ResourceName name) (h : Spells token name) :
    ':' ∉ token.toList ∧ trim token ≠ "*" ∧ toAsciiLowercase (trim token) ≠ "all" := by
  refine ⟨fun hcolon => ?_, fun hstar => hname.star ?_, fun hall => hname.all ?_⟩
  · obtain ⟨before, after, rfl, hbefore⟩ := Text.exists_of_mem hcolon
    have hparts := parts_of_spells h
    rw [Text.trimmedParts_append hbefore, Text.trimmedParts_of_not_mem hname.colon] at hparts
    cases hparts
  · rw [resourceOf, ← h, hstar]
    decide
  · rw [resourceOf, ← h, hall]

/-! ## What a token grants -/

/-- A permission of a token is one of the grant it parses to. -/
theorem mem_granted {order : BuildOrder} {target : RouteTarget} : target ∈ granted order token ↔
    toAsciiLowercase target.resource = target.resource ∧
      ∃ grant, Grant.parse token = some grant ∧
        grant.matches target.resource target.verb = true := by
  have hentries : (oneToken token).entries = [⟨"role", ⟨[token], []⟩⟩] := rfl
  have hrole : toAsciiLowercase "role" = "role" := by decide
  have hgrants (name : String) (grant : Grant) :
      Grants (oneToken token) name grant ↔ "role" = name ∧ Grant.parse token = some grant := by
    simp [Grants, hentries, hrole]
  have hsize : (roleNames (oneToken token)).card < 10000 := by
    refine Nat.lt_of_le_of_lt (List.toFinset_card_le _) ?_
    simp [AList.keys, hentries]
  rw [granted, Set.mem_ofPred_eq, allows_build_iff order _ _ hsize]
  refine and_congr_right (fun hlower => ?_)
  rw [Permits, hlower]
  constructor
  · rintro (hpublic | ⟨caller, -, name, grant, -, hgrant, hmatches⟩)
    · cases hpublic
    · exact ⟨grant, ((hgrants name grant).mp hgrant).2, hmatches⟩
  · intro h
    obtain ⟨grant, hparse, hmatches⟩ := h
    refine .inr ⟨"role", List.mem_singleton_self _, "role", grant, ?_,
      (hgrants "role" grant).mpr ⟨rfl, hparse⟩, hmatches⟩
    rw [hrole]

theorem granted_of_none {order : BuildOrder} (h : Grant.parse token = none) :
    granted order token = ∅ := by
  refine Set.eq_empty_of_forall_notMem (fun target htarget => ?_)
  obtain ⟨-, grant, hparse, -⟩ := mem_granted.mp htarget
  rw [h] at hparse
  cases hparse

/-- A grant for all verbs gives them on a lower-case resource. -/
theorem granted_of_anyVerb {order : BuildOrder} {resource : String}
    (h : Grant.parse token = some (.anyVerb resource))
    (hlower : toAsciiLowercase resource = resource) :
    granted order token = { target | target.resource = resource } := by
  ext target
  rw [mem_granted, h, Set.mem_ofPred_eq]
  constructor
  · intro h
    obtain ⟨-, grant, hgrant, hmatches⟩ := h
    cases hgrant
    exact (beq_iff_eq.mp hmatches).symm
  · intro heq
    obtain rfl := heq
    exact ⟨hlower, _, rfl, beq_self_eq_true _⟩

theorem granted_of_exact {order : BuildOrder} {resource : String}
    (h : Grant.parse token = some (.exact resource verb))
    (hlower : toAsciiLowercase resource = resource) : granted order token = {⟨resource, verb⟩} := by
  ext target
  obtain ⟨requested, requestedVerb⟩ := target
  rw [mem_granted, h, Set.mem_singleton_iff, RouteTarget.mk.injEq]
  constructor
  · intro h
    obtain ⟨-, grant, hgrant, hmatches⟩ := h
    cases hgrant
    rw [Grant.matches, Bool.and_eq_true, beq_iff_eq, beq_iff_eq] at hmatches
    exact ⟨hmatches.1.symm, hmatches.2.symm⟩
  · intro h
    obtain ⟨rfl, rfl⟩ := h
    exact ⟨hlower, _, rfl, by simp [Grant.matches]⟩

theorem toAsciiLowercase_resourceOf (name : String) :
    toAsciiLowercase (resourceOf name) = resourceOf name :=
  Text.toAsciiLowercase_toAsciiLowercase _

/-- With a colon and no verb, or with the wildcard, a token grants all verbs on the resource. -/
theorem granted_of_wildcard {order : BuildOrder} (hname : ResourceName name)
    (hword : trim word = "" ∨ trim word = "*") (h : Spells token (name ++ ":" ++ word)) :
    granted order token = { target | target.resource = resourceOf name } := by
  obtain ⟨lhs, rhs, hparts, hlhs, hstar, hrhs, -⟩ := exists_parts_of_spells hname h
  have hwildcard : rhs = "*" ∨ rhs = "" := by
    rcases hword with hempty | hstarword
    · rw [hempty] at hrhs
      exact .inr (eq_empty_of_toAsciiLowercase hrhs)
    · rw [hstarword] at hrhs
      exact .inl (eq_star_of_toAsciiLowercase hrhs)
  refine granted_of_anyVerb ?_ (toAsciiLowercase_resourceOf name)
  rw [parse_of_parts hparts hstar, if_pos hwildcard, hlhs]

/-- With a word for a verb a token grants it on the resource. -/
theorem granted_of_word {order : BuildOrder} (hname : ResourceName name) (hword : verb.Word word)
    (h : Spells token (name ++ ":" ++ word)) :
    granted order token = {⟨resourceOf name, verb⟩} := by
  obtain ⟨lhs, rhs, hparts, hlhs, hstar, hrhs, htrim⟩ := exists_parts_of_spells hname h
  have hparse : verb.Word rhs := by
    rw [Verb.Word, htrim, hrhs]
    exact hword
  have hwildcard : ¬ (rhs = "*" ∨ rhs = "") := by
    rintro (rfl | rfl)
    · cases verb <;> exact absurd hparse (by unfold Verb.Word; decide +kernel)
    · cases verb <;> exact absurd hparse (by unfold Verb.Word; decide +kernel)
  refine granted_of_exact ?_ (toAsciiLowercase_resourceOf name)
  rw [parse_of_parts hparts hstar, if_neg hwildcard, Verb.parse_iff.mpr hparse, Option.map_some,
    hlhs]

/-- A bare resource grants all verbs on it when it is written in lower case, and nothing else. -/
theorem granted_of_bare {order : BuildOrder} (hcolon : ':' ∉ token.toList)
    (hstar : trim token ≠ "*")
    (hall : toAsciiLowercase (trim token) ≠ "all") (target : RouteTarget) :
    target ∈ granted order token ↔
      target.resource = trim token ∧ toAsciiLowercase (trim token) = trim token := by
  rw [mem_granted, parse_of_bare hcolon hstar hall]
  constructor
  · intro h
    obtain ⟨hlower, grant, hgrant, hmatches⟩ := h
    cases hgrant
    have hresource : trim token = target.resource := beq_iff_eq.mp hmatches
    rw [hresource]
    exact ⟨rfl, hlower⟩
  · intro h
    obtain ⟨hresource, hlower⟩ := h
    rw [hresource]
    exact ⟨hlower, _, rfl, beq_self_eq_true _⟩

/-- **Which tokens grant what their text says in every spelling**: all but a bare resource that is
not written in lower case. -/
theorem consistent_iff (order : BuildOrder) (token : String) :
    Consistent order token ↔ ':' ∈ token.toList ∨ toAsciiLowercase (trim token) = "all" ∨
      toAsciiLowercase (trim token) = trim token := by
  constructor
  · intro h
    by_contra hbare
    push Not at hbare
    obtain ⟨hcolon, hall, hcase⟩ := hbare
    have hstar : toAsciiLowercase (trim token) ≠ "*" := by
      intro heq
      refine hcase ?_
      rw [heq]
      exact (eq_star_of_toAsciiLowercase heq).symm
    have hgranted := h.resource token ⟨hcolon, hstar, hall⟩ (.inl rfl)
    have hread : (⟨resourceOf token, .read⟩ : RouteTarget) ∈ granted order token := by
      rw [hgranted]
      rfl
    have hstar' : trim token ≠ "*" := fun heq => hstar (by rw [heq]; decide)
    exact hcase ((granted_of_bare hcolon hstar' hall _).mp hread).2
  · intro h
    refine ⟨fun name hname hspells => ?_, fun name word verb hname hword hspells =>
      granted_of_word hname hword hspells, fun left right hsplit hempty hstar hunknown => ?_⟩
    · rcases hspells with hbare | hcolon | hstar
      · obtain ⟨hcolon, hstar, hall⟩ := bare_of_spells hname hbare
        have hcase := (h.resolve_left hcolon).resolve_left hall
        ext target
        rw [granted_of_bare hcolon hstar hall, Set.mem_ofPred_eq, resourceOf, ← hbare, hcase]
        exact and_iff_left rfl
      · have hspells : Spells token (name ++ ":" ++ "") := by rwa [String.append_empty]
        exact granted_of_wildcard hname (.inl (by decide +kernel)) hspells
      · have hspells : Spells token (name ++ ":" ++ "*") := by rwa [String.append_assoc]
        exact granted_of_wildcard hname (.inr (by decide +kernel)) hspells
    · have hparts : trimmedParts ':' token = some (trim left, trim right) := by
        rw [trimmedParts, hsplit]
        rfl
      refine granted_of_none (parse_of_unknown hparts hempty hstar ?_)
      refine Verb.parse_eq_none_iff.mpr (fun verb hword => hunknown verb ?_)
      rwa [Verb.Word, Text.trim_trim] at hword

/-- A bare resource with a capital letter locks its role out. -/
theorem not_consistent_capital : ¬ ∀ (order : BuildOrder) (token : String),
    Consistent order token := by
  intro h
  have hname : ResourceName "Domains" := ⟨by decide, by decide +kernel, by decide +kernel⟩
  have hresource : resourceOf "Domains" = "domains" := by decide +kernel
  have hgranted := (h ⟨.listed _, .listed _⟩ "Domains").resource "Domains" hname (.inl rfl)
  rw [hresource] at hgranted
  have hread : (⟨"domains", .read⟩ : RouteTarget) ∈ granted ⟨.listed _, .listed _⟩ "Domains" :=
    hgranted.symm.subset rfl
  have hparse : Grant.parse "Domains" = some (.anyVerb "Domains") := by decide +kernel
  obtain ⟨-, grant, hgrant, hmatches⟩ := mem_granted.mp hread
  rw [hparse] at hgrant
  cases hgrant
  exact absurd hmatches (by decide)

end Zonemail.Auth
