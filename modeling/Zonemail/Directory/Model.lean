import Mathlib.Data.Set.Insert
import Mathlib.Logic.Function.Basic
import Mathlib.Logic.Relation
import Zonemail.Db.Schema

/-!
# The directory

What the daemon is asked to keep is a directory: the domains it serves, the mailboxes in them and
the DNS records under them. This is the abstract model, without tables, statements or rows that are
searched. A directory carries its own rules: a mailbox stands under its address, and no two numbers
hold the same record. It changes by directives, of which `Change` says what each does.
`holds_of_path` is the general fact about any sequence of changes: what a directory holds in the end
is what some directive put there.
-/

namespace Zonemail

/-- The domains, the mailboxes by their addresses and the records by their numbers. -/
@[ext] structure Directory where
  domains : Set String
  mailboxes : String → Option Mailbox
  records : Nat → Option RecordDTO
  named : ∀ address mailbox, mailboxes address = some mailbox → mailbox.id = address
  distinct : ∀ first second record other, records first = some record →
    records second = some other → record.triple = other.triple → first = second

/-- What a directory may be told. -/
inductive Directive where
  | provision (domain : String)
  | retire (domain : String)
  | openMailbox (mailbox : Mailbox)
  | configure (mailbox : Mailbox)
  | close (address : String)
  | publish (record : RecordDTO)
  | revise (number : Nat) (record : RecordDTO)
  | withdraw (number : Nat)

namespace Directory

/-- A directory with nothing in it. -/
def empty : Directory where
  domains := ∅
  mailboxes := fun _ => none
  records := fun _ => none
  named := fun _ _ h => by cases h
  distinct := fun _ _ _ _ h => by cases h

/-- What a directive does to a directory. -/
inductive Change (before : Directory) : Directive → Directory → Prop where
  | provision {domain : String} {after : Directory} (hnew : domain ∉ before.domains)
      (hdomains : after.domains = insert domain before.domains)
      (hmailboxes : after.mailboxes = before.mailboxes)
      (hrecords : after.records = before.records) :
      Change before (.provision domain) after
  /-- The mailboxes and the records of a domain go with it. -/
  | retire {domain : String} {after : Directory} (hknown : domain ∈ before.domains)
      (hdomains : after.domains = before.domains \ {domain})
      (hmailboxes : after.mailboxes = fun address =>
        (before.mailboxes address).filter (fun mailbox => mailbox.domainId ≠ domain))
      (hrecords : after.records = fun number =>
        (before.records number).filter (fun record => record.domainId ≠ domain)) :
      Change before (.retire domain) after
  | openMailbox {mailbox : Mailbox} {after : Directory}
      (hnew : before.mailboxes mailbox.id = none) (hdomains : after.domains = before.domains)
      (hmailboxes : after.mailboxes =
        Function.update before.mailboxes mailbox.id (some mailbox))
      (hrecords : after.records = before.records) : Change before (.openMailbox mailbox) after
  | configure {mailbox : Mailbox} {after : Directory}
      (hknown : (before.mailboxes mailbox.id).isSome) (hdomains : after.domains = before.domains)
      (hmailboxes : after.mailboxes =
        Function.update before.mailboxes mailbox.id (some mailbox))
      (hrecords : after.records = before.records) : Change before (.configure mailbox) after
  | close {address : String} {after : Directory} (hknown : (before.mailboxes address).isSome)
      (hdomains : after.domains = before.domains)
      (hmailboxes : after.mailboxes = Function.update before.mailboxes address none)
      (hrecords : after.records = before.records) : Change before (.close address) after
  | publish {number : Nat} {record : RecordDTO} {after : Directory}
      (hnew : before.records number = none) (hdomains : after.domains = before.domains)
      (hmailboxes : after.mailboxes = before.mailboxes)
      (hrecords : after.records = Function.update before.records number (some record)) :
      Change before (.publish record) after
  | revise {number : Nat} {record : RecordDTO} {after : Directory}
      (hknown : (before.records number).isSome) (hdomains : after.domains = before.domains)
      (hmailboxes : after.mailboxes = before.mailboxes)
      (hrecords : after.records = Function.update before.records number (some record)) :
      Change before (.revise number record) after
  | withdraw {number : Nat} {after : Directory} (hknown : (before.records number).isSome)
      (hdomains : after.domains = before.domains)
      (hmailboxes : after.mailboxes = before.mailboxes)
      (hrecords : after.records = Function.update before.records number none) :
      Change before (.withdraw number) after

/-- Everything in the directory was put there by one of these directives. -/
structure Holds (asked : Directive → Prop) (directory : Directory) : Prop where
  domains : ∀ domain ∈ directory.domains, asked (.provision domain)
  mailboxes : ∀ address mailbox, directory.mailboxes address = some mailbox →
    asked (.openMailbox mailbox) ∨ asked (.configure mailbox)
  records : ∀ number record, directory.records number = some record →
    asked (.publish record) ∨ asked (.revise number record)

/-- One change by a directive that was asked for. -/
def Moves (asked : Directive → Prop) (before after : Directory) : Prop :=
  ∃ directive, asked directive ∧ Change before directive after

variable {asked weaker : Directive → Prop} {before after : Directory}

theorem holds_empty : Holds asked empty where
  domains := fun domain h => absurd h (Set.notMem_empty domain)
  mailboxes := fun _ _ h => by cases h
  records := fun _ _ h => by cases h

/-- What holds of the entries of a map and of a new one holds after an update. -/
theorem forall_update {κ ν : Type} [DecidableEq κ] {map : κ → Option ν} {key : κ}
    {entry : Option ν} {property : κ → ν → Prop}
    (h : ∀ other value, map other = some value → property other value)
    (hentry : ∀ value, entry = some value → property key value) :
    ∀ other value, Function.update map key entry other = some value → property other value := by
  intro other value hvalue
  by_cases hkey : other = key
  · subst other
    rw [Function.update_self] at hvalue
    exact hentry value hvalue
  · rw [Function.update_of_ne hkey] at hvalue
    exact h other value hvalue

/-- What holds of the entries of a map holds of those that are left after a selection. -/
theorem forall_filter {κ ν : Type} {map : κ → Option ν} {keep : ν → Bool} {property : κ → ν → Prop}
    (h : ∀ other value, map other = some value → property other value) :
    ∀ other value, (map other).filter keep = some value → property other value :=
  fun other value hvalue => h other value (Option.filter_eq_some_iff.mp hvalue).1

/-- A change puts nothing into the directory but what its directive says. -/
theorem Holds.change {directive : Directive} (h : Holds asked before)
    (hchange : Change before directive after) (hasked : asked directive) : Holds asked after := by
  cases hchange with
  | provision hnew hdomains hmailboxes hrecords =>
      refine ⟨fun domain hdomain => ?_, hmailboxes ▸ h.mailboxes, hrecords ▸ h.records⟩
      rw [hdomains] at hdomain
      rcases Set.mem_insert_iff.mp hdomain with rfl | hold
      · exact hasked
      · exact h.domains domain hold
  | retire hknown hdomains hmailboxes hrecords =>
      refine ⟨fun domain hdomain => ?_, hmailboxes ▸ forall_filter h.mailboxes,
        hrecords ▸ forall_filter h.records⟩
      rw [hdomains] at hdomain
      exact h.domains domain hdomain.1
  | openMailbox hnew hdomains hmailboxes hrecords =>
      refine ⟨hdomains ▸ h.domains,
        hmailboxes ▸ forall_update h.mailboxes (fun mailbox hentry => ?_),
        hrecords ▸ h.records⟩
      cases hentry
      exact .inl hasked
  | configure hknown hdomains hmailboxes hrecords =>
      refine ⟨hdomains ▸ h.domains,
        hmailboxes ▸ forall_update h.mailboxes (fun mailbox hentry => ?_),
        hrecords ▸ h.records⟩
      cases hentry
      exact .inr hasked
  | close hknown hdomains hmailboxes hrecords =>
      exact ⟨hdomains ▸ h.domains,
        hmailboxes ▸ forall_update h.mailboxes (fun mailbox hentry => by cases hentry),
        hrecords ▸ h.records⟩
  | publish hnew hdomains hmailboxes hrecords =>
      refine ⟨hdomains ▸ h.domains, hmailboxes ▸ h.mailboxes,
        hrecords ▸ forall_update h.records (fun record hentry => ?_)⟩
      cases hentry
      exact .inl hasked
  | revise hknown hdomains hmailboxes hrecords =>
      refine ⟨hdomains ▸ h.domains, hmailboxes ▸ h.mailboxes,
        hrecords ▸ forall_update h.records (fun record hentry => ?_)⟩
      cases hentry
      exact .inr hasked
  | withdraw hknown hdomains hmailboxes hrecords =>
      exact ⟨hdomains ▸ h.domains, hmailboxes ▸ h.mailboxes,
        hrecords ▸ forall_update h.records (fun record hentry => by cases hentry)⟩

/-- What a directory holds after changes from the empty one is what some directive put there. -/
theorem holds_of_path (h : Relation.ReflTransGen (Moves asked) empty after) :
    Holds asked after := by
  induction h with
  | refl => exact holds_empty
  | tail _ hmoves ih =>
      obtain ⟨directive, hasked, hchange⟩ := hmoves
      exact ih.change hchange hasked

/-- More directives allow the same changes. -/
theorem path_mono (hweaker : ∀ directive, asked directive → weaker directive)
    (h : Relation.ReflTransGen (Moves asked) before after) :
    Relation.ReflTransGen (Moves weaker) before after := by
  refine Relation.ReflTransGen.mono (fun first second hmoves => ?_) _ _ h
  obtain ⟨directive, hasked, hchange⟩ := hmoves
  exact ⟨directive, hweaker directive hasked, hchange⟩

end Directory

end Zonemail
