import Zonemail.Inbound.Handler

/-!
# The two views of an address header

`address_to_string` reads one address out of a header value and `address_list_to_strings` all of
them; `send.rs` has both functions a second time. The single one becomes the stored `mail_from`. It
looks only at the entry that a list or a group begins with, and skips a group that begins with an
entry without an address. `FirstLeads` is when it is the first address all the same.
-/

namespace Zonemail

/-! ## Both shapes as groups -/

/-- The entries of a header value, a list as one group. -/
def Address.groups : Address → List (List (Option String))
  | .list addresses => [addresses]
  | .group groups => groups

/-- The address a group begins with, of the first group that begins with one. -/
theorem addressToString_eq (addr : Address) :
    addressToString addr = (addr.groups.findSome? (fun entries => entries.head?.join)).getD "" := by
  cases addr with
  | group groups => rfl
  | list addresses =>
      rw [Address.groups, List.findSome?_cons, List.findSome?_nil, addressToString]
      cases addresses.head?.join <;> rfl

/-- The first of all addresses. -/
theorem head?_addressListToStrings (addr : Address) :
    (addressListToStrings addr).head? = addr.groups.flatten.findSome? id := by
  cases addr with
  | group groups => rw [addressListToStrings, List.head?_filterMap, Address.groups]
  | list addresses =>
      rw [addressListToStrings, List.head?_filterMap, Address.groups, List.flatten_singleton]

/-- `send.rs` reads the same address. -/
theorem firstAddress_eq (addr : Address) : firstAddress addr = addressToString addr := by
  cases addr <;> rfl

/-- And the same list. -/
theorem addrsToStrings_eq (addr : Address) : addrsToStrings addr = addressListToStrings addr := by
  cases addr <;> rfl

/-! ## When the views agree -/

/-- The single view is the first of the list, or the empty text of an empty list, and `send.rs` has
the same views. -/
structure ViewsAgree (addr : Address) : Prop where
  single : addressToString addr = (addressListToStrings addr).head?.getD ""
  first : firstAddress addr = addressToString addr
  all : addrsToStrings addr = addressListToStrings addr

/-- The first of these groups that begins with an address begins with this one; the empty text
stands for none. -/
def FallsOnto (address : String) : List (List (Option String)) → Prop
  | [] => address = ""
  | (some leading :: _) :: _ => leading = address
  | _ :: groups => FallsOnto address groups

/-- The first group that has an address begins with one. Where it does not, the address that is read
from a later group in its place happens to be the same. -/
def FirstLeads : List (List (Option String)) → Prop
  | [] => True
  | [] :: groups => FirstLeads groups
  | (some _ :: _) :: _ => True
  | (none :: entries) :: groups =>
      match entries.findSome? id with
      | none => FirstLeads groups
      | some address => FallsOnto address groups

theorem fallsOnto_iff {address : String} {groups : List (List (Option String))} :
    (groups.findSome? (fun entries => entries.head?.join)).getD "" = address ↔
      FallsOnto address groups := by
  fun_induction FallsOnto address groups with
  | case1 => exact eq_comm
  | case2 leading entries groups => rfl
  | case3 entries groups hskipped ih =>
      have hnone : entries.head?.join = none := by
        cases entries with
        | nil => rfl
        | cons entry entries =>
            cases entry with
            | none => rfl
            | some leading => exact absurd rfl (hskipped leading entries)
      rw [List.findSome?_cons, hnone]
      exact ih

/-- The search through all entries passes over one without an address. -/
theorem findSome?_flatten_of_none (entries : List (Option String))
    (groups : List (List (Option String))) :
    ((none :: entries) :: groups).flatten.findSome? id =
      (entries.findSome? id).or (groups.flatten.findSome? id) := by
  rw [List.flatten_cons, List.cons_append, List.findSome?_cons_of_isNone rfl, List.findSome?_append]

/-- The two searches find the same text exactly then. -/
theorem firstLeads_iff {groups : List (List (Option String))} :
    (groups.findSome? (fun entries => entries.head?.join)).getD "" =
        (groups.flatten.findSome? id).getD "" ↔ FirstLeads groups := by
  fun_induction FirstLeads groups with
  | case1 => exact iff_of_true rfl trivial
  | case2 groups ih => exact ih
  | case3 address entries groups => exact iff_of_true rfl trivial
  | case4 entries groups hentries ih =>
      rw [findSome?_flatten_of_none, hentries, Option.none_or]
      exact ih
  | case5 entries groups address hentries =>
      rw [findSome?_flatten_of_none, hentries, Option.some_or]
      exact fallsOnto_iff

/-- The single view is the first of the list exactly then. -/
theorem addressToString_eq_iff (addr : Address) :
    addressToString addr = (addressListToStrings addr).head?.getD "" ↔ FirstLeads addr.groups := by
  rw [addressToString_eq, head?_addressListToStrings]
  exact firstLeads_iff

/-- The views of a header value agree exactly when its first address leads. -/
theorem viewsAgree_iff_firstLeads (addr : Address) : ViewsAgree addr ↔ FirstLeads addr.groups := by
  rw [← addressToString_eq_iff]
  constructor
  · exact fun h => h.single
  · exact fun h => ⟨h, firstAddress_eq addr, addrsToStrings_eq addr⟩

/-- A name without an address and then an address: the single view is empty. -/
theorem not_viewsAgree_leadingName : ¬ ∀ addr, ViewsAgree addr := by
  intro h
  have hsingle := (h (.list [none, some "a@x.io"])).single
  exact absurd hsingle (by decide)

/-! ## What is stored -/

/-- The stored `mail_from` of a payload with a `From` header is the first of its addresses exactly
when that one leads. -/
theorem mailFrom_eq_iff {parsed : ParsedMessage} {addr : Address} (data : Bytes)
    (hfrom : parsed.fromAddress = some addr) :
    (messageContent (some parsed) data).mailFrom = (addressListToStrings addr).head?.getD "" ↔
      FirstLeads addr.groups := by
  rw [← addressToString_eq_iff, messageContent, Option.bind_some, hfrom]
  rfl

end Zonemail
