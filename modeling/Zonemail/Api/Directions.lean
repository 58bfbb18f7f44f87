import Zonemail.Api.Listing
import Zonemail.Api.Spelling

/-!
# The direction filter and the endpoints of one direction

A client may ask for the messages of one direction with a query parameter, or at an endpoint of its
own. The parameter is documented as `inbound` or `outbound`, and the variants it is parsed into are
called `Inbound` and `Outbound`. So the documented values fail to parse, the query is dropped as a
whole, and both directions are listed. `fromAll_filter_iff` says when a page of a list is also the
page of a filtered list, and `filter_eq_dedicated_iff` when this cannot be told from the filter.
-/

namespace Zonemail.Api

open Library

/-! ## A page of a filtered list -/

section Pages

variable {α κ : Type} {rows : List α} {key : α → κ} {keep : α → Bool} {relabel : α → α}
  {limit offset : Nat}

/-- Below the largest `usize` the next offset tells where the list ends. -/
theorem nextOffset_eq_iff {first second : List α} (h : offset + limit ≤ usizeMax) :
    (Page.fromAll first limit offset).nextOffset = (Page.fromAll second limit offset).nextOffset ↔
      (offset + limit < first.length ↔ offset + limit < second.length) := by
  simp only [Page.fromAll, Nat.min_eq_left h]
  by_cases hfirst : offset + limit < first.length
  · by_cases hsecond : offset + limit < second.length
    · simp [hfirst, hsecond]
    · simp [hfirst, hsecond]
  · by_cases hsecond : offset + limit < second.length
    · simp [hfirst, hsecond]
    · simp [hfirst, hsecond]

theorem fromAll_eq_iff {first second : List α} (h : offset + limit ≤ usizeMax) :
    Page.fromAll first limit offset = Page.fromAll second limit offset ↔
      (first.drop offset).take limit = (second.drop offset).take limit ∧
        (offset + limit < first.length ↔ offset + limit < second.length) := by
  rw [← nextOffset_eq_iff h]
  simp [Page.fromAll]

/-- When the row at an offset is also at this offset of the filtered list, nothing before it was
dropped. -/
theorem filter_take_of_getElem? (hnodup : rows.Nodup) {row : α} (hrow : rows[offset]? = some row)
    (hfiltered : (rows.filter keep)[offset]? = some row) :
    (rows.take offset).filter keep = rows.take offset := by
  obtain ⟨hlt, hget⟩ := List.getElem?_eq_some_iff.mp hrow
  have hkeep : keep row = true := (List.mem_filter.mp (List.mem_of_getElem? hfiltered)).2
  have hsplit : rows.filter keep = (rows.take offset).filter keep ++
      row :: (rows.drop (offset + 1)).filter keep := by
    conv_lhs => rw [← List.take_append_drop offset rows, List.drop_eq_getElem_cons hlt, hget]
    rw [List.filter_append, List.filter_cons_of_pos hkeep]
  -- The row stands behind the rows before it that were kept, and nowhere else.
  have hindex : ((rows.take offset).filter keep).length = offset := by
    have hat : (rows.filter keep)[((rows.take offset).filter keep).length]? = some row := by
      rw [hsplit, List.getElem?_append_right (Nat.le_refl _), Nat.sub_self, List.getElem?_cons_zero]
    obtain ⟨hinside, -⟩ := List.getElem?_eq_some_iff.mp hat
    exact (List.getElem?_inj hinside (hnodup.filter _)).mp (hat.trans hfiltered.symm)
  refine List.filter_sublist.eq_of_length ?_
  rw [hindex, List.length_take, Nat.min_eq_left (Nat.le_of_lt hlt)]

/-- The part of a filtered list behind rows that were all kept. -/
theorem drop_filter (h : (rows.take offset).filter keep = rows.take offset)
    (hle : offset ≤ rows.length) :
    (rows.filter keep).drop offset = (rows.drop offset).filter keep := by
  conv_lhs => rw [← List.take_append_drop offset rows, List.filter_append, h]
  exact List.drop_left' (by rw [List.length_take, Nat.min_eq_left hle])

/-- What a page tells when it is also the page of the filtered list. -/
theorem of_fromAll_eq (hnodup : (rows.map key).Nodup) (hkey : ∀ row, key (relabel row) = key row)
    (hlimit : 0 < limit) (hsmall : offset + limit ≤ usizeMax) (hlt : offset < rows.length)
    (hpage : Page.fromAll rows limit offset =
      Page.fromAll ((rows.filter keep).map relabel) limit offset) :
    (∀ row ∈ rows.take offset, keep row = true) ∧
      (∀ row ∈ (rows.drop offset).take limit, keep row = true ∧ relabel row = row) ∧
      (offset + limit < rows.length → ∃ row ∈ rows.drop (offset + limit), keep row = true) := by
  obtain ⟨hitems, hmore⟩ := (fromAll_eq_iff hsmall).mp hpage
  have hsame : ∀ row ∈ rows, ∀ kept ∈ rows.filter keep, relabel kept = row → kept = row := by
    intro row hrow kept hkept heq
    refine List.inj_on_of_nodup_map hnodup (List.mem_filter.mp hkept).1 hrow ?_
    rw [← heq, hkey]
  have hfirst : (rows.filter keep)[offset]? = some rows[offset] := by
    have hhead := congrArg (fun items => items[0]?) hitems
    simp only [List.getElem?_take_of_lt hlimit, List.getElem?_drop, Nat.add_zero,
      List.getElem?_map, List.getElem?_eq_getElem hlt] at hhead
    obtain ⟨kept, hkept, heq⟩ := Option.map_eq_some_iff.mp hhead.symm
    rw [hkept, hsame _ (List.getElem_mem hlt) kept (List.mem_of_getElem? hkept) heq]
  have hbefore : (rows.take offset).filter keep = rows.take offset :=
    filter_take_of_getElem? (List.Nodup.of_map key hnodup) (List.getElem?_eq_getElem hlt) hfirst
  rw [← List.map_drop, drop_filter hbefore (Nat.le_of_lt hlt)] at hitems
  refine ⟨List.filter_eq_self.mp hbefore, fun row hrow => ?_, fun hrest => ?_⟩
  · have hmem : row ∈ rows := List.mem_of_mem_drop (List.mem_of_mem_take hrow)
    rw [hitems] at hrow
    obtain ⟨kept, hkept, heq⟩ := List.mem_map.mp (List.mem_of_mem_take hrow)
    obtain ⟨hdrop, hkeep⟩ := List.mem_filter.mp hkept
    obtain rfl := hsame row hmem kept
      (List.mem_filter.mpr ⟨List.mem_of_mem_drop hdrop, hkeep⟩) heq
    exact ⟨hkeep, heq⟩
  · by_contra hnone
    have hempty : (rows.drop (offset + limit)).filter keep = [] :=
      List.filter_eq_nil_iff.mpr (fun row hrow hkeep => hnone ⟨row, hrow, hkeep⟩)
    have hlength : (rows.filter keep).length ≤ offset + limit := by
      conv_lhs => rw [← List.take_append_drop (offset + limit) rows, List.filter_append, hempty,
        List.append_nil]
      exact Nat.le_trans (List.length_filter_le _ _) (List.length_take_le _ _)
    have hlater := hmore.mp hrest
    rw [List.length_map] at hlater
    omega

/-- A page all of whose rows are kept as they are, behind rows that are all kept. -/
theorem fromAll_eq_of (hsmall : offset + limit ≤ usizeMax)
    (hbefore : ∀ row ∈ rows.take offset, keep row = true)
    (hhere : ∀ row ∈ (rows.drop offset).take limit, keep row = true ∧ relabel row = row)
    (hafter : offset + limit < rows.length → ∃ row ∈ rows.drop (offset + limit), keep row = true)
    (hlt : offset < rows.length) :
    Page.fromAll rows limit offset =
      Page.fromAll ((rows.filter keep).map relabel) limit offset := by
  have hkept : (rows.take offset).filter keep = rows.take offset :=
    List.filter_eq_self.mpr hbefore
  have hrest : (rows.filter keep).drop offset =
      (rows.drop offset).take limit ++ (rows.drop (offset + limit)).filter keep := by
    rw [drop_filter hkept (Nat.le_of_lt hlt)]
    conv_lhs => rw [← List.take_append_drop limit (rows.drop offset), List.filter_append,
      List.filter_eq_self.mpr (fun row hrow => (hhere row hrow).1), List.drop_drop]
  have hlength : (rows.filter keep).length = offset + min limit (rows.length - offset) +
      ((rows.drop (offset + limit)).filter keep).length := by
    have hdropped := congrArg List.length hrest
    have hle : offset ≤ (rows.filter keep).length := by
      have htake := (List.take_sublist offset rows).filter keep
      rw [hkept] at htake
      have := htake.length_le
      rwa [List.length_take, Nat.min_eq_left (Nat.le_of_lt hlt)] at this
    rw [List.length_drop, List.length_append, List.length_take, List.length_drop] at hdropped
    omega
  have hshown : ((rows.drop offset).take limit).map relabel = (rows.drop offset).take limit :=
    (List.map_congr_left (fun row hrow => (hhere row hrow).2)).trans (List.map_id' _)
  refine (fromAll_eq_iff hsmall).mpr ⟨?_, ?_⟩
  · rw [← List.map_drop, hrest, List.map_append, hshown]
    by_cases hfull : offset + limit ≤ rows.length
    · rw [List.take_left' (by rw [List.length_take, List.length_drop]; omega)]
    · have hend : rows.drop (offset + limit) = [] := List.drop_of_length_le (by omega)
      rw [hend, List.filter_nil, List.map_nil, List.append_nil, List.take_take, Nat.min_self]
  · rw [List.length_map]
    constructor
    · intro hmore
      obtain ⟨row, hrow, hkeep⟩ := hafter hmore
      have := List.length_pos_of_mem (List.mem_filter.mpr ⟨hrow, hkeep⟩)
      omega
    · exact fun hmore => Nat.lt_of_lt_of_le hmore (List.length_filter_le _ _)

/-- **When a page is also the page of the filtered list**, with the kept rows relabelled: it is past
the end, or everything before it and on it was kept, what is on it has the label already, and
something kept follows if anything does. -/
theorem fromAll_filter_iff (hnodup : (rows.map key).Nodup)
    (hkey : ∀ row, key (relabel row) = key row) (hlimit : 0 < limit)
    (hsmall : offset + limit ≤ usizeMax) :
    Page.fromAll rows limit offset =
        Page.fromAll ((rows.filter keep).map relabel) limit offset ↔
      rows.length ≤ offset ∨
        (∀ row ∈ rows.take offset, keep row = true) ∧
        (∀ row ∈ (rows.drop offset).take limit, keep row = true ∧ relabel row = row) ∧
        (offset + limit < rows.length →
          ∃ row ∈ rows.drop (offset + limit), keep row = true) := by
  constructor
  · intro hpage
    rcases Nat.lt_or_ge offset rows.length with hlt | hge
    · exact .inr (of_fromAll_eq hnodup hkey hlimit hsmall hlt hpage)
    · exact .inl hge
  · intro h
    rcases Nat.lt_or_ge offset rows.length with hlt | hge
    · obtain ⟨hbefore, hhere, hafter⟩ := h.resolve_left (Nat.not_le.mpr hlt)
      exact fromAll_eq_of hsmall hbefore hhere hafter hlt
    · have hle : ((rows.filter keep).map relabel).length ≤ offset := by
        rw [List.length_map]
        exact Nat.le_trans (List.length_filter_le _ _) hge
      refine (fromAll_eq_iff hsmall).mpr ⟨?_, by omega⟩
      rw [List.drop_of_length_le hge, List.drop_of_length_le hle]

end Pages

/-! ## The two paths of a request -/

/-- A direction that has an endpoint of its own. -/
inductive OneWay where
  | inbound
  | outbound
  deriving DecidableEq, Repr

namespace OneWay

/-- The documented value of the query parameter, which is also the label of the messages. -/
def wire : OneWay → String
  | .inbound => "inbound"
  | .outbound => "outbound"

/-- The filter that the endpoint applies. -/
def filter : OneWay → MessageDirection
  | .inbound => .inbound
  | .outbound => .outbound

/-- The endpoint of the direction. -/
def dedicated : OneWay → String → Query → Prog Response
  | .inbound => listMailboxInbox
  | .outbound => listMailboxSent

/-- The message went this way. -/
def Went (db : Db) (address : String) (id : Nat) : OneWay → Prop
  | .inbound => Received db address id
  | .outbound => Sent db address id

instance (db : Db) (address : String) (id : Nat) : (way : OneWay) →
    Decidable (Went db address id way)
  | .inbound => inferInstanceAs (Decidable (Received db address id))
  | .outbound => inferInstanceAs (Decidable (Sent db address id))

/-- The message is shown as going this way when both directions are listed. -/
def Shown (db : Db) (address : String) (id : Nat) : OneWay → Prop
  | .inbound => ¬ Sent db address id
  | .outbound => Sent db address id

end OneWay

/-- The stored messages of a mailbox that are linked in any direction, in increasing order. -/
def mailboxIds (db : Db) (address : String) : List Nat :=
  ((db.messages.rows.map Message.id).filter
    (fun id => Received db address id ∨ Sent db address id)).insertionSort (· ≤ ·)

/-- The filter does not show on this page: the page is past the messages of the mailbox; or all
messages before it went this way, all on it are shown so, and one that went this way follows if any
message does. -/
def Unaffected (db : Db) (address : String) (way : OneWay) (limit offset : Nat) : Prop :=
  (mailboxIds db address).length ≤ offset ∨
    (∀ id ∈ (mailboxIds db address).take offset, way.Went db address id) ∧
    (∀ id ∈ ((mailboxIds db address).drop offset).take limit, way.Shown db address id) ∧
    (offset + limit < (mailboxIds db address).length →
      ∃ id ∈ (mailboxIds db address).drop (offset + limit), way.Went db address id)

variable {db : Db} {address : String} {id : Nat} {way : OneWay}

/-- A list of messages is found under the lower-case address, and is cut into a page. -/
theorem eval_listMessages (db : Db) (address : String) (direction : Option MessageDirection)
    (limit offset : Nat) :
    ((listMessages address direction limit offset).eval ⟨db, []⟩).1 =
      (db.mailboxes.get? (Text.toLowercase address)).elim (mailboxNotFound address)
        (fun _ => .ok (.messages (.fromAll (listed db address direction) limit offset))) := by
  rw [listMessages, Prog.eval_bind, ensureMailboxExists, eval_getMailbox_bind]
  cases db.mailboxes.get? (Text.toLowercase address) with
  | none => rfl
  | some mailbox =>
      show ((loadMailboxMessages address direction >>= _ : Prog Response).eval ⟨db, []⟩).1 = _
      rw [Prog.eval_bind, eval_loadMailboxMessages]
      rfl

theorem linked_none : Linked db address none id ↔ Received db address id ∨ Sent db address id := by
  simp [Linked]

theorem linked_filter : Linked db address (some way.filter) id ↔ way.Went db address id := by
  cases way with
  | inbound => simp [Linked, OneWay.filter, OneWay.Went]
  | outbound => simp [Linked, OneWay.filter, OneWay.Went]

/-- Behind the filter every message has its label. -/
theorem label_filter (h : way.Went db address id) :
    label db address (some way.filter) id = way.wire := by
  cases way with
  | inbound => exact label_eq_inbound.mpr (fun hsent => hsent.1 rfl)
  | outbound => exact label_eq_outbound.mpr ⟨nofun, h⟩

/-- Without it a message has the label exactly when it is shown as going this way. -/
theorem label_none : label db address none id = way.wire ↔ way.Shown db address id := by
  cases way with
  | inbound =>
      rw [OneWay.wire, label_eq_inbound]
      simp [OneWay.Shown]
  | outbound =>
      rw [OneWay.wire, label_eq_outbound]
      simp [OneWay.Shown]

/-- A linked message that is shown as going this way went this way. -/
theorem went_of_shown (hlinked : Linked db address none id) (hshown : way.Shown db address id) :
    way.Went db address id := by
  cases way with
  | inbound => exact (linked_none.mp hlinked).resolve_right hshown
  | outbound => exact hshown

theorem went_linked (h : way.Went db address id) : Linked db address none id := by
  cases way with
  | inbound => exact linked_none.mpr (.inl h)
  | outbound => exact linked_none.mpr (.inr h)

/-- The ids of the list of both directions. -/
theorem map_id_listed_none (db : Db) (address : String) :
    (listed db address none).map MessageDTO.id = mailboxIds db address := by
  have hsorted : (mailboxIds db address).Pairwise (· < ·) := by
    have hnodup : (mailboxIds db address).Nodup :=
      (List.perm_insertionSort _ _).nodup_iff.mpr (db.messages.nodup.filter _)
    exact ((List.pairwise_insertionSort _ _).and hnodup).imp
      (fun h => Nat.lt_of_le_of_ne h.1 h.2)
  have hlisted : ((listed db address none).map MessageDTO.id).Pairwise (· < ·) := by
    rw [map_id_listed]
    exact (pairwise_linkedIds db address none).sublist List.filter_sublist
  refine hlisted.eq_of_mem_iff hsorted (fun id => ?_)
  rw [mem_map_id_listed, mailboxIds, List.mem_insertionSort, List.mem_filter, decide_eq_true_eq,
    linked_none, Table.isSome_get?]

/-- A listed message with another label. -/
def shownAs (direction : String) (item : MessageDTO) : MessageDTO :=
  { item with direction := some direction }

theorem shownAs_eq_self {direction : String} {item : MessageDTO} :
    shownAs direction item = item ↔ item.direction = some direction := by
  constructor
  · intro h
    rw [← h]
    rfl
  · intro h
    rw [shownAs, ← h]

/-- Behind the filter are the messages of both directions that went this way, shown so. -/
theorem listed_filter (db : Db) (address : String) (way : OneWay) :
    listed db address (some way.filter) =
      ((listed db address none).filter (fun item => way.Went db address item.id)).map
        (shownAs way.wire) := by
  have hsorted (direction : Option MessageDirection) :
      (listed db address direction).Pairwise (fun a b => a.id < b.id) := by
    have hids : ((listed db address direction).map MessageDTO.id).Pairwise (· < ·) := by
      rw [map_id_listed]
      exact (pairwise_linkedIds db address direction).sublist List.filter_sublist
    exact List.pairwise_map.mp hids
  have hirrefl : Std.Irrefl (fun a b : MessageDTO => a.id < b.id) := ⟨fun _ => Nat.lt_irrefl _⟩
  have hantisymm : Std.Antisymm (fun a b : MessageDTO => a.id < b.id) :=
    ⟨fun _ _ hlt hgt => absurd hlt (Nat.lt_asymm hgt)⟩
  refine (hsorted _).eq_of_mem_iff (List.pairwise_map.mpr ((hsorted none).filter _))
    (fun item => ?_)
  rw [List.mem_map, mem_listed]
  constructor
  · intro h
    obtain ⟨message, hmessage, hlinked, rfl⟩ := h
    have hwent := linked_filter.mp hlinked
    refine ⟨directed message (label db address none message.id), List.mem_filter.mpr ⟨?_, ?_⟩, ?_⟩
    · exact mem_listed.mpr ⟨message, hmessage, went_linked hwent, rfl⟩
    · exact decide_eq_true hwent
    · rw [label_filter hwent]
      rfl
  · intro h
    obtain ⟨other, hother, rfl⟩ := h
    obtain ⟨hmem, hwent⟩ := List.mem_filter.mp hother
    obtain ⟨message, hmessage, -, rfl⟩ := mem_listed.mp hmem
    have hwent := of_decide_eq_true hwent
    rw [id_directed] at hwent
    refine ⟨message, hmessage, linked_filter.mpr hwent, ?_⟩
    rw [label_filter hwent]
    rfl

/-- The condition on the listed messages. -/
theorem unaffected_iff {limit offset : Nat} : Unaffected db address way limit offset ↔
    (listed db address none).length ≤ offset ∨
      (∀ item ∈ (listed db address none).take offset,
        decide (way.Went db address item.id) = true) ∧
      (∀ item ∈ ((listed db address none).drop offset).take limit,
        decide (way.Went db address item.id) = true ∧ shownAs way.wire item = item) ∧
      (offset + limit < (listed db address none).length →
        ∃ item ∈ (listed db address none).drop (offset + limit),
          decide (way.Went db address item.id) = true) := by
  have hshown : ∀ item ∈ listed db address none, (way.Shown db address item.id ↔
      way.Went db address item.id ∧ shownAs way.wire item = item) := by
    intro item hitem
    obtain ⟨hlinked, hdirection⟩ := direction_of_mem hitem
    rw [shownAs_eq_self, hdirection, Option.some.injEq, label_none]
    exact (and_iff_right_of_imp (went_of_shown hlinked)).symm
  have hpage : (∀ item ∈ ((listed db address none).drop offset).take limit,
      way.Shown db address item.id) ↔
      ∀ item ∈ ((listed db address none).drop offset).take limit,
        way.Went db address item.id ∧ shownAs way.wire item = item :=
    forall₂_congr (fun item hitem =>
      hshown item (List.mem_of_mem_drop (List.mem_of_mem_take hitem)))
  have hafter (items : List MessageDTO) :
      (∃ id ∈ items.map MessageDTO.id, way.Went db address id) ↔
        ∃ item ∈ items, way.Went db address item.id := by
    simp only [List.mem_map, exists_exists_and_eq_and]
  simp only [Unaffected, ← map_id_listed_none, ← List.map_take, ← List.map_drop, List.length_map,
    List.forall_mem_map, hafter, decide_eq_true_eq, hpage]

/-- **When the direction filter agrees with the endpoint of the direction.** For every database,
address, limit and offset: the message list with the documented value of the filter answers what the
endpoint of that direction answers exactly when the mailbox is not there or the filter would not
show on the page. -/
theorem filter_eq_dedicated_iff (db : Db) (address : String) (way : OneWay) (query : Query) :
    ((listMailboxMessages address { query with direction := some way.wire }).eval ⟨db, []⟩).1 =
        ((way.dedicated address query).eval ⟨db, []⟩).1 ↔
      db.mailboxes.get? (Text.toLowercase address) = none ∨
        Unaffected db address way (pageParams query).1 (pageParams query).2 := by
  have hnodup : ((listed db address none).map MessageDTO.id).Nodup := by
    rw [map_id_listed]
    exact (List.nodup_dedup _).filter _
  have hkey : ∀ item, (shownAs way.wire item).id = item.id := fun _ => rfl
  have hlimit : 0 < (pageParams query).1 := by
    simp only [pageParams, maxPageLimit]
    omega
  have hsmall : (pageParams query).2 + (pageParams query).1 ≤ usizeMax := by
    simp only [pageParams, maxPageLimit, usizeMax]
    omega
  have hparse : ListMessagesQuery.parse { query with direction := some way.wire } = none := by
    cases way <;> simp [ListMessagesQuery.parse, parseField, MessageDirection.parse, OneWay.wire]
  have hdedicated : way.dedicated address query =
      listMessages address (some way.filter) (pageParams query).1 (pageParams query).2 := by
    cases way <;> rfl
  have hlist : listMailboxMessages address { query with direction := some way.wire } =
      listMessages address none (pageParams query).1 (pageParams query).2 := by
    rw [listMailboxMessages, hparse]
    rfl
  rw [hlist, hdedicated, eval_listMessages, eval_listMessages]
  cases db.mailboxes.get? (Text.toLowercase address) with
  | none => simp
  | some mailbox =>
      have hbody {first second : Page MessageDTO} :
          Response.ok (.messages first) = Response.ok (.messages second) ↔ first = second := by
        constructor
        · intro h
          cases h
          rfl
        · intro heq
          obtain rfl := heq
          rfl
      rw [Option.elim_some, Option.elim_some, hbody, listed_filter]
      rw [fromAll_filter_iff hnodup hkey hlimit hsmall, unaffected_iff]
      simp

/-- A mailbox that has sent one message and received none. -/
def oneSent : Db :=
  ((Statement.createOutbound ⟨1, "b@y.io", "a@x.io", .queued, 0, none, none⟩).execute none
    ((Statement.createMessage ⟨"a@x.io", [1], none, none, none, none, [], [], []⟩).execute none
      ((Statement.createMailbox ⟨"a@x.io", "x.io", none⟩).execute none Db.empty).2).2).2

/-- Asked for what it received, such a mailbox lists what it sent, and has an empty inbox. -/
theorem not_filter_eq_oneSent :
    ¬ ∀ (db : Db) (address : String) (way : OneWay) (query : Query),
      ((listMailboxMessages address { query with direction := some way.wire }).eval ⟨db, []⟩).1 =
        ((way.dedicated address query).eval ⟨db, []⟩).1 := by
  intro h
  have hpages := h oneSent "a@x.io" .inbound ⟨none, none, none⟩
  cases hpages

end Zonemail.Api
