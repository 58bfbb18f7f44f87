import Mathlib.Data.List.Dedup
import Zonemail.Api.Handlers

/-!
# The messages of a mailbox

`load_mailbox_messages` collects the links of a mailbox in a vector of ids and a map of directions,
sorts the ids, drops the repeated ones and skips those whose message is gone. `listed` is what comes
of it on a given database, and `eval_loadMailboxMessages` says that the program computes it. So a
listing can be read off the stored rows: which messages are in it, in which order, and with which
direction.
-/

namespace Zonemail.Api

open Library

variable {db : Db} {address : String} {direction : Option MessageDirection} {id : Nat}

/-! ## Links -/

/-- A message is linked to the mailbox as received. -/
def Received (db : Db) (address : String) (id : Nat) : Prop :=
  ∃ link ∈ db.inbounds.rows, link.rcptTo = Text.toLowercase address ∧ link.messageId = id

/-- A message is linked to the mailbox as sent. -/
def Sent (db : Db) (address : String) (id : Nat) : Prop :=
  ∃ job ∈ db.outbounds.rows, job.senderId = Text.toLowercase address ∧ job.messageId = id

instance (db : Db) (address : String) (id : Nat) : Decidable (Received db address id) :=
  inferInstanceAs (Decidable (∃ link ∈ db.inbounds.rows, _))

instance (db : Db) (address : String) (id : Nat) : Decidable (Sent db address id) :=
  inferInstanceAs (Decidable (∃ job ∈ db.outbounds.rows, _))

/-- A message is linked to the mailbox in a direction that passes the filter. -/
def Linked (db : Db) (address : String) (direction : Option MessageDirection) (id : Nat) : Prop :=
  direction ≠ some .outbound ∧ Received db address id ∨
    direction ≠ some .inbound ∧ Sent db address id

instance (db : Db) (address : String) (direction : Option MessageDirection) (id : Nat) :
    Decidable (Linked db address direction id) :=
  inferInstanceAs (Decidable (_ ∨ _))

/-- The direction that a linked message is listed with. -/
def label (db : Db) (address : String) (direction : Option MessageDirection) (id : Nat) : String :=
  if direction ≠ some .inbound ∧ Sent db address id then "outbound" else "inbound"

/-- The messages that a scan finds as received, when the filter asks for it. -/
def receivedIds (db : Db) (address : String) (direction : Option MessageDirection) : List Nat :=
  if direction ≠ some .outbound then
    (db.inbounds.select (fun link => link.rcptTo = Text.toLowercase address)).map Inbound.messageId
  else []

/-- The messages that a scan finds as sent, when the filter asks for it. -/
def sentIds (db : Db) (address : String) (direction : Option MessageDirection) : List Nat :=
  if direction ≠ some .inbound then
    (db.outbounds.select (fun job => job.senderId = Text.toLowercase address)).map
      (fun job => job.messageId)
  else []

/-- The links of the mailbox that pass the filter, each with its direction. -/
def links (db : Db) (address : String) (direction : Option MessageDirection) :
    List (Nat × String) :=
  (receivedIds db address direction).map (fun id => (id, "inbound")) ++
    (sentIds db address direction).map (fun id => (id, "outbound"))

/-- The ids of the linked messages, each once, in increasing order. -/
def linkedIds (db : Db) (address : String) (direction : Option MessageDirection) : List Nat :=
  (((links db address direction).map Prod.fst).insertionSort (· ≤ ·)).dedup

/-- A message as it is listed with these links. -/
def listedAs (directions : List (Nat × String)) (message : Message) : MessageDTO :=
  { MessageDTO.ofMessage message with direction := directions.reverse.lookup message.id }

/-- The messages of a mailbox on a given database. -/
def listed (db : Db) (address : String) (direction : Option MessageDirection) : List MessageDTO :=
  (linkedIds db address direction).filterMap
    (fun id => (db.messages.get? id).map (listedAs (links db address direction)))

/-! ## What the program computes -/

theorem eval_inboundIds (db : Db) (address : String) (direction : Option MessageDirection) :
    (inboundIds (direction ≠ some .outbound) address).eval ⟨db, []⟩ =
      (.ok ((receivedIds db address direction).map (fun id => (id, "inbound"))), ⟨db, []⟩) := by
  by_cases h : direction ≠ some .outbound
  · rw [inboundIds, if_pos (decide_eq_true h), receivedIds, if_pos h, List.map_map]
    rfl
  · rw [inboundIds, if_neg (by simpa using h), receivedIds, if_neg h]
    rfl

theorem eval_outboundIds (db : Db) (address : String) (direction : Option MessageDirection) :
    (outboundIds (direction ≠ some .inbound) address).eval ⟨db, []⟩ =
      (.ok ((sentIds db address direction).map (fun id => (id, "outbound"))), ⟨db, []⟩) := by
  by_cases h : direction ≠ some .inbound
  · rw [outboundIds, if_pos (decide_eq_true h), sentIds, if_pos h, List.map_map]
    rfl
  · rw [outboundIds, if_neg (by simpa using h), sentIds, if_neg h]
    rfl

/-- The loop over the ids appends the messages that are there. -/
theorem eval_loadMessages (db : Db) (directions : List (Nat × String)) (items : List MessageDTO)
    (ids : List Nat) :
    (loadMessages directions items ids).eval ⟨db, []⟩ =
      (items ++ ids.filterMap (fun id => (db.messages.get? id).map (listedAs directions)),
        ⟨db, []⟩) := by
  induction ids generalizing items with
  | nil =>
      rw [List.filterMap_nil, List.append_nil]
      rfl
  | cons id rest ih =>
      have hexecute : (Statement.getMessage id).execute none db =
          ((db.messages.get? id).elim (.error .notFound) .ok, db) := by
        cases hmessage : db.messages.get? id with
        | none => simp [Statement.execute, Statement.run, Statement.found, hmessage]
        | some message => simp [Statement.execute, Statement.run, Statement.found, hmessage]
      rw [loadMessages, Prog.eval_sql_bind, List.head?_nil, Option.join_none, hexecute]
      cases hmessage : db.messages.get? id with
      | none =>
          rw [List.filterMap_cons, hmessage, Option.map_none]
          exact ih items
      | some message =>
          obtain rfl : message.id = id := Table.key_of_get? hmessage
          have hrest := ih (items ++ [listedAs directions message])
          rw [List.append_assoc, List.singleton_append] at hrest
          rw [List.filterMap_cons, hmessage, Option.map_some]
          exact hrest

/-- `load_mailbox_messages` computes the listing. -/
theorem eval_loadMailboxMessages (db : Db) (address : String)
    (direction : Option MessageDirection) :
    (loadMailboxMessages address direction).eval ⟨db, []⟩ =
      (.ok (listed db address direction), ⟨db, []⟩) := by
  rw [loadMailboxMessages, Prog.eval_bind, eval_inboundIds]
  dsimp only
  rw [Prog.eval_bind, eval_outboundIds]
  dsimp only
  rw [Prog.eval_bind, eval_loadMessages, List.nil_append]
  rfl

/-! ## What a listing shows -/

theorem mem_receivedIds : id ∈ receivedIds db address direction ↔
    direction ≠ some .outbound ∧ Received db address id := by
  unfold receivedIds
  split
  · rename_i h
    rw [and_iff_right h]
    simp [Received, Table.select, and_assoc]
  · rename_i h
    simp [h]

theorem mem_sentIds : id ∈ sentIds db address direction ↔
    direction ≠ some .inbound ∧ Sent db address id := by
  unfold sentIds
  split
  · rename_i h
    rw [and_iff_right h]
    simp [Sent, Table.select, and_assoc]
  · rename_i h
    simp [h]

theorem mem_map_links : id ∈ (links db address direction).map Prod.fst ↔
    Linked db address direction id := by
  have hfst (label : String) : (Prod.fst ∘ fun id : Nat => (id, label)) = fun id => id := rfl
  rw [links, List.map_append, List.map_map, List.map_map, hfst, hfst, List.map_id', List.map_id',
    List.mem_append, mem_receivedIds, mem_sentIds, Linked]

theorem mem_linkedIds : id ∈ linkedIds db address direction ↔ Linked db address direction id := by
  rw [linkedIds, List.mem_dedup, List.mem_insertionSort, mem_map_links]

/-- The ids come in increasing order, each once. -/
theorem pairwise_linkedIds (db : Db) (address : String) (direction : Option MessageDirection) :
    (linkedIds db address direction).Pairwise (· < ·) := by
  have hsorted : (linkedIds db address direction).Pairwise (· ≤ ·) :=
    (List.pairwise_insertionSort _ _).sublist (List.dedup_sublist _)
  exact (hsorted.and (List.nodup_dedup _)).imp (fun h => Nat.lt_of_le_of_ne h.1 h.2)

/-- In a list of links of one direction every linked message has that direction. -/
theorem lookup_tagged (ids : List Nat) (direction : String) (id : Nat) :
    (ids.map (fun id => (id, direction))).lookup id =
      if id ∈ ids then some direction else none := by
  induction ids with
  | nil => rfl
  | cons first rest ih =>
      rw [List.map_cons, List.lookup_cons, ih]
      by_cases h : id = first
      · simp [h]
      · have hne : (id == first) = false := beq_eq_false_iff_ne.mpr h
        simp [hne, h]

/-- A linked message is listed with the direction of its links, where a sent one counts more. -/
theorem lookup_links (h : Linked db address direction id) :
    (links db address direction).reverse.lookup id = some (label db address direction id) := by
  rw [links, List.reverse_append, List.lookup_append, ← List.map_reverse, ← List.map_reverse,
    lookup_tagged, lookup_tagged]
  simp only [List.mem_reverse, mem_receivedIds, mem_sentIds]
  by_cases hsent : direction ≠ some .inbound ∧ Sent db address id
  · rw [if_pos hsent, label, if_pos hsent, Option.some_or]
  · rw [if_neg hsent, if_pos (h.resolve_right hsent), label, if_neg hsent, Option.none_or]

/-- A message as it is listed when it went this way. -/
def directed (message : Message) (direction : String) : MessageDTO :=
  { MessageDTO.ofMessage message with direction := some direction }

@[simp] theorem id_directed (message : Message) (direction : String) :
    (directed message direction).id = message.id := rfl

/-- The listed messages are the linked ones that are stored. -/
theorem mem_listed {item : MessageDTO} : item ∈ listed db address direction ↔
    ∃ message ∈ db.messages.rows, Linked db address direction message.id ∧
      item = directed message (label db address direction message.id) := by
  have hlistedAs {message : Message} (hlinked : Linked db address direction message.id) :
      listedAs (links db address direction) message =
        directed message (label db address direction message.id) := by
    rw [listedAs, lookup_links hlinked]
    rfl
  rw [listed, List.mem_filterMap]
  constructor
  · intro h
    obtain ⟨id, hid, hitem⟩ := h
    obtain ⟨message, hmessage, rfl⟩ := Option.map_eq_some_iff.mp hitem
    obtain rfl : message.id = id := Table.key_of_get? hmessage
    have hlinked := mem_linkedIds.mp hid
    exact ⟨message, Table.mem_of_get? hmessage, hlinked, hlistedAs hlinked⟩
  · intro h
    obtain ⟨message, hmessage, hlinked, rfl⟩ := h
    refine ⟨message.id, mem_linkedIds.mpr hlinked, ?_⟩
    rw [Table.get?_of_mem hmessage, Option.map_some, hlistedAs hlinked]

/-- The ids of the listed messages. -/
theorem map_id_listed (db : Db) (address : String) (direction : Option MessageDirection) :
    (listed db address direction).map MessageDTO.id =
      (linkedIds db address direction).filter (fun id => (db.messages.get? id).isSome) := by
  rw [listed, List.map_filterMap, ← List.filterMap_eq_filter]
  refine List.filterMap_congr (fun id _ => ?_)
  cases hmessage : db.messages.get? id with
  | none => simp [Option.guard, hmessage]
  | some message =>
      have hid : message.id = id := Table.key_of_get? hmessage
      simp [Option.guard, hmessage, listedAs, MessageDTO.ofMessage, hid]

theorem mem_map_id_listed : id ∈ (listed db address direction).map MessageDTO.id ↔
    (db.messages.get? id).isSome ∧ Linked db address direction id := by
  rw [map_id_listed, List.mem_filter, mem_linkedIds, and_comm]

/-- A listed message is linked, and carries the direction of its links. -/
theorem direction_of_mem {item : MessageDTO} (h : item ∈ listed db address direction) :
    Linked db address direction item.id ∧
      item.direction = some (label db address direction item.id) := by
  obtain ⟨message, -, hlinked, rfl⟩ := mem_listed.mp h
  exact ⟨hlinked, rfl⟩

theorem label_eq_outbound : label db address direction id = "outbound" ↔
    direction ≠ some .inbound ∧ Sent db address id := by
  unfold label
  split
  · rename_i h
    exact iff_of_true rfl h
  · rename_i h
    exact iff_of_false (by decide) h

theorem label_eq_inbound : label db address direction id = "inbound" ↔
    ¬ (direction ≠ some .inbound ∧ Sent db address id) := by
  unfold label
  split
  · rename_i h
    exact iff_of_false (by decide) (not_not.mpr h)
  · rename_i h
    exact iff_of_true rfl h

/-- **A listing is exact.** For every database, every address in any letter case and every filter,
`load_mailbox_messages` returns messages in strictly increasing order of their ids; a message is
among them exactly when it is stored and some link in a direction that passes the filter names it
with the lower-case address; it is listed as stored, with the direction of a one-way filter, and
otherwise as outbound exactly when it has an outbound link; and the messages of both directions are
those of the inbox and of the sent ones together. -/
theorem loadMailboxMessages_exact (db : Db) (address : String)
    (direction : Option MessageDirection) : ∃ items,
    (loadMailboxMessages address direction).eval ⟨db, []⟩ = (.ok items, ⟨db, []⟩) ∧
    (items.map MessageDTO.id).Pairwise (· < ·) ∧
    (∀ id, id ∈ items.map MessageDTO.id ↔ (db.messages.get? id).isSome ∧
      (direction ≠ some .outbound ∧ Received db address id ∨
        direction ≠ some .inbound ∧ Sent db address id)) ∧
    (∀ item ∈ items, ∃ message, db.messages.get? item.id = some message ∧
      item = { MessageDTO.ofMessage message with direction := item.direction }) ∧
    (∀ item ∈ items, item.direction = some "inbound" ∨ item.direction = some "outbound") ∧
    (direction = some .inbound → ∀ item ∈ items, item.direction = some "inbound") ∧
    (direction = some .outbound → ∀ item ∈ items, item.direction = some "outbound") ∧
    (direction ≠ some .inbound → direction ≠ some .outbound →
      (∀ item ∈ items, item.direction = some "outbound" ↔ Sent db address item.id) ∧
      ∃ inbox sent,
        (loadMailboxMessages address (some .inbound)).eval ⟨db, []⟩ = (.ok inbox, ⟨db, []⟩) ∧
        (loadMailboxMessages address (some .outbound)).eval ⟨db, []⟩ = (.ok sent, ⟨db, []⟩) ∧
        ∀ id, id ∈ items.map MessageDTO.id ↔
          id ∈ inbox.map MessageDTO.id ∨ id ∈ sent.map MessageDTO.id) := by
  refine ⟨listed db address direction, eval_loadMailboxMessages db address direction, ?_,
    fun id => mem_map_id_listed, ?_, ?_, ?_, ?_, ?_⟩
  · rw [map_id_listed]
    exact (pairwise_linkedIds db address direction).sublist List.filter_sublist
  · intro item hitem
    obtain ⟨message, hmessage, -, rfl⟩ := mem_listed.mp hitem
    exact ⟨message, Table.get?_of_mem hmessage, rfl⟩
  · intro item hitem
    rw [(direction_of_mem hitem).2, label]
    split
    · exact .inr rfl
    · exact .inl rfl
  · intro heq item hitem
    obtain rfl := heq
    rw [(direction_of_mem hitem).2, label_eq_inbound.mpr (fun h => h.1 rfl)]
  · intro heq item hitem
    obtain rfl := heq
    obtain ⟨hlinked, hdirection⟩ := direction_of_mem hitem
    rw [hdirection, label_eq_outbound.mpr (hlinked.resolve_left (fun h => h.1 rfl))]
  · intro hin hout
    refine ⟨fun item hitem => ?_, _, _, eval_loadMailboxMessages db address (some .inbound),
      eval_loadMailboxMessages db address (some .outbound), fun id => ?_⟩
    · rw [(direction_of_mem hitem).2, Option.some.injEq, label_eq_outbound, and_iff_right hin]
    · rw [mem_map_id_listed, mem_map_id_listed, mem_map_id_listed, ← and_or_left]
      refine and_congr_right (fun _ => ?_)
      simp [Linked, hin, hout]

end Zonemail.Api
