import Zonemail.Inbound.Handler

/-!
# What is kept of a received payload

A payload is stored as a new message unless an earlier message is found under its `Message-ID`, in
which case the recipients are linked to that one. The `Message-ID` is the sender's choice, so the
message found may be a different one. `kept_iff` says exactly when every recipient ends up with the
payload that was received.
-/

namespace Zonemail

open Library

/-- The recipient is linked to a stored message with these bytes. -/
def Kept (db : Db) (recipient : String) (data : Bytes) : Prop :=
  ∃ link ∈ db.inbounds.rows, link.rcptTo = recipient ∧
    ∃ message, db.messages.get? link.messageId = some message ∧ message.raw = data

/-- The stored message that a payload is taken for: the first with the payload's `Message-ID`,
when it has a usable one and the lookup does not fail. -/
def duplicateOf (content : MessageContent) (world : World) : Option Message :=
  match dedupKey content, world.faults.head?.join with
  | some key, none =>
      (world.db.messages.select (fun message => message.messageIdHeader = some key)).head?
  | _, _ => none

variable {world after : World} {content : MessageContent} {messageId : Nat}
  {recipients : List String}

/-- The lookup finds the duplicate and changes nothing. -/
theorem eval_findDuplicate (content : MessageContent) (world : World) :
    ((findDuplicate content).eval world).1 = (duplicateOf content world).map Message.id ∧
      ((findDuplicate content).eval world).2.db = world.db := by
  unfold findDuplicate duplicateOf
  cases hkey : dedupKey content with
  | none => exact ⟨rfl, rfl⟩
  | some key =>
      simp only []
      rw [Prog.eval_sql_bind]
      cases hfault : world.faults.head?.join with
      | some text => exact ⟨rfl, rfl⟩
      | none =>
          simp only [Statement.execute, Statement.run]
          cases (world.db.messages.select
            (fun message => message.messageIdHeader = some key)).head? with
          | none => exact ⟨rfl, rfl⟩
          | some existing => exact ⟨rfl, rfl⟩

/-- A stored message is the duplicate, with the database as it was, or a new row. -/
theorem storeMessage_cases (h : (storeMessage content).eval world = (.ok messageId, after)) :
    (∃ existing, duplicateOf content world = some existing ∧ messageId = existing.id ∧
      after.db = world.db) ∨
    duplicateOf content world = none ∧ messageId = world.db.messages.next ∧
      after.db = { world.db with
        messages := world.db.messages.push (fun id => ⟨content, id⟩) (fun _ => rfl) } := by
  obtain ⟨hfound, hdb⟩ := eval_findDuplicate content world
  unfold storeMessage at h
  rw [Prog.eval_bind, hfound] at h
  cases hduplicate : duplicateOf content world with
  | some existing =>
      rw [hduplicate] at h
      cases h
      exact .inl ⟨existing, rfl, rfl, hdb⟩
  | none =>
      rw [hduplicate] at h
      simp only [Option.map_none] at h
      -- Nothing was found, so the message is inserted unless that fails.
      rw [Prog.eval_sql_bind, hdb] at h
      cases hfault : ((findDuplicate content).eval world).2.faults.head?.join with
      | some text =>
          rw [hfault] at h
          cases h
      | none =>
          rw [hfault] at h
          cases h
          exact .inr ⟨rfl, rfl, rfl⟩

/-- Linking adds a link to the message for every recipient, and no others. -/
structure Linked (messageId : Nat) (recipients : List String) (before after : Db) : Prop where
  messages : after.messages = before.messages
  old : ∀ link ∈ before.inbounds.rows, link ∈ after.inbounds.rows
  linked : ∀ recipient ∈ recipients, ∃ link ∈ after.inbounds.rows,
    link.rcptTo = recipient ∧ link.messageId = messageId
  new : ∀ link ∈ after.inbounds.rows, link ∈ before.inbounds.rows ∨ link.messageId = messageId

/-- Only messages and links matter. -/
theorem Linked.congr {before middle last : Db} (h : Linked messageId recipients before middle)
    (hmessages : last.messages = middle.messages) (hinbounds : last.inbounds = middle.inbounds) :
    Linked messageId recipients before last where
  messages := hmessages.trans h.messages
  old := by simpa only [hinbounds] using h.old
  linked := by simpa only [hinbounds] using h.linked
  new := by simpa only [hinbounds] using h.new

/-- What a successful loop over the recipients leaves. -/
theorem linkInbounds_spec
    (h : (linkInbounds messageId recipients).eval world = (.ok (), after)) :
    Linked messageId recipients world.db after.db := by
  induction recipients generalizing world with
  | nil =>
      cases h
      exact ⟨rfl, fun _ h => h, by simp, fun _ h => .inl h⟩
  | cons recipient rest ih =>
      rw [linkInbounds, Prog.eval_sql_bind] at h
      cases hfault : world.faults.head?.join with
      | some text =>
          rw [hfault] at h
          cases h
      | none =>
          rw [hfault] at h
          have hrest := ih h
          refine ⟨hrest.messages, ?_, ?_, ?_⟩
          · exact fun link hlink => hrest.old link (List.mem_append_left _ hlink)
          · intro other hother
            rcases List.mem_cons.mp hother with rfl | hother
            · exact ⟨⟨world.db.inbounds.next, messageId, other⟩,
                hrest.old _ (List.mem_append_right _ (List.mem_singleton_self _)), rfl, rfl⟩
            · exact hrest.linked other hother
          · intro link hlink
            rcases hrest.new link hlink with hlink | hlink
            · rcases List.mem_append.mp hlink with hlink | hlink
              · exact .inl hlink
              · rw [List.mem_singleton] at hlink
                exact .inr (by rw [hlink])
            · exact .inr hlink

/-- Enqueueing a job touches neither messages nor links. -/
theorem enqueueForward_frame (messageId : Nat) (senderId forwardTo : String) (world : World) :
    ((enqueueForward messageId senderId forwardTo).eval world).2.db.messages = world.db.messages ∧
      ((enqueueForward messageId senderId forwardTo).eval world).2.db.inbounds =
        world.db.inbounds := by
  rw [enqueueForward, Prog.eval_sql_bind]
  cases world.faults.head?.join with
  | some text => exact ⟨rfl, rfl⟩
  | none => exact ⟨rfl, rfl⟩

/-- Forwarding for one recipient touches neither messages nor links. -/
theorem forward_frame (messageId : Nat) (recipient : String) (world : World) :
    ((forward messageId recipient).eval world).2.db.messages = world.db.messages ∧
      ((forward messageId recipient).eval world).2.db.inbounds = world.db.inbounds := by
  rw [forward, Prog.eval_sql_bind]
  rcases Statement.execute_getMailbox recipient world.faults.head?.join world.db with
    ⟨mailbox, -, h⟩ | ⟨e, h⟩
  · rw [h]
    cases hforward : mailbox.forwardTo with
    | none =>
        simp only [hforward]
        exact ⟨rfl, rfl⟩
    | some forwardTo =>
        simp only [hforward, Prog.eval_bind]
        exact enqueueForward_frame messageId recipient forwardTo ⟨world.db, world.faults.tail⟩
  · rw [h]
    exact ⟨rfl, rfl⟩

/-- Forwarding for every recipient touches neither messages nor links. -/
theorem forwardAll_frame (messageId : Nat) (recipients : List String) (world : World) :
    ((forwardAll messageId recipients).eval world).2.db.messages = world.db.messages ∧
      ((forwardAll messageId recipients).eval world).2.db.inbounds = world.db.inbounds := by
  induction recipients generalizing world with
  | nil => exact ⟨rfl, rfl⟩
  | cons recipient rest ih =>
      obtain ⟨hmessages, hinbounds⟩ := forward_frame messageId recipient world
      rw [forwardAll, Prog.eval_bind]
      rw [← hmessages, ← hinbounds]
      exact ih _

/-- A payload that is accepted was stored or recognised, and linked for every recipient; nothing
else happened to messages and links. -/
theorem deliver_spec {parse : MessageParser} {data : Bytes}
    (h : ((deliver parse recipients data).eval world).1 = .ok ()) :
    ∃ id stored, (storeMessage (messageContent (parse data) data)).eval world = (.ok id, stored) ∧
      Linked id recipients stored.db ((deliver parse recipients data).eval world).2.db := by
  rw [deliver, Prog.eval_bind] at h ⊢
  cases hstore : (storeMessage (messageContent (parse data) data)).eval world with
  | mk result stored =>
      rw [hstore] at h
      cases result with
      | error e => cases h
      | ok id =>
          refine ⟨id, stored, rfl, ?_⟩
          simp only [Prog.eval_bind] at h ⊢
          cases hlink : (linkInbounds id recipients).eval stored with
          | mk result linked =>
              rw [hlink] at h
              cases result with
              | error e => cases h
              | ok value =>
                  obtain ⟨hmessages, hinbounds⟩ := forwardAll_frame id recipients linked
                  simp only [Prog.eval_bind]
                  exact (linkInbounds_spec hlink).congr hmessages hinbounds

/-- A duplicate is a stored row. -/
theorem get?_of_duplicateOf {existing : Message} (h : duplicateOf content world = some existing) :
    world.db.messages.get? existing.id = some existing := by
  unfold duplicateOf at h
  split at h
  · exact Table.get?_of_mem (List.mem_of_mem_filter (List.mem_of_mem_head? h))
  · cases h

/-- Linked to a message with the bytes, every recipient has them. -/
theorem Linked.kept {before last : Db} {message : Message} {recipient : String} {data : Bytes}
    (h : Linked messageId (storedFor recipients) before last) (hmem : recipient ∈ recipients)
    (hmessage : before.messages.get? messageId = some message) (hraw : message.raw = data) :
    Kept last recipient data := by
  obtain ⟨link, hlink, hrcpt, hid⟩ := h.linked recipient (mem_storedFor.mpr (.inl hmem))
  exact ⟨link, hlink, hrcpt, message, by rw [h.messages, hid, hmessage], hraw⟩

/-- Linked to a message with other bytes, a recipient has what it had before. -/
theorem Linked.kept_iff_of_ne {before last : Db} {message : Message} {recipient : String}
    {data : Bytes} (h : Linked messageId recipients before last)
    (hmessage : before.messages.get? messageId = some message) (hraw : message.raw ≠ data) :
    Kept last recipient data ↔ Kept before recipient data := by
  constructor
  · intro hkept
    obtain ⟨link, hlink, hrcpt, found, hfound, hdata⟩ := hkept
    rw [h.messages] at hfound
    rcases h.new link hlink with hold | hnew
    · exact ⟨link, hold, hrcpt, found, hfound, hdata⟩
    · rw [hnew, hmessage] at hfound
      cases hfound
      exact absurd hdata hraw
  · intro hkept
    obtain ⟨link, hlink, hrcpt, found, hfound, hdata⟩ := hkept
    exact ⟨link, h.old link hlink, hrcpt, found, by rw [h.messages, hfound], hdata⟩

/-- When the payload is accepted, every recipient is linked to a message with its bytes exactly
when it was not taken for a stored message with other bytes, or every recipient had such a link
before. -/
theorem kept_iff (parse : MessageParser) (recipients : List String) (data : Bytes) (world : World)
    (hok : (((⟨recipients⟩ : ZonedMailHandler).handleEmail parse data).eval world).1.1 = .ok ()) :
    (∀ recipient ∈ recipients, Kept
      (((⟨recipients⟩ : ZonedMailHandler).handleEmail parse data).eval world).2.db recipient data) ↔
    ∀ existing, duplicateOf (messageContent (parse data) data) world = some existing →
      existing.raw = data ∨ ∀ recipient ∈ recipients, Kept world.db recipient data := by
  have heval : (((⟨recipients⟩ : ZonedMailHandler).handleEmail parse data).eval world) =
      ((((deliver parse (storedFor recipients) data).eval world).1, ⟨[]⟩),
        ((deliver parse (storedFor recipients) data).eval world).2) := by
    rw [ZonedMailHandler.handleEmail, Prog.eval_bind]
    rfl
  rw [heval] at hok ⊢
  obtain ⟨id, stored, hstore, hlinked⟩ := deliver_spec hok
  rcases storeMessage_cases hstore with ⟨existing, hduplicate, rfl, hdb⟩ | ⟨hnone, rfl, hdb⟩
  · have hexisting := get?_of_duplicateOf hduplicate
    rw [hdb] at hlinked
    by_cases hraw : existing.raw = data
    · constructor
      · intro _ other hother
        rw [hduplicate, Option.some.injEq] at hother
        exact .inl (hother ▸ hraw)
      · exact fun _ recipient hmem => hlinked.kept hmem hexisting hraw
    · simp only [hlinked.kept_iff_of_ne hexisting hraw, hduplicate, Option.some.injEq,
        forall_eq', hraw, false_or]
  · constructor
    · intro _ existing hexisting
      rw [hnone] at hexisting
      cases hexisting
    · intro _ recipient hmem
      have hnew : stored.db.messages.get? world.db.messages.next =
          some ⟨messageContent (parse data) data, world.db.messages.next⟩ := by
        rw [hdb]
        exact (AutoTable.get?_push _ _ (fun _ => rfl) _).trans (if_pos rfl)
      exact hlinked.kept hmem hnew rfl

/-- A parser that makes out one `Message-ID` in every payload, as a sender may put it there. -/
def sameId : MessageParser := fun _ => some ⟨none, none, none, some "m1@y.io", none, none, none⟩

/-- A database with one mailbox. -/
def oneMailbox : Db :=
  ((Statement.createMailbox ⟨"a@x.io", "x.io", none⟩).execute none Db.empty).2

/-- The first payload with a `Message-ID` is kept for its recipient. -/
theorem kept_first :
    Kept (((⟨["a@x.io"]⟩ : ZonedMailHandler).handleEmail sameId [1]).eval ⟨oneMailbox, []⟩).2.db
      "a@x.io" [1] :=
  (kept_iff sameId ["a@x.io"] [1] ⟨oneMailbox, []⟩ rfl).mpr (fun _ h => by cases h) "a@x.io"
    (List.mem_singleton_self _)

/-- A second payload with the same `Message-ID` and other bytes is accepted and lost: the recipient
is linked to the first payload once more. -/
theorem not_kept_second :
    ¬ ∀ (parse : MessageParser) (recipients : List String) (data : Bytes) (world : World),
      (((⟨recipients⟩ : ZonedMailHandler).handleEmail parse data).eval world).1.1 = .ok () →
      ∀ recipient ∈ recipients, Kept
        (((⟨recipients⟩ : ZonedMailHandler).handleEmail parse data).eval world).2.db
        recipient data := by
  intro h
  obtain ⟨link, hlink, -, message, hmessage, hraw⟩ := h sameId ["a@x.io"] [2]
    ⟨(((⟨["a@x.io"]⟩ : ZonedMailHandler).handleEmail sameId [1]).eval ⟨oneMailbox, []⟩).2.db, []⟩
    rfl "a@x.io" (List.mem_singleton_self _)
  have hstored : message ∈ [(⟨messageContent (sameId [1]) [1], 1⟩ : Message)] :=
    Table.mem_of_get? hmessage
  rw [List.mem_singleton] at hstored
  subst hstored
  exact absurd hraw (by decide)

end Zonemail
