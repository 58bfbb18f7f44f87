import Zonemail.Inbound.Lossless

/-!
# What a refused payload leaves

`handle_email` stores the message and then one link for each recipient, in statements of their own,
and leaves with an error at the first that fails. `leavesNothing_iff` says when that error means
that nothing was stored: the failed statement has to be the first of them.
-/

namespace Zonemail

open Library

/-- The messages, the links and the delivery jobs are as they were. -/
structure Untouched (before after : Db) : Prop where
  messages : after.messages = before.messages
  inbounds : after.inbounds = before.inbounds
  outbounds : after.outbounds = before.outbounds

theorem Untouched.refl (db : Db) : Untouched db db := ⟨rfl, rfl, rfl⟩

/-- The faults of the statements after the lookup of a duplicate, which takes place when there is a
usable `Message-ID`. -/
def faultsAfterLookup (content : MessageContent) (world : World) : List Statement.Fault :=
  match dedupKey content with
  | none => world.faults
  | some _ => world.faults.tail

/-- The inserts of a payload: one of the message, unless a duplicate is found, and one of a link for
each recipient. -/
def insertCount (content : MessageContent) (recipients : List String) (world : World) : Nat :=
  match duplicateOf content world with
  | none => recipients.length + 1
  | some _ => recipients.length

variable {world after : World} {content : MessageContent} {messageId : Nat}
  {recipients : List String}

/-- The lookup takes one statement when there is something to look up. -/
theorem faults_findDuplicate (content : MessageContent) (world : World) :
    ((findDuplicate content).eval world).2.faults = faultsAfterLookup content world := by
  unfold findDuplicate faultsAfterLookup
  cases dedupKey content with
  | none => rfl
  | some key => rfl

/-- A duplicate is used without a further statement. -/
theorem eval_storeMessage_of_some {existing : Message}
    (h : duplicateOf content world = some existing) :
    (storeMessage content).eval world =
      (.ok existing.id, ⟨world.db, faultsAfterLookup content world⟩) := by
  obtain ⟨hfound, hdb⟩ := eval_findDuplicate content world
  rw [storeMessage, Prog.eval_bind, hfound, h, Option.map_some]
  show (Except.ok existing.id, ((findDuplicate content).eval world).2) = _
  rw [← faults_findDuplicate, ← hdb]

/-- Without a duplicate the message is inserted, or refused when that fails. -/
theorem eval_storeMessage_of_none (h : duplicateOf content world = none) :
    (storeMessage content).eval world =
      match (faultsAfterLookup content world).head?.join with
      | some _ => (.error .abort, ⟨world.db, (faultsAfterLookup content world).tail⟩)
      | none => (.ok world.db.messages.next,
          ⟨{ world.db with
              messages := world.db.messages.push (fun id => ⟨content, id⟩) (fun _ => rfl) },
            (faultsAfterLookup content world).tail⟩) := by
  obtain ⟨hfound, hdb⟩ := eval_findDuplicate content world
  rw [storeMessage, Prog.eval_bind, hfound, h, Option.map_none]
  simp only []
  rw [Prog.eval_sql_bind, faults_findDuplicate, hdb]
  cases (faultsAfterLookup content world).head?.join with
  | some text => rfl
  | none => rfl

/-- The loop over the recipients returns an error exactly when one of its inserts fails. -/
theorem linkInbounds_ok_iff :
    ((linkInbounds messageId recipients).eval world).1 = .ok () ↔
      Clear recipients.length world.faults := by
  induction recipients generalizing world with
  | nil => exact iff_of_true rfl (clear_zero _)
  | cons recipient rest ih =>
      rw [linkInbounds, Prog.eval_sql_bind, List.length_cons, clear_succ]
      cases hfault : world.faults.head?.join with
      | some text => simp [Statement.execute, Prog.eval]
      | none =>
          simp only [Statement.execute, Statement.run, true_and]
          exact ih

/-- The loop over the recipients adds links and touches nothing else. -/
theorem linkInbounds_frame (messageId : Nat) (recipients : List String) (world : World) :
    ((linkInbounds messageId recipients).eval world).2.db.messages = world.db.messages ∧
      ((linkInbounds messageId recipients).eval world).2.db.outbounds = world.db.outbounds ∧
      world.db.inbounds.rows <+:
        ((linkInbounds messageId recipients).eval world).2.db.inbounds.rows := by
  induction recipients generalizing world with
  | nil => exact ⟨rfl, rfl, List.prefix_refl _⟩
  | cons recipient rest ih =>
      rw [linkInbounds, Prog.eval_sql_bind]
      cases hfault : world.faults.head?.join with
      | some text => exact ⟨rfl, rfl, List.prefix_refl _⟩
      | none =>
          obtain ⟨hmessages, houtbounds, hinbounds⟩ := ih
            ⟨((Statement.createInbound messageId recipient).execute none world.db).2,
              world.faults.tail⟩
          exact ⟨hmessages, houtbounds, (List.prefix_append _ _).trans hinbounds⟩

/-- The loop leaves the links as they are exactly when its first insert fails. -/
theorem linkInbounds_untouched_iff {recipient : String} {rest : List String} :
    Untouched world.db ((linkInbounds messageId (recipient :: rest)).eval world).2.db ↔
      world.faults.head?.join ≠ none := by
  rw [linkInbounds, Prog.eval_sql_bind]
  cases hfault : world.faults.head?.join with
  | some text => exact iff_of_true (Untouched.refl _) (by simp)
  | none =>
      refine iff_of_false (fun huntouched => ?_) (by simp)
      have hprefix := (linkInbounds_frame messageId rest
        ⟨((Statement.createInbound messageId recipient).execute none world.db).2,
          world.faults.tail⟩).2.2
      have hlength := (congrArg (fun table => table.rows.length) huntouched.inbounds).le
      have hlonger : world.db.inbounds.rows.length + 1 ≤
          ((linkInbounds messageId rest).eval
            ⟨((Statement.createInbound messageId recipient).execute none world.db).2,
              world.faults.tail⟩).2.db.inbounds.rows.length := by
        have hle := hprefix.length_le
        rwa [Statement.execute, Statement.run, AutoTable.rows_push, List.length_append,
          List.length_singleton] at hle
      exact absurd (hlonger.trans hlength) (Nat.not_succ_le_self _)

/-- What `deliver` returns and leaves once the message has a number. -/
theorem eval_deliver_of_stored {parse : MessageParser} {data : Bytes}
    (h : (storeMessage (messageContent (parse data) data)).eval world = (.ok messageId, after)) :
    ((deliver parse recipients data).eval world).1 =
        ((linkInbounds messageId recipients).eval after).1 ∧
      (((deliver parse recipients data).eval world).1 ≠ .ok () →
        ((deliver parse recipients data).eval world).2 =
          ((linkInbounds messageId recipients).eval after).2) := by
  rw [deliver, Prog.eval_bind, h]
  simp only [Prog.eval_bind]
  cases hlink : (linkInbounds messageId recipients).eval after with
  | mk result linked =>
      cases result with
      | error e => exact ⟨rfl, fun _ => rfl⟩
      | ok value =>
          cases value
          have hforwarded : ((do
              forwardAll messageId recipients
              pure (.ok ()) : Prog (Except SmtpError Unit)).eval linked).1 = .ok () := by
            rw [Prog.eval_bind]
            rfl
          exact ⟨hforwarded, fun hrefused => absurd hforwarded hrefused⟩

/-- For a duplicate only links are to be inserted. -/
theorem untouched_deliver_of_some {parse : MessageParser} {data : Bytes} {existing : Message}
    {recipient : String} {rest : List String}
    (h : duplicateOf (messageContent (parse data) data) world = some existing) :
    (((deliver parse (recipient :: rest) data).eval world).1 ≠ .ok () →
      Untouched world.db ((deliver parse (recipient :: rest) data).eval world).2.db) ↔
    Clear (rest.length + 1) (faultsAfterLookup (messageContent (parse data) data) world) ∨
      (faultsAfterLookup (messageContent (parse data) data) world).head?.join ≠ none := by
  obtain ⟨hresult, hleft⟩ := @eval_deliver_of_stored _ _ _ (recipient :: rest) _ _
    (eval_storeMessage_of_some h)
  have hok := @linkInbounds_ok_iff
    ⟨world.db, faultsAfterLookup (messageContent (parse data) data) world⟩ existing.id
    (recipient :: rest)
  rw [List.length_cons] at hok
  have hunlinked := @linkInbounds_untouched_iff
    ⟨world.db, faultsAfterLookup (messageContent (parse data) data) world⟩ existing.id
      recipient rest
  rw [← hok, ← hresult]
  constructor
  · intro huntouched
    refine or_iff_not_imp_left.mpr (fun hrefused => ?_)
    have hsame := huntouched hrefused
    rw [hleft hrefused] at hsame
    exact hunlinked.mp hsame
  · rintro (haccepted | hfirst) hrefused
    · exact absurd haccepted hrefused
    · rw [hleft hrefused]
      exact hunlinked.mpr hfirst

/-- For a new message its own insert is the first. -/
theorem untouched_deliver_of_none {parse : MessageParser} {data : Bytes}
    (h : duplicateOf (messageContent (parse data) data) world = none) :
    (((deliver parse recipients data).eval world).1 ≠ .ok () →
      Untouched world.db ((deliver parse recipients data).eval world).2.db) ↔
    Clear (recipients.length + 1) (faultsAfterLookup (messageContent (parse data) data) world) ∨
      (faultsAfterLookup (messageContent (parse data) data) world).head?.join ≠ none := by
  have hstore := eval_storeMessage_of_none h
  cases hfirst : (faultsAfterLookup (messageContent (parse data) data) world).head?.join with
  | some text =>
      rw [hfirst] at hstore
      refine iff_of_true (fun _ => ?_) (.inr (by simp))
      rw [deliver, Prog.eval_bind, hstore]
      exact Untouched.refl _
  | none =>
      rw [hfirst] at hstore
      obtain ⟨hresult, hleft⟩ := @eval_deliver_of_stored _ _ _ recipients _ _ hstore
      have hok := hresult ▸ linkInbounds_ok_iff
      simp only [clear_succ, hfirst, ne_eq, hok, not_true_eq_false, or_false, true_and]
      constructor
      · intro huntouched
        by_contra hrefused
        have hsame := (huntouched hrefused).messages
        -- The message that was inserted stays.
        have hrefused : ((deliver parse recipients data).eval world).1 ≠ .ok () := by
          rwa [ne_eq, hok]
        rw [hleft hrefused, (linkInbounds_frame _ _ _).1] at hsame
        have hlength := congrArg (fun table => table.rows.length) hsame
        simp at hlength
      · exact fun hclear hrefused => absurd hclear hrefused

/-- A payload that is refused is one of which nothing is stored. -/
def LeavesNothing (parse : MessageParser) (handler : ZonedMailHandler) (data : Bytes)
    (world : World) : Prop :=
  ((handler.handleEmail parse data).eval world).1.1 ≠ .ok () →
    Untouched world.db ((handler.handleEmail parse data).eval world).2.db

/-- **When a refused payload leaves no trace.** For every database, every list of recipients, every
payload and whichever statements fail: a call of `handle_email` that returns an error leaves the
messages, links and jobs as they were if and only if none of its inserts fails, so that it returns
none, or the first of them does. -/
theorem leavesNothing_iff {parse : MessageParser} {handler : ZonedMailHandler} {data : Bytes}
    {world : World} :
    LeavesNothing parse handler data world ↔
      Clear (insertCount (messageContent (parse data) data) (storedFor handler.recipients) world)
          (faultsAfterLookup (messageContent (parse data) data) world) ∨
        (faultsAfterLookup (messageContent (parse data) data) world).head?.join ≠ none := by
  have heval : (handler.handleEmail parse data).eval world =
      ((((deliver parse (storedFor handler.recipients) data).eval world).1, ⟨[]⟩),
        ((deliver parse (storedFor handler.recipients) data).eval world).2) := by
    rw [ZonedMailHandler.handleEmail, Prog.eval_bind]
    rfl
  obtain ⟨first, rest, hfirst⟩ : ∃ first rest, storedFor handler.recipients = first :: rest := by
    unfold storedFor
    cases handler.recipients with
    | nil => exact ⟨_, _, rfl⟩
    | cons first rest => exact ⟨first, rest, rfl⟩
  rw [LeavesNothing, heval, hfirst, insertCount]
  cases hduplicate : duplicateOf (messageContent (parse data) data) world with
  | some existing => exact untouched_deliver_of_some hduplicate
  | none => exact untouched_deliver_of_none hduplicate

/-- Two recipients, and the database fails at the link of the second: the message and the first link
stay. -/
theorem not_leavesNothing_secondLink : ¬ ∀ (parse : MessageParser) (handler : ZonedMailHandler)
    (data : Bytes) (world : World), LeavesNothing parse handler data world := by
  intro h
  have huntouched := h (fun _ => none) ⟨["a@x.io", "b@x.io"]⟩ [1]
    ⟨oneMailbox, [none, none, some "disk full"]⟩ nofun
  have hlinks := congrArg (fun table => table.rows.length) huntouched.inbounds
  cases hlinks

end Zonemail
