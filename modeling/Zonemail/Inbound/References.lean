import Zonemail.Inbound.Lossless
import Zonemail.Outbound.Rows

/-!
# The links of a message

`delete_message` removes the received-mail links of a message, then its jobs, and then the message,
in separate statements, so that no link to the message is left. `handle_email` and `send_email` link
to a message that they have found or stored some statements ago. A link that is made after the links
were removed stays when the message goes. `noDangling_of_run` says that this is the only way to get
a link to a message that is not there: in every interleaving of any number of such calls, with any
faults, every link names a stored message as long as every link is made to a message that is still
stored and whose links of that kind have not been removed by a call that is still to delete it.
-/

namespace Zonemail

open Library

/-! ## What a statement does to messages and links -/

/-- Every received-mail link and every job names a stored message. -/
structure Db.NoDangling (db : Db) : Prop where
  inbounds : ∀ link ∈ db.inbounds.rows, (db.messages.get? link.messageId).isSome
  outbounds : ∀ job ∈ db.outbounds.rows, (db.messages.get? job.messageId).isSome

namespace Statement

variable {statement : Statement} {db after : Db}

/-- Only `createInbound` makes received-mail links. -/
theorem Change.inbound (h : Change db statement after) {link : Inbound}
    (hlink : link ∈ after.inbounds.rows) :
    link ∈ db.inbounds.rows ∨ ∃ rcptTo, statement = .createInbound link.messageId rcptTo := by
  cases h with
  | createInbound =>
      rw [AutoTable.rows_push] at hlink
      rcases List.mem_append.mp hlink with hold | hnew
      · exact .inl hold
      · rw [List.mem_singleton.mp hnew]
        exact .inr ⟨_, rfl⟩
  | deleteInboundsOfMessage => exact .inl (List.mem_of_mem_filter hlink)
  | deleteMailbox => exact .inl (List.mem_of_mem_filter hlink)
  | deleteDomain =>
      unfold Db.removeDomain at hlink
      split at hlink
      · exact .inl hlink
      · exact .inl (List.mem_of_mem_filter hlink)
  | _ => exact .inl hlink

/-- Only `deleteMessage` removes a message. -/
theorem Change.message (h : Change db statement after) {id : Nat}
    (hid : (db.messages.get? id).isSome) :
    (after.messages.get? id).isSome ∨ statement = .deleteMessage id := by
  cases h with
  | createMessage =>
      rw [AutoTable.get?_push]
      split
      · exact .inl rfl
      · exact .inl hid
  | @deleteMessage deleted =>
      by_cases hsame : deleted = id
      · exact .inr (by rw [hsame])
      · obtain ⟨message, hmessage⟩ := Option.isSome_iff_exists.mp hid
        have hkey : message.id = id := Table.key_of_get? hmessage
        refine .inl (Option.isSome_of_eq_some (Table.get?_remove_of_not hmessage ?_))
        simp [hkey, Ne.symm hsame]
  | deleteDomain =>
      unfold Db.removeDomain
      split
      · exact .inl hid
      · exact .inl hid
  | _ => exact .inl hid

/-- No received-mail link of the message is left. -/
theorem Change.inbounds_deleted {messageId : Nat}
    (h : Change db (.deleteInboundsOfMessage messageId) after) :
    ∀ link ∈ after.inbounds.rows, link.messageId ≠ messageId := by
  cases h with
  | read hreads => exact hreads.elim
  | deleteInboundsOfMessage =>
      intro link hlink
      simpa using (List.mem_filter.mp hlink).2

/-- No job of the message is left. -/
theorem Change.outbounds_deleted {messageId : Nat}
    (h : Change db (.deleteOutboundsOfMessage messageId) after) :
    ∀ job ∈ after.outbounds.rows, job.messageId ≠ messageId := by
  cases h with
  | read hreads => exact hreads.elim
  | deleteOutboundsOfMessage =>
      intro job hjob
      simpa using (List.mem_filter.mp hjob).2

end Statement

/-! ## Calls -/

/-- The calls that store, link and delete messages. -/
inductive MessageCall where
  | deleteMessage (messageId : Nat)
  | sendEmail (body : Option Api.SendEmail)
  | handleEmail (handler : ZonedMailHandler) (data : Bytes)

/-- The program of a call; its result is not of interest here. -/
def MessageCall.program (parse : MessageParser) (lettre : Api.Lettre) : MessageCall → Prog Unit
  | .deleteMessage messageId => do
      let _ ← Api.deleteMessage messageId
      pure ()
  | .sendEmail body => do
      let _ ← Api.sendEmail parse lettre body
      pure ()
  | .handleEmail handler data => do
      let _ ← handler.handleEmail parse data
      pure ()

/-- The jobs of a message are deleted right after its received-mail links, and the message right
after its jobs. -/
def DeletionOrder (history : EffectHistory) : Effect → Prop
  | .sql (.deleteOutboundsOfMessage messageId) =>
      history.getLast? = some ⟨.sql (.deleteInboundsOfMessage messageId), .ok ()⟩
  | .sql (.deleteMessage messageId) =>
      history.getLast? = some ⟨.sql (.deleteOutboundsOfMessage messageId), .ok ()⟩
  | _ => True

/-- A program keeps to that order. -/
abbrev KeepsOrder {α : Type} (program : Prog α) (history : EffectHistory) : Prop :=
  program.Safe (fun _ _ => True) DeletionOrder (fun _ _ => True) history

/-- A program that deletes neither jobs nor messages keeps to the order. -/
theorem keepsOrder_of_performs {α : Type} {program : Prog α} {history : EffectHistory}
    (h : program.Performs (fun effect => ∀ history, DeletionOrder history effect)) :
    KeepsOrder program history :=
  h.safe trivial (fun history _ _ heffect => heffect history) (fun _ _ _ _ _ => trivial)

theorem StoringEffect.deletionOrder {recipients : List String} {effect : Effect}
    (h : StoringEffect recipients effect) (history : EffectHistory) :
    DeletionOrder history effect := by
  unfold DeletionOrder
  split
  · exact h.elim
  · exact h.elim
  · trivial

theorem SendingEffect.deletionOrder {effect : Effect} (h : SendingEffect effect)
    (history : EffectHistory) : DeletionOrder history effect := by
  unfold DeletionOrder
  split
  · exact h.elim
  · exact h.elim
  · trivial

theorem Api.deleteMessage_keepsOrder (messageId : Nat) (history : EffectHistory) :
    KeepsOrder (Api.deleteMessage messageId) history := by
  refine .perform trivial (fun found _ => ?_)
  cases found with
  | error e => exact .done trivial
  | ok message =>
      refine .perform trivial (fun unlinked _ => ?_)
      cases unlinked with
      | error e => exact .done trivial
      | ok =>
          refine .perform (by simp [DeletionOrder]) (fun cancelled _ => ?_)
          cases cancelled with
          | error e => exact .done trivial
          | ok =>
              refine .perform (by simp [DeletionOrder]) (fun deleted _ => ?_)
              cases deleted with
              | error e => exact .done trivial
              | ok => exact .done trivial

theorem MessageCall.keepsOrder (parse : MessageParser) (lettre : Api.Lettre) (call : MessageCall) :
    KeepsOrder (call.program parse lettre) [] := by
  cases call with
  | deleteMessage messageId =>
      exact Program.safe_bind (Api.deleteMessage_keepsOrder messageId [])
        (fun _ _ _ => .done trivial)
  | sendEmail body =>
      refine Program.safe_bind (keepsOrder_of_performs ?_) (fun _ _ _ => .done trivial)
      exact (Api.sendEmail_performs parse lettre body).mono (fun _ h => h.deletionOrder)
  | handleEmail handler data =>
      refine Program.safe_bind (keepsOrder_of_performs ?_) (fun _ _ _ => .done trivial)
      exact Program.performs_bind (deliver_performs parse _ data (fun _ h => h.deletionOrder)
        (fun _ h => h.deletionOrder)) (fun _ => .done)

/-! ## Interleavings -/

/-- A call has removed the received-mail links of the message and is still to delete it. -/
def HasRemovedInbounds (program : Prog Unit) (messageId : Nat) : Prop :=
  program.next? = some (.sql (.deleteOutboundsOfMessage messageId)) ∨
    program.next? = some (.sql (.deleteMessage messageId))

/-- A call has removed the jobs of the message and is still to delete it. -/
def HasRemovedOutbounds (program : Prog Unit) (messageId : Nat) : Prop :=
  program.next? = some (.sql (.deleteMessage messageId))

section Interleavings

variable {Thread : Type}

/-- A link is made only to a message that is stored and that no call is about to delete without
removing the link. -/
def LinksSettled (pool : Pool Thread Effect Answer Unit Db) (label : Thread × Statement.Fault) :
    Prop :=
  match (pool.program label.1).next?, label.2 with
  | some (.sql (.createInbound messageId _)), none =>
      (pool.store.messages.get? messageId).isSome ∧
        ∀ thread, ¬ HasRemovedInbounds (pool.program thread) messageId
  | some (.sql (.createOutbound job)), none =>
      (pool.store.messages.get? job.messageId).isSome ∧
        ∀ thread, ¬ HasRemovedOutbounds (pool.program thread) job.messageId
  | _, _ => True

/-- No link dangles, and what a call has removed has not come back. -/
structure LinksKept (pool : Pool Thread Effect Answer Unit Db) : Prop where
  noDangling : pool.store.NoDangling
  inbounds : ∀ thread messageId, HasRemovedInbounds (pool.program thread) messageId →
    ∀ link ∈ pool.store.inbounds.rows, link.messageId ≠ messageId
  outbounds : ∀ thread messageId, HasRemovedOutbounds (pool.program thread) messageId →
    ∀ job ∈ pool.store.outbounds.rows, job.messageId ≠ messageId

variable {pool next : Pool Thread Effect Answer Unit Db} {label : Thread × Statement.Fault}
  {effect : Effect} {resume : Answer effect → Prog Unit}

/-- An effect keeps every message but the one it deletes. -/
theorem message_of_execute (effect : Effect) (fault : Statement.Fault) {db : Db} {id : Nat}
    (hid : (db.messages.get? id).isSome) :
    ((effect.execute fault db).2.messages.get? id).isSome ∨ effect = .sql (.deleteMessage id) := by
  cases effect with
  | reply command accepted => exact .inl hid
  | sql statement =>
      rcases statement.change_of_execute fault db with hsame | hchange
      · rw [Effect.execute, hsame]
        exact .inl hid
      · rcases hchange.message hid with hkept | hdeleted
        · exact .inl hkept
        · exact .inr (congrArg Effect.sql hdeleted)

/-- A received-mail link after an allowed step was there, or it is a settled one. -/
theorem LinksSettled.inbound (h : LinksSettled pool label)
    (hprogram : pool.program label.1 = .perform effect resume) {link : Inbound}
    (hlink : link ∈ (effect.execute label.2 pool.store).2.inbounds.rows) :
    link ∈ pool.store.inbounds.rows ∨
      (pool.store.messages.get? link.messageId).isSome ∧
        (∃ rcptTo, effect = .sql (.createInbound link.messageId rcptTo)) ∧
        ∀ thread, ¬ HasRemovedInbounds (pool.program thread) link.messageId := by
  cases effect with
  | reply command accepted => exact .inl hlink
  | sql statement =>
      cases hfault : label.2 with
      | some text =>
          rw [hfault] at hlink
          exact .inl hlink
      | none =>
          rcases statement.change_of_execute label.2 pool.store with hsame | hchange
          · rw [Effect.execute, hsame] at hlink
            exact .inl hlink
          · rcases hchange.inbound hlink with hold | ⟨rcptTo, rfl⟩
            · exact .inl hold
            · simp only [LinksSettled, hprogram, hfault, Program.next?] at h
              exact .inr ⟨h.1, ⟨rcptTo, rfl⟩, h.2⟩

/-- A job after an allowed step was there, or it is a settled one. -/
theorem LinksSettled.outbound (h : LinksSettled pool label)
    (hprogram : pool.program label.1 = .perform effect resume) {job : Outbound}
    (hjob : job ∈ (effect.execute label.2 pool.store).2.outbounds.rows) :
    job ∈ pool.store.outbounds.rows ∨
      (pool.store.messages.get? job.messageId).isSome ∧
        (∃ created, effect = .sql (.createOutbound created)) ∧
        ∀ thread, ¬ HasRemovedOutbounds (pool.program thread) job.messageId := by
  cases effect with
  | reply command accepted => exact .inl hjob
  | sql statement =>
      cases hfault : label.2 with
      | some text =>
          rw [hfault] at hjob
          exact .inl hjob
      | none =>
          rcases statement.change_of_execute label.2 pool.store with hsame | hchange
          · rw [Effect.execute, hsame] at hjob
            exact .inl hjob
          · rcases hchange.outbound (Table.get?_of_mem hjob) with hold | ⟨created, rfl, hrow, -⟩
            · exact .inl (Table.mem_of_get? hold)
            · have hid : job.messageId = created.messageId := by rw [hrow]
              simp only [LinksSettled, hprogram, hfault, Program.next?] at h
              rw [hid]
              exact .inr ⟨h.1, ⟨created, rfl⟩, h.2⟩

/-- An allowed step leaves no link to a message that is not there. -/
theorem LinksKept.noDangling_execute (h : LinksKept pool) (hsettled : LinksSettled pool label)
    (hprogram : pool.program label.1 = .perform effect resume) :
    (effect.execute label.2 pool.store).2.NoDangling := by
  constructor
  · intro link hlink
    rcases hsettled.inbound hprogram hlink with hold | ⟨hstored, ⟨rcptTo, rfl⟩, -⟩
    · rcases message_of_execute effect label.2 (h.noDangling.inbounds link hold) with hkept | rfl
      · exact hkept
      · -- The call that deletes the message has removed this link.
        refine absurd rfl (h.inbounds label.1 link.messageId (.inr ?_) link hold)
        rw [hprogram, Program.next?]
    · rcases message_of_execute _ label.2 hstored with hkept | hdeleted
      · exact hkept
      · cases hdeleted
  · intro job hjob
    rcases hsettled.outbound hprogram hjob with hold | ⟨hstored, ⟨created, rfl⟩, -⟩
    · rcases message_of_execute effect label.2 (h.noDangling.outbounds job hold) with hkept | rfl
      · exact hkept
      · refine absurd rfl (h.outbounds label.1 job.messageId ?_ job hold)
        rw [HasRemovedOutbounds, hprogram, Program.next?]
    · rcases message_of_execute _ label.2 hstored with hkept | hdeleted
      · exact hkept
      · cases hdeleted

/-- An allowed step brings back no received-mail link that a call has removed. -/
theorem LinksKept.inbounds_execute (h : LinksKept pool) (hsettled : LinksSettled pool label)
    (hprogram : pool.program label.1 = .perform effect resume) {thread : Thread} {messageId : Nat}
    (hremoved : HasRemovedInbounds (pool.program thread) messageId) :
    ∀ link ∈ (effect.execute label.2 pool.store).2.inbounds.rows, link.messageId ≠ messageId := by
  intro link hlink
  rcases hsettled.inbound hprogram hlink with hold | ⟨-, -, hnone⟩
  · exact h.inbounds thread messageId hremoved link hold
  · intro heq
    obtain rfl := heq
    exact hnone thread hremoved

/-- An allowed step brings back no job that a call has removed. -/
theorem LinksKept.outbounds_execute (h : LinksKept pool) (hsettled : LinksSettled pool label)
    (hprogram : pool.program label.1 = .perform effect resume) {thread : Thread} {messageId : Nat}
    (hremoved : HasRemovedOutbounds (pool.program thread) messageId) :
    ∀ job ∈ (effect.execute label.2 pool.store).2.outbounds.rows, job.messageId ≠ messageId := by
  intro job hjob
  rcases hsettled.outbound hprogram hjob with hold | ⟨-, -, hnone⟩
  · exact h.outbounds thread messageId hremoved job hold
  · intro heq
    obtain rfl := heq
    exact hnone thread hremoved

variable [DecidableEq Thread]

/-- One allowed step of programs that keep to the order of deletion. -/
theorem LinksKept.step {trace moments : List (Moment Thread Effect Answer Db)}
    (h : LinksKept pool) (hsettled : LinksSettled pool label)
    (hstep : Pool.step Effect.execute pool label = some (moments, next))
    (horder : KeepsOrder (next.program label.1) (Pool.history label.1 (trace ++ moments))) :
    LinksKept next := by
  obtain ⟨effect, resume, hprogram, rfl, hstore, hprograms⟩ := Pool.step_eq_some hstep
  have hother : ∀ thread, thread ≠ label.1 → next.program thread = pool.program thread := by
    intro thread hne
    rw [hprograms, Function.update_of_ne hne]
  have hlast : (Pool.history label.1 (trace ++ [⟨label.1, effect,
      (effect.execute label.2 pool.store).1, pool.store⟩])).getLast? =
        some ⟨effect, (effect.execute label.2 pool.store).1⟩ := by
    rw [Pool.history_snoc_self _ (by rfl), List.getLast?_concat]
  -- The call that is about to delete the message has just removed its jobs.
  have hjobs : ∀ messageId, HasRemovedOutbounds (next.program label.1) messageId →
      effect = .sql (.deleteOutboundsOfMessage messageId) ∧
        ∀ job ∈ next.store.outbounds.rows, job.messageId ≠ messageId := by
    intro messageId hremoved
    have hrule := horder.next? hremoved
    simp only [DeletionOrder, hlast, Option.some.injEq] at hrule
    obtain ⟨rfl, hanswer⟩ := Sigma.mk.inj_iff.mp hrule
    rw [hstore]
    exact ⟨rfl, (Statement.change_of_answer (eq_of_heq hanswer)).outbounds_deleted⟩
  constructor
  · rw [hstore]
    exact h.noDangling_execute hsettled hprogram
  · intro thread messageId hremoved
    by_cases hthread : thread = label.1
    · subst thread
      rcases hremoved with hremoved | hremoved
      · have hrule := horder.next? hremoved
        simp only [DeletionOrder, hlast, Option.some.injEq] at hrule
        obtain ⟨rfl, hanswer⟩ := Sigma.mk.inj_iff.mp hrule
        rw [hstore]
        exact (Statement.change_of_answer (eq_of_heq hanswer)).inbounds_deleted
      · obtain ⟨rfl, -⟩ := hjobs messageId hremoved
        have hbefore : HasRemovedInbounds (pool.program label.1) messageId := by
          rw [hprogram]
          exact .inl rfl
        rw [hstore]
        exact h.inbounds_execute hsettled hprogram hbefore
    · rw [hother thread hthread] at hremoved
      rw [hstore]
      exact h.inbounds_execute hsettled hprogram hremoved
  · intro thread messageId hremoved
    by_cases hthread : thread = label.1
    · subst thread
      exact (hjobs messageId hremoved).2
    · rw [hother thread hthread] at hremoved
      rw [hstore]
      exact h.outbounds_execute hsettled hprogram hremoved

/-- The calls over a database. -/
def messagePool (parse : MessageParser) (lettre : Api.Lettre) (calls : Thread → MessageCall)
    (db : Db) : Pool Thread Effect Answer Unit Db :=
  ⟨db, fun thread => (calls thread).program parse lettre⟩

/-- In every interleaving of any number of calls that delete, send and receive messages, with any
faults, no link to a message that is not there is ever left, as long as every link is made to a
message that is stored and that no call is about to delete without removing the link. -/
theorem noDangling_of_run {parse : MessageParser} {lettre : Api.Lettre}
    {calls : Thread → MessageCall} {db : Db}
    {trace : List (Moment Thread Effect Answer Db)} {finish : Pool Thread Effect Answer Unit Db}
    (hstart : db.NoDangling)
    (hrun : Run (Pool.step Effect.execute) LinksSettled (messagePool parse lettre calls db) trace
      finish) :
    finish.store.NoDangling := by
  have hsafe : ∀ {trace finish},
      Run (Pool.step Effect.execute) LinksSettled (messagePool parse lettre calls db) trace
        finish →
      Pool.SafeRun Effect.execute (fun _ => True) (fun _ _ => True) (fun _ => DeletionOrder) trace
        finish :=
    fun hrun => Pool.safe_run (fun _ _ _ _ => trivial) (fun _ _ _ _ _ _ _ => trivial) trivial
      (fun thread => (calls thread).keepsOrder parse lettre) hrun
  suffices hkept : LinksKept finish from hkept.noDangling
  induction hrun with
  | refl =>
      -- A call begins with neither of the two deletions.
      have hnone : ∀ thread messageId, ¬ HasRemovedInbounds
          ((messagePool parse lettre calls db).program thread) messageId := by
        rintro thread messageId (hnext | hnext)
        · have hrule := ((calls thread).keepsOrder parse lettre).next? hnext
          simp [DeletionOrder] at hrule
        · have hrule := ((calls thread).keepsOrder parse lettre).next? hnext
          simp [DeletionOrder] at hrule
      exact ⟨hstart, fun thread messageId h => absurd h (hnone thread messageId),
        fun thread messageId h => absurd (.inr h) (hnone thread messageId)⟩
  | snoc label hrun hsettled hstep ih =>
      exact ih.step hsettled hstep ((hsafe (hrun.snoc label hsettled hstep)).threads label.1)

end Interleavings

/-- One stored message with a link. -/
def oneMessage : Db :=
  (((⟨["a@x.io"]⟩ : ZonedMailHandler).handleEmail sameId [1]).eval ⟨oneMailbox, []⟩).2.db

theorem noDangling_oneMessage : oneMessage.NoDangling := by
  constructor
  · intro link hlink
    have hrows : oneMessage.inbounds.rows = [⟨1, 1, "a@x.io"⟩] := rfl
    rw [hrows, List.mem_singleton] at hlink
    subst hlink
    rfl
  · intro job hjob
    cases hjob

/-- The message is deleted while it is received once more. -/
def deletedAndReceived : Bool → MessageCall
  | true => .deleteMessage 1
  | false => .handleEmail ⟨["a@x.io"]⟩ [1]

/-- The message is found and linked to before its links are removed: nothing dangles. -/
theorem noDangling_linkedBefore : ∃ trace finish,
    Run (Pool.step Effect.execute) LinksSettled
      (messagePool sameId plainLettre deletedAndReceived oneMessage) trace finish ∧
    (∀ thread, finish.program thread = .done ()) ∧
    finish.store.messages.rows = [] ∧ finish.store.NoDangling := by
  obtain ⟨trace, finish, hexecute, hsettled, hdone, hmessages⟩ : ∃ trace finish,
      execute (Pool.step Effect.execute)
        (messagePool sameId plainLettre deletedAndReceived oneMessage)
        [(false, none), (true, none), (false, none), (true, none), (true, none), (true, none),
          (false, none)] = some (trace, finish) ∧
      AllowedAlong (Pool.step Effect.execute) LinksSettled
        (messagePool sameId plainLettre deletedAndReceived oneMessage)
        [(false, none), (true, none), (false, none), (true, none), (true, none), (true, none),
          (false, none)] ∧
      (∀ thread, finish.program thread = .done ()) ∧ finish.store.messages.rows = [] := by
    refine ⟨_, _, rfl, ?_, ?_, rfl⟩
    · refine ⟨trivial, trivial, ⟨rfl, ?_⟩, trivial, trivial, trivial, trivial, trivial⟩
      rintro (_ | _) (h | h)
      all_goals cases h
    · rintro (_ | _)
      · rfl
      · rfl
  have hrun := execute_run_of_allowed hexecute hsettled
  exact ⟨trace, finish, hrun, hdone, hmessages, noDangling_of_run noDangling_oneMessage hrun⟩

/-- The message is found before its links are removed and linked to after that: when both calls have
ended the message is gone and the link is there. -/
theorem dangling_linkedAfter : oneMessage.NoDangling ∧ ∃ trace finish,
    Run (Pool.step Effect.execute) (fun _ _ => True)
      (messagePool sameId plainLettre deletedAndReceived oneMessage) trace finish ∧
    (∀ thread, finish.program thread = .done ()) ∧ ¬ finish.store.NoDangling := by
  refine ⟨noDangling_oneMessage, ?_⟩
  obtain ⟨trace, finish, hexecute, hdone, hmessages, hinbounds⟩ : ∃ trace finish,
      execute (Pool.step Effect.execute)
        (messagePool sameId plainLettre deletedAndReceived oneMessage)
        [(false, none), (true, none), (true, none), (false, none), (true, none), (true, none),
          (false, none)] = some (trace, finish) ∧
      (∀ thread, finish.program thread = .done ()) ∧
      finish.store.messages.get? 1 = none ∧
      finish.store.inbounds.rows = [⟨2, 1, "a@x.io"⟩] := by
    refine ⟨_, _, rfl, ?_, rfl, rfl⟩
    rintro (_ | _)
    · rfl
    · rfl
  refine ⟨trace, finish, execute_run hexecute, hdone, fun h => ?_⟩
  have hstored := h.inbounds ⟨2, 1, "a@x.io"⟩ (hinbounds ▸ List.mem_singleton_self _)
  rw [hmessages] at hstored
  cases hstored

end Zonemail
