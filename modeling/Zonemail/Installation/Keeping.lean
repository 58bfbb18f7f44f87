import Zonemail.Installation.Fates
import Zonemail.Installation.Origins

/-!
# What becomes of accepted mail

A session that accepts a payload has taken it over. `kept_of_accepted` says what that is worth in
any interleaving, with failures of the database at any statement: the payload is stored, or an
earlier message with its key was found; each recipient has a link to that message; message and link
are in the tables from then on until a request deletes them; and where the mailbox of the recipient
forwards, the forward was enqueued and is accounted for, unless the database failed at it.

`Handled` says it of the effects of one delivery, `safe_answers` of every session, and the run
lemmas follow what was written from there to the end.
-/

namespace Zonemail

open Library

/-! ## One delivery -/

/-- The effects hold the payload as this message, link it to each recipient, and enqueue its forward
wherever the mailbox of a recipient was found to forward. -/
structure Handled (parse : MessageParser) (payload : Bytes) (recipients : List String)
    (part : EffectHistory) (messageId : Nat) : Prop where
  holds : Holds parse payload part messageId
  linked : ∀ recipient ∈ recipients, ∃ link,
    ⟨.sql (.createInbound messageId recipient), .ok link⟩ ∈ part
  forwarded : ∀ recipient ∈ recipients, ∃ read, ⟨.sql (.getMailbox recipient), read⟩ ∈ part ∧
    ∀ mailbox forwardTo, read = .ok mailbox → mailbox.forwardTo = some forwardTo →
      ∃ enqueued, ⟨.sql (.createOutbound (newJob messageId recipient forwardTo)), enqueued⟩ ∈ part

section Delivery

variable {parse : MessageParser} {payload : Bytes} {part history : EffectHistory}
  {recipients : List String} {messageId : Nat}

/-- Links that were made without an error are one for each recipient. -/
theorem linked_of_after
    (h : Program.After (linkInbounds messageId recipients) part (.done (.ok ()))) :
    ∀ recipient ∈ recipients, ∃ link,
      ⟨.sql (.createInbound messageId recipient), .ok link⟩ ∈ part := by
  induction recipients generalizing part with
  | nil => simp
  | cons recipient rest ih =>
      cases h with
      | step answer h =>
          cases answer with
          | error e => cases h.of_done.2
          | ok link =>
              refine List.forall_mem_cons.mpr
                ⟨⟨link, List.mem_cons_self ..⟩, fun other hother => ?_⟩
              obtain ⟨link, hlink⟩ := ih h other hother
              exact ⟨link, List.mem_cons_of_mem _ hlink⟩

/-- A forward reads the mailbox, and enqueues a job when the mailbox forwards. -/
theorem forwarded_of_after {recipient : String}
    (h : Program.After (forward messageId recipient) part (.done ())) :
    ∃ read, ⟨.sql (.getMailbox recipient), read⟩ ∈ part ∧
      ∀ mailbox forwardTo, read = .ok mailbox → mailbox.forwardTo = some forwardTo →
        ∃ enqueued,
          ⟨.sql (.createOutbound (newJob messageId recipient forwardTo)), enqueued⟩ ∈ part := by
  cases h with
  | step read h =>
      refine ⟨read, List.mem_cons_self .., fun mailbox forwardTo hread hforward => ?_⟩
      obtain ⟨id, domainId, registered⟩ := mailbox
      subst hread hforward
      cases h with
      | step enqueued h => exact ⟨enqueued, List.mem_cons_of_mem _ (List.mem_cons_self ..)⟩

theorem allForwarded_of_after
    (h : Program.After (forwardAll messageId recipients) part (.done ())) :
    ∀ recipient ∈ recipients, ∃ read, ⟨.sql (.getMailbox recipient), read⟩ ∈ part ∧
      ∀ mailbox forwardTo, read = .ok mailbox → mailbox.forwardTo = some forwardTo →
        ∃ enqueued,
          ⟨.sql (.createOutbound (newJob messageId recipient forwardTo)), enqueued⟩ ∈ part := by
  induction recipients generalizing part with
  | nil => simp
  | cons recipient rest ih =>
      obtain ⟨first, second, _, rfl, hfirst, hsecond⟩ := h.of_bind
      refine List.forall_mem_cons.mpr ⟨?_, fun other hother => ?_⟩
      · obtain ⟨read, hread, hjobs⟩ := forwarded_of_after hfirst
        refine ⟨read, List.mem_append_left _ hread, fun mailbox forwardTo hok hforward => ?_⟩
        obtain ⟨enqueued, hmem⟩ := hjobs mailbox forwardTo hok hforward
        exact ⟨enqueued, List.mem_append_left _ hmem⟩
      · obtain ⟨read, hread, hjobs⟩ := ih hsecond other hother
        refine ⟨read, List.mem_append_right _ hread, fun mailbox forwardTo hok hforward => ?_⟩
        obtain ⟨enqueued, hmem⟩ := hjobs mailbox forwardTo hok hforward
        exact ⟨enqueued, List.mem_append_right _ hmem⟩

/-- A delivery that reports no error has handled its payload. -/
theorem handled_of_after
    (h : Program.After (deliver parse recipients payload) part (.done (.ok ()))) :
    ∃ messageId, Handled parse payload recipients part messageId := by
  obtain ⟨stored, rest, result, rfl, hstored, hrest⟩ := h.of_bind
  cases result with
  | error e => cases hrest.of_done.2
  | ok messageId =>
      obtain ⟨linked, forwarded, result, rfl, hlinked, hforwarded⟩ := hrest.of_bind
      cases result with
      | error e => cases hforwarded.of_done.2
      | ok =>
          obtain ⟨forwarded, last, _, rfl, hforwarded, hlast⟩ := hforwarded.of_bind
          have hsafe : (storeMessage (messageContent (parse payload) payload)).Safe
              (fun _ _ => True) (SessionMail parse [.data payload])
              (fun later result => ∀ id, result = .ok id → Holds parse payload later id) [] :=
            storeMessage_holds (List.mem_singleton_self _)
          have hholds := hsafe.of_after hstored (fun _ _ => trivial)
          refine ⟨messageId, (hholds messageId rfl).append _, fun recipient hrecipient => ?_,
            fun recipient hrecipient => ?_⟩
          · obtain ⟨link, hlink⟩ := linked_of_after hlinked recipient hrecipient
            exact ⟨link, by simp [hlink]⟩
          · obtain ⟨read, hread, hjobs⟩ := allForwarded_of_after hforwarded recipient hrecipient
            refine ⟨read, by simp [hread], fun mailbox forwardTo hok hforward => ?_⟩
            obtain ⟨enqueued, hmem⟩ := hjobs mailbox forwardTo hok hforward
            exact ⟨enqueued, by simp [hmem]⟩

end Delivery

/-! ## Every session -/

/-- No reply to a `DATA` is among the effects. -/
def Unanswered (part : EffectHistory) : Prop :=
  ∀ event ∈ part, ¬ RepliesTo SmtpCommand.isData event.1

/-- A payload is accepted once it was handled, after the last reply to a `DATA`. -/
def AnswerRule (parse : MessageParser) (history : EffectHistory) : Effect → Prop
  | .reply (.data payload) true => ∃ front part messageId, history = front ++ part ∧
      Unanswered part ∧ Handled parse payload (storedFor (pending history)) part messageId
  | _ => True

/-- The effect is a statement. -/
def Effect.IsSql (effect : Effect) : Prop := ∃ statement, effect = .sql statement

section Sessions

variable {parse : MessageParser} {history part : EffectHistory}

theorem Effect.isSql_of {allowed : Effect → Prop} {effect : Effect} (h : allowed effect)
    (hreply : ∀ command accepted, ¬ allowed (.reply command accepted)) : effect.IsSql := by
  cases effect with
  | sql statement => exact ⟨statement, rfl⟩
  | reply command accepted => exact absurd h (hreply command accepted)

theorem answerRule_of_sql (history : EffectHistory) (effect : Effect) (h : effect.IsSql) :
    AnswerRule parse history effect := by
  obtain ⟨statement, rfl⟩ := h
  trivial

theorem unanswered_of_sql (h : ∀ event ∈ part, Effect.IsSql event.1) : Unanswered part := by
  intro event hevent hreplies
  obtain ⟨statement, hsql⟩ := h event hevent
  rw [hsql] at hreplies
  exact hreplies

/-- Statements accept no recipient. -/
theorem pending_append_of_sql (h : ∀ event ∈ part, Effect.IsSql event.1) :
    pending (history ++ part) = pending history := by
  induction part generalizing history with
  | nil => rw [List.append_nil]
  | cons event rest ih =>
      obtain ⟨hevent, hrest⟩ := List.forall_mem_cons.mp h
      obtain ⟨effect, answer⟩ := event
      obtain ⟨statement, rfl⟩ := hevent
      rw [List.append_cons, ih hrest, pending_sql]

/-- A delivery sends statements only. -/
theorem deliver_sql (parse : MessageParser) (recipients : List String) (payload : Bytes) :
    (deliver parse recipients payload).Performs Effect.IsSql :=
  deliver_performs parse recipients payload (fun _ h => Effect.isSql_of h (fun _ _ h => h))
    (fun _ h => Effect.isSql_of h (fun _ _ h => h))

/-- A command obeys the rule and leaves the handler with the recipients accepted since the last
`DATA`. -/
theorem safe_answer {handler : ZonedMailHandler} (command : SmtpCommand)
    (hpending : pending history = handler.recipients) :
    (handler.command parse command).Safe (fun _ _ => True) (AnswerRule parse)
      (fun later next => pending later = next.recipients) history := by
  cases command with
  | mailFrom path | rset =>
      refine .perform trivial (fun answer _ => .done ?_)
      rw [pending_reply]
      exact hpending
  | rcptTo path =>
      refine .perform trivial (fun answer _ => ?_)
      cases answer with
      | error e =>
          refine .perform trivial (fun answer _ => .done ?_)
          rw [pending_reply, pending_sql]
          exact hpending
      | ok mailbox =>
          refine .perform trivial (fun answer _ => .done ?_)
          rw [pending_reply, pending_sql, hpending]
          rfl
  | data payload =>
      have hdeliver := deliver_sql parse (storedFor handler.recipients) payload
      have hemail : (handler.handleEmail parse payload).Safe (fun _ _ => True) (AnswerRule parse)
          (fun later result => result.2.recipients = [] ∧
            AnswerRule parse later (.reply (.data payload) (accepted result.1))) history := by
        refine Program.safe_bind (hdeliver.safe_after answerRule_of_sql)
          (fun later result hresult => .done ⟨rfl, ?_⟩)
        obtain ⟨part, rfl, hafter⟩ := hresult
        cases result with
        | error e => trivial
        | ok =>
            have hpart := hdeliver.of_after hafter
            obtain ⟨messageId, hhandled⟩ := handled_of_after hafter
            refine ⟨history, part, messageId, rfl, unanswered_of_sql hpart, ?_⟩
            rw [pending_append_of_sql hpart, hpending]
            exact hhandled
      refine Program.safe_bind hemail (fun later result hresult => ?_)
      refine .perform hresult.2 (fun answer _ => .done ?_)
      rw [pending_reply, hresult.1]
      rfl

theorem safe_answers {handler : ZonedMailHandler} (commands : List SmtpCommand)
    (hpending : pending history = handler.recipients) :
    (handler.session parse commands).Safe (fun _ _ => True) (AnswerRule parse) (fun _ _ => True)
      history := by
  induction commands generalizing handler history with
  | nil => exact .done trivial
  | cons command rest ih =>
      exact Program.safe_bind (safe_answer command hpending) (fun later next hnext => ih hnext)

/-- Every task obeys the rule: requests and seeding reply to no command. -/
theorem Task.safe_answers (lettre : Api.Lettre) (task : Task) :
    (task.program parse lettre).Safe (fun _ _ => True) (AnswerRule parse) (fun _ _ => True) [] := by
  have hplain {program : Prog Unit} (h : program.Performs Effect.IsSql) :
      program.Safe (fun _ _ => True) (AnswerRule parse) (fun _ _ => True) [] :=
    h.safe trivial (fun history effect _ heffect => answerRule_of_sql history effect heffect)
      (fun _ _ _ _ _ => trivial)
  cases task with
  | seed config =>
      exact hplain (Program.performs_bind ((seedFromConfig_performs config).mono
        (fun _ h => Effect.isSql_of h (fun _ _ h => h))) (fun _ => .done))
  | request request =>
      exact hplain (Program.performs_bind ((Api.handle_performs parse lettre request).mono
        (fun _ h => Effect.isSql_of h (fun _ _ h => h))) (fun _ => .done))
  | session commands => exact Zonemail.safe_answers commands rfl

end Sessions

/-! ## From a delivery to the end of a run -/

variable {Worker Thread : Type}

/-- The effect deletes the link: with its message, with the mailbox it names, or with the domain of
that mailbox. -/
def Unlinks (link : Inbound) (moment : Moment Thread Effect Answer (System Worker)) : Prop :=
  match moment.effect with
  | .sql (.deleteInboundsOfMessage messageId) => messageId = link.messageId
  | .sql (.deleteMailbox id) => id = link.rcptTo
  | .sql (.deleteDomain id) =>
      ∃ mailbox, moment.before.db.mailboxes.get? link.rcptTo = some mailbox ∧ mailbox.domainId = id
  | _ => False

/-- The effect deletes the message. -/
def Discards (message : Message) (moment : Moment Thread Effect Answer (System Worker)) : Prop :=
  moment.effect = .sql (.deleteMessage message.id)

/-- A deletion of mailboxes keeps the links of the other recipients. -/
theorem Db.mem_inbounds_removeMailboxes {db : Db} {condition : Mailbox → Bool} {link : Inbound}
    (h : link ∈ db.inbounds.rows) :
    link ∈ (db.removeMailboxes condition).inbounds.rows ∨
      ∃ mailbox ∈ db.mailboxes.rows, condition mailbox = true ∧ mailbox.id = link.rcptTo := by
  by_cases hrecipient : link.rcptTo ∈ (db.mailboxes.select condition).map Mailbox.id
  · obtain ⟨mailbox, hmailbox, hid⟩ := List.mem_map.mp hrecipient
    obtain ⟨hmem, hcondition⟩ := List.mem_filter.mp hmailbox
    exact .inr ⟨mailbox, hmem, hcondition, hid⟩
  · exact .inl (List.mem_filter.mpr ⟨h, by simpa using hrecipient⟩)

/-- A statement keeps a link unless it deletes it. -/
theorem Statement.Change.keepsLink {statement : Statement} {system : System Worker} {after : Db}
    {answer : Except DbError statement.Value} {thread : Thread} {link : Inbound}
    (h : Change system.db statement after) (hlink : link ∈ system.db.inbounds.rows) :
    Unlinks link ⟨thread, .sql statement, answer, system⟩ ∨ link ∈ after.inbounds.rows := by
  cases h with
  | @deleteInboundsOfMessage messageId =>
      by_cases hmessage : link.messageId = messageId
      · exact .inl hmessage.symm
      · exact .inr (List.mem_filter.mpr ⟨hlink, by simpa using hmessage⟩)
  | @deleteMailbox mailboxId =>
      rcases Db.mem_inbounds_removeMailboxes hlink with hkept | ⟨mailbox, -, hcondition, hid⟩
      · exact .inr hkept
      · have hmailbox : mailbox.id = mailboxId := by simpa using hcondition
        exact .inl (hmailbox.symm.trans hid)
  | @deleteDomain domainId =>
      unfold Db.removeDomain
      split
      · exact .inr hlink
      · rcases Db.mem_inbounds_removeMailboxes hlink with hkept | ⟨mailbox, hmem, hcondition, hid⟩
        · exact .inr hkept
        · refine .inl ⟨mailbox, ?_, by simpa using hcondition⟩
          rw [← hid]
          exact Table.get?_of_mem hmem
  | createInbound => exact .inr (List.mem_append_left _ hlink)
  | _ => exact .inr hlink

/-- A statement keeps a message unless it deletes it. -/
theorem Statement.Change.keepsMessage {statement : Statement} {system : System Worker} {after : Db}
    {answer : Except DbError statement.Value} {thread : Thread} {message : Message}
    (h : Change system.db statement after) (hmessage : message ∈ system.db.messages.rows) :
    Discards message ⟨thread, .sql statement, answer, system⟩ ∨ message ∈ after.messages.rows := by
  cases h with
  | @deleteMessage id =>
      by_cases hid : message.id = id
      · exact .inl (by rw [Discards, hid])
      · exact .inr (List.mem_filter.mpr ⟨hmessage, by simpa using hid⟩)
  | deleteDomain =>
      unfold Db.removeDomain
      split <;> exact .inr hmessage
  | createMessage => exact .inr (List.mem_append_left _ hmessage)
  | _ => exact .inr hmessage

/-- A link that was created is in the table, under the names it was created with. -/
theorem Statement.mem_of_createInbound {messageId : Nat} {rcptTo : String} {fault : Fault} {db : Db}
    {link : Inbound} (h : ((createInbound messageId rcptTo).execute fault db).1 = .ok link) :
    link ∈ ((createInbound messageId rcptTo).execute fault db).2.inbounds.rows ∧
      link.messageId = messageId ∧ link.rcptTo = rcptTo := by
  cases fault with
  | some text => cases h
  | none =>
      cases h
      exact ⟨List.mem_append_right _ (List.mem_singleton_self _), rfl, rfl⟩

/-- A message that was created is in the table. -/
theorem Statement.mem_of_createMessage {content : MessageContent} {fault : Fault} {db : Db}
    {message : Message} (h : ((createMessage content).execute fault db).1 = .ok message) :
    message ∈ ((createMessage content).execute fault db).2.messages.rows ∧
      message.toMessageContent = content := by
  obtain ⟨rfl, hrows⟩ := execute_createMessage h
  rw [hrows]
  exact ⟨List.mem_append_right _ (List.mem_singleton_self _), rfl⟩

section Runs

variable [DecidableEq Worker] [DecidableEq Thread]

/-- A thread did this in the transaction that the trace ends in; what has happened since is
`rest`. -/
def During (thread : Thread) (trace : List (Happening Worker Thread)) (effect : Effect)
    (answer : Answer effect) (rest : List (Happening Worker Thread)) : Prop :=
  (∃ front before, trace = front ++ .inl ⟨thread, effect, answer, before⟩ :: rest) ∧
    Unanswered (Pool.history thread (Pool.moments rest))

/-- The payload was stored as this message, or the message was found under the key of the payload;
and it is in the table unless it was deleted since. -/
def MessageKept (parse : MessageParser) (payload : Bytes) (thread : Thread)
    (earlier later : List (Happening Worker Thread)) (db : Db) (message : Message) : Prop :=
  ∃ rest, ((During thread earlier (.sql (.createMessage (messageContent (parse payload) payload)))
        (.ok message) rest ∧ message.toMessageContent = messageContent (parse payload) payload) ∨
      ∃ key, dedupKey (messageContent (parse payload) payload) = some key ∧
        During thread earlier (.sql (.firstMessageWithHeader key)) (.ok (some message)) rest ∧
        message.messageIdHeader = some key) ∧
    ((∃ moment, .inl moment ∈ rest ++ later ∧ Discards message moment) ∨
      message ∈ db.messages.rows)

/-- The recipient was linked to the message, and the link is in the table unless it was deleted
since. -/
def LinkKept (thread : Thread) (earlier later : List (Happening Worker Thread)) (db : Db)
    (messageId : Nat) (recipient : String) : Prop :=
  ∃ link rest, During thread earlier (.sql (.createInbound messageId recipient)) (.ok link) rest ∧
    link.messageId = messageId ∧ link.rcptTo = recipient ∧
    ((∃ moment, .inl moment ∈ rest ++ later ∧ Unlinks link moment) ∨ link ∈ db.inbounds.rows)

/-- The mailbox of the recipient was read, and if it was found to forward, the forward was enqueued;
a job that this created is accounted for. -/
def ForwardKept (ctx : Worker → Context) (trace : List (Happening Worker Thread)) (thread : Thread)
    (earlier later : List (Happening Worker Thread)) (db : Db) (messageId : Nat)
    (recipient : String) : Prop :=
  ∃ read rest, During thread earlier (.sql (.getMailbox recipient)) read rest ∧
    ∀ mailbox forwardTo, read = .ok mailbox → mailbox.forwardTo = some forwardTo →
      ∃ enqueued rest, During thread earlier
          (.sql (.createOutbound (newJob messageId recipient forwardTo))) enqueued rest ∧
        ∀ created, enqueued = .ok created →
          (∃ moment, .inl moment ∈ rest ++ later ∧
            Removes (newJob messageId recipient forwardTo) moment) ∨
          ∃ row, db.outbounds.get? created.id = some row ∧
            row.IsOf (newJob messageId recipient forwardTo) ∧ Fate ctx trace row

variable {ctx : Worker → Context} {parse : MessageParser} {lettre : Api.Lettre}
  {task : Thread → Task} {trace earlier later rest : List (Happening Worker Thread)}
  {finish : Installation Worker Thread} {thread : Thread} {payload : Bytes}
  {event : Happening Worker Thread}

omit [DecidableEq Worker] in
/-- What the history of a thread holds since its last reply to a `DATA` was done during the
transaction. -/
theorem exists_during {front part : EffectHistory} {effect : Effect} {answer : Answer effect}
    (hhistory : Pool.history thread (Pool.moments trace) = front ++ part)
    (hpart : Unanswered part) (hmem : ⟨effect, answer⟩ ∈ part) :
    ∃ rest, During thread trace effect answer rest := by
  obtain ⟨first, second, rfl⟩ := List.append_of_mem hmem
  rw [← List.append_assoc] at hhistory
  obtain ⟨start, moment, rest, rfl, rfl, hevent, hsecond⟩ := Pool.exists_split_of_history hhistory
  obtain ⟨thread, performed, given, before⟩ := moment
  cases hevent
  refine ⟨rest, ⟨start, before, rfl⟩, ?_⟩
  rw [hsecond]
  exact fun event hevent => hpart event
    (List.mem_append_right _ (List.mem_cons_of_mem _ hevent))

omit [DecidableEq Worker] in
/-- The effect of a transaction stands in the whole trace with what came after it. -/
theorem During.split {effect : Effect} {answer : Answer effect}
    (h : During thread earlier effect answer rest) (htrace : trace = earlier ++ event :: later) :
    ∃ front before,
      trace = front ++ .inl ⟨thread, effect, answer, before⟩ :: (rest ++ event :: later) := by
  obtain ⟨⟨front, before, rfl⟩, -⟩ := h
  exact ⟨front, before, by simp [htrace]⟩

omit [DecidableEq Worker] [DecidableEq Thread] in
/-- A reply undoes nothing, so that what was undone was undone by another event. -/
theorem exists_undoing {undoes : Moment Thread Effect Answer (System Worker) → Prop}
    {reply : Moment Thread Effect Answer (System Worker)} (hreply : ¬ undoes reply)
    (h : ∃ moment, .inl moment ∈ rest ++ .inl reply :: later ∧ undoes moment) :
    ∃ moment, .inl moment ∈ rest ++ later ∧ undoes moment := by
  obtain ⟨moment, hmem, hundoes⟩ := h
  refine ⟨moment, ?_, hundoes⟩
  rcases List.mem_append.mp hmem with hrest | hlater
  · exact List.mem_append_left _ hrest
  · rcases List.mem_cons.mp hlater with heq | hlater
    · exact absurd (Sum.inl.inj heq ▸ hundoes) hreply
    · exact List.mem_append_right _ hlater

variable (hrun : Run (Installation.step ctx) (fun _ _ => True)
    (installation parse lettre task) trace finish)
  {before : System Worker}
  (htrace : trace = earlier ++ .inl ⟨thread, .reply (.data payload) true, (), before⟩ :: later)

include hrun htrace

/-- In every interleaving a session that accepts a payload has handled it. -/
theorem answered_of_run :
    AnswerRule parse (Pool.history thread (Pool.moments earlier))
      (.reply (.data payload) true) := by
  have hmove : ∀ (system : System Worker) (label : Worker × Input) (events : List (Turn Worker))
      (next : System Worker), True → system.turn ctx label = some (events, next) → True :=
    fun _ _ _ _ _ _ => trivial
  have hobeys : Pool.Obeys System.perform (fun _ _ => True) (fun _ => AnswerRule parse) trace
      finish :=
    (Pool.obeys_amid (fun _ _ _ _ => trivial) (fun _ _ _ _ _ _ _ => trivial) hmove trivial
      (fun thread => Task.safe_answers lettre (task thread)) hrun).2
  exact (hobeys.performed _ _ _ htrace).1

/-- An effect of the transaction lasts to the end of the run unless it was undone since. -/
theorem lasts_of_during (stays : Db → Prop)
    (undoes : Moment Thread Effect Answer (System Worker) → Prop) {effect : Effect}
    {answer : Answer effect} (h : During thread earlier effect answer rest)
    (hthread : ∀ thread statement answer (system : System Worker) after, stays system.db →
      Statement.Change system.db statement after →
      undoes ⟨thread, .sql statement, answer, system⟩ ∨ stays after)
    (hworker : ∀ worker db input before actions after next, stays db →
      Control.Move (ctx worker) db before input actions after next → stays next)
    (hreply : ∀ command accepted before, ¬ undoes ⟨thread, .reply command accepted, (), before⟩)
    (heffect : ∀ fault db, (effect.execute fault db).1 = answer →
      stays (effect.execute fault db).2) :
    (∃ moment, .inl moment ∈ rest ++ later ∧ undoes moment) ∨ stays finish.store.db := by
  obtain ⟨front, met, hsplit⟩ := h.split htrace
  exact (Installation.lasts_of_run stays undoes hthread hworker hrun hsplit
    (fun fault => heffect fault met.db)).imp_left (exists_undoing (hreply _ _ _))

omit htrace in
/-- The database answered the effect as the transaction has it. -/
theorem answer_of_during {effect : Effect} {answer : Answer effect}
    (h : During thread earlier effect answer rest) (htrace : trace = earlier ++ event :: later) :
    ∃ fault, ∃ db : Db, (effect.execute fault db).1 = answer := by
  obtain ⟨front, met, hsplit⟩ := h.split htrace
  obtain ⟨fault, hanswer⟩ := Installation.answer_of_run hrun hsplit
  exact ⟨fault, met.db, hanswer⟩

/-- The message that the transaction stored or found is kept. -/
theorem messageKept_of_run {front part : EffectHistory} {messageId : Nat}
    (hhistory : Pool.history thread (Pool.moments earlier) = front ++ part)
    (hpart : Unanswered part) (hholds : Holds parse payload part messageId) :
    ∃ message : Message, message.id = messageId ∧
      MessageKept parse payload thread earlier later finish.store.db message := by
  have hlasts {effect : Effect} {answer : Answer effect} {message : Message}
      {rest : List (Happening Worker Thread)} (h : During thread earlier effect answer rest)
      (heffect : ∀ fault db, (effect.execute fault db).1 = answer →
        message ∈ (effect.execute fault db).2.messages.rows) :=
    lasts_of_during hrun htrace (fun db => message ∈ db.messages.rows) (Discards message) h
      (fun thread statement answer system after hstays hchange => hchange.keepsMessage hstays)
      (fun worker db input before actions after next hstays hmove =>
        hmove.frame.2.1 ▸ hstays)
      (fun command accepted before hundoes => by cases hundoes) heffect
  rcases hholds with ⟨message, hmem, hid⟩ | ⟨key, message, hkey, hmem, hid⟩
  · obtain ⟨rest, hduring⟩ := exists_during hhistory hpart hmem
    obtain ⟨fault, db, hanswer⟩ := answer_of_during hrun hduring htrace
    exact ⟨message, hid, rest, .inl ⟨hduring, (Statement.mem_of_createMessage hanswer).2⟩,
      hlasts hduring (fun fault db hanswer => (Statement.mem_of_createMessage hanswer).1)⟩
  · obtain ⟨rest, hduring⟩ := exists_during hhistory hpart hmem
    obtain ⟨fault, db, hanswer⟩ := answer_of_during hrun hduring htrace
    refine ⟨message, hid, rest,
      .inr ⟨key, hkey, hduring, (Statement.execute_firstMessageWithHeader hanswer).2⟩,
      hlasts hduring (fun fault db hanswer => ?_)⟩
    have hreads : (Statement.firstMessageWithHeader key).Reads := trivial
    rw [Effect.execute, Statement.execute_of_reads hreads]
    exact (Statement.execute_firstMessageWithHeader hanswer).1

/-- The link that the transaction made is kept. -/
theorem linkKept_of_run {front part : EffectHistory} {messageId : Nat} {recipient : String}
    {link : Inbound} (hhistory : Pool.history thread (Pool.moments earlier) = front ++ part)
    (hpart : Unanswered part)
    (hlink : ⟨.sql (.createInbound messageId recipient), .ok link⟩ ∈ part) :
    LinkKept thread earlier later finish.store.db messageId recipient := by
  obtain ⟨rest, hduring⟩ := exists_during hhistory hpart hlink
  obtain ⟨fault, db, hanswer⟩ := answer_of_during hrun hduring htrace
  obtain ⟨-, hmessage, hrecipient⟩ := Statement.mem_of_createInbound hanswer
  refine ⟨link, rest, hduring, hmessage, hrecipient, ?_⟩
  exact lasts_of_during hrun htrace (fun db => link ∈ db.inbounds.rows) (Unlinks link) hduring
    (fun thread statement answer system after hstays hchange => hchange.keepsLink hstays)
    (fun worker db input before actions after next hstays hmove => hmove.frame.2.2 ▸ hstays)
    (fun command accepted before hundoes => hundoes)
    (fun fault db hanswer => (Statement.mem_of_createInbound hanswer).1)

/-- The forward that the transaction enqueued is accounted for. -/
theorem forwardKept_of_run {front part : EffectHistory} {messageId : Nat} {recipient : String}
    {read : Except DbError Mailbox}
    (hhistory : Pool.history thread (Pool.moments earlier) = front ++ part)
    (hpart : Unanswered part) (hread : ⟨.sql (.getMailbox recipient), read⟩ ∈ part)
    (hjobs : ∀ mailbox forwardTo, read = .ok mailbox → mailbox.forwardTo = some forwardTo →
      ∃ enqueued,
        ⟨.sql (.createOutbound (newJob messageId recipient forwardTo)), enqueued⟩ ∈ part) :
    ForwardKept ctx trace thread earlier later finish.store.db messageId recipient := by
  obtain ⟨rest, hduring⟩ := exists_during hhistory hpart hread
  refine ⟨read, rest, hduring, fun mailbox forwardTo hok hforward => ?_⟩
  obtain ⟨enqueued, hmem⟩ := hjobs mailbox forwardTo hok hforward
  obtain ⟨rest, hduring⟩ := exists_during hhistory hpart hmem
  refine ⟨enqueued, rest, hduring, fun created hcreated => ?_⟩
  subst hcreated
  obtain ⟨start, met, hsplit⟩ := hduring.split htrace
  rcases kept_of_run hrun hsplit with hremoved | ⟨row, hrow, hjob⟩
  · refine .inl (exists_undoing ?_ hremoved)
    exact fun hremoves => hremoves
  · exact .inr ⟨row, hrow, hjob, ((records_of_run hrun).rows _ row hrow).fate⟩

end Runs

/-- Accepted mail is kept: in every interleaving, and whatever fails, a payload that a session
accepted is in the tables as a message that is linked to each of its recipients, until a request
deletes it, and its forwards are accounted for. -/
theorem kept_of_accepted [DecidableEq Worker] [DecidableEq Thread] (ctx : Worker → Context)
    (parse : MessageParser) (lettre : Api.Lettre) (task : Thread → Task)
    {trace earlier later : List (Happening Worker Thread)} {finish : Installation Worker Thread}
    {thread : Thread} {payload : Bytes} {before : System Worker}
    (hrun : Run (Installation.step ctx) (fun _ _ => True) (installation parse lettre task) trace
      finish)
    (htrace : trace = earlier ++ .inl ⟨thread, .reply (.data payload) true, (), before⟩ :: later) :
    ∃ message, MessageKept parse payload thread earlier later finish.store.db message ∧
      ∀ recipient ∈ storedFor (pending (Pool.history thread (Pool.moments earlier))),
        LinkKept thread earlier later finish.store.db message.id recipient ∧
        ForwardKept ctx trace thread earlier later finish.store.db message.id recipient := by
  obtain ⟨front, part, messageId, hhistory, hpart, hhandled⟩ := answered_of_run hrun htrace
  obtain ⟨message, rfl, hmessage⟩ := messageKept_of_run hrun htrace hhistory hpart hhandled.holds
  refine ⟨message, hmessage, fun recipient hrecipient => ⟨?_, ?_⟩⟩
  · obtain ⟨link, hlink⟩ := hhandled.linked recipient hrecipient
    exact linkKept_of_run hrun htrace hhistory hpart hlink
  · obtain ⟨read, hread, hjobs⟩ := hhandled.forwarded recipient hrecipient
    exact forwardKept_of_run hrun htrace hhistory hpart hread hjobs

/-- After `relaySteps` the payload is stored, and its forward is delivered. -/
theorem kept_of_accepted_relayed : ∃ trace finish earlier later before message row,
    Run (Installation.step (fun _ => defaultContext)) (fun _ _ => True) relayInstallation trace
      finish ∧
    trace = earlier ++ .inl ⟨true, .reply (.data [1]) true, (), before⟩ :: later ∧
    finish.store.db.messages.rows = [message] ∧ finish.store.db.outbounds.rows = [row] ∧
    storedFor (pending (Pool.history true (Pool.moments earlier))) = ["a@x.io"] ∧
    ∃ kept, MessageKept (fun _ => none) [1] true earlier later finish.store.db kept ∧
      LinkKept true earlier later finish.store.db kept.id "a@x.io" ∧
      ForwardKept (fun _ => defaultContext) trace true earlier later finish.store.db kept.id
        "a@x.io" := by
  obtain ⟨earlier, later, finish, before, message, row, hexecute, hmessages, hrows, hpending⟩ :
      ∃ earlier later finish before message row,
        execute (Installation.step (fun _ => defaultContext)) relayInstallation relaySteps =
          some (earlier ++ .inl ⟨true, .reply (.data [1]) true, (), before⟩ :: later, finish) ∧
        finish.store.db.messages.rows = [message] ∧ finish.store.db.outbounds.rows = [row] ∧
        storedFor (pending (Pool.history true (Pool.moments earlier))) = ["a@x.io"] :=
    ⟨[_, _, _, _, _, _, _, _, _, _], _, _, _, _, _, rfl, rfl, rfl, by decide⟩
  have hrun := execute_run hexecute
  obtain ⟨kept, hmessage, hrecipients⟩ := kept_of_accepted (fun _ => defaultContext)
    (fun _ => none) plainLettre relayTasks hrun rfl
  obtain ⟨hlink, hforward⟩ := hrecipients "a@x.io" (hpending ▸ List.mem_singleton_self _)
  exact ⟨_, finish, earlier, later, before, message, row, hrun, rfl, hmessages, hrows, hpending,
    kept, hmessage, hlink, hforward⟩

end Zonemail
