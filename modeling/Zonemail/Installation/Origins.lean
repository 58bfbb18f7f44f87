import Zonemail.Api.Footprints
import Zonemail.Installation.Machine

/-!
# Where sent mail comes from

What a worker hands to a host was asked for: by a request to send, whose message it is, or by a
session that delivered a payload to a forwarding mailbox. `sent_as_asked` follows a hand-off back
through the worker, the job and the message to the effects of the threads that stored them, in any
interleaving. The bytes are those that were stored; for a forward they may be those of an earlier
copy under the same `Message-ID`, which the session found in place of its own payload.

Numbers of messages are never given out twice (`Log.unique`), so the number in a job names the one
message that its thread stored or found.
-/

namespace Zonemail

open Library

/-! ## What the tasks store -/

/-- The message was stored under this number. -/
def StoredAs (history : EffectHistory) (content : MessageContent) (id : Nat) : Prop :=
  ∃ message : Message, ⟨.sql (.createMessage content), .ok message⟩ ∈ history ∧ message.id = id

/-- The payload was stored under this number, or a message with its key was found there. -/
def Holds (parse : MessageParser) (payload : Bytes) (history : EffectHistory) (id : Nat) : Prop :=
  StoredAs history (messageContent (parse payload) payload) id ∨
    ∃ key message, dedupKey (messageContent (parse payload) payload) = some key ∧
      ⟨.sql (.firstMessageWithHeader key), .ok (some message)⟩ ∈ history ∧ message.id = id

/-- What a session may store and forward. -/
def SessionMail (parse : MessageParser) (commands : List SmtpCommand) (history : EffectHistory) :
    Effect → Prop
  | .sql (.createMessage content) =>
      ∃ payload, .data payload ∈ commands ∧ content = messageContent (parse payload) payload
  | .sql (.createOutbound job) =>
      ∃ payload, .data payload ∈ commands ∧ Holds parse payload history job.messageId
  | _ => True

/-- What a request to send may store and enqueue. -/
def SendMail (parse : MessageParser) (lettre : Api.Lettre) (email : Api.SendEmail)
    (history : EffectHistory) : Effect → Prop
  | .sql (.createMessage content) =>
      ∃ message, Api.buildSendMessage lettre email = .ok message ∧
        content = sentContent parse message
  | .sql (.createOutbound job) =>
      job.senderId = email.sender ∧ job.rcptTo ∈ email.recipients ∧
        ∃ message, Api.buildSendMessage lettre email = .ok message ∧
          StoredAs history (sentContent parse message) job.messageId
  | _ => True

/-- The effect stores no message and enqueues no job. -/
def NoMail : Effect → Prop
  | .sql (.createMessage _) | .sql (.createOutbound _) => False
  | _ => True

/-- The effect stores no message, and a job it enqueues is for this one. -/
def ForwardEffect (id : Nat) : Effect → Prop
  | .sql (.createMessage _) => False
  | .sql (.createOutbound job) => job.messageId = id
  | _ => True

/-- What a task may store and enqueue. -/
def Task.MailRule (parse : MessageParser) (lettre : Api.Lettre) (task : Task)
    (history : EffectHistory) (effect : Effect) : Prop :=
  match task with
  | .session commands => SessionMail parse commands history effect
  | .request (.sendEmail (some email)) => SendMail parse lettre email history effect
  | .request _ | .seed _ => NoMail effect

section Tasks

variable {parse : MessageParser} {lettre : Api.Lettre} {payload : Bytes} {history : EffectHistory}
  {commands : List SmtpCommand} {id : Nat}

theorem StoredAs.append {content : MessageContent} (h : StoredAs history content id)
    (later : EffectHistory) : StoredAs (history ++ later) content id := by
  obtain ⟨message, hmem, hid⟩ := h
  exact ⟨message, List.mem_append_left _ hmem, hid⟩

theorem storedAs_snoc (history : EffectHistory) (content : MessageContent) (message : Message) :
    StoredAs (history ++ [⟨.sql (.createMessage content), .ok message⟩]) content message.id :=
  ⟨message, List.mem_append_right _ (List.mem_singleton_self _), rfl⟩

theorem Holds.append (h : Holds parse payload history id) (later : EffectHistory) :
    Holds parse payload (history ++ later) id := by
  rcases h with hstored | ⟨key, message, hkey, hmem, hid⟩
  · exact .inl (hstored.append later)
  · exact .inr ⟨key, message, hkey, List.mem_append_left _ hmem, hid⟩

/-- Storing a payload yields the number it is held under. -/
theorem storeMessage_holds (hmem : .data payload ∈ commands) :
    (storeMessage (messageContent (parse payload) payload)).Safe (fun _ _ => True)
      (SessionMail parse commands)
      (fun later result => ∀ id, result = .ok id → Holds parse payload later id) history := by
  have hfind : (findDuplicate (messageContent (parse payload) payload)).Safe (fun _ _ => True)
      (SessionMail parse commands)
      (fun later found => ∀ id, found = some id → Holds parse payload later id) history := by
    unfold findDuplicate
    split
    · exact .done (fun id h => by cases h)
    · rename_i key hkey
      refine .perform trivial (fun answer _ => .done (fun id hid => ?_))
      unfold foundId at hid
      split at hid
      · rename_i existing
        cases hid
        exact .inr ⟨key, existing, hkey, List.mem_append_right _ (List.mem_singleton_self _), rfl⟩
      · cases hid
      · cases hid
  rw [storeMessage]
  refine Program.safe_bind hfind (fun later found hfound => ?_)
  split
  · exact .done (fun id hid => by
      cases hid
      exact hfound _ rfl)
  · refine .perform ⟨payload, hmem, rfl⟩ (fun answer _ => ?_)
    cases answer with
    | error e => exact .done (fun id h => by cases h)
    | ok created =>
        refine .done (fun id hid => ?_)
        cases hid
        exact .inl (storedAs_snoc _ _ created)

/-- Linking and forwarding a held payload keeps it held. -/
theorem safe_of_held {α : Type} {program : Prog α} (hmem : .data payload ∈ commands)
    (hprogram : program.Performs (ForwardEffect id)) (h : Holds parse payload history id) :
    program.Safe (fun _ _ => True) (SessionMail parse commands) (fun _ _ => True) history := by
  have hsafe : program.Safe (fun _ _ => True) (SessionMail parse commands)
      (fun later _ => Holds parse payload later id) history := by
    refine hprogram.safe h (fun history effect hheld heffect => ?_)
      (fun history effect answer hheld _ => Holds.append hheld _)
    unfold SessionMail
    split
    · exact heffect.elim
    · rename_i job
      obtain rfl : job.messageId = id := heffect
      exact ⟨payload, hmem, hheld⟩
    · trivial
  exact hsafe.mono (fun _ _ _ => trivial)

theorem linkInbounds_forwards (recipients : List String) :
    (linkInbounds id recipients).Performs (ForwardEffect id) := by
  induction recipients with
  | nil => exact .done
  | cons recipient rest ih =>
      refine performs_sql trivial (fun answer => ?_)
      split
      · exact ih
      · exact .done

theorem forwardAll_forwards (recipients : List String) :
    (forwardAll id recipients).Performs (ForwardEffect id) := by
  induction recipients with
  | nil => exact .done
  | cons recipient rest ih =>
      refine Program.performs_bind (performs_sql trivial (fun answer => ?_)) (fun _ => ih)
      split
      · exact .done
      · split
        · exact .done
        · refine Program.performs_bind (performs_sql rfl (fun answer => ?_)) (fun _ => .done)
          split <;> exact .done

/-- A delivery stores its payload and forwards what it holds it under. -/
theorem safe_delivered (hmem : .data payload ∈ commands) (recipients : List String) :
    (deliver parse recipients payload).Safe (fun _ _ => True) (SessionMail parse commands)
      (fun _ _ => True) history := by
  rw [deliver]
  refine Program.safe_bind (storeMessage_holds hmem) (fun later result hresult => ?_)
  split
  · exact .done trivial
  · rename_i messageId
    refine safe_of_held hmem (Program.performs_bind (linkInbounds_forwards recipients)
      (fun result => ?_)) (hresult messageId rfl)
    split
    · exact .done
    · exact Program.performs_bind (forwardAll_forwards recipients) (fun _ => .done)

theorem safe_sessionMail {handler : ZonedMailHandler} {rest : List SmtpCommand}
    (hrest : rest ⊆ commands) :
    (handler.session parse rest).Safe (fun _ _ => True) (SessionMail parse commands)
      (fun _ _ => True) history := by
  induction rest generalizing handler history with
  | nil => exact .done trivial
  | cons command rest ih =>
      obtain ⟨hfirst, hrest⟩ := List.cons_subset.mp hrest
      have hcommand : (handler.command parse command).Safe (fun _ _ => True)
          (SessionMail parse commands) (fun _ _ => True) history := by
        cases command with
        | mailFrom path | rset => exact .perform trivial (fun _ _ => .done trivial)
        | rcptTo path =>
            refine .perform trivial (fun answer _ => ?_)
            cases answer <;> exact .perform trivial (fun _ _ => .done trivial)
        | data payload =>
            have hemail : (handler.handleEmail parse payload).Safe (fun _ _ => True)
                (SessionMail parse commands) (fun _ _ => True) history :=
              Program.safe_bind (safe_delivered hfirst _) (fun _ _ _ => .done trivial)
            exact Program.safe_bind hemail
              (fun _ _ _ => .perform trivial (fun _ _ => .done trivial))
      exact Program.safe_bind hcommand (fun _ _ _ => ih hrest)

/-- The jobs after the first name the same message. -/
theorem safe_enqueueRest {email : Api.SendEmail} {message : LettreMessage}
    (hmessage : Api.buildSendMessage lettre email = .ok message) {recipients : List String}
    (hrecipients : recipients ⊆ email.recipients) (outboundIds : List Nat)
    (h : StoredAs history (sentContent parse message) id) :
    (Api.enqueueRest id email.sender outboundIds recipients).Safe (fun _ _ => True)
      (SendMail parse lettre email) (fun _ _ => True) history := by
  induction recipients generalizing outboundIds history with
  | nil => exact .done trivial
  | cons recipient rest ih =>
      obtain ⟨hfirst, hrest⟩ := List.cons_subset.mp hrecipients
      rw [Api.enqueueRest, enqueueForward]
      refine .perform ⟨rfl, hfirst, message, hmessage, h⟩ (fun answer _ => ?_)
      cases answer with
      | error e => exact .done trivial
      | ok job => exact ih hrest _ (h.append _)

/-- A request to send stores its message and enqueues that. -/
theorem safe_sendEmail (email : Api.SendEmail) :
    (Api.sendEmail parse lettre (some email)).Safe (fun _ _ => True) (SendMail parse lettre email)
      (fun _ _ => True) history := by
  simp only [Api.sendEmail]
  split
  · exact .done trivial
  · rename_i first rest hrecipients
    have hsubset : first :: rest ⊆ email.recipients := hrecipients ▸ List.Subset.refl _
    obtain ⟨hfirst, hrest⟩ := List.cons_subset.mp hsubset
    refine .perform trivial (fun answer _ => ?_)
    cases answer with
    | error e => exact .done trivial
    | ok mailbox =>
        generalize hmessage : Api.buildSendMessage lettre email = built
        cases built with
        | error e => exact .done trivial
        | ok message =>
            refine .perform ⟨message, hmessage, rfl⟩ (fun answer _ => ?_)
            cases answer with
            | error e => exact .done trivial
            | ok created =>
                have hstored := storedAs_snoc
                  (history ++ [⟨.sql (.getMailbox email.sender), .ok mailbox⟩])
                  (sentContent parse message) created
                refine .perform ⟨rfl, hfirst, message, hmessage, hstored⟩ (fun answer _ => ?_)
                cases answer with
                | error e => exact .done trivial
                | ok job => exact safe_enqueueRest hmessage hrest _ (hstored.append _)

/-- Only a request to send writes messages and jobs. -/
theorem noMail_of_footprint {request : Api.Request} {effect : Effect}
    (hrequest : ∀ email, request ≠ .sendEmail (some email))
    (h : request.Footprint parse lettre effect) : NoMail effect := by
  unfold NoMail
  split
  · rcases h with hreads | hwrites
    · exact hreads
    · unfold Api.Request.MayWrite at hwrites
      split at hwrites <;> simp_all
  · rcases h with hreads | hwrites
    · exact hreads
    · unfold Api.Request.MayWrite at hwrites
      split at hwrites <;> simp_all
  · trivial

theorem noMail_of_seed {config : Config} {effect : Effect} (h : config.Footprint effect) :
    NoMail effect := by
  unfold NoMail
  split
  · exact h
  · exact h
  · trivial

/-- Every task obeys its rule. -/
theorem Task.safe_mail (task : Task) :
    (task.program parse lettre).Safe (fun _ _ => True) (task.MailRule parse lettre)
      (fun _ _ => True) [] := by
  have hplain {program : Prog Unit} (h : program.Performs NoMail) :
      program.Safe (fun _ _ => True) (fun _ effect => NoMail effect) (fun _ _ => True) [] :=
    h.safe trivial (fun _ _ _ heffect => heffect) (fun _ _ _ _ _ => trivial)
  cases task with
  | seed config =>
      exact hplain (Program.performs_bind
        ((seedFromConfig_performs config).mono (fun _ h => noMail_of_seed h)) (fun _ => .done))
  | session commands => exact safe_sessionMail (List.Subset.refl commands)
  | request request =>
      by_cases hsend : ∃ email, request = .sendEmail (some email)
      · obtain ⟨email, rfl⟩ := hsend
        exact Program.safe_bind (safe_sendEmail email) (fun _ _ _ => .done trivial)
      · have hrequest := not_exists.mp hsend
        have hrule : Task.MailRule parse lettre (.request request) = fun _ => NoMail := by
          funext history effect
          cases request with
          | sendEmail body =>
              cases body with
              | none => rfl
              | some email => exact absurd rfl (hrequest email)
          | _ => rfl
        rw [hrule]
        exact hplain (Program.performs_bind ((Api.handle_performs parse lettre request).mono
          (fun _ h => noMail_of_footprint hrequest h)) (fun _ => .done))

end Tasks

/-! ## What the trace says of the rows -/

variable {Worker Thread : Type}

/-- Some thread stored this message. -/
def Logged (trace : List (Happening Worker Thread)) (message : Message) : Prop :=
  ∃ thread before,
    Sum.inl ⟨thread, .sql (.createMessage message.toMessageContent), .ok message, before⟩ ∈ trace

/-- Some thread enqueued the job of this row. -/
def Enqueued (trace : List (Happening Worker Thread)) (row : Outbound) : Prop :=
  ∃ thread job created before,
    Sum.inl ⟨thread, .sql (.createOutbound job), .ok created, before⟩ ∈ trace ∧
      created.id = row.id ∧ row.messageId = job.messageId ∧ row.rcptTo = job.rcptTo ∧
      row.senderId = job.senderId

/-- What a worker hands over: a stored message for an enqueued job that names it, in the envelope
made from both. -/
structure HandOff.Traced (ctx : Context) (trace : List (Happening Worker Thread))
    (handOff : HandOff) : Prop where
  job : Enqueued trace handOff.job
  message : Logged trace handOff.message
  named : handOff.message.id = handOff.job.messageId
  envelope : ctx.buildEnvelope handOff.message.mailFrom handOff.job.rcptTo = .ok handOff.envelope

/-- The job, the message and the envelope a worker has in hand are traced. -/
def Control.Traced (ctx : Context) (trace : List (Happening Worker Thread)) : Control → Prop
  | .deliverOne delivery => Enqueued trace delivery.job
  | .lookupMxHosts delivery message envelope =>
      HandOff.Traced ctx trace ⟨delivery, message, envelope⟩
  | .buildOutboundTls handOff _ _ | .sendRaw handOff _ _ | .recordRefused handOff _ _ _ =>
      handOff.Traced ctx trace
  | _ => True

/-- Every row, every hand-off and every answer that names a message goes back to the one effect that
stored it. -/
structure Log (ctx : Worker → Context) (trace : List (Happening Worker Thread))
    (system : System Worker) : Prop where
  messages : ∀ row ∈ system.db.messages.rows, Logged trace row
  below : ∀ message, Logged trace message → message.id < system.db.messages.next
  unique : ∀ first second, Logged trace first → Logged trace second → first.id = second.id →
    first = second
  found : ∀ thread key message before,
    Sum.inl ⟨thread, .sql (.firstMessageWithHeader key), .ok (some message), before⟩ ∈ trace →
    Logged trace message ∧ message.messageIdHeader = some key
  stored : ∀ thread content message before,
    Sum.inl ⟨thread, .sql (.createMessage content), .ok message, before⟩ ∈ trace →
    message.toMessageContent = content
  jobs : ∀ row ∈ system.db.outbounds.rows, Enqueued trace row
  hands : ∀ worker, (system.control worker).Traced (ctx worker) trace

section Trace

variable {ctx : Context} {trace : List (Happening Worker Thread)} {handOff : HandOff}

theorem Logged.append {message : Message} (h : Logged trace message)
    (later : List (Happening Worker Thread)) : Logged (trace ++ later) message := by
  obtain ⟨thread, before, hmem⟩ := h
  exact ⟨thread, before, List.mem_append_left _ hmem⟩

theorem Enqueued.append {row : Outbound} (h : Enqueued trace row)
    (later : List (Happening Worker Thread)) : Enqueued (trace ++ later) row := by
  obtain ⟨thread, job, created, before, hmem, hrow⟩ := h
  exact ⟨thread, job, created, before, List.mem_append_left _ hmem, hrow⟩

/-- A write to a row leaves its job as it was enqueued. -/
theorem Enqueued.apply {row : Outbound} (h : Enqueued trace row) (columns : OutboundColumns) :
    Enqueued trace (columns.apply row) := h

theorem HandOff.Traced.append (h : handOff.Traced ctx trace)
    (later : List (Happening Worker Thread)) : handOff.Traced ctx (trace ++ later) :=
  ⟨h.job.append later, h.message.append later, h.named, h.envelope⟩

theorem Control.Traced.append {control : Control} (h : control.Traced ctx trace)
    (later : List (Happening Worker Thread)) : control.Traced ctx (trace ++ later) := by
  cases control with
  | deliverOne => exact Enqueued.append h later
  | lookupMxHosts | buildOutboundTls | sendRaw | recordRefused =>
      exact HandOff.Traced.append h later
  | _ => trivial

theorem Control.traced_of_free {control : Control} (h : control.held = none) :
    control.Traced ctx trace := by
  cases control with
  | deliverOne | lookupMxHosts | buildOutboundTls | sendRaw | recordRefused => cases h
  | _ => trivial

theorem Control.traced_deliverHosts (h : handOff.Traced ctx trace) (lastError : Option String)
    (hosts : List String) : (deliverHosts handOff lastError hosts).Traced ctx trace := by
  cases hosts with
  | nil => trivial
  | cons => exact h

theorem Control.traced_offer (h : handOff.Traced ctx trace) (targets : List String) :
    (offer handOff targets).Traced ctx trace := by
  cases targets with
  | nil => trivial
  | cons => exact h

end Trace

/-! ## What a statement does to the numbers -/

/-- A message that a statement stored carries the next number. -/
theorem Statement.execute_createMessage {content : MessageContent} {fault : Fault} {db : Db}
    {message : Message} (h : ((createMessage content).execute fault db).1 = .ok message) :
    message = ⟨content, db.messages.next⟩ ∧
      ((createMessage content).execute fault db).2.messages =
        db.messages.push (fun id => ⟨content, id⟩) (fun _ => rfl) := by
  cases fault with
  | some text => cases h
  | none =>
      cases h
      exact ⟨rfl, rfl⟩

/-- A message found by its header is stored and has that header. -/
theorem Statement.execute_firstMessageWithHeader {key : String} {fault : Fault} {db : Db}
    {message : Message}
    (h : ((firstMessageWithHeader key).execute fault db).1 = .ok (some message)) :
    message ∈ db.messages.rows ∧ message.messageIdHeader = some key := by
  cases fault with
  | some text => cases h
  | none =>
      have hhead : (db.messages.select (fun message => message.messageIdHeader = some key)).head? =
          some message := Except.ok.inj h
      obtain ⟨hmem, hheader⟩ := List.mem_filter.mp (List.mem_of_head? hhead)
      exact ⟨hmem, by simpa using hheader⟩

/-- A job that is there after its creation and was not before is the answer. -/
theorem Statement.answer_of_createOutbound {job : OutboundJob} {fault : Fault} {db : Db} {id : Nat}
    (hnone : db.outbounds.get? id = none)
    (hrow : ((createOutbound job).execute fault db).2.outbounds.get? id = some ⟨job, id⟩) :
    ((createOutbound job).execute fault db).1 = .ok ⟨job, id⟩ := by
  cases fault with
  | some text => cases hnone.symm.trans hrow
  | none =>
      have hpush : (db.outbounds.push (fun id => ⟨job, id⟩) (fun _ => rfl)).get? id =
          some ⟨job, id⟩ := hrow
      rw [AutoTable.get?_push] at hpush
      split at hpush
      · rename_i hid
        rw [hid]
        rfl
      · cases hnone.symm.trans hpush

/-- A statement that stores no message leaves only messages that were there, and the numbering as it
is. -/
theorem Statement.Change.messages {statement : Statement} {db after : Db}
    (h : Change db statement after) (hother : ∀ content, statement ≠ .createMessage content) :
    after.messages.next = db.messages.next ∧
      ∀ row ∈ after.messages.rows, row ∈ db.messages.rows := by
  cases h with
  | createMessage => exact absurd rfl (hother _)
  | deleteMessage => exact ⟨rfl, fun row hrow => List.mem_of_mem_filter hrow⟩
  | deleteDomain =>
      unfold Db.removeDomain
      split <;> exact ⟨rfl, fun row hrow => hrow⟩
  | _ => exact ⟨rfl, fun row hrow => hrow⟩

namespace Log

variable {ctx : Worker → Context} {trace : List (Happening Worker Thread)} {system : System Worker}

theorem start : Log ctx ([] : List (Happening Worker Thread)) ⟨Db.empty, fun _ => .stopped⟩ where
  messages := fun row h => by cases h
  below := fun message h => by
    obtain ⟨_, _, hmem⟩ := h
    cases hmem
  unique := fun first second h => by
    obtain ⟨_, _, hmem⟩ := h
    cases hmem
  found := fun thread key message before h => by cases h
  stored := fun thread content message before h => by cases h
  jobs := fun row h => by cases h
  hands := fun worker => trivial

/-- A message logged after one more event was logged before it, or the event stored it. -/
theorem logged_snoc {message : Message} {event : Happening Worker Thread}
    (h : Logged (trace ++ [event]) message) : Logged trace message ∨ ∃ thread before,
      event = .inl ⟨thread, .sql (.createMessage message.toMessageContent), .ok message, before⟩ := by
  obtain ⟨thread, before, hmem⟩ := h
  rcases List.mem_append.mp hmem with hold | hnew
  · exact .inl ⟨thread, before, hold⟩
  · exact .inr ⟨thread, before, (List.mem_singleton.mp hnew).symm⟩

/-- An event that stores no message. -/
theorem quiet (h : Log ctx trace system) {event : Happening Worker Thread} {next : System Worker}
    (hevent : ∀ thread content (message : Message) before,
      event ≠ .inl ⟨thread, .sql (.createMessage content), .ok message, before⟩)
    (hnext : next.db.messages.next = system.db.messages.next)
    (hrows : ∀ row ∈ next.db.messages.rows, row ∈ system.db.messages.rows)
    (hfound : ∀ thread key (message : Message) before,
      event = .inl ⟨thread, .sql (.firstMessageWithHeader key), .ok (some message), before⟩ →
      message ∈ system.db.messages.rows ∧ message.messageIdHeader = some key)
    (hjobs : ∀ row ∈ next.db.outbounds.rows, row ∈ system.db.outbounds.rows ∨
      Enqueued (trace ++ [event]) row)
    (hhands : ∀ worker, (next.control worker).Traced (ctx worker) (trace ++ [event])) :
    Log ctx (trace ++ [event]) next := by
  have hlogged {message : Message} (hmessage : Logged (trace ++ [event]) message) :
      Logged trace message := by
    rcases logged_snoc hmessage with hold | ⟨thread, before, rfl⟩
    · exact hold
    · exact absurd rfl (hevent _ _ _ _)
  refine ⟨fun row hrow => (h.messages row (hrows row hrow)).append _, fun message hmessage => ?_,
    fun first second hfirst hsecond => h.unique first second (hlogged hfirst) (hlogged hsecond),
    fun thread key message before hmem => ?_, fun thread content message before hmem => ?_,
    fun row hrow => ?_, hhands⟩
  · rw [hnext]
    exact h.below message (hlogged hmessage)
  · rcases List.mem_append.mp hmem with hold | hnew
    · obtain ⟨hmessage, hkey⟩ := h.found thread key message before hold
      exact ⟨hmessage.append _, hkey⟩
    · obtain ⟨hrow, hkey⟩ := hfound thread key message before (List.mem_singleton.mp hnew).symm
      exact ⟨(h.messages message hrow).append _, hkey⟩
  · rcases List.mem_append.mp hmem with hold | hnew
    · exact h.stored thread content message before hold
    · exact absurd (List.mem_singleton.mp hnew).symm (hevent _ _ _ _)
  · rcases hjobs row hrow with hold | hnew
    · exact (h.jobs row hold).append _
    · exact hnew

/-- An effect that stores a message gives it a number that no message had before. -/
theorem create (h : Log ctx trace system) {thread : Thread} {content : MessageContent}
    {next : System Worker}
    (hmessages : next.db.messages =
      system.db.messages.push (fun id => ⟨content, id⟩) (fun _ => rfl))
    (hjobs : next.db.outbounds = system.db.outbounds) (hcontrol : next.control = system.control) :
    Log ctx (trace ++ [.inl ⟨thread, .sql (.createMessage content),
      .ok ⟨content, system.db.messages.next⟩, system⟩]) next := by
  have hnew {message : Message} (hmessage : Logged (trace ++ [.inl ⟨thread,
      .sql (.createMessage content), .ok ⟨content, system.db.messages.next⟩, system⟩]) message) :
      Logged trace message ∨ message = ⟨content, system.db.messages.next⟩ := by
    rcases logged_snoc hmessage with hold | ⟨other, before, hevent⟩
    · exact .inl hold
    · obtain ⟨stored, id⟩ := message
      cases hevent
      exact .inr rfl
  refine ⟨fun row hrow => ?_, fun message hmessage => ?_, fun first second hfirst hsecond hid => ?_,
    fun other key message before hmem => ?_, fun other stored message before hmem => ?_,
    fun row hrow => (h.jobs row (hjobs ▸ hrow)).append _,
    fun worker => hcontrol ▸ (h.hands worker).append _⟩
  · rw [hmessages, AutoTable.rows_push] at hrow
    rcases List.mem_append.mp hrow with hold | hlast
    · exact (h.messages row hold).append _
    · obtain rfl := List.mem_singleton.mp hlast
      exact ⟨thread, system, List.mem_append_right _ (List.mem_singleton_self _)⟩
  · rw [hmessages]
    show message.id < system.db.messages.next + 1
    rcases hnew hmessage with hold | rfl
    · exact Nat.lt_succ_of_lt (h.below message hold)
    · exact Nat.lt_succ_self _
  · rcases hnew hfirst with hfirst | rfl
    · rcases hnew hsecond with hsecond | rfl
      · exact h.unique first second hfirst hsecond hid
      · exact absurd hid (Nat.ne_of_lt (h.below first hfirst))
    · rcases hnew hsecond with hsecond | rfl
      · exact absurd hid.symm (Nat.ne_of_lt (h.below second hsecond))
      · rfl
  · rcases List.mem_append.mp hmem with hold | hlast
    · obtain ⟨hmessage, hkey⟩ := h.found other key message before hold
      exact ⟨hmessage.append _, hkey⟩
    · cases List.mem_singleton.mp hlast
  · rcases List.mem_append.mp hmem with hold | hlast
    · exact h.stored other stored message before hold
    · cases List.mem_singleton.mp hlast
      rfl

/-- An effect of a thread. -/
theorem perform (h : Log ctx trace system) (thread : Thread) (effect : Effect)
    (fault : Statement.Fault) :
    Log ctx (trace ++ [.inl ⟨thread, effect, (effect.execute fault system.db).1, system⟩])
      { system with db := (effect.execute fault system.db).2 } := by
  have hhands := fun later worker => (h.hands worker).append later
  cases effect with
  | reply command accepted =>
      exact h.quiet (fun _ _ _ _ hevent => by cases hevent) rfl (fun _ hrow => hrow)
        (fun _ _ _ _ hevent => by cases hevent) (fun _ hrow => .inl hrow) (hhands _)
  | sql statement =>
      by_cases hcreate : ∃ content, statement = .createMessage content
      · obtain ⟨content, rfl⟩ := hcreate
        cases fault with
        | none => exact h.create rfl rfl rfl
        | some text =>
            exact h.quiet (fun _ _ _ _ hevent => by cases hevent) rfl (fun _ hrow => hrow)
              (fun _ _ _ _ hevent => by cases hevent) (fun _ hrow => .inl hrow) (hhands _)
      · have hother := not_exists.mp hcreate
        have hmessages : (statement.execute fault system.db).2.messages.next =
            system.db.messages.next ∧
            ∀ row ∈ (statement.execute fault system.db).2.messages.rows,
              row ∈ system.db.messages.rows := by
          rcases statement.change_of_execute fault system.db with hsame | hchange
          · rw [hsame]
            exact ⟨rfl, fun row hrow => hrow⟩
          · exact hchange.messages hother
        refine h.quiet (fun _ content _ _ hevent => ?_) hmessages.1 hmessages.2
          (fun _ key message _ hevent => ?_) (fun row hrow => ?_) (hhands _)
        · injection hevent with hmoment
          injection hmoment with _ heffect
          injection heffect with hstatement
          exact hother content hstatement
        · generalize hanswer : ((Effect.sql statement).execute fault system.db).1 = answer at hevent
          cases hevent
          exact Statement.execute_firstMessageWithHeader hanswer
        · rcases statement.change_of_execute fault system.db with hsame | hchange
          · rw [Effect.execute, hsame] at hrow
            exact .inl hrow
          · rcases hchange.outbound (Table.get?_of_mem hrow) with hold | ⟨job, rfl, hjob, hnone⟩
            · exact .inl (Table.mem_of_get? hold)
            · have hanswer := Statement.answer_of_createOutbound hnone
                (hjob ▸ Table.get?_of_mem hrow)
              refine .inr ⟨thread, job, ⟨job, row.id⟩, system, ?_, rfl, ?_⟩
              · rw [← hanswer]
                exact List.mem_append_right _ (List.mem_singleton_self _)
              · rw [hjob]
                exact ⟨rfl, rfl, rfl⟩

/-- A move of a worker. -/
theorem move [DecidableEq Worker] (h : Log ctx trace system) {worker : Worker} {input : Input}
    {actions : List Action} {after : Control} {db : Db}
    (hmove : (system.control worker).Move (ctx worker) system.db input actions after db) :
    Log ctx (trace ++ [.inr ⟨worker, system.control worker, input, actions⟩])
      (system.moved worker after db) := by
  have hupdate (event : Happening Worker Thread) (id : Nat) (columns : OutboundColumns) :
      ∀ row ∈ (system.db.updateOutbound id columns).outbounds.rows,
        row ∈ system.db.outbounds.rows ∨ Enqueued (trace ++ [event]) row := by
    intro row hrow
    obtain ⟨old, hold, rfl⟩ := List.mem_map.mp hrow
    split
    · exact .inr (((h.jobs old hold).append _).apply columns)
    · exact .inl hold
  have hjobs (event : Happening Worker Thread) : ∀ row ∈ db.outbounds.rows,
      row ∈ system.db.outbounds.rows ∨ Enqueued (trace ++ [event]) row := by
    generalize system.control worker = before at hmove
    cases hmove with
    | reclaim | claim | markDelivered | failOrRequeue => exact hupdate _ _ _
    | _ => exact fun row hrow => .inl hrow
  have hafter : after.Traced (ctx worker)
      (trace ++ [.inr ⟨worker, system.control worker, input, actions⟩]) := by
    have htraced := (h.hands worker).append
      [.inr ⟨worker, system.control worker, input, actions⟩]
    generalize system.control worker = before at hmove htraced
    cases hmove with
    | release hfree => exact Control.traced_of_free hfree
    | reclaim => exact Control.traced_of_free (Control.held_reclaim _)
    | claim hrow hstatus =>
        exact ((h.jobs _ (Table.mem_of_get? hrow)).append _).apply claimedColumns
    | load hmessage henvelope =>
        exact ⟨htraced, (h.messages _ (Table.mem_of_get? hmessage)).append _,
          Table.key_of_get? hmessage, henvelope⟩
    | target htargets => exact Control.traced_offer htraced _
    | send htls => exact htraced
    | accept => trivial
    | refuse => exact htraced
    | recordAccepted => trivial
    | recordRefused => exact Control.traced_deliverHosts htraced _ _
    | markDelivered | failOrRequeue => exact Control.traced_of_free (Control.held_drain _ _)
  refine h.quiet (fun _ _ _ _ hevent => by cases hevent) (by rw [System.moved_db, hmove.frame.2.1])
    (by rw [System.moved_db, hmove.frame.2.1]; exact fun _ hrow => hrow)
    (fun _ _ _ _ hevent => by cases hevent) (hjobs _) (fun other => ?_)
  by_cases hother : other = worker
  · subst other
    rw [System.moved_control_self]
    exact hafter
  · rw [System.moved_control_of_ne _ hother]
    exact (h.hands other).append _

end Log

/-! ## Every hand-off was asked for -/

variable [DecidableEq Thread] {ctx : Worker → Context} {parse : MessageParser}
  {trace : List (Happening Worker Thread)}

/-- A message that a thread stored is logged under its number. -/
theorem Log.message_of_storedAs {system : System Worker} {earlier : List (Happening Worker Thread)}
    {thread : Thread} {content : MessageContent} {message : Message} (h : Log ctx trace system)
    (hearlier : ∀ event ∈ earlier, event ∈ trace) (hmessage : Logged trace message)
    (hstored : StoredAs (Pool.history thread (Pool.moments earlier)) content message.id) :
    message.toMessageContent = content := by
  obtain ⟨stored, hmem, hid⟩ := hstored
  obtain ⟨before, hmoment⟩ := Pool.exists_moment_of_mem_history hmem
  have hcontent := h.stored thread content stored before (hearlier _ hmoment)
  have hlogged : Logged trace stored := ⟨thread, before, hcontent ▸ hearlier _ hmoment⟩
  rw [← hcontent, h.unique message stored hmessage hlogged hid.symm]

/-- The message that a session holds is its payload, or has the key of it. -/
theorem Log.message_of_holds {system : System Worker} {earlier : List (Happening Worker Thread)}
    {thread : Thread} {payload : Bytes} {message : Message} (h : Log ctx trace system)
    (hearlier : ∀ event ∈ earlier, event ∈ trace) (hmessage : Logged trace message)
    (hholds : Holds parse payload (Pool.history thread (Pool.moments earlier)) message.id) :
    message.toMessageContent = messageContent (parse payload) payload ∨
      ∃ key, dedupKey (messageContent (parse payload) payload) = some key ∧
        message.messageIdHeader = some key := by
  rcases hholds with hstored | ⟨key, found, hkey, hmem, hid⟩
  · exact .inl (h.message_of_storedAs hearlier hmessage hstored)
  · obtain ⟨before, hmoment⟩ := Pool.exists_moment_of_mem_history hmem
    obtain ⟨hfound, hheader⟩ := h.found thread key found before (hearlier _ hmoment)
    rw [h.unique message found hmessage hfound hid.symm]
    exact .inr ⟨key, hkey, hheader⟩

variable [DecidableEq Worker] {lettre : Api.Lettre} {task : Thread → Task}
  {finish : Installation Worker Thread}

theorem log_of_run
    (hrun : Run (Installation.step ctx) (fun _ _ => True) (installation parse lettre task) trace
      finish) : Log ctx trace finish.store := by
  refine hrun.invariant_trace (fun trace state => Log ctx trace state.store) .start ?_
  intro trace state label events next hlog _ hstep
  rcases Installation.step_cases hstep with ⟨thread, effect, fault, resume, -, rfl, hnext⟩ |
    ⟨worker, input, actions, after, db, rfl, hmove, hnext⟩
  · rw [hnext]
    exact hlog.perform thread effect fault
  · rw [hnext]
    exact hlog.move hmove

/-- In every interleaving every thread stores and enqueues only what its task may. -/
theorem mail_of_run
    (hrun : Run (Installation.step ctx) (fun _ _ => True) (installation parse lettre task) trace
      finish) : Pool.Obeys System.perform (fun _ _ => True)
        (fun thread history effect => (task thread).MailRule parse lettre history effect) trace
        finish := by
  have hmove : ∀ (system : System Worker) (label : Worker × Input) (events : List (Turn Worker))
      (next : System Worker), True → system.turn ctx label = some (events, next) → True :=
    fun _ _ _ _ _ _ => trivial
  exact (Pool.obeys_amid (fun _ _ _ _ => trivial) (fun _ _ _ _ _ _ _ => trivial) hmove trivial
    (fun thread => Task.safe_mail (task thread)) hrun).2

/-- Why a message goes to an address on behalf of a sender. -/
inductive Asked (parse : MessageParser) (lettre : Api.Lettre) (task : Thread → Task)
    (trace : List (Happening Worker Thread)) (senderId rcptTo : String)
    (content : MessageContent) : Prop where
  /-- A request asked for it, and the message is the one built from its body. -/
  | requested {thread : Thread} {email : Api.SendEmail} {message : LettreMessage}
      (htask : task thread = .request (.sendEmail (some email))) (hsender : senderId = email.sender)
      (hrecipient : rcptTo ∈ email.recipients)
      (hmessage : Api.buildSendMessage lettre email = .ok message)
      (hcontent : content = sentContent parse message)
  /-- A session delivered to a mailbox that forwards there, and the message is its payload or one
  that was stored under the same key. -/
  | forwarded {thread : Thread} {commands : List SmtpCommand} {payload : Bytes} {path : String}
      {mailbox : Mailbox} {before : System Worker} (htask : task thread = .session commands)
      (hpayload : .data payload ∈ commands) (hpath : .rcptTo path ∈ commands)
      (hsender : cleanEmail path = senderId)
      (hread : Sum.inl ⟨thread, .sql (.getMailbox senderId), .ok mailbox, before⟩ ∈ trace)
      (hforward : mailbox.forwardTo = some rcptTo)
      (hcontent : content = messageContent (parse payload) payload ∨
        ∃ key, dedupKey (messageContent (parse payload) payload) = some key ∧
          content.messageIdHeader = some key)

/-- A job of a session goes where the mailbox of an accepted recipient forwards to. -/
theorem exists_forward
    (hrun : Run (Installation.step ctx) (fun _ _ => True) (installation parse lettre task) trace
      finish)
    {earlier later : List (Happening Worker Thread)} {thread : Thread} {job : OutboundJob}
    {answer : Except DbError Outbound} {before : System Worker} {commands : List SmtpCommand}
    (htask : task thread = .session commands)
    (htrace : trace =
      earlier ++ .inl ⟨thread, .sql (.createOutbound job), answer, before⟩ :: later) :
    ∃ path mailbox read, .rcptTo path ∈ commands ∧ cleanEmail path = job.senderId ∧
      Sum.inl ⟨thread, .sql (.getMailbox job.senderId), .ok mailbox, read⟩ ∈ trace ∧
      mailbox.forwardTo = some job.rcptTo := by
  have hobeys := Installation.obeys_of_run hrun
  obtain ⟨hrule, -⟩ := hobeys.performed _ _ _ htrace
  rw [htask] at hrule
  obtain ⟨hpending, front, mailbox, hhistory, hforward⟩ := hrule
  have hmem : ∀ event ∈ earlier, event ∈ trace := fun event h => htrace ▸ List.mem_append_left _ h
  obtain ⟨read, hread⟩ := Pool.exists_moment_of_mem_history
    (hhistory ▸ List.mem_append_right _ (List.mem_singleton_self _))
  obtain ⟨path, start, rest, hpath, hsplit, -⟩ := exists_rcptTo_of_mem_acceptedSince hpending
  obtain ⟨accepting, hreply⟩ := Pool.exists_moment_of_mem_history
    (hsplit ▸ List.mem_append_right _ (List.mem_cons_self ..))
  -- The reply that accepted the recipient obeyed the rule as well, so it answered a command.
  obtain ⟨first, last, hreplied⟩ := List.append_of_mem (hmem _ hreply)
  obtain ⟨haccept, -⟩ := hobeys.performed _ _ _ hreplied
  rw [htask] at haccept
  exact ⟨path, mailbox, read, haccept.1, hpath, hmem _ hread, hforward⟩

/-- The thread that enqueued a job was asked to send the message that the job names. -/
theorem asked_of_enqueued
    (hrun : Run (Installation.step ctx) (fun _ _ => True) (installation parse lettre task) trace
      finish)
    {thread : Thread} {job : OutboundJob} {answer : Except DbError Outbound}
    {before : System Worker} {message : Message}
    (hmem : Sum.inl ⟨thread, .sql (.createOutbound job), answer, before⟩ ∈ trace)
    (hmessage : Logged trace message) (hnamed : job.messageId = message.id) :
    Asked parse lettre task trace job.senderId job.rcptTo message.toMessageContent := by
  have hlog := log_of_run hrun
  obtain ⟨earlier, later, htrace⟩ := List.append_of_mem hmem
  have hearlier : ∀ event ∈ earlier, event ∈ trace :=
    fun event h => htrace ▸ List.mem_append_left _ h
  obtain ⟨hrule, -⟩ := (mail_of_run hrun).performed _ _ _ htrace
  cases htask : task thread with
  | seed config =>
      rw [htask] at hrule
      exact hrule.elim
  | session commands =>
      rw [htask] at hrule
      obtain ⟨payload, hpayload, hholds⟩ := hrule
      rw [hnamed] at hholds
      obtain ⟨path, mailbox, read, hpath, hsender, hread, hforward⟩ :=
        exists_forward hrun htask htrace
      exact .forwarded htask hpayload hpath hsender hread hforward
        (hlog.message_of_holds hearlier hmessage hholds)
  | request request =>
      rw [htask] at hrule
      cases request with
      | sendEmail body =>
          cases body with
          | none => exact hrule.elim
          | some email =>
              obtain ⟨hsender, hrecipient, built, hbuilt, hstored⟩ := hrule
              rw [hnamed] at hstored
              exact .requested htask hsender hrecipient hbuilt
                (hlog.message_of_storedAs hearlier hmessage hstored)
      | _ => exact hrule.elim

end Zonemail
