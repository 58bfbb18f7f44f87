import Zonemail.Api.Addressed
import Zonemail.Inbound.Handler

/-!
# SMTP sessions among the other programs of the daemon

Sessions, requests and seeding run over one database, their effects interleaved in any order.
`SessionRule` says what the effects of a session may be, in terms of what the session did before:
it links a payload only to the recipients accepted since the last `DATA`, or to the fallback name
when there is none; it forwards only for one of these recipients, right after it read the mailbox
of that recipient and only to the address that mailbox forwards to; and it accepts a recipient only
right after it found its mailbox. `safe_daemon` shows that every session obeys the rule in every
interleaving.
-/

namespace Zonemail

open Library

/-- The history of a program of the daemon. -/
abbrev EffectHistory := Program.History Effect Answer

/-! ## Recipients accepted so far -/

/-- How one effect changes the list of accepted recipients, when the commands that `starts` marks
begin a new list. -/
def acceptEvent (starts : SmtpCommand → Bool) (recipients : List String) : Effect → List String
  | .sql _ => recipients
  | .reply command accepted =>
      if starts command then []
      else
        match command, accepted with
        | .rcptTo path, true => recipients ++ [cleanEmail path]
        | _, _ => recipients

/-- The recipients accepted since the last command that `starts` marks. -/
def acceptedSince (starts : SmtpCommand → Bool) (history : EffectHistory) : List String :=
  history.foldl (fun recipients event => acceptEvent starts recipients event.1) []

@[simp] theorem acceptedSince_snoc (starts : SmtpCommand → Bool) (history : EffectHistory)
    (event : Σ effect, Answer effect) :
    acceptedSince starts (history ++ [event]) =
      acceptEvent starts (acceptedSince starts history) event.1 := by
  simp [acceptedSince]

/-- `DATA`, after which the handler has no recipients. -/
def SmtpCommand.isData : SmtpCommand → Bool
  | .data _ => true
  | _ => false

/-- The recipients accepted since the last `DATA`. -/
def pending (history : EffectHistory) : List String := acceptedSince SmtpCommand.isData history

/-- A statement accepts no recipient. -/
@[simp] theorem pending_sql (history : EffectHistory) (statement : Statement)
    (answer : Except DbError statement.Value) :
    pending (history ++ [⟨.sql statement, answer⟩]) = pending history := by
  simp [pending, acceptEvent]

@[simp] theorem pending_reply (history : EffectHistory) (command : SmtpCommand) (accepted : Bool)
    (answer : Unit) :
    pending (history ++ [⟨.reply command accepted, answer⟩]) =
      acceptEvent SmtpCommand.isData (pending history) (.reply command accepted) := by
  simp [pending]

/-- The effect is the reply to a command that `starts` marks. -/
def RepliesTo (starts : SmtpCommand → Bool) : Effect → Prop
  | .sql _ => False
  | .reply command _ => starts command

/-- A recipient accepted since some command was named by an accepted `RCPT TO`, and no such command
came after it. -/
theorem exists_rcptTo_of_mem_acceptedSince {starts : SmtpCommand → Bool} {history : EffectHistory}
    {address : String} (h : address ∈ acceptedSince starts history) :
    ∃ path earlier later, cleanEmail path = address ∧
      history = earlier ++ ⟨.reply (.rcptTo path) true, ()⟩ :: later ∧
      ∀ event ∈ later, ¬ RepliesTo starts event.1 := by
  -- Induction from the end: the last effect either accepted the address, or the address was
  -- accepted before it and it starts no new list.
  induction history using List.reverseRecOn with
  | nil => cases h
  | append_singleton history event ih =>
      rw [acceptedSince_snoc] at h
      have hextend (hold : address ∈ acceptedSince starts history)
          (hevent : ¬ RepliesTo starts event.1) :
          ∃ path earlier later, cleanEmail path = address ∧
            history ++ [event] = earlier ++ ⟨.reply (.rcptTo path) true, ()⟩ :: later ∧
            ∀ event ∈ later, ¬ RepliesTo starts event.1 := by
        obtain ⟨path, earlier, later, hpath, rfl, hlater⟩ := ih hold
        refine ⟨path, earlier, later ++ [event], hpath, by simp, ?_⟩
        intro other hother
        rcases List.mem_append.mp hother with hother | hother
        · exact hlater other hother
        · rw [List.mem_singleton.mp hother]
          exact hevent
      obtain ⟨effect, answer⟩ := event
      cases effect with
      | sql statement => exact hextend h id
      | reply command accepted =>
          simp only [acceptEvent] at h
          split at h
          · cases h
          · rename_i hstarts
            split at h
            · rename_i path
              rcases List.mem_append.mp h with hold | hnew
              · exact hextend hold hstarts
              · exact ⟨path, history, [], (List.mem_singleton.mp hnew).symm, rfl, by simp⟩
            · exact hextend h hstarts

/-! ## What a session does -/

/-- The last effect was the reading of the mailbox with this id, and it found one of which
`property` holds. -/
def JustRead (history : EffectHistory) (id : String) (property : Mailbox → Prop) : Prop :=
  ∃ earlier mailbox, history = earlier ++ [⟨.sql (.getMailbox id), .ok mailbox⟩] ∧ property mailbox

/-- What a session with these commands may do after what it has done. -/
def SessionRule (commands : List SmtpCommand) (history : EffectHistory) : Effect → Prop
  | .sql (.createInbound _ rcptTo) => rcptTo ∈ storedFor (pending history)
  | .sql (.createOutbound job) =>
      job.senderId ∈ pending history ∧
        JustRead history job.senderId (fun mailbox => mailbox.forwardTo = some job.rcptTo)
  | .sql (.createMailbox _) => False
  | .reply (.rcptTo path) true =>
      .rcptTo path ∈ commands ∧ JustRead history (cleanEmail path) (fun _ => True)
  | _ => True

/-- Only addresses are found among the mailboxes. -/
def PossibleAnswer : (effect : Effect) → Answer effect → Prop
  | .sql (.getMailbox id), .ok _ => '@' ∈ id.toList
  | _, _ => True

/-- What storing and linking a payload for these recipients sends to the database. -/
def StoringEffect (recipients : List String) : Effect → Prop
  | .sql (.firstMessageWithHeader _) | .sql (.createMessage _) => True
  | .sql (.createInbound _ rcptTo) => rcptTo ∈ recipients
  | _ => False

theorem storeMessage_performs (recipients : List String) (content : MessageContent) :
    (storeMessage content).Performs (StoringEffect recipients) := by
  rw [storeMessage, findDuplicate]
  refine Program.performs_bind ?_ (fun found => ?_)
  · split
    · exact .done
    · exact performs_sql trivial (fun answer => .done)
  · split
    · exact .done
    · refine performs_sql trivial (fun answer => ?_)
      split <;> exact .done

theorem linkInbounds_performs {recipients rest : List String} (messageId : Nat)
    (h : rest ⊆ recipients) :
    (linkInbounds messageId rest).Performs (StoringEffect recipients) := by
  induction rest with
  | nil => exact .done
  | cons recipient rest ih =>
      obtain ⟨hfirst, hrest⟩ := List.cons_subset.mp h
      refine performs_sql hfirst (fun answer => ?_)
      split
      · exact ih hrest
      · exact .done

variable {commands : List SmtpCommand} {recipients : List String} {history : EffectHistory}

/-- Storing and linking a payload for the accepted recipients obeys the rule and accepts nobody. -/
theorem safe_of_performs_storing {α : Type} {program : Prog α}
    (h : program.Performs (StoringEffect (storedFor recipients)))
    (hpending : pending history = recipients) :
    program.Safe PossibleAnswer (SessionRule commands)
      (fun later _ => pending later = recipients) history := by
  refine h.safe hpending ?_ ?_
  · intro history effect hpending heffect
    unfold StoringEffect at heffect
    split at heffect
    · trivial
    · trivial
    · rw [← hpending] at heffect
      exact heffect
    · exact heffect.elim
  · intro history effect answer hpending heffect
    unfold StoringEffect at heffect
    split at heffect
    · simpa using hpending
    · simpa using hpending
    · simpa using hpending
    · exact heffect.elim

/-- A recipient with an address that a payload is stored for was accepted. -/
theorem mem_of_mem_storedFor {recipient : String} (h : recipient ∈ storedFor recipients)
    (hat : '@' ∈ recipient.toList) : recipient ∈ recipients := by
  rcases mem_storedFor.mp h with hmem | ⟨-, rfl⟩
  · exact hmem
  · exact absurd hat (by decide)

/-- Forwarding for one recipient obeys the rule and accepts nobody. -/
theorem safe_forward {recipient : String} (messageId : Nat) (h : recipient ∈ storedFor recipients)
    (hpending : pending history = recipients) :
    (forward messageId recipient).Safe PossibleAnswer (SessionRule commands)
      (fun later _ => pending later = recipients) history := by
  rw [forward]
  refine Prog.safe_sql trivial (fun answer hanswer => ?_)
  split
  · exact .done (by rw [pending_sql, hpending])
  · rename_i mailbox
    -- The mailbox was found, so the recipient is an address and not the fallback name.
    have hmem : recipient ∈ recipients := mem_of_mem_storedFor h hanswer
    split
    · exact .done (by rw [pending_sql, hpending])
    · rename_i forwardTo hforward
      have hrule : SessionRule commands
          (history ++ [⟨.sql (.getMailbox recipient), .ok mailbox⟩])
          (.sql (.createOutbound (newJob messageId recipient forwardTo))) :=
        ⟨by simpa [newJob, hpending] using hmem, history, mailbox, rfl, hforward⟩
      refine .perform hrule (fun answer _ => ?_)
      cases answer <;> exact .done (by rw [pending_sql, pending_sql, hpending])

theorem safe_forwardAll {rest : List String} (messageId : Nat) (h : rest ⊆ storedFor recipients)
    (hpending : pending history = recipients) :
    (forwardAll messageId rest).Safe PossibleAnswer (SessionRule commands)
      (fun later _ => pending later = recipients) history := by
  induction rest generalizing history with
  | nil => exact .done hpending
  | cons recipient rest ih =>
      obtain ⟨hfirst, hrest⟩ := List.cons_subset.mp h
      exact Program.safe_bind (safe_forward messageId hfirst hpending)
        (fun later _ hlater => ih hrest hlater)

/-- Delivering to the accepted recipients obeys the rule and accepts nobody. -/
theorem safe_deliver (parse : MessageParser) (data : Bytes)
    (hpending : pending history = recipients) :
    (deliver parse (storedFor recipients) data).Safe PossibleAnswer (SessionRule commands)
      (fun later _ => pending later = recipients) history := by
  rw [deliver]
  refine Program.safe_bind (safe_of_performs_storing (storeMessage_performs _ _) hpending) ?_
  intro stored result hstored
  split
  · exact .done hstored
  · refine Program.safe_bind
      (safe_of_performs_storing (linkInbounds_performs _ (List.Subset.refl _)) hstored) ?_
    intro linked result hlinked
    split
    · exact .done hlinked
    · exact Program.safe_bind (safe_forwardAll _ (List.Subset.refl _) hlinked)
        (fun later _ hlater => .done hlater)

/-- A command obeys the rule and leaves the handler with the recipients accepted since the last
`DATA`. -/
theorem safe_command (parse : MessageParser) {handler : ZonedMailHandler} {command : SmtpCommand}
    (hmem : command ∈ commands) (hpending : pending history = handler.recipients) :
    (handler.command parse command).Safe PossibleAnswer (SessionRule commands)
      (fun later next => pending later = next.recipients) history := by
  cases command with
  | mailFrom path | rset =>
      -- The handler is not told of the command and keeps its recipients.
      refine .perform trivial (fun answer _ => .done ?_)
      rw [pending_reply]
      show pending history = handler.recipients
      exact hpending
  | rcptTo path =>
      refine .perform trivial (fun answer _ => ?_)
      cases answer with
      | error e =>
          refine .perform trivial (fun answer _ => .done ?_)
          rw [pending_reply, pending_sql]
          show pending history = handler.recipients
          exact hpending
      | ok mailbox =>
          refine .perform ⟨hmem, history, mailbox, rfl, trivial⟩ (fun answer _ => .done ?_)
          rw [pending_reply, pending_sql, hpending]
          rfl
  | data payload =>
      have hemail : (handler.handleEmail parse payload).Safe PossibleAnswer (SessionRule commands)
          (fun _ result => result.2.recipients = []) history :=
        Program.safe_bind (safe_deliver parse payload hpending) (fun _ _ _ => .done rfl)
      refine Program.safe_bind hemail (fun later result hresult => ?_)
      refine .perform trivial (fun answer _ => .done ?_)
      rw [pending_reply, hresult]
      rfl

/-- A session obeys the rule. -/
theorem safe_session (parse : MessageParser) {handler : ZonedMailHandler} {rest : List SmtpCommand}
    (hrest : rest ⊆ commands) (hpending : pending history = handler.recipients) :
    (handler.session parse rest).Safe PossibleAnswer (SessionRule commands) (fun _ _ => True)
      history := by
  induction rest generalizing handler history with
  | nil => exact .done trivial
  | cons command rest ih =>
      obtain ⟨hfirst, hrest⟩ := List.cons_subset.mp hrest
      exact Program.safe_bind (safe_command parse hfirst hpending)
        (fun later next hlater => ih hrest hlater)

/-! ## The daemon -/

/-- What a thread of the daemon does. -/
inductive Task where
  | seed (config : Config)
  | request (request : Api.Request)
  | session (commands : List SmtpCommand)

/-- The program of a task. -/
def Task.program (parse : MessageParser) (lettre : Api.Lettre) : Task → Prog Unit
  | .seed config => do
      let _ ← seedFromConfig config
      pure ()
  | .request incoming => do
      let _ ← incoming.handle parse lettre
      pure ()
  | .session commands => newHandler.session parse commands

/-- The mailboxes that a task seeds. -/
def Task.entries : Task → List MailboxEntry
  | .seed config => config.mailboxes
  | .request _ | .session _ => []

/-- A storing effect creates neither a mailbox nor a job. -/
theorem StoringEffect.usual {recipients : List String} {effect : Effect}
    (h : StoringEffect recipients effect) : UsualEffect [] effect := by
  unfold UsualEffect
  split
  · exact h.elim
  · exact h.elim
  · trivial

theorem forwardAll_performs (messageId : Nat) (recipients : List String) :
    (forwardAll messageId recipients).Performs SendingEffect := by
  induction recipients with
  | nil => exact .done
  | cons recipient rest ih =>
      refine Program.performs_bind (performs_sql trivial (fun answer => ?_)) (fun _ => ih)
      split
      · exact .done
      · split
        · exact .done
        · refine Program.performs_bind (performs_sql ⟨_, _, _, rfl⟩ (fun answer => ?_))
            (fun _ => .done)
          split <;> exact .done

/-- Delivering a payload is storing and linking it, and then sending it on. -/
theorem deliver_performs {allowed : Effect → Prop} (parse : MessageParser)
    (recipients : List String) (data : Bytes)
    (hstoring : ∀ effect, StoringEffect recipients effect → allowed effect)
    (hsending : ∀ effect, SendingEffect effect → allowed effect) :
    (deliver parse recipients data).Performs allowed := by
  rw [deliver]
  refine Program.performs_bind ((storeMessage_performs recipients _).mono hstoring)
    (fun result => ?_)
  split
  · exact .done
  · refine Program.performs_bind
      ((linkInbounds_performs _ (List.Subset.refl recipients)).mono hstoring) (fun result => ?_)
    split
    · exact .done
    · exact Program.performs_bind ((forwardAll_performs _ _).mono hsending) (fun _ => .done)

theorem deliver_usual (parse : MessageParser) (recipients : List String) (data : Bytes) :
    (deliver parse recipients data).Performs (UsualEffect []) :=
  deliver_performs parse recipients data (fun _ h => h.usual) (fun _ h => h.usual)

/-- A session creates no mailbox, and only new jobs. -/
theorem session_usual (parse : MessageParser) (handler : ZonedMailHandler)
    (commands : List SmtpCommand) :
    (handler.session parse commands).Performs (UsualEffect []) := by
  induction commands generalizing handler with
  | nil => exact .done
  | cons command rest ih =>
      refine Program.performs_bind ?_ (fun next => ih next)
      cases command with
      | mailFrom path | rset => exact .perform trivial (fun _ => .done)
      | rcptTo path =>
          refine Program.performs_bind (performs_sql trivial (fun answer => ?_)) (fun result => ?_)
          · split <;> exact .done
          · exact .perform trivial (fun _ => .done)
      | data payload =>
          refine Program.performs_bind
            (Program.performs_bind (deliver_usual parse _ payload) (fun _ => .done))
            (fun result => ?_)
          exact .perform trivial (fun _ => .done)

/-- A task creates only the mailboxes that it seeds or that bodies ask for, and new jobs. -/
theorem Task.usual (parse : MessageParser) (lettre : Api.Lettre) (task : Task) :
    (task.program parse lettre).Performs (UsualEffect task.entries) := by
  cases task with
  | seed config => exact Program.performs_bind (seedFromConfig_usual config) (fun _ => .done)
  | request incoming =>
      exact Program.performs_bind (Api.handle_usual parse lettre incoming) (fun _ => .done)
  | session commands => exact session_usual parse newHandler commands

/-- What a task may do. -/
def Task.Rule (history : EffectHistory) (effect : Effect) : Task → Prop
  | .seed _ | .request _ => AddressedEffect effect
  | .session commands => SessionRule commands history effect

/-- One task a thread, over a database that starts out empty. -/
def daemon {Thread : Type} (parse : MessageParser) (lettre : Api.Lettre) (task : Thread → Task) :
    Pool Thread Effect Answer Unit Db :=
  ⟨Db.empty, fun thread => (task thread).program parse lettre⟩

/-- Every task obeys its rule. -/
theorem Task.safe_program (parse : MessageParser) (lettre : Api.Lettre) (task : Task) :
    (task.program parse lettre).Safe PossibleAnswer (fun history effect => task.Rule history effect)
      (fun _ _ => True) [] := by
  have hplain {program : Prog Unit} (h : program.Performs AddressedEffect) :
      program.Safe PossibleAnswer (fun _ effect => AddressedEffect effect) (fun _ _ => True) [] :=
    h.safe trivial (fun _ _ _ heffect => heffect) (fun _ _ _ _ _ => trivial)
  cases task with
  | seed config =>
      exact hplain ((Task.usual parse lettre (.seed config)).mono (fun _ h => h.addressed))
  | request incoming =>
      exact hplain ((Task.usual parse lettre (.request incoming)).mono (fun _ h => h.addressed))
  | session commands =>
      exact safe_session parse (List.Subset.refl commands) (by rfl)

/-- A session creates no mailbox. -/
theorem Task.Rule.addressed {task : Task} {history : EffectHistory} {effect : Effect}
    (h : task.Rule history effect) : AddressedEffect effect := by
  cases task with
  | seed config | request incoming => exact h
  | session commands =>
      unfold AddressedEffect
      split
      · exact h.elim
      · trivial

/-- A mailbox that was read is stored. -/
theorem Statement.get?_of_execute_getMailbox {id : String} {fault : Fault} {db : Db}
    {mailbox : Mailbox} (h : ((getMailbox id).execute fault db).1 = .ok mailbox) :
    db.mailboxes.get? id = some mailbox := by
  rcases execute_getMailbox id fault db with ⟨found, hfound, hok⟩ | ⟨e, herror⟩
  · rw [hok] at h
    cases h
    exact hfound
  · rw [herror] at h
    cases h

/-- Where every mailbox has an address, only addresses are found. -/
theorem Db.Addressed.possibleAnswer {db : Db} (h : db.Addressed) (effect : Effect)
    (fault : Statement.Fault) : PossibleAnswer effect (effect.execute fault db).1 := by
  cases effect with
  | reply command accepted => trivial
  | sql statement =>
      cases statement with
      | getMailbox id =>
          cases hanswer : ((Statement.getMailbox id).execute fault db).1 with
          | error e =>
              rw [Effect.execute, hanswer]
              trivial
          | ok mailbox =>
              rw [Effect.execute, hanswer]
              exact h id (by rw [Statement.get?_of_execute_getMailbox hanswer]; rfl)
      | _ => trivial

/-- In every interleaving every thread obeys the rule of its task. -/
theorem safe_daemon {Thread : Type} [DecidableEq Thread] {parse : MessageParser}
    {lettre : Api.Lettre} {task : Thread → Task} {trace : List (Moment Thread Effect Answer Db)}
    {finish : Pool Thread Effect Answer Unit Db}
    (hrun : Run (Pool.step Effect.execute) (fun _ _ => True) (daemon parse lettre task) trace
      finish) :
    Pool.SafeRun Effect.execute Db.Addressed PossibleAnswer
      (fun thread history effect => (task thread).Rule history effect) trace finish :=
  Pool.safe_run (fun effect fault _ h => h.possibleAnswer effect fault)
    (fun _ _ _ fault _ h hrule => h.execute hrule.addressed fault) Db.addressed_empty
    (fun thread => Task.safe_program parse lettre (task thread)) hrun

end Zonemail
