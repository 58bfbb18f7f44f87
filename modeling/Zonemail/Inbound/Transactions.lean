import Zonemail.Inbound.Session

/-!
# Recipients and mail transactions

A mail transaction starts at `MAIL FROM`, at `RSET` and after a completed `DATA`. The handler drops
its recipients only at `DATA`, so the rows a `DATA` writes are for the recipients of its own
transaction as long as no transaction with accepted recipients was abandoned since the last `DATA`.
A payload without any recipient is stored under the fallback name.
-/

namespace Zonemail

open Library

/-- Commands after which a new transaction starts. -/
def SmtpCommand.startsTransaction : SmtpCommand → Bool
  | .mailFrom _ | .rset | .data _ => true
  | .rcptTo _ => false

/-- Commands that abandon the transaction they come in. -/
def SmtpCommand.abandons : SmtpCommand → Bool
  | .mailFrom _ | .rset => true
  | .rcptTo _ | .data _ => false

/-- The recipients accepted since the start of the transaction. -/
def transaction (history : EffectHistory) : List String :=
  acceptedSince SmtpCommand.startsTransaction history

/-- Since the last `DATA`, a recipient was accepted and its transaction abandoned. -/
def Abandoned (history : EffectHistory) : Prop :=
  ∃ earlier path middle abandoning later,
    history = earlier ++ ⟨.reply (.rcptTo path) true, ()⟩ :: (middle ++ abandoning :: later) ∧
    RepliesTo SmtpCommand.abandons abandoning.1 ∧
    ∀ event ∈ middle ++ later, ¬ RepliesTo SmtpCommand.isData event.1

/-- The address that a row is written for: of a link its recipient, of a job its sender. -/
def writtenFor : Effect → Option String
  | .sql (.createInbound _ rcptTo) => some rcptTo
  | .sql (.createOutbound job) => some job.senderId
  | _ => none

/-- Only `DATA` makes an abandoned transaction forgotten. -/
theorem Abandoned.snoc {history : EffectHistory} {event : Σ effect, Answer effect}
    (h : Abandoned history) (hevent : ¬ RepliesTo SmtpCommand.isData event.1) :
    Abandoned (history ++ [event]) := by
  obtain ⟨earlier, path, middle, abandoning, later, rfl, habandoning, hnone⟩ := h
  refine ⟨earlier, path, middle, abandoning, later ++ [event], by simp, habandoning, ?_⟩
  intro other hother
  rw [← List.append_assoc] at hother
  rcases List.mem_append.mp hother with hother | hother
  · exact hnone other hother
  · rw [List.mem_singleton.mp hother]
    exact hevent

/-- Abandoning a transaction in which a recipient is pending. -/
theorem abandoned_of_pending {history : EffectHistory} {event : Σ effect, Answer effect}
    {address : String} (h : address ∈ pending history)
    (hevent : RepliesTo SmtpCommand.abandons event.1) : Abandoned (history ++ [event]) := by
  obtain ⟨path, earlier, later, -, rfl, hlater⟩ := exists_rcptTo_of_mem_acceptedSince h
  exact ⟨earlier, path, later, event, [], by simp, hevent, by simpa using hlater⟩

/-- As long as no transaction with recipients was abandoned since the last `DATA`, the recipients
accepted since then are those of the transaction. -/
theorem transaction_eq_pending {history : EffectHistory} (h : ¬ Abandoned history) :
    transaction history = pending history := by
  induction history using List.reverseRecOn with
  | nil => rfl
  | append_singleton history event ih =>
      obtain ⟨effect, answer⟩ := event
      -- Any effect but the reply to a `DATA` leaves an abandoned transaction abandoned.
      have hkept (hevent : ¬ RepliesTo SmtpCommand.isData effect) :
          transaction history = pending history :=
        ih (fun habandoned => h (habandoned.snoc hevent))
      simp only [transaction, pending, acceptedSince_snoc] at hkept ⊢
      cases effect with
      | sql statement => exact hkept id
      | reply command accepted =>
          cases command with
          | data payload => rfl
          | rcptTo path =>
              rw [hkept (by simp [RepliesTo, SmtpCommand.isData])]
              rfl
          | mailFrom path | rset =>
              have hnone : pending history = [] := by
                by_contra hsome
                obtain ⟨address, hmem⟩ := List.exists_mem_of_ne_nil _ hsome
                exact h (abandoned_of_pending hmem rfl)
              show [] = pending history
              exact hnone.symm

variable {Thread : Type} [DecidableEq Thread] {parse : MessageParser} {lettre : Api.Lettre}
  {task : Thread → Task} {trace : List (Moment Thread Effect Answer Db)}
  {finish : Pool Thread Effect Answer Unit Db}

/-- One thread seeds two mailboxes, the other is a session with these commands, whose payloads have
no headers; no request is made. -/
def sessionDaemon (commands : List SmtpCommand) : Pool Bool Effect Answer Unit Db :=
  daemon (fun _ => none) ⟨fun text => .ok ⟨none, text⟩, .ok, fun _ => .error "no recipient"⟩
    (fun
      | false => .seed ⟨["x.io"], [.simple "a@x.io", .simple "b@x.io"], []⟩
      | true => .session commands)

/-- Seeding comes first, then this many effects of the session. -/
def sessionLabels (effects : Nat) : List (Bool × Statement.Fault) :=
  List.replicate 6 (false, none) ++ List.replicate effects (true, none)

end Zonemail
