import Zonemail.Inbound.Session

/-!
# The server is no open relay

Whatever requests, seedings and other sessions run beside it, a session enqueues mail only for a
recipient it named and that was a stored mailbox when it was accepted, and only to the address that
this mailbox forwarded to when the payload was handled. Neither the fallback name nor anything in
the payload can put a job into the queue.
-/

namespace Zonemail

open Library

variable {Thread : Type} [DecidableEq Thread] {parse : MessageParser} {lettre : Api.Lettre}
  {task : Thread → Task} {trace : List (Moment Thread Effect Answer Db)}
  {finish : Pool Thread Effect Answer Unit Db}

/-- The moment is a reading of the mailbox with this id, which was stored then and of which
`property` held. -/
def ReadsMailbox (moment : Moment Thread Effect Answer Db) (id : String)
    (property : Mailbox → Prop) : Prop :=
  moment.effect = .sql (.getMailbox id) ∧
    ∃ mailbox, moment.before.mailboxes.get? id = some mailbox ∧ property mailbox

/-- A thread that has just read a mailbox found it in the database, under an address. -/
theorem exists_readsMailbox {earlier later : List (Moment Thread Effect Answer Db)}
    {thread : Thread} {id : String} {property : Mailbox → Prop}
    (hsafe : Pool.SafeRun Effect.execute Db.Addressed PossibleAnswer
      (fun thread history effect => (task thread).Rule history effect) trace finish)
    (htrace : trace = earlier ++ later)
    (h : JustRead (Pool.history thread earlier) id property) :
    '@' ∈ id.toList ∧
      ∃ front read, Pool.own thread earlier = front ++ [read] ∧ ReadsMailbox read id property := by
  obtain ⟨before, mailbox, hhistory, hproperty⟩ := h
  obtain ⟨start, read, rest, rfl, hthread, hevent, -, hrest⟩ :=
    Pool.exists_moment_of_history hhistory
  obtain ⟨-, haddressed, fault, hanswer⟩ :=
    hsafe.moments start read (rest ++ later) (by simp [htrace])
  have hown : Pool.own thread (start ++ read :: rest) = Pool.own thread start ++ [read] := by
    rw [Pool.own_append_cons start rest hthread, List.map_eq_nil_iff.mp hrest]
  obtain ⟨reader, effect, answer, db⟩ := read
  cases hevent
  have hstored : db.mailboxes.get? id = some mailbox :=
    Statement.get?_of_execute_getMailbox hanswer.symm
  exact ⟨haddressed id (Option.isSome_of_eq_some hstored),
    Pool.own thread start, _, hown, rfl, mailbox, hstored, hproperty⟩

/-- Every job a session creates is sent for an address that the session named in a `RCPT TO`, which
was accepted right after its mailbox was found stored, and is not the fallback name; and it goes to
the address that the stored mailbox forwarded to when the session last read it, just before. -/
theorem relayed_of_session {thread : Thread} {commands : List SmtpCommand}
    {earlier later : List (Moment Thread Effect Answer Db)}
    {moment : Moment Thread Effect Answer Db} {job : OutboundJob}
    (hrun : Run (Pool.step Effect.execute) (fun _ _ => True) (daemon parse lettre task) trace
      finish)
    (hthread : task thread = .session commands) (htrace : trace = earlier ++ moment :: later)
    (hmoment : moment.thread = thread) (heffect : moment.effect = .sql (.createOutbound job)) :
    job.senderId ≠ "unknown" ∧
    (∃ path front lookup response back, .rcptTo path ∈ commands ∧
      cleanEmail path = job.senderId ∧
      Pool.own thread earlier = front ++ lookup :: response :: back ∧
      ReadsMailbox lookup job.senderId (fun _ => True) ∧
      response.effect = .reply (.rcptTo path) true) ∧
    ∃ front read, Pool.own thread earlier = front ++ [read] ∧
      ReadsMailbox read job.senderId (fun mailbox => mailbox.forwardTo = some job.rcptTo) := by
  have hsafe := safe_daemon hrun
  obtain ⟨hrule, -, -⟩ := hsafe.moments earlier moment later htrace
  rw [hmoment, heffect, hthread] at hrule
  obtain ⟨hpending, hread⟩ := hrule
  obtain ⟨haddress, hforward⟩ := exists_readsMailbox hsafe htrace hread
  refine ⟨fun h => ?_, ?_, hforward⟩
  · rw [h] at haddress
    exact absurd haddress (by decide)
  · obtain ⟨path, before, after, hpath, hhistory, -⟩ :=
      exists_rcptTo_of_mem_acceptedSince hpending
    obtain ⟨start, response, rest, rfl, hresponse, hevent, hbefore, -⟩ :=
      Pool.exists_moment_of_history hhistory
    -- The moment of the reply obeys the rule too: the mailbox was read just before it.
    obtain ⟨haccept, -, -⟩ :=
      hsafe.moments start response (rest ++ moment :: later) (by simp [htrace])
    have hreply : response.effect = .reply (.rcptTo path) true := congrArg Sigma.fst hevent
    rw [hresponse, hreply, hthread] at haccept
    obtain ⟨hnamed, hlookup⟩ := haccept
    have hsplit : trace = start ++ (response :: rest ++ moment :: later) := by simp [htrace]
    obtain ⟨-, front, lookup, hown, hfound⟩ := exists_readsMailbox hsafe hsplit hlookup
    refine ⟨path, front, lookup, response, Pool.own thread rest, hnamed, hpath, ?_, ?_, hreply⟩
    · rw [Pool.own_append_cons start rest hresponse, hown]
      simp
    · rwa [hpath] at hfound

/-- One thread seeds a forwarding mailbox, the other is a session that sends it a payload without
headers; no request is made. -/
def relayDaemon : Pool Bool Effect Answer Unit Db :=
  daemon (fun _ => none) ⟨fun text => .ok ⟨none, text⟩, .ok, fun _ => .error "no recipient"⟩
    (fun
      | false => .seed ⟨["x.io"], [.detailed "a@x.io" (some "b@y.io")], []⟩
      | true => .session [.rcptTo "<A@x.io>", .data [1]])

/-- The session enqueues the forward as its sixth effect, after the four statements of seeding. -/
theorem relayed_to_forwardAddress : ∃ trace finish earlier moment,
    Run (Pool.step Effect.execute) (fun _ _ => True) relayDaemon trace finish ∧
      trace = earlier ++ [moment] ∧ moment.thread = true ∧
      moment.effect = .sql (.createOutbound (newJob 1 "a@x.io" "b@y.io")) ∧
      ∃ front read, Pool.own true earlier = front ++ [read] ∧
        ReadsMailbox read "a@x.io" (fun mailbox => mailbox.forwardTo = some "b@y.io") := by
  obtain ⟨earlier, moment, finish, hexecute, hthread, heffect⟩ : ∃ earlier moment finish,
      execute (Pool.step Effect.execute) relayDaemon
          (List.replicate 4 (false, none) ++ List.replicate 6 (true, none)) =
        some (earlier ++ [moment], finish) ∧ moment.thread = true ∧
      moment.effect = .sql (.createOutbound (newJob 1 "a@x.io" "b@y.io")) :=
    ⟨[_, _, _, _, _, _, _, _, _], _, _, rfl, rfl, rfl⟩
  have hrun := execute_run hexecute
  exact ⟨_, finish, earlier, moment, hrun, rfl, hthread, heffect,
    (relayed_of_session hrun rfl rfl hthread heffect).2.2⟩

end Zonemail
