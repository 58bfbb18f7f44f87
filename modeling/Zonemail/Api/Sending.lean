import Zonemail.Api.Handlers

/-!
# What a send leaves

`send_email` stores one message and then one job for each distinct recipient, in statements of their
own. `sendEmail_cases` says once what it answers and leaves, whichever statements fail: the request
is turned down before it writes, or the message or one of the jobs cannot be stored, or everything
is. What a successful send enqueues (`enqueued_of_send`), when a failed one leaves nothing
behind (`allOrNothing_iff`) and whether the worker can make an envelope of what was enqueued
(`deliverable_iff`) are read off it.
-/

namespace Zonemail.Api

open Library

/-! ## The recipients -/

/-- The texts of a list without repetitions, in the order in which they first occur. -/
structure FirstOccurrences (all distinct : List String) : Prop where
  mem_iff : ∀ text, text ∈ distinct ↔ text ∈ all
  ordered : distinct.Pairwise (fun first second => all.idxOf first < all.idxOf second)

/-- The next text is appended unless it was there before. -/
theorem FirstOccurrences.snoc {all distinct : List String} (h : FirstOccurrences all distinct)
    (text : String) :
    FirstOccurrences (all ++ [text])
      (if text ∈ distinct then distinct else distinct ++ [text]) := by
  have hkept : ∀ other ∈ distinct, (all ++ [text]).idxOf other = all.idxOf other :=
    fun other hmem =>
      List.idxOf_append_of_mem ((h.mem_iff other).mp hmem)
  have hordered : distinct.Pairwise
      (fun first second => (all ++ [text]).idxOf first < (all ++ [text]).idxOf second) := by
    refine h.ordered.imp_of_mem (fun hfirst hsecond hlt => ?_)
    rwa [hkept _ hfirst, hkept _ hsecond]
  by_cases hmem : text ∈ distinct
  · rw [if_pos hmem]
    refine ⟨fun other => ?_, hordered⟩
    rw [List.mem_append, List.mem_singleton, h.mem_iff]
    refine ⟨.inl, ?_⟩
    rintro (hold | rfl)
    · exact hold
    · exact (h.mem_iff _).mp hmem
  · rw [if_neg hmem]
    have hfresh : text ∉ all := fun hold => hmem ((h.mem_iff text).mpr hold)
    refine ⟨fun other => ?_, ?_⟩
    · rw [List.mem_append, List.mem_append, h.mem_iff]
    · refine List.pairwise_append.mpr ⟨hordered, List.pairwise_singleton _ _, ?_⟩
      intro other hother last hlast
      rw [List.mem_singleton] at hlast
      subst hlast
      rw [hkept other hother, List.idxOf_append_of_notMem hfresh, List.idxOf_cons_self,
        Nat.add_zero]
      exact List.idxOf_lt_length_of_mem ((h.mem_iff other).mp hother)

/-- The recipients of a body are its addresses in the order in which they first occur. -/
theorem firstOccurrences_recipients (email : SendEmail) :
    FirstOccurrences (email.toAddresses ++ email.ccAddresses ++ email.bccAddresses)
      email.recipients := by
  have hloop : ∀ (seen distinct rest : List String), FirstOccurrences seen distinct →
      FirstOccurrences (seen ++ rest) (rest.foldl
        (fun seen recipient => if recipient ∈ seen then seen else seen ++ [recipient])
        distinct) := by
    intro seen distinct rest h
    induction rest generalizing seen distinct with
    | nil => rwa [List.append_nil]
    | cons recipient rest ih =>
        rw [List.append_cons]
        exact ih _ _ (h.snoc recipient)
  exact hloop [] [] _ ⟨fun _ => Iff.rfl, List.Pairwise.nil⟩

/-! ## The loop over the recipients -/

variable {messageId : Nat} {sender : String} {outboundIds : List Nat} {recipients : List String}
  {world : World}

/-- The jobs of a message to these recipients were added in their order, and the messages are as
they were. -/
structure Enqueued (messageId : Nat) (sender : String) (recipients : List String)
    (jobs : List Outbound) (before after : Db) : Prop where
  contents : jobs.map Outbound.toOutboundJob =
    recipients.map (fun recipient => newJob messageId sender recipient)
  rows : after.outbounds.rows = before.outbounds.rows ++ jobs
  messages : after.messages = before.messages

/-- The loop enqueues a job for every recipient, unless one of its inserts fails: then the answer is
500. -/
theorem enqueueRest_cases (messageId : Nat) (sender : String) (outboundIds : List Nat)
    (recipients : List String) (world : World) :
    (Clear recipients.length world.faults ∧ ∃ jobs,
      ((enqueueRest messageId sender outboundIds recipients).eval world).1 =
        .ok (.sent ⟨messageId, outboundIds ++ jobs.map Outbound.id⟩) ∧
      Enqueued messageId sender recipients jobs world.db
        ((enqueueRest messageId sender outboundIds recipients).eval world).2.db) ∨
    ¬ Clear recipients.length world.faults ∧
      ((enqueueRest messageId sender outboundIds recipients).eval world).1.status = 500 ∧
      ((enqueueRest messageId sender outboundIds recipients).eval world).2.db.messages =
        world.db.messages := by
  induction recipients generalizing outboundIds world with
  | nil =>
      refine .inl ⟨clear_zero _, [], ?_, rfl, (List.append_nil _).symm, rfl⟩
      rw [List.map_nil, List.append_nil]
      rfl
  | cons recipient rest ih =>
      rw [enqueueRest, enqueueForward, Prog.eval_bind, Prog.eval_sql_bind, List.length_cons,
        clear_succ]
      cases hfault : world.faults.head?.join with
      | some text => exact .inr ⟨(fun hclear => nomatch hclear.1), rfl, rfl⟩
      | none =>
          have hrest := ih (outboundIds ++ [world.db.outbounds.next])
            ⟨((Statement.createOutbound (newJob messageId sender recipient)).execute none
              world.db).2, world.faults.tail⟩
          rcases hrest with ⟨hclear, jobs, hresponse, henqueued⟩ | ⟨hfails, hstatus, hmessages⟩
          · refine .inl ⟨⟨rfl, hclear⟩,
              ⟨newJob messageId sender recipient, world.db.outbounds.next⟩ :: jobs, ?_, ?_, ?_,
              henqueued.messages⟩
            · refine hresponse.trans ?_
              rw [List.map_cons, List.append_assoc, List.singleton_append]
            · rw [List.map_cons, List.map_cons, henqueued.contents]
            · exact henqueued.rows.trans (List.append_assoc ..)
          · exact .inr ⟨fun hclear => hfails hclear.2, hstatus, hmessages⟩

/-- The messages with the one of a send added. -/
def messagesWith (parse : MessageParser) (message : LettreMessage) (db : Db) :
    AutoTable Message.id :=
  db.messages.push (fun id => ⟨sentContent parse message, id⟩) (fun _ => rfl)

/-- The database after the first two inserts of a send. -/
def enqueuedFirst (parse : MessageParser) (sender recipient : String) (message : LettreMessage)
    (db : Db) : Db :=
  { db with
    messages := messagesWith parse message db
    outbounds := db.outbounds.push (fun id => ⟨newJob db.messages.next sender recipient, id⟩)
      (fun _ => rfl) }

/-- `enqueue_outbound` stores the message and its first job, or only the message, or nothing. -/
theorem enqueueOutbound_cases (parse : MessageParser) (sender recipient : String)
    (message : LettreMessage) (world : World) :
    (world.faults.head?.join ≠ none ∧ ∃ e faults,
      (enqueueOutbound parse sender recipient message).eval world =
        (.error e, ⟨world.db, faults⟩)) ∨
    (world.faults.head?.join = none ∧ world.faults.tail.head?.join ≠ none ∧ ∃ e faults,
      (enqueueOutbound parse sender recipient message).eval world =
        (.error e, ⟨{ world.db with messages := messagesWith parse message world.db }, faults⟩)) ∨
    world.faults.head?.join = none ∧ world.faults.tail.head?.join = none ∧
      (enqueueOutbound parse sender recipient message).eval world =
        (.ok (world.db.messages.next, world.db.outbounds.next),
          ⟨enqueuedFirst parse sender recipient message world.db, world.faults.tail.tail⟩) := by
  rw [enqueueOutbound, Prog.eval_sql_bind]
  cases hstored : world.faults.head?.join with
  | some text => exact .inl ⟨nofun, _, _, rfl⟩
  | none =>
      simp only [Statement.execute, Statement.run]
      rw [Prog.eval_sql_bind]
      cases hfirst : world.faults.tail.head?.join with
      | some text => exact .inr (.inl ⟨trivial, nofun, _, _, rfl⟩)
      | none => exact .inr (.inr ⟨trivial, rfl, rfl⟩)

/-! ## A send -/

/-- The request is not turned down before it writes: there is a recipient, the sender is a stored
mailbox and the lookup does not fail, and the message can be built. -/
structure Accepts (lettre : Lettre) (email : SendEmail) (message : LettreMessage) (world : World) :
    Prop where
  recipients : email.recipients ≠ []
  found : world.faults.head?.join = none
  sender : (world.db.mailboxes.get? email.sender).isSome
  built : buildSendMessage lettre email = .ok message

/-- What a send answers and leaves: it is turned down, or its message cannot be stored, or one of
its jobs, or everything is stored. -/
inductive Outcome (parse : MessageParser) (lettre : Lettre) (email : SendEmail) (world : World) :
    Response → Db → Prop where
  | refused {response : Response} (hnot : ∀ message, ¬ Accepts lettre email message world)
      (hstatus : response.status = 400 ∨ response.status = 409) :
      Outcome parse lettre email world response world.db
  | unstored {response : Response} {message : LettreMessage}
      (haccepts : Accepts lettre email message world)
      (hfails : world.faults.tail.head?.join ≠ none) (hstatus : response.status = 500) :
      Outcome parse lettre email world response world.db
  | partly {response : Response} {message : LettreMessage} {after : Db}
      (haccepts : Accepts lettre email message world)
      (hstored : world.faults.tail.head?.join = none)
      (hfails : ¬ Clear email.recipients.length world.faults.tail.tail)
      (hstatus : response.status = 500)
      (hmessages : after.messages = messagesWith parse message world.db) :
      Outcome parse lettre email world response after
  | sent {message : LettreMessage} {jobs : List Outbound} {after : Db}
      (haccepts : Accepts lettre email message world)
      (hstored : world.faults.tail.head?.join = none)
      (hclear : Clear email.recipients.length world.faults.tail.tail)
      (hmessages : after.messages = messagesWith parse message world.db)
      (hrows : after.outbounds.rows = world.db.outbounds.rows ++ jobs)
      (hcontents : jobs.map Outbound.toOutboundJob = email.recipients.map
        (fun recipient => newJob world.db.messages.next email.sender recipient)) :
      Outcome parse lettre email world
        (.ok (.sent ⟨world.db.messages.next, jobs.map Outbound.id⟩)) after

/-- The writes of a send that is not turned down. -/
theorem outcome_of_accepts {parse : MessageParser} {lettre : Lettre} {email : SendEmail}
    {message : LettreMessage} {first : String} {rest : List String}
    (haccepts : Accepts lettre email message world)
    (hrecipients : email.recipients = first :: rest) :
    let written := (do
      match ← enqueueOutbound parse email.sender first message with
      | .error e => pure (.problem 500 (.serverError e))
      | .ok (messageId, outboundId) => enqueueRest messageId email.sender [outboundId] rest :
        Prog Response).eval ⟨world.db, world.faults.tail⟩
    Outcome parse lettre email world written.1 written.2.db := by
  have hlength : email.recipients.length = rest.length + 1 := by
    rw [hrecipients]
    rfl
  rw [Prog.eval_bind]
  rcases enqueueOutbound_cases parse email.sender first message ⟨world.db, world.faults.tail⟩ with
    ⟨hfails, e, faults, h⟩ | ⟨hstored, hfails, e, faults, h⟩ | ⟨hstored, hfirst, h⟩
  · rw [h]
    exact .unstored haccepts hfails rfl
  · rw [h]
    refine .partly haccepts hstored (fun hclear => ?_) rfl rfl
    rw [hlength, clear_succ] at hclear
    exact hfails hclear.1
  · rw [h]
    rcases enqueueRest_cases world.db.messages.next email.sender [world.db.outbounds.next] rest
      ⟨enqueuedFirst parse email.sender first message world.db, world.faults.tail.tail.tail⟩ with
      ⟨hclear, jobs, hresponse, henqueued⟩ | ⟨hfails, hstatus, hmessages⟩
    · -- The first job and those of the loop are the jobs of all recipients.
      let job : Outbound := ⟨newJob world.db.messages.next email.sender first,
        world.db.outbounds.next⟩
      have hsent := @Outcome.sent parse lettre email world message (job :: jobs) _ haccepts hstored
        (by rw [hlength, clear_succ]; exact ⟨hfirst, hclear⟩) henqueued.messages
        (henqueued.rows.trans (List.append_assoc ..))
        (by rw [hrecipients, List.map_cons, List.map_cons, henqueued.contents])
      rwa [← List.singleton_append, List.map_append, List.map_singleton, ← hresponse] at hsent
    · refine .partly haccepts hstored (fun hclear => hfails ?_) hstatus hmessages
      rw [hlength, clear_succ] at hclear
      exact hclear.2

/-- What a send answers and leaves, whichever statements fail. -/
theorem sendEmail_cases (parse : MessageParser) (lettre : Lettre) (email : SendEmail)
    (world : World) :
    Outcome parse lettre email world ((sendEmail parse lettre (some email)).eval world).1
      ((sendEmail parse lettre (some email)).eval world).2.db := by
  cases hrecipients : email.recipients with
  | nil =>
      simp only [sendEmail, hrecipients]
      exact .refused (fun _ haccepts => haccepts.recipients hrecipients) (.inl rfl)
  | cons first rest =>
      simp only [sendEmail, hrecipients]
      rw [Prog.eval_sql_bind]
      cases hfault : world.faults.head?.join with
      | some text =>
          refine .refused (fun _ haccepts => ?_) (.inr rfl)
          rw [haccepts.found] at hfault
          cases hfault
      | none =>
          cases hsender : world.db.mailboxes.get? email.sender with
          | none =>
              simp only [Statement.execute, Statement.run, Statement.found, hsender]
              refine .refused (fun _ haccepts => ?_) (.inr rfl)
              have hstored := haccepts.sender
              rw [hsender] at hstored
              cases hstored
          | some mailbox =>
              simp only [Statement.execute, Statement.run, Statement.found, hsender]
              cases hbuild : buildSendMessage lettre email with
              | error e =>
                  refine .refused (fun _ haccepts => ?_) (.inl rfl)
                  rw [haccepts.built] at hbuild
                  cases hbuild
              | ok message =>
                  exact outcome_of_accepts ⟨by simp [hrecipients], hfault, by rw [hsender]; rfl,
                    hbuild⟩ hrecipients

/-! ## What is enqueued -/

/-- When no statement fails, a request is not turned down exactly when it has a recipient, its
sender is stored and its message can be built. -/
theorem accepts_iff {lettre : Lettre} {email : SendEmail} {db : Db} :
    (∃ message, Accepts lettre email message ⟨db, []⟩) ↔
      email.toAddresses ++ email.ccAddresses ++ email.bccAddresses ≠ [] ∧
        (∃ mailbox, db.mailboxes.get? email.sender = some mailbox) ∧
        ∃ message, buildSendMessage lettre email = .ok message := by
  have hrecipients := firstOccurrences_recipients email
  have hempty : email.recipients = [] ↔
      email.toAddresses ++ email.ccAddresses ++ email.bccAddresses = [] := by
    rw [List.eq_nil_iff_forall_not_mem, List.eq_nil_iff_forall_not_mem]
    exact forall_congr' (fun text => not_congr (hrecipients.mem_iff text))
  constructor
  · intro h
    obtain ⟨message, hsome, -, hsender, hbuilt⟩ := h
    exact ⟨fun hnil => hsome (hempty.mpr hnil), Option.isSome_iff_exists.mp hsender,
      message, hbuilt⟩
  · intro h
    obtain ⟨hsome, hsender, message, hbuilt⟩ := h
    exact ⟨message, fun hnil => hsome (hempty.mp hnil), rfl, Option.isSome_iff_exists.mpr hsender,
      hbuilt⟩

/-- **A successful send enqueues exactly the right jobs.** For every body and every database, when
no statement fails: an answer of 200 adds one message and, for each distinct text among the
recipients in the order in which they first occur, one job that is queued, untried and due, and it
returns the numbers of the rows; an answer of 400 or 409 adds nothing; and the answer is 200 exactly
when there is a recipient, the sender is a stored mailbox and the message can be built. -/
theorem enqueued_of_send (parse : MessageParser) (lettre : Lettre) (email : SendEmail) (db : Db) :
    let sent := (sendEmail parse lettre (some email)).eval ⟨db, []⟩
    (sent.1.status = 200 → ∃ message distinct jobs,
      buildSendMessage lettre email = .ok message ∧
      FirstOccurrences (email.toAddresses ++ email.ccAddresses ++ email.bccAddresses) distinct ∧
      sent.2.db.messages.rows =
        db.messages.rows ++ [⟨sentContent parse message, db.messages.next⟩] ∧
      sent.2.db.outbounds.rows = db.outbounds.rows ++ jobs ∧
      jobs.map Outbound.toOutboundJob = distinct.map (fun recipient =>
        ⟨db.messages.next, recipient, email.sender, .queued, 0, none, none⟩) ∧
      sent.1 = .ok (.sent ⟨db.messages.next, jobs.map Outbound.id⟩)) ∧
    (sent.1.status = 400 ∨ sent.1.status = 409 → sent.2.db = db) ∧
    (sent.1.status = 200 ↔
      email.toAddresses ++ email.ccAddresses ++ email.bccAddresses ≠ [] ∧
        (∃ mailbox, db.mailboxes.get? email.sender = some mailbox) ∧
        ∃ message, buildSendMessage lettre email = .ok message) := by
  intro sent
  rw [← accepts_iff]
  have houtcome : Outcome parse lettre email ⟨db, []⟩ sent.1 sent.2.db :=
    sendEmail_cases parse lettre email ⟨db, []⟩
  generalize sent.1 = response, sent.2.db = after at houtcome ⊢
  cases houtcome with
  | refused hnot hstatus =>
      refine ⟨fun hok => ?_, fun _ => rfl, ?_⟩
      · rw [hok] at hstatus
        rcases hstatus with h | h
        · cases h
        · cases h
      · refine iff_of_false (fun hok => ?_) (fun ⟨message, haccepts⟩ => hnot message haccepts)
        rw [hok] at hstatus
        rcases hstatus with h | h
        · cases h
        · cases h
  | unstored _ hfails => exact absurd rfl hfails
  | partly _ _ hfails => exact absurd (clear_nil _) hfails
  | @sent message jobs _ haccepts _ _ hmessages hrows hcontents =>
      refine ⟨fun _ => ⟨message, email.recipients, jobs, haccepts.built,
        firstOccurrences_recipients email, ?_, hrows, hcontents, rfl⟩, ?_, ?_⟩
      · rw [hmessages]
        rfl
      · rintro (h | h)
        · cases h
        · cases h
      · exact iff_of_true rfl ⟨message, haccepts⟩

/-! ## All or nothing -/

/-- A send that does not answer 200 leaves the messages and the jobs as they were. -/
def AllOrNothing (parse : MessageParser) (lettre : Lettre) (email : SendEmail) (world : World) :
    Prop :=
  let sent := (sendEmail parse lettre (some email)).eval world
  sent.1.status ≠ 200 →
    sent.2.db.messages = world.db.messages ∧ sent.2.db.outbounds = world.db.outbounds

/-- A message more is not the messages as they were. -/
theorem messagesWith_ne (parse : MessageParser) (message : LettreMessage) (db : Db) :
    messagesWith parse message db ≠ db.messages := by
  intro heq
  have hlength := congrArg (fun table => table.rows.length) heq
  simp [messagesWith] at hlength

/-- **When a send is all or nothing.** For every body, every database and whichever statements fail:
a send that does not answer 200 leaves the messages and the jobs as they were if and only if it is
turned down before it writes, or its message cannot be stored, or none of its jobs fails. -/
theorem allOrNothing_iff {parse : MessageParser} {lettre : Lettre} {email : SendEmail}
    {world : World} :
    AllOrNothing parse lettre email world ↔
      ∀ message, Accepts lettre email message world →
        world.faults.tail.head?.join ≠ none ∨
          Clear email.recipients.length world.faults.tail.tail := by
  have houtcome := sendEmail_cases parse lettre email world
  unfold AllOrNothing
  generalize (sendEmail parse lettre (some email)).eval world = sent at houtcome
  obtain ⟨response, after⟩ := sent
  generalize hdb : after.db = db at houtcome
  simp only [hdb]
  cases houtcome with
  | refused hnot hstatus =>
      exact iff_of_true (fun _ => ⟨rfl, rfl⟩)
        (fun message haccepts => absurd haccepts (hnot message))
  | unstored haccepts hfails hstatus =>
      exact iff_of_true (fun _ => ⟨rfl, rfl⟩) (fun _ _ => .inl hfails)
  | partly haccepts hstored hfails hstatus hmessages =>
      refine iff_of_false (fun hall => ?_) (fun hcond => ?_)
      · have hsame := (hall (by rw [hstatus]; decide)).1
        rw [hmessages] at hsame
        exact messagesWith_ne _ _ _ hsame
      · rcases hcond _ haccepts with hunstored | hclear
        · exact hunstored hstored
        · exact hfails hclear
  | sent haccepts hstored hclear =>
      exact iff_of_true (fun hfailed => absurd rfl hfailed) (fun _ _ => .inr hclear)

/-- A database with the sender's mailbox. -/
def senderMailbox : Db :=
  ((Statement.createMailbox ⟨"a@x.io", "x.io", none⟩).execute none Db.empty).2

/-- A bare address, without a display name and angle brackets. -/
def bareAddress (text : String) : Except String String :=
  if text.toList.any (fun c => c = ' ' ∨ c = '<' ∨ c = '>') then .error "invalid address"
  else .ok text

/-- A bare address, or a display name and an address in angle brackets. -/
def namedAddress (text : String) : Except String LettreMailbox :=
  match Text.split '<' text with
  | [name, address] =>
      (bareAddress (Text.trimEndMatches (· == '>') address)).map (⟨some (Text.trim name), ·⟩)
  | _ => (bareAddress text).map (⟨none, ·⟩)

/-- A mail library that knows both forms of a mailbox and takes the sender for the sender of the
envelope. -/
def namedLettre : Lettre where
  parseMailbox := namedAddress
  parseContentType := .ok
  build draft := .ok ⟨some draft.sender.email, [72, 105]⟩

/-- A message to two recipients. -/
def twoRecipients : SendEmail := ⟨"a@x.io", ["b@y.io", "c@y.io"], [], [], none, "", none⟩

/-- The database fails at the second job: the answer is 500, and the message and the first job
stay. -/
theorem not_allOrNothing_twoRecipients : ¬ ∀ (parse : MessageParser) (lettre : Lettre)
    (email : SendEmail) (world : World), AllOrNothing parse lettre email world := by
  intro h
  have hsame := (h (fun _ => none) namedLettre twoRecipients
    ⟨senderMailbox, [none, none, none, some "disk full"]⟩ (by decide)).2
  have hjobs := congrArg (fun table => table.rows.length) hsame
  cases hjobs

/-! ## What the worker makes of it -/

/-- A computation that succeeds is two that do. -/
theorem of_bind_ok {α β : Type} {first : Except String α} {next : α → Except String β} {result : β}
    (h : first >>= next = .ok result) : ∃ value, first = .ok value ∧ next value = .ok result := by
  cases first with
  | error e => cases h
  | ok value => exact ⟨value, rfl, h⟩

/-- Another text for the error does not change the success. -/
theorem of_mapError_ok {α : Type} {computation : Except String α} {f : String → String} {result : α}
    (h : computation.mapError f = .ok result) : computation = .ok result := by
  cases computation with
  | error e => cases h
  | ok value => exact h

/-- The sender of a body that can be built is a mailbox, and the message was built with it. -/
theorem sender_of_buildSendMessage {lettre : Lettre} {email : SendEmail} {message : LettreMessage}
    (h : buildSendMessage lettre email = .ok message) :
    ∃ draft, lettre.parseMailbox email.sender = .ok draft.sender ∧
      lettre.build draft = .ok message := by
  obtain ⟨sender, hsender, h⟩ := of_bind_ok h
  obtain ⟨toAddresses, -, h⟩ := of_bind_ok h
  obtain ⟨ccAddresses, -, h⟩ := of_bind_ok h
  obtain ⟨bccAddresses, -, h⟩ := of_bind_ok h
  cases hcontent : email.contentType with
  | none =>
      rw [hcontent] at h
      obtain ⟨contentType, -, h⟩ := of_bind_ok h
      exact ⟨_, of_mapError_ok hsender, of_mapError_ok h⟩
  | some text =>
      rw [hcontent] at h
      obtain ⟨contentType, -, h⟩ := of_bind_ok h
      exact ⟨_, of_mapError_ok hsender, of_mapError_ok h⟩

/-- With a sender that is an address, the envelope depends on the recipient only. -/
theorem buildEnvelope_iff {ctx : Context} {mailFrom recipient address : String}
    (hsender : ctx.parseAddress mailFrom = .ok address) :
    (∃ envelope, ctx.buildEnvelope mailFrom recipient = .ok envelope) ↔
      ∃ parsed, ctx.parseAddress recipient = .ok parsed := by
  have hbuild : ctx.buildEnvelope mailFrom recipient =
      ((ctx.parseAddress recipient).mapError (err "invalid RCPT TO")).map (fun forwardPath =>
        ⟨if (Text.trim mailFrom).isEmpty then none else some address, forwardPath⟩) := by
    rw [Context.buildEnvelope, hsender]
    split
    · cases ctx.parseAddress recipient <;> rfl
    · cases ctx.parseAddress recipient <;> rfl
  rw [hbuild]
  cases ctx.parseAddress recipient with
  | error e => exact iff_of_false nofun nofun
  | ok parsed => exact iff_of_true ⟨_, rfl⟩ ⟨parsed, rfl⟩

/-- The worker can make an envelope for every job that was added between two databases. -/
def Deliverable (ctx : Context) (before after : Db) : Prop :=
  ∀ job ∈ after.outbounds.rows, job ∉ before.outbounds.rows →
    ∃ message envelope, after.messages.get? job.messageId = some message ∧
      ctx.buildEnvelope message.mailFrom job.rcptTo = .ok envelope

/-- The jobs of a send have its message, and their recipients are those of the body. -/
theorem job_iff_of_contents {messageId : Nat} {sender : String} {recipients : List String}
    {jobs : List Outbound} (hcontents : jobs.map Outbound.toOutboundJob =
      recipients.map (fun recipient => newJob messageId sender recipient)) :
    (∀ job ∈ jobs, job.messageId = messageId ∧ job.rcptTo ∈ recipients) ∧
      ∀ recipient ∈ recipients, ∃ job ∈ jobs, job.rcptTo = recipient := by
  constructor
  · intro job hjob
    have hcontent := List.mem_map_of_mem (f := Outbound.toOutboundJob) hjob
    rw [hcontents] at hcontent
    obtain ⟨recipient, hrecipient, heq⟩ := List.mem_map.mp hcontent
    rw [← heq]
    exact ⟨rfl, hrecipient⟩
  · intro recipient hrecipient
    have hcontent := List.mem_map_of_mem
      (f := fun recipient => newJob messageId sender recipient) hrecipient
    rw [← hcontents] at hcontent
    obtain ⟨job, hjob, heq⟩ := List.mem_map.mp hcontent
    exact ⟨job, hjob, congrArg OutboundJob.rcptTo heq⟩

/-- A row that was added was not there before. -/
theorem not_mem_of_added {before after : Db} {jobs : List Outbound}
    (hrows : after.outbounds.rows = before.outbounds.rows ++ jobs) {job : Outbound}
    (hjob : job ∈ jobs) : job ∉ before.outbounds.rows := by
  have hnodup := after.outbounds.nodup.of_map
  rw [hrows] at hnodup
  exact fun hold => List.disjoint_of_nodup_append hnodup hold hjob

/-- What the worker makes of the jobs that were added for a message. -/
theorem deliverable_iff_of_added {ctx : Context} {before after : Db} {message : Message}
    {sender address : String} {recipients : List String} {jobs : List Outbound}
    (hsender : ctx.parseAddress message.mailFrom = .ok address)
    (hmessage : after.messages.get? message.id = some message)
    (hrows : after.outbounds.rows = before.outbounds.rows ++ jobs)
    (hcontents : jobs.map Outbound.toOutboundJob =
      recipients.map (fun recipient => newJob message.id sender recipient)) :
    Deliverable ctx before after ↔
      ∀ recipient ∈ recipients, ∃ address, ctx.parseAddress recipient = .ok address := by
  obtain ⟨hjobs, hall⟩ := job_iff_of_contents hcontents
  constructor
  · intro hdeliverable recipient hrecipient
    obtain ⟨job, hjob, rfl⟩ := hall recipient hrecipient
    obtain ⟨found, envelope, hfound, henvelope⟩ := hdeliverable job
      (by rw [hrows]; exact List.mem_append_right _ hjob) (not_mem_of_added hrows hjob)
    rw [(hjobs job hjob).1, hmessage] at hfound
    cases hfound
    exact (buildEnvelope_iff hsender).mp ⟨envelope, henvelope⟩
  · intro haddresses job hmem hold
    rw [hrows] at hmem
    obtain ⟨hid, hrecipient⟩ := hjobs job ((List.mem_append.mp hmem).resolve_left hold)
    obtain ⟨envelope, henvelope⟩ := (buildEnvelope_iff hsender).mpr (haddresses _ hrecipient)
    exact ⟨message, envelope, by rw [hid, hmessage], henvelope⟩

/-- **When the recipients of a send are recipients for the worker.** For every body that is answered
200, whatever the database: when the mail library takes the sender of the body for the sender of the
envelope, and writes a parsed mailbox's address as one that it can parse again, the worker can make
an envelope for every job of the send if and only if every text among the recipients is an address,
and not only a mailbox. -/
theorem deliverable_iff {ctx : Context} {parse : MessageParser} {lettre : Lettre}
    {email : SendEmail} {world : World}
    (henvelope : ∀ draft message, lettre.build draft = .ok message →
      message.envelopeFrom = some draft.sender.email)
    (haddress : ∀ text mailbox, lettre.parseMailbox text = .ok mailbox →
      ∃ address, ctx.parseAddress mailbox.email = .ok address)
    (hok : ((sendEmail parse lettre (some email)).eval world).1.status = 200) :
    Deliverable ctx world.db ((sendEmail parse lettre (some email)).eval world).2.db ↔
      ∀ recipient ∈ email.toAddresses ++ email.ccAddresses ++ email.bccAddresses,
        ∃ address, ctx.parseAddress recipient = .ok address := by
  have houtcome := sendEmail_cases parse lettre email world
  generalize (sendEmail parse lettre (some email)).eval world = sent at houtcome hok
  obtain ⟨response, after⟩ := sent
  simp only at houtcome hok ⊢
  generalize after.db = db at houtcome
  cases houtcome with
  | refused hnot hstatus =>
      rw [hok] at hstatus
      rcases hstatus with h | h
      · cases h
      · cases h
  | unstored _ _ hstatus | partly _ _ _ hstatus =>
      rw [hok] at hstatus
      cases hstatus
  | @sent message jobs _ haccepts _ hclear hmessages hrows hcontents =>
      obtain ⟨draft, hsender, hbuilt⟩ := sender_of_buildSendMessage haccepts.built
      obtain ⟨address, hparsed⟩ := haddress _ _ hsender
      let stored : Message := ⟨sentContent parse message, world.db.messages.next⟩
      have hfrom : stored.mailFrom = draft.sender.email := by
        show message.envelopeFrom.getD "" = _
        rw [henvelope _ _ hbuilt, Option.getD_some]
      have hstored : db.messages.get? stored.id = some stored := by
        rw [hmessages, messagesWith, AutoTable.get?_push, if_pos rfl]
      rw [deliverable_iff_of_added (hfrom ▸ hparsed) hstored hrows hcontents]
      exact forall_congr' (fun recipient =>
        imp_congr_left ((firstOccurrences_recipients email).mem_iff recipient))

/-- A worker that takes bare addresses only. -/
def bareContext : Context where
  config := ⟨8, 60, 3600, ⟨.plain, none, false⟩, 25⟩
  var := fun _ => none
  parseAddress := bareAddress

/-- What is parsed as a bare address is one. -/
theorem bareAddress_of_ok {text address : String} (h : bareAddress text = .ok address) :
    bareAddress address = .ok address := by
  have hbare := h
  unfold bareAddress at h
  split at h
  · cases h
  · cases h
    exact hbare

/-- The address of a parsed mailbox is a bare one. -/
theorem bareAddress_of_namedAddress {text : String} {mailbox : LettreMailbox}
    (h : namedAddress text = .ok mailbox) :
    ∃ address, bareContext.parseAddress mailbox.email = .ok address := by
  have hmap (name : Option String) (text : String)
      (h : (bareAddress text).map (⟨name, ·⟩) = Except.ok mailbox) :
      ∃ address, bareContext.parseAddress mailbox.email = .ok address := by
    cases hbare : bareAddress text with
    | error e =>
        rw [hbare] at h
        cases h
    | ok address =>
        rw [hbare] at h
        cases h
        exact ⟨address, bareAddress_of_ok hbare⟩
  unfold namedAddress at h
  split at h
  · exact hmap _ _ h
  · exact hmap _ _ h

/-- The worker can make envelopes for two bare addresses. -/
theorem deliverable_twoRecipients : Deliverable bareContext senderMailbox
    ((sendEmail (fun _ => none) namedLettre (some twoRecipients)).eval
      ⟨senderMailbox, []⟩).2.db := by
  have hbare : ∀ recipient ∈ twoRecipients.toAddresses ++ twoRecipients.ccAddresses ++
      twoRecipients.bccAddresses, ∃ address, bareContext.parseAddress recipient = .ok address := by
    intro recipient hmem
    rcases List.mem_pair.mp hmem with rfl | rfl
    · exact ⟨"b@y.io", rfl⟩
    · exact ⟨"c@y.io", rfl⟩
  refine (deliverable_iff (fun _ _ h => ?_) (fun _ _ => bareAddress_of_namedAddress) ?_).mpr hbare
  · cases h
    rfl
  · rfl

/-- A message to a mailbox with a display name. -/
def namedRecipient : SendEmail := ⟨"a@x.io", ["Bob <b@y.io>"], [], [], none, "", none⟩

/-- A mailbox with a display name is accepted, and the worker cannot make an envelope for it. -/
theorem not_deliverable_namedRecipient : ¬ ∀ (ctx : Context) (parse : MessageParser)
    (lettre : Lettre) (email : SendEmail) (world : World),
    (∀ draft message, lettre.build draft = .ok message →
      message.envelopeFrom = some draft.sender.email) →
    (∀ text mailbox, lettre.parseMailbox text = .ok mailbox →
      ∃ address, ctx.parseAddress mailbox.email = .ok address) →
    ((sendEmail parse lettre (some email)).eval world).1.status = 200 →
    Deliverable ctx world.db ((sendEmail parse lettre (some email)).eval world).2.db := by
  intro h
  have hdeliverable := h bareContext (fun _ => none) namedLettre namedRecipient ⟨senderMailbox, []⟩
    (fun _ _ h => by cases h; rfl) (fun _ _ => bareAddress_of_namedAddress) rfl
  obtain ⟨message, envelope, hmessage, henvelope⟩ := hdeliverable
    ⟨newJob 1 "a@x.io" "Bob <b@y.io>", 1⟩ (List.mem_singleton_self _) List.not_mem_nil
  have hstored : message ∈
      [(⟨sentContent (fun _ => none) ⟨some "a@x.io", [72, 105]⟩, 1⟩ : Message)] :=
    Table.mem_of_get? hmessage
  cases List.mem_singleton.mp hstored
  cases henvelope

end Zonemail.Api
