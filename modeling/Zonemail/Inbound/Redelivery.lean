import Zonemail.Inbound.Duplicates

/-!
# The same mail again

A sender that does not see the reply sends the mail again, and a mailbox may be named twice in one
transaction. The handler recognises a mail that it has stored already, and then links it to the
recipients and forwards it as if it were new. `redelivered_iff` says for which payloads, recipients
and databases any number of calls leave what de-duplication suggests: one message, one link and one
forward for each recipient.
-/

namespace Zonemail

open Library

/-! ## What a call leaves -/

/-- The messages and the recipients that are linked. -/
def Db.links (db : Db) : List (Nat × String) :=
  db.inbounds.rows.map (fun link => (link.messageId, link.rcptTo))

/-- The messages that are sent on, with the mailboxes they are sent for. -/
def Db.jobs (db : Db) : List (Nat × String) :=
  db.outbounds.rows.map (fun job => (job.messageId, job.senderId))

/-- Does the mailbox forward its mail? -/
def Db.forwards (db : Db) (recipient : String) : Bool :=
  ((db.mailboxes.get? recipient).bind Mailbox.forwardTo).isSome

/-- The number of the message that a payload is stored as. -/
def storedAs (content : MessageContent) (db : Db) : Nat :=
  match duplicateOf content ⟨db, []⟩ with
  | some existing => existing.id
  | none => db.messages.next

variable {content : MessageContent} {db : Db}

/-- A lookup without faults. -/
theorem eval_findDuplicate_nil (content : MessageContent) (db : Db) :
    (findDuplicate content).eval ⟨db, []⟩ =
      ((duplicateOf content ⟨db, []⟩).map Message.id, ⟨db, []⟩) := by
  refine Prod.ext (eval_findDuplicate content ⟨db, []⟩).1 ?_
  unfold findDuplicate
  cases dedupKey content with
  | none => rfl
  | some key => rfl

/-- A payload is stored, or recognised. -/
theorem eval_storeMessage (content : MessageContent) (db : Db) :
    ∃ after, (storeMessage content).eval ⟨db, []⟩ = (.ok (storedAs content db), ⟨after, []⟩) ∧
      after.mailboxes = db.mailboxes ∧ after.inbounds = db.inbounds ∧
      after.outbounds = db.outbounds ∧
      after.messages.rows =
        match duplicateOf content ⟨db, []⟩ with
        | some _ => db.messages.rows
        | none => db.messages.rows ++ [⟨content, db.messages.next⟩] := by
  rw [storeMessage, Prog.eval_bind, eval_findDuplicate_nil, storedAs]
  cases duplicateOf content ⟨db, []⟩ with
  | some existing => exact ⟨db, rfl, rfl, rfl, rfl, rfl⟩
  | none => exact ⟨_, rfl, rfl, rfl, rfl, rfl⟩

/-- Linking adds one link for each recipient named, as often as it is named. -/
theorem eval_linkInbounds (messageId : Nat) (recipients : List String) (db : Db) :
    ∃ after, (linkInbounds messageId recipients).eval ⟨db, []⟩ = (.ok (), ⟨after, []⟩) ∧
      after.mailboxes = db.mailboxes ∧ after.messages = db.messages ∧
      after.outbounds = db.outbounds ∧
      after.links = db.links ++ recipients.map (fun recipient => (messageId, recipient)) := by
  induction recipients generalizing db with
  | nil => exact ⟨db, rfl, rfl, rfl, rfl, by simp⟩
  | cons recipient rest ih =>
      obtain ⟨after, heval, hmailboxes, hmessages, houtbounds, hlinks⟩ := ih
        { db with
          inbounds := db.inbounds.push (fun id => ⟨id, messageId, recipient⟩) (fun _ => rfl) }
      refine ⟨after, heval, hmailboxes, hmessages, houtbounds, ?_⟩
      rw [hlinks]
      simp [Db.links]

/-- Forwarding for one recipient adds a job when its mailbox forwards. -/
theorem eval_forward (messageId : Nat) (recipient : String) (db : Db) :
    ∃ after, (forward messageId recipient).eval ⟨db, []⟩ = ((), ⟨after, []⟩) ∧
      after.mailboxes = db.mailboxes ∧ after.messages = db.messages ∧
      after.inbounds = db.inbounds ∧
      after.jobs = db.jobs ++ if db.forwards recipient then [(messageId, recipient)] else [] := by
  rw [forward, Prog.eval_sql_bind, Db.forwards]
  cases hmailbox : db.mailboxes.get? recipient with
  | none =>
      refine ⟨db, ?_, rfl, rfl, rfl, by simp⟩
      simp [Statement.execute, Statement.run, Statement.found, hmailbox, Prog.eval]
  | some mailbox =>
      cases hforward : mailbox.forwardTo with
      | none =>
          refine ⟨db, ?_, rfl, rfl, rfl, by simp [hforward]⟩
          simp [Statement.execute, Statement.run, Statement.found, hmailbox, hforward, Prog.eval]
      | some forwardTo =>
          let job := newJob messageId recipient forwardTo
          refine ⟨{ db with outbounds := db.outbounds.push (fun id => ⟨job, id⟩) (fun _ => rfl) },
            ?_, rfl, rfl, rfl, by simp [Db.jobs, job, newJob, hforward]⟩
          simp only [Statement.execute, Statement.run, Statement.found, List.head?_nil,
            Option.join_none, hmailbox, hforward]
          rfl

theorem eval_forwardAll (messageId : Nat) (recipients : List String) (db : Db) :
    ∃ after, (forwardAll messageId recipients).eval ⟨db, []⟩ = ((), ⟨after, []⟩) ∧
      after.mailboxes = db.mailboxes ∧ after.messages = db.messages ∧
      after.inbounds = db.inbounds ∧
      after.jobs = db.jobs ++ (recipients.filter db.forwards).map (fun recipient =>
        (messageId, recipient)) := by
  induction recipients generalizing db with
  | nil => exact ⟨db, rfl, rfl, rfl, rfl, by simp⟩
  | cons recipient rest ih =>
      obtain ⟨middle, hfirst, hmailboxes, hmessages, hinbounds, hjobs⟩ :=
        eval_forward messageId recipient db
      obtain ⟨after, hrest, hmailboxes', hmessages', hinbounds', hjobs'⟩ := ih middle
      have hforwards : middle.forwards = db.forwards := by
        unfold Db.forwards
        rw [hmailboxes]
      refine ⟨after, ?_, hmailboxes'.trans hmailboxes, hmessages'.trans hmessages,
        hinbounds'.trans hinbounds, ?_⟩
      · rw [forwardAll, Prog.eval_bind, hfirst, hrest]
      · rw [hjobs', hjobs, hforwards, List.filter_cons]
        split
        · simp
        · simp

/-- What one call leaves of a payload for these recipients. -/
structure Delivered (content : MessageContent) (recipients : List String) (before after : Db) :
    Prop where
  mailboxes : after.mailboxes = before.mailboxes
  messages : after.messages.rows =
    match duplicateOf content ⟨before, []⟩ with
    | some _ => before.messages.rows
    | none => before.messages.rows ++ [⟨content, before.messages.next⟩]
  links : after.links =
    before.links ++ recipients.map (fun recipient => (storedAs content before, recipient))
  jobs : after.jobs =
    before.jobs ++ (recipients.filter before.forwards).map (fun recipient =>
        (storedAs content before, recipient))

/-- The database after a call without faults. -/
def handled (parse : MessageParser) (recipients : List String) (data : Bytes) (db : Db) : Db :=
  (((⟨recipients⟩ : ZonedMailHandler).handleEmail parse data).eval ⟨db, []⟩).2.db

/-- A call without faults is accepted and leaves this. -/
theorem delivered_handled {parse : MessageParser} {recipients : List String} {data : Bytes}
    (hrecipients : recipients ≠ []) (db : Db) :
    ((⟨recipients⟩ : ZonedMailHandler).handleEmail parse data).eval ⟨db, []⟩ =
      ((.ok (), ⟨[]⟩), ⟨handled parse recipients data db, []⟩) ∧
    Delivered (messageContent (parse data) data) recipients db
      (handled parse recipients data db) := by
  have hstoredFor : storedFor recipients = recipients := by
    simp [storedFor, hrecipients]
  obtain ⟨stored, hstore, hmailboxes, hinbounds, houtbounds, hmessages⟩ :=
    eval_storeMessage (messageContent (parse data) data) db
  obtain ⟨linked, hlink, hmailboxes', hmessages', houtbounds', hlinks⟩ :=
    eval_linkInbounds (storedAs (messageContent (parse data) data) db) recipients stored
  obtain ⟨after, hforward, hmailboxes'', hmessages'', hinbounds'', hjobs⟩ :=
    eval_forwardAll (storedAs (messageContent (parse data) data) db) recipients linked
  have heval : ((⟨recipients⟩ : ZonedMailHandler).handleEmail parse data).eval ⟨db, []⟩ =
      ((.ok (), ⟨[]⟩), ⟨after, []⟩) := by
    simp only [ZonedMailHandler.handleEmail, deliver, hstoredFor, Prog.eval_bind, hstore, hlink,
      hforward]
    rfl
  have hhandled : handled parse recipients data db = after := by
    rw [handled, heval]
  rw [hhandled]
  refine ⟨heval, hmailboxes''.trans (hmailboxes'.trans hmailboxes), ?_, ?_, ?_⟩
  · rw [hmessages'', hmessages', hmessages]
  · rw [Db.links, hinbounds'', ← Db.links, hlinks, Db.links, hinbounds, ← Db.links]
  · have hforwards : linked.forwards = db.forwards := by
      unfold Db.forwards
      rw [hmailboxes', hmailboxes]
    rw [hjobs, hforwards, Db.jobs, houtbounds', houtbounds, ← Db.jobs]

/-! ## Calls one after the other -/

/-- What is looked up depends on the stored messages only. -/
theorem duplicateOf_congr {other : Db} (h : other.messages.rows = db.messages.rows) :
    duplicateOf content ⟨other, []⟩ = duplicateOf content ⟨db, []⟩ := by
  unfold duplicateOf Table.select
  rw [h]

/-- A payload that was not found before is found after it was stored when its id has no white space
around it, and otherwise it is still not found. -/
theorem duplicateOf_push {after : Db} {number : Nat} (hkey : (dedupKey content).isSome)
    (hnone : duplicateOf content ⟨db, []⟩ = none)
    (hrows : after.messages.rows = db.messages.rows ++ [⟨content, number⟩]) :
    (content.Trimmed → duplicateOf content ⟨after, []⟩ = some ⟨content, number⟩) ∧
      (¬ content.Trimmed → duplicateOf content ⟨after, []⟩ = none) := by
  obtain ⟨key, hkey⟩ := Option.isSome_iff_exists.mp hkey
  obtain ⟨id, hid, htrim, -⟩ := dedupKey_eq_some.mp hkey
  have hlookup : ∀ other : Db, duplicateOf content ⟨other, []⟩ =
      (other.messages.rows.filter (fun message => message.messageIdHeader = some key)).head? := by
    intro other
    simp [duplicateOf, hkey, Table.select]
  rw [hlookup] at hnone
  rw [hlookup, hrows, List.filter_append, List.head?_eq_none_iff.mp hnone, List.nil_append]
  have htrimmed : content.Trimmed ↔ id = key := by
    constructor
    · intro h
      rw [← htrim, h id hid]
    · intro heq other hother
      obtain rfl := heq
      rw [hid] at hother
      cases hother
      exact htrim
  constructor
  · intro h
    simp [hid, htrimmed.mp h]
  · intro h
    have hne : id ≠ key := fun heq => h (htrimmed.mpr heq)
    simp [hid, hne]

variable {parse : MessageParser} {recipients : List String} {data : Bytes}

/-- A payload that is found is found again, as the same message, and nothing is stored. -/
theorem found_handled (hrecipients : recipients ≠ []) {existing : Message}
    (hfound : duplicateOf (messageContent (parse data) data) ⟨db, []⟩ = some existing) :
    (handled parse recipients data db).messages.rows = db.messages.rows ∧
      duplicateOf (messageContent (parse data) data) ⟨handled parse recipients data db, []⟩ =
        some existing := by
  obtain ⟨-, hdelivered⟩ := delivered_handled hrecipients db
  have hrows := hdelivered.messages
  rw [hfound] at hrows
  exact ⟨hrows, (duplicateOf_congr hrows).trans hfound⟩

/-- A payload that is not found is stored, and found from then on when its id is trimmed. -/
theorem unfound_handled (hrecipients : recipients ≠ [])
    (hkey : (dedupKey (messageContent (parse data) data)).isSome)
    (hnone : duplicateOf (messageContent (parse data) data) ⟨db, []⟩ = none) :
    (handled parse recipients data db).messages.rows =
        db.messages.rows ++ [⟨messageContent (parse data) data, db.messages.next⟩] ∧
      ((messageContent (parse data) data).Trimmed →
        duplicateOf (messageContent (parse data) data) ⟨handled parse recipients data db, []⟩ =
          some ⟨messageContent (parse data) data, db.messages.next⟩) ∧
      (¬ (messageContent (parse data) data).Trimmed →
        duplicateOf (messageContent (parse data) data) ⟨handled parse recipients data db, []⟩ =
          none) := by
  obtain ⟨-, hdelivered⟩ := delivered_handled hrecipients db
  have hrows := hdelivered.messages
  rw [hnone] at hrows
  exact ⟨hrows, duplicateOf_push hkey hnone hrows⟩

/-- Once the payload is found, further calls store nothing. -/
theorem rows_iterate_of_found (hrecipients : recipients ≠ []) {existing : Message} (calls : Nat)
    (hfound : duplicateOf (messageContent (parse data) data) ⟨db, []⟩ = some existing) :
    ((handled parse recipients data)^[calls] db).messages.rows = db.messages.rows := by
  induction calls generalizing db with
  | zero => rfl
  | succ calls ih =>
      obtain ⟨hrows, hagain⟩ := found_handled hrecipients hfound
      rw [Function.iterate_succ_apply, ih hagain, hrows]

/-- A payload with an id that is not trimmed is stored by every call when it is not found. -/
theorem length_iterate_of_unfound (hrecipients : recipients ≠ []) (calls : Nat)
    (hkey : (dedupKey (messageContent (parse data) data)).isSome)
    (htrimmed : ¬ (messageContent (parse data) data).Trimmed)
    (hnone : duplicateOf (messageContent (parse data) data) ⟨db, []⟩ = none) :
    ((handled parse recipients data)^[calls] db).messages.rows.length =
      db.messages.rows.length + calls := by
  induction calls generalizing db with
  | zero => rfl
  | succ calls ih =>
      obtain ⟨hrows, -, hagain⟩ := unfound_handled hrecipients hkey hnone
      rw [Function.iterate_succ_apply, ih (hagain htrimmed), hrows, List.length_append]
      simp only [List.length_singleton]
      omega

/-- The number of messages is that of one call exactly when there is only one, or the payload was
stored before, or its id is trimmed. -/
theorem messages_iff (hrecipients : recipients ≠ []) {calls : Nat}
    (hkey : (dedupKey (messageContent (parse data) data)).isSome) (hcalls : 1 ≤ calls) :
    ((handled parse recipients data)^[calls] db).messages.rows.length =
        (handled parse recipients data db).messages.rows.length ↔
      calls = 1 ∨ (duplicateOf (messageContent (parse data) data) ⟨db, []⟩).isSome ∨
        (messageContent (parse data) data).Trimmed := by
  obtain ⟨more, rfl⟩ := Nat.exists_eq_add_of_le' hcalls
  cases hfound : duplicateOf (messageContent (parse data) data) ⟨db, []⟩ with
  | some existing =>
      rw [rows_iterate_of_found hrecipients (more + 1) hfound, (found_handled hrecipients hfound).1]
      simp
  | none =>
      obtain ⟨hrows, hagain, -⟩ := unfound_handled hrecipients hkey hfound
      by_cases htrimmed : (messageContent (parse data) data).Trimmed
      · rw [Function.iterate_succ_apply, rows_iterate_of_found hrecipients more (hagain htrimmed)]
        simp [htrimmed]
      · rw [length_iterate_of_unfound hrecipients (more + 1) hkey htrimmed hfound, hrows]
        simp [htrimmed]

/-! ## Idempotence -/

/-- Several calls leave what one call may leave: as many messages, of which at most one is new, and
of everything that was added one link for each message and recipient, and one job for each message
and mailbox. -/
structure Idempotent (parse : MessageParser) (recipients : List String) (data : Bytes)
    (calls : Nat) (db : Db) : Prop where
  messages : ((handled parse recipients data)^[calls] db).messages.rows.length =
    (handled parse recipients data db).messages.rows.length
  atMostOne : (handled parse recipients data db).messages.rows.length ≤
    db.messages.rows.length + 1
  links : ∀ pair ∈ ((handled parse recipients data)^[calls] db).links.drop db.links.length,
    ((handled parse recipients data)^[calls] db).links.count pair ≤ 1
  jobs : ∀ pair ∈ ((handled parse recipients data)^[calls] db).jobs.drop db.jobs.length,
    ((handled parse recipients data)^[calls] db).jobs.count pair ≤ 1

/-- The message that a payload is stored as is not linked to any of the recipients yet, nor
forwarded for one whose mailbox forwards. -/
def Undelivered (content : MessageContent) (recipients : List String) (db : Db) : Prop :=
  ∀ recipient ∈ recipients, (storedAs content db, recipient) ∉ db.links ∧
    (db.forwards recipient = true → (storedAs content db, recipient) ∉ db.jobs)

/-- Everything added occurs once exactly when nothing is added twice or was there before. -/
theorem count_added_le_one {α : Type} [BEq α] [LawfulBEq α] (old added : List α) :
    (∀ x ∈ added, (old ++ added).count x ≤ 1) ↔ added.Nodup ∧ ∀ x ∈ added, x ∉ old := by
  rw [List.nodup_iff_count_le_one]
  constructor
  · intro h
    refine ⟨fun x => ?_, fun x hx hold => ?_⟩
    · by_cases hx : x ∈ added
      · have hle := h x hx
        rw [List.count_append] at hle
        exact Nat.le_of_add_left_le hle
      · rw [List.count_eq_zero_of_not_mem hx]
        exact Nat.zero_le 1
    · have hle := h x hx
      have hadded := List.count_pos_iff.mpr hx
      have hpos := List.count_pos_iff.mpr hold
      rw [List.count_append] at hle
      omega
  · intro h x hx
    obtain ⟨hnodup, hnew⟩ := h
    rw [List.count_append, List.count_eq_zero_of_not_mem (hnew x hx), Nat.zero_add]
    exact hnodup x

/-- Links are only added. -/
theorem links_iterate (hrecipients : recipients ≠ []) (calls : Nat) (db : Db) :
    ∃ more, ((handled parse recipients data)^[calls] db).links = db.links ++ more := by
  induction calls generalizing db with
  | zero => exact ⟨[], (List.append_nil _).symm⟩
  | succ calls ih =>
      obtain ⟨more, hmore⟩ := ih (handled parse recipients data db)
      obtain ⟨-, hdelivered⟩ := delivered_handled hrecipients db
      rw [Function.iterate_succ_apply, hmore, hdelivered.links, List.append_assoc]
      exact ⟨_, rfl⟩

/-- A payload that was found, or whose id is trimmed, is taken for the same message again. -/
theorem storedAs_handled (hrecipients : recipients ≠ [])
    (hkey : (dedupKey (messageContent (parse data) data)).isSome)
    (hfound : (duplicateOf (messageContent (parse data) data) ⟨db, []⟩).isSome ∨
      (messageContent (parse data) data).Trimmed) :
    storedAs (messageContent (parse data) data) (handled parse recipients data db) =
      storedAs (messageContent (parse data) data) db := by
  unfold storedAs
  cases hduplicate : duplicateOf (messageContent (parse data) data) ⟨db, []⟩ with
  | some existing => rw [(found_handled hrecipients hduplicate).2]
  | none =>
      rw [hduplicate] at hfound
      obtain ⟨-, hagain, -⟩ := unfound_handled hrecipients hkey hduplicate
      rw [hagain (hfound.resolve_left nofun)]

/-- A second call links the message to the same recipients again. -/
theorem not_links_of_two (hrecipients : recipients ≠ []) {more : Nat}
    (hkey : (dedupKey (messageContent (parse data) data)).isSome)
    (hfound : (duplicateOf (messageContent (parse data) data) ⟨db, []⟩).isSome ∨
      (messageContent (parse data) data).Trimmed) :
    ∃ pair ∈ ((handled parse recipients data)^[more + 2] db).links.drop db.links.length,
      1 < ((handled parse recipients data)^[more + 2] db).links.count pair := by
  obtain ⟨recipient, hrecipient⟩ := List.exists_mem_of_ne_nil recipients hrecipients
  obtain ⟨-, hfirst⟩ := @delivered_handled parse recipients data hrecipients db
  obtain ⟨-, hsecond⟩ := @delivered_handled parse recipients data hrecipients
    (handled parse recipients data db)
  obtain ⟨rest, hrest⟩ := @links_iterate parse recipients data hrecipients more
    (handled parse recipients data (handled parse recipients data db))
  have hlinks := hsecond.links
  rw [storedAs_handled hrecipients hkey hfound, hfirst.links] at hlinks
  rw [Function.iterate_succ_apply, Function.iterate_succ_apply, hrest, hlinks]
  have hmem : (storedAs (messageContent (parse data) data) db, recipient) ∈
      recipients.map (fun recipient =>
        (storedAs (messageContent (parse data) data) db, recipient)) :=
    List.mem_map_of_mem hrecipient
  refine ⟨(storedAs (messageContent (parse data) data) db, recipient), ?_, ?_⟩
  · simp only [List.append_assoc, List.drop_left]
    exact List.mem_append_left _ hmem
  · have hpos := List.count_pos_iff.mpr hmem
    rw [List.count_append, List.count_append, List.count_append]
    omega

/-- One call leaves one message, and one link and one forward for each recipient, exactly when no
recipient is named twice and the message was not linked or forwarded for them before. -/
theorem idempotent_one_iff (hrecipients : recipients ≠ []) :
    Idempotent parse recipients data 1 db ↔
      recipients.Nodup ∧ Undelivered (messageContent (parse data) data) recipients db := by
  obtain ⟨-, hdelivered⟩ := @delivered_handled parse recipients data hrecipients db
  have hlinks := count_added_le_one db.links
    (recipients.map (fun recipient => (storedAs (messageContent (parse data) data) db, recipient)))
  have hjobs := count_added_le_one db.jobs ((recipients.filter db.forwards).map
    (fun recipient => (storedAs (messageContent (parse data) data) db, recipient)))
  have hinjective : Function.Injective
      (fun recipient : String => (storedAs (messageContent (parse data) data) db, recipient)) :=
    fun _ _ heq => (Prod.mk.inj heq).2
  rw [List.nodup_map_iff hinjective] at hlinks hjobs
  constructor
  · intro h
    have honceLinks := h.links
    have honceJobs := h.jobs
    rw [Function.iterate_one, hdelivered.links, List.drop_left] at honceLinks
    rw [Function.iterate_one, hdelivered.jobs, List.drop_left] at honceJobs
    obtain ⟨hnodup, hnew⟩ := hlinks.mp honceLinks
    refine ⟨hnodup, fun recipient hrecipient => ⟨?_, fun hforwards => ?_⟩⟩
    · exact hnew _ (List.mem_map_of_mem hrecipient)
    · exact (hjobs.mp honceJobs).2 _
        (List.mem_map_of_mem (List.mem_filter.mpr ⟨hrecipient, hforwards⟩))
  · intro h
    obtain ⟨hnodup, hnew⟩ := h
    refine ⟨rfl, ?_, ?_, ?_⟩
    · rw [hdelivered.messages]
      split
      · exact Nat.le_succ _
      · simp
    · rw [Function.iterate_one, hdelivered.links, List.drop_left]
      refine hlinks.mpr ⟨hnodup, fun pair hpair => ?_⟩
      obtain ⟨recipient, hrecipient, rfl⟩ := List.mem_map.mp hpair
      exact (hnew recipient hrecipient).1
    · rw [Function.iterate_one, hdelivered.jobs, List.drop_left]
      refine hjobs.mpr ⟨hnodup.filter _, fun pair hpair => ?_⟩
      obtain ⟨recipient, hrecipient, rfl⟩ := List.mem_map.mp hpair
      obtain ⟨hmem, hforwards⟩ := List.mem_filter.mp hrecipient
      exact (hnew recipient hmem).2 hforwards

/-- **When re-delivery is idempotent.** For every database, every payload with a usable id, all
recipients, of which there is one, and every number of calls without faults: the number of messages
is that of one call exactly when there is one call, or the payload was stored before, or its id has
no white space around it; and the calls leave one message, and one link and one forward for each
recipient, exactly when there is one call, no recipient is named twice, and the message was not
linked or forwarded for them before. -/
theorem redelivered_iff {calls : Nat}
    (hkey : (dedupKey (messageContent (parse data) data)).isSome) (hrecipients : recipients ≠ [])
    (hcalls : 1 ≤ calls) :
    (((handled parse recipients data)^[calls] db).messages.rows.length =
        (handled parse recipients data db).messages.rows.length ↔
      calls = 1 ∨ (duplicateOf (messageContent (parse data) data) ⟨db, []⟩).isSome ∨
        (messageContent (parse data) data).Trimmed) ∧
    (Idempotent parse recipients data calls db ↔
      calls = 1 ∧ recipients.Nodup ∧
        Undelivered (messageContent (parse data) data) recipients db) := by
  refine ⟨messages_iff hrecipients hkey hcalls, ?_⟩
  constructor
  · intro h
    obtain ⟨more, rfl⟩ := Nat.exists_eq_add_of_le' hcalls
    cases more with
    | succ more =>
        have hfound :=
          ((messages_iff hrecipients hkey hcalls).mp h.messages).resolve_left (by omega)
        obtain ⟨pair, hpair, hcount⟩ := @not_links_of_two db parse recipients data hrecipients more
          hkey hfound
        exact absurd (h.links pair hpair) (Nat.not_le_of_lt hcount)
    | zero => exact ⟨rfl, (idempotent_one_iff hrecipients).mp h⟩
  · intro h
    obtain ⟨rfl, hnew⟩ := h
    exact (idempotent_one_iff hrecipients).mpr hnew

/-- A database with one mailbox, which forwards its mail. -/
def forwardingMailbox : Db :=
  ((Statement.createMailbox ⟨"a@x.io", "x.io", some "b@y.io"⟩).execute none Db.empty).2

/-- One call with one recipient leaves one message, one link and one job. -/
theorem idempotent_once : (dedupKey (messageContent (sameId [1]) [1])).isSome ∧
    Idempotent sameId ["a@x.io"] [1] 1 forwardingMailbox := by
  have hkey : (dedupKey (messageContent (sameId [1]) [1])).isSome := by decide
  refine ⟨hkey, (redelivered_iff hkey (by simp) (Nat.le_refl 1)).2.mpr ⟨rfl, by simp, ?_⟩⟩
  exact fun recipient _ => ⟨List.not_mem_nil, fun _ => List.not_mem_nil⟩

/-- A second call links the one message to its recipient again and forwards it again. -/
theorem not_idempotent_twice :
    ((handled sameId ["a@x.io"] [1])^[2] forwardingMailbox).messages.rows.length = 1 ∧
    ((handled sameId ["a@x.io"] [1])^[2] forwardingMailbox).links =
      [(1, "a@x.io"), (1, "a@x.io")] ∧
    ((handled sameId ["a@x.io"] [1])^[2] forwardingMailbox).jobs =
      [(1, "a@x.io"), (1, "a@x.io")] ∧
    ¬ Idempotent sameId ["a@x.io"] [1] 2 forwardingMailbox := by
  have hlinks : ((handled sameId ["a@x.io"] [1])^[2] forwardingMailbox).links =
      [(1, "a@x.io"), (1, "a@x.io")] := rfl
  refine ⟨rfl, hlinks, rfl, fun h => ?_⟩
  have hcount := h.links (1, "a@x.io") (by rw [hlinks]; exact List.mem_cons_self)
  rw [hlinks] at hcount
  exact absurd hcount (by decide)

end Zonemail
