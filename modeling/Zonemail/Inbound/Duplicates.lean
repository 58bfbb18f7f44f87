import Zonemail.Inbound.Lossless
import Zonemail.Inbound.Session

/-!
# One stored copy per `Message-ID`

The handler looks a `Message-ID` up and stores the message when nothing is found. These are two
statements without an index behind them, so that two sessions may both look before either of them
stores; and what is looked up is the trimmed id, while the id is stored as it came.

`oneCopy_of_run` says that nothing else goes wrong: as long as ids come without white space around
them and no session looks an id up while another one is about to store a message with it, no two
stored messages have the same id, in any number of sessions and in any interleaving.
-/

namespace Zonemail

open Library

/-! ## Copies -/

/-- No two stored messages have ids that are equal after trimming and not blank. -/
def Db.OneCopy (db : Db) : Prop :=
  ∀ message ∈ db.messages.rows, ∀ other ∈ db.messages.rows, ∀ id otherId,
    message.messageIdHeader = some id → other.messageIdHeader = some otherId →
    Text.trim id = Text.trim otherId → Text.trim id ≠ "" → message = other

/-- The id of a message has no white space around it. -/
def MessageContent.Trimmed (content : MessageContent) : Prop :=
  ∀ id, content.messageIdHeader = some id → Text.trim id = id

/-- No stored message has the key as its id. -/
def Db.Unused (db : Db) (key : String) : Prop :=
  ∀ message ∈ db.messages.rows, ∀ id, message.messageIdHeader = some id → Text.trim id ≠ key

/-- The key of a message is its id without white space around it, and is not empty. -/
theorem dedupKey_eq_some {content : MessageContent} {key : String} :
    dedupKey content = some key ↔
      ∃ id, content.messageIdHeader = some id ∧ Text.trim id = key ∧ key ≠ "" := by
  unfold dedupKey
  cases content.messageIdHeader with
  | none => simp
  | some id =>
      simp only [Option.map_some, Option.filter_some, Option.some.injEq]
      constructor
      · intro h
        split at h
        · rename_i hnonempty
          cases h
          exact ⟨id, rfl, rfl, by simpa using hnonempty⟩
        · cases h
      · intro h
        obtain ⟨_, rfl, rfl, hne⟩ := h
        rw [if_pos (by simpa using hne)]

/-- A message with an id that no other one has is stored as its only copy. -/
theorem Db.OneCopy.push {db after : Db} {content : MessageContent} {number : Nat}
    (h : db.OneCopy) (hunused : ∀ key, dedupKey content = some key → db.Unused key)
    (hrows : after.messages.rows = db.messages.rows ++ [⟨content, number⟩]) : after.OneCopy := by
  intro message hmessage other hother id otherId hid hotherId htrim hne
  rw [hrows, List.mem_append, List.mem_singleton] at hmessage hother
  rcases hmessage with hmessage | rfl
  · rcases hother with hother | rfl
    · exact h message hmessage other hother id otherId hid hotherId htrim hne
    · have hkey : dedupKey content = some (Text.trim otherId) :=
        dedupKey_eq_some.mpr ⟨otherId, hotherId, rfl, htrim ▸ hne⟩
      exact absurd htrim (hunused _ hkey message hmessage id hid)
  · rcases hother with hother | rfl
    · have hkey : dedupKey content = some (Text.trim id) :=
        dedupKey_eq_some.mpr ⟨id, hid, rfl, hne⟩
      exact absurd htrim.symm (hunused _ hkey other hother otherId hotherId)
    · rfl

/-- A message with another id leaves the key unused. -/
theorem Db.Unused.push {db after : Db} {content : MessageContent} {number : Nat} {key : String}
    (h : db.Unused key) (hne : key ≠ "") (hother : dedupKey content ≠ some key)
    (hrows : after.messages.rows = db.messages.rows ++ [⟨content, number⟩]) : after.Unused key := by
  intro message hmessage id hid htrim
  rw [hrows, List.mem_append, List.mem_singleton] at hmessage
  rcases hmessage with hmessage | rfl
  · exact h message hmessage id hid htrim
  · exact hother (dedupKey_eq_some.mpr ⟨id, hid, htrim, hne⟩)

/-! ## What a session does -/

/-- The statement leaves the messages alone. -/
def QuietEffect : Effect → Prop
  | .sql (.firstMessageWithHeader _) | .sql (.getMailbox _) | .sql (.createInbound _ _)
  | .sql (.createOutbound _) | .reply _ _ => True
  | .sql _ => False

/-- The last thing done was to look the key of the message up, if it has one, and nothing was
found. -/
def Unfound (history : EffectHistory) (content : MessageContent) : Prop :=
  ∀ key, dedupKey content = some key → ∃ front found,
    history = front ++ [⟨.sql (.firstMessageWithHeader key), found⟩] ∧ foundId found = none

/-- A message is stored with a trimmed id, and right after nothing was found under its key. -/
def StoresUnfound (history : EffectHistory) (effect : Effect) : Prop :=
  QuietEffect effect ∨
    ∃ content, effect = .sql (.createMessage content) ∧ content.Trimmed ∧ Unfound history content

/-- A quiet effect leaves the messages alone. -/
theorem QuietEffect.messages_execute {effect : Effect} (h : QuietEffect effect)
    (fault : Statement.Fault) (db : Db) : (effect.execute fault db).2.messages = db.messages := by
  unfold QuietEffect at h
  split at h
  · exact congrArg Db.messages (Statement.execute_of_reads (by trivial) fault db)
  · exact congrArg Db.messages (Statement.execute_of_reads (by trivial) fault db)
  · cases fault with
    | none => rfl
    | some text => rfl
  · cases fault with
    | none => rfl
    | some text => rfl
  · rfl
  · exact h.elim

/-- A lookup that succeeds and finds nothing under the key leaves it unused, when all ids are
trimmed. -/
theorem unused_of_unfound {db : Db} {key : String}
    (htrimmed : ∀ message ∈ db.messages.rows, message.Trimmed)
    (hfound : foundId ((Statement.firstMessageWithHeader key).execute none db).1 = none) :
    db.Unused key := by
  intro message hmessage id hid htrim
  have hselected : message ∈ db.messages.select
      (fun message => message.messageIdHeader = some key) := by
    rw [Table.select, List.mem_filter]
    exact ⟨hmessage, by simp [hid, ← htrim, htrimmed message hmessage id hid]⟩
  have hnone : (db.messages.select (fun message => message.messageIdHeader = some key)).head? =
      none := by
    cases hhead : (db.messages.select
        (fun message => message.messageIdHeader = some key)).head? with
    | none => rfl
    | some first =>
        have hfirst : foundId (.ok (some first)) = none := by
          rw [← hfound, Statement.execute, Statement.run, hhead]
        cases hfirst
  rw [List.head?_eq_none_iff.mp hnone] at hselected
  cases hselected

variable {history : EffectHistory}

/-- A program that leaves the messages alone obeys the rule. -/
theorem safe_of_performs_quiet {α : Type} {program : Prog α} (h : program.Performs QuietEffect) :
    program.Safe (fun _ _ => True) StoresUnfound (fun _ _ => True) history :=
  h.safe trivial (fun _ _ _ heffect => .inl heffect) (fun _ _ _ _ _ => trivial)

theorem linkInbounds_quiet (messageId : Nat) (recipients : List String) :
    (linkInbounds messageId recipients).Performs QuietEffect := by
  induction recipients with
  | nil => exact .done
  | cons recipient rest ih =>
      refine performs_sql trivial (fun answer => ?_)
      split
      · exact ih
      · exact .done

theorem forwardAll_quiet (messageId : Nat) (recipients : List String) :
    (forwardAll messageId recipients).Performs QuietEffect := by
  induction recipients with
  | nil => exact .done
  | cons recipient rest ih =>
      refine Program.performs_bind (performs_sql trivial (fun answer => ?_)) (fun _ => ih)
      split
      · exact .done
      · split
        · exact .done
        · refine Program.performs_bind (performs_sql trivial (fun answer => ?_)) (fun _ => .done)
          split
          · exact .done
          · exact .done

/-- Where no duplicate is found, the key was looked up. -/
theorem safe_findDuplicate (content : MessageContent) :
    (findDuplicate content).Safe (fun _ _ => True) StoresUnfound
      (fun later found => found = none → Unfound later content) history := by
  unfold findDuplicate
  cases hkey : dedupKey content with
  | none =>
      refine .done (fun _ key h => ?_)
      rw [hkey] at h
      cases h
  | some key =>
      refine .perform (.inl trivial) (fun found _ => .done (fun hnone other hother => ?_))
      cases hkey.symm.trans hother
      exact ⟨history, found, rfl, hnone⟩

/-- A message is stored after it was not found. -/
theorem safe_storeMessage {content : MessageContent} (htrimmed : content.Trimmed) :
    (storeMessage content).Safe (fun _ _ => True) StoresUnfound (fun _ _ => True) history := by
  refine Program.safe_bind (safe_findDuplicate content) (fun later found hfound => ?_)
  cases found with
  | some id => exact .done trivial
  | none =>
      refine .perform (.inr ⟨content, rfl, htrimmed, hfound rfl⟩) (fun answer _ => ?_)
      cases answer with
      | error e => exact .done trivial
      | ok created => exact .done trivial

/-- The ids of the payloads of a session have no white space around them. -/
def TrimmedPayloads (parse : MessageParser) (commands : List SmtpCommand) : Prop :=
  ∀ data, .data data ∈ commands → (messageContent (parse data) data).Trimmed

theorem safe_deliver_unfound {parse : MessageParser} {data : Bytes} (recipients : List String)
    (htrimmed : (messageContent (parse data) data).Trimmed) :
    (deliver parse recipients data).Safe (fun _ _ => True) StoresUnfound (fun _ _ => True)
      history := by
  refine Program.safe_bind (safe_storeMessage htrimmed) (fun stored result _ => ?_)
  cases result with
  | error e => exact .done trivial
  | ok messageId =>
      refine Program.safe_bind (safe_of_performs_quiet (linkInbounds_quiet messageId recipients))
        (fun linked result _ => ?_)
      cases result with
      | error e => exact .done trivial
      | ok value =>
          exact Program.safe_bind (safe_of_performs_quiet (forwardAll_quiet messageId recipients))
            (fun _ _ _ => .done trivial)

theorem safe_command_unfound {parse : MessageParser} {command : SmtpCommand}
    (handler : ZonedMailHandler)
    (htrimmed : ∀ data, command = .data data → (messageContent (parse data) data).Trimmed) :
    (handler.command parse command).Safe (fun _ _ => True) StoresUnfound (fun _ _ => True)
      history := by
  cases command with
  | mailFrom path => exact .perform (.inl trivial) (fun _ _ => .done trivial)
  | rset => exact .perform (.inl trivial) (fun _ _ => .done trivial)
  | rcptTo path =>
      refine .perform (.inl trivial) (fun answer _ => ?_)
      cases answer with
      | error e => exact .perform (.inl trivial) (fun _ _ => .done trivial)
      | ok mailbox => exact .perform (.inl trivial) (fun _ _ => .done trivial)
  | data payload =>
      have hemail : (handler.handleEmail parse payload).Safe (fun _ _ => True) StoresUnfound
          (fun _ _ => True) history :=
        Program.safe_bind (safe_deliver_unfound _ (htrimmed payload rfl))
          (fun _ _ _ => .done trivial)
      exact Program.safe_bind hemail
        (fun _ _ _ => .perform (.inl trivial) (fun _ _ => .done trivial))

/-- A session stores a message right after it was not found. -/
theorem safe_session_unfound {parse : MessageParser} {commands : List SmtpCommand}
    (handler : ZonedMailHandler) (htrimmed : TrimmedPayloads parse commands) :
    (handler.session parse commands).Safe (fun _ _ => True) StoresUnfound (fun _ _ => True)
      history := by
  induction commands generalizing handler history with
  | nil => exact .done trivial
  | cons command rest ih =>
      have hcommand : (handler.command parse command).Safe (fun _ _ => True) StoresUnfound
          (fun _ _ => True) history :=
        safe_command_unfound handler (fun data hdata => htrimmed data (hdata ▸ List.mem_cons_self))
      exact Program.safe_bind hcommand (fun later next _ =>
        ih next (fun data hdata => htrimmed data (List.mem_cons_of_mem _ hdata)))

/-! ## Interleavings -/

section Interleavings

variable {Thread : Type}

/-- Sessions over one database. -/
def sessions (parse : MessageParser) (commands : Thread → List SmtpCommand) (db : Db) :
    Pool Thread Effect Answer Unit Db :=
  ⟨db, fun thread => newHandler.session parse (commands thread)⟩

/-- The thread is about to store a message with this key. -/
def Storing (pool : Pool Thread Effect Answer Unit Db) (thread : Thread) (key : String) : Prop :=
  ∃ content, (pool.program thread).next? = some (.sql (.createMessage content)) ∧
    dedupKey content = some key

/-- A lookup does not fail. -/
def LookupSucceeds (pool : Pool Thread Effect Answer Unit Db)
    (label : Thread × Statement.Fault) : Prop :=
  ∀ key, (pool.program label.1).next? = some (.sql (.firstMessageWithHeader key)) → label.2 = none

/-- No other session is about to store a message with the key that is looked up. -/
def LooksAlone (pool : Pool Thread Effect Answer Unit Db)
    (label : Thread × Statement.Fault) : Prop :=
  ∀ key, (pool.program label.1).next? = some (.sql (.firstMessageWithHeader key)) →
    ∀ other, other ≠ label.1 → ¬ Storing pool other key

/-- What every run keeps: one copy of every id, all ids trimmed, and every key that a thread is
about to store unused and its own. -/
structure Copies [DecidableEq Thread] (trace : List (Moment Thread Effect Answer Db))
    (pool : Pool Thread Effect Answer Unit Db) : Prop where
  oneCopy : pool.store.OneCopy
  trimmed : ∀ message ∈ pool.store.messages.rows, message.Trimmed
  threads : ∀ thread, (pool.program thread).Safe (fun _ _ => True) StoresUnfound (fun _ _ => True)
    (Pool.history thread trace)
  unused : ∀ thread key, Storing pool thread key → pool.store.Unused key
  alone : ∀ thread other key, thread ≠ other → Storing pool thread key → ¬ Storing pool other key

variable [DecidableEq Thread] {pool next : Pool Thread Effect Answer Unit Db}
  {label : Thread × Statement.Fault} {trace moments : List (Moment Thread Effect Answer Db)}

/-- A thread that is now about to store a message has just looked its key up and found nothing. -/
theorem storing_of_step {key : String}
    (hthreads : ∀ thread, (next.program thread).Safe (fun _ _ => True) StoresUnfound
      (fun _ _ => True) (Pool.history thread (trace ++ moments)))
    (hstep : Pool.step Effect.execute pool label = some (moments, next))
    (hstoring : Storing next label.1 key) :
    (pool.program label.1).next? = some (.sql (.firstMessageWithHeader key)) ∧
      next.store = pool.store ∧
      foundId ((Statement.firstMessageWithHeader key).execute label.2 pool.store).1 = none := by
  obtain ⟨content, hcontent, hkey⟩ := hstoring
  rcases (hthreads label.1).next? hcontent with hquiet | ⟨_, ⟨⟩, -, hunfound⟩
  · exact hquiet.elim
  · obtain ⟨front, found, hhistory, hnone⟩ := hunfound key hkey
    obtain ⟨effect, resume, hprogram, rfl, hstore, -⟩ := Pool.step_eq_some hstep
    rw [Pool.history_snoc_self trace (by rfl)] at hhistory
    obtain ⟨-, hevent⟩ := List.append_inj' hhistory rfl
    simp only [List.cons.injEq, Sigma.mk.injEq, and_true] at hevent
    obtain ⟨rfl, hfound⟩ := hevent
    refine ⟨by rw [hprogram]; rfl, ?_, ?_⟩
    · rw [hstore]
      exact Statement.execute_of_reads (by trivial) label.2 pool.store
    · rw [← hnone, ← eq_of_heq hfound]
      rfl

/-- The other threads are about to store what they were about to store. -/
theorem Storing.of_step {thread : Thread} {key : String} (h : Storing next thread key)
    (hne : thread ≠ label.1) (hstep : Pool.step Effect.execute pool label = some (moments, next)) :
    Storing pool thread key := by
  obtain ⟨content, hcontent, hkey⟩ := h
  obtain ⟨effect, resume, -, -, -, hprograms⟩ := Pool.step_eq_some hstep
  rw [hprograms, Function.update_of_ne hne] at hcontent
  exact ⟨content, hcontent, hkey⟩

/-- A step leaves the messages alone, or stores the trimmed message that the thread was about to
store. -/
theorem Copies.messages_of_step (h : Copies trace pool)
    (hstep : Pool.step Effect.execute pool label = some (moments, next)) :
    next.store.messages.rows = pool.store.messages.rows ∨
      ∃ content, (pool.program label.1).next? = some (.sql (.createMessage content)) ∧
        content.Trimmed ∧ next.store.messages.rows =
          pool.store.messages.rows ++ [⟨content, pool.store.messages.next⟩] := by
  obtain ⟨effect, resume, hprogram, -, hstore, -⟩ := Pool.step_eq_some hstep
  have hnow : (pool.program label.1).next? = some effect := by rw [hprogram]; rfl
  rw [hstore]
  rcases (h.threads label.1).next? hnow with hquiet | ⟨content, rfl, htrimmed, -⟩
  · rw [hquiet.messages_execute]
    exact .inl rfl
  · cases hfault : label.2 with
    | some text => exact .inl rfl
    | none => exact .inr ⟨content, hnow, htrimmed, rfl⟩

theorem Copies.oneCopy_of_step (h : Copies trace pool)
    (hstep : Pool.step Effect.execute pool label = some (moments, next)) :
    next.store.OneCopy := by
  rcases h.messages_of_step hstep with hsame | ⟨content, hnow, -, hpush⟩
  · unfold Db.OneCopy
    rw [hsame]
    exact h.oneCopy
  · exact h.oneCopy.push (fun key hkey => h.unused label.1 key ⟨content, hnow, hkey⟩) hpush

theorem Copies.trimmed_of_step (h : Copies trace pool)
    (hstep : Pool.step Effect.execute pool label = some (moments, next)) :
    ∀ message ∈ next.store.messages.rows, message.Trimmed := by
  rcases h.messages_of_step hstep with hsame | ⟨content, -, htrimmed, hpush⟩
  · rw [hsame]
    exact h.trimmed
  · rw [hpush]
    intro message hmessage
    rcases List.mem_append.mp hmessage with hold | hnew
    · exact h.trimmed message hold
    · rw [List.mem_singleton.mp hnew]
      exact htrimmed

/-- A key that another thread is about to store stays unused, since it is that thread's own. -/
theorem Copies.unused_of_step (h : Copies trace pool) {thread : Thread} {key : String}
    (hstoring : Storing pool thread key) (hne : thread ≠ label.1)
    (hstep : Pool.step Effect.execute pool label = some (moments, next)) :
    next.store.Unused key := by
  rcases h.messages_of_step hstep with hsame | ⟨content, hnow, -, hpush⟩
  · unfold Db.Unused
    rw [hsame]
    exact h.unused thread key hstoring
  · have hnonempty : key ≠ "" := by
      obtain ⟨_, -, hkey⟩ := hstoring
      obtain ⟨-, -, -, hnonempty⟩ := dedupKey_eq_some.mp hkey
      exact hnonempty
    refine (h.unused thread key hstoring).push hnonempty (fun hsame => ?_) hpush
    exact h.alone thread label.1 key hne hstoring ⟨content, hnow, hsame⟩

/-- Every step of a session keeps it, when a lookup does not fail and no other session is about to
store a message with the key. -/
theorem Copies.step (h : Copies trace pool) (hlookup : LookupSucceeds pool label)
    (halone : LooksAlone pool label)
    (hstep : Pool.step Effect.execute pool label = some (moments, next)) :
    Copies (trace ++ moments) next := by
  have hthreads := Pool.safe_step (fun _ => trivial) h.threads hstep
  have hown := fun key => @storing_of_step _ _ _ _ _ _ _ key hthreads hstep
  refine ⟨h.oneCopy_of_step hstep, h.trimmed_of_step hstep, hthreads,
    fun thread key hstoring => ?_, fun thread other key hne hfirst hsecond => ?_⟩
  · by_cases hself : thread = label.1
    · subst hself
      obtain ⟨hlooks, hsame, hnone⟩ := hown key hstoring
      rw [hlookup key hlooks] at hnone
      rw [hsame]
      exact unused_of_unfound h.trimmed hnone
    · exact h.unused_of_step (hstoring.of_step hself hstep) hself hstep
  · -- A thread that is newly about to store a message was alone when it looked the key up.
    by_cases hself : thread = label.1
    · subst hself
      obtain ⟨hlooks, -⟩ := hown key hfirst
      exact halone key hlooks other hne.symm (hsecond.of_step hne.symm hstep)
    · by_cases hother : other = label.1
      · subst hother
        obtain ⟨hlooks, -⟩ := hown key hsecond
        exact halone key hlooks thread hself (hfirst.of_step hself hstep)
      · exact h.alone thread other key hne (hfirst.of_step hself hstep)
          (hsecond.of_step hother hstep)

/-- **One stored copy per id.** Any number of sessions that start with one copy of every stored id,
with all ids trimmed, store no second copy, however their statements interleave and whatever other
statements fail, as long as no lookup fails, the ids of their payloads are trimmed, and no session
looks a key up while another one is about to store a message with it. -/
theorem oneCopy_of_run {parse : MessageParser} {commands : Thread → List SmtpCommand} {db : Db}
    {finish : Pool Thread Effect Answer Unit Db} (hdb : db.OneCopy)
    (hstored : ∀ message ∈ db.messages.rows, message.Trimmed)
    (hpayloads : ∀ thread, TrimmedPayloads parse (commands thread))
    (hrun : Run (Pool.step Effect.execute)
      (fun pool label => LookupSucceeds pool label ∧ LooksAlone pool label)
      (sessions parse commands db) trace finish) : finish.store.OneCopy := by
  have hthreads : ∀ thread, (newHandler.session parse (commands thread)).Safe (fun _ _ => True)
      StoresUnfound (fun _ _ => True) [] :=
    fun thread => safe_session_unfound newHandler (hpayloads thread)
  -- A session begins without having looked anything up.
  have hstart : ∀ thread key, ¬ Storing (sessions parse commands db) thread key := by
    intro thread key h
    obtain ⟨content, hcontent, hkey⟩ := h
    rcases (hthreads thread).next? hcontent with hquiet | ⟨_, ⟨⟩, -, hunfound⟩
    · exact hquiet.elim
    · obtain ⟨front, found, hhistory, -⟩ := hunfound key hkey
      simp at hhistory
  have hcopies : Copies trace finish := by
    refine hrun.invariant_trace Copies ?_
      (fun _ _ _ _ _ h hallowed hstep => h.step hallowed.1 hallowed.2 hstep)
    exact ⟨hdb, hstored, hthreads, fun thread key h => absurd h (hstart thread key),
      fun thread _ key _ h => absurd h (hstart thread key)⟩
  exact hcopies.oneCopy

end Interleavings

/-- Two sessions that receive the same payload. -/
def sentTwice : Bool → List SmtpCommand :=
  fun _ => [.rcptTo "<a@x.io>", .data [1]]

/-- The second session looks the id up after the first has stored the message. -/
theorem oneCopy_sentTwice : ∃ trace finish,
    Run (Pool.step Effect.execute)
      (fun pool label => LookupSucceeds pool label ∧ LooksAlone pool label)
      (sessions sameId sentTwice oneMailbox) trace finish ∧
    finish.store.messages.rows = [⟨messageContent (sameId [1]) [1], 1⟩] ∧
    finish.store.inbounds.rows = [⟨1, 1, "a@x.io"⟩] ∧ finish.store.OneCopy := by
  obtain ⟨trace, finish, hexecute, hallowed, hmessages, hinbounds⟩ : ∃ trace finish,
      execute (Pool.step Effect.execute) (sessions sameId sentTwice oneMailbox)
        [(true, none), (true, none), (true, none), (true, none), (false, none), (false, none),
          (false, none), (false, none)] = some (trace, finish) ∧
      AllowedAlong (Pool.step Effect.execute)
        (fun pool label => LookupSucceeds pool label ∧ LooksAlone pool label)
        (sessions sameId sentTwice oneMailbox)
        [(true, none), (true, none), (true, none), (true, none), (false, none), (false, none),
          (false, none), (false, none)] ∧
      finish.store.messages.rows = [⟨messageContent (sameId [1]) [1], 1⟩] ∧
      finish.store.inbounds.rows = [⟨1, 1, "a@x.io"⟩] := by
    refine ⟨_, _, rfl, ?_, rfl, rfl⟩
    refine ⟨⟨nofun, nofun⟩, ⟨nofun, nofun⟩, ⟨fun _ _ => rfl, ?_⟩, ⟨nofun, nofun⟩, ⟨nofun, nofun⟩,
      ⟨nofun, nofun⟩, ⟨fun _ _ => rfl, ?_⟩, ⟨nofun, nofun⟩, trivial⟩
    · rintro key - (_ | _) hne ⟨content, hcontent, -⟩
      · cases hcontent
      · exact hne rfl
    · rintro key - (_ | _) hne ⟨content, hcontent, -⟩
      · exact hne rfl
      · cases hcontent
  have hrun := execute_run_of_allowed hexecute hallowed
  have hempty : ∀ message, message ∉ oneMailbox.messages.rows := fun message =>
    List.not_mem_nil
  refine ⟨trace, finish, hrun, hmessages, hinbounds, oneCopy_of_run ?_ ?_ ?_ hrun⟩
  · exact fun message hmessage => absurd hmessage (hempty message)
  · exact fun message hmessage => absurd hmessage (hempty message)
  · intro thread data _ id h
    cases h
    decide

/-- Two rows with one id are two copies. -/
theorem not_oneCopy_of_rows {db : Db} {content : MessageContent} {id : String}
    (hrows : db.messages.rows = [⟨content, 1⟩, ⟨content, 2⟩])
    (hid : content.messageIdHeader = some id) (hne : Text.trim id ≠ "") : ¬ db.OneCopy := by
  intro h
  have hsame :=
    h ⟨content, 1⟩ (by simp [hrows]) ⟨content, 2⟩ (by simp [hrows]) id id hid hid rfl hne
  simp at hsame

/-- A parser that makes out a `Message-ID` that begins with a vertical tab. -/
def tabbedId : MessageParser :=
  fun _ => some ⟨none, none, none, some "\x0bm1@y.io", none, none, none⟩

/-- Two sessions that look the id up before either of them stores the message store it twice; and so
does one session after the other when the id has white space around it. -/
theorem not_oneCopy_raced :
    (∃ trace finish, Run (Pool.step Effect.execute) LookupSucceeds
      (sessions sameId sentTwice oneMailbox) trace finish ∧ ¬ finish.store.OneCopy) ∧
    ∃ trace finish, Run (Pool.step Effect.execute)
      (fun pool label => LookupSucceeds pool label ∧ LooksAlone pool label)
      (sessions tabbedId (fun _ : Unit => sentTwice true ++ sentTwice true) oneMailbox)
      trace finish ∧ ¬ finish.store.OneCopy := by
  constructor
  · obtain ⟨trace, finish, hexecute, hallowed, hmessages⟩ : ∃ trace finish,
        execute (Pool.step Effect.execute) (sessions sameId sentTwice oneMailbox)
          [(true, none), (true, none), (true, none), (false, none), (false, none), (false, none),
            (true, none), (false, none)] = some (trace, finish) ∧
        AllowedAlong (Pool.step Effect.execute) LookupSucceeds
          (sessions sameId sentTwice oneMailbox)
          [(true, none), (true, none), (true, none), (false, none), (false, none), (false, none),
            (true, none), (false, none)] ∧
        finish.store.messages.rows = [⟨messageContent (sameId [1]) [1], 1⟩,
          ⟨messageContent (sameId [1]) [1], 2⟩] := by
      refine ⟨_, _, rfl, ?_, rfl⟩
      exact ⟨fun _ _ => rfl, fun _ _ => rfl, fun _ _ => rfl, fun _ _ => rfl, fun _ _ => rfl,
        fun _ _ => rfl, fun _ _ => rfl, fun _ _ => rfl, trivial⟩
    exact ⟨trace, finish, execute_run_of_allowed hexecute hallowed,
      not_oneCopy_of_rows hmessages rfl (by decide)⟩
  · have hallowed : ∀ pool : Pool Unit Effect Answer Unit Db,
        LookupSucceeds pool ((), none) ∧ LooksAlone pool ((), none) :=
      fun pool => ⟨fun _ _ => rfl, fun _ _ other hne => absurd rfl hne⟩
    obtain ⟨trace, finish, hexecute, hmessages⟩ : ∃ trace finish,
        execute (Pool.step Effect.execute)
          (sessions tabbedId (fun _ : Unit => sentTwice true ++ sentTwice true) oneMailbox)
          (List.replicate 11 ((), none)) = some (trace, finish) ∧
        finish.store.messages.rows = [⟨messageContent (tabbedId [1]) [1], 1⟩,
          ⟨messageContent (tabbedId [1]) [1], 2⟩] := ⟨_, _, rfl, rfl⟩
    refine ⟨trace, finish, execute_run_of_allowed hexecute ?_,
      not_oneCopy_of_rows hmessages rfl (by decide)⟩
    exact ⟨hallowed _, hallowed _, hallowed _, hallowed _, hallowed _, hallowed _, hallowed _,
      hallowed _, hallowed _, hallowed _, hallowed _, trivial⟩

end Zonemail
