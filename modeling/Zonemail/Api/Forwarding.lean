import Zonemail.Api.Spelling

/-!
# Reconfiguring a mailbox

A create that meets a mailbox with another configuration is refused, since reconfiguring a mailbox
is a patch. A patch keeps the forwarding address when its body has none, so it can set and change
the address but not take it away. `reconfigurable_iff` says which settings can be reached, and
`forwards_of_run` that not even a race takes the address away.
-/

namespace Zonemail.Api

open Library

/-- A request that concerns the configuration of mailboxes. -/
inductive ConfigRequest where
  | create (body : Option NewMailbox)
  | patch (mailboxId : String) (body : Option PatchMailbox)
  deriving DecidableEq, Repr

namespace ConfigRequest

def handle : ConfigRequest → Prog Response
  | .create body => createMailbox body
  | .patch mailboxId body => patchMailbox mailboxId body

/-- The database after the request. -/
def apply (db : Db) (request : ConfigRequest) : Db := (request.handle.eval ⟨db, []⟩).2.db

end ConfigRequest

/-- What the mailbox of an address forwards to, when it is there. -/
def forwardingOf (db : Db) (address : String) : Option (Option String) :=
  (db.mailboxes.get? address).map Mailbox.forwardTo

variable {db : Db} {address : String}

/-! ## Forwarding is never taken away -/

/-- The mailbox of the address is there and forwards. -/
def Forwards (address : String) (db : Db) : Prop :=
  ∃ mailbox, db.mailboxes.get? address = some mailbox ∧ mailbox.forwardTo ≠ none

/-- Mailboxes are read and created, and the one of the address is only written with a forwarding
address. -/
def ForwardsEffect (address : String) : Effect → Prop
  | .sql (.getMailbox _) | .sql (.createMailbox _) => True
  | .sql (.updateMailbox id _ forwardTo) => id = address → forwardTo ≠ none
  | _ => False

/-- What is read of the mailbox has a forwarding address. -/
def ForwardsAnswer (address : String) : (effect : Effect) → Answer effect → Prop
  | .sql (.getMailbox _), .ok mailbox => mailbox.id = address → mailbox.forwardTo ≠ none
  | _, _ => True

/-- A request for the configuration writes back a forwarding address where it has read one. -/
theorem ConfigRequest.safe_handle (address : String) (request : ConfigRequest)
    (history : Program.History Effect Answer) :
    Program.Safe (ForwardsAnswer address) (fun _ effect => ForwardsEffect address effect)
      (fun _ _ => True) request.handle history := by
  cases request with
  | create body =>
      cases body with
      | none => exact .done trivial
      | some body =>
          simp only [handle, createMailbox]
          split
          · exact .done trivial
          · refine Prog.safe_sql trivial (fun answer _ => ?_)
            split
            · exact .done trivial
            · refine Prog.safe_sql trivial (fun answer _ => ?_)
              split
              · exact .done trivial
              · refine Prog.safe_sql trivial (fun answer _ => ?_)
                split
                · exact .done trivial
                · exact .done trivial
  | patch mailboxId body =>
      cases body with
      | none => exact .done trivial
      | some body =>
          refine Prog.safe_sql trivial (fun answer hanswer => ?_)
          cases answer with
          | error e => exact .done trivial
          | ok mailbox =>
              dsimp only
              cases hdomain : overrideDomain mailbox body.domainId with
              | error response => exact .done trivial
              | ok overridden =>
                  obtain rfl := eq_of_overrideDomain hdomain
                  have hread : overridden.id = address → overridden.forwardTo ≠ none := hanswer
                  refine Prog.safe_sql (fun hid => ?_) (fun answer _ => ?_)
                  · rw [Ne, Option.or_eq_none_iff]
                    exact fun hnone => hread hid hnone.2
                  · split
                    · exact .done trivial
                    · refine Prog.safe_sql trivial (fun answer _ => ?_)
                      split
                      · exact .done trivial
                      · exact .done trivial

theorem Forwards.execute (h : Forwards address db) {effect : Effect}
    (heffect : ForwardsEffect address effect) (fault : Statement.Fault) :
    Forwards address (effect.execute fault db).2 := by
  obtain ⟨mailbox, hmailbox, hforward⟩ := h
  cases effect with
  | reply command accepted => exact ⟨mailbox, hmailbox, hforward⟩
  | sql statement =>
      rcases statement.change_of_execute fault db with hsame | hchange
      · rw [Effect.execute, hsame]
        exact ⟨mailbox, hmailbox, hforward⟩
      · rw [Effect.execute]
        generalize (statement.execute fault db).2 = after at hchange
        cases hchange with
        | read => exact ⟨mailbox, hmailbox, hforward⟩
        | @createMailbox created mailboxes hinsert =>
            -- The new mailbox has an address that was free.
            have hne : address ≠ created.id := by
              intro heq
              obtain rfl := heq
              rw [Table.get?_eq_none_of_insert? hinsert] at hmailbox
              cases hmailbox
            refine ⟨mailbox, ?_, hforward⟩
            show mailboxes.get? address = some mailbox
            rw [Table.get?_of_insert? hinsert, if_neg hne, hmailbox]
        | @updateMailbox id domainId forwardTo =>
            by_cases hid : address = id
            · refine ⟨{ mailbox with domainId, forwardTo }, ?_, heffect hid.symm⟩
              show (db.mailboxes.modify id (fun row => { row with domainId, forwardTo })
                (fun _ => rfl)).get? address = _
              rw [Table.get?_modify, if_pos hid, ← hid, hmailbox]
              rfl
            · refine ⟨mailbox, ?_, hforward⟩
              show (db.mailboxes.modify id (fun row => { row with domainId, forwardTo })
                (fun _ => rfl)).get? address = _
              rw [Table.get?_modify, if_neg hid, hmailbox]
        | _ => exact heffect.elim

theorem Forwards.answer (h : Forwards address db) (effect : Effect) (fault : Statement.Fault) :
    ForwardsAnswer address effect (effect.execute fault db).1 := by
  obtain ⟨mailbox, hmailbox, hforward⟩ := h
  unfold ForwardsAnswer
  split
  · rename_i id read hanswer
    rcases Statement.execute_getMailbox id fault db with ⟨stored, hstored, hget⟩ | ⟨e, hget⟩
    · rw [Effect.execute, hget] at hanswer
      cases hanswer
      intro haddress
      have hid : read.id = id := Table.key_of_get? hstored
      rw [← hid, haddress, hmailbox] at hstored
      cases hstored
      exact hforward
    · rw [Effect.execute, hget] at hanswer
      cases hanswer
  · trivial

/-- One request, with any statements failing, leaves a mailbox that forwards forwarding. -/
theorem Forwards.eval {world : World} (h : Forwards address world.db) (request : ConfigRequest) :
    Forwards address (request.handle.eval world).2.db :=
  Prog.eval_of_safe (request.safe_handle address [])
    (fun effect fault _ hdb => hdb.answer effect fault)
    (fun _ _ fault _ hdb heffect => hdb.execute heffect fault) h

/-- A sequence of requests leaves a mailbox that forwards forwarding. -/
theorem Forwards.foldl_apply (h : Forwards address db) (requests : List ConfigRequest) :
    Forwards address (requests.foldl ConfigRequest.apply db) := by
  induction requests generalizing db with
  | nil => exact h
  | cons request rest ih =>
      have hstart : Forwards address (⟨db, []⟩ : World).db := h
      exact ih (hstart.eval request)

/-- **No race takes a forwarding address away**: any number of requests that concern configuration,
in any interleaving and with any statement failing, leave a mailbox that forwards forwarding. -/
theorem forwards_of_run {Thread : Type} [DecidableEq Thread] {requests : Thread → ConfigRequest}
    {trace : List (Moment Thread Effect Answer Db)} {finish : Pool Thread Effect Answer Response Db}
    (h : Forwards address db)
    (hrun : Run (Pool.step Effect.execute) (fun _ _ => True)
      ⟨db, fun thread => (requests thread).handle⟩ trace finish) :
    Forwards address finish.store := by
  have hsafe : Pool.SafeRun Effect.execute (Forwards address) (ForwardsAnswer address)
      (fun _ _ effect => ForwardsEffect address effect) trace finish := Pool.safe_run
    (fun effect input store hstore => hstore.answer effect input)
    (fun thread history effect input store hstore hrule => hstore.execute hrule input) h
    (fun thread => (requests thread).safe_handle address []) hrun
  exact hsafe.store

/-! ## What can be reached -/

/-- A patched mailbox is written back under its address. -/
theorem get?_updateMailbox (mailboxId : String) (patched : Mailbox) :
    ((updateMailbox mailboxId patched).eval ⟨db, []⟩).2.db.mailboxes.get? patched.id =
      (db.mailboxes.get? patched.id).map (fun row =>
        { row with domainId := patched.domainId, forwardTo := patched.forwardTo }) := by
  generalize hafter : db.mailboxes.modify patched.id
    (fun row => { row with domainId := patched.domainId, forwardTo := patched.forwardTo })
    (fun _ => rfl) = mailboxes
  have hupdate : (Statement.updateMailbox patched.id patched.domainId patched.forwardTo).execute
      none db = (.ok (), { db with mailboxes }) := by
    rw [← hafter]
    rfl
  have hdb : ((updateMailbox mailboxId patched).eval ⟨db, []⟩).2.db = { db with mailboxes } := by
    rw [updateMailbox, Prog.eval_sql_bind, List.head?_nil, Option.join_none, hupdate, List.tail_nil]
    dsimp only
    rw [eval_getMailbox_bind]
    cases mailboxes.get? mailboxId with
    | none => rfl
    | some updated => rfl
  rw [hdb]
  show mailboxes.get? patched.id = _
  rw [← hafter, Table.get?_modify, if_pos rfl]

/-- A patch with a forwarding address sets it. -/
theorem forwardingOf_patch {mailbox : Mailbox} (h : db.mailboxes.get? address = some mailbox)
    (target : String) :
    forwardingOf (ConfigRequest.apply db (.patch address (some ⟨none, some target⟩))) address =
      some (some target) := by
  obtain rfl : mailbox.id = address := Table.key_of_get? h
  have hget : (Statement.getMailbox mailbox.id).execute none db = (.ok mailbox, db) := by
    simp [Statement.execute, Statement.run, Statement.found, h]
  have hpatch : (patchMailbox mailbox.id (some ⟨none, some target⟩)).eval ⟨db, []⟩ =
      (updateMailbox mailbox.id { mailbox with forwardTo := some target }).eval ⟨db, []⟩ := by
    show ((sql (.getMailbox mailbox.id) >>= _ : Prog Response).eval ⟨db, []⟩) = _
    rw [Prog.eval_sql_bind, List.head?_nil, Option.join_none, hget]
    rfl
  rw [ConfigRequest.apply, ConfigRequest.handle, hpatch, forwardingOf, get?_updateMailbox, h]
  rfl

/-- **Which settings a mailbox can be brought to** by creates and patches, without deleting it:
every forwarding address, and none only when it had none. -/
theorem reconfigurable_iff {mailbox : Mailbox} (h : db.mailboxes.get? address = some mailbox)
    (desired : Option String) :
    (∃ requests : List ConfigRequest,
      forwardingOf (requests.foldl ConfigRequest.apply db) address = some desired) ↔
      desired ≠ none ∨ mailbox.forwardTo = none := by
  constructor
  · intro h
    obtain ⟨requests, hreached⟩ := h
    by_contra hcleared
    push Not at hcleared
    obtain ⟨rfl, hforward⟩ := hcleared
    have hforwards : Forwards address db := ⟨mailbox, h, hforward⟩
    obtain ⟨after, hafter, hkept⟩ := hforwards.foldl_apply requests
    rw [forwardingOf, hafter] at hreached
    exact hkept (Option.some.inj hreached)
  · intro hsetting
    cases desired with
    | some target =>
        exact ⟨[.patch address (some ⟨none, some target⟩)], forwardingOf_patch h target⟩
    | none =>
        refine ⟨[], ?_⟩
        rw [List.foldl_nil, forwardingOf, h, Option.map_some,
          hsetting.resolve_left (fun h => h rfl)]

/-- A mailbox that forwards. -/
def forwarding : Db :=
  ((Statement.createMailbox ⟨"a@x.io", "x.io", some "b@y.io"⟩).execute none Db.empty).2

/-- It can be brought to another address. -/
theorem reconfigurable_forwarding : ∃ requests : List ConfigRequest,
    forwardingOf (requests.foldl ConfigRequest.apply forwarding) "a@x.io" =
      some (some "c@z.io") :=
  (reconfigurable_iff rfl (some "c@z.io")).mpr (.inl (by decide))

/-- It cannot be brought back to store its mail only. -/
theorem not_reconfigurable_forwarding :
    ¬ ∀ (db : Db) (address : String) (mailbox : Mailbox), db.mailboxes.get? address = some mailbox →
      ∀ desired : Option String, ∃ requests : List ConfigRequest,
        forwardingOf (requests.foldl ConfigRequest.apply db) address = some desired := by
  intro h
  obtain ⟨requests, hreached⟩ := h forwarding "a@x.io" ⟨"a@x.io", "x.io", some "b@y.io"⟩ rfl none
  have hforwards : Forwards "a@x.io" forwarding := ⟨_, rfl, by decide⟩
  obtain ⟨after, hafter, hkept⟩ := hforwards.foldl_apply requests
  rw [forwardingOf, hafter] at hreached
  exact hkept (Option.some.inj hreached)

end Zonemail.Api
