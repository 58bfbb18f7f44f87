import Zonemail.Api.Handlers

/-!
# Walking through a list page by page

The list endpoints load their rows and cut a page out of them. A client starts at offset 0 and asks
for the next page as long as the response names its offset. Five of the endpoints bring the limit
between 1 and the cap first, so that the offset grows and no page is too long. The list of a
mailbox's messages takes the limit of a well-formed query as it is: with a limit of 0 the client
never gets ahead, and with a large one the page is as long as the list. `visitsOnce_iff` says
exactly when the walk ends, shows every row once in order, and keeps to the cap.
-/

namespace Zonemail.Api

/-! ## The list endpoints -/

/-- A vector has at most this many elements. -/
def isizeMax : Nat := 2 ^ 63 - 1

/-- The rows that an endpoint has loaded into memory. -/
structure Rows (α : Type) where
  list : List α
  bounded : list.length ≤ isizeMax

/-- The query string of a list that can be filtered. -/
structure FilterQuery extends Query where
  domainId : Option String
  recordType : Option String
  deriving DecidableEq, Repr

/-- List the stored domains. -/
def listDomains (domains : List Domain) (query : Query) : Page Domain :=
  .fromAll domains (pageParams query).1 (pageParams query).2

/-- The mailboxes of a domain, or all. -/
def mailboxRows (mailboxes : List Mailbox) (query : FilterQuery) : List Mailbox :=
  match query.domainId with
  | some domainId => mailboxes.filter (fun mailbox => mailbox.domainId = domainId)
  | none => mailboxes

/-- List the stored mailboxes. -/
def listMailboxes (mailboxes : List Mailbox) (query : FilterQuery) : Page Mailbox :=
  .fromAll (mailboxRows mailboxes query) (pageParams query.toQuery).1 (pageParams query.toQuery).2

/-- The record type that a query asks for, if any. -/
def typeFilter (query : FilterQuery) : Except ApiProblem (Option RecordType) :=
  match query.recordType with
  | some raw => (parseRecordType (Text.trim raw)).map some
  | none => .ok none

/-- The records that pass the filters of a query. -/
def recordRows (records : List Record) (query : FilterQuery) (recordType : Option RecordType) :
    List RecordApiDTO :=
  let domainFilter := query.domainId.map (fun d => Text.toLowercase (Text.trim d))
  ((records.filter (fun record => match domainFilter with
      | some d => Text.eqIgnoreAsciiCase record.domainId d
      | none => true)).filter (fun record => match recordType with
      | some t => record.recordType = t
      | none => true)).map .ofRecord

/-- List the stored records; an unknown record type is refused. -/
def listRecords (records : List Record) (query : FilterQuery) :
    Except ApiProblem (Page RecordApiDTO) :=
  match typeFilter query with
  | .error problem => .error problem
  | .ok recordType => .ok (.fromAll (recordRows records query recordType)
      (pageParams query.toQuery).1 (pageParams query.toQuery).2)

/-- The paginated list endpoints. -/
inductive ListEndpoint where
  | domains
  | mailboxes
  | records
  | messages
  | inbox
  | sent
  deriving DecidableEq, Repr

/-- The limit and the offset with which an endpoint cuts its page. -/
def ListEndpoint.params : ListEndpoint → Query → Nat × Nat
  | .messages, query =>
      match ListMessagesQuery.parse query with
      | some parsed => (parsed.limit.getD defaultPageLimit, parsed.offset.getD 0)
      | none => pageParams query
  | _, query => pageParams query

/-- The page that an endpoint cuts out of its rows. -/
def ListEndpoint.page {α : Type} (endpoint : ListEndpoint) (rows : List α) (query : Query) :
    Page α :=
  .fromAll rows (endpoint.params query).1 (endpoint.params query).2

theorem listDomains_eq (domains : List Domain) (query : Query) :
    listDomains domains query = ListEndpoint.domains.page domains query := rfl

theorem listMailboxes_eq (mailboxes : List Mailbox) (query : FilterQuery) :
    listMailboxes mailboxes query =
      ListEndpoint.mailboxes.page (mailboxRows mailboxes query) query.toQuery := rfl

theorem listRecords_eq (records : List Record) (query : FilterQuery) :
    listRecords records query = (typeFilter query).map (fun recordType =>
      ListEndpoint.records.page (recordRows records query recordType) query.toQuery) := by
  unfold listRecords
  cases typeFilter query with
  | error problem => rfl
  | ok recordType => rfl

theorem listMailboxMessages_eq (mailboxId : String) (query : Query) :
    listMailboxMessages mailboxId query =
      listMessages mailboxId ((ListMessagesQuery.parse query).bind (fun parsed => parsed.direction))
        (ListEndpoint.messages.params query).1 (ListEndpoint.messages.params query).2 := by
  cases h : ListMessagesQuery.parse query with
  | none => simp only [listMailboxMessages, ListEndpoint.params, h, Option.bind_none]
  | some parsed => simp only [listMailboxMessages, ListEndpoint.params, h, Option.bind_some]

theorem listMailboxInbox_eq (mailboxId : String) (query : Query) :
    listMailboxInbox mailboxId query = listMessages mailboxId (some .inbound)
      (ListEndpoint.inbox.params query).1 (ListEndpoint.inbox.params query).2 := rfl

theorem listMailboxSent_eq (mailboxId : String) (query : Query) :
    listMailboxSent mailboxId query = listMessages mailboxId (some .outbound)
      (ListEndpoint.sent.params query).1 (ListEndpoint.sent.params query).2 := rfl

/-! ## The walk of a client -/

/-- The query asks for the first page. -/
def Query.StartsAtZero (query : Query) : Prop :=
  ∀ text ∈ query.offset, Text.parseUnsigned 64 text = some 0

/-- The same query at another offset. -/
def Query.at (query : Query) (offset : Nat) : Query :=
  { query with offset := some (toString offset) }

/-- Follow the offsets of the next pages, for at most `fuel` pages; `none` when that is too few. -/
def walk {α : Type} (respond : Query → Page α) : Nat → Query → Option (List (Page α))
  | 0, _ => none
  | fuel + 1, query =>
      match (respond query).nextOffset with
      | none => some [respond query]
      | some next => (walk respond fuel (query.at next)).map (fun pages => respond query :: pages)

/-- The walk from the query on ends, shows every row once and in order, and no page is longer than
the cap. -/
def VisitsOnce {α : Type} (endpoint : ListEndpoint) (rows : Rows α) (query : Query) : Prop :=
  ∃ fuel pages, walk (endpoint.page rows.list) fuel query = some pages ∧
    pages.flatMap Page.items = rows.list ∧ ∀ page ∈ pages, page.items.length ≤ maxPageLimit

/-- The limit that the endpoint takes as it is: that of a well-formed query of the message list. -/
def ListEndpoint.unclamped : ListEndpoint → Query → Option Nat
  | .messages, query =>
      (ListMessagesQuery.parse query).map (fun parsed => parsed.limit.getD defaultPageLimit)
  | _, _ => none

/-- The limit with which the endpoint cuts its pages. -/
def ListEndpoint.limit (endpoint : ListEndpoint) (query : Query) : Nat :=
  (endpoint.unclamped query).getD (pageParams query).1

/-- The query is at an offset, and so is the same query at any other offset. -/
structure PagesAt (endpoint : ListEndpoint) (limit : Nat) (query : Query) (offset : Nat) :
    Prop where
  here : endpoint.params query = (limit, offset)
  elsewhere : ∀ other ≤ isizeMax, endpoint.params (query.at other) = (limit, other)

theorem PagesAt.at {endpoint : ListEndpoint} {limit offset other : Nat} {query : Query}
    (h : PagesAt endpoint limit query offset) (hother : other ≤ isizeMax) :
    PagesAt endpoint limit (query.at other) other :=
  ⟨h.elsewhere other hother, h.elsewhere⟩

theorem pageParams_at (query : Query) {offset : Nat} (h : offset ≤ isizeMax) :
    pageParams (query.at offset) = ((pageParams query).1, offset) := by
  have hparse : Text.parseUnsigned 64 (toString offset) = some offset :=
    Text.parseUnsigned_toString (by unfold isizeMax at h; omega)
  have hmin : min offset (2 ^ 63 - 1) = offset := Nat.min_eq_left h
  simp only [pageParams, Query.at, Option.bind_some, hparse, Option.getD_some, hmin]

theorem Query.StartsAtZero.pageParams {query : Query} (h : query.StartsAtZero) :
    pageParams query = ((pageParams query).1, 0) := by
  have hoffset : (query.offset.bind (Text.parseUnsigned 64)).getD 0 = 0 := by
    cases htext : query.offset with
    | none => rfl
    | some text => rw [Option.bind_some, h text htext, Option.getD_some]
  simp only [Api.pageParams, hoffset, Nat.zero_min]

/-- Whether a query is well-formed does not depend on an offset that is. -/
theorem parse_offset (query : Query) {text : Option String} {offset : Option Nat}
    (h : parseField (Text.parseUnsigned 64) text = some offset) :
    ListMessagesQuery.parse { query with offset := text } =
      (ListMessagesQuery.parse { query with offset := none }).map
        (fun parsed => { parsed with offset := offset }) := by
  have hnone : parseField (Text.parseUnsigned 64) none = some none := rfl
  unfold ListMessagesQuery.parse
  cases parseField MessageDirection.parse query.direction with
  | none => rfl
  | some direction =>
      cases parseField (Text.parseUnsigned 64) query.limit with
      | none => rfl
      | some limit =>
          rw [h, hnone]
          rfl

/-- The pages of the message list, where the query is well-formed and where it is not. -/
theorem pagesAt_messages {query : Query} (h : query.StartsAtZero) :
    PagesAt .messages (ListEndpoint.messages.limit query) query 0 := by
  have hself : query = { query with offset := query.offset } := rfl
  obtain ⟨offset, hoffset, hzero⟩ : ∃ offset, parseField (Text.parseUnsigned 64) query.offset =
      some offset ∧ offset.getD 0 = 0 := by
    cases htext : query.offset with
    | none => exact ⟨none, rfl, rfl⟩
    | some text => exact ⟨some 0, by rw [parseField, h text htext]; rfl, rfl⟩
  have hhere := parse_offset query hoffset
  have helsewhere : ∀ other ≤ isizeMax, ListMessagesQuery.parse (query.at other) =
      (ListMessagesQuery.parse { query with offset := none }).map
        (fun parsed => { parsed with offset := some other }) := by
    intro other hother
    refine parse_offset query ?_
    rw [parseField, Text.parseUnsigned_toString (by unfold isizeMax at hother; omega)]
    rfl
  cases hparse : ListMessagesQuery.parse { query with offset := none } with
  | none =>
      rw [hparse] at hhere helsewhere
      have hlimit : ListEndpoint.messages.limit query = (pageParams query).1 := by
        simp only [ListEndpoint.limit, ListEndpoint.unclamped, hhere, Option.map_none,
          Option.getD_none]
      rw [hlimit]
      refine ⟨?_, fun other hother => ?_⟩
      · simp only [ListEndpoint.params, hhere, Option.map_none]
        exact h.pageParams
      · simp only [ListEndpoint.params, helsewhere other hother, Option.map_none]
        exact pageParams_at query hother
  | some parsed =>
      rw [hparse] at hhere helsewhere
      have hlimit : ListEndpoint.messages.limit query = parsed.limit.getD defaultPageLimit := by
        simp only [ListEndpoint.limit, ListEndpoint.unclamped, hhere, Option.map_some,
          Option.getD_some]
      rw [hlimit]
      refine ⟨?_, fun other hother => ?_⟩
      · simp only [ListEndpoint.params, hhere, Option.map_some, hzero]
      · simp only [ListEndpoint.params, helsewhere other hother, Option.map_some, Option.getD_some]

/-- The pages of every endpoint. -/
theorem pagesAt_start (endpoint : ListEndpoint) {query : Query} (h : query.StartsAtZero) :
    PagesAt endpoint (endpoint.limit query) query 0 := by
  have hclamped : PagesAt .domains (pageParams query).1 query 0 :=
    ⟨h.pageParams, fun _ hother => pageParams_at query hother⟩
  cases endpoint with
  | messages => exact pagesAt_messages h
  | domains => exact hclamped
  | mailboxes => exact ⟨hclamped.here, hclamped.elsewhere⟩
  | records => exact ⟨hclamped.here, hclamped.elsewhere⟩
  | inbox => exact ⟨hclamped.here, hclamped.elsewhere⟩
  | sent => exact ⟨hclamped.here, hclamped.elsewhere⟩

/-! ## When the walk ends -/

section Walk

variable {α : Type} {endpoint : ListEndpoint} {limit offset : Nat} {query : Query} {rows : Rows α}

/-- The page at an offset. -/
theorem PagesAt.page_eq (h : PagesAt endpoint limit query offset) (rows : List α) :
    endpoint.page rows query = .fromAll rows limit offset := by
  rw [ListEndpoint.page, h.here]

/-- The next page begins where this one ends. -/
theorem nextOffset_fromAll (rows : Rows α) (limit offset : Nat) :
    (Page.fromAll rows.list limit offset).nextOffset =
      if offset + limit < rows.list.length then some (offset + limit) else none := by
  have hbounded : rows.list.length ≤ usizeMax := by
    have hlength := rows.bounded
    unfold isizeMax at hlength
    unfold usizeMax
    omega
  show (if min (offset + limit) usizeMax < rows.list.length then
    some (min (offset + limit) usizeMax) else none) = _
  by_cases hlt : offset + limit < rows.list.length
  · rw [if_pos hlt, Nat.min_eq_left (by omega), if_pos hlt]
  · rw [if_neg hlt, if_neg (by omega)]

theorem length_items_fromAll (rows : List α) (limit offset : Nat) :
    (Page.fromAll rows limit offset).items.length = min limit (rows.length - offset) := by
  simp [Page.fromAll]

theorem length_items_le (rows : List α) (limit offset : Nat) :
    (Page.fromAll rows limit offset).items.length ≤ min limit rows.length := by
  rw [length_items_fromAll]
  omega

/-- A page that reaches the end is the last one. -/
theorem PagesAt.walk_of_reached (h : PagesAt endpoint limit query offset)
    (hreached : rows.list.length ≤ offset + limit) (fuel : Nat) :
    ∃ pages, walk (endpoint.page rows.list) (fuel + 1) query = some pages ∧
      pages.flatMap Page.items = rows.list.drop offset ∧
      ∀ page ∈ pages, page.items.length ≤ min limit rows.list.length := by
  have hnone : (Page.fromAll rows.list limit offset).nextOffset = none := by
    rw [nextOffset_fromAll, if_neg (by omega)]
  refine ⟨[Page.fromAll rows.list limit offset], ?_, ?_, fun page hpage => ?_⟩
  · simp only [walk, h.page_eq, hnone]
  · rw [List.flatMap_cons, List.flatMap_nil, List.append_nil]
    exact List.take_of_length_le (by rw [List.length_drop]; omega)
  · rw [List.mem_singleton.mp hpage]
    exact length_items_le rows.list limit offset

/-- With a limit above 0 the walk ends, and shows what follows its offset. -/
theorem PagesAt.walk_eq (hlimit : 0 < limit) {left : Nat} (h : PagesAt endpoint limit query offset)
    (hleft : rows.list.length - offset ≤ left) :
    ∃ pages, walk (endpoint.page rows.list) (left + 1) query = some pages ∧
      pages.flatMap Page.items = rows.list.drop offset ∧
      ∀ page ∈ pages, page.items.length ≤ min limit rows.list.length := by
  induction left generalizing query offset with
  | zero => exact h.walk_of_reached (by omega) 0
  | succ left ih =>
      by_cases hmore : offset + limit < rows.list.length
      · have hnext : (Page.fromAll rows.list limit offset).nextOffset = some (offset + limit) := by
          rw [nextOffset_fromAll, if_pos hmore]
        have hbounded : offset + limit ≤ isizeMax :=
          Nat.le_trans (Nat.le_of_lt hmore) rows.bounded
        obtain ⟨pages, hpages, hrest, hlength⟩ := ih (h.at hbounded) (by omega)
        refine ⟨Page.fromAll rows.list limit offset :: pages, ?_, ?_, fun page hpage => ?_⟩
        · rw [walk, h.page_eq]
          simp only [hnext, hpages, Option.map_some]
        · rw [List.flatMap_cons, hrest, ← List.drop_drop]
          exact List.take_append_drop limit (rows.list.drop offset)
        · rcases List.mem_cons.mp hpage with rfl | hlater
          · exact length_items_le rows.list limit offset
          · exact hlength page hlater
      · exact h.walk_of_reached (by omega) (left + 1)

/-- With a limit of 0 the walk never leaves a page that has rows after it. -/
theorem PagesAt.walk_eq_none (hrows : rows.list ≠ []) (fuel : Nat)
    (h : PagesAt endpoint 0 query 0) : walk (endpoint.page rows.list) fuel query = none := by
  have hnext : (Page.fromAll rows.list 0 0).nextOffset = some 0 := by
    rw [nextOffset_fromAll, if_pos (List.length_pos_of_ne_nil hrows)]
  induction fuel generalizing query with
  | zero => rfl
  | succ fuel ih =>
      rw [walk, h.page_eq]
      simp only [hnext, ih (h.at (Nat.zero_le _)), Option.map_none]

/-- A walk that ends begins with the page of its query. -/
theorem head_of_walk {respond : Query → Page α} {fuel : Nat} {query : Query}
    {pages : List (Page α)} (h : walk respond fuel query = some pages) : respond query ∈ pages := by
  cases fuel with
  | zero => cases h
  | succ fuel =>
      cases hnext : (respond query).nextOffset with
      | none =>
          simp only [walk, hnext, Option.some.injEq] at h
          rw [← h]
          exact List.mem_singleton_self _
      | some next =>
          simp only [walk, hnext] at h
          obtain ⟨rest, -, rfl⟩ := Option.map_eq_some_iff.mp h
          exact List.mem_cons_self

/-- The endpoint takes a limit of 0 only for an empty list, and one above the cap only for a list
that fits into a page of the cap. -/
def ListEndpoint.Capped (endpoint : ListEndpoint) (rows : Rows α) (query : Query) : Prop :=
  ∀ limit, endpoint.unclamped query = some limit →
    (limit = 0 → rows.list = []) ∧ (maxPageLimit < limit → rows.list.length ≤ maxPageLimit)

/-- The limit of a query that is not taken as it is. -/
theorem limit_of_unclamped_eq_none (h : endpoint.unclamped query = none) :
    0 < endpoint.limit query ∧ endpoint.limit query ≤ maxPageLimit := by
  rw [ListEndpoint.limit, h, Option.getD_none]
  simp only [pageParams, maxPageLimit]
  omega

/-- **When pagination visits everything once.** For every paginated list endpoint, every list of
rows that does not change, and every query that asks for the first page, the client that follows
`next_offset` comes to an end, has seen exactly the rows in order, and has got no page above the
cap, if and only if the endpoint is not the message list with a well-formed query whose limit is 0
while there are rows, or above the cap while there are more rows than the cap. -/
theorem visitsOnce_iff (endpoint : ListEndpoint) (rows : Rows α) (query : Query)
    (hstart : query.StartsAtZero) :
    VisitsOnce endpoint rows query ↔ endpoint.Capped rows query := by
  have hpages := pagesAt_start endpoint hstart
  constructor
  · intro h limit hlimit
    obtain ⟨fuel, pages, hwalk, -, hcap⟩ := h
    rw [ListEndpoint.limit, hlimit, Option.getD_some] at hpages
    refine ⟨?_, fun hlarge => ?_⟩
    · intro heq
      obtain rfl := heq
      by_contra hrows
      rw [hpages.walk_eq_none hrows] at hwalk
      cases hwalk
    · have hfirst := hcap _ (head_of_walk hwalk)
      rw [hpages.page_eq, length_items_fromAll] at hfirst
      omega
  · intro hcapped
    have hwalks : 0 < endpoint.limit query →
        min (endpoint.limit query) rows.list.length ≤ maxPageLimit →
        VisitsOnce endpoint rows query := by
      intro hpositive hcap
      obtain ⟨pages, hwalk, hrows, hlength⟩ := hpages.walk_eq hpositive (Nat.le_refl _)
      exact ⟨_, pages, hwalk, hrows, fun page hpage => Nat.le_trans (hlength page hpage) hcap⟩
    cases hlimit : endpoint.unclamped query with
    | none =>
        obtain ⟨hpositive, hcap⟩ := limit_of_unclamped_eq_none hlimit
        exact hwalks hpositive (by omega)
    | some limit =>
        obtain ⟨hempty, hlarge⟩ := hcapped limit hlimit
        have heq : endpoint.limit query = limit := by
          rw [ListEndpoint.limit, hlimit, Option.getD_some]
        rcases Nat.eq_zero_or_pos limit with hzero | hpositive
        · -- There is nothing to list.
          rw [heq] at hpages
          obtain ⟨pages, hwalk, hrows, hlength⟩ := hpages.walk_of_reached
            (by rw [hempty hzero]; exact Nat.zero_le _) 0
          exact ⟨1, pages, hwalk, hrows, fun page hpage =>
            Nat.le_trans (hlength page hpage) (by omega)⟩
        · refine hwalks (heq ▸ hpositive) ?_
          rw [heq]
          omega

end Walk

/-- A list of three rows. -/
def threeRows : Rows Nat := ⟨[1, 2, 3], by decide⟩

/-- The messages of a mailbox, two to a page. -/
theorem visitsOnce_limit_two :
    (⟨none, some "2", none⟩ : Query).StartsAtZero ∧
      VisitsOnce .messages threeRows ⟨none, some "2", none⟩ := by
  have hstart : (⟨none, some "2", none⟩ : Query).StartsAtZero := by
    intro text h
    cases h
  refine ⟨hstart, (visitsOnce_iff .messages threeRows _ hstart).mpr ?_⟩
  intro limit h
  cases h
  exact ⟨nofun, nofun⟩

/-- The messages of a mailbox with a limit of 0: the client asks for the same page forever. -/
theorem not_visitsOnce_limit_zero :
    (⟨none, some "0", some "0"⟩ : Query).StartsAtZero ∧
      ¬ VisitsOnce .messages threeRows ⟨none, some "0", some "0"⟩ := by
  have hstart : (⟨none, some "0", some "0"⟩ : Query).StartsAtZero := by
    intro text h
    cases h
    rfl
  refine ⟨hstart, ?_⟩
  intro h
  obtain ⟨fuel, pages, hwalk, -, -⟩ := h
  have hrows : threeRows.list ≠ [] := nofun
  rw [(pagesAt_messages hstart).walk_eq_none hrows fuel] at hwalk
  cases hwalk

end Zonemail.Api
