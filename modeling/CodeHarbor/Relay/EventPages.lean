import CodeHarbor.Lib.Cursor
import CodeHarbor.Lib.GoText
import CodeHarbor.Lib.OrdMap
set_option autoImplicit false

namespace CodeHarbor.Relay
open Lib Lib.Go

/-! The history of a session as it is read: page by page over HTTP, and in batches when a
browser resumes. -/

/-- `32<<20`. -/
def maxEventBatchBytes : Nat := 32*1048576

/-- A stored event: its number, the rest of it and the length of its JSON. -/
structure LoggedEvent where
  eventSeq : Int
  content : Text := []
  bytes : Nat
  int64 : eventSeq < 2^63 := by decide
  deriving DecidableEq, Repr

/-- The sessions with their owners and the events, in the maps of a relay without a database
or in the tables of one with it. -/
inductive History where
  | memory (sessions : OrdMap Text Text) (events : OrdMap Text (List LoggedEvent))
  | postgres (sessions : OrdMap Text (Option Text)) (events : List (Text × LoggedEvent))

inductive StoreError where
  | deviceUnauthorized
  deriving DecidableEq, Repr

structure EventPage where
  events : List LoggedEvent
  truncated : Bool
  deriving DecidableEq, Repr

def copyEventsAfter (events : List LoggedEvent) (after : Int) : List LoggedEvent :=
  beyond LoggedEvent.eventSeq after events

def capEventBatch (events : List LoggedEvent) : List LoggedEvent :=
  fill LoggedEvent.bytes maxEventBatchBytes 0 events

/-- The loop of `queryEventsWithByteTruncation` over the rows of its query. -/
def readRows : Nat → List LoggedEvent → List LoggedEvent × Bool
  | _, [] => ([],false)
  | currentBytes, row :: rows =>
    if maxEventBatchBytes < currentBytes+row.bytes then ([],true)
    else
      let (result,byteTruncated) := readRows (currentBytes+row.bytes) rows
      (row :: result,byteTruncated)

/-- The cuts of the memory store: at the limit, and at the budget of bytes. -/
def cutPage (result : List LoggedEvent) (limit : Nat) : EventPage :=
  let truncated : Bool := limit < result.length
  let result := if truncated then result.take limit else result
  let capped := capEventBatch result
  ⟨capped,if capped.length < result.length then true else truncated⟩

namespace History

def owner : History → Text → Option Text
  | memory sessions _, sessionId => sessions.get sessionId
  | postgres sessions _, sessionId => (sessions.get sessionId).join

def selectEvents (rows : List (Text × LoggedEvent)) (sessionId : Text) (condition : LoggedEvent → Bool) :
    List LoggedEvent :=
  ((rows.filter (fun row => row.1 = sessionId && condition row.2)).map Prod.snd).insertionSort
    (fun left right => left.eventSeq ≤ right.eventSeq)

def listEventsForUserPage (h : History) (sessionId user : Text) (after : Int) (limit : Nat) :
    Except StoreError EventPage :=
  if user = [] then .error .deviceUnauthorized
  else
    -- one row beyond the public page size may be asked for
    let limit := if limit = 0 ∨ 5001 < limit then 5000 else limit
    match h with
    | memory sessions events =>
      if sessions.get sessionId = some user then
        .ok (cutPage (copyEventsAfter ((events.get sessionId).getD []) after) limit)
      else .error .deviceUnauthorized
    | postgres sessions events =>
      let rows := if (sessions.get sessionId).join = some user then
          (selectEvents events sessionId (fun event => after < event.eventSeq)).take limit
        else []
      let (events,byteTruncated) := readRows 0 rows
      .ok ⟨events,byteTruncated⟩

def listEventsForUserLimited (h : History) (sessionId user : Text) (after : Int) (limit : Nat) :
    Except StoreError (List LoggedEvent) :=
  (h.listEventsForUserPage sessionId user after limit).map EventPage.events

def eventBoundsForUser (h : History) (sessionId user : Text) : Except StoreError (Int × Int) :=
  if user = [] then .error .deviceUnauthorized
  else
    match h with
    | memory sessions events =>
      if sessions.get sessionId = some user then
        let events := (events.get sessionId).getD []
        match events.head?, events.getLast? with
        | some first, some last => .ok (first.eventSeq,last.eventSeq)
        | _, _ => .ok (0,0)
      else .error .deviceUnauthorized
    | postgres sessions events =>
      let numbers := if (sessions.get sessionId).join = some user then
          (events.filter (fun row => row.1 = sessionId)).map (fun row => row.2.eventSeq)
        else []
      match numbers.min?, numbers.max? with
      | some first, some last => if first = 0 ∨ last = 0 then .ok (0,0) else .ok (first,last)
      | _, _ => .ok (0,0)

def log (h : History) (sessionId user : Text) : List LoggedEvent :=
  if h.owner sessionId = some user then
    match h with
    | memory _ events => (events.get sessionId).getD []
    | postgres _ events => selectEvents events sessionId (fun _ => true)
  else []

end History

/-- The parts of a request for events that its handler reads. A value missing from the query
is the empty text. -/
structure EventsRequest where
  path : Text
  after : Text
  limit : Text
  deriving DecidableEq, Repr

structure EventsResponse where
  events : List LoggedEvent
  nextCursor : Int
  truncated : Bool
  availableFrom : Option Int
  deriving DecidableEq, Repr

inductive ApiError where
  | unauthorized
  | notFound
  | invalidEventCursor
  | forbidden
  deriving DecidableEq, Repr

def sessionsPath : Text := "/api/v1/sessions/".toList

def eventsSuffix : Text := "/events".toList

def eventQuery (req : EventsRequest) : Option (Int × Nat) := do
  let after ← if req.after = [] then some 0 else (parseInt64 req.after).filter (0 ≤ ·)
  let limit ← if req.limit = [] then some 1000
    else (parseInt64 req.limit).filter (fun n => 1 ≤ n ∧ n ≤ 5000)
  return (after,limit.toNat)

def int64Succ (n : Int) : Int := if n = 2^63-1 then -2^63 else n+1

/-- `GET /api/v1/sessions/:id/events` for the principal of the request. -/
def serveEvents (h : History) (user : Option Text) (req : EventsRequest) :
    Except ApiError EventsResponse :=
  match user with
  | none => .error .unauthorized
  | some user =>
    let path := trimPrefix req.path sessionsPath
    if hasSuffix path eventsSuffix = false then .error .notFound
    else
      let id := trimSuffix path eventsSuffix
      match eventQuery req with
      | none => .error .invalidEventCursor
      | some (after,limit) =>
        match h.listEventsForUserPage id user after (limit+1) with
        | .error .deviceUnauthorized => .error .forbidden
        | .ok page =>
          let truncated := page.truncated || decide (limit < page.events.length)
          let events := if limit < page.events.length then page.events.take limit else page.events
          let availableFrom := if 0 < after then
              match h.eventBoundsForUser id user with
              | .ok (first,_) => if int64Succ after < first then some first else none
              | .error _ => none
            else none
          let nextCursor := match events.getLast? with
            | some event => if after < event.eventSeq then event.eventSeq else after
            | none => after
          .ok ⟨events,nextCursor,truncated,availableFrom⟩

def eventsRequest (id : Text) (after limit : Nat) : EventsRequest where
  path := sessionsPath ++ id ++ eventsSuffix
  after := decimal after
  limit := decimal limit

/-- A client asks on from the cursor it was given while the answer is truncated, for as many
requests as there is fuel. -/
def fetchPages (h : History) (user id : Text) (limit : Nat) : Nat → Nat → Option (List EventsResponse)
  | 0, _ => none
  | fuel+1, after =>
    match serveEvents h (some user) (eventsRequest id after limit) with
    | .error _ => none
    | .ok page =>
      if page.truncated then (fetchPages h user id limit fuel page.nextCursor.toNat).map (page :: ·)
      else some [page]

section pages

/-- What a page of a log is, whichever store cuts it: a first part, within the limit, that is
not empty unless the log is; its flag is raised when it ends before the limit and the log do,
and never when there is nothing more. -/
structure IsPage (log : List LoggedEvent) (limit : Nat) (page : EventPage) : Prop where
  first : page.events <+: log
  short : page.events.length ≤ limit
  progress : log ≠ [] → 0 < limit → page.events ≠ []
  whole : page.truncated = false → page.events = log.take limit
  more : page.truncated = true → page.events.length < log.length

theorem readRows_eq (currentBytes : Nat) (rows : List LoggedEvent) :
    readRows currentBytes rows =
      (fill LoggedEvent.bytes maxEventBatchBytes currentBytes rows,
        decide ((fill LoggedEvent.bytes maxEventBatchBytes currentBytes rows).length < rows.length)) := by
  induction rows generalizing currentBytes with
  | nil => rfl
  | cons row rows ih =>
    rw [readRows,fill,ih]
    split_ifs
    · simp
    · simp

variable {log : List LoggedEvent} {limit : Nat}

theorem isPage_fill (hbytes : ∀ event ∈ log, event.bytes ≤ maxEventBatchBytes) (truncated : Bool)
    (hwhole : truncated = false → (capEventBatch (log.take limit)).length = (log.take limit).length)
    (hmore : truncated = true → (capEventBatch (log.take limit)).length < log.length) :
    IsPage log limit ⟨capEventBatch (log.take limit),truncated⟩ where
  first := (fill_first _ _).trans (List.take_prefix _ _)
  short := by
    have hfill : (capEventBatch (log.take limit)).length ≤ (log.take limit).length :=
      (fill_first _ _).length_le
    have htake : (log.take limit).length ≤ limit := List.length_take_le _ _
    exact hfill.trans htake
  progress := by
    intro hlog hlimit
    cases log with
    | nil => exact absurd rfl hlog
    | cons event log =>
      obtain ⟨n,rfl⟩ := Nat.exists_eq_succ_of_ne_zero hlimit.ne'
      exact fill_ne_nil (hbytes event List.mem_cons_self)
  whole := fun h => (fill_first _ _).eq_of_length (hwhole h)
  more := hmore

theorem length_capEventBatch (events : List LoggedEvent) :
    (capEventBatch events).length ≤ events.length := (fill_first _ _).length_le

theorem isPage_cutPage (hbytes : ∀ event ∈ log, event.bytes ≤ maxEventBatchBytes) :
    IsPage log limit (cutPage log limit) := by
  have htake : (if decide (limit < log.length) = true then log.take limit else log) =
      log.take limit := by
    split_ifs with hlong
    · rfl
    · rw [List.take_of_length_le (by simpa using hlong)]
  have hcap := length_capEventBatch (log.take limit)
  have hlen : (log.take limit).length = min limit log.length := List.length_take
  simp only [cutPage,htake]
  refine isPage_fill hbytes _ ?_ ?_
  · intro hflag
    split_ifs at hflag with hcapped
    omega
  · intro hflag
    split_ifs at hflag with hcapped
    · omega
    · have hlong : limit < log.length := by simpa using hflag
      omega

theorem isPage_rows (hbytes : ∀ event ∈ log, event.bytes ≤ maxEventBatchBytes) :
    IsPage log limit ⟨capEventBatch (log.take limit),
      decide ((capEventBatch (log.take limit)).length < (log.take limit).length)⟩ := by
  have hcap := length_capEventBatch (log.take limit)
  have hlen : (log.take limit).length = min limit log.length := List.length_take
  refine isPage_fill hbytes _ ?_ ?_
  · intro hflag
    have hflag := of_decide_eq_false hflag
    omega
  · intro hflag
    have hflag := of_decide_eq_true hflag
    omega

namespace History

theorem selectEvents_sorted (rows : List (Text × LoggedEvent)) (id : Text)
    (condition : LoggedEvent → Bool) :
    (selectEvents rows id condition).Pairwise (fun a b => a.eventSeq ≤ b.eventSeq) := by
  have : IsTrans LoggedEvent (fun a b => a.eventSeq ≤ b.eventSeq) :=
    ⟨fun _ _ _ hab hbc => le_trans hab hbc⟩
  have : Std.Total (fun a b : LoggedEvent => a.eventSeq ≤ b.eventSeq) :=
    ⟨fun a b => le_total a.eventSeq b.eventSeq⟩
  exact List.pairwise_insertionSort _ _

theorem selectEvents_beyond {rows : List (Text × LoggedEvent)} {id : Text}
    (h : Increasing LoggedEvent.eventSeq (selectEvents rows id (fun _ => true))) (after : Int) :
    selectEvents rows id (fun event => after < event.eventSeq) =
      beyond LoggedEvent.eventSeq after (selectEvents rows id (fun _ => true)) := by
  refine (h.beyond after).eq_of_perm ?_ (selectEvents_sorted rows id _)
  have hleft := List.perm_insertionSort (fun left right : LoggedEvent => left.eventSeq ≤ right.eventSeq)
    ((rows.filter (fun row => row.1 = id && decide (after < row.2.eventSeq))).map Prod.snd)
  have hright := (List.perm_insertionSort
    (fun left right : LoggedEvent => left.eventSeq ≤ right.eventSeq)
      ((rows.filter (fun row => row.1 = id && true)).map Prod.snd)).filter
        (fun event => decide (after < event.eventSeq))
  have hmiddle : ((rows.filter (fun row => row.1 = id && decide (after < row.2.eventSeq))).map Prod.snd) =
      ((rows.filter (fun row => row.1 = id && true)).map Prod.snd).filter
        (fun event => decide (after < event.eventSeq)) := by
    rw [List.filter_map,List.filter_filter]
    congr 1
    refine List.filter_congr fun row _ => ?_
    rw [Bool.and_true]
    exact Bool.and_comm _ _
  exact hleft.trans (hmiddle ▸ hright.symm)

/-- Both stores give the owner of a session a page of what lies beyond the cursor. -/
theorem isPage_listEventsForUserPage {h : History} {id user : Text} (huser : user ≠ [])
    (howner : h.owner id = some user) (hlog : Increasing LoggedEvent.eventSeq (h.log id user))
    (hbytes : ∀ event ∈ h.log id user, event.bytes ≤ maxEventBatchBytes) (after : Int) (limit : Nat)
    (hpos : 0 < limit) (hlimit : limit ≤ 5001) :
    ∃ page, h.listEventsForUserPage id user after limit = .ok page ∧
      IsPage (beyond LoggedEvent.eventSeq after (h.log id user)) limit page := by
  have hsafe : (if limit = 0 ∨ 5001 < limit then 5000 else limit) = limit := if_neg (by omega)
  have hbytes : ∀ event ∈ beyond LoggedEvent.eventSeq after (h.log id user),
      event.bytes ≤ maxEventBatchBytes := fun event hevent => hbytes event (mem_beyond.mp hevent).1
  unfold listEventsForUserPage
  rw [if_neg huser]
  simp only [hsafe]
  cases h with
  | memory sessions events =>
    have howner : sessions.get id = some user := howner
    have hself : (memory sessions events).log id user = (events.get id).getD [] := if_pos howner
    rw [hself] at hlog hbytes ⊢
    dsimp only
    rw [if_pos howner]
    exact ⟨_,rfl,isPage_cutPage hbytes⟩
  | postgres sessions events =>
    have howner : (sessions.get id).join = some user := howner
    have hself : (postgres sessions events).log id user =
      selectEvents events id (fun _ => true) := if_pos howner
    rw [hself] at hlog hbytes ⊢
    dsimp only
    rw [if_pos howner,selectEvents_beyond hlog after,readRows_eq]
    exact ⟨_,rfl,isPage_rows hbytes⟩

end History

end pages

section requests

/-- A session of the user whose log is in order and whose events are no larger than a batch. -/
structure History.Serves (h : History) (id user : Text) : Prop where
  named : user ≠ []
  owned : h.owner id = some user
  increasing : Increasing LoggedEvent.eventSeq (h.log id user)
  within : ∀ event ∈ h.log id user, event.bytes ≤ maxEventBatchBytes

theorem eventQuery_eventsRequest (id : Text) {after limit : Nat} (hafter : after < 2^63)
    (hpos : 1 ≤ limit) (hlimit : limit ≤ 5000) :
    eventQuery (eventsRequest id after limit) = some ((after : Int),limit) := by
  have hcursor := parseInt64_decimal hafter
  have hcount := parseInt64_decimal (n := limit) (by omega)
  simp only [eventQuery,eventsRequest,decimal_ne_nil,if_false,hcursor,hcount,Option.filter_some]
  rw [if_pos (by simp),if_pos (by simp; omega)]
  rfl

theorem IsPage.take_limit {log : List LoggedEvent} {limit : Nat} {page : EventPage}
    (h : IsPage log (limit+1) page) (hpos : 1 ≤ limit) :
    ∃ rest, log = page.events.take limit ++ rest ∧
      ((page.truncated || decide (limit < page.events.length)) = true ↔ rest ≠ []) ∧
      (rest ≠ [] → page.events.take limit ≠ []) := by
  obtain ⟨rest,hrest⟩ := (List.take_prefix limit page.events).trans h.first
  have hlength := congrArg List.length hrest
  rw [List.length_append,List.length_take] at hlength
  have hshort := h.short
  have hle := h.first.length_le
  refine ⟨rest,hrest.symm,?_,?_⟩
  · rw [← List.length_pos_iff,Bool.or_eq_true,decide_eq_true_eq]
    constructor
    · rintro (hflag | hlong)
      · have hmore := h.more hflag
        omega
      · omega
    · intro hpositive
      by_contra hnone
      rw [not_or] at hnone
      have hwhole := congrArg List.length (h.whole (eq_false_of_ne_true hnone.1))
      rw [List.length_take] at hwhole
      omega
  · intro hmore htake
    have hlog : log ≠ [] := by
      rw [← hrest]
      simp [hmore]
    have hevents := h.progress hlog (by omega)
    rcases List.take_eq_nil_iff.mp htake with hzero | hnil
    · omega
    · exact hevents hnil

variable {h : History} {id user : Text}

theorem serveEvents_eventsRequest (hs : h.Serves id user) {after limit : Nat} (hafter : after < 2^63)
    (hpos : 1 ≤ limit) (hlimit : limit ≤ 5000) :
    ∃ page rest, serveEvents h (some user) (eventsRequest id after limit) = .ok page ∧
      beyond LoggedEvent.eventSeq (after : Int) (h.log id user) = page.events ++ rest ∧
      page.nextCursor = advance LoggedEvent.eventSeq (after : Int) page.events ∧
      (page.truncated = true ↔ rest ≠ []) ∧ (rest ≠ [] → page.events ≠ []) := by
  obtain ⟨page,hpage,hcut⟩ := History.isPage_listEventsForUserPage hs.named hs.owned hs.increasing
    hs.within (after : Int) (limit+1) (by omega) (by omega)
  obtain ⟨rest,hrest,hflag,hprogress⟩ := hcut.take_limit hpos
  have hpath : trimPrefix (eventsRequest id after limit).path sessionsPath = id ++ eventsSuffix := by
    rw [eventsRequest,List.append_assoc,trimPrefix_append]
  have hsuffix : hasSuffix (id ++ eventsSuffix) eventsSuffix = true := by simp [hasSuffix]
  have htake : (if limit < page.events.length then page.events.take limit else page.events) =
      page.events.take limit := by
    split_ifs with hlong
    · rfl
    · rw [List.take_of_length_le (by omega)]
  have hcursor : (match (page.events.take limit).getLast? with
      | some event => if (after : Int) < event.eventSeq then event.eventSeq else after
      | none => (after : Int)) = advance LoggedEvent.eventSeq (after : Int) (page.events.take limit) := by
    cases hlast : (page.events.take limit).getLast? with
    | none => simp [advance,hlast]
    | some event =>
      have hevent : event ∈ beyond LoggedEvent.eventSeq (after : Int) (h.log id user) := by
        rw [hrest]
        exact List.mem_append_left _ (List.mem_of_getLast? hlast)
      simp [advance,hlast,(mem_beyond.mp hevent).2]
  unfold serveEvents
  simp only [hpath,hsuffix,trimSuffix_append,eventQuery_eventsRequest id hafter hpos hlimit,hpage,htake,
    hcursor,Bool.true_eq_false,if_false]
  exact ⟨_,rest,rfl,hrest,rfl,hflag,hprogress⟩

/-- Page after page, a client gets every event beyond its cursor once and in order, in a number
of requests that the number of these events bounds, and only its last page is not truncated. -/
theorem fetchPages_complete (hs : h.Serves id user) {limit : Nat} (hpos : 1 ≤ limit)
    (hlimit : limit ≤ 5000) (fuel : Nat) {after : Nat} (hafter : after < 2^63)
    (hfuel : (beyond LoggedEvent.eventSeq (after : Int) (h.log id user)).length < fuel) :
    ∃ pages, fetchPages h user id limit fuel after = some pages ∧
      pages.flatMap EventsResponse.events =
        beyond LoggedEvent.eventSeq (after : Int) (h.log id user) ∧
      ∀ i page, pages[i]? = some page → (page.truncated = false ↔ i+1 = pages.length) := by
  induction fuel generalizing after with
  | zero => omega
  | succ fuel ih =>
    obtain ⟨page,rest,hserve,hrest,hcursor,hflag,hprogress⟩ :=
      serveEvents_eventsRequest hs hafter hpos hlimit
    cases htruncated : page.truncated with
    | false =>
      have hnil : rest = [] := by
        by_contra hne
        rw [hflag.mpr hne] at htruncated
        cases htruncated
      refine ⟨[page],by simp [fetchPages,hserve,htruncated],by simp [hrest,hnil],?_⟩
      intro i other hother
      obtain ⟨rfl,rfl⟩ : i = 0 ∧ page = other := by
        cases i with
        | zero => simpa using hother
        | succ i => simp at hother
      simp [htruncated]
    | true =>
      have hne := hflag.mp htruncated
      have hread := hprogress hne
      -- the next cursor is the number of an event, and what it leaves is the rest
      have hle : (after : Int) ≤ page.nextCursor := hcursor ▸ le_advance hrest
      have hbound : page.nextCursor < 2^63 := by
        cases hlast : page.events.getLast? with
        | none => exact absurd (List.getLast?_eq_none_iff.mp hlast) hread
        | some event =>
          rw [hcursor,advance,hlast]
          exact event.int64
      have hnat : ((page.nextCursor.toNat : Nat) : Int) = page.nextCursor :=
        Int.toNat_of_nonneg (by omega)
      have hnext : beyond LoggedEvent.eventSeq ((page.nextCursor.toNat : Nat) : Int) (h.log id user) =
          rest := by
        rw [hnat,hcursor]
        exact beyond_advance hs.increasing hrest
      have hfewer : rest.length < fuel := by
        have hlength := congrArg List.length hrest
        have hpositive := List.length_pos_iff.mpr hread
        rw [List.length_append] at hlength
        omega
      obtain ⟨pages,hpages,hall,hlast⟩ := @ih page.nextCursor.toNat (by omega)
        (by rw [hnext]; exact hfewer)
      have hsome : pages ≠ [] := by
        rintro rfl
        rw [hnext] at hall
        exact hne hall.symm
      refine ⟨page :: pages,by simp [fetchPages,hserve,htruncated,hpages],?_,?_⟩
      · rw [List.flatMap_cons,hall,hnext,hrest]
      · intro i other hother
        cases i with
        | zero =>
          have hlength := List.length_pos_iff.mpr hsome
          obtain rfl : page = other := by simpa using hother
          simp only [htruncated,Bool.true_eq_false,List.length_cons,false_iff]
          omega
        | succ i =>
          rw [List.getElem?_cons_succ] at hother
          rw [hlast i other hother,List.length_cons]
          omega

/-- Three events in the maps and in the tables, of which a page of 32 MiB holds two. -/
def Sample.threeEvents : List LoggedEvent :=
  [{ eventSeq := 4, bytes := 100 },{ eventSeq := 7, bytes := maxEventBatchBytes-100 },
    { eventSeq := 8, bytes := 100 }]

def Sample.mapped : History :=
  .memory (OrdMap.empty.set "s".toList "ann".toList) (OrdMap.empty.set "s".toList Sample.threeEvents)

def Sample.tabled : History :=
  .postgres (OrdMap.empty.set "s".toList (some "ann".toList))
    (Sample.threeEvents.reverse.map (fun event => ("s".toList,event)))

theorem Sample.mapped_serves : Sample.mapped.Serves "s".toList "ann".toList where
  named := by decide
  owned := by decide
  increasing := by
    unfold Increasing
    decide
  within := by decide

theorem Sample.tabled_serves : Sample.tabled.Serves "s".toList "ann".toList where
  named := by decide
  owned := by decide
  increasing := by
    unfold Increasing
    decide
  within := by decide

theorem threeEvents_fetchPages_complete :
    (∃ pages, fetchPages Sample.mapped "ann".toList "s".toList 5000 4 0 = some pages ∧
      pages.flatMap EventsResponse.events =
        beyond LoggedEvent.eventSeq 0 (Sample.mapped.log "s".toList "ann".toList) ∧
      ∀ i page, pages[i]? = some page → (page.truncated = false ↔ i+1 = pages.length)) ∧
    ∃ pages, fetchPages Sample.tabled "ann".toList "s".toList 1 4 3 = some pages ∧
      pages.flatMap EventsResponse.events =
        beyond LoggedEvent.eventSeq 3 (Sample.tabled.log "s".toList "ann".toList) ∧
      ∀ i page, pages[i]? = some page → (page.truncated = false ↔ i+1 = pages.length) :=
  ⟨fetchPages_complete Sample.mapped_serves (by decide) (by decide) 4 (by decide) (by decide),
    fetchPages_complete Sample.tabled_serves (by decide) (by decide) 4 (by decide) (by decide)⟩

end requests

end CodeHarbor.Relay
