import CodeHarbor.Relay.EventPages
set_option autoImplicit false

namespace CodeHarbor.Relay
open Lib Lib.Go

/-! The replay that a browser asks for with the cursors of its sessions. -/

def maxResumeSessions : Nat := 512

/-- A cursor as it came out of the JSON: a double, which is a rational number here, and
anything else. The decoder never makes an integer of 64 bits. -/
inductive RawCursor where
  | float (value : Rat)
  | int64 (value : Int)
  | other
  deriving DecidableEq

/-- The bound that the code compares with is 2^63 as a double. That value itself is no
`int64`, and its conversion gives the least one. -/
def RawCursor.cursor : RawCursor → Option Int
  | float value =>
    if 0 ≤ value ∧ value ≤ 2^63 ∧ value.den = 1 then
      some (if value.num < 2^63 then value.num else -2^63)
    else none
  | int64 value => if 0 ≤ value then some value else none
  | other => none

inductive ReplayFrame where
  | historyGap (sessionId : Text) (requestedCursor availableFrom latestCursor : Int)
  | event (sessionId : Text) (event : LoggedEvent)
  | resumeComplete (cursors : List (Text × Int)) (truncated : Bool)
  deriving DecidableEq, Repr

/-- How a bounded send ends: the frame is in the queue, it is too large for the queue, or the
peer was closed or its time ran out and it is closed now. -/
inductive SendOutcome where
  | enqueued
  | refused
  | stopped
  deriving DecidableEq, Repr

/-- What the replay meets outside: which queries succeed, and how the sends end. No query
and no send is made twice, so that they can be told apart by what they are for. -/
structure ReplayOutcomes where
  bounds : Text → Bool
  list : Text → Nat → Bool
  historyGap : Text → Bool
  event : Text → Int → SendOutcome
  resumeComplete : SendOutcome

/-- The variables of `resumeBrowser` with the frames it put in the queue of the peer. -/
structure Replay where
  latest : OrdMap Text Int := OrdMap.empty
  truncated : Bool := false
  frames : List ReplayFrame := []
  closed : Bool := false

namespace Replay

def truncate (r : Replay) : Replay := { r with truncated := true }

/-- `sendJSON`, which closes a peer whose queue is full. -/
def sendJSON (r : Replay) (fits : Bool) (frame : ReplayFrame) : Replay :=
  if r.closed then r
  else if fits then { r with frames := r.frames ++ [frame] }
  else { r with closed := true }

def sendJSONBlockingUntil (r : Replay) (outcome : SendOutcome) (frame : ReplayFrame) : Replay × Bool :=
  if r.closed then (r,false)
  else
    match outcome with
    | .enqueued => ({ r with frames := r.frames ++ [frame] },true)
    | .refused => (r,false)
    | .stopped => ({ r with closed := true },false)

def sendBatch (o : ReplayOutcomes) (sessionId : Text) : Replay → List LoggedEvent → Replay
  | r, [] => r
  | r, event :: rest =>
    match r.sendJSONBlockingUntil (o.event sessionId event.eventSeq) (.event sessionId event) with
    | (r,false) => r.truncate
    | (r,true) =>
      let latest := if (r.latest.get sessionId).getD 0 < event.eventSeq then
        r.latest.set sessionId event.eventSeq else r.latest
      sendBatch o sessionId { r with latest := latest } rest

def sendBatches (h : History) (o : ReplayOutcomes) (user sessionId : Text) : Nat → Replay → Replay
  | 0, r => r
  | left+1, r =>
    let listed := if o.list sessionId (4-left) then
        h.listEventsForUserLimited sessionId user ((r.latest.get sessionId).getD 0) 1001
      else .error .deviceUnauthorized
    match listed with
    | .error _ => r.truncate
    | .ok [] => r
    | .ok (event :: events) =>
      let hasMore := 1000 < (event :: events).length
      let r := sendBatch o sessionId r (if hasMore then (event :: events).take 1000 else event :: events)
      if r.truncated || decide hasMore || left = 0 then r.truncate
      else sendBatches h o user sessionId left r

/-- The cursor of a session, moved to where the retained history begins. -/
def startSession (h : History) (o : ReplayOutcomes) (user : Text) (r : Replay) (sessionId : Text)
    (cursor : Int) : Replay :=
  let r := { r with latest := r.latest.set sessionId cursor }
  if 0 < cursor ∧ o.bounds sessionId = true then
    match h.eventBoundsForUser sessionId user with
    | .error _ => r
    | .ok (first,last) =>
      if int64Succ cursor < first then
        let r := r.sendJSON (o.historyGap sessionId) (.historyGap sessionId cursor first last)
        { r with latest := r.latest.set sessionId (first-1) }
      else r
  else r

def visitSession (h : History) (o : ReplayOutcomes) (user : Text) (r : Replay)
    (entry : Text × RawCursor) : Replay :=
  if entry.1 = [] ∨ 256 < byteLen entry.1 then r.truncate
  else
    match entry.2.cursor with
    | none => r.truncate
    | some cursor => sendBatches h o user entry.1 5 (startSession h o user r entry.1 cursor)

/-- The loop over the cursors, in whatever order the map gives them. -/
def resumeSessions (h : History) (o : ReplayOutcomes) (user : Text) :
    Nat → Replay → List (Text × RawCursor) → Replay
  | _, r, [] => r
  | processed, r, entry :: rest =>
    if maxResumeSessions ≤ processed then r.truncate
    else resumeSessions h o user (processed+1) (visitSession h o user r entry) rest

end Replay

/-- The logs that a user can read are in order, and no event is larger than a batch. -/
structure History.Sound (h : History) (user : Text) : Prop where
  named : user ≠ []
  increasing : ∀ id, Increasing LoggedEvent.eventSeq (h.log id user)
  within : ∀ id, ∀ event ∈ h.log id user, event.bytes ≤ maxEventBatchBytes

/-- A resume frame with the cursors of a map. -/
def resumeBrowser (h : History) (o : ReplayOutcomes) (user : Text) (cursors : List (Text × RawCursor)) :
    Replay :=
  let r := Replay.resumeSessions h o user 0 {} cursors
  (r.sendJSONBlockingUntil o.resumeComplete (.resumeComplete r.latest.entries r.truncated)).1

/-- The cursors of a request, which are whole numbers. -/
def rawCursors (cursors : List (Text × Nat)) : List (Text × RawCursor) :=
  cursors.map (fun entry => (entry.1,.float entry.2))

def ReplayFrame.about (s : Text) : ReplayFrame → Bool
  | historyGap t _ _ _ => t = s
  | event t _ => t = s
  | resumeComplete _ _ => false

def Replay.framesOf (r : Replay) (s : Text) : List ReplayFrame := r.frames.filter (ReplayFrame.about s)

def replayedEvents (s : Text) (frames : List ReplayFrame) : List LoggedEvent :=
  frames.filterMap fun
    | .event t event => if t = s then some event else none
    | _ => none

/-- Where the replay of a session starts: at the cursor of the request, or before the first
retained event when the browser was told of a gap. -/
def replayStart (s : Text) (cursor : Int) (frames : List ReplayFrame) : Int :=
  match frames.findSome? (fun
    | .historyGap t _ availableFrom _ => if t = s then some availableFrom else none
    | _ => none) with
  | some availableFrom => availableFrom-1
  | none => cursor

/-- What a finished replay owes the browser. -/
structure Resumed (h : History) (o : ReplayOutcomes) (user : Text) (cursors : List (Text × Nat))
    (r : Replay) : Prop where
  sound : ∀ s d, r.latest.get s = some d → ∃ c, (s,c) ∈ cursors ∧
    replayedEvents s r.frames =
      between LoggedEvent.eventSeq (replayStart s c r.frames) d (h.log s user)
  complete : r.truncated = false → ∀ s c, (s,c) ∈ cursors →
    ∃ d, r.latest.get s = some d ∧ beyond LoggedEvent.eventSeq d (h.log s user) = []
  report : ∀ reported truncated, .resumeComplete reported truncated ∈ r.frames →
    reported = r.latest.entries ∧ truncated = r.truncated
  gap : ∀ before s (c : Nat) rest, cursors = before ++ (s,c) :: rest → before.length < maxResumeSessions →
    s ≠ [] → byteLen s ≤ 256 → h.owner s = some user → 0 < c → o.bounds s = true →
    (Replay.startSession h o user (Replay.resumeSessions h o user 0 {} (rawCursors before)) s c).closed =
      false →
    ((∃ first last, .historyGap s c first last ∈ r.frames) ↔
      ∃ event, (h.log s user).head? = some event ∧ (c : Int)+1 < event.eventSeq)

section listing

variable {h : History} {user : Text}

theorem History.listEventsForUserLimited_ok (hs : h.Sound user) {id : Text} {after : Int}
    {events : List LoggedEvent} (hlist : h.listEventsForUserLimited id user after 1001 = .ok events) :
    ∃ more, beyond LoggedEvent.eventSeq after (h.log id user) = events ++ more ∧
      (events = [] → more = []) := by
  by_cases howner : h.owner id = some user
  · obtain ⟨page,hpage,hcut⟩ := isPage_listEventsForUserPage hs.named howner (hs.increasing id)
      (hs.within id) after 1001 (by decide) (by decide)
    rw [listEventsForUserLimited,hpage] at hlist
    obtain rfl : page.events = events := by simpa [Except.map] using hlist
    obtain ⟨more,hmore⟩ := hcut.first
    refine ⟨more,hmore.symm,fun hnone => ?_⟩
    by_contra hne
    exact hcut.progress (by rw [← hmore]; simp [hne]) (by decide) hnone
  · have hlog : h.log id user = [] := if_neg howner
    have hnone : events = [] := by
      unfold listEventsForUserLimited listEventsForUserPage at hlist
      rw [if_neg hs.named] at hlist
      cases h with
      | memory sessions events =>
        have howner : ¬sessions.get id = some user := howner
        simp [howner,Except.map] at hlist
      | postgres sessions rows =>
        have howner : ¬(sessions.get id).join = some user := howner
        simpa [howner,Except.map,readRows] using hlist.symm
    exact ⟨[],by simp [hlog,hnone,beyond],fun _ => rfl⟩

theorem min?_numbers {events : List LoggedEvent} (numbers : List Int)
    (hsorted : events.Pairwise (fun a b => a.eventSeq ≤ b.eventSeq))
    (hperm : (events.map LoggedEvent.eventSeq).Perm numbers) :
    numbers.min? = events.head?.map LoggedEvent.eventSeq := by
  cases events with
  | nil =>
    obtain rfl : numbers = [] := by simpa using hperm.symm
    rfl
  | cons event events =>
    rw [List.head?_cons,Option.map_some,List.min?_eq_some_iff]
    refine ⟨hperm.mem_iff.mp List.mem_cons_self,fun n hn => ?_⟩
    obtain ⟨other,hother,rfl⟩ := List.mem_map.mp (hperm.mem_iff.mpr hn)
    rcases List.mem_cons.mp hother with rfl | hother
    · exact le_rfl
    · exact (List.pairwise_cons.mp hsorted).1 other hother

theorem History.eventBounds_owned (hs : h.Sound user) {id : Text} (howner : h.owner id = some user) :
    ∃ first last, h.eventBoundsForUser id user = .ok (first,last) ∧
      (first = 0 ∧ (∀ event, (h.log id user).head? = some event → event.eventSeq ≤ 0) ∨
        ∃ event, (h.log id user).head? = some event ∧ event.eventSeq = first) := by
  unfold eventBoundsForUser
  rw [if_neg hs.named]
  cases h with
  | memory sessions events =>
    have howner : sessions.get id = some user := howner
    have hself : (memory sessions events).log id user = (events.get id).getD [] := if_pos howner
    simp only [howner,if_true,hself]
    generalize (events.get id).getD [] = log
    cases hhead : log.head? with
    | none => exact ⟨0,0,rfl,.inl ⟨rfl,by simp⟩⟩
    | some event =>
      cases hlast : log.getLast? with
      | none =>
        obtain rfl := List.getLast?_eq_none_iff.mp hlast
        cases hhead
      | some last => exact ⟨_,_,rfl,.inr ⟨event,rfl,rfl⟩⟩
  | postgres sessions rows =>
    have howner : (sessions.get id).join = some user := howner
    have hself : (postgres sessions rows).log id user = selectEvents rows id (fun _ => true) :=
      if_pos howner
    have hmin := min?_numbers ((rows.filter (fun row => row.1 = id)).map (fun row => row.2.eventSeq))
      (selectEvents_sorted rows id (fun _ => true)) (by
        have hperm := (List.perm_insertionSort
          (fun left right : LoggedEvent => left.eventSeq ≤ right.eventSeq)
            ((rows.filter (fun row => row.1 = id && true)).map Prod.snd)).map LoggedEvent.eventSeq
        simpa [selectEvents,Function.comp_def] using hperm)
    simp only [howner,if_true,hself,hmin]
    cases hhead : (selectEvents rows id (fun _ => true)).head? with
    | none => exact ⟨0,0,by simp,.inl ⟨rfl,by simp⟩⟩
    | some event =>
      cases hmax : ((rows.filter (fun row => row.1 = id)).map (fun row => row.2.eventSeq)).max? with
      | none =>
        rw [List.max?_eq_none_iff] at hmax
        rw [hmax,hhead] at hmin
        cases hmin
      | some last =>
        simp only [Option.map_some]
        split_ifs with hzero
        · refine ⟨0,0,rfl,.inl ⟨rfl,?_⟩⟩
          intro other hother
          obtain rfl := Option.some.inj hother
          have hle : event.eventSeq ≤ last := by
            rw [hhead,Option.map_some,List.min?_eq_some_iff] at hmin
            exact hmin.2 last (List.max?_mem hmax)
          omega
        · exact ⟨_,_,rfl,.inr ⟨event,rfl,rfl⟩⟩

theorem History.head_of_eventBounds (hs : h.Sound user) {id : Text} {cursor first last : Int}
    (hcursor : 0 ≤ cursor) (hbounds : h.eventBoundsForUser id user = .ok (first,last))
    (hfirst : cursor+1 < first) :
    ∃ event, (h.log id user).head? = some event ∧ event.eventSeq = first := by
  by_cases howner : h.owner id = some user
  · obtain ⟨first',last',hbounds',hcase⟩ := h.eventBounds_owned hs howner
    obtain ⟨rfl,rfl⟩ : first' = first ∧ last' = last := by simpa [hbounds'] using hbounds
    rcases hcase with ⟨hzero,-⟩ | hevent
    · omega
    · exact hevent
  · unfold eventBoundsForUser at hbounds
    rw [if_neg hs.named] at hbounds
    cases h with
    | memory sessions events =>
      have howner : ¬sessions.get id = some user := howner
      simp [howner] at hbounds
    | postgres sessions rows =>
      have howner : ¬(sessions.get id).join = some user := howner
      obtain ⟨rfl,-⟩ : 0 = first ∧ 0 = last := by simpa [howner] using hbounds
      omega

end listing

section session

variable {h : History} {o : ReplayOutcomes} {user s : Text} {log : List LoggedEvent}

/-- From one state to the next, the events of a session that lie beyond the cursor `c` were put
in the queue up to a point, and the cursor is there. -/
structure Reads (log : List LoggedEvent) (s : Text) (c : Int) (r r' : Replay)
    (read rest : List LoggedEvent) : Prop where
  split : beyond LoggedEvent.eventSeq c log = read ++ rest
  latest : ∀ t, r'.latest.get t =
    if t = s then some (advance LoggedEvent.eventSeq c read) else r.latest.get t
  frames : r'.frames = r.frames ++ read.map (.event s)
  truncated : r.truncated = true → r'.truncated = true
  closed : r.closed = true → r'.closed = true

theorem Reads.refl {r : Replay} {c : Int} (hc : r.latest.get s = some c) :
    Reads log s c r r [] (beyond LoggedEvent.eventSeq c log) where
  split := rfl
  latest := by
    intro t
    split_ifs with ht
    · rw [ht,hc]
      rfl
    · rfl
  frames := by simp
  truncated := id
  closed := id

theorem Reads.trans (hlog : Increasing LoggedEvent.eventSeq log) {c : Int} {r r' r'' : Replay}
    {read read' rest rest' : List LoggedEvent} (h : Reads log s c r r' read rest)
    (h' : Reads log s (advance LoggedEvent.eventSeq c read) r' r'' read' rest') :
    Reads log s c r r'' (read ++ read') rest' where
  split := by
    rw [h.split,← beyond_advance hlog h.split,h'.split,List.append_assoc]
  latest := by
    intro t
    rw [h'.latest,h.latest]
    split_ifs
    · congr 1
      unfold advance
      rw [List.getLast?_append]
      cases read'.getLast? <;> rfl
    · rfl
  frames := by rw [h'.frames,h.frames,List.map_append,List.append_assoc]
  truncated := fun ht => h'.truncated (h.truncated ht)
  closed := fun ht => h'.closed (h.closed ht)

theorem Reads.truncate {c : Int} {r r' : Replay} {read rest : List LoggedEvent}
    (h : Reads log s c r r' read rest) : Reads log s c r r'.truncate read rest :=
  ⟨h.split,h.latest,h.frames,fun _ => rfl,h.closed⟩

theorem Replay.sendBatch_reads (hlog : Increasing LoggedEvent.eventSeq log) {c : Int} {r : Replay}
    (hc : r.latest.get s = some c) {events more : List LoggedEvent}
    (hevents : beyond LoggedEvent.eventSeq c log = events ++ more) :
    ∃ read rest, Reads log s c r (sendBatch o s r events) read rest ∧
      ((sendBatch o s r events).truncated = false → rest = more) := by
  induction events generalizing c r with
  | nil => exact ⟨[],_,Reads.refl hc,fun _ => hevents⟩
  | cons event events ih =>
    have hnext : c < event.eventSeq := by
      have hevent : event ∈ beyond LoggedEvent.eventSeq c log := by
        rw [hevents]
        exact List.mem_cons_self
      exact (mem_beyond.mp hevent).2
    unfold sendBatch sendJSONBlockingUntil
    by_cases hclosed : r.closed = true
    · rw [if_pos hclosed]
      exact ⟨[],_,(Reads.refl hc).truncate,fun h => nomatch h⟩
    rw [if_neg hclosed]
    cases houtcome : o.event s event.eventSeq with
    | refused => exact ⟨[],_,(Reads.refl hc).truncate,fun h => nomatch h⟩
    | stopped =>
      have hstop : Reads log s c r { r with closed := true } [] (beyond LoggedEvent.eventSeq c log) :=
        { Reads.refl hc with closed := fun _ => rfl }
      exact ⟨[],_,hstop.truncate,fun h => nomatch h⟩
    | enqueued =>
      simp only [hc,Option.getD_some,hnext,if_true]
      have hone : Reads log s c r
          { r with
            latest := r.latest.set s event.eventSeq
            frames := r.frames ++ [.event s event] } [event] (events ++ more) :=
        { split := hevents
          latest := fun t => OrdMap.get_set r.latest s t event.eventSeq
          frames := rfl
          truncated := id
          closed := id }
      obtain ⟨read,rest,hread,hall⟩ := ih (c := event.eventSeq)
        (r := { r with
          latest := r.latest.set s event.eventSeq
          frames := r.frames ++ [.event s event] })
        (by simp [OrdMap.get_set]) (beyond_of_cons hlog hevents)
      exact ⟨event :: read,rest,hone.trans hlog hread,hall⟩

theorem Replay.sendBatches_reads (hs : h.Sound user) (left : Nat) (hleft : 0 < left) {c : Int}
    {r : Replay} (hc : r.latest.get s = some c) :
    ∃ read rest, Reads (h.log s user) s c r (sendBatches h o user s left r) read rest ∧
      ((sendBatches h o user s left r).truncated = false → rest = []) := by
  induction left generalizing c r with
  | zero => exact absurd hleft (Nat.lt_irrefl 0)
  | succ left ih =>
    have hlog := hs.increasing s
    rw [sendBatches]
    simp only [hc,Option.getD_some]
    generalize hlisted : (if o.list s (4-left) = true then h.listEventsForUserLimited s user c 1001
      else .error .deviceUnauthorized) = listed
    match listed with
    | .error _ => exact ⟨[],_,(Reads.refl hc).truncate,fun h => nomatch h⟩
    | .ok events =>
      have hlist : h.listEventsForUserLimited s user c 1001 = .ok events := by
        split_ifs at hlisted with hok
        exact hlisted
      obtain ⟨more,hmore,hend⟩ := h.listEventsForUserLimited_ok hs hlist
      cases events with
      | nil => exact ⟨[],_,Reads.refl hc,fun _ => by rw [hmore,hend rfl]; rfl⟩
      | cons event events =>
        -- without the spare row, the batch is a shorter first part
        obtain ⟨spare,hspare⟩ : ∃ spare, event :: events =
            (if 1000 < (event :: events).length then (event :: events).take 1000
              else event :: events) ++ spare := by
          split_ifs
          · exact ⟨_,(List.take_append_drop 1000 _).symm⟩
          · exact ⟨[],by simp⟩
        rw [hspare,List.append_assoc] at hmore
        dsimp only
        generalize (if 1000 < (event :: events).length then (event :: events).take 1000
          else event :: events) = batch at hmore ⊢
        obtain ⟨read,rest,hread,-⟩ := sendBatch_reads (o := o) hlog hc hmore
        split_ifs with hstop
        · exact ⟨read,rest,hread.truncate,fun h => nomatch h⟩
        · have hpos : 0 < left := by
            rcases Nat.eq_zero_or_pos left with rfl | hpos
            · simp at hstop
            · exact hpos
          obtain ⟨read',rest',hread',hall⟩ := ih hpos (c := advance LoggedEvent.eventSeq c read)
            (r := sendBatch o s r batch) (by rw [hread.latest,if_pos rfl])
          exact ⟨read ++ read',rest',hread.trans hlog hread',hall⟩

/-- What happens before the first batch: the cursor moves, if at all, to where the log begins,
and the browser is told so if it can be. -/
structure Started (h : History) (o : ReplayOutcomes) (user s : Text) (c : Int) (r r' : Replay)
    (c' : Int) (gaps : List ReplayFrame) : Prop where
  latest : ∀ t, r'.latest.get t = if t = s then some c' else r.latest.get t
  frames : r'.frames = r.frames ++ gaps
  beyond : beyond LoggedEvent.eventSeq c' (h.log s user) = beyond LoggedEvent.eventSeq c (h.log s user)
  gap : gaps = [] ∨ ∃ first last, gaps = [.historyGap s c first last] ∧ c' = first-1
  truncated : r.truncated = true → r'.truncated = true
  closed : r.closed = true → r'.closed = true
  told : h.owner s = some user → 0 < c → o.bounds s = true → r'.closed = false →
    (gaps ≠ [] ↔ ∃ event, (h.log s user).head? = some event ∧ c+1 < event.eventSeq)

theorem beyond_head (hlog : Increasing LoggedEvent.eventSeq log) {event : LoggedEvent}
    (hhead : log.head? = some event) {c : Int} (hc : c+1 < event.eventSeq) :
    beyond LoggedEvent.eventSeq (event.eventSeq-1) log = beyond LoggedEvent.eventSeq c log := by
  obtain ⟨rest,rfl⟩ := List.head?_eq_some_iff.mp hhead
  refine List.filter_congr fun x hx => ?_
  have hle : event.eventSeq ≤ x.eventSeq := by
    rcases List.mem_cons.mp hx with rfl | hx
    · exact le_rfl
    · exact ((List.pairwise_cons.mp hlog).1 x hx).le
  rw [decide_eq_true (by omega : event.eventSeq-1 < x.eventSeq),
    decide_eq_true (by omega : c < x.eventSeq)]

theorem Started.stay {r : Replay} {c : Int}
    (htold : h.owner s = some user → 0 < c → o.bounds s = true →
      ¬∃ event, (h.log s user).head? = some event ∧ c+1 < event.eventSeq) :
    Started h o user s c r { r with latest := r.latest.set s c } c [] where
  latest := fun t => OrdMap.get_set r.latest s t c
  frames := by simp
  beyond := rfl
  gap := .inl rfl
  truncated := id
  closed := id
  told := fun howner hc hbounds _ => by simpa using htold howner hc hbounds

theorem Replay.startSession_started (hs : h.Sound user) {c : Int} (hc : 0 ≤ c) (hbound : c < 2^53)
    (r : Replay) : ∃ c' gaps, Started h o user s c r (startSession h o user r s c) c' gaps := by
  unfold startSession
  dsimp only
  by_cases hask : 0 < c ∧ o.bounds s = true
  · rw [if_pos hask]
    cases hbounds : h.eventBoundsForUser s user with
    | error _ =>
      refine ⟨c,[],Started.stay fun howner _ _ => ?_⟩
      obtain ⟨first,last,hok,-⟩ := h.eventBounds_owned hs howner
      rw [hok] at hbounds
      cases hbounds
    | ok bounds =>
      obtain ⟨first,last⟩ := bounds
      have hsucc : int64Succ c = c+1 := if_neg (by omega)
      dsimp only
      by_cases hfirst : int64Succ c < first
      · rw [if_pos hfirst]
        rw [hsucc] at hfirst
        obtain ⟨event,hhead,rfl⟩ := h.head_of_eventBounds hs hc hbounds hfirst
        have hbeyond := beyond_head (hs.increasing s) hhead hfirst
        have hlatest (r' : Replay) (hr' : r'.latest = r.latest.set s c) (t : Text) :
            (r'.latest.set s (event.eventSeq-1)).get t =
              if t = s then some (event.eventSeq-1) else r.latest.get t := by
          rw [OrdMap.get_set,hr',OrdMap.get_set]
          split_ifs <;> rfl
        unfold sendJSON
        dsimp only
        by_cases hclosed : r.closed = true
        · rw [if_pos hclosed]
          refine ⟨event.eventSeq-1,[],hlatest _ rfl,by simp,hbeyond,.inl rfl,id,id,?_⟩
          intro _ _ _ hopen
          rw [hclosed] at hopen
          cases hopen
        rw [if_neg hclosed]
        by_cases hfits : o.historyGap s = true
        · rw [if_pos hfits]
          refine ⟨event.eventSeq-1,[.historyGap s c event.eventSeq last],hlatest _ rfl,rfl,hbeyond,
            .inr ⟨_,_,rfl,rfl⟩,id,id,?_⟩
          intro _ _ _ _
          simp only [ne_eq,List.cons_ne_nil,not_false_eq_true,true_iff]
          exact ⟨event,hhead,hfirst⟩
        · rw [if_neg hfits]
          refine ⟨event.eventSeq-1,[],hlatest _ rfl,by simp,hbeyond,.inl rfl,id,fun _ => rfl,?_⟩
          intro _ _ _ hopen
          cases hopen
      · rw [if_neg hfirst]
        rw [hsucc] at hfirst
        refine ⟨c,[],Started.stay fun howner _ _ => ?_⟩
        obtain ⟨first',last',hok,hcase⟩ := h.eventBounds_owned hs howner
        obtain ⟨rfl,rfl⟩ : first' = first ∧ last' = last := by simpa [hok] using hbounds
        rintro ⟨event,hhead,hevent⟩
        rcases hcase with ⟨-,hzero⟩ | ⟨other,hother,hseq⟩
        · have hle := hzero event hhead
          omega
        · rw [hhead] at hother
          obtain rfl := Option.some.inj hother
          omega
  · rw [if_neg hask]
    exact ⟨c,[],Started.stay fun _ hpos hbounds => absurd ⟨hpos,hbounds⟩ hask⟩

/-- A session that was processed: whether the browser was told of a gap, what was replayed, what
is left, and the cursor that is reported. -/
structure Visited (h : History) (user s : Text) (c : Int) (r r' : Replay) (gaps : List ReplayFrame)
    (read rest : List LoggedEvent) (d : Int) : Prop where
  latest : ∀ t, r'.latest.get t = if t = s then some d else r.latest.get t
  frames : r'.frames = r.frames ++ (gaps ++ read.map (.event s))
  gap : gaps = [] ∧ between LoggedEvent.eventSeq c d (h.log s user) = read ∨
    ∃ first last, gaps = [.historyGap s c first last] ∧
      between LoggedEvent.eventSeq (first-1) d (h.log s user) = read
  left : beyond LoggedEvent.eventSeq d (h.log s user) = rest
  truncated : r.truncated = true → r'.truncated = true
  whole : r'.truncated = false → rest = []

theorem rawCursor_cursor {c : Nat} (h : c < 2^53) : (RawCursor.float c).cursor = some (c : Int) := by
  have hle : (c : Rat) ≤ 2^63 := by
    have hnat : c ≤ 2^63 := by omega
    exact_mod_cast hnat
  have hnum : ((c : Rat)).num = c := Rat.num_natCast c
  simp only [RawCursor.cursor,hnum,Rat.den_natCast,hle,and_true]
  rw [if_pos (by exact_mod_cast Nat.zero_le c),if_pos (by omega)]

theorem Replay.visitSession_visited (hs : h.Sound user) {c : Nat} (hbound : c < 2^53) (hid : s ≠ [])
    (hlong : byteLen s ≤ 256) (r : Replay) :
    visitSession h o user r (s,.float c) = sendBatches h o user s 5 (startSession h o user r s c) ∧
    ∃ c' gaps read rest d, Started h o user s c r (startSession h o user r s c) c' gaps ∧
      Visited h user s c r (visitSession h o user r (s,.float c)) gaps read rest d := by
  have hvisit : visitSession h o user r (s,.float c) =
      sendBatches h o user s 5 (startSession h o user r s c) := by
    unfold visitSession
    rw [if_neg (by simp only [hid,false_or]; omega),rawCursor_cursor hbound]
  obtain ⟨c',gaps,hstart⟩ := startSession_started (o := o) (s := s) hs (Int.natCast_nonneg c)
    (by omega) r
  obtain ⟨read,rest,hread,hwhole⟩ := sendBatches_reads (o := o) hs 5 (by decide)
    (show (startSession h o user r s c).latest.get s = some c' by rw [hstart.latest,if_pos rfl])
  refine ⟨hvisit,c',gaps,read,rest,advance LoggedEvent.eventSeq c' read,hstart,?_⟩
  have hlog := hs.increasing s
  have hbetween := between_advance hlog hread.split
  rw [hvisit]
  constructor
  case latest =>
    intro t
    rw [hread.latest,hstart.latest]
    split_ifs <;> rfl
  case frames => rw [hread.frames,hstart.frames,List.append_assoc]
  case gap =>
    rcases hstart.gap with hnone | ⟨first,last,hgap,rfl⟩
    · refine .inl ⟨hnone,?_⟩
      rw [between_eq_filter_beyond,← hstart.beyond,← between_eq_filter_beyond]
      exact hbetween
    · exact .inr ⟨first,last,hgap,hbetween⟩
  case left => exact beyond_advance hlog hread.split
  case truncated => exact fun ht => hread.truncated (hstart.truncated ht)
  case whole => exact hwhole

end session

section run

variable {h : History} {o : ReplayOutcomes} {user s t : Text}

/-- What the loop does for the other sessions leaves a session alone. -/
structure Keeps (t : Text) (r r' : Replay) : Prop where
  latest : r'.latest.get t = r.latest.get t
  framesOf : r'.framesOf t = r.framesOf t
  truncated : r.truncated = true → r'.truncated = true

theorem Keeps.refl (t : Text) (r : Replay) : Keeps t r r := ⟨rfl,rfl,id⟩

theorem Keeps.trans {r r' r'' : Replay} (h : Keeps t r r') (h' : Keeps t r' r'') : Keeps t r r'' :=
  ⟨h'.latest.trans h.latest,h'.framesOf.trans h.framesOf,fun ht => h'.truncated (h.truncated ht)⟩

theorem Keeps.truncate (t : Text) (r : Replay) : Keeps t r r.truncate := ⟨rfl,rfl,fun _ => rfl⟩

theorem Visited.about {c d : Int} {r r' : Replay} {gaps : List ReplayFrame}
    {read rest : List LoggedEvent} (h' : Visited h user s c r r' gaps read rest d) :
    ∀ frame ∈ gaps ++ read.map (.event s), frame.about t = decide (s = t) := by
  intro frame hframe
  rcases List.mem_append.mp hframe with hgap | hevent
  · rcases h'.gap with ⟨rfl,-⟩ | ⟨first,last,rfl,-⟩
    · cases hgap
    · rw [List.mem_singleton.mp hgap]
      rfl
  · obtain ⟨event,-,rfl⟩ := List.mem_map.mp hevent
    rfl

theorem Visited.keeps {c d : Int} {r r' : Replay} {gaps : List ReplayFrame}
    {read rest : List LoggedEvent} (h' : Visited h user s c r r' gaps read rest d) (hne : t ≠ s) :
    Keeps t r r' where
  latest := by rw [h'.latest,if_neg hne]
  framesOf := by
    have hnone : (gaps ++ read.map (ReplayFrame.event s)).filter (ReplayFrame.about t) = [] := by
      rw [List.filter_eq_nil_iff]
      intro frame hframe
      simp [h'.about (t := t) frame hframe,Ne.symm hne]
    rw [Replay.framesOf,h'.frames,List.filter_append,hnone,List.append_nil,Replay.framesOf]
  truncated := h'.truncated

/-- A session with a name of an allowed length is processed. -/
def processable (s : Text) : Prop := s ≠ [] ∧ byteLen s ≤ 256

theorem Replay.visitSession_skip {c : RawCursor} (hid : ¬processable s) (r : Replay) :
    visitSession h o user r (s,c) = r.truncate := by
  unfold visitSession
  rw [if_pos]
  by_cases hs : s = []
  · exact .inl hs
  · refine .inr ?_
    by_contra hlong
    exact hid ⟨hs,Nat.le_of_not_lt hlong⟩

/-- The frames of the loop are about sessions: the report comes after it. -/
def Replay.Unreported (r : Replay) : Prop :=
  ∀ reported truncated, .resumeComplete reported truncated ∉ r.frames

theorem Replay.visitSession_keeps (hs : h.Sound user) {c : Nat} (hbound : c < 2^53) (r : Replay) :
    (∀ t, t ≠ s → Keeps t r (visitSession h o user r (s,.float c))) ∧
    (r.Unreported → (visitSession h o user r (s,.float c)).Unreported) := by
  by_cases hid : processable s
  · obtain ⟨-,c',gaps,read,rest,d,-,hvisited⟩ :=
      visitSession_visited (o := o) hs hbound hid.1 hid.2 r
    refine ⟨fun t hne => hvisited.keeps hne,fun hr reported truncated hmem => ?_⟩
    rw [hvisited.frames] at hmem
    rcases List.mem_append.mp hmem with hold | hnew
    · exact hr _ _ hold
    · have habout := hvisited.about (t := s) _ hnew
      simp [ReplayFrame.about] at habout
  · rw [visitSession_skip hid]
    exact ⟨fun t _ => Keeps.truncate t r,fun hr => hr⟩

/-- The loop without its limit. -/
def visitAll (h : History) (o : ReplayOutcomes) (user : Text) (r : Replay)
    (cursors : List (Text × Nat)) : Replay :=
  (rawCursors cursors).foldl (Replay.visitSession h o user) r

theorem visitAll_append (r : Replay) (xs ys : List (Text × Nat)) :
    visitAll h o user r (xs ++ ys) = visitAll h o user (visitAll h o user r xs) ys := by
  simp [visitAll,rawCursors]

theorem visitAll_cons (r : Replay) (s : Text) (c : Nat) (rest : List (Text × Nat)) :
    visitAll h o user r ((s,c) :: rest) =
      visitAll h o user (Replay.visitSession h o user r (s,.float c)) rest := rfl

theorem Replay.resumeSessions_eq (h : History) (o : ReplayOutcomes) (user : Text) (processed : Nat) (hprocessed : processed ≤ maxResumeSessions) (r : Replay)
    (cursors : List (Text × Nat)) :
    resumeSessions h o user processed r (rawCursors cursors) =
      if processed+cursors.length ≤ maxResumeSessions then visitAll h o user r cursors
      else (visitAll h o user r (cursors.take (maxResumeSessions-processed))).truncate := by
  induction cursors generalizing processed r with
  | nil =>
    rw [if_pos (by simpa using hprocessed)]
    rfl
  | cons entry rest ih =>
    obtain ⟨s,c⟩ := entry
    have hraw : rawCursors ((s,c) :: rest) = (s,.float c) :: rawCursors rest := rfl
    rw [hraw,resumeSessions]
    by_cases hfull : maxResumeSessions ≤ processed
    · obtain rfl : processed = maxResumeSessions := by omega
      rw [if_pos le_rfl,if_neg (by simp),Nat.sub_self,List.take_zero]
      rfl
    · rw [if_neg hfull,ih (processed+1) (by omega)]
      obtain ⟨room,hroom⟩ : ∃ room, maxResumeSessions-processed = room+1 :=
        ⟨maxResumeSessions-processed-1,by omega⟩
      have hnext : maxResumeSessions-(processed+1) = room := by omega
      rw [hroom,hnext,List.take_succ_cons,visitAll_cons,visitAll_cons,List.length_cons]
      refine if_congr ?_ rfl rfl
      omega

theorem visitAll_keeps (hs : h.Sound user) {cursors : List (Text × Nat)}
    (hbound : ∀ entry ∈ cursors, entry.2 < 2^53) (ht : t ∉ cursors.map Prod.fst) (r : Replay) :
    Keeps t r (visitAll h o user r cursors) := by
  induction cursors generalizing r with
  | nil => exact Keeps.refl t r
  | cons entry rest ih =>
    obtain ⟨s,c⟩ := entry
    rw [List.map_cons,List.mem_cons,not_or] at ht
    rw [visitAll_cons]
    have hvisit := (Replay.visitSession_keeps (o := o) (s := s) hs
      (hbound (s,c) List.mem_cons_self) r).1 t ht.1
    exact hvisit.trans (ih (fun entry hentry => hbound entry (List.mem_cons_of_mem _ hentry)) ht.2 _)

theorem visitAll_unreported (hs : h.Sound user) {cursors : List (Text × Nat)}
    (hbound : ∀ entry ∈ cursors, entry.2 < 2^53) {r : Replay} (hr : r.Unreported) :
    (visitAll h o user r cursors).Unreported := by
  induction cursors generalizing r with
  | nil => exact hr
  | cons entry rest ih =>
    obtain ⟨s,c⟩ := entry
    rw [visitAll_cons]
    have hvisit := (Replay.visitSession_keeps (o := o) (s := s) hs
      (hbound (s,c) List.mem_cons_self) r).2 hr
    exact ih (fun entry hentry => hbound entry (List.mem_cons_of_mem _ hentry)) hvisit

theorem replayedEvents_framesOf (s : Text) (frames : List ReplayFrame) :
    replayedEvents s frames = replayedEvents s (frames.filter (ReplayFrame.about s)) := by
  induction frames with
  | nil => rfl
  | cons frame frames ih =>
    unfold replayedEvents at ih ⊢
    cases frame with
    | historyGap t c first last => by_cases ht : t = s <;> simp [ReplayFrame.about,ht,ih]
    | event t event => by_cases ht : t = s <;> simp [ReplayFrame.about,ht,ih]
    | resumeComplete reported truncated => simp [ReplayFrame.about,ih]

theorem replayStart_framesOf (s : Text) (c : Int) (frames : List ReplayFrame) :
    replayStart s c frames = replayStart s c (frames.filter (ReplayFrame.about s)) := by
  induction frames with
  | nil => rfl
  | cons frame frames ih =>
    unfold replayStart at ih ⊢
    cases frame with
    | historyGap t c first last => by_cases ht : t = s <;> simp [ReplayFrame.about,ht,ih]
    | event t event => by_cases ht : t = s <;> simp [ReplayFrame.about,ht,ih]
    | resumeComplete reported truncated => simp [ReplayFrame.about,ih]

theorem visitAll_split (hs : h.Sound user) {before rest : List (Text × Nat)} {c : Nat}
    (hnodup : ((before ++ (s,c) :: rest).map Prod.fst).Nodup)
    (hbound : ∀ entry ∈ before ++ (s,c) :: rest, entry.2 < 2^53) :
    Keeps s {} (visitAll h o user {} before) ∧
    Keeps s (Replay.visitSession h o user (visitAll h o user {} before) (s,.float c))
      (visitAll h o user {} (before ++ (s,c) :: rest)) := by
  rw [List.map_append,List.map_cons,List.nodup_append] at hnodup
  obtain ⟨-,hrest,hapart⟩ := hnodup
  have hbefore : s ∉ before.map Prod.fst := fun hmem => hapart s hmem s List.mem_cons_self rfl
  constructor
  · exact visitAll_keeps hs
      (fun entry hentry => hbound entry (List.mem_append_left _ hentry)) hbefore {}
  · rw [visitAll_append,visitAll_cons]
    refine visitAll_keeps hs ?_ (List.nodup_cons.mp hrest).1 _
    exact fun entry hentry => hbound entry (List.mem_append_right _ (List.mem_cons_of_mem _ hentry))

theorem visitAll_processed (hs : h.Sound user) {before rest : List (Text × Nat)} {c : Nat}
    (hnodup : ((before ++ (s,c) :: rest).map Prod.fst).Nodup)
    (hbound : ∀ entry ∈ before ++ (s,c) :: rest, entry.2 < 2^53) (hid : processable s) :
    ∃ c' gaps read left d,
      Started h o user s c (visitAll h o user {} before)
        (Replay.startSession h o user (visitAll h o user {} before) s c) c' gaps ∧
      (visitAll h o user {} (before ++ (s,c) :: rest)).latest.get s = some d ∧
      (visitAll h o user {} (before ++ (s,c) :: rest)).framesOf s = gaps ++ read.map (.event s) ∧
      (gaps = [] ∧ between LoggedEvent.eventSeq (c : Int) d (h.log s user) = read ∨
        ∃ first last, gaps = [.historyGap s c first last] ∧
          between LoggedEvent.eventSeq (first-1) d (h.log s user) = read) ∧
      beyond LoggedEvent.eventSeq d (h.log s user) = left ∧
      ((visitAll h o user {} (before ++ (s,c) :: rest)).truncated = false → left = []) := by
  obtain ⟨hfirst,hlater⟩ := visitAll_split (o := o) hs hnodup hbound
  obtain ⟨-,c',gaps,read,left,d,hstart,hvisited⟩ := Replay.visitSession_visited (o := o) hs
    (hbound (s,c) (by simp)) hid.1 hid.2 (visitAll h o user {} before)
  refine ⟨c',gaps,read,left,d,hstart,?_,?_,hvisited.gap,hvisited.left,?_⟩
  · rw [hlater.latest,hvisited.latest,if_pos rfl]
  · have hown : (gaps ++ read.map (ReplayFrame.event s)).filter (ReplayFrame.about s) =
        gaps ++ read.map (.event s) := by
      rw [List.filter_eq_self]
      intro frame hframe
      simp [hvisited.about (t := s) frame hframe]
    have hnone : (visitAll h o user {} before).framesOf s = [] := hfirst.framesOf
    rw [hlater.framesOf,Replay.framesOf,hvisited.frames,List.filter_append,hown]
    rw [Replay.framesOf] at hnone
    rw [hnone,List.nil_append]
  · intro htruncated
    refine hvisited.whole ?_
    by_contra hne
    rw [hlater.truncated (eq_true_of_ne_false hne)] at htruncated
    cases htruncated

theorem visitAll_skipped (hs : h.Sound user) {before rest : List (Text × Nat)} {c : Nat}
    (hnodup : ((before ++ (s,c) :: rest).map Prod.fst).Nodup)
    (hbound : ∀ entry ∈ before ++ (s,c) :: rest, entry.2 < 2^53) (hid : ¬processable s) :
    (visitAll h o user {} (before ++ (s,c) :: rest)).latest.get s = none ∧
    (visitAll h o user {} (before ++ (s,c) :: rest)).truncated = true := by
  obtain ⟨hfirst,hlater⟩ := visitAll_split (o := o) hs hnodup hbound
  rw [Replay.visitSession_skip hid] at hlater
  exact ⟨hlater.latest.trans hfirst.latest,hlater.truncated rfl⟩

theorem resumeBrowser_eq (h : History) (o : ReplayOutcomes) (user : Text) (cursors : List (Text × Nat)) :
    let run := visitAll h o user {} (cursors.take maxResumeSessions)
    let r := resumeBrowser h o user (rawCursors cursors)
    r.latest = run.latest ∧ (∀ t, r.framesOf t = run.framesOf t) ∧
    (∀ frame ∈ r.frames, frame ∈ run.frames ∨ frame = .resumeComplete r.latest.entries r.truncated) ∧
    (r.truncated = false → cursors.take maxResumeSessions = cursors ∧ run.truncated = false) := by
  have hloop := Replay.resumeSessions_eq h o user 0 (Nat.zero_le _) {} cursors
  rw [Nat.zero_add,Nat.sub_zero] at hloop
  have hsame : (Replay.resumeSessions h o user 0 {} (rawCursors cursors)).latest =
        (visitAll h o user {} (cursors.take maxResumeSessions)).latest ∧
      (Replay.resumeSessions h o user 0 {} (rawCursors cursors)).frames =
        (visitAll h o user {} (cursors.take maxResumeSessions)).frames ∧
      ((Replay.resumeSessions h o user 0 {} (rawCursors cursors)).truncated = false →
        cursors.take maxResumeSessions = cursors ∧
          (visitAll h o user {} (cursors.take maxResumeSessions)).truncated = false) := by
    rw [hloop]
    split_ifs with hfew
    · rw [List.take_of_length_le hfew]
      exact ⟨rfl,rfl,fun htruncated => ⟨rfl,htruncated⟩⟩
    · exact ⟨rfl,rfl,fun htruncated => nomatch htruncated⟩
  obtain ⟨hlatest,hframes,htruncated⟩ := hsame
  dsimp only
  unfold resumeBrowser Replay.sendJSONBlockingUntil
  generalize Replay.resumeSessions h o user 0 {} (rawCursors cursors) = loop at hlatest hframes htruncated ⊢
  dsimp only
  by_cases hclosed : loop.closed = true
  · rw [if_pos hclosed]
    refine ⟨hlatest,fun t => ?_,fun frame hframe => .inl (hframes ▸ hframe),htruncated⟩
    rw [Replay.framesOf,hframes,Replay.framesOf]
  rw [if_neg hclosed]
  cases o.resumeComplete with
  | enqueued =>
    refine ⟨hlatest,fun t => ?_,fun frame hframe => ?_,htruncated⟩
    · rw [Replay.framesOf,List.filter_append,hframes,Replay.framesOf]
      simp [ReplayFrame.about]
    · rcases List.mem_append.mp hframe with hold | hnew
      · exact .inl (hframes ▸ hold)
      · exact .inr (List.mem_singleton.mp hnew)
  | refused =>
    refine ⟨hlatest,fun t => ?_,fun frame hframe => .inl (hframes ▸ hframe),htruncated⟩
    rw [Replay.framesOf,hframes,Replay.framesOf]
  | stopped =>
    refine ⟨hlatest,fun t => ?_,fun frame hframe => .inl (hframes ▸ hframe),htruncated⟩
    rw [Replay.framesOf,Replay.framesOf]
    dsimp only
    rw [hframes]

theorem replayStart_events (s : Text) (c : Int) (read : List LoggedEvent) :
    replayStart s c (read.map (.event s)) = c := by
  induction read with
  | nil => rfl
  | cons event read ih => exact ih

theorem mem_framesOf {r : Replay} {c first last : Int} :
    .historyGap s c first last ∈ r.frames ↔ .historyGap s c first last ∈ r.framesOf s := by
  simp [Replay.framesOf,ReplayFrame.about]

theorem exists_gap_iff {c : Int} {gaps : List ReplayFrame} (read : List LoggedEvent)
    (h : gaps = [] ∨ ∃ first last, gaps = [.historyGap s c first last]) :
    (∃ first last, .historyGap s c first last ∈ gaps ++ read.map (.event s)) ↔ gaps ≠ [] := by
  rcases h with rfl | ⟨first,last,rfl⟩
  · simp
  · simp

/-- Whatever the queries and the sends come to, the replay reports exactly what it put in the
queue. -/
theorem resumeBrowser_resumed (hs : h.Sound user) (o : ReplayOutcomes) {cursors : List (Text × Nat)}
    (hnodup : (cursors.map Prod.fst).Nodup) (hbound : ∀ entry ∈ cursors, entry.2 < 2^53) :
    Resumed h o user cursors (resumeBrowser h o user (rawCursors cursors)) := by
  obtain ⟨hlatest,hframes,hreport,htruncated⟩ :=
    resumeBrowser_eq h o user cursors
  have hseen : (cursors.take maxResumeSessions).Sublist cursors := List.take_sublist _ _
  have hnodup' : ((cursors.take maxResumeSessions).map Prod.fst).Nodup := hnodup.sublist (hseen.map _)
  have hbound' : ∀ entry ∈ cursors.take maxResumeSessions, entry.2 < 2^53 :=
    fun entry hentry => hbound entry (hseen.subset hentry)
  constructor
  case sound =>
    intro s d hd
    rw [hlatest] at hd
    have hmem : s ∈ (cursors.take maxResumeSessions).map Prod.fst := by
      by_contra hnot
      rw [(visitAll_keeps (o := o) hs hbound' hnot {}).latest] at hd
      cases hd
    obtain ⟨⟨s,c⟩,hentry,rfl⟩ := List.mem_map.mp hmem
    obtain ⟨before,rest,hsplit⟩ := List.append_of_mem hentry
    rw [hsplit] at hnodup' hbound' hd
    by_cases hid : processable s
    · obtain ⟨-,gaps,read,left,d',-,hreported,hown,hgap,-,-⟩ :=
        visitAll_processed (o := o) hs hnodup' hbound' hid
      obtain rfl : d' = d := Option.some.inj (hreported.symm.trans hd)
      refine ⟨c,hseen.subset hentry,?_⟩
      rw [replayedEvents_framesOf,replayStart_framesOf]
      have hall : (resumeBrowser h o user (rawCursors cursors)).frames.filter (ReplayFrame.about s) =
          gaps ++ read.map (.event s) := by
        rw [← Replay.framesOf,hframes,hsplit,hown]
      rw [hall]
      have hread : replayedEvents s (read.map (.event s)) = read := by
        simp [replayedEvents,List.filterMap_map]
      rcases hgap with ⟨rfl,hbetween⟩ | ⟨first,last,rfl,hbetween⟩
      · rw [List.nil_append,hread,replayStart_events,hbetween]
      · have hstart : replayStart s (c : Int)
            ([.historyGap s c first last] ++ read.map (.event s)) = first-1 := by simp [replayStart]
        have hevents : replayedEvents s ([.historyGap s c first last] ++ read.map (.event s)) =
            replayedEvents s (read.map (.event s)) := by simp [replayedEvents]
        rw [hstart,hevents,hread,hbetween]
    · rw [(visitAll_skipped (o := o) hs hnodup' hbound' hid).1] at hd
      cases hd
  case complete =>
    intro hwhole s c hentry
    obtain ⟨hfew,hloop⟩ := htruncated hwhole
    rw [hfew] at hlatest hloop
    obtain ⟨before,rest,rfl⟩ := List.append_of_mem hentry
    by_cases hid : processable s
    · obtain ⟨-,-,-,left,d,-,hreported,-,-,hleft,hnone⟩ :=
        visitAll_processed (o := o) hs hnodup hbound hid
      exact ⟨d,by rw [hlatest,hreported],by rw [hleft,hnone hloop]⟩
    · rw [(visitAll_skipped (o := o) hs hnodup hbound hid).2] at hloop
      cases hloop
  case report =>
    intro reported truncated hmem
    rcases hreport _ hmem with hold | hlast
    · exact absurd hold (visitAll_unreported (o := o) hs hbound' (by simp [Replay.Unreported]) _ _)
    · obtain ⟨rfl,rfl⟩ := ReplayFrame.resumeComplete.inj hlast
      exact ⟨rfl,rfl⟩
  case gap =>
    intro before s c rest hcursors hbefore hid hlong howner hpos hasked hopen
    obtain ⟨room,hroom⟩ : ∃ room, maxResumeSessions-before.length = room+1 :=
      ⟨maxResumeSessions-before.length-1,by omega⟩
    have hsplit : cursors.take maxResumeSessions = before ++ (s,c) :: rest.take room := by
      rw [hcursors,List.take_append,List.take_of_length_le (by omega),hroom,List.take_succ_cons]
    have hturn : Replay.resumeSessions h o user 0 {} (rawCursors before) = visitAll h o user {} before := by
      rw [Replay.resumeSessions_eq h o user 0 (Nat.zero_le _),if_pos (by omega)]
    rw [hturn] at hopen
    rw [hsplit] at hnodup' hbound'
    obtain ⟨c',gaps,read,left,d,hstart,-,hown,hgap,-,-⟩ :=
      visitAll_processed (o := o) hs hnodup' hbound' ⟨hid,hlong⟩
    have hgaps : gaps = [] ∨ ∃ first last, gaps = [.historyGap s c first last] := by
      rcases hgap with ⟨hnone,-⟩ | ⟨first,last,hone,-⟩
      · exact .inl hnone
      · exact .inr ⟨first,last,hone⟩
    rw [← hstart.told howner (by omega) hasked hopen,← exists_gap_iff read hgaps]
    simp only [mem_framesOf,hframes,hsplit,hown]

theorem Sample.mapped_log {id : Text} (hid : id ≠ "s".toList) :
    Sample.mapped.log id "ann".toList = [] := by
  have howner : Sample.mapped.owner id = none := by
    rw [Sample.mapped,History.owner,OrdMap.get_set,if_neg hid]
    rfl
  exact if_neg (by rw [howner]; exact nofun)

theorem Sample.mapped_sound : Sample.mapped.Sound "ann".toList where
  named := by decide
  increasing := by
    intro id
    by_cases hid : id = "s".toList
    · rw [hid]
      exact Sample.mapped_serves.increasing
    · rw [Sample.mapped_log hid]
      exact List.Pairwise.nil
  within := by
    intro id
    by_cases hid : id = "s".toList
    · rw [hid]
      exact Sample.mapped_serves.within
    · rw [Sample.mapped_log hid]
      exact fun _ hevent => absurd hevent List.not_mem_nil

/-- Every query succeeds and every frame fits; the send of the last event ends as given. -/
def Sample.peerUntil (last : SendOutcome) : ReplayOutcomes where
  bounds := fun _ => true
  list := fun _ _ => true
  historyGap := fun _ => true
  event := fun _ seq => if seq = 8 then last else .enqueued
  resumeComplete := .enqueued

/-- The whole log is reported with the gap before it, and a peer that is closed on the way gets
no report. -/
theorem peerUntil_resumed :
    ((resumeBrowser Sample.mapped (Sample.peerUntil .enqueued) "ann".toList
        (rawCursors [("s".toList,2)])).frames =
      .historyGap "s".toList 2 4 8 :: Sample.threeEvents.map (.event "s".toList) ++
        [.resumeComplete [("s".toList,8)] false] ∧
    Resumed Sample.mapped (Sample.peerUntil .enqueued) "ann".toList [("s".toList,2)]
      (resumeBrowser Sample.mapped (Sample.peerUntil .enqueued) "ann".toList
        (rawCursors [("s".toList,2)]))) ∧
    (resumeBrowser Sample.mapped (Sample.peerUntil .stopped) "ann".toList
        (rawCursors [("s".toList,2),("t".toList,0)])).frames =
      .historyGap "s".toList 2 4 8 :: (Sample.threeEvents.take 2).map (.event "s".toList) ∧
    Resumed Sample.mapped (Sample.peerUntil .stopped) "ann".toList [("s".toList,2),("t".toList,0)]
      (resumeBrowser Sample.mapped (Sample.peerUntil .stopped) "ann".toList
        (rawCursors [("s".toList,2),("t".toList,0)])) := by
  refine ⟨⟨by decide +kernel,?_⟩,by decide +kernel,?_⟩
  · exact resumeBrowser_resumed Sample.mapped_sound _ (by decide) (by decide)
  · exact resumeBrowser_resumed Sample.mapped_sound _ (by decide) (by decide)

end run

end CodeHarbor.Relay
