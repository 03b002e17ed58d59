import CodeHarbor.App.Alike
import CodeHarbor.Lib.OrdMap
import CodeHarbor.Lib.Run
set_option autoImplicit false

namespace CodeHarbor.App
open Lib Lib.Js

/-! The rows on the screen between live frames, replays and history loads. The relay keeps a
numbered log of every session; the app keeps a cursor for every session, the rows of the
selected one, and the loads it has under way. -/

/-- The events of a session in the order of their numbers 1, 2, …, and the numbers that
retention has removed. -/
structure SessionLog where
  events : List EventMessage := []
  gone : List Nat := []

def SessionLog.retained (log : SessionLog) : List (EventMessage × Nat) :=
  (log.events.zipIdx 1).filter (fun e => e.2 ∉ log.gone)

def SessionLog.retainedUpTo (log : SessionLog) (cursor : Nat) : List EventMessage :=
  (log.retained.filter (fun e => e.2 ≤ cursor)).map Prod.fst

/-- A call of `loadSessionEvents` between two pages. -/
structure Load where
  session : JsText
  revisionAtStart : Nat
  list : List (EventMessage × Nat) := []
  after : Nat := 0
  page : Nat := 0

/-- An entry of `gapRecoveryRef`; `timer` tells that its timer is armed. -/
structure GapRecovery where
  expectedSeq : Nat
  attempt : Nat
  timer : Bool
  deriving DecidableEq, Repr

/-- `turns` is none after an exception in the rendering of an event. -/
structure AppState where
  selectedSessionId : JsText := []
  sessions : List Session := []
  turns : Option (List TurnMessage) := some []
  cursors : OrdMap JsText Nat := OrdMap.empty
  seenEventKeys : List JsText := []
  liveRevision : Nat := 0
  gapRecovery : OrdMap JsText GapRecovery := OrdMap.empty
  resumeAttempts : Nat := 0
  loads : List Load := []

structure Prompt where
  clientRequestId : JsText
  promptText : JsText
  attachments : List Value
  timestamp : JsText
  moment : Moment

/-- Observations that no code reads. `intact`: since a load was shown, nothing has come
between the rows and the log of the selected session; `shownAs` is the session record of
that load, or the one at the selection. `sent` are the prompts shown before they were confirmed, `waiting` those of
them whose events have not come back since. -/
structure Watch where
  intact : Bool := false
  shownAs : Option Session := none
  sent : List JsText := []
  waiting : List Prompt := []

structure Screen where
  app : AppState := {}
  logs : OrdMap JsText SessionLog := OrdMap.empty
  watch : Watch := {}

def Screen.log (s : Screen) (session : JsText) : SessionLog := (s.logs.get session).getD {}

def AppState.cursor (a : AppState) (session : JsText) : Nat := (a.cursors.get session).getD 0

/-! The app. -/

/-- Session ids are no array indices, so the entries of the object stand in insertion order. -/
def saveCursor (cursors : OrdMap JsText Nat) (session : JsText) (seq : Nat) : OrdMap JsText Nat :=
  if session = [] ∨ seq = 0 ∨ seq ≤ (cursors.get session).getD 0 then cursors
  else
    let cursors := cursors.set session seq
    if cursors.size > 10000 then cursors.keepNewest 8000 else cursors

def AppState.saveCursor (a : AppState) (session : JsText) (seq : Nat) : AppState :=
  { a with cursors := App.saveCursor a.cursors session seq }

def AppState.resetCursor (a : AppState) (session : JsText) (seq : Nat) : AppState :=
  if session = [] then a else { a with cursors := a.cursors.set session seq }

def AppState.scheduleGapRecovery (a : AppState) (session : JsText) (expectedSeq : Nat) : AppState :=
  let current := a.gapRecovery.get session
  if current.any (fun c => c.expectedSeq ≠ 0 && expectedSeq ≤ c.expectedSeq) then a
  else
    let attempt := min ((current.map (·.attempt)).getD 0+1) 5
    { a with gapRecovery := a.gapRecovery.set session ⟨expectedSeq,attempt,true⟩ }

def AppState.startLoad (a : AppState) (session : JsText) : AppState :=
  if session = [] then a
  else { a with loads := a.loads ++ [{ session := session, revisionAtStart := a.liveRevision }] }

def AppState.fireGapTimer (a : AppState) (session : JsText) : AppState :=
  match a.gapRecovery.get session with
  | none => a
  | some recovery =>
    if recovery.timer then
      AppState.startLoad
        { a with gapRecovery := a.gapRecovery.set session { recovery with timer := false } } session
    else a

/-- `setSelectedSessionId` with the effect that follows it. -/
def AppState.select (a : AppState) (session : JsText) : AppState :=
  if session = a.selectedSessionId then a
  else if session = [] then { a with selectedSessionId := [], turns := a.turns.map (fun _ => []) }
  else AppState.startLoad { a with selectedSessionId := session } session

/-- `ws.onopen`, as far as the transcript goes. -/
def AppState.open (a : AppState) : AppState :=
  AppState.startLoad { a with resumeAttempts := 0 } a.selectedSessionId

def AppState.findSession (a : AppState) (session : JsText) : Option Session :=
  a.sessions.find? (·.id = session)

def AppState.current (a : AppState) (load : Load) : Bool :=
  a.selectedSessionId = load.session && a.liveRevision = load.revisionAtStart

def Load.maxSeq (load : Load) : Nat := load.list.foldl (fun m e => max m e.2) 0

def AppState.settleRecovery (a : AppState) (session : JsText) (maxSeq : Nat) : AppState :=
  match a.gapRecovery.get session with
  | none => a
  | some recovery =>
    if recovery.expectedSeq ≤ maxSeq ∨ 5 ≤ recovery.attempt then
      { a with gapRecovery := a.gapRecovery.erase session }
    else a.scheduleGapRecovery session recovery.expectedSeq

inductive LoadEnd where
  | shown
  | dropped
  | failed
  deriving DecidableEq, Repr

/-- The `catch` branch: the rows of an empty history. -/
def AppState.failLoad (js : Engine) (start : Moment) (a : AppState) (load : Load) : AppState :=
  if a.current load then
    { a with turns := a.turns.bind (fun _ =>
        aggregateEventsToTurns js start [] (a.findSession load.session)) }
  else a

/-- The pages are read: show them, unless the app has moved on. -/
def AppState.finishLoad (js : Engine) (start : Moment) (a : AppState) (load : Load) :
    AppState × LoadEnd :=
  if a.current load then
    match aggregateEventsToTurns js start (load.list.map Prod.fst) (a.findSession load.session) with
    | none => (a.failLoad js start load,.failed)
    | some rows =>
      let a := { a with turns := a.turns.map (fun _ => rows) }
      ((a.saveCursor load.session load.maxSeq).settleRecovery load.session load.maxSeq,.shown)
  else (a,.dropped)

/-- A page of at most `limit` events and, when more are retained, `truncated`. -/
structure Page where
  events : List (EventMessage × Nat)
  truncated : Bool
  nextCursor : Nat
  availableFrom : Option Nat

/-- `GET /api/v1/sessions/:id/events`. How many events fit is up to the relay. -/
def SessionLog.page (log : SessionLog) (after count : Nat) : Page :=
  let rest := log.retained.filter (fun e => after < e.2)
  let events := rest.take (min count 1000)
  let first := log.retained.head?.map Prod.snd
  { events := events
    truncated := events.length < rest.length
    nextCursor := (events.getLast?.map Prod.snd).getD after
    availableFrom := if after > 0 then first.filter (fun n => after+1 < n) else none }

def Load.read (load : Load) (page : Page) : Load × Bool :=
  let after := max load.after ((page.availableFrom.map (·-1)).getD 0)
  let truncated := page.truncated && after < page.nextCursor
  let load := { load with
    list := load.list ++ page.events
    after := page.nextCursor
    page := load.page+1 }
  (load,truncated && page.events ≠ [] && load.page < 100)

/-- The session that a frame names: `sessionId`, `payload.sessionId` or `payload.threadId`. -/
def eventSessionId (event : EventMessage) : Value :=
  (event.sessionId.or (event.payload.get "sessionId")).or (event.payload.get "threadId")

def requestKey (event : EventMessage) : Option JsText :=
  ((event.payload.get "clientRequestId").text?).map (ofString "request:" ++ ·)

def eventKey (session : JsText) (seq : Nat) : JsText :=
  session ++ ofString ":" ++ ofString (toString seq)

local instance : LawfulBEq JsText := inferInstance

def addSeenKey (seen : List JsText) (key : JsText) : List JsText :=
  let seen := if key ∈ seen then seen else seen ++ [key]
  if seen.length > 2000 then seen.drop (seen.length-1000) else seen

/-- `{ ...stored, ...incoming }`, for the fields that the transcript reads. -/
def Session.merge (stored : Session) (incoming : Value) : Session :=
  { stored with
    prompt := (incoming.get "prompt").coalesceUndefined stored.prompt
    createdAt := (incoming.get "createdAt").coalesceUndefined stored.createdAt
    startedAt := (incoming.get "startedAt").coalesceUndefined stored.startedAt
    status := (incoming.get "status").coalesceUndefined stored.status }

/-- `session-started` and `session-forked` put the session into the list. A record whose id
is no text is never looked up. -/
def upsertSession (sessions : List Session) (incoming : Value) : List Session :=
  match (incoming.get "id").text? with
  | none => sessions
  | some id =>
    if sessions.any (·.id = id) then modifyFirst (·.id = id) (·.merge incoming) sessions
    else Session.merge { id := id } incoming :: sessions

def updateSessions (sessions : List Session) (event : EventMessage) : List Session :=
  let incoming := event.payload.get "session"
  let named := event.sessionId.or (event.payload.get "threadId")
  let status := (event.payload.get "status").or ((event.payload.get "turn").get "status")
  let setStatus := sessions.map (fun session =>
    if named.truthy && status.truthy && named.strictEq (.str session.id) then
      { session with status := status }
    else session)
  match event.type with
  | .sessionStarted => if incoming.truthy then upsertSession sessions incoming else sessions
  | .sessionStatus => setStatus
  | .sessionFinished => setStatus
  | .other name =>
    if name = ofString "session-forked" && incoming.truthy then upsertSession sessions incoming
    else sessions
  | _ => sessions

/-- The part of `ws.onmessage` behind the checks: the event counts as live. -/
def AppState.applyFrame (js : Engine) (a : AppState) (event : EventMessage) (key : Option JsText)
    (numbered : Option (JsText × Nat)) : AppState :=
  let named := eventSessionId event
  let session := a.findSession a.selectedSessionId
  let cursors :=
    match numbered with
    | some (session,seq) => App.saveCursor a.cursors session seq
    | none => a.cursors
  { a with
    seenEventKeys := (key.map (addSeenKey a.seenEventKeys)).getD a.seenEventKeys
    liveRevision := a.liveRevision+1
    cursors := cursors
    sessions := updateSessions a.sessions event
    turns :=
      if !named.truthy || named.strictEq (.str a.selectedSessionId) then
        a.turns.bind (fun turns => applyLiveEventToTurns js turns event session)
      else a.turns }

def AppState.handleNumbered (js : Engine) (a : AppState) (session : JsText) (seq : Nat)
    (event : EventMessage) : AppState :=
  if seq ≤ a.cursor session then a
  else if a.cursor session+1 < seq then a.scheduleGapRecovery session seq
  else if (requestKey event).any (· ∈ a.seenEventKeys) then a.saveCursor session seq
  else if eventKey session seq ∈ a.seenEventKeys then a.saveCursor session seq
  else a.applyFrame js event (some (eventKey session seq)) (some (session,seq))

def AppState.handleUnnumbered (js : Engine) (a : AppState) (event : EventMessage) : AppState :=
  if (requestKey event).any (· ∈ a.seenEventKeys) then a
  else a.applyFrame js event (requestKey event) none

def AppState.handleResumeComplete (a : AppState) (truncated : Bool)
    (returned : List (JsText × Nat)) : AppState :=
  if truncated && a.resumeAttempts < 10 then
    let cursors := returned.foldl (fun cursors e => App.saveCursor cursors e.1 e.2) a.cursors
    let advanced := cursors.entries.any (fun e => a.cursor e.1 < e.2)
    { a with
      cursors := cursors
      resumeAttempts := if advanced then a.resumeAttempts+1 else a.resumeAttempts }
  else a

def AppState.handleHistoryGap (a : AppState) (session : JsText) (availableFrom : Nat) : AppState :=
  if 0 < availableFrom then a.resetCursor session (availableFrom-1) else a

/-- The event for the row that is shown before the gateway has answered. -/
def Prompt.syntheticEvent (p : Prompt) (session : JsText) : EventMessage where
  type := .sessionUserInput
  moment := p.moment
  sessionId := .str session
  timestamp := .str p.timestamp
  payload := .obj [(ofString "sessionId",.str session),
    (ofString "clientRequestId",.str p.clientRequestId),(ofString "prompt",.str p.promptText),
    (ofString "attachments",.arr p.attachments)]

def AppState.sendPrompt (js : Engine) (a : AppState) (p : Prompt) : AppState :=
  if a.selectedSessionId = [] ∨ (trim p.promptText = [] ∧ p.attachments = []) then a
  else
    let key := ofString "request:" ++ p.clientRequestId
    { a with
      seenEventKeys := if key ∈ a.seenEventKeys then a.seenEventKeys else a.seenEventKeys ++ [key]
      turns := a.turns.bind (fun turns => applyLiveEventToTurns js turns
        (p.syntheticEvent a.selectedSessionId) (a.findSession a.selectedSessionId)) }

/-! The app and the relay side by side. -/

/-- `append` and `remove` are the relay's; the frames are those it can send. -/
inductive ScreenInput where
  | select (session : JsText)
  | open
  | listSessions (sessions : List Session)
  | gapTimer (session : JsText)
  | page (load count : Nat)
  | pageFailed (load : Nat)
  | event (session : JsText) (seq : Nat)
  | unnumbered (event : EventMessage)
  | resumeComplete (truncated : Bool) (returned : List (JsText × Nat))
  | historyGap (session : JsText) (availableFrom : Nat)
  | sendPrompt (prompt : Prompt)
  | append (session : JsText) (event : EventMessage)
  | remove (session : JsText) (seq : Nat)

structure LoadEnded where
  session : JsText
  how : LoadEnd
  deriving DecidableEq, Repr

def SessionLog.numbered (log : SessionLog) (seq : Nat) : Option EventMessage :=
  if seq = 0 then none else log.events[seq-1]?

def Screen.keepsCursor (s : Screen) (cursors : OrdMap JsText Nat) : Bool :=
  cursors.get s.app.selectedSessionId = s.app.cursors.get s.app.selectedSessionId

def Screen.listed (s : Screen) : Bool := (s.app.turns.getD []).all TurnMessage.listed

/-- The event confirms the prompt that was sent. The ids that would be generated for the
row are held fixed. -/
def Prompt.confirmedBy (p : Prompt) (event : EventMessage) : Bool :=
  event.type = .sessionUserInput &&
    (event.payload.get "clientRequestId").text? = some p.clientRequestId &&
    ((event.payload.get "prompt").text?).getD [] = p.promptText &&
    !(event.payload.get "turnId").truthy &&
    ((event.payload.get "attachments").or (.arr [])).items?.isSome &&
    event.moment.now = p.moment.now && event.moment.random = p.moment.random

/-- An input on the row of the session's own prompt is what a history would not show. -/
def Screen.seedKept (s : Screen) (event : EventMessage) : Bool :=
  !prompted s.watch.shownAs || !isUserInputEvent event ||
    ((s.log s.app.selectedSessionId).retainedUpTo
      (s.app.cursor s.app.selectedSessionId)).any isUserInputEvent

/-- The next event of the selected session moves the rows and the cursor together. -/
def Screen.followsNumbered (s : Screen) (seq : Nat) (event : EventMessage) : Bool :=
  let selected := s.app.selectedSessionId
  seq ∉ (s.log selected).gone && (saveCursor s.app.cursors selected seq).get selected = some seq &&
    s.seedKept event &&
    if (requestKey event).any (· ∈ s.app.seenEventKeys) then s.watch.waiting.head?.any (·.confirmedBy event)
    else eventKey selected seq ∉ s.app.seenEventKeys && s.watch.waiting.isEmpty

/-- The rows and the log of the selected session stay in step. -/
def Screen.harmless (s : Screen) : ScreenInput → Bool
  | .event session seq =>
    match (s.log session).numbered seq with
    | none => true
    | some event =>
      if seq ≤ s.app.cursor session ∨ s.app.cursor session+1 < seq then true
      else if session = s.app.selectedSessionId then s.followsNumbered seq event
      else s.keepsCursor (saveCursor s.app.cursors session seq)
  | .unnumbered event =>
    let named := eventSessionId event
    (requestKey event).any (· ∈ s.app.seenEventKeys) ||
      (named.truthy && !named.strictEq (.str s.app.selectedSessionId)) ||
      (match event.type with
        | .other _ => s.listed
        | _ => false)
  | .resumeComplete truncated returned =>
    s.keepsCursor (s.app.handleResumeComplete truncated returned).cursors
  | .historyGap session availableFrom => s.keepsCursor (s.app.handleHistoryGap session availableFrom).cursors
  | .sendPrompt _ => s.listed
  | .remove session seq =>
    session ≠ s.app.selectedSessionId || s.app.cursor session < seq || seq ∈ (s.log session).gone
  | _ => true

/-- The load has read exactly what the relay retains, up to where the cursor will stand. -/
def Screen.exact (s : Screen) (load : Load) : Bool :=
  let cursor := ((saveCursor s.app.cursors load.session load.maxSeq).get load.session).getD 0
  load.list.map Prod.snd =
    ((s.log load.session).retained.filter (fun e => e.2 ≤ cursor)).map Prod.snd

def Screen.proceed (s : Screen) (input : ScreenInput) (app : AppState) : Screen :=
  { s with app := app, watch := { s.watch with intact := s.watch.intact && s.harmless input } }

/-- A load ends with `how`; rows that it replaces are no longer those of before. -/
def Screen.endLoad (s : Screen) (load : Load) (app : AppState) (how : LoadEnd) :
    Screen × List LoadEnded :=
  let watch :=
    if s.app.current load then
      { s.watch with
        intact := how = .shown && s.exact load
        shownAs := s.app.findSession load.session
        waiting := [] }
    else s.watch
  ({ s with app := app, watch := watch },[⟨load.session,how⟩])

def Screen.loadStep (js : Engine) (start : Moment) (s : Screen) (k : Nat) (count : Option Nat) :
    Screen × List LoadEnded :=
  match s.app.loads[k]? with
  | none => (s,[])
  | some load =>
    let without := { s with app := { s.app with loads := s.app.loads.eraseIdx k } }
    match count with
    | none =>
      if load.page = 0 then without.endLoad load (without.app.failLoad js start load) .failed
      else
        let finished := without.app.finishLoad js start load
        without.endLoad load finished.1 finished.2
    | some count =>
      let next := load.read ((s.log load.session).page load.after count)
      if next.2 then ({ s with app := { s.app with loads := s.app.loads.set k next.1 } },[])
      else
        let finished := without.app.finishLoad js start next.1
        without.endLoad next.1 finished.1 finished.2

def Screen.freshRequest (s : Screen) (id : JsText) : Bool :=
  id ≠ [] && id ∉ s.watch.sent && (s.app.turns.getD []).all (·.clientRequestId ≠ some id)

def Screen.eventStep (js : Engine) (s : Screen) (session : JsText) (seq : Nat) : Screen :=
  match (s.log session).numbered seq with
  | none => s
  | some event =>
    let next := s.proceed (.event session seq) (s.app.handleNumbered js session seq event)
    let confirmed := session = s.app.selectedSessionId && s.app.cursor session+1 = seq &&
      s.watch.waiting.head?.any (·.confirmedBy event)
    { next with watch := { next.watch with
        waiting := if confirmed then s.watch.waiting.tail else s.watch.waiting } }

def SessionLog.push (log : SessionLog) (session : JsText) (event : EventMessage) : SessionLog :=
  { log with events := log.events ++ [{ event with sessionId := .str session }] }

def SessionLog.drop (log : SessionLog) (seq : Nat) : SessionLog := { log with gone := seq :: log.gone }

def Screen.step (js : Engine) (start : Moment) (s : Screen) : ScreenInput → Screen × List LoadEnded
  | .select session =>
    if session = s.app.selectedSessionId then (s,[])
    else
      let watch := { s.watch with
        intact := false
        shownAs := s.app.findSession session
        waiting := [] }
      ({ s with app := s.app.select session, watch := watch },[])
  | .open => (s.proceed .open s.app.open,[])
  | .listSessions sessions => (s.proceed (.listSessions sessions) { s.app with sessions := sessions },[])
  | .gapTimer session => (s.proceed (.gapTimer session) (s.app.fireGapTimer session),[])
  | .page load count => s.loadStep js start load (some count)
  | .pageFailed load => s.loadStep js start load none
  | .event session seq => (s.eventStep js session seq,[])
  | .unnumbered event =>
    -- what names its session by a text has a number
    if event.sessionId.text?.isSome then (s,[])
    else (s.proceed (.unnumbered event) (s.app.handleUnnumbered js event),[])
  | .resumeComplete truncated returned =>
    if returned.all (fun e => e.2 ≤ (s.log e.1).events.length) then
      (s.proceed (.resumeComplete truncated returned) (s.app.handleResumeComplete truncated returned),[])
    else (s,[])
  | .historyGap session availableFrom =>
    if availableFrom ≤ (s.log session).events.length then
      (s.proceed (.historyGap session availableFrom) (s.app.handleHistoryGap session availableFrom),[])
    else (s,[])
  | .sendPrompt p =>
    if s.freshRequest p.clientRequestId ∧ s.app.selectedSessionId ≠ [] ∧
        ¬ (trim p.promptText = [] ∧ p.attachments = []) then
      let next := s.proceed (.sendPrompt p) (s.app.sendPrompt js p)
      ({ next with watch := { next.watch with
          sent := s.watch.sent ++ [p.clientRequestId]
          waiting := s.watch.waiting ++ [p] } },[])
    else (s,[])
  | .append session event =>
    if session = [] then (s,[])
    else ({ s with logs := s.logs.set session ((s.log session).push session event) },[])
  | .remove session seq =>
    let kept := s.proceed (.remove session seq) s.app
    ({ kept with logs := s.logs.set session ((s.log session).drop seq) },[])

def Screen.NamedLogs (s : Screen) : Prop :=
  ∀ session, ∀ event ∈ (s.log session).events, session ≠ [] ∧ event.sessionId = .str session

/-- The app has been opened with the cursors of an earlier visit; the relay has its logs. -/
def Screen.Opened (s : Screen) : Prop :=
  s.NamedLogs ∧ (∀ session, s.app.cursor session ≤ (s.log session).events.length) ∧
    s.app.selectedSessionId = [] ∧ s.app.loads = [] ∧ s.watch.intact = false ∧ s.watch.waiting = []

def screen (js : Engine) (start : Moment) : Machine Screen ScreenInput LoadEnded where
  init s := s.Opened
  step s input := s.step js start input

def lastEnd (session : JsText) (tr : List LoadEnded) : Option LoadEnd :=
  ((tr.filter (·.session = session)).getLast?).map (·.how)

/-- A session is selected, no load of it is under way, and its last load succeeded. -/
def Screen.settled (tr : List LoadEnded) (s : Screen) : Bool :=
  s.app.selectedSessionId ≠ [] && s.app.loads.all (·.session ≠ s.app.selectedSessionId) &&
    (lastEnd s.app.selectedSessionId tr).any (· ≠ .failed)

/-- The rows apart from those for prompts that the app showed before they were confirmed. -/
def apart (sent : List JsText) (turns : List TurnMessage) : List TurnMessage :=
  turns.filter (fun turn => !turn.clientRequestId.any (· ∈ sent))

/-- The rows on the screen are those of the retained events of the selected session up to
its cursor. -/
def Screen.Faithful (js : Engine) (start : Moment) (tr : List LoadEnded) (s : Screen) : Prop :=
  ∀ rows, s.settled tr = true → s.app.turns = some rows →
    (aggregateEventsToTurns js start ((s.log s.app.selectedSessionId).retainedUpTo
      (s.app.cursor s.app.selectedSessionId)) s.watch.shownAs).map (apart s.watch.sent) =
      some (apart s.watch.sent rows)

/-- A step after which no load is under way has not disturbed the rows, and none before it
has since they were loaded. -/
def undisturbed (js : Engine) (start : Moment) (tr : List LoadEnded) (s : Screen)
    (input : ScreenInput) : Prop :=
  let next := s.step js start input
  next.1.settled (tr ++ next.2) = true → next.1.watch.intact = true

instance (js : Engine) (start : Moment) (tr : List LoadEnded) (s : Screen) (input : ScreenInput) :
    Decidable (undisturbed js start tr s input) := inferInstanceAs (Decidable (_ → _))

/-! The log. -/

theorem filter_zipIdx_lt {α : Type} (xs : List α) (n c : Nat) :
    (xs.zipIdx n).filter (fun e => e.2 < n+c) = (xs.take c).zipIdx n := by
  induction xs generalizing n c with
  | nil => simp
  | cons x xs ih =>
    cases c with
    | zero =>
      rw [List.take_zero,List.zipIdx_nil,List.filter_eq_nil_iff]
      intro e he
      have hle : n ≤ e.2 := (List.mem_zipIdx he).1
      simpa using hle
    | succ c =>
      have hshift : n+(c+1) = (n+1)+c := by omega
      rw [List.zipIdx_cons,List.take_succ_cons,List.zipIdx_cons,hshift,List.filter_cons,ih]
      have hlt : n < n+1+c := by omega
      simp [hlt]

theorem SessionLog.retainedUpTo_eq (log : SessionLog) (c : Nat) :
    log.retainedUpTo c =
      (((log.events.take c).zipIdx 1).filter (fun e => e.2 ∉ log.gone)).map Prod.fst := by
  have hcomm : ∀ (xs : List (EventMessage × Nat)),
      (xs.filter (fun e => e.2 ∉ log.gone)).filter (fun e => e.2 ≤ c) =
        (xs.filter (fun e => e.2 < 1+c)).filter (fun e => e.2 ∉ log.gone) := by
    intro xs
    rw [List.filter_filter,List.filter_filter]
    apply List.filter_congr
    intro e _
    have hiff : (e.2 ≤ c) = (e.2 < 1+c) := by
      apply propext
      omega
    simp only [hiff,Bool.and_comm]
  rw [retainedUpTo,retained,hcomm,filter_zipIdx_lt]

theorem SessionLog.retainedUpTo_push (log : SessionLog) (session : JsText) (event : EventMessage)
    {c : Nat} (hc : c ≤ log.events.length) :
    (log.push session event).retainedUpTo c = log.retainedUpTo c := by
  rw [retainedUpTo_eq,retainedUpTo_eq]
  unfold push
  dsimp only
  rw [List.take_append_of_le_length hc]

theorem SessionLog.retainedUpTo_drop (log : SessionLog) {n c : Nat} (h : c < n ∨ n ∈ log.gone) :
    (log.drop n).retainedUpTo c = log.retainedUpTo c := by
  rw [retainedUpTo_eq,retainedUpTo_eq]
  unfold drop
  congr 1
  apply List.filter_congr
  intro e he
  have hlt := (List.mem_zipIdx he).2.1
  rw [List.length_take] at hlt
  rcases h with hcn | hgone
  · have hne : e.2 ≠ n := by omega
    simp [hne]
  · by_cases hne : e.2 = n
    · simp [hne,hgone]
    · simp [hne]

theorem SessionLog.retainedUpTo_succ {log : SessionLog} {c : Nat} {e : EventMessage}
    (he : log.numbered (c+1) = some e) (hgone : c+1 ∉ log.gone) :
    log.retainedUpTo (c+1) = log.retainedUpTo c ++ [e] := by
  have hget : log.events[c]? = some e := by simpa [numbered] using he
  have hlength : (log.events.take c).length = c := by
    have hlt := (List.getElem?_eq_some_iff.mp hget).1
    rw [List.length_take]
    omega
  rw [retainedUpTo_eq,retainedUpTo_eq,List.take_add_one,hget,List.zipIdx_append,List.filter_append,
    List.map_append,hlength]
  simp [hgone,Nat.add_comm]

theorem SessionLog.numbered_of_retained {log : SessionLog} {p : EventMessage × Nat}
    (h : p ∈ log.retained) : log.numbered p.2 = some p.1 := by
  have hmem := List.mem_zipIdx (List.mem_of_mem_filter h)
  have hne : p.2 ≠ 0 := by omega
  rw [numbered,if_neg hne,List.getElem?_eq_some_iff]
  exact ⟨by omega,hmem.2.2.symm⟩

theorem SessionLog.numbered_push {log : SessionLog} {n : Nat} {e : EventMessage}
    (h : log.numbered n = some e) (session : JsText) (event : EventMessage) :
    (log.push session event).numbered n = some e := by
  unfold numbered push at *
  split_ifs at h ⊢ with hn
  rw [List.getElem?_append_left (List.getElem?_eq_some_iff.mp h).1]
  exact h

theorem eq_of_numbers {f : Nat → Option EventMessage} {xs ys : List (EventMessage × Nat)}
    (hx : ∀ p ∈ xs, f p.2 = some p.1) (hy : ∀ p ∈ ys, f p.2 = some p.1)
    (h : xs.map Prod.snd = ys.map Prod.snd) : xs = ys := by
  induction xs generalizing ys with
  | nil => simpa using h.symm
  | cons x xs ih =>
    cases ys with
    | nil => simp at h
    | cons y ys =>
      simp only [List.map_cons,List.cons.injEq] at h
      have hfirst : x.1 = y.1 := by
        have hxy := hx x List.mem_cons_self
        rw [h.1,hy y List.mem_cons_self,Option.some.injEq] at hxy
        exact hxy.symm
      rw [Prod.ext hfirst h.1,ih (fun p hp => hx p (List.mem_cons_of_mem x hp))
        (fun p hp => hy p (List.mem_cons_of_mem y hp)) h.2]

end CodeHarbor.App
