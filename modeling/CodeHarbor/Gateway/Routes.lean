import CodeHarbor.Gateway.State
set_option autoImplicit false

namespace CodeHarbor.Gateway
open Lib Bridge

namespace Server

def startedThread (o : Outcome) : Option String := if o.ok then present o.id else none

def releaseCreateRequest (g : Server) : Option RequestId → Server
  | none => g
  | some r => { g with store := g.store.releaseCreateRequest r }

/-- A start that failed frees the gate and is announced as a finish. -/
def failStart (g : Server) (now : Nat) (id : String) (turn : Nat) : Server × List GatewayEvent :=
  let g := (g.release id).dropLive id
  let g := g.updateSession id fun current =>
    { current with status := .failed, activeTurnId := some none, lastUpdatedAt := now }
  (g.broadcastGateway now { type := .sessionFinished, sessionId := id },[.startFailed id turn])

section POST_sessions

def postSessions (g : Server) (now : Nat) (requestId : Option RequestId) (mode : SessionPolicyMode)
    (confirmed : Bool) : Server :=
  if fullAccessConfirmationRequired (some mode) confirmed none then g
  else
    match requestId with
    | none => g.suspend (.createThread none mode confirmed)
    | some r =>
      let (store,reserved) := g.store.reserveCreateRequest now r
      let g := { g with store := store }
      if reserved then g.suspend (.createThread requestId mode confirmed) else g

def createdSession (id : String) (now : Nat) (mode : SessionPolicyMode) : GatewaySession :=
  { threadToSession ⟨id,"starting",now⟩ none with sessionPolicyMode := mode }

def rememberCreateRequest (g : Server) (id : String) : Option RequestId → Server
  | none => g
  | some r => { g with store := g.store.rememberCreateRequest r id }

/-- The status "starting" of the announced record is none that `mapThreadStatus` knows and
reads as `completed`, so the announcement itself frees the gate taken just before. -/
def openCreated (g : Server) (now : Nat) (id : String) (requestId : Option RequestId)
    (mode : SessionPolicyMode) (confirmed : Bool) : Server × List GatewayEvent :=
  let turn := g.nextTurn
  let g := { g with turnGate := insert id g.turnGate, nextTurn := turn+1 }
  let session := createdSession id now mode
  let saved := { session with
    status := .starting
    activeTurnId := some none
    lastClientRequestId := some requestId }
  let g := { g with store := g.store.saveSession saved }
  let g := g.rememberCreateRequest id requestId
  let g := g.rememberClientRequest id requestId
  let g := g.addLive id
  let g := g.broadcastGateway now
    { type := .sessionStarted, sessionId := id, session := some session }
  (g.suspend (.createModel id mode turn),
    .accepted id turn :: .modeRequested id mode confirmed :: rememberedEvents id false requestId)

def createThread (g : Server) (now : Nat) (o : Outcome) (requestId : Option RequestId)
    (mode : SessionPolicyMode) (confirmed : Bool) : Server × List GatewayEvent :=
  match startedThread o with
  | none => (g.releaseCreateRequest requestId,[])
  | some id =>
    if TurnGate.acquire g.turnGate id requestId none = .busy then
      (g.releaseCreateRequest requestId,[])
    else g.openCreated now id requestId mode confirmed

def createModel (g : Server) (now : Nat) (o : Outcome) (id : String) (mode : SessionPolicyMode)
    (turn : Nat) : Server × List GatewayEvent :=
  if o.ok then ((g.rememberPolicy id mode).suspend (.createTurn id turn),[])
  else g.failStart now id turn

def createTurn (g : Server) (now : Nat) (o : Outcome) (id : String) (turn : Nat) :
    Server × List GatewayEvent :=
  if o.ok then
    let g := g.updateSession id fun current =>
      { current with status := .running, activeTurnId := some o.id, lastUpdatedAt := now }
    (g.broadcastGateway now
      { type := .sessionStatus, sessionId := id, status := some .running },[])
  else g.failStart now id turn

end POST_sessions

section POST_api_threads

def postThreads (g : Server) (mode : SessionPolicyMode) (confirmed : Bool) : Server :=
  if fullAccessConfirmationRequired (some mode) confirmed none then g
  else g.suspend (.apiThreadStart mode confirmed)

/-- This route starts its turn without going through the gate. -/
def apiThreadStart (g : Server) (o : Outcome) (mode : SessionPolicyMode) (confirmed : Bool) :
    Server × List GatewayEvent :=
  match startedThread o with
  | none => (g,[])
  | some id =>
    let turn := g.nextTurn
    ({ g with nextTurn := turn+1 }.suspend (.apiThreadModel id mode turn),
      [.accepted id turn,.modeRequested id mode confirmed])

def apiThreadModel (g : Server) (o : Outcome) (id : String) (mode : SessionPolicyMode)
    (turn : Nat) : Server × List GatewayEvent :=
  if o.ok then ((g.rememberPolicy id mode).suspend (.apiThreadTurn id turn),[])
  else (g,[.startFailed id turn])

def apiThreadTurn (g : Server) (o : Outcome) (id : String) (turn : Nat) :
    Server × List GatewayEvent :=
  (g,if o.ok then [] else [.startFailed id turn])

end POST_api_threads

def setMode (g : Server) (now : Nat) (id : String) (mode : SessionPolicyMode) : Server :=
  (g.rememberPolicy id mode).updateSession id fun current =>
    { current with sessionPolicyMode := mode, lastUpdatedAt := now }

section PATCH_policy

def patchPolicy (g : Server) (id : String) (mode : SessionPolicyMode) (confirmed : Bool) : Server :=
  match g.store.getSession id with
  | none => g
  | some existing => g.suspend (.patchContext id mode confirmed existing)

def patchContext (g : Server) (now : Nat) (o : Outcome) (id : String) (mode : SessionPolicyMode)
    (confirmed : Bool) (existing : GatewaySession) : Server × List GatewayEvent :=
  if o.ok = false then (g,[])
  else if fullAccessConfirmationRequired (some mode) confirmed existing.sessionPolicyMode then (g,[])
  else
    let g := g.setMode now id mode
    let session := (g.store.getSession id).getD
      { existing with sessionPolicyMode := mode, lastUpdatedAt := now }
    (g.suspend (.patchAudit session),[.modeRequested id mode confirmed])

/-- The record written back was read before the audit. -/
def patchAudit (g : Server) (now : Nat) (o : Outcome) (session : GatewaySession) : Server :=
  if o.ok then g.broadcastGateway now
    { type := .sessionPolicyChanged, sessionId := session.id, session := some session }
  else g

end PATCH_policy

section POST_resume

def postResume (g : Server) (id : String) (mode : Option SessionPolicyMode) (confirmed : Bool) :
    Server :=
  let existing := g.store.mode id
  let mode := (mode.or existing).getD .confirm
  if fullAccessConfirmationRequired (some mode) confirmed existing then g
  else g.suspend (.resumeContext id mode confirmed existing.isSome)

def resumeContext (g : Server) (o : Outcome) (id : String) (mode : SessionPolicyMode)
    (confirmed stored : Bool) : Server × List GatewayEvent :=
  if o.ok ∧ (stored ∨ (findThreadSummary o.threads id).isSome) then
    ((g.rememberPolicy id mode).suspend (.resumeThread id mode),
      [.modeRequested id mode confirmed])
  else (g,[])

def resumeThread (g : Server) (now : Nat) (o : Outcome) (id : String) (mode : SessionPolicyMode) :
    Server :=
  if o.ok then
    let g := g.setMode now id mode
    match g.store.getSession id with
    | none => g
    | some updated => g.broadcastGateway now
        { type := .sessionPolicyChanged, sessionId := id, session := some updated }
  else g

end POST_resume

section POST_turns

/-- The status broadcast carries the record as it was read, so it writes the ledger of
before back over the one just extended. -/
def acceptTurn (g : Server) (now receivedAt : Nat) (id : String) (persisted : Option GatewaySession)
    (session : GatewaySession) (requestId : Option RequestId) (policy : SessionPolicyMode)
    (confirmed : Bool) : Server × List GatewayEvent :=
  let turn := g.nextTurn
  let g := { g with
    turnGate := insert id g.turnGate
    cancelledSessions := g.cancelledSessions.erase id
    nextTurn := turn+1 }
  let g := g.beginRun id
  let g := g.addLive id
  let last := persisted.bind (·.lastClientRequestId.join)
  let g := g.upsertSession { session with
    status := .running
    sessionPolicyMode := policy
    activeTurnId := some none
    lastClientRequestId := some (requestId.or last)
    lastUpdatedAt := receivedAt }
  let g := g.rememberClientRequest id requestId
  let g := g.broadcastGateway now { type := .sessionUserInput, sessionId := id }
  let g := g.broadcastGateway now
    { type := .sessionStatus, sessionId := id, status := some .running, session := some session }
  let g := g.rememberPolicy id policy
  (g.suspend (.turnPrepare id policy (g.generation id) turn),
    .accepted id turn :: .modeRequested id policy confirmed :: rememberedEvents id true requestId)

def admitTurn (g : Server) (now receivedAt : Nat) (id : String) (persisted : Option GatewaySession)
    (session : GatewaySession) (requestId : Option RequestId) (policy : SessionPolicyMode)
    (confirmed : Bool) : Server × List GatewayEvent :=
  if g.hasClientRequest id requestId then (g,[.duplicate id requestId])
  else
    let (g,reserved) := g.reserveClientRequest now id requestId
    if reserved = false then (g,[.duplicate id requestId])
    else
      match TurnGate.acquire g.turnGate id requestId
          (persisted.bind (·.lastClientRequestId.join)) with
      | .duplicate => (g.releaseClientRequest id requestId,[.duplicate id requestId])
      | .busy => (g.releaseClientRequest id requestId,[])
      | .accepted => g.acceptTurn now receivedAt id persisted session requestId policy confirmed

def postTurns (g : Server) (now : Nat) (id : String) (requestId : Option RequestId)
    (mode : Option SessionPolicyMode) (confirmed : Bool) : Server × List GatewayEvent :=
  match g.store.getSession id with
  | none => (g.suspend (.turnLookup id requestId mode confirmed now),[])
  | some persisted =>
    let policy := mode.getD persisted.sessionPolicyMode
    if fullAccessConfirmationRequired mode confirmed persisted.sessionPolicyMode then (g,[])
    else g.admitTurn now now id persisted
      { persisted with status := .running, sessionPolicyMode := policy, lastUpdatedAt := now }
      requestId policy confirmed

def turnLookup (g : Server) (now : Nat) (o : Outcome) (id : String) (requestId : Option RequestId)
    (mode : Option SessionPolicyMode) (confirmed : Bool) (receivedAt : Nat) :
    Server × List GatewayEvent :=
  match findThreadSummary o.threads id with
  | none => (g,[])
  | some thread =>
    let policy := mode.getD .confirm
    if fullAccessConfirmationRequired mode confirmed none then (g,[])
    else if o.ok = false then (g,[])
    else g.admitTurn now receivedAt id none
      { threadToSession thread (some .running) with sessionPolicyMode := policy }
      requestId policy confirmed

/-- `thread/resume` and the attachments: only a run that is still current goes on. -/
def turnPrepare (g : Server) (now : Nat) (o : Outcome) (id : String) (policy : SessionPolicyMode)
    (generation turn : Nat) : Server × List GatewayEvent :=
  if o.ok then
    (if g.isCurrent id generation then g.suspend (.turnModel id policy generation turn) else g,[])
  else if g.isCurrent id generation then g.failStart now id turn
  else (g,[.startFailed id turn])

def turnModel (g : Server) (now : Nat) (o : Outcome) (id : String) (policy : SessionPolicyMode)
    (generation turn : Nat) : Server × List GatewayEvent :=
  if o.ok then ((g.rememberPolicy id policy).suspend (.turnStart id generation turn),[])
  else if g.isCurrent id generation then g.failStart now id turn
  else (g,[.startFailed id turn])

def turnStart (g : Server) (now : Nat) (o : Outcome) (id : String) (generation turn : Nat) :
    Server × List GatewayEvent :=
  if o.ok then
    match (if g.isCurrent id generation then present o.id else none) with
    | none => (g,[])
    | some turnId =>
      (g.updateSession id fun current =>
        { current with activeTurnId := some (some turnId), lastUpdatedAt := now },[])
  else if g.isCurrent id generation then g.failStart now id turn
  else (g,[.startFailed id turn])

end POST_turns

section POST_api_turns

def postThreadTurns (g : Server) (now : Nat) (id : String) (requestId : Option RequestId) :
    Server × List GatewayEvent :=
  let persistedRequestId := (g.store.getSession id).bind (·.lastClientRequestId.join)
  let (g,reserved) := g.reserveClientRequest now id requestId
  if reserved then (g.suspend (.apiTurnLookup id requestId persistedRequestId),[])
  else (g,[.duplicate id requestId])

def apiTurnLookup (g : Server) (o : Outcome) (id : String)
    (requestId persistedRequestId : Option RequestId) : Server × List GatewayEvent :=
  match (if o.ok then findThreadSummary o.threads id else none) with
  | none => (g.releaseClientRequest id requestId,[])
  | some thread =>
    match TurnGate.acquire g.turnGate id requestId persistedRequestId with
    | .duplicate => (g.releaseClientRequest id requestId,[.duplicate id requestId])
    | .busy => (g.releaseClientRequest id requestId,[])
    | .accepted =>
      let turn := g.nextTurn
      let g := { g with turnGate := insert id g.turnGate, nextTurn := turn+1 }
      let g := g.rememberPolicy id (g.policyMode id)
      (g.suspend (.apiTurnPrepare id requestId persistedRequestId thread turn),[.accepted id turn])

def apiTurnFailed (g : Server) (id : String) (requestId : Option RequestId) (turn : Nat) :
    Server × List GatewayEvent :=
  ((g.release id).releaseClientRequest id requestId,[.startFailed id turn])

def apiTurnPrepare (g : Server) (o : Outcome) (id : String)
    (requestId persistedRequestId : Option RequestId) (thread : ThreadSummary) (turn : Nat) :
    Server × List GatewayEvent :=
  if o.ok then (g.suspend (.apiTurnModel id requestId persistedRequestId thread turn),[])
  else g.apiTurnFailed id requestId turn

/-- No model is named, so the check passes and the mode in force is remembered again. -/
def apiTurnModel (g : Server) (id : String) (requestId persistedRequestId : Option RequestId)
    (thread : ThreadSummary) (turn : Nat) : Server :=
  (g.rememberPolicy id (g.policyMode id)).suspend
    (.apiTurnStart id requestId persistedRequestId thread turn)

def apiTurnStart (g : Server) (now : Nat) (o : Outcome) (id : String)
    (requestId persistedRequestId : Option RequestId) (thread : ThreadSummary) (turn : Nat) :
    Server × List GatewayEvent :=
  if o.ok then
    let session := threadToSession thread (some .running)
    let g := g.upsertSession { session with
      activeTurnId := some o.id
      lastClientRequestId := some (requestId.or persistedRequestId)
      lastUpdatedAt := now }
    let g := (g.rememberClientRequest id requestId).addLive id
    (g.broadcastGateway now
      { type := .sessionStatus, sessionId := id, status := some .running, session := some session },
      rememberedEvents id false requestId)
  else g.apiTurnFailed id requestId turn

end POST_api_turns

section POST_interjections

def interjectAdmit (g : Server) (now : Nat) (id : String) (requestId : Option RequestId)
    (turnId : String) (thread : Option ThreadSummary) : Server × List GatewayEvent :=
  if g.hasClientRequest id requestId then (g,[.duplicate id requestId])
  else
    let (g,reserved) := g.reserveClientRequest now id requestId
    if reserved then (g.suspend (.interjectAudit id requestId turnId thread),[])
    else (g,[.duplicate id requestId])

def interjectContext (g : Server) (now : Nat) (o : Outcome) (id : String)
    (requestId : Option RequestId) (turnId : Option String) (stored : Bool) :
    Server × List GatewayEvent :=
  let thread := if stored then none else findThreadSummary o.threads id
  if (stored = false ∧ thread = none) ∨ o.ok = false then (g,[])
  else
    let active := (g.store.getSession id).bind fun session => present session.activeTurnId.join
    match turnId.or active with
    | some expected => g.interjectAdmit now id requestId expected thread
    | none => (g.suspend (.interjectDetail id requestId thread),[])

def interjectDetail (g : Server) (now : Nat) (o : Outcome) (id : String)
    (requestId : Option RequestId) (thread : Option ThreadSummary) : Server × List GatewayEvent :=
  match (if o.ok then present o.id else none) with
  | some expected => g.interjectAdmit now id requestId expected thread
  | none => (g,[])

/-- When the audit fails the reservation stays until it expires. -/
def interjectAudit (g : Server) (o : Outcome) (id : String) (requestId : Option RequestId)
    (turnId : String) (thread : Option ThreadSummary) : Server :=
  if o.ok then g.suspend (.interjectSteer id requestId turnId thread) else g

def interjected (g : Server) (now : Nat) (id : String) (thread : Option ThreadSummary) :
    GatewaySession :=
  (g.store.getSession id).getD (match thread with
    | some thread => threadToSession thread (some .running)
    | none => minimalSession id now .running)

def interjectSteer (g : Server) (now : Nat) (o : Outcome) (id : String)
    (requestId : Option RequestId) (turnId : String) (thread : Option ThreadSummary) :
    Server × List GatewayEvent :=
  if o.ok then
    let g := (g.addLive id).upsertSession { g.interjected now id thread with
      status := .running
      activeTurnId := some (some turnId)
      lastUpdatedAt := now }
    let g := g.rememberClientRequest id requestId
    (g.broadcastGateway now { type := .sessionUserInput, sessionId := id },
      rememberedEvents id false requestId)
  else (g.releaseClientRequest id requestId,[])

end POST_interjections

section POST_interrupt

def interruptBase (o : Outcome) (id : String) (session : Option GatewaySession) :
    Option GatewaySession :=
  if o.ok then
    session.or ((findThreadSummary o.threads id).map (threadToSession · (some .cancelled)))
  else none

/-- The three interrupt routes. The record written back was read before the awaits. -/
def interruptContext (g : Server) (now : Nat) (o : Outcome) (id : String)
    (session : Option GatewaySession) : Server × List GatewayEvent :=
  match interruptBase o id session with
  | none => (g,[])
  | some base => (g.settleInterruptedSession now id base,[.interrupted id])

end POST_interrupt

section POST_fork

def forkContext (g : Server) (o : Outcome) (id : String) (mode : Option SessionPolicyMode)
    (confirmed stored : Bool) : Server :=
  if o.ok ∧ (stored ∨ (findThreadSummary o.threads id).isSome) then
    let mode := (mode.or (g.store.mode id)).getD .confirm
    if fullAccessConfirmationRequired (some mode) confirmed none then g
    else g.suspend (.forkAudit id mode confirmed)
  else g

/-- The mode meant for the child is remembered under the parent. -/
def forkAudit (g : Server) (o : Outcome) (id : String) (mode : SessionPolicyMode)
    (confirmed : Bool) : Server × List GatewayEvent :=
  if o.ok then
    ((g.rememberPolicy id mode).suspend (.forkThread id mode confirmed),
      [.forkRequested id mode confirmed])
  else (g,[])

def forkedChild (o : Outcome) : Option ThreadSummary :=
  if o.ok then o.child.filter (·.id ≠ "") else none

/-- The announced record of the child is the one without the mode. -/
def forkThread (g : Server) (now : Nat) (o : Outcome) (id : String) (mode : SessionPolicyMode)
    (confirmed : Bool) : Server × List GatewayEvent :=
  match forkedChild o with
  | none => (g,[])
  | some child =>
    let session := threadToSession child (some .starting)
    let g := g.upsertSession { session with sessionPolicyMode := mode, lastUpdatedAt := now }
    (g.broadcastGateway now {
      type := .sessionForked
      sessionId := child.id
      session := some session
      parentSessionId := some id },[.modeRequested child.id mode confirmed])

end POST_fork

section imports

def importThread (g : Server) (o : Outcome) (id : String) : Server :=
  match (if o.ok then findThreadSummary o.threads id else none) with
  | none => g
  | some thread => g.upsertSession (threadToSession thread none)

def getSessions (g : Server) : Server :=
  if g.store.sessions.size = 0 then g.suspend .coldImport else g

def importedSession (g : Server) (thread : ThreadSummary) : GatewaySession :=
  let existing := g.store.getSession thread.id
  let session := threadToSession thread (existing.map (·.status))
  { session with
    activeTurnId := some (existing.bind (·.activeTurnId.join))
    lastUpdatedAt := max ((existing.map (·.lastUpdatedAt)).getD 0) session.lastUpdatedAt }

def coldImport (g : Server) (o : Outcome) : Server :=
  { g with store := g.store.upsertSessions (o.threads.map g.importedSession) }

end imports

def codexEvent (g : Server) (now : Nat) (event : CodexEvent) : Server × List GatewayEvent :=
  if event.threadId = "" then (g,[])
  else
    let (g,message) := g.normalizeCodexEvent event
    (g.broadcastGateway now message,match event with
      | .turnCompleted id _ (some turn) => [.turnCompleted id turn]
      | _ => [])

end Server

inductive Request where
  | postSessions (requestId : Option RequestId) (mode : SessionPolicyMode) (confirmed : Bool)
  | postThreads (mode : SessionPolicyMode) (confirmed : Bool)
  | patchPolicy (id : String) (mode : SessionPolicyMode) (confirmed : Bool)
  | postResume (id : String) (mode : Option SessionPolicyMode) (confirmed : Bool)
  | postTurns (id : String) (requestId : Option RequestId) (mode : Option SessionPolicyMode)
      (confirmed : Bool)
  | postThreadTurns (id : String) (requestId : Option RequestId)
  | postInterjections (id : String) (requestId : Option RequestId) (turnId : Option String)
  | postInterrupt (id : String)
  | postFork (id : String) (mode : Option SessionPolicyMode) (confirmed : Bool)
  | postImport (id : String)
  | getSessions
  | getThreads (ids : List String)
  | deleteSession (id : String)
  | codex (event : CodexEvent)
  deriving DecidableEq, Repr

/-- One atomic segment: a request runs up to its first await, or a suspended handler goes
on to its next one. -/
inductive Input where
  | request (now : Nat) (q : Request)
  | proceed (now : Nat) (k : Nat) (o : Outcome)
  deriving DecidableEq, Repr

namespace Server

def receive (g : Server) (now : Nat) : Request → Server × List GatewayEvent
  | .postSessions r mode confirmed => (g.postSessions now r mode confirmed,[])
  | .postThreads mode confirmed => (g.postThreads mode confirmed,[])
  | .patchPolicy id mode confirmed => (g.patchPolicy id mode confirmed,[])
  | .postResume id mode confirmed => (g.postResume id mode confirmed,[])
  | .postTurns id r mode confirmed => g.postTurns now id r mode confirmed
  | .postThreadTurns id r => g.postThreadTurns now id r
  | .postInterjections id r turnId =>
    (g.suspend (.interjectContext id r turnId (g.store.getSession id).isSome),[])
  | .postInterrupt id => (g.suspend (.interruptContext id (g.store.getSession id)),[])
  | .postFork id mode confirmed =>
    (g.suspend (.forkContext id mode confirmed (g.store.getSession id).isSome),[])
  | .postImport id => (g.suspend (.importThread id),[])
  | .getSessions => (g.getSessions,[])
  | .getThreads ids => (ids.foldl (fun g id => g.withGatewayThreadStatus now id) g,[])
  | .deleteSession id => ({ g with store := g.store.deleteSession id },[])
  | .codex event => g.codexEvent now event

def resume (g : Server) (now : Nat) (o : Outcome) : Task → Server × List GatewayEvent
  | .createThread r mode confirmed => g.createThread now o r mode confirmed
  | .createModel id mode turn => g.createModel now o id mode turn
  | .createTurn id turn => g.createTurn now o id turn
  | .apiThreadStart mode confirmed => g.apiThreadStart o mode confirmed
  | .apiThreadModel id mode turn => g.apiThreadModel o id mode turn
  | .apiThreadTurn id turn => g.apiThreadTurn o id turn
  | .patchContext id mode confirmed existing => g.patchContext now o id mode confirmed existing
  | .patchAudit session => (g.patchAudit now o session,[])
  | .resumeContext id mode confirmed stored => g.resumeContext o id mode confirmed stored
  | .resumeThread id mode => (g.resumeThread now o id mode,[])
  | .turnLookup id r mode confirmed receivedAt =>
    g.turnLookup now o id r mode confirmed receivedAt
  | .turnPrepare id policy generation turn => g.turnPrepare now o id policy generation turn
  | .turnModel id policy generation turn => g.turnModel now o id policy generation turn
  | .turnStart id generation turn => g.turnStart now o id generation turn
  | .apiTurnLookup id r last => g.apiTurnLookup o id r last
  | .apiTurnPrepare id r last thread turn => g.apiTurnPrepare o id r last thread turn
  | .apiTurnModel id r last thread turn => (g.apiTurnModel id r last thread turn,[])
  | .apiTurnStart id r last thread turn => g.apiTurnStart now o id r last thread turn
  | .interjectContext id r turnId stored => g.interjectContext now o id r turnId stored
  | .interjectDetail id r thread => g.interjectDetail now o id r thread
  | .interjectAudit id r turnId thread => (g.interjectAudit o id r turnId thread,[])
  | .interjectSteer id r turnId thread => g.interjectSteer now o id r turnId thread
  | .interruptContext id session => g.interruptContext now o id session
  | .forkContext id mode confirmed stored => (g.forkContext o id mode confirmed stored,[])
  | .forkAudit id mode confirmed => g.forkAudit o id mode confirmed
  | .forkThread id mode confirmed => g.forkThread now o id mode confirmed
  | .importThread id => (g.importThread o id,[])
  | .coldImport => (g.coldImport o,[])

def finishTask (g : Server) (k : Nat) : Server := { g with tasks := g.tasks.eraseIdx k }

def step (g : Server) : Input → Server × List GatewayEvent
  | .request now q => g.receive now q
  | .proceed now k o =>
    match g.tasks[k]? with
    | none => (g,[])
    | some task => (g.finishTask k).resume now o task

end Server

def gateway : Machine Server Input GatewayEvent where
  init g := g = {}
  step g i := g.step i

namespace Sample

/-- A session created with full access, up to its `turn/start`. -/
def fullAccessSession : List Input :=
  [.request 0 (.postSessions none .fullAccess true),.proceed 1 0 { id := some "t" },
    .proceed 2 0 {}]

def importSession (t : String) : List Input :=
  [.request 0 (.postImport t),.proceed 1 0 { threads := [⟨t,"idle",0⟩] }]

def runTurn (t turnId : String) (now : Nat) (r : Option RequestId) : List Input :=
  [.request now (.postTurns t r none false),.proceed now 0 {},.proceed now 0 {},
    .proceed now 0 { id := some turnId }]

def completeTurn (t : String) (now turn : Nat) : List Input :=
  [.request now (.codex (.turnCompleted t (some "completed") (some turn)))]

end Sample

end CodeHarbor.Gateway
