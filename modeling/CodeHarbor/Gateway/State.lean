import CodeHarbor.Gateway.Store
set_option autoImplicit false

namespace CodeHarbor.Gateway
open Lib Bridge

structure ThreadSummary where
  id : String
  status : String
  updatedAtMs : Nat
  deriving DecidableEq, Repr

def mapThreadStatus (status : String) : SessionStatus :=
  if status = "running" ∨ status = "inProgress" ∨ status = "active" then .running
  else if status = "failed" ∨ status = "systemError" then .failed
  else if status = "interrupted" ∨ status = "cancelled" then .cancelled
  else .completed

/-- A status that is neither text nor an object naming one reads as running. -/
def normalizeThreadStatus : Option String → SessionStatus
  | some status => mapThreadStatus status
  | none => .running

/-- The record is built anew: its mode is always `confirm` and it has no ledger keys. -/
def threadToSession (thread : ThreadSummary) (overrideStatus : Option SessionStatus) :
    GatewaySession where
  id := thread.id
  status := overrideStatus.getD (mapThreadStatus thread.status)
  sessionPolicyMode := .confirm
  lastUpdatedAt := thread.updatedAtMs

def minimalSession (id : String) (now : Nat) (status : SessionStatus) : GatewaySession where
  id := id
  status := status
  sessionPolicyMode := .confirm
  lastUpdatedAt := now

def findThreadSummary (threads : List ThreadSummary) (threadId : String) : Option ThreadSummary :=
  threads.find? (·.id = threadId)

def fullAccessConfirmationRequired (requestedMode : Option SessionPolicyMode) (confirmed : Bool)
    (currentMode : Option SessionPolicyMode) : Bool :=
  requestedMode = some .fullAccess && currentMode ≠ some .fullAccess && !confirmed

inductive TurnAdmission where
  | accepted
  | duplicate
  | busy
  deriving DecidableEq, Repr

/-- The turn gate is a bare set of session ids. -/
abbrev TurnGate := Finset String

def TurnGate.acquire (activeSessions : TurnGate) (sessionId : String)
    (clientRequestId persistedRequestId : Option RequestId) : TurnAdmission :=
  if clientRequestId.isSome ∧ clientRequestId = persistedRequestId then .duplicate
  else if sessionId ∈ activeSessions then .busy
  else .accepted

/-- The handlers suspended at an await, with what each of them has in hand. -/
inductive Task where
  | createThread (requestId : Option RequestId) (mode : SessionPolicyMode) (confirmed : Bool)
  | createModel (id : String) (mode : SessionPolicyMode) (turn : Nat)
  | createTurn (id : String) (turn : Nat)
  | apiThreadStart (mode : SessionPolicyMode) (confirmed : Bool)
  | apiThreadModel (id : String) (mode : SessionPolicyMode) (turn : Nat)
  | apiThreadTurn (id : String) (turn : Nat)
  | patchContext (id : String) (mode : SessionPolicyMode) (confirmed : Bool)
      (existing : GatewaySession)
  | patchAudit (session : GatewaySession)
  | resumeContext (id : String) (mode : SessionPolicyMode) (confirmed stored : Bool)
  | resumeThread (id : String) (mode : SessionPolicyMode)
  | turnLookup (id : String) (requestId : Option RequestId) (mode : Option SessionPolicyMode)
      (confirmed : Bool) (receivedAt : Nat)
  | turnPrepare (id : String) (policy : SessionPolicyMode) (generation turn : Nat)
  | turnModel (id : String) (policy : SessionPolicyMode) (generation turn : Nat)
  | turnStart (id : String) (generation turn : Nat)
  | apiTurnLookup (id : String) (requestId persistedRequestId : Option RequestId)
  | apiTurnPrepare (id : String) (requestId persistedRequestId : Option RequestId)
      (thread : ThreadSummary) (turn : Nat)
  | apiTurnModel (id : String) (requestId persistedRequestId : Option RequestId)
      (thread : ThreadSummary) (turn : Nat)
  | apiTurnStart (id : String) (requestId persistedRequestId : Option RequestId)
      (thread : ThreadSummary) (turn : Nat)
  | interjectContext (id : String) (requestId : Option RequestId) (turnId : Option String)
      (stored : Bool)
  | interjectDetail (id : String) (requestId : Option RequestId) (thread : Option ThreadSummary)
  | interjectAudit (id : String) (requestId : Option RequestId) (turnId : String)
      (thread : Option ThreadSummary)
  | interjectSteer (id : String) (requestId : Option RequestId) (turnId : String)
      (thread : Option ThreadSummary)
  | interruptContext (id : String) (session : Option GatewaySession)
  | forkContext (id : String) (mode : Option SessionPolicyMode) (confirmed stored : Bool)
  | forkAudit (id : String) (mode : SessionPolicyMode) (confirmed : Bool)
  | forkThread (id : String) (mode : SessionPolicyMode) (confirmed : Bool)
  | importThread (id : String)
  | coldImport
  deriving DecidableEq, Repr

/-- What a handler finds when its awaits are over: whether they all succeeded, the thread
listing read meanwhile, the thread or turn id in the answer and the thread a fork made. -/
structure Outcome where
  ok : Bool := true
  threads : List ThreadSummary := []
  id : Option String := none
  child : Option ThreadSummary := none
  deriving DecidableEq, Repr

/-- The observable history of the gateway. Accepted top-level turns are numbered. -/
inductive GatewayEvent where
  | accepted (id : String) (turn : Nat)
  | duplicate (id : String) (requestId : Option RequestId)
  | remembered (id : String) (requestId : RequestId) (newTurn : Bool)
  | modeRequested (id : String) (mode : SessionPolicyMode) (confirmed : Bool)
  | forkRequested (parentId : String) (mode : SessionPolicyMode) (confirmed : Bool)
  | turnCompleted (id : String) (turn : Nat)
  | startFailed (id : String) (turn : Nat)
  | interrupted (id : String)
  deriving DecidableEq, Repr

structure Server where
  store : GatewayStore := .empty
  turnGate : TurnGate := ∅
  cancelledSessions : OrdMap String Unit := OrdMap.empty
  processLiveSessionIds : Finset String := ∅
  generations : OrdMap String Nat := OrdMap.empty
  subagentParents : OrdMap String String := OrdMap.empty
  policyByThread : Policies := OrdMap.empty
  tasks : List Task := []
  nextTurn : Nat := 0

namespace Server

def maxCancelledSessions : Nat := 10000
def staleAfterMs : Nat := 10*60*1000

@[simps] def release (g : Server) (id : String) : Server := { g with turnGate := g.turnGate.erase id }

@[simps] def addLive (g : Server) (id : String) : Server :=
  { g with processLiveSessionIds := insert id g.processLiveSessionIds }

@[simps] def dropLive (g : Server) (id : String) : Server :=
  { g with processLiveSessionIds := g.processLiveSessionIds.erase id }

/-- `sessionRunState.begin`, which is also its `cancel`. -/
@[simps] def beginRun (g : Server) (id : String) : Server :=
  { g with generations := g.generations.set id ((g.generations.get id).getD 0+1) }

def generation (g : Server) (id : String) : Nat := (g.generations.get id).getD 0

def isCurrent (g : Server) (id : String) (generation : Nat) : Bool :=
  g.generations.get id = some generation

def rememberPolicy (g : Server) (threadId : String) (mode : SessionPolicyMode) : Server :=
  { g with policyByThread := Bridge.rememberPolicy g.policyByThread threadId mode }

def policyMode (g : Server) (threadId : String) : SessionPolicyMode :=
  Bridge.policyMode g.policyByThread threadId

@[simps] def suspend (g : Server) (task : Task) : Server := { g with tasks := g.tasks ++ [task] }

@[simps] def upsertSession (g : Server) (session : GatewaySession) : Server :=
  { g with store := g.store.upsertSession session }

@[simps] def updateSession (g : Server) (id : String) (updater : GatewaySession → GatewaySession) :
    Server :=
  { g with store := g.store.updateSession id updater }

/-- The request id is optional: without one there is nothing to reserve or remember. -/
def reserveClientRequest (g : Server) (now : Nat) (id : String) : Option RequestId → Server × Bool
  | none => (g,true)
  | some r =>
    let (store,reserved) := g.store.reserveClientRequest now id r
    ({ g with store := store },reserved)

def releaseClientRequest (g : Server) (id : String) : Option RequestId → Server
  | none => g
  | some r => { g with store := g.store.releaseClientRequest id r }

def rememberClientRequest (g : Server) (id : String) : Option RequestId → Server
  | none => g
  | some r => { g with store := g.store.rememberClientRequest id r }

def hasClientRequest (g : Server) (id : String) : Option RequestId → Bool
  | none => false
  | some r => g.store.hasClientRequest id r

def rememberedEvents (id : String) (newTurn : Bool) : Option RequestId → List GatewayEvent
  | none => []
  | some r => [.remembered id r newTurn]

end Server

inductive MessageType where
  | sessionStarted
  | sessionPolicyChanged
  | sessionForked
  | sessionUserInput
  | sessionStatus
  | sessionFinished
  | approvalRequested
  | subagentStarted
  | subagentFinished
  deriving DecidableEq, Repr

/-- The payload fields that `broadcastGateway` looks at. -/
structure GatewayMessage where
  type : MessageType
  sessionId : String
  session : Option GatewaySession := none
  status : Option SessionStatus := none
  turnStatus : Option String := none
  parentSessionId : Option String := none
  threadId : Option String := none
  childThreadId : Option String := none
  agentThreadId : Option String := none

def inferFinishedStatus (message : GatewayMessage) : SessionStatus :=
  match message.turnStatus with
  | none => .completed
  | some status =>
    if status = "failed" ∨ status = "error" then .failed
    else if status = "cancelled" ∨ status = "interrupted" then .cancelled
    else .completed

namespace Server

def persistSubagentRelation (g : Server) (message : GatewayMessage) : Server :=
  if message.type = .subagentStarted ∨ message.type = .subagentFinished ∨
      message.type = .sessionForked then
    let parentId := message.parentSessionId.or
      (if message.type = .subagentStarted then message.threadId else none)
    let childId := message.childThreadId.or (message.agentThreadId.or
      (if message.type = .sessionForked then some message.sessionId else none))
    match parentId, childId with
    | some parentId, some childId =>
      { g with store := g.store.linkSubagent parentId childId }
    | _, _ => g
  else g

/-- A live status of a session cancelled here is dropped, any other status marks the
session live, or frees its place in the turn gate. -/
def trackSession (g : Server) (now : Nat) (message : GatewayMessage) : Server :=
  match message.session with
  | some session =>
    if g.cancelledSessions.has session.id ∧ session.status.live = true then g
    else if session.status.live = true then (g.addLive session.id).upsertSession session
    else ((g.dropLive session.id).release session.id).upsertSession session
  | none =>
    match message.type with
    | .sessionFinished =>
      ((g.dropLive message.sessionId).release message.sessionId).updateSession message.sessionId
        fun existing => { existing with
          status := inferFinishedStatus message
          activeTurnId := some none
          lastUpdatedAt := now }
    | .sessionStatus =>
      match message.status with
      | none => g
      | some status =>
        if g.cancelledSessions.has message.sessionId ∧ status.live = true then g
        else
          let g := if status.live = true then g.addLive message.sessionId
            else (g.dropLive message.sessionId).release message.sessionId
          g.updateSession message.sessionId fun existing =>
            { existing with status := status, lastUpdatedAt := now }
    | .approvalRequested =>
      g.updateSession message.sessionId fun existing =>
        { existing with status := .waitingApproval, lastUpdatedAt := now }
    | _ => g

def broadcastGateway (g : Server) (now : Nat) (message : GatewayMessage) : Server :=
  (g.persistSubagentRelation message).trackSession now message

def settleInterruptedSession (g : Server) (now : Nat) (id : String) (base : GatewaySession) :
    Server :=
  let g := g.beginRun id
  let g := { g with
    cancelledSessions := (g.cancelledSessions.set id ()).keepNewest maxCancelledSessions }
  let g := (g.dropLive id).release id
  let g := g.upsertSession
    { base with status := .cancelled, activeTurnId := some none, lastUpdatedAt := now }
  g.broadcastGateway now { type := .sessionFinished, sessionId := id }

/-- What a listing does on the way: a session that has been running for ten minutes
without news loses its place in the gate. -/
def withGatewayThreadStatus (g : Server) (now : Nat) (id : String) : Server :=
  match g.store.getSession id with
  | none => g
  | some existing =>
    if existing.status = .running ∨ existing.status = .starting then
      if id ∉ g.processLiveSessionIds then g
      else if staleAfterMs < now-existing.lastUpdatedAt then (g.dropLive id).release id
      else g
    else g

end Server

/-- The app-server notifications that change the gateway's state. `turn` is the accepted
turn a completion belongs to, if it belongs to one; the handler does not look at it. -/
inductive CodexEvent where
  | approvalRequested (threadId : String)
  | subAgentActivity (threadId kind : String) (agentThreadId : Option String)
  | threadStatusChanged (threadId : String) (status : Option String)
  | turnCompleted (threadId : String) (status : Option String) (turn : Option Nat)
  deriving DecidableEq, Repr

def CodexEvent.threadId : CodexEvent → String
  | .approvalRequested id | .subAgentActivity id _ _ | .threadStatusChanged id _
  | .turnCompleted id _ _ => id

def Server.normalizeCodexEvent (g : Server) : CodexEvent → Server × GatewayMessage
  | .approvalRequested threadId => (g,{ type := .approvalRequested, sessionId := threadId })
  | .subAgentActivity threadId kind agentThreadId =>
    let g := match agentThreadId with
      | some agent =>
        if kind = "started" then { g with subagentParents := g.subagentParents.set agent threadId }
        else g
      | none => g
    let type := if kind = "completed" ∨ kind = "stopped" ∨ kind = "failed" then
      MessageType.subagentFinished else .subagentStarted
    (g,{
      type := type
      sessionId := threadId
      threadId := some threadId
      agentThreadId := agentThreadId })
  | .threadStatusChanged threadId status =>
    let status := normalizeThreadStatus status
    if status.live = true then
      (g,{ type := .sessionStatus, sessionId := threadId, status := some status })
    else
      match (g.subagentParents.get threadId).or (g.store.getSubagentParent threadId) with
      | some parent =>
        ({ g with subagentParents := g.subagentParents.erase threadId },
          { type := .subagentFinished
            sessionId := parent
            threadId := some parent
            childThreadId := some threadId
            status := some status })
      | none =>
        -- the payload's `turn` repeats the status
        (g,{
          type := .sessionFinished
          sessionId := threadId
          status := some status
          turnStatus := some (if status = .failed then "failed"
            else if status = .cancelled then "cancelled" else "completed") })
  | .turnCompleted threadId status _ =>
    (g,{ type := .sessionFinished, sessionId := threadId, turnStatus := status })

end CodeHarbor.Gateway
