import CodeHarbor.Lib.Run
import CodeHarbor.Lib.OrdMap
set_option autoImplicit false

namespace CodeHarbor.Bridge
open Lib

inductive SessionPolicyMode where
  | confirm
  | fullAccess
  deriving DecidableEq, Repr

abbrev Policies := OrdMap String SessionPolicyMode

def maxPolicyEntries : Nat := 10000
def maxPendingApprovals : Nat := 256
def maxPendingRequests : Nat := 1024

/-- The thread becomes the newest entry; beyond the bound the oldest ones are forgotten. -/
def rememberPolicy (policies : Policies) (threadId : String) (mode : SessionPolicyMode) :
    Policies :=
  ((policies.erase threadId).set threadId mode).keepNewest maxPolicyEntries

def policyMode (policies : Policies) (threadId : String) : SessionPolicyMode :=
  (policies.get threadId).getD .confirm

theorem get_rememberPolicy_self (policies : Policies) (threadId : String)
    (mode : SessionPolicyMode) :
    (rememberPolicy policies threadId mode).get threadId = some mode := by
  apply OrdMap.get_keepNewest_set_new (by decide)
  simp [OrdMap.get_erase]

theorem get_of_get_rememberPolicy {policies : Policies} {threadId other : String}
    {mode found : SessionPolicyMode} (hne : other ≠ threadId)
    (h : (rememberPolicy policies threadId mode).get other = some found) :
    policies.get other = some found := by
  have hset := OrdMap.get_of_get_keepNewest h
  rw [OrdMap.get_set,if_neg hne,OrdMap.get_erase,if_neg hne] at hset
  exact hset

/-- JSON-RPC ids are numbers or strings; a number is kept in its printed form, so the two
kinds differ as ids but print alike. -/
inductive RpcId where
  | num (text : String)
  | str (text : String)
  deriving DecidableEq, Repr

def RpcId.key : RpcId → String
  | .num text | .str text => text

inductive Method where
  | commandExecutionApproval
  | fileChangeApproval
  | execCommandApproval
  | applyPatchApproval
  | requestUserInput
  | other (name : String)
  deriving DecidableEq, Repr

def Method.isApprovalRequest : Method → Bool
  | .other _ => false
  | _ => true

inductive Decision where
  | approve
  | deny
  deriving DecidableEq, Repr

structure ApprovalDecision where
  decision : Decision
  execpolicyAmendment : List String := []
  deriving DecidableEq, Repr

inductive RpcResult where
  | decision (text : String)
  | acceptWithExecpolicyAmendment (rules : List String)
  | answers (given : Bool)
  | null
  deriving DecidableEq, Repr

def RpcResult.accepting : RpcResult → Bool
  | .decision text => text = "accept" || text = "approved_for_session"
  | .acceptWithExecpolicyAmendment _ => true
  | .answers given => given
  | .null => false

def approvalResult (method : Method) (d : ApprovalDecision) : RpcResult :=
  if method = .requestUserInput then .answers (d.decision = .approve)
  else if d.decision = .approve ∧ d.execpolicyAmendment ≠ [] then
    .acceptWithExecpolicyAmendment d.execpolicyAmendment
  else if method = .execCommandApproval ∨ method = .applyPatchApproval then
    .decision (if d.decision = .approve then "approved_for_session" else "cancel")
  else .decision (if d.decision = .approve then "accept" else "cancel")

def autoResult : Method → RpcResult
  | .commandExecutionApproval | .fileChangeApproval => .decision "accept"
  | .execCommandApproval | .applyPatchApproval => .decision "approved_for_session"
  | .requestUserInput => .answers true
  | .other _ => .null

/-- A line from the app-server. A `method` that is no string reads as absent. -/
structure Message where
  id : Option RpcId := none
  method : Option Method := none
  threadId : Option String := none
  turnId : Option String := none
  deriving DecidableEq, Repr

/-- A request of the app-server, numbered in order of arrival; `pid` is the process whose
output it was read from. -/
structure ServerRequest where
  serial : Nat
  pid : Nat
  id : RpcId
  method : Method
  threadId : Option String
  turnId : Option String
  deriving DecidableEq, Repr

/-- The empty text counts as missing, as in the source's truth tests. -/
def present (text : Option String) : Option String := text.filter (· ≠ "")

def ServerRequest.thread (q : ServerRequest) : Option String := present q.threadId

def ServerRequest.mode (q : ServerRequest) (policies : Policies) : SessionPolicyMode :=
  match q.thread with
  | some threadId => policyMode policies threadId
  | none => .confirm

/-- Where `handleServerRequest` is suspended: at its first or second audit record, at the
approval promise, or behind that promise with the result in hand. -/
inductive Stage where
  | auditRequest
  | auditApproval
  | waiting
  | decided (result : RpcResult)
  deriving DecidableEq, Repr

structure Handler where
  request : ServerRequest
  stage : Stage
  deriving DecidableEq, Repr

structure PendingApproval where
  threadId : String
  turnId : Option String
  method : Method
  serial : Nat
  deriving DecidableEq, Repr

structure Child where
  pid : Nat
  killed : Bool := false
  writable : Bool := true
  deriving DecidableEq, Repr

def Child.kill (child : Child) : Child := { child with killed := true }

def Child.close (child : Child) : Child := { child with writable := false }

structure CodexBridge where
  child : Option Child := none
  nextPid : Nat := 0
  nextId : Nat := 1
  pending : OrdMap RpcId String := OrdMap.empty
  pendingApprovals : OrdMap String PendingApproval := OrdMap.empty
  policyByThread : Policies := OrdMap.empty
  handlers : List Handler := []
  nextSerial : Nat := 0
  deriving DecidableEq, Repr

inductive Cause where
  | message (hasMethod : Bool)
  | timeout
  | rejected
  deriving DecidableEq, Repr

inductive Outcome where
  | result (r : RpcResult)
  | internalError
  deriving DecidableEq, Repr

/-- The observable history of the bridge. Server requests are named by their serial. -/
inductive BridgeEvent where
  | sent (id : RpcId)
  | settled (id : RpcId) (cause : Cause)
  | received (q : ServerRequest)
  | handled (serial : Nat) (mode : SessionPolicyMode)
  | announced (serial : Nat)
  | denied (serial : Nat)
  | resolved (serial : Nat) (decision : Decision) (threadId : String) (turnId : Option String)
  | wrote (pid serial : Nat) (id : RpcId) (outcome : Outcome)
  | dropped (serial : Nat)
  deriving DecidableEq, Repr

def CodexBridge.target (b : CodexBridge) : Option Nat :=
  match b.child with
  | some child => if child.killed = false ∧ child.writable = true then some child.pid else none
  | none => none

def Handler.moveTo (serial : Nat) (stage : Stage) (h : Handler) : Handler :=
  if h.request.serial = serial then { h with stage := stage } else h

def CodexBridge.setStage (b : CodexBridge) (serial : Nat) (stage : Stage) : CodexBridge :=
  { b with handlers := b.handlers.map (Handler.moveTo serial stage) }

def CodexBridge.dropHandler (b : CodexBridge) (serial : Nat) : CodexBridge :=
  { b with handlers := b.handlers.filter (·.request.serial ≠ serial) }

/-- The handler's last write. When the pipe is closed it throws, and so does the error
report behind it. -/
def CodexBridge.finish (b : CodexBridge) (q : ServerRequest) (outcome : Outcome) :
    CodexBridge × List BridgeEvent :=
  match b.target with
  | some pid => (b.dropHandler q.serial,[.wrote pid q.serial q.id outcome])
  | none => (b.dropHandler q.serial,[.dropped q.serial])

def CodexBridge.handleMessage (b : CodexBridge) (pid : Nat) (m : Message) : CodexBridge × List BridgeEvent :=
  match m.id with
  | none => (b,[])
  | some id =>
    if b.pending.has id then
      ({ b with pending := b.pending.erase id },[.settled id (.message m.method.isSome)])
    else
      match m.method with
      | none => (b,[])
      | some method =>
        let q : ServerRequest := ⟨b.nextSerial,pid,id,method,m.threadId,m.turnId⟩
        ({ b with
            handlers := b.handlers ++ [⟨q,.auditRequest⟩]
            nextSerial := b.nextSerial+1 },[.received q])

/-- Behind the first audit record: read the remembered mode and branch on it. -/
def CodexBridge.afterRequestAudit (b : CodexBridge) (q : ServerRequest) : CodexBridge × List BridgeEvent :=
  let mode := q.mode b.policyByThread
  if mode = .confirm ∧ q.method.isApprovalRequest then
    match q.thread with
    | none =>
      let done := b.finish q (.result (approvalResult q.method { decision := .deny }))
      (done.1,.handled q.serial mode :: .denied q.serial :: done.2)
    | some _ => (b.setStage q.serial .auditApproval,[.handled q.serial mode])
  else
    let done := b.finish q (.result (autoResult q.method))
    (done.1,.handled q.serial mode :: done.2)

/-- Behind the second audit record: announce, then register under the printed id, which
displaces an entry of the same print. -/
def CodexBridge.afterApprovalAudit (b : CodexBridge) (q : ServerRequest) : CodexBridge × List BridgeEvent :=
  if maxPendingApprovals ≤ b.pendingApprovals.size then
    let done := b.finish q (.result (approvalResult q.method { decision := .deny }))
    (done.1,.announced q.serial :: .denied q.serial :: done.2)
  else
    let entry : PendingApproval := ⟨q.thread.getD "",q.turnId,q.method,q.serial⟩
    let b := { b with pendingApprovals := b.pendingApprovals.set q.id.key entry }
    (b.setStage q.serial .waiting,[.announced q.serial])

/-- A handler whose approval is on the list is denied. -/
def Handler.reject (approvals : List PendingApproval) (h : Handler) : Handler :=
  match approvals.find? (·.serial = h.request.serial) with
  | some a => { h with stage := .decided (approvalResult a.method { decision := .deny }) }
  | none => h

def CodexBridge.rejectAll (b : CodexBridge) : CodexBridge × List BridgeEvent :=
  let approvals := b.pendingApprovals.entries.map Prod.snd
  ({ b with
      pending := OrdMap.empty
      pendingApprovals := OrdMap.empty
      handlers := b.handlers.map (Handler.reject approvals) },
    b.pending.entries.map (fun e => .settled e.1 .rejected) ++
      approvals.map (fun a => .denied a.serial))

/-- `threadId` comes from a validated route parameter and is never empty. -/
def CodexBridge.resolveApproval (b : CodexBridge) (requestId : String) (d : ApprovalDecision)
    (threadId : String) (turnId : Option String) : CodexBridge × List BridgeEvent :=
  match b.pendingApprovals.get requestId with
  | none => (b,[])
  | some a =>
    if a.threadId ≠ threadId then (b,[])
    else if present a.turnId = none ∨ a.turnId ≠ turnId then (b,[])
    else
      let b := { b with pendingApprovals := b.pendingApprovals.erase requestId }
      (b.setStage a.serial (.decided (approvalResult a.method d)),
        [.resolved a.serial d.decision threadId turnId])

inductive BridgeInput where
  | spawn
  | exit
  | stdinError
  | stdinClosed
  | outputLimit
  | shutdown
  | setPolicy (threadId : String) (mode : SessionPolicyMode)
  | sendRequest (method : String)
  | timeout (id : RpcId)
  | message (pid : Nat) (m : Message)
  | auditDone (serial : Nat) (ok : Bool)
  | approvalTimeout (serial : Nat)
  | resolveApproval (requestId : String) (d : ApprovalDecision) (threadId : String)
      (turnId : Option String)
  | proceed (serial : Nat)
  deriving DecidableEq, Repr

def CodexBridge.handler (b : CodexBridge) (serial : Nat) : Option Handler :=
  b.handlers.find? (·.request.serial = serial)

/-- The audit record of a suspended handler was written, or could not be. -/
def CodexBridge.auditDone (b : CodexBridge) (serial : Nat) (ok : Bool) : CodexBridge × List BridgeEvent :=
  match b.handler serial with
  | none => (b,[])
  | some h =>
    match h.stage with
    | .auditRequest =>
      if ok then b.afterRequestAudit h.request else b.finish h.request .internalError
    | .auditApproval =>
      if ok then b.afterApprovalAudit h.request else b.finish h.request .internalError
    | _ => (b,[])

/-- The ten-minute timer deletes whatever entry now has the printed id. -/
def CodexBridge.approvalTimeout (b : CodexBridge) (serial : Nat) : CodexBridge × List BridgeEvent :=
  match b.handler serial with
  | none => (b,[])
  | some h =>
    match h.stage with
    | .waiting =>
      let b := { b with pendingApprovals := b.pendingApprovals.erase h.request.id.key }
      (b.setStage serial (.decided (approvalResult h.request.method { decision := .deny })),
        [.denied serial])
    | _ => (b,[])

def CodexBridge.proceed (b : CodexBridge) (serial : Nat) : CodexBridge × List BridgeEvent :=
  match b.handler serial with
  | none => (b,[])
  | some h =>
    match h.stage with
    | .decided result => b.finish h.request (.result result)
    | _ => (b,[])

def CodexBridge.sendRequest (b : CodexBridge) (method : String) : CodexBridge × List BridgeEvent :=
  if b.target = none ∨ maxPendingRequests ≤ b.pending.size then (b,[])
  else
    let id := RpcId.num (toString b.nextId)
    ({ b with nextId := b.nextId+1, pending := b.pending.set id method },[.sent id])

def CodexBridge.step (b : CodexBridge) : BridgeInput → CodexBridge × List BridgeEvent
  | .spawn =>
    match b.child with
    | some child =>
      if child.killed then
        ({ b with child := some ⟨b.nextPid,false,true⟩, nextPid := b.nextPid+1 },[])
      else (b,[])
    | none => ({ b with child := some ⟨b.nextPid,false,true⟩, nextPid := b.nextPid+1 },[])
  | .exit => { b with child := none }.rejectAll
  | .stdinError => b.rejectAll
  | .stdinClosed => ({ b with child := b.child.map Child.close },[])
  | .outputLimit => { b with child := b.child.map Child.kill }.rejectAll
  | .shutdown => { b with child := none }.rejectAll
  | .setPolicy threadId mode =>
    ({ b with policyByThread := rememberPolicy b.policyByThread threadId mode },[])
  | .sendRequest method => b.sendRequest method
  | .timeout id =>
    if b.pending.has id then ({ b with pending := b.pending.erase id },[.settled id .timeout])
    else (b,[])
  | .message pid m => b.handleMessage pid m
  | .auditDone serial ok => b.auditDone serial ok
  | .approvalTimeout serial => b.approvalTimeout serial
  | .resolveApproval requestId d threadId turnId =>
    if threadId = "" then (b,[]) else b.resolveApproval requestId d threadId turnId
  | .proceed serial => b.proceed serial

def bridge : Machine CodexBridge BridgeInput BridgeEvent where
  init b := b = {}
  step b i := b.step i

end CodeHarbor.Bridge
