import CodeHarbor.Lib.JsValue
set_option autoImplicit false

namespace CodeHarbor.App
open Lib.Js

/-! The transcript of a session: `applyLiveEventToTurns` folds one gateway event into the
rows, and `aggregateEventsToTurns` folds a history. A result of `none` is an exception. -/

inductive EventType where
  | sessionStarted
  | sessionUserInput
  | sessionStatus
  | sessionFinished
  | approvalRequested
  | approvalResolved
  | approvalExpired
  | subagentStarted
  | subagentTool
  | subagentFinished
  | sessionOutput
  | other (name : JsText)
  deriving DecidableEq, Repr

/-- The fields of a gateway event that the transcript reads. `moment` is what the clock and
the random digits give while the event is handled; it is held fixed, so that an event
makes the same rows whenever it is folded in. -/
structure EventMessage where
  type : EventType
  moment : Moment
  sessionId : Value := .undefined
  requestId : Value := .undefined
  payload : Value := .undefined
  timestamp : Value := .undefined

/-- The fields of a listed session that the transcript reads. -/
structure Session where
  id : JsText
  prompt : Value := .undefined
  createdAt : Value := .undefined
  startedAt : Value := .undefined
  status : Value := .undefined

inductive AssistantStatus where
  | idle
  | streaming
  | waitingApproval
  | completed
  | cancelled
  | failed
  deriving DecidableEq, Repr

inductive ApprovalStatus where
  | pending
  | approved
  | denied
  | expired
  deriving DecidableEq, Repr

inductive ApprovalDecision where
  | approve
  | deny
  deriving DecidableEq, Repr

structure ApprovalRequest where
  requestId : Value
  sessionId : Value
  requestMethod : Value
  turnId : Value
  itemId : Value
  summary : Value
  command : Value
  cwd : Value
  expiresAt : Value
  proposedExecpolicyAmendment : Option (List JsText)
  status : ApprovalStatus
  decision : Option ApprovalDecision := none
  createdAt : Value
  resolvedAt : Value := .undefined
  rawParams : Value

structure ToolCommandExecution where
  id : Value
  command : Value
  cwd : Value := .undefined
  aggregatedOutput : Value
  exitCode : Value := .undefined
  status : Value
  durationMs : Value := .undefined

structure ToolFileChange where
  id : JsText
  path : Value
  kind : Value
  diff : Value
  status : Value

structure SubAgentActivity where
  agentThreadId : Value
  agentPath : Value := .undefined
  kind : String
  status : Value
  toolCall : Value := .undefined

inductive ToolItem where
  | commandExecution (tool : ToolCommandExecution)
  | fileChange (tool : ToolFileChange)
  | subAgentActivity (tool : SubAgentActivity)

structure TokenUsage where
  totalTokens : Value
  inputTokens : Value
  outputTokens : Value
  reasoningOutputTokens : Value

structure TurnMessage where
  turnId : Value
  sessionId : Value
  clientRequestId : Option JsText := none
  userPrompt : Value
  userAttachments : Value := .arr []
  userTime : Value := .undefined
  isInterjection : Option Bool := none
  assistantStatus : AssistantStatus := .idle
  reasoning : JsText := []
  reasoningSummary : List Value := []
  reasoningCompleted : Bool := false
  text : Value := .str []
  tools : List ToolItem := []
  diffs : List JsText := []
  tokenUsage : Option TokenUsage := none
  approvals : List ApprovalRequest := []
  startedAt : JsText
  completedAt : Value := .undefined

def tryParseJson (rt : Runtime) : Value → Value
  | .str s => if s = [] then .str s else (rt.parseJson s).getD .null
  | v => v

def asRecord : Value → Value
  | .obj members => .obj members
  | _ => .undefined

/-- `asRecord(v) || asRecord(tryParseJson(v))`. -/
def recordOf (rt : Runtime) (v : Value) : Value := (asRecord v).or (asRecord (tryParseJson rt v))

/-- The envelope levels of a payload: `params` and, in it, `params`. -/
def payloadParams (rt : Runtime) (payload : Value) : Value := recordOf rt (payload.get "params")

def payloadInnerParams (rt : Runtime) (payload : Value) : Value :=
  let nested := payloadParams rt payload
  if nested.truthy then recordOf rt (nested.get "params") else .undefined

/-- `read` of `approvalEnvelope`: the first level that has the key. -/
def approvalRead (rt : Runtime) (payload : Value) (key : String) : Value :=
  let sources := [payload,payloadParams rt payload,payloadInnerParams rt payload].filter Value.truthy
  ((sources.find? (fun source => !(source.get key).strictEq .undefined)).map (·.get key)).getD .undefined

/-- Among the words compared, only the letters A to Z have a lower case. -/
def lowerUnit (u : UInt16) : UInt16 := if 0x41 ≤ u.toNat && u.toNat ≤ 0x5a then u+0x20 else u

def normalizedApprovalDecision (value : Value) : ApprovalDecision :=
  let decision := ((value.text?).getD []).map lowerUnit
  if decision ∈ ["approve","approved","accept","accepted","allow","allowed","approved_for_session"].map
      ofString then .approve
  else .deny

def createEmptyTurn (rt : Runtime) (turnId sessionId prompt : Value) : TurnMessage :=
  { turnId := turnId, sessionId := sessionId, userPrompt := prompt, startedAt := rt.isoNow }

def TurnMessage.clone (turn : TurnMessage) : Option TurnMessage :=
  if turn.userAttachments.truthy then
    turn.userAttachments.spread.map (fun items => { turn with userAttachments := .arr items })
  else some { turn with userAttachments := .arr [] }

def eventPayload (event : EventMessage) : Value := event.payload.or (.obj [])

def currentSessionId (rt : Runtime) (event : EventMessage) (session : Option Session) : Value :=
  let payload := eventPayload event
  let params := payloadParams rt payload
  let inner := payloadInnerParams rt payload
  let own := (event.sessionId.or (payload.get "sessionId")).or (payload.get "threadId")
  let nested := (own.or (params.get "sessionId")).or (params.get "threadId")
  let innermost := (nested.or (inner.get "sessionId")).or (inner.get "threadId")
  innermost.or (.str ((session.map (·.id)).getD []))

/-- The one row before Codex has named a turn. -/
def TurnMessage.placeholder (turn : TurnMessage) : Bool :=
  (turn.turnId.is "turn-0" || turn.turnId.is "initial-turn") && !turn.text.truthy && turn.tools.isEmpty

def TurnMessage.awaiting (sessionId fallbackPrompt : Value) (turn : TurnMessage) : Bool :=
  turn.sessionId.strictEq sessionId &&
    (turn.assistantStatus = .streaming || turn.assistantStatus = .waitingApproval) &&
    !turn.text.truthy && turn.tools.isEmpty && (turn.userPrompt.truthy || fallbackPrompt.truthy)

def TurnMessage.adopt (tid fallbackPrompt : Value) (turn : TurnMessage) : TurnMessage :=
  { turn with
    turnId := tid
    userPrompt := if fallbackPrompt.truthy && !turn.userPrompt.truthy then fallbackPrompt
      else turn.userPrompt }

def lastIndex (p : TurnMessage → Bool) (turns : List TurnMessage) : Option Nat :=
  (turns.reverse.findIdx? p).map (turns.length-1-·)

/-- The id for an event that names no turn. It finds the newest turn again when it is a text or a
number; by `strictEq` an object does not, which in the source is the same reference. -/
def newestTurnId (rt : Runtime) (turns : List TurnMessage) : Value :=
  (turns.getLast?.map (·.turnId)).getD (.str (ofString "turn-" ++ rt.now))

def getOrCreateTurn (rt : Runtime) (sessionId : Value) (turns : List TurnMessage)
    (targetTurnId fallbackPrompt : Value) : List TurnMessage × Nat :=
  let tid := targetTurnId.or (newestTurnId rt turns)
  if turns.length = 1 ∧ turns.all TurnMessage.placeholder = true then
    (turns.map (TurnMessage.adopt tid fallbackPrompt),0)
  else
    match turns.findIdx? (fun turn => turn.turnId.strictEq tid) with
    | some index => (turns,index)
    | none =>
      -- the prompt was accepted before the turn had its id
      match lastIndex (TurnMessage.awaiting sessionId fallbackPrompt) turns with
      | some index => (turns.modify index (TurnMessage.adopt tid fallbackPrompt),index)
      | none => (turns ++ [createEmptyTurn rt tid sessionId fallbackPrompt],turns.length)

def onTurn (rt : Runtime) (sessionId : Value) (turns : List TurnMessage) (turnId : Value)
    (f : TurnMessage → TurnMessage) : List TurnMessage :=
  let target := getOrCreateTurn rt sessionId turns turnId (.str [])
  target.1.modify target.2 f

def eventTime (rt : Runtime) (event : EventMessage) : Value := event.timestamp.or (.str rt.isoNow)

def applySessionStarted (rt : Runtime) (event : EventMessage) (sessionId : Value)
    (turns : List TurnMessage) : List TurnMessage :=
  let started := ((eventPayload event).get "session").or (.obj [])
  let prompt := started.get "prompt"
  if prompt.truthy && turns.isEmpty then
    let target := getOrCreateTurn rt sessionId turns (.lit "turn-0") prompt
    target.1.modify target.2 (fun turn => { turn with
      userTime := event.timestamp.or (started.get "createdAt")
      assistantStatus := .streaming })
  else turns

/-- The row that already shows the prompt. -/
def TurnMessage.sameInput (clientRequestId : Option JsText) (prompt : JsText) (sessionId : Value)
    (turn : TurnMessage) : Bool :=
  match clientRequestId.filter (· ≠ []) with
  | some id => turn.clientRequestId = some id
  | none => turn.userPrompt.strictEq (.str prompt) && turn.assistantStatus = .streaming &&
      turn.sessionId.strictEq sessionId

def TurnMessage.fillInput (clientRequestId : Option JsText) (prompt : JsText) (attachments : Value)
    (turn : TurnMessage) : TurnMessage :=
  { turn with
    clientRequestId := (clientRequestId.filter (· ≠ [])).or turn.clientRequestId
    userPrompt := if !turn.userPrompt.truthy && prompt ≠ [] then .str prompt else turn.userPrompt
    userAttachments :=
      if attachments.items?.isSome && ((turn.userAttachments.items?).getD []).isEmpty then attachments
      else turn.userAttachments }

def inputTurn (rt : Runtime) (event : EventMessage) (sessionId : Value) : TurnMessage :=
  let payload := eventPayload event
  let prompt := ((payload.get "prompt").text?).getD []
  let generated : Value := .str (ofString "turn-" ++ rt.now ++ ofString "-" ++ rt.random)
  { createEmptyTurn rt ((payload.get "turnId").or generated) sessionId (.str prompt) with
    clientRequestId := (payload.get "clientRequestId").text?
    userAttachments := (payload.get "attachments").or (.arr [])
    userTime := eventTime rt event
    isInterjection := some ((payload.get "kind").is "interjection")
    assistantStatus := .streaming }

def applySessionUserInput (rt : Runtime) (event : EventMessage) (sessionId : Value)
    (turns : List TurnMessage) : List TurnMessage :=
  let payload := eventPayload event
  let clientRequestId := (payload.get "clientRequestId").text?
  let prompt := ((payload.get "prompt").text?).getD []
  let same := TurnMessage.sameInput clientRequestId prompt sessionId
  if turns.any same then
    modifyFirst same (TurnMessage.fillInput clientRequestId prompt (payload.get "attachments")) turns
  else turns ++ [inputTurn rt event sessionId]

def modifyNewest (f : TurnMessage → TurnMessage) (turns : List TurnMessage) : List TurnMessage :=
  turns.modify (turns.length-1) f

def applySessionStatus (rt : Runtime) (event : EventMessage) (turns : List TurnMessage) :
    List TurnMessage :=
  let payload := eventPayload event
  let st := (payload.get "status").or ((payload.get "turn").get "status")
  let close (status : AssistantStatus) (turn : TurnMessage) : TurnMessage :=
    { turn with assistantStatus := status, completedAt := eventTime rt event }
  modifyNewest (fun newest =>
    if st.is "running" then
      if newest.assistantStatus = .idle then { newest with assistantStatus := .streaming } else newest
    else if st.is "waiting-approval" then { newest with assistantStatus := .waitingApproval }
    else if st.is "completed" then close .completed newest
    else if st.is "cancelled" then close .cancelled newest
    else if st.is "failed" then close .failed newest
    else newest) turns

/-- The text of the first message among the items of a finished turn that has one, for a
row without text. -/
def finishedText : Value → List Value → Option Value
  | text, [] => some text
  | text, item :: items => do
    let type ← item.read "type"
    let message := item.get "text"
    let text := if type.is "agentMessage" && message.truthy && !text.truthy then message else text
    finishedText text items

def applySessionFinished (rt : Runtime) (event : EventMessage) (turns : List TurnMessage) :
    Option (List TurnMessage) :=
  match turns.getLast? with
  | none => some turns
  | some newest => do
    let payload := eventPayload event
    let finished := payload.get "turn"
    let status := (finished.get "status").or (payload.get "status")
    let text ← finishedText newest.text (((finished.get "items").items?).getD [])
    let outcome : AssistantStatus :=
      if status.is "cancelled" then .cancelled else if status.is "failed" then .failed else .completed
    return modifyNewest (fun turn => { turn with
      assistantStatus := outcome
      completedAt := eventTime rt event
      text := text }) turns

def applyApprovalRequested (rt : Runtime) (event : EventMessage) (sessionId : Value)
    (turns : List TurnMessage) : List TurnMessage :=
  let payload := eventPayload event
  let read := approvalRead rt payload
  let turnId := (read "turnId").ifText
  let requestId := event.requestId.or ((read "requestId").ifText.coalesce (.str rt.now))
  let proposed := (read "proposedExecpolicyAmendment").coalesce (read "execpolicyAmendment")
  let amendmentValue := if proposed.text?.isSome then tryParseJson rt proposed else proposed
  let request : ApprovalRequest :=
    { requestId := requestId
      sessionId := sessionId
      requestMethod := (read "requestMethod").ifText.coalesce (.lit "item/commandExecution/requestApproval")
      turnId := turnId
      itemId := (read "itemId").ifText
      summary := (read "summary").ifText
      command := (read "command").ifText
      cwd := (read "cwd").ifText
      expiresAt := (read "expiresAt").ifText
      proposedExecpolicyAmendment := amendmentValue.items?.map (·.filterMap Value.text?)
      status := .pending
      createdAt := eventTime rt event
      rawParams := (payloadParams rt payload).or payload }
  let same (a : ApprovalRequest) : Bool := a.requestId.strictEq requestId
  -- the assignment keeps the fields that a new request does not have
  let renew (a : ApprovalRequest) : ApprovalRequest :=
    { request with decision := a.decision, resolvedAt := a.resolvedAt }
  onTurn rt sessionId turns turnId (fun turn => { turn with
    approvals := if turn.approvals.any same then modifyFirst same renew turn.approvals
      else turn.approvals ++ [request]
    assistantStatus := .waitingApproval })

def closeApproval (requestId : Value) (close : ApprovalRequest → ApprovalRequest)
    (turns : List TurnMessage) : List TurnMessage :=
  let same (a : ApprovalRequest) : Bool := a.requestId.strictEq requestId
  turns.map (fun turn =>
    if turn.approvals.any same then
      { turn with
        approvals := modifyFirst same close turn.approvals
        assistantStatus :=
          if turn.assistantStatus = .waitingApproval then .streaming else turn.assistantStatus }
    else turn)

def applyApprovalResolved (rt : Runtime) (event : EventMessage) (turns : List TurnMessage) :
    List TurnMessage :=
  let payload := eventPayload event
  let record := asRecord (payload.get "approval")
  let requestId := (approvalRead rt payload "requestId").ifText.coalesce
    ((record.get "requestId").ifText.coalesce (record.get "id").ifText)
  if requestId.truthy then
    let decision := normalizedApprovalDecision (((payload.get "decision").coalesce
      (approvalRead rt payload "decision")).coalesce (record.get "decision"))
    closeApproval requestId (fun request => { request with
      status := if decision = .approve then .approved else .denied
      decision := some decision
      resolvedAt := eventTime rt event }) turns
  else turns

def applyApprovalExpired (rt : Runtime) (event : EventMessage) (turns : List TurnMessage) :
    List TurnMessage :=
  let requestId := event.requestId.or (approvalRead rt (eventPayload event) "requestId").ifText
  if requestId.text?.isSome then
    closeApproval requestId (fun request => { request with
      status := .expired
      resolvedAt := eventTime rt event }) turns
  else turns

def applySubagentStarted (rt : Runtime) (event : EventMessage) (sessionId : Value)
    (turns : List TurnMessage) : List TurnMessage :=
  let payload := eventPayload event
  let activity := (payload.get "activity").or (.obj [])
  let agentThreadId := (activity.get "agentThreadId").or (payload.get "threadId")
  let same : ToolItem → Bool
    | .subAgentActivity tool => tool.agentThreadId.strictEq agentThreadId
    | _ => false
  let restart : ToolItem → ToolItem
    | .subAgentActivity tool => .subAgentActivity { tool with
        agentPath := (activity.get "agentPath").or tool.agentPath
        kind := "started"
        status := .lit "running" }
    | tool => tool
  let started : SubAgentActivity :=
    { agentThreadId := agentThreadId
      agentPath := activity.get "agentPath"
      kind := "started"
      status := .lit "running" }
  onTurn rt sessionId turns (payload.get "turnId") (fun turn => { turn with
    tools := if turn.tools.any same then modifyFirst same restart turn.tools
      else turn.tools ++ [.subAgentActivity started] })

def applySubagentTool (rt : Runtime) (event : EventMessage) (sessionId : Value)
    (turns : List TurnMessage) : List TurnMessage :=
  let payload := eventPayload event
  let toolCall := (payload.get "toolCall").or (.obj [])
  let agentThreadId := (toolCall.get "senderThreadId").or (payload.get "threadId")
  let toolCallId := (toolCall.get "id").or (toolCall.get "callId")
  let same : ToolItem → Bool
    | .subAgentActivity tool => tool.agentThreadId.strictEq agentThreadId && toolCallId.truthy &&
        ((tool.toolCall.get "id").strictEq toolCallId || (tool.toolCall.get "callId").strictEq toolCallId)
    | _ => false
  let update : ToolItem → ToolItem
    | .subAgentActivity tool => .subAgentActivity { tool with
        toolCall := toolCall
        status := (toolCall.get "status").or tool.status }
    | tool => tool
  let called : SubAgentActivity :=
    { agentThreadId := agentThreadId, kind := "toolCall", status := .lit "running", toolCall := toolCall }
  onTurn rt sessionId turns (payload.get "turnId") (fun turn => { turn with
    tools := if turn.tools.any same then modifyFirst same update turn.tools
      else turn.tools ++ [.subAgentActivity called] })

def applySubagentFinished (rt : Runtime) (event : EventMessage) (sessionId : Value)
    (turns : List TurnMessage) : List TurnMessage :=
  let payload := eventPayload event
  let childThreadId := (payload.get "childThreadId").or ((payload.get "activity").get "agentThreadId")
  let finish : ToolItem → ToolItem
    | .subAgentActivity tool =>
      if tool.agentThreadId.strictEq childThreadId then
        .subAgentActivity { tool with
          kind := "completed"
          status := (payload.get "status").or (.lit "completed") }
      else .subAgentActivity tool
    | tool => tool
  onTurn rt sessionId turns (payload.get "turnId") (fun turn => { turn with
    tools := turn.tools.map finish })

def ToolItem.runningCommand : ToolItem → Bool
  | .commandExecution tool => tool.status.is "running"
  | _ => false

def ToolItem.commandWithId (id : Value) : ToolItem → Bool
  | .commandExecution tool => tool.id.strictEq id
  | _ => false

def ToolItem.mapCommand (f : ToolCommandExecution → ToolCommandExecution) : ToolItem → ToolItem
  | .commandExecution tool => .commandExecution (f tool)
  | tool => tool

def ToolItem.mapCommandM (f : ToolCommandExecution → Option ToolCommandExecution) :
    ToolItem → Option ToolItem
  | .commandExecution tool => (f tool).map .commandExecution
  | tool => some tool

def modifyFirstM {α : Type} (p : α → Bool) (f : α → Option α) : List α → Option (List α)
  | [] => some []
  | x :: xs => if p x then (f x).map (· :: xs) else (modifyFirstM p f xs).map (x :: ·)

def outputDelta (rt : Runtime) (payload jsonPayload : Value) (turn : TurnMessage) : Option TurnMessage := do
  let chunk := ((payload.get "chunk").text?).getD []
  let itemId := (payload.get "itemId").ifText.coalesce (jsonPayload.get "itemId").ifText
  let extend (tool : ToolCommandExecution) : Option ToolCommandExecution := do
    let old ← rt.textOf (tool.aggregatedOutput.or (.str []))
    return { tool with aggregatedOutput := .str (old ++ chunk), status := .lit "running" }
  if itemId.truthy && turn.tools.any (ToolItem.commandWithId itemId) then
    let tools ← modifyFirstM (ToolItem.commandWithId itemId) (ToolItem.mapCommandM extend) turn.tools
    return { turn with tools := tools }
  else if turn.tools.any ToolItem.runningCommand then
    let tools ← modifyFirstM ToolItem.runningCommand (ToolItem.mapCommandM extend) turn.tools.reverse
    return { turn with tools := tools.reverse }
  else
    let generated : Value := .str (ofString "cmd-" ++ rt.now)
    let command : ToolCommandExecution :=
      { id := (payload.get "itemId").ifText.coalesce
          (((jsonPayload.get "item").get "id").ifText.coalesce generated)
        command := .lit "正在执行命令..."
        aggregatedOutput := .str chunk
        status := .lit "running" }
    return { turn with tools := turn.tools ++ [.commandExecution command] }

def contentTexts (content : List Value) : List Value :=
  (content.map (fun part => if part.text?.isSome then part else (part.get "text").or (.str []))).filter
    Value.truthy

def contentText (rt : Runtime) (item : Value) (otherwise : JsText) : Option JsText :=
  match (item.get "content").items? with
  | some content => rt.join (ofString "\n") (contentTexts content)
  | none => some otherwise

def completedUserMessage (rt : Runtime) (item : Value) (turn : TurnMessage) : Option TurnMessage := do
  let userText ← contentText rt item (((item.get "text").text?).getD [])
  return if userText ≠ [] && !turn.userPrompt.truthy then { turn with userPrompt := .str userText }
    else turn

def completedReasoning (rt : Runtime) (item : Value) (turn : TurnMessage) : Option TurnMessage := do
  let reasoning ← contentText rt item []
  return { turn with
    reasoningCompleted := true
    reasoningSummary :=
      match (item.get "summary").items? with
      | some summary => contentTexts summary
      | none => turn.reasoningSummary
    reasoning := if reasoning ≠ [] then reasoning else turn.reasoning }

def completedCommand (rt : Runtime) (item : Value) (turn : TurnMessage) : TurnMessage :=
  let status := (item.get "status").or
    (if (item.get "exitCode").strictEq (.num 0) then .lit "completed" else .lit "failed")
  let update (tool : ToolCommandExecution) : ToolCommandExecution :=
    { tool with
      command := (item.get "command").or tool.command
      cwd := (item.get "cwd").or tool.cwd
      aggregatedOutput := (item.get "aggregatedOutput").coalesce tool.aggregatedOutput
      exitCode := item.get "exitCode"
      status := status
      durationMs := item.get "durationMs" }
  if turn.tools.any (ToolItem.commandWithId (item.get "id")) then
    { turn with tools :=
        modifyFirst (ToolItem.commandWithId (item.get "id")) (ToolItem.mapCommand update) turn.tools }
  else if !(item.get "id").truthy && turn.tools.any ToolItem.runningCommand then
    { turn with tools := modifyLast ToolItem.runningCommand (ToolItem.mapCommand update) turn.tools }
  else
    let command : ToolCommandExecution :=
      { id := (item.get "id").or (.str (ofString "cmd-" ++ rt.now))
        command := (item.get "command").or (.str [])
        cwd := item.get "cwd"
        aggregatedOutput := (item.get "aggregatedOutput").or (.str [])
        exitCode := item.get "exitCode"
        status := status
        durationMs := item.get "durationMs" }
    { turn with tools := turn.tools ++ [.commandExecution command] }

def ToolItem.fileWithId (id : JsText) : ToolItem → Bool
  | .fileChange tool => tool.id = id
  | _ => false

/-- One change of a `fileChange` item; `changeIndex` is its place. -/
def completedChange (rt : Runtime) (item : Value) (tools : List ToolItem) (change : Value)
    (changeIndex : Nat) : Option (List ToolItem) := do
  let prefixText ← rt.textOf ((item.get "id").or (.str (ofString "file-" ++ rt.now)))
  let id := prefixText ++ ofString ":" ++ ofString (toString changeIndex)
  let path ← change.read "path"
  let kind := change.get "kind"
  let next : ToolFileChange :=
    { id := id
      path := path.or (.str [])
      kind := (if kind.isObject then kind.get "type" else kind).or (.lit "modify")
      diff := (change.get "diff").or (.str [])
      status := (item.get "status").or (.lit "completed") }
  return if tools.any (ToolItem.fileWithId id) then
      modifyFirst (ToolItem.fileWithId id) (fun _ => .fileChange next) tools
    else tools ++ [.fileChange next]

def completedFileChange (rt : Runtime) (item : Value) (turn : TurnMessage) : Option TurnMessage := do
  let changes := ((item.get "changes").items?).getD []
  let tools ← changes.zipIdx.foldlM
    (fun tools change => completedChange rt item tools change.1 change.2) turn.tools
  return { turn with tools := tools }

def itemCompleted (rt : Runtime) (jsonPayload : Value) (turn : TurnMessage) : Option TurnMessage :=
  let item := (jsonPayload.get "item").or (.obj [])
  let type := item.get "type"
  if type.is "userMessage" then completedUserMessage rt item turn
  else if type.is "reasoning" then completedReasoning rt item turn
  else if type.is "commandExecution" then some (completedCommand rt item turn)
  else if type.is "fileChange" then completedFileChange rt item turn
  else if type.is "agentMessage" && (item.get "text").truthy && !turn.text.truthy then
    some { turn with text := item.get "text" }
  else some turn

def agentMessageDelta (rt : Runtime) (payload : Value) (turn : TurnMessage) : Option TurnMessage :=
  match (payload.get "chunk").text? with
  | none => some turn
  | some chunk => do
    let old ← rt.textOf turn.text
    return { turn with text := .str (old ++ chunk), assistantStatus := .streaming }

def diffUpdated (jsonPayload : Value) (turn : TurnMessage) : TurnMessage :=
  match (jsonPayload.get "diff").text? with
  | none => turn
  | some diff =>
    if trim diff ≠ [] ∧ diff ∉ turn.diffs then { turn with diffs := turn.diffs ++ [diff] } else turn

def tokenUsageUpdated (jsonPayload : Value) (turn : TurnMessage) : TurnMessage :=
  let tokenUsage := jsonPayload.get "tokenUsage"
  let total := tokenUsage.get "total"
  let usage : TokenUsage :=
    { totalTokens := total.get "totalTokens"
      inputTokens := total.get "inputTokens"
      outputTokens := total.get "outputTokens"
      reasoningOutputTokens := total.get "reasoningOutputTokens" }
  if tokenUsage.truthy then { turn with tokenUsage := some usage } else turn

def outputOnTurn (rt : Runtime) (payload : Value) (turn : TurnMessage) : Option TurnMessage :=
  let eventType := payload.get "eventType"
  let jsonPayload :=
    ((payload.get "jsonPayload").or (tryParseJson rt (payload.get "chunk"))).or (.obj [])
  if eventType.is "item/agentMessage/delta" then agentMessageDelta rt payload turn
  else if eventType.is "item/commandExecution/outputDelta" then outputDelta rt payload jsonPayload turn
  else if eventType.is "item/completed" then itemCompleted rt jsonPayload turn
  else if eventType.is "turn/diff/updated" then some (diffUpdated jsonPayload turn)
  else if eventType.is "thread/tokenUsage/updated" then some (tokenUsageUpdated jsonPayload turn)
  else some turn

def applySessionOutput (rt : Runtime) (event : EventMessage) (sessionId : Value)
    (turns : List TurnMessage) : Option (List TurnMessage) := do
  let payload := eventPayload event
  let target := getOrCreateTurn rt sessionId turns (payload.get "turnId") (.str [])
  let turn ← target.1[target.2]?
  let turn ← outputOnTurn rt payload turn
  return target.1.set target.2 turn

def applyLiveEventToTurns (js : Engine) (currentTurns : List TurnMessage) (event : EventMessage)
    (session : Option Session) : Option (List TurnMessage) := do
  let turns ← currentTurns.mapM TurnMessage.clone
  let rt := js.at event.moment
  let sessionId := currentSessionId rt event session
  match event.type with
  | .sessionStarted => return applySessionStarted rt event sessionId turns
  | .sessionUserInput => return applySessionUserInput rt event sessionId turns
  | .sessionStatus => return applySessionStatus rt event turns
  | .sessionFinished => applySessionFinished rt event turns
  | .approvalRequested => return applyApprovalRequested rt event sessionId turns
  | .approvalResolved => return applyApprovalResolved rt event turns
  | .approvalExpired => return applyApprovalExpired rt event turns
  | .subagentStarted => return applySubagentStarted rt event sessionId turns
  | .subagentTool => return applySubagentTool rt event sessionId turns
  | .subagentFinished => return applySubagentFinished rt event sessionId turns
  | .sessionOutput => applySessionOutput rt event sessionId turns
  | .other _ => return turns

def isUserInputEvent (event : EventMessage) : Bool :=
  event.type = .sessionUserInput ||
    (event.type = .sessionOutput && (event.payload.get "eventType").is "item/completed" &&
      (((event.payload.get "jsonPayload").get "item").get "type").is "userMessage")

/-- The row for the prompt with which the session was created. -/
def initialTurn (rt : Runtime) (session : Session) : TurnMessage :=
  { createEmptyTurn rt (.lit "initial-turn") (.str session.id) session.prompt with
    userTime := session.createdAt.or session.startedAt
    assistantStatus :=
      if session.status.is "running" then .streaming
      else if session.status.is "cancelled" then .cancelled
      else .completed }

def seedTurns (rt : Runtime) (events : List EventMessage) (session : Option Session) :
    List TurnMessage :=
  match session with
  | none => []
  | some session =>
    if session.prompt.truthy && !events.any isUserInputEvent then [initialTurn rt session] else []

def aggregateEventsToTurns (js : Engine) (start : Moment) (events : List EventMessage) (session : Option Session) :
    Option (List TurnMessage) :=
  events.foldlM (fun turns event => applyLiveEventToTurns js turns event session)
    (seedTurns (js.at start) events session)

def applyAll (js : Engine) (session : Option Session) (turns : List TurnMessage)
    (events : List EventMessage) : Option (List TurnMessage) :=
  events.foldlM (fun turns event => applyLiveEventToTurns js turns event session) turns

/-- A history with one more event gives the rows that the event gives live. -/
def AggregationAgrees (js : Engine) (start : Moment) (session : Option Session)
    (xs : List EventMessage) (e : EventMessage) : Prop :=
  aggregateEventsToTurns js start (xs ++ [e]) session =
    (aggregateEventsToTurns js start xs session).bind
      (fun turns => applyLiveEventToTurns js turns e session)

def prompted (session : Option Session) : Bool := session.any (·.prompt.truthy)

theorem seedTurns_append (rt : Runtime) {session : Option Session} {xs ys : List EventMessage}
    (h : prompted session = false ∨ xs.any isUserInputEvent = true ∨ ys.any isUserInputEvent = false) :
    seedTurns rt (xs ++ ys) session = seedTurns rt xs session := by
  cases session with
  | none => rfl
  | some session =>
    simp only [prompted,Option.any_some] at h
    simp only [seedTurns,List.any_append]
    rcases h with hprompt | hxs | hys
    · simp [hprompt]
    · simp [hxs]
    · simp [hys]

/-- A transcript loaded from a history is the one built live from its later events. -/
theorem aggregate_append (js : Engine) (start : Moment) {session : Option Session}
    {xs ys : List EventMessage}
    (h : prompted session = false ∨ xs.any isUserInputEvent = true ∨ ys.any isUserInputEvent = false) :
    aggregateEventsToTurns js start (xs ++ ys) session =
      (aggregateEventsToTurns js start xs session).bind (fun turns => applyAll js session turns ys) := by
  unfold aggregateEventsToTurns applyAll
  rw [seedTurns_append (js.at start) h,List.foldlM_append]
  rfl

def freshInput (moment : Moment) : EventMessage where
  type := .sessionUserInput
  moment := moment
  payload := .obj [(ofString "clientRequestId",.lit "r1")]

theorem applySessionUserInput_fresh (rt : Runtime) (moment : Moment) (sessionId : Value)
    (turns : List TurnMessage) (h : ∀ turn ∈ turns, turn.clientRequestId = none) :
    (applySessionUserInput rt (freshInput moment) sessionId turns).length = turns.length+1 := by
  have hnone : turns.any (TurnMessage.sameInput (some (ofString "r1")) [] sessionId) = false := by
    rw [List.any_eq_false]
    intro turn hturn
    have hid := h turn hturn
    simp [TurnMessage.sameInput,hid,Option.filter,ofString]
  have hid : ((eventPayload (freshInput moment)).get "clientRequestId").text? =
      some (ofString "r1") := rfl
  have hprompt : ((eventPayload (freshInput moment)).get "prompt").text? = none := rfl
  unfold applySessionUserInput
  simp [hid,hprompt,hnone]

/-- With the prompt of the session the two ways differ: alone in a history, an input leaves
no place for the row of that prompt, which was there before the input arrived. -/
theorem not_aggregationAgrees (js : Engine) (start moment : Moment) {session : Session}
    (h : session.prompt.truthy = true) :
    ¬ AggregationAgrees js start (some session) [] (freshInput moment) := by
  have hinput : isUserInputEvent (freshInput moment) = true := rfl
  let sessionId := currentSessionId (js.at moment) (freshInput moment) (some session)
  have hbatch : aggregateEventsToTurns js start ([] ++ [freshInput moment]) (some session) =
      some (applySessionUserInput (js.at moment) (freshInput moment) sessionId []) := by
    have hseed : seedTurns (js.at start) [freshInput moment] (some session) = [] := by
      simp [seedTurns,hinput]
    rw [List.nil_append,aggregateEventsToTurns,hseed]
    rfl
  have hlive : (aggregateEventsToTurns js start [] (some session)).bind
      (fun turns => applyLiveEventToTurns js turns (freshInput moment) (some session)) =
      some (applySessionUserInput (js.at moment) (freshInput moment) sessionId
        [initialTurn (js.at start) session]) := by
    have hseed : seedTurns (js.at start) [] (some session) = [initialTurn (js.at start) session] := by
      simp [seedTurns,h]
    rw [aggregateEventsToTurns,hseed]
    rfl
  intro hagrees
  rw [AggregationAgrees,hbatch,hlive,Option.some.injEq] at hagrees
  have hlength := congrArg List.length hagrees
  rw [applySessionUserInput_fresh,applySessionUserInput_fresh] at hlength
  · simp at hlength
  · intro turn hturn
    rw [List.mem_singleton] at hturn
    rw [hturn]
    rfl
  · simp

/-- Loading and living agree on every history and event exactly for sessions without a
prompt of their own. For the others they agree when the history has an input or the event
is none, and so do a history and any further events without an input. -/
theorem aggregateEventsToTurns_agrees_iff (js : Engine) (start : Moment) (session : Option Session) :
    ((∀ xs e, AggregationAgrees js start session xs e) ↔ prompted session = false) ∧
    (∀ xs e, (prompted session = false ∨ xs.any isUserInputEvent = true ∨ isUserInputEvent e = false) →
      AggregationAgrees js start session xs e) ∧
    (∀ xs ys, (prompted session = false ∨ xs.any isUserInputEvent = true ∨
        ys.any isUserInputEvent = false) →
      aggregateEventsToTurns js start (xs ++ ys) session =
        (aggregateEventsToTurns js start xs session).bind
          (fun turns => applyAll js session turns ys)) := by
  have hone : ∀ xs e, (prompted session = false ∨ xs.any isUserInputEvent = true ∨
      isUserInputEvent e = false) → AggregationAgrees js start session xs e := by
    intro xs e h
    have hsingle : prompted session = false ∨ xs.any isUserInputEvent = true ∨
        [e].any isUserInputEvent = false := by
      simpa using h
    simpa [AggregationAgrees,applyAll] using aggregate_append js start hsingle
  refine ⟨⟨?_,?_⟩,hone,fun xs ys h => aggregate_append js start h⟩
  · intro hall
    cases session with
    | none => rfl
    | some session =>
      by_contra hprompt
      have htruthy : session.prompt.truthy = true := by simpa [prompted] using hprompt
      exact not_aggregationAgrees js start start htruthy (hall [] (freshInput start))
  · intro hprompt xs e
    exact hone xs e (.inl hprompt)

namespace Sample

def engine : Engine where
  parseJson := fun _ => none
  coerce := fun _ => some (ofString "[object Object]")

def tenOClock : Moment where
  now := ofString "1788429600000"
  isoNow := ofString "2026-09-03T10:00:00.000Z"
  random := ofString "k3x9"

def greeted : Session where
  id := ofString "s1"
  prompt := .lit "hi"
  status := .lit "completed"

end Sample

/-- One row from the history, two rows live. -/
theorem greeted_rows :
    let input := freshInput Sample.tenOClock
    let aggregate := aggregateEventsToTurns Sample.engine Sample.tenOClock
    (aggregate [input] (some Sample.greeted)).map List.length = some 1 ∧
      ((aggregate [] (some Sample.greeted)).bind (fun turns =>
        applyLiveEventToTurns Sample.engine turns input (some Sample.greeted))).map List.length = some 2 ∧
      ¬ AggregationAgrees Sample.engine Sample.tenOClock (some Sample.greeted) [] input := by
  refine ⟨by decide,by decide,?_⟩
  exact not_aggregationAgrees Sample.engine Sample.tenOClock Sample.tenOClock (by decide)

end CodeHarbor.App
