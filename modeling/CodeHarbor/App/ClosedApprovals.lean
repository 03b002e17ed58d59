import CodeHarbor.App.Attribution
set_option autoImplicit false

namespace CodeHarbor.App
open Lib.Js

/-! Approvals that were decided, and later events with the same request id. The ids are those
of the app-server's requests, which start again with every process. -/

abbrev Place := Nat × Nat

def approvalAt (rows : List TurnMessage) (place : Place) : Option ApprovalRequest :=
  (rows[place.1]?).bind (·.approvals[place.2]?)

def Changed (rows rows' : List TurnMessage) (place : Place) : Prop :=
  ∃ approval, approvalAt rows place = some approval ∧ approvalAt rows' place ≠ some approval

/-- Decided approvals stay as they are, and at most one pending approval changes. -/
structure KeepsDecisions (rows rows' : List TurnMessage) : Prop where
  decided : ∀ place approval, approvalAt rows place = some approval → approval.status ≠ .pending →
    approvalAt rows' place = some approval
  one : ∀ place other, Changed rows rows' place → Changed rows rows' other → place = other

/-! What `sendApprovalDecision` shows. -/

def ApprovalDecision.word : ApprovalDecision → String
  | .approve => "approve"
  | .deny => "deny"

/-- The event that the app makes itself when the gateway has taken the decision. -/
def decisionEvent (selectedSessionId requestId : JsText) (decision : ApprovalDecision)
    (moment : Moment) : EventMessage where
  type := .approvalResolved
  moment := moment
  sessionId := .str selectedSessionId
  timestamp := .str moment.isoNow
  payload := .obj [(ofString "requestId",.str requestId),(ofString "decision",.lit decision.word)]

/-- The rows after a decision on the screen; without a selected session they stay. -/
def sendApprovalDecision (js : Engine) (rows : List TurnMessage) (selectedSessionId : JsText)
    (selectedSession : Option Session) (requestId : JsText) (decision : ApprovalDecision)
    (moment : Moment) : Option (List TurnMessage) :=
  if selectedSessionId = [] then some rows
  else applyLiveEventToTurns js rows (decisionEvent selectedSessionId requestId decision moment)
    selectedSession

/-! The approvals that an event reaches. -/

def EventMessage.approvalId (rt : Runtime) (event : EventMessage) : Value :=
  let payload := eventPayload event
  let record := asRecord (payload.get "approval")
  let read := (approvalRead rt payload "requestId").ifText
  match event.type with
  | .approvalRequested => event.requestId.or (read.coalesce (.str rt.now))
  | .approvalResolved => read.coalesce ((record.get "requestId").ifText.coalesce (record.get "id").ifText)
  | .approvalExpired => event.requestId.or read
  | _ => .undefined

def EventMessage.approvalDecision (rt : Runtime) (event : EventMessage) : ApprovalDecision :=
  let payload := eventPayload event
  normalizedApprovalDecision (((payload.get "decision").coalesce
    (approvalRead rt payload "decision")).coalesce ((asRecord (payload.get "approval")).get "decision"))

/-- A request looks into the row of its turn, a decision and a timeout into every row. -/
def EventMessage.looksInto (js : Engine) (event : EventMessage) (session : Option Session)
    (rows : List TurnMessage) (index : Nat) : Prop :=
  let rt := js.at event.moment
  match event.type with
  | .approvalRequested => index = (getOrCreateTurn rt (currentSessionId rt event session) rows
      (approvalRead rt (eventPayload event) "turnId").ifText (.str [])).2
  | .approvalResolved => (event.approvalId rt).truthy = true
  | .approvalExpired => (event.approvalId rt).text?.isSome = true
  | _ => False

def firstWith (requestId : Value) (rows : List TurnMessage) (index : Nat) : Option Nat :=
  (rows[index]?).bind (fun row => row.approvals.findIdx? (·.requestId.strictEq requestId))

/-- The first approval with the id in a row that the event looks into. -/
def EventMessage.Reaches (js : Engine) (event : EventMessage) (session : Option Session)
    (rows : List TurnMessage) (place : Place) : Prop :=
  event.looksInto js session rows place.1 ∧
    firstWith (event.approvalId (js.at event.moment)) rows place.1 = some place.2

/-- The approval already is as the event leaves it. -/
def EventMessage.Records (js : Engine) (event : EventMessage) (approval : ApprovalRequest) : Prop :=
  let rt := js.at event.moment
  match event.type with
  | .approvalResolved =>
    approval.status = (if event.approvalDecision rt = .approve then .approved else .denied) ∧
      approval.decision = some (event.approvalDecision rt) ∧ approval.resolvedAt = eventTime rt event
  | .approvalExpired => approval.status = .expired ∧ approval.resolvedAt = eventTime rt event
  | _ => False

/-- Whatever the event reaches is pending, or already as the event leaves it, and no two of
the reached approvals are pending. -/
structure EventMessage.Spares (js : Engine) (event : EventMessage) (session : Option Session)
    (rows : List TurnMessage) : Prop where
  decided : ∀ place approval, event.Reaches js session rows place →
    approvalAt rows place = some approval → approval.status = .pending ∨ event.Records js approval
  one : ∀ place other a b, event.Reaches js session rows place → event.Reaches js session rows other →
    approvalAt rows place = some a → approvalAt rows other = some b →
    a.status = .pending → b.status = .pending → place = other

section Rows

variable {rows rows' : List TurnMessage}

theorem approvalAt_eq (rows : List TurnMessage) (place : Place) :
    approvalAt rows place = ((rows.map (·.approvals))[place.1]?).bind (·[place.2]?) := by
  unfold approvalAt
  rw [List.getElem?_map,Option.bind_map]
  rfl

theorem firstWith_eq (requestId : Value) (rows : List TurnMessage) (index : Nat) :
    firstWith requestId rows index = ((rows.map (·.approvals))[index]?).bind
      (fun approvals => approvals.findIdx? (·.requestId.strictEq requestId)) := by
  unfold firstWith
  rw [List.getElem?_map,Option.bind_map]
  rfl

theorem approvalAt_of_prefix (h : rows.map (·.approvals) <+: rows'.map (·.approvals)) {place : Place}
    {approval : ApprovalRequest} (ha : approvalAt rows place = some approval) :
    approvalAt rows' place = some approval := by
  rw [approvalAt_eq] at ha ⊢
  obtain ⟨row,hrow,ha⟩ := Option.bind_eq_some_iff.mp ha
  rw [List.prefix_iff_getElem?.mp h _ (List.getElem?_eq_some_iff.mp hrow).1,Option.bind_some]
  rw [(List.getElem?_eq_some_iff.mp hrow).2]
  exact ha

theorem approvals_modify {f : TurnMessage → TurnMessage} (hf : ∀ row, (f row).approvals = row.approvals)
    (i : Nat) : (rows.modify i f).map (·.approvals) = rows.map (·.approvals) := by
  apply List.ext_getElem?
  intro j
  simp only [List.getElem?_map,List.getElem?_modify]
  split_ifs
  · simp [Function.comp_def,hf]
  · simp

theorem approvals_set {i : Nat} {a b : TurnMessage} (ha : rows[i]? = some a)
    (hb : b.approvals = a.approvals) : (rows.set i b).map (·.approvals) = rows.map (·.approvals) := by
  apply List.ext_getElem?
  intro j
  rw [List.getElem?_map,List.getElem?_map,List.getElem?_set]
  split_ifs with hij hlt
  · rw [← hij,ha,Option.map_some,Option.map_some,hb]
  · rw [List.getElem?_eq_none (by omega)] at ha
    cases ha
  · rfl

theorem approvals_modifyFirst {p : TurnMessage → Bool} {f : TurnMessage → TurnMessage}
    (hf : ∀ row, (f row).approvals = row.approvals) :
    (modifyFirst p f rows).map (·.approvals) = rows.map (·.approvals) := by
  induction rows with
  | nil => rfl
  | cons row rows ih =>
    rw [modifyFirst]
    split_ifs
    · rw [List.map_cons,List.map_cons,hf]
    · rw [List.map_cons,List.map_cons,ih]

def TurnMessage.attach (attachments : Value) (turn : TurnMessage) : TurnMessage :=
  { turn with userAttachments := attachments }

theorem TurnMessage.clone_eq {a b : TurnMessage} (h : a.clone = some b) :
    b = a.attach b.userAttachments := by
  unfold clone at h
  split_ifs at h
  · obtain ⟨items,-,rfl⟩ := Option.map_eq_some_iff.mp h
    rfl
  · cases h
    rfl

theorem mapM_clone_eq (h : rows.mapM TurnMessage.clone = some rows') :
    ∃ attachments : TurnMessage → Value, rows' = rows.map (fun row => row.attach (attachments row)) := by
  refine ⟨fun row => (row.clone.getD row).userAttachments,?_⟩
  induction rows generalizing rows' with
  | nil =>
    cases h
    rfl
  | cons row rows ih =>
    rw [List.mapM_cons] at h
    simp only [Option.bind_eq_bind,Option.bind_eq_some_iff] at h
    obtain ⟨row',hrow,rest,hrest,h⟩ := h
    cases h
    rw [List.map_cons,← ih hrest]
    simp only [hrow,Option.getD_some]
    rw [← TurnMessage.clone_eq hrow]

theorem getOrCreateTurn_attach (rt : Runtime) (sessionId targetTurnId fallbackPrompt : Value)
    (attachments : TurnMessage → Value) :
    (getOrCreateTurn rt sessionId (rows.map (fun row => row.attach (attachments row)))
      targetTurnId fallbackPrompt).2 =
      (getOrCreateTurn rt sessionId rows targetTurnId fallbackPrompt).2 := by
  generalize hcopies : rows.map (fun row => row.attach (attachments row)) = copies
  have hlength : copies.length = rows.length := by rw [← hcopies,List.length_map]
  have hnewest : newestTurnId rt copies = newestTurnId rt rows := by
    unfold newestTurnId
    rw [← hcopies,List.getLast?_map,Option.map_map]
    rfl
  have hall : copies.all TurnMessage.placeholder = rows.all TurnMessage.placeholder := by
    rw [← hcopies,List.all_map]
    rfl
  have hfound (tid : Value) : copies.findIdx? (fun turn => turn.turnId.strictEq tid) =
      rows.findIdx? (fun turn => turn.turnId.strictEq tid) := by
    rw [← hcopies,List.findIdx?_map]
    rfl
  have hlast : lastIndex (TurnMessage.awaiting sessionId fallbackPrompt) copies =
      lastIndex (TurnMessage.awaiting sessionId fallbackPrompt) rows := by
    unfold lastIndex
    rw [hlength,← hcopies,← List.map_reverse,List.findIdx?_map]
    rfl
  unfold getOrCreateTurn
  simp only [hlength,hnewest,hall,hfound,hlast]
  split_ifs
  · rfl
  · split
    · rfl
    · split
      · rfl
      · rfl

theorem getOrCreateTurn_approvals (rt : Runtime) (sessionId targetTurnId fallbackPrompt : Value) :
    rows.map (·.approvals) <+:
      (getOrCreateTurn rt sessionId rows targetTurnId fallbackPrompt).1.map (·.approvals) := by
  unfold getOrCreateTurn
  dsimp only
  split_ifs
  · rw [List.map_map]
    exact List.prefix_rfl
  · split
    · exact List.prefix_rfl
    · split
      · rw [approvals_modify]
        exact fun _ => rfl
      · rw [List.map_append]
        exact List.prefix_append _ _

theorem onTurn_approvals (rt : Runtime) (sessionId turnId : Value) {f : TurnMessage → TurnMessage}
    (hf : ∀ row, (f row).approvals = row.approvals) :
    rows.map (·.approvals) <+: (onTurn rt sessionId rows turnId f).map (·.approvals) := by
  unfold onTurn
  dsimp only
  rw [approvals_modify hf]
  exact getOrCreateTurn_approvals rt sessionId turnId (.str [])

theorem getElem?_modifyFirst {α : Type} (p : α → Bool) (f : α → α) (xs : List α) (j : Nat) :
    (modifyFirst p f xs)[j]? = if xs.findIdx? p = some j then (xs[j]?).map f else xs[j]? := by
  induction xs generalizing j with
  | nil => rfl
  | cons x xs ih =>
    rw [modifyFirst,List.findIdx?_cons]
    cases hp : p x with
    | true => cases j with
      | zero => simp
      | succ j => simp
    | false => cases j with
      | zero => simp
      | succ j => simp [ih]

theorem modifyFirst_of_not_any {α : Type} {p : α → Bool} {xs : List α} (h : ¬ xs.any p = true)
    (f : α → α) : modifyFirst p f xs = xs := by
  induction xs with
  | nil => rfl
  | cons x xs ih =>
    rw [List.any_cons,Bool.or_eq_true,not_or] at h
    rw [modifyFirst,if_neg h.1,ih h.2]

theorem approvalAt_closeApproval (requestId : Value) (close : ApprovalRequest → ApprovalRequest)
    (rows : List TurnMessage) (place : Place) :
    approvalAt (closeApproval requestId close rows) place =
      if firstWith requestId rows place.1 = some place.2 then (approvalAt rows place).map close
      else approvalAt rows place := by
  have hrows : (closeApproval requestId close rows).map (·.approvals) =
      (rows.map (·.approvals)).map (modifyFirst (·.requestId.strictEq requestId) close) := by
    unfold closeApproval
    rw [List.map_map,List.map_map]
    apply List.map_congr_left
    intro row _
    dsimp only [Function.comp_apply]
    split_ifs with hany
    · rfl
    · rfl
    · exact (modifyFirst_of_not_any hany close).symm
  rw [approvalAt_eq,approvalAt_eq,firstWith_eq,hrows,List.getElem?_map]
  cases (rows.map (·.approvals))[place.1]? with
  | none => simp
  | some approvals => exact getElem?_modifyFirst _ close approvals place.2

end Rows

section Quiet

variable {rt : Runtime} {rows rows' : List TurnMessage} {a b : TurnMessage}

theorem TurnMessage.Extends.approvals (h : a.Extends b) : b.approvals = a.approvals := by
  obtain ⟨_,_,_,_,_,_,_,rfl⟩ := h
  rfl

theorem outputOnTurn_approvals {payload : Value} (h : outputOnTurn rt payload a = some b) :
    b.approvals = a.approvals := by
  unfold outputOnTurn at h
  dsimp only at h
  split_ifs at h
  · rcases agentMessageDelta_extends h with ⟨-,rfl⟩ | ⟨chunk,before,-,-,rfl⟩
    · rfl
    · rfl
  · exact (outputDelta_extends h).approvals
  · rcases itemCompleted_extends h with hextends | ⟨-,-,text,-,rfl⟩
    · exact hextends.approvals
    · rfl
  · cases h
    exact (diffUpdated_extends _).approvals
  · cases h
    exact (tokenUsageUpdated_extends _).approvals
  · cases h
    rfl

theorem applySessionOutput_approvals {event : EventMessage} {sessionId : Value}
    (h : applySessionOutput rt event sessionId rows = some rows') :
    rows.map (·.approvals) <+: rows'.map (·.approvals) := by
  unfold applySessionOutput at h
  simp only [Option.bind_eq_bind,Option.bind_eq_some_iff] at h
  obtain ⟨turn,hturn,turn',hturn',h⟩ := h
  cases h
  rw [approvals_set hturn (outputOnTurn_approvals hturn')]
  exact getOrCreateTurn_approvals _ _ _ _

theorem applySessionUserInput_approvals (event : EventMessage) (sessionId : Value) :
    rows.map (·.approvals) <+:
      (applySessionUserInput rt event sessionId rows).map (·.approvals) := by
  unfold applySessionUserInput
  dsimp only
  split_ifs
  · rw [approvals_modifyFirst]
    exact fun _ => rfl
  · rw [List.map_append]
    exact List.prefix_append _ _

theorem applySessionStarted_approvals (event : EventMessage) (sessionId : Value) :
    rows.map (·.approvals) <+: (applySessionStarted rt event sessionId rows).map (·.approvals) := by
  unfold applySessionStarted
  dsimp only
  split_ifs
  · rw [approvals_modify]
    · exact getOrCreateTurn_approvals _ _ _ _
    · exact fun _ => rfl
  · exact List.prefix_rfl

theorem applySessionStatus_approvals (event : EventMessage) :
    (applySessionStatus rt event rows).map (·.approvals) = rows.map (·.approvals) := by
  unfold applySessionStatus modifyNewest
  refine approvals_modify ?_ _
  intro row
  split_ifs <;> rfl

theorem applySessionFinished_approvals {event : EventMessage}
    (h : applySessionFinished rt event rows = some rows') :
    rows'.map (·.approvals) = rows.map (·.approvals) := by
  unfold applySessionFinished at h
  cases hlast : rows.getLast? with
  | none =>
    rw [hlast] at h
    cases h
    rfl
  | some newest =>
    rw [hlast] at h
    simp only [Option.bind_eq_bind,Option.bind_eq_some_iff] at h
    obtain ⟨text,-,h⟩ := h
    cases h
    exact approvals_modify (by exact fun _ => rfl) _

end Quiet

section Events

variable {js : Engine} {event : EventMessage} {session : Option Session} {rows rows' : List TurnMessage}

theorem approvalAt_onTurn (rt : Runtime) (sessionId turnId : Value) {f : TurnMessage → TurnMessage}
    {g : List ApprovalRequest → List ApprovalRequest} (hf : ∀ row, (f row).approvals = g row.approvals)
    {place : Place} {row : TurnMessage} (hrow : rows[place.1]? = some row) :
    approvalAt (onTurn rt sessionId rows turnId f) place =
      if place.1 = (getOrCreateTurn rt sessionId rows turnId (.str [])).2 then
        (g row.approvals)[place.2]?
      else row.approvals[place.2]? := by
  have hmap : (rows.map (·.approvals))[place.1]? = some row.approvals := by
    rw [List.getElem?_map,hrow,Option.map_some]
  have hprefix := @getOrCreateTurn_approvals rows rt sessionId turnId (.str [])
  have hthere : ((getOrCreateTurn rt sessionId rows turnId (.str [])).1.map (·.approvals))[place.1]? =
      some row.approvals := by
    rw [List.prefix_iff_getElem?.mp hprefix _ (List.getElem?_eq_some_iff.mp hmap).1]
    exact congrArg some (List.getElem?_eq_some_iff.mp hmap).2
  unfold approvalAt onTurn
  dsimp only
  rw [List.getElem?_map] at hthere
  obtain ⟨there,hfound,happrovals⟩ := Option.map_eq_some_iff.mp hthere
  rw [List.getElem?_modify,hfound,Option.map_eq_map,Option.map_some,Option.bind_some]
  by_cases hindex : place.1 = (getOrCreateTurn rt sessionId rows turnId (.str [])).2
  · rw [if_pos hindex,if_pos hindex.symm,hf,happrovals]
  · rw [if_neg hindex,if_neg (fun h => hindex h.symm),happrovals]

theorem ApprovalRequest.closed_iff (a : ApprovalRequest) (status : ApprovalStatus)
    (decision : Option ApprovalDecision) (resolvedAt : Value) :
    { a with status := status, decision := decision, resolvedAt := resolvedAt } = a ↔
      a.status = status ∧ a.decision = decision ∧ a.resolvedAt = resolvedAt := by
  constructor
  · intro h
    exact ⟨(congrArg ApprovalRequest.status h).symm,(congrArg ApprovalRequest.decision h).symm,
      (congrArg ApprovalRequest.resolvedAt h).symm⟩
  · rintro ⟨rfl,rfl,rfl⟩
    rfl

/-- What an event does to the approvals that were there: those it reaches become `f` of
themselves. -/
structure Updates (js : Engine) (event : EventMessage) (session : Option Session)
    (rows rows' : List TurnMessage) (f : ApprovalRequest → ApprovalRequest) : Prop where
  aside : ∀ place a, approvalAt rows place = some a → ¬ event.Reaches js session rows place →
    approvalAt rows' place = some a
  reached : ∀ place a, approvalAt rows place = some a → event.Reaches js session rows place →
    approvalAt rows' place = some (f a)
  records : ∀ place a, event.Reaches js session rows place → a.status ≠ .pending →
    (f a = a ↔ event.Records js a)
  single : (∀ a, a.status = .pending → f a ≠ a) ∨ ∀ place other,
    event.Reaches js session rows place → event.Reaches js session rows other → place = other

theorem Updates.quiet (h : rows.map (·.approvals) <+: rows'.map (·.approvals))
    (htype : ∀ index, ¬ event.looksInto js session rows index) :
    Updates js event session rows rows' id where
  aside _ _ ha _ := approvalAt_of_prefix h ha
  reached place _ _ hreaches := absurd hreaches.1 (htype place.1)
  records place _ hreaches _ := absurd hreaches.1 (htype place.1)
  single := .inr (fun place _ hreaches _ => absurd hreaches.1 (htype place.1))

theorem Updates.closed {close : ApprovalRequest → ApprovalRequest}
    (hlooks : ∀ index, event.looksInto js session rows index)
    (hrecords : ∀ a, a.status ≠ .pending → (close a = a ↔ event.Records js a))
    (hcloses : ∀ a, (close a).status ≠ .pending) :
    Updates js event session rows
      (closeApproval (event.approvalId (js.at event.moment)) close rows) close where
  aside place a ha hreaches := by
    rw [approvalAt_closeApproval,if_neg (fun h => hreaches ⟨hlooks place.1,h⟩),ha]
  reached place a ha hreaches := by
    rw [approvalAt_closeApproval,if_pos hreaches.2,ha,Option.map_some]
  records _ a _ ha := hrecords a ha
  single := .inl (fun a ha h => hcloses a (by rw [h,ha]))

theorem Updates.keepsDecisions_iff {f : ApprovalRequest → ApprovalRequest}
    (h : Updates js event session rows rows' f) :
    KeepsDecisions rows rows' ↔ event.Spares js session rows := by
  constructor
  · intro hkeeps
    refine ⟨?_,?_⟩
    · intro place a hreaches ha
      by_cases hpending : a.status = .pending
      · exact .inl hpending
      · have hkept := hkeeps.decided place a ha hpending
        rw [h.reached place a ha hreaches,Option.some.injEq] at hkept
        exact .inr ((h.records place a hreaches hpending).mp hkept)
    · intro place other a b hplace hother ha hb hpa hpb
      rcases h.single with hcloses | hsingle
      · refine hkeeps.one place other ⟨a,ha,?_⟩ ⟨b,hb,?_⟩
        · rw [h.reached place a ha hplace]
          exact fun heq => hcloses a hpa (Option.some.inj heq)
        · rw [h.reached other b hb hother]
          exact fun heq => hcloses b hpb (Option.some.inj heq)
      · exact hsingle place other hplace hother
  · intro hspares
    have hreached {place : Place} {a : ApprovalRequest} (ha : approvalAt rows place = some a)
        (hchanged : approvalAt rows' place ≠ some a) :
        event.Reaches js session rows place ∧ a.status = .pending := by
      have hreaches : event.Reaches js session rows place := by
        by_contra hnot
        exact hchanged (h.aside place a ha hnot)
      refine ⟨hreaches,?_⟩
      rcases hspares.decided place a hreaches ha with hpending | hrecords
      · exact hpending
      · by_contra hpending
        apply hchanged
        rw [h.reached place a ha hreaches,(h.records place a hreaches hpending).mpr hrecords]
    refine ⟨?_,?_⟩
    · intro place a ha hdecided
      by_contra hchanged
      exact hdecided (hreached ha hchanged).2
    · rintro place other ⟨a,ha,hachanged⟩ ⟨b,hb,hbchanged⟩
      obtain ⟨hplace,hpa⟩ := hreached ha hachanged
      obtain ⟨hother,hpb⟩ := hreached hb hbchanged
      exact hspares.one place other a b hplace hother ha hb hpa hpb

theorem Updates.of_copies {copies : List TurnMessage} {f : ApprovalRequest → ApprovalRequest}
    (hcopies : rows.mapM TurnMessage.clone = some copies)
    (h : Updates js event session copies rows' f) : Updates js event session rows rows' f := by
  obtain ⟨attachments,rfl⟩ := mapM_clone_eq hcopies
  have happrovals : (rows.map (fun row => row.attach (attachments row))).map (·.approvals) =
      rows.map (·.approvals) := by
    rw [List.map_map]
    rfl
  have hat (place : Place) : approvalAt (rows.map (fun row => row.attach (attachments row))) place =
      approvalAt rows place := by
    rw [approvalAt_eq,approvalAt_eq,happrovals]
  have hreaches (place : Place) :
      event.Reaches js session (rows.map (fun row => row.attach (attachments row))) place ↔
        event.Reaches js session rows place := by
    unfold EventMessage.Reaches EventMessage.looksInto
    rw [firstWith_eq,firstWith_eq,happrovals]
    dsimp only
    rw [getOrCreateTurn_attach]
  obtain ⟨haside,hreached,hrecords,hsingle⟩ := h
  simp only [hat,hreaches] at haside hreached hrecords hsingle
  exact ⟨haside,hreached,hrecords,hsingle⟩

theorem Updates.renewed {sessionId turnId : Value} {request : ApprovalRequest}
    {renew : ApprovalRequest → ApprovalRequest}
    (hlooks : ∀ index, event.looksInto js session rows index ↔
      index = (getOrCreateTurn (js.at event.moment) sessionId rows turnId (.str [])).2)
    (hnever : ∀ a, ¬ event.Records js a) (hrenew : ∀ a, (renew a).status = .pending) :
    Updates js event session rows
      (onTurn (js.at event.moment) sessionId rows turnId (fun turn => { turn with
        approvals :=
          if turn.approvals.any (·.requestId.strictEq (event.approvalId (js.at event.moment))) then
            modifyFirst (·.requestId.strictEq (event.approvalId (js.at event.moment))) renew
              turn.approvals
          else turn.approvals ++ [request]
        assistantStatus := .waitingApproval })) renew := by
  let same (a : ApprovalRequest) : Bool := a.requestId.strictEq (event.approvalId (js.at event.moment))
  have hfirst {index : Nat} {row : TurnMessage} (hrow : rows[index]? = some row) :
      firstWith (event.approvalId (js.at event.moment)) rows index = row.approvals.findIdx? same := by
    unfold firstWith
    rw [hrow,Option.bind_some]
  have hafter {place : Place} {row : TurnMessage} (hrow : rows[place.1]? = some row) :=
    approvalAt_onTurn (js.at event.moment) sessionId turnId
      (f := fun turn => { turn with
        approvals := if turn.approvals.any same then modifyFirst same renew turn.approvals
          else turn.approvals ++ [request]
        assistantStatus := .waitingApproval })
      (g := fun approvals => if approvals.any same then modifyFirst same renew approvals
        else approvals ++ [request]) (fun _ => rfl) hrow
  refine ⟨?_,?_,?_,.inr ?_⟩
  · intro place a ha hreaches
    obtain ⟨row,hrow,ha⟩ := Option.bind_eq_some_iff.mp ha
    refine (hafter hrow).trans ?_
    by_cases hindex : place.1 = (getOrCreateTurn (js.at event.moment) sessionId rows turnId (.str [])).2
    · have hnot : row.approvals.findIdx? same ≠ some place.2 := by
        intro h
        exact hreaches ⟨(hlooks place.1).mpr hindex,(hfirst hrow).trans h⟩
      rw [if_pos hindex]
      split_ifs
      · rw [getElem?_modifyFirst,if_neg hnot,ha]
      · rw [List.getElem?_append_left (List.getElem?_eq_some_iff.mp ha).1,ha]
    · rw [if_neg hindex,ha]
  · intro place a ha hreaches
    obtain ⟨row,hrow,ha⟩ := Option.bind_eq_some_iff.mp ha
    have hfound : row.approvals.findIdx? same = some place.2 := (hfirst hrow).symm.trans hreaches.2
    have hany : row.approvals.any same = true := by
      rw [← List.findIdx?_isSome,hfound]
      rfl
    refine (hafter hrow).trans ?_
    rw [if_pos ((hlooks place.1).mp hreaches.1),if_pos hany,getElem?_modifyFirst,if_pos hfound,ha,
      Option.map_some]
  · intro place a _ hdecided
    refine iff_of_false (fun h => hdecided ?_) (hnever a)
    rw [← h]
    exact hrenew a
  · intro place other hplace hother
    have hrow : place.1 = other.1 := ((hlooks _).mp hplace.1).trans ((hlooks _).mp hother.1).symm
    have hposition : some place.2 = some other.2 := by
      rw [← hplace.2,← hother.2,hrow]
    exact Prod.ext hrow (Option.some.inj hposition)

theorem applyApprovalRequested_updates (htype : event.type = .approvalRequested) :
    ∃ f, Updates js event session rows (applyApprovalRequested (js.at event.moment) event
      (currentSessionId (js.at event.moment) event session) rows) f := by
  have hid : event.approvalId (js.at event.moment) = event.requestId.or
      ((approvalRead (js.at event.moment) (eventPayload event) "requestId").ifText.coalesce
        (.str (js.at event.moment).now)) := by
    unfold EventMessage.approvalId
    rw [htype]
  unfold applyApprovalRequested
  dsimp only
  rw [← hid]
  refine ⟨_,Updates.renewed ?_ ?_ ?_⟩
  · intro index
    unfold EventMessage.looksInto
    rw [htype]
  · intro a
    unfold EventMessage.Records
    rw [htype]
    exact id
  · exact fun _ => rfl

theorem applyApprovalResolved_updates (htype : event.type = .approvalResolved) :
    ∃ f, Updates js event session rows (applyApprovalResolved (js.at event.moment) event rows) f := by
  have hid : event.approvalId (js.at event.moment) =
      (approvalRead (js.at event.moment) (eventPayload event) "requestId").ifText.coalesce
        (((asRecord ((eventPayload event).get "approval")).get "requestId").ifText.coalesce
          ((asRecord ((eventPayload event).get "approval")).get "id").ifText) := by
    unfold EventMessage.approvalId
    rw [htype]
  have hlooks (index : Nat) : event.looksInto js session rows index ↔
      (event.approvalId (js.at event.moment)).truthy = true := by
    unfold EventMessage.looksInto
    rw [htype]
  unfold applyApprovalResolved
  dsimp only
  rw [← hid]
  by_cases htruthy : (event.approvalId (js.at event.moment)).truthy = true
  · rw [if_pos htruthy]
    refine ⟨_,Updates.closed (fun index => (hlooks index).mpr htruthy) ?_ ?_⟩
    · intro a _
      unfold EventMessage.Records
      rw [htype]
      exact a.closed_iff _ _ _
    · intro a
      dsimp only
      split_ifs
      · exact nofun
      · exact nofun
  · rw [if_neg htruthy]
    exact ⟨id,Updates.quiet List.prefix_rfl (fun index h => htruthy ((hlooks index).mp h))⟩

theorem applyApprovalExpired_updates (htype : event.type = .approvalExpired) :
    ∃ f, Updates js event session rows (applyApprovalExpired (js.at event.moment) event rows) f := by
  have hid : event.approvalId (js.at event.moment) =
      event.requestId.or (approvalRead (js.at event.moment) (eventPayload event) "requestId").ifText := by
    unfold EventMessage.approvalId
    rw [htype]
  have hlooks (index : Nat) : event.looksInto js session rows index ↔
      (event.approvalId (js.at event.moment)).text?.isSome = true := by
    unfold EventMessage.looksInto
    rw [htype]
  unfold applyApprovalExpired
  dsimp only
  rw [← hid]
  by_cases htext : (event.approvalId (js.at event.moment)).text?.isSome = true
  · rw [if_pos htext]
    refine ⟨_,Updates.closed (fun index => (hlooks index).mpr htext) ?_ (fun _ => nofun)⟩
    intro a _
    unfold EventMessage.Records
    rw [htype]
    refine (a.closed_iff .expired a.decision (eventTime (js.at event.moment) event)).trans ?_
    rw [eq_self,true_and]
  · rw [if_neg htext]
    exact ⟨id,Updates.quiet List.prefix_rfl (fun index h => htext ((hlooks index).mp h))⟩

theorem applyLiveEventToTurns_updates (h : applyLiveEventToTurns js rows event session = some rows') :
    ∃ f, Updates js event session rows rows' f := by
  unfold applyLiveEventToTurns at h
  simp only [Option.bind_eq_bind,Option.bind_eq_some_iff] at h
  obtain ⟨copies,hcopies,h⟩ := h
  have hquiet (hlooks : ∀ index, ¬ event.looksInto js session copies index)
      (happrovals : copies.map (·.approvals) <+: rows'.map (·.approvals)) :
      ∃ f, Updates js event session rows rows' f :=
    ⟨id,(Updates.quiet happrovals hlooks).of_copies hcopies⟩
  have hsome (hupdates : ∃ f, Updates js event session copies rows' f) :
      ∃ f, Updates js event session rows rows' f := by
    obtain ⟨f,hf⟩ := hupdates
    exact ⟨f,hf.of_copies hcopies⟩
  unfold EventMessage.looksInto at hquiet
  cases htype : event.type with
  | sessionStarted =>
    rw [htype] at h hquiet
    cases h
    exact hquiet (fun _ => id) (applySessionStarted_approvals event _)
  | sessionUserInput =>
    rw [htype] at h hquiet
    cases h
    exact hquiet (fun _ => id) (applySessionUserInput_approvals event _)
  | sessionStatus =>
    rw [htype] at h hquiet
    cases h
    refine hquiet (fun _ => id) ?_
    rw [applySessionStatus_approvals]
  | sessionFinished =>
    rw [htype] at h hquiet
    refine hquiet (fun _ => id) ?_
    rw [applySessionFinished_approvals h]
  | approvalRequested =>
    rw [htype] at h
    cases h
    exact hsome (applyApprovalRequested_updates htype)
  | approvalResolved =>
    rw [htype] at h
    cases h
    exact hsome (applyApprovalResolved_updates htype)
  | approvalExpired =>
    rw [htype] at h
    cases h
    exact hsome (applyApprovalExpired_updates htype)
  | subagentStarted =>
    rw [htype] at h hquiet
    cases h
    exact hquiet (fun _ => id) (onTurn_approvals _ _ _ (by exact fun _ => rfl))
  | subagentTool =>
    rw [htype] at h hquiet
    cases h
    exact hquiet (fun _ => id) (onTurn_approvals _ _ _ (by exact fun _ => rfl))
  | subagentFinished =>
    rw [htype] at h hquiet
    cases h
    exact hquiet (fun _ => id) (onTurn_approvals _ _ _ (by exact fun _ => rfl))
  | sessionOutput =>
    rw [htype] at h hquiet
    exact hquiet (fun _ => id) (applySessionOutput_approvals h)
  | other name =>
    rw [htype] at h hquiet
    cases h
    exact hquiet (fun _ => id) List.prefix_rfl

/-- An event keeps the decisions that were taken exactly when all it reaches is pending, and
so does the decision that the app shows itself. -/
theorem applyLiveEventToTurns_keepsDecisions_iff (js : Engine) (session : Option Session)
    (rows : List TurnMessage) :
    (∀ event rows', applyLiveEventToTurns js rows event session = some rows' →
      (KeepsDecisions rows rows' ↔ event.Spares js session rows)) ∧
    (∀ selected requestId decision moment rows',
      sendApprovalDecision js rows selected session requestId decision moment = some rows' →
      (KeepsDecisions rows rows' ↔
        selected = [] ∨ (decisionEvent selected requestId decision moment).Spares js session rows)) := by
  have hevent (event : EventMessage) (rows' : List TurnMessage)
      (h : applyLiveEventToTurns js rows event session = some rows') :
      KeepsDecisions rows rows' ↔ event.Spares js session rows := by
    obtain ⟨f,hf⟩ := applyLiveEventToTurns_updates h
    exact hf.keepsDecisions_iff
  refine ⟨hevent,?_⟩
  intro selected requestId decision moment rows' h
  unfold sendApprovalDecision at h
  by_cases hselected : selected = []
  · rw [if_pos hselected,Option.some.injEq] at h
    subst h
    refine iff_of_true ⟨fun _ _ ha _ => ha,?_⟩ (.inl hselected)
    rintro place other ⟨a,ha,hchanged⟩ -
    exact absurd ha hchanged
  · rw [if_neg hselected] at h
    rw [hevent _ _ h,or_iff_right hselected]

end Events

namespace Sample

def askedRow (turnId requestId : String) (status : ApprovalStatus) : TurnMessage where
  turnId := .lit turnId
  sessionId := .lit "s1"
  userPrompt := .lit "fix it"
  startedAt := tenOClock.isoNow
  approvals := [{
    requestId := .lit requestId
    sessionId := .lit "s1"
    requestMethod := .lit "execCommandApproval"
    turnId := .lit turnId
    itemId := .undefined
    summary := .undefined
    command := .lit "make"
    cwd := .undefined
    expiresAt := .undefined
    proposedExecpolicyAmendment := none
    status := status
    createdAt := .str tenOClock.isoNow
    rawParams := .obj [] }]

/-- Request `0` was denied, and the app-server has started again and asks with `0`. -/
def restarted : List TurnMessage := [askedRow "t1" "0" .denied,askedRow "t2" "0" .pending]

/-- Request `1` was denied before the restart. -/
def renumbered : List TurnMessage := [askedRow "t1" "1" .denied,askedRow "t2" "0" .pending]

def approveRequest (rows : List TurnMessage) : Option (List TurnMessage) :=
  sendApprovalDecision engine rows (ofString "s1") none (ofString "0") .approve tenOClock

end Sample

/-- The approval of the second request also approves the one that was denied. -/
theorem restarted_not_keepsDecisions :
    ∃ rows', Sample.approveRequest Sample.restarted = some rows' ∧
      (approvalAt Sample.restarted (0,0)).map (·.status) = some .denied ∧
      (approvalAt rows' (0,0)).map (·.status) = some .approved ∧
      (approvalAt rows' (1,0)).map (·.status) = some .approved ∧
      ¬ KeepsDecisions Sample.restarted rows' := by
  refine ⟨_,rfl,rfl,by decide,by decide,?_⟩
  intro h
  have hkept := congrArg (Option.map (·.status)) (h.decided (0,0) _ rfl (by decide))
  revert hkept
  decide

/-- Where the ids differ, the approval of the second request leaves the first one denied. -/
theorem renumbered_keepsDecisions :
    ∃ rows', Sample.approveRequest Sample.renumbered = some rows' ∧
      (approvalAt rows' (0,0)).map (·.status) = some .denied ∧
      (approvalAt rows' (1,0)).map (·.status) = some .approved ∧
      KeepsDecisions Sample.renumbered rows' := by
  refine ⟨_,rfl,by decide,by decide,?_⟩
  have hiff := (applyLiveEventToTurns_keepsDecisions_iff Sample.engine none
    Sample.renumbered).2 (ofString "s1") (ofString "0") .approve Sample.tenOClock _ rfl
  refine hiff.mpr (.inr ?_)
  have honly (place : Place) (a : ApprovalRequest)
      (hreaches : (decisionEvent (ofString "s1") (ofString "0") .approve Sample.tenOClock).Reaches
        Sample.engine none Sample.renumbered place)
      (ha : approvalAt Sample.renumbered place = some a) : place = (1,0) ∧ a.status = .pending := by
    obtain ⟨_ | _ | i,_ | j⟩ := place
    · exact absurd hreaches.2 (by decide)
    · cases ha
    · cases ha
      exact ⟨rfl,rfl⟩
    all_goals cases ha
  refine ⟨?_,?_⟩
  · intro place a hreaches ha
    exact .inl (honly place a hreaches ha).2
  · intro place other a b hreaches hreaches' ha hb _ _
    rw [(honly place a hreaches ha).1,(honly other b hreaches' hb).1]

end CodeHarbor.App
