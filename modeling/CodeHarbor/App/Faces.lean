import CodeHarbor.App.Alike
import CodeHarbor.Lib.Run
import CodeHarbor.Lib.Queues
set_option autoImplicit false

namespace CodeHarbor.App
open Lib Lib.Js

/-! Which text stands in which row. The rows of a history get their ids from the events, take
over the ids of others and are filled piece by piece. -/

def EventMessage.named (js : Engine) (event : EventMessage) : Value :=
  match event.type with
  | .approvalRequested => (approvalRead (js.at event.moment) (eventPayload event) "turnId").ifText
  | _ => (eventPayload event).get "turnId"

def EventMessage.clockTurnId (event : EventMessage) : Value :=
  .str (ofString "turn-" ++ event.moment.now)

def EventMessage.generatedTurnId (event : EventMessage) : Value :=
  .str (ofString "turn-" ++ event.moment.now ++ ofString "-" ++ event.moment.random)

def EventMessage.turnIds (js : Engine) (event : EventMessage) : List Value :=
  if event.type = .sessionUserInput then [event.generatedTurnId]
  else [event.named js,event.clockTurnId]

/-- The ids of the rows that come before Codex has named a turn. -/
def placeholderIds : List Value := [.lit "turn-0",.lit "initial-turn"]

def EventMessage.clientRequestId (event : EventMessage) : Option JsText :=
  ((eventPayload event).get "clientRequestId").text?

def EventMessage.isDelta (event : EventMessage) : Bool :=
  event.type = .sessionOutput && ((eventPayload event).get "eventType").is "item/agentMessage/delta"

def EventMessage.chunk (t : JsText) (event : EventMessage) : JsText :=
  if event.isDelta && ((eventPayload event).get "turnId").strictEq (.str t) then
    (((eventPayload event).get "chunk").text?).getD []
  else []

def told (t : JsText) (events : List EventMessage) : JsText := events.flatMap (EventMessage.chunk t)

def completedItem (rt : Runtime) (payload : Value) : Value :=
  ((((payload.get "jsonPayload").or (tryParseJson rt (payload.get "chunk"))).or (.obj [])).get "item").or
    (.obj [])

/-- A completed message, which is the text of a row that has none. -/
def EventMessage.completesMessage (js : Engine) (event : EventMessage) : Bool :=
  event.type = .sessionOutput && ((eventPayload event).get "eventType").is "item/completed" &&
    ((completedItem (js.at event.moment) (eventPayload event)).get "type").is "agentMessage"

def isMessage (item : Value) : Bool := (item.get "type").is "agentMessage" && (item.get "text").truthy

def EventMessage.finishesMessage (event : EventMessage) : Bool :=
  event.type = .sessionFinished &&
    ((((eventPayload event).get "turn").get "items").items?.getD []).any isMessage

/-- The event may give a text to the row of the turn: a finished turn, and a completed message
that names this turn or none. -/
def EventMessage.preempts (js : Engine) (t : JsText) (event : EventMessage) : Bool :=
  event.finishesMessage ||
    (event.completesMessage js && (!(event.named js).truthy || (event.named js).strictEq (.str t)))

/-- No such event comes before the first piece of the turn. -/
def unpreempted (js : Engine) (t : JsText) (events : List EventMessage) : Bool :=
  (events.takeWhile (fun event => event.chunk t = [])).all (fun event => !event.preempts js t)

/-- Events as the gateway sends them. Pieces name their turn, inputs name none, and the id
that an input generates is new. -/
structure GatewaySent (js : Engine) (events : List EventMessage) : Prop where
  pieces : ∀ event ∈ events, event.isDelta = true →
    ∃ t, t ≠ [] ∧ (eventPayload event).get "turnId" = .str t
  inputs : ∀ event ∈ events, event.type = .sessionUserInput →
    ((eventPayload event).get "turnId").truthy = false
  fresh : events.Pairwise (fun earlier event => event.type = .sessionUserInput →
    ∀ id ∈ earlier.turnIds js, id.strictEq event.generatedTurnId = false)
  fresh_placeholder : ∀ event ∈ events, event.type = .sessionUserInput →
    ∀ id ∈ placeholderIds, id.strictEq event.generatedTurnId = false

/-! What an event does to the ids and the texts. -/

/-- What the attribution of text depends on in a row. -/
structure Face where
  turnId : Value
  text : Value
  clientRequestId : Option JsText

def TurnMessage.face (turn : TurnMessage) : Face where
  turnId := turn.turnId
  text := turn.text
  clientRequestId := turn.clientRequestId

/-- The row of the turn `tid` stands between `pre` and `post`: it has the id, or it takes the
id over while it has no text, or it is new. -/
inductive Opens (tid : Value) : List Face → List Face → Face → List Face → Prop where
  | found {pre post : List Face} {face : Face} :
      face.turnId.strictEq tid = true → Opens tid (pre ++ face :: post) pre face post
  | renamed {pre post : List Face} {face : Face} :
      face.text.truthy = false → (∀ other ∈ pre ++ post, other.turnId.strictEq tid = false) →
      Opens tid (pre ++ face :: post) pre { face with turnId := tid } post
  | added {faces : List Face} :
      (∀ other ∈ faces, other.turnId.strictEq tid = false) →
      Opens tid faces faces ⟨tid,.str [],none⟩ []

/-- An output leaves the text of its row alone, adds a piece to it, or sets the text of a
completed message where there is none. -/
inductive Output (js : Engine) (event : EventMessage) : Value → Value → Prop where
  | same {text : Value} : (∀ t, event.chunk t = []) → Output js event text text
  | piece {old : Value} {before chunk : JsText} :
      event.isDelta = true → ((eventPayload event).get "chunk").text? = some chunk →
      (js.at event.moment).textOf old = some before → Output js event old (.str (before ++ chunk))
  | message {old text : Value} : event.completesMessage js = true → (∀ t, event.chunk t = []) →
      old.truthy = false → text.truthy = true → Output js event old text

/-- The id of an event for a row: the turn it names, or else that of the newest row. -/
def EventMessage.target (js : Engine) (event : EventMessage) (faces : List Face) : Value :=
  (event.named js).or ((faces.getLast?.map (·.turnId)).getD event.clockTurnId)

inductive Effect (js : Engine) (event : EventMessage) : List Face → List Face → Prop where
  | same {faces : List Face} : event.type ≠ .sessionOutput → Effect js event faces faces
  | started : event.type = .sessionStarted → Effect js event [] [⟨.lit "turn-0",.str [],none⟩]
  | input {faces : List Face} : event.type = .sessionUserInput →
      (∀ id, id ≠ [] → event.clientRequestId = some id → ∀ face ∈ faces, face.clientRequestId ≠ some id) →
      Effect js event faces (faces ++ [⟨((eventPayload event).get "turnId").or event.generatedTurnId,
        .str [],event.clientRequestId⟩])
  | finished {pre : List Face} {face : Face} {text : Value} : event.finishesMessage = true →
      face.text.truthy = false → text.truthy = true →
      Effect js event (pre ++ [face]) (pre ++ [{ face with text := text }])
  | opened {faces pre post : List Face} {face : Face} : event.type ≠ .sessionOutput →
      event.type ≠ .sessionUserInput → Opens (event.target js faces) faces pre face post →
      Effect js event faces (pre ++ face :: post)
  | output {faces pre post : List Face} {face : Face} {text : Value} : event.type = .sessionOutput →
      Opens (event.target js faces) faces pre face post → Output js event face.text text →
      Effect js event faces (pre ++ { face with text := text } :: post)

section Rows

variable {rows : List TurnMessage}

theorem TurnMessage.clone_face {a b : TurnMessage} (h : a.clone = some b) : b.face = a.face := by
  unfold clone at h
  split_ifs at h
  · obtain ⟨items,-,hb⟩ := Option.map_eq_some_iff.mp h
    rw [← hb]
    rfl
  · cases h
    rfl

theorem faces_mapM_clone {copy : List TurnMessage} (h : rows.mapM TurnMessage.clone = some copy) :
    copy.map TurnMessage.face = rows.map TurnMessage.face := by
  induction rows generalizing copy with
  | nil =>
    cases h
    rfl
  | cons row rows ih =>
    rw [List.mapM_cons] at h
    simp only [Option.bind_eq_bind,Option.bind_eq_some_iff] at h
    obtain ⟨row',hrow,rest,hrest,h⟩ := h
    cases h
    rw [List.map_cons,List.map_cons,ih hrest,TurnMessage.clone_face hrow]

theorem modify_middle {α : Type} (pre post : List α) (x : α) (f : α → α) :
    (pre ++ x :: post).modify pre.length f = pre ++ f x :: post := by
  induction pre with
  | nil => rfl
  | cons y pre ih => simp [ih]

theorem faces_modify {f : TurnMessage → TurnMessage} (hf : ∀ row, (f row).face = row.face) (i : Nat) :
    (rows.modify i f).map TurnMessage.face = rows.map TurnMessage.face := by
  induction rows generalizing i with
  | nil => simp
  | cons row rows ih =>
    cases i with
    | zero => simp [hf]
    | succ i => simp [ih]

theorem faces_modifyFirst {p : TurnMessage → Bool} {f : TurnMessage → TurnMessage}
    (hf : ∀ row, p row = true → (f row).face = row.face) :
    (modifyFirst p f rows).map TurnMessage.face = rows.map TurnMessage.face := by
  induction rows with
  | nil => rfl
  | cons row rows ih =>
    rw [modifyFirst]
    split_ifs with hp
    · rw [List.map_cons,List.map_cons,hf row hp]
    · rw [List.map_cons,List.map_cons,ih]

theorem faces_closeApproval (requestId : Value) (close : ApprovalRequest → ApprovalRequest) :
    (closeApproval requestId close rows).map TurnMessage.face = rows.map TurnMessage.face := by
  unfold closeApproval
  dsimp only
  rw [List.map_map]
  apply List.map_congr_left
  intro row _
  rw [Function.comp_apply]
  split_ifs
  · rfl
  · rfl
  · rfl

theorem TurnMessage.awaiting_text {sessionId fallbackPrompt : Value} {row : TurnMessage}
    (h : row.awaiting sessionId fallbackPrompt = true) : row.text.truthy = false := by
  unfold awaiting at h
  simp only [Bool.and_eq_true] at h
  simpa using h.1.1.2

theorem TurnMessage.placeholder_text {row : TurnMessage} (h : row.placeholder = true) :
    row.text.truthy = false := by
  unfold placeholder at h
  simp only [Bool.and_eq_true] at h
  simpa using h.1.2

theorem awaiting_of_lastIndex {p : TurnMessage → Bool} {i : Nat} (h : lastIndex p rows = some i) :
    ∃ row, rows[i]? = some row ∧ p row = true := by
  unfold lastIndex at h
  obtain ⟨j,hj,rfl⟩ := Option.map_eq_some_iff.mp h
  obtain ⟨hlt,hp,-⟩ := List.findIdx?_eq_some_iff_getElem.mp hj
  rw [List.length_reverse] at hlt
  rw [List.getElem_reverse] at hp
  exact ⟨_,List.getElem?_eq_getElem (by omega),hp⟩

theorem getOrCreateTurn_opens (rt : Runtime) (sessionId targetTurnId fallbackPrompt : Value) :
    ∃ pre row post,
      (getOrCreateTurn rt sessionId rows targetTurnId fallbackPrompt).1 = pre ++ row :: post ∧
      (getOrCreateTurn rt sessionId rows targetTurnId fallbackPrompt).2 = pre.length ∧
      Opens (targetTurnId.or (newestTurnId rt rows)) (rows.map TurnMessage.face)
        (pre.map TurnMessage.face) row.face (post.map TurnMessage.face) := by
  unfold getOrCreateTurn
  generalize targetTurnId.or (newestTurnId rt rows) = tid
  dsimp only
  split_ifs with hplaceholder
  · obtain ⟨row,rfl⟩ := List.length_eq_one_iff.mp hplaceholder.1
    have htext := TurnMessage.placeholder_text (by simpa using hplaceholder.2)
    refine ⟨[],TurnMessage.adopt tid fallbackPrompt row,[],rfl,rfl,?_⟩
    exact @Opens.renamed tid [] [] row.face htext (by simp)
  · cases hfound : rows.findIdx? (fun turn => turn.turnId.strictEq tid) with
    | some i =>
      obtain ⟨hlt,hid,-⟩ := List.findIdx?_eq_some_iff_getElem.mp hfound
      obtain ⟨pre,post,hrows,hlength⟩ := split_of_getElem? (List.getElem?_eq_getElem hlt)
      refine ⟨pre,rows[i],post,hrows,hlength.symm,?_⟩
      have hfaces : rows.map TurnMessage.face =
          pre.map TurnMessage.face ++ rows[i].face :: post.map TurnMessage.face := by
        conv_lhs => rw [hrows]
        simp
      rw [hfaces]
      exact .found hid
    | none =>
      have hnone : ∀ row ∈ rows, row.turnId.strictEq tid = false := by
        simpa using List.findIdx?_eq_none_iff.mp hfound
      dsimp only
      cases hpending : lastIndex (TurnMessage.awaiting sessionId fallbackPrompt) rows with
      | some i =>
        obtain ⟨row,hrow,hawaiting⟩ := awaiting_of_lastIndex hpending
        obtain ⟨pre,post,rfl,rfl⟩ := split_of_getElem? hrow
        refine ⟨pre,TurnMessage.adopt tid fallbackPrompt row,post,modify_middle pre post row _,rfl,?_⟩
        rw [List.map_append,List.map_cons]
        refine @Opens.renamed tid _ _ row.face (TurnMessage.awaiting_text hawaiting) ?_
        intro other hother
        rw [← List.map_append] at hother
        obtain ⟨there,hthere,rfl⟩ := List.mem_map.mp hother
        refine hnone there ?_
        simp only [List.mem_append,List.mem_cons] at hthere ⊢
        tauto
      | none =>
        refine ⟨rows,createEmptyTurn rt tid sessionId fallbackPrompt,[],rfl,rfl,?_⟩
        refine Opens.added ?_
        intro other hother
        obtain ⟨there,hthere,rfl⟩ := List.mem_map.mp hother
        exact hnone there hthere

theorem onTurn_opens (rt : Runtime) (sessionId turnId : Value) {f : TurnMessage → TurnMessage}
    (hf : ∀ row, (f row).face = row.face) :
    ∃ pre face post, Opens (turnId.or (newestTurnId rt rows)) (rows.map TurnMessage.face) pre face post ∧
      (onTurn rt sessionId rows turnId f).map TurnMessage.face = pre ++ face :: post := by
  obtain ⟨pre,row,post,hrows,hindex,hopens⟩ :=
    @getOrCreateTurn_opens rows rt sessionId turnId (.str [])
  refine ⟨_,_,_,hopens,?_⟩
  unfold onTurn
  dsimp only
  rw [hrows,hindex,modify_middle,List.map_append,List.map_cons,hf]

end Rows

section Events

variable {rows : List TurnMessage} {js : Engine}

theorem finishedText_eq {text text' : Value} {items : List Value}
    (h : finishedText text items = some text') :
    text' = text ∨ (text.truthy = false ∧ text'.truthy = true ∧ items.any isMessage = true) := by
  induction items generalizing text with
  | nil =>
    cases h
    exact .inl rfl
  | cons item items ih =>
    unfold finishedText at h
    obtain ⟨type,htype,h⟩ := Option.bind_eq_some_iff.mp h
    have hread : type = item.get "type" := by
      cases item <;> simp [Value.read] at htype <;> exact htype.symm
    subst hread
    dsimp only at h
    split_ifs at h with hset
    · simp only [Bool.and_eq_true,Bool.not_eq_true'] at hset
      obtain ⟨⟨hmessage,htruthy⟩,hempty⟩ := hset
      have hany : (item :: items).any isMessage = true := by
        simp [isMessage,hmessage,htruthy]
      rcases ih h with heq | ⟨hfalse,-,-⟩
      · exact .inr ⟨hempty,by rw [heq]; exact htruthy,hany⟩
      · rw [htruthy] at hfalse
        cases hfalse
    · rcases ih h with heq | ⟨hfalse,htrue,hany⟩
      · exact .inl heq
      · exact .inr ⟨hfalse,htrue,by simp [hany]⟩

theorem applySessionFinished_effect {event : EventMessage} {rows' : List TurnMessage}
    (htype : event.type = .sessionFinished)
    (h : applySessionFinished (js.at event.moment) event rows = some rows') :
    Effect js event (rows.map TurnMessage.face) (rows'.map TurnMessage.face) := by
  have hother : event.type ≠ .sessionOutput := by
    rw [htype]
    decide
  unfold applySessionFinished at h
  cases hlast : rows.getLast? with
  | none =>
    rw [hlast] at h
    cases h
    exact .same hother
  | some newest =>
    rw [hlast] at h
    obtain ⟨text,htext,h⟩ := Option.bind_eq_some_iff.mp h
    cases h
    obtain ⟨pre,rfl⟩ := List.getLast?_eq_some_iff.mp hlast
    have hnewest : ∀ f, modifyNewest f (pre ++ [newest]) = pre ++ [f newest] := by
      intro f
      unfold modifyNewest
      rw [List.length_append,List.length_singleton,Nat.add_sub_cancel,modify_middle]
    rw [hnewest,List.map_append,List.map_append]
    rcases finishedText_eq htext with rfl | ⟨hempty,htruthy,hany⟩
    · exact .same hother
    · refine @Effect.finished js event _ newest.face text ?_ hempty htruthy
      simp [EventMessage.finishesMessage,htype,hany]

theorem applySessionStatus_faces (rt : Runtime) (event : EventMessage) :
    (applySessionStatus rt event rows).map TurnMessage.face = rows.map TurnMessage.face := by
  unfold applySessionStatus modifyNewest
  dsimp only
  apply faces_modify
  intro row
  split_ifs <;> rfl

theorem applyApprovalResolved_faces (rt : Runtime) (event : EventMessage) :
    (applyApprovalResolved rt event rows).map TurnMessage.face = rows.map TurnMessage.face := by
  unfold applyApprovalResolved
  dsimp only
  rw [apply_ite (List.map TurnMessage.face),faces_closeApproval,ite_self]

theorem applyApprovalExpired_faces (rt : Runtime) (event : EventMessage) :
    (applyApprovalExpired rt event rows).map TurnMessage.face = rows.map TurnMessage.face := by
  unfold applyApprovalExpired
  dsimp only
  rw [apply_ite (List.map TurnMessage.face),faces_closeApproval,ite_self]

theorem applySessionUserInput_effect (event : EventMessage) (sessionId : Value)
    (htype : event.type = .sessionUserInput) :
    Effect js event (rows.map TurnMessage.face)
      ((applySessionUserInput (js.at event.moment) event sessionId rows).map TurnMessage.face) := by
  unfold applySessionUserInput
  dsimp only
  have hid : ((eventPayload event).get "clientRequestId").text? = event.clientRequestId := rfl
  rw [hid]
  generalize (((eventPayload event).get "prompt").text?).getD [] = prompt
  split_ifs with hany
  · rw [faces_modifyFirst]
    · exact .same (by rw [htype]; decide)
    · intro row hsame
      have hkept : (event.clientRequestId.filter (· ≠ [])).or row.clientRequestId =
          row.clientRequestId := by
        cases hfilter : event.clientRequestId.filter (· ≠ []) with
        | none => rfl
        | some own =>
          simp only [TurnMessage.sameInput,hfilter,decide_eq_true_eq] at hsame
          rw [Option.some_or,hsame]
      unfold TurnMessage.face TurnMessage.fillInput
      dsimp only
      rw [hkept]
  · rw [List.map_append]
    refine .input htype ?_
    intro id hne hown face hface
    obtain ⟨row,hrow,rfl⟩ := List.mem_map.mp hface
    have hnot : ¬ row.sameInput event.clientRequestId prompt sessionId = true := by
      intro hsame
      exact hany (List.any_eq_true.mpr ⟨row,hrow,hsame⟩)
    have hfilter : (some id).filter (· ≠ []) = some id := by simp [hne]
    intro heq
    apply hnot
    simp only [TurnMessage.sameInput,hown,hfilter,decide_eq_true_eq]
    exact heq

end Events

section Outputs

variable {rt : Runtime} {a b : TurnMessage}

/-- `b` is `a` with what outputs fill in, apart from the text. -/
def TurnMessage.Extends (a b : TurnMessage) : Prop :=
  ∃ prompt reasoning summary completed tools diffs usage, b = { a with
    userPrompt := prompt
    reasoning := reasoning
    reasoningSummary := summary
    reasoningCompleted := completed
    tools := tools
    diffs := diffs
    tokenUsage := usage }

theorem TurnMessage.Extends.refl (a : TurnMessage) : a.Extends a := ⟨_,_,_,_,_,_,_,rfl⟩

theorem TurnMessage.Extends.face (h : a.Extends b) : b.face = a.face := by
  obtain ⟨_,_,_,_,_,_,_,rfl⟩ := h
  rfl

theorem outputDelta_extends {payload jsonPayload : Value} (h : outputDelta rt payload jsonPayload a = some b) :
    a.Extends b := by
  unfold outputDelta at h
  dsimp only at h
  split_ifs at h
  · obtain ⟨tools,-,h⟩ := Option.bind_eq_some_iff.mp h
    cases h
    exact ⟨_,_,_,_,_,_,_,rfl⟩
  · obtain ⟨tools,-,h⟩ := Option.bind_eq_some_iff.mp h
    cases h
    exact ⟨_,_,_,_,_,_,_,rfl⟩
  · cases h
    exact ⟨_,_,_,_,_,_,_,rfl⟩

theorem completedUserMessage_extends {item : Value} (h : completedUserMessage rt item a = some b) :
    a.Extends b := by
  unfold completedUserMessage at h
  obtain ⟨userText,-,h⟩ := Option.bind_eq_some_iff.mp h
  cases h
  split_ifs
  · exact ⟨_,_,_,_,_,_,_,rfl⟩
  · exact .refl a

theorem completedReasoning_extends {item : Value} (h : completedReasoning rt item a = some b) :
    a.Extends b := by
  unfold completedReasoning at h
  obtain ⟨reasoning,-,h⟩ := Option.bind_eq_some_iff.mp h
  cases h
  exact ⟨_,_,_,_,_,_,_,rfl⟩

theorem completedCommand_extends (item : Value) : a.Extends (completedCommand rt item a) := by
  unfold completedCommand
  split_ifs <;> exact ⟨_,_,_,_,_,_,_,rfl⟩

theorem completedFileChange_extends {item : Value} (h : completedFileChange rt item a = some b) :
    a.Extends b := by
  unfold completedFileChange at h
  obtain ⟨tools,-,h⟩ := Option.bind_eq_some_iff.mp h
  cases h
  exact ⟨_,_,_,_,_,_,_,rfl⟩

theorem diffUpdated_extends (jsonPayload : Value) : a.Extends (diffUpdated jsonPayload a) := by
  unfold diffUpdated
  cases (jsonPayload.get "diff").text? with
  | none => exact .refl a
  | some diff =>
    dsimp only
    split_ifs
    · exact ⟨_,_,_,_,_,_,_,rfl⟩
    · exact .refl a

theorem tokenUsageUpdated_extends (jsonPayload : Value) : a.Extends (tokenUsageUpdated jsonPayload a) := by
  unfold tokenUsageUpdated
  dsimp only
  split_ifs
  · exact ⟨_,_,_,_,_,_,_,rfl⟩
  · exact .refl a

theorem itemCompleted_extends {jsonPayload : Value} (h : itemCompleted rt jsonPayload a = some b) :
    a.Extends b ∨
      ((((jsonPayload.get "item").or (.obj [])).get "type").is "agentMessage" = true ∧
        a.text.truthy = false ∧ ∃ text, text.truthy = true ∧ b = { a with text := text }) := by
  unfold itemCompleted at h
  generalize (jsonPayload.get "item").or (.obj []) = item at h ⊢
  dsimp only at h
  split_ifs at h with huser hreasoning hcommand hfile hmessage
  · exact .inl (completedUserMessage_extends h)
  · exact .inl (completedReasoning_extends h)
  · cases h
    exact .inl (completedCommand_extends item)
  · exact .inl (completedFileChange_extends h)
  · cases h
    simp only [Bool.and_eq_true,Bool.not_eq_true'] at hmessage
    exact .inr ⟨hmessage.1.1,hmessage.2,item.get "text",hmessage.1.2,rfl⟩
  · cases h
    exact .inl (.refl a)

theorem agentMessageDelta_extends {payload : Value} (h : agentMessageDelta rt payload a = some b) :
    ((payload.get "chunk").text? = none ∧ b = a) ∨
      ∃ chunk before, (payload.get "chunk").text? = some chunk ∧ rt.textOf a.text = some before ∧
        b = { a with text := .str (before ++ chunk), assistantStatus := .streaming } := by
  unfold agentMessageDelta at h
  cases hchunk : (payload.get "chunk").text? with
  | none =>
    rw [hchunk] at h
    cases h
    exact .inl ⟨rfl,rfl⟩
  | some chunk =>
    rw [hchunk] at h
    obtain ⟨before,hbefore,h⟩ := Option.bind_eq_some_iff.mp h
    cases h
    exact .inr ⟨chunk,before,rfl,hbefore,rfl⟩

theorem EventMessage.chunk_of_not_delta {event : EventMessage} (h : event.isDelta = false) (t : JsText) :
    event.chunk t = [] := by
  simp [chunk,h]

theorem outputOnTurn_output {js : Engine} {event : EventMessage} (htype : event.type = .sessionOutput)
    (h : outputOnTurn (js.at event.moment) (eventPayload event) a = some b) :
    ∃ text, b.face = { a.face with text := text } ∧ Output js event a.text text := by
  have hkept : event.isDelta = false → a.Extends b →
      ∃ text, b.face = { a.face with text := text } ∧ Output js event a.text text := by
    intro hdelta hextends
    exact ⟨a.text,hextends.face,.same (EventMessage.chunk_of_not_delta hdelta)⟩
  unfold outputOnTurn at h
  dsimp only at h
  split_ifs at h with hdelta houtput hcompleted hdiff husage
  · have hpiece : event.isDelta = true := by simp [EventMessage.isDelta,htype,hdelta]
    rcases agentMessageDelta_extends h with ⟨hnone,rfl⟩ | ⟨chunk,before,hchunk,hbefore,rfl⟩
    · refine ⟨b.text,rfl,.same ?_⟩
      intro t
      simp [EventMessage.chunk,hnone]
    · exact ⟨_,rfl,.piece hpiece hchunk hbefore⟩
  all_goals
    have hpiece : event.isDelta = false := by
      simpa [EventMessage.isDelta,htype] using hdelta
  · exact hkept hpiece (outputDelta_extends h)
  · rcases itemCompleted_extends h with hextends | ⟨hmessage,hempty,text,htruthy,rfl⟩
    · exact hkept hpiece hextends
    · refine ⟨text,rfl,.message ?_ (EventMessage.chunk_of_not_delta hpiece) hempty htruthy⟩
      simp only [EventMessage.completesMessage,htype,hcompleted,completedItem,hmessage,decide_true,
        Bool.and_self]
  · cases h
    exact hkept hpiece (diffUpdated_extends _)
  · cases h
    exact hkept hpiece (tokenUsageUpdated_extends _)
  · cases h
    exact hkept hpiece (.refl a)

end Outputs

section Live

variable {rows : List TurnMessage} {js : Engine} {event : EventMessage}

theorem EventMessage.target_eq (rows : List TurnMessage) :
    event.target js (rows.map TurnMessage.face) =
      (event.named js).or (newestTurnId (js.at event.moment) rows) := by
  unfold target newestTurnId
  rw [List.getLast?_map,Option.map_map]
  rfl

theorem onTurn_effect (sessionId turnId : Value) {f : TurnMessage → TurnMessage}
    (hf : ∀ row, (f row).face = row.face) (hnamed : event.named js = turnId)
    (houtput : event.type ≠ .sessionOutput) (hinput : event.type ≠ .sessionUserInput) :
    Effect js event (rows.map TurnMessage.face)
      ((onTurn (js.at event.moment) sessionId rows turnId f).map TurnMessage.face) := by
  obtain ⟨pre,face,post,hopens,hfaces⟩ :=
    @onTurn_opens rows (js.at event.moment) sessionId turnId f hf
  rw [hfaces]
  refine .opened houtput hinput ?_
  rw [EventMessage.target_eq,hnamed]
  exact hopens

theorem applySessionOutput_effect (sessionId : Value) (htype : event.type = .sessionOutput)
    {rows' : List TurnMessage}
    (h : applySessionOutput (js.at event.moment) event sessionId rows = some rows') :
    Effect js event (rows.map TurnMessage.face) (rows'.map TurnMessage.face) := by
  unfold applySessionOutput at h
  obtain ⟨pre,row,post,hrows,hindex,hopens⟩ := @getOrCreateTurn_opens rows (js.at event.moment)
    sessionId ((eventPayload event).get "turnId") (.str [])
  have hnamed : event.named js = (eventPayload event).get "turnId" := by
    unfold EventMessage.named
    rw [htype]
  simp only [hrows,hindex,Option.bind_eq_bind,Option.bind_eq_some_iff] at h
  obtain ⟨there,hthere,row',hrow',h⟩ := h
  have hrow : there = row := by simpa using hthere.symm
  subst hrow
  cases h
  obtain ⟨text,hface,houtput⟩ := outputOnTurn_output htype hrow'
  have hset : (pre ++ there :: post).set pre.length row' = pre ++ row' :: post := by simp
  rw [hset,List.map_append,List.map_cons,hface]
  refine .output htype ?_ houtput
  rw [EventMessage.target_eq,hnamed]
  exact hopens

theorem applySessionStarted_effect (sessionId : Value) (htype : event.type = .sessionStarted) :
    Effect js event (rows.map TurnMessage.face)
      ((applySessionStarted (js.at event.moment) event sessionId rows).map TurnMessage.face) := by
  unfold applySessionStarted
  dsimp only
  split_ifs with hfirst
  · rw [Bool.and_eq_true,List.isEmpty_iff] at hfirst
    rw [hfirst.2]
    exact .started htype
  · exact .same (by rw [htype]; decide)

theorem applyLiveEventToTurns_effect {session : Option Session} {rows' : List TurnMessage}
    (h : applyLiveEventToTurns js rows event session = some rows') :
    Effect js event (rows.map TurnMessage.face) (rows'.map TurnMessage.face) := by
  unfold applyLiveEventToTurns at h
  simp only [Option.bind_eq_bind,Option.bind_eq_some_iff] at h
  obtain ⟨copy,hcopy,h⟩ := h
  rw [← faces_mapM_clone hcopy]
  generalize currentSessionId (js.at event.moment) event session = sessionId at h
  have hnamed : event.type ≠ .approvalRequested →
      event.named js = (eventPayload event).get "turnId" := by
    intro hother
    unfold EventMessage.named
    split
    · contradiction
    · rfl
  cases htype : event.type with
  | sessionStarted =>
    rw [htype] at h
    cases h
    exact applySessionStarted_effect sessionId htype
  | sessionUserInput =>
    rw [htype] at h
    cases h
    exact applySessionUserInput_effect event sessionId htype
  | sessionStatus =>
    rw [htype] at h
    cases h
    rw [applySessionStatus_faces]
    exact .same (by rw [htype]; decide)
  | sessionFinished =>
    rw [htype] at h
    exact applySessionFinished_effect htype h
  | approvalRequested =>
    rw [htype] at h
    cases h
    refine onTurn_effect sessionId _ (fun _ => rfl) ?_ (by rw [htype]; decide) (by rw [htype]; decide)
    unfold EventMessage.named
    rw [htype]
  | approvalResolved =>
    rw [htype] at h
    cases h
    rw [applyApprovalResolved_faces]
    exact .same (by rw [htype]; decide)
  | approvalExpired =>
    rw [htype] at h
    cases h
    rw [applyApprovalExpired_faces]
    exact .same (by rw [htype]; decide)
  | subagentStarted =>
    rw [htype] at h
    cases h
    exact onTurn_effect sessionId _ (fun _ => rfl) (hnamed (by rw [htype]; decide))
      (by rw [htype]; decide) (by rw [htype]; decide)
  | subagentTool =>
    rw [htype] at h
    cases h
    exact onTurn_effect sessionId _ (fun _ => rfl) (hnamed (by rw [htype]; decide))
      (by rw [htype]; decide) (by rw [htype]; decide)
  | subagentFinished =>
    rw [htype] at h
    cases h
    exact onTurn_effect sessionId _ (fun _ => rfl) (hnamed (by rw [htype]; decide))
      (by rw [htype]; decide) (by rw [htype]; decide)
  | sessionOutput =>
    rw [htype] at h
    exact applySessionOutput_effect sessionId htype h
  | other name =>
    rw [htype] at h
    cases h
    exact .same (by rw [htype]; exact fun hother => nomatch hother)

end Live

end CodeHarbor.App
