import CodeHarbor.Gateway.State
import CodeHarbor.App.Aggregator
set_option autoImplicit false

namespace CodeHarbor.App
open Lib.Js

/-! A finish event has three readers: the gateway's own store, the session list of the app
and the transcript. -/

inductive TurnOutcome where
  | completed
  | failed
  | cancelled
  deriving DecidableEq, Repr

def outcomeOf (status : Value) : Option TurnOutcome :=
  if status.is "completed" then some .completed
  else if status.is "failed" || status.is "error" then some .failed
  else if status.is "cancelled" || status.is "interrupted" then some .cancelled
  else none

def storedOutcome : Gateway.SessionStatus → Option TurnOutcome
  | .completed => some .completed
  | .failed => some .failed
  | .cancelled => some .cancelled
  | _ => none

def AssistantStatus.outcome : AssistantStatus → Option TurnOutcome
  | .completed => some .completed
  | .failed => some .failed
  | .cancelled => some .cancelled
  | _ => none

/-- A `session-finished` message. Its payload carries no `session`, so the gateway infers the
status it stores. -/
structure Finish where
  sessionId : JsText
  named : sessionId ≠ []
  timestamp : JsText
  payload : Value
  bare : payload.get "session" = .undefined

namespace Finish

/-- From the app-server's `turn/completed`, whose turn is passed on as it is. -/
def turnCompleted (threadId : JsText) (named : threadId ≠ []) (timestamp : JsText) (turn : Value) :
    Finish where
  sessionId := threadId
  named := named
  timestamp := timestamp
  payload := .obj [(ofString "threadId",.str threadId),(ofString "turn",turn)]
  bare := rfl

/-- From `thread/status/changed`, when the thread is no subagent's. -/
def threadStatusChanged (threadId : JsText) (named : threadId ≠ []) (timestamp : JsText)
    (outcome : TurnOutcome) : Finish :=
  let status : Value := match outcome with
    | .completed => .lit "completed"
    | .failed => .lit "failed"
    | .cancelled => .lit "cancelled"
  { sessionId := threadId
    named := named
    timestamp := timestamp
    payload := .obj [(ofString "threadId",.str threadId),(ofString "status",status),
      (ofString "turn",.obj [(ofString "status",status)])]
    bare := rfl }

def settleInterruptedSession (id : JsText) (named : id ≠ []) (timestamp : JsText)
    (turnId : Option JsText) : Finish where
  sessionId := id
  named := named
  timestamp := timestamp
  payload := .obj ([(ofString "sessionId",.str id),(ofString "status",.lit "cancelled")] ++
    ((turnId.filter (· ≠ [])).map (fun turnId => (ofString "turnId",Value.str turnId))).toList)
  bare := by cases turnId.filter (· ≠ []) <;> rfl

/-- From a turn that the app-server did not start. -/
def startFailed (id : JsText) (named : id ≠ []) (timestamp error : JsText) : Finish where
  sessionId := id
  named := named
  timestamp := timestamp
  payload := .obj [(ofString "sessionId",.str id),(ofString "status",.lit "failed"),
    (ofString "error",.str error)]
  bare := rfl

def turn (f : Finish) : Value := f.payload.get "turn"

/-- What the message says: the status of its turn, or its own where there is no turn. -/
def announced (f : Finish) : Option TurnOutcome :=
  if f.turn.truthy then outcomeOf (f.turn.get "status") else outcomeOf (f.payload.get "status")

def message (f : Finish) : Gateway.GatewayMessage where
  type := .sessionFinished
  sessionId := String.ofList (toRunes f.sessionId)
  turnStatus := (f.turn.get "status").text?.map (fun status => String.ofList (toRunes status))

def event (f : Finish) (moment : Moment) : EventMessage where
  type := .sessionFinished
  moment := moment
  sessionId := .str f.sessionId
  payload := f.payload
  timestamp := .str f.timestamp

end Finish

/-- The session list on a `session-status` or a `session-finished`. -/
def showStatus (msg : EventMessage) (sessions : List Session) : List Session :=
  let sessId := msg.sessionId.or (msg.payload.get "threadId")
  let status := (msg.payload.get "status").or ((msg.payload.get "turn").get "status")
  if sessId.truthy && status.truthy then
    sessions.map (fun s => if (Value.str s.id).strictEq sessId then { s with status := status } else s)
  else sessions

/-- Every reader takes the message for the outcome it announces: the record in the store, the
entries of the list and the newest row of a transcript. -/
structure Finish.Agrees (f : Finish) (outcome : TurnOutcome) : Prop where
  announced : f.announced = some outcome
  stored : ∀ (g : Gateway.Server) now, ∀ session ∈
    (g.broadcastGateway now f.message).store.getSession f.message.sessionId,
      storedOutcome session.status = some outcome
  listed : ∀ moment sessions, ∀ session ∈ showStatus (f.event moment) sessions,
    session.id = f.sessionId → outcomeOf session.status = some outcome
  computed : ∀ js moment session turns copies, turns ≠ [] →
    turns.mapM TurnMessage.clone = some copies →
      ∃ rows newest, applyLiveEventToTurns js turns (f.event moment) session = some rows ∧
        rows.getLast? = some newest ∧ newest.assistantStatus.outcome = some outcome

def readable (item : Value) : Bool := (item.read "type").isSome

/-- The turn's status is one of the three words that every reader knows and the payload's, if
there is one, means the same; without a turn, the payload says `completed`. -/
def Finish.plain (f : Finish) : Bool :=
  let status := f.payload.get "status"
  if f.turn.truthy then
    ((f.turn.get "status").is "completed" || (f.turn.get "status").is "failed" ||
      (f.turn.get "status").is "cancelled") &&
    (!status.truthy || outcomeOf status = outcomeOf (f.turn.get "status")) &&
    (((f.turn.get "items").items?).getD []).all readable
  else status.is "completed"

section words

theorem rune_eq_iff {u : UInt16} {c : Char} (h : c.toNat < 128) :
    rune u = c ↔ u = UInt16.ofNat c.toNat := by
  have hback : (UInt16.ofNat c.toNat).toNat = c.toNat := by
    rw [UInt16.toNat_ofNat']
    omega
  rw [rune]
  split_ifs with hsurrogate
  · -- a lone surrogate is no letter, and neither is the character it is read as
    constructor
    · rintro rfl
      exact absurd h (by decide)
    · rintro rfl
      simp only [isHigh,isLow,hback,Bool.or_eq_true,Bool.and_eq_true,decide_eq_true_eq] at hsurrogate
      omega
  · have hvalid : u.toNat.isValidChar := by
      have hu := u.toNat_lt
      simp only [isHigh,isLow,Bool.or_eq_true,Bool.and_eq_true,decide_eq_true_eq] at hsurrogate
      unfold Nat.isValidChar
      omega
    constructor
    · rintro rfl
      rw [toNat_char hvalid,UInt16.ofNat_toNat]
    · rintro rfl
      rw [hback,Char.ofNat_toNat]

theorem toRunes_eq_iff {text : JsText} {word : List Char} (h : ∀ c ∈ word, c.toNat < 128) :
    toRunes text = word ↔ text = word.map (fun c => UInt16.ofNat c.toNat) := by
  induction text using toRunes.induct generalizing word with
  | case1 => cases word <;> simp [toRunes]
  | case2 u =>
    cases word with
    | nil => simp [toRunes]
    | cons c word => 
      have hc := h c List.mem_cons_self
      simp [toRunes,rune_eq_iff hc]
  | case3 u v rest hpair ih =>
    cases word with
    | nil => simp [toRunes,hpair]
    | cons c word =>
      have hc := h c List.mem_cons_self
      simp only [isHigh,isLow,Bool.and_eq_true,decide_eq_true_eq] at hpair
      constructor
      · intro heq
        rw [toRunes,if_pos (by simpa [isHigh,isLow] using hpair),List.cons.injEq] at heq
        have hvalid : (0x10000+(u.toNat-0xd800)*0x400+(v.toNat-0xdc00)).isValidChar := by
          unfold Nat.isValidChar
          omega
        rw [← heq.1,toNat_char hvalid] at hc
        omega
      · intro heq
        rw [List.map_cons,List.cons.injEq] at heq
        have hu : u.toNat = c.toNat := by
          rw [heq.1,UInt16.toNat_ofNat']
          omega
        omega
  | case4 u v rest hpair ih =>
    cases word with
    | nil => simp [toRunes,hpair]
    | cons c word =>
      have hc := h c List.mem_cons_self
      have hword := fun d hd => h d (List.mem_cons_of_mem c hd)
      rw [toRunes,if_neg hpair,List.cons.injEq,List.map_cons,List.cons.injEq,rune_eq_iff hc,ih hword]

theorem status_is_iff {v : Value} {word : String} (h : ∀ c ∈ word.toList, c.toNat < 128) :
    (v.text?.map (fun status => String.ofList (toRunes status))) = some word ↔ v.is word = true := by
  rw [Value.is_iff]
  cases v with
  | str text =>
    simp only [Value.text?,Option.map_some,Option.some.injEq,Value.lit,Value.str.injEq,ofString]
    rw [← toRunes_eq_iff h]
    constructor
    · rintro rfl
      simp
    · intro htext
      rw [htext,String.ofList_toList]
  | _ => simp [Value.text?,Value.lit]

theorem outcomeOf_eq_some {v : Value} {outcome : TurnOutcome} (h : outcomeOf v = some outcome) :
    (v.is "completed" = true ∧ outcome = .completed) ∨
    (v.is "failed" = true ∧ outcome = .failed) ∨ (v.is "error" = true ∧ outcome = .failed) ∨
    (v.is "cancelled" = true ∧ outcome = .cancelled) ∨
    (v.is "interrupted" = true ∧ outcome = .cancelled) := by
  unfold outcomeOf at h
  split_ifs at h with hcompleted hfailed hcancelled
  · exact .inl ⟨hcompleted,(Option.some.inj h).symm⟩
  · rw [Bool.or_eq_true] at hfailed
    have houtcome := (Option.some.inj h).symm
    rcases hfailed with hfailed | herror
    · exact .inr (.inl ⟨hfailed,houtcome⟩)
    · exact .inr (.inr (.inl ⟨herror,houtcome⟩))
  · rw [Bool.or_eq_true] at hcancelled
    have houtcome := (Option.some.inj h).symm
    rcases hcancelled with hcancelled | hinterrupted
    · exact .inr (.inr (.inr (.inl ⟨hcancelled,houtcome⟩)))
    · exact .inr (.inr (.inr (.inr ⟨hinterrupted,houtcome⟩)))

end words

namespace Finish

variable {f : Finish} {outcome : TurnOutcome}

/-- The gateway looks at the status of the turn and at nothing else. -/
theorem inferFinishedStatus_message (f : Finish) :
    Gateway.inferFinishedStatus f.message =
      if (f.turn.get "status").is "failed" || (f.turn.get "status").is "error" then .failed
      else if (f.turn.get "status").is "cancelled" || (f.turn.get "status").is "interrupted" then
        .cancelled
      else .completed := by
  have hword (word : String) (h : word.toList.all (fun c => c.toNat < 128) = true) :
      f.message.turnStatus = some word ↔ (f.turn.get "status").is word = true :=
    status_is_iff (by simpa using h)
  have hfailed := hword "failed" (by decide)
  have herror := hword "error" (by decide)
  have hcancelled := hword "cancelled" (by decide)
  have hinterrupted := hword "interrupted" (by decide)
  simp only [Bool.or_eq_true,← hfailed,← herror,← hcancelled,← hinterrupted]
  unfold Gateway.inferFinishedStatus
  cases f.message.turnStatus with
  | none => simp
  | some status => simp

theorem getSession_broadcast (f : Finish) (g : Gateway.Server) (now : Nat) :
    (g.broadcastGateway now f.message).store.getSession f.message.sessionId =
      (g.store.getSession f.message.sessionId).map (fun existing => { existing with
        status := Gateway.inferFinishedStatus f.message
        activeTurnId := some none
        lastUpdatedAt := now }) := by
  have hstore : (g.broadcastGateway now f.message).store =
      g.store.updateSession f.message.sessionId (fun existing => { existing with
        status := Gateway.inferFinishedStatus f.message
        activeTurnId := some none
        lastUpdatedAt := now }) := rfl
  rw [hstore,Gateway.GatewayStore.getSession_updateSession _ ?_]
  · exact if_pos rfl
  · exact fun _ => rfl

theorem stored_iff :
    (∀ (g : Gateway.Server) now, ∀ session ∈
      (g.broadcastGateway now f.message).store.getSession f.message.sessionId,
        storedOutcome session.status = some outcome) ↔
    storedOutcome (Gateway.inferFinishedStatus f.message) = some outcome := by
  constructor
  · intro h
    let g := ({} : Gateway.Server).upsertSession (Gateway.minimalSession f.message.sessionId 0 .running)
    have hsession : g.store.getSession f.message.sessionId =
        some (Gateway.minimalSession f.message.sessionId 0 .running) := by
      rw [Gateway.Server.upsertSession_store,Gateway.GatewayStore.getSession_upsertSession]
      exact if_pos rfl
    exact h g 0 _ (by rw [getSession_broadcast,hsession]; rfl)
  · intro h g now session hsession
    rw [getSession_broadcast] at hsession
    obtain ⟨existing,-,rfl⟩ := Option.map_eq_some_iff.mp hsession
    exact h

theorem listed_iff :
    (∀ moment sessions, ∀ session ∈ showStatus (f.event moment) sessions,
      session.id = f.sessionId → outcomeOf session.status = some outcome) ↔
    outcomeOf ((f.payload.get "status").or (f.turn.get "status")) = some outcome := by
  have hnamed : ((Value.str f.sessionId).or (f.payload.get "threadId")) = .str f.sessionId :=
    Value.or_of_truthy (by simpa using f.named) _
  have hshow (moment : Moment) (sessions : List Session) : showStatus (f.event moment) sessions =
      if ((f.payload.get "status").or (f.turn.get "status")).truthy then
        sessions.map (fun s => if s.id = f.sessionId then
          { s with status := (f.payload.get "status").or (f.turn.get "status") } else s)
      else sessions := by
    unfold showStatus
    simp only [event,hnamed,turn]
    have htruthy : (Value.str f.sessionId).truthy = true := by simpa using f.named
    simp only [htruthy,Value.strictEq,Bool.true_and,decide_eq_true_eq]
    rfl
  constructor
  · intro h
    let moment : Moment := ⟨[],[],[]⟩
    have hentry := h moment [{ id := f.sessionId }]
    rw [hshow] at hentry
    split_ifs at hentry with hstatus
    · simpa using hentry
    · have hold := hentry _ (List.mem_singleton_self _) rfl
      cases hold
  · intro h moment sessions session hsession hid
    have hstatus : ((f.payload.get "status").or (f.turn.get "status")).truthy = true := by
      rcases outcomeOf_eq_some h with ⟨h,-⟩ | ⟨h,-⟩ | ⟨h,-⟩ | ⟨h,-⟩ | ⟨h,-⟩
      all_goals
        rw [Value.is_iff.mp h]
        rfl
    rw [hshow,if_pos hstatus] at hsession
    obtain ⟨old,-,rfl⟩ := List.mem_map.mp hsession
    split_ifs at hid ⊢ with hold
    · exact h
    · exact absurd hid hold

theorem isSome_finishedText (text : Value) (items : List Value) :
    (finishedText text items).isSome = items.all readable := by
  induction items generalizing text with
  | nil => rfl
  | cons item items ih =>
    rw [finishedText,List.all_cons]
    cases htype : item.read "type" with
    | none => simp [readable,htype]
    | some type => simp [readable,htype,ih]

theorem getLast?_modifyNewest (g : TurnMessage → TurnMessage) (turns : List TurnMessage) :
    (modifyNewest g turns).getLast? = turns.getLast?.map g := by
  simp [modifyNewest,List.getLast?_eq_getElem?]

/-- The status that the transcript gives its newest row. -/
def computedStatus (f : Finish) : AssistantStatus :=
  let status := (f.turn.get "status").or (f.payload.get "status")
  if status.is "cancelled" then .cancelled else if status.is "failed" then .failed else .completed

def items (f : Finish) : List Value := ((f.turn.get "items").items?).getD []

theorem eventPayload_get (f : Finish) (moment : Moment) (key : String) :
    (eventPayload (f.event moment)).get key = f.payload.get key := by
  unfold eventPayload event
  by_cases h : f.payload.truthy = true
  · rw [Value.or_of_truthy h]
  · rw [Value.or_of_falsy (eq_false_of_ne_true h)]
    cases hpayload : f.payload with
    | obj members => simp [hpayload] at h
    | _ => rfl

theorem applySessionFinished_event (f : Finish) (rt : Runtime) (moment : Moment)
    {turns : List TurnMessage} (newest : TurnMessage) (hnewest : turns.getLast? = some newest) :
    applySessionFinished rt (f.event moment) turns =
      (finishedText newest.text f.items).map (fun text => modifyNewest (fun turn => { turn with
        assistantStatus := f.computedStatus
        completedAt := eventTime rt (f.event moment)
        text := text }) turns) := by
  unfold applySessionFinished
  rw [hnewest]
  simp only [eventPayload_get,items,turn,computedStatus]
  cases finishedText newest.text (((f.payload.get "turn").get "items").items?.getD []) <;> rfl

theorem computed_iff :
    (∀ js moment session turns copies, turns ≠ [] → turns.mapM TurnMessage.clone = some copies →
      ∃ rows newest, applyLiveEventToTurns js turns (f.event moment) session = some rows ∧
        rows.getLast? = some newest ∧ newest.assistantStatus.outcome = some outcome) ↔
    f.items.all readable = true ∧ f.computedStatus.outcome = some outcome := by
  have happly (js : Engine) (moment : Moment) (session : Option Session)
      {turns copies : List TurnMessage} (hcopies : turns.mapM TurnMessage.clone = some copies) :
      applyLiveEventToTurns js turns (f.event moment) session =
        applySessionFinished (js.at moment) (f.event moment) copies := by
    rw [applyLiveEventToTurns,hcopies]
    rfl
  constructor
  · intro h
    let js : Engine := ⟨fun _ => none,fun _ => none⟩
    let moment : Moment := ⟨[],[],[]⟩
    let turn := createEmptyTurn (js.at moment) .undefined .undefined .undefined
    have hcopies : [turn].mapM TurnMessage.clone = some [turn] := rfl
    obtain ⟨rows,newest,hrows,hnewest,houtcome⟩ := h js moment none [turn] [turn] (by simp) hcopies
    rw [happly js moment none hcopies,f.applySessionFinished_event _ moment turn rfl] at hrows
    obtain ⟨text,htext,rfl⟩ := Option.map_eq_some_iff.mp hrows
    constructor
    · rw [← isSome_finishedText turn.text,htext]
      rfl
    · rw [getLast?_modifyNewest] at hnewest
      cases hnewest
      exact houtcome
  · rintro ⟨hitems,houtcome⟩ js moment session turns copies hturns hcopies
    obtain ⟨newest,hnewest⟩ : ∃ newest, copies.getLast? = some newest := by
      cases turns with
      | nil => exact absurd rfl hturns
      | cons turn rest =>
        rw [List.mapM_cons] at hcopies
        cases hclone : turn.clone with
        | none => simp [hclone] at hcopies
        | some copy =>
          cases hrest : rest.mapM TurnMessage.clone with
          | none => simp [hclone,hrest] at hcopies
          | some others =>
            simp only [hclone,hrest,Option.bind_eq_bind,Option.bind_some,Option.pure_def,
              Option.some.injEq] at hcopies
            subst hcopies
            exact ⟨_,List.getLast?_cons⟩
    obtain ⟨text,htext⟩ := Option.isSome_iff_exists.mp
      ((isSome_finishedText newest.text f.items).trans hitems)
    rw [happly js moment session hcopies,f.applySessionFinished_event _ moment newest hnewest,htext]
    refine ⟨_,_,rfl,(getLast?_modifyNewest _ _).trans (congrArg _ hnewest),?_⟩
    exact houtcome

theorem agrees_iff : f.Agrees outcome ↔ f.announced = some outcome ∧
    storedOutcome (Gateway.inferFinishedStatus f.message) = some outcome ∧
    outcomeOf ((f.payload.get "status").or (f.turn.get "status")) = some outcome ∧
    f.items.all readable = true ∧ f.computedStatus.outcome = some outcome := by
  constructor
  · intro h
    exact ⟨h.announced,stored_iff.mp h.stored,listed_iff.mp h.listed,computed_iff.mp h.computed⟩
  · rintro ⟨hannounced,hstored,hlisted,hcomputed⟩
    exact ⟨hannounced,stored_iff.mpr hstored,listed_iff.mpr hlisted,computed_iff.mpr hcomputed⟩

theorem known_status {status : Value} {outcome : TurnOutcome} (h : f.turn.get "status" = status)
    (hstatus : status = .lit "completed" ∧ outcome = .completed ∨
      status = .lit "failed" ∧ outcome = .failed ∨
      status = .lit "cancelled" ∧ outcome = .cancelled) :
    outcomeOf status = some outcome ∧
    storedOutcome (Gateway.inferFinishedStatus f.message) = some outcome ∧
    f.computedStatus.outcome = some outcome := by
  rw [inferFinishedStatus_message,computedStatus,h]
  rcases hstatus with ⟨rfl,rfl⟩ | ⟨rfl,rfl⟩ | ⟨rfl,rfl⟩
  all_goals exact ⟨rfl,rfl,rfl⟩

/-- The other words for a failure and a cancellation are lost on the transcript. -/
theorem not_computed_of_other_word {status : Value} {outcome : TurnOutcome}
    (h : f.turn.get "status" = status)
    (hstatus : status = .lit "error" ∧ outcome = .failed ∨
      status = .lit "interrupted" ∧ outcome = .cancelled) :
    f.computedStatus.outcome ≠ some outcome := by
  rw [computedStatus,h]
  rcases hstatus with ⟨rfl,rfl⟩ | ⟨rfl,rfl⟩
  all_goals
    intro hcompleted
    cases hcompleted

theorem listed_known {status : Value} {outcome : TurnOutcome} (h : outcomeOf status = some outcome)
    (own : Value) : outcomeOf (own.or status) = some outcome ↔
      (!own.truthy || outcomeOf own = outcomeOf status) = true := by
  cases hown : own.truthy with
  | true => simp [Value.or_of_truthy hown,h]
  | false => simp [Value.or_of_falsy hown,h]

theorem agrees_turn_iff (hturn : f.turn.truthy = true) :
    (∃ outcome, f.Agrees outcome) ↔ f.plain = true := by
  simp only [agrees_iff,announced,plain,hturn,if_true]
  constructor
  · rintro ⟨outcome,hannounced,-,hlisted,hitems,hcomputed⟩
    have hown := (listed_known hannounced (f.payload.get "status")).mp hlisted
    rw [hown,Bool.and_true,Bool.and_eq_true]
    refine ⟨?_,hitems⟩
    rcases outcomeOf_eq_some hannounced with ⟨h,-⟩ | ⟨h,-⟩ | ⟨h,rfl⟩ | ⟨h,-⟩ | ⟨h,rfl⟩
    · simp [h]
    · simp [h]
    · exact absurd hcomputed (not_computed_of_other_word (Value.is_iff.mp h) (.inl ⟨rfl,rfl⟩))
    · simp [h]
    · exact absurd hcomputed (not_computed_of_other_word (Value.is_iff.mp h) (.inr ⟨rfl,rfl⟩))
  · intro h
    rw [Bool.and_eq_true,Bool.and_eq_true,Bool.or_eq_true,Bool.or_eq_true] at h
    obtain ⟨⟨hword,hown⟩,hitems⟩ := h
    obtain ⟨outcome,hknown⟩ : ∃ outcome,
        f.turn.get "status" = .lit "completed" ∧ outcome = TurnOutcome.completed ∨
        f.turn.get "status" = .lit "failed" ∧ outcome = .failed ∨
        f.turn.get "status" = .lit "cancelled" ∧ outcome = .cancelled := by
      rcases hword with (h | h) | h
      · exact ⟨.completed,.inl ⟨Value.is_iff.mp h,rfl⟩⟩
      · exact ⟨.failed,.inr (.inl ⟨Value.is_iff.mp h,rfl⟩)⟩
      · exact ⟨.cancelled,.inr (.inr ⟨Value.is_iff.mp h,rfl⟩)⟩
    obtain ⟨hannounced,hstored,hcomputed⟩ := known_status rfl hknown
    exact ⟨outcome,hannounced,hstored,(listed_known hannounced _).mpr hown,hitems,hcomputed⟩

/-- Without a turn the gateway takes every finish for a completion. -/
theorem agrees_no_turn_iff (hturn : f.turn.truthy = false) :
    (∃ outcome, f.Agrees outcome) ↔ f.plain = true := by
  have hget (key : String) : f.turn.get key = .undefined := by
    cases h : f.turn with
    | obj members => simp [h] at hturn
    | _ => rfl
  have hstored : Gateway.inferFinishedStatus f.message = .completed := by
    rw [inferFinishedStatus_message,hget]
    rfl
  have hitems : f.items.all readable = true := by
    rw [items,hget]
    rfl
  simp only [agrees_iff,announced,plain,hturn,hstored,hitems,hget,if_false,Bool.false_eq_true]
  constructor
  · rintro ⟨outcome,hannounced,houtcome,-⟩
    cases houtcome
    rcases outcomeOf_eq_some hannounced with ⟨h,-⟩ | ⟨-,h⟩ | ⟨-,h⟩ | ⟨-,h⟩ | ⟨-,h⟩
    · exact h
    all_goals cases h
  · intro h
    have hstatus := Value.is_iff.mp h
    rw [computedStatus,hget,hstatus]
    exact ⟨.completed,rfl,rfl,rfl,trivial,rfl⟩

/-- The readers agree on exactly the messages that are plain. -/
theorem agrees_iff_plain (f : Finish) : (∃ outcome, f.Agrees outcome) ↔ f.plain = true := by
  cases hturn : f.turn.truthy with
  | true => exact agrees_turn_iff hturn
  | false => exact agrees_no_turn_iff hturn

/-- An interrupted session is stored as completed and shown as cancelled, a turn that could
not be started is stored as completed and shown as failed, and a turn that Codex reports as
interrupted is stored as cancelled and shown as completed in the transcript. -/
theorem interrupted_not_agrees :
    (¬∃ outcome, (settleInterruptedSession (ofString "s1") (by decide) [] none).Agrees outcome) ∧
    (¬∃ outcome, (startFailed (ofString "s1") (by decide) [] (ofString "timeout")).Agrees outcome) ∧
    ¬∃ outcome, (turnCompleted (ofString "s1") (by decide) []
      (.obj [(ofString "id",.lit "t1"),(ofString "status",.lit "interrupted")])).Agrees outcome := by
  refine ⟨?_,?_,?_⟩
  · rw [agrees_no_turn_iff (by decide)]
    decide
  · rw [agrees_no_turn_iff (by decide)]
    decide
  · rw [agrees_turn_iff (by decide)]
    decide

end Finish

end CodeHarbor.App
