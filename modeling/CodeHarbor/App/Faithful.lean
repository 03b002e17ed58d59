import CodeHarbor.App.Coherence
set_option autoImplicit false

namespace CodeHarbor.App
open Lib Lib.Js

/-! The rows and the log. -/

/-- The row that a prompt shows before it is confirmed. -/
def Prompt.turn (js : Engine) (session : JsText) (p : Prompt) : TurnMessage :=
  inputTurn (js.at p.moment) (p.syntheticEvent session) (.str session)

/-- The rows are those of the fold, up to dress, with the prompts that wait at the end. -/
structure Follows (js : Engine) (session : JsText) (sent : List JsText) (waiting : List Prompt)
    (rows told fold : List TurnMessage) : Prop where
  split : rows = told ++ waiting.map (Prompt.turn js session)
  alike : Alike sent told fold
  known : ∀ p ∈ waiting, p.clientRequestId ∈ sent
  fresh : ∀ p ∈ waiting, p.clientRequestId ≠ [] ∧
    ∀ row ∈ told, row.clientRequestId ≠ some p.clientRequestId
  nodup : (waiting.map (·.clientRequestId)).Nodup
  listed : waiting ≠ [] → ∀ row ∈ told, row.listed = true

/-- The fold over the retained events of the selected session up to its cursor. -/
def Screen.fold (js : Engine) (start : Moment) (s : Screen) : Option (List TurnMessage) :=
  aggregateEventsToTurns js start ((s.log s.app.selectedSessionId).retainedUpTo
    (s.app.cursor s.app.selectedSessionId)) s.watch.shownAs

def Screen.InStep (js : Engine) (start : Moment) (s : Screen) : Prop :=
  ∀ rows, s.app.turns = some rows → ∃ told fold, s.fold js start = some fold ∧
    Follows js s.app.selectedSessionId s.watch.sent s.watch.waiting rows told fold

section Rows

variable {js : Engine} {start : Moment} {s s' : Screen}

theorem Screen.InStep.congr (h : s.InStep js start)
    (hselected : s'.app.selectedSessionId = s.app.selectedSessionId)
    (hturns : s'.app.turns = s.app.turns) (hfold : s'.fold js start = s.fold js start)
    (hsent : s'.watch.sent = s.watch.sent) (hwaiting : s'.watch.waiting = s.watch.waiting) :
    s'.InStep js start := by
  unfold Screen.InStep
  rw [hselected,hturns,hfold,hsent,hwaiting]
  exact h

theorem eventPayload_get (event : EventMessage) (key : String) :
    (eventPayload event).get key = event.payload.get key := by
  unfold eventPayload Value.or
  split_ifs with htruthy
  · rfl
  · cases hpayload : event.payload with
    | obj members => simp [hpayload] at htruthy
    | _ => rfl

theorem currentSessionId_named (rt : Runtime) {event : EventMessage} {session : JsText}
    (hsession : session ≠ []) (hevent : event.sessionId = .str session) (record : Option Session) :
    currentSessionId rt event record = .str session := by
  have htruthy : (Value.str session).truthy = true := by simp [hsession]
  unfold currentSessionId
  simp only [hevent,Value.or_of_truthy htruthy]

theorem applyLiveEventToTurns_named (js : Engine) {event : EventMessage} {session : JsText}
    (hsession : session ≠ []) (hevent : event.sessionId = .str session) (turns : List TurnMessage)
    (record record' : Option Session) :
    applyLiveEventToTurns js turns event record = applyLiveEventToTurns js turns event record' := by
  unfold applyLiveEventToTurns
  simp only [currentSessionId_named _ hsession hevent]

theorem mapM_clone_of_listed {rows : List TurnMessage} (h : ∀ row ∈ rows, row.listed = true) :
    rows.mapM TurnMessage.clone = some rows := by
  induction rows with
  | nil => rfl
  | cons row rows ih =>
    rw [List.mapM_cons,TurnMessage.clone_of_listed (h row List.mem_cons_self),
      ih (fun r hr => h r (List.mem_cons_of_mem row hr))]
    rfl

theorem Alike.listed {sent : List JsText} {xs ys : List TurnMessage} (h : Alike sent xs ys)
    (hx : ∀ row ∈ xs, row.listed = true) : ∀ row ∈ ys, row.listed = true := by
  induction h with
  | nil => simp
  | @cons a b xs ys hab _ ih =>
    intro row hrow
    rcases List.mem_cons.mp hrow with rfl | hrest
    · rcases hab with rfl | ⟨-,-,hlisted,-⟩
      · exact hx a List.mem_cons_self
      · exact hlisted
    · exact ih (fun r hr => hx r (List.mem_cons_of_mem a hr)) row hrest

theorem Alike.ids {sent : List JsText} {xs ys : List TurnMessage} (h : Alike sent xs ys) :
    xs.map (·.clientRequestId) = ys.map (·.clientRequestId) := by
  induction h with
  | nil => rfl
  | cons hab _ ih =>
    rw [List.map_cons,List.map_cons,ih,hab.field (f := TurnMessage.clientRequestId) (fun _ _ => rfl)]

theorem applyLiveEventToTurns_input (js : Engine) {event : EventMessage} {session id : JsText}
    {rows : List TurnMessage} (hsession : session ≠ []) (hevent : event.sessionId = .str session)
    (htype : event.type = .sessionUserInput)
    (hid : (event.payload.get "clientRequestId").text? = some id) (hne : id ≠ [])
    (hlisted : ∀ row ∈ rows, row.listed = true) (hfresh : ∀ row ∈ rows, row.clientRequestId ≠ some id)
    (record : Option Session) :
    applyLiveEventToTurns js rows event record =
      some (rows ++ [inputTurn (js.at event.moment) event (.str session)]) := by
  have hnone : ∀ prompt sessionId, rows.any (TurnMessage.sameInput (some id) prompt sessionId) = false := by
    intro prompt sessionId
    rw [List.any_eq_false]
    intro row hrow
    simpa [TurnMessage.sameInput,Option.filter,hne] using hfresh row hrow
  unfold applyLiveEventToTurns
  rw [mapM_clone_of_listed hlisted,Option.bind_eq_bind,Option.bind_some]
  dsimp only
  rw [currentSessionId_named _ hsession hevent,htype]
  dsimp only
  unfold applySessionUserInput
  dsimp only
  rw [eventPayload_get,hid,hnone]
  rfl

theorem Prompt.syntheticEvent_id (p : Prompt) (session : JsText) :
    ((p.syntheticEvent session).payload.get "clientRequestId").text? = some p.clientRequestId := rfl

theorem Prompt.turn_listed (js : Engine) (session : JsText) (p : Prompt) :
    (p.turn js session).listed = true := rfl

theorem Prompt.turn_id (js : Engine) (session : JsText) (p : Prompt) :
    (p.turn js session).clientRequestId = some p.clientRequestId := rfl

/-- The confirmed event makes the row that is already shown, up to dress. -/
theorem Prompt.turn_alike (js : Engine) (session : JsText) {p : Prompt} {event : EventMessage}
    {sent : List JsText} (hsent : p.clientRequestId ∈ sent) (h : p.confirmedBy event = true) :
    (p.turn js session).Alike sent (inputTurn (js.at event.moment) event (.str session)) := by
  unfold Prompt.confirmedBy at h
  simp only [Bool.and_eq_true,decide_eq_true_eq,Bool.not_eq_true'] at h
  obtain ⟨⟨⟨⟨⟨⟨-,hid⟩,hprompt⟩,hturn⟩,hattachments⟩,hnow⟩,hrandom⟩ := h
  refine .inr ⟨⟨p.clientRequestId,hsent,rfl⟩,rfl,?_,?_⟩
  · unfold TurnMessage.listed inputTurn
    dsimp only
    rw [eventPayload_get]
    exact hattachments
  · refine ⟨⟨((eventPayload event).get "attachments").or (.arr []),eventTime (js.at event.moment) event,
      some (((eventPayload event).get "kind").is "interjection"),event.moment.isoNow⟩,?_⟩
    unfold Prompt.turn inputTurn TurnMessage.dress createEmptyTurn
    simp only [eventPayload_get,hid,hprompt,Value.or_of_falsy hturn]
    simp only [Engine.at,hnow,hrandom]
    rfl

theorem Screen.fold_congr (hlog : s'.log s'.app.selectedSessionId = s.log s.app.selectedSessionId)
    (hcursor : s'.app.cursors.get s'.app.selectedSessionId = s.app.cursors.get s.app.selectedSessionId)
    (hshown : s'.watch.shownAs = s.watch.shownAs) : s'.fold js start = s.fold js start := by
  unfold Screen.fold AppState.cursor
  rw [hlog,hcursor,hshown]

theorem Screen.InStep.proceed (h : s.InStep js start) (input : ScreenInput) {app : AppState}
    (hselected : app.selectedSessionId = s.app.selectedSessionId) (hturns : app.turns = s.app.turns)
    (hcursor : app.cursors.get s.app.selectedSessionId = s.app.cursors.get s.app.selectedSessionId) :
    (s.proceed input app).InStep js start := by
  refine h.congr hselected hturns (Screen.fold_congr ?_ ?_ rfl) rfl rfl
  · unfold Screen.proceed Screen.log
    dsimp only
    rw [hselected]
  · unfold Screen.proceed
    dsimp only
    rw [hselected]
    exact hcursor

theorem SessionLog.eventSessionId_numbered (hc : s.Coherent) {session : JsText} {seq : Nat}
    {event : EventMessage} (h : (s.log session).numbered seq = some event) :
    session ≠ [] ∧ event.sessionId = .str session ∧ eventSessionId event = .str session := by
  have hmem : event ∈ (s.log session).events := by
    unfold SessionLog.numbered at h
    split_ifs at h
    exact List.mem_of_getElem? h
  obtain ⟨hne,hname⟩ := hc.named session event hmem
  have htruthy : (Value.str session).truthy = true := by simp [hne]
  refine ⟨hne,hname,?_⟩
  unfold eventSessionId
  rw [hname,Value.or_of_truthy htruthy,Value.or_of_truthy htruthy]

theorem AppState.handleNumbered_other (js : Engine) (a : AppState) {session : JsText} (seq : Nat)
    {event : EventMessage} (hnamed : eventSessionId event = .str session)
    (hother : session ≠ a.selectedSessionId) (hne : session ≠ []) :
    (a.handleNumbered js session seq event).turns = a.turns ∧
      (a.handleNumbered js session seq event).selectedSessionId = a.selectedSessionId := by
  have hframe : (a.applyFrame js event (some (eventKey session seq)) (some (session,seq))).turns =
      a.turns := by
    unfold AppState.applyFrame
    dsimp only
    rw [hnamed]
    simp [hne,hother,Value.strictEq]
  unfold AppState.handleNumbered
  split_ifs
  · exact ⟨rfl,rfl⟩
  · obtain ⟨recovery,heq⟩ := a.scheduleGapRecovery_eq session seq
    rw [heq]
    exact ⟨rfl,rfl⟩
  · exact ⟨rfl,rfl⟩
  · exact ⟨rfl,rfl⟩
  · exact ⟨hframe,rfl⟩

theorem Screen.aggregate_next (js : Engine) (start : Moment) {event : EventMessage} {selected : JsText}
    (hselected : s.app.selectedSessionId = selected)
    (hevent : (s.log selected).numbered (s.app.cursor selected+1) = some event)
    (hgone : s.app.cursor selected+1 ∉ (s.log selected).gone) (hseed : s.seedKept event = true) :
    aggregateEventsToTurns js start ((s.log selected).retainedUpTo (s.app.cursor selected+1))
        s.watch.shownAs =
      (s.fold js start).bind (fun turns => applyLiveEventToTurns js turns event s.watch.shownAs) := by
  subst hselected
  unfold Screen.seedKept at hseed
  have hcond : prompted s.watch.shownAs = false ∨
      ((s.log s.app.selectedSessionId).retainedUpTo
        (s.app.cursor s.app.selectedSessionId)).any isUserInputEvent = true ∨
      [event].any isUserInputEvent = false := by
    simp only [Bool.or_eq_true,Bool.not_eq_true'] at hseed
    rcases hseed with (hprompt | hinput) | hhas
    · exact .inl hprompt
    · exact .inr (.inr (by simpa using hinput))
    · exact .inr (.inl hhas)
  rw [SessionLog.retainedUpTo_succ hevent hgone,aggregate_append js start hcond]
  simp [Screen.fold,applyAll]

/-- The event that confirms the first waiting prompt goes into the fold where the row of the
prompt already stands. -/
theorem Follows.confirm {session : JsText} {sent : List JsText} {p : Prompt} {waiting : List Prompt}
    {rows told fold : List TurnMessage} (h : Follows js session sent (p :: waiting) rows told fold)
    (hsession : session ≠ []) {event : EventMessage} (hname : event.sessionId = .str session)
    (hconfirmed : p.confirmedBy event = true) (record : Option Session) :
    ∃ fold', applyLiveEventToTurns js fold event record = some fold' ∧
      Follows js session sent waiting rows (told ++ [p.turn js session]) fold' := by
  have hp : p ∈ p :: waiting := List.mem_cons_self
  have hlisted := h.listed (by simp)
  have htype : event.type = .sessionUserInput ∧
      (event.payload.get "clientRequestId").text? = some p.clientRequestId := by
    unfold Prompt.confirmedBy at hconfirmed
    simp only [Bool.and_eq_true,decide_eq_true_eq] at hconfirmed
    exact ⟨hconfirmed.1.1.1.1.1.1,hconfirmed.1.1.1.1.1.2⟩
  have hfresh : ∀ row ∈ fold, row.clientRequestId ≠ some p.clientRequestId := by
    intro row hrow hid
    have hmem : some p.clientRequestId ∈ told.map (·.clientRequestId) := by
      rw [h.alike.ids]
      exact List.mem_map.mpr ⟨row,hrow,hid⟩
    obtain ⟨row',hrow',hid'⟩ := List.mem_map.mp hmem
    exact (h.fresh p hp).2 row' hrow' hid'
  refine ⟨_,applyLiveEventToTurns_input js hsession hname htype.1 htype.2 (h.fresh p hp).1
    (h.alike.listed hlisted) hfresh record,?_⟩
  have hnodup := h.nodup
  rw [List.map_cons,List.nodup_cons] at hnodup
  refine ⟨?_,?_,?_,?_,hnodup.2,?_⟩
  · rw [h.split,List.map_cons,List.append_assoc,List.singleton_append]
  · exact h.alike.append (.cons (Prompt.turn_alike js session (h.known p hp) hconfirmed) .nil)
  · exact fun q hq => h.known q (List.mem_cons_of_mem p hq)
  · intro q hq
    refine ⟨(h.fresh q (List.mem_cons_of_mem p hq)).1,?_⟩
    intro row hrow
    rcases List.mem_append.mp hrow with htold | hnew
    · exact (h.fresh q (List.mem_cons_of_mem p hq)).2 row htold
    · rw [List.mem_singleton] at hnew
      rw [hnew,Prompt.turn_id]
      intro heq
      rw [Option.some.injEq] at heq
      exact hnodup.1 (List.mem_map.mpr ⟨q,hq,heq.symm⟩)
  · intro _ row hrow
    rcases List.mem_append.mp hrow with htold | hnew
    · exact hlisted row htold
    · rw [List.mem_singleton] at hnew
      rw [hnew]
      exact Prompt.turn_listed js session p

theorem Follows.apply {session : JsText} {sent : List JsText} {rows told fold rows' : List TurnMessage}
    (h : Follows js session sent [] rows told fold) {event : EventMessage} {record : Option Session}
    (hrows : applyLiveEventToTurns js rows event record = some rows') :
    ∃ fold', applyLiveEventToTurns js fold event record = some fold' ∧
      Follows js session sent [] rows' rows' fold' := by
  have hsplit : rows = told := by simpa using h.split
  have halike := h.alike
  rw [← hsplit] at halike
  obtain ⟨fold',hfold,halike'⟩ := halike.applyLiveEventToTurns js event record hrows
  exact ⟨fold',hfold,by simp,halike',by simp,by simp,by simp,by simp⟩

theorem AppState.handleNumbered_ignored (js : Engine) (a : AppState) {session : JsText} {seq : Nat}
    (event : EventMessage) (h : seq ≤ a.cursor session ∨ a.cursor session+1 < seq) :
    ∃ recovery, a.handleNumbered js session seq event = { a with gapRecovery := recovery } := by
  unfold AppState.handleNumbered
  by_cases hold : seq ≤ a.cursor session
  · rw [if_pos hold]
    exact ⟨a.gapRecovery,rfl⟩
  · have hgap : a.cursor session+1 < seq := h.resolve_left hold
    rw [if_neg hold,if_pos hgap]
    exact a.scheduleGapRecovery_eq session seq

theorem Screen.eventStep_parts (js : Engine) {session : JsText} {seq : Nat} {event : EventMessage}
    (hevent : (s.log session).numbered seq = some event) :
    (s.eventStep js session seq).app = s.app.handleNumbered js session seq event ∧
      (s.eventStep js session seq).logs = s.logs ∧
      (s.eventStep js session seq).watch.shownAs = s.watch.shownAs ∧
      (s.eventStep js session seq).watch.sent = s.watch.sent ∧
      (s.eventStep js session seq).watch.waiting =
        if (session = s.app.selectedSessionId && s.app.cursor session+1 = seq &&
            s.watch.waiting.head?.any (·.confirmedBy event)) = true
        then s.watch.waiting.tail else s.watch.waiting := by
  unfold Screen.eventStep
  rw [hevent]
  exact ⟨rfl,rfl,rfl,rfl,rfl⟩

theorem Screen.InStep.eventSelected (h : s.InStep js start) (hc : s.Coherent) {seq : Nat}
    {event : EventMessage} (hevent : (s.log s.app.selectedSessionId).numbered seq = some event)
    (hseq : seq = s.app.cursor s.app.selectedSessionId+1) (hfollows : s.followsNumbered seq event = true) :
    (s.eventStep js s.app.selectedSessionId seq).InStep js start := by
  obtain ⟨hne,hname,hnamed⟩ := SessionLog.eventSessionId_numbered hc hevent
  obtain ⟨happ,hlogs,hshown,hsent,hwait⟩ := Screen.eventStep_parts js hevent
  unfold Screen.followsNumbered at hfollows
  dsimp only at hfollows
  rw [Bool.and_eq_true,Bool.and_eq_true,Bool.and_eq_true] at hfollows
  obtain ⟨⟨⟨hgone,hcursor⟩,hseed⟩,hbranch⟩ := hfollows
  rw [decide_eq_true_eq] at hgone hcursor
  have hnext := Screen.aggregate_next js start rfl (hseq ▸ hevent) (hseq ▸ hgone) hseed
  have hold : ¬ seq ≤ s.app.cursor s.app.selectedSessionId := by omega
  have hgap : ¬ s.app.cursor s.app.selectedSessionId+1 < seq := by omega
  generalize s.eventStep js s.app.selectedSessionId seq = s' at *
  -- the fold stands at the new number whenever the cursor does
  have hfold : s'.app.selectedSessionId = s.app.selectedSessionId →
      s'.app.cursors = saveCursor s.app.cursors s.app.selectedSessionId seq →
      s'.fold js start = (s.fold js start).bind
        (fun turns => applyLiveEventToTurns js turns event s.watch.shownAs) := by
    intro hselected hcursors
    have hcur : s'.app.cursor s.app.selectedSessionId = s.app.cursor s.app.selectedSessionId+1 := by
      unfold AppState.cursor
      rw [hcursors,hcursor,Option.getD_some,hseq]
      rfl
    unfold Screen.fold Screen.log
    rw [hselected,hcur,hlogs,hshown]
    exact hnext
  by_cases hecho : ((requestKey event).any (· ∈ s.app.seenEventKeys)) = true
  · rw [if_pos hecho] at hbranch
    rw [AppState.handleNumbered,if_neg hold,if_neg hgap,if_pos hecho] at happ
    have hselected : s'.app.selectedSessionId = s.app.selectedSessionId := by rw [happ]; rfl
    cases hwaiting : s.watch.waiting with
    | nil => simp [hwaiting] at hbranch
    | cons p waiting =>
      have hconfirmed : p.confirmedBy event = true := by simpa [hwaiting] using hbranch
      have hrest : s'.watch.waiting = waiting := by simp [hwait,hwaiting,hseq,hconfirmed]
      intro rows hturns
      rw [happ] at hturns
      obtain ⟨told,fold,hf,hfollow⟩ := h rows hturns
      rw [hwaiting] at hfollow
      obtain ⟨fold',happly,hfollow'⟩ := hfollow.confirm hne hname hconfirmed s.watch.shownAs
      refine ⟨told ++ [p.turn js s.app.selectedSessionId],fold',?_,?_⟩
      · rw [hfold hselected (by rw [happ]; rfl),hf]
        exact happly
      · rw [hselected,hsent,hrest]
        exact hfollow'
  · rw [if_neg hecho,Bool.and_eq_true,decide_eq_true_eq] at hbranch
    obtain ⟨hkey,hempty⟩ := hbranch
    have hwaiting : s.watch.waiting = [] := List.isEmpty_iff.mp hempty
    rw [AppState.handleNumbered,if_neg hold,if_neg hgap,if_neg hecho,if_neg hkey] at happ
    have hselected : s'.app.selectedSessionId = s.app.selectedSessionId := by rw [happ]; rfl
    have hturns : s'.app.turns = s.app.turns.bind (fun turns =>
        applyLiveEventToTurns js turns event (s.app.findSession s.app.selectedSessionId)) := by
      rw [happ,AppState.applyFrame]
      dsimp only
      rw [hnamed]
      simp [Value.strictEq]
    intro rows' hrows'
    obtain ⟨rows,hrow,happly⟩ := Option.bind_eq_some_iff.mp (hturns.symm.trans hrows')
    obtain ⟨told,fold,hf,hfollow⟩ := h rows hrow
    rw [hwaiting] at hfollow
    rw [applyLiveEventToTurns_named js hne hname _ _ s.watch.shownAs] at happly
    obtain ⟨fold',happly',hfollow'⟩ := hfollow.apply happly
    refine ⟨rows',fold',?_,?_⟩
    · rw [hfold hselected (by rw [happ]; rfl),hf]
      exact happly'
    · rw [hselected,hsent,hwait,hwaiting]
      simpa using hfollow'

theorem Screen.InStep.eventStep (h : s.InStep js start) (hc : s.Coherent) {session : JsText} {seq : Nat}
    (hharmless : s.harmless (.event session seq) = true) :
    (s.eventStep js session seq).InStep js start := by
  cases hevent : (s.log session).numbered seq with
  | none =>
    unfold Screen.eventStep
    rw [hevent]
    exact h
  | some event =>
    simp only [Screen.harmless,hevent] at hharmless
    obtain ⟨happ,hlogs,hshown,hsent,hwait⟩ := Screen.eventStep_parts js hevent
    by_cases hskip : seq ≤ s.app.cursor session ∨ s.app.cursor session+1 < seq
    · obtain ⟨recovery,heq⟩ := s.app.handleNumbered_ignored js event hskip
      have hnot : s.app.cursor session+1 ≠ seq := by omega
      rw [heq] at happ
      generalize s.eventStep js session seq = s' at *
      refine h.congr (by rw [happ]) (by rw [happ]) (Screen.fold_congr ?_ (by rw [happ]) hshown) hsent ?_
      · rw [happ]
        unfold Screen.log
        rw [hlogs]
      · simpa [hnot] using hwait
    · rw [if_neg hskip] at hharmless
      by_cases hselected : session = s.app.selectedSessionId
      · rw [if_pos hselected] at hharmless
        subst hselected
        exact h.eventSelected hc hevent (by omega) hharmless
      · rw [if_neg hselected,Screen.keepsCursor,decide_eq_true_eq] at hharmless
        obtain ⟨hne,-,hnamed⟩ := SessionLog.eventSessionId_numbered hc hevent
        obtain ⟨hturns,hsel⟩ := AppState.handleNumbered_other js s.app seq hnamed hselected hne
        have hcursor : (s.app.handleNumbered js session seq event).cursors.get s.app.selectedSessionId =
            s.app.cursors.get s.app.selectedSessionId := by
          rcases s.app.handleNumbered_cursors session js seq event with heq | heq
          · rw [heq]
          · rw [heq,hharmless]
        rw [← happ] at hturns hsel hcursor
        generalize s.eventStep js session seq = s' at *
        refine h.congr hsel hturns (Screen.fold_congr ?_ (hsel.symm ▸ hcursor) hshown) hsent ?_
        · rw [hsel]
          unfold Screen.log
          rw [hlogs]
        · simpa [hselected] using hwait

theorem Screen.InStep.unnumbered (h : s.InStep js start) {event : EventMessage}
    (hharmless : s.harmless (.unnumbered event) = true) :
    (s.proceed (.unnumbered event) (s.app.handleUnnumbered js event)).InStep js start := by
  have hcursor := (s.app.handleUnnumbered_frame js event).1
  refine h.proceed _ ?_ ?_ (by rw [hcursor])
  · unfold AppState.handleUnnumbered
    split_ifs <;> rfl
  · unfold AppState.handleUnnumbered
    split_ifs with hseen
    · rfl
    · simp only [Screen.harmless,hseen,Bool.false_or,Bool.or_eq_true,Bool.and_eq_true,
        Bool.not_eq_true'] at hharmless
      unfold AppState.applyFrame
      dsimp only
      rcases hharmless with ⟨htruthy,hother⟩ | hlisted
      · simp [htruthy,hother]
      · -- an ignored type only copies the rows
        have hcopy : s.app.turns.bind (fun turns => applyLiveEventToTurns js turns event
            (s.app.findSession s.app.selectedSessionId)) = s.app.turns := by
          cases htype : event.type with
          | other name =>
            rw [htype] at hlisted
            cases hturns : s.app.turns with
            | none => rfl
            | some rows =>
              have hall : ∀ row ∈ rows, row.listed = true := by
                simpa [Screen.listed,hturns] using hlisted
              rw [Option.bind_some,applyLiveEventToTurns,mapM_clone_of_listed hall,htype]
              rfl
          | _ => simp [htype] at hlisted
        rw [hcopy,ite_self]

theorem Screen.InStep.sendPrompt (h : s.InStep js start) {p : Prompt}
    (hharmless : s.harmless (.sendPrompt p) = true) (hfresh : s.freshRequest p.clientRequestId = true)
    (hselected : s.app.selectedSessionId ≠ [])
    (hprompt : ¬ (trim p.promptText = [] ∧ p.attachments = [])) :
    ((s.step js start (.sendPrompt p)).1).InStep js start := by
  have happ : s.app.sendPrompt js p = { s.app with
      seenEventKeys := (s.app.sendPrompt js p).seenEventKeys
      turns := s.app.turns.bind (fun turns => applyLiveEventToTurns js turns
        (p.syntheticEvent s.app.selectedSessionId) (s.app.findSession s.app.selectedSessionId)) } := by
    unfold AppState.sendPrompt
    rw [if_neg (not_or.mpr ⟨hselected,hprompt⟩)]
  unfold Screen.step
  dsimp only
  rw [if_pos ⟨hfresh,hselected,hprompt⟩]
  intro rows' hrows'
  unfold Screen.proceed at hrows'
  rw [happ] at hrows'
  obtain ⟨rows,hrow,happly⟩ := Option.bind_eq_some_iff.mp hrows'
  obtain ⟨told,fold,hf,hfollow⟩ := h rows hrow
  have hlisted : ∀ row ∈ rows, row.listed = true := by
    simpa [Screen.harmless,Screen.listed,hrow] using hharmless
  have hid : p.clientRequestId ≠ [] ∧ p.clientRequestId ∉ s.watch.sent ∧
      ∀ row ∈ rows, row.clientRequestId ≠ some p.clientRequestId := by
    simpa [Screen.freshRequest,hrow,and_assoc] using hfresh
  rw [applyLiveEventToTurns_input js hselected rfl rfl (p.syntheticEvent_id _) hid.1 hlisted hid.2.2,
    Option.some.injEq] at happly
  have hmore : ∀ id ∈ s.watch.sent, id ∈ s.watch.sent ++ [p.clientRequestId] :=
    fun id hmem => List.mem_append_left _ hmem
  have htold : ∀ row ∈ told, row ∈ rows := by
    intro row hmem
    rw [hfollow.split]
    exact List.mem_append_left _ hmem
  refine ⟨told,fold,?_,?_⟩
  · rw [← hf]
    refine Screen.fold_congr ?_ ?_ rfl
    · unfold Screen.proceed Screen.log
      rw [happ]
    · unfold Screen.proceed
      rw [happ]
  · have hwaiting : ∀ q ∈ s.watch.waiting, q.clientRequestId ≠ p.clientRequestId := by
      intro q hq heq
      exact hid.2.1 (heq ▸ hfollow.known q hq)
    unfold Screen.proceed
    rw [happ]
    refine ⟨?_,hfollow.alike.mono hmore,?_,?_,?_,?_⟩
    · rw [← happly,hfollow.split,List.map_append,List.append_assoc]
      rfl
    · intro q hq
      rcases List.mem_append.mp hq with hold | hnew
      · exact hmore _ (hfollow.known q hold)
      · rw [List.mem_singleton] at hnew
        rw [hnew]
        exact List.mem_append_right _ List.mem_cons_self
    · intro q hq
      rcases List.mem_append.mp hq with hold | hnew
      · exact hfollow.fresh q hold
      · rw [List.mem_singleton] at hnew
        rw [hnew]
        exact ⟨hid.1,fun row hmem => hid.2.2 row (htold row hmem)⟩
    · rw [List.map_append,List.map_singleton]
      refine List.Nodup.append hfollow.nodup (List.nodup_singleton _) ?_
      intro id hmem hsingle
      obtain ⟨q,hq,rfl⟩ := List.mem_map.mp hmem
      exact hwaiting q hq (List.mem_singleton.mp hsingle)
    · exact fun _ row hmem => hlisted row (htold row hmem)

theorem Screen.endLoad_shown {load : Load} (hcurrent : s.app.current load = true)
    (hload : ∀ p ∈ load.list, (s.log load.session).numbered p.2 = some p.1) {rows : List TurnMessage}
    (hrows : aggregateEventsToTurns js start (load.list.map Prod.fst)
      (s.app.findSession load.session) = some rows) (hexact : s.exact load = true) :
    (s.endLoad load (s.app.finishLoad js start load).1 .shown).1.InStep js start := by
  have hselected : s.app.selectedSessionId = load.session := by
    simp only [AppState.current,Bool.and_eq_true,decide_eq_true_eq] at hcurrent
    exact hcurrent.1
  obtain ⟨recovery,heq⟩ := AppState.settleRecovery_eq
    (AppState.saveCursor { s.app with turns := s.app.turns.map (fun _ => rows) } load.session load.maxSeq)
    load.session load.maxSeq
  have happ : (s.app.finishLoad js start load).1 = { s.app with
      turns := s.app.turns.map (fun _ => rows)
      cursors := saveCursor s.app.cursors load.session load.maxSeq
      gapRecovery := recovery } := by
    unfold AppState.finishLoad
    rw [if_pos hcurrent,hrows]
    exact heq
  have hlist : load.list.map Prod.fst = (s.log load.session).retainedUpTo
      (((saveCursor s.app.cursors load.session load.maxSeq).get load.session).getD 0) := by
    unfold Screen.exact at hexact
    rw [decide_eq_true_eq] at hexact
    unfold SessionLog.retainedUpTo
    rw [eq_of_numbers hload ?_ hexact]
    intro p hp
    exact SessionLog.numbered_of_retained (List.mem_of_mem_filter hp)
  unfold Screen.endLoad
  rw [if_pos hcurrent,happ]
  intro shown hshown
  have hshown : shown = rows := by
    cases hturns : s.app.turns with
    | none => simp [hturns] at hshown
    | some old => simpa [hturns] using hshown.symm
  subst hshown
  refine ⟨shown,shown,?_,by simp,Alike.refl _ _,by simp,by simp,by simp,by simp⟩
  rw [← hrows,hlist]
  unfold Screen.fold AppState.cursor
  dsimp only
  rw [hselected]
  rfl

theorem Screen.endLoad_finish (h : s.watch.intact = true → s.InStep js start) {load : Load}
    (hload : ∀ p ∈ load.list, (s.log load.session).numbered p.2 = some p.1) :
    let finished := s.app.finishLoad js start load
    (s.endLoad load finished.1 finished.2).1.watch.intact = true →
      (s.endLoad load finished.1 finished.2).1.InStep js start := by
  intro finished hintact
  by_cases hcurrent : s.app.current load = true
  · cases hrows : aggregateEventsToTurns js start (load.list.map Prod.fst)
        (s.app.findSession load.session) with
    | none =>
      have hhow : finished.2 = .failed := by simp [finished,AppState.finishLoad,hcurrent,hrows]
      simp [Screen.endLoad,hcurrent,hhow] at hintact
    | some rows =>
      have hhow : finished.2 = .shown := by simp [finished,AppState.finishLoad,hcurrent,hrows]
      rw [hhow] at hintact ⊢
      refine Screen.endLoad_shown hcurrent hload hrows ?_
      simpa [Screen.endLoad,hcurrent] using hintact
  · have hdropped : finished = (s.app,.dropped) := by simp [finished,AppState.finishLoad,hcurrent]
    have hsame : (s.endLoad load finished.1 finished.2).1 = s := by
      simp [Screen.endLoad,hcurrent,hdropped]
    rw [hsame] at hintact ⊢
    exact h hintact

theorem Screen.endLoad_fail (h : s.watch.intact = true → s.InStep js start) (load : Load) :
    (s.endLoad load (s.app.failLoad js start load) .failed).1.watch.intact = true →
      (s.endLoad load (s.app.failLoad js start load) .failed).1.InStep js start := by
  intro hintact
  by_cases hcurrent : s.app.current load = true
  · simp [Screen.endLoad,hcurrent] at hintact
  · have hsame : (s.endLoad load (s.app.failLoad js start load) .failed).1 = s := by
      simp [Screen.endLoad,AppState.failLoad,hcurrent]
    rw [hsame] at hintact ⊢
    exact h hintact

theorem Screen.loadStep_inStep (hc : s.Coherent) (h : s.watch.intact = true → s.InStep js start)
    (k : Nat) (count : Option Nat) (hintact : (s.loadStep js start k count).1.watch.intact = true) :
    (s.loadStep js start k count).1.InStep js start := by
  unfold Screen.loadStep at hintact ⊢
  cases hk : s.app.loads[k]? with
  | none =>
    rw [hk] at hintact
    exact h hintact
  | some load =>
    have hmem : load ∈ s.app.loads := List.mem_of_getElem? hk
    have hloads : ∀ loads, s.watch.intact = true →
        Screen.InStep js start { s with app := { s.app with loads := loads } } :=
      fun loads hi => (h hi).congr rfl rfl rfl rfl rfl
    let without : Screen := { s with app := { s.app with loads := s.app.loads.eraseIdx k } }
    have hwithout : without.watch.intact = true → without.InStep js start :=
      hloads (s.app.loads.eraseIdx k)
    rw [hk] at hintact
    dsimp only at hintact ⊢
    cases count with
    | none =>
      dsimp only at hintact ⊢
      split_ifs at hintact ⊢
      · exact Screen.endLoad_fail (s := without) hwithout load hintact
      · exact Screen.endLoad_finish (s := without) hwithout (hc.loads load hmem) hintact
    | some count =>
      dsimp only at hintact ⊢
      split_ifs at hintact ⊢
      · exact hloads _ hintact
      · exact Screen.endLoad_finish (s := without) hwithout (Load.numbered_read (hc.loads load hmem) count) hintact

/-- The step lemma: rows that nothing has disturbed are those of the log. -/
theorem Screen.step_inStep (hc : s.Coherent) (h : s.watch.intact = true → s.InStep js start)
    (input : ScreenInput) (hintact : (s.step js start input).1.watch.intact = true) :
    (s.step js start input).1.InStep js start := by
  -- a step that only proceeds was harmless, on rows that were intact
  have hproceed : ∀ app, (s.proceed input app).watch.intact = true →
      s.watch.intact = true ∧ s.harmless input = true := by
    intro app hi
    simpa [Screen.proceed] using hi
  cases input with
  | select session =>
    unfold Screen.step at hintact ⊢
    dsimp only at hintact ⊢
    split_ifs at hintact ⊢
    exact h hintact
  | «open» =>
    obtain ⟨loads,heq,-⟩ :=
      AppState.startLoad_eq { s.app with resumeAttempts := 0 } s.app.selectedSessionId
    have happ : s.app.open = { s.app with resumeAttempts := 0, loads := loads } := heq
    refine (h (hproceed _ hintact).1).proceed .open ?_ ?_ ?_
    · rw [happ]
    · rw [happ]
    · rw [happ]
  | listSessions sessions => exact (h (hproceed _ hintact).1).proceed _ rfl rfl rfl
  | gapTimer session =>
    obtain ⟨recovery,loads,heq,-⟩ := s.app.fireGapTimer_eq session
    refine (h (hproceed _ hintact).1).proceed _ ?_ ?_ ?_
    · rw [heq]
    · rw [heq]
    · rw [heq]
  | page load count => exact Screen.loadStep_inStep hc h load (some count) hintact
  | pageFailed load => exact Screen.loadStep_inStep hc h load none hintact
  | event session seq =>
    cases hevent : (s.log session).numbered seq with
    | none =>
      have hsame : (s.step js start (.event session seq)).1 = s := by
        simp [Screen.step,Screen.eventStep,hevent]
      rw [hsame] at hintact ⊢
      exact h hintact
    | some event =>
      have hi : s.watch.intact = true ∧ s.harmless (.event session seq) = true := by
        simpa [Screen.step,Screen.eventStep,hevent,Screen.proceed] using hintact
      exact (h hi.1).eventStep hc hi.2
  | unnumbered event =>
    unfold Screen.step at hintact ⊢
    dsimp only at hintact ⊢
    split_ifs at hintact ⊢
    · exact h hintact
    · exact (h (hproceed _ hintact).1).unnumbered (hproceed _ hintact).2
  | resumeComplete truncated returned =>
    unfold Screen.step at hintact ⊢
    dsimp only at hintact ⊢
    split_ifs at hintact ⊢
    · obtain ⟨hi,hharmless⟩ := hproceed _ hintact
      simp only [Screen.harmless,Screen.keepsCursor,decide_eq_true_eq] at hharmless
      refine (h hi).proceed _ ?_ ?_ hharmless
      · rcases s.app.handleResumeComplete_eq truncated returned with heq | ⟨attempts,heq⟩ <;> rw [heq]
      · rcases s.app.handleResumeComplete_eq truncated returned with heq | ⟨attempts,heq⟩ <;> rw [heq]
    · exact h hintact
  | historyGap session availableFrom =>
    unfold Screen.step at hintact ⊢
    dsimp only at hintact ⊢
    split_ifs at hintact ⊢
    · obtain ⟨hi,hharmless⟩ := hproceed _ hintact
      simp only [Screen.harmless,Screen.keepsCursor,decide_eq_true_eq] at hharmless
      refine (h hi).proceed _ ?_ ?_ hharmless
      · rcases s.app.handleHistoryGap_eq session availableFrom with heq | heq <;> rw [heq]
      · rcases s.app.handleHistoryGap_eq session availableFrom with heq | heq <;> rw [heq]
    · exact h hintact
  | sendPrompt p =>
    by_cases hsent : s.freshRequest p.clientRequestId = true ∧ s.app.selectedSessionId ≠ [] ∧
        ¬ (trim p.promptText = [] ∧ p.attachments = [])
    · have hi : s.watch.intact = true ∧ s.harmless (.sendPrompt p) = true := by
        simpa [Screen.step,hsent,Screen.proceed] using hintact
      exact (h hi.1).sendPrompt hi.2 hsent.1 hsent.2.1 hsent.2.2
    · have hsame : (s.step js start (.sendPrompt p)).1 = s := by
        unfold Screen.step
        dsimp only
        rw [if_neg hsent]
      rw [hsame] at hintact ⊢
      exact h hintact
  | append session event =>
    unfold Screen.step at hintact ⊢
    dsimp only at hintact ⊢
    split_ifs at hintact ⊢ with hnil
    · exact h hintact
    · refine (h hintact).congr rfl rfl ?_ rfl rfl
      unfold Screen.fold
      dsimp only
      rw [Screen.log_set]
      split_ifs with hselected
      · have hbound := hc.bounded session
        rw [hselected,SessionLog.retainedUpTo_push _ _ _ hbound]
      · rfl
  | remove session seq =>
    obtain ⟨hi,hharmless⟩ := hproceed s.app hintact
    refine (h hi).congr rfl rfl ?_ rfl rfl
    unfold Screen.fold Screen.step
    dsimp only [Screen.proceed]
    rw [Screen.log_set]
    split_ifs with hselected
    · simp only [Screen.harmless,hselected,Bool.or_eq_true,decide_eq_true_eq] at hharmless
      rcases hharmless with (hne | hlt) | hgone
      · simp at hne
      · rw [hselected,SessionLog.retainedUpTo_drop _ (.inl hlt)]
      · rw [hselected,SessionLog.retainedUpTo_drop _ (.inr hgone)]
    · rfl

theorem apart_eq {sent : List JsText} {xs ys : List TurnMessage} (h : Alike sent xs ys) :
    apart sent xs = apart sent ys := by
  unfold apart
  induction h with
  | nil => rfl
  | @cons a b xs ys hab _ ih =>
    rw [List.filter_cons,List.filter_cons,ih]
    rcases hab with rfl | ⟨⟨id,hid,hsent⟩,-,-,d,rfl⟩
    · rfl
    · have hb : (a.dress d).clientRequestId = some id := hsent
      simp [hsent,hb,hid]

theorem Follows.apart_eq {session : JsText} {sent : List JsText} {waiting : List Prompt}
    {rows told fold : List TurnMessage} (h : Follows js session sent waiting rows told fold) :
    apart sent fold = apart sent rows := by
  have hwaiting : apart sent (waiting.map (Prompt.turn js session)) = [] := by
    unfold apart
    rw [List.filter_eq_nil_iff]
    intro row hrow
    obtain ⟨p,hp,rfl⟩ := List.mem_map.mp hrow
    simp [Prompt.turn_id,h.known p hp]
  rw [h.split,← App.apart_eq h.alike]
  unfold apart at hwaiting ⊢
  rw [List.filter_append,hwaiting,List.append_nil]

end Rows

theorem Screen.not_faithful {js : Engine} {start : Moment} {tr : List LoadEnded} {s : Screen}
    (hsettled : s.settled tr = true)
    (hlength : (s.app.turns.map (fun rows => (apart s.watch.sent rows).length)).isSome = true ∧
      s.app.turns.map (fun rows => (apart s.watch.sent rows).length) ≠
        (aggregateEventsToTurns js start ((s.log s.app.selectedSessionId).retainedUpTo
          (s.app.cursor s.app.selectedSessionId)) s.watch.shownAs).map
          (fun rows => (apart s.watch.sent rows).length)) :
    ¬ s.Faithful js start tr := by
  intro h
  cases hturns : s.app.turns with
  | none => simp [hturns] at hlength
  | some rows =>
    have hlengths := congrArg (Option.map List.length) (h rows hsettled hturns)
    rw [Option.map_map] at hlengths
    rw [hturns] at hlength
    exact hlength.2 hlengths.symm

namespace Sample

def first : JsText := ofString "s1"

def second : JsText := ofString "s2"

/-- A frame of the session that was left arrives before the page of the one that was chosen:
the page is dropped, and the rows of the session that was left stay. -/
def switched : List LoadEnded × Screen :=
  (screen engine tenOClock).exec [] {}
    [.select first,.append first (freshInput tenOClock),.page 0 100,
      .select second,.append first (freshInput tenOClock),.event first 2,.page 0 100]

/-- The first input of a session that has a prompt of its own arrives live. -/
def answered : List LoadEnded × Screen :=
  (screen engine tenOClock).exec [] { app := { sessions := [greeted] } }
    [.select first,.page 0 100,.append first (freshInput tenOClock),.event first 1]

/-- A history of one event, and an input from elsewhere. -/
def followed : List ScreenInput :=
  [.append first { freshInput tenOClock with type := .sessionFinished },.select first,.page 0 100,
    .append first (freshInput tenOClock),.event first 2]

end Sample

end CodeHarbor.App
