import CodeHarbor.App.Transcript
set_option autoImplicit false

namespace CodeHarbor.App
open Lib Lib.Js

/-! What holds of the app and the relay in every run. -/

/-- The logs name their sessions, no cursor is ahead of its log, and a load has read what
stands in the log. -/
structure Screen.Coherent (s : Screen) : Prop where
  named : s.NamedLogs
  bounded : ∀ session, s.app.cursor session ≤ (s.log session).events.length
  loads : ∀ load ∈ s.app.loads, ∀ p ∈ load.list, (s.log load.session).numbered p.2 = some p.1

section Cursors

variable {cursors : OrdMap JsText Nat} {session : JsText} {seq : Nat}

theorem get_saveCursor {j : JsText} {v : Nat} (h : (saveCursor cursors session seq).get j = some v) :
    (j = session ∧ v = seq) ∨ cursors.get j = some v := by
  unfold saveCursor at h
  dsimp only at h
  have hset : ∀ {w : Nat}, (cursors.set session seq).get j = some w →
      (j = session ∧ w = seq) ∨ cursors.get j = some w := by
    intro w hw
    rw [OrdMap.get_set] at hw
    split_ifs at hw with hj
    · exact .inl ⟨hj,(Option.some.inj hw).symm⟩
    · exact .inr hw
  split_ifs at h
  · exact .inr h
  · exact hset (OrdMap.get_of_get_keepNewest h)
  · exact hset h

theorem saveCursor_le {bound : JsText → Nat} (h : ∀ j, (cursors.get j).getD 0 ≤ bound j)
    (hseq : seq ≤ bound session) (j : JsText) :
    ((saveCursor cursors session seq).get j).getD 0 ≤ bound j := by
  cases hget : (saveCursor cursors session seq).get j with
  | none => exact Nat.zero_le _
  | some v =>
    rcases get_saveCursor hget with ⟨rfl,rfl⟩ | hold
    · exact hseq
    · have hle := h j
      rw [hold] at hle
      exact hle

theorem foldl_saveCursor_le {bound : JsText → Nat} (returned : List (JsText × Nat))
    (h : ∀ j, (cursors.get j).getD 0 ≤ bound j) (hret : ∀ e ∈ returned, e.2 ≤ bound e.1) (j : JsText) :
    ((returned.foldl (fun cursors e => saveCursor cursors e.1 e.2) cursors).get j).getD 0 ≤ bound j := by
  induction returned generalizing cursors with
  | nil => exact h j
  | cons e returned ih =>
    exact ih (saveCursor_le h (hret e List.mem_cons_self))
      (fun d hd => hret d (List.mem_cons_of_mem e hd))

end Cursors

section Operations

variable (a : AppState) (session : JsText)

theorem AppState.scheduleGapRecovery_eq (expectedSeq : Nat) :
    ∃ recovery, a.scheduleGapRecovery session expectedSeq = { a with gapRecovery := recovery } := by
  unfold AppState.scheduleGapRecovery
  dsimp only
  split_ifs
  · exact ⟨a.gapRecovery,rfl⟩
  · exact ⟨_,rfl⟩

theorem AppState.settleRecovery_eq (maxSeq : Nat) :
    ∃ recovery, a.settleRecovery session maxSeq = { a with gapRecovery := recovery } := by
  unfold AppState.settleRecovery
  cases a.gapRecovery.get session with
  | none => exact ⟨a.gapRecovery,rfl⟩
  | some recovery =>
    dsimp only
    split_ifs
    · exact ⟨_,rfl⟩
    · exact a.scheduleGapRecovery_eq session _

theorem AppState.startLoad_eq :
    ∃ loads, a.startLoad session = { a with loads := loads } ∧
      ∀ load ∈ loads, load ∈ a.loads ∨ load.list = [] := by
  unfold AppState.startLoad
  split_ifs
  · exact ⟨a.loads,rfl,fun load hload => .inl hload⟩
  · refine ⟨_,rfl,?_⟩
    intro load hload
    rcases List.mem_append.mp hload with hold | hnew
    · exact .inl hold
    · rw [List.mem_singleton] at hnew
      subst hnew
      exact .inr rfl

theorem AppState.fireGapTimer_eq :
    ∃ recovery loads, a.fireGapTimer session = { a with gapRecovery := recovery, loads := loads } ∧
      ∀ load ∈ loads, load ∈ a.loads ∨ load.list = [] := by
  unfold AppState.fireGapTimer
  cases a.gapRecovery.get session with
  | none => exact ⟨a.gapRecovery,a.loads,rfl,fun load hload => .inl hload⟩
  | some recovery =>
    dsimp only
    split_ifs
    · obtain ⟨loads,heq,hloads⟩ := AppState.startLoad_eq
        { a with gapRecovery := a.gapRecovery.set session { recovery with timer := false } } session
      exact ⟨_,loads,heq,hloads⟩
    · exact ⟨a.gapRecovery,a.loads,rfl,fun load hload => .inl hload⟩

theorem AppState.select_loads : ∀ load ∈ (a.select session).loads, load ∈ a.loads ∨ load.list = [] := by
  unfold AppState.select
  split_ifs
  · exact fun load hload => .inl hload
  · exact fun load hload => .inl hload
  · obtain ⟨loads,heq,hloads⟩ :=
      AppState.startLoad_eq { a with selectedSessionId := session } session
    rw [heq]
    exact hloads

theorem AppState.select_cursors : (a.select session).cursors = a.cursors := by
  unfold AppState.select
  split_ifs
  · rfl
  · rfl
  · obtain ⟨loads,heq,-⟩ := AppState.startLoad_eq { a with selectedSessionId := session } session
    rw [heq]

theorem AppState.finishLoad_cursors (js : Engine) (start : Moment) (load : Load) :
    (a.finishLoad js start load).1.cursors = a.cursors ∨
      (a.finishLoad js start load).1.cursors = App.saveCursor a.cursors load.session load.maxSeq := by
  unfold AppState.finishLoad
  split_ifs with hcurrent
  · cases aggregateEventsToTurns js start (load.list.map Prod.fst) (a.findSession load.session) with
    | none =>
      left
      unfold AppState.failLoad
      dsimp only
      split_ifs
      rfl
    | some rows =>
      right
      dsimp only
      obtain ⟨recovery,heq⟩ := AppState.settleRecovery_eq
        (AppState.saveCursor { a with turns := a.turns.map (fun _ => rows) } load.session load.maxSeq)
        load.session load.maxSeq
      rw [heq]
      rfl
  · exact .inl rfl

theorem AppState.finishLoad_loads (js : Engine) (start : Moment) (load : Load) :
    (a.finishLoad js start load).1.loads = a.loads := by
  unfold AppState.finishLoad
  split_ifs with hcurrent
  · cases aggregateEventsToTurns js start (load.list.map Prod.fst) (a.findSession load.session) with
    | none =>
      unfold AppState.failLoad
      dsimp only
      split_ifs
      rfl
    | some rows =>
      dsimp only
      obtain ⟨recovery,heq⟩ := AppState.settleRecovery_eq
        (AppState.saveCursor { a with turns := a.turns.map (fun _ => rows) } load.session load.maxSeq)
        load.session load.maxSeq
      rw [heq]
      rfl
  · rfl

theorem AppState.handleNumbered_cursors (js : Engine) (seq : Nat) (event : EventMessage) :
    (a.handleNumbered js session seq event).cursors = a.cursors ∨
      (a.handleNumbered js session seq event).cursors = App.saveCursor a.cursors session seq := by
  unfold AppState.handleNumbered
  split_ifs
  · exact .inl rfl
  · obtain ⟨recovery,heq⟩ := a.scheduleGapRecovery_eq session seq
    rw [heq]
    exact .inl rfl
  · exact .inr rfl
  · exact .inr rfl
  · exact .inr rfl

theorem AppState.handleNumbered_loads (js : Engine) (seq : Nat) (event : EventMessage) :
    (a.handleNumbered js session seq event).loads = a.loads := by
  unfold AppState.handleNumbered
  split_ifs
  · rfl
  · obtain ⟨recovery,heq⟩ := a.scheduleGapRecovery_eq session seq
    rw [heq]
  · rfl
  · rfl
  · rfl

theorem AppState.handleResumeComplete_eq (truncated : Bool) (returned : List (JsText × Nat)) :
    a.handleResumeComplete truncated returned = a ∨
      ∃ attempts, a.handleResumeComplete truncated returned = { a with
        cursors := returned.foldl (fun cursors e => App.saveCursor cursors e.1 e.2) a.cursors
        resumeAttempts := attempts } := by
  unfold AppState.handleResumeComplete
  by_cases hresume : (truncated && a.resumeAttempts < 10) = true
  · rw [if_pos hresume]
    exact .inr ⟨_,rfl⟩
  · rw [if_neg hresume]
    exact .inl rfl

theorem AppState.handleHistoryGap_eq (availableFrom : Nat) :
    a.handleHistoryGap session availableFrom = a ∨
      a.handleHistoryGap session availableFrom =
        { a with cursors := a.cursors.set session (availableFrom-1) } := by
  unfold AppState.handleHistoryGap AppState.resetCursor
  split_ifs
  · exact .inl rfl
  · exact .inr rfl
  · exact .inl rfl

theorem AppState.sendPrompt_frame (js : Engine) (p : Prompt) :
    (a.sendPrompt js p).cursors = a.cursors ∧ (a.sendPrompt js p).loads = a.loads := by
  unfold AppState.sendPrompt
  by_cases hrefused : a.selectedSessionId = [] ∨ (trim p.promptText = [] ∧ p.attachments = [])
  · rw [if_pos hrefused]
    exact ⟨rfl,rfl⟩
  · rw [if_neg hrefused]
    exact ⟨rfl,rfl⟩

theorem AppState.handleUnnumbered_frame (js : Engine) (event : EventMessage) :
    (a.handleUnnumbered js event).cursors = a.cursors ∧
      (a.handleUnnumbered js event).loads = a.loads := by
  unfold AppState.handleUnnumbered
  split_ifs
  · exact ⟨rfl,rfl⟩
  · exact ⟨rfl,rfl⟩

end Operations

section Coherence

variable {s : Screen}

theorem SessionLog.length_of_numbered {log : SessionLog} {seq : Nat} {event : EventMessage}
    (h : log.numbered seq = some event) : seq ≤ log.events.length := by
  unfold numbered at h
  split_ifs at h with hzero
  have hlt := (List.getElem?_eq_some_iff.mp h).1
  omega

theorem Screen.Coherent.withApp (h : s.Coherent) {s' : Screen} (hlogs : s'.logs = s.logs)
    (hcursors : ∀ j, s'.app.cursor j ≤ (s.log j).events.length)
    (hloads : ∀ load ∈ s'.app.loads, load ∈ s.app.loads ∨ load.list = []) : s'.Coherent := by
  have hlog : ∀ session, s'.log session = s.log session := by
    intro session
    unfold Screen.log
    rw [hlogs]
  refine ⟨?_,?_,?_⟩
  · intro session event hevent
    rw [hlog] at hevent
    exact h.named session event hevent
  · intro session
    rw [hlog]
    exact hcursors session
  · intro load hload p hp
    rw [hlog]
    rcases hloads load hload with hold | hempty
    · exact h.loads load hold p hp
    · simp [hempty] at hp

theorem Screen.Coherent.sameCursors (h : s.Coherent) {s' : Screen} (hlogs : s'.logs = s.logs)
    (hcursors : s'.app.cursors = s.app.cursors)
    (hloads : ∀ load ∈ s'.app.loads, load ∈ s.app.loads ∨ load.list = []) : s'.Coherent := by
  refine h.withApp hlogs ?_ hloads
  intro j
  unfold AppState.cursor
  rw [hcursors]
  exact h.bounded j

theorem Load.numbered_read {log : SessionLog} {load : Load}
    (h : ∀ p ∈ load.list, log.numbered p.2 = some p.1) (count : Nat) :
    ∀ p ∈ (load.read (log.page load.after count)).1.list, log.numbered p.2 = some p.1 := by
  intro p hp
  unfold Load.read SessionLog.page at hp
  rcases List.mem_append.mp hp with hold | hnew
  · exact h p hold
  · exact SessionLog.numbered_of_retained (List.mem_of_mem_filter (List.mem_of_mem_take hnew))

theorem foldl_max_le {xs : List (EventMessage × Nat)} {m bound : Nat} (hm : m ≤ bound)
    (h : ∀ p ∈ xs, p.2 ≤ bound) : xs.foldl (fun m e => max m e.2) m ≤ bound := by
  induction xs generalizing m with
  | nil => exact hm
  | cons x xs ih =>
    exact ih (Nat.max_le.mpr ⟨hm,h x List.mem_cons_self⟩) (fun p hp => h p (List.mem_cons_of_mem x hp))

theorem Load.maxSeq_le {log : SessionLog} {load : Load}
    (h : ∀ p ∈ load.list, log.numbered p.2 = some p.1) : load.maxSeq ≤ log.events.length :=
  foldl_max_le (Nat.zero_le _) (fun p hp => SessionLog.length_of_numbered (h p hp))

theorem Screen.Coherent.finish (h : s.Coherent) (js : Engine) (start : Moment) {load : Load}
    (hload : ∀ p ∈ load.list, (s.log load.session).numbered p.2 = some p.1) (how : LoadEnd) :
    (s.endLoad load (s.app.finishLoad js start load).1 how).1.Coherent := by
  refine h.withApp rfl ?_ ?_
  · intro j
    unfold Screen.endLoad AppState.cursor
    dsimp only
    rcases s.app.finishLoad_cursors js start load with heq | heq
    · rw [heq]
      exact h.bounded j
    · rw [heq]
      exact saveCursor_le h.bounded (Load.maxSeq_le hload) j
  · intro l hl
    unfold Screen.endLoad at hl
    dsimp only at hl
    rw [AppState.finishLoad_loads] at hl
    exact .inl hl

theorem Screen.Coherent.loadStep (h : s.Coherent) (js : Engine) (start : Moment) (k : Nat)
    (count : Option Nat) : (s.loadStep js start k count).1.Coherent := by
  unfold Screen.loadStep
  cases hk : s.app.loads[k]? with
  | none => exact h
  | some load =>
    have hmem : load ∈ s.app.loads := List.mem_of_getElem? hk
    have hwithout : Screen.Coherent { s with app := { s.app with loads := s.app.loads.eraseIdx k } } :=
      h.sameCursors rfl rfl (fun l hl => .inl (List.mem_of_mem_eraseIdx hl))
    dsimp only
    cases count with
    | none =>
      dsimp only
      split_ifs
      · refine hwithout.sameCursors rfl ?_ ?_
        · unfold Screen.endLoad AppState.failLoad
          dsimp only
          split_ifs <;> rfl
        · intro l hl
          unfold Screen.endLoad AppState.failLoad at hl
          dsimp only at hl
          split_ifs at hl
          · exact .inl hl
          · exact .inl hl
      · exact hwithout.finish js start (h.loads load hmem) _
    | some count =>
      have hread := Load.numbered_read (h.loads load hmem) count
      dsimp only
      split_ifs
      · refine ⟨h.named,h.bounded,?_⟩
        intro l hl p hp
        rcases List.mem_or_eq_of_mem_set hl with hold | rfl
        · exact h.loads l hold p hp
        · exact hread p hp
      · exact hwithout.finish js start hread _

theorem Screen.log_set (logs : OrdMap JsText SessionLog) (app : AppState) (watch : Watch)
    (session j : JsText) (log : SessionLog) :
    (Screen.mk app (logs.set session log) watch).log j =
      if j = session then log else (Screen.mk app logs watch).log j := by
  unfold Screen.log
  rw [OrdMap.get_set]
  split_ifs <;> rfl

theorem Screen.Coherent.push (h : s.Coherent) {session : JsText} (hsession : session ≠ [])
    (event : EventMessage) :
    (Screen.mk s.app (s.logs.set session ((s.log session).push session event)) s.watch).Coherent := by
  refine ⟨?_,?_,?_⟩
  · intro j e he
    rw [Screen.log_set] at he
    split_ifs at he with hj
    · subst hj
      rcases List.mem_append.mp he with hold | hnew
      · exact h.named j e hold
      · rw [List.mem_singleton] at hnew
        subst hnew
        exact ⟨hsession,rfl⟩
    · exact h.named j e he
  · intro j
    rw [Screen.log_set]
    split_ifs with hj
    · subst hj
      have hle := h.bounded j
      rw [SessionLog.push,List.length_append]
      exact Nat.le_add_right_of_le hle
    · exact h.bounded j
  · intro load hload p hp
    rw [Screen.log_set]
    split_ifs with hj
    · have hold := h.loads load hload p hp
      rw [hj] at hold
      exact SessionLog.numbered_push hold session event
    · exact h.loads load hload p hp

theorem Screen.Coherent.drop (h : s.Coherent) (session : JsText) (seq : Nat) (watch : Watch) :
    (Screen.mk s.app (s.logs.set session ((s.log session).drop seq)) watch).Coherent := by
  have hevents : ∀ j, ((Screen.mk s.app (s.logs.set session ((s.log session).drop seq))
      watch).log j).events = (s.log j).events := by
    intro j
    rw [Screen.log_set]
    split_ifs with hj
    · rw [hj]
      rfl
    · rfl
  refine ⟨?_,?_,?_⟩
  · intro j e he
    rw [hevents] at he
    exact h.named j e he
  · intro j
    rw [hevents]
    exact h.bounded j
  · intro load hload p hp
    have hold := h.loads load hload p hp
    unfold SessionLog.numbered at hold ⊢
    rw [hevents]
    exact hold

theorem Screen.Coherent.eventStep (h : s.Coherent) (js : Engine) (session : JsText) (seq : Nat) :
    (s.eventStep js session seq).Coherent := by
  unfold Screen.eventStep
  cases hevent : (s.log session).numbered seq with
  | none => exact h
  | some event =>
    dsimp only
    refine h.withApp rfl ?_ ?_
    · intro j
      unfold Screen.proceed AppState.cursor
      dsimp only
      rcases s.app.handleNumbered_cursors session js seq event with heq | heq
      · rw [heq]
        exact h.bounded j
      · rw [heq]
        exact saveCursor_le h.bounded (SessionLog.length_of_numbered hevent) j
    · unfold Screen.proceed
      dsimp only
      rw [AppState.handleNumbered_loads]
      exact fun load hload => .inl hload

theorem Screen.Coherent.step (h : s.Coherent) (js : Engine) (start : Moment) (input : ScreenInput) :
    (s.step js start input).1.Coherent := by
  have hsame : ∀ load ∈ s.app.loads, load ∈ s.app.loads ∨ load.list = [] := fun load hload => .inl hload
  cases input with
  | select session =>
    unfold Screen.step
    dsimp only
    split_ifs
    · exact h
    · exact h.sameCursors rfl (s.app.select_cursors session) (s.app.select_loads session)
  | «open» =>
    obtain ⟨loads,heq,hloads⟩ :=
      AppState.startLoad_eq { s.app with resumeAttempts := 0 } s.app.selectedSessionId
    refine h.sameCursors rfl ?_ ?_
    · simp [Screen.step,Screen.proceed,AppState.open,heq]
    · simpa [Screen.step,Screen.proceed,AppState.open,heq] using hloads
  | listSessions sessions => exact h.sameCursors rfl rfl hsame
  | gapTimer session =>
    obtain ⟨recovery,loads,heq,hloads⟩ := s.app.fireGapTimer_eq session
    refine h.sameCursors rfl ?_ ?_
    · simp [Screen.step,Screen.proceed,heq]
    · simpa [Screen.step,Screen.proceed,heq] using hloads
  | page load count => exact h.loadStep js start load (some count)
  | pageFailed load => exact h.loadStep js start load none
  | event session seq => exact h.eventStep js session seq
  | unnumbered event =>
    obtain ⟨hcursors,hloads⟩ := s.app.handleUnnumbered_frame js event
    unfold Screen.step
    dsimp only
    split_ifs
    · exact h
    · refine h.sameCursors rfl hcursors ?_
      intro load hload
      rw [Screen.proceed,hloads] at hload
      exact .inl hload
  | resumeComplete truncated returned =>
    unfold Screen.step
    dsimp only
    split_ifs with hbound
    · rcases s.app.handleResumeComplete_eq truncated returned with heq | ⟨attempts,heq⟩
      · refine h.sameCursors rfl ?_ ?_
        · rw [Screen.proceed,heq]
        · rw [Screen.proceed,heq]
          exact hsame
      · rw [List.all_eq_true] at hbound
        refine h.withApp rfl ?_ ?_
        · intro j
          rw [Screen.proceed,heq]
          exact foldl_saveCursor_le returned h.bounded (fun e he => by simpa using hbound e he) j
        · rw [Screen.proceed,heq]
          exact hsame
    · exact h
  | historyGap session availableFrom =>
    unfold Screen.step
    dsimp only
    split_ifs with hbound
    · rcases s.app.handleHistoryGap_eq session availableFrom with heq | heq
      · refine h.sameCursors rfl ?_ ?_
        · rw [Screen.proceed,heq]
        · rw [Screen.proceed,heq]
          exact hsame
      · refine h.withApp rfl ?_ ?_
        · intro j
          rw [Screen.proceed,heq]
          unfold AppState.cursor
          dsimp only
          rw [OrdMap.get_set]
          split_ifs with hj
          · subst hj
            exact (Nat.sub_le availableFrom 1).trans hbound
          · exact h.bounded j
        · rw [Screen.proceed,heq]
          exact hsame
    · exact h
  | sendPrompt p =>
    obtain ⟨hcursors,hloads⟩ := s.app.sendPrompt_frame js p
    unfold Screen.step
    dsimp only
    split_ifs
    · refine h.sameCursors rfl hcursors ?_
      intro load hload
      rw [Screen.proceed,hloads] at hload
      exact .inl hload
    · exact h
  | append session event =>
    unfold Screen.step
    dsimp only
    split_ifs with hnil
    · exact h
    · exact h.push hnil event
  | remove session seq => exact h.drop session seq _

end Coherence

end CodeHarbor.App
