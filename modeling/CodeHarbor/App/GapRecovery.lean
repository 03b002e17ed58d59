import CodeHarbor.App.Faithful
set_option autoImplicit false

namespace CodeHarbor.App
open Lib Lib.Js

/-! The recovery of a gap. A frame beyond the next number arms a timer, the timer starts a
load of the session, and the end of the load settles the recovery. -/

/-- The effects of a new token: the recoveries are forgotten, and the selected session is
loaded again. -/
def AppState.tokenChanged (a : AppState) : AppState :=
  AppState.startLoad { a with gapRecovery := OrdMap.empty } a.selectedSessionId

/-- Cursors and keys of another account are not taken over. -/
def AppState.login (a : AppState) : AppState :=
  AppState.tokenChanged { a with cursors := OrdMap.empty, seenEventKeys := [] }

def AppState.logout (a : AppState) : AppState :=
  { a with
    cursors := OrdMap.empty
    seenEventKeys := []
    sessions := []
    selectedSessionId := []
    turns := a.turns.map (fun _ => [])
    gapRecovery := OrdMap.empty }

inductive StreamInput where
  | screen (input : ScreenInput)
  | tokenChanged
  | login
  | logout

/-- After a step of the token the rows are no longer those of before. -/
def Screen.renew (s : Screen) (app : AppState) : Screen :=
  { s with app := app, watch := { s.watch with intact := false, waiting := [] } }

def Screen.streamStep (js : Engine) (start : Moment) (s : Screen) : StreamInput → Screen × List LoadEnded
  | .screen input => s.step js start input
  | .tokenChanged => (s.renew s.app.tokenChanged,[])
  | .login => (s.renew s.app.login,[])
  | .logout => (s.renew s.app.logout,[])

def stream (js : Engine) (start : Moment) : Machine Screen StreamInput LoadEnded where
  init s := s.Opened ∧ s.app.gapRecovery = OrdMap.empty
  step s input := s.streamStep js start input

/-- A recovery that waits for a number beyond the cursor and has attempts left has a timer
or a load under way. -/
def AppState.Retried (a : AppState) : Prop :=
  ∀ session recovery, a.gapRecovery.get session = some recovery →
    a.cursor session < recovery.expectedSeq → recovery.attempt < 5 →
      recovery.timer = true ∨ ∃ load ∈ a.loads, load.session = session

/-! The steps after which it still has. -/

/-- Attempts are left, and nothing will make the next one. -/
def AppState.idle (a : AppState) (session : JsText) (recovery : GapRecovery) : Bool :=
  recovery.attempt < 5 && !recovery.timer && a.loads.all (·.session ≠ session)

/-- A cursor that has reached what an idle recovery waits for does not fall behind it. -/
def AppState.keepsReached (a : AppState) (cursors : OrdMap JsText Nat) : Bool :=
  a.gapRecovery.entries.all (fun e =>
    !a.idle e.1 e.2 || a.cursor e.1 < e.2.expectedSeq || e.2.expectedSeq ≤ (cursors.get e.1).getD 0)

/-- The recovery of the session is not idle, or the cursor has reached what it waits for. -/
def AppState.spares (a : AppState) (session : JsText) : Bool :=
  (a.gapRecovery.get session).all (fun recovery =>
    !a.idle session recovery || recovery.expectedSeq ≤ a.cursor session)

def AppState.shows (js : Engine) (start : Moment) (a : AppState) (load : Load) : Bool :=
  a.current load &&
    (aggregateEventsToTurns js start (load.list.map Prod.fst) (a.findSession load.session)).isSome

def AppState.filled (a : AppState) (load : Load) : AppState :=
  if (a.gapRecovery.get load.session).any (·.expectedSeq ≤ load.maxSeq) then
    { a with gapRecovery := a.gapRecovery.erase load.session }
  else a

/-- No recovery depends on a load that ends now, apart from one that it fills. The load is
no longer among those under way. -/
def AppState.mayFinish (js : Engine) (start : Moment) (a : AppState) (load : Load) : Bool :=
  if a.shows js start load then
    (a.filled load).spares load.session &&
      (a.filled load).keepsReached (App.saveCursor a.cursors load.session load.maxSeq)
  else a.spares load.session

def AppState.withoutLoad (a : AppState) (k : Nat) : AppState := { a with loads := a.loads.eraseIdx k }

/-- A load ends only when no idle recovery is left behind, and cursors do not fall behind one. -/
def Screen.retries (js : Engine) (start : Moment) (s : Screen) : ScreenInput → Bool
  | .page k count =>
    match s.app.loads[k]? with
    | none => true
    | some load =>
      let next := load.read ((s.log load.session).page load.after count)
      next.2 || (s.app.withoutLoad k).mayFinish js start next.1
  | .pageFailed k =>
    match s.app.loads[k]? with
    | none => true
    | some load =>
      if load.page = 0 then (s.app.withoutLoad k).spares load.session
      else (s.app.withoutLoad k).mayFinish js start load
  | .event session seq =>
    ((s.log session).numbered seq).isNone || s.app.cursor session+1 < seq ||
      s.app.keepsReached (saveCursor s.app.cursors session seq)
  | .resumeComplete truncated returned =>
    s.app.keepsReached (s.app.handleResumeComplete truncated returned).cursors
  | .historyGap session availableFrom =>
    s.app.keepsReached (s.app.handleHistoryGap session availableFrom).cursors
  | _ => true

def retrying (js : Engine) (start : Moment) (_ : List LoadEnded) (s : Screen) : StreamInput → Prop
  | .screen input => s.retries js start input = true
  | _ => True

instance (js : Engine) (start : Moment) (tr : List LoadEnded) (s : Screen) (input : StreamInput) :
    Decidable (retrying js start tr s input) :=
  match input with
  | .screen _ => inferInstanceAs (Decidable (_ = _))
  | .tokenChanged => instDecidableTrue
  | .login => instDecidableTrue
  | .logout => instDecidableTrue

section Idle

variable {a a' : AppState} {session : JsText} {recovery : GapRecovery}

theorem AppState.idle_iff :
    a.idle session recovery = true ↔
      recovery.attempt < 5 ∧ recovery.timer = false ∧ ∀ load ∈ a.loads, load.session ≠ session := by
  simp [idle,and_assoc]

theorem AppState.retried_iff :
    a.Retried ↔ ∀ session recovery, a.gapRecovery.get session = some recovery →
      a.idle session recovery = true → recovery.expectedSeq ≤ a.cursor session := by
  constructor
  · intro h session recovery hget hidle
    obtain ⟨hattempt,htimer,hloads⟩ := AppState.idle_iff.mp hidle
    by_contra hbeyond
    rcases h session recovery hget (by omega) hattempt with harmed | ⟨load,hload,hsession⟩
    · simp [htimer] at harmed
    · exact hloads load hload hsession
  · intro h session recovery hget hbeyond hattempt
    by_contra hnone
    obtain ⟨htimer,hload⟩ := not_or.mp hnone
    have hidle : a.idle session recovery = true := by
      rw [AppState.idle_iff]
      refine ⟨hattempt,by simpa using htimer,?_⟩
      intro load hmem hsession
      exact hload ⟨load,hmem,hsession⟩
    have hreached := h session recovery hget hidle
    omega

theorem AppState.keepsReached_iff {cursors : OrdMap JsText Nat} :
    a.keepsReached cursors = true ↔ ∀ session recovery, a.gapRecovery.get session = some recovery →
      a.idle session recovery = true → recovery.expectedSeq ≤ a.cursor session →
        recovery.expectedSeq ≤ (cursors.get session).getD 0 := by
  unfold keepsReached
  rw [List.all_eq_true]
  constructor
  · intro h session recovery hget hidle hreached
    have hentry := h (session,recovery) (OrdMap.get_eq_some.mp hget)
    simp only [hidle,Bool.not_true,Bool.false_or,Bool.or_eq_true,decide_eq_true_eq] at hentry
    omega
  · intro h e he
    by_cases hidle : a.idle e.1 e.2 = true
    · by_cases hreached : e.2.expectedSeq ≤ a.cursor e.1
      · simp [h e.1 e.2 (OrdMap.get_eq_some.mpr he) hidle hreached]
      · have hbeyond : a.cursor e.1 < e.2.expectedSeq := by omega
        simp [hbeyond]
    · simp [hidle]

theorem AppState.spares_iff :
    a.spares session = true ↔ ∀ recovery, a.gapRecovery.get session = some recovery →
      a.idle session recovery = true → recovery.expectedSeq ≤ a.cursor session := by
  unfold spares
  cases a.gapRecovery.get session with
  | none => simp
  | some recovery =>
    by_cases hidle : a.idle session recovery = true
    · simp [hidle]
    · simp [hidle]

theorem AppState.Retried.of_idle (h : a.Retried)
    (hidle : ∀ j r, a'.gapRecovery.get j = some r → a'.idle j r = true →
      a.gapRecovery.get j = some r ∧ a.idle j r = true)
    (hkept : a.keepsReached a'.cursors = true) : a'.Retried := by
  rw [AppState.retried_iff] at h ⊢
  rw [AppState.keepsReached_iff] at hkept
  intro j r hget hr
  obtain ⟨hget,hr⟩ := hidle j r hget hr
  exact hkept j r hget hr (h j r hget hr)

theorem AppState.keepsReached_self (a : AppState) : a.keepsReached a.cursors = true := by
  rw [AppState.keepsReached_iff]
  intro j r _ _ hreached
  exact hreached

theorem AppState.idle_of_loads (hloads : ∀ load ∈ a.loads, ∃ later ∈ a'.loads, later.session = load.session)
    (h : a'.idle session recovery = true) : a.idle session recovery = true := by
  rw [AppState.idle_iff] at h ⊢
  refine ⟨h.1,h.2.1,?_⟩
  intro load hload hsession
  obtain ⟨later,hlater,heq⟩ := hloads load hload
  exact h.2.2 later hlater (heq.trans hsession)

theorem AppState.Retried.of_loads (h : a.Retried) (hgap : a'.gapRecovery = a.gapRecovery)
    (hloads : ∀ load ∈ a.loads, ∃ later ∈ a'.loads, later.session = load.session)
    (hkept : a.keepsReached a'.cursors = true) : a'.Retried := by
  refine h.of_idle ?_ hkept
  intro j r hget hidle
  rw [hgap] at hget
  exact ⟨hget,AppState.idle_of_loads hloads hidle⟩

end Idle

section Recoveries

variable (a : AppState) (session : JsText)

theorem AppState.startLoad_loads :
    (a.startLoad session).gapRecovery = a.gapRecovery ∧ (a.startLoad session).cursors = a.cursors ∧
      (∀ load ∈ a.loads, load ∈ (a.startLoad session).loads) ∧
      (session ≠ [] → ∃ load ∈ (a.startLoad session).loads, load.session = session) := by
  unfold startLoad
  split_ifs with hempty
  · exact ⟨rfl,rfl,fun load hload => hload,fun hne => absurd hempty hne⟩
  · refine ⟨rfl,rfl,?_,?_⟩
    · intro load hload
      exact List.mem_append_left _ hload
    · intro _
      exact ⟨_,List.mem_append_right _ List.mem_cons_self,rfl⟩

theorem AppState.select_gapRecovery :
    (a.select session).gapRecovery = a.gapRecovery ∧ ∀ load ∈ a.loads, load ∈ (a.select session).loads := by
  unfold select
  split_ifs
  · exact ⟨rfl,fun load hload => hload⟩
  · exact ⟨rfl,fun load hload => hload⟩
  · obtain ⟨hgap,-,hloads,-⟩ :=
      AppState.startLoad_loads { a with selectedSessionId := session } session
    exact ⟨hgap,hloads⟩

theorem AppState.scheduleGapRecovery_get {expectedSeq : Nat} {j : JsText} {r : GapRecovery}
    (h : (a.scheduleGapRecovery session expectedSeq).gapRecovery.get j = some r) :
    a.gapRecovery.get j = some r ∨ (j = session ∧ r.timer = true) := by
  unfold scheduleGapRecovery at h
  dsimp only at h
  split_ifs at h
  · exact .inl h
  · rw [OrdMap.get_set] at h
    split_ifs at h with hj
    · rw [Option.some.injEq] at h
      subst h
      exact .inr ⟨hj,rfl⟩
    · exact .inl h

theorem AppState.settleRecovery_get {maxSeq : Nat} {j : JsText} {r : GapRecovery}
    (h : (a.settleRecovery session maxSeq).gapRecovery.get j = some r) :
    (a.gapRecovery.get j = some r ∧ (j = session → maxSeq < r.expectedSeq)) ∨
      (r.timer = true ∧ (a.gapRecovery.get j).isSome = true) := by
  unfold settleRecovery at h
  cases hget : a.gapRecovery.get session with
  | none =>
    rw [hget] at h
    refine .inl ⟨h,?_⟩
    rintro rfl
    simp [hget] at h
  | some recovery =>
    rw [hget] at h
    dsimp only at h
    split_ifs at h with hdone
    · rw [OrdMap.get_erase] at h
      split_ifs at h with hj
      exact .inl ⟨h,fun hself => absurd hself hj⟩
    · rcases a.scheduleGapRecovery_get session h with hold | ⟨rfl,harmed⟩
      · refine .inl ⟨hold,?_⟩
        rintro rfl
        rw [hget,Option.some.injEq] at hold
        subst hold
        omega
      · exact .inr ⟨harmed,by simp [hget]⟩

theorem AppState.fireGapTimer_get {j : JsText} {r : GapRecovery}
    (h : (a.fireGapTimer session).gapRecovery.get j = some r) :
    (a.gapRecovery.get j).isSome = true ∧ (a.gapRecovery.get j = some r ∨
      (j = session ∧ (session ≠ [] → ∃ load ∈ (a.fireGapTimer session).loads, load.session = session))) := by
  unfold fireGapTimer at h ⊢
  cases hget : a.gapRecovery.get session with
  | none =>
    rw [hget] at h
    dsimp only at h
    exact ⟨by simp [h],.inl h⟩
  | some recovery =>
    rw [hget] at h
    dsimp only at h ⊢
    split_ifs at h ⊢ with htimer
    · obtain ⟨hgap,-,-,hloaded⟩ := AppState.startLoad_loads
        { a with gapRecovery := a.gapRecovery.set session { recovery with timer := false } } session
      rw [hgap,OrdMap.get_set] at h
      split_ifs at h with hj
      · subst hj
        exact ⟨by simp [hget],.inr ⟨rfl,hloaded⟩⟩
      · exact ⟨by simp [h],.inl h⟩
    · exact ⟨by simp [h],.inl h⟩

theorem AppState.fireGapTimer_loads :
    (a.fireGapTimer session).cursors = a.cursors ∧
      ∀ load ∈ a.loads, load ∈ (a.fireGapTimer session).loads := by
  unfold fireGapTimer
  cases a.gapRecovery.get session with
  | none => exact ⟨rfl,fun load hload => hload⟩
  | some recovery =>
    dsimp only
    split_ifs
    · obtain ⟨-,hcursors,hloads,-⟩ := AppState.startLoad_loads
        { a with gapRecovery := a.gapRecovery.set session { recovery with timer := false } } session
      exact ⟨hcursors,hloads⟩
    · exact ⟨rfl,fun load hload => hload⟩

theorem AppState.handleUnnumbered_gapRecovery (js : Engine) (event : EventMessage) :
    (a.handleUnnumbered js event).gapRecovery = a.gapRecovery := by
  unfold handleUnnumbered
  split_ifs
  · rfl
  · rfl

theorem AppState.sendPrompt_gapRecovery (js : Engine) (p : Prompt) :
    (a.sendPrompt js p).gapRecovery = a.gapRecovery := by
  unfold sendPrompt
  by_cases hrefused : a.selectedSessionId = [] ∨ (trim p.promptText = [] ∧ p.attachments = [])
  · rw [if_pos hrefused]
  · rw [if_neg hrefused]

theorem AppState.handleNumbered_get (js : Engine) {seq : Nat} {event : EventMessage} {j : JsText}
    {r : GapRecovery} (h : (a.handleNumbered js session seq event).gapRecovery.get j = some r) :
    a.gapRecovery.get j = some r ∨ (j = session ∧ r.timer = true) := by
  unfold handleNumbered at h
  split_ifs at h
  · exact .inl h
  · exact a.scheduleGapRecovery_get session h
  · exact .inl h
  · exact .inl h
  · exact .inl h

end Recoveries

section Operations

variable {a : AppState}

theorem AppState.Retried.startLoad (h : a.Retried) (session : JsText) : (a.startLoad session).Retried := by
  obtain ⟨hgap,hcursors,hloads,-⟩ := a.startLoad_loads session
  refine h.of_loads hgap (fun load hload => ⟨load,hloads load hload,rfl⟩) ?_
  rw [hcursors]
  exact a.keepsReached_self

theorem AppState.Retried.select (h : a.Retried) (session : JsText) : (a.select session).Retried := by
  obtain ⟨hgap,hloads⟩ := a.select_gapRecovery session
  refine h.of_loads hgap (fun load hload => ⟨load,hloads load hload,rfl⟩) ?_
  rw [a.select_cursors]
  exact a.keepsReached_self

theorem AppState.Retried.fireGapTimer (h : a.Retried) (hkeyed : a.gapRecovery.get [] = none)
    (session : JsText) : (a.fireGapTimer session).Retried := by
  obtain ⟨hcursors,hloads⟩ := a.fireGapTimer_loads session
  refine h.of_idle ?_ (by rw [hcursors]; exact a.keepsReached_self)
  intro j r hget hidle
  obtain ⟨hsome,hold | ⟨rfl,hloaded⟩⟩ := a.fireGapTimer_get session hget
  · exact ⟨hold,AppState.idle_of_loads (fun load hload => ⟨load,hloads load hload,rfl⟩) hidle⟩
  · have hj : j ≠ [] := by
      rintro rfl
      simp [hkeyed] at hsome
    obtain ⟨load,hload,hsession⟩ := hloaded hj
    exact absurd hsession ((AppState.idle_iff.mp hidle).2.2 load hload)

theorem AppState.Retried.handleNumbered (h : a.Retried) (js : Engine) {session : JsText} {seq : Nat}
    (event : EventMessage)
    (hkept : a.cursor session+1 < seq ∨ a.keepsReached (App.saveCursor a.cursors session seq) = true) :
    (a.handleNumbered js session seq event).Retried := by
  refine h.of_idle ?_ ?_
  · intro j r hget hidle
    rcases a.handleNumbered_get session js hget with hold | ⟨-,harmed⟩
    · refine ⟨hold,AppState.idle_of_loads ?_ hidle⟩
      intro load hload
      rw [a.handleNumbered_loads]
      exact ⟨load,hload,rfl⟩
    · simp [AppState.idle_iff,harmed] at hidle
  · rcases hkept with hgap | hkept
    · have hcursors : (a.handleNumbered js session seq event).cursors = a.cursors := by
        obtain ⟨recovery,heq⟩ := a.scheduleGapRecovery_eq session seq
        have hnew : ¬ seq ≤ a.cursor session := by omega
        rw [AppState.handleNumbered,if_neg hnew,if_pos hgap,heq]
      rw [hcursors]
      exact a.keepsReached_self
    · rcases a.handleNumbered_cursors session js seq event with hcursors | hcursors
      · rw [hcursors]
        exact a.keepsReached_self
      · rw [hcursors]
        exact hkept

theorem AppState.finishLoad_shown {js : Engine} {start : Moment} {load : Load}
    (h : a.shows js start load = true) :
    ∃ turns, (a.finishLoad js start load).1 =
      (AppState.saveCursor { a with turns := turns } load.session load.maxSeq).settleRecovery
        load.session load.maxSeq := by
  obtain ⟨hcurrent,hsome⟩ := Bool.and_eq_true_iff.mp h
  obtain ⟨rows,hrows⟩ := Option.isSome_iff_exists.mp hsome
  refine ⟨a.turns.map (fun _ => rows),?_⟩
  unfold finishLoad
  rw [if_pos hcurrent,hrows]

theorem AppState.finishLoad_get {js : Engine} {start : Moment} {load : Load} {j : JsText}
    {r : GapRecovery} (hshown : a.shows js start load = true)
    (h : (a.finishLoad js start load).1.gapRecovery.get j = some r) :
    ((a.finishLoad js start load).1.cursors = App.saveCursor a.cursors load.session load.maxSeq ∧
      (a.finishLoad js start load).1.loads = a.loads) ∧
    ((a.gapRecovery.get j = some r ∧ (j = load.session → load.maxSeq < r.expectedSeq)) ∨
      (r.timer = true ∧ (a.gapRecovery.get j).isSome = true)) := by
  obtain ⟨turns,heq⟩ := AppState.finishLoad_shown hshown
  rw [heq] at h ⊢
  have hget := AppState.settleRecovery_get
    (AppState.saveCursor { a with turns := turns } load.session load.maxSeq) load.session h
  refine ⟨?_,hget⟩
  obtain ⟨recovery,hsettled⟩ := AppState.settleRecovery_eq
    (AppState.saveCursor { a with turns := turns } load.session load.maxSeq) load.session load.maxSeq
  rw [hsettled]
  exact ⟨rfl,rfl⟩

theorem AppState.failLoad_eq (a : AppState) (js : Engine) (start : Moment) (load : Load) :
    ∃ turns, a.failLoad js start load = { a with turns := turns } := by
  unfold failLoad
  split_ifs
  · exact ⟨_,rfl⟩
  · exact ⟨a.turns,rfl⟩

theorem AppState.finishLoad_hidden {js : Engine} {start : Moment} {load : Load}
    (h : a.shows js start load = false) :
    ∃ turns, (a.finishLoad js start load).1 = { a with turns := turns } := by
  unfold shows at h
  unfold finishLoad
  by_cases hcurrent : a.current load = true
  · rw [if_pos hcurrent]
    rw [hcurrent,Bool.true_and,Option.isSome_eq_false_iff,Option.isNone_iff_eq_none] at h
    rw [h]
    exact a.failLoad_eq js start load
  · rw [if_neg hcurrent]
    exact ⟨a.turns,rfl⟩

end Operations

section Ends

variable {a b : AppState} {k : Nat} {load : Load}

theorem AppState.idle_of_withoutLoad (hload : a.loads[k]? = some load) {j : JsText} {r : GapRecovery}
    (hj : j ≠ load.session) (h : (a.withoutLoad k).idle j r = true) : a.idle j r = true := by
  rw [AppState.idle_iff] at h ⊢
  refine ⟨h.1,h.2.1,?_⟩
  intro other hother hsession
  refine h.2.2 other ?_ hsession
  obtain ⟨i,hi⟩ := List.mem_iff_getElem?.mp hother
  refine List.mem_eraseIdx_iff_getElem?.mpr ⟨i,?_,hi⟩
  rintro rfl
  rw [hload,Option.some.injEq] at hi
  subst hi
  exact hj hsession.symm

theorem AppState.Retried.withoutLoad (h : a.Retried) (hload : a.loads[k]? = some load)
    (hspares : (a.withoutLoad k).spares load.session = true) : (a.withoutLoad k).Retried := by
  rw [AppState.retried_iff] at h ⊢
  rw [AppState.spares_iff] at hspares
  intro j r hget hidle
  by_cases hj : j = load.session
  · subst hj
    exact hspares r hget hidle
  · exact h j r hget (AppState.idle_of_withoutLoad hload hj hidle)

theorem AppState.filled_get {j : JsText} {r : GapRecovery} (h : b.gapRecovery.get j = some r)
    (hj : j = load.session → load.maxSeq < r.expectedSeq) : (b.filled load).gapRecovery.get j = some r := by
  unfold filled
  split_ifs with hfills
  · dsimp only
    rw [OrdMap.get_erase]
    split_ifs with hself
    · have hlt := hj hself
      subst hself
      rw [h] at hfills
      simp only [Option.any_some,decide_eq_true_eq] at hfills
      omega
    · exact h
  · exact h

theorem AppState.filled_frame (b : AppState) (load : Load) :
    (b.filled load).loads = b.loads ∧ (b.filled load).cursors = b.cursors := by
  unfold filled
  split_ifs
  · exact ⟨rfl,rfl⟩
  · exact ⟨rfl,rfl⟩

theorem AppState.Retried.finishLoad (h : a.Retried) (js : Engine) (start : Moment) {last : Load}
    (hload : a.loads[k]? = some load) (hsession : last.session = load.session)
    (hfinish : (a.withoutLoad k).mayFinish js start last = true) :
    ((a.withoutLoad k).finishLoad js start last).1.Retried := by
  unfold mayFinish at hfinish
  by_cases hshown : (a.withoutLoad k).shows js start last = true
  · rw [if_pos hshown,Bool.and_eq_true_iff,AppState.spares_iff,AppState.keepsReached_iff] at hfinish
    obtain ⟨hspares,hkept⟩ := hfinish
    obtain ⟨hloads,hcursors⟩ := (a.withoutLoad k).filled_frame last
    rw [AppState.retried_iff] at h ⊢
    intro j r hget hidle
    obtain ⟨hframe,hget⟩ := AppState.finishLoad_get hshown hget
    rw [AppState.idle_iff] at hidle
    rcases hget with ⟨hold,hunfilled⟩ | ⟨harmed,-⟩
    · have hleft := AppState.filled_get hold hunfilled
      have hidle' : ((a.withoutLoad k).filled last).idle j r = true := by
        rw [AppState.idle_iff,hloads,← hframe.2]
        exact hidle
      have hreached : r.expectedSeq ≤ ((a.withoutLoad k).filled last).cursor j := by
        by_cases hj : j = last.session
        · subst hj
          exact hspares r hleft hidle'
        · have hold' : (a.withoutLoad k).idle j r = true := by
            rw [AppState.idle_iff,← hframe.2]
            exact hidle
          have hcursor : ((a.withoutLoad k).filled last).cursor j = a.cursor j := by
            unfold AppState.cursor
            rw [hcursors]
            rfl
          rw [hcursor]
          exact h j r hold (AppState.idle_of_withoutLoad hload (hsession ▸ hj) hold')
      unfold AppState.cursor
      rw [hframe.1]
      exact hkept j r hleft hidle' hreached
    · simp [harmed] at hidle
  · rw [if_neg hshown] at hfinish
    obtain ⟨turns,heq⟩ := AppState.finishLoad_hidden (Bool.not_eq_true _ ▸ hshown)
    rw [heq]
    exact h.withoutLoad hload (hsession ▸ hfinish)

end Ends

section Steps

variable {s : Screen} {js : Engine} {start : Moment}

theorem AppState.finishLoad_keys {a : AppState} {load : Load} {j : JsText}
    (h : a.gapRecovery.get j = none) : (a.finishLoad js start load).1.gapRecovery.get j = none := by
  by_cases hshown : a.shows js start load = true
  · cases hget : (a.finishLoad js start load).1.gapRecovery.get j with
    | none => rfl
    | some r =>
      rcases (AppState.finishLoad_get hshown hget).2 with ⟨hold,-⟩ | ⟨-,hold⟩
      · simp [h] at hold
      · simp [h] at hold
  · obtain ⟨turns,heq⟩ := AppState.finishLoad_hidden (Bool.not_eq_true _ ▸ hshown)
    rw [heq]
    exact h

theorem Screen.loadStep_keys {j : JsText} (h : s.app.gapRecovery.get j = none) (k : Nat)
    (count : Option Nat) : (s.loadStep js start k count).1.app.gapRecovery.get j = none := by
  unfold loadStep
  cases s.app.loads[k]? with
  | none => exact h
  | some load =>
    cases count with
    | none =>
      dsimp only
      split_ifs
      · obtain ⟨turns,heq⟩ := (s.app.withoutLoad k).failLoad_eq js start load
        unfold AppState.withoutLoad at heq
        unfold endLoad
        dsimp only
        rw [heq]
        exact h
      · exact AppState.finishLoad_keys h
    | some count =>
      dsimp only
      split_ifs
      · exact h
      · exact AppState.finishLoad_keys h

theorem Screen.page_retried (h : s.app.Retried) {k count : Nat}
    (hretries : s.retries js start (.page k count) = true) :
    (s.loadStep js start k (some count)).1.app.Retried := by
  unfold loadStep
  cases hload : s.app.loads[k]? with
  | none => exact h
  | some load =>
    simp only [retries,hload,Bool.or_eq_true] at hretries
    dsimp only
    split_ifs with hmore
    · -- the load goes on, for the same session
      refine h.of_loads rfl ?_ s.app.keepsReached_self
      intro other hother
      obtain ⟨i,hi⟩ := List.mem_iff_getElem?.mp hother
      by_cases hik : k = i
      · subst hik
        rw [hload,Option.some.injEq] at hi
        subst hi
        have hlt := (List.getElem?_eq_some_iff.mp hload).1
        exact ⟨_,List.mem_set hlt _,rfl⟩
      · refine ⟨other,List.mem_of_getElem? (i := i) ?_,rfl⟩
        rw [List.getElem?_set_ne hik]
        exact hi
    · exact h.finishLoad js start hload rfl (hretries.resolve_left hmore)

theorem Screen.pageFailed_retried (h : s.app.Retried) {k : Nat}
    (hretries : s.retries js start (.pageFailed k) = true) :
    (s.loadStep js start k none).1.app.Retried := by
  unfold loadStep
  cases hload : s.app.loads[k]? with
  | none => exact h
  | some load =>
    simp only [retries,hload] at hretries
    dsimp only
    split_ifs at hretries ⊢ with hpage
    · obtain ⟨turns,heq⟩ := (s.app.withoutLoad k).failLoad_eq js start load
      unfold AppState.withoutLoad at heq
      unfold endLoad
      dsimp only
      rw [heq]
      exact h.withoutLoad hload hretries
    · exact h.finishLoad js start hload rfl hretries

theorem Screen.eventStep_app (session : JsText) (seq : Nat) :
    ((s.log session).numbered seq = none ∧ (s.eventStep js session seq).app = s.app) ∨
      ∃ event, (s.log session).numbered seq = some event ∧
        (s.eventStep js session seq).app = s.app.handleNumbered js session seq event := by
  unfold eventStep
  cases (s.log session).numbered seq with
  | none => exact .inl ⟨rfl,rfl⟩
  | some event => exact .inr ⟨event,rfl,rfl⟩

theorem Screen.NamedLogs.session_ne (h : s.NamedLogs) {session : JsText} {seq : Nat}
    {event : EventMessage} (hevent : (s.log session).numbered seq = some event) : session ≠ [] := by
  unfold SessionLog.numbered at hevent
  split_ifs at hevent
  exact (h session event (List.mem_of_getElem? hevent)).1

end Steps

/-- The recoveries in every run: those of sessions with an id, and none of them is left alone. -/
structure Screen.Recovering (s : Screen) : Prop where
  coherent : s.Coherent
  keyed : s.app.gapRecovery.get [] = none
  retried : s.app.Retried

section Runs

variable {s : Screen} {js : Engine} {start : Moment}

theorem Screen.Recovering.eventStep (h : s.Recovering) {session : JsText} {seq : Nat}
    (hretries : s.retries js start (.event session seq) = true) :
    (s.eventStep js session seq).app.gapRecovery.get [] = none ∧ (s.eventStep js session seq).app.Retried := by
  rcases s.eventStep_app session seq with ⟨-,heq⟩ | ⟨event,hevent,heq⟩
  · rw [heq]
    exact ⟨h.keyed,h.retried⟩
  · rw [heq]
    constructor
    · cases hget : (s.app.handleNumbered js session seq event).gapRecovery.get [] with
      | none => rfl
      | some r =>
        rcases s.app.handleNumbered_get session js hget with hold | ⟨hempty,-⟩
        · simp [h.keyed] at hold
        · exact absurd hempty.symm (h.coherent.named.session_ne hevent)
    · refine h.retried.handleNumbered js event ?_
      simpa [retries,hevent] using hretries

theorem Screen.Recovering.quiet (h : s.Recovering) {app : AppState}
    (hgap : app.gapRecovery = s.app.gapRecovery)
    (hloads : ∀ load ∈ s.app.loads, load ∈ app.loads)
    (hkept : s.app.keepsReached app.cursors = true) : app.gapRecovery.get [] = none ∧ app.Retried := by
  refine ⟨hgap ▸ h.keyed,h.retried.of_loads hgap ?_ hkept⟩
  intro load hload
  exact ⟨load,hloads load hload,rfl⟩

theorem Screen.Recovering.sameCursors (h : s.Recovering) {app : AppState}
    (hgap : app.gapRecovery = s.app.gapRecovery) (hcursors : app.cursors = s.app.cursors)
    (hloads : ∀ load ∈ s.app.loads, load ∈ app.loads) : app.gapRecovery.get [] = none ∧ app.Retried := by
  refine h.quiet hgap hloads ?_
  rw [hcursors]
  exact s.app.keepsReached_self

theorem Screen.Recovering.step (h : s.Recovering) {input : ScreenInput}
    (hretries : s.retries js start input = true) : (s.step js start input).1.Recovering := by
  suffices happ : (s.step js start input).1.app.gapRecovery.get [] = none ∧
      (s.step js start input).1.app.Retried from
    ⟨h.coherent.step js start input,happ.1,happ.2⟩
  have hsame : s.app.gapRecovery.get [] = none ∧ s.app.Retried := ⟨h.keyed,h.retried⟩
  cases input with
  | select session =>
    unfold Screen.step
    dsimp only
    split_ifs
    · exact hsame
    · obtain ⟨hgap,hloads⟩ := s.app.select_gapRecovery session
      exact h.sameCursors hgap (s.app.select_cursors session) hloads
  | «open» =>
    obtain ⟨hgap,hcursors,hloads,-⟩ :=
      AppState.startLoad_loads { s.app with resumeAttempts := 0 } s.app.selectedSessionId
    exact h.sameCursors hgap hcursors hloads
  | listSessions sessions => exact h.sameCursors rfl rfl (fun load hload => hload)
  | gapTimer session =>
    refine ⟨?_,h.retried.fireGapTimer h.keyed session⟩
    cases hget : (s.app.fireGapTimer session).gapRecovery.get [] with
    | none => exact hget
    | some r =>
      have hsome := (s.app.fireGapTimer_get session hget).1
      simp [h.keyed] at hsome
  | page k count => exact ⟨Screen.loadStep_keys h.keyed k (some count),Screen.page_retried h.retried hretries⟩
  | pageFailed k => exact ⟨Screen.loadStep_keys h.keyed k none,Screen.pageFailed_retried h.retried hretries⟩
  | event session seq => exact h.eventStep hretries
  | unnumbered event =>
    unfold Screen.step
    dsimp only
    split_ifs
    · exact hsame
    · obtain ⟨hcursors,hloads⟩ := s.app.handleUnnumbered_frame js event
      refine h.sameCursors (s.app.handleUnnumbered_gapRecovery js event) hcursors ?_
      intro load hload
      exact hloads ▸ hload
  | resumeComplete truncated returned =>
    unfold Screen.step
    dsimp only
    split_ifs
    · have hframe : (s.app.handleResumeComplete truncated returned).gapRecovery = s.app.gapRecovery ∧
          (s.app.handleResumeComplete truncated returned).loads = s.app.loads := by
        rcases s.app.handleResumeComplete_eq truncated returned with heq | ⟨attempts,heq⟩
        · rw [heq]
          exact ⟨rfl,rfl⟩
        · rw [heq]
          exact ⟨rfl,rfl⟩
      exact h.quiet hframe.1 (fun load hload => hframe.2 ▸ hload) hretries
    · exact hsame
  | historyGap session availableFrom =>
    unfold Screen.step
    dsimp only
    split_ifs
    · have hframe : (s.app.handleHistoryGap session availableFrom).gapRecovery = s.app.gapRecovery ∧
          (s.app.handleHistoryGap session availableFrom).loads = s.app.loads := by
        rcases s.app.handleHistoryGap_eq session availableFrom with heq | heq
        · rw [heq]
          exact ⟨rfl,rfl⟩
        · rw [heq]
          exact ⟨rfl,rfl⟩
      exact h.quiet hframe.1 (fun load hload => hframe.2 ▸ hload) hretries
    · exact hsame
  | sendPrompt p =>
    unfold Screen.step
    dsimp only
    split_ifs
    · obtain ⟨hcursors,hloads⟩ := s.app.sendPrompt_frame js p
      refine h.sameCursors (s.app.sendPrompt_gapRecovery js p) hcursors ?_
      intro load hload
      exact hloads ▸ hload
    · exact hsame
  | append session event =>
    unfold Screen.step
    dsimp only
    split_ifs
    · exact hsame
    · exact hsame
  | remove session seq => exact hsame

theorem Screen.Recovering.renew (h : s.Recovering) {app : AppState}
    (hgap : app.gapRecovery = OrdMap.empty) (hcursors : ∀ j, app.cursor j ≤ s.app.cursor j)
    (hloads : ∀ load ∈ app.loads, load ∈ s.app.loads ∨ load.list = []) : (s.renew app).Recovering := by
  refine ⟨h.coherent.withApp rfl ?_ hloads,?_,?_⟩
  · intro j
    exact (hcursors j).trans (h.coherent.bounded j)
  · simp [Screen.renew,hgap]
  · intro session recovery hget
    simp [Screen.renew,hgap] at hget

theorem Screen.Recovering.streamStep (h : s.Recovering) {input : StreamInput} {tr : List LoadEnded}
    (hok : retrying js start tr s input) : (s.streamStep js start input).1.Recovering := by
  cases input with
  | screen input => exact h.step hok
  | tokenChanged =>
    obtain ⟨loads,heq,hloads⟩ := AppState.startLoad_eq
      { s.app with gapRecovery := OrdMap.empty } s.app.selectedSessionId
    have happ : s.app.tokenChanged = { s.app with gapRecovery := OrdMap.empty, loads := loads } := heq
    unfold Screen.streamStep
    dsimp only
    rw [happ]
    refine h.renew rfl ?_ hloads
    intro j
    exact Nat.le_refl _
  | login =>
    obtain ⟨loads,heq,hloads⟩ := AppState.startLoad_eq
      { s.app with cursors := OrdMap.empty, seenEventKeys := [], gapRecovery := OrdMap.empty }
      s.app.selectedSessionId
    have happ : s.app.login = { s.app with
        cursors := OrdMap.empty, seenEventKeys := [], gapRecovery := OrdMap.empty, loads := loads } := heq
    unfold Screen.streamStep
    dsimp only
    rw [happ]
    refine h.renew rfl ?_ hloads
    intro j
    exact Nat.zero_le _
  | logout =>
    refine h.renew rfl ?_ ?_
    · intro j
      exact Nat.zero_le _
    · intro load hload
      exact .inl hload

end Runs

/-- In every run whose loads end with no idle recovery left behind and whose cursors do not
fall behind one, a gap that was noticed is retried until it is filled or the attempts are
exhausted. -/
theorem stream_retried (js : Engine) (start : Moment) {tr : List LoadEnded} {s : Screen}
    (hrun : (stream js start).Run (retrying js start) tr s) : s.app.Retried := by
  refine Screen.Recovering.retried (hrun.invariant (P := fun _ s => s.Recovering) ?_ ?_)
  · intro s hs
    obtain ⟨⟨hnamed,hbounded,-,hloads,-⟩,hgap⟩ := hs
    refine ⟨⟨hnamed,hbounded,?_⟩,?_,?_⟩
    · intro load hload
      simp [hloads] at hload
    · simp [hgap]
    · intro session recovery hget
      simp [hgap] at hget
  · intro tr s input hs hok
    exact hs.streamStep hok

theorem AppState.not_retried {a : AppState} {session : JsText} {recovery : GapRecovery}
    (hget : a.gapRecovery.get session = some recovery) (hidle : a.idle session recovery = true)
    (hbeyond : a.cursor session < recovery.expectedSeq) : ¬ a.Retried := by
  intro h
  have hreached := AppState.retried_iff.mp h session recovery hget hidle
  omega

namespace Sample

/-- Of three events the first has been shown, and the third arrives. -/
def gap : List ScreenInput :=
  [.append first (freshInput tenOClock),.select first,.page 0 100,.append first (freshInput tenOClock),
    .append first (freshInput tenOClock),.event first 3,.gapTimer first]

def skipped (more : List ScreenInput) : List StreamInput := (gap ++ more).map .screen

/-- The second page of the load fails, and the frame comes again. -/
def partlyLoaded : List LoadEnded × Screen :=
  (stream engine tenOClock).exec [] {}
    (skipped [.page 0 1,.pageFailed 0,.event first 3])

/-- An event of another session arrives during the load. -/
def overtaken : List LoadEnded × Screen :=
  (stream engine tenOClock).exec [] {}
    (skipped [.append second (freshInput tenOClock),.event second 1,.page 0 100])

/-- The load is read in one page. -/
def refilled : List StreamInput := skipped [.page 0 100,.event first 3] ++ [.logout]

end Sample

theorem Sample.stream_started : (stream engine tenOClock).init {} := by
  refine ⟨⟨?_,?_,rfl,rfl,rfl,rfl⟩,rfl⟩
  · intro session event hevent
    cases hevent
  · intro session
    exact Nat.le_refl 0

/-- After a load that was shown in part and after one that was dropped the first of five
attempts is the last. -/
theorem stream_not_retried :
    let app := stream Sample.engine Sample.tenOClock
    (app.Run app.free Sample.partlyLoaded.1 Sample.partlyLoaded.2 ∧
      Sample.partlyLoaded.2.app.gapRecovery.get Sample.first = some ⟨3,1,false⟩ ∧
      lastEnd Sample.first Sample.partlyLoaded.1 = some .shown ∧
      ¬ Sample.partlyLoaded.2.app.Retried) ∧
    (app.Run app.free Sample.overtaken.1 Sample.overtaken.2 ∧
      lastEnd Sample.first Sample.overtaken.1 = some .dropped ∧ ¬ Sample.overtaken.2.app.Retried) := by
  have hpart : Sample.partlyLoaded.2.app.gapRecovery.get Sample.first = some ⟨3,1,false⟩ := by decide
  have hover : Sample.overtaken.2.app.gapRecovery.get Sample.first = some ⟨3,1,false⟩ := by decide
  refine ⟨⟨?_,hpart,by decide,?_⟩,⟨?_,by decide,?_⟩⟩
  · exact Machine.Run.exec _ (.start Sample.stream_started) (Machine.allowed_free _ _ _ _)
  · exact AppState.not_retried hpart (by decide) (by decide)
  · exact Machine.Run.exec _ (.start Sample.stream_started) (Machine.allowed_free _ _ _ _)
  · exact AppState.not_retried hover (by decide) (by decide)

/-- The gap is noticed, loaded and filled; while the load is under way the recovery waits. -/
theorem skipped_stream_retried :
    let run := (stream Sample.engine Sample.tenOClock).exec [] {}
    let waiting := run (Sample.skipped [])
    let done := run Sample.refilled
    waiting.2.app.gapRecovery.get Sample.first = some ⟨3,1,false⟩ ∧
      waiting.2.app.cursor Sample.first = 1 ∧ waiting.2.app.Retried ∧
      done.2.app.gapRecovery.get Sample.first = none ∧ done.2.app.Retried := by
  have hrun : ∀ inputs, (stream Sample.engine Sample.tenOClock).Allowed
      (retrying Sample.engine Sample.tenOClock) [] {} inputs →
      ((stream Sample.engine Sample.tenOClock).exec [] {} inputs).2.app.Retried := by
    intro inputs hallowed
    exact stream_retried Sample.engine Sample.tenOClock
      (Machine.Run.exec _ (.start Sample.stream_started) hallowed)
  exact ⟨by decide,by decide,hrun _ (by decide),by decide,hrun _ (by decide)⟩

end CodeHarbor.App
