import CodeHarbor.Gateway.Effects
set_option autoImplicit false

namespace CodeHarbor.Gateway
open Lib Bridge

/-- The event ends the turn: its own completion, the failure of its start, or an accepted
interrupt of its session. -/
def GatewayEvent.ends (s : String) (n : Nat) : GatewayEvent → Bool
  | .turnCompleted id turn | .startFailed id turn => id = s && turn = n
  | .interrupted id => id = s
  | _ => false

def Open (s : String) (n : Nat) (tr : List GatewayEvent) : Prop :=
  ∃ pre post, tr = pre ++ GatewayEvent.accepted s n :: post ∧ ∀ e ∈ post, e.ends s n = false

/-- No turn of the session is accepted while another one is open. -/
def NoOverlap (s : String) (tr : List GatewayEvent) : Prop :=
  Traced (fun pre e => ∀ n, e = .accepted s n → ∀ m, ¬ Open s m pre) tr

def track (s : String) (turns : List Nat) : GatewayEvent → List Nat
  | .accepted id n => if id = s then n :: turns else turns
  | e => turns.filter (fun n => !e.ends s n)

/-- The open turns of the session, computed along the trace. -/
def openTurns (s : String) (tr : List GatewayEvent) : List Nat := tr.foldl (track s) []

section traces

variable {s : String} {tr es : List GatewayEvent} {n : Nat}

theorem open_snoc {e : GatewayEvent} :
    Open s n (tr ++ [e]) ↔ e = .accepted s n ∨ Open s n tr ∧ e.ends s n = false := by
  constructor
  · rintro ⟨pre,post,heq,hpost⟩
    rcases split_append heq with ⟨mid,htr,rfl⟩ | ⟨mid,hpre,hmid⟩
    · refine .inr ⟨⟨pre,mid,htr,fun d hd => hpost d (List.mem_append_left _ hd)⟩,?_⟩
      exact hpost e (by simp)
    · cases mid with
      | nil =>
        cases hmid
        exact .inl rfl
      | cons d mid => simp at hmid
  · rintro (rfl | ⟨⟨pre,post,rfl,hpost⟩,hends⟩)
    · exact ⟨tr,[],rfl,by simp⟩
    · refine ⟨pre,post ++ [e],by simp,?_⟩
      intro d hd
      rcases List.mem_append.mp hd with hd | hd
      · exact hpost d hd
      · rwa [List.mem_singleton.mp hd]

theorem openTurns_snoc (s : String) (tr : List GatewayEvent) (e : GatewayEvent) :
    openTurns s (tr ++ [e]) = track s (openTurns s tr) e := by
  simp [openTurns]

theorem mem_track {turns : List Nat} {e : GatewayEvent} :
    n ∈ track s turns e ↔ e = .accepted s n ∨ n ∈ turns ∧ e.ends s n = false := by
  cases e with
  | accepted id m =>
    by_cases hid : id = s
    · simp [track,hid,GatewayEvent.ends,eq_comm]
    · simp [track,hid,GatewayEvent.ends]
  | _ => simp [track]

theorem mem_openTurns : n ∈ openTurns s tr ↔ Open s n tr := by
  induction tr using List.reverseRecOn with
  | nil =>
    constructor
    · intro h
      simp [openTurns] at h
    · rintro ⟨pre,post,h,-⟩
      simp at h
  | append_singleton tr e ih => rw [openTurns_snoc,mem_track,open_snoc,ih]

theorem openTurns_eq_nil : openTurns s tr = [] ↔ ∀ n, ¬ Open s n tr := by
  simp only [List.eq_nil_iff_forall_not_mem,mem_openTurns]

def Unaccepting (s : String) (es : List GatewayEvent) : Prop := ∀ e ∈ es, ∀ n, e ≠ .accepted s n

theorem Open.of_append (h : Open s n (tr ++ es)) (hes : Unaccepting s es) : Open s n tr := by
  obtain ⟨pre,post,heq,hpost⟩ := h
  rcases split_append heq with ⟨mid,htr,rfl⟩ | ⟨mid,-,hmid⟩
  · exact ⟨pre,mid,htr,fun e he => hpost e (List.mem_append_left _ he)⟩
  · exact absurd rfl (hes (.accepted s n) (by simp [hmid]) n)

theorem NoOverlap.append (h : NoOverlap s tr) (hes : Unaccepting s es) : NoOverlap s (tr ++ es) := by
  apply Traced.append h
  intro e he pre n heq
  exact absurd heq (hes e he n)

theorem Quiet.unaccepting {g : Server} {out : Server × List GatewayEvent} (h : Quiet g out)
    (s : String) : Unaccepting s out.2 := by
  rintro e he n rfl
  have hdup := h.events _ he
  simp [GatewayEvent.isDuplicate] at hdup

theorem unaccepting_remembered (s id : String) (newTurn : Bool) (r : Option RequestId) :
    Unaccepting s (Server.rememberedEvents id newTurn r) := by
  cases r <;> simp [Unaccepting,Server.rememberedEvents]

end traces

def CodexEvent.completed : CodexEvent → List GatewayEvent
  | .turnCompleted id _ (some turn) => [.turnCompleted id turn]
  | _ => []

def Task.ended (o : Outcome) (task : Task) : List GatewayEvent :=
  (task.failed o).toList.map fun start => .startFailed start.1 start.2

namespace Server

/-- A listing gives the session up: it has been running for ten minutes without news. -/
def stale (g : Server) (now : Nat) (id : String) : Bool :=
  (g.store.getSession id).any fun existing =>
    (existing.status = .running ∨ existing.status = .starting) ∧ id ∈ g.processLiveSessionIds ∧
      staleAfterMs < now-existing.lastUpdatedAt

/-- The session whose place in the gate a continuation gives up: the record that it
announces has no live status, or the start of a turn failed. -/
def givesUp (g : Server) (o : Outcome) : Task → Option String
  | .patchAudit session => if o.ok ∧ session.status.live = false then some session.id else none
  | .resumeThread id _ =>
    if o.ok ∧ (g.store.getSession id).any (fun existing => existing.status.live = false) then
      some id
    else none
  | task =>
    match task.failed o with
    | some (id,_) => if task.freesOnFailure g then some id else none
    | none => none

/-- The session that a continuation opens with a turn that holds no place in the gate. -/
def opensUngated (g : Server) (o : Outcome) : Task → Option String
  | .createThread _ _ _ => (startedThread o).filter (· ∉ g.turnGate)
  | .apiThreadStart _ _ => startedThread o
  | _ => none

end Server

/-- The session's place in the gate is given up only when no turn of it is left open, and
no turn of it is opened without that place. -/
def releasesRightly (s : String) (tr : List GatewayEvent) (g : Server) : Input → Bool
  | .request _ (.codex event) =>
    event.threadId ≠ "" → (g.normalizeCodexEvent event).2.frees = some s →
      openTurns s (tr ++ event.completed) = []
  | .request now (.getThreads ids) => s ∈ ids → g.stale now s = true → openTurns s tr = []
  | .request _ _ => true
  | .proceed _ k o =>
    match g.tasks[k]? with
    | none => true
    | some task =>
      g.opensUngated o task ≠ some s ∧
      (g.givesUp o task = some s → openTurns s (tr ++ task.ended o) = [])

/-- One turn at a time, and while it is open its session has its place in the gate. -/
structure SingleTurn (s : String) (tr : List GatewayEvent) (g : Server) : Prop where
  noOverlap : NoOverlap s tr
  held : ∀ n, Open s n tr → s ∈ g.turnGate

namespace Server

section gate

variable {s : String} (g : Server) (now : Nat)

theorem mem_settleInterruptedSession_turnGate {id : String} (hs : s ≠ id) (base : GatewaySession)
    (h : s ∈ g.turnGate) : s ∈ (g.settleInterruptedSession now id base).turnGate := by
  have hfrees : some id ≠ some s := by simpa using Ne.symm hs
  simp only [settleInterruptedSession]
  rw [mem_broadcastGateway_turnGate]
  exact ⟨by simpa [hs] using h,hfrees⟩

theorem mem_patchAudit_turnGate {o : Outcome} {session : GatewaySession}
    (hkept : g.givesUp o (.patchAudit session) ≠ some s) (h : s ∈ g.turnGate) :
    s ∈ (g.patchAudit now o session).turnGate := by
  unfold patchAudit
  split_ifs with hok
  · rw [mem_broadcastGateway_turnGate]
    refine ⟨h,?_⟩
    cases hlive : session.status.live <;> simp_all [givesUp,GatewayMessage.frees]
  · exact h

theorem mem_resumeThread_turnGate {o : Outcome} {id : String} {mode : SessionPolicyMode}
    (hkept : g.givesUp o (.resumeThread id mode) ≠ some s) (h : s ∈ g.turnGate) :
    s ∈ (g.resumeThread now o id mode).turnGate := by
  unfold resumeThread
  split_ifs with hok
  · dsimp only
    split
    · exact h
    · rename_i updated hupdated
      have hid := (g.setMode now id mode).store.keyed id updated hupdated
      rw [mem_broadcastGateway_turnGate]
      refine ⟨h,?_⟩
      rw [setMode_getSession] at hupdated
      cases hstored : g.store.getSession id with
      | none => simp [hstored] at hupdated
      | some existing =>
        have hstatus : updated.status = existing.status := by
          rw [hstored,Option.map_some,Option.some.injEq] at hupdated
          rw [← hupdated]
        cases hlive : existing.status.live <;>
          simp_all [givesUp,GatewayMessage.frees]
  · exact h

theorem withGatewayThreadStatus_stale {id t : String}
    (h : (g.withGatewayThreadStatus now id).stale now t = true) : g.stale now t = true := by
  have hlive : (g.withGatewayThreadStatus now id).processLiveSessionIds ⊆
      g.processLiveSessionIds := by
    unfold withGatewayThreadStatus
    split
    · exact Finset.Subset.refl _
    · split_ifs
      · exact Finset.erase_subset _ _
      all_goals exact Finset.Subset.refl _
  simp only [stale,(g.withGatewayThreadStatus_frame now id).1] at h ⊢
  cases hget : g.store.getSession t with
  | none => simp [hget] at h
  | some existing =>
    simp only [hget,Option.any_some,decide_eq_true_eq] at h ⊢
    exact ⟨h.1,hlive h.2.1,h.2.2⟩

theorem mem_withGatewayThreadStatus_turnGate {id : String}
    (hkept : id = s → g.stale now s = false) (h : s ∈ g.turnGate) :
    s ∈ (g.withGatewayThreadStatus now id).turnGate := by
  unfold withGatewayThreadStatus
  split
  · exact h
  · rename_i existing hget
    split_ifs with hstatus hlive hold
    · have hne : s ≠ id := by
        rintro rfl
        have hstale : g.stale now s = true := by
          simp only [stale,hget,Option.any_some,decide_eq_true_eq]
          exact ⟨hstatus,hlive,hold⟩
        rw [hkept rfl] at hstale
        cases hstale
      simpa [hne] using h
    all_goals exact h

theorem mem_listing_turnGate {ids : List String} (hkept : s ∈ ids → g.stale now s = false)
    (h : s ∈ g.turnGate) :
    s ∈ (ids.foldl (fun g id => g.withGatewayThreadStatus now id) g).turnGate := by
  induction ids generalizing g with
  | nil => exact h
  | cons id ids ih =>
    apply ih
    · intro hmem
      have hfresh := hkept (List.mem_cons_of_mem id hmem)
      cases hstale : (g.withGatewayThreadStatus now id).stale now s with
      | false => rfl
      | true => rw [← g.withGatewayThreadStatus_stale now hstale,hfresh]
    · refine g.mem_withGatewayThreadStatus_turnGate now ?_ h
      rintro rfl
      exact hkept List.mem_cons_self

theorem codexEvent_completed (event : CodexEvent) (h : event.threadId ≠ "") :
    (g.codexEvent now event).2 = event.completed := by
  simp only [codexEvent,h,if_false]
  cases event with
  | turnCompleted id status turn => cases turn <;> rfl
  | _ => rfl

theorem mem_codexEvent_turnGate {event : CodexEvent}
    (hkept : event.threadId ≠ "" → (g.normalizeCodexEvent event).2.frees ≠ some s)
    (h : s ∈ g.turnGate) : s ∈ (g.codexEvent now event).1.turnGate := by
  unfold codexEvent
  split_ifs with hid
  · exact h
  · dsimp only
    rw [mem_broadcastGateway_turnGate,(g.normalizeCodexEvent_frame event).2.2.2.1]
    exact ⟨h,hkept hid⟩

end gate

end Server

section rules

variable {s : String} {tr es : List GatewayEvent} {g g' : Server}

theorem SingleTurn.kept (h : SingleTurn s tr g) (hes : Unaccepting s es)
    (hgate : s ∈ g.turnGate → s ∈ g'.turnGate) : SingleTurn s (tr ++ es) g' :=
  ⟨h.noOverlap.append hes,fun n hopen => hgate (h.held n (hopen.of_append hes))⟩

theorem SingleTurn.ended (h : SingleTurn s tr g) (hes : Unaccepting s es)
    (hended : openTurns s (tr ++ es) = []) : SingleTurn s (tr ++ es) g' :=
  ⟨h.noOverlap.append hes,fun n hopen => absurd hopen (openTurns_eq_nil.mp hended n)⟩

theorem SingleTurn.accepted (h : SingleTurn s tr g) (id : String) (n : Nat)
    (hes : Unaccepting s es) (hfree : id = s → s ∉ g.turnGate)
    (hgate : s ∈ g.turnGate ∨ id = s → s ∈ g'.turnGate) :
    SingleTurn s (tr ++ GatewayEvent.accepted id n :: es) g' := by
  by_cases hid : id = s
  · subst hid
    have hno : ∀ m, ¬ Open id m tr := fun m hopen => hfree rfl (h.held m hopen)
    have hsnoc : NoOverlap id (tr ++ [GatewayEvent.accepted id n]) :=
      traced_snoc.mpr ⟨h.noOverlap,fun _ _ => hno⟩
    refine ⟨?_,fun _ _ => hgate (.inr rfl)⟩
    rw [List.append_cons]
    exact hsnoc.append hes
  · refine h.kept ?_ (fun hmem => hgate (.inl hmem))
    intro e he m
    rcases List.mem_cons.mp he with rfl | he
    · simp [hid]
    · exact hes e he m

theorem SingleTurn.quiet {out : Server × List GatewayEvent} (h : SingleTurn s tr g)
    (hq : Quiet g out) : SingleTurn s (tr ++ out.2) out.1 := by
  refine h.kept (hq.unaccepting s) ?_
  rw [hq.same.gate]
  exact fun hmem => hmem

theorem SingleTurn.unchanged (h : SingleTurn s tr g) (hgate : g'.turnGate = g.turnGate) :
    SingleTurn s (tr ++ []) g' := by
  refine h.kept (by simp [Unaccepting]) ?_
  rw [hgate]
  exact fun hmem => hmem

theorem SingleTurn.turn {id : String} {r : Option RequestId} {policy : SessionPolicyMode}
    {confirmed : Bool} {copy : Option (List RequestId)} {out : Server × List GatewayEvent}
    (h : SingleTurn s tr g) (ha : AcceptedTurn g id r policy confirmed copy out) :
    SingleTurn s (tr ++ out.2) out.1 := by
  rw [ha.events]
  refine h.accepted id _ ?_ ?_ ?_
  · intro e he n
    rcases List.mem_cons.mp he with rfl | he
    · simp
    · exact unaccepting_remembered s id true r e he n
  · rintro rfl
    exact ha.free
  · rw [ha.gate,Finset.mem_insert]
    rintro (hmem | rfl)
    · exact .inr hmem
    · exact .inl rfl

theorem SingleTurn.receive (h : SingleTurn s tr g) (now : Nat) {q : Request}
    (hok : releasesRightly s tr g (.request now q) = true) :
    SingleTurn s (tr ++ (g.receive now q).2) (g.receive now q).1 := by
  cases q with
  | postTurns id r mode confirmed =>
    rcases g.postTurns_spec now id r confirmed mode with hq | ⟨policy,ha,-⟩
    · exact h.quiet hq
    · exact h.turn ha
  | getThreads ids =>
    simp only [releasesRightly,decide_eq_true_eq] at hok
    by_cases hstale : s ∈ ids ∧ g.stale now s = true
    · refine h.ended (by simp [Unaccepting,Server.receive]) ?_
      simpa [Server.receive] using hok hstale.1 hstale.2
    · refine h.kept (by simp [Unaccepting,Server.receive]) ?_
      apply g.mem_listing_turnGate now
      simpa using hstale
  | deleteSession id => exact h.unchanged rfl
  | codex event =>
    simp only [releasesRightly,decide_eq_true_eq] at hok
    have hes : Unaccepting s (g.codexEvent now event).2 := by
      rcases g.codexEvent_events now event with he | ⟨id,-,turn,-,he⟩
      · simp [Unaccepting,he]
      · simp [Unaccepting,he]
    by_cases hfrees : event.threadId ≠ "" ∧ (g.normalizeCodexEvent event).2.frees = some s
    · refine h.ended hes ?_
      simp only [Server.receive]
      rw [g.codexEvent_completed now event hfrees.1]
      exact hok hfrees.1 hfrees.2
    · exact h.kept hes (g.mem_codexEvent_turnGate now (by simpa using hfrees))
  | _ => exact h.quiet (g.receive_quiet now rfl)

theorem SingleTurn.resume (h : SingleTurn s tr g) (now : Nat) {o : Outcome} {task : Task}
    (hopens : g.opensUngated o task ≠ some s)
    (hended : g.givesUp o task = some s → openTurns s (tr ++ task.ended o) = []) :
    SingleTurn s (tr ++ (g.resume now o task).2) (g.resume now o task).1 := by
  by_cases hquiet : task.quiet o = true
  · exact h.quiet (g.resume_quiet now hquiet)
  by_cases hfailed : ∃ start, task.failed o = some start
  · obtain ⟨⟨id,turn⟩,hstart⟩ := hfailed
    have hspec := g.resume_failed now id turn hstart
    have hgives : g.givesUp o task = if task.freesOnFailure g then some id else none := by
      cases task <;> simp_all [Task.failed,Server.givesUp]
    have hes : Unaccepting s [GatewayEvent.startFailed id turn] := by simp [Unaccepting]
    rw [hspec.events]
    by_cases hs : task.freesOnFailure g = true ∧ id = s
    · refine h.ended hes ?_
      simpa [Task.ended,hstart] using hended (by simp [hgives,hs.1,hs.2])
    · refine h.kept hes (hspec.gate s ?_)
      rintro hfrees rfl
      exact hs ⟨hfrees,rfl⟩
  -- what is left neither waits on nor fails
  have hnone : task.failed o = none := by
    cases hstart : task.failed o with
    | none => rfl
    | some start => exact absurd ⟨start,hstart⟩ hfailed
  have hended : g.givesUp o task = some s → openTurns s (tr ++ []) = [] := by
    simpa [Task.ended,hnone] using hended
  cases task with
  | createThread r mode confirmed =>
    simp only [Server.resume,Server.createThread]
    split
    · exact h.unchanged (by simp)
    · rename_i id hid
      split_ifs with hbusy
      · exact h.unchanged (by simp)
      · have hfree : id ∉ g.turnGate := by
          intro hmem
          simp [TurnGate.acquire_none,hmem] at hbusy
        have hne : id ≠ s := by
          rintro rfl
          simp [Server.opensUngated,hid,hfree] at hopens
        refine h.accepted id _ ?_ (fun heq => absurd heq hne) ?_
        · intro e he n
          rcases List.mem_cons.mp he with rfl | he
          · simp
          · exact unaccepting_remembered s id false r e he n
        · rintro (hmem | heq)
          · exact (g.mem_openCreated_turnGate now id r mode confirmed s).mpr ⟨hmem,Ne.symm hne⟩
          · exact absurd heq hne
  | apiThreadStart mode confirmed =>
    simp only [Server.resume,Server.apiThreadStart]
    split
    · exact h.unchanged rfl
    · rename_i id hid
      have hne : id ≠ s := by
        rintro rfl
        simp [Server.opensUngated,hid] at hopens
      refine h.accepted id _ (by simp [Unaccepting]) (fun heq => absurd heq hne) ?_
      rintro (hmem | heq)
      · exact hmem
      · exact absurd heq hne
  | patchContext id mode confirmed existing =>
    rcases g.patchContext_spec now o id mode confirmed existing with hq | ⟨-,-,session,heq⟩
    · exact h.quiet hq
    · simp only [Server.resume,heq]
      exact h.kept (by simp [Unaccepting]) (fun hmem => hmem)
  | patchAudit session =>
    by_cases hgives : g.givesUp o (.patchAudit session) = some s
    · exact h.ended (by simp [Unaccepting,Server.resume]) (hended hgives)
    · exact h.kept (by simp [Unaccepting,Server.resume]) (g.mem_patchAudit_turnGate now hgives)
  | resumeThread id mode =>
    by_cases hgives : g.givesUp o (.resumeThread id mode) = some s
    · exact h.ended (by simp [Unaccepting,Server.resume]) (hended hgives)
    · exact h.kept (by simp [Unaccepting,Server.resume]) (g.mem_resumeThread_turnGate now hgives)
  | turnLookup id r mode confirmed receivedAt =>
    rcases g.turnLookup_spec now receivedAt id r confirmed o mode with hq | ⟨policy,ha,-⟩
    · exact h.quiet hq
    · exact h.turn ha
  | apiTurnLookup id r last =>
    simp only [Server.resume,Server.apiTurnLookup]
    split
    · exact h.unchanged (by simp)
    · split
      · exact h.kept (by simp [Unaccepting]) (by simp)
      · exact h.kept (by simp [Unaccepting]) (by simp)
      · rename_i hadmission
        refine h.accepted id _ (by simp [Unaccepting]) ?_ ?_
        · rintro rfl
          exact TurnGate.free_of_accepted hadmission
        · rintro (hmem | rfl)
          · exact Finset.mem_insert_of_mem hmem
          · exact Finset.mem_insert_self _ _
  | apiTurnStart id r last thread turn =>
    by_cases hok : o.ok = true
    · obtain ⟨-,hgate,-,-,-,he⟩ := g.apiTurnStart_spec now o id r last thread turn hok
      simp only [Server.resume,he]
      exact h.kept (unaccepting_remembered s id false r) (by simp [hgate])
    · simp [Task.failed,hok] at hnone
  | interjectSteer id r turnId thread =>
    by_cases hok : o.ok = true
    · obtain ⟨-,hgate,-,-,he⟩ := g.interjectSteer_spec now o id r turnId thread hok
      simp only [Server.resume,he]
      exact h.kept (unaccepting_remembered s id false r) (by simp [hgate])
    · simp only [Server.resume,Server.interjectSteer,hok]
      exact h.unchanged (by simp)
  | interruptContext id session =>
    simp only [Server.resume,Server.interruptContext]
    split
    · exact h.unchanged rfl
    · by_cases hs : s = id
      · refine h.ended (by simp [Unaccepting]) ?_
        rw [openTurns_snoc]
        simp [track,GatewayEvent.ends,hs]
      · exact h.kept (by simp [Unaccepting]) (g.mem_settleInterruptedSession_turnGate now hs _)
  | forkThread id mode confirmed =>
    cases hchild : Server.forkedChild o with
    | none =>
      simp only [Server.resume,Server.forkThread,hchild]
      exact h.unchanged rfl
    | some child =>
      obtain ⟨-,hgate,-,-,-,he⟩ := g.forkThread_spec now o id mode confirmed hchild
      simp only [Server.resume,he]
      exact h.kept (by simp [Unaccepting]) (by simp [hgate])
  | importThread id =>
    simp only [Server.resume,Server.importThread]
    split <;> exact h.unchanged rfl
  | coldImport => exact h.unchanged rfl
  | createModel id mode turn =>
    simp only [Server.resume,Server.createModel]
    split_ifs with hok
    · exact h.unchanged rfl
    · simp [Task.failed,hok] at hnone
  | apiThreadModel id mode turn =>
    simp only [Server.resume,Server.apiThreadModel]
    split_ifs with hok
    · exact h.unchanged rfl
    · simp [Task.failed,hok] at hnone
  | resumeContext id mode confirmed stored =>
    simp only [Server.resume,Server.resumeContext]
    split_ifs
    · exact h.kept (by simp [Unaccepting]) (fun hmem => hmem)
    · exact h.unchanged rfl
  | turnModel id policy generation turn =>
    simp only [Server.resume,Server.turnModel]
    split_ifs with hok
    · exact h.unchanged rfl
    all_goals simp [Task.failed,hok] at hnone
  | apiTurnModel id r last thread turn => exact h.unchanged rfl
  | forkAudit id mode confirmed =>
    simp only [Server.resume,Server.forkAudit]
    split_ifs
    · exact h.kept (by simp [Unaccepting]) (fun hmem => hmem)
    · exact h.unchanged rfl
  | createTurn id turn => simp_all [Task.quiet,Task.failed]
  | turnPrepare id policy generation turn => simp_all [Task.quiet,Task.failed]
  | turnStart id generation turn => simp_all [Task.quiet,Task.failed]
  | apiTurnPrepare id r last thread turn => simp_all [Task.quiet,Task.failed]
  | apiThreadTurn id turn => simp_all [Task.quiet,Task.failed]
  | _ => exact absurd rfl hquiet

theorem SingleTurn.step (h : SingleTurn s tr g) {i : Input}
    (hok : releasesRightly s tr g i = true) :
    SingleTurn s (tr ++ (g.step i).2) (g.step i).1 := by
  cases i with
  | request now q => exact h.receive now hok
  | proceed now k o =>
    simp only [Server.step]
    simp only [releasesRightly] at hok
    cases htask : g.tasks[k]? with
    | none => exact h.unchanged rfl
    | some task =>
      simp only [htask,decide_eq_true_eq] at hok
      have hfinish : SingleTurn s tr (g.finishTask k) := ⟨h.noOverlap,h.held⟩
      exact hfinish.resume now hok.1 hok.2

end rules

/-- In every run that gives up the session's place rightly, no turn of it is accepted while
another one is open. -/
theorem singleTurn_run {s : String} {tr : List GatewayEvent} {g : Server}
    (hr : gateway.Run (fun tr g i => releasesRightly s tr g i = true) tr g) :
    SingleTurn s tr g := by
  apply hr.invariant (P := SingleTurn s)
  · rintro g rfl
    refine ⟨Traced.nil _,?_⟩
    intro n hopen
    simp [← mem_openTurns,openTurns] at hopen
  · intro tr g i h hok
    exact h.step hok

namespace Sample

/-- Two turns, the second after the completion of the first. -/
def turnByTurn : List Input :=
  importSession "t" ++ runTurn "t" "a" 2 none ++ completeTurn "t" 3 0 ++ runTurn "t" "b" 4 none

/-- A turn is requested right after the session was created with its first turn. -/
def secondTurn : List Input :=
  [.request 0 (.postSessions none .confirm false),.proceed 1 0 { id := some "t" },
    .request 2 (.postTurns "t" none none false)]

/-- The first turn is interrupted, and its completion arrives during the second one. -/
def lateCompletion : List Input :=
  importSession "t" ++ runTurn "t" "a" 2 none ++ [Input.request 3 (.postInterrupt "t"),.proceed 4 0 {}] ++
    runTurn "t" "b" 5 none ++
    [Input.request 6 (.codex (.turnCompleted "t" (some "interrupted") (some 0))),
      .request 7 (.postTurns "t" none none false)]

end Sample

theorem turnByTurn_singleTurn :
    .accepted "t" 1 ∈ (gateway.exec [] {} Sample.turnByTurn).1 ∧
    SingleTurn "t" (gateway.exec [] {} Sample.turnByTurn).1
      (gateway.exec [] {} Sample.turnByTurn).2 := by
  have hrun : gateway.Run (fun tr g i => releasesRightly "t" tr g i = true) [] {} := .start rfl
  exact ⟨by decide,singleTurn_run (hrun.exec Sample.turnByTurn (by decide +kernel))⟩

/-- The announcement of a created session frees the gate of its first turn, and a late
completion frees the gate of a later turn. -/
theorem secondTurn_not_noOverlap :
    (gateway.Run gateway.free (gateway.exec [] {} Sample.secondTurn).1
        (gateway.exec [] {} Sample.secondTurn).2 ∧
      ¬ NoOverlap "t" (gateway.exec [] {} Sample.secondTurn).1) ∧
    gateway.Run gateway.free (gateway.exec [] {} Sample.lateCompletion).1
        (gateway.exec [] {} Sample.lateCompletion).2 ∧
      ¬ NoOverlap "t" (gateway.exec [] {} Sample.lateCompletion).1 := by
  have hrun : gateway.Run gateway.free [] {} := .start rfl
  refine ⟨⟨hrun.exec _ (gateway.allowed_free _ _ _),?_⟩,hrun.exec _ (gateway.allowed_free _ _ _),?_⟩
  · intro h
    have hsplit : (gateway.exec [] {} Sample.secondTurn).1 =
        [GatewayEvent.accepted "t" 0,.modeRequested "t" .confirm false] ++
          .accepted "t" 1 :: [.modeRequested "t" .confirm false] := by decide
    exact h _ _ _ hsplit 1 rfl 0 (mem_openTurns.mp (by decide))
  · intro h
    have hsplit : (gateway.exec [] {} Sample.lateCompletion).1 =
        [GatewayEvent.accepted "t" 0,.modeRequested "t" .confirm false,.interrupted "t",.accepted "t" 1,
          .modeRequested "t" .confirm false,.turnCompleted "t" 0] ++
          .accepted "t" 2 :: [.modeRequested "t" .confirm false] := by decide
    exact h _ _ _ hsplit 2 rfl 1 (mem_openTurns.mp (by decide))

end CodeHarbor.Gateway
