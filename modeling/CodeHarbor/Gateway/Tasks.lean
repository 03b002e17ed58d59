import CodeHarbor.Gateway.Effects
set_option autoImplicit false

namespace CodeHarbor.Gateway
open Lib Bridge

/-- Handlers that hold neither a session record nor a decision about a new thread. -/
def Task.plain : Task → Bool
  | .createThread _ _ _ | .apiThreadStart _ _ | .forkAudit _ _ _ | .forkThread _ _ _
  | .patchContext _ _ _ _ | .patchAudit _ | .interruptContext _ _ => false
  | _ => true

/-- What a segment may leave suspended: `old` is the handler that ran, if it was not a new
request. -/
inductive Spawned (g : Server) (old : Option Task) : Task → Prop where
  | plain {task : Task} : task.plain = true → Spawned g old task
  | createThread (r : Option RequestId) {m : SessionPolicyMode} {c : Bool} :
      (m = .fullAccess → c = true) → Spawned g old (.createThread r m c)
  | apiThreadStart {m : SessionPolicyMode} {c : Bool} :
      (m = .fullAccess → c = true) → Spawned g old (.apiThreadStart m c)
  | forkAudit (id : String) {m : SessionPolicyMode} {c : Bool} :
      (m = .fullAccess → c = true) → Spawned g old (.forkAudit id m c)
  | forkThread {id : String} {m : SessionPolicyMode} {c : Bool} :
      old = some (.forkAudit id m c) → Spawned g old (.forkThread id m c)
  | patchContext {id : String} {existing : GatewaySession} (m : SessionPolicyMode) (c : Bool) :
      g.store.getSession id = some existing → Spawned g old (.patchContext id m c existing)
  | patchAudit {id : String} {m : SessionPolicyMode} {c : Bool} {existing session : GatewaySession} :
      old = some (.patchContext id m c existing) →
      session.id = ((g.store.getSession id).getD existing).id →
      session.recentClientRequestIds =
        ((g.store.getSession id).getD existing).recentClientRequestIds →
      Spawned g old (.patchAudit session)
  | interruptContext (id : String) : Spawned g old (.interruptContext id (g.store.getSession id))

/-- Every handler suspended after the segment was so before or was left by the segment. -/
def Spawns (g : Server) (old : Option Task) (g' : Server) : Prop :=
  ∀ task ∈ g'.tasks, task ∈ g.tasks ∨ Spawned g old task

section rules

variable {g g' : Server} {old : Option Task}

theorem Spawns.none (h : g'.tasks = g.tasks) : Spawns g old g' := by
  intro task hmem
  rw [h] at hmem
  exact .inl hmem

theorem Spawns.one {task : Task} (h : g'.tasks = g.tasks ++ [task]) (hs : Spawned g old task) :
    Spawns g old g' := by
  intro other hmem
  rw [h,List.mem_append,List.mem_singleton] at hmem
  rcases hmem with hmem | rfl
  · exact .inl hmem
  · exact .inr hs

theorem confirmed_of_check {m : SessionPolicyMode} {c : Bool}
    (h : ¬ fullAccessConfirmationRequired (some m) c none = true) : m = .fullAccess → c = true := by
  rintro rfl
  simpa [fullAccessConfirmationRequired] using h

end rules

namespace Server

theorem admitTurn_tasks (g : Server) (now receivedAt : Nat) (id : String)
    (persisted : Option GatewaySession) (session : GatewaySession) (r : Option RequestId)
    (policy : SessionPolicyMode) (confirmed : Bool) (old : Option Task) :
    Spawns g old (g.admitTurn now receivedAt id persisted session r policy confirmed).1 := by
  obtain ⟨-,-,-,htasks,-⟩ := g.reserveClientRequest_frame now id r
  unfold admitTurn
  split_ifs
  · exact Spawns.none rfl
  · dsimp only
    split_ifs
    · exact Spawns.none htasks
    · split
      · exact Spawns.none (by simp [htasks])
      · exact Spawns.none (by simp [htasks])
      · obtain ⟨generation,h⟩ := (g.reserveClientRequest now id r).1.acceptTurn_tasks now
          receivedAt id persisted session r policy confirmed
        exact Spawns.one (h.trans (by rw [htasks])) (.plain rfl)

theorem interjectAdmit_tasks (g : Server) (now : Nat) (id : String) (r : Option RequestId)
    (turnId : String) (thread : Option ThreadSummary) (old : Option Task) :
    Spawns g old (g.interjectAdmit now id r turnId thread).1 := by
  obtain ⟨-,-,-,htasks,-⟩ := g.reserveClientRequest_frame now id r
  unfold interjectAdmit
  split_ifs
  · exact Spawns.none rfl
  · dsimp only
    split_ifs
    · exact Spawns.one (by rw [suspend_tasks,htasks]) (.plain rfl)
    · exact Spawns.none htasks

theorem receive_tasks (g : Server) (now : Nat) (q : Request) :
    Spawns g none (g.receive now q).1 := by
  cases q with
  | postSessions r mode confirmed =>
    simp only [receive,postSessions]
    split_ifs with hcheck
    · exact Spawns.none rfl
    · cases r with
      | none => exact Spawns.one rfl (.createThread none (confirmed_of_check hcheck))
      | some r =>
        dsimp only
        split_ifs
        · exact Spawns.one rfl (.createThread (some r) (confirmed_of_check hcheck))
        · exact Spawns.none rfl
  | postThreads mode confirmed =>
    simp only [receive,postThreads]
    split_ifs with hcheck
    · exact Spawns.none rfl
    · exact Spawns.one rfl (.apiThreadStart (confirmed_of_check hcheck))
  | patchPolicy id mode confirmed =>
    simp only [receive,patchPolicy]
    split
    · exact Spawns.none rfl
    · rename_i existing hexisting
      exact Spawns.one rfl (.patchContext mode confirmed hexisting)
  | postResume id mode confirmed =>
    simp only [receive,postResume]
    split_ifs
    · exact Spawns.none rfl
    · exact Spawns.one rfl (.plain rfl)
  | postTurns id r mode confirmed =>
    simp only [receive,postTurns]
    split
    · exact Spawns.one rfl (.plain rfl)
    · split_ifs
      · exact Spawns.none rfl
      · exact g.admitTurn_tasks now now id _ _ r _ confirmed none
  | postThreadTurns id r =>
    obtain ⟨-,-,-,htasks,-⟩ := g.reserveClientRequest_frame now id r
    simp only [receive,postThreadTurns]
    split_ifs
    · exact Spawns.one (by rw [suspend_tasks,htasks]) (.plain rfl)
    · exact Spawns.none htasks
  | postInterjections id r turnId => exact Spawns.one rfl (.plain rfl)
  | postInterrupt id => exact Spawns.one rfl (.interruptContext id)
  | postFork id mode confirmed => exact Spawns.one rfl (.plain rfl)
  | postImport id => exact Spawns.one rfl (.plain rfl)
  | getSessions =>
    simp only [receive,getSessions]
    split_ifs
    · exact Spawns.one rfl (.plain rfl)
    · exact Spawns.none rfl
  | getThreads ids => exact Spawns.none (g.listing_frame now ids).2.2
  | deleteSession id => exact Spawns.none rfl
  | codex event => exact Spawns.none (g.codexEvent_frame now event).2.1

theorem resume_tasks (g : Server) (now : Nat) (o : Outcome) (task : Task) :
    Spawns g (some task) (g.resume now o task).1 := by
  by_cases hfailed : ∃ start, task.failed o = some start
  · obtain ⟨start,hstart⟩ := hfailed
    exact Spawns.none (g.resume_failed now start.1 start.2 hstart).tasks
  cases task with
  | createThread r mode confirmed =>
    simp only [resume,createThread]
    split
    · exact Spawns.none (by simp)
    · split_ifs
      · exact Spawns.none (by simp)
      · exact Spawns.one (by simp [openCreated]; rfl) (.plain rfl)
  | createModel id mode turn =>
    simp only [resume,createModel]
    split_ifs with hok
    · exact Spawns.one rfl (.plain rfl)
    · simp [Task.failed,hok] at hfailed
  | createTurn id turn =>
    simp only [resume,createTurn]
    split_ifs with hok
    · exact Spawns.none (by simp)
    · simp [Task.failed,hok] at hfailed
  | apiThreadStart mode confirmed =>
    simp only [resume,apiThreadStart]
    split
    · exact Spawns.none rfl
    · exact Spawns.one rfl (.plain rfl)
  | apiThreadModel id mode turn =>
    simp only [resume,apiThreadModel]
    split_ifs
    · exact Spawns.one rfl (.plain rfl)
    · exact Spawns.none rfl
  | apiThreadTurn id turn => exact Spawns.none rfl
  | patchContext id mode confirmed existing =>
    simp only [resume,patchContext]
    split_ifs
    · exact Spawns.none rfl
    · exact Spawns.none rfl
    · refine Spawns.one rfl (.patchAudit rfl ?_ ?_)
      all_goals
        simp only [g.setMode_getSession now id mode]
        cases g.store.getSession id <;> rfl
  | patchAudit session =>
    simp only [resume,patchAudit]
    split_ifs
    · exact Spawns.none (by simp)
    · exact Spawns.none rfl
  | resumeContext id mode confirmed stored =>
    simp only [resume,resumeContext]
    split_ifs
    · exact Spawns.one rfl (.plain rfl)
    · exact Spawns.none rfl
  | resumeThread id mode =>
    simp only [resume,resumeThread]
    split_ifs
    · split
      · exact Spawns.none rfl
      · exact Spawns.none (by simp)
    · exact Spawns.none rfl
  | turnLookup id r mode confirmed receivedAt =>
    simp only [resume,turnLookup]
    split
    · exact Spawns.none rfl
    · split_ifs
      · exact Spawns.none rfl
      · exact Spawns.none rfl
      · exact g.admitTurn_tasks now receivedAt id none _ r _ confirmed _
  | turnPrepare id policy generation turn =>
    simp only [resume,turnPrepare]
    split_ifs with hok
    · exact Spawns.one rfl (.plain rfl)
    · exact Spawns.none rfl
    all_goals simp [Task.failed,hok] at hfailed
  | turnModel id policy generation turn =>
    simp only [resume,turnModel]
    split_ifs with hok
    · exact Spawns.one rfl (.plain rfl)
    all_goals simp [Task.failed,hok] at hfailed
  | turnStart id generation turn =>
    simp only [resume,turnStart]
    split_ifs with hok
    · split <;> exact Spawns.none rfl
    · exact Spawns.none rfl
    all_goals simp [Task.failed,hok] at hfailed
  | apiTurnLookup id r last =>
    simp only [resume,apiTurnLookup]
    split
    · exact Spawns.none (by simp)
    · split
      · exact Spawns.none (by simp)
      · exact Spawns.none (by simp)
      · exact Spawns.one rfl (.plain rfl)
  | apiTurnPrepare id r last thread turn =>
    simp only [resume,apiTurnPrepare]
    split_ifs with hok
    · exact Spawns.one rfl (.plain rfl)
    · simp [Task.failed,hok] at hfailed
  | apiTurnModel id r last thread turn => exact Spawns.one rfl (.plain rfl)
  | apiTurnStart id r last thread turn =>
    by_cases hok : o.ok = true
    · exact Spawns.none (g.apiTurnStart_spec now o id r last thread turn hok).2.2.2.2.1
    · simp [Task.failed,hok] at hfailed
  | interjectContext id r turnId stored =>
    simp only [resume,interjectContext]
    generalize (if stored = true then none else findThreadSummary o.threads id) = thread
    split
    · exact Spawns.none rfl
    · split
      · exact g.interjectAdmit_tasks now id r _ _ _
      · exact Spawns.one rfl (.plain rfl)
  | interjectDetail id r thread =>
    simp only [resume,interjectDetail]
    split
    · exact g.interjectAdmit_tasks now id r _ _ _
    · exact Spawns.none rfl
  | interjectAudit id r turnId thread =>
    simp only [resume,interjectAudit]
    split_ifs
    · exact Spawns.one rfl (.plain rfl)
    · exact Spawns.none rfl
  | interjectSteer id r turnId thread =>
    by_cases hok : o.ok = true
    · exact Spawns.none (g.interjectSteer_spec now o id r turnId thread hok).2.2.2.1
    · simp only [resume,interjectSteer,hok]
      exact Spawns.none (by simp)
  | interruptContext id session =>
    simp only [resume,interruptContext]
    split
    · exact Spawns.none rfl
    · exact Spawns.none (by simp)
  | forkContext id mode confirmed stored =>
    simp only [resume,forkContext]
    split_ifs with hok hcheck
    · exact Spawns.none rfl
    · exact Spawns.one rfl (.forkAudit id (confirmed_of_check hcheck))
    · exact Spawns.none rfl
  | forkAudit id mode confirmed =>
    simp only [resume,forkAudit]
    split_ifs
    · exact Spawns.one rfl (.forkThread rfl)
    · exact Spawns.none rfl
  | forkThread id mode confirmed =>
    cases hchild : forkedChild o with
    | none =>
      simp only [resume,forkThread,hchild]
      exact Spawns.none rfl
    | some child => exact Spawns.none (g.forkThread_spec now o id mode confirmed hchild).2.2.2.2.1
  | importThread id =>
    simp only [resume,importThread]
    split <;> exact Spawns.none rfl
  | coldImport => exact Spawns.none rfl

theorem step_tasks {P : Task → Prop} (g : Server) (i : Input) (h : ∀ task ∈ g.tasks, P task)
    (hnew : ∀ old task, (∀ k, old = some k → P k) → Spawned g old task → P task) :
    ∀ task ∈ (g.step i).1.tasks, P task := by
  intro task hmem
  cases i with
  | request now q =>
    rcases g.receive_tasks now q task hmem with hold | hs
    · exact h task hold
    · exact hnew none task (by simp) hs
  | proceed now k o =>
    simp only [step] at hmem
    cases htask : g.tasks[k]? with
    | none =>
      simp only [htask] at hmem
      exact h task hmem
    | some old =>
      simp only [htask] at hmem
      rcases (g.finishTask k).resume_tasks now o old task hmem with hold | hs
      · exact h task (List.mem_of_mem_eraseIdx hold)
      · have hold : P old := h old (List.mem_of_getElem? htask)
        refine hnew (some old) task ?_ ?_
        · intro other heq
          cases heq
          exact hold
        · cases hs with
          | plain hp => exact .plain hp
          | createThread r hc => exact .createThread r hc
          | apiThreadStart hc => exact .apiThreadStart hc
          | forkAudit id hc => exact .forkAudit id hc
          | forkThread heq => exact .forkThread heq
          | patchContext m c hget => exact .patchContext m c hget
          | patchAudit heq hid hrecent => exact .patchAudit heq hid hrecent
          | interruptContext id => exact .interruptContext id

end Server

end CodeHarbor.Gateway
