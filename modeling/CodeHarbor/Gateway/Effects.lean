import CodeHarbor.Gateway.Routes
set_option autoImplicit false

namespace CodeHarbor.Gateway
open Lib Bridge

/-- The session whose place in the turn gate a broadcast frees. -/
def GatewayMessage.frees (message : GatewayMessage) : Option String :=
  match message.session with
  | some session => if session.status.live = true then none else some session.id
  | none =>
    match message.type with
    | .sessionFinished => some message.sessionId
    | .sessionStatus =>
      match message.status with
      | none => none
      | some status => if status.live = true then none else some message.sessionId
    | _ => none

theorem mem_turnGate_erase (gate : TurnGate) (s id : String) :
    s ∈ gate.erase id ↔ s ∈ gate ∧ some id ≠ some s := by
  rw [Finset.mem_erase,and_comm,ne_comm]
  simp

/-- A request without an earlier id to compare with is only ever turned away as busy. -/
theorem TurnGate.acquire_none (gate : TurnGate) (id : String) (r : Option RequestId) :
    gate.acquire id r none = if id ∈ gate then .busy else .accepted := by
  cases r <;> simp [acquire]

theorem TurnGate.free_of_accepted {gate : TurnGate} {id : String} {r last : Option RequestId}
    (h : gate.acquire id r last = .accepted) : id ∉ gate := by
  intro hmem
  simp only [acquire,hmem,if_true] at h
  split_ifs at h

namespace Server

section rememberPolicy

variable (g : Server) (id : String) (m : SessionPolicyMode)

@[simp] theorem rememberPolicy_store : (g.rememberPolicy id m).store = g.store := rfl
@[simp] theorem rememberPolicy_turnGate : (g.rememberPolicy id m).turnGate = g.turnGate := rfl
@[simp] theorem rememberPolicy_tasks : (g.rememberPolicy id m).tasks = g.tasks := rfl
@[simp] theorem rememberPolicy_policyByThread :
    (g.rememberPolicy id m).policyByThread = Bridge.rememberPolicy g.policyByThread id m := rfl

end rememberPolicy

section requests

variable (g : Server) (now : Nat) (id : String) (r : Option RequestId)

theorem reserveClientRequest_frame :
    (g.reserveClientRequest now id r).1.turnGate = g.turnGate ∧
    (g.reserveClientRequest now id r).1.policyByThread = g.policyByThread ∧
    (g.reserveClientRequest now id r).1.cancelledSessions = g.cancelledSessions ∧
    (g.reserveClientRequest now id r).1.tasks = g.tasks ∧
    (g.reserveClientRequest now id r).1.nextTurn = g.nextTurn ∧
    ∀ s, (g.reserveClientRequest now id r).1.store.getSession s = g.store.getSession s := by
  cases r with
  | none => exact ⟨rfl,rfl,rfl,rfl,rfl,fun _ => rfl⟩
  | some r =>
    refine ⟨rfl,rfl,rfl,rfl,rfl,?_⟩
    intro s
    simp [reserveClientRequest,GatewayStore.getSession]

@[simp] theorem releaseClientRequest_turnGate :
    (g.releaseClientRequest id r).turnGate = g.turnGate := by cases r <;> rfl
@[simp] theorem releaseClientRequest_policyByThread :
    (g.releaseClientRequest id r).policyByThread = g.policyByThread := by cases r <;> rfl
@[simp] theorem releaseClientRequest_tasks :
    (g.releaseClientRequest id r).tasks = g.tasks := by cases r <;> rfl
@[simp] theorem releaseClientRequest_mode (s : String) :
    (g.releaseClientRequest id r).store.mode s = g.store.mode s := by cases r <;> rfl
@[simp] theorem releaseClientRequest_recent (s : String) :
    (g.releaseClientRequest id r).store.recent s = g.store.recent s := by cases r <;> rfl

@[simp] theorem rememberClientRequest_turnGate :
    (g.rememberClientRequest id r).turnGate = g.turnGate := by cases r <;> rfl
@[simp] theorem rememberClientRequest_policyByThread :
    (g.rememberClientRequest id r).policyByThread = g.policyByThread := by cases r <;> rfl
@[simp] theorem rememberClientRequest_tasks :
    (g.rememberClientRequest id r).tasks = g.tasks := by cases r <;> rfl
@[simp] theorem rememberClientRequest_cancelledSessions :
    (g.rememberClientRequest id r).cancelledSessions = g.cancelledSessions := by cases r <;> rfl
@[simp] theorem rememberClientRequest_mode (s : String) :
    (g.rememberClientRequest id r).store.mode s = g.store.mode s := by
  cases r with
  | none => rfl
  | some r => exact g.store.mode_rememberClientRequest id s r

@[simp] theorem releaseCreateRequest_turnGate :
    (g.releaseCreateRequest r).turnGate = g.turnGate := by cases r <;> rfl
@[simp] theorem releaseCreateRequest_policyByThread :
    (g.releaseCreateRequest r).policyByThread = g.policyByThread := by cases r <;> rfl
@[simp] theorem releaseCreateRequest_tasks :
    (g.releaseCreateRequest r).tasks = g.tasks := by cases r <;> rfl
@[simp] theorem releaseCreateRequest_mode (s : String) :
    (g.releaseCreateRequest r).store.mode s = g.store.mode s := by cases r <;> rfl
@[simp] theorem releaseCreateRequest_recent (s : String) :
    (g.releaseCreateRequest r).store.recent s = g.store.recent s := by cases r <;> rfl

end requests

section broadcast

variable (g : Server) (now : Nat) (message : GatewayMessage)

theorem persistSubagentRelation_eq :
    ∃ store, g.persistSubagentRelation message = { g with store := store } ∧
      (∀ s, store.mode s = g.store.mode s) ∧ ∀ s, store.recent s = g.store.recent s := by
  unfold persistSubagentRelation
  split
  · dsimp only
    split
    · exact ⟨_,rfl,by simp,by simp⟩
    · exact ⟨g.store,rfl,fun _ => rfl,fun _ => rfl⟩
  · exact ⟨g.store,rfl,fun _ => rfl,fun _ => rfl⟩

theorem persistSubagentRelation_view {α : Type} (π : GatewaySession → α)
    (hchildren : ∀ x ids, π { x with childSessionIds := ids } = π x)
    (hparent : ∀ x p, π { x with parentSessionId := p } = π x) (s : String) :
    ∃ store, g.persistSubagentRelation message = { g with store := store } ∧
      store.view π s = g.store.view π s := by
  unfold persistSubagentRelation
  split
  · dsimp only
    split
    · exact ⟨_,rfl,g.store.view_linkSubagent hchildren hparent _ _ s⟩
    · exact ⟨g.store,rfl,rfl⟩
  · exact ⟨g.store,rfl,rfl⟩

theorem broadcastGateway_frame :
    (g.broadcastGateway now message).policyByThread = g.policyByThread ∧
    (g.broadcastGateway now message).tasks = g.tasks ∧
    (g.broadcastGateway now message).cancelledSessions = g.cancelledSessions := by
  obtain ⟨store,hg,-⟩ := g.persistSubagentRelation_eq message
  unfold broadcastGateway trackSession
  rw [hg]
  cases message.session with
  | some session =>
    dsimp only
    split_ifs <;> exact ⟨rfl,rfl,rfl⟩
  | none =>
    cases message.type with
    | sessionStatus =>
      cases message.status with
      | none => exact ⟨rfl,rfl,rfl⟩
      | some status =>
        dsimp only
        split_ifs <;> exact ⟨rfl,rfl,rfl⟩
    | _ => exact ⟨rfl,rfl,rfl⟩

@[simp] theorem broadcastGateway_policyByThread :
    (g.broadcastGateway now message).policyByThread = g.policyByThread :=
  (g.broadcastGateway_frame now message).1

@[simp] theorem broadcastGateway_tasks : (g.broadcastGateway now message).tasks = g.tasks :=
  (g.broadcastGateway_frame now message).2.1

@[simp] theorem broadcastGateway_cancelledSessions :
    (g.broadcastGateway now message).cancelledSessions = g.cancelledSessions :=
  (g.broadcastGateway_frame now message).2.2

/-- A broadcast frees at most one place in the gate, and none for a live status. -/
theorem mem_broadcastGateway_turnGate (s : String) :
    s ∈ (g.broadcastGateway now message).turnGate ↔ s ∈ g.turnGate ∧ message.frees ≠ some s := by
  obtain ⟨store,hg,-⟩ := g.persistSubagentRelation_eq message
  unfold broadcastGateway trackSession GatewayMessage.frees
  rw [hg]
  cases message.session with
  | some session =>
    by_cases hlive : session.status.live = true
    · by_cases hc : g.cancelledSessions.has session.id = true <;> simp [hlive,hc]
    · simpa [hlive] using mem_turnGate_erase g.turnGate s session.id
  | none =>
    cases message.type with
    | sessionFinished => simpa using mem_turnGate_erase g.turnGate s message.sessionId
    | sessionStatus =>
      cases message.status with
      | none => simp
      | some status =>
        by_cases hlive : status.live = true
        · by_cases hc : g.cancelledSessions.has message.sessionId = true <;> simp [hlive,hc]
        · simpa [hlive] using mem_turnGate_erase g.turnGate s message.sessionId
    | _ => simp

/-- A session the broadcast drops because it was cancelled here. -/
def ignores (session : GatewaySession) : Prop :=
  g.cancelledSessions.has session.id = true ∧ session.status.live = true

instance (session : GatewaySession) : Decidable (g.ignores session) :=
  inferInstanceAs (Decidable (_ ∧ _))

theorem broadcastGateway_mode (s : String) :
    (g.broadcastGateway now message).store.mode s =
      match message.session with
      | none => g.store.mode s
      | some session =>
        if s = session.id ∧ ¬ g.ignores session then some session.sessionPolicyMode
        else g.store.mode s := by
  obtain ⟨store,hg,hmode,-⟩ := g.persistSubagentRelation_eq message
  unfold broadcastGateway trackSession ignores
  rw [hg]
  cases message.session with
  | some session =>
    by_cases hlive : session.status.live = true
    · by_cases hc : g.cancelledSessions.has session.id = true
      · simp [hlive,hc,hmode]
      · simp [hlive,hc,hmode,GatewayStore.mode_upsertSession]
    · simp [hlive,hmode,GatewayStore.mode_upsertSession]
  | none =>
    cases message.type with
    | sessionStatus =>
      cases message.status with
      | none => exact hmode s
      | some status =>
        dsimp only
        split_ifs <;> simp [GatewayStore.mode_updateSession,hmode]
    | _ => simp [GatewayStore.mode_updateSession,hmode]

theorem broadcastGateway_recent (s : String) :
    (g.broadcastGateway now message).store.recent s =
      match message.session with
      | none => g.store.recent s
      | some session =>
        if s = session.id ∧ ¬ g.ignores session then
          session.recentClientRequestIds.or (g.store.recent s)
        else g.store.recent s := by
  obtain ⟨store,hg,-,hrecent⟩ := g.persistSubagentRelation_eq message
  unfold broadcastGateway trackSession ignores
  rw [hg]
  cases message.session with
  | some session =>
    by_cases hlive : session.status.live = true
    · by_cases hc : g.cancelledSessions.has session.id = true
      · simp [hlive,hc,hrecent]
      · simp [hlive,hc,hrecent,GatewayStore.recent_upsertSession]
    · simp [hlive,hrecent,GatewayStore.recent_upsertSession]
  | none =>
    cases message.type with
    | sessionStatus =>
      cases message.status with
      | none => exact hrecent s
      | some status =>
        dsimp only
        split_ifs <;> simp [GatewayStore.recent_updateSession,hrecent]
    | _ => simp [GatewayStore.recent_updateSession,hrecent]

end broadcast

section settle

variable (g : Server) (now : Nat) (id : String) (base : GatewaySession)

@[simp] theorem settleInterruptedSession_policyByThread :
    (g.settleInterruptedSession now id base).policyByThread = g.policyByThread := by
  simp [settleInterruptedSession]

@[simp] theorem settleInterruptedSession_tasks :
    (g.settleInterruptedSession now id base).tasks = g.tasks := by
  simp [settleInterruptedSession]

theorem settleInterruptedSession_mode (s : String) :
    (g.settleInterruptedSession now id base).store.mode s =
      if s = base.id then some base.sessionPolicyMode else g.store.mode s := by
  simp [settleInterruptedSession,broadcastGateway_mode,GatewayStore.mode_upsertSession]

theorem settleInterruptedSession_recent (s : String) :
    (g.settleInterruptedSession now id base).store.recent s =
      if s = base.id then base.recentClientRequestIds.or (g.store.recent s)
      else g.store.recent s := by
  simp [settleInterruptedSession,broadcastGateway_recent,GatewayStore.recent_upsertSession]

end settle

section failStart

variable (g : Server) (now : Nat) (id : String) (turn : Nat)

@[simp] theorem failStart_policyByThread :
    (g.failStart now id turn).1.policyByThread = g.policyByThread := by
  simp [failStart]

@[simp] theorem failStart_tasks : (g.failStart now id turn).1.tasks = g.tasks := by
  simp [failStart]

@[simp] theorem failStart_mode (s : String) :
    (g.failStart now id turn).1.store.mode s = g.store.mode s := by
  simp [failStart,broadcastGateway_mode,GatewayStore.mode_updateSession]

@[simp] theorem failStart_recent (s : String) :
    (g.failStart now id turn).1.store.recent s = g.store.recent s := by
  simp [failStart,broadcastGateway_recent,GatewayStore.recent_updateSession]

end failStart

section listing

variable (g : Server) (now : Nat)

theorem withGatewayThreadStatus_frame (id : String) :
    (g.withGatewayThreadStatus now id).store = g.store ∧
    (g.withGatewayThreadStatus now id).policyByThread = g.policyByThread ∧
    (g.withGatewayThreadStatus now id).tasks = g.tasks := by
  unfold withGatewayThreadStatus
  split
  · exact ⟨rfl,rfl,rfl⟩
  · split_ifs <;> exact ⟨rfl,rfl,rfl⟩

theorem listing_frame (ids : List String) :
    (ids.foldl (fun g id => g.withGatewayThreadStatus now id) g).store = g.store ∧
    (ids.foldl (fun g id => g.withGatewayThreadStatus now id) g).policyByThread =
      g.policyByThread ∧
    (ids.foldl (fun g id => g.withGatewayThreadStatus now id) g).tasks = g.tasks := by
  induction ids generalizing g with
  | nil => exact ⟨rfl,rfl,rfl⟩
  | cons id ids ih =>
    obtain ⟨hstore,hpolicy,htasks⟩ := ih (g.withGatewayThreadStatus now id)
    obtain ⟨hstore',hpolicy',htasks'⟩ := g.withGatewayThreadStatus_frame now id
    exact ⟨hstore.trans hstore',hpolicy.trans hpolicy',htasks.trans htasks'⟩

end listing

section codex

variable (g : Server) (now : Nat) (event : CodexEvent)

theorem normalizeCodexEvent_frame :
    (g.normalizeCodexEvent event).1.store = g.store ∧
    (g.normalizeCodexEvent event).1.policyByThread = g.policyByThread ∧
    (g.normalizeCodexEvent event).1.tasks = g.tasks ∧
    (g.normalizeCodexEvent event).1.turnGate = g.turnGate ∧
    (g.normalizeCodexEvent event).2.session = none := by
  cases event with
  | approvalRequested threadId => exact ⟨rfl,rfl,rfl,rfl,rfl⟩
  | subAgentActivity threadId kind agent =>
    cases agent with
    | none => exact ⟨rfl,rfl,rfl,rfl,rfl⟩
    | some agent =>
      by_cases hkind : kind = "started" <;> simp [normalizeCodexEvent,hkind]
  | threadStatusChanged threadId status =>
    unfold normalizeCodexEvent
    dsimp only
    split
    · exact ⟨rfl,rfl,rfl,rfl,rfl⟩
    · split <;> exact ⟨rfl,rfl,rfl,rfl,rfl⟩
  | turnCompleted threadId status turn => exact ⟨rfl,rfl,rfl,rfl,rfl⟩

theorem codexEvent_frame :
    (g.codexEvent now event).1.policyByThread = g.policyByThread ∧
    (g.codexEvent now event).1.tasks = g.tasks ∧
    (∀ s, (g.codexEvent now event).1.store.mode s = g.store.mode s) ∧
    ∀ s, (g.codexEvent now event).1.store.recent s = g.store.recent s := by
  obtain ⟨hstore,hpolicy,htasks,-,hsession⟩ := g.normalizeCodexEvent_frame event
  unfold codexEvent
  split_ifs
  · exact ⟨rfl,rfl,fun _ => rfl,fun _ => rfl⟩
  · simp [broadcastGateway_mode,broadcastGateway_recent,hsession,hstore,hpolicy,htasks]

theorem codexEvent_events :
    (g.codexEvent now event).2 = [] ∨
    ∃ id status turn, event = .turnCompleted id status (some turn) ∧
      (g.codexEvent now event).2 = [.turnCompleted id turn] := by
  unfold codexEvent
  split_ifs
  · exact .inl rfl
  · dsimp only
    split
    · exact .inr ⟨_,_,_,rfl,rfl⟩
    · exact .inl rfl

end codex

end Server

/-- Two states with the same policies, the same gate, and records that agree in mode and
ledger. -/
structure Same (g g' : Server) : Prop where
  policy : g'.policyByThread = g.policyByThread
  gate : g'.turnGate = g.turnGate
  mode : ∀ s, g'.store.mode s = g.store.mode s
  recent : ∀ s, g'.store.recent s = g.store.recent s

theorem Same.refl (g : Server) : Same g g := ⟨rfl,rfl,fun _ => rfl,fun _ => rfl⟩

theorem Same.suspend {g g' : Server} (h : Same g g') (task : Task) : Same g (g'.suspend task) :=
  ⟨h.policy,h.gate,h.mode,h.recent⟩

theorem Same.reserve (g : Server) (now : Nat) (id : String) (r : Option RequestId) :
    Same g (g.reserveClientRequest now id r).1 := by
  obtain ⟨hgate,hpolicy,-,-,-,hget⟩ := g.reserveClientRequest_frame now id r
  refine ⟨hpolicy,hgate,?_,?_⟩
  · intro s
    simp only [GatewayStore.mode,GatewayStore.view,hget]
  · intro s
    simp only [GatewayStore.recent,GatewayStore.view,hget]

def GatewayEvent.isDuplicate : GatewayEvent → Bool
  | .duplicate _ _ => true
  | _ => false

/-- A segment that changes nothing of interest and at most answers a duplicate. -/
structure Quiet (g : Server) (out : Server × List GatewayEvent) : Prop where
  same : Same g out.1
  events : ∀ e ∈ out.2, e.isDuplicate = true

theorem Same.quiet {g g' : Server} (h : Same g g') : Quiet g (g',[]) := ⟨h,by simp⟩

theorem Quiet.duplicate {g g' : Server} (h : Same g g') (id : String) (r : Option RequestId) :
    Quiet g (g',[.duplicate id r]) := ⟨h,by simp [GatewayEvent.isDuplicate]⟩

def Request.quiet : Request → Bool
  | .postTurns _ _ _ _ | .getThreads _ | .deleteSession _ | .codex _ => false
  | _ => true

theorem Server.receive_quiet (g : Server) (now : Nat) {q : Request} (h : q.quiet = true) :
    Quiet g (g.receive now q) := by
  cases q with
  | postSessions r mode confirmed =>
    apply Same.quiet
    unfold postSessions
    split_ifs
    · exact Same.refl g
    · cases r with
      | none => exact (Same.refl g).suspend _
      | some r =>
        have hsame : Same g { g with store := (g.store.reserveCreateRequest now r).1 } := by
          refine ⟨rfl,rfl,?_,?_⟩
          · simp [GatewayStore.mode,GatewayStore.view,GatewayStore.getSession]
          · simp [GatewayStore.recent,GatewayStore.view,GatewayStore.getSession]
        dsimp only
        split_ifs
        · exact hsame.suspend _
        · exact hsame
  | postThreads mode confirmed =>
    apply Same.quiet
    unfold postThreads
    split_ifs
    · exact Same.refl g
    · exact (Same.refl g).suspend _
  | patchPolicy id mode confirmed =>
    apply Same.quiet
    unfold patchPolicy
    split
    · exact Same.refl g
    · exact (Same.refl g).suspend _
  | postResume id mode confirmed =>
    apply Same.quiet
    unfold postResume
    dsimp only
    split_ifs
    · exact Same.refl g
    · exact (Same.refl g).suspend _
  | postThreadTurns id r =>
    have hsame := Same.reserve g now id r
    simp only [receive,postThreadTurns]
    split_ifs
    · exact (hsame.suspend _).quiet
    · exact Quiet.duplicate hsame id r
  | postInterjections id r turnId => exact ((Same.refl g).suspend _).quiet
  | postInterrupt id => exact ((Same.refl g).suspend _).quiet
  | postFork id mode confirmed => exact ((Same.refl g).suspend _).quiet
  | postImport id => exact ((Same.refl g).suspend _).quiet
  | getSessions =>
    apply Same.quiet
    unfold getSessions
    split_ifs
    · exact (Same.refl g).suspend _
    · exact Same.refl g
  | postTurns id r mode confirmed => cases h
  | getThreads ids => cases h
  | deleteSession id => cases h
  | codex event => cases h

def Task.quiet (o : Outcome) : Task → Bool
  | .createTurn _ _ | .turnPrepare _ _ _ _ | .turnStart _ _ _ | .apiTurnPrepare _ _ _ _ _
  | .apiThreadTurn _ _ => o.ok
  | .interjectContext _ _ _ _ | .interjectDetail _ _ _ | .interjectAudit _ _ _ _
  | .forkContext _ _ _ _ => true
  | _ => false

theorem Server.interjectAdmit_quiet (g : Server) (now : Nat) (id : String)
    (r : Option RequestId) (turnId : String) (thread : Option ThreadSummary) :
    Quiet g (g.interjectAdmit now id r turnId thread) := by
  have hsame := Same.reserve g now id r
  unfold interjectAdmit
  split_ifs
  · exact Quiet.duplicate (Same.refl g) id r
  · dsimp only
    split_ifs
    · exact (hsame.suspend _).quiet
    · exact Quiet.duplicate hsame id r

theorem Server.resume_quiet (g : Server) (now : Nat) {o : Outcome} {task : Task}
    (h : task.quiet o = true) : Quiet g (g.resume now o task) := by
  cases task with
  | createTurn id turn =>
    have hok : o.ok = true := h
    simp only [resume,createTurn,hok,if_true]
    apply Same.quiet
    refine ⟨by simp,?_,?_,?_⟩
    · ext s
      simp [mem_broadcastGateway_turnGate,GatewayMessage.frees,SessionStatus.live]
    · simp [broadcastGateway_mode,GatewayStore.mode_updateSession]
    · simp [broadcastGateway_recent,GatewayStore.recent_updateSession]
  | turnPrepare id policy generation turn =>
    have hok : o.ok = true := h
    simp only [resume,turnPrepare,hok,if_true]
    apply Same.quiet
    split_ifs
    · exact (Same.refl g).suspend _
    · exact Same.refl g
  | turnStart id generation turn =>
    have hok : o.ok = true := h
    simp only [resume,turnStart,hok,if_true]
    split
    · exact (Same.refl g).quiet
    · apply Same.quiet
      exact ⟨rfl,rfl,by simp [GatewayStore.mode_updateSession],
        by simp [GatewayStore.recent_updateSession]⟩
  | apiTurnPrepare id r last thread turn =>
    have hok : o.ok = true := h
    simp only [resume,apiTurnPrepare,hok,if_true]
    exact ((Same.refl g).suspend _).quiet
  | apiThreadTurn id turn =>
    have hok : o.ok = true := h
    simp only [resume,apiThreadTurn,hok,if_true]
    exact (Same.refl g).quiet
  | interjectContext id r turnId stored =>
    simp only [resume,interjectContext]
    generalize (if stored = true then none else findThreadSummary o.threads id) = thread
    split
    · exact (Same.refl g).quiet
    · split
      · exact g.interjectAdmit_quiet now id r _ _
      · exact ((Same.refl g).suspend _).quiet
  | interjectDetail id r thread =>
    simp only [resume,interjectDetail]
    split
    · exact g.interjectAdmit_quiet now id r _ _
    · exact (Same.refl g).quiet
  | interjectAudit id r turnId thread =>
    simp only [resume,interjectAudit]
    split_ifs
    · exact ((Same.refl g).suspend _).quiet
    · exact (Same.refl g).quiet
  | forkContext id mode confirmed stored =>
    apply Same.quiet
    unfold forkContext
    dsimp only
    split_ifs
    · exact Same.refl g
    · exact (Same.refl g).suspend _
    · exact Same.refl g
  | _ => cases h

def Task.failed (o : Outcome) : Task → Option (String × Nat)
  | .createModel id _ turn | .createTurn id turn | .apiThreadModel id _ turn
  | .apiThreadTurn id turn | .turnPrepare id _ _ turn | .turnModel id _ _ turn
  | .turnStart id _ turn | .apiTurnPrepare id _ _ _ turn | .apiTurnStart id _ _ _ turn =>
    if o.ok then none else some (id,turn)
  | _ => none

/-- Whether that failure frees the gate: a handler of `/sessions/:id/turns` does so only
while its run is current, one of `/api/threads` never took a place. -/
def Task.freesOnFailure (g : Server) : Task → Bool
  | .apiThreadModel _ _ _ | .apiThreadTurn _ _ => false
  | .turnPrepare id _ generation _ | .turnModel id _ generation _ | .turnStart id generation _ =>
    g.isCurrent id generation
  | _ => true

structure FailedStart (g : Server) (id : String) (turn : Nat) (frees : Bool)
    (out : Server × List GatewayEvent) : Prop where
  policy : out.1.policyByThread = g.policyByThread
  mode : ∀ s, out.1.store.mode s = g.store.mode s
  recent : ∀ s, out.1.store.recent s = g.store.recent s
  tasks : out.1.tasks = g.tasks
  gate : ∀ s, (frees = true → s ≠ id) → s ∈ g.turnGate → s ∈ out.1.turnGate
  events : out.2 = [.startFailed id turn]

namespace Server

section failed

variable (g : Server) (now : Nat) (id : String) (turn : Nat)

theorem failStart_spec : FailedStart g id turn true (g.failStart now id turn) := by
  refine ⟨by simp,by simp,by simp,by simp,?_,rfl⟩
  intro s hs hmem
  have hs := hs rfl
  simp only [failStart]
  rw [mem_broadcastGateway_turnGate]
  refine ⟨?_,?_⟩
  · simpa [hs] using hmem
  · simpa [GatewayMessage.frees] using Ne.symm hs

theorem apiTurnFailed_spec (r : Option RequestId) :
    FailedStart g id turn true (g.apiTurnFailed id r turn) := by
  refine ⟨by simp [apiTurnFailed],by simp [apiTurnFailed],by simp [apiTurnFailed],
    by simp [apiTurnFailed],?_,rfl⟩
  intro s hs hmem
  simpa [apiTurnFailed,hs rfl] using hmem

theorem unchanged_spec : FailedStart g id turn false (g,[.startFailed id turn]) :=
  ⟨rfl,fun _ => rfl,fun _ => rfl,rfl,fun _ _ h => h,rfl⟩

theorem resume_failed {o : Outcome} {task : Task} (h : task.failed o = some (id,turn)) :
    FailedStart g id turn (task.freesOnFailure g) (g.resume now o task) := by
  have hcurrent : ∀ current : Bool, FailedStart g id turn current
      (if current then g.failStart now id turn else (g,[.startFailed id turn])) := by
    intro current
    cases current
    · exact g.unchanged_spec id turn
    · exact g.failStart_spec now id turn
  cases hok : o.ok with
  | true => cases task <;> simp [Task.failed,hok] at h
  | false =>
    cases task <;> simp only [Task.failed,hok] at h <;> cases h
    · simpa [resume,Task.freesOnFailure,createModel,hok] using g.failStart_spec now id turn
    · simpa [resume,Task.freesOnFailure,createTurn,hok] using g.failStart_spec now id turn
    · simpa [resume,Task.freesOnFailure,apiThreadModel,hok] using g.unchanged_spec id turn
    · simpa [resume,Task.freesOnFailure,apiThreadTurn,hok] using g.unchanged_spec id turn
    · simpa [resume,Task.freesOnFailure,turnPrepare,hok] using hcurrent (g.isCurrent id _)
    · simpa [resume,Task.freesOnFailure,turnModel,hok] using hcurrent (g.isCurrent id _)
    · simpa [resume,Task.freesOnFailure,turnStart,hok] using hcurrent (g.isCurrent id _)
    · simpa [resume,Task.freesOnFailure,apiTurnPrepare,hok] using g.apiTurnFailed_spec id turn _
    · simpa [resume,Task.freesOnFailure,apiTurnStart,hok] using g.apiTurnFailed_spec id turn _

end failed

end Server

def extended (recent : Option (List RequestId)) : Option RequestId → Option (List RequestId)
  | none => recent
  | some r => some (GatewayStore.remembered (recent.getD []) r)

/-- What an accepted turn request does. `copy` is the ledger in the record it read, which
the last broadcast of the segment writes back. -/
structure AcceptedTurn (g : Server) (id : String) (r : Option RequestId)
    (policy : SessionPolicyMode) (confirmed : Bool) (copy : Option (List RequestId))
    (out : Server × List GatewayEvent) : Prop where
  unknown : g.hasClientRequest id r = false
  free : id ∉ g.turnGate
  gate : out.1.turnGate = insert id g.turnGate
  policies : out.1.policyByThread = Bridge.rememberPolicy g.policyByThread id policy
  modes : ∀ s, out.1.store.mode s = if s = id then some policy else g.store.mode s
  ledgers : ∀ s, out.1.store.recent s =
    if s = id then
      copy.or (extended (g.store.recent id) r)
    else g.store.recent s
  tasks : ∃ generation, out.1.tasks = g.tasks ++ [.turnPrepare id policy generation g.nextTurn]
  events : out.2 = .accepted id g.nextTurn :: .modeRequested id policy confirmed ::
    Server.rememberedEvents id true r

namespace Server

section turns

variable (g : Server) (now receivedAt : Nat) (id : String) (persisted : Option GatewaySession)
  (session : GatewaySession) (r : Option RequestId) (policy : SessionPolicyMode) (confirmed : Bool)

theorem rememberClientRequest_recent (s : String) :
    (g.rememberClientRequest id r).store.recent s =
      if s = id ∧ (g.store.getSession s).isSome then extended (g.store.recent s) r
      else g.store.recent s := by
  cases r with
  | none => simp [rememberClientRequest,extended]
  | some r => exact g.store.recent_rememberClientRequest id s r

theorem acceptTurn_tasks :
    ∃ generation, (g.acceptTurn now receivedAt id persisted session r policy confirmed).1.tasks =
      g.tasks ++ [.turnPrepare id policy generation g.nextTurn] := by
  simp [acceptTurn]

/-- The record announced last is the one read first. It is live and was just taken off the
cancelled sessions, so it is not ignored. -/
theorem acceptTurn_spec (hunknown : g.hasClientRequest id r = false) (hfree : id ∉ g.turnGate)
    (hid : session.id = id) (hstatus : session.status = .running)
    (hmode : session.sessionPolicyMode = policy) :
    AcceptedTurn g id r policy confirmed session.recentClientRequestIds
      (g.acceptTurn now receivedAt id persisted session r policy confirmed) := by
  subst hid
  have hignores : ∀ h : Server, h.cancelledSessions = g.cancelledSessions.erase session.id →
      ¬ h.ignores session := by
    intro h hc
    simp [ignores,hc,OrdMap.has_erase_self]
  refine ⟨hunknown,hfree,?_,?_,?_,?_,g.acceptTurn_tasks .. ,rfl⟩
  · ext s
    simp [acceptTurn,mem_broadcastGateway_turnGate,GatewayMessage.frees,hstatus,SessionStatus.live]
  · simp [acceptTurn]
  · intro s
    by_cases hs : s = session.id
    · simp [acceptTurn,broadcastGateway_mode,hignores,hs,hmode]
    · simp [acceptTurn,broadcastGateway_mode,GatewayStore.mode_upsertSession,hs]
  · intro s
    by_cases hs : s = session.id
    · subst hs
      cases hcopy : session.recentClientRequestIds <;> cases r <;>
        simp [acceptTurn,broadcastGateway_recent,hignores,GatewayStore.recent_upsertSession,
          rememberClientRequest_recent,GatewayStore.getSession_upsertSession,extended,hcopy]
    · simp [acceptTurn,broadcastGateway_recent,GatewayStore.recent_upsertSession,
        rememberClientRequest_recent,hs]

theorem admitTurn_spec (hid : session.id = id) (hstatus : session.status = .running)
    (hmode : session.sessionPolicyMode = policy) :
    Quiet g (g.admitTurn now receivedAt id persisted session r policy confirmed) ∨
    AcceptedTurn g id r policy confirmed session.recentClientRequestIds
      (g.admitTurn now receivedAt id persisted session r policy confirmed) := by
  obtain ⟨hgate,hpolicy,-,htasks,hturn,hget⟩ := g.reserveClientRequest_frame now id r
  have hsame := Same.reserve g now id r
  unfold admitTurn
  split_ifs with hknown
  · exact .inl (Quiet.duplicate (Same.refl g) id r)
  · dsimp only
    split_ifs
    · exact .inl (Quiet.duplicate hsame id r)
    · have hreleased : Same g ((g.reserveClientRequest now id r).1.releaseClientRequest id r) :=
        ⟨by simp [hpolicy],by simp [hgate],by simp [hsame.mode],by simp [hsame.recent]⟩
      split
      · exact .inl (Quiet.duplicate hreleased id r)
      · exact .inl hreleased.quiet
      · rename_i hadmission
        refine .inr ?_
        have hfree := TurnGate.free_of_accepted hadmission
        have hknown' : (g.reserveClientRequest now id r).1.hasClientRequest id r = false := by
          cases r with
          | none => rfl
          | some r => simpa [hasClientRequest,GatewayStore.hasClientRequest,hget] using hknown
        have hspec := acceptTurn_spec (g.reserveClientRequest now id r).1 now receivedAt id
          persisted session r policy confirmed hknown' hfree hid hstatus hmode
        refine ⟨by simpa using hknown,?_,?_,?_,?_,?_,?_,?_⟩
        · rwa [hgate] at hfree
        · rw [hspec.gate,hgate]
        · rw [hspec.policies,hpolicy]
        · intro s
          rw [hspec.modes,hsame.mode]
        · intro s
          rw [hspec.ledgers,hsame.recent,hsame.recent]
        · obtain ⟨generation,h⟩ := hspec.tasks
          exact ⟨generation,by rw [h,htasks,hturn]⟩
        · rw [hspec.events,hturn]

/-- A turn takes full access from its own confirmed request or from the stored record. -/
theorem postTurns_spec (mode : Option SessionPolicyMode) :
    Quiet g (g.postTurns now id r mode confirmed) ∨
    ∃ policy, AcceptedTurn g id r policy confirmed (g.store.recent id)
        (g.postTurns now id r mode confirmed) ∧
      (policy = .fullAccess → confirmed = true ∨
        mode ≠ some .confirm ∧ g.store.mode id = some .fullAccess) ∧
      (mode = none → g.store.mode id = some policy) := by
  unfold postTurns
  split
  · exact .inl ((Same.refl g).suspend _).quiet
  · rename_i persisted hpersisted
    dsimp only
    split_ifs with hcheck
    · exact .inl (Same.refl g).quiet
    · have hrecent : g.store.recent id = persisted.recentClientRequestIds := by
        simp [GatewayStore.recent,GatewayStore.view,hpersisted]
      have hmode : g.store.mode id = some persisted.sessionPolicyMode := by
        simp [GatewayStore.mode,GatewayStore.view,hpersisted]
      rw [hrecent,hmode]
      rcases g.admitTurn_spec now now id persisted { persisted with
        status := .running
        sessionPolicyMode := mode.getD persisted.sessionPolicyMode
        lastUpdatedAt := now } r (mode.getD persisted.sessionPolicyMode) confirmed
        (g.store.keyed id persisted hpersisted) rfl rfl with h | h
      · exact .inl h
      · refine .inr ⟨_,h,?_,by rintro rfl; rfl⟩
        intro hfull
        cases mode with
        | none => exact .inr ⟨by simp,by simpa using hfull⟩
        | some m =>
          have hm : m = .fullAccess := hfull
          cases hc : confirmed with
          | true => exact .inl rfl
          | false =>
            refine .inr ⟨by simp [hm],?_⟩
            simpa [fullAccessConfirmationRequired,hm,hc] using hcheck

theorem findThreadSummary_id {threads : List ThreadSummary} {id : String} {thread : ThreadSummary}
    (h : findThreadSummary threads id = some thread) : thread.id = id := by
  simpa using List.find?_some h

theorem turnLookup_spec (o : Outcome) (mode : Option SessionPolicyMode) :
    Quiet g (g.turnLookup now o id r mode confirmed receivedAt) ∨
    ∃ policy, AcceptedTurn g id r policy confirmed none
        (g.turnLookup now o id r mode confirmed receivedAt) ∧
      (policy = .fullAccess → confirmed = true) ∧
      o.ok = true ∧ (findThreadSummary o.threads id).isSome ∧
      (mode = none → policy = .confirm) := by
  unfold turnLookup
  split
  · exact .inl (Same.refl g).quiet
  · rename_i thread hthread
    dsimp only
    split_ifs with hcheck
    · exact .inl (Same.refl g).quiet
    · exact .inl (Same.refl g).quiet
    · rcases g.admitTurn_spec now receivedAt id none
        { threadToSession thread (some .running) with sessionPolicyMode := mode.getD .confirm }
        r (mode.getD .confirm) confirmed (findThreadSummary_id hthread) rfl rfl with h | h
      · exact .inl h
      · rename_i hok
        refine .inr ⟨_,h,?_,by simpa using hok,by simp [hthread],by rintro rfl; rfl⟩
        intro hfull
        cases mode with
        | none => cases hfull
        | some m =>
          have hm : m = .fullAccess := hfull
          simpa [fullAccessConfirmationRequired,hm] using hcheck

end turns

section created

variable (g : Server) (now : Nat) (id : String) (r : Option RequestId) (m : SessionPolicyMode)
  (confirmed : Bool)

@[simp] theorem rememberCreateRequest_turnGate :
    (g.rememberCreateRequest id r).turnGate = g.turnGate := by cases r <;> rfl
@[simp] theorem rememberCreateRequest_policyByThread :
    (g.rememberCreateRequest id r).policyByThread = g.policyByThread := by cases r <;> rfl
@[simp] theorem rememberCreateRequest_tasks :
    (g.rememberCreateRequest id r).tasks = g.tasks := by cases r <;> rfl
@[simp] theorem rememberCreateRequest_getSession (s : String) :
    (g.rememberCreateRequest id r).store.getSession s = g.store.getSession s := by cases r <;> rfl
@[simp] theorem rememberCreateRequest_mode (s : String) :
    (g.rememberCreateRequest id r).store.mode s = g.store.mode s := by cases r <;> rfl
@[simp] theorem rememberCreateRequest_recent (s : String) :
    (g.rememberCreateRequest id r).store.recent s = g.store.recent s := by cases r <;> rfl

@[simp] theorem createdSession_id : (createdSession id now m).id = id := rfl
@[simp] theorem createdSession_mode : (createdSession id now m).sessionPolicyMode = m := rfl
@[simp] theorem createdSession_recent :
    (createdSession id now m).recentClientRequestIds = none := rfl

@[simp] theorem createdSession_live : (createdSession id now m).status.live = false := by
  simp [createdSession,threadToSession,mapThreadStatus,SessionStatus.live]

theorem not_ignores_createdSession : ¬ g.ignores (createdSession id now m) := by
  simp [ignores]

@[simp] theorem openCreated_policyByThread :
    (g.openCreated now id r m confirmed).1.policyByThread = g.policyByThread := by
  simp [openCreated]

theorem openCreated_mode (s : String) :
    (g.openCreated now id r m confirmed).1.store.mode s =
      if s = id then some m else g.store.mode s := by
  by_cases hs : s = id
  · simp [openCreated,broadcastGateway_mode,not_ignores_createdSession,hs]
  · simp [openCreated,broadcastGateway_mode,GatewayStore.mode_saveSession,hs]

theorem openCreated_recent (s : String) :
    (g.openCreated now id r m confirmed).1.store.recent s =
      if s = id then extended none r else g.store.recent s := by
  by_cases hs : s = id
  · simp [openCreated,broadcastGateway_recent,rememberClientRequest_recent,
      GatewayStore.recent_saveSession,GatewayStore.getSession_saveSession,hs]
  · simp [openCreated,broadcastGateway_recent,rememberClientRequest_recent,
      GatewayStore.recent_saveSession,hs]

theorem mem_openCreated_turnGate (s : String) :
    s ∈ (g.openCreated now id r m confirmed).1.turnGate ↔ s ∈ g.turnGate ∧ s ≠ id := by
  have hfrees : GatewayMessage.frees
      { type := .sessionStarted, sessionId := id, session := some (createdSession id now m) } =
      some id := by
    simp [GatewayMessage.frees]
  simp only [openCreated,suspend_turnGate,mem_broadcastGateway_turnGate,hfrees,addLive_turnGate,
    rememberClientRequest_turnGate,rememberCreateRequest_turnGate,Finset.mem_insert]
  grind

end created

section policies

variable (g : Server) (now : Nat) (o : Outcome) (id : String) (m : SessionPolicyMode)
  (confirmed : Bool)

@[simp] theorem setMode_policyByThread :
    (g.setMode now id m).policyByThread = Bridge.rememberPolicy g.policyByThread id m := rfl
@[simp] theorem setMode_turnGate : (g.setMode now id m).turnGate = g.turnGate := rfl
@[simp] theorem setMode_tasks : (g.setMode now id m).tasks = g.tasks := rfl

theorem setMode_mode (s : String) :
    (g.setMode now id m).store.mode s =
      if s = id then (g.store.mode s).map (fun _ => m) else g.store.mode s := by
  refine GatewayStore.mode_updateSession_set _ ?_ ?_ id s
  · exact fun _ => rfl
  · exact fun _ => rfl

@[simp] theorem setMode_recent (s : String) :
    (g.setMode now id m).store.recent s = g.store.recent s := by
  refine GatewayStore.recent_updateSession _ ?_ ?_ id s
  · exact fun _ => rfl
  · exact fun _ => rfl

theorem setMode_getSession :
    (g.setMode now id m).store.getSession id = (g.store.getSession id).map
      fun current => { current with sessionPolicyMode := m, lastUpdatedAt := now } := by
  refine (GatewayStore.getSession_updateSession _ ?_ id id).trans (if_pos rfl)
  exact fun _ => rfl

theorem patchContext_spec (existing : GatewaySession) :
    Quiet g (g.patchContext now o id m confirmed existing) ∨
    (o.ok = true ∧
      ¬ fullAccessConfirmationRequired (some m) confirmed existing.sessionPolicyMode = true ∧
      ∃ session, g.patchContext now o id m confirmed existing =
        ((g.setMode now id m).suspend (.patchAudit session),[.modeRequested id m confirmed])) := by
  unfold patchContext
  split_ifs with hok hcheck
  · exact .inl (Same.refl g).quiet
  · exact .inl (Same.refl g).quiet
  · exact .inr ⟨by simpa using hok,hcheck,_,rfl⟩

/-- The record announced is the one just stored, so the announcement writes nothing new. -/
theorem resumeThread_mode (hok : o.ok = true) (s : String) :
    (g.resumeThread now o id m).store.mode s = (g.setMode now id m).store.mode s := by
  simp only [resumeThread,hok,if_true]
  split
  · rfl
  · rename_i updated hupdated
    have hid := (g.setMode now id m).store.keyed id updated hupdated
    rw [broadcastGateway_mode]
    dsimp only
    split_ifs with hs
    · simp [GatewayStore.mode,GatewayStore.view,hs.1,hid,hupdated]
    · rfl

theorem resumeThread_spec :
    Same g (g.resumeThread now o id m) ∨
    ((g.resumeThread now o id m).policyByThread = Bridge.rememberPolicy g.policyByThread id m ∧
      (∀ s, (g.resumeThread now o id m).store.mode s = (g.setMode now id m).store.mode s) ∧
      ∀ s, (g.resumeThread now o id m).store.recent s = g.store.recent s) := by
  by_cases hok : o.ok = true
  · have hmode := g.resumeThread_mode now o id m hok
    refine .inr ⟨?_,hmode,?_⟩
    all_goals simp only [resumeThread,hok,if_true]
    · split
      · rfl
      · simp
    · intro s
      split
      · exact g.setMode_recent now id m s
      · rename_i updated hupdated
        have hid := (g.setMode now id m).store.keyed id updated hupdated
        rw [broadcastGateway_recent,← g.setMode_recent now id m]
        dsimp only
        split_ifs with hs
        · simp [GatewayStore.recent,GatewayStore.view,hs.1,hid,hupdated]
        · rfl
  · refine .inl ?_
    simp only [resumeThread,hok]
    exact Same.refl g

end policies

section records

variable (g : Server) (now : Nat) (o : Outcome) (id : String) (r : Option RequestId)

/-- The announced record has neither a ledger nor a mode of its own. -/
theorem apiTurnStart_spec (last : Option RequestId) (thread : ThreadSummary) (turn : Nat)
    (hok : o.ok = true) :
    (g.apiTurnStart now o id r last thread turn).1.policyByThread = g.policyByThread ∧
    (g.apiTurnStart now o id r last thread turn).1.turnGate = g.turnGate ∧
    (∀ s, (g.apiTurnStart now o id r last thread turn).1.store.mode s =
      if s = thread.id then some .confirm else g.store.mode s) ∧
    (∀ s, (g.apiTurnStart now o id r last thread turn).1.store.recent s = g.store.recent s ∨
      s = id ∧ (g.apiTurnStart now o id r last thread turn).1.store.recent s =
        extended (g.store.recent s) r) ∧
    (g.apiTurnStart now o id r last thread turn).1.tasks = g.tasks ∧
    (g.apiTurnStart now o id r last thread turn).2 = rememberedEvents id false r := by
  simp only [apiTurnStart,hok,if_true]
  refine ⟨by simp,?_,?_,?_,by simp,trivial⟩
  · ext s
    simp [mem_broadcastGateway_turnGate,GatewayMessage.frees,threadToSession,SessionStatus.live]
  · intro s
    by_cases hs : s = thread.id
    · simp [broadcastGateway_mode,GatewayStore.mode_upsertSession,threadToSession,hs]
    · simp [broadcastGateway_mode,GatewayStore.mode_upsertSession,threadToSession,hs]
  · intro s
    have hupsert : ∀ x : GatewaySession, x.recentClientRequestIds = none →
        (g.store.upsertSession x).recent s = g.store.recent s := by
      intro x hx
      simp [GatewayStore.recent_upsertSession,hx]
    rw [broadcastGateway_recent]
    simp only [threadToSession,Option.none_or,ite_self,addLive_store,rememberClientRequest_recent,
      upsertSession_store]
    rw [hupsert _ rfl]
    split_ifs with hs
    · exact .inr ⟨hs.1,rfl⟩
    · exact .inl rfl

theorem interjected_recent (thread : Option ThreadSummary) :
    (g.interjected now id thread).recentClientRequestIds = g.store.recent id := by
  unfold interjected
  cases hs : g.store.getSession id with
  | some x => simp [GatewayStore.recent,GatewayStore.view,hs]
  | none => cases thread <;> simp [GatewayStore.recent,GatewayStore.view,hs,threadToSession,
      minimalSession]

theorem interjectSteer_spec (turnId : String) (thread : Option ThreadSummary)
    (hok : o.ok = true) :
    (g.interjectSteer now o id r turnId thread).1.policyByThread = g.policyByThread ∧
    (g.interjectSteer now o id r turnId thread).1.turnGate = g.turnGate ∧
    (∀ s, (g.interjectSteer now o id r turnId thread).1.store.mode s =
      if s = (g.interjected now id thread).id then
        some (g.interjected now id thread).sessionPolicyMode
      else g.store.mode s) ∧
    (g.interjectSteer now o id r turnId thread).1.tasks = g.tasks ∧
    (g.interjectSteer now o id r turnId thread).2 = rememberedEvents id false r := by
  simp only [interjectSteer,hok,if_true]
  refine ⟨by simp,?_,?_,by simp,trivial⟩
  · ext s
    simp [mem_broadcastGateway_turnGate,GatewayMessage.frees]
  · intro s
    simp [broadcastGateway_mode,GatewayStore.mode_upsertSession]

/-- The record written is the stored one, so its ledger is extended in place. -/
theorem interjectSteer_recent (turnId : String) (thread : Option ThreadSummary)
    (hok : o.ok = true) (s : String) :
    (g.interjectSteer now o id r turnId thread).1.store.recent s = g.store.recent s ∨
      s = id ∧ (g.interjectSteer now o id r turnId thread).1.store.recent s =
        extended (g.store.recent s) r := by
  have hid : s = (g.interjected now id thread).id → (g.store.recent id).isSome → s = id := by
    intro hs hsome
    cases hget : g.store.getSession id with
    | none => simp [GatewayStore.recent,GatewayStore.view,hget] at hsome
    | some x => simpa [interjected,hget,g.store.keyed id x hget] using hs
  have hupsert : ∀ x : GatewaySession, x.id = (g.interjected now id thread).id →
      x.recentClientRequestIds = g.store.recent id →
      (g.store.upsertSession x).recent s = g.store.recent s := by
    intro x hx hledger
    rw [GatewayStore.recent_upsertSession,hx,hledger]
    split_ifs with hs
    · cases hrecent : g.store.recent id with
      | none => rfl
      | some ids =>
        have hs := hid hs (by simp [hrecent])
        simp [hs,hrecent]
    · rfl
  simp only [interjectSteer,hok,if_true,broadcastGateway_recent,rememberClientRequest_recent,
    upsertSession_store,addLive_store]
  have hrecent := hupsert { g.interjected now id thread with
    status := .running
    activeTurnId := some (some turnId)
    lastUpdatedAt := now } rfl (g.interjected_recent now id thread)
  rw [hrecent]
  split_ifs with hs
  · exact .inr ⟨hs.1,rfl⟩
  · exact .inl rfl

theorem forkThread_spec (m : SessionPolicyMode) (confirmed : Bool) {child : ThreadSummary}
    (hchild : forkedChild o = some child) :
    (g.forkThread now o id m confirmed).1.policyByThread = g.policyByThread ∧
    (g.forkThread now o id m confirmed).1.turnGate = g.turnGate ∧
    (∀ s, (g.forkThread now o id m confirmed).1.store.mode s =
      if s = child.id then
        some (if g.ignores (threadToSession child (some .starting)) then m else .confirm)
      else g.store.mode s) ∧
    (∀ s, (g.forkThread now o id m confirmed).1.store.recent s = g.store.recent s) ∧
    (g.forkThread now o id m confirmed).1.tasks = g.tasks ∧
    (g.forkThread now o id m confirmed).2 = [.modeRequested child.id m confirmed] := by
  simp only [forkThread,hchild]
  refine ⟨by simp,?_,?_,?_,by simp,trivial⟩
  · ext s
    simp [mem_broadcastGateway_turnGate,GatewayMessage.frees,threadToSession,SessionStatus.live]
  · intro s
    have hignores : ∀ x, (g.upsertSession x).ignores (threadToSession child (some .starting)) ↔
        g.ignores (threadToSession child (some .starting)) := fun x => Iff.rfl
    by_cases hs : s = child.id
    · by_cases hi : g.ignores (threadToSession child (some .starting))
      · simp [broadcastGateway_mode,hignores,hi,hs,GatewayStore.mode_upsertSession]
        simp [threadToSession]
      · simp [broadcastGateway_mode,hignores,hi,hs]
        simp [threadToSession]
    · have hs' : s ≠ (threadToSession child (some .starting)).id := hs
      simp [broadcastGateway_mode,GatewayStore.mode_upsertSession,hs,hs']
  · intro s
    simp [broadcastGateway_recent,GatewayStore.recent_upsertSession,threadToSession]

end records

end Server

end CodeHarbor.Gateway
