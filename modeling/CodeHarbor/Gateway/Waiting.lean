import CodeHarbor.Gateway.Effects
set_option autoImplicit false

namespace CodeHarbor.Gateway
open Lib Bridge

namespace GatewayStore

def Waits (st : GatewayStore) (s : String) : Prop :=
  st.view GatewaySession.status s = some .waitingApproval

instance (st : GatewayStore) (s : String) : Decidable (st.Waits s) :=
  inferInstanceAs (Decidable (_ = _))

theorem waits_iff {st : GatewayStore} {s : String} :
    st.Waits s ↔ ∃ x, st.getSession s = some x ∧ x.status = .waitingApproval := by
  simp [Waits,view,Option.map_eq_some_iff]

end GatewayStore

/-- The session whose record a broadcast sets to wait for an approval. -/
def Server.demands (g : Server) (message : GatewayMessage) : Option String :=
  match message.session with
  | some session =>
    if g.ignores session ∨ session.status ≠ .waitingApproval then none else some session.id
  | none =>
    match message.type with
    | .approvalRequested => some message.sessionId
    | .sessionStatus =>
      if message.status = some .waitingApproval then some message.sessionId else none
    | _ => none

/-- From one state to the next, the record of the session waits for an approval only if it
did before. -/
def Unasked (s : String) (g g' : Server) : Prop := g'.store.Waits s → g.store.Waits s

namespace Unasked

variable {s : String} {g g' g'' : Server}

theorem refl (s : String) (g : Server) : Unasked s g g := id

theorem trans (h : Unasked s g g') (h' : Unasked s g' g'') : Unasked s g g'' := fun hw => h (h' hw)

theorem view (h : Unasked s g g')
    (hst : g''.store.view GatewaySession.status s = g'.store.view GatewaySession.status s) :
    Unasked s g g'' := by
  intro hw
  refine h ?_
  rw [GatewayStore.Waits,← hst]
  exact hw

theorem release (h : Unasked s g g') (id : String) : Unasked s g (g'.release id) := h

theorem addLive (h : Unasked s g g') (id : String) : Unasked s g (g'.addLive id) := h

theorem dropLive (h : Unasked s g g') (id : String) : Unasked s g (g'.dropLive id) := h

theorem beginRun (h : Unasked s g g') (id : String) : Unasked s g (g'.beginRun id) := h

theorem rememberPolicy (h : Unasked s g g') (id : String) (m : SessionPolicyMode) :
    Unasked s g (g'.rememberPolicy id m) := h

theorem suspend (h : Unasked s g g') (task : Task) : Unasked s g (g'.suspend task) := h

theorem sessions (h : Unasked s g g') (hst : g''.store.sessions = g'.store.sessions) :
    Unasked s g g'' := by
  refine h.view ?_
  simp only [GatewayStore.view,GatewayStore.getSession,hst]

theorem saveSession (h : Unasked s g g') (x : GatewaySession)
    (hx : x.id = s → x.status ≠ .waitingApproval) :
    Unasked s g { g' with store := g'.store.saveSession x } := by
  intro hw
  obtain ⟨y,hy,hstatus⟩ := GatewayStore.waits_iff.mp hw
  rw [GatewayStore.getSession_saveSession] at hy
  split_ifs at hy with hid
  · cases hy
    exact absurd hstatus (hx hid.symm)
  · exact h (GatewayStore.waits_iff.mpr ⟨y,hy,hstatus⟩)

theorem upsertSession (h : Unasked s g g') (x : GatewaySession)
    (hx : x.id = s → x.status = .waitingApproval → g'.store.Waits s) :
    Unasked s g (g'.upsertSession x) := by
  intro hw
  obtain ⟨y,hy,hstatus⟩ := GatewayStore.waits_iff.mp hw
  rw [Server.upsertSession_store,GatewayStore.getSession_upsertSession] at hy
  split_ifs at hy with hid
  · have hy : y.status = x.status := by
      rw [← Option.some.inj hy]
      cases g'.store.getSession s <;> rfl
    exact h (hx hid.symm (hy.symm.trans hstatus))
  · exact h (GatewayStore.waits_iff.mpr ⟨y,hy,hstatus⟩)

theorem upsertSessions (h : Unasked s g g') {xs : List GatewaySession}
    (hxs : ∀ x ∈ xs, x.id = s → x.status = .waitingApproval → g.store.Waits s) :
    Unasked s g { g' with store := g'.store.upsertSessions xs } := by
  induction xs generalizing g' with
  | nil => exact h
  | cons x xs ih =>
    have hx : Unasked s g (g'.upsertSession x) := by
      intro hw
      by_cases hown : x.id = s ∧ x.status = .waitingApproval
      · exact hxs x List.mem_cons_self hown.1 hown.2
      · exact (h.upsertSession x fun hid hstatus => absurd ⟨hid,hstatus⟩ hown) hw
    exact ih hx fun y hy => hxs y (List.mem_cons_of_mem x hy)

theorem updateSession_own (h : Unasked s g g') {id : String}
    {updater : GatewaySession → GatewaySession} (hid : ∀ x, (updater x).id = x.id)
    (hu : id = s → ∀ x, g'.store.getSession s = some x → (updater x).status = .waitingApproval →
      g'.store.Waits s) : Unasked s g (g'.updateSession id updater) := by
  intro hw
  obtain ⟨y,hy,hstatus⟩ := GatewayStore.waits_iff.mp hw
  rw [Server.updateSession_store,GatewayStore.getSession_updateSession _ hid] at hy
  split_ifs at hy with heq
  · obtain ⟨x,hx,rfl⟩ := Option.map_eq_some_iff.mp hy
    exact h (hu heq.symm x hx hstatus)
  · exact h (GatewayStore.waits_iff.mpr ⟨y,hy,hstatus⟩)

theorem updateSession (h : Unasked s g g') {id : String} {updater : GatewaySession → GatewaySession}
    (hid : ∀ x, (updater x).id = x.id)
    (hu : ∀ x, (updater x).status = .waitingApproval → x.status = .waitingApproval) :
    Unasked s g (g'.updateSession id updater) :=
  h.updateSession_own hid fun _ x hx hstatus => GatewayStore.waits_iff.mpr ⟨x,hx,hu x hstatus⟩

theorem trackSession (h : Unasked s g g') (now : Nat) (message : GatewayMessage)
    (hm : g'.demands message = some s → g'.store.Waits s) :
    Unasked s g (g'.trackSession now message) := by
  unfold Server.demands at hm
  unfold Server.trackSession
  cases hsession : message.session with
  | some session =>
    simp only [hsession] at hm
    have hx : ¬ g'.ignores session → session.id = s → session.status = .waitingApproval →
        g'.store.Waits s := by
      intro hi hid hstatus
      exact hm (by simp [hi,hstatus,hid])
    dsimp only
    split_ifs with hignored hlive
    · exact h
    · exact (h.addLive session.id).upsertSession session (hx hignored)
    · exact ((h.dropLive session.id).release session.id).upsertSession session
        (hx fun hi => hlive hi.2)
  | none =>
    simp only [hsession] at hm
    cases htype : message.type with
    | sessionFinished =>
      refine ((h.dropLive _).release _).updateSession (fun _ => rfl) ?_
      intro x
      simp only [inferFinishedStatus]
      split
      · simp
      · split_ifs <;> simp
    | sessionStatus =>
      simp only [htype] at hm
      cases hstatus : message.status with
      | none => exact h
      | some status =>
        have hu : message.sessionId = s → ∀ x, g'.store.getSession s = some x →
            status = .waitingApproval → g'.store.Waits s := by
          intro hid _ _ hwaiting
          exact hm (by simp [hstatus,hwaiting,hid])
        dsimp only
        split_ifs
        · exact h
        · exact (h.addLive message.sessionId).updateSession_own (fun _ => rfl) hu
        · exact ((h.dropLive message.sessionId).release message.sessionId).updateSession_own
            (fun _ => rfl) hu
    | approvalRequested =>
      simp only [htype,Option.some.injEq] at hm
      exact h.updateSession_own (fun _ => rfl) fun hid _ _ _ => hm hid
    | _ => exact h

theorem broadcastGateway (h : Unasked s g g') (now : Nat) (message : GatewayMessage)
    (hm : g'.demands message = some s → g'.store.Waits s) :
    Unasked s g (g'.broadcastGateway now message) := by
  obtain ⟨store,hg,hview⟩ := g'.persistSubagentRelation_view message GatewaySession.status
    (fun _ _ => rfl) (fun _ _ => rfl) s
  have hpersist : Unasked s g (g'.persistSubagentRelation message) := by
    rw [hg]
    exact h.view hview
  refine hpersist.trackSession now message ?_
  intro hdemand
  rw [hg] at hdemand ⊢
  rw [GatewayStore.Waits,hview]
  exact hm hdemand

theorem rememberClientRequest (h : Unasked s g g') (id : String) (r : Option RequestId) :
    Unasked s g (g'.rememberClientRequest id r) := by
  cases r with
  | none => exact h
  | some r =>
    refine h.view ?_
    refine (GatewayStore.view_updateSession _ ?_ ?_ id s).trans rfl
    · exact fun _ => rfl
    · exact fun _ => rfl

theorem releaseClientRequest (h : Unasked s g g') (id : String) (r : Option RequestId) :
    Unasked s g (g'.releaseClientRequest id r) := by
  cases r <;> exact h

theorem reserveClientRequest (h : Unasked s g g') (now : Nat) (id : String)
    (r : Option RequestId) : Unasked s g (g'.reserveClientRequest now id r).1 := by
  cases r with
  | none => exact h
  | some r => exact h.sessions (g'.store.sessions_reserveClientRequest now id r)

theorem releaseCreateRequest (h : Unasked s g g') (r : Option RequestId) :
    Unasked s g (g'.releaseCreateRequest r) := by
  cases r <;> exact h

theorem rememberCreateRequest (h : Unasked s g g') (id : String) (r : Option RequestId) :
    Unasked s g (g'.rememberCreateRequest id r) := by
  cases r <;> exact h

end Unasked

/-- The record that a continuation writes back with the status it had when it was read. -/
def Task.returns (g : Server) (o : Outcome) : Task → Option GatewaySession
  | .patchAudit session => if o.ok ∧ ¬ g.ignores session then some session else none
  | _ => none

namespace Server

section handlers

variable {s : String} (g : Server) (now : Nat) (o : Outcome) (id : String)

theorem failStart_unasked (turn : Nat) : Unasked s g (g.failStart now id turn).1 := by
  unfold failStart
  dsimp only
  refine ((((Unasked.refl s g).release id).dropLive id).updateSession ?_ ?_).broadcastGateway
    now _ ?_
  · exact fun _ => rfl
  · exact fun _ => nofun
  · simp [demands]

theorem openCreated_unasked (r : Option RequestId) (m : SessionPolicyMode) (confirmed : Bool) :
    Unasked s g (g.openCreated now id r m confirmed).1 := by
  unfold openCreated
  dsimp only
  have hgate : Unasked s g { g with turnGate := insert id g.turnGate, nextTurn := g.nextTurn+1 } :=
    Unasked.refl s g
  have hsaved := hgate.saveSession { createdSession id now m with
    status := .starting
    activeTurnId := some none
    lastClientRequestId := some r } fun _ => nofun
  refine ((((hsaved.rememberCreateRequest id r).rememberClientRequest id r).addLive
    id).broadcastGateway now _ ?_).suspend _
  intro hdemand
  simp only [demands] at hdemand
  split_ifs at hdemand with hnot
  rw [not_or,not_ne_iff] at hnot
  have hdead := createdSession_live now id m
  rw [hnot.2] at hdead
  cases hdead

theorem acceptTurn_unasked (receivedAt : Nat) (persisted : Option GatewaySession)
    (session : GatewaySession) (r : Option RequestId) (policy : SessionPolicyMode) (confirmed : Bool)
    (hsession : session.status = .running) :
    Unasked s g (g.acceptTurn now receivedAt id persisted session r policy confirmed).1 := by
  unfold acceptTurn
  dsimp only
  have hgate : Unasked s g { g with
      turnGate := insert id g.turnGate
      cancelledSessions := g.cancelledSessions.erase id
      nextTurn := g.nextTurn+1 } := Unasked.refl s g
  refine (((((((hgate.beginRun id).addLive id).upsertSession _ ?_).rememberClientRequest id
    r).broadcastGateway now _ ?_).broadcastGateway now _ ?_).rememberPolicy id policy).suspend _
  · exact fun _ => nofun
  · simp [demands]
  · simp [demands,hsession]

theorem admitTurn_unasked (receivedAt : Nat) (persisted : Option GatewaySession)
    (session : GatewaySession) (r : Option RequestId) (policy : SessionPolicyMode) (confirmed : Bool)
    (hsession : session.status = .running) :
    Unasked s g (g.admitTurn now receivedAt id persisted session r policy confirmed).1 := by
  have hreserved := (Unasked.refl s g).reserveClientRequest now id r
  unfold admitTurn
  split_ifs
  · exact Unasked.refl s g
  · dsimp only
    split_ifs
    · exact hreserved
    · split
      · exact hreserved.releaseClientRequest id r
      · exact hreserved.releaseClientRequest id r
      · exact hreserved.trans (acceptTurn_unasked _ now id receivedAt persisted session r policy
          confirmed hsession)

theorem interjectAdmit_unasked (r : Option RequestId) (turnId : String)
    (thread : Option ThreadSummary) : Unasked s g (g.interjectAdmit now id r turnId thread).1 := by
  have hreserved := (Unasked.refl s g).reserveClientRequest now id r
  unfold interjectAdmit
  split_ifs
  · exact Unasked.refl s g
  · dsimp only
    split_ifs
    · exact hreserved.suspend _
    · exact hreserved

theorem setMode_unasked (m : SessionPolicyMode) : Unasked s g (g.setMode now id m) :=
  ((Unasked.refl s g).rememberPolicy id m).updateSession (fun _ => rfl) fun _ hx => hx

theorem resumeThread_unasked (m : SessionPolicyMode) : Unasked s g (g.resumeThread now o id m) := by
  have hset : Unasked s g (g.setMode now id m) := g.setMode_unasked now id m
  unfold resumeThread
  split_ifs
  · dsimp only
    split
    · exact hset
    · rename_i updated hupdated
      refine hset.broadcastGateway now _ ?_
      intro hdemand
      simp only [demands] at hdemand
      split_ifs at hdemand with hnot
      rw [not_or,not_ne_iff] at hnot
      have hid := (g.setMode now id m).store.keyed id updated hupdated
      have hs : id = s := hid.symm.trans (Option.some.inj hdemand)
      rw [← hs]
      exact GatewayStore.waits_iff.mpr ⟨updated,hupdated,hnot.2⟩
  · exact Unasked.refl s g

theorem settleInterruptedSession_unasked (base : GatewaySession) :
    Unasked s g (g.settleInterruptedSession now id base) := by
  unfold settleInterruptedSession
  dsimp only
  have hcancelled : Unasked s g { g.beginRun id with
      cancelledSessions :=
        ((g.beginRun id).cancelledSessions.set id ()).keepNewest maxCancelledSessions } :=
    Unasked.refl s g
  refine (((hcancelled.dropLive id).release id).upsertSession _ ?_).broadcastGateway now _ ?_
  · exact fun _ => nofun
  · simp [demands]

theorem mapThreadStatus_ne_waiting (status : String) :
    mapThreadStatus status ≠ .waitingApproval := by
  unfold mapThreadStatus
  split_ifs <;> exact nofun

theorem codexEvent_unasked (event : CodexEvent) (he : event ≠ .approvalRequested s) :
    Unasked s g (g.codexEvent now event).1 := by
  have hstore := (g.normalizeCodexEvent_frame event).1
  have hread : Unasked s g (g.normalizeCodexEvent event).1 := by
    refine (Unasked.refl s g).sessions ?_
    rw [hstore]
  unfold codexEvent
  split_ifs
  · exact Unasked.refl s g
  · refine hread.broadcastGateway now _ ?_
    intro hdemand
    cases event with
    | approvalRequested threadId =>
      simp only [normalizeCodexEvent,demands,Option.some.injEq] at hdemand
      exact absurd (by rw [hdemand]) he
    | subAgentActivity threadId kind agent =>
      simp only [normalizeCodexEvent,demands] at hdemand
      split_ifs at hdemand
    | threadStatusChanged threadId status =>
      have hstatus : normalizeThreadStatus status ≠ .waitingApproval := by
        cases status with
        | none => simp [normalizeThreadStatus]
        | some status => exact mapThreadStatus_ne_waiting status
      simp only [normalizeCodexEvent] at hdemand
      by_cases hlive : (normalizeThreadStatus status).live = true
      · simp [hlive,demands,hstatus] at hdemand
      · simp only [if_neg hlive] at hdemand
        cases hparent : (g.subagentParents.get threadId).or (g.store.getSubagentParent threadId) with
        | some parent => simp [hparent,demands] at hdemand
        | none => simp [hparent,demands] at hdemand
    | turnCompleted threadId status turn =>
      simp [normalizeCodexEvent,demands] at hdemand

theorem deleteSession_unasked : Unasked s g { g with store := g.store.deleteSession id } := by
  intro hw
  obtain ⟨x,hx,hstatus⟩ := GatewayStore.waits_iff.mp hw
  have herase : ∀ y, (g.store.sessions.erase id).get s = some y → y.status = .waitingApproval →
      g.store.Waits s := by
    intro y hy hstatus
    rw [OrdMap.get_erase] at hy
    split_ifs at hy
    exact GatewayStore.waits_iff.mpr ⟨y,hy,hstatus⟩
  simp only [GatewayStore.deleteSession] at hx
  split at hx
  · exact herase x hx hstatus
  · rw [GatewayStore.getSession_updateSession] at hx
    · split_ifs at hx
      · obtain ⟨y,hy,rfl⟩ := Option.map_eq_some_iff.mp hx
        exact herase y hy hstatus
      · exact herase x hx hstatus
    · exact fun _ => rfl

theorem receive_unasked (q : Request)
    (hq : ∀ event, q = .codex event → event ≠ .approvalRequested s) :
    Unasked s g (g.receive now q).1 := by
  cases q with
  | postSessions r mode confirmed =>
    simp only [receive,postSessions]
    split_ifs
    · exact Unasked.refl s g
    · cases r with
      | none => exact Unasked.refl s g
      | some r =>
        have hreserved : Unasked s g { g with store := (g.store.reserveCreateRequest now r).1 } :=
          (Unasked.refl s g).sessions (g.store.sessions_reserveCreateRequest now r)
        dsimp only
        split_ifs <;> exact hreserved
  | postThreads mode confirmed =>
    simp only [receive,postThreads]
    split_ifs <;> exact Unasked.refl s g
  | patchPolicy id mode confirmed =>
    simp only [receive,patchPolicy]
    split <;> exact Unasked.refl s g
  | postResume id mode confirmed =>
    simp only [receive,postResume]
    split_ifs <;> exact Unasked.refl s g
  | postTurns id r mode confirmed =>
    simp only [receive,postTurns]
    split
    · exact Unasked.refl s g
    · split_ifs
      · exact Unasked.refl s g
      · exact g.admitTurn_unasked now id now _ _ r _ confirmed rfl
  | postThreadTurns id r =>
    have hreserved := (Unasked.refl s g).reserveClientRequest now id r
    simp only [receive,postThreadTurns]
    split_ifs <;> exact hreserved
  | postInterjections id r turnId => exact Unasked.refl s g
  | postInterrupt id => exact Unasked.refl s g
  | postFork id mode confirmed => exact Unasked.refl s g
  | postImport id => exact Unasked.refl s g
  | getSessions =>
    simp only [receive,getSessions]
    split_ifs <;> exact Unasked.refl s g
  | getThreads ids =>
    refine (Unasked.refl s g).sessions ?_
    simp only [receive,(g.listing_frame now ids).1]
  | deleteSession id => exact g.deleteSession_unasked id
  | codex event => exact g.codexEvent_unasked now event (hq event rfl)

theorem resume_unasked (task : Task)
    (ht : ∀ x, task.returns g o = some x → x.id = s → x.status = .waitingApproval →
      g.store.Waits s) : Unasked s g (g.resume now o task).1 := by
  have hrefl := Unasked.refl s g
  cases task with
  | createThread r mode confirmed =>
    simp only [resume,createThread]
    split
    · exact hrefl.releaseCreateRequest r
    · split_ifs
      · exact hrefl.releaseCreateRequest r
      · exact g.openCreated_unasked now _ r mode confirmed
  | createModel id mode turn =>
    simp only [resume,createModel]
    split_ifs
    · exact hrefl
    · exact g.failStart_unasked now id turn
  | createTurn id turn =>
    simp only [resume,createTurn]
    split_ifs
    · refine (hrefl.updateSession ?_ ?_).broadcastGateway now _ ?_
      · exact fun _ => rfl
      · simp
      · simp [demands]
    · exact g.failStart_unasked now id turn
  | apiThreadStart mode confirmed =>
    simp only [resume,apiThreadStart]
    split <;> exact hrefl
  | apiThreadModel id mode turn =>
    simp only [resume,apiThreadModel]
    split_ifs <;> exact hrefl
  | apiThreadTurn id turn => exact hrefl
  | patchContext id mode confirmed existing =>
    simp only [resume,patchContext]
    split_ifs
    · exact hrefl
    · exact hrefl
    · exact g.setMode_unasked now id mode
  | patchAudit session =>
    simp only [resume,patchAudit]
    split_ifs with hok
    · refine hrefl.broadcastGateway now _ ?_
      intro hdemand
      simp only [demands] at hdemand
      split_ifs at hdemand with hnot
      rw [not_or,not_ne_iff] at hnot
      exact ht session (by simp [Task.returns,hok,hnot.1]) (Option.some.inj hdemand) hnot.2
    · exact hrefl
  | resumeContext id mode confirmed stored =>
    simp only [resume,resumeContext]
    split_ifs <;> exact hrefl
  | resumeThread id mode => exact g.resumeThread_unasked now o id mode
  | turnLookup id r mode confirmed receivedAt =>
    simp only [resume,turnLookup]
    split
    · exact hrefl
    · split_ifs
      · exact hrefl
      · exact hrefl
      · exact g.admitTurn_unasked now id receivedAt none _ r _ confirmed rfl
  | turnPrepare id policy generation turn =>
    simp only [resume,turnPrepare]
    split_ifs
    · exact hrefl
    · exact hrefl
    · exact g.failStart_unasked now id turn
    · exact hrefl
  | turnModel id policy generation turn =>
    simp only [resume,turnModel]
    split_ifs
    · exact hrefl
    · exact g.failStart_unasked now id turn
    · exact hrefl
  | turnStart id generation turn =>
    simp only [resume,turnStart]
    split_ifs
    · split
      · exact hrefl
      · exact hrefl.updateSession (fun _ => rfl) fun _ hx => hx
    · exact hrefl
    · exact g.failStart_unasked now id turn
    · exact hrefl
  | apiTurnLookup id r last =>
    simp only [resume,apiTurnLookup]
    split
    · exact hrefl.releaseClientRequest id r
    · split
      · exact hrefl.releaseClientRequest id r
      · exact hrefl.releaseClientRequest id r
      · exact hrefl
  | apiTurnPrepare id r last thread turn =>
    simp only [resume,apiTurnPrepare]
    split_ifs
    · exact hrefl
    · exact (hrefl.release id).releaseClientRequest id r
  | apiTurnModel id r last thread turn => exact hrefl
  | apiTurnStart id r last thread turn =>
    simp only [resume,apiTurnStart]
    split_ifs
    · refine (((hrefl.upsertSession _ ?_).rememberClientRequest id r).addLive
        id).broadcastGateway now _ ?_
      · intro _ waits; cases waits
      · simp [demands,threadToSession]
    · exact (hrefl.release id).releaseClientRequest id r
  | interjectContext id r turnId stored =>
    simp only [resume,interjectContext]
    generalize (if stored = true then none else findThreadSummary o.threads id) = thread
    split
    · exact hrefl
    · split
      · exact g.interjectAdmit_unasked now id r _ _
      · exact hrefl
  | interjectDetail id r thread =>
    simp only [resume,interjectDetail]
    split
    · exact g.interjectAdmit_unasked now id r _ _
    · exact hrefl
  | interjectAudit id r turnId thread =>
    simp only [resume,interjectAudit]
    split_ifs <;> exact hrefl
  | interjectSteer id r turnId thread =>
    simp only [resume,interjectSteer]
    split_ifs
    · refine (((hrefl.addLive id).upsertSession _ ?_).rememberClientRequest id
        r).broadcastGateway now _ ?_
      · simp
      · simp [demands]
    · exact hrefl.releaseClientRequest id r
  | interruptContext id session =>
    simp only [resume,interruptContext]
    split
    · exact hrefl
    · exact g.settleInterruptedSession_unasked now id _
  | forkContext id mode confirmed stored =>
    simp only [resume,forkContext]
    split_ifs <;> exact hrefl
  | forkAudit id mode confirmed =>
    simp only [resume,forkAudit]
    split_ifs <;> exact hrefl
  | forkThread id mode confirmed =>
    simp only [resume,forkThread]
    split
    · exact hrefl
    · refine (hrefl.upsertSession _ ?_).broadcastGateway now _ ?_
      · intro _ waits; cases waits
      · simp [demands,threadToSession]
  | importThread id =>
    simp only [resume,importThread]
    split
    · exact hrefl
    · refine hrefl.upsertSession _ ?_
      intro _ hstatus
      exact absurd hstatus (mapThreadStatus_ne_waiting _)
  | coldImport =>
    refine hrefl.upsertSessions ?_
    intro x hx hid hstatus
    obtain ⟨thread,-,rfl⟩ := List.mem_map.mp hx
    have hs : thread.id = s := hid
    cases hget : g.store.getSession thread.id with
    | none =>
      simp only [importedSession,threadToSession,hget] at hstatus
      exact absurd hstatus (mapThreadStatus_ne_waiting _)
    | some existing =>
      simp only [importedSession,threadToSession,hget] at hstatus
      rw [← hs]
      exact GatewayStore.waits_iff.mpr ⟨existing,hget,hstatus⟩

/-- Apart from an announced approval, a record comes to wait only when a copy that did is
written back. -/
theorem step_unasked (i : Input)
    (hi : ∀ t event, i = .request t (.codex event) → event ≠ .approvalRequested s)
    (ht : ∀ t k o task, i = .proceed t k o → g.tasks[k]? = some task →
      ∀ x, task.returns g o = some x → x.id = s → x.status = .waitingApproval →
        g.store.Waits s) : Unasked s g (g.step i).1 := by
  cases i with
  | request now q =>
    refine g.receive_unasked now q ?_
    rintro event rfl
    exact hi now event rfl
  | proceed now k o =>
    simp only [step]
    cases htask : g.tasks[k]? with
    | none => exact Unasked.refl s g
    | some task => exact (g.finishTask k).resume_unasked now o task (ht now k o task rfl htask)

end handlers

end Server

end CodeHarbor.Gateway
