import CodeHarbor.Lib.Queues
import CodeHarbor.Gateway.PendingApprovals
set_option autoImplicit false

namespace CodeHarbor.Gateway
open Lib Bridge

/-- How a create request goes on when its checks are passed: it starts a thread, or it is
answered as a duplicate, with the session once that is known. -/
inductive CreateAnswer where
  | begun
  | pending
  | duplicate (sessionId : String)
  deriving DecidableEq, Repr

def GatewayStore.createAnswer (st : GatewayStore) (now : Nat) (r : RequestId) : CreateAnswer :=
  match st.getCreateRequestSession r with
  | (_,some sessionId) => .duplicate sessionId
  | (st,none) =>
    if (pruneReservations st.createRequestReservations now).has r then .pending else .begun

/-- What happens to create requests and to the sessions they lead to. -/
inductive CreateEvent where
  | received (r : RequestId) (answer : CreateAnswer)
  | started (r : RequestId) (id : String)
  | deleted (id : String)
  deriving DecidableEq, Repr

/-- The keys that an object lists first: canonical decimals below `2^32-1`. -/
def arrayIndex (key : String) : Option Nat :=
  match key.toList with
  | ['0'] => some 0
  | c :: rest =>
    if c ≠ '0' ∧ (c :: rest).all Char.isDigit then
      let n := (c :: rest).foldl (fun n d => 10*n+(d.toNat - '0'.toNat)) 0
      if n < 2^32-1 then some n else none
    else none
  | [] => none

/-- The gateway process and the two files that its create requests rest on. -/
structure Host where
  server : Server := {}
  createRequestsFile : OrdMap RequestId String := OrdMap.empty
  sessionsFile : List GatewaySession := []

/-- A segment writes its file with success or not. The snapshot of the sessions is written by
the timer or by `flush`. -/
inductive HostInput where
  | gateway (i : Input) (written : Bool)
  | persistSessions (written : Bool)
  | restart
  deriving DecidableEq, Repr

/-- The segments that write `create-requests.json`: a record whose session is gone is dropped,
the records of a deleted session go, a new one is remembered. -/
def Server.writesCreateRequests (g : Server) : Input → Bool
  | .request _ (.postSessions (some r) mode confirmed) =>
    !fullAccessConfirmationRequired (some mode) confirmed none &&
      (g.store.createRequests.get r).any (fun id => !g.store.sessions.has id)
  | .request _ (.deleteSession id) => g.store.createRequests.entries.any (·.2 = id)
  | .proceed _ k o =>
    match g.tasks[k]? with
    | some (.createThread (some _) _ _) => (startedThread o).any (· ∉ g.turnGate)
    | _ => false
  | _ => false

namespace Host

/-- A new process: the reservations are gone, and a record is taken over only with its session. -/
def restart (h : Host) : Host :=
  let records := h.createRequestsFile.byIndex fun r => arrayIndex r.val
  { h with
    server := { store :=
      GatewayStore.load { h.server.store with createRequests := records } h.sessionsFile } }

def step (h : Host) : HostInput → Host
  | .gateway i written =>
    let server := (h.server.step i).1
    { h with
      server := server
      createRequestsFile :=
        if h.server.writesCreateRequests i ∧ written then server.store.createRequests
        else h.createRequestsFile }
  | .persistSessions written =>
    if written then
      { h with sessionsFile := h.server.store.listSessions.map GatewaySession.persisted }
    else h
  | .restart => h.restart

def events (h : Host) : HostInput → List CreateEvent
  | .gateway (.request now (.postSessions (some r) mode confirmed)) _ =>
    if fullAccessConfirmationRequired (some mode) confirmed none then []
    else [.received r (h.server.store.createAnswer now r)]
  | .gateway (.request _ (.deleteSession id)) _ => [.deleted id]
  | .gateway (.proceed _ k o) _ =>
    match h.server.tasks[k]? with
    | some (.createThread (some r) _ _) => (Server.startedThread o).toList.map (.started r)
    | _ => []
  | _ => []

end Host

def host : Machine Host HostInput CreateEvent where
  init h := h = {}
  step h i := (h.step i,h.events i)

/-- The request has started a thread whose session has not been deleted since. -/
def Created (r : RequestId) (id : String) (tr : List CreateEvent) : Prop :=
  Since (.started r id) (· = .deleted id) tr

/-- While the session of the request stands, no thread is started for it and every further
request with its id is answered as a duplicate that names the session. -/
def CreatedOnce (r : RequestId) (tr : List CreateEvent) : Prop :=
  Traced (fun pre e => ∀ id, Created r id pre →
    (∀ id', e ≠ .started r id') ∧ ∀ answer, e = .received r answer → answer = .duplicate id) tr

/-- The reservation of the request does not run out before its thread has started, and its
record stays among the retained ones. -/
def withinBounds (r : RequestId) (h : Host) : HostInput → Bool
  | .gateway (.request now (.postSessions (some _) _ _)) _ =>
    h.server.store.createRequestReservations.has r →
      (GatewayStore.pruneReservations h.server.store.createRequestReservations now).has r
  | .gateway (.proceed _ k o) _ =>
    match h.server.tasks[k]?, Server.startedThread o with
    | some (.createThread (some q) _ _), some id =>
      let records := h.server.store.createRequests.set q id
      records.has r → (records.keepNewest maxCreateRequests).has r
    | _, _ => true
  | _ => true

/-- No turn runs yet in the thread that is started for the request, and a restart finds the
record of the request on the disk together with its session. -/
def keepsCreated (r : RequestId) (h : Host) : HostInput → Bool
  | .gateway (.proceed _ k o) _ =>
    match h.server.tasks[k]? with
    | some (.createThread (some q) _ _) =>
      q = r → ∀ id ∈ Server.startedThread o, id ∉ h.server.turnGate
    | _ => true
  | .restart => ∀ id ∈ h.server.store.createRequests.get r,
      h.createRequestsFile.get r = some id ∧ ∃ x ∈ h.sessionsFile, x.id = id
  | _ => true

def Task.creates (r : RequestId) : Task → Bool
  | .createThread (some q) _ _ => q = r
  | _ => false

def Server.creating (g : Server) (r : RequestId) : Nat := g.tasks.countP (Task.creates r)

/-- Create records and reservations are the same, and no session is lost. -/
structure GatewayStore.Kept (st st' : GatewayStore) : Prop where
  records : st'.createRequests = st.createRequests
  reservations : st'.createRequestReservations = st.createRequestReservations
  sessions : ∀ id, st.sessions.has id = true → st'.sessions.has id = true

namespace GatewayStore.Kept

variable {st st' : GatewayStore}

theorem refl (st : GatewayStore) : st.Kept st := ⟨rfl,rfl,fun _ h => h⟩

theorem saveSession (h : st.Kept st') (x : GatewaySession) : st.Kept (st'.saveSession x) := by
  refine ⟨h.records,h.reservations,?_⟩
  intro id hid
  simp only [GatewayStore.saveSession,OrdMap.has,OrdMap.get_set]
  split_ifs
  · rfl
  · exact h.sessions id hid

theorem upsertSession (h : st.Kept st') (x : GatewaySession) : st.Kept (st'.upsertSession x) := by
  unfold GatewayStore.upsertSession
  split
  · exact h.saveSession _
  · exact h.saveSession x

theorem upsertSessions (h : st.Kept st') (xs : List GatewaySession) :
    st.Kept (st'.upsertSessions xs) := by
  induction xs generalizing st' with
  | nil => exact h
  | cons x xs ih => exact ih (h.upsertSession x)

theorem updateSession (h : st.Kept st') (id : String) (updater : GatewaySession → GatewaySession) :
    st.Kept (st'.updateSession id updater) := by
  unfold GatewayStore.updateSession
  split
  · exact h.saveSession _
  · exact h

theorem linkSubagent (h : st.Kept st') (parentId childId : String) :
    st.Kept (st'.linkSubagent parentId childId) := by
  unfold GatewayStore.linkSubagent
  split_ifs
  · exact h
  · have hlinked : st.Kept { st' with
        subagentRelations := st'.subagentRelations.set childId parentId } :=
      ⟨h.records,h.reservations,h.sessions⟩
    exact (hlinked.updateSession parentId _).updateSession childId _

end GatewayStore.Kept

structure Apart (g g' : Server) : Prop where
  store : g.store.Kept g'.store
  creating : ∀ r, g'.creating r = g.creating r

namespace Apart

variable {g g' g'' : Server}

theorem refl (g : Server) : Apart g g := ⟨.refl _,fun _ => rfl⟩

theorem trans (h : Apart g g') (h' : Apart g' g'') : Apart g g'' where
  store := ⟨h'.store.records.trans h.store.records,h'.store.reservations.trans h.store.reservations,
    fun id hid => h'.store.sessions id (h.store.sessions id hid)⟩
  creating := fun r => (h'.creating r).trans (h.creating r)

theorem frame (h : Apart g g') (hstore : g''.store = g'.store) (htasks : g''.tasks = g'.tasks) :
    Apart g g'' := by
  refine ⟨hstore ▸ h.store,?_⟩
  intro r
  rw [Server.creating,htasks]
  exact h.creating r

theorem release (h : Apart g g') (id : String) : Apart g (g'.release id) := h.frame rfl rfl

theorem addLive (h : Apart g g') (id : String) : Apart g (g'.addLive id) := h.frame rfl rfl

theorem dropLive (h : Apart g g') (id : String) : Apart g (g'.dropLive id) := h.frame rfl rfl

theorem rememberPolicy (h : Apart g g') (id : String) (m : SessionPolicyMode) :
    Apart g (g'.rememberPolicy id m) := h.frame rfl rfl

theorem suspend (h : Apart g g') {task : Task} (htask : ∀ r, task.creates r = false) :
    Apart g (g'.suspend task) := by
  refine ⟨h.store,?_⟩
  intro r
  rw [← h.creating r,Server.creating,Server.suspend_tasks,List.countP_append]
  simp [htask r,Server.creating]

theorem upsertSession (h : Apart g g') (x : GatewaySession) : Apart g (g'.upsertSession x) :=
  ⟨h.store.upsertSession x,h.creating⟩

theorem updateSession (h : Apart g g') (id : String) (updater : GatewaySession → GatewaySession) :
    Apart g (g'.updateSession id updater) :=
  ⟨h.store.updateSession id updater,h.creating⟩

theorem reserveClientRequest (h : Apart g g') (now : Nat) (id : String) (r : Option RequestId) :
    Apart g (g'.reserveClientRequest now id r).1 := by
  cases r with
  | none => exact h
  | some r =>
    refine ⟨⟨?_,?_,?_⟩,h.creating⟩
    · refine Eq.trans ?_ h.store.records
      simp only [Server.reserveClientRequest,GatewayStore.reserveClientRequest]
      split_ifs <;> rfl
    · refine Eq.trans ?_ h.store.reservations
      simp only [Server.reserveClientRequest,GatewayStore.reserveClientRequest]
      split_ifs <;> rfl
    · intro s hs
      simp only [Server.reserveClientRequest,GatewayStore.sessions_reserveClientRequest]
      exact h.store.sessions s hs

theorem releaseClientRequest (h : Apart g g') (id : String) (r : Option RequestId) :
    Apart g (g'.releaseClientRequest id r) := by
  cases r with
  | none => exact h
  | some r => exact ⟨⟨h.store.records,h.store.reservations,h.store.sessions⟩,h.creating⟩

theorem rememberClientRequest (h : Apart g g') (id : String) (r : Option RequestId) :
    Apart g (g'.rememberClientRequest id r) := by
  cases r with
  | none => exact h
  | some r =>
    have hreleased := h.releaseClientRequest id (some r)
    exact ⟨hreleased.store.updateSession id _,hreleased.creating⟩

theorem broadcastGateway (h : Apart g g') (now : Nat) (message : GatewayMessage) :
    Apart g (g'.broadcastGateway now message) := by
  refine ⟨?_,fun r => by simpa [Server.creating] using h.creating r⟩
  have hpersist : g.store.Kept (g'.persistSubagentRelation message).store := by
    unfold Server.persistSubagentRelation
    split
    · dsimp only
      split
      · exact h.store.linkSubagent _ _
      · exact h.store
    · exact h.store
  simp only [Server.broadcastGateway,Server.trackSession]
  split
  · split_ifs
    · exact hpersist
    · exact hpersist.upsertSession _
    · exact hpersist.upsertSession _
  · split
    · exact hpersist.updateSession _ _
    · split
      · exact hpersist
      · split_ifs
        · exact hpersist
        · exact hpersist.updateSession _ _
        · exact hpersist.updateSession _ _
    · exact hpersist.updateSession _ _
    · exact hpersist

end Apart

namespace Server

section handlers

variable (g : Server) (now : Nat) (o : Outcome) (id : String)

theorem failStart_apart (turn : Nat) : Apart g (g.failStart now id turn).1 := by
  unfold failStart
  dsimp only
  exact ((((Apart.refl g).release id).dropLive id).updateSession id _).broadcastGateway now _

theorem failStart_ite_apart (turn : Nat) (current : Bool) :
    Apart g (if current then g.failStart now id turn else (g,[.startFailed id turn])).1 := by
  cases current with
  | true => exact g.failStart_apart now id turn
  | false => exact Apart.refl g

theorem acceptTurn_apart (receivedAt : Nat) (persisted : Option GatewaySession)
    (session : GatewaySession) (r : Option RequestId) (policy : SessionPolicyMode) (confirmed : Bool) :
    Apart g (g.acceptTurn now receivedAt id persisted session r policy confirmed).1 := by
  unfold acceptTurn
  dsimp only
  have hbegun : Apart g (({ g with
      turnGate := insert id g.turnGate
      cancelledSessions := g.cancelledSessions.erase id
      nextTurn := g.nextTurn+1 }.beginRun id).addLive id) := (Apart.refl g).frame rfl rfl
  refine (Apart.rememberPolicy ?_ id policy).suspend fun _ => rfl
  refine Apart.broadcastGateway (Apart.broadcastGateway ?_ now _) now _
  exact (hbegun.upsertSession _).rememberClientRequest id r

theorem admitTurn_apart (receivedAt : Nat) (persisted : Option GatewaySession)
    (session : GatewaySession) (r : Option RequestId) (policy : SessionPolicyMode) (confirmed : Bool) :
    Apart g (g.admitTurn now receivedAt id persisted session r policy confirmed).1 := by
  have hreserved := (Apart.refl g).reserveClientRequest now id r
  unfold admitTurn
  split_ifs
  · exact Apart.refl g
  · dsimp only
    split_ifs
    · exact hreserved
    · split
      · exact hreserved.releaseClientRequest id r
      · exact hreserved.releaseClientRequest id r
      · have haccepted := (g.reserveClientRequest now id r).1.acceptTurn_apart now id receivedAt
          persisted session r policy confirmed
        exact hreserved.trans haccepted

theorem interjectAdmit_apart (r : Option RequestId) (turnId : String) (thread : Option ThreadSummary) :
    Apart g (g.interjectAdmit now id r turnId thread).1 := by
  have hreserved := (Apart.refl g).reserveClientRequest now id r
  unfold interjectAdmit
  split_ifs
  · exact Apart.refl g
  · dsimp only
    split_ifs
    · exact hreserved.suspend fun _ => rfl
    · exact hreserved

theorem apiTurnFailed_apart (r : Option RequestId) (turn : Nat) :
    Apart g (g.apiTurnFailed id r turn).1 :=
  ((Apart.refl g).release id).releaseClientRequest id r

theorem setMode_apart (m : SessionPolicyMode) : Apart g (g.setMode now id m) :=
  ((Apart.refl g).rememberPolicy id m).updateSession id _

end handlers

theorem receive_apart (g : Server) (now : Nat) {q : Request}
    (hpost : ∀ r mode confirmed, q ≠ .postSessions (some r) mode confirmed)
    (hdelete : ∀ id, q ≠ .deleteSession id) : Apart g (g.receive now q).1 := by
  cases q with
  | postSessions r mode confirmed =>
    cases r with
    | some r => exact absurd rfl (hpost r mode confirmed)
    | none =>
      simp only [receive,postSessions]
      split_ifs
      · exact Apart.refl g
      · exact (Apart.refl g).suspend fun _ => rfl
  | postThreads mode confirmed =>
    simp only [receive,postThreads]
    split_ifs
    · exact Apart.refl g
    · exact (Apart.refl g).suspend fun _ => rfl
  | patchPolicy id mode confirmed =>
    simp only [receive,patchPolicy]
    split
    · exact Apart.refl g
    · exact (Apart.refl g).suspend fun _ => rfl
  | postResume id mode confirmed =>
    simp only [receive,postResume]
    split_ifs
    · exact Apart.refl g
    · exact (Apart.refl g).suspend fun _ => rfl
  | postTurns id r mode confirmed =>
    simp only [receive,postTurns]
    split
    · exact (Apart.refl g).suspend fun _ => rfl
    · split_ifs
      · exact Apart.refl g
      · exact g.admitTurn_apart now id now _ _ r _ confirmed
  | postThreadTurns id r =>
    have hreserved := (Apart.refl g).reserveClientRequest now id r
    simp only [receive,postThreadTurns]
    split_ifs
    · exact hreserved.suspend fun _ => rfl
    · exact hreserved
  | postInterjections id r turnId => exact (Apart.refl g).suspend fun _ => rfl
  | postInterrupt id => exact (Apart.refl g).suspend fun _ => rfl
  | postFork id mode confirmed => exact (Apart.refl g).suspend fun _ => rfl
  | postImport id => exact (Apart.refl g).suspend fun _ => rfl
  | getSessions =>
    simp only [receive,getSessions]
    split_ifs
    · exact (Apart.refl g).suspend fun _ => rfl
    · exact Apart.refl g
  | getThreads ids =>
    obtain ⟨hstore,-,htasks⟩ := g.listing_frame now ids
    exact (Apart.refl g).frame hstore htasks
  | deleteSession id => exact absurd rfl (hdelete id)
  | codex event =>
    obtain ⟨hstore,-,htasks,-⟩ := g.normalizeCodexEvent_frame event
    simp only [receive,codexEvent]
    split_ifs
    · exact Apart.refl g
    · exact ((Apart.refl g).frame hstore htasks).broadcastGateway now _

theorem resume_apart (g : Server) (now : Nat) (o : Outcome) {task : Task}
    (hcreate : ∀ r mode confirmed, task ≠ .createThread (some r) mode confirmed) :
    Apart g (g.resume now o task).1 := by
  have hrefl := Apart.refl g
  cases task with
  | createThread r mode confirmed =>
    cases r with
    | some r => exact absurd rfl (hcreate r mode confirmed)
    | none =>
      simp only [resume,createThread]
      split
      · exact hrefl
      · rename_i id _
        split_ifs
        · exact hrefl
        · unfold openCreated
          dsimp only
          refine Apart.suspend (Apart.broadcastGateway ?_ now _) fun _ => rfl
          exact ⟨hrefl.store.saveSession _,fun _ => rfl⟩
  | createModel id mode turn =>
    simp only [resume,createModel]
    split_ifs
    · exact (hrefl.rememberPolicy id mode).suspend fun _ => rfl
    · exact g.failStart_apart now id turn
  | createTurn id turn =>
    simp only [resume,createTurn]
    split_ifs
    · dsimp only
      exact (hrefl.updateSession id _).broadcastGateway now _
    · exact g.failStart_apart now id turn
  | apiThreadStart mode confirmed =>
    simp only [resume,apiThreadStart]
    split
    · exact hrefl
    · have hturn : Apart g { g with nextTurn := g.nextTurn+1 } := hrefl.frame rfl rfl
      exact hturn.suspend fun _ => rfl
  | apiThreadModel id mode turn =>
    simp only [resume,apiThreadModel]
    split_ifs
    · exact (hrefl.rememberPolicy id mode).suspend fun _ => rfl
    · exact hrefl
  | apiThreadTurn id turn => exact hrefl
  | patchContext id mode confirmed existing =>
    simp only [resume,patchContext]
    split_ifs
    · exact hrefl
    · exact hrefl
    · exact (g.setMode_apart now id mode).suspend fun _ => rfl
  | patchAudit session =>
    simp only [resume,patchAudit]
    split_ifs
    · exact hrefl.broadcastGateway now _
    · exact hrefl
  | resumeContext id mode confirmed stored =>
    simp only [resume,resumeContext]
    split_ifs
    · exact (hrefl.rememberPolicy id mode).suspend fun _ => rfl
    · exact hrefl
  | resumeThread id mode =>
    have hset := g.setMode_apart now id mode
    simp only [resume,resumeThread]
    split_ifs
    · split
      · exact hset
      · exact hset.broadcastGateway now _
    · exact hrefl
  | turnLookup id r mode confirmed receivedAt =>
    simp only [resume,turnLookup]
    split
    · exact hrefl
    · split_ifs
      · exact hrefl
      · exact hrefl
      · exact g.admitTurn_apart now id receivedAt none _ r _ confirmed
  | turnPrepare id policy generation turn =>
    simp only [resume,turnPrepare]
    split_ifs
    · exact hrefl.suspend fun _ => rfl
    · exact hrefl
    · exact g.failStart_apart now id turn
    · exact hrefl
  | turnModel id policy generation turn =>
    simp only [resume,turnModel]
    split_ifs
    · exact (hrefl.rememberPolicy id policy).suspend fun _ => rfl
    · exact g.failStart_apart now id turn
    · exact hrefl
  | turnStart id generation turn =>
    simp only [resume,turnStart]
    split
    · split
      · exact hrefl
      · exact hrefl.updateSession id _
    · exact g.failStart_ite_apart now id turn _
  | apiTurnLookup id r last =>
    simp only [resume,apiTurnLookup]
    split
    · exact hrefl.releaseClientRequest id r
    · split
      · exact hrefl.releaseClientRequest id r
      · exact hrefl.releaseClientRequest id r
      · have htaken : Apart g { g with
            turnGate := insert id g.turnGate
            nextTurn := g.nextTurn+1 } := hrefl.frame rfl rfl
        exact (htaken.rememberPolicy id _).suspend fun _ => rfl
  | apiTurnPrepare id r last thread turn =>
    simp only [resume,apiTurnPrepare]
    split_ifs
    · exact hrefl.suspend fun _ => rfl
    · exact g.apiTurnFailed_apart id r turn
  | apiTurnModel id r last thread turn => exact (hrefl.rememberPolicy id _).suspend fun _ => rfl
  | apiTurnStart id r last thread turn =>
    simp only [resume,apiTurnStart]
    split_ifs
    · dsimp only
      refine Apart.broadcastGateway ?_ now _
      exact ((hrefl.upsertSession _).rememberClientRequest id r).addLive id
    · exact g.apiTurnFailed_apart id r turn
  | interjectContext id r turnId stored =>
    simp only [resume,interjectContext]
    generalize (if stored = true then none else findThreadSummary o.threads id) = thread
    split
    · exact hrefl
    · split
      · exact g.interjectAdmit_apart now id r _ _
      · exact hrefl.suspend fun _ => rfl
  | interjectDetail id r thread =>
    simp only [resume,interjectDetail]
    split
    · exact g.interjectAdmit_apart now id r _ thread
    · exact hrefl
  | interjectAudit id r turnId thread =>
    simp only [resume,interjectAudit]
    split_ifs
    · exact hrefl.suspend fun _ => rfl
    · exact hrefl
  | interjectSteer id r turnId thread =>
    simp only [resume,interjectSteer]
    split_ifs
    · dsimp only
      exact (((hrefl.addLive id).upsertSession _).rememberClientRequest id r).broadcastGateway now _
    · exact hrefl.releaseClientRequest id r
  | interruptContext id session =>
    simp only [resume,interruptContext]
    split
    · exact hrefl
    · unfold settleInterruptedSession
      dsimp only
      refine Apart.broadcastGateway (Apart.upsertSession (Apart.release (Apart.dropLive ?_ id) id) _) now _
      exact hrefl.frame rfl rfl
  | forkContext id mode confirmed stored =>
    simp only [resume,forkContext]
    split_ifs
    · exact hrefl
    · exact hrefl.suspend fun _ => rfl
    · exact hrefl
  | forkAudit id mode confirmed =>
    simp only [resume,forkAudit]
    split_ifs
    · exact (hrefl.rememberPolicy id mode).suspend fun _ => rfl
    · exact hrefl
  | forkThread id mode confirmed =>
    simp only [resume,forkThread]
    split
    · exact hrefl
    · dsimp only
      exact (hrefl.upsertSession _).broadcastGateway now _
  | importThread id =>
    simp only [resume,importThread]
    split
    · exact hrefl
    · exact hrefl.upsertSession _
  | coldImport => exact ⟨hrefl.store.upsertSessions _,fun _ => rfl⟩

end Server

namespace GatewayStore

theorem getCreateRequestSession_cases (st : GatewayStore) (q : RequestId) :
    (∃ id, st.createRequests.get q = some id ∧ st.getCreateRequestSession q = (st,some id)) ∨
    (∀ id, st.createRequests.get q = some id → st.sessions.has id = false) ∧
      ∃ records, (∀ r, r ≠ q → records.get r = st.createRequests.get r) ∧
        st.getCreateRequestSession q = ({ st with createRequests := records },none) := by
  unfold getCreateRequestSession
  cases hq : st.createRequests.get q with
  | none => exact .inr ⟨by simp,st.createRequests,fun _ _ => rfl,rfl⟩
  | some id =>
    cases hlive : st.sessions.has id with
    | true => exact .inl ⟨id,rfl,by simp [hlive]⟩
    | false =>
      refine .inr ⟨by simpa using hlive,st.createRequests.erase q,?_,by simp [hlive]⟩
      intro r hr
      rw [OrdMap.get_erase,if_neg hr]

theorem reserveCreateRequest_cases (st : GatewayStore) (now : Nat) (q : RequestId) :
    (∃ id, st.createRequests.get q = some id ∧ st.createAnswer now q = .duplicate id ∧
      st.reserveCreateRequest now q = (st,false)) ∨
    (∀ id, st.createRequests.get q = some id → st.sessions.has id = false) ∧
      ∃ records reservations, (∀ r, r ≠ q → records.get r = st.createRequests.get r) ∧
        reservations = pruneReservations st.createRequestReservations now ∧
        (reservations.has q = true ∧ st.reserveCreateRequest now q = ({ st with
            createRequests := records
            createRequestReservations := reservations },false) ∨
        reservations.has q = false ∧ st.reserveCreateRequest now q = ({ st with
            createRequests := records
            createRequestReservations := reservations.set q now },true)) := by
  rcases st.getCreateRequestSession_cases q with ⟨id,hq,hget⟩ | ⟨hdead,records,hrecords,hget⟩
  · exact .inl ⟨id,hq,by simp [createAnswer,hget],by simp [reserveCreateRequest,hget]⟩
  · refine .inr ⟨hdead,records,_,hrecords,rfl,?_⟩
    simp only [reserveCreateRequest,hget]
    cases (pruneReservations st.createRequestReservations now).has q <;> simp

theorem deleteSession_spec (st : GatewayStore) (id : String) :
    (st.deleteSession id).createRequests = st.createRequests.filter (fun _ x => x ≠ id) ∧
    (st.deleteSession id).createRequestReservations = st.createRequestReservations ∧
    ∀ s, s ≠ id → st.sessions.has s = true → (st.deleteSession id).sessions.has s = true := by
  unfold deleteSession
  dsimp only
  split
  · refine ⟨rfl,rfl,?_⟩
    intro s hs hhas
    simpa [OrdMap.has,OrdMap.get_erase,hs] using hhas
  · refine ⟨((Kept.refl _).updateSession _ _).records,((Kept.refl _).updateSession _ _).reservations,?_⟩
    intro s hs hhas
    refine ((Kept.refl _).updateSession _ _).sessions s ?_
    simpa [OrdMap.has,OrdMap.get_erase,hs] using hhas

theorem has_load (st : GatewayStore) {snapshot : List GatewaySession} {x : GatewaySession}
    (hx : x ∈ snapshot) : (st.load snapshot).sessions.has x.id = true := by
  have hfold : ∀ (xs : List GatewaySession) (st : GatewayStore),
      (st.sessions.has x.id = true ∨ x ∈ xs) →
      (xs.foldl (fun st session => st.saveSession session.normalizePersistedSession)
        st).sessions.has x.id = true := by
    intro xs
    induction xs with
    | nil =>
      intro st h
      simpa using h
    | cons y ys ih =>
      intro st h
      refine ih _ ?_
      have hkept := (Kept.refl st).saveSession y.normalizePersistedSession
      rcases h with h | h
      · exact .inl (hkept.sessions _ h)
      · rcases List.mem_cons.mp h with rfl | h
        · refine .inl ?_
          have hid : x.normalizePersistedSession.id = x.id := by
            simp only [GatewaySession.normalizePersistedSession]
            split_ifs <;> rfl
          simp [saveSession,OrdMap.has,OrdMap.get_set,hid]
        · exact .inr h
  exact hfold snapshot _ (.inr hx)

end GatewayStore

/-- What the record and the reservation become when the thread is there. -/
def GatewayStore.settleCreateRequest (st : GatewayStore) (q : RequestId) (x : GatewaySession) :
    GatewayStore := (st.saveSession x).rememberCreateRequest q x.id

theorem Server.openCreated_apart (g : Server) (now : Nat) (id : String) (q : RequestId)
    (mode : SessionPolicyMode) (confirmed : Bool) :
    ∃ x : GatewaySession, x.id = id ∧ Apart { g with store := g.store.settleCreateRequest q x }
      (g.openCreated now id (some q) mode confirmed).1 := by
  refine ⟨{ createdSession id now mode with
    status := .starting
    activeTurnId := some none
    lastClientRequestId := some (some q) },rfl,?_⟩
  unfold openCreated
  dsimp only
  refine (Apart.broadcastGateway ?_ now _).suspend fun _ => rfl
  refine (Apart.rememberClientRequest ?_ id (some q)).addLive id
  exact (Apart.refl _).frame rfl rfl

theorem GatewayStore.settleCreateRequest_spec (st : GatewayStore) (q : RequestId)
    (x : GatewaySession) :
    (st.settleCreateRequest q x).createRequests =
      (st.createRequests.set q x.id).keepNewest maxCreateRequests ∧
    (st.settleCreateRequest q x).createRequestReservations = st.createRequestReservations.erase q ∧
    (st.settleCreateRequest q x).sessions.has x.id = true ∧
    ∀ id, st.sessions.has id = true → (st.settleCreateRequest q x).sessions.has id = true := by
  refine ⟨rfl,rfl,?_,((Kept.refl st).saveSession x).sessions⟩
  simp [settleCreateRequest,rememberCreateRequest,saveSession,OrdMap.has,OrdMap.get_set]

/-- What is true of a request in every run within the conditions: while its session stands it
has its record, and at most one handler waits for a thread of it, with the reservation. -/
structure Settled (r : RequestId) (tr : List CreateEvent) (h : Host) : Prop where
  once : CreatedOnce r tr
  recorded : ∀ id, Created r id tr → h.server.store.createRequests.get r = some id ∧
    h.server.store.sessions.has id = true ∧ h.server.creating r = 0
  single : h.server.creating r ≤ 1
  reserved : 0 < h.server.creating r → h.server.store.createRequestReservations.has r = true

namespace Settled

variable {r : RequestId} {tr : List CreateEvent} {h h' : Host}

theorem apart (hs : Settled r tr h) (ha : Apart h.server h'.server) : Settled r (tr ++ []) h' := by
  rw [List.append_nil]
  refine ⟨hs.once,?_,?_,?_⟩
  · intro id hid
    obtain ⟨hrecord,hlive,hnone⟩ := hs.recorded id hid
    rw [ha.store.records,ha.creating r]
    exact ⟨hrecord,ha.store.sessions id hlive,hnone⟩
  · rw [ha.creating r]
    exact hs.single
  · rw [ha.creating r,ha.store.reservations]
    exact hs.reserved

theorem event (hs : Settled r tr h) {e : CreateEvent} (hstarted : ∀ id, e ≠ .started r id)
    (hreceived : ∀ answer, e = .received r answer → ∀ id, Created r id tr → answer = .duplicate id)
    (hrecorded : ∀ id, Created r id tr → e ≠ .deleted id →
      h'.server.store.createRequests.get r = some id ∧
      h'.server.store.sessions.has id = true ∧ h'.server.creating r = 0)
    (hsingle : h'.server.creating r ≤ 1)
    (hreserved : 0 < h'.server.creating r → h'.server.store.createRequestReservations.has r = true) :
    Settled r (tr ++ [e]) h' := by
  refine ⟨?_,?_,hsingle,hreserved⟩
  · refine traced_snoc.mpr ⟨hs.once,?_⟩
    intro id hid
    exact ⟨hstarted,fun answer he => hreceived answer he id hid⟩
  · intro id hid
    rcases since_snoc.mp hid with he | ⟨hbefore,he⟩
    · exact absurd he (hstarted id)
    · exact hrecorded id hbefore (by simpa using he)

theorem post (hs : Settled r tr h) {now : Nat} {q : RequestId} (mode : SessionPolicyMode)
    (confirmed : Bool)
    (hbounds : h.server.store.createRequestReservations.has r = true →
      (GatewayStore.pruneReservations h.server.store.createRequestReservations now).has r = true)
    (hstep : h'.server =
      let (store,reserved) := h.server.store.reserveCreateRequest now q
      let g := { h.server with store := store }
      if reserved then g.suspend (.createThread (some q) mode confirmed) else g) :
    Settled r (tr ++ [.received q (h.server.store.createAnswer now q)]) h' := by
  rcases h.server.store.reserveCreateRequest_cases now q with ⟨id,hq,hanswer,hreserve⟩ |
      ⟨hdead,records,reservations,hrecords,hprune,hrest⟩
  · -- the record is there and nothing changes
    rw [hreserve] at hstep
    have hsame : h'.server = h.server := hstep
    refine hs.event (by simp) ?_ ?_ ?_ ?_
    · rintro answer he id' hid'
      cases he
      obtain ⟨hrecord,-⟩ := hs.recorded id' hid'
      rw [hq,Option.some.injEq] at hrecord
      rw [hanswer,hrecord]
    · intro id' hid' _
      rw [hsame]
      exact hs.recorded id' hid'
    · rw [hsame]
      exact hs.single
    · rw [hsame]
      exact hs.reserved
  · -- while the session stands the request is another one
    have hother : ∀ id, Created r id tr → r ≠ q := by
      rintro id hid rfl
      obtain ⟨hrecord,hlive,-⟩ := hs.recorded id hid
      rw [hdead id hrecord] at hlive
      cases hlive
    rcases hrest with ⟨hpending,hreserve⟩ | ⟨hnew,hreserve⟩
    · rw [hreserve] at hstep
      have hsame : h'.server = { h.server with store := { h.server.store with
          createRequests := records
          createRequestReservations := reservations } } := hstep
      refine hs.event (by simp) ?_ ?_ ?_ ?_
      · rintro answer he id hid
        cases he
        exact absurd rfl (hother id hid)
      · intro id hid _
        obtain ⟨hrecord,hlive,hnone⟩ := hs.recorded id hid
        rw [hsame]
        exact ⟨(hrecords r (hother id hid)).trans hrecord,hlive,hnone⟩
      · rw [hsame]
        exact hs.single
      · rw [hsame]
        intro hpos
        rw [hprune]
        exact hbounds (hs.reserved hpos)
    · rw [hreserve] at hstep
      have hsame : h'.server = { h.server with store := { h.server.store with
          createRequests := records
          createRequestReservations := reservations.set q now } }.suspend
            (.createThread (some q) mode confirmed) := hstep
      have hcreating : h'.server.creating r = h.server.creating r + (if q = r then 1 else 0) := by
        rw [hsame]
        simp [Server.creating,Task.creates,List.countP_append]
      refine hs.event (by simp) ?_ ?_ ?_ ?_
      · rintro answer he id hid
        cases he
        exact absurd rfl (hother id hid)
      · intro id hid _
        obtain ⟨hrecord,hlive,hnone⟩ := hs.recorded id hid
        refine ⟨?_,?_,?_⟩
        · rw [hsame]
          exact (hrecords r (hother id hid)).trans hrecord
        · rw [hsame]
          exact hlive
        · rw [hcreating,hnone,if_neg (Ne.symm (hother id hid))]
      · rw [hcreating]
        split_ifs with heq
        · -- an older handler would still have its reservation
          subst heq
          have hzero : h.server.creating q = 0 := by
            by_contra hpos
            have hstill := hbounds (hs.reserved (Nat.pos_of_ne_zero hpos))
            rw [← hprune,hnew] at hstill
            cases hstill
          rw [hzero]
        · exact hs.single
      · intro hpos
        rw [hsame]
        simp only [Server.suspend_store,OrdMap.has,OrdMap.get_set]
        split_ifs with heq
        · rfl
        · rw [hcreating,if_neg (Ne.symm heq),Nat.add_zero] at hpos
          rw [hprune]
          exact hbounds (hs.reserved hpos)

theorem delete (hs : Settled r tr h) (id : String)
    (hstep : h'.server = { h.server with store := h.server.store.deleteSession id }) :
    Settled r (tr ++ [.deleted id]) h' := by
  obtain ⟨hrecords,hreservations,hsessions⟩ := h.server.store.deleteSession_spec id
  refine hs.event (by simp) (by simp) ?_ ?_ ?_
  · intro id' hid' hne
    obtain ⟨hrecord,hlive,hnone⟩ := hs.recorded id' hid'
    have hne : id' ≠ id := by
      rintro rfl
      exact hne rfl
    rw [hstep]
    refine ⟨?_,hsessions id' hne hlive,hnone⟩
    show (h.server.store.deleteSession id).createRequests.get r = some id'
    rw [hrecords,OrdMap.get_filter]
    exact ⟨hrecord,by simpa using hne⟩
  · rw [hstep]
    exact hs.single
  · rw [hstep]
    show _ → (h.server.store.deleteSession id).createRequestReservations.has r = true
    rw [hreservations]
    exact hs.reserved

theorem creating_finishTask {g : Server} {k : Nat} {q : RequestId} {mode : SessionPolicyMode}
    {confirmed : Bool} (htask : g.tasks[k]? = some (.createThread (some q) mode confirmed)) :
    (g.finishTask k).creating r + (decide (q = r)).toNat = g.creating r :=
  countP_eraseIdx (Task.creates r) htask

theorem release (hs : Settled r tr h) {k : Nat} {q : RequestId} {mode : SessionPolicyMode}
    {confirmed : Bool} (htask : h.server.tasks[k]? = some (.createThread (some q) mode confirmed))
    {es : List CreateEvent} (hes : es = [] ∨ ∃ id, q ≠ r ∧ es = [.started q id])
    (hstep : h'.server = (h.server.finishTask k).releaseCreateRequest (some q)) :
    Settled r (tr ++ es) h' := by
  have hcount := creating_finishTask (r := r) htask
  have hcreating : h'.server.creating r = (h.server.finishTask k).creating r := by
    rw [hstep]
    rfl
  have hsingle := hs.single
  have hrecorded : ∀ id, Created r id tr → h'.server.store.createRequests.get r = some id ∧
      h'.server.store.sessions.has id = true ∧ h'.server.creating r = 0 := by
    intro id hid
    obtain ⟨hrecord,hlive,hnone⟩ := hs.recorded id hid
    rw [hcreating,hstep]
    exact ⟨hrecord,hlive,by omega⟩
  have hreserved : 0 < h'.server.creating r →
      h'.server.store.createRequestReservations.has r = true := by
    intro hpos
    rw [hcreating] at hpos
    have hne : q ≠ r := by
      rintro rfl
      simp at hcount
      omega
    have hstill := hs.reserved (by omega)
    rw [hstep]
    show (h.server.store.createRequestReservations.erase q).has r = true
    simpa [OrdMap.has,OrdMap.get_erase,Ne.symm hne] using hstill
  rcases hes with rfl | ⟨id,hne,rfl⟩
  · rw [List.append_nil]
    exact ⟨hs.once,hrecorded,by omega,hreserved⟩
  · refine hs.event ?_ (by simp) (fun id hid _ => hrecorded id hid) (by omega) hreserved
    intro id' he
    cases he
    exact hne rfl

theorem opened (hs : Settled r tr h) {k : Nat} {q : RequestId} {mode : SessionPolicyMode}
    {confirmed : Bool} (htask : h.server.tasks[k]? = some (.createThread (some q) mode confirmed))
    {id : String}
    (hbounds : (h.server.store.createRequests.set q id).has r = true →
      ((h.server.store.createRequests.set q id).keepNewest maxCreateRequests).has r = true)
    {x : GatewaySession} (hx : x.id = id)
    (hstep : Apart { h.server.finishTask k with store := h.server.store.settleCreateRequest q x }
      h'.server) : Settled r (tr ++ [.started q id]) h' := by
  subst hx
  obtain ⟨hrecords,hreservations,hnew,hold⟩ := h.server.store.settleCreateRequest_spec q x
  have hcount := creating_finishTask (r := r) htask
  have hcreating : h'.server.creating r = (h.server.finishTask k).creating r := hstep.creating r
  have hsingle := hs.single
  have hretained : ∀ id, (h.server.store.createRequests.set q x.id).get r = some id →
      h'.server.store.createRequests.get r = some id := by
    intro id hid
    obtain ⟨id',hid'⟩ := Option.isSome_iff_exists.mp (hbounds (by simp [OrdMap.has,hid]))
    have hsame := OrdMap.get_of_get_keepNewest hid'
    rw [hid,Option.some.injEq] at hsame
    rw [hstep.store.records]
    show (h.server.store.settleCreateRequest q x).createRequests.get r = some id
    rw [hrecords,hid',hsame]
  by_cases hq : q = r
  · subst hq
    have hnone : h'.server.creating q = 0 := by
      simp at hcount
      omega
    refine ⟨?_,?_,by omega,by omega⟩
    · refine traced_snoc.mpr ⟨hs.once,?_⟩
      intro id hid
      -- this very handler was suspended, so no session of the request stands
      obtain ⟨-,-,hzero⟩ := hs.recorded id hid
      simp at hcount
      omega
    · intro id hid
      rcases since_snoc.mp hid with he | ⟨hbefore,-⟩
      · cases he
        refine ⟨hretained _ (by simp [OrdMap.get_set]),?_,hnone⟩
        exact hstep.store.sessions _ hnew
      · obtain ⟨-,-,hzero⟩ := hs.recorded id hbefore
        simp at hcount
        omega
  · refine hs.event ?_ (by simp) ?_ (by omega) ?_
    · intro id' he
      cases he
      exact hq rfl
    · intro id' hid' _
      obtain ⟨hrecord,hlive,hzero⟩ := hs.recorded id' hid'
      refine ⟨hretained id' ?_,hstep.store.sessions _ (hold id' hlive),by omega⟩
      rw [OrdMap.get_set,if_neg (Ne.symm hq)]
      exact hrecord
    · intro hpos
      have hstill := hs.reserved (by omega)
      rw [hstep.store.reservations]
      show (h.server.store.settleCreateRequest q x).createRequestReservations.has r = true
      rw [hreservations]
      simpa [OrdMap.has,OrdMap.get_erase,Ne.symm hq] using hstill

theorem restart (hs : Settled r tr h)
    (hkeeps : ∀ id, h.server.store.createRequests.get r = some id →
      h.createRequestsFile.get r = some id ∧ ∃ x ∈ h.sessionsFile, x.id = id) :
    Settled r (tr ++ []) h.restart := by
  rw [List.append_nil]
  refine ⟨hs.once,?_,by simp [Host.restart,Server.creating],by simp [Host.restart,Server.creating]⟩
  intro id hid
  obtain ⟨hrecord,-⟩ := hs.recorded id hid
  obtain ⟨hfile,x,hx,rfl⟩ := hkeeps id hrecord
  have hlive := GatewayStore.has_load { h.server.store with
    createRequests := h.createRequestsFile.byIndex fun r => arrayIndex r.val } hx
  refine ⟨?_,hlive,rfl⟩
  simp only [Host.restart,GatewayStore.load,OrdMap.get_filter]
  refine ⟨?_,hlive⟩
  rw [OrdMap.get_byIndex]
  exact hfile

theorem request (hs : Settled r tr h) (now : Nat) (q : Request) (written : Bool)
    (hbounds : withinBounds r h (.gateway (.request now q) written) = true) :
    Settled r (tr ++ h.events (.gateway (.request now q) written))
      (h.step (.gateway (.request now q) written)) := by
  by_cases hpost : ∃ r mode confirmed, q = .postSessions (some r) mode confirmed
  · obtain ⟨q,mode,confirmed,rfl⟩ := hpost
    simp only [withinBounds,decide_eq_true_eq] at hbounds
    simp only [Host.events]
    split_ifs with hcheck
    · refine hs.apart ?_
      simp only [Host.step,Server.step,Server.receive,Server.postSessions,hcheck,if_true]
      exact Apart.refl h.server
    · refine hs.post mode confirmed hbounds ?_
      simp only [Host.step,Server.step,Server.receive,Server.postSessions,hcheck]
      rfl
  · by_cases hdelete : ∃ id, q = .deleteSession id
    · obtain ⟨id,rfl⟩ := hdelete
      exact hs.delete id rfl
    · have hevents : h.events (.gateway (.request now q) written) = [] := by
        cases q with
        | postSessions r mode confirmed =>
          cases r with
          | none => rfl
          | some r => exact absurd ⟨r,mode,confirmed,rfl⟩ hpost
        | deleteSession id => exact absurd ⟨id,rfl⟩ hdelete
        | _ => rfl
      rw [hevents]
      refine hs.apart (h.server.receive_apart now ?_ ?_)
      · rintro r mode confirmed rfl
        exact hpost ⟨r,mode,confirmed,rfl⟩
      · rintro id rfl
        exact hdelete ⟨id,rfl⟩

theorem proceed (hs : Settled r tr h) (now k : Nat) (o : Outcome) (written : Bool)
    (hbounds : withinBounds r h (.gateway (.proceed now k o) written) = true)
    (hkeeps : keepsCreated r h (.gateway (.proceed now k o) written) = true) :
    Settled r (tr ++ h.events (.gateway (.proceed now k o) written))
      (h.step (.gateway (.proceed now k o) written)) := by
  cases htask : h.server.tasks[k]? with
  | none =>
    simp only [Host.events,htask]
    refine hs.apart ?_
    simp only [Host.step,Server.step,htask]
    exact Apart.refl h.server
  | some task =>
    by_cases hcreate : ∃ q mode confirmed, task = .createThread (some q) mode confirmed
    · obtain ⟨q,mode,confirmed,rfl⟩ := hcreate
      have hserver : (h.step (.gateway (.proceed now k o) written)).server =
          ((h.server.finishTask k).createThread now o (some q) mode confirmed).1 := by
        simp only [Host.step,Server.step,htask,Server.resume]
      simp only [keepsCreated,htask,decide_eq_true_eq] at hkeeps
      simp only [Host.events,htask]
      cases hstarted : Server.startedThread o with
      | none =>
        refine hs.release htask (.inl rfl) (hserver.trans ?_)
        simp only [Server.createThread,hstarted]
      | some id =>
        simp only [withinBounds,htask,hstarted,decide_eq_true_eq] at hbounds
        rw [hstarted] at hkeeps
        by_cases hbusy : id ∈ h.server.turnGate
        · refine hs.release htask (.inr ⟨id,?_,rfl⟩) (hserver.trans ?_)
          · intro hq
            exact hkeeps hq id rfl hbusy
          · simp [Server.createThread,hstarted,TurnGate.acquire_none,Server.finishTask,hbusy]
        · obtain ⟨x,hx,hopened⟩ := (h.server.finishTask k).openCreated_apart now id q mode confirmed
          refine hs.opened htask hbounds hx ?_
          rw [hserver]
          simpa [Server.createThread,hstarted,TurnGate.acquire_none,Server.finishTask,hbusy]
            using hopened
    · have hevents : h.events (.gateway (.proceed now k o) written) = [] := by
        simp only [Host.events,htask]
        split
        · rename_i q mode confirmed heq
          exact absurd ⟨q,mode,confirmed,Option.some.inj heq⟩ hcreate
        · rfl
      rw [hevents]
      refine hs.apart ?_
      simp only [Host.step,Server.step,htask]
      have hne : ∀ q mode confirmed, task ≠ .createThread (some q) mode confirmed :=
        fun q mode confirmed heq => hcreate ⟨q,mode,confirmed,heq⟩
      refine Apart.trans ?_ ((h.server.finishTask k).resume_apart now o hne)
      refine ⟨.refl _,?_⟩
      intro r'
      have hcount := countP_eraseIdx (Task.creates r') htask
      have hother : task.creates r' = false := by
        unfold Task.creates
        split
        · rename_i q mode confirmed
          exact absurd rfl (hne q mode confirmed)
        · rfl
      simpa [hother,Server.creating,Server.finishTask] using hcount

theorem step (hs : Settled r tr h) {i : HostInput} (hbounds : withinBounds r h i = true)
    (hkeeps : keepsCreated r h i = true) : Settled r (tr ++ h.events i) (h.step i) := by
  cases i with
  | gateway i written =>
    cases i with
    | request now q => exact hs.request now q written hbounds
    | proceed now k o => exact hs.proceed now k o written hbounds hkeeps
  | persistSessions written =>
    refine hs.apart ?_
    simp only [Host.step]
    split_ifs <;> exact Apart.refl h.server
  | restart =>
    simp only [keepsCreated,decide_eq_true_eq] at hkeeps
    exact hs.restart hkeeps

end Settled

/-- In every run within the bounds in which a restart finds the record of the request together
with its session, the request starts one thread while its session stands, and every further
one is answered with that session. -/
theorem created_once {r : RequestId} {tr : List CreateEvent} {h : Host}
    (hr : host.Run (fun _ h i => withinBounds r h i = true ∧ keepsCreated r h i = true) tr h) :
    CreatedOnce r tr := by
  have hsettled : Settled r tr h := by
    apply hr.invariant (P := Settled r)
    · rintro h rfl
      refine ⟨Traced.nil _,?_,by simp [Server.creating],by simp [Server.creating]⟩
      intro id hid
      exact absurd hid Since.nil
    · intro tr h i hs hi
      exact hs.step hi.1 hi.2
  exact hsettled.once

namespace Sample

def request : RequestId := ⟨"create",by decide⟩

/-- A session created, its snapshot written, the process restarted and the request repeated. -/
def createdAgain : List HostInput :=
  [.gateway (.request 0 (.postSessions (some request) .confirm false)) true,
    .gateway (.request 1 (.postSessions (some request) .confirm false)) true,
    .gateway (.proceed 2 0 { id := some "t" }) true,.persistSessions true,.restart,
    .gateway (.request 3 (.postSessions (some request) .confirm false)) true]

/-- The process crashes before the snapshot is written. -/
def crashedEarly : List HostInput :=
  [.gateway (.request 0 (.postSessions (some request) .confirm false)) true,
    .gateway (.proceed 1 0 { id := some "t" }) true,.restart,
    .gateway (.request 2 (.postSessions (some request) .confirm false)) true,
    .gateway (.proceed 3 0 { id := some "u" }) true]

end Sample

theorem createdAgain_created_once :
    (host.exec [] {} Sample.createdAgain).1 = [.received Sample.request .begun,
      .received Sample.request .pending,.started Sample.request "t",
      .received Sample.request (.duplicate "t")] ∧
    CreatedOnce Sample.request (host.exec [] {} Sample.createdAgain).1 := by
  have hrun : host.Run (fun _ h i => withinBounds Sample.request h i = true ∧
      keepsCreated Sample.request h i = true) [] {} := .start rfl
  exact ⟨by decide +kernel,created_once (hrun.exec Sample.createdAgain (by decide +kernel))⟩

/-- The loader drops the record, which is on the disk, because the session is not there yet:
the request starts a second thread. -/
theorem crashedEarly_not_created_once :
    host.Run (fun _ h i => withinBounds Sample.request h i = true)
      (host.exec [] {} Sample.crashedEarly).1 (host.exec [] {} Sample.crashedEarly).2 ∧
    ¬ CreatedOnce Sample.request (host.exec [] {} Sample.crashedEarly).1 := by
  have hrun : host.Run (fun _ h i => withinBounds Sample.request h i = true) [] {} := .start rfl
  refine ⟨hrun.exec _ (by decide +kernel),?_⟩
  intro h
  have htrace : (host.exec [] {} Sample.crashedEarly).1 =
      [CreateEvent.received Sample.request .begun,.started Sample.request "t",
        .received Sample.request .begun] ++ .started Sample.request "u" :: [] := by decide +kernel
  have hcreated : Created Sample.request "t" [.received Sample.request .begun,
      .started Sample.request "t",.received Sample.request .begun] :=
    ⟨[.received Sample.request .begun],[.received Sample.request .begun],rfl,by decide⟩
  exact (h _ _ _ htrace "t" hcreated).1 "u" rfl

end CodeHarbor.Gateway
