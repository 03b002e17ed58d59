import CodeHarbor.Bridge.Rpc
set_option autoImplicit false

namespace CodeHarbor.Gateway
open Lib Bridge

inductive SessionStatus where
  | starting
  | running
  | waitingApproval
  | completed
  | failed
  | cancelled
  deriving DecidableEq, Repr

def SessionStatus.live : SessionStatus → Bool
  | .starting | .running | .waitingApproval => true
  | .completed | .failed | .cancelled => false

/-- A client request id has passed the length check of its route. -/
abbrev RequestId := { text : String // text ≠ "" }

/-- The fields of a session record that some handler reads. Where the source's object may
lack a key or hold `undefined` under it, `none` is the missing key and `some none` the
undefined value. -/
structure GatewaySession where
  id : String
  status : SessionStatus
  sessionPolicyMode : SessionPolicyMode
  lastUpdatedAt : Nat
  activeTurnId : Option (Option String) := none
  lastClientRequestId : Option (Option RequestId) := none
  recentClientRequestIds : Option (List RequestId) := none
  parentSessionId : Option String := none
  childSessionIds : Option (List String) := none
  deriving DecidableEq, Repr

/-- The object spread `{ ...existing, ...session }`: only a missing key is inherited. -/
def GatewaySession.spread (existing session : GatewaySession) : GatewaySession :=
  { session with
    activeTurnId := session.activeTurnId.or existing.activeTurnId
    lastClientRequestId := session.lastClientRequestId.or existing.lastClientRequestId
    recentClientRequestIds := session.recentClientRequestIds.or existing.recentClientRequestIds
    parentSessionId := session.parentSessionId.or existing.parentSessionId
    childSessionIds := session.childSessionIds.or existing.childSessionIds }

def maxRecentClientRequests : Nat := 128
def maxCreateRequests : Nat := 512
def reservationTtl : Nat := 10*60*1000
def maxReservations : Nat := 10000

/-- Every record stands under its own id. -/
structure GatewayStore where
  sessions : OrdMap String GatewaySession
  keyed : ∀ id session, sessions.get id = some session → session.id = id
  subagentRelations : OrdMap String String
  createRequests : OrdMap RequestId String
  clientRequestReservations : OrdMap (String × RequestId) Nat
  createRequestReservations : OrdMap RequestId Nat

namespace GatewayStore

def empty : GatewayStore where
  sessions := OrdMap.empty
  keyed := by
    intro id session h
    simp at h
  subagentRelations := OrdMap.empty
  createRequests := OrdMap.empty
  clientRequestReservations := OrdMap.empty
  createRequestReservations := OrdMap.empty

def getSession (st : GatewayStore) (sessionId : String) : Option GatewaySession :=
  st.sessions.get sessionId

def saveSession (st : GatewayStore) (session : GatewaySession) : GatewayStore :=
  { st with
    sessions := st.sessions.set session.id session
    keyed := by
      intro id x h
      rw [OrdMap.get_set] at h
      split_ifs at h with hid
      · cases h
        exact hid.symm
      · exact st.keyed id x h }

def upsertSession (st : GatewayStore) (session : GatewaySession) : GatewayStore :=
  match st.getSession session.id with
  | some existing => st.saveSession (existing.spread session)
  | none => st.saveSession session

def upsertSessions (st : GatewayStore) (sessions : List GatewaySession) : GatewayStore :=
  sessions.foldl upsertSession st

def updateSession (st : GatewayStore) (sessionId : String)
    (updater : GatewaySession → GatewaySession) : GatewayStore :=
  match st.getSession sessionId with
  | some existing => st.saveSession (updater existing)
  | none => st

def linkSubagent (st : GatewayStore) (parentId childId : String) : GatewayStore :=
  if parentId = "" ∨ childId = "" ∨ parentId = childId then st
  else
    let st := { st with subagentRelations := st.subagentRelations.set childId parentId }
    let st := st.updateSession parentId fun session =>
      { session with
        childSessionIds := some ((session.childSessionIds.getD [] ++ [childId]).eraseDups) }
    st.updateSession childId fun session => { session with parentSessionId := some parentId }

def getSubagentParent (st : GatewayStore) (childId : String) : Option String :=
  st.subagentRelations.get childId

/-- No route calls this; it is part of the store's interface. -/
def deleteSession (st : GatewayStore) (sessionId : String) : GatewayStore :=
  let parentId := st.getSubagentParent sessionId
  let st : GatewayStore := { st with
    sessions := st.sessions.erase sessionId
    keyed := by
      intro id x h
      rw [OrdMap.get_erase] at h
      split_ifs at h
      exact st.keyed id x h
    subagentRelations :=
      (st.subagentRelations.erase sessionId).filter (fun _ linked => linked ≠ sessionId)
    createRequests := st.createRequests.filter (fun _ id => id ≠ sessionId)
    clientRequestReservations :=
      st.clientRequestReservations.filter (fun key _ => key.1 ≠ sessionId) }
  match parentId with
  | none => st
  | some parentId => st.updateSession parentId fun session =>
      { session with
        childSessionIds := some ((session.childSessionIds.getD []).filter (· ≠ sessionId)) }

def hasClientRequest (st : GatewayStore) (sessionId : String) (requestId : RequestId) : Bool :=
  match st.getSession sessionId with
  | none => false
  | some session =>
    (session.recentClientRequestIds.getD []).contains requestId ||
      session.lastClientRequestId.join = some requestId

def pruneReservations {κ : Type} (reservations : OrdMap κ Nat) (now : Nat) : OrdMap κ Nat :=
  (reservations.filter (fun _ createdAt => now < createdAt+reservationTtl)).keepNewest maxReservations

def releaseClientRequest (st : GatewayStore) (sessionId : String) (requestId : RequestId) :
    GatewayStore :=
  { st with
    clientRequestReservations := st.clientRequestReservations.erase (sessionId,requestId) }

def reserveClientRequest (st : GatewayStore) (now : Nat) (sessionId : String)
    (requestId : RequestId) : GatewayStore × Bool :=
  if st.hasClientRequest sessionId requestId then (st,false)
  else
    let reservations := pruneReservations st.clientRequestReservations now
    if reservations.has (sessionId,requestId) then
      ({ st with clientRequestReservations := reservations },false)
    else
      ({ st with clientRequestReservations := reservations.set (sessionId,requestId) now },true)

/-- The ledger keeps first occurrences, oldest first, and at most 128 of them. -/
def remembered (recent : List RequestId) (requestId : RequestId) : List RequestId :=
  newest maxRecentClientRequests ((recent ++ [requestId]).eraseDups)

def rememberClientRequest (st : GatewayStore) (sessionId : String) (requestId : RequestId) :
    GatewayStore :=
  (st.releaseClientRequest sessionId requestId).updateSession sessionId fun session =>
    { session with
      recentClientRequestIds := some (remembered (session.recentClientRequestIds.getD []) requestId)
      lastClientRequestId := some (some requestId) }

/-- The session a create request led to. A record whose session is gone is dropped. -/
def getCreateRequestSession (st : GatewayStore) (requestId : RequestId) :
    GatewayStore × Option String :=
  match st.createRequests.get requestId with
  | none => (st,none)
  | some sessionId =>
    if st.sessions.has sessionId then (st,some sessionId)
    else ({ st with createRequests := st.createRequests.erase requestId },none)

def reserveCreateRequest (st : GatewayStore) (now : Nat) (requestId : RequestId) :
    GatewayStore × Bool :=
  match st.getCreateRequestSession requestId with
  | (st,some _) => (st,false)
  | (st,none) =>
    let reservations := pruneReservations st.createRequestReservations now
    if reservations.has requestId then
      ({ st with createRequestReservations := reservations },false)
    else ({ st with createRequestReservations := reservations.set requestId now },true)

def releaseCreateRequest (st : GatewayStore) (requestId : RequestId) : GatewayStore :=
  { st with createRequestReservations := st.createRequestReservations.erase requestId }

def rememberCreateRequest (st : GatewayStore) (requestId : RequestId) (sessionId : String) :
    GatewayStore :=
  { st with
    createRequestReservations := st.createRequestReservations.erase requestId
    createRequests := (st.createRequests.set requestId sessionId).keepNewest maxCreateRequests }

@[simp] theorem sessions_reserveClientRequest (st : GatewayStore) (now : Nat) (sessionId : String)
    (requestId : RequestId) :
    (st.reserveClientRequest now sessionId requestId).1.sessions = st.sessions := by
  simp only [reserveClientRequest]
  split_ifs <;> rfl

@[simp] theorem sessions_getCreateRequestSession (st : GatewayStore) (requestId : RequestId) :
    (st.getCreateRequestSession requestId).1.sessions = st.sessions := by
  unfold getCreateRequestSession
  split
  · rfl
  · split_ifs <;> rfl

@[simp] theorem sessions_reserveCreateRequest (st : GatewayStore) (now : Nat)
    (requestId : RequestId) :
    (st.reserveCreateRequest now requestId).1.sessions = st.sessions := by
  have hget := st.sessions_getCreateRequestSession requestId
  unfold reserveCreateRequest
  split
  · rename_i h
    rw [h] at hget
    exact hget
  · rename_i h
    rw [h] at hget
    dsimp only
    split_ifs <;> exact hget

theorem getSession_saveSession (st : GatewayStore) (session : GatewaySession) (id : String) :
    (st.saveSession session).getSession id =
      if id = session.id then some session else st.getSession id := by
  simp only [saveSession,getSession,OrdMap.get_set]

theorem getSession_upsertSession (st : GatewayStore) (session : GatewaySession) (id : String) :
    (st.upsertSession session).getSession id =
      if id = session.id then
        some (((st.getSession id).map (·.spread session)).getD session)
      else st.getSession id := by
  unfold upsertSession
  split
  · rename_i existing h
    rw [getSession_saveSession]
    by_cases hid : id = session.id
    · simp [hid,h,GatewaySession.spread]
    · simp [hid,GatewaySession.spread]
  · rename_i h
    rw [getSession_saveSession]
    by_cases hid : id = session.id
    · simp [hid,h]
    · simp [hid]

/-- Updaters keep the id, so the record is written back under the key it was read from. -/
theorem getSession_updateSession (st : GatewayStore) {updater : GatewaySession → GatewaySession}
    (hid : ∀ x, (updater x).id = x.id) (sessionId id : String) :
    (st.updateSession sessionId updater).getSession id =
      if id = sessionId then (st.getSession id).map updater else st.getSession id := by
  unfold updateSession
  split
  · rename_i existing h
    rw [getSession_saveSession,hid,st.keyed sessionId existing h]
    by_cases hs : id = sessionId
    · simp [hs,h]
    · simp [hs]
  · rename_i h
    by_cases hs : id = sessionId
    · simp [hs,h]
    · simp [hs]

def view {α : Type} (π : GatewaySession → α) (st : GatewayStore) (id : String) : Option α :=
  (st.getSession id).map π

def mode (st : GatewayStore) (id : String) : Option SessionPolicyMode :=
  st.view GatewaySession.sessionPolicyMode id

def recent (st : GatewayStore) (id : String) : Option (List RequestId) :=
  (st.view GatewaySession.recentClientRequestIds id).join

section views

variable {α : Type} {π : GatewaySession → α}

theorem view_updateSession (st : GatewayStore) {updater : GatewaySession → GatewaySession}
    (hid : ∀ x, (updater x).id = x.id) (hπ : ∀ x, π (updater x) = π x) (sessionId id : String) :
    (st.updateSession sessionId updater).view π id = st.view π id := by
  unfold view
  rw [getSession_updateSession st hid]
  by_cases h : id = sessionId
  · simp [h,Function.comp_def,hπ]
  · simp [h]

theorem view_linkSubagent (st : GatewayStore)
    (hchildren : ∀ x ids, π { x with childSessionIds := ids } = π x)
    (hparent : ∀ x p, π { x with parentSessionId := p } = π x) (parentId childId id : String) :
    (st.linkSubagent parentId childId).view π id = st.view π id := by
  unfold linkSubagent
  split_ifs
  · rfl
  · refine (view_updateSession _ ?_ ?_ childId id).trans ?_
    · exact fun _ => rfl
    · exact fun x => hparent x _
    · refine (view_updateSession _ ?_ ?_ parentId id).trans rfl
      · exact fun _ => rfl
      · exact fun x => hchildren x _

end views

theorem mode_saveSession (st : GatewayStore) (session : GatewaySession) (id : String) :
    (st.saveSession session).mode id =
      if id = session.id then some session.sessionPolicyMode else st.mode id := by
  unfold mode view
  rw [getSession_saveSession]
  split_ifs <;> rfl

theorem mode_upsertSession (st : GatewayStore) (session : GatewaySession) (id : String) :
    (st.upsertSession session).mode id =
      if id = session.id then some session.sessionPolicyMode else st.mode id := by
  unfold mode view
  rw [getSession_upsertSession]
  split_ifs
  · cases st.getSession id <;> rfl
  · rfl

theorem mode_updateSession (st : GatewayStore) {updater : GatewaySession → GatewaySession}
    (hid : ∀ x, (updater x).id = x.id)
    (hmode : ∀ x, (updater x).sessionPolicyMode = x.sessionPolicyMode) (sessionId id : String) :
    (st.updateSession sessionId updater).mode id = st.mode id :=
  st.view_updateSession hid hmode sessionId id

theorem mode_updateSession_set (st : GatewayStore) {updater : GatewaySession → GatewaySession}
    {m : SessionPolicyMode} (hid : ∀ x, (updater x).id = x.id)
    (hmode : ∀ x, (updater x).sessionPolicyMode = m) (sessionId id : String) :
    (st.updateSession sessionId updater).mode id =
      if id = sessionId then (st.mode id).map (fun _ => m) else st.mode id := by
  unfold mode view
  rw [getSession_updateSession st hid]
  split_ifs
  · cases st.getSession id with
    | none => rfl
    | some x => simp [hmode]
  · rfl

@[simp] theorem mode_linkSubagent (st : GatewayStore) (parentId childId id : String) :
    (st.linkSubagent parentId childId).mode id = st.mode id :=
  st.view_linkSubagent (fun _ _ => rfl) (fun _ _ => rfl) parentId childId id

@[simp] theorem mode_rememberClientRequest (st : GatewayStore) (sessionId id : String)
    (requestId : RequestId) :
    (st.rememberClientRequest sessionId requestId).mode id = st.mode id := by
  refine (mode_updateSession _ ?_ ?_ sessionId id).trans rfl
  · exact fun _ => rfl
  · exact fun _ => rfl

theorem mode_upsertSessions (st : GatewayStore) (sessions : List GatewaySession) (id : String) :
    (st.upsertSessions sessions).mode id = st.mode id ∨
    ∃ x ∈ sessions, x.id = id ∧
      (st.upsertSessions sessions).mode id = some x.sessionPolicyMode := by
  induction sessions generalizing st with
  | nil => exact .inl rfl
  | cons x xs ih =>
    rcases ih (st.upsertSession x) with h | ⟨y,hy,hid,h⟩
    · by_cases hx : id = x.id
      · refine .inr ⟨x,List.mem_cons_self,hx.symm,?_⟩
        exact h.trans (by rw [mode_upsertSession,if_pos hx])
      · refine .inl (h.trans ?_)
        rw [mode_upsertSession,if_neg hx]
    · exact .inr ⟨y,List.mem_cons_of_mem x hy,hid,h⟩

theorem mode_deleteSession (st : GatewayStore) (sessionId id : String) :
    (st.deleteSession sessionId).mode id = if id = sessionId then none else st.mode id := by
  unfold deleteSession
  dsimp only
  split
  · simp only [mode,view,getSession,OrdMap.get_erase]
    split_ifs <;> rfl
  · refine (mode_updateSession _ ?_ ?_ _ id).trans ?_
    · exact fun _ => rfl
    · exact fun _ => rfl
    · simp only [mode,view,getSession,OrdMap.get_erase]
      split_ifs <;> rfl

theorem recent_saveSession (st : GatewayStore) (session : GatewaySession) (id : String) :
    (st.saveSession session).recent id =
      if id = session.id then session.recentClientRequestIds else st.recent id := by
  unfold recent view
  rw [getSession_saveSession]
  split_ifs <;> rfl

theorem recent_upsertSession (st : GatewayStore) (session : GatewaySession) (id : String) :
    (st.upsertSession session).recent id =
      if id = session.id then session.recentClientRequestIds.or (st.recent id)
      else st.recent id := by
  unfold recent view
  rw [getSession_upsertSession]
  split_ifs
  · cases st.getSession id with
    | none => simp
    | some x => rfl
  · rfl

theorem recent_updateSession (st : GatewayStore) {updater : GatewaySession → GatewaySession}
    (hid : ∀ x, (updater x).id = x.id)
    (hrecent : ∀ x, (updater x).recentClientRequestIds = x.recentClientRequestIds)
    (sessionId id : String) : (st.updateSession sessionId updater).recent id = st.recent id := by
  unfold recent
  rw [st.view_updateSession hid hrecent]

@[simp] theorem recent_linkSubagent (st : GatewayStore) (parentId childId id : String) :
    (st.linkSubagent parentId childId).recent id = st.recent id := by
  unfold recent
  rw [st.view_linkSubagent (fun _ _ => rfl) (fun _ _ => rfl)]

theorem recent_deleteSession (st : GatewayStore) {sessionId id : String} (h : id ≠ sessionId) :
    (st.deleteSession sessionId).recent id = st.recent id := by
  unfold deleteSession
  dsimp only
  split
  · simp [recent,view,getSession,OrdMap.get_erase,h]
  · refine (recent_updateSession _ ?_ ?_ _ id).trans ?_
    · exact fun _ => rfl
    · exact fun _ => rfl
    · simp [recent,view,getSession,OrdMap.get_erase,h]

theorem recent_rememberClientRequest (st : GatewayStore) (sessionId id : String)
    (requestId : RequestId) :
    (st.rememberClientRequest sessionId requestId).recent id =
      if id = sessionId ∧ (st.getSession id).isSome then
        some (remembered ((st.recent id).getD []) requestId)
      else st.recent id := by
  unfold recent view rememberClientRequest
  rw [getSession_updateSession _ ?_]
  swap
  · exact fun _ => rfl
  have hget : (st.releaseClientRequest sessionId requestId).getSession id = st.getSession id := rfl
  rw [hget]
  by_cases h : id = sessionId
  · cases st.getSession id with
    | none => simp [h]
    | some x => simp [h]
  · simp [h]

theorem recent_upsertSessions (st : GatewayStore) {sessions : List GatewaySession}
    (h : ∀ x ∈ sessions, x.recentClientRequestIds = none) (id : String) :
    (st.upsertSessions sessions).recent id = st.recent id := by
  induction sessions generalizing st with
  | nil => rfl
  | cons x xs ih =>
    have hx := h x List.mem_cons_self
    have hrest := ih (st.upsertSession x) (fun y hy => h y (List.mem_cons_of_mem x hy))
    refine hrest.trans ?_
    rw [recent_upsertSession,hx]
    split_ifs <;> rfl

theorem hasClientRequest_of_recent {st : GatewayStore} {id : String} {r : RequestId}
    {ids : List RequestId} (h : st.recent id = some ids) (hr : r ∈ ids) :
    st.hasClientRequest id r = true := by
  unfold recent view at h
  unfold hasClientRequest
  cases hs : st.getSession id with
  | none => simp [hs] at h
  | some x =>
    have hx : x.recentClientRequestIds = some ids := by simpa [hs] using h
    simp [hx,hr]

end GatewayStore

end CodeHarbor.Gateway
