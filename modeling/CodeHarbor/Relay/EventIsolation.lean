import CodeHarbor.Relay.SyncRefinement
set_option autoImplicit false

namespace CodeHarbor.Relay
open Lib Lib.Go Lib.Sql

/-- The two stores side by side, given the same calls. `upserts` have passed the owner
query of the Postgres `upsertSession` and not yet run its statement. -/
structure Stores where
  memory : MemoryStore := {}
  postgres : PostgresStore := {}
  upserts : List SessionRecord := []
  deriving DecidableEq, Repr

def MemoryStore.ownerOf (m : MemoryStore) (sessionId : Text) : Text :=
  match m.sessions.get sessionId with
  | none => []
  | some session => session.ownerUser

def PostgresStore.ownerOf (p : PostgresStore) (sessionId : Text) : Text :=
  match p.sessions.get sessionId with
  | none => []
  | some row => readText row.ownerUser

/-- One append on one store: the owner before it, whether it was accepted, the owner after. -/
structure AppendOutcome where
  before : Text
  accepted : Bool
  after : Text
  deriving DecidableEq, Repr

inductive StoresEvent where
  | append (sessionId ownerUser : Text) (event : GatewayPayload) (memory postgres : AppendOutcome)
  deriving DecidableEq, Repr

def StoresEvent.oversized : StoresEvent → Bool
  | .append _ _ event _ _ => event.bytes > maxEventBytes

inductive StoresInput where
  | append (sessionId ownerUser : Text) (event : GatewayPayload) (relayNow databaseNow : Time)
  | sync (ownerUser deviceId : Text) (sessions : List SessionRecord) (now : Time)
  | upsertCheck (session : SessionRecord)
  | upsertWrite (pending : Nat)
  deriving DecidableEq, Repr

def Config.storesAppend (c : Config) (pg : Postgres) (s : Stores) (sessionId ownerUser : Text)
    (event : GatewayPayload) (relayNow databaseNow : Time) : Stores × List StoresEvent :=
  let memory := c.appendMemory s.memory relayNow sessionId ownerUser event
  let postgres := s.postgres.append pg databaseNow sessionId ownerUser event
  ({ s with memory := memory.1, postgres := postgres.1 },
    [.append sessionId ownerUser event
      ⟨s.memory.ownerOf sessionId,memory.2.isSome,memory.1.ownerOf sessionId⟩
      ⟨s.postgres.ownerOf sessionId,postgres.2.isSome,postgres.1.ownerOf sessionId⟩])

/-- A batch that passed the checks, on both stores. -/
def Config.storesSync (c : Config) (pg : Postgres) (s : Stores) (ownerUser deviceId : Text)
    (batch : List (NormalizedSession c)) : Stores :=
  let memory := (c.syncSessionsMemory s.memory.sessions ownerUser deviceId batch).1
  let rows :=
    match c.syncSessionsPostgres pg s.postgres.sessions ownerUser deviceId batch with
    | none => s.postgres.sessions
    | some (rows,_) => rows
  { s with
    memory := { s.memory with sessions := memory }
    postgres := { s.postgres with sessions := rows } }

def Config.storesStep (c : Config) (pg : Postgres) (s : Stores) :
    StoresInput → Stores × List StoresEvent
  | .append sessionId ownerUser event relayNow databaseNow =>
    c.storesAppend pg s sessionId ownerUser event relayNow databaseNow
  | .sync ownerUser deviceId sessions now =>
    match c.normalizeBatch now ownerUser deviceId sessions with
    | .error _ => (s,[])
    | .ok batch => (c.storesSync pg s ownerUser deviceId batch,[])
  | .upsertCheck session =>
    if s.postgres.upsertAllowed session then ({ s with upserts := s.upserts ++ [session] },[])
    else ({ s with memory := (s.memory.upsertSession session).getD s.memory },[])
  | .upsertWrite n =>
    match s.upserts[n]? with
    | none => (s,[])
    | some session =>
      ({ memory := (s.memory.upsertSession session).getD s.memory
         postgres := (s.postgres.upsertWrite pg session).getD s.postgres
         upserts := s.upserts.eraseIdx n },[])

def ownersEqual : Option SessionRecord → Option SessionRow → Prop
  | none, none => True
  | some session, some row => readText row.ownerUser = session.ownerUser ∧ row.ownerUser ≠ some []
  | _, _ => False

def OwnersEqual (memory : OrdMap Text SessionRecord) (rows : OrdMap Text SessionRow) : Prop :=
  ∀ id, ownersEqual (memory.get id) (rows.get id)

/-- Equal tables to start from; of them only the owners matter here. -/
def Config.stores (c : Config) (pg : Postgres) : Machine Stores StoresInput StoresEvent where
  init s := OwnersEqual s.memory.sessions s.postgres.sessions ∧ s.upserts = []
  step s input := c.storesStep pg s input

/-- An append is accepted on an owned session only for its owner, and makes the appending
user the owner of a session that had none. -/
def AppendOutcome.Isolated (ownerUser : Text) (o : AppendOutcome) : Prop :=
  o.accepted = true → (o.before ≠ [] → o.before = ownerUser) ∧
    (o.before = [] → ownerUser ≠ [] → o.after = ownerUser)

/-- Every append is isolated on both stores, and as long as no event exceeds the size
limit both give the same answer. -/
def AppendsIsolated : List StoresEvent → Prop :=
  Traced (fun pre e => ∀ sessionId ownerUser event memory postgres,
    e = .append sessionId ownerUser event memory postgres →
      memory.Isolated ownerUser ∧ postgres.Isolated ownerUser ∧
      ((∀ d ∈ pre ++ [e], d.oversized = false) → memory.accepted = postgres.accepted))

/-- The decision of both stores on a record that names a session without owner. -/
def Config.claimsAlike (c : Config) (ownerUser deviceId : Text)
    (incoming : NormalizedSession c) : Option SessionRecord → Option SessionRow → Bool
  | some existing, some row =>
    existing.ownerUser ≠ [] || c.takesMemory ownerUser deviceId incoming (some existing) ==
      (incoming.row ownerUser deviceId).syncCondition ownerUser deviceId row
  | _, _ => true

def Config.batchClaimsAlike (c : Config) (pg : Postgres) (ownerUser deviceId : Text) :
    OrdMap Text SessionRecord × SessionSyncResult →
      Option (OrdMap Text SessionRow × SessionSyncResult) → List (NormalizedSession c) → Bool
  | _, _, [] => true
  | memory, rows, incoming :: batch =>
    incoming.storable pg ownerUser deviceId &&
      c.claimsAlike ownerUser deviceId incoming (memory.1.get incoming.id)
        (rows.bind (·.1.get incoming.id)) &&
      c.batchClaimsAlike pg ownerUser deviceId (c.syncOneMemory ownerUser deviceId memory incoming)
        (c.syncOnePostgres pg ownerUser deviceId rows incoming) batch

/-- An append from a peer without owner finds a session without owner in Postgres; one
from an owned peer finds no session, or an owned one, in memory. The database takes the
parameters of every statement, and no sync claims a session in one store only. -/
def Config.isolates (c : Config) (pg : Postgres) (s : Stores) : StoresInput → Bool
  | .append sessionId ownerUser event _ _ =>
    pg.storable sessionId && pg.storable ownerUser && event.jsonb &&
      (ownerUser ≠ [] || s.postgres.ownerOf sessionId = []) &&
      (ownerUser = [] || (s.memory.sessions.get sessionId).all (·.ownerUser ≠ []))
  | .sync ownerUser deviceId sessions now =>
    match c.normalizeBatch now ownerUser deviceId sessions with
    | .error _ => true
    | .ok batch =>
      c.batchClaimsAlike pg ownerUser deviceId (s.memory.sessions,{}) (some (s.postgres.sessions,{}))
        batch
  | .upsertCheck _ => true
  | .upsertWrite n =>
    match s.upserts[n]? with
    | none => true
    | some session =>
      session.texts.all pg.storable && (pg.parseTimestamp session.updatedAt).isSome

section Append

variable (c : Config) (pg : Postgres) (sessionId ownerUser : Text) (event : GatewayPayload)

theorem Config.appendMemory_owner (m : MemoryStore) (now : Time) (id : Text) :
    let appended := c.appendMemory m now sessionId ownerUser event
    appended.1.sessions.get id =
      if id = sessionId ∧ m.sessions.get sessionId = none then
        some { id := sessionId, ownerUser := ownerUser, updatedAt := c.formatTime (wholeSeconds now) }
      else m.sessions.get id := by
  unfold appendMemory
  cases hget : m.sessions.get sessionId with
  | none =>
    dsimp only
    rw [OrdMap.get_set]
    by_cases hid : id = sessionId
    · simp [hid]
    · simp [hid]
  | some existing =>
    dsimp only
    split_ifs <;> simp_all

theorem Config.appendMemory_accepted (m : MemoryStore) (now : Time) :
    (c.appendMemory m now sessionId ownerUser event).2.isSome =
      decide (m.ownerOf sessionId = [] ∨ m.ownerOf sessionId = ownerUser) := by
  unfold appendMemory MemoryStore.ownerOf
  cases hget : m.sessions.get sessionId with
  | none => simp
  | some existing =>
    dsimp only
    split_ifs with hforeign
    · simp [hforeign.1,hforeign.2]
    · rw [not_and_or,not_not,not_not] at hforeign
      simp [hforeign]

/-- The row an append of Postgres leaves behind. -/
def PostgresStore.claimed (p : PostgresStore) (now : Time) (sessionId ownerUser : Text) : SessionRow :=
  match p.sessions.get sessionId with
  | none => { ownerUser := nullIfEmpty (some ownerUser), updatedAt := microseconds now }
  | some row =>
    { row with
      ownerUser := coalesce row.ownerUser (nullIfEmpty (some ownerUser))
      updatedAt := microseconds now }

/-- The parameters that the database refuses to store. -/
def PostgresStore.refuses (pg : Postgres) (sessionId ownerUser : Text) (event : GatewayPayload) :
    Prop :=
  event.bytes > maxEventBytes ∨
    (pg.storable sessionId && pg.storable ownerUser && event.jsonb) = false

theorem PostgresStore.append_spec (p : PostgresStore) (now : Time) :
    ((p.append pg now sessionId ownerUser event).2 = none ∧
      (p.append pg now sessionId ownerUser event).1 = p ∧
      (refuses pg sessionId ownerUser event ∨
        ownerUser ≠ [] ∧ (p.claimed now sessionId ownerUser).ownerUser ≠ some ownerUser)) ∨
    ((p.append pg now sessionId ownerUser event).2.isSome ∧
      (p.append pg now sessionId ownerUser event).1.sessions =
        p.sessions.set sessionId (p.claimed now sessionId ownerUser) ∧
      ¬ refuses pg sessionId ownerUser event ∧
      (ownerUser ≠ [] → (p.claimed now sessionId ownerUser).ownerUser = some ownerUser)) := by
  by_cases hrefuses : refuses pg sessionId ownerUser event
  · left
    unfold append
    rcases hrefuses with hsize | hparam
    · simp [hsize,refuses]
    · by_cases hsize : event.bytes > maxEventBytes
      · simp [hsize,refuses]
      · simp [hsize,hparam,refuses]
  · have hsize : ¬ event.bytes > maxEventBytes := fun h => hrefuses (.inl h)
    have hparam : ¬ (pg.storable sessionId && pg.storable ownerUser && event.jsonb) = false :=
      fun h => hrefuses (.inr h)
    have hwritten : (insertOnConflict p.sessions sessionId
        ({ ownerUser := nullIfEmpty (some ownerUser), updatedAt := microseconds now } : SessionRow)
        (fun stored => { stored with
          ownerUser := coalesce stored.ownerUser (nullIfEmpty (some ownerUser))
          updatedAt := microseconds now }) (fun _ => true)).1 =
        p.sessions.set sessionId (p.claimed now sessionId ownerUser) := by
      unfold claimed
      cases hget : p.sessions.get sessionId with
      | none => rw [insertOnConflict_new hget]
      | some row => rw [insertOnConflict_update hget rfl]
    unfold append
    simp only [hsize,hparam,if_false,hwritten,OrdMap.get_set,if_true,Option.bind_some]
    by_cases howner : ownerUser ≠ [] ∧ (p.claimed now sessionId ownerUser).ownerUser ≠ some ownerUser
    · left
      simp [howner]
    · right
      simp only [howner,if_false]
      refine ⟨rfl,rfl,hrefuses,?_⟩
      intro hne
      by_contra hother
      exact howner ⟨hne,hother⟩

theorem Config.appendMemory_isolated {m : MemoryStore} (now : Time)
    (hclaim : ownerUser = [] ∨ (m.sessions.get sessionId).all (·.ownerUser ≠ []) = true) :
    let appended := c.appendMemory m now sessionId ownerUser event
    AppendOutcome.Isolated ownerUser
      ⟨m.ownerOf sessionId,appended.2.isSome,appended.1.ownerOf sessionId⟩ := by
  intro appended haccepted
  have hbefore : m.ownerOf sessionId = [] ∨ m.ownerOf sessionId = ownerUser := by
    simpa [appended,appendMemory_accepted] using haccepted
  refine ⟨fun hne => hbefore.resolve_left hne,?_⟩
  intro hnil hne
  have hget : m.sessions.get sessionId = none := by
    cases hget : m.sessions.get sessionId with
    | none => rfl
    | some existing =>
      have howned : existing.ownerUser ≠ [] := by simpa [hget,hne] using hclaim
      simp only [MemoryStore.ownerOf,hget] at hnil
      exact absurd hnil howned
  have hafter := c.appendMemory_owner sessionId ownerUser event m now sessionId
  simp only [hget,and_self,if_true] at hafter
  simp only [appended,MemoryStore.ownerOf,hafter]

theorem PostgresStore.claimed_of_owned {p : PostgresStore} (now : Time)
    (hne : p.ownerOf sessionId ≠ []) :
    (p.claimed now sessionId ownerUser).ownerUser = some (p.ownerOf sessionId) := by
  unfold ownerOf at *
  unfold claimed
  cases hget : p.sessions.get sessionId with
  | none => simp [hget] at hne
  | some row =>
    cases howner : row.ownerUser with
    | none => simp [hget,howner] at hne
    | some owner => simp [howner,coalesce]

theorem PostgresStore.append_isolated {p : PostgresStore} (now : Time)
    (howned : ownerUser ≠ [] ∨ p.ownerOf sessionId = []) :
    let appended := p.append pg now sessionId ownerUser event
    AppendOutcome.Isolated ownerUser
      ⟨p.ownerOf sessionId,appended.2.isSome,appended.1.ownerOf sessionId⟩ := by
  intro appended haccepted
  rcases append_spec pg sessionId ownerUser event p now with ⟨hnone,-⟩ |
    ⟨-,hsessions,-,hclaimed⟩
  · simp [appended,hnone] at haccepted
  · refine ⟨?_,?_⟩
    · intro hne
      have huser : ownerUser ≠ [] := howned.resolve_right hne
      have hsame := claimed_of_owned sessionId ownerUser now hne
      rw [hclaimed huser] at hsame
      exact (Option.some.inj hsame).symm
    · intro _ huser
      simp only [appended,ownerOf,hsessions,OrdMap.get_set,if_true,hclaimed huser,readText_some]

theorem PostgresStore.claimed_equal {m : MemoryStore} {p : PostgresStore} (relayNow databaseNow : Time)
    (h : OwnersEqual m.sessions p.sessions)
    (hclaim : ownerUser = [] ∨ (m.sessions.get sessionId).all (·.ownerUser ≠ []) = true) :
    ownersEqual ((c.appendMemory m relayNow sessionId ownerUser event).1.sessions.get sessionId)
      (some (p.claimed databaseNow sessionId ownerUser)) := by
  have hid := h sessionId
  rw [c.appendMemory_owner sessionId ownerUser event m relayNow sessionId]
  unfold claimed
  cases hget : m.sessions.get sessionId with
  | none =>
    cases hrow : p.sessions.get sessionId with
    | some row => simp [ownersEqual,hget,hrow] at hid
    | none =>
      cases ownerUser with
      | nil => simp [ownersEqual,nullIfEmpty]
      | cons ch rest => simp [ownersEqual,nullIfEmpty]
  | some existing =>
    cases hrow : p.sessions.get sessionId with
    | none => simp [ownersEqual,hget,hrow] at hid
    | some row =>
      simp only [ownersEqual,hget,hrow] at hid
      rw [if_neg (by simp)]
      cases hcolumn : row.ownerUser with
      | some owner => simpa [ownersEqual,coalesce,hcolumn] using hid
      | none =>
        -- the session has no owner, so neither has the appending peer
        simp only [hcolumn,readText_none] at hid
        have hnil : ownerUser = [] := by simpa [hget,← hid.1] using hclaim
        simp [ownersEqual,coalesce,nullIfEmpty,hcolumn,hnil,← hid.1]

theorem PostgresStore.claimed_iff {m : MemoryStore} {p : PostgresStore} (now : Time)
    (h : OwnersEqual m.sessions p.sessions) (howned : ownerUser ≠ [] ∨ p.ownerOf sessionId = [])
    (hclaim : ownerUser = [] ∨ (m.sessions.get sessionId).all (·.ownerUser ≠ []) = true) :
    (ownerUser = [] ∨ (p.claimed now sessionId ownerUser).ownerUser = some ownerUser) ↔
      (m.ownerOf sessionId = [] ∨ m.ownerOf sessionId = ownerUser) := by
  have hid := h sessionId
  unfold ownerOf at howned
  unfold claimed MemoryStore.ownerOf
  cases hget : m.sessions.get sessionId with
  | none =>
    cases hrow : p.sessions.get sessionId with
    | some row => simp [ownersEqual,hget,hrow] at hid
    | none => cases ownerUser <;> simp [nullIfEmpty]
  | some existing =>
    cases hrow : p.sessions.get sessionId with
    | none => simp [ownersEqual,hget,hrow] at hid
    | some row =>
      simp only [ownersEqual,hget,hrow] at hid
      simp only [hrow] at howned
      by_cases hnil : ownerUser = []
      · have hunowned : existing.ownerUser = [] := by
          rw [← hid.1]
          exact howned.resolve_left (fun hne => hne hnil)
        simp [hnil,hunowned]
      · have hne : existing.ownerUser ≠ [] := by simpa [hget,hnil] using hclaim
        cases hcolumn : row.ownerUser with
        | none => simp [hcolumn,hne] at hid
        | some owner =>
          have howner : owner = existing.ownerUser := by simpa [hcolumn] using hid.1
          simp [hnil,hne,coalesce,hcolumn,howner]

/-- Within the size limit both stores answer an append alike and still agree on owners. -/
theorem Config.append_equal {m : MemoryStore} {p : PostgresStore} (relayNow databaseNow : Time)
    (h : OwnersEqual m.sessions p.sessions) (hsize : ¬ event.bytes > maxEventBytes)
    (hparam : (pg.storable sessionId && pg.storable ownerUser && event.jsonb) = true)
    (howned : ownerUser ≠ [] ∨ p.ownerOf sessionId = [])
    (hclaim : ownerUser = [] ∨ (m.sessions.get sessionId).all (·.ownerUser ≠ []) = true) :
    (c.appendMemory m relayNow sessionId ownerUser event).2.isSome =
        (p.append pg databaseNow sessionId ownerUser event).2.isSome ∧
      OwnersEqual (c.appendMemory m relayNow sessionId ownerUser event).1.sessions
        (p.append pg databaseNow sessionId ownerUser event).1.sessions := by
  have hmemory := c.appendMemory_owner sessionId ownerUser event m relayNow
  have haccepted := c.appendMemory_accepted sessionId ownerUser event m relayNow
  have hclaimed := PostgresStore.claimed_equal c sessionId ownerUser event relayNow databaseNow h hclaim
  have hiff := PostgresStore.claimed_iff sessionId ownerUser databaseNow h howned hclaim
  rcases PostgresStore.append_spec pg sessionId ownerUser event p databaseNow with
    ⟨hnone,hkept,hwhy⟩ | ⟨hsome,hsessions,-,howner⟩
  · have hforeign : ownerUser ≠ [] ∧
        (p.claimed databaseNow sessionId ownerUser).ownerUser ≠ some ownerUser := by
      refine hwhy.resolve_left ?_
      rintro (hover | hrefused)
      · exact hsize hover
      · rw [hparam] at hrefused
        cases hrefused
    have hrejected : ¬ (m.ownerOf sessionId = [] ∨ m.ownerOf sessionId = ownerUser) := by
      rw [← hiff]
      exact fun hor => hor.elim hforeign.1 hforeign.2
    have hstored : m.sessions.get sessionId ≠ none := by
      intro hget
      exact hrejected (.inl (by simp [MemoryStore.ownerOf,hget]))
    refine ⟨by simp [haccepted,hnone,hrejected],?_⟩
    intro id
    rw [hmemory id,if_neg (fun hboth => hstored hboth.2),hkept]
    exact h id
  · have htaken : m.ownerOf sessionId = [] ∨ m.ownerOf sessionId = ownerUser := by
      rw [← hiff]
      by_cases hnil : ownerUser = []
      · exact .inl hnil
      · exact .inr (howner hnil)
    refine ⟨by simp [haccepted,hsome,htaken],?_⟩
    intro id
    rw [hsessions,OrdMap.get_set]
    split_ifs with hid
    · rw [hid]
      exact hclaimed
    · rw [hmemory id,if_neg (fun hboth => hid hboth.1)]
      exact h id

end Append

section Owners

variable {c : Config} {pg : Postgres} {memory : OrdMap Text SessionRecord}
  {rows : OrdMap Text SessionRow}

theorem OwnersEqual.set (h : OwnersEqual memory rows) {id : Text} {session : SessionRecord}
    {row : SessionRow} (he : ownersEqual (some session) (some row)) :
    OwnersEqual (memory.set id session) (rows.set id row) := by
  intro other
  rw [OrdMap.get_set,OrdMap.get_set]
  split_ifs
  · exact he
  · exact h other

theorem OwnersEqual.set_memory (h : OwnersEqual memory rows) {id : Text} {session : SessionRecord}
    (he : ownersEqual (some session) (rows.get id)) : OwnersEqual (memory.set id session) rows := by
  intro other
  rw [OrdMap.get_set]
  split_ifs with hid
  · rw [hid]
    exact he
  · exact h other

theorem OwnersEqual.set_row (h : OwnersEqual memory rows) {id : Text} {row : SessionRow}
    (he : ownersEqual (memory.get id) (some row)) : OwnersEqual memory (rows.set id row) := by
  intro other
  rw [OrdMap.get_set]
  split_ifs with hid
  · rw [hid]
    exact he
  · exact h other

theorem Config.syncOne_owners (h : OwnersEqual memory rows) {ownerUser deviceId : Text}
    (howner : ownerUser ≠ []) (result result' : SessionSyncResult) {incoming : NormalizedSession c}
    (hstore : incoming.storable pg ownerUser deviceId = true)
    (halike : c.claimsAlike ownerUser deviceId incoming (memory.get incoming.id)
      (rows.get incoming.id) = true) :
    ∃ rows' result'', c.syncOnePostgres pg ownerUser deviceId (some (rows,result')) incoming =
        some (rows',result'') ∧
      OwnersEqual (c.syncOneMemory ownerUser deviceId (memory,result) incoming).1 rows' := by
  rw [syncOnePostgres_some hstore]
  refine ⟨_,_,rfl,?_⟩
  have hid := h incoming.id
  cases hget : memory.get incoming.id with
  | none =>
    cases hrow : rows.get incoming.id with
    | some row => simp [ownersEqual,hget,hrow] at hid
    | none =>
      rw [insertOnConflict_new hrow,syncOneMemory_takes (by simp [takesMemory,hget])]
      exact h.set ⟨rfl,by simpa [NormalizedSession.row] using howner⟩
  | some existing =>
    cases hrow : rows.get incoming.id with
    | none => simp [ownersEqual,hget,hrow] at hid
    | some row =>
      simp only [ownersEqual,hget,hrow] at hid
      have hupdated : existing.ownerUser = [] ∨ existing.ownerUser = ownerUser →
          ownersEqual (some (incoming.owned ownerUser deviceId))
            (some ((incoming.row ownerUser deviceId).syncUpdate row)) := by
        intro hfree
        have hreads : readText ((incoming.row ownerUser deviceId).syncUpdate row).ownerUser =
            ownerUser := by
          simp only [SessionRow.syncUpdate,NormalizedSession.row,readText_coalesce,readText_some,hid.1]
          rcases hfree with hnil | hsame
          · simp [hnil]
          · simp [hsame,howner]
        refine ⟨hreads,?_⟩
        intro hempty
        rw [hempty,readText_some] at hreads
        exact howner hreads.symm
      have howned : c.takesMemory ownerUser deviceId incoming (some existing) = true →
          existing.ownerUser = [] ∨ existing.ownerUser = ownerUser := by
        intro htakes
        simp only [takesMemory,sessionOwnedBy,Bool.and_eq_true,Bool.or_eq_true,
          decide_eq_true_eq] at htakes
        exact htakes.1.1
      have hcolumn : (incoming.row ownerUser deviceId).syncCondition ownerUser deviceId row = true →
          existing.ownerUser = [] ∨ existing.ownerUser = ownerUser := by
        intro hcondition
        rw [← hid.1]
        exact (nullOr_iff row.ownerUser ownerUser).mp (SessionRow.syncCondition_iff.mp hcondition).1
      cases htakes : c.takesMemory ownerUser deviceId incoming (some existing) with
      | true =>
        rw [syncOneMemory_takes (by rw [hget]; exact htakes)]
        cases hcondition : (incoming.row ownerUser deviceId).syncCondition ownerUser deviceId row with
        | true =>
          rw [insertOnConflict_update hrow hcondition]
          exact h.set (hupdated (howned htakes))
        | false =>
          rw [insertOnConflict_skip hrow hcondition]
          apply h.set_memory
          rw [hrow]
          have hne : existing.ownerUser ≠ [] := by
            simpa [claimsAlike,hget,hrow,htakes,hcondition] using halike
          exact ⟨hid.1.trans ((howned htakes).resolve_left hne),hid.2⟩
      | false =>
        rw [syncOneMemory_skips (by rw [hget]; exact htakes)]
        cases hcondition : (incoming.row ownerUser deviceId).syncCondition ownerUser deviceId row with
        | true =>
          rw [insertOnConflict_update hrow hcondition]
          apply h.set_row
          rw [hget]
          have hne : existing.ownerUser ≠ [] := by
            simpa [claimsAlike,hget,hrow,htakes,hcondition] using halike
          have hsame := (hcolumn hcondition).resolve_left hne
          have hnew := hupdated (.inr hsame)
          exact ⟨hnew.1.trans hsame.symm,hnew.2⟩
        | false =>
          rw [insertOnConflict_skip hrow hcondition]
          exact h

theorem Config.syncSessions_owners {ownerUser deviceId : Text} (howner : ownerUser ≠ [])
    (batch : List (NormalizedSession c)) (h : OwnersEqual memory rows)
    (result result' : SessionSyncResult)
    (halike : c.batchClaimsAlike pg ownerUser deviceId (memory,result) (some (rows,result')) batch =
      true) :
    ∃ rows' result'', batch.foldl (c.syncOnePostgres pg ownerUser deviceId) (some (rows,result')) =
        some (rows',result'') ∧
      OwnersEqual (batch.foldl (c.syncOneMemory ownerUser deviceId) (memory,result)).1 rows' := by
  induction batch generalizing memory rows result result' with
  | nil => exact ⟨rows,result',rfl,h⟩
  | cons incoming batch ih =>
    simp only [batchClaimsAlike,Bool.and_eq_true,Option.bind_some] at halike
    obtain ⟨⟨hstore,hfirst⟩,hrest⟩ := halike
    obtain ⟨rows',result'',hwritten,howners⟩ := syncOne_owners h howner result result' hstore hfirst
    rw [List.foldl_cons,List.foldl_cons,hwritten]
    rw [hwritten] at hrest
    exact ih howners _ _ hrest

theorem Config.storesSync_owners {s : Stores} {ownerUser deviceId : Text} (howner : ownerUser ≠ [])
    {batch : List (NormalizedSession c)} (h : OwnersEqual s.memory.sessions s.postgres.sessions)
    (halike : c.batchClaimsAlike pg ownerUser deviceId (s.memory.sessions,{})
      (some (s.postgres.sessions,{})) batch = true) :
    let s' := c.storesSync pg s ownerUser deviceId batch
    OwnersEqual s'.memory.sessions s'.postgres.sessions := by
  obtain ⟨rows,result,hwritten,howners⟩ := syncSessions_owners howner batch h {} {} halike
  have hpostgres : c.syncSessionsPostgres pg s.postgres.sessions ownerUser deviceId batch =
      some (rows,result) := hwritten
  simp only [storesSync,hpostgres]
  exact howners

theorem Config.normalizeBatch_owner {now : Time} {ownerUser deviceId : Text}
    {sessions : List SessionRecord} {batch : List (NormalizedSession c)}
    (h : c.normalizeBatch now ownerUser deviceId sessions = .ok batch) : ownerUser ≠ [] := by
  rintro rfl
  simp [normalizeBatch,trimSpace,trimLeft] at h

theorem MemoryStore.upsertSession_owners {m : MemoryStore} {p : PostgresStore}
    (h : OwnersEqual m.sessions p.sessions) {session : SessionRecord}
    (hparam : session.texts.all pg.storable = true)
    (htime : (pg.parseTimestamp session.updatedAt).isSome = true) :
    OwnersEqual ((m.upsertSession session).getD m).sessions
      ((p.upsertWrite pg session).getD p).sessions := by
  obtain ⟨updatedAt,hparsed⟩ := Option.isSome_iff_exists.mp htime
  have hid := h session.id
  have hnew : readText (nullIfEmpty (some session.ownerUser)) = session.ownerUser :=
    readText_nullIfEmpty _
  have hnonempty : nullIfEmpty (some session.ownerUser) ≠ some [] := by
    cases session.ownerUser <;> simp [nullIfEmpty]
  unfold upsertSession PostgresStore.upsertWrite
  simp only [hparam,hparsed,Bool.true_eq_false,if_false,Option.getD_some]
  cases hget : m.sessions.get session.id with
  | none =>
    cases hrow : p.sessions.get session.id with
    | some row => simp [ownersEqual,hget,hrow] at hid
    | none =>
      rw [insertOnConflict_new hrow]
      exact h.set ⟨hnew,hnonempty⟩
  | some previous =>
    cases hrow : p.sessions.get session.id with
    | none => simp [ownersEqual,hget,hrow] at hid
    | some row =>
      simp only [ownersEqual,hget,hrow] at hid
      rw [insertOnConflict_update hrow rfl]
      cases hcolumn : row.ownerUser with
      | none =>
        have hnil : previous.ownerUser = [] := by simpa [hcolumn] using hid.1.symm
        simp only [hnil,ne_eq,not_true_eq_false,false_and,if_false,Option.getD_some]
        apply h.set
        simp only [ownersEqual,coalesce,Option.none_or,hnew]
        refine ⟨?_,hnonempty⟩
        split_ifs with hempty
        · exact hempty
        · rfl
      | some owner =>
        have howner : owner = previous.ownerUser := by simpa [hcolumn] using hid.1
        have hne : owner ≠ [] := fun hnil => hid.2 (by rw [hcolumn,hnil])
        subst howner
        dsimp only
        by_cases hforeign : session.ownerUser ≠ [] ∧ previous.ownerUser ≠ session.ownerUser
        · rw [if_pos ⟨hne,hforeign⟩]
          apply h.set_row
          rw [hget]
          exact ⟨by simp [coalesce],by simpa [coalesce] using hne⟩
        · rw [if_neg (fun hboth => hforeign hboth.2)]
          apply h.set
          refine ⟨?_,by simpa [coalesce] using hne⟩
          simp only [coalesce,Option.some_or,readText_some]
          split_ifs with hempty
          · rfl
          · by_contra hdiff
            exact hforeign ⟨hempty,hdiff⟩

theorem MemoryStore.upsertSession_refused {m : MemoryStore} {p : PostgresStore}
    (h : OwnersEqual m.sessions p.sessions) {session : SessionRecord}
    (hrefused : p.upsertAllowed session = false) : m.upsertSession session = none := by
  have hid := h session.id
  unfold PostgresStore.upsertAllowed at hrefused
  cases hrow : p.sessions.get session.id with
  | none => simp [hrow] at hrefused
  | some row =>
    cases hget : m.sessions.get session.id with
    | none => simp [ownersEqual,hget,hrow] at hid
    | some previous =>
      simp only [ownersEqual,hget,hrow] at hid
      simp only [hrow,hid.1,Bool.or_eq_false_iff,decide_eq_false_iff_not] at hrefused
      simp [upsertSession,hget,hrefused.1.1,hrefused.1.2,hrefused.2]

end Owners

section Runs

variable {c : Config} {pg : Postgres}

/-- The owners agree unless an event was too large for Postgres. -/
def Stores.AgreeWithin (tr : List StoresEvent) (s : Stores) : Prop :=
  (∀ e ∈ tr, e.oversized = false) → OwnersEqual s.memory.sessions s.postgres.sessions

theorem Config.storesAppend_step {tr : List StoresEvent} {s : Stores} (h : s.AgreeWithin tr)
    (htr : AppendsIsolated tr) {sessionId ownerUser : Text} {event : GatewayPayload}
    {relayNow databaseNow : Time}
    (hok : c.isolates pg s (.append sessionId ownerUser event relayNow databaseNow) = true) :
    let stepped := c.storesAppend pg s sessionId ownerUser event relayNow databaseNow
    stepped.1.AgreeWithin (tr ++ stepped.2) ∧ AppendsIsolated (tr ++ stepped.2) := by
  simp only [isolates,Bool.and_eq_true,Bool.or_eq_true,decide_eq_true_eq] at hok
  obtain ⟨⟨hparam,howned⟩,hclaim⟩ := hok
  have hparam : (pg.storable sessionId && pg.storable ownerUser && event.jsonb) = true := by
    simpa [Bool.and_eq_true] using hparam
  have hequal : (∀ e ∈ tr ++ (c.storesAppend pg s sessionId ownerUser event relayNow databaseNow).2,
      e.oversized = false) → _ := fun hsmall =>
    c.append_equal pg sessionId ownerUser event relayNow databaseNow
      (h (fun e he => hsmall e (List.mem_append_left _ he)))
      (by simpa [StoresEvent.oversized] using hsmall _ (List.mem_append_right _ List.mem_cons_self))
      hparam howned hclaim
  refine ⟨fun hsmall => (hequal hsmall).2,traced_snoc.mpr ⟨htr,?_⟩⟩
  intro sessionId' ownerUser' event' memory postgres heq
  cases heq
  exact ⟨c.appendMemory_isolated sessionId ownerUser event relayNow hclaim,
    PostgresStore.append_isolated pg sessionId ownerUser event databaseNow howned,
    fun hsmall => (hequal hsmall).1⟩

theorem Config.stores_step {tr : List StoresEvent} {s : Stores} (input : StoresInput)
    (h : s.AgreeWithin tr) (htr : AppendsIsolated tr) (hok : c.isolates pg s input = true) :
    (c.storesStep pg s input).1.AgreeWithin (tr ++ (c.storesStep pg s input).2) ∧
      AppendsIsolated (tr ++ (c.storesStep pg s input).2) := by
  cases input with
  | append sessionId ownerUser event relayNow databaseNow => exact storesAppend_step h htr hok
  | sync ownerUser deviceId sessions now =>
    simp only [storesStep,isolates] at *
    cases hbatch : c.normalizeBatch now ownerUser deviceId sessions with
    | error e => simpa using ⟨h,htr⟩
    | ok batch =>
      simp only [hbatch] at hok
      refine ⟨?_,by simpa using htr⟩
      intro hsmall
      simp only [List.append_nil] at hsmall
      exact storesSync_owners (normalizeBatch_owner hbatch) (h hsmall) hok
  | upsertCheck session =>
    simp only [storesStep]
    cases hallowed : s.postgres.upsertAllowed session with
    | true => simpa using ⟨h,htr⟩
    | false =>
      refine ⟨?_,by simpa using htr⟩
      intro hsmall
      simp only [Bool.false_eq_true,if_false,List.append_nil] at hsmall ⊢
      rw [MemoryStore.upsertSession_refused (h hsmall) hallowed]
      exact h hsmall
  | upsertWrite n =>
    simp only [storesStep,isolates] at *
    cases hn : s.upserts[n]? with
    | none => simpa using ⟨h,htr⟩
    | some session =>
      simp only [hn,Bool.and_eq_true] at hok
      refine ⟨?_,by simpa using htr⟩
      intro hsmall
      simp only [List.append_nil] at hsmall
      exact MemoryStore.upsertSession_owners (h hsmall) hok.1 hok.2

/-- In every run from tables with equal owners whose steps all meet the condition, events
are isolated by owner on both stores, owned peers claim what has no owner, and the stores
answer all appends alike. -/
theorem Config.stores_isolated (c : Config) (pg : Postgres) {tr : List StoresEvent} {s : Stores}
    (hr : (c.stores pg).Run (fun _ s input => c.isolates pg s input = true) tr s) :
    AppendsIsolated tr := by
  have hinv : s.AgreeWithin tr ∧ AppendsIsolated tr := by
    refine Machine.Run.invariant (P := fun tr s => s.AgreeWithin tr ∧ AppendsIsolated tr) ?_ ?_ hr
    · rintro s ⟨howners,-⟩
      exact ⟨fun _ => howners,Traced.nil _⟩
    · rintro tr s input ⟨hagree,htr⟩ hok
      exact stores_step input hagree htr hok
  exact hinv.2

end Runs

namespace Sample

def sessionId : Text := "s1".toList

def appendBy (ownerUser : Text) : StoresInput :=
  .append sessionId ownerUser { bytes := 40 } tenInstant tenInstant

def appends (ownerUsers : List Text) : List StoresEvent :=
  ((clock.stores postgres).exec [] {} (ownerUsers.map appendBy)).1

end Sample

/-- Two appends of the owner and one of another user. -/
theorem appends_of_owner_isolated : AppendsIsolated (Sample.appends [Sample.amy,Sample.amy,"bob".toList]) := by
  refine Config.stores_isolated Sample.clock Sample.postgres (s := ((Sample.clock.stores
    Sample.postgres).exec [] {} _).2) (Machine.Run.exec _ (.start ?_) ?_)
  · exact ⟨fun _ => trivial,rfl⟩
  · decide

/-- Postgres takes an event of an unpaired peer into an owned session, and memory leaves a
session without owner to nobody when an owned peer appends to it. -/
theorem appends_not_isolated :
    ¬ AppendsIsolated (Sample.appends [Sample.amy,[]]) ∧
      ¬ AppendsIsolated (Sample.appends [[],Sample.amy]) := by
  constructor
  · intro h
    have htrace : Sample.appends [Sample.amy,[]] =
        [.append Sample.sessionId Sample.amy { bytes := 40 } ⟨[],true,Sample.amy⟩ ⟨[],true,Sample.amy⟩] ++
        StoresEvent.append Sample.sessionId [] { bytes := 40 } ⟨Sample.amy,false,Sample.amy⟩
          ⟨Sample.amy,true,Sample.amy⟩ :: [] := by decide
    have hpostgres := (h _ _ _ htrace _ _ _ _ _ rfl).2.1 rfl
    exact absurd (hpostgres.1 (by decide)) (by decide)
  · intro h
    have htrace : Sample.appends [[],Sample.amy] =
        [.append Sample.sessionId [] { bytes := 40 } ⟨[],true,[]⟩ ⟨[],true,[]⟩] ++
        StoresEvent.append Sample.sessionId Sample.amy { bytes := 40 } ⟨[],true,[]⟩
          ⟨[],true,Sample.amy⟩ :: [] := by decide
    have hmemory := (h _ _ _ htrace _ _ _ _ _ rfl).1 rfl
    exact absurd (hmemory.2 rfl (by decide)) (by decide)

end CodeHarbor.Relay
