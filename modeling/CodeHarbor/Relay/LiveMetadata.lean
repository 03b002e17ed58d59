import CodeHarbor.Relay.EventIsolation
set_option autoImplicit false

namespace CodeHarbor.Relay
open Lib Lib.Go Lib.Sql

/-! Live events and metadata syncs of one session. An append carries the clocks of the
relay and of the database, a sync the time texts of the device. -/

inductive LiveInput where
  | append (sessionId ownerUser : Text) (event : GatewayPayload) (relayNow databaseNow : Time)
  | sync (ownerUser deviceId : Text) (sessions : List SessionRecord) (now : Time)
  deriving DecidableEq, Repr

/-- A sync that passed the checks: its records with their instants, and what the stores
hold after it. The rows are missing when the transaction was rolled back. -/
inductive LiveEvent where
  | synced (batch : List (SessionRecord × Time)) (memory : OrdMap Text SessionRecord)
      (rows : Option (OrdMap Text SessionRow))
  deriving DecidableEq, Repr

def Config.liveStep (c : Config) (pg : Postgres) (s : Stores) :
    LiveInput → Stores × List LiveEvent
  | .append sessionId ownerUser event relayNow databaseNow =>
    ((c.storesAppend pg s sessionId ownerUser event relayNow databaseNow).1,[])
  | .sync ownerUser deviceId sessions now =>
    match c.normalizeBatch now ownerUser deviceId sessions with
    | .error _ => (s,[])
    | .ok batch =>
      (c.storesSync pg s ownerUser deviceId batch,
        [.synced (batch.map (fun x => (x.toSessionRecord,x.instant)))
          (c.syncSessionsMemory s.memory.sessions ownerUser deviceId batch).1
          ((c.syncSessionsPostgres pg s.postgres.sessions ownerUser deviceId batch).map (·.1))])

def Config.liveStores (c : Config) (pg : Postgres) (sessionId : Text) :
    Machine Stores LiveInput LiveEvent where
  init s := s.memory.sessions.get sessionId = none ∧ s.postgres.sessions.get sessionId = none
  step s input := c.liveStep pg s input

def SessionRecord.sameMetadata (stored sent : SessionRecord) : Prop :=
  stored.status = sent.status ∧ stored.title = sent.title ∧
    stored.sessionPolicyMode = sent.sessionPolicyMode

def SessionRow.sameMetadata (stored : SessionRow) (sent : SessionRecord) : Prop :=
  readText stored.status = sent.status ∧ readText stored.title = sent.title ∧
    stored.sessionPolicyMode = sent.sessionPolicyMode

/-- After a sync containing the session the store in memory holds what its last record for the
session says. -/
def LiveEvent.reachedMemory (sessionId : Text) : LiveEvent → Prop
  | .synced batch memory _ =>
    ∀ sent ∈ (batch.filter (·.1.id = sessionId)).getLast?,
      ∃ stored ∈ memory.get sessionId, stored.sameMetadata sent.1

/-- And so does Postgres, when it committed the sync. -/
def LiveEvent.reachedPostgres (sessionId : Text) : LiveEvent → Prop
  | .synced batch _ rows =>
    ∀ sent ∈ (batch.filter (·.1.id = sessionId)).getLast?,
      ∀ table ∈ rows, ∃ stored ∈ table.get sessionId, stored.sameMetadata sent.1

def LiveEvent.reached (sessionId : Text) (e : LiveEvent) : Prop :=
  e.reachedMemory sessionId ∧ e.reachedPostgres sessionId

instance (stored sent : SessionRecord) : Decidable (stored.sameMetadata sent) :=
  inferInstanceAs (Decidable (_ ∧ _))

instance (stored : SessionRow) (sent : SessionRecord) : Decidable (stored.sameMetadata sent) :=
  inferInstanceAs (Decidable (_ ∧ _))

instance (sessionId : Text) : (e : LiveEvent) → Decidable (e.reachedMemory sessionId)
  | .synced batch memory _ =>
    inferInstanceAs (Decidable (∀ sent ∈ (batch.filter (·.1.id = sessionId)).getLast?,
      ∃ stored ∈ memory.get sessionId, stored.sameMetadata sent.1))

instance (sessionId : Text) : (e : LiveEvent) → Decidable (e.reachedPostgres sessionId)
  | .synced batch _ rows =>
    inferInstanceAs (Decidable (∀ sent ∈ (batch.filter (·.1.id = sessionId)).getLast?,
      ∀ table ∈ rows, ∃ stored ∈ table.get sessionId, stored.sameMetadata sent.1))

instance (sessionId : Text) (e : LiveEvent) : Decidable (e.reached sessionId) :=
  inferInstanceAs (Decidable (_ ∧ _))

def LiveEvent.instants (sessionId : Text) : LiveEvent → List Time
  | .synced batch _ _ => (batch.filter (·.1.id = sessionId)).map (·.2)

def syncInstants (sessionId : Text) (tr : List LiveEvent) : List Time :=
  tr.flatMap (·.instants sessionId)

/-- Appends to the session and syncs of it come from the device of its owner, whose sync
instants never go back. -/
def Config.fromOwningDevice (c : Config) (sessionId ownerUser deviceId : Text)
    (tr : List LiveEvent) : LiveInput → Bool
  | .append id user _ _ _ => id ≠ sessionId || user = ownerUser || user = []
  | .sync user device sessions now =>
    match c.normalizeBatch now user device sessions with
    | .error _ => true
    | .ok batch =>
      let own := batch.filter (·.id = sessionId)
      own = [] || user = ownerUser && device = deviceId &&
        (syncInstants sessionId tr ++ own.map (·.instant)).Pairwise (· ≤ ·)

/-- No record is older than the stored row, unless the row lacks a title or a path. -/
def Config.notOverdue (c : Config) (sessionId : Text) (s : Stores) : LiveInput → Bool
  | .append _ _ _ _ _ => true
  | .sync user device sessions now =>
    match c.normalizeBatch now user device sessions with
    | .error _ => true
    | .ok batch =>
      (batch.filter (·.id = sessionId)).all (fun x =>
        (s.postgres.sessions.get sessionId).all (fun row =>
          row.updatedAt ≤ microseconds x.instant || readText row.title = [] ||
            readText row.workspacePath = []))

section Settle

variable {ε ξ : Type} (takes : Option ε → ξ → Bool) (put : Option ε → ξ → ε)

/-- One stored entry and a record for it: replaced if taken, kept otherwise. -/
def settle (entry : Option ε) (x : ξ) : Option ε := if takes entry x then some (put entry x) else entry

theorem foldl_settle_last {R : ξ → ξ → Prop} {xs : List ξ} {z : ξ} {entry : Option ε}
    (hfirst : ∀ x ∈ xs, takes entry x = true)
    (hnext : ∀ e x y, takes e x = true → R x y → takes (some (put e x)) y = true)
    (hxs : xs.Pairwise R) (hz : xs.getLast? = some z) :
    ∃ e, takes e z = true ∧ xs.foldl (settle takes put) entry = some (put e z) := by
  induction xs generalizing entry with
  | nil => simp at hz
  | cons x xs ih =>
    have htakes := hfirst x List.mem_cons_self
    have hx : settle takes put entry x = some (put entry x) := by simp [settle,htakes]
    rw [List.foldl_cons,hx]
    rw [List.pairwise_cons] at hxs
    cases hlast : xs.getLast? with
    | none =>
      have hnil : xs = [] := List.getLast?_eq_none_iff.mp hlast
      subst hnil
      simp only [List.getLast?_singleton,Option.some.injEq] at hz
      subst hz
      exact ⟨entry,htakes,rfl⟩
    | some w =>
      have hwz : w = z := by
        rw [List.getLast?_cons,hlast] at hz
        simpa using hz
      subst hwz
      exact ih (fun y hy => hnext entry x y htakes (hxs.1 y hy)) hxs.2 hlast

end Settle

section Entries

variable {c : Config} {pg : Postgres} {ownerUser deviceId sessionId : Text}

/-- The row a statement of a sync leaves when it takes effect. -/
def NormalizedSession.merged (ownerUser deviceId : Text) (stored : Option SessionRow)
    (x : NormalizedSession c) : SessionRow :=
  match stored with
  | none => x.row ownerUser deviceId
  | some row => (x.row ownerUser deviceId).syncUpdate row

def NormalizedSession.takesRow (ownerUser deviceId : Text) (stored : Option SessionRow)
    (x : NormalizedSession c) : Bool :=
  stored.all ((x.row ownerUser deviceId).syncCondition ownerUser deviceId)

theorem Config.syncOneMemory_get (state : OrdMap Text SessionRecord × SessionSyncResult)
    (x : NormalizedSession c) :
    (c.syncOneMemory ownerUser deviceId state x).1.get sessionId =
      if x.id = sessionId then
        settle (fun e x => c.takesMemory ownerUser deviceId x e)
          (fun _ x => x.owned ownerUser deviceId) (state.1.get sessionId) x
      else state.1.get sessionId := by
  obtain ⟨sessions,result⟩ := state
  cases htakes : c.takesMemory ownerUser deviceId x (sessions.get x.id) with
  | true =>
    rw [syncOneMemory_takes htakes,OrdMap.get_set]
    by_cases hid : x.id = sessionId
    · subst hid
      simp [settle,htakes]
    · simp [hid,Ne.symm hid]
  | false =>
    rw [syncOneMemory_skips htakes]
    split_ifs with hid
    · subst hid
      simp [settle,htakes]
    · rfl

theorem Config.syncSessionsMemory_get (sessions : OrdMap Text SessionRecord)
    (batch : List (NormalizedSession c)) :
    (c.syncSessionsMemory sessions ownerUser deviceId batch).1.get sessionId =
      (batch.filter (·.id = sessionId)).foldl
        (settle (fun e x => c.takesMemory ownerUser deviceId x e)
          (fun _ x => x.owned ownerUser deviceId)) (sessions.get sessionId) := by
  unfold syncSessionsMemory
  generalize ({} : SessionSyncResult) = result
  have hgeneral : ∀ state : OrdMap Text SessionRecord × SessionSyncResult,
      (batch.foldl (c.syncOneMemory ownerUser deviceId) state).1.get sessionId =
        (batch.filter (·.id = sessionId)).foldl
          (settle (fun e x => c.takesMemory ownerUser deviceId x e)
            (fun _ x => x.owned ownerUser deviceId)) (state.1.get sessionId) := by
    induction batch with
    | nil => exact fun _ => rfl
    | cons x batch ih =>
      intro state
      rw [List.foldl_cons,ih,syncOneMemory_get,List.filter_cons]
      by_cases hid : x.id = sessionId
      · simp [hid]
      · simp [hid]
  exact hgeneral (sessions,result)

theorem Config.syncOnePostgres_get {rows rows' : OrdMap Text SessionRow}
    {result result' : SessionSyncResult} {x : NormalizedSession c}
    (h : c.syncOnePostgres pg ownerUser deviceId (some (rows,result)) x = some (rows',result')) :
    rows'.get sessionId =
      if x.id = sessionId then
        settle (NormalizedSession.takesRow ownerUser deviceId)
          (NormalizedSession.merged ownerUser deviceId) (rows.get sessionId) x
      else rows.get sessionId := by
  cases hstore : x.storable pg ownerUser deviceId with
  | false => simp [syncOnePostgres,hstore] at h
  | true =>
    rw [syncOnePostgres_some hstore] at h
    simp only [Option.some.injEq,Prod.mk.injEq] at h
    rw [← h.1]
    cases hrow : rows.get x.id with
    | none =>
      rw [insertOnConflict_new hrow,OrdMap.get_set]
      by_cases hid : x.id = sessionId
      · subst hid
        simp [settle,hrow,NormalizedSession.takesRow,NormalizedSession.merged]
      · simp [hid,Ne.symm hid]
    | some row =>
      cases hcondition : (x.row ownerUser deviceId).syncCondition ownerUser deviceId row with
      | true =>
        rw [insertOnConflict_update hrow hcondition,OrdMap.get_set]
        by_cases hid : x.id = sessionId
        · subst hid
          simp [settle,hrow,NormalizedSession.takesRow,NormalizedSession.merged,hcondition]
        · simp [hid,Ne.symm hid]
      | false =>
        rw [insertOnConflict_skip hrow hcondition]
        split_ifs with hid
        · subst hid
          simp [settle,hrow,NormalizedSession.takesRow,hcondition]
        · rfl

theorem Config.foldl_syncOnePostgres_none (batch : List (NormalizedSession c)) :
    batch.foldl (c.syncOnePostgres pg ownerUser deviceId) none = none := by
  induction batch with
  | nil => rfl
  | cons x batch ih => exact ih

theorem Config.syncSessionsPostgres_get {rows rows' : OrdMap Text SessionRow}
    {batch : List (NormalizedSession c)} {result result' : SessionSyncResult}
    (h : batch.foldl (c.syncOnePostgres pg ownerUser deviceId) (some (rows,result)) =
      some (rows',result')) :
    rows'.get sessionId =
      (batch.filter (·.id = sessionId)).foldl
        (settle (NormalizedSession.takesRow ownerUser deviceId)
          (NormalizedSession.merged ownerUser deviceId)) (rows.get sessionId) := by
  induction batch generalizing rows result with
  | nil =>
    simp only [List.foldl_nil,Option.some.injEq,Prod.mk.injEq] at h
    simp [h.1]
  | cons x batch ih =>
    rw [List.foldl_cons] at h
    cases hone : c.syncOnePostgres pg ownerUser deviceId (some (rows,result)) x with
    | none =>
      rw [hone,foldl_syncOnePostgres_none] at h
      cases h
    | some next =>
      obtain ⟨rows'',result''⟩ := next
      rw [hone] at h
      rw [ih h,syncOnePostgres_get hone,List.filter_cons]
      by_cases hid : x.id = sessionId
      · simp [hid]
      · simp [hid]

theorem Config.takesMemory_owned {x y : NormalizedSession c} (h : x.instant ≤ y.instant) :
    c.takesMemory ownerUser deviceId y (some (x.owned ownerUser deviceId)) = true := by
  have hparsed : c.parseInstant (x.owned ownerUser deviceId).updatedAt = some x.instant := x.parsed
  have hnewer : c.sessionSyncIsNewer y (x.owned ownerUser deviceId) = true := by
    unfold sessionSyncIsNewer
    simp [hparsed,h]
  simp [takesMemory,sessionOwnedBy,NormalizedSession.owned] at *
  exact hnewer

/-- The row belongs to the user and the device, as far as it names them. -/
def SessionRow.belongs (ownerUser deviceId : Text) (row : SessionRow) : Prop :=
  (readText row.ownerUser = [] ∨ readText row.ownerUser = ownerUser) ∧
    (readText row.deviceId = [] ∨ readText row.deviceId = deviceId)

theorem NormalizedSession.takesRow_iff {x : NormalizedSession c} {row : SessionRow} :
    x.takesRow ownerUser deviceId (some row) = true ↔ row.belongs ownerUser deviceId ∧
      (row.updatedAt ≤ microseconds x.instant ∨ readText row.title = [] ∨
        readText row.workspacePath = []) := by
  have hrow : (x.row ownerUser deviceId).updatedAt = microseconds x.instant := rfl
  have hiff : (x.row ownerUser deviceId).syncCondition ownerUser deviceId row = true ↔ _ :=
    SessionRow.syncCondition_iff
  rw [nullOr_iff,nullOr_iff,nullIfEmpty_eq_none,nullIfEmpty_eq_none,hrow] at hiff
  simpa [takesRow,SessionRow.belongs,and_assoc] using hiff

theorem NormalizedSession.merged_belongs {x : NormalizedSession c} {stored : Option SessionRow}
    (h : x.takesRow ownerUser deviceId stored = true) :
    (x.merged ownerUser deviceId stored).belongs ownerUser deviceId := by
  cases stored with
  | none => exact ⟨.inr rfl,.inr rfl⟩
  | some row =>
    obtain ⟨⟨howner,hdevice⟩,-⟩ := takesRow_iff.mp h
    refine ⟨.inr ?_,.inr ?_⟩
    · simp only [merged,SessionRow.syncUpdate,readText_coalesce]
      rcases howner with hnil | hsame
      · simp [hnil,NormalizedSession.row]
      · simp [hsame,NormalizedSession.row]
    · simp only [merged,SessionRow.syncUpdate,readText_coalesce]
      rcases hdevice with hnil | hsame
      · simp [hnil,NormalizedSession.row]
      · simp [hsame,NormalizedSession.row]

theorem NormalizedSession.merged_updatedAt (x : NormalizedSession c) (stored : Option SessionRow) :
    (x.merged ownerUser deviceId stored).updatedAt = microseconds x.instant := by
  cases stored <;> rfl

theorem NormalizedSession.merged_metadata (x : NormalizedSession c) (stored : Option SessionRow) :
    (x.merged ownerUser deviceId stored).sameMetadata x.toSessionRecord := by
  cases stored <;> exact ⟨rfl,rfl,rfl⟩

theorem NormalizedSession.takesRow_merged {x y : NormalizedSession c} {stored : Option SessionRow}
    (h : x.takesRow ownerUser deviceId stored = true) (hxy : x.instant ≤ y.instant) :
    y.takesRow ownerUser deviceId (some (x.merged ownerUser deviceId stored)) = true := by
  refine takesRow_iff.mpr ⟨merged_belongs h,.inl ?_⟩
  rw [merged_updatedAt]
  exact Int.ediv_le_ediv (by decide) hxy

end Entries

section Runs

variable {c : Config} {pg : Postgres} {ownerUser deviceId sessionId : Text}

/-- Memory takes every record of the device that is not behind its earlier syncs. -/
def Config.MemoryReady (c : Config) (sessionId ownerUser deviceId : Text) (tr : List LiveEvent)
    (s : Stores) : Prop :=
  ∀ x : NormalizedSession c, (∀ b ∈ syncInstants sessionId tr, b ≤ x.instant) →
    c.takesMemory ownerUser deviceId x (s.memory.sessions.get sessionId) = true

/-- The row, if there is one, is the device's. -/
def Stores.RowReady (sessionId ownerUser deviceId : Text) (s : Stores) : Prop :=
  ∀ row, s.postgres.sessions.get sessionId = some row → row.belongs ownerUser deviceId

theorem Config.memoryReady_append {tr : List LiveEvent} {s : Stores}
    (h : c.MemoryReady sessionId ownerUser deviceId tr s) {id user : Text} (event : GatewayPayload)
    (relayNow databaseNow : Time) (hok : id = sessionId → user = ownerUser ∨ user = []) :
    c.MemoryReady sessionId ownerUser deviceId tr
      (c.storesAppend pg s id user event relayNow databaseNow).1 := by
  intro x hx
  have hsame := h x hx
  have hget := c.appendMemory_owner id user event s.memory relayNow sessionId
  simp only [storesAppend]
  rw [hget]
  split_ifs with hnew
  · -- a record made by an append has no title yet
    rcases hok hnew.1.symm with rfl | rfl
    · simp [takesMemory,sessionOwnedBy,sessionSyncIsNewer]
    · simp [takesMemory,sessionOwnedBy,sessionSyncIsNewer]
  · exact hsame

theorem Stores.rowReady_append {s : Stores} (h : s.RowReady sessionId ownerUser deviceId)
    {id user : Text} (event : GatewayPayload) (relayNow databaseNow : Time)
    (hok : id = sessionId → user = ownerUser ∨ user = []) :
    (c.storesAppend pg s id user event relayNow databaseNow).1.RowReady sessionId ownerUser
      deviceId := by
  intro row hrow
  simp only [Config.storesAppend] at hrow
  rcases PostgresStore.append_spec pg id user event s.postgres databaseNow with
    ⟨-,hkept,-⟩ | ⟨-,hsessions,-,-⟩
  · rw [hkept] at hrow
    exact h row hrow
  · rw [hsessions,OrdMap.get_set] at hrow
    split_ifs at hrow with hid
    · cases hrow
      have hnew : ∀ v : Text, readText (nullIfEmpty (some v)) = v := fun v => readText_nullIfEmpty _
      unfold PostgresStore.claimed
      cases hstored : s.postgres.sessions.get id with
      | none =>
        refine ⟨?_,.inl rfl⟩
        simp only [hnew]
        exact (hok hid.symm).symm
      | some stored =>
        obtain ⟨howner,hdevice⟩ := h stored (by rw [hid]; exact hstored)
        refine ⟨?_,hdevice⟩
        dsimp only
        cases hcolumn : stored.ownerUser with
        | none =>
          simp only [coalesce,Option.none_or,hnew]
          exact (hok hid.symm).symm
        | some owner => simpa [coalesce,hcolumn] using howner
    · exact h row hrow

theorem synced_own (batch : List (NormalizedSession c)) :
    (batch.map (fun x => (x.toSessionRecord,x.instant))).filter (·.1.id = sessionId) =
      (batch.filter (·.id = sessionId)).map (fun x => (x.toSessionRecord,x.instant)) := by
  rw [List.filter_map]
  rfl

theorem syncInstants_synced (tr : List LiveEvent) (batch : List (NormalizedSession c))
    (memory : OrdMap Text SessionRecord) (rows : Option (OrdMap Text SessionRow)) :
    syncInstants sessionId (tr ++ [.synced (batch.map (fun x => (x.toSessionRecord,x.instant)))
        memory rows]) =
      syncInstants sessionId tr ++ (batch.filter (·.id = sessionId)).map (·.instant) := by
  rw [syncInstants,List.flatMap_append,List.flatMap_singleton,LiveEvent.instants,synced_own,
    List.map_map]
  rfl

theorem Config.memoryReady_last {tr : List LiveEvent} {s : Stores}
    (h : c.MemoryReady sessionId ownerUser deviceId tr s) {batch : List (NormalizedSession c)}
    (hsorted : (syncInstants sessionId tr ++ (batch.filter (·.id = sessionId)).map
      (·.instant)).Pairwise (· ≤ ·)) {z : NormalizedSession c}
    (hz : (batch.filter (·.id = sessionId)).getLast? = some z) :
    (c.syncSessionsMemory s.memory.sessions ownerUser deviceId batch).1.get sessionId =
      some (z.owned ownerUser deviceId) := by
  rw [List.pairwise_append,List.pairwise_map] at hsorted
  obtain ⟨-,hown,hafter⟩ := hsorted
  rw [syncSessionsMemory_get]
  have hfirst : ∀ x ∈ batch.filter (·.id = sessionId),
      c.takesMemory ownerUser deviceId x (s.memory.sessions.get sessionId) = true := by
    intro x hx
    apply h x
    intro b hb
    exact hafter b hb x.instant (List.mem_map.mpr ⟨x,hx,rfl⟩)
  obtain ⟨e,-,hlast⟩ := foldl_settle_last (fun e x => c.takesMemory ownerUser deviceId x e)
    (fun _ x => x.owned ownerUser deviceId)
    (R := fun x y : NormalizedSession c => x.instant ≤ y.instant) hfirst
    (fun _ _ _ _ hxy => takesMemory_owned hxy) hown hz
  exact hlast

theorem Stores.rowReady_last {s : Stores} (h : s.RowReady sessionId ownerUser deviceId)
    {batch : List (NormalizedSession c)}
    (hsorted : ((batch.filter (·.id = sessionId)).map (·.instant)).Pairwise (· ≤ ·))
    (hdue : ∀ x ∈ batch.filter (·.id = sessionId), ∀ row,
      s.postgres.sessions.get sessionId = some row → row.updatedAt ≤ microseconds x.instant ∨
        readText row.title = [] ∨ readText row.workspacePath = [])
    {z : NormalizedSession c} (hz : (batch.filter (·.id = sessionId)).getLast? = some z)
    {rows : OrdMap Text SessionRow} {result : SessionSyncResult}
    (hrows : c.syncSessionsPostgres pg s.postgres.sessions ownerUser deviceId batch =
      some (rows,result)) :
    ∃ row, rows.get sessionId = some row ∧ row.sameMetadata z.toSessionRecord ∧
      row.belongs ownerUser deviceId := by
  rw [List.pairwise_map] at hsorted
  rw [Config.syncSessionsPostgres_get hrows]
  have hfirst : ∀ x ∈ batch.filter (·.id = sessionId),
      x.takesRow ownerUser deviceId (s.postgres.sessions.get sessionId) = true := by
    intro x hx
    cases hget : s.postgres.sessions.get sessionId with
    | none => rfl
    | some row => exact NormalizedSession.takesRow_iff.mpr ⟨h row hget,hdue x hx row hget⟩
  obtain ⟨e,htakes,hlast⟩ := foldl_settle_last (NormalizedSession.takesRow ownerUser deviceId)
    (NormalizedSession.merged ownerUser deviceId)
    (R := fun x y : NormalizedSession c => x.instant ≤ y.instant) hfirst
    (fun _ _ _ htakes hxy => NormalizedSession.takesRow_merged htakes hxy) hsorted hz
  exact ⟨_,hlast,z.merged_metadata e,NormalizedSession.merged_belongs htakes⟩

theorem Config.memoryReady_sync (pg : Postgres) {tr : List LiveEvent} {s : Stores}
    (h : c.MemoryReady sessionId ownerUser deviceId tr s) {user device : Text}
    {batch : List (NormalizedSession c)}
    (hfrom : batch.filter (·.id = sessionId) = [] ∨ user = ownerUser ∧ device = deviceId ∧
      (syncInstants sessionId tr ++ (batch.filter (·.id = sessionId)).map
        (·.instant)).Pairwise (· ≤ ·)) (rows : Option (OrdMap Text SessionRow)) :
    let e := LiveEvent.synced (batch.map (fun x => (x.toSessionRecord,x.instant)))
      (c.syncSessionsMemory s.memory.sessions user device batch).1 rows
    c.MemoryReady sessionId ownerUser deviceId (tr ++ [e]) (c.storesSync pg s user device batch) ∧
      e.reachedMemory sessionId := by
  intro e
  have hinstants : syncInstants sessionId (tr ++ [e]) =
      syncInstants sessionId tr ++ (batch.filter (·.id = sessionId)).map (·.instant) :=
    syncInstants_synced tr batch _ _
  cases hz : (batch.filter (·.id = sessionId)).getLast? with
  | none =>
    have hnil : batch.filter (·.id = sessionId) = [] := List.getLast?_eq_none_iff.mp hz
    refine ⟨?_,?_⟩
    · intro x hx
      simp only [storesSync]
      rw [syncSessionsMemory_get,hnil]
      rw [hinstants,hnil,List.map_nil,List.append_nil] at hx
      exact h x hx
    · intro sent hsent
      rw [synced_own,hnil] at hsent
      cases hsent
  | some z =>
    have hne : batch.filter (·.id = sessionId) ≠ [] := by
      intro hnil
      simp [hnil] at hz
    obtain ⟨rfl,rfl,hsorted⟩ := hfrom.resolve_left hne
    have hmemory := memoryReady_last h hsorted hz
    refine ⟨?_,?_⟩
    · intro x hx
      simp only [storesSync]
      rw [hmemory]
      apply takesMemory_owned
      apply hx
      rw [hinstants,List.mem_append]
      exact .inr (List.mem_map.mpr ⟨z,List.mem_of_getLast? hz,rfl⟩)
    · intro sent hsent
      rw [synced_own,List.getLast?_map,hz,Option.map_some,Option.mem_some_iff] at hsent
      subst hsent
      exact ⟨_,hmemory,rfl,rfl,rfl⟩

theorem Stores.rowReady_sync (pg : Postgres) {tr : List LiveEvent} {s : Stores}
    (h : s.RowReady sessionId ownerUser deviceId) {user device : Text}
    {batch : List (NormalizedSession c)}
    (hfrom : batch.filter (·.id = sessionId) = [] ∨ user = ownerUser ∧ device = deviceId ∧
      (syncInstants sessionId tr ++ (batch.filter (·.id = sessionId)).map
        (·.instant)).Pairwise (· ≤ ·))
    (hdue : ∀ x ∈ batch.filter (·.id = sessionId), ∀ row,
      s.postgres.sessions.get sessionId = some row → row.updatedAt ≤ microseconds x.instant ∨
        readText row.title = [] ∨ readText row.workspacePath = [])
    (memory : OrdMap Text SessionRecord) :
    (c.storesSync pg s user device batch).RowReady sessionId ownerUser deviceId ∧
      (LiveEvent.synced (batch.map (fun x => (x.toSessionRecord,x.instant))) memory
        ((c.syncSessionsPostgres pg s.postgres.sessions user device batch).map
          (·.1))).reachedPostgres sessionId := by
  cases hrows : c.syncSessionsPostgres pg s.postgres.sessions user device batch with
  | none =>
    refine ⟨?_,?_⟩
    · intro row hrow
      simp only [Config.storesSync,hrows] at hrow
      exact h row hrow
    · intro sent _ table htable
      cases htable
  | some committed =>
    obtain ⟨rows,result⟩ := committed
    cases hz : (batch.filter (·.id = sessionId)).getLast? with
    | none =>
      have hnil : batch.filter (·.id = sessionId) = [] := List.getLast?_eq_none_iff.mp hz
      refine ⟨?_,?_⟩
      · intro row hrow
        simp only [Config.storesSync,hrows] at hrow
        rw [Config.syncSessionsPostgres_get hrows,hnil] at hrow
        exact h row hrow
      · intro sent hsent
        rw [synced_own,hnil] at hsent
        cases hsent
    | some z =>
      have hne : batch.filter (·.id = sessionId) ≠ [] := by
        intro hnil
        simp [hnil] at hz
      obtain ⟨rfl,rfl,hsorted⟩ := hfrom.resolve_left hne
      have hown := (List.pairwise_append.mp hsorted).2.1
      obtain ⟨stored,hstored,hmetadata,hbelongs⟩ := rowReady_last h hown hdue hz hrows
      refine ⟨?_,?_⟩
      · intro row hrow
        simp only [Config.storesSync,hrows] at hrow
        rw [hstored] at hrow
        cases hrow
        exact hbelongs
      · intro sent hsent table htable
        rw [synced_own,List.getLast?_map,hz,Option.map_some,Option.mem_some_iff] at hsent
        subst hsent
        cases htable
        exact ⟨stored,hstored,hmetadata⟩

theorem Config.fromOwningDevice_append {tr : List LiveEvent} {id user : Text} {event : GatewayPayload}
    {relayNow databaseNow : Time} (h : c.fromOwningDevice sessionId ownerUser deviceId tr
      (.append id user event relayNow databaseNow) = true) :
    id = sessionId → user = ownerUser ∨ user = [] := by
  intro hid
  simpa [fromOwningDevice,hid] using h

theorem Config.fromOwningDevice_sync {tr : List LiveEvent} {user device : Text}
    {sessions : List SessionRecord} {now : Time} {batch : List (NormalizedSession c)}
    (hbatch : c.normalizeBatch now user device sessions = .ok batch)
    (h : c.fromOwningDevice sessionId ownerUser deviceId tr (.sync user device sessions now) = true) :
    batch.filter (·.id = sessionId) = [] ∨ user = ownerUser ∧ device = deviceId ∧
      (syncInstants sessionId tr ++ (batch.filter (·.id = sessionId)).map
        (·.instant)).Pairwise (· ≤ ·) := by
  simp only [fromOwningDevice,hbatch] at h
  simpa [and_assoc] using h

theorem Config.live_memory (pg : Postgres) {tr : List LiveEvent} {s : Stores} (input : LiveInput)
    (h : c.MemoryReady sessionId ownerUser deviceId tr s)
    (hfrom : c.fromOwningDevice sessionId ownerUser deviceId tr input = true) :
    c.MemoryReady sessionId ownerUser deviceId (tr ++ (c.liveStep pg s input).2)
        (c.liveStep pg s input).1 ∧
      ∀ e ∈ (c.liveStep pg s input).2, e.reachedMemory sessionId := by
  cases input with
  | append id user event relayNow databaseNow =>
    refine ⟨?_,by simp [liveStep]⟩
    simp only [liveStep,List.append_nil]
    exact memoryReady_append h event relayNow databaseNow (fromOwningDevice_append hfrom)
  | sync user device sessions now =>
    simp only [liveStep]
    cases hbatch : c.normalizeBatch now user device sessions with
    | error e => simpa using h
    | ok batch =>
      have hstep := memoryReady_sync pg h (fromOwningDevice_sync hbatch hfrom)
        ((c.syncSessionsPostgres pg s.postgres.sessions user device batch).map (·.1))
      exact ⟨hstep.1,by simpa using hstep.2⟩

theorem Config.live_postgres (pg : Postgres) {tr : List LiveEvent} {s : Stores} (input : LiveInput)
    (h : s.RowReady sessionId ownerUser deviceId)
    (hfrom : c.fromOwningDevice sessionId ownerUser deviceId tr input = true)
    (hdue : c.notOverdue sessionId s input = true) :
    (c.liveStep pg s input).1.RowReady sessionId ownerUser deviceId ∧
      ∀ e ∈ (c.liveStep pg s input).2, e.reachedPostgres sessionId := by
  cases input with
  | append id user event relayNow databaseNow =>
    refine ⟨?_,by simp [liveStep]⟩
    exact Stores.rowReady_append h event relayNow databaseNow (fromOwningDevice_append hfrom)
  | sync user device sessions now =>
    simp only [liveStep,notOverdue] at *
    cases hbatch : c.normalizeBatch now user device sessions with
    | error e => simpa using h
    | ok batch =>
      simp only [hbatch] at hdue
      have hstep := Stores.rowReady_sync pg h (fromOwningDevice_sync hbatch hfrom) ?_
        (c.syncSessionsMemory s.memory.sessions user device batch).1
      · exact ⟨hstep.1,by simpa using hstep.2⟩
      · intro x hx row hrow
        have hall := List.all_eq_true.mp hdue x hx
        simpa [hrow,or_assoc] using hall

theorem Config.live_reachedMemory {tr : List LiveEvent} {s : Stores}
    (hr : (c.liveStores pg sessionId).Run (fun tr _ input =>
      c.fromOwningDevice sessionId ownerUser deviceId tr input = true) tr s) :
    ∀ e ∈ tr, e.reachedMemory sessionId := by
  have hinv : c.MemoryReady sessionId ownerUser deviceId tr s ∧
      ∀ e ∈ tr, e.reachedMemory sessionId := by
    refine Machine.Run.invariant (P := fun tr s => c.MemoryReady sessionId ownerUser deviceId tr s ∧
      ∀ e ∈ tr, e.reachedMemory sessionId) ?_ ?_ hr
    · rintro s ⟨hmemory,-⟩
      refine ⟨?_,by simp⟩
      intro x _
      rw [hmemory]
      rfl
    · rintro tr s input ⟨hready,hall⟩ hfrom
      obtain ⟨hnext,hnew⟩ := live_memory pg input hready hfrom
      refine ⟨hnext,?_⟩
      intro e he
      rcases List.mem_append.mp he with hold | hadded
      · exact hall e hold
      · exact hnew e hadded
  exact hinv.2

theorem Config.live_reachedPostgres {tr : List LiveEvent} {s : Stores}
    (hr : (c.liveStores pg sessionId).Run (fun tr s input =>
      c.fromOwningDevice sessionId ownerUser deviceId tr input = true ∧
        c.notOverdue sessionId s input = true) tr s) : ∀ e ∈ tr, e.reachedPostgres sessionId := by
  have hinv : s.RowReady sessionId ownerUser deviceId ∧ ∀ e ∈ tr, e.reachedPostgres sessionId := by
    refine Machine.Run.invariant (P := fun tr s => s.RowReady sessionId ownerUser deviceId ∧
      ∀ e ∈ tr, e.reachedPostgres sessionId) ?_ ?_ hr
    · rintro s ⟨-,hrow⟩
      refine ⟨?_,by simp⟩
      intro row hget
      rw [hrow] at hget
      cases hget
    · rintro tr s input ⟨hready,hall⟩ ⟨hfrom,hdue⟩
      obtain ⟨hnext,hnew⟩ := live_postgres pg input hready hfrom hdue
      refine ⟨hnext,?_⟩
      intro e he
      rcases List.mem_append.mp he with hold | hadded
      · exact hall e hold
      · exact hnew e hadded
  exact hinv.2

/-- In every run of one device's events and syncs of its session, with sync instants that
never go back, each sync reaches the store in memory, and while none is behind the stored row
each sync reaches both stores. -/
theorem Config.live_reached (c : Config) (pg : Postgres) (sessionId ownerUser deviceId : Text) :
    (∀ {tr : List LiveEvent} {s : Stores},
      (c.liveStores pg sessionId).Run (fun tr _ input =>
        c.fromOwningDevice sessionId ownerUser deviceId tr input = true) tr s →
      ∀ e ∈ tr, e.reachedMemory sessionId) ∧
    ∀ {tr : List LiveEvent} {s : Stores},
      (c.liveStores pg sessionId).Run (fun tr s input =>
        c.fromOwningDevice sessionId ownerUser deviceId tr input = true ∧
          c.notOverdue sessionId s input = true) tr s → ∀ e ∈ tr, e.reached sessionId := by
  refine ⟨live_reachedMemory,?_⟩
  intro tr s hr e he
  exact ⟨live_reachedMemory (hr.mono fun _ _ _ h => h.1) e he,live_reachedPostgres hr e he⟩

end Runs

namespace Sample

def laptop : Text := "laptop".toList

def syncA (status : String) (updatedAt : Text) : LiveInput :=
  .sync amy laptop
    [{ id := "a".toList, status := status.toList, title := "A".toList, workspacePath := projectA
       updatedAt := updatedAt }] tenInstant

/-- The session is synced at ten, an event is appended while the clock of the database is
`ahead` nanoseconds past ten, and the session is synced again at one minute past ten. -/
def eventBetweenSyncs (ahead : Time) : List LiveInput :=
  [syncA "running" ten,.append "a".toList amy { bytes := 40 } tenInstant (tenInstant+ahead),
   syncA "completed" tenOne]

end Sample

/-- Half a minute ahead does no harm, and memory has the second sync in any case. -/
theorem eventBetweenSyncs_reached :
    ((Sample.clock.liveStores Sample.postgres "a".toList).exec [] {}
      (Sample.eventBetweenSyncs 30000000000)).1.length = 2 ∧
    (∀ e ∈ ((Sample.clock.liveStores Sample.postgres "a".toList).exec [] {}
      (Sample.eventBetweenSyncs 30000000000)).1, e.reached "a".toList) ∧
    ∀ e ∈ ((Sample.clock.liveStores Sample.postgres "a".toList).exec [] {}
      (Sample.eventBetweenSyncs 120000000000)).1, e.reachedMemory "a".toList := by
  have hlive := Config.live_reached Sample.clock Sample.postgres "a".toList Sample.amy Sample.laptop
  refine ⟨by decide,?_,?_⟩
  · exact hlive.2 (Machine.Run.exec (Sample.eventBetweenSyncs 30000000000) (.start ⟨rfl,rfl⟩)
      (by decide))
  · exact hlive.1 (Machine.Run.exec (Sample.eventBetweenSyncs 120000000000) (.start ⟨rfl,rfl⟩)
      (by decide))

/-- With the clock of the database two minutes ahead of the device, Postgres keeps the
session running. -/
theorem eventBetweenSyncs_lost :
    (Sample.clock.liveStores Sample.postgres "a".toList).Allowed
        (fun tr _ input => Sample.clock.fromOwningDevice "a".toList Sample.amy Sample.laptop tr
          input = true) [] {} (Sample.eventBetweenSyncs 120000000000) ∧
      ¬ ∀ e ∈ ((Sample.clock.liveStores Sample.postgres "a".toList).exec [] {}
        (Sample.eventBetweenSyncs 120000000000)).1, e.reached "a".toList := by
  decide

end CodeHarbor.Relay
