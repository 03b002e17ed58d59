import CodeHarbor.Relay.Sessions
set_option autoImplicit false

namespace CodeHarbor.Relay
open Lib Lib.Go Lib.Sql

/-- A row and a record that every reader takes for the same session. -/
structure SessionRow.Reads (c : Config) (row : SessionRow) (session : SessionRecord) : Prop where
  ownerUser : readText row.ownerUser = session.ownerUser
  deviceId : readText row.deviceId = session.deviceId
  status : readText row.status = session.status
  title : readText row.title = session.title
  workspacePath : readText row.workspacePath = session.workspacePath
  updatedAt : c.parseInstant session.updatedAt = some (row.updatedAt*1000)
  sessionPolicyMode : row.sessionPolicyMode = session.sessionPolicyMode

def Config.entriesEqual (c : Config) : Option SessionRecord → Option SessionRow → Prop
  | none, none => True
  | some session, some row => row.Reads c session
  | _, _ => False

/-- The map and the table hold the same sessions. -/
def Config.TablesEqual (c : Config) (memory : OrdMap Text SessionRecord)
    (rows : OrdMap Text SessionRow) : Prop :=
  ∀ id, c.entriesEqual (memory.get id) (rows.get id)

/-- The same counts and equal tables; a rolled back transaction has neither. -/
def Config.SyncsEqual (c : Config) (memory : OrdMap Text SessionRecord × SessionSyncResult) :
    Option (OrdMap Text SessionRow × SessionSyncResult) → Prop
  | none => False
  | some rows => memory.2 = rows.2 ∧ c.TablesEqual memory.1 rows.1

def Config.takesMemory (c : Config) (ownerUser deviceId : Text) (incoming : NormalizedSession c) :
    Option SessionRecord → Bool
  | none => true
  | some existing => sessionOwnedBy existing ownerUser deviceId && c.sessionSyncIsNewer incoming existing

/-- One record that both stores treat alike: the database takes its texts, and if it
replaces a session it has a workspace path or the session had none, and its instant is a
whole number of microseconds. -/
def Config.syncsAlike (c : Config) (pg : Postgres) (ownerUser deviceId : Text)
    (existing : Option SessionRecord) (incoming : NormalizedSession c) : Bool :=
  incoming.storable pg ownerUser deviceId &&
    (!c.takesMemory ownerUser deviceId incoming existing ||
      ((incoming.workspacePath ≠ [] || existing.all (·.workspacePath = [])) &&
        incoming.instant % 1000 = 0))

/-- Every record of the batch, each against the map as the records before it leave it. -/
def Config.batchAlike (c : Config) (pg : Postgres) (ownerUser deviceId : Text) :
    OrdMap Text SessionRecord × SessionSyncResult → List (NormalizedSession c) → Bool
  | _, [] => true
  | state, incoming :: batch =>
    c.syncsAlike pg ownerUser deviceId (state.1.get incoming.id) incoming &&
      c.batchAlike pg ownerUser deviceId (c.syncOneMemory ownerUser deviceId state incoming) batch

section Step

variable {c : Config} {pg : Postgres} {ownerUser deviceId : Text}

theorem Config.syncOneMemory_takes {sessions : OrdMap Text SessionRecord}
    {result : SessionSyncResult} {incoming : NormalizedSession c}
    (h : c.takesMemory ownerUser deviceId incoming (sessions.get incoming.id) = true) :
    c.syncOneMemory ownerUser deviceId (sessions,result) incoming =
      (sessions.set incoming.id (incoming.owned ownerUser deviceId),
        { result with accepted := result.accepted+1 }) := by
  cases hget : sessions.get incoming.id with
  | none => simp [syncOneMemory,hget]
  | some existing =>
    simp only [takesMemory,hget,Bool.and_eq_true] at h
    simp [syncOneMemory,hget,h.1,h.2]

theorem Config.syncOneMemory_skips {sessions : OrdMap Text SessionRecord}
    {result : SessionSyncResult} {incoming : NormalizedSession c}
    (h : c.takesMemory ownerUser deviceId incoming (sessions.get incoming.id) = false) :
    c.syncOneMemory ownerUser deviceId (sessions,result) incoming =
      (sessions,{ result with skipped := result.skipped+1 }) := by
  cases hget : sessions.get incoming.id with
  | none => simp [takesMemory,hget] at h
  | some existing =>
    simp only [takesMemory,hget,Bool.and_eq_false_iff] at h
    rcases h with h | h
    · simp [syncOneMemory,hget,h]
    · simp [syncOneMemory,hget,h]

theorem nullOr_iff (column : Option Text) (text : Text) :
    (nullIfEmpty column = none ∨ column = some text) ↔
      (readText column = [] ∨ readText column = text) := by
  rw [nullIfEmpty_eq_none]
  cases column with
  | none => simp
  | some value => simp

theorem microseconds_le {stored instant : Int} :
    stored ≤ microseconds instant ↔ stored*1000 ≤ instant := by
  have hfloor : stored ≤ instant/1000 ↔ stored*1000 ≤ instant := by omega
  exact hfloor

theorem microseconds_exact {instant : Int} :
    instant = microseconds instant*1000 ↔ instant % 1000 = 0 := by
  have hexact : instant = instant/1000*1000 ↔ instant % 1000 = 0 := by omega
  exact hexact

theorem SessionRow.syncCondition_iff {excluded stored : SessionRow} :
    excluded.syncCondition ownerUser deviceId stored = true ↔
      (nullIfEmpty stored.ownerUser = none ∨ stored.ownerUser = some ownerUser) ∧
      (nullIfEmpty stored.deviceId = none ∨ stored.deviceId = some deviceId) ∧
      (stored.updatedAt ≤ excluded.updatedAt ∨ nullIfEmpty stored.title = none ∨
        nullIfEmpty stored.workspacePath = none) := by
  simp [syncCondition,and_assoc,or_assoc]

theorem SessionRow.Reads.condition {row : SessionRow} {existing : SessionRecord}
    (h : row.Reads c existing) (ownerUser deviceId : Text) (incoming : NormalizedSession c) :
    (incoming.row ownerUser deviceId).syncCondition ownerUser deviceId row =
      c.takesMemory ownerUser deviceId incoming (some existing) := by
  have hdated : existing.updatedAt ≠ [] := by
    intro hnil
    have hparsed := h.updatedAt
    simp [Config.parseInstant,hnil] at hparsed
  have howner := nullOr_iff row.ownerUser ownerUser
  have hdevice := nullOr_iff row.deviceId deviceId
  rw [h.ownerUser] at howner
  rw [h.deviceId] at hdevice
  have hnewer : (row.updatedAt ≤ microseconds incoming.instant ∨ nullIfEmpty row.title = none ∨
      nullIfEmpty row.workspacePath = none) ↔ c.sessionSyncIsNewer incoming existing = true := by
    rw [nullIfEmpty_eq_none,nullIfEmpty_eq_none,h.title,h.workspacePath,microseconds_le]
    unfold Config.sessionSyncIsNewer
    simp only [hdated,h.updatedAt,false_or]
    by_cases hmissing : existing.title = [] ∨ existing.workspacePath = []
    · simp [hmissing]
    · simp [hmissing]
  rw [Bool.eq_iff_iff,syncCondition_iff,howner,hdevice]
  simp only [Config.takesMemory,sessionOwnedBy,Bool.and_eq_true,Bool.or_eq_true,decide_eq_true_eq,
    ← hnewer,and_assoc]
  rfl

/-- Replacing the record and updating the row lead to equal entries exactly when no
workspace path is dropped and no fraction of a microsecond is lost. -/
theorem SessionRow.Reads.updated {row : SessionRow} {existing : SessionRecord}
    (h : row.Reads c existing) (incoming : NormalizedSession c)
    (htakes : c.takesMemory ownerUser deviceId incoming (some existing) = true) :
    ((incoming.row ownerUser deviceId).syncUpdate row).Reads c (incoming.owned ownerUser deviceId) ↔
      (incoming.workspacePath ≠ [] ∨ existing.workspacePath = []) ∧ incoming.instant % 1000 = 0 := by
  simp only [Config.takesMemory,sessionOwnedBy,Bool.and_eq_true,Bool.or_eq_true,
    decide_eq_true_eq] at htakes
  obtain ⟨⟨howner,hdevice⟩,-⟩ := htakes
  have hinstant : c.parseInstant incoming.updatedAt = some (microseconds incoming.instant*1000) ↔
      incoming.instant % 1000 = 0 := by
    rw [incoming.parsed,Option.some.injEq]
    exact microseconds_exact
  constructor
  · intro hreads
    refine ⟨?_,hinstant.mp hreads.updatedAt⟩
    have hpath := hreads.workspacePath
    simp only [syncUpdate,NormalizedSession.row,NormalizedSession.owned,readText_coalesce,
      readText_some,h.workspacePath] at hpath
    split_ifs at hpath with hempty
    · exact .inr (hpath.trans hempty)
    · exact .inl hempty
  · rintro ⟨hpath,hwhole⟩
    refine ⟨?_,?_,rfl,rfl,?_,hinstant.mpr hwhole,rfl⟩
    · simp only [syncUpdate,NormalizedSession.row,NormalizedSession.owned,readText_coalesce,
        readText_some,h.ownerUser]
      rcases howner with hnil | hsame
      · simp [hnil]
      · simp [hsame]
    · simp only [syncUpdate,NormalizedSession.row,NormalizedSession.owned,readText_coalesce,
        readText_some,h.deviceId]
      rcases hdevice with hnil | hsame
      · simp [hnil]
      · simp [hsame]
    · simp only [syncUpdate,NormalizedSession.row,NormalizedSession.owned,readText_coalesce,
        readText_some,h.workspacePath]
      rcases hpath with hne | hnil
      · simp [hne]
      · split_ifs with hempty
        · rw [hnil,hempty]
        · rfl

theorem NormalizedSession.row_reads (incoming : NormalizedSession c) :
    (incoming.row ownerUser deviceId).Reads c (incoming.owned ownerUser deviceId) ↔
      incoming.instant % 1000 = 0 := by
  have hinstant : c.parseInstant incoming.updatedAt = some (microseconds incoming.instant*1000) ↔
      incoming.instant % 1000 = 0 := by
    rw [incoming.parsed,Option.some.injEq]
    exact microseconds_exact
  constructor
  · intro h
    exact hinstant.mp h.updatedAt
  · intro hwhole
    exact ⟨rfl,rfl,rfl,rfl,readText_nullIfEmpty _,hinstant.mpr hwhole,rfl⟩

theorem Config.syncOnePostgres_some {rows : OrdMap Text SessionRow} {result : SessionSyncResult}
    {incoming : NormalizedSession c} (h : incoming.storable pg ownerUser deviceId = true) :
    c.syncOnePostgres pg ownerUser deviceId (some (rows,result)) incoming =
      let excluded := incoming.row ownerUser deviceId
      let written := insertOnConflict rows incoming.id excluded excluded.syncUpdate
        (excluded.syncCondition ownerUser deviceId)
      some (written.1,
        if written.2 = 0 then { result with skipped := result.skipped+1 }
        else { result with accepted := result.accepted+1 }) := by
  simp only [syncOnePostgres,h,Bool.true_eq_false,if_false]
  split_ifs <;> rfl

theorem Config.TablesEqual.set {memory : OrdMap Text SessionRecord} {rows : OrdMap Text SessionRow}
    (h : c.TablesEqual memory rows) (id : Text) (session : SessionRecord) (row : SessionRow) :
    c.TablesEqual (memory.set id session) (rows.set id row) ↔ row.Reads c session := by
  constructor
  · intro hequal
    have hid := hequal id
    simpa only [OrdMap.get_set,if_true,entriesEqual] using hid
  · intro hreads other
    rw [OrdMap.get_set,OrdMap.get_set]
    split_ifs with hother
    · exact hreads
    · exact h other

theorem Config.syncOne_equal {memory : OrdMap Text SessionRecord} {rows : OrdMap Text SessionRow}
    (h : c.TablesEqual memory rows) (pg : Postgres) (ownerUser deviceId : Text) (result : SessionSyncResult) (incoming : NormalizedSession c) :
    c.SyncsEqual (c.syncOneMemory ownerUser deviceId (memory,result) incoming)
        (c.syncOnePostgres pg ownerUser deviceId (some (rows,result)) incoming) ↔
      c.syncsAlike pg ownerUser deviceId (memory.get incoming.id) incoming = true := by
  cases hstore : incoming.storable pg ownerUser deviceId with
  | false => simp [syncOnePostgres,SyncsEqual,syncsAlike,hstore]
  | true =>
    have hentry := h incoming.id
    rw [syncOnePostgres_some hstore]
    cases hget : memory.get incoming.id with
    | none =>
      cases hrow : rows.get incoming.id with
      | some row => simp [entriesEqual,hget,hrow] at hentry
      | none =>
        have htakes : c.takesMemory ownerUser deviceId incoming (memory.get incoming.id) = true := by
          simp [takesMemory,hget]
        rw [syncOneMemory_takes htakes]
        simp only [insertOnConflict_new hrow,SyncsEqual,h.set,NormalizedSession.row_reads]
        simp [syncsAlike,takesMemory,hstore]
    | some existing =>
      cases hrow : rows.get incoming.id with
      | none => simp [entriesEqual,hget,hrow] at hentry
      | some row =>
        have hreads : row.Reads c existing := by simpa [entriesEqual,hget,hrow] using hentry
        have hcondition := hreads.condition ownerUser deviceId incoming
        cases htakes : c.takesMemory ownerUser deviceId incoming (some existing) with
        | false =>
          rw [htakes] at hcondition
          rw [syncOneMemory_skips (by rw [hget]; exact htakes)]
          simp [insertOnConflict_skip hrow hcondition,SyncsEqual,h,syncsAlike,hstore,htakes]
        | true =>
          rw [htakes] at hcondition
          rw [syncOneMemory_takes (by rw [hget]; exact htakes)]
          simp only [insertOnConflict_update hrow hcondition,SyncsEqual,h.set,
            hreads.updated incoming htakes]
          simp [syncsAlike,hstore,htakes]

end Step

/-- From equal tables, the two syncs return the same counts and leave equal tables, for a
batch and for every batch it begins with, exactly when the database takes all texts and no
record that replaces a session drops its workspace path or has an instant between two
microseconds. -/
theorem Config.sync_refines_iff (c : Config) (pg : Postgres) (ownerUser deviceId : Text)
    (memory : OrdMap Text SessionRecord) (rows : OrdMap Text SessionRow)
    (h : c.TablesEqual memory rows) (batch : List (NormalizedSession c)) :
    (∀ n, c.SyncsEqual (c.syncSessionsMemory memory ownerUser deviceId (batch.take n))
        (c.syncSessionsPostgres pg rows ownerUser deviceId (batch.take n))) ↔
      c.batchAlike pg ownerUser deviceId (memory,{}) batch = true := by
  unfold syncSessionsMemory syncSessionsPostgres
  generalize ({} : SessionSyncResult) = result
  induction batch generalizing memory rows result with
  | nil => simp [batchAlike,SyncsEqual,h]
  | cons incoming batch ih =>
    have hstep := c.syncOne_equal h pg ownerUser deviceId result incoming
    rw [batchAlike,Bool.and_eq_true,← hstep]
    generalize hstate : c.syncOneMemory ownerUser deviceId (memory,result) incoming = state at *
    generalize hnext : c.syncOnePostgres pg ownerUser deviceId (some (rows,result)) incoming = next
      at *
    -- the first record decides whether there is a common state to go on from
    have hrest : c.SyncsEqual state next → ((∀ n, c.SyncsEqual
        ((batch.take n).foldl (c.syncOneMemory ownerUser deviceId) state)
        ((batch.take n).foldl (c.syncOnePostgres pg ownerUser deviceId) next)) ↔
          c.batchAlike pg ownerUser deviceId state batch = true) := by
      intro hequal
      cases next with
      | none => exact absurd hequal id
      | some next =>
        obtain ⟨memory',result'⟩ := state
        obtain ⟨rows',result''⟩ := next
        obtain ⟨hcounts,htables⟩ := hequal
        cases hcounts
        exact ih memory' rows' htables result'
    constructor
    · intro hall
      have hone : c.SyncsEqual state next := by simpa [hstate,hnext] using hall 1
      refine ⟨hone,(hrest hone).mp ?_⟩
      intro n
      simpa [hstate,hnext] using hall (n+1)
    · rintro ⟨hone,halike⟩ n
      cases n with
      | zero => simp [SyncsEqual,h]
      | succ n => simpa [hstate,hnext] using (hrest hone).mpr halike n

namespace Sample

def sessionA : SessionRecord where
  id := "a".toList
  deviceId := "laptop".toList
  ownerUser := amy
  status := "running".toList
  title := "A".toList
  workspacePath := projectA
  updatedAt := ten
  sessionPolicyMode := confirmMode

def rowA : SessionRow where
  deviceId := some "laptop".toList
  ownerUser := some amy
  status := some "running".toList
  title := some "A".toList
  workspacePath := some projectA
  updatedAt := microseconds tenInstant

def memoryA : OrdMap Text SessionRecord := OrdMap.empty.set "a".toList sessionA

def rowsA : OrdMap Text SessionRow := OrdMap.empty.set "a".toList rowA

theorem tablesA_equal : clock.TablesEqual memoryA rowsA := by
  have hempty : clock.TablesEqual OrdMap.empty OrdMap.empty := fun _ => trivial
  refine (hempty.set "a".toList sessionA rowA).mpr ?_
  exact ⟨rfl,rfl,rfl,rfl,rfl,by decide,rfl⟩

def later (title path : Text) : NormalizedSession clock where
  toSessionRecord := { sessionA with title := title, workspacePath := path, updatedAt := tenOne }
  instant := tenInstant+60*1000000000
  parsed := by
    change clock.parseInstant tenOne = _
    decide

def laterFraction : NormalizedSession clock where
  toSessionRecord := { sessionA with updatedAt := tenOneFraction }
  instant := tenInstant+60*1000000000+500
  parsed := by decide

def earlier (id title : Text) : NormalizedSession clock where
  toSessionRecord := { sessionA with id := id, title := title }
  instant := tenInstant
  parsed := by
    change clock.parseInstant ten = _
    decide

/-- A session that is stored comes with a newer record and then an older one, and a session
that is not with an older record and then a newer one. -/
def repeated : List (NormalizedSession clock) :=
  [later "B".toList projectA,earlier "a".toList "C".toList,earlier "b".toList "D".toList,
    { later "E".toList projectA with id := "b".toList }]

def syncBoth (incoming : NormalizedSession clock) : Prop :=
  clock.SyncsEqual (clock.syncSessionsMemory memoryA amy "laptop".toList [incoming])
    (clock.syncSessionsPostgres postgres rowsA amy "laptop".toList [incoming])

theorem syncBoth_iff (incoming : NormalizedSession clock) : syncBoth incoming ↔
    clock.syncsAlike postgres amy "laptop".toList (memoryA.get incoming.id) incoming = true :=
  Config.syncOne_equal tablesA_equal postgres amy "laptop".toList {} incoming

end Sample

theorem repeated_refines : Sample.clock.TablesEqual Sample.memoryA Sample.rowsA ∧
    ∀ n, Sample.clock.SyncsEqual
      (Sample.clock.syncSessionsMemory Sample.memoryA Sample.amy "laptop".toList
        (Sample.repeated.take n))
      (Sample.clock.syncSessionsPostgres Sample.postgres Sample.rowsA Sample.amy "laptop".toList
        (Sample.repeated.take n)) := by
  have hbatch : Sample.clock.batchAlike Sample.postgres Sample.amy "laptop".toList
      (Sample.memoryA,{}) Sample.repeated = true := by decide
  exact ⟨Sample.tablesA_equal,(Config.sync_refines_iff Sample.clock Sample.postgres Sample.amy
    "laptop".toList Sample.memoryA Sample.rowsA Sample.tablesA_equal _).mpr hbatch⟩

/-- A record without a workspace path, one with a fraction of a microsecond and one with a
zero character in its title. -/
theorem later_differs :
    ¬ Sample.syncBoth (Sample.later "A".toList []) ∧ ¬ Sample.syncBoth Sample.laterFraction ∧
      ¬ Sample.syncBoth (Sample.later [Char.ofNat 0] Sample.projectA) := by
  rw [Sample.syncBoth_iff,Sample.syncBoth_iff,Sample.syncBoth_iff]
  decide

end CodeHarbor.Relay
