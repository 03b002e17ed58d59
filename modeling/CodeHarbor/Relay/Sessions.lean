import CodeHarbor.Lib.Run
import CodeHarbor.Lib.Sql
import CodeHarbor.Relay.Token
set_option autoImplicit false

namespace CodeHarbor.Relay
open Lib Lib.Go Lib.Sql

/-! Session metadata and event logs in the relay's two stores: Go maps behind a mutex, or
Postgres tables. -/

structure SessionRecord where
  id : Text
  deviceId : Text := []
  ownerUser : Text := []
  status : Text := []
  title : Text := []
  workspacePath : Text := []
  updatedAt : Text := []
  sessionPolicyMode : Text := []
  deriving DecidableEq, Repr

def maxSessionSyncItems : Nat := 10000
def maxSessionIdLength : Nat := 256
def maxSessionTitleLen : Nat := 512
def maxWorkspacePathLen : Nat := 4096
def maxSessionStatusLen : Nat := 80
def maxSessionPolicyLen : Nat := 32

def confirmMode : Text := "confirm".toList
def fullAccessMode : Text := "full-access".toList

/-- `time.Parse(time.RFC3339Nano, …)`, which refuses the empty text. -/
def Config.parseInstant (c : Config) (text : Text) : Option Time :=
  if text = [] then none else c.parseTime text

/-- A record as `normalizeSessionSync` lets it pass, with the instant its time text
stands for. -/
structure NormalizedSession (c : Config) extends SessionRecord where
  instant : Time
  parsed : c.parseInstant updatedAt = some instant
  deriving DecidableEq

/-- The field trimming of `normalizeSessionSync`, with its two defaults. -/
def Config.trimSession (c : Config) (now : Time) (session : SessionRecord) : SessionRecord :=
  let mode := trimSpace session.sessionPolicyMode
  let updatedAt := trimSpace session.updatedAt
  { session with
    id := trimSpace session.id
    title := trimSpace session.title
    status := trimSpace session.status
    workspacePath := trimSpace session.workspacePath
    updatedAt := if updatedAt = [] then c.formatTime now else updatedAt
    sessionPolicyMode := if mode = [] then confirmMode else mode }

/-- The lengths are checked before the default mode is filled in. -/
def SessionRecord.fits (session : SessionRecord) : Bool :=
  trimSpace session.id ≠ [] &&
    byteLen (trimSpace session.id) ≤ maxSessionIdLength &&
    byteLen (trimSpace session.title) ≤ maxSessionTitleLen &&
    byteLen (trimSpace session.workspacePath) ≤ maxWorkspacePathLen &&
    byteLen (trimSpace session.status) ≤ maxSessionStatusLen &&
    byteLen (trimSpace session.sessionPolicyMode) ≤ maxSessionPolicyLen

def Config.normalizeSessionSync (c : Config) (now : Time) (session : SessionRecord) :
    Option (NormalizedSession c) :=
  let value := c.trimSession now session
  if session.fits = false then none
  else if value.sessionPolicyMode ≠ confirmMode ∧ value.sessionPolicyMode ≠ fullAccessMode then none
  else
    match h : c.parseInstant value.updatedAt with
    | none => none
    | some instant => some { value with instant := instant, parsed := h }

inductive SyncError where
  | unauthorized
  | invalidSessionSync
  | storage
  deriving DecidableEq, Repr

structure SessionSyncResult where
  accepted : Nat := 0
  skipped : Nat := 0
  deriving DecidableEq, Repr

/-- The checks of `syncSessions` before it turns to a store. -/
def Config.normalizeBatch (c : Config) (now : Time) (ownerUser deviceId : Text)
    (sessions : List SessionRecord) : Except SyncError (List (NormalizedSession c)) :=
  if trimSpace ownerUser = [] ∨ trimSpace deviceId = [] then .error .unauthorized
  else if sessions.length > maxSessionSyncItems then .error .invalidSessionSync
  else
    match sessions.mapM (c.normalizeSessionSync now) with
    | none => .error .invalidSessionSync
    | some normalized => .ok normalized

/-- A gateway event: the length of its JSON, and whether `JSONB` can hold it. -/
structure GatewayPayload where
  bytes : Nat := 0
  jsonb : Bool := true
  deriving DecidableEq, Repr

/-- `memorySessions` and `memoryEvents`. -/
structure MemoryStore where
  sessions : OrdMap Text SessionRecord := OrdMap.empty
  events : OrdMap Text (List GatewayPayload) := OrdMap.empty
  deriving DecidableEq, Repr

def sessionOwnedBy (session : SessionRecord) (ownerUser deviceId : Text) : Bool :=
  (session.ownerUser = [] || session.ownerUser = ownerUser) &&
    (session.deviceId = [] || session.deviceId = deviceId)

def Config.sessionSyncIsNewer (c : Config) (incoming : NormalizedSession c)
    (existing : SessionRecord) : Bool :=
  if existing.updatedAt = [] ∨ existing.title = [] ∨ existing.workspacePath = [] then true
  else
    match c.parseInstant existing.updatedAt with
    | none => true
    | some existingAt => existingAt ≤ incoming.instant

def NormalizedSession.owned {c : Config} (session : NormalizedSession c)
    (ownerUser deviceId : Text) : SessionRecord :=
  { session.toSessionRecord with ownerUser := ownerUser, deviceId := deviceId }

/-- One turn of the loop in `syncSessionsMemory`. -/
def Config.syncOneMemory (c : Config) (ownerUser deviceId : Text)
    (state : OrdMap Text SessionRecord × SessionSyncResult) (incoming : NormalizedSession c) :
    OrdMap Text SessionRecord × SessionSyncResult :=
  let (sessions,result) := state
  let skipped := { result with skipped := result.skipped+1 }
  let accepted := (sessions.set incoming.id (incoming.owned ownerUser deviceId),
    { result with accepted := result.accepted+1 })
  match sessions.get incoming.id with
  | none => accepted
  | some existing =>
    if sessionOwnedBy existing ownerUser deviceId = false then (sessions,skipped)
    else if c.sessionSyncIsNewer incoming existing = false then (sessions,skipped)
    else accepted

def Config.syncSessionsMemory (c : Config) (sessions : OrdMap Text SessionRecord)
    (ownerUser deviceId : Text) (batch : List (NormalizedSession c)) :
    OrdMap Text SessionRecord × SessionSyncResult :=
  batch.foldl (c.syncOneMemory ownerUser deviceId) (sessions,{})

/-- Instants as a `TIMESTAMPTZ` column holds them, in microseconds. -/
abbrev Micros := Int

/-- What the database decides: the texts its columns and indexes take, and the instant a
time text stands for when it is bound to a `TIMESTAMPTZ` parameter. -/
structure Postgres where
  storable : Text → Bool
  parseTimestamp : Text → Option Micros

/-- A row of `sessions`. -/
structure SessionRow where
  deviceId : Option Text := none
  ownerUser : Option Text := none
  status : Option Text := none
  title : Option Text := none
  workspacePath : Option Text := none
  updatedAt : Micros
  sessionPolicyMode : Text := confirmMode
  deriving DecidableEq, Repr

/-- `sessions`, `session_event_counters` and `gateway_events`. -/
structure PostgresStore where
  sessions : OrdMap Text SessionRow := OrdMap.empty
  counters : OrdMap Text Nat := OrdMap.empty
  events : List (Text × Nat × GatewayPayload) := []
  deriving DecidableEq, Repr

/-- The driver drops the nanoseconds below a microsecond. -/
def microseconds (t : Time) : Micros := t/1000

def NormalizedSession.row {c : Config} (session : NormalizedSession c)
    (ownerUser deviceId : Text) : SessionRow where
  deviceId := some deviceId
  ownerUser := some ownerUser
  status := some session.status
  title := some session.title
  workspacePath := nullIfEmpty (some session.workspacePath)
  updatedAt := microseconds session.instant
  sessionPolicyMode := session.sessionPolicyMode

/-- The `DO UPDATE SET` of a sync. -/
def SessionRow.syncUpdate (excluded stored : SessionRow) : SessionRow where
  deviceId := coalesce (nullIfEmpty stored.deviceId) excluded.deviceId
  ownerUser := coalesce (nullIfEmpty stored.ownerUser) excluded.ownerUser
  status := excluded.status
  title := excluded.title
  workspacePath := coalesce excluded.workspacePath stored.workspacePath
  updatedAt := excluded.updatedAt
  sessionPolicyMode := excluded.sessionPolicyMode

/-- Its `WHERE`. A comparison with `NULL` does not hold. -/
def SessionRow.syncCondition (excluded : SessionRow) (ownerUser deviceId : Text)
    (stored : SessionRow) : Bool :=
  (nullIfEmpty stored.ownerUser = none || stored.ownerUser = some ownerUser) &&
    (nullIfEmpty stored.deviceId = none || stored.deviceId = some deviceId) &&
    (stored.updatedAt ≤ excluded.updatedAt || nullIfEmpty stored.title = none ||
      nullIfEmpty stored.workspacePath = none)

/-- Every text parameter of the statement. -/
def NormalizedSession.storable {c : Config} (pg : Postgres) (ownerUser deviceId : Text)
    (session : NormalizedSession c) : Bool :=
  pg.storable session.id && pg.storable deviceId && pg.storable ownerUser &&
    pg.storable session.status && pg.storable session.title && pg.storable session.workspacePath &&
    pg.storable session.sessionPolicyMode

/-- One statement of `syncSessionsPostgres`; a failing one ends the transaction. -/
def Config.syncOnePostgres (c : Config) (pg : Postgres) (ownerUser deviceId : Text)
    (state : Option (OrdMap Text SessionRow × SessionSyncResult)) (session : NormalizedSession c) :
    Option (OrdMap Text SessionRow × SessionSyncResult) :=
  match state with
  | none => none
  | some (sessions,result) =>
    if session.storable pg ownerUser deviceId = false then none
    else
      let excluded := session.row ownerUser deviceId
      let (sessions,affected) := insertOnConflict sessions session.id excluded excluded.syncUpdate
        (excluded.syncCondition ownerUser deviceId)
      if affected = 0 then some (sessions,{ result with skipped := result.skipped+1 })
      else some (sessions,{ result with accepted := result.accepted+1 })

/-- `none` when the transaction rolls back. -/
def Config.syncSessionsPostgres (c : Config) (pg : Postgres) (sessions : OrdMap Text SessionRow)
    (ownerUser deviceId : Text) (batch : List (NormalizedSession c)) :
    Option (OrdMap Text SessionRow × SessionSyncResult) :=
  batch.foldl (c.syncOnePostgres pg ownerUser deviceId) (some (sessions,{}))

/-- `upsertSession` on the maps; `none` is `errDeviceUnauthorized`. -/
def MemoryStore.upsertSession (m : MemoryStore) (session : SessionRecord) : Option MemoryStore :=
  match m.sessions.get session.id with
  | none => some { m with sessions := m.sessions.set session.id session }
  | some previous =>
    if previous.ownerUser ≠ [] ∧ session.ownerUser ≠ [] ∧ previous.ownerUser ≠ session.ownerUser then
      none
    else
      let merged := { session with
        ownerUser := if session.ownerUser = [] then previous.ownerUser else session.ownerUser
        deviceId := if session.deviceId = [] then previous.deviceId else session.deviceId
        workspacePath :=
          if session.workspacePath = [] then previous.workspacePath else session.workspacePath }
      some { m with sessions := m.sessions.set session.id merged }

/-- The owner check of `upsertSession`, a query of its own before the statement. -/
def PostgresStore.upsertAllowed (p : PostgresStore) (session : SessionRecord) : Bool :=
  match p.sessions.get session.id with
  | none => true
  | some row =>
    readText row.ownerUser = [] || session.ownerUser = [] || readText row.ownerUser = session.ownerUser

/-- The text parameters of that statement. -/
def SessionRecord.texts (session : SessionRecord) : List Text :=
  [session.id,session.deviceId,session.ownerUser,session.status,session.title,
    session.workspacePath,session.sessionPolicyMode]

/-- The statement of `upsertSession`; `none` when the database refuses a parameter. -/
def PostgresStore.upsertWrite (pg : Postgres) (p : PostgresStore) (session : SessionRecord) :
    Option PostgresStore :=
  if session.texts.all pg.storable = false then none
  else
    match pg.parseTimestamp session.updatedAt with
    | none => none
    | some updatedAt =>
      let excluded : SessionRow :=
        { deviceId := nullIfEmpty (some session.deviceId)
          ownerUser := nullIfEmpty (some session.ownerUser)
          status := some session.status
          title := some session.title
          workspacePath := nullIfEmpty (some session.workspacePath)
          updatedAt := updatedAt
          sessionPolicyMode := session.sessionPolicyMode }
      let update (stored : SessionRow) : SessionRow := { excluded with
        deviceId := coalesce excluded.deviceId stored.deviceId
        ownerUser := coalesce stored.ownerUser excluded.ownerUser
        workspacePath := coalesce excluded.workspacePath stored.workspacePath }
      let written := insertOnConflict p.sessions session.id excluded update (fun _ => true)
      some { p with sessions := written.1 }

/-- `time.RFC3339` has no fraction of a second. -/
def wholeSeconds (t : Time) : Time := t/1000000000*1000000000

/-- `appendOwnedEvent` on the maps, with the sequence number it returns. -/
def Config.appendMemory (c : Config) (m : MemoryStore) (now : Time) (sessionId ownerUser : Text)
    (event : GatewayPayload) : MemoryStore × Option Nat :=
  let log := (m.events.get sessionId).getD []
  let events := m.events.set sessionId (log ++ [event])
  match m.sessions.get sessionId with
  | some existing =>
    if existing.ownerUser ≠ [] ∧ existing.ownerUser ≠ ownerUser then (m,none)
    else ({ m with events := events },some (log.length+1))
  | none =>
    ({ sessions := m.sessions.set sessionId
        { id := sessionId, ownerUser := ownerUser, updatedAt := c.formatTime (wholeSeconds now) }
       events := events },some (log.length+1))

/-- `4<<20`. -/
def maxEventBytes : Nat := 4*1048576

/-- `appendOwnedEvent` in one transaction; `now` is the clock of the database. -/
def PostgresStore.append (pg : Postgres) (p : PostgresStore) (now : Time)
    (sessionId ownerUser : Text) (event : GatewayPayload) : PostgresStore × Option Nat :=
  if event.bytes > maxEventBytes then (p,none)
  else if (pg.storable sessionId && pg.storable ownerUser && event.jsonb) = false then (p,none)
  else
    let excluded : SessionRow :=
      { ownerUser := nullIfEmpty (some ownerUser), updatedAt := microseconds now }
    let update (stored : SessionRow) : SessionRow := { stored with
      ownerUser := coalesce stored.ownerUser excluded.ownerUser
      updatedAt := microseconds now }
    let sessions := (insertOnConflict p.sessions sessionId excluded update (fun _ => true)).1
    let storedOwner := (sessions.get sessionId).bind (·.ownerUser)
    if ownerUser ≠ [] ∧ storedOwner ≠ some ownerUser then (p,none)
    else
      let seq := (p.counters.get sessionId).getD 0+1
      ({ sessions := sessions
         counters := p.counters.set sessionId seq
         events := p.events ++ [(sessionId,seq,event)] },some seq)

namespace Sample

def ten : Text := "2026-09-03T10:00:00Z".toList
def tenOne : Text := "2026-09-03T10:01:00Z".toList
def tenOneFraction : Text := "2026-09-03T10:01:00.0000005Z".toList

def tenInstant : Time := 1788429600000000000

def clock : Config where
  toEnv := config.toEnv
  hmac := config.hmac
  sha256 := config.sha256
  unmarshal := config.unmarshal
  formatTime := fun _ => ten
  parseTime := fun text =>
    if text = ten then some tenInstant
    else if text = tenOne then some (tenInstant+60*1000000000)
    else if text = tenOneFraction then some (tenInstant+60*1000000000+500)
    else none
  runes := config.runes

/-- `TEXT` columns hold everything but the zero character. -/
def postgres : Postgres where
  storable := fun text => !text.contains (Char.ofNat 0)
  parseTimestamp := fun text => (clock.parseInstant text).map microseconds

def projectA : Text := "/srv/a".toList

end Sample

end CodeHarbor.Relay
