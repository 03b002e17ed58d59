import CodeHarbor.Relay.Account
import CodeHarbor.Relay.Revoke
import CodeHarbor.Relay.Sessions
set_option autoImplicit false

namespace CodeHarbor.Relay
open Lib Lib.Go Lib.Sql Lib.Base64

/-! Device records and pair codes in the relay's two stores. The relay holds one of the
two for its whole life: Go maps behind a mutex, or the tables of Postgres. -/

/-- `deviceRecord`; its id is the key. -/
structure MemoryDevice where
  ownerUser : Text := []
  name : Text := []
  credentialHash : Bytes
  revokedAt : Option Time := none
  deriving DecidableEq, Repr

/-- `pairCodeRecord`; its hash is the key. -/
structure MemoryPairCode where
  deviceId : Text
  expiresAt : Time
  used : Bool := false
  deriving DecidableEq, Repr

/-- `memoryDevices` and `memoryPairCodes`. -/
structure DeviceMemory where
  devices : OrdMap Text MemoryDevice := OrdMap.empty
  pairCodes : OrdMap Bytes MemoryPairCode := OrdMap.empty
  deriving DecidableEq, Repr

/-- A row of `relay_devices`. -/
structure DeviceRow where
  ownerUser : Option Text := none
  name : Text := []
  credentialHash : Bytes
  revokedAt : Option Micros := none
  deriving DecidableEq, Repr

/-- A row of `pair_codes`. -/
structure PairCodeRow where
  deviceId : Text
  expiresAt : Micros
  usedAt : Option Micros := none
  deriving DecidableEq, Repr

structure DeviceTables where
  devices : OrdMap Text DeviceRow := OrdMap.empty
  pairCodes : OrdMap Bytes PairCodeRow := OrdMap.empty
  deriving DecidableEq, Repr

/-- `storage` stands for every error of the database driver. -/
inductive DeviceError where
  | notFound
  | unauthorized
  | owned
  | revoked
  | invalidId
  | pairCodeInvalid
  | pairCodeOwned
  | storage
  deriving DecidableEq, Repr

/-- `randomToken`, from its 32 random bytes. -/
def randomToken (bytes : Fin 32 → UInt8) : Text := encodeToString (List.ofFn bytes)

def hexDigit (n : Nat) : Char := "0123456789abcdef".toList.getD n '0'

def hexByte (b : UInt8) : Text := [hexDigit (b.toNat/16),hexDigit (b.toNat%16)]

/-- `randomDeviceID`: a version 4 UUID from 16 random bytes. -/
def randomDeviceId (bytes : Fin 16 → UInt8) : Text :=
  let part (indices : List (Fin 16)) : Text :=
    (indices.map (fun i => hexByte
      (if i = 6 then (bytes 6 &&& 0x0f) ||| 0x40
       else if i = 8 then (bytes 8 &&& 0x3f) ||| 0x80
       else bytes i))).flatten
  part [0,1,2,3] ++ '-' :: part [4,5] ++ '-' :: part [6,7] ++ '-' :: part [8,9] ++
    '-' :: part [10,11,12,13,14,15]

def enrolledId (requested : Text) (random : Fin 16 → UInt8) : Except DeviceError Text :=
  match normalizeDeviceId requested with
  | some id => .ok id
  | none => if requested ≠ [] then .error .invalidId else .ok (randomDeviceId random)

/-- What stands in the way of an enrolment over an existing record. -/
def enrollCheck (user ownerUser : Text) (revoked : Bool) : Option DeviceError :=
  if revoked then some .revoked
  else if ownerUser ≠ [] ∧ ownerUser ≠ user then some .owned
  else none

/-- The shared server token takes over unowned devices only. -/
def legacyCheck (ownerUser : Text) (revoked : Bool) : Option DeviceError :=
  if revoked then some .revoked else if ownerUser ≠ [] then some .owned else none

section Memory

variable (m : DeviceMemory)

def DeviceMemory.enrollDevice (user id name : Text) (credentialHash : Bytes) :
    Except DeviceError DeviceMemory :=
  let record : MemoryDevice :=
    { ownerUser := user, name := trimSpace name, credentialHash := credentialHash }
  match (m.devices.get id).bind (fun d => enrollCheck user d.ownerUser d.revokedAt.isSome) with
  | some e => .error e
  | none => .ok { m with devices := m.devices.set id record }

def DeviceMemory.registerLegacyDevice (id name : Text) (credentialHash : Bytes) :
    Except DeviceError DeviceMemory :=
  let record : MemoryDevice := { name := trimSpace name, credentialHash := credentialHash }
  match (m.devices.get id).bind (fun d => legacyCheck d.ownerUser d.revokedAt.isSome) with
  | some e => .error e
  | none => .ok { m with devices := m.devices.set id record }

/-- The credential is compared before the revocation is looked at. -/
def DeviceMemory.authenticateDevice (id : Text) (hash : Bytes) : Except DeviceError MemoryDevice :=
  match m.devices.get id with
  | none => .error .unauthorized
  | some record =>
    if record.credentialHash ≠ hash then .error .unauthorized
    else if record.revokedAt.isSome then .error .revoked
    else .ok record

def DeviceMemory.revokeDevice (ownerUser id : Text) (now : Time) : Except DeviceError DeviceMemory :=
  match m.devices.get id with
  | none => .error .unauthorized
  | some record =>
    if record.ownerUser ≠ ownerUser then .error .unauthorized
    else .ok { m with devices := m.devices.set id { record with revokedAt := some now } }

/-- Every unused code of the device is marked used before the new one goes in. -/
def DeviceMemory.createPairCode (deviceId : Text) (hash : Bytes) (expiresAt : Time) :
    Except DeviceError DeviceMemory :=
  match m.devices.get deviceId with
  | none => .error .notFound
  | some device =>
    if device.revokedAt.isSome then .error .notFound
    else if device.ownerUser ≠ [] then .error .pairCodeOwned
    else
      let superseded := m.pairCodes.mapValues (fun _ value =>
        if value.deviceId = deviceId ∧ value.used = false then { value with used := true } else value)
      let record : MemoryPairCode := { deviceId := deviceId, expiresAt := expiresAt }
      .ok { m with pairCodes := superseded.set hash record }

def DeviceMemory.consumePairCode (hash : Bytes) (ownerUser : Text) (now : Time) :
    Except DeviceError (DeviceMemory × Text) :=
  match m.pairCodes.get hash with
  | none => .error .pairCodeInvalid
  | some value =>
    if value.used ∨ ¬ now < value.expiresAt then .error .pairCodeInvalid
    else
      match m.devices.get value.deviceId with
      | none => .error .pairCodeInvalid
      | some device =>
        if device.revokedAt.isSome then .error .pairCodeInvalid
        else if device.ownerUser ≠ [] ∧ device.ownerUser ≠ ownerUser then .error .pairCodeOwned
        else .ok
          ({ devices := m.devices.set value.deviceId { device with ownerUser := ownerUser }
             pairCodes := m.pairCodes.set hash { value with used := true } },value.deviceId)

/-- The part of `cleanupExpired` that concerns pair codes. -/
def DeviceMemory.cleanupExpired (now : Time) : DeviceMemory :=
  { m with pairCodes := m.pairCodes.filter (fun _ value => now < value.expiresAt) }

end Memory

section Tables

variable (pg : Postgres) (t : DeviceTables)

/-- One transaction: the row is locked, checked, then updated or inserted. -/
def DeviceTables.enrollDevice (user id name : Text) (credentialHash : Bytes) :
    Except DeviceError DeviceTables :=
  if pg.storable id = false then .error .storage
  else
    match t.devices.get id with
    | some row =>
      match enrollCheck user (readText row.ownerUser) row.revokedAt.isSome with
      | some e => .error e
      | none =>
        if (pg.storable user && pg.storable (trimSpace name)) = false then .error .storage
        else
          let row := { row with
            ownerUser := some user, name := trimSpace name, credentialHash := credentialHash }
          .ok { t with devices := t.devices.set id row }
    | none =>
      if (pg.storable user && pg.storable (trimSpace name)) = false then .error .storage
      else
        let row : DeviceRow :=
          { ownerUser := some user, name := trimSpace name, credentialHash := credentialHash }
        .ok { t with devices := t.devices.set id row }

def DeviceTables.registerLegacyDevice (id name : Text) (credentialHash : Bytes) :
    Except DeviceError DeviceTables :=
  if pg.storable id = false then .error .storage
  else
    match t.devices.get id with
    | some row =>
      match legacyCheck (readText row.ownerUser) row.revokedAt.isSome with
      | some e => .error e
      | none =>
        if pg.storable (trimSpace name) = false then .error .storage
        else
          let row := { row with name := trimSpace name, credentialHash := credentialHash }
          .ok { t with devices := t.devices.set id row }
    | none =>
      if pg.storable (trimSpace name) = false then .error .storage
      else
        let row : DeviceRow := { name := trimSpace name, credentialHash := credentialHash }
        .ok { t with devices := t.devices.set id row }

/-- Here the revocation is looked at first. -/
def DeviceTables.authenticateDevice (id : Text) (hash : Bytes) : Except DeviceError DeviceRow :=
  if pg.storable id = false then .error .storage
  else
    match t.devices.get id with
    | none => .error .unauthorized
    | some row =>
      if row.revokedAt.isSome then .error .revoked
      else if row.credentialHash ≠ hash then .error .unauthorized
      else .ok row

/-- An update that meets no row asks whether the device is revoked already. -/
def DeviceTables.revokeDevice (ownerUser id : Text) (now : Time) : Except DeviceError DeviceTables :=
  if (pg.storable id && pg.storable ownerUser) = false then .error .storage
  else
    match t.devices.get id with
    | none => .error .unauthorized
    | some row =>
      if row.ownerUser ≠ some ownerUser then .error .unauthorized
      else if row.revokedAt.isSome then .ok t
      else .ok { t with
        devices := t.devices.set id { row with revokedAt := some (microseconds now) } }

def DeviceTables.createPairCode (deviceId : Text) (hash : Bytes) (expiresAt now : Time) :
    Except DeviceError DeviceTables :=
  if pg.storable deviceId = false then .error .storage
  else
    match t.devices.get deviceId with
    | none => .error .notFound
    | some row =>
      if row.revokedAt.isSome then .error .revoked
      else if readText row.ownerUser ≠ [] then .error .pairCodeOwned
      else if t.pairCodes.has hash then .error .storage
      else
        let superseded := t.pairCodes.mapValues (fun _ value =>
          if value.deviceId = deviceId ∧ value.usedAt = none then
            { value with usedAt := some (microseconds now) }
          else value)
        let row : PairCodeRow := { deviceId := deviceId, expiresAt := microseconds expiresAt }
        .ok { t with pairCodes := superseded.set hash row }

/-- The expiry comes back from the database in whole microseconds. -/
def PairCodeRow.expiry (row : PairCodeRow) : Time := row.expiresAt*1000

def DeviceTables.consumePairCode (hash : Bytes) (ownerUser : Text) (now : Time) :
    Except DeviceError (DeviceTables × Text) :=
  match t.pairCodes.get hash with
  | none => .error .pairCodeInvalid
  | some value =>
    if value.usedAt.isSome ∨ ¬ now < value.expiry then .error .pairCodeInvalid
    else
      match t.devices.get value.deviceId with
      | none => .error .storage
      | some row =>
        if row.revokedAt.isSome then .error .pairCodeInvalid
        else if readText row.ownerUser ≠ [] ∧ readText row.ownerUser ≠ ownerUser then
          .error .pairCodeOwned
        else if pg.storable ownerUser = false then .error .storage
        else .ok
          ({ devices := t.devices.set value.deviceId { row with ownerUser := some ownerUser }
             pairCodes := t.pairCodes.set hash { value with usedAt := some (microseconds now) } },
            value.deviceId)

/-- `DELETE FROM pair_codes WHERE expires_at <= now()`. -/
def DeviceTables.cleanupExpired (now : Time) : DeviceTables :=
  { t with pairCodes := t.pairCodes.filter (fun _ value => microseconds now < value.expiresAt) }

end Tables

/-- `store`, with `pool == nil` or not. -/
inductive DeviceStore where
  | memory (m : DeviceMemory)
  | postgres (t : DeviceTables)
  deriving DecidableEq, Repr

section Store

variable (c : Config) (pg : Postgres) (s : DeviceStore)

def DeviceStore.enrollDevice (user requested name : Text) (random : Fin 16 → UInt8)
    (secret : Fin 32 → UInt8) : Except DeviceError (DeviceStore × Text) :=
  if user = [] then .error .unauthorized
  else
    match enrolledId requested random with
    | .error e => .error e
    | .ok id =>
      let hash := c.hashCredential (randomToken secret)
      match s with
      | .memory m => (m.enrollDevice user id name hash).map (fun m => (.memory m,id))
      | .postgres t => (t.enrollDevice pg user id name hash).map (fun t => (.postgres t,id))

def DeviceStore.registerLegacyDevice (raw name : Text) (secret : Fin 32 → UInt8) :
    Except DeviceError (DeviceStore × Text) :=
  match normalizeDeviceId raw with
  | none => .error .notFound
  | some id =>
    let hash := c.hashCredential (randomToken secret)
    match s with
    | .memory m => (m.registerLegacyDevice id name hash).map (fun m => (.memory m,id))
    | .postgres t => (t.registerLegacyDevice pg id name hash).map (fun t => (.postgres t,id))

/-- The id is looked up as it is given; the answer is the owner of the record. -/
def DeviceStore.authenticateDevice (id secret : Text) : Except DeviceError Text :=
  if id = [] ∨ secret = [] then .error .unauthorized
  else
    let hash := c.hashCredential secret
    match s with
    | .memory m => (m.authenticateDevice id hash).map (·.ownerUser)
    | .postgres t => (t.authenticateDevice pg id hash).map (readText ·.ownerUser)

def DeviceStore.revokeDevice (user raw : Text) (now : Time) : Except DeviceError DeviceStore :=
  let ownerUser := trimSpace user
  if ownerUser = [] then .error .unauthorized
  else
    match normalizeDeviceId raw with
    | none => .error .invalidId
    | some id =>
      match s with
      | .memory m => (m.revokeDevice ownerUser id now).map .memory
      | .postgres t => (t.revokeDevice pg ownerUser id now).map .postgres

/-- `pairCodeTTL`, ten minutes. -/
def pairCodeTTL : Time := 10*60*1000000000

def pairCodeAlphabet : Text := "ABCDEFGHJKLMNPQRSTUVWXYZ23456789".toList

/-- `randomPairCode`, from its six random bytes. -/
def randomPairCode (bytes : Fin 6 → UInt8) : Text :=
  (List.ofFn bytes).map (fun b => pairCodeAlphabet.getD (b.toNat%pairCodeAlphabet.length) 'A')

/-- The code and when it expires, as the store has it. -/
def DeviceStore.createPairCode (raw : Text) (random : Fin 6 → UInt8) (now : Time) :
    Except DeviceError (DeviceStore × Text) :=
  let deviceId := trimSpace raw
  if deviceId = [] then .error .notFound
  else
    let hash := c.hashCredential (randomPairCode random)
    let expiresAt := now+pairCodeTTL
    match s with
    | .memory m => (m.createPairCode deviceId hash expiresAt).map (fun m => (.memory m,deviceId))
    | .postgres t =>
      (t.createPairCode pg deviceId hash expiresAt now).map (fun t => (.postgres t,deviceId))

def normalizePairCode (code : Text) : Text := toUpper (trimSpace code)

def DeviceStore.consumePairCode (code user : Text) (now : Time) :
    Except DeviceError (DeviceStore × Text) :=
  let code := normalizePairCode code
  let ownerUser := trimSpace user
  if byteLen code ≠ pairCodeLength ∨ ownerUser = [] then .error .pairCodeInvalid
  else
    let hash := c.hashCredential code
    match s with
    | .memory m => (m.consumePairCode hash ownerUser now).map (fun r => (.memory r.1,r.2))
    | .postgres t => (t.consumePairCode pg hash ownerUser now).map (fun r => (.postgres r.1,r.2))

def DeviceStore.cleanupExpired (now : Time) : DeviceStore :=
  match s with
  | .memory m => .memory (m.cleanupExpired now)
  | .postgres t => .postgres (t.cleanupExpired now)

end Store

/-! What both stores know, and what each operation does to it. -/

structure Device where
  ownerUser : Text
  name : Text
  credentialHash : Bytes
  revoked : Bool
  deriving DecidableEq, Repr

structure PairCode where
  deviceId : Text
  expiresAt : Time
  used : Bool
  deriving DecidableEq, Repr

def MemoryDevice.device (d : MemoryDevice) : Device :=
  ⟨d.ownerUser,d.name,d.credentialHash,d.revokedAt.isSome⟩

def DeviceRow.device (row : DeviceRow) : Device :=
  ⟨readText row.ownerUser,row.name,row.credentialHash,row.revokedAt.isSome⟩

def MemoryPairCode.pairCode (value : MemoryPairCode) : PairCode :=
  ⟨value.deviceId,value.expiresAt,value.used⟩

def PairCodeRow.pairCode (row : PairCodeRow) : PairCode :=
  ⟨row.deviceId,row.expiry,row.usedAt.isSome⟩

def DeviceStore.device (s : DeviceStore) (id : Text) : Option Device :=
  match s with
  | .memory m => (m.devices.get id).map (·.device)
  | .postgres t => (t.devices.get id).map (·.device)

def DeviceStore.pairCode (s : DeviceStore) (hash : Bytes) : Option PairCode :=
  match s with
  | .memory m => (m.pairCodes.get hash).map (·.pairCode)
  | .postgres t => (t.pairCodes.get hash).map (·.pairCode)

def DeviceStore.holds (pg : Postgres) (s : DeviceStore) (text : Text) : Bool :=
  match s with
  | .memory _ => true
  | .postgres _ => pg.storable text

/-- An instant as the store keeps it. -/
def DeviceStore.keeps (s : DeviceStore) (t : Time) : Time :=
  match s with
  | .memory _ => t
  | .postgres _ => microseconds t*1000

/-- The same kind of store, in which nothing but one device has changed. -/
structure DeviceStore.Puts (pg : Postgres) (s s' : DeviceStore) (id : Text) (d : Device) : Prop where
  device : ∀ j, s'.device j = if j = id then some d else s.device j
  pairCode : s'.pairCode = s.pairCode
  holds : s'.holds pg = s.holds pg

/-- A device whose record an enrolment or a pairing by the user may replace. -/
def Device.free (d : Device) (user : Text) : Prop :=
  d.revoked = false ∧ (d.ownerUser = [] ∨ d.ownerUser = user)

end CodeHarbor.Relay
