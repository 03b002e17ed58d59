import CodeHarbor.Lib.Run
import CodeHarbor.Relay.DeviceRecords
set_option autoImplicit false

namespace CodeHarbor.Relay
open Lib Lib.Go Lib.Base64

/-! One relay instance while devices are revoked, paired and shaking hands. Every request
handler and every socket is a party of its own, advanced one atomic segment at a time. -/

/-- How far the hello of a socket has come in `serveDevice`. -/
inductive HelloStage where
  | waiting
  | authenticated
  | replacing (previous : Option Nat)
  | replaced
  | leased
  | registered (previous : Option Nat)
  | ready
  | closed
  deriving DecidableEq, Repr

/-- The record is resolved, the socket not yet in the device map. -/
def HelloStage.underway : HelloStage → Bool
  | .authenticated => true
  | .replacing _ => true
  | .replaced => true
  | .leased => true
  | _ => false

structure DeviceSocket where
  deviceId : Text := []
  ownerUser : Text := []
  stage : HelloStage := .waiting
  stopped : Bool := false
  deriving DecidableEq, Repr

/-- How far a revocation request has come once the store has accepted it. -/
inductive RevokeStage where
  | stored
  | found (target : Option Nat)
  | disconnected
  | shared
  | answered
  | failed
  deriving DecidableEq, Repr

structure RevokeCall where
  deviceId : Text
  account : Account
  stage : RevokeStage := .stored
  deriving DecidableEq, Repr

/-- `redis` says that a Redis is configured, `legacyToken` is `CODEHARBOR_DEVICE_TOKEN`.
`paired` are the pairings whose live socket is still to be bound, here or after the
announcement of another instance; `bindings` are the sockets fetched for that. -/
structure Instance where
  redis : Bool := false
  legacyToken : Text := []
  records : DeviceRecords := OrdMap.empty
  sockets : List DeviceSocket := []
  devices : OrdMap Text Nat := OrdMap.empty
  paired : List (Text × Account) := []
  bindings : List (Nat × Account) := []
  calls : List RevokeCall := []
  deriving DecidableEq, Repr

inductive InstanceEvent where
  | authenticated (socket : Nat) (deviceId : Text)
  | lookedUp (deviceId : Text)
  | answered (deviceId : Text)
  deriving DecidableEq, Repr

def Instance.modifySocket (r : Instance) (k : Nat) (f : DeviceSocket → DeviceSocket) : Instance :=
  { r with sockets := r.sockets.modify k f }

def Instance.stop (r : Instance) (k : Nat) : Instance :=
  r.modifySocket k ({ · with stopped := true })

def Instance.setStage (r : Instance) (k : Nat) (stage : HelloStage) : Instance :=
  r.modifySocket k ({ · with stage := stage })

/-- `previous.stop()`, unless the previous socket is the same one. -/
def Instance.stopPrevious (r : Instance) (k : Nat) : Option Nat → Instance
  | some j => if j = k then r else r.stop j
  | none => r

/-- `remove`, run when the read loop of a socket returns. -/
def Instance.remove (r : Instance) (k : Nat) : Instance :=
  match r.sockets[k]? with
  | none => r
  | some s =>
    let devices := if r.devices.get s.deviceId = some k then r.devices.erase s.deviceId else r.devices
    ({ r with devices := devices }.stop k).setStage k .closed

structure Hello where
  deviceId : Text
  deviceToken : Text := []
  serverToken : Option Text := none
  deriving DecidableEq, Repr

/-- The record that the credentials of a hello resolve to. -/
def Instance.resolve (c : Config) (r : Instance) (hello : Hello) (secret : Text) :
    Option (Text × DeviceRecord × DeviceRecords) :=
  if hello.deviceToken ≠ [] then
    (r.records.authenticateDevice c hello.deviceId hello.deviceToken).map
      (fun record => (hello.deviceId,record,r.records))
  else if r.legacyToken ≠ [] ∧ hello.serverToken = some r.legacyToken then
    r.records.registerLegacyDevice c hello.deviceId secret
  else none

def Instance.hello (c : Config) (r : Instance) (k : Nat) (hello : Hello) (secret : Text)
    (storageUp : Bool) : Instance × List InstanceEvent :=
  match r.sockets[k]? with
  | none => (r,[])
  | some s =>
    if s.stage ≠ .waiting then (r,[])
    else if storageUp = false then ((r.stop k).remove k,[])
    else
      match r.resolve c hello secret with
      | none => ((r.stop k).remove k,[])
      | some (deviceId,record,records) =>
        ({ r with records := records }.modifySocket k
          (fun s => { s with
            deviceId := deviceId
            ownerUser := record.ownerUser
            stage := .authenticated }),[.authenticated k deviceId])

/-- The rest of the handshake, one segment a call: note the current socket of the device,
stop it, take the lease, enter the device map, stop the socket found there. -/
def Instance.advance (r : Instance) (k : Nat) (leaseUp : Bool) : Instance :=
  match r.sockets[k]? with
  | none => r
  | some s =>
    match s.stage with
    | .authenticated => r.setStage k (.replacing (r.devices.get s.deviceId))
    | .replacing previous => (r.stopPrevious k previous).setStage k .replaced
    | .replaced => if leaseUp then r.setStage k .leased else (r.stop k).remove k
    | .leased =>
      { r with devices := r.devices.set s.deviceId k }.setStage k
        (.registered (r.devices.get s.deviceId))
    | .registered previous => (r.stopPrevious k previous).setStage k .ready
    | _ => r

/-- The first half of `disconnectOwnedDevice`, under the read lock. The id is the raw one. -/
def Instance.ownedTarget (r : Instance) (deviceId ownerUser : Text) : Option Nat :=
  match r.devices.get deviceId with
  | none => none
  | some k =>
    match r.sockets[k]? with
    | none => none
    | some s => if s.ownerUser = ownerUser ∨ s.ownerUser = [] then some k else none

def Instance.setCall (r : Instance) (h : Nat) (stage : RevokeStage) : Instance :=
  { r with calls := r.calls.modify h ({ · with stage := stage }) }

def revokeSuffix : Text := "/revoke".toList

def devicesPath : Text := "/api/v1/devices/".toList

/-- `strings.HasSuffix` with `strings.TrimSuffix`. -/
def cutSuffix (s suffix : Text) : Option Text :=
  if suffix.isSuffixOf s then some (s.take (s.length-suffix.length)) else none

/-- The revocation endpoint up to its store call. A refusal answers at once. -/
def Instance.revoke (r : Instance) (path : Text) (account : Account) (storageUp : Bool) : Instance :=
  match cutSuffix (trimPrefix path devicesPath) revokeSuffix with
  | none => r
  | some deviceId =>
    if storageUp = false then r
    else
      match r.records.revokeDevice account deviceId with
      | none => r
      | some records =>
        { r with
          records := records
          calls := r.calls ++ [{ deviceId := deviceId, account := account }] }

/-- The endpoint after its store call: look the live socket up, stop it, then write and
publish the shared revocation when there is a Redis. -/
def Instance.revokeStep (r : Instance) (h : Nat) (redisUp : Bool) :
    Instance × List InstanceEvent :=
  match r.calls[h]? with
  | none => (r,[])
  | some call =>
    match call.stage with
    | .stored =>
      (r.setCall h (.found (r.ownedTarget call.deviceId call.account.user)),[.lookedUp call.deviceId])
    | .found (some k) => ((r.stop k).setCall h .disconnected,[])
    | .found none => (r.setCall h .disconnected,[])
    | .disconnected =>
      if r.redis = false then (r.setCall h .answered,[.answered call.deviceId])
      else if redisUp then (r.setCall h .shared,[])
      else (r.setCall h .failed,[])
    | .shared =>
      if redisUp then (r.setCall h .answered,[.answered call.deviceId])
      else (r.setCall h .failed,[])
    | .answered => (r,[])
    | .failed => (r,[])

/-- A pairing fetches the live socket and checks its old owner. -/
def Instance.bindStart (r : Instance) (n : Nat) : Instance :=
  match r.paired[n]? with
  | none => r
  | some (deviceId,account) =>
    match r.devices.get deviceId with
    | none => r
    | some k =>
      match r.sockets[k]? with
      | none => r
      | some s =>
        if s.ownerUser ≠ [] ∧ s.ownerUser ≠ account.user then r.stop k
        else { r with bindings := r.bindings ++ [(k,account)] }

/-- It then moves the lease to the owner, and binds or stops the socket. -/
def Instance.bindEnd (r : Instance) (n : Nat) (leaseUp : Bool) : Instance :=
  match r.bindings[n]? with
  | none => r
  | some (k,account) =>
    if leaseUp then r.modifySocket k ({ · with ownerUser := account.user }) else r.stop k

/-- A request routed to a socket whose lease is gone drops that socket. -/
def Instance.dropStale (r : Instance) (deviceId : Text) (k : Nat) : Instance :=
  let devices := if r.devices.get deviceId = some k then r.devices.erase deviceId else r.devices
  { r with devices := devices }.stop k

inductive InstanceInput where
  | connect
  | hello (socket : Nat) (hello : Hello) (secret : Text) (storageUp : Bool)
  | advance (socket : Nat) (leaseUp : Bool)
  | remove (socket : Nat)
  | stop (socket : Nat)
  | dropStale (deviceId : Text) (socket : Nat)
  | enroll (account : Account) (requested random secret : Text)
  | pair (deviceId : Text) (account : Account)
  | bindStart (pairing : Nat)
  | bindEnd (binding : Nat) (leaseUp : Bool)
  | revoke (path : Text) (account : Account) (storageUp : Bool)
  | revokeStep (call : Nat) (redisUp : Bool)
  deriving DecidableEq, Repr

def Instance.step (c : Config) (r : Instance) : InstanceInput → Instance × List InstanceEvent
  | .connect => ({ r with sockets := r.sockets ++ [{}] },[])
  | .hello k hello secret storageUp => r.hello c k hello secret storageUp
  | .advance k leaseUp => (r.advance k leaseUp,[])
  | .remove k => (r.remove k,[])
  | .stop k => (r.stop k,[])
  | .dropStale deviceId k => (r.dropStale deviceId k,[])
  | .enroll account requested random secret =>
    (match r.records.enrollDevice c account.user requested random secret with
      | none => r
      | some records => { r with records := records },[])
  | .pair deviceId account =>
    (match r.records.pairDevice deviceId account with
      | none => r
      | some records =>
        { r with records := records, paired := r.paired ++ [(deviceId,account)] },[])
  | .bindStart n => (r.bindStart n,[])
  | .bindEnd n leaseUp => (r.bindEnd n leaseUp,[])
  | .revoke path account storageUp => (r.revoke path account storageUp,[])
  | .revokeStep h redisUp => r.revokeStep h redisUp

def Config.relayInstance (c : Config) : Machine Instance InstanceInput InstanceEvent where
  init r := r.sockets = [] ∧ r.devices = OrdMap.empty ∧ r.paired = [] ∧ r.bindings = [] ∧ r.calls = []
  step r input := r.step c input

/-- A socket that is not stopped is registered under the id. -/
def Instance.running (r : Instance) (deviceId : Text) : Bool :=
  match r.devices.get deviceId with
  | none => false
  | some k =>
    match r.sockets[k]? with
    | none => false
    | some s => !s.stopped

end CodeHarbor.Relay
