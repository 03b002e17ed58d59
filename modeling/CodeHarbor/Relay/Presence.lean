import CodeHarbor.Lib.Run
import CodeHarbor.Relay.Token
set_option autoImplicit false

namespace CodeHarbor.Relay
open Lib Lib.Go Lib.Base64

/-! A Redis-backed deployment: several relay instances share presence leases and
revoked-device keys, and each keeps its own device sockets. -/

/-- `deviceLeaseTTL`, 45 seconds. -/
def deviceLeaseTTL : Time := 45*1000000000

/-- One device socket. `relay` is the instance that holds it; `reading` says that its read
loop has not returned. A stopped socket may still hand over buffered messages. -/
structure DevicePeer where
  relay : Nat
  presenceToken : Text
  deviceId : Text := []
  ownerUser : Text := []
  authenticated : Bool := false
  stopped : Bool := false
  reading : Bool := true
  deriving DecidableEq, Repr

def DevicePeer.leaseValue (p : DevicePeer) : Text := p.ownerUser ++ '|' :: p.presenceToken

structure Notice where
  relay : Nat
  deviceId : Text
  ownerUser : Text
  deriving DecidableEq, Repr

/-- `presence` and `revoked` live in Redis; `devices` is each instance's map from device
id to its current socket; `notices` are revocation messages still under way. -/
structure Fleet where
  relays : Nat := 1
  now : Time := 0
  presence : List (Text × Text × Time) := []
  revoked : List Bytes := []
  peers : List DevicePeer := []
  devices : List ((Nat × Text) × Nat) := []
  notices : List Notice := []
  deriving DecidableEq, Repr

/-- Which Redis calls of a step succeed. -/
structure RedisUp where
  mark : Bool := true
  lease : Bool := true
  clear : Bool := true
  bind : Bool := true
  get : Bool := true
  revoke : Bool := true
  publish : Bool := true
  deriving DecidableEq, Repr

def Fleet.getPresence (f : Fleet) (deviceId : Text) : Option Text :=
  match f.presence.lookup deviceId with
  | some (value,expires) => if f.now < expires then some value else none
  | none => none

def Fleet.setPresence (f : Fleet) (deviceId value : Text) : Fleet :=
  { f with presence := (deviceId,value,f.now+deviceLeaseTTL) :: f.presence }

def Fleet.delPresence (f : Fleet) (deviceId : Text) : Fleet :=
  { f with presence := f.presence.filter (·.1 ≠ deviceId) }

def Fleet.modifyPeer (f : Fleet) (k : Nat) (g : DevicePeer → DevicePeer) : Fleet :=
  { f with peers := f.peers.modify k g }

def Fleet.stop (f : Fleet) (k : Nat) : Fleet := f.modifyPeer k ({ · with stopped := true })

def Fleet.currentDevicePeer (f : Fleet) (relay : Nat) (deviceId : Text) : Option Nat :=
  if deviceId = [] then none else f.devices.lookup (relay,deviceId)

def Fleet.setDevice (f : Fleet) (relay : Nat) (deviceId : Text) (k : Nat) : Fleet :=
  { f with devices := ((relay,deviceId),k) :: f.devices.filter (·.1 ≠ (relay,deviceId)) }

def Fleet.deleteDevice (f : Fleet) (relay : Nat) (deviceId : Text) (k : Nat) : Fleet :=
  { f with devices := f.devices.filter (· ≠ ((relay,deviceId),k)) }

def Fleet.clearDevicePresence (f : Fleet) (p : DevicePeer) (up : RedisUp) : Fleet :=
  if p.deviceId = [] ∨ p.ownerUser = [] ∨ p.presenceToken = [] ∨ up.clear = false then f
  else if f.getPresence p.deviceId = some p.leaseValue then f.delPresence p.deviceId
  else f

/-- `remove`, run when a read loop returns. -/
def Fleet.remove (f : Fleet) (k : Nat) (up : RedisUp) : Fleet :=
  match f.peers[k]? with
  | none => f
  | some p =>
    ((f.clearDevicePresence p up).deleteDevice p.relay p.deviceId k).modifyPeer k
      ({ · with stopped := true, reading := false })

def Fleet.acquireDeviceLease (f : Fleet) (p : DevicePeer) (up : RedisUp) : Option Fleet :=
  if p.deviceId = [] ∨ p.ownerUser = [] ∨ p.presenceToken = [] then some f
  else if up.lease = false then none
  else if (f.getPresence p.deviceId).isSome then none
  else some (f.setPresence p.deviceId p.leaseValue)

/-- The heartbeat script: `-1` for a revoked device, `1` for a renewed lease, `0` for a
lost one. -/
def Config.presenceScript (c : Config) (f : Fleet) (p : DevicePeer) : Int × Fleet :=
  if c.hashCredential p.deviceId ∈ f.revoked then (-1,f)
  else if f.getPresence p.deviceId = some p.leaseValue then
    (1,f.setPresence p.deviceId p.leaseValue)
  else (0,f)

/-- Only an error and the result `0` stop the peer. -/
def Config.markDevicePresence (c : Config) (f : Fleet) (k : Nat) (p : DevicePeer)
    (up : RedisUp) : Bool × Fleet :=
  if p.deviceId = [] ∨ p.ownerUser = [] then (true,f)
  else if up.mark = false then (false,f.stop k)
  else if (c.presenceScript f p).1 = 0 then (false,(c.presenceScript f p).2.stop k)
  else (true,(c.presenceScript f p).2)

/-- What a device sends. A hello carries the record its credentials resolve to: device id
and owner, or nothing when the store refuses them. -/
inductive DeviceMessage where
  | ping
  | deviceHello (record : Option (Text × Text))
  | pairCodeCreate
  | sessionSync
  | gatewayEvent
  | proxyResponse
  | unknown
  deriving DecidableEq, Repr

/-- The first hello of a socket: replace an older socket of the device on this instance,
take the lease, and become authenticated. -/
def Config.serveHello (c : Config) (f : Fleet) (k : Nat) (p : DevicePeer)
    (record : Option (Text × Text)) (up : RedisUp) : Fleet :=
  match record with
  | none => (f.stop k).remove k up
  | some (deviceId,ownerUser) =>
    if deviceId = [] then (f.stop k).remove k up
    else
      let p := { p with deviceId := deviceId, ownerUser := ownerUser }
      let f := f.modifyPeer k (fun _ => p)
      let f :=
        match f.currentDevicePeer p.relay deviceId with
        | some j =>
          match f.peers[j]? with
          | some previous =>
            if j = k then f else (f.stop j).clearDevicePresence previous up
          | none => f
        | none => f
      match f.acquireDeviceLease p up with
      | none => (f.stop k).remove k up
      | some f =>
        let p := { p with authenticated := true }
        let f := (f.setDevice p.relay deviceId k).modifyPeer k (fun _ => p)
        let marked := c.markDevicePresence f k p up
        if marked.1 then marked.2 else marked.2.remove k up

inductive ReadOutcome where
  | processed
  | ended
  deriving DecidableEq, Repr

/-- The trace: revoked-device keys as they are written, and what became of each message
read from an authenticated, owned socket. -/
inductive FleetEvent where
  | keySet (key : Bytes)
  | read (peer : Nat) (deviceId : Text) (outcome : ReadOutcome)
  deriving DecidableEq, Repr

def DevicePeer.owned (p : DevicePeer) : Bool := p.deviceId ≠ [] && p.ownerUser ≠ []

def DevicePeer.report (p : DevicePeer) (k : Nat) (outcome : ReadOutcome) : List FleetEvent :=
  if p.owned then [.read k p.deviceId outcome] else []

/-- One turn of the read loop of `serveDevice`. A second hello ends the loop. -/
def Config.readMessage (c : Config) (f : Fleet) (k : Nat) (message : DeviceMessage)
    (up : RedisUp) : Fleet × List FleetEvent :=
  match f.peers[k]? with
  | none => (f,[])
  | some p =>
    if p.reading = false then (f,[])
    else if p.authenticated then
      let marked := c.markDevicePresence f k p up
      if marked.1 = false then (marked.2.remove k up,p.report k .ended)
      else
        match message with
        | .deviceHello _ => ((marked.2.stop k).remove k up,p.report k .ended)
        | _ => (marked.2,p.report k .processed)
    else
      match message with
      | .ping => (f,[])
      | .deviceHello record => (c.serveHello f k p record up,[])
      | _ => ((f.stop k).remove k up,[])

def Fleet.disconnectOwnedDevice (f : Fleet) (relay : Nat) (deviceId ownerUser : Text) : Fleet :=
  match f.devices.lookup (relay,deviceId) with
  | none => f
  | some k =>
    match f.peers[k]? with
    | none => f
    | some p => if p.ownerUser = ownerUser ∨ p.ownerUser = [] then f.stop k else f

/-- The revocation endpoint behind its authorisation and storage checks: local disconnect,
then the shared key, then the notice to every instance. -/
def Config.revokeDevice (c : Config) (f : Fleet) (relay : Nat) (deviceId ownerUser : Text)
    (up : RedisUp) : Fleet × List FleetEvent :=
  let f := f.disconnectOwnedDevice relay deviceId ownerUser
  if up.revoke = false ∨ deviceId = [] then (f,[])
  else
    let key := c.hashCredential deviceId
    let notices := (List.range f.relays).map (fun r => ⟨r,deviceId,ownerUser⟩)
    ({ f with
        revoked := key :: f.revoked
        notices := if up.publish then f.notices ++ notices else f.notices },[.keySet key])

/-- `bindDeviceOwner` on an instance's current socket of the device. -/
def Fleet.bindDeviceOwner (f : Fleet) (relay : Nat) (deviceId ownerUser : Text) (up : RedisUp) :
    Fleet :=
  match f.devices.lookup (relay,deviceId) with
  | none => f
  | some k =>
    match f.peers[k]? with
    | none => f
    | some p =>
      let bound := { p with ownerUser := ownerUser }
      let current := f.getPresence p.deviceId
      if ownerUser = [] ∨ (p.ownerUser ≠ [] ∧ p.ownerUser ≠ ownerUser) ∨ up.bind = false then
        f.stop k
      else if current = none ∨ current = some p.leaseValue ∨ current = some bound.leaseValue then
        (f.setPresence p.deviceId bound.leaseValue).modifyPeer k (fun _ => bound)
      else f.stop k

def Fleet.deviceLeaseOwned (f : Fleet) (p : DevicePeer) (up : RedisUp) : Bool :=
  p.deviceId ≠ [] && p.ownerUser ≠ [] && p.presenceToken ≠ [] && up.get &&
    f.getPresence p.deviceId = some p.leaseValue

/-- Routing a proxy request drops a socket whose lease is gone. -/
def Fleet.routeProxy (f : Fleet) (relay : Nat) (deviceId : Text) (up : RedisUp) : Fleet :=
  match f.devices.lookup (relay,deviceId) with
  | none => f
  | some k =>
    match f.peers[k]? with
    | none => f
    | some p =>
      if f.deviceLeaseOwned p up then f else (f.deleteDevice relay deviceId k).stop k

inductive FleetInput where
  | tick (elapsed : Nat)
  | connect (relay : Nat) (presenceToken : Text)
  | read (peer : Nat) (message : DeviceMessage)
  | readError (peer : Nat)
  | revoke (relay : Nat) (deviceId ownerUser : Text)
  | deliver (index : Nat)
  | lose (index : Nat)
  | bindOwner (relay : Nat) (deviceId ownerUser : Text)
  | routeProxy (relay : Nat) (deviceId : Text)
  deriving DecidableEq, Repr

def Config.fleetStep (c : Config) (f : Fleet) (input : FleetInput × RedisUp) :
    Fleet × List FleetEvent :=
  let up := input.2
  match input.1 with
  | .tick elapsed => ({ f with now := f.now+elapsed },[])
  | .connect relay presenceToken =>
    ({ f with peers := f.peers ++ [{ relay := relay, presenceToken := presenceToken }] },[])
  | .read k message => c.readMessage f k message up
  | .readError k => (f.remove k up,[])
  | .revoke relay deviceId ownerUser => c.revokeDevice f relay deviceId ownerUser up
  | .deliver index =>
    match f.notices[index]? with
    | none => (f,[])
    | some n =>
      ({ f with notices := f.notices.eraseIdx index }.disconnectOwnedDevice
        n.relay n.deviceId n.ownerUser,[])
  | .lose index => ({ f with notices := f.notices.eraseIdx index },[])
  | .bindOwner relay deviceId ownerUser => (f.bindDeviceOwner relay deviceId ownerUser up,[])
  | .routeProxy relay deviceId => (f.routeProxy relay deviceId up,[])

def Config.fleet (c : Config) : Machine Fleet (FleetInput × RedisUp) FleetEvent where
  init f := f.revoked = [] ∧ f.peers = [] ∧ f.devices = []
  step f input := c.fleetStep f input

section Frame

variable (f : Fleet) (k relay : Nat) (deviceId value : Text) (p : DevicePeer) (up : RedisUp)

@[simp] theorem Fleet.revoked_setPresence : (f.setPresence deviceId value).revoked = f.revoked :=
  rfl

@[simp] theorem Fleet.revoked_modifyPeer (g : DevicePeer → DevicePeer) :
    (f.modifyPeer k g).revoked = f.revoked := rfl

@[simp] theorem Fleet.revoked_stop : (f.stop k).revoked = f.revoked := rfl

@[simp] theorem Fleet.revoked_setDevice : (f.setDevice relay deviceId k).revoked = f.revoked :=
  rfl

@[simp] theorem Fleet.revoked_deleteDevice :
    (f.deleteDevice relay deviceId k).revoked = f.revoked := rfl

@[simp] theorem Fleet.revoked_clearDevicePresence :
    (f.clearDevicePresence p up).revoked = f.revoked := by
  unfold clearDevicePresence
  split_ifs <;> rfl

@[simp] theorem Fleet.revoked_remove : (f.remove k up).revoked = f.revoked := by
  unfold remove
  split
  · rfl
  · simp

@[simp] theorem Fleet.revoked_disconnectOwnedDevice (ownerUser : Text) :
    (f.disconnectOwnedDevice relay deviceId ownerUser).revoked = f.revoked := by
  unfold disconnectOwnedDevice
  split
  · rfl
  · split
    · rfl
    · split_ifs <;> rfl

@[simp] theorem Config.revoked_markDevicePresence (c : Config) :
    (c.markDevicePresence f k p up).2.revoked = f.revoked := by
  unfold markDevicePresence presenceScript
  split_ifs <;> rfl

theorem Fleet.revoked_acquireDeviceLease {f' : Fleet}
    (h : f.acquireDeviceLease p up = some f') : f'.revoked = f.revoked := by
  unfold acquireDeviceLease at h
  split_ifs at h <;> cases h <;> rfl

@[simp] theorem Config.revoked_serveHello (c : Config) (record : Option (Text × Text)) :
    (c.serveHello f k p record up).revoked = f.revoked := by
  unfold serveHello
  cases record with
  | none => simp
  | some record =>
    obtain ⟨id,owner⟩ := record
    dsimp only
    split_ifs with hid
    · simp
    · generalize hq : (match (f.modifyPeer k fun _ =>
          { p with deviceId := id, ownerUser := owner }).currentDevicePeer p.relay id with
        | some j => _
        | none => _ : Fleet) = replaced
      have hreplaced : replaced.revoked = f.revoked := by
        rw [← hq]
        repeat' split
        all_goals simp
      cases hl : replaced.acquireDeviceLease
          { p with deviceId := id, ownerUser := owner } up with
      | none => simp [hreplaced]
      | some leased =>
        have hleased := Fleet.revoked_acquireDeviceLease _ _ _ hl
        dsimp only
        split_ifs <;> simp [hleased,hreplaced]

@[simp] theorem Fleet.revoked_bindDeviceOwner (ownerUser : Text) :
    (f.bindDeviceOwner relay deviceId ownerUser up).revoked = f.revoked := by
  unfold bindDeviceOwner
  split
  · rfl
  · split
    · rfl
    · dsimp only
      split_ifs <;> rfl

@[simp] theorem Fleet.revoked_routeProxy :
    (f.routeProxy relay deviceId up).revoked = f.revoked := by
  unfold routeProxy
  split
  · rfl
  · split
    · rfl
    · split_ifs <;> rfl

@[simp] theorem Config.revoked_readMessage (c : Config) (message : DeviceMessage) :
    (c.readMessage f k message up).1.revoked = f.revoked := by
  unfold readMessage
  split
  · rfl
  · dsimp only
    split_ifs
    · rfl
    · simp
    · split <;> simp
    · split <;> simp

end Frame

def DeviceMessage.isHello : DeviceMessage → Bool
  | .deviceHello _ => true
  | _ => false

/-- The socket's loop is running, authenticated, and bound to an owned device whose
revoked key exists. -/
def Config.revokedPeer (c : Config) (f : Fleet) (p : DevicePeer) : Bool :=
  p.reading && p.authenticated && p.owned && decide (c.hashCredential p.deviceId ∈ f.revoked)

/-- The reads that do no harm: on a revoked device's socket the heartbeat script must fail
to run, or the message must be a second hello, which ends the loop by itself. -/
def Config.safeRead (c : Config) (f : Fleet) (input : FleetInput × RedisUp) : Bool :=
  match input.1 with
  | .read k message =>
    match f.peers[k]? with
    | some p => !c.revokedPeer f p || !input.2.mark || message.isHello
    | none => true
  | _ => true

/-- Once the revoked key of a device is written, every later read from one of its
authenticated, owned sockets ends that socket's loop unprocessed. -/
def Config.RevocationEnforced (c : Config) : List FleetEvent → Prop :=
  Traced (fun pre e => ∀ k deviceId outcome, e = .read k deviceId outcome →
    .keySet (c.hashCredential deviceId) ∈ pre → outcome = .ended)

/-- The revoked keys in Redis are those the trace has written. -/
def Fleet.KeysTraced (tr : List FleetEvent) (f : Fleet) : Prop :=
  ∀ key, key ∈ f.revoked ↔ .keySet key ∈ tr

theorem Config.markDevicePresence_revoked {c : Config} {f : Fleet} {k : Nat} {p : DevicePeer}
    {up : RedisUp} (h : c.revokedPeer f p = true) :
    (c.markDevicePresence f k p up).1 = up.mark := by
  simp only [revokedPeer,DevicePeer.owned,Bool.and_eq_true,decide_eq_true_eq,ne_eq] at h
  obtain ⟨⟨-,hid,howner⟩,hkey⟩ := h
  unfold markDevicePresence presenceScript
  cases hm : up.mark <;> simp [hid,howner,hkey]

/-- What one turn of the loop reports: nothing, or the single read of an owned socket. -/
theorem Config.readMessage_events (c : Config) (f : Fleet) (k : Nat) (message : DeviceMessage)
    (up : RedisUp) :
    (c.readMessage f k message up).2 = [] ∧
      (∀ p, f.peers[k]? = some p → c.revokedPeer f p = false) ∨
    ∃ p, f.peers[k]? = some p ∧ p.reading = true ∧ p.authenticated = true ∧ p.owned = true ∧
      (c.readMessage f k message up).2 = [.read k p.deviceId
        (if (c.markDevicePresence f k p up).1 = false ∨ message.isHello then .ended
          else .processed)] := by
  unfold readMessage
  cases hp : f.peers[k]? with
  | none => exact .inl ⟨rfl,by simp⟩
  | some p =>
    dsimp only
    cases hr : p.reading with
    | false => exact .inl ⟨by simp,by simp [revokedPeer,hr]⟩
    | true =>
      cases ha : p.authenticated with
      | false =>
        refine .inl ⟨?_,by simp [revokedPeer,ha]⟩
        cases message <;> simp
      | true =>
        cases ho : p.owned with
        | false =>
          refine .inl ⟨?_,by simp [revokedPeer,ho]⟩
          cases hm : (c.markDevicePresence f k p up).1 <;>
            cases message <;> simp [DevicePeer.report,ho]
        | true =>
          refine .inr ⟨p,rfl,hr,ha,ho,?_⟩
          simp only [Bool.true_eq_false,if_false,if_true,DevicePeer.report,ho]
          cases hm : (c.markDevicePresence f k p up).1 <;>
            cases message <;> simp [DeviceMessage.isHello]

theorem Config.enforced_read (c : Config) (f : Fleet) (tr : List FleetEvent)
    (htraced : f.KeysTraced tr) (k : Nat) (message : DeviceMessage) (up : RedisUp) :
    c.RevocationEnforced (tr ++ (c.readMessage f k message up).2) ↔
      c.RevocationEnforced tr ∧ c.safeRead f (.read k message,up) = true := by
  rcases c.readMessage_events f k message up with ⟨hnil,hsafe⟩ | ⟨p,hp,hr,ha,ho,hev⟩
  · have hsafe : c.safeRead f (.read k message,up) = true := by
      cases hp : f.peers[k]? with
      | none => simp [safeRead,hp]
      | some p => simp [safeRead,hp,hsafe p hp]
    simp [hnil,hsafe]
  · rw [hev,RevocationEnforced,traced_snoc]
    apply and_congr_right
    intro _
    by_cases hkey : c.hashCredential p.deviceId ∈ f.revoked
    · have hrevoked : c.revokedPeer f p = true := by simp [revokedPeer,hr,ha,ho,hkey]
      rw [markDevicePresence_revoked hrevoked]
      constructor
      · intro h
        have hout := h k p.deviceId _ rfl ((htraced _).mp hkey)
        by_contra hharm
        simp [safeRead,hp,hrevoked] at hharm
        simp [hharm] at hout
      · rintro hsafe k' deviceId outcome heq -
        cases heq
        simp only [safeRead,hp,hrevoked] at hsafe
        rw [if_pos (by simpa using hsafe)]
    · constructor
      · intro _
        simp [safeRead,hp,revokedPeer,hkey]
      · rintro - k' deviceId outcome heq hmem
        cases heq
        exact absurd ((htraced _).mpr hmem) hkey

theorem Config.keysTraced_step (c : Config) (tr : List FleetEvent) (f : Fleet)
    (input : FleetInput × RedisUp) (h : f.KeysTraced tr) :
    (c.fleetStep f input).1.KeysTraced (tr ++ (c.fleetStep f input).2) := by
  obtain ⟨input,up⟩ := input
  cases input with
  | read k message =>
    intro key
    have hnone : FleetEvent.keySet key ∉ (c.readMessage f k message up).2 := by
      rcases c.readMessage_events f k message up with ⟨hnil,-⟩ | ⟨p,-,-,-,-,hev⟩
      · simp [hnil]
      · simp [hev]
    simp only [fleetStep,revoked_readMessage,List.mem_append,hnone,or_false]
    exact h key
  | revoke relay deviceId ownerUser =>
    intro key
    simp only [fleetStep,revokeDevice]
    split_ifs
    · simpa using h key
    all_goals
      simp only [Fleet.revoked_disconnectOwnedDevice,List.mem_cons,List.mem_append,
        FleetEvent.keySet.injEq,List.not_mem_nil,or_false,h key]
      exact or_comm
  | deliver index =>
    intro key
    simp only [fleetStep]
    split
    · simpa using h key
    · simpa using h key
  | tick elapsed => simpa [fleetStep,Fleet.KeysTraced] using h
  | connect relay presenceToken => simpa [fleetStep,Fleet.KeysTraced] using h
  | readError k => simpa [fleetStep,Fleet.KeysTraced] using h
  | lose index => simpa [fleetStep,Fleet.KeysTraced] using h
  | bindOwner relay deviceId ownerUser => simpa [fleetStep,Fleet.KeysTraced] using h
  | routeProxy relay deviceId => simpa [fleetStep,Fleet.KeysTraced] using h

theorem Config.enforced_step (c : Config) (tr : List FleetEvent) (f : Fleet)
    (input : FleetInput × RedisUp) (h : f.KeysTraced tr) :
    c.RevocationEnforced (tr ++ (c.fleetStep f input).2) ↔
      c.RevocationEnforced tr ∧ c.safeRead f input = true := by
  obtain ⟨input,up⟩ := input
  cases input with
  | read k message => exact c.enforced_read f tr h k message up
  | revoke relay deviceId ownerUser =>
    simp only [fleetStep,revokeDevice]
    split_ifs
    · simp [safeRead]
    all_goals
      rw [RevocationEnforced,traced_snoc]
      simp [safeRead]
  | deliver index =>
    simp only [fleetStep]
    split <;> simp [safeRead]
  | tick elapsed => simp [fleetStep,safeRead]
  | connect relay presenceToken => simp [fleetStep,safeRead]
  | readError k => simp [fleetStep,safeRead]
  | lose index => simp [fleetStep,safeRead]
  | bindOwner relay deviceId ownerUser => simp [fleetStep,safeRead]
  | routeProxy relay deviceId => simp [fleetStep,safeRead]

/-- A run enforces shared revocation exactly when each of its reads from a revoked
device's socket either fails to reach Redis or is a second hello: the script's `-1` never
stops anything. -/
theorem Config.revocationEnforced_iff (c : Config) (f : Fleet) (hinit : c.fleet.init f)
    (inputs : List (FleetInput × RedisUp)) :
    c.RevocationEnforced (c.fleet.exec [] f inputs).1 ↔
      c.fleet.Allowed (fun _ f input => c.safeRead f input = true) [] f inputs := by
  have hstart : f.KeysTraced [] := by
    intro key
    simp [hinit.1]
  have hnil : c.RevocationEnforced [] := Traced.nil _
  have hrun := Machine.exec_iff_allowed (m := c.fleet) (P := c.RevocationEnforced)
    (I := fun tr f => f.KeysTraced tr) c.keysTraced_step c.enforced_step inputs hstart
  rw [hrun]
  simp [hnil]

namespace Sample

def dev : Text := "dev1".toList

/-- Device `dev1` connects to instance 0; instance 1 revokes it and its notice is never
published; the device then sends one event, with or without Redis answering. -/
def revokedAfterHello (mark : Bool) : List (FleetInput × RedisUp) :=
  [(.connect 0 "p1".toList,{}),(.read 0 (.deviceHello (some (dev,amy))),{}),
   (.revoke 1 dev amy,{ publish := false }),(.read 0 .gatewayEvent,{ mark := mark })]

end Sample

theorem revokedAfterHello_enforced_without_redis :
    Sample.config.RevocationEnforced
      (Sample.config.fleet.exec [] { relays := 2 } (Sample.revokedAfterHello false)).1 :=
  (Config.revocationEnforced_iff Sample.config { relays := 2 } ⟨rfl,rfl,rfl⟩ _).mpr (by decide)

/-- With Redis answering, the revoked device's event is processed. -/
theorem revokedAfterHello_not_enforced :
    ¬ Sample.config.RevocationEnforced
      (Sample.config.fleet.exec [] { relays := 2 } (Sample.revokedAfterHello true)).1 := by
  intro h
  have htrace : (Sample.config.fleet.exec [] { relays := 2 } (Sample.revokedAfterHello true)).1 =
      [.keySet (Sample.config.hashCredential Sample.dev),.read 0 Sample.dev .processed] := by
    decide
  have hout := h [_] _ [] htrace 0 Sample.dev .processed rfl List.mem_cons_self
  cases hout

end CodeHarbor.Relay
