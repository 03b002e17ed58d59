import CodeHarbor.Lib.Run
import CodeHarbor.Relay.Account
import CodeHarbor.Relay.Devices
set_option autoImplicit false

namespace CodeHarbor.Network.Identity
open Lib Lib.Go Lib.Sql Lib.Base64 Relay

/-! The relay client of one gateway and its relay, with what is in flight between them: how the
gateway comes by the credential of its device and how it drops it. A message may be read at any
later step or never; what was in flight to the relay is lost when it restarts. -/

/-- `PersistedRelayIdentity`; a missing field is the empty text. -/
@[ext]
structure PersistedRelayIdentity where
  deviceId : Text := []
  deviceToken : Text := []
  deviceSecret : Text := []
  deriving DecidableEq, Repr

structure GatewayConfig where
  relayAccountToken : Text := []
  relayAccountUsername : Text := []
  relayAccountPassword : Text := []
  relayServerToken : Text := []
  deviceName : Text := []

def GatewayConfig.hasAccountCredentials (g : GatewayConfig) : Bool :=
  g.relayAccountToken ≠ [] || (g.relayAccountUsername ≠ [] && g.relayAccountPassword ≠ [])

def GatewayConfig.loginBody (g : GatewayConfig) : LoginBody :=
  { username := g.relayAccountUsername, password := g.relayAccountPassword }

/-- A gateway and its relay. `deviceToken` is `CODEHARBOR_DEVICE_TOKEN`. -/
structure Deployment where
  gateway : GatewayConfig := {}
  relay : AccountConfig
  postgres : Postgres
  deviceToken : Text := []

/-- The relay: its devices, its accounts, what it knows of revoked tokens, and its clock. -/
structure RelayState where
  store : DeviceStore
  accounts : List (Text × Bytes) := []
  auth : AuthState := {}
  now : Time := 0

/-- What `authenticateAccount` returns: the configured token, or one that a login issued. -/
inductive AccountToken where
  | configured
  | issued (user : Text) (expiresAt : Time)
  deriving DecidableEq, Repr

/-- The account that `apiPrincipal` takes the bearer of a token for. -/
def Deployment.tokenUser (d : Deployment) (r : RelayState) : AccountToken → Option Text
  | .configured => (d.relay.relayApiPrincipal r.auth r.now true
      { authorization := bearer ++ d.gateway.relayAccountToken }).map Credential.user
  | .issued user expiresAt => if r.now < expiresAt then some user else none

/-- The account that a login with the configured name and password is for. -/
def Deployment.login (d : Deployment) (r : RelayState) : Option Text :=
  match d.relay.loginWithPassword { accounts := r.accounts } {} d.gateway.loginBody with
  | .token user => some user
  | .error _ _ => none

/-- The account that the relay takes the credentials of the gateway for. -/
def Deployment.principal (d : Deployment) (r : RelayState) : Option Text :=
  if d.gateway.relayAccountToken ≠ [] then d.tokenUser r .configured
  else if d.gateway.relayAccountUsername ≠ [] ∧ d.gateway.relayAccountPassword ≠ [] then d.login r
  else none

structure DeviceHello where
  deviceId : Text
  deviceName : Text := []
  deviceToken : Text := []
  deviceSecret : Text := []
  serverToken : Text := []
  deriving DecidableEq, Repr

/-- A `device-ready`. A token issued with it is its `deviceToken` and its `deviceSecret`. -/
structure DeviceReady where
  deviceId : Text
  deviceToken : Text := []
  deriving DecidableEq, Repr

/-- The answer to an enrolment: the credential, a 409 `device_owned`, or another failure. -/
inductive EnrollAnswer where
  | enrolled (deviceId deviceToken : Text)
  | deviceOwned
  | failed
  deriving DecidableEq, Repr

/-- A running `enrollDevice`, numbered so that its answer is its own. -/
structure Enrollment where
  number : Nat
  allowDeviceRotation : Bool
  token : Option AccountToken := none
  posted : Bool := false
  deriving DecidableEq, Repr

structure RelaySocket where
  number : Nat
  opened : Bool := false
  deriving DecidableEq, Repr

/-- An enrolment is running exactly while the client is `connecting`. -/
structure World where
  identity : PersistedRelayIdentity
  credentialRecoveryAttempted : Bool := false
  relaySocket : Option RelaySocket := none
  relayReadySocket : Option Nat := none
  enrollment : Option Enrollment := none
  numbers : Nat := 0
  relay : RelayState
  hellos : List (Nat × DeviceHello) := []
  readies : List (Nat × DeviceReady) := []
  requests : List (Nat × AccountToken × Text) := []
  answers : List (Nat × EnrollAnswer) := []

/-- `elsewhere` is what other clients and the clock do to the accounts and their tokens. -/
inductive WorldInput where
  | connect
  | login
  | post
  | enrollFails
  | relayEnrolls (request : Nat) (random : Fin 16 → UInt8) (secret : Fin 32 → UInt8)
      (storageUp : Bool)
  | enrollAnswer (answer : Nat) (uuid : Text)
  | opened
  | relayReads (hello : Nat) (secret : Fin 32 → UInt8) (storageUp leaseUp : Bool)
  | deviceReady (ready : Nat)
  | close (code : Nat)
  | relayRestart
  | elsewhere (accounts : List (Text × Bytes)) (auth : AuthState) (elapsed : Nat)

inductive IdentityEvent where
  | deviceReady
  | tokenDiscarded
  deriving DecidableEq, Repr

/-- A database gives the new process the accounts and the revoked tokens back; without one nothing
survives the process. -/
def RelayState.restarted (r : RelayState) : RelayState :=
  match r.store with
  | .memory _ => { r with store := .memory {}, accounts := [], auth := { redis := r.auth.redis } }
  | .postgres _ => r

def RelayState.elsewhere (r : RelayState) (accounts : List (Text × Bytes)) (auth : AuthState)
    (elapsed : Nat) : RelayState :=
  { r with accounts := accounts, auth := auth, now := r.now+elapsed }

namespace World

def openSocket (w : World) : World :=
  { w with relaySocket := some { number := w.numbers }, numbers := w.numbers+1 }

def enrollDevice (d : Deployment) (w : World) (allowDeviceRotation : Bool) : World :=
  let token := if d.gateway.relayAccountToken ≠ [] then some AccountToken.configured else none
  { w with
    enrollment := some { number := w.numbers, allowDeviceRotation := allowDeviceRotation, token := token }
    numbers := w.numbers+1 }

/-- `connectRelay` with `ensureDeviceCredential`. Without any credential it only sets an error. -/
def connect (d : Deployment) (w : World) : World :=
  let has := d.gateway.hasAccountCredentials
  if w.relaySocket.isSome ∨ w.enrollment.isSome then w
  else if w.identity.deviceToken ≠ [] then w.openSocket
  else if w.identity.deviceSecret ≠ [] ∨ d.gateway.relayServerToken ≠ [] then
    if has = false then w.openSocket
    else { w with identity := { deviceId := w.identity.deviceId } }.enrollDevice d true
  else if has then w.enrollDevice d true
  else w

/-- The login of `authenticateAccount`. A refused one ends the enrolment. -/
def login (d : Deployment) (w : World) : World :=
  match w.enrollment with
  | none => w
  | some e =>
    if e.token.isSome then w
    else
      match d.login w.relay with
      | none => { w with enrollment := none }
      | some user =>
        let token := AccountToken.issued user (w.relay.now+accountTokenTTL)
        { w with enrollment := some { e with token := some token } }

def post (w : World) : World :=
  match w.enrollment with
  | none => w
  | some e =>
    match e.token with
    | none => w
    | some token =>
      if e.posted then w
      else
        { w with
          enrollment := some { e with posted := true }
          requests := w.requests ++ [(e.number,token,w.identity.deviceId)] }

def relayEnrolls (d : Deployment) (w : World) (i : Nat) (random : Fin 16 → UInt8)
    (secret : Fin 32 → UInt8) (storageUp : Bool) : World :=
  match w.requests[i]? with
  | none => w
  | some (n,token,requested) =>
    let w := { w with requests := w.requests.eraseIdx i }
    let reply (answer : EnrollAnswer) : World := { w with answers := w.answers ++ [(n,answer)] }
    if storageUp = false then reply .failed
    else
      match d.tokenUser w.relay token with
      | none => reply .failed
      | some user =>
        match w.relay.store.enrollDevice d.relay.toConfig d.postgres user requested
          d.gateway.deviceName random secret with
        | .ok (store,id) =>
          { reply (.enrolled id (randomToken secret)) with relay := { w.relay with store := store } }
        | .error .owned => reply .deviceOwned
        | .error _ => reply .failed

/-- The answer to the running enrolment. A device of another account is left to it, and the
gateway enrols once more under a new id. -/
def enrollAnswer (d : Deployment) (w : World) (i : Nat) (uuid : Text) : World :=
  match w.answers[i]?, w.enrollment with
  | some (n,answer), some e =>
    let w := { w with answers := w.answers.eraseIdx i }
    if e.number ≠ n then w
    else
      let idle := { w with enrollment := none }
      match answer with
      | .enrolled deviceId deviceToken =>
        if deviceToken = [] ∨ deviceId = [] then idle
        else
          { idle with identity := { deviceId := deviceId, deviceToken := deviceToken } }.openSocket
      | .deviceOwned =>
        if e.allowDeviceRotation then
          { idle with identity := { deviceId := uuid } }.enrollDevice d false
        else idle
      | .failed => idle
  | _, _ => w

def deviceHello (d : Deployment) (w : World) : DeviceHello :=
  let message : DeviceHello :=
    { deviceId := w.identity.deviceId, deviceName := d.gateway.deviceName }
  if w.identity.deviceToken ≠ [] then { message with deviceToken := w.identity.deviceToken }
  else if w.identity.deviceSecret ≠ [] then { message with deviceSecret := w.identity.deviceSecret }
  else { message with serverToken := d.gateway.relayServerToken }

def opened (d : Deployment) (w : World) : World :=
  match w.relaySocket with
  | none => w
  | some s =>
    if s.opened then w
    else
      { w with
        relaySocket := some { s with opened := true }
        hellos := w.hellos ++ [(s.number,w.deviceHello d)] }

end World

/-- What `serveDevice` makes of the credentials of a hello: the device and the token it issues. -/
def Deployment.resolve (d : Deployment) (store : DeviceStore) (hello : DeviceHello)
    (secret : Fin 32 → UInt8) : Except DeviceError (DeviceStore × DeviceReady) :=
  let deviceToken := if hello.deviceToken = [] then hello.deviceSecret else hello.deviceToken
  if deviceToken ≠ [] then
    (store.authenticateDevice d.relay.toConfig d.postgres hello.deviceId deviceToken).map
      (fun _ => (store,{ deviceId := hello.deviceId }))
  else if d.deviceToken ≠ [] ∧ hello.serverToken = d.deviceToken then
    (store.registerLegacyDevice d.relay.toConfig d.postgres hello.deviceId hello.deviceName secret).map
      (fun r => (r.1,{ deviceId := r.2, deviceToken := randomToken secret }))
  else .error .unauthorized

namespace World

/-- The relay reads a hello. A refused one ends its socket, and so does a missing lease. -/
def relayReads (d : Deployment) (w : World) (i : Nat) (secret : Fin 32 → UInt8)
    (storageUp leaseUp : Bool) : World :=
  match w.hellos[i]? with
  | none => w
  | some (n,hello) =>
    let w := { w with hellos := w.hellos.eraseIdx i }
    if storageUp = false then w
    else
      match d.resolve w.relay.store hello secret with
      | .error _ => w
      | .ok (store,ready) =>
        let w := { w with relay := { w.relay with store := store } }
        if leaseUp then { w with readies := w.readies ++ [(n,ready)] } else w

def deviceReady (w : World) (i : Nat) : World × List IdentityEvent :=
  match w.readies[i]?, w.relaySocket with
  | some (n,ready), some s =>
    let w := { w with readies := w.readies.eraseIdx i }
    if s.number ≠ n then (w,[])
    else
      let issued (old : Text) : Text := if ready.deviceToken = [] then old else ready.deviceToken
      let identity : PersistedRelayIdentity :=
        { deviceId := ready.deviceId
          deviceToken := issued w.identity.deviceToken
          deviceSecret := issued w.identity.deviceSecret }
      ({ w with
          identity := identity
          relayReadySocket := some n
          credentialRecoveryAttempted := false },[.deviceReady])
  | _, _ => (w,[])

/-- When `handleRelayDisconnect` takes the credential for stale. -/
def recovers (w : World) (s : RelaySocket) (code : Nat) : Bool :=
  w.relayReadySocket ≠ some s.number && code = 1006 && w.identity.deviceToken ≠ [] &&
    !w.credentialRecoveryAttempted

def close (w : World) (code : Nat) : World × List IdentityEvent :=
  match w.relaySocket with
  | none => (w,[])
  | some s =>
    let closed := { w with relaySocket := none, relayReadySocket := none }
    if w.recovers s code then
      ({ closed with
          credentialRecoveryAttempted := true
          identity := { deviceId := w.identity.deviceId } },[.tokenDiscarded])
    else (closed,[])

def relayRestart (w : World) : World :=
  { w with relay := w.relay.restarted, hellos := [], requests := [] }

def step (d : Deployment) (w : World) : WorldInput → World × List IdentityEvent
  | .connect => (w.connect d,[])
  | .login => (w.login d,[])
  | .post => (w.post,[])
  | .enrollFails => ({ w with enrollment := none },[])
  | .relayEnrolls i random secret storageUp => (w.relayEnrolls d i random secret storageUp,[])
  | .enrollAnswer i uuid => (w.enrollAnswer d i uuid,[])
  | .opened => (w.opened d,[])
  | .relayReads i secret storageUp leaseUp => (w.relayReads d i secret storageUp leaseUp,[])
  | .deviceReady i => w.deviceReady i
  | .close code => w.close code
  | .relayRestart => (w.relayRestart,[])
  | .elsewhere accounts auth elapsed =>
    ({ w with relay := w.relay.elsewhere accounts auth elapsed },[])

end World

end CodeHarbor.Network.Identity
