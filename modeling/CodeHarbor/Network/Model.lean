import CodeHarbor.Relay.Presence
import CodeHarbor.Relay.Revoke
set_option autoImplicit false

namespace CodeHarbor.Network
open Lib Lib.Go Lib.Base64 Relay

/-! Relay instances in front of one store and, unless there is a single one, one Redis.
Every goroutine is a party; what it still has to do stands in a list of tasks, cut where it
takes the lock, calls the store or Redis, or sends. A socket that was stopped may hand over
what it has buffered and may still take a frame; its read loop ends at some later step, as
that of any socket may, so that stopping changes nothing here. -/

structure Payload where
  sessionId : Option Text := none
  body : Text := []
  deriving DecidableEq, Repr

/-- A `gateway-proxy` frame, and the `proxy-request` made of it. -/
structure ProxyRequest where
  deviceId : Text
  requestId : Text
  body : Text := []
  deriving DecidableEq, Repr

/-- What a browser sends. A cursor that is no number the relay takes is none. -/
inductive BrowserMessage where
  | ping
  | resume (cursors : Option (List (Text × Option Int)))
  | subscribe (deviceId : Text) (replace : Bool)
  | gatewayProxy (request : ProxyRequest)
  | unknown
  deriving DecidableEq, Repr

/-- What a device sends. A hello comes with the secret that the store would draw; of a sync
only the ids are kept, each with the answer of `sessionSyncIsNewer`. -/
inductive GatewayMessage where
  | ping
  | deviceHello (hello : Hello) (secret : Text)
  | sessionSync (sessions : List (Text × Bool))
  | gatewayEvent (payload : Payload)
  | proxyResponse (requestId body : Text)
  | unknown
  deriving DecidableEq, Repr

inductive ProxyError where
  | forbidden
  | requestIdRequired
  | tooManyPendingRequests
  | duplicateRequestId
  | proxyTimeout
  | deviceOffline
  | deviceDisconnected
  deriving DecidableEq, Repr

def ProxyError.status : ProxyError → Nat
  | .forbidden => 403
  | .requestIdRequired => 400
  | .tooManyPendingRequests => 429
  | .duplicateRequestId => 409
  | .proxyTimeout => 504
  | .deviceOffline => 503
  | .deviceDisconnected => 502

def ProxyError.error : ProxyError → String
  | .forbidden => "forbidden"
  | .requestIdRequired => "request_id_required"
  | .tooManyPendingRequests => "too_many_pending_requests"
  | .duplicateRequestId => "duplicate_request_id"
  | .proxyTimeout => "proxy_timeout"
  | .deviceOffline => "device_offline"
  | .deviceDisconnected => "device_disconnected"

/-- What the relay sends to a browser. The session of a replay and the device of a live
event are those it was looked up or published under; the frame is the payload. -/
inductive BrowserFrame where
  | cloudReady
  | pong
  | resumeComplete (cursors : List (Text × Int)) (truncated : Option Bool)
  | historyGap (sessionId : Text) (requestedCursor : Int) (availableFrom latestCursor : Nat)
  | replay (sessionId : Text) (eventSeq : Nat) (event : Payload)
  | live (deviceId : Text) (payload : Payload) (eventSeq : Option Nat)
  | proxyError (requestId : Text) (status : Nat) (error : String)
  | proxyResponse (requestId body : Text)
  deriving DecidableEq, Repr

def ProxyError.frame (error : ProxyError) (requestId : Text) : BrowserFrame :=
  .proxyError requestId error.status error.error

/-- What the relay sends to a device, requests apart. -/
inductive DeviceFrame where
  | pong
  | deviceReady (deviceId : Text)
  | sessionSyncAck
  | gatewayEventError (sessionId : Text)
  | deviceOwnerBound (deviceId ownerUser : Text)
  deriving DecidableEq, Repr

/-- A session with all its events in the order of their numbers 1, 2, …, and the numbers
that retention has removed. -/
structure StoredSession where
  ownerUser : Text := []
  deviceId : Text := []
  events : List Payload := []
  gone : List Nat := []
  deriving DecidableEq, Repr

def StoredSession.retained (s : StoredSession) : List (Payload × Nat) :=
  (s.events.zipIdx 1).filter (fun e => e.2 ∉ s.gone)

/-- A browser peer; `connected` while it is in `r.browsers`. -/
structure Browser where
  relay : Nat
  user : Text
  subscriptions : List Text := []
  connected : Bool := true
  deriving DecidableEq, Repr

/-- Where the goroutine of a device socket stands: the stations of the first hello, and
those after its read loop. -/
inductive SocketStage where
  | waiting
  | authenticated
  | replacing (previous : Option Nat)
  | replaced
  | leased
  | registered
  | announced
  | ready
  | ended
  | cleared
  | closed
  deriving DecidableEq, Repr

structure Socket where
  relay : Nat
  presenceToken : Text
  deviceId : Text := []
  ownerUser : Text := []
  stage : SocketStage := .waiting
  deriving DecidableEq, Repr

def Socket.leaseValue (s : Socket) : Text := s.ownerUser ++ '|' :: s.presenceToken

/-- A `pendingProxy`, as it was entered in `r.pending`. -/
structure Accepted where
  relay : Nat
  browser : Nat
  user : Text
  request : ProxyRequest
  deriving DecidableEq, Repr

def Accepted.key (a : Accepted) : Nat × Text := (a.relay,a.request.requestId)

/-- What a published message says. A proxy request stands for the envelope that was made
when the entry was accepted. -/
inductive Envelope where
  | gatewayEvent (deviceId ownerUser : Text) (payload : Payload) (eventSeq : Option Nat)
  | proxyRequest (entry : Nat)
  | proxyResponse (deviceId ownerUser requestId body : Text)
  | deviceOwnership (deviceId ownerUser : Text)
  | deviceRevocation (deviceId ownerUser : Text)
  deriving DecidableEq, Repr

/-- The copy of a message for one instance. -/
structure Message where
  relay : Nat
  envelope : Envelope
  deriving DecidableEq, Repr

/-- Where `resumeBrowser` stands. -/
inductive ResumeStage where
  | next
  | bounds (sessionId : Text) (cursor : Int)
  | list (sessionId : Text) (batch : Nat)
  | send (sessionId : Text) (batch : Nat) (events : List (Payload × Nat)) (hasMore : Bool)
  deriving DecidableEq, Repr

structure Resume where
  cursors : List (Text × Option Int)
  latest : OrdMap Text Int := OrdMap.empty
  truncated : Bool := false
  processed : Nat := 0
  stage : ResumeStage := .next
  deriving DecidableEq, Repr

/-- The rest of a goroutine. `binding` to `writing` are `bindDeviceOwner`, after a pairing
(which then announces it) or an announcement. -/
inductive Work where
  | subscribing (browser : Nat) (deviceId : Text) (replace : Bool)
  | resuming (browser : Nat) (resume : Resume)
  | accepting (browser : Nat) (request : ProxyRequest)
  | forwarding (entry : Nat) (device : Option Nat)
  | withdrawing (entry : Nat)
  | offline (entry : Nat)
  | timing (entry : Nat)
  | timedOut (entry : Nat)
  | handling (socket : Nat) (message : GatewayMessage)
  | publishing (socket : Nat) (payload : Payload) (eventSeq : Option Nat)
  | emitting (relay : Nat) (deviceId ownerUser : Text) (payload : Payload) (eventSeq : Option Nat)
  | responding (entry : Nat) (requestId body : Text)
  | relaying (socket : Nat) (requestId body : Text)
  | checking (relay socket entry : Nat)
  | handing (relay socket entry : Nat)
  | dropping (relay : Nat) (deviceId : Text) (socket : Nat)
  | binding (relay : Nat) (deviceId ownerUser : Text) (announce : Bool)
  | comparing (socket : Nat) (deviceId ownerUser : Text) (announce : Bool)
  | leasing (socket : Nat) (oldOwner deviceId ownerUser : Text) (announce : Bool)
  | writing (socket : Nat) (deviceId ownerUser : Text) (announce : Bool)
  | announcing (deviceId ownerUser : Text)
  | revoking (deviceId ownerUser : Text) (shared : Bool)
  deriving DecidableEq, Repr

inductive Party where
  | browser (browser : Nat)
  | socket (socket : Nat)
  | consumer (relay : Nat)
  | timer (entry : Nat)
  | handler
  deriving DecidableEq, Repr

structure Task where
  party : Party
  work : Work
  deriving DecidableEq, Repr

/-- `devices` and `pending` are the maps of every instance, by instance and key. A request
keeps the place in `accepted` where it entered `pending`; `fired` are the entries whose timer
callback has started, `stopped` those whose timer was stopped. -/
structure Cluster where
  redis : Bool := true
  durable : Bool := true
  relays : Nat := 1
  legacyToken : Text := []
  now : Time := 0
  records : DeviceRecords := OrdMap.empty
  sessions : OrdMap Text StoredSession := OrdMap.empty
  presence : OrdMap Text (Text × Time) := OrdMap.empty
  revoked : List Bytes := []
  browsers : List Browser := []
  sockets : List Socket := []
  devices : OrdMap (Nat × Text) Nat := OrdMap.empty
  accepted : List Accepted := []
  pending : OrdMap (Nat × Text) Nat := OrdMap.empty
  fired : List Nat := []
  stopped : List Nat := []
  tasks : List Task := []
  messages : List Message := []

/-- How the calls of a segment go. A call may take effect although its answer is lost;
`full` and `blocked` are the browsers and device sockets that have no room for a frame,
`fits` is how many events fit into a page. -/
structure Outcome where
  done : Bool := true
  answered : Bool := true
  full : List Nat := []
  blocked : List Nat := []
  fits : Nat := 1001
  deriving DecidableEq, Repr

def Outcome.ok (o : Outcome) : Bool := o.done && o.answered

/-- The trace: frames as they are read and as they are enqueued. An answer to an accepted
request carries its entry, a request handed to a device the peer's instance and what it is
bound to. -/
inductive ClusterEvent where
  | browserSent (browser : Nat) (message : BrowserMessage)
  | deviceSent (socket : Nat) (deviceId : Text) (message : GatewayMessage)
  | toBrowser (browser : Nat) (frame : BrowserFrame) (entry : Option Nat)
  | toDevice (socket : Nat) (frame : DeviceFrame)
  | handed (relay socket : Nat) (deviceId ownerUser : Text) (entry : Nat) (user : Text)
      (request : ProxyRequest)
  deriving DecidableEq, Repr

def sendBrowser (o : Outcome) (browser : Nat) (frame : BrowserFrame) (entry : Option Nat) :
    List ClusterEvent :=
  if browser ∈ o.full then [] else [.toBrowser browser frame entry]

def sendDevice (o : Outcome) (socket : Nat) (frame : DeviceFrame) : List ClusterEvent :=
  if socket ∈ o.blocked then [] else [.toDevice socket frame]

/-! The store. -/

def Cluster.device (n : Cluster) (id : Text) : Option DeviceRecord :=
  if trimSpace id = [] then none else (n.records.get id).filter (!·.revoked)

/-- `appendOwnedEvent`. The database makes the caller the owner of a session that has none,
and lets a caller without an account append to any. -/
def Cluster.appendOwnedEvent (n : Cluster) (sessionId ownerUser : Text) (event : Payload) :
    Option (Nat × Cluster) :=
  let session := (n.sessions.get sessionId).getD { ownerUser := ownerUser }
  let owner := if n.durable ∧ session.ownerUser = [] then ownerUser else session.ownerUser
  let refused :=
    if n.durable then ownerUser ≠ [] ∧ owner ≠ ownerUser else owner ≠ [] ∧ owner ≠ ownerUser
  if refused then none
  else
    let stored := { session with ownerUser := owner, events := session.events ++ [event] }
    some (stored.events.length,{ n with sessions := n.sessions.set sessionId stored })

/-- One session of `syncSessions`. -/
def Cluster.syncSession (ownerUser deviceId : Text) (n : Cluster) (session : Text × Bool) : Cluster :=
  let stored := (n.sessions.get session.1).getD {}
  let owned := (stored.ownerUser = [] || stored.ownerUser = ownerUser) &&
    (stored.deviceId = [] || stored.deviceId = deviceId)
  let synced := { stored with ownerUser := ownerUser, deviceId := deviceId }
  if owned && (session.2 || (n.sessions.get session.1).isNone) then
    { n with sessions := n.sessions.set session.1 synced }
  else n

def Cluster.syncSessions (n : Cluster) (ownerUser deviceId : Text) (sessions : List (Text × Bool)) :
    Cluster :=
  if trimSpace ownerUser = [] ∨ trimSpace deviceId = [] then n
  else sessions.foldl (syncSession ownerUser deviceId) n

/-- `eventBoundsForUser`; an error tells as little as an empty history. -/
def Cluster.eventBoundsForUser (n : Cluster) (sessionId user : Text) : Nat × Nat :=
  match n.sessions.get sessionId with
  | none => (0,0)
  | some session =>
    if user = [] ∨ session.ownerUser ≠ user then (0,0)
    else
      ((session.retained.head?.map Prod.snd).getD 0,(session.retained.getLast?.map Prod.snd).getD 0)

/-- `listEventsForUserLimited`. The database answers for a session of another user as for
one without events, the maps with an error. -/
def Cluster.listEventsForUserLimited (n : Cluster) (sessionId user : Text) (after : Int) (limit : Nat) :
    Option (List (Payload × Nat)) :=
  match n.sessions.get sessionId with
  | none => if user = [] ∨ n.durable = false then none else some []
  | some session =>
    if user = [] then none
    else if session.ownerUser ≠ user then (if n.durable then some [] else none)
    else some ((session.retained.filter (fun e => after < e.2)).take limit)

/-! Leases. -/

def Cluster.getPresence (n : Cluster) (deviceId : Text) : Option Text :=
  match n.presence.get deviceId with
  | none => none
  | some (value,expires) => if n.now < expires then some value else none

def Cluster.setPresence (n : Cluster) (deviceId value : Text) : Cluster :=
  { n with presence := n.presence.set deviceId (value,n.now+deviceLeaseTTL) }

def Socket.leases (s : Socket) : Bool := s.deviceId ≠ [] && s.ownerUser ≠ [] && s.presenceToken ≠ []

def Cluster.modifySocket (n : Cluster) (k : Nat) (f : Socket → Socket) : Cluster :=
  { n with sockets := n.sockets.modify k f }

def Cluster.setStage (n : Cluster) (k : Nat) (stage : SocketStage) : Cluster :=
  n.modifySocket k ({ · with stage := stage })

/-- `SetNX`; the flag is the answer. -/
def Cluster.acquireDeviceLease (n : Cluster) (s : Socket) (o : Outcome) : Bool × Cluster :=
  if n.redis = false ∨ s.leases = false then (true,n)
  else if (n.getPresence s.deviceId).isSome then (false,n)
  else (o.ok,if o.done then n.setPresence s.deviceId s.leaseValue else n)

def Cluster.clearDevicePresence (n : Cluster) (s : Socket) (o : Outcome) : Cluster :=
  if n.redis && s.leases && o.done && n.getPresence s.deviceId = some s.leaseValue then
    { n with presence := n.presence.erase s.deviceId }
  else n

local instance : LawfulBEq Bytes := inferInstance

/-- The heartbeat. A revoked device keeps its socket, with a lease that is not renewed. -/
def Cluster.markDevicePresence (c : Config) (n : Cluster) (s : Socket) (o : Outcome) : Bool × Cluster :=
  if n.redis = false ∨ s.deviceId = [] ∨ s.ownerUser = [] then (true,n)
  else if c.hashCredential s.deviceId ∈ n.revoked then (o.ok,n)
  else if n.getPresence s.deviceId = some s.leaseValue then
    (o.ok,if o.done then n.setPresence s.deviceId s.leaseValue else n)
  else (false,n)

def Cluster.deviceLeaseOwned (n : Cluster) (k : Nat) (o : Outcome) : Bool :=
  match n.sockets[k]? with
  | none => false
  | some s =>
    n.redis = false || (s.leases && o.ok && n.getPresence s.deviceId = some s.leaseValue)

/-! Sending and answering. -/

def Cluster.publish (n : Cluster) (envelope : Envelope) : Cluster :=
  { n with messages := n.messages ++ (List.range n.relays).map (⟨·,envelope⟩) }

/-- Under the read lock from the first browser to the last. -/
def Cluster.broadcast (n : Cluster) (o : Outcome) (relay : Nat) (deviceId ownerUser : Text)
    (payload : Payload) (eventSeq : Option Nat) : List ClusterEvent :=
  n.browsers.zipIdx.flatMap (fun p =>
    if p.1.connected && p.1.relay = relay && ownerUser ≠ [] && p.1.user = ownerUser &&
        (deviceId = [] || deviceId ∈ p.1.subscriptions) then
      sendBrowser o p.2 (.live deviceId payload eventSeq) none
    else [])

def Cluster.answer (n : Cluster) (o : Outcome) (entry : Nat) (frame : Accepted → BrowserFrame) :
    List ClusterEvent :=
  match n.accepted[entry]? with
  | none => []
  | some a => sendBrowser o a.browser (frame a) (some entry)

def Cluster.answerError (n : Cluster) (o : Outcome) (entry : Nat) (error : ProxyError) :
    List ClusterEvent :=
  n.answer o entry (fun a => error.frame a.request.requestId)

def Cluster.hand (n : Cluster) (o : Outcome) (k entry : Nat) : List ClusterEvent :=
  match n.sockets[k]?, n.accepted[entry]? with
  | some s, some a =>
    if k ∈ o.blocked then []
    else [.handed s.relay k s.deviceId s.ownerUser entry a.user a.request]
  | _, _ => []

def Cluster.stopTimer (n : Cluster) (entry : Nat) : Cluster := { n with stopped := entry :: n.stopped }

def Cluster.isPending (n : Cluster) (entry : Nat) : Bool :=
  match n.accepted[entry]? with
  | none => false
  | some a => n.pending.get a.key = some entry

def Cluster.deletePending (n : Cluster) (entry : Nat) : Cluster :=
  match n.accepted[entry]? with
  | none => n
  | some a => { n with pending := n.pending.erase a.key }

/-- The lock-protected part of a response: take the entry if it belongs to the device. -/
def Cluster.takePending (n : Cluster) (relay : Nat) (requestId deviceId ownerUser : Text) :
    Option (Nat × Cluster) :=
  match n.pending.get (relay,requestId) with
  | none => none
  | some entry =>
    match n.accepted[entry]? with
    | none => none
    | some a =>
      if a.user = ownerUser ∧ a.request.deviceId = deviceId then
        some (entry,{ n with pending := n.pending.erase (relay,requestId) })
      else none

/-- The cluster, what was sent or read, and what the goroutine does next. -/
abbrev Effect := Cluster × List ClusterEvent × Option Work

/-! Browsers. -/

def maxResumeSessions : Nat := 512

def maxPeerSubscriptions : Nat := 64

def maxPendingProxyPerBrowser : Nat := 128

/-- `remove` for a browser: its requests are forgotten. -/
def Cluster.removeBrowser (n : Cluster) (b : Nat) : Cluster :=
  let mine := fun entry => n.accepted[entry]?.any (·.browser = b)
  { n with
    browsers := n.browsers.modify b ({ · with connected := false })
    pending := n.pending.filter (fun _ entry => !mine entry)
    stopped := (n.pending.entries.map Prod.snd).filter mine ++ n.stopped }

def Cluster.resume (n : Cluster) (o : Outcome) (b : Nat) (r : Resume) : Effect :=
  match n.browsers[b]? with
  | none => (n,[],none)
  | some browser =>
    match r.stage with
    | .next =>
      match r.cursors with
      | [] => (n,sendBrowser o b (.resumeComplete r.latest.entries (some r.truncated)) none,none)
      | (sessionId,raw) :: rest =>
        let r := { r with cursors := rest, processed := r.processed+1 }
        if r.processed > maxResumeSessions then
          (n,[],some (.resuming b { r with cursors := [], truncated := true }))
        else if sessionId = [] ∨ byteLen sessionId > 256 then
          (n,[],some (.resuming b { r with truncated := true }))
        else
          match raw with
          | none => (n,[],some (.resuming b { r with truncated := true }))
          | some cursor =>
            let stage := if 0 < cursor then .bounds sessionId cursor else .list sessionId 0
            (n,[],some (.resuming b { r with latest := r.latest.set sessionId cursor, stage := stage }))
    | .bounds sessionId cursor =>
      let (first,last) := n.eventBoundsForUser sessionId browser.user
      let r := { r with stage := .list sessionId 0 }
      if o.ok = true ∧ cursor+1 < first then
        (n,sendBrowser o b (.historyGap sessionId cursor first last) none,
          some (.resuming b { r with latest := r.latest.set sessionId (first-1) }))
      else (n,[],some (.resuming b r))
    | .list sessionId batch =>
      let after := (r.latest.get sessionId).getD 0
      match n.listEventsForUserLimited sessionId browser.user after (min o.fits 1001) with
      | none => (n,[],some (.resuming b { r with truncated := true, stage := .next }))
      | some events =>
        if o.ok = false then (n,[],some (.resuming b { r with truncated := true, stage := .next }))
        else if events = [] then (n,[],some (.resuming b { r with stage := .next }))
        else
          let stage := .send sessionId batch (events.take 1000) (1000 < events.length)
          (n,[],some (.resuming b { r with stage := stage }))
    | .send sessionId batch [] hasMore =>
      if r.truncated || hasMore || batch = 4 then
        (n,[],some (.resuming b { r with truncated := true, stage := .next }))
      else (n,[],some (.resuming b { r with stage := .list sessionId (batch+1) }))
    | .send sessionId batch ((event,seq) :: rest) hasMore =>
      -- the blocking send gives up at its deadline, and with it the batch
      if b ∈ o.full then
        (n,[],some (.resuming b { r with truncated := true, stage := .send sessionId batch [] hasMore }))
      else
        let latest := if (r.latest.get sessionId).getD 0 < seq then r.latest.set sessionId seq else r.latest
        (n,[.toBrowser b (.replay sessionId seq event) none],
          some (.resuming b { r with latest := latest, stage := .send sessionId batch rest hasMore }))

/-- A frame of `readBrowser`, up to its store call. -/
def Cluster.readBrowser (n : Cluster) (o : Outcome) (b : Nat) (browser : Browser) :
    BrowserMessage → List ClusterEvent × Option Work
  | .ping => (sendBrowser o b .pong none,none)
  | .resume none => (sendBrowser o b (.resumeComplete [] none) none,none)
  | .resume (some cursors) => ([],some (.resuming b { cursors := cursors }))
  | .subscribe deviceId replace =>
    if o.ok = true ∧ (n.device deviceId).map (·.ownerUser) = some browser.user then
      ([],some (.subscribing b deviceId replace))
    else ([],none)
  | .gatewayProxy request =>
    if o.ok = true ∧ (n.device request.deviceId).map (·.ownerUser) = some browser.user then
      if request.requestId = [] then (sendBrowser o b (ProxyError.requestIdRequired.frame []) none,none)
      else ([],some (.accepting b request))
    else (sendBrowser o b (ProxyError.forbidden.frame request.requestId) none,none)
  | .unknown => ([],none)

/-- The subscriptions after a frame, under the lock. -/
def Browser.subscribe (browser : Browser) (deviceId : Text) (replace : Bool) : Browser :=
  let subscriptions := if replace then [] else browser.subscriptions
  if deviceId ∈ subscriptions ∨ subscriptions.length ≥ maxPeerSubscriptions then
    { browser with subscriptions := subscriptions }
  else { browser with subscriptions := subscriptions ++ [deviceId] }

/-- The lock-protected part of `gateway-proxy`: a socket without its lease is dropped from
the map, also when the request is then refused as a duplicate. -/
def Cluster.accept (n : Cluster) (o : Outcome) (b : Nat) (request : ProxyRequest) : Effect :=
  match n.browsers[b]? with
  | none => (n,[],none)
  | some browser =>
    let mine := n.pending.entries.filter (fun p => n.accepted[p.2]?.any (·.browser = b))
    if mine.length ≥ maxPendingProxyPerBrowser then
      (n,sendBrowser o b (ProxyError.tooManyPendingRequests.frame request.requestId) none,none)
    else
      let place := (browser.relay,request.deviceId)
      let device := (n.devices.get place).filter (fun k => n.deviceLeaseOwned k o)
      let devices := if device = none then n.devices.erase place else n.devices
      let n := { n with devices := devices }
      let a : Accepted := ⟨browser.relay,b,browser.user,request⟩
      if n.pending.has a.key then
        (n,sendBrowser o b (ProxyError.duplicateRequestId.frame request.requestId) none,none)
      else
        ({ n with
            accepted := n.accepted ++ [a]
            pending := n.pending.set a.key n.accepted.length },[],
          some (.forwarding n.accepted.length device))

/-! Device sockets. -/

def Cluster.hello (c : Config) (n : Cluster) (o : Outcome) (k : Nat) (hello : Hello) (secret : Text) :
    Cluster :=
  let store : Instance := { records := n.records, legacyToken := n.legacyToken }
  match store.resolve c hello secret with
  | none => n.setStage k .ended
  | some (deviceId,record,records) =>
    let n := if o.done then { n with records := records } else n
    if o.ok = true ∧ deviceId ≠ [] then
      n.modifySocket k (fun s => { s with
        deviceId := deviceId
        ownerUser := record.ownerUser
        stage := .authenticated })
    else n.setStage k .ended

/-- `remove` for a device socket: the requests of the device fail with it if it is the
current one. -/
def Cluster.removeSocket (n : Cluster) (o : Outcome) (k : Nat) (s : Socket) :
    Cluster × List ClusterEvent :=
  let place := (s.relay,s.deviceId)
  if s.deviceId ≠ [] ∧ n.devices.get place = some k then
    let its := fun entry => n.accepted[entry]?.any
      (fun a => a.relay = s.relay && a.request.deviceId = s.deviceId)
    let gone := (n.pending.entries.map Prod.snd).filter its
    ({ n with
        devices := n.devices.erase place
        pending := n.pending.filter (fun _ entry => !its entry)
        stopped := gone ++ n.stopped },
      gone.flatMap (fun entry => n.answerError o entry .deviceDisconnected))
  else (n,[])

/-- The stations of the first hello, and of `remove`. -/
def Cluster.advance (c : Config) (n : Cluster) (o : Outcome) (k : Nat) (s : Socket) :
    Cluster × List ClusterEvent :=
  match s.stage with
  | .authenticated => (n.setStage k (.replacing (n.devices.get (s.relay,s.deviceId))),[])
  | .replacing previous =>
    let cleared :=
      match previous.bind (fun j => if j = k then none else n.sockets[j]?) with
      | none => n
      | some old => n.clearDevicePresence old o
    (cleared.setStage k .replaced,[])
  | .replaced =>
    let leased := n.acquireDeviceLease s o
    (leased.2.setStage k (if leased.1 then .leased else .ended),[])
  | .leased =>
    ({ n with devices := n.devices.set (s.relay,s.deviceId) k }.setStage k .registered,[])
  | .registered => (n.setStage k .announced,sendDevice o k (.deviceReady s.deviceId))
  | .announced =>
    let marked := n.markDevicePresence c s o
    (marked.2.setStage k (if marked.1 then .ready else .ended),[])
  | .ended => ((n.clearDevicePresence s o).setStage k .cleared,[])
  | .cleared =>
    let removed := n.removeSocket o k s
    (removed.1.setStage k .closed,removed.2)
  | _ => (n,[])

def Cluster.handle (n : Cluster) (o : Outcome) (k : Nat) (message : GatewayMessage) : Effect :=
  match n.sockets[k]? with
  | none => (n,[],none)
  | some s =>
    match message with
    | .ping => (n,sendDevice o k .pong,none)
    | .deviceHello _ _ => (n.setStage k .ended,[],none)
    | .sessionSync sessions =>
      let synced := n.syncSessions s.ownerUser s.deviceId sessions
      (if o.done then synced else n,sendDevice o k .sessionSyncAck,none)
    | .gatewayEvent payload =>
      match payload.sessionId with
      | none => (n,[],some (.publishing k payload none))
      | some sessionId =>
        match n.appendOwnedEvent sessionId s.ownerUser payload with
        | none => (n,sendDevice o k (.gatewayEventError sessionId),none)
        | some (seq,stored) =>
          let n := if o.done then stored else n
          if o.ok then (n,[],some (.publishing k payload (some seq)))
          else (n,sendDevice o k (.gatewayEventError sessionId),none)
    | .proxyResponse requestId body =>
      match n.takePending s.relay requestId s.deviceId s.ownerUser with
      | some (entry,n) => (n,[],some (.responding entry requestId body))
      | none => (n,[],if n.redis then some (.relaying k requestId body) else none)
    | .unknown => (n,[],none)

/-! `bindDeviceOwner`. -/

/-- What follows the binding: the handler of the login announces the pairing. -/
def announced (announce : Bool) (deviceId ownerUser : Text) : Option Work :=
  if announce then some (.announcing deviceId ownerUser) else none

/-- The script: a free lease, or one of the peer itself, goes to the new owner. -/
def Cluster.bindLease (n : Cluster) (o : Outcome) (s : Socket) (oldOwner ownerUser : Text) :
    Bool × Cluster :=
  let current := n.getPresence s.deviceId
  let value := { s with ownerUser := ownerUser }.leaseValue
  if current = none ∨ current = some { s with ownerUser := oldOwner }.leaseValue ∨
      current = some value then
    (o.ok,if o.done then n.setPresence s.deviceId value else n)
  else (false,n)

/-! The parties. -/

def Cluster.perform (c : Config) (n : Cluster) (o : Outcome) : Work → Effect
  | .subscribing b deviceId replace =>
    ({ n with browsers := n.browsers.modify b (·.subscribe deviceId replace) },[],none)
  | .resuming b resume => n.resume o b resume
  | .accepting b request => n.accept o b request
  | .forwarding entry (some k) => (n,n.hand o k entry,none)
  | .forwarding entry none =>
    if n.redis then
      (if o.done then n.publish (.proxyRequest entry) else n,[],
        if o.ok then none else some (.withdrawing entry))
    else (n,[],some (.withdrawing entry))
  | .withdrawing entry => (n.deletePending entry,[],some (.offline entry))
  | .offline entry => (n.stopTimer entry,n.answerError o entry .deviceOffline,none)
  | .timing entry =>
    (if n.isPending entry then n.deletePending entry else n,[],some (.timedOut entry))
  | .timedOut entry => (n,n.answerError o entry .proxyTimeout,none)
  | .handling k message => n.handle o k message
  | .publishing k payload eventSeq =>
    match n.sockets[k]? with
    | none => (n,[],none)
    | some s =>
      let current := (n.devices.get (s.relay,s.deviceId)).bind (n.sockets[·]?)
      let ownerUser := (current.map (·.ownerUser)).getD []
      (n,[],some (.emitting s.relay s.deviceId ownerUser payload eventSeq))
  | .emitting relay deviceId ownerUser payload eventSeq =>
    let sent := if n.redis && o.done then
      n.publish (.gatewayEvent deviceId ownerUser payload eventSeq) else n
    if n.redis && o.ok then (sent,[],none)
    else (sent,n.broadcast o relay deviceId ownerUser payload eventSeq,none)
  | .responding entry requestId body =>
    (n.stopTimer entry,n.answer o entry (fun _ => .proxyResponse requestId body),none)
  | .relaying k requestId body =>
    match n.sockets[k]? with
    | none => (n,[],none)
    | some s =>
      (if o.done then n.publish (.proxyResponse s.deviceId s.ownerUser requestId body) else n,[],none)
  | .checking relay k entry =>
    match n.accepted[entry]? with
    | none => (n,[],none)
    | some a =>
      if n.deviceLeaseOwned k o then (n,[],some (.handing relay k entry))
      else (n,[],some (.dropping relay a.request.deviceId k))
  | .handing _ k entry => (n,n.hand o k entry,none)
  | .dropping relay deviceId k =>
    (if n.devices.get (relay,deviceId) = some k then
      { n with devices := n.devices.erase (relay,deviceId) } else n,[],none)
  | .binding relay deviceId ownerUser announce =>
    match n.devices.get (relay,deviceId) with
    | none => (n,[],announced announce deviceId ownerUser)
    | some k => (n,[],some (.comparing k deviceId ownerUser announce))
  | .comparing k deviceId ownerUser announce =>
    match n.sockets[k]? with
    | none => (n,[],announced announce deviceId ownerUser)
    | some s =>
      if ownerUser = [] ∨ (s.ownerUser ≠ [] ∧ s.ownerUser ≠ ownerUser) then
        (n,[],announced announce deviceId ownerUser)
      else if n.redis then (n,[],some (.leasing k s.ownerUser deviceId ownerUser announce))
      else (n,[],some (.writing k deviceId ownerUser announce))
  | .leasing k oldOwner deviceId ownerUser announce =>
    match n.sockets[k]? with
    | none => (n,[],announced announce deviceId ownerUser)
    | some s =>
      let bound := n.bindLease o s oldOwner ownerUser
      (bound.2,[],if bound.1 then some (.writing k deviceId ownerUser announce)
        else announced announce deviceId ownerUser)
  | .writing k deviceId ownerUser announce =>
    (n.modifySocket k ({ · with ownerUser := ownerUser }),
      sendDevice o k (.deviceOwnerBound deviceId ownerUser),announced announce deviceId ownerUser)
  | .announcing deviceId ownerUser =>
    (if n.redis && o.done then n.publish (.deviceOwnership deviceId ownerUser) else n,[],none)
  | .revoking deviceId ownerUser shared =>
    if n.redis = false then (n,[],none)
    else if shared then
      (if o.done then n.publish (.deviceRevocation deviceId ownerUser) else n,[],none)
    else
      (if o.done then { n with revoked := c.hashCredential deviceId :: n.revoked } else n,[],
        if o.ok then some (.revoking deviceId ownerUser true) else none)

/-- `handleRedisMessage`, up to its first release of the lock. -/
def Cluster.handleRedisMessage (n : Cluster) (o : Outcome) (relay : Nat) : Envelope → Effect
  | .gatewayEvent deviceId ownerUser payload eventSeq =>
    (n,n.broadcast o relay deviceId ownerUser payload eventSeq,none)
  | .proxyRequest entry =>
    match n.accepted[entry]? with
    | none => (n,[],none)
    | some a =>
      match n.devices.get (relay,a.request.deviceId) with
      | none => (n,[],none)
      | some k =>
        if a.user ≠ [] ∧ (n.sockets[k]?).map (·.ownerUser) = some a.user then
          (n,[],some (.checking relay k entry))
        else (n,[],none)
  | .proxyResponse deviceId ownerUser requestId body =>
    if ownerUser = [] then (n,[],none)
    else
      match n.takePending relay requestId deviceId ownerUser with
      | none => (n,[],none)
      | some (entry,n) => (n,[],some (.responding entry requestId body))
  | .deviceOwnership deviceId ownerUser =>
    if deviceId = [] ∨ ownerUser = [] then (n,[],none)
    else (n,[],some (.binding relay deviceId ownerUser false))
  | .deviceRevocation _ _ => (n,[],none)

inductive ClusterInput where
  | tick (elapsed : Nat)
  | connectBrowser (relay : Nat) (account : Account)
  | browserFrame (browser : Nat) (message : BrowserMessage)
  | closeBrowser (browser : Nat)
  | connectDevice (relay : Nat) (presenceToken : Text)
  | deviceFrame (socket : Nat) (message : GatewayMessage)
  | advance (socket : Nat)
  | closeDevice (socket : Nat)
  | proceed (task : Nat)
  | fire (entry : Nat)
  | deliver (message : Nat)
  | lose (message : Nat)
  | enroll (account : Account) (requested random secret : Text)
  | pair (relay : Nat) (deviceId : Text) (account : Account)
  | revoke (account : Account) (deviceId : Text)
  | retain (sessionId : Text) (eventSeq : Nat)
  deriving DecidableEq, Repr

def Cluster.busy (n : Cluster) (party : Party) : Bool := n.tasks.any (·.party = party)

def Cluster.spawn (n : Cluster) (party : Party) (work : Option Work) : Cluster :=
  { n with tasks := n.tasks ++ work.toList.map (⟨party,·⟩) }

def Effect.by (e : Effect) (party : Party) : Cluster × List ClusterEvent :=
  (e.1.spawn party e.2.2,e.2.1)

/-- A drawn presence token: 32 random bytes in base64url, other than all before. -/
def Cluster.freshToken (n : Cluster) (token : Text) : Bool :=
  token ≠ [] && '|' ∉ token && n.sockets.all (·.presenceToken ≠ token)

/-- What a device sends, in its turn: the first hello, and messages behind a heartbeat once
it is ready. -/
def Cluster.readDevice (c : Config) (n : Cluster) (o : Outcome) (k : Nat) (s : Socket)
    (message : GatewayMessage) : Cluster × List ClusterEvent :=
  match s.stage, message with
  | .waiting, .ping => (n,sendDevice o k .pong)
  | .waiting, .deviceHello hello secret => (n.hello c o k hello secret,[])
  | .waiting, _ => (n.setStage k .ended,[])
  | .ready, message =>
    let marked := n.markDevicePresence c s o
    if marked.1 then
      (marked.2.spawn (.socket k) (some (.handling k message)),[.deviceSent k s.deviceId message])
    else (marked.2.setStage k .ended,[])
  | _, _ => (n,[])

def Cluster.step (c : Config) (n : Cluster) (o : Outcome) : ClusterInput → Cluster × List ClusterEvent
  | .tick elapsed => ({ n with now := n.now+elapsed },[])
  | .connectBrowser relay account =>
    -- `browserPrincipal` knows no account without a name
    if account.user = [] ∨ n.relays ≤ relay then (n,[])
    else
      ({ n with browsers := n.browsers ++ [{ relay := relay, user := account.user }] },
        sendBrowser o n.browsers.length .cloudReady none)
  | .browserFrame b message =>
    match n.browsers[b]? with
    | none => (n,[])
    | some browser =>
      if browser.connected = false ∨ n.busy (.browser b) = true then (n,[])
      else
        let read := n.readBrowser o b browser message
        (n.spawn (.browser b) read.2,.browserSent b message :: read.1)
  | .closeBrowser b => (if n.busy (.browser b) then n else n.removeBrowser b,[])
  | .connectDevice relay token =>
    if n.freshToken token = false ∨ n.relays ≤ relay then (n,[])
    else ({ n with sockets := n.sockets ++ [{ relay := relay, presenceToken := token }] },[])
  | .deviceFrame k message =>
    match n.sockets[k]? with
    | none => (n,[])
    | some s => if n.busy (.socket k) then (n,[]) else n.readDevice c o k s message
  | .advance k =>
    match n.sockets[k]? with
    | none => (n,[])
    | some s => if n.busy (.socket k) then (n,[]) else n.advance c o k s
  | .closeDevice k =>
    match n.sockets[k]? with
    | none => (n,[])
    | some s =>
      if n.busy (.socket k) = true ∨ (s.stage ≠ .waiting ∧ s.stage ≠ .ready) then (n,[])
      else (n.setStage k .ended,[])
  | .proceed i =>
    match n.tasks[i]? with
    | none => (n,[])
    | some task => (Cluster.perform c { n with tasks := n.tasks.eraseIdx i } o task.work).by task.party
  | .fire entry =>
    -- an armed timer
    if entry < n.accepted.length ∧ entry ∉ n.fired ∧ entry ∉ n.stopped then
      ({ n with fired := entry :: n.fired }.spawn (.timer entry) (some (.timing entry)),[])
    else (n,[])
  | .deliver i =>
    match n.messages[i]? with
    | none => (n,[])
    | some m =>
      if n.busy (.consumer m.relay) then (n,[])
      else
        (Cluster.handleRedisMessage { n with messages := n.messages.eraseIdx i } o m.relay m.envelope).by
          (.consumer m.relay)
  | .lose i => ({ n with messages := n.messages.eraseIdx i },[])
  | .enroll account requested random secret =>
    match n.records.enrollDevice c account.user requested random secret with
    | none => (n,[])
    | some records => (if o.done then { n with records := records } else n,[])
  | .pair relay deviceId account =>
    match n.records.pairDevice deviceId account with
    | none => (n,[])
    | some records =>
      let n := if o.done then { n with records := records } else n
      (n.spawn .handler (if o.ok then some (.binding relay deviceId account.user true) else none),[])
  | .revoke account deviceId =>
    match n.records.revokeDevice account deviceId with
    | none => (n,[])
    | some records =>
      let n := if o.done then { n with records := records } else n
      (n.spawn .handler (if o.ok then some (.revoking deviceId account.user false) else none),[])
  | .retain sessionId eventSeq =>
    match n.sessions.get sessionId with
    | none => (n,[])
    | some session =>
      let kept := { session with gone := eventSeq :: session.gone }
      ({ n with sessions := n.sessions.set sessionId kept },[])

/-- The store and Redis as they are; no connection yet. -/
def Cluster.Started (n : Cluster) : Prop :=
  n.browsers = [] ∧ n.sockets = [] ∧ n.devices = OrdMap.empty ∧ n.accepted = [] ∧
    n.pending = OrdMap.empty ∧ n.tasks = [] ∧ n.messages = []

def cluster (c : Config) : Machine Cluster (ClusterInput × Outcome) ClusterEvent where
  init n := n.Started
  step n input := n.step c input.2 input.1

end CodeHarbor.Network
