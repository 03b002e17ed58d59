import CodeHarbor.Gateway.EventNumbers
import CodeHarbor.Lib.Queues
set_option autoImplicit false

namespace CodeHarbor.Gateway
open Lib

/-! The way of an event from `broadcastGateway` over a local socket, the relay client and
its socket to the relay, which accepts every append. -/

variable {β : Type}

/-- A frame for the clients of the gateway: an event as it was persisted, or a message of a
session that was not. Frames without a session, such as `gateway-ready` and `pong`, are in no
log. -/
inductive Outbound (β : Type) where
  | event (entry : TimelineEntry β)
  | other (sessionId : String) (body : β)
  deriving DecidableEq, Repr

def Outbound.kept : Outbound β → Option (TimelineEntry β)
  | .event entry => some entry
  | .other _ _ => none

/-- The relay client's end of a local socket: connecting or open, closing, closed. Messages
come in until it is closed. -/
inductive ClientEnd where
  | live
  | closing
  | closed
  deriving DecidableEq, Repr

/-- The gateway's end: before the handler of `/ws` has run, among the `clients` and open, and
after its close. -/
inductive ServerEnd where
  | awaiting
  | attached
  | detached
  deriving DecidableEq, Repr

structure LocalSocket (β : Type) where
  client : ClientEnd := .live
  server : ServerEnd := .awaiting
  queue : List (Outbound β) := []
  deriving DecidableEq, Repr

inductive RelayStage where
  | connecting
  | opened
  | closing
  | closed
  deriving DecidableEq, Repr

/-- A socket to the relay; `serving` while the relay reads from it. -/
structure RelaySocket (β : Type) where
  stage : RelayStage := .connecting
  serving : Bool := true
  queue : List (Outbound β) := []
  deriving DecidableEq, Repr

/-- The gateway, its relay client and the log of the relay. Sockets keep their places; what is
in flight or buffered stands in their queues. -/
structure Forwarder (β : Type) where
  events : EventStore β
  locals : List (LocalSocket β) := []
  relays : List (RelaySocket β) := []
  gatewayEventSocket : Option Nat := none
  relaySocket : Option Nat := none
  connected : Bool := false
  timers : Nat := 0
  log : List (Outbound β) := []

inductive ForwardEvent (β : Type) where
  | stored (event : StoreEvent β)
  | broadcast (entry : TimelineEntry β)
  deriving DecidableEq, Repr

namespace Forwarder

def modifyLocal (st : Forwarder β) (k : Nat) (f : LocalSocket β → LocalSocket β) : Forwarder β :=
  { st with locals := st.locals.modify k f }

def modifyRelay (st : Forwarder β) (j : Nat) (f : RelaySocket β → RelaySocket β) : Forwarder β :=
  { st with relays := st.relays.modify j f }

end Forwarder

/-- `sendClient`. A socket with no room for the frame is closed. -/
def LocalSocket.sendClient (s : LocalSocket β) (full : Bool) (frame : Outbound β) : LocalSocket β :=
  if s.server ≠ .attached then s
  else if full then { s with server := .detached }
  else if s.client = .closed then s
  else { s with queue := s.queue ++ [frame] }

namespace Forwarder

def broadcast (st : Forwarder β) (frame : Outbound β) (full : List Nat) : Forwarder β :=
  { st with locals := st.locals.mapIdx (fun k s => s.sendClient (k ∈ full) frame) }

/-- A stale status of a cancelled session is persisted, and not broadcast. -/
def broadcastGateway (st : Forwarder β) (sessionId : String) (body : β) (eventSeq : Option Int)
    (stale : Bool) (full : List Nat) : Forwarder β × List (ForwardEvent β) :=
  let (events,persisted) := st.events.appendEvent sessionId body eventSeq
  let st := { st with events := events }
  let stored := persisted.toList.map (fun entry => ForwardEvent.stored (.appended entry))
  if stale then (st,stored)
  else
    match persisted with
    | some entry => (st.broadcast (.event entry) full,stored ++ [.broadcast entry])
    | none => (st.broadcast (.other sessionId body) full,stored)

def ensureGatewayEventSocket (st : Forwarder β) : Forwarder β :=
  if (st.gatewayEventSocket.bind (st.locals[·]?)).any (·.client = .live) then st
  else { st with
    locals := st.locals ++ [{}]
    gatewayEventSocket := some st.locals.length }

/-- `safeRelaySend` on the current socket. One with no room for the frame is closed, and what
is sent to a relay that has gone is lost. -/
def relaySend (st : Forwarder β) (jammed : Bool) (frame : Outbound β) : Forwarder β :=
  match st.relaySocket with
  | none => st
  | some j =>
    st.modifyRelay j (fun r =>
      if r.stage ≠ .opened then r
      else if jammed then { r with stage := .closing }
      else if r.serving then { r with queue := r.queue ++ [frame] }
      else r)

def message (st : Forwarder β) (k : Nat) (jammed : Bool) : Forwarder β :=
  match st.locals[k]? with
  | none => st
  | some s =>
    match s.queue with
    | [] => st
    | frame :: rest => (st.modifyLocal k ({ · with queue := rest })).relaySend jammed frame

def localClose (st : Forwarder β) (k : Nat) : Forwarder β :=
  let st := st.modifyLocal k ({ · with client := .closed, queue := [] })
  if st.gatewayEventSocket = some k then
    { st with
      gatewayEventSocket := none
      timers := if st.connected then st.timers+1 else st.timers }
  else st

/-- An open socket starts its closing handshake, and hands over what arrives until then. -/
def ClientEnd.close : ClientEnd → ClientEnd
  | .live => .closing
  | other => other

def handleRelayDisconnect (st : Forwarder β) (j : Nat) : Forwarder β :=
  let st := st.modifyRelay j ({ · with stage := .closed })
  if st.relaySocket = some j then
    let st := { st with relaySocket := none, connected := false }
    match st.gatewayEventSocket with
    | none => st
    | some k =>
      { st.modifyLocal k (fun s => { s with client := ClientEnd.close s.client }) with
        gatewayEventSocket := none }
  else st

def relayRead (st : Forwarder β) (j : Nat) : Forwarder β :=
  match st.relays[j]? with
  | none => st
  | some r =>
    match r.queue with
    | [] => st
    | frame :: rest => { st.modifyRelay j ({ · with queue := rest }) with log := st.log ++ [frame] }

end Forwarder

inductive ForwardInput (β : Type) where
  | broadcastGateway (sessionId : String) (body : β) (eventSeq : Option Int) (stale : Bool) (full : List Nat)
  | broadcast (sessionId : String) (body : β) (full : List Nat)
  | store (input : StoreInput β)
  | accept (k : Nat)
  | detach (k : Nat)
  | message (k : Nat) (jammed : Bool)
  | localClose (k : Nat)
  | timer
  | connectRelay
  | relayOpen (j : Nat)
  | deviceReady
  | relayClosing (j : Nat)
  | relayClose (j : Nat)
  | relayRead (j : Nat)
  | relayLost (j : Nat)
  deriving DecidableEq, Repr

namespace Forwarder

def step (st : Forwarder β) : ForwardInput β → Forwarder β × List (ForwardEvent β)
  | .broadcastGateway sessionId body eventSeq stale full =>
    st.broadcastGateway sessionId body eventSeq stale full
  | .broadcast sessionId body full => (st.broadcast (.other sessionId body) full,[])
  | .store input =>
    let (events,out) := st.events.step input
    ({ st with events := events },out.map ForwardEvent.stored)
  | .accept k =>
    (st.modifyLocal k (fun s => if s.server = .awaiting then { s with server := .attached } else s),[])
  | .detach k => (st.modifyLocal k ({ · with server := .detached }),[])
  | .message k jammed => (st.message k jammed,[])
  | .localClose k => (st.localClose k,[])
  | .timer =>
    if st.timers = 0 then (st,[]) else ({ st with timers := st.timers-1 }.ensureGatewayEventSocket,[])
  | .connectRelay =>
    if (st.relaySocket.bind (st.relays[·]?)).any (fun r => r.stage = .connecting ∨ r.stage = .opened) then
      (st,[])
    else ({ st with relays := st.relays ++ [{}], relaySocket := some st.relays.length },[])
  | .relayOpen j =>
    let opened := st.modifyRelay j (fun r =>
      if r.stage = .connecting then { r with stage := .opened } else r)
    (if st.relaySocket = some j ∧ (st.relays[j]?).any (·.stage = .connecting) then
      opened.ensureGatewayEventSocket else opened,[])
  | .deviceReady => ({ st with connected := st.relaySocket.isSome },[])
  | .relayClosing j =>
    (st.modifyRelay j (fun r => if r.stage = .opened then { r with stage := .closing } else r),[])
  | .relayClose j => (st.handleRelayDisconnect j,[])
  | .relayRead j => (st.relayRead j,[])
  | .relayLost j => (st.modifyRelay j ({ · with serving := false, queue := [] }),[])

end Forwarder

def forwarder (files : String → List (EventLine β)) :
    Machine (Forwarder β) (ForwardInput β) (ForwardEvent β) where
  init := fun st => st = { events := EventStore.start files }
  step := Forwarder.step

def ForwardEvent.entry : ForwardEvent β → Option (TimelineEntry β)
  | .broadcast entry => some entry
  | .stored _ => none

def ForwardEvent.store : ForwardEvent β → Option (StoreEvent β)
  | .stored event => some event
  | .broadcast _ => none

/-- As the store would report them, had it kept nothing else. -/
def ForwardEvent.sent : ForwardEvent β → Option (StoreEvent β)
  | .broadcast entry => some (.appended entry)
  | .stored (.deleted sessionId) => some (.deleted sessionId)
  | .stored _ => none

/-- The log of every session has the events that were persisted and broadcast, each once, in
the order in which they were; and since its last deletion this is the order of their numbers. -/
def ForwardedInOrder (tr : List (ForwardEvent β)) (st : Forwarder β) : Prop :=
  ∀ s, (st.log.filterMap Outbound.kept).filter (·.sessionId = s) =
      (tr.filterMap ForwardEvent.entry).filter (·.sessionId = s) ∧
    ((EventStore.sinceDeletion [] s (tr.filterMap ForwardEvent.sent)).map TimelineEntry.eventSeq).Pairwise (· < ·)

namespace Forwarder

def localEvents (st : Forwarder β) (k : Nat) : List (TimelineEntry β) :=
  (((st.locals[k]?).map LocalSocket.queue).getD []).filterMap Outbound.kept

def relayEvents (st : Forwarder β) (j : Nat) : List (TimelineEntry β) :=
  (((st.relays[j]?).map RelaySocket.queue).getD []).filterMap Outbound.kept

/-- Both sockets are connected, and nothing is in flight or buffered. -/
def quiescent (st : Forwarder β) : Bool :=
  st.connected && (st.relaySocket.bind (st.relays[·]?)).any (fun r => r.stage = .opened && r.serving) &&
    (st.gatewayEventSocket.bind (st.locals[·]?)).any (fun s => s.client = .live && s.server = .attached) &&
    st.locals.all (·.queue.isEmpty) && st.relays.all (·.queue.isEmpty)

/-- One local socket is attached, it takes the frame, and no other holds an event. -/
def oneClient (st : Forwarder β) (full : List Nat) : Bool :=
  (List.range st.locals.length).any (fun k => k ∉ full &&
    (st.locals[k]?).any (fun s => s.server = .attached && s.client ≠ .closed) &&
    (List.range st.locals.length).all (fun i => i = k ||
      (st.localEvents i).isEmpty && (st.locals[i]?).any (·.server ≠ .attached)))

/-- The current relay socket takes the frame, and no other holds an event. -/
def oneRelay (st : Forwarder β) (jammed : Bool) : Bool :=
  !jammed && st.relaySocket.any (fun j => (st.relays[j]?).any (fun r => r.stage = .opened && r.serving) &&
    (List.range st.relays.length).all (fun i => i = j || (st.relayEvents i).isEmpty))

/-- An event is broadcast to one local socket and handled with one relay socket open, and no
socket is lost with an event in it; and the store counts on. -/
def forwards (st : Forwarder β) : ForwardInput β → Prop
  | .broadcastGateway sessionId body eventSeq stale full =>
    st.events.countsOn (.appendEvent sessionId body eventSeq) ∧
      (stale = true ∨ (st.events.appendEvent sessionId body eventSeq).2.isNone ∨ st.oneClient full = true)
  | .store input => st.events.countsOn input
  | .message k jammed =>
    (((st.locals[k]?).bind (·.queue.head?)).bind Outbound.kept).isNone ∨ st.oneRelay jammed = true
  | .localClose k => (st.localEvents k).isEmpty
  | .relayLost j => (st.relayEvents j).isEmpty
  | _ => True

instance [DecidableEq β] (st : Forwarder β) : (i : ForwardInput β) → Decidable (st.forwards i)
  | .broadcastGateway _ _ _ _ _ => inferInstanceAs (Decidable (_ ∧ _))
  | .store input => inferInstanceAs (Decidable (st.events.countsOn input))
  | .message _ _ => inferInstanceAs (Decidable (_ ∨ _))
  | .localClose k => inferInstanceAs (Decidable ((st.localEvents k).isEmpty = true))
  | .relayLost j => inferInstanceAs (Decidable ((st.relayEvents j).isEmpty = true))
  | .broadcast _ _ _ | .accept _ | .detach _ | .timer | .connectRelay | .relayOpen _ | .deviceReady |
    .relayClosing _ | .relayClose _ | .relayRead _ => inferInstanceAs (Decidable True)

/-- The events that were broadcast are in the log, on their way to the relay in one socket and
on their way to the relay client in one. -/
structure Carried (tr : List (ForwardEvent β)) (st : Forwarder β) : Prop where
  numbered : ∀ s, EventStore.Numbered st.events s
    (EventStore.sinceDeletion [] s (tr.filterMap ForwardEvent.store))
  sublist : ∀ s, (EventStore.sinceDeletion [] s (tr.filterMap ForwardEvent.sent)).Sublist
    (EventStore.sinceDeletion [] s (tr.filterMap ForwardEvent.store))
  carried : ∃ up down, Sole st.relayEvents up ∧ Sole st.localEvents down ∧
    tr.filterMap ForwardEvent.entry = st.log.filterMap Outbound.kept ++ up ++ down

section Sockets

variable {st st' : Forwarder β}

/-! What the sockets hold. -/

theorem localEvents_modifyLocal (st : Forwarder β) {k : Nat} {f : LocalSocket β → LocalSocket β}
    (hf : ∀ s, (f s).queue = s.queue) : (st.modifyLocal k f).localEvents = st.localEvents := by
  funext i
  unfold localEvents modifyLocal
  rw [List.getElem?_modify]
  cases st.locals[i]? with
  | none => rfl
  | some s =>
    by_cases hk : k = i
    · simp [hk,hf]
    · simp [hk]

theorem relayEvents_modifyRelay {j : Nat} {f : RelaySocket β → RelaySocket β}
    (hf : ∀ r, (f r).queue = r.queue) : (st.modifyRelay j f).relayEvents = st.relayEvents := by
  funext i
  unfold relayEvents modifyRelay
  rw [List.getElem?_modify]
  cases st.relays[i]? with
  | none => rfl
  | some r =>
    by_cases hj : j = i
    · simp [hj,hf]
    · simp [hj]

theorem localEvents_setQueue (st : Forwarder β) {k : Nat} {s : LocalSocket β} (hs : st.locals[k]? = some s)
    {f : LocalSocket β → LocalSocket β} :
    (st.modifyLocal k f).localEvents =
      Function.update st.localEvents k ((f s).queue.filterMap Outbound.kept) := by
  funext i
  by_cases hi : i = k
  · subst hi
    rw [Function.update_self,localEvents,modifyLocal,List.getElem?_modify_eq,hs]
    rfl
  · rw [Function.update_of_ne hi]
    simp [localEvents,modifyLocal,Ne.symm hi]

theorem relayEvents_setQueue (st : Forwarder β) {j : Nat} {r : RelaySocket β} (hr : st.relays[j]? = some r)
    {f : RelaySocket β → RelaySocket β} :
    (st.modifyRelay j f).relayEvents =
      Function.update st.relayEvents j ((f r).queue.filterMap Outbound.kept) := by
  funext i
  by_cases hi : i = j
  · subst hi
    rw [Function.update_self,relayEvents,modifyRelay,List.getElem?_modify_eq,hr]
    rfl
  · rw [Function.update_of_ne hi]
    simp [relayEvents,modifyRelay,Ne.symm hi]

theorem localEvents_of_get {k : Nat} {s : LocalSocket β} (hs : st.locals[k]? = some s) :
    st.localEvents k = s.queue.filterMap Outbound.kept := by
  rw [localEvents,hs]
  rfl

theorem relayEvents_of_get {j : Nat} {r : RelaySocket β} (hr : st.relays[j]? = some r) :
    st.relayEvents j = r.queue.filterMap Outbound.kept := by
  rw [relayEvents,hr]
  rfl

theorem localEvents_of_length_le {k : Nat} (h : st.locals.length ≤ k) : st.localEvents k = [] := by
  rw [localEvents,List.getElem?_eq_none h]
  rfl

theorem relayEvents_of_length_le {j : Nat} (h : st.relays.length ≤ j) : st.relayEvents j = [] := by
  rw [relayEvents,List.getElem?_eq_none h]
  rfl

theorem localEvents_ensure : st.ensureGatewayEventSocket.localEvents = st.localEvents := by
  unfold ensureGatewayEventSocket
  split
  · rfl
  · funext i
    by_cases hi : i < st.locals.length
    · simp only [localEvents,List.getElem?_append_left hi]
    · rw [localEvents_of_length_le (not_lt.mp hi),localEvents]
      dsimp only
      rw [List.getElem?_append_right (not_lt.mp hi)]
      cases hlast : ([{}] : List (LocalSocket β))[i-st.locals.length]? with
      | none => rfl
      | some s =>
        rw [List.mem_singleton.mp (List.mem_of_getElem? hlast)]
        rfl

theorem ensure_rest (st : Forwarder β) : st.ensureGatewayEventSocket.events = st.events ∧
    st.ensureGatewayEventSocket.relayEvents = st.relayEvents ∧ st.ensureGatewayEventSocket.log = st.log := by
  unfold ensureGatewayEventSocket
  split <;> exact ⟨rfl,rfl,rfl⟩

theorem relayEvents_connect :
    relayEvents { st with relays := st.relays ++ [{}], relaySocket := some st.relays.length } =
      st.relayEvents := by
  funext i
  by_cases hi : i < st.relays.length
  · simp only [relayEvents,List.getElem?_append_left hi]
  · rw [relayEvents_of_length_le (not_lt.mp hi),relayEvents]
    dsimp only
    rw [List.getElem?_append_right (not_lt.mp hi)]
    cases hlast : ([{}] : List (RelaySocket β))[i-st.relays.length]? with
    | none => rfl
    | some r =>
      rw [List.mem_singleton.mp (List.mem_of_getElem? hlast)]
      rfl

theorem localEvents_broadcast (frame : Outbound β) (full : List Nat) (i : Nat) :
    (st.broadcast frame full).localEvents i =
      (((st.locals[i]?).map (fun s => (s.sendClient (i ∈ full) frame).queue)).getD []).filterMap Outbound.kept := by
  simp only [localEvents,broadcast,List.getElem?_mapIdx,Option.map_map]
  rfl

theorem sendClient_other (s : LocalSocket β) (full : Bool) (sessionId : String) (body : β) :
    (s.sendClient full (.other sessionId body)).queue.filterMap Outbound.kept =
      s.queue.filterMap Outbound.kept := by
  unfold LocalSocket.sendClient
  split_ifs <;> simp [Outbound.kept]

theorem localEvents_broadcast_other (sessionId : String) (body : β) (full : List Nat) :
    (st.broadcast (.other sessionId body) full).localEvents = st.localEvents := by
  funext i
  rw [localEvents_broadcast,localEvents]
  cases st.locals[i]? with
  | none => rfl
  | some s => exact sendClient_other s (i ∈ full) sessionId body

theorem localEvents_broadcast_event (st : Forwarder β) {full : List Nat} {k : Nat} {s : LocalSocket β} (entry : TimelineEntry β)
    (hs : st.locals[k]? = some s) (hfull : k ∉ full) (hattached : s.server = .attached)
    (hclient : s.client ≠ .closed) (hothers : ∀ i s', i ≠ k → st.locals[i]? = some s' → s'.server ≠ .attached) :
    (st.broadcast (.event entry) full).localEvents =
      Function.update st.localEvents k (st.localEvents k ++ [entry]) := by
  funext i
  rw [localEvents_broadcast]
  by_cases hi : i = k
  · subst hi
    rw [Function.update_self,localEvents_of_get hs,hs]
    simp [LocalSocket.sendClient,hattached,hclient,hfull,Outbound.kept]
  · rw [Function.update_of_ne hi,localEvents]
    cases hget : st.locals[i]? with
    | none => rfl
    | some s' => simp [LocalSocket.sendClient,hothers i s' hi hget]

theorem others_local {k : Nat} (h : ∀ i, i < st.locals.length → i = k ∨ st.localEvents i = []) (i : Nat)
    (hi : i ≠ k) : st.localEvents i = [] := by
  by_cases hlt : i < st.locals.length
  · exact (h i hlt).resolve_left hi
  · exact localEvents_of_length_le (not_lt.mp hlt)

theorem others_relay {j : Nat} (h : ∀ i, i < st.relays.length → i = j ∨ st.relayEvents i = []) (i : Nat)
    (hi : i ≠ j) : st.relayEvents i = [] := by
  by_cases hlt : i < st.relays.length
  · exact (h i hlt).resolve_left hi
  · exact relayEvents_of_length_le (not_lt.mp hlt)

end Sockets

section Carried

variable {st st' : Forwarder β} {tr : List (ForwardEvent β)}

/-! Steps. -/

theorem Carried.same (h : st.Carried tr) (hevents : st'.events = st.events)
    (hlocal : st'.localEvents = st.localEvents) (hrelay : st'.relayEvents = st.relayEvents)
    (hlog : st'.log.filterMap Outbound.kept = st.log.filterMap Outbound.kept) : st'.Carried tr where
  numbered := by
    rw [hevents]
    exact h.numbered
  sublist := h.sublist
  carried := by
    rw [hlocal,hrelay,hlog]
    exact h.carried

theorem relaySend_other (jammed : Bool) {frame : Outbound β} (hframe : frame.kept = none) :
    (st.relaySend jammed frame).relayEvents = st.relayEvents := by
  unfold relaySend
  split
  · rfl
  · rename_i j _
    funext i
    unfold relayEvents modifyRelay
    dsimp only
    rw [List.getElem?_modify]
    cases st.relays[i]? with
    | none => rfl
    | some r =>
      by_cases hj : j = i
      · simp only [hj,if_true,Option.map_eq_map,Option.map_some,Option.getD_some]
        split_ifs <;> simp [hframe]
      · simp [hj]

theorem relaySend_rest (st : Forwarder β) (jammed : Bool) (frame : Outbound β) :
    (st.relaySend jammed frame).events = st.events ∧
      (st.relaySend jammed frame).localEvents = st.localEvents ∧
      (st.relaySend jammed frame).log = st.log := by
  unfold relaySend
  split <;> exact ⟨rfl,rfl,rfl⟩

theorem sent_sublist {sent stored : List (StoreEvent β)}
    (h : ∀ s, (EventStore.sinceDeletion [] s sent).Sublist (EventStore.sinceDeletion [] s stored))
    (out : List (StoreEvent β)) (s : String) :
    (EventStore.sinceDeletion [] s (sent ++ (out.map ForwardEvent.stored).filterMap ForwardEvent.sent)).Sublist
      (EventStore.sinceDeletion [] s (stored ++ out)) := by
  induction out generalizing sent stored with
  | nil => simpa using h s
  | cons event out ih =>
    have hmore : ∀ s, (EventStore.sinceDeletion [] s
        (sent ++ (ForwardEvent.sent (.stored event)).toList)).Sublist
        (EventStore.sinceDeletion [] s (stored ++ [event])) := by
      intro s
      rw [EventStore.sinceDeletion_snoc]
      cases event with
      | appended entry =>
        simp only [ForwardEvent.sent,Option.toList_none,List.append_nil]
        split
        · exact (h s).trans (List.sublist_append_left _ _)
        · exact h s
      | deleted sessionId =>
        simp only [ForwardEvent.sent,Option.toList_some,EventStore.sinceDeletion_snoc]
        split
        · exact List.Sublist.refl _
        · exact h s
      | listed sessionId entries =>
        simp only [ForwardEvent.sent,Option.toList_none,List.append_nil]
        exact h s
    have hrest := ih hmore
    rw [List.append_assoc,List.append_assoc,List.singleton_append] at hrest
    rw [List.map_cons,List.filterMap_cons]
    cases hsent : ForwardEvent.sent (.stored event) with
    | none =>
      rw [hsent,Option.toList_none,List.nil_append] at hrest
      exact hrest
    | some e =>
      rw [hsent,Option.toList_some,List.singleton_append] at hrest
      exact hrest

theorem Carried.message (h : st.Carried tr) {k : Nat} {jammed : Bool}
    (hforwards : st.forwards (.message k jammed)) : (st.message k jammed).Carried tr := by
  unfold Forwarder.message
  cases hs : st.locals[k]? with
  | none => exact h
  | some s =>
    dsimp only
    cases hqueue : s.queue with
    | nil => exact h
    | cons frame rest =>
      dsimp only
      obtain ⟨hevents,hlocal,hlog⟩ := relaySend_rest (st.modifyLocal k ({ · with queue := rest }))
        jammed frame
      cases frame with
      | other sessionId body =>
        refine h.same hevents ?_ (relaySend_other jammed rfl) (by rw [hlog]; rfl)
        rw [hlocal,localEvents_setQueue st hs]
        refine (Function.update_eq_self_iff.mpr ?_)
        rw [localEvents_of_get hs,hqueue]
        rfl
      | event entry =>
        have hone : st.oneRelay jammed = true := by
          rcases hforwards with hnone | hone
          · simp [hs,hqueue,Outbound.kept] at hnone
          · exact hone
        simp only [oneRelay,Bool.and_eq_true,Bool.not_eq_true',Option.any_eq_true,List.all_eq_true,
          List.mem_range,Bool.or_eq_true,decide_eq_true_eq,List.isEmpty_iff] at hone
        obtain ⟨hroom,j,hj,⟨r,hr,hopened,hserving⟩,hothers⟩ := hone
        obtain ⟨up,down,hup,hdown,hsum⟩ := h.carried
        have hfirst : st.localEvents k = entry :: rest.filterMap Outbound.kept := by
          rw [localEvents_of_get hs,hqueue]
          rfl
        obtain ⟨rfl,hdown'⟩ := hdown.pop hfirst
        refine ⟨?_,h.sublist,up ++ [entry],rest.filterMap Outbound.kept,?_,?_,?_⟩
        · rw [hevents]
          exact h.numbered
        · have hpush := hup.push (others_relay hothers) entry
          have hsame : ((st.modifyLocal k ({ · with queue := rest })).relaySend jammed (.event entry)).relayEvents =
              Function.update st.relayEvents j (st.relayEvents j ++ [entry]) := by
            have hsend : (st.modifyLocal k ({ · with queue := rest })).relaySend jammed (.event entry) =
                (st.modifyLocal k ({ · with queue := rest })).modifyRelay j (fun r =>
                  if r.stage ≠ .opened then r
                  else if jammed then { r with stage := .closing }
                  else if r.serving then { r with queue := r.queue ++ [.event entry] }
                  else r) := by
              simp only [relaySend,modifyLocal,hj]
            rw [hsend,relayEvents_setQueue (st.modifyLocal k ({ · with queue := rest })) hr,
              relayEvents_of_get hr]
            simp only [hopened,ne_eq,not_true_eq_false,if_false,hroom,Bool.false_eq_true,hserving,if_true,
              List.filterMap_append]
            rfl
          rw [hsame]
          exact hpush
        · rw [hlocal,localEvents_setQueue st hs]
          exact hdown'
        · rw [hsum,hlog]
          simp [modifyLocal]

theorem Carried.relayRead (h : st.Carried tr) (j : Nat) : (st.relayRead j).Carried tr := by
  unfold Forwarder.relayRead
  cases hr : st.relays[j]? with
  | none => exact h
  | some r =>
    dsimp only
    cases hqueue : r.queue with
    | nil => exact h
    | cons frame rest =>
      dsimp only
      have hset : relayEvents { st.modifyRelay j ({ · with queue := rest }) with log := st.log ++ [frame] } =
          Function.update st.relayEvents j (rest.filterMap Outbound.kept) :=
        relayEvents_setQueue st hr
      cases frame with
      | other sessionId body =>
        refine h.same rfl rfl ?_ (by simp [Outbound.kept])
        rw [hset]
        refine Function.update_eq_self_iff.mpr ?_
        rw [relayEvents_of_get hr,hqueue]
        rfl
      | event entry =>
        obtain ⟨up,down,hup,hdown,hsum⟩ := h.carried
        have hfirst : st.relayEvents j = entry :: rest.filterMap Outbound.kept := by
          rw [relayEvents_of_get hr,hqueue]
          rfl
        obtain ⟨rfl,hup'⟩ := hup.pop hfirst
        refine ⟨h.numbered,h.sublist,rest.filterMap Outbound.kept,down,?_,hdown,?_⟩
        · rw [hset]
          exact hup'
        · rw [hsum]
          simp [Outbound.kept]

theorem Carried.stored (h : st.Carried tr) {i : StoreInput β} (hok : st.events.countsOn i) :
    Carried (tr ++ (st.events.step i).2.map ForwardEvent.stored) { st with events := (st.events.step i).1 } := by
  have hstore : ((st.events.step i).2.map ForwardEvent.stored).filterMap ForwardEvent.store =
      (st.events.step i).2 := by
    rw [List.filterMap_map]
    exact List.filterMap_some
  have hentry : ((st.events.step i).2.map ForwardEvent.stored).filterMap ForwardEvent.entry = [] := by
    rw [List.filterMap_map]
    exact List.filterMap_eq_nil_iff.mpr (fun _ _ => rfl)
  constructor
  · intro s
    rw [List.filterMap_append,hstore]
    exact EventStore.Numbered.next h.numbered hok s
  · intro s
    rw [List.filterMap_append,List.filterMap_append,hstore]
    exact sent_sublist h.sublist (st.events.step i).2 s
  · obtain ⟨up,down,hup,hdown,hsum⟩ := h.carried
    refine ⟨up,down,hup,hdown,?_⟩
    rw [List.filterMap_append,hentry,List.append_nil]
    exact hsum

theorem Carried.broadcast (h : st.Carried tr) {sessionId : String} {body : β} {eventSeq : Option Int}
    {full : List Nat} {entry : TimelineEntry β}
    (hentry : (st.events.appendEvent sessionId body eventSeq).2 = some entry)
    (hok : st.events.countsOn (.appendEvent sessionId body eventSeq)) (hone : st.oneClient full = true) :
    Carried (tr ++ [.stored (.appended entry),.broadcast entry])
      (Forwarder.broadcast { st with events := (st.events.appendEvent sessionId body eventSeq).1 }
        (.event entry) full) := by
  have hout : (st.events.step (.appendEvent sessionId body eventSeq)).2 = [.appended entry] := by
    simp [EventStore.step,hentry]
  have hstored := h.stored hok
  rw [hout] at hstored
  simp only [oneClient,List.any_eq_true,List.all_eq_true,List.mem_range,Bool.and_eq_true,Bool.or_eq_true,
    decide_eq_true_eq,Option.any_eq_true,List.isEmpty_iff] at hone
  obtain ⟨k,-,⟨hfull,s,hs,hattached,hclient⟩,hothers⟩ := hone
  obtain ⟨up,down,hup,hdown,hsum⟩ := h.carried
  have hpush := hdown.push (others_local fun i hi => (hothers i hi).imp_right And.left) entry
  have hlocal := localEvents_broadcast_event
    { st with events := (st.events.appendEvent sessionId body eventSeq).1 } entry hs hfull hattached
    hclient (by
      intro i s' hi hget
      obtain ⟨hlt,-⟩ := List.getElem?_eq_some_iff.mp hget
      obtain ⟨-,other,hother,hdetached⟩ := (hothers i hlt).resolve_left hi
      have heq : some s' = some other := hget.symm.trans hother
      cases heq
      exact hdetached)
  refine ⟨?_,?_,up,down ++ [entry],hup,?_,?_⟩
  · intro s
    have hnumbered := hstored.numbered s
    rw [List.filterMap_append] at hnumbered ⊢
    exact hnumbered
  · intro s
    have hsublist := h.sublist s
    simp only [List.filterMap_append,List.filterMap_cons,List.filterMap_nil,ForwardEvent.sent,
      ForwardEvent.store,EventStore.sinceDeletion_snoc]
    split
    · exact hsublist.append (List.Sublist.refl _)
    · exact hsublist
  · rw [hlocal]
    exact hpush
  · have hnew : [ForwardEvent.stored (.appended entry),.broadcast entry].filterMap ForwardEvent.entry = [entry] :=
      rfl
    rw [List.filterMap_append,hsum,hnew,List.append_assoc]
    rfl

theorem Carried.broadcastGateway (h : st.Carried tr) {sessionId : String} {body : β} {eventSeq : Option Int}
    {stale : Bool} {full : List Nat}
    (hforwards : st.forwards (.broadcastGateway sessionId body eventSeq stale full)) :
    Carried (tr ++ (st.broadcastGateway sessionId body eventSeq stale full).2)
      (st.broadcastGateway sessionId body eventSeq stale full).1 := by
  obtain ⟨hok,hroom⟩ := hforwards
  have hstored := h.stored hok
  have hout : (st.events.step (.appendEvent sessionId body eventSeq)).2.map ForwardEvent.stored =
      (st.events.appendEvent sessionId body eventSeq).2.toList.map
        (fun entry => ForwardEvent.stored (.appended entry)) := by
    simp [EventStore.step]
  rw [hout] at hstored
  unfold Forwarder.broadcastGateway
  dsimp only
  split
  · exact hstored
  · rename_i hstale
    cases hentry : (st.events.appendEvent sessionId body eventSeq).2 with
    | none =>
      rw [hentry] at hstored
      exact hstored.same rfl (localEvents_broadcast_other sessionId body full) rfl rfl
    | some entry =>
      refine h.broadcast hentry hok ?_
      rcases hroom with hbad | hnone | hone
      · exact absurd hbad hstale
      · rw [hentry] at hnone
        cases hnone
      · exact hone

theorem Carried.localClose (h : st.Carried tr) {k : Nat} (hempty : st.localEvents k = []) :
    (st.localClose k).Carried tr := by
  have hlocal : (st.modifyLocal k ({ · with client := .closed, queue := [] })).localEvents =
      st.localEvents := by
    cases hs : st.locals[k]? with
    | none =>
      funext i
      unfold localEvents modifyLocal
      rw [List.getElem?_modify]
      by_cases hi : k = i
      · rw [← hi,hs]
        rfl
      · simp [hi]
    | some s =>
      rw [localEvents_setQueue st hs]
      exact Function.update_eq_self_iff.mpr hempty.symm
  unfold Forwarder.localClose
  dsimp only
  split
  · exact h.same rfl hlocal rfl rfl
  · exact h.same rfl hlocal rfl rfl

theorem Carried.relayLost (h : st.Carried tr) {j : Nat} (hempty : st.relayEvents j = []) :
    (st.modifyRelay j ({ · with serving := false, queue := [] })).Carried tr := by
  have hrelay : (st.modifyRelay j ({ · with serving := false, queue := [] })).relayEvents =
      st.relayEvents := by
    cases hr : st.relays[j]? with
    | none =>
      funext i
      unfold relayEvents modifyRelay
      rw [List.getElem?_modify]
      by_cases hi : j = i
      · rw [← hi,hr]
        rfl
      · simp [hi]
    | some r =>
      rw [relayEvents_setQueue st hr]
      exact Function.update_eq_self_iff.mpr hempty.symm
  exact h.same rfl rfl hrelay rfl

theorem Carried.handleRelayDisconnect (h : st.Carried tr) (j : Nat) :
    (st.handleRelayDisconnect j).Carried tr := by
  have hrelay : (st.modifyRelay j ({ · with stage := .closed })).relayEvents = st.relayEvents :=
    relayEvents_modifyRelay (fun _ => rfl)
  unfold Forwarder.handleRelayDisconnect
  dsimp only
  split
  · split
    · exact h.same rfl rfl hrelay rfl
    · exact h.same rfl (localEvents_modifyLocal st (fun _ => rfl)) hrelay rfl
  · exact h.same rfl rfl hrelay rfl

theorem Carried.ensure (h : st.Carried tr) : st.ensureGatewayEventSocket.Carried tr := by
  obtain ⟨hevents,hrelay,hlog⟩ := ensure_rest st
  exact h.same hevents localEvents_ensure hrelay (by rw [hlog])

theorem Carried.step (h : st.Carried tr) {input : ForwardInput β} (hforwards : st.forwards input) :
    Carried (tr ++ (st.step input).2) (st.step input).1 := by
  have hmove : ∀ {st' : Forwarder β}, Carried tr st' → Carried (tr ++ []) st' := by
    intro st' h'
    rw [List.append_nil]
    exact h'
  cases input with
  | broadcastGateway sessionId body eventSeq stale full => exact h.broadcastGateway hforwards
  | broadcast sessionId body full =>
    exact hmove (h.same rfl (localEvents_broadcast_other sessionId body full) rfl rfl)
  | store input => exact h.stored hforwards
  | accept k =>
    refine hmove (h.same rfl (localEvents_modifyLocal st ?_) rfl rfl)
    intro s
    split <;> rfl
  | detach k => exact hmove (h.same rfl (localEvents_modifyLocal st fun _ => rfl) rfl rfl)
  | message k jammed => exact hmove (h.message hforwards)
  | localClose k => exact hmove (h.localClose (List.isEmpty_iff.mp hforwards))
  | timer =>
    simp only [Forwarder.step]
    split
    · exact hmove h
    · refine hmove (Carried.ensure ?_)
      exact h.same rfl rfl rfl rfl
  | connectRelay =>
    simp only [Forwarder.step]
    split
    · exact hmove h
    · exact hmove (h.same rfl rfl relayEvents_connect rfl)
  | relayOpen j =>
    have hopened : Carried tr (st.modifyRelay j (fun r =>
        if r.stage = .connecting then { r with stage := .opened } else r)) := by
      refine h.same rfl rfl (relayEvents_modifyRelay ?_) rfl
      intro r
      split <;> rfl
    simp only [Forwarder.step]
    split
    · exact hmove hopened.ensure
    · exact hmove hopened
  | deviceReady => exact hmove (h.same rfl rfl rfl rfl)
  | relayClosing j =>
    refine hmove (h.same rfl rfl (relayEvents_modifyRelay ?_) rfl)
    intro r
    split <;> rfl
  | relayClose j => exact hmove (h.handleRelayDisconnect j)
  | relayRead j => exact hmove (h.relayRead j)
  | relayLost j => exact hmove (h.relayLost (List.isEmpty_iff.mp hforwards))

end Carried

end Forwarder

/-- In every run whose steps meet the condition, whenever both sockets are connected and
nothing is on its way, the relay has what was persisted and broadcast, in order. -/
theorem forwarded_in_order (files : String → List (EventLine β)) {tr : List (ForwardEvent β)}
    {st : Forwarder β} (hrun : (forwarder files).Run (fun _ st input => st.forwards input) tr st)
    (hquiescent : st.quiescent = true) : ForwardedInOrder tr st := by
  have hinv : st.Carried tr := by
    refine hrun.invariant (P := fun tr st => Forwarder.Carried tr st) ?_ ?_
    · rintro st rfl
      refine ⟨fun s => EventStore.Numbered.nil _ s,fun s => List.Sublist.refl _,[],[],?_,?_,rfl⟩
      · exact sole_nil (fun _ => rfl)
      · exact sole_nil (fun _ => rfl)
    · intro tr st input h hforwards
      exact h.step hforwards
  obtain ⟨up,down,hup,hdown,hsum⟩ := hinv.carried
  simp only [Forwarder.quiescent,Bool.and_eq_true,List.all_eq_true,List.isEmpty_iff] at hquiescent
  obtain ⟨⟨-,hlocals⟩,hrelays⟩ := hquiescent
  have hnoUp : up = [] := by
    refine hup.eq_nil ?_
    intro j
    cases hr : st.relays[j]? with
    | none => rw [Forwarder.relayEvents,hr]; rfl
    | some r => rw [Forwarder.relayEvents_of_get hr,hrelays r (List.mem_of_getElem? hr)]; rfl
  have hnoDown : down = [] := by
    refine hdown.eq_nil ?_
    intro k
    cases hs : st.locals[k]? with
    | none => rw [Forwarder.localEvents,hs]; rfl
    | some s => rw [Forwarder.localEvents_of_get hs,hlocals s (List.mem_of_getElem? hs)]; rfl
  intro s
  constructor
  · rw [hsum,hnoUp,hnoDown,List.append_nil,List.append_nil]
  · refine List.Pairwise.sublist ((hinv.sublist s).map _) ?_
    rw [List.pairwise_map]
    exact (hinv.numbered s).increasing

namespace Sample

def relayed : Machine (Forwarder String) (ForwardInput String) (ForwardEvent String) := forwarder fun _ => []

def connect (j k : Nat) : List (ForwardInput String) := [.connectRelay,.relayOpen j,.deviceReady,.accept k]

/-- An event on its whole way. -/
def passOn (body : String) (j k : Nat) : List (ForwardInput String) :=
  [.broadcastGateway "s" body none false [],.message k false,.relayRead j]

/-- The connection to the relay drops and comes back, with nothing on its way. -/
def reconnected : List (ForwardInput String) :=
  connect 0 0 ++ passOn "a" 0 0 ++ [.relayClose 0,.relayLost 0,.detach 0,.localClose 0] ++ connect 1 1 ++
    passOn "b" 1 1

/-- An event is broadcast while the connection is down. -/
def meanwhile : List (ForwardInput String) :=
  connect 0 0 ++ [.relayClose 0,.relayLost 0,.detach 0,.localClose 0,.broadcastGateway "s" "a" none false []] ++
    connect 1 1

def forward (inputs : List (ForwardInput String)) : List (ForwardEvent String) × Forwarder String :=
  relayed.exec [] { events := EventStore.start fun _ => [] } inputs

end Sample

theorem reconnected_forwarded_in_order :
    let reached := Sample.forward Sample.reconnected
    reached.2.log.filterMap Outbound.kept = [⟨"s","a",1⟩,⟨"s","b",2⟩] ∧
      ForwardedInOrder reached.1 reached.2 := by
  refine ⟨by decide,?_⟩
  refine forwarded_in_order (fun _ => []) (Machine.Run.exec _ (.start rfl) ?_) (by decide)
  decide

theorem meanwhile_not_forwarded_in_order :
    let reached := Sample.forward Sample.meanwhile
    reached.2.quiescent = true ∧ ¬ ForwardedInOrder reached.1 reached.2 := by
  refine ⟨by decide,?_⟩
  intro h
  have hsame := (h "s").1
  exact absurd hsame (by decide)

end CodeHarbor.Gateway
