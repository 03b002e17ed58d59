import CodeHarbor.Lib.Run
set_option autoImplicit false

namespace CodeHarbor.Relay.Outbound
open Lib

/-! The outbound queue of a peer: its senders, its write loop and whoever stops it, one atomic step
at a time. -/

def maxPeerOutboundBytes : Int := 32*2^20

def peerOutboundBuffer : Nat := 256

/-- What `json.Marshal` makes of a value. -/
abbrev Payload : Type := List UInt8

inductive Point where
  /-- The first `select` of `sendJSONBlockingUntil`. -/
  | check
  /-- `reserveOutboundBytes`, before the counter is read and before it is swapped. -/
  | load
  | swap (current : Int)
  /-- The bytes are reserved. -/
  | offer
  /-- The `select` found the peer closed, or nothing ready; the bytes are still to be given back. -/
  | giveBack (full : Bool)
  /-- Nothing is reserved and the deadline is looked at. -/
  | late
  | halt
  | returned (ok : Bool)
  deriving DecidableEq

/-- A call of `sendJSON`, or of `sendJSONBlockingUntil`; the value is none when it cannot be marshalled. -/
structure Send where
  blocking : Bool
  value : Option Payload
  point : Point
  deriving DecidableEq

namespace Send

def size (s : Send) : Int := (s.value.map List.length).getD 0

/-- What the send has reserved and not yet queued or given back. -/
def reserved (s : Send) : Int :=
  match s.point with
  | .offer => s.size
  | .giveBack _ => s.size
  | _ => 0

def start (blocking : Bool) (value : Option Payload) : Send :=
  let point :=
    match value with
    | none => .returned false
    | some payload =>
      if maxPeerOutboundBytes < payload.length then if blocking then .returned false else .halt
      else if blocking then .check else .load
  { blocking := blocking, value := value, point := point }

end Send

inductive Writer where
  | waiting
  /-- Before `outboundBytes.Add`, and before `WriteMessage`. -/
  | taken (sender : Nat) (payload : Payload)
  | writing (sender : Nat) (payload : Payload)
  /-- Before the `stop` behind a write that failed. -/
  | failing
  | done
  deriving DecidableEq

structure Peer where
  /-- Each payload with the send that queued it. -/
  outbound : List (Nat × Payload)
  outboundBytes : Int
  closed : Bool
  writer : Writer
  sends : List Send

/-- What a `select` goes on with. -/
inductive Case where
  | closed
  | channel
  | default
  deriving DecidableEq

inductive Input where
  | send (blocking : Bool) (value : Option Payload)
  /-- A step of a send: the case its `select` takes, and whether its deadline is over. -/
  | step (i : Nat) (choice : Case) (elapsed : Bool)
  /-- A step of the write loop, and whether its write succeeds. -/
  | write (choice : Case) (succeeds : Bool)
  | stop

inductive Event where
  | queued (sender : Nat) (payload : Payload)
  | handed (sender : Nat) (payload : Payload)
  | failed
  deriving DecidableEq

/-- `current > maxPeerOutboundBytes-size`, and the bounds of the size. -/
def refused (size current : Int) : Bool :=
  size ≤ 0 || maxPeerOutboundBytes < size || maxPeerOutboundBytes-size < current

/-- A step of one send. A `select` waits for a case that is ready; with a `default` it goes on with it
when no other is. -/
def stepSend (p : Peer) (i : Nat) (s : Send) (choice : Case) (elapsed : Bool) : Peer × List Event :=
  let move (point : Point) : List Send := p.sends.set i { s with point := point }
  match s.point with
  | .check => ({ p with sends := move (if p.closed then .returned false else .load) },[])
  | .load =>
    if refused s.size p.outboundBytes then ({ p with sends := move (if s.blocking then .late else .halt) },[])
    else ({ p with sends := move (.swap p.outboundBytes) },[])
  | .swap current =>
    if p.outboundBytes = current then
      ({ p with outboundBytes := current+s.size, sends := move .offer },[])
    else ({ p with sends := move .load },[])
  | .offer =>
    match choice with
    | .closed => if p.closed then ({ p with sends := move (.giveBack false) },[]) else (p,[])
    | .channel =>
      if p.outbound.length < peerOutboundBuffer then
        ({ p with outbound := p.outbound ++ [(i,s.value.getD [])], sends := move (.returned true) },
          [.queued i (s.value.getD [])])
      else (p,[])
    | .default =>
      if p.closed = false ∧ peerOutboundBuffer ≤ p.outbound.length then
        ({ p with sends := move (.giveBack true) },[])
      else (p,[])
  | .giveBack full =>
    ({ p with
        outboundBytes := p.outboundBytes-s.size
        sends := move (if full then if s.blocking then .late else .halt else .returned false) },[])
  | .late => ({ p with sends := move (if elapsed then .halt else .check) },[])
  | .halt => ({ p with closed := true, sends := move (.returned false) },[])
  | .returned _ => (p,[])

def stepWriter (p : Peer) (choice : Case) (succeeds : Bool) : Peer × List Event :=
  match p.writer with
  | .waiting =>
    match choice with
    | .closed => if p.closed then ({ p with writer := .done },[]) else (p,[])
    | .channel =>
      match p.outbound with
      | [] => (p,[])
      | (sender,payload) :: rest => ({ p with outbound := rest, writer := .taken sender payload },[])
    | .default => (p,[])
  | .taken sender payload =>
    ({ p with outboundBytes := p.outboundBytes-payload.length, writer := .writing sender payload },[])
  | .writing sender payload =>
    if succeeds then ({ p with writer := .waiting },[.handed sender payload])
    else ({ p with writer := .failing },[.failed])
  | .failing => ({ p with closed := true, writer := .done },[])
  | .done => (p,[])

def step (p : Peer) : Input → Peer × List Event
  | .send blocking value => ({ p with sends := p.sends ++ [.start blocking value] },[])
  | .step i choice elapsed =>
    match p.sends[i]? with
    | none => (p,[])
    | some s => stepSend p i s choice elapsed
  | .write choice succeeds => stepWriter p choice succeeds
  | .stop => ({ p with closed := true },[])

def newPeer : Peer := { outbound := [], outboundBytes := 0, closed := false, writer := .waiting, sends := [] }

def machine : Machine Peer Input Event := { init := (· = newPeer), step := step }

section Steps
variable {p : Peer} {i : Nat} {s : Send}

/-- All that a step of a send can do. -/
inductive Effect (p : Peer) (i : Nat) (s : Send) : Peer × List Event → Prop where
  | idle : Effect p i s (p,[])
  /-- The send goes on and reserves as much as before. -/
  | move (point : Point) (closed : Bool) : Send.reserved { s with point := point } = s.reserved →
      (∀ current, point = .swap current → current+s.size ≤ maxPeerOutboundBytes) →
      (∀ ok, s.point ≠ .returned ok) → point ≠ .returned true → (p.closed = true → closed = true) →
      Effect p i s ({ p with closed := closed, sends := p.sends.set i { s with point := point } },[])
  | reserve : s.point = .swap p.outboundBytes →
      Effect p i s ({ p with
        outboundBytes := p.outboundBytes+s.size
        sends := p.sends.set i { s with point := .offer } },[])
  | enqueue : s.point = .offer →
      Effect p i s ({ p with
        outbound := p.outbound ++ [(i,s.value.getD [])]
        sends := p.sends.set i { s with point := .returned true } },[.queued i (s.value.getD [])])
  | release (full : Bool) (point : Point) : s.point = .giveBack full →
      (point = .late ∨ point = .halt ∨ point = .returned false) →
      Effect p i s ({ p with
        outboundBytes := p.outboundBytes-s.size
        sends := p.sends.set i { s with point := point } },[])

theorem effect_stepSend (p : Peer) (i : Nat) (s : Send) (choice : Case) (elapsed : Bool) :
    Effect p i s (stepSend p i s choice elapsed) := by
  have stay : ∀ point : Point, Send.reserved { s with point := point } = s.reserved →
      (∀ current, point = .swap current → current+s.size ≤ maxPeerOutboundBytes) → (∀ ok, s.point ≠ .returned ok) →
      point ≠ .returned true →
      Effect p i s ({ p with sends := p.sends.set i { s with point := point } },[]) :=
    fun point same fits before after => .move point p.closed same fits before after id
  cases at_ : s.point with
  | check =>
    simp only [stepSend,at_]
    split_ifs
    · exact stay _ (by simp [Send.reserved,at_]) nofun (by simp [at_]) nofun
    · exact stay _ (by simp [Send.reserved,at_]) nofun (by simp [at_]) nofun
  | load =>
    simp only [stepSend,at_]
    by_cases full : refused s.size p.outboundBytes = true
    · rw [if_pos full]
      split_ifs
      · exact stay _ (by simp [Send.reserved,at_]) nofun (by simp [at_]) nofun
      · exact stay _ (by simp [Send.reserved,at_]) nofun (by simp [at_]) nofun
    · rw [if_neg full]
      refine stay _ (by simp [Send.reserved,at_]) (fun current same => ?_) (by simp [at_]) nofun
      cases same
      simp only [refused,Bool.or_eq_true,decide_eq_true_eq,not_or] at full
      omega
  | swap current =>
    simp only [stepSend,at_]
    split_ifs with same
    · rw [← same]
      exact .reserve (by rw [at_,same])
    · exact stay _ (by simp [Send.reserved,at_]) nofun (by simp [at_]) nofun
  | offer =>
    simp only [stepSend,at_]
    cases choice with
    | closed =>
      dsimp only
      split_ifs
      · exact stay _ (by simp [Send.reserved,at_,Send.size]) nofun (by simp [at_]) nofun
      · exact .idle
    | channel =>
      dsimp only
      split_ifs
      · exact .enqueue at_
      · exact .idle
    | default =>
      dsimp only
      split_ifs
      · exact stay _ (by simp [Send.reserved,at_,Send.size]) nofun (by simp [at_]) nofun
      · exact .idle
  | giveBack full =>
    simp only [stepSend,at_]
    refine .release full _ at_ ?_
    cases full
    · exact .inr (.inr rfl)
    · cases s.blocking
      · exact .inr (.inl rfl)
      · exact .inl rfl
  | late =>
    simp only [stepSend,at_]
    cases elapsed
    · exact stay _ (by simp [Send.reserved,at_]) nofun (by simp [at_]) nofun
    · exact stay _ (by simp [Send.reserved,at_]) nofun (by simp [at_]) nofun
  | halt =>
    simp only [stepSend,at_]
    exact .move _ true (by simp [Send.reserved,at_]) nofun (by simp [at_]) nofun fun _ => rfl
  | returned ok =>
    simp only [stepSend,at_]
    exact .idle

end Steps

section Budget

def queuedBytes (q : List (Nat × Payload)) : Int := (q.map fun e => (e.2.length : Int)).sum

def reservedBytes (sends : List Send) : Int := (sends.map Send.reserved).sum

/-- The bytes that the write loop has taken and not yet discounted. -/
def takenBytes : Writer → Int
  | .taken _ payload => payload.length
  | _ => 0

structure Balanced (p : Peer) : Prop where
  exact : p.outboundBytes = queuedBytes p.outbound+reservedBytes p.sends+takenBytes p.writer
  high : p.outboundBytes ≤ maxPeerOutboundBytes
  /-- What a send is about to swap in has passed the check. -/
  fits : ∀ s ∈ p.sends, ∀ current, s.point = .swap current → current+s.size ≤ maxPeerOutboundBytes

theorem Send.size_nonneg (s : Send) : 0 ≤ s.size := by
  unfold size
  cases s.value <;> simp

theorem Send.size_eq (s : Send) : s.size = (s.value.getD []).length := by
  unfold size
  cases s.value <;> rfl

theorem queuedBytes_append (q : List (Nat × Payload)) (i : Nat) (payload : Payload) :
    queuedBytes (q ++ [(i,payload)]) = queuedBytes q+payload.length := by
  simp [queuedBytes]

theorem Send.reserved_nonneg (s : Send) : 0 ≤ s.reserved := by
  unfold reserved
  split
  · exact s.size_nonneg
  · exact s.size_nonneg
  · exact le_refl 0

theorem Balanced.low {p : Peer} (h : Balanced p) : 0 ≤ p.outboundBytes := by
  have queued : 0 ≤ queuedBytes p.outbound := by
    apply List.sum_nonneg
    intro n mem
    obtain ⟨e,-,rfl⟩ := List.mem_map.1 mem
    exact Int.natCast_nonneg _
  have reserved : 0 ≤ reservedBytes p.sends := by
    apply List.sum_nonneg
    intro n mem
    obtain ⟨s,-,rfl⟩ := List.mem_map.1 mem
    exact s.reserved_nonneg
  have taken : 0 ≤ takenBytes p.writer := by
    unfold takenBytes
    split
    · exact Int.natCast_nonneg _
    · exact le_refl 0
  rw [h.exact]
  omega

theorem reservedBytes_set {sends : List Send} {i : Nat} {s : Send} (at_ : sends[i]? = some s) (s' : Send) :
    reservedBytes (sends.set i s') = reservedBytes sends-s.reserved+s'.reserved := by
  obtain ⟨inside,rfl⟩ := List.getElem?_eq_some_iff.1 at_
  rw [reservedBytes,List.map_set,List.sum_set',dif_pos (by simpa using inside),List.getElem_map]
  rw [reservedBytes]
  omega

theorem Balanced.fits_set {p : Peer} (h : Balanced p) {i : Nat} {s' : Send}
    (own : ∀ current, s'.point = .swap current → current+s'.size ≤ maxPeerOutboundBytes) :
    ∀ t ∈ p.sends.set i s', ∀ current, t.point = .swap current → current+t.size ≤ maxPeerOutboundBytes := by
  intro t mem
  rcases List.mem_or_eq_of_mem_set mem with other | rfl
  · exact h.fits t other
  · exact own

theorem Balanced.effect {p : Peer} (h : Balanced p) {i : Nat} {s : Send} (at_ : p.sends[i]? = some s)
    {r : Peer × List Event} (effect : Effect p i s r) : Balanced r.1 := by
  have budget := h.exact
  have high := h.high
  cases effect with
  | idle => exact h
  | move point closed same fits _ _ _ =>
    refine ⟨?_,high,h.fits_set fits⟩
    dsimp only
    rw [reservedBytes_set at_,same]
    omega
  | reserve swap =>
    have room := h.fits s (List.mem_of_getElem? at_) _ swap
    refine ⟨?_,room,h.fits_set nofun⟩
    dsimp only
    rw [reservedBytes_set at_,budget]
    simp only [Send.reserved,swap,Send.size]
    omega
  | enqueue offer =>
    refine ⟨?_,high,h.fits_set nofun⟩
    dsimp only
    rw [reservedBytes_set at_,budget,queuedBytes_append]
    simp only [Send.reserved,offer,s.size_eq]
    omega
  | release full point giveBack left =>
    refine ⟨?_,?_,h.fits_set fun current same => ?_⟩
    · have nothing : Send.reserved { s with point := point } = 0 := by
        rcases left with rfl | rfl | rfl <;> rfl
      dsimp only
      rw [reservedBytes_set at_,budget,nothing]
      simp only [Send.reserved,giveBack]
      omega
    · have := s.size_nonneg
      dsimp only
      omega
    · subst same
      simp at left

theorem Balanced.stepWriter {p : Peer} (h : Balanced p) (choice : Case) (succeeds : Bool) :
    Balanced (stepWriter p choice succeeds).1 := by
  obtain ⟨budget,high,fits⟩ := h
  unfold Outbound.stepWriter
  cases at_ : p.writer with
  | waiting =>
    rw [at_] at budget
    cases choice with
    | closed =>
      dsimp only
      split_ifs
      · exact ⟨budget,high,fits⟩
      · exact ⟨by rw [at_]; exact budget,high,fits⟩
    | channel =>
      cases queue : p.outbound with
      | nil => exact ⟨by rw [at_]; exact budget,high,fits⟩
      | cons e rest =>
        refine ⟨?_,high,fits⟩
        rw [queue] at budget
        simp only [queuedBytes,List.map_cons,List.sum_cons,takenBytes] at budget ⊢
        omega
    | default => exact ⟨by rw [at_]; exact budget,high,fits⟩
  | taken sender payload =>
    rw [at_] at budget
    refine ⟨?_,?_,fits⟩
    · dsimp only [takenBytes] at budget ⊢
      omega
    · dsimp only
      omega
  | writing sender payload =>
    rw [at_] at budget
    dsimp only
    split_ifs
    · exact ⟨budget,high,fits⟩
    · exact ⟨budget,high,fits⟩
  | failing =>
    rw [at_] at budget
    exact ⟨budget,high,fits⟩
  | done => exact ⟨by rw [at_] at budget ⊢; exact budget,high,fits⟩

theorem Send.start_point (blocking : Bool) (value : Option Payload) :
    (Send.start blocking value).point = .returned false ∨ (Send.start blocking value).point = .halt ∨
      (Send.start blocking value).point = .check ∨ (Send.start blocking value).point = .load := by
  cases value with
  | none => exact .inl rfl
  | some payload =>
    cases blocking <;> by_cases long : maxPeerOutboundBytes < payload.length <;> simp [start,long]

theorem Balanced.step {p : Peer} (h : Balanced p) (input : Input) : Balanced (step p input).1 := by
  cases input with
  | send blocking value =>
    obtain ⟨budget,high,fits⟩ := h
    have begins := Send.start_point blocking value
    have nothing : (Send.start blocking value).reserved = 0 := by
      rcases begins with at_ | at_ | at_ | at_ <;> simp [Send.reserved,at_]
    refine ⟨?_,high,fun s mem current swap => ?_⟩
    · simp only [Outbound.step,reservedBytes,List.map_append,List.sum_append,List.map_singleton,List.sum_singleton,
        nothing,add_zero]
      exact budget
    · rcases List.mem_append.1 mem with old | new
      · exact fits s old current swap
      · rw [List.mem_singleton.1 new] at swap
        simp [swap] at begins
  | step i choice elapsed =>
    rw [Outbound.step]
    cases at_ : p.sends[i]? with
    | none => exact h
    | some s => exact h.effect at_ (effect_stepSend p i s choice elapsed)
  | write choice succeeds => exact h.stepWriter choice succeeds
  | stop => exact ⟨h.exact,h.high,h.fits⟩

end Budget

section Order

def queuedOf (tr : List Event) : List (Nat × Payload) := tr.filterMap fun
  | .queued sender payload => some (sender,payload)
  | _ => none

def handedOf (tr : List Event) : List (Nat × Payload) := tr.filterMap fun
  | .handed sender payload => some (sender,payload)
  | _ => none

def inHand : Writer → List (Nat × Payload)
  | .taken sender payload => [(sender,payload)]
  | .writing sender payload => [(sender,payload)]
  | _ => []

def Writing (w : Writer) : Prop := w ≠ .failing ∧ w ≠ .done

structure Flow (tr : List Event) (p : Peer) : Prop where
  /-- Every payload that was queued is handed over, in hand or in the queue, in this order. -/
  order : Writing p.writer → queuedOf tr = handedOf tr ++ (inHand p.writer ++ p.outbound)
  handed_first : handedOf tr <+: queuedOf tr
  failing : p.writer = .failing → Event.failed ∈ tr
  done : p.writer = .done → p.closed = true

structure Answers (tr : List Event) (sends : List Send) : Prop where
  valued : ∀ s ∈ sends, s.value = none → s.point = .returned false
  /-- The sends that returned true are the ones whose payloads were queued. -/
  returned : ∀ i payload, (i,payload) ∈ queuedOf tr ↔
    ∃ s, sends[i]? = some s ∧ s.value = some payload ∧ s.point = .returned true
  once : ((queuedOf tr).map Prod.fst).Nodup

theorem queuedOf_snoc (tr : List Event) (i : Nat) (payload : Payload) :
    queuedOf (tr ++ [.queued i payload]) = queuedOf tr ++ [(i,payload)] := by
  simp [queuedOf]

theorem handedOf_queued (tr : List Event) (i : Nat) (payload : Payload) :
    handedOf (tr ++ [.queued i payload]) = handedOf tr := by
  simp [handedOf]

theorem handedOf_snoc (tr : List Event) (i : Nat) (payload : Payload) :
    handedOf (tr ++ [.handed i payload]) = handedOf tr ++ [(i,payload)] := by
  simp [handedOf]

theorem queuedOf_handed (tr : List Event) (i : Nat) (payload : Payload) :
    queuedOf (tr ++ [.handed i payload]) = queuedOf tr := by
  simp [queuedOf]

theorem Answers.set {tr : List Event} {sends : List Send} (h : Answers tr sends) {i : Nat} {s : Send}
    (at_ : sends[i]? = some s) {point : Point} (before : s.point ≠ .returned true) (after : point ≠ .returned true)
    (valued : s.value = none → point = .returned false) : Answers tr (sends.set i { s with point := point }) := by
  refine ⟨fun t mem none => ?_,fun j payload => ?_,h.once⟩
  · rcases List.mem_or_eq_of_mem_set mem with other | rfl
    · exact h.valued t other none
    · exact valued none
  · rw [h.returned]
    by_cases same : j = i
    · subst same
      have inside := (List.getElem?_eq_some_iff.1 at_).1
      constructor
      · rintro ⟨t,found,-,yes⟩
        rw [at_] at found
        cases found
        exact absurd yes before
      · rintro ⟨t,found,-,yes⟩
        rw [List.getElem?_set_self inside] at found
        cases found
        exact absurd yes after
    · rw [List.getElem?_set_ne (Ne.symm same)]

theorem Answers.enqueue {tr : List Event} {sends : List Send} (h : Answers tr sends) {i : Nat} {s : Send}
    (at_ : sends[i]? = some s) (offer : s.point = .offer) :
    Answers (tr ++ [.queued i (s.value.getD [])]) (sends.set i { s with point := .returned true }) := by
  obtain ⟨inside,-⟩ := List.getElem?_eq_some_iff.1 at_
  obtain ⟨payload,value⟩ : ∃ payload, s.value = some payload := by
    cases value : s.value with
    | none =>
      have := h.valued s (List.mem_of_getElem? at_) value
      rw [offer] at this
      cases this
    | some payload => exact ⟨payload,rfl⟩
  have fresh : ∀ payload, (i,payload) ∉ queuedOf tr := by
    intro payload mem
    obtain ⟨t,found,-,yes⟩ := (h.returned i payload).1 mem
    rw [at_] at found
    cases found
    rw [offer] at yes
    cases yes
  rw [value]
  refine ⟨fun t mem none => ?_,fun j bytes => ?_,?_⟩
  · rcases List.mem_or_eq_of_mem_set mem with other | rfl
    · exact h.valued t other none
    · cases none
  · rw [queuedOf_snoc,List.mem_append,List.mem_singleton,Option.getD_some,h.returned]
    by_cases same : j = i
    · subst same
      rw [List.getElem?_set_self inside,at_]
      constructor
      · rintro (⟨t,found,-,yes⟩ | own)
        · cases found
          rw [offer] at yes
          cases yes
        · cases own
          exact ⟨_,rfl,rfl,rfl⟩
      · rintro ⟨t,found,own,-⟩
        cases found
        cases own
        exact .inr rfl
    · rw [List.getElem?_set_ne (Ne.symm same)]
      simp [same]
  · rw [queuedOf_snoc,List.map_append,List.map_singleton,List.nodup_append]
    refine ⟨h.once,by simp,fun a mem b own => ?_⟩
    obtain ⟨e,found,rfl⟩ := List.mem_map.1 mem
    rw [List.mem_singleton.1 own]
    rintro rfl
    exact fresh e.2 found

theorem Answers.of_queued {tr tr' : List Event} {sends : List Send} (h : Answers tr sends)
    (same : queuedOf tr' = queuedOf tr) : Answers tr' sends :=
  ⟨h.valued,by rw [same]; exact h.returned,by rw [same]; exact h.once⟩

theorem sends_stepWriter (p : Peer) (choice : Case) (succeeds : Bool) :
    (stepWriter p choice succeeds).1.sends = p.sends := by
  cases at_ : p.writer <;> cases choice <;> simp only [stepWriter,at_] <;> first | rfl | (split <;> rfl)

theorem queuedOf_stepWriter (p : Peer) (choice : Case) (succeeds : Bool) (tr : List Event) :
    queuedOf (tr ++ (stepWriter p choice succeeds).2) = queuedOf tr := by
  have nothing : queuedOf (stepWriter p choice succeeds).2 = [] := by
    cases at_ : p.writer <;> cases choice <;> simp only [stepWriter,at_] <;> first | rfl | (split <;> rfl)
  rw [queuedOf,List.filterMap_append,← queuedOf,← queuedOf,nothing,List.append_nil]

theorem Flow.effect {tr : List Event} {p : Peer} (h : Flow tr p) {i : Nat} {s : Send} {r : Peer × List Event}
    (effect : Effect p i s r) : Flow (tr ++ r.2) r.1 := by
  obtain ⟨order,first,failing,done⟩ := h
  cases effect with
  | idle =>
    rw [List.append_nil]
    exact ⟨order,first,failing,done⟩
  | move point closed _ _ _ _ shut =>
    rw [List.append_nil]
    exact ⟨order,first,failing,fun stopped => shut (done stopped)⟩
  | reserve _ =>
    rw [List.append_nil]
    exact ⟨order,first,failing,done⟩
  | enqueue _ =>
    refine ⟨fun writing => ?_,?_,fun failed => List.mem_append_left _ (failing failed),done⟩
    · rw [queuedOf_snoc,handedOf_queued,order writing]
      simp
    · rw [queuedOf_snoc,handedOf_queued]
      exact first.trans (List.prefix_append _ _)
  | release _ _ _ _ =>
    rw [List.append_nil]
    exact ⟨order,first,failing,done⟩

theorem Answers.effect {tr : List Event} {p : Peer} (h : Answers tr p.sends) {i : Nat} {s : Send}
    (at_ : p.sends[i]? = some s) {r : Peer × List Event} (effect : Effect p i s r) :
    Answers (tr ++ r.2) r.1.sends := by
  have valued := h.valued s (List.mem_of_getElem? at_)
  cases effect with
  | idle =>
    rw [List.append_nil]
    exact h
  | move point closed _ _ before after _ =>
    rw [List.append_nil]
    exact h.set at_ (before true) after fun none => absurd (valued none) (before false)
  | reserve swap =>
    rw [List.append_nil]
    refine h.set at_ (by rw [swap]; nofun) nofun fun none => ?_
    rw [valued none] at swap
    cases swap
  | enqueue offer => exact h.enqueue at_ offer
  | release full point giveBack left =>
    rw [List.append_nil]
    refine h.set at_ (by rw [giveBack]; nofun) (by rintro rfl; simp at left) fun none => ?_
    rw [valued none] at giveBack
    cases giveBack

theorem Flow.stepWriter {tr : List Event} {p : Peer} (h : Flow tr p) (choice : Case) (succeeds : Bool) :
    Flow (tr ++ (stepWriter p choice succeeds).2) (stepWriter p choice succeeds).1 := by
  have still : Flow (tr ++ []) p := by rwa [List.append_nil]
  obtain ⟨order,first,failing,done⟩ := h
  unfold Outbound.stepWriter
  cases at_ : p.writer with
  | waiting =>
    have flows := order (by rw [at_]; exact ⟨nofun,nofun⟩)
    cases choice with
    | closed =>
      dsimp only
      split_ifs with shut
      · rw [List.append_nil]
        exact ⟨fun writing => absurd rfl writing.2,first,nofun,fun _ => shut⟩
      · exact still
    | channel =>
      cases queue : p.outbound with
      | nil => exact still
      | cons e rest =>
        dsimp only
        rw [List.append_nil]
        refine ⟨fun _ => ?_,first,nofun,nofun⟩
        rw [flows,at_,queue]
        rfl
    | default => exact still
  | taken sender payload =>
    have flows := order (by rw [at_]; exact ⟨nofun,nofun⟩)
    rw [at_] at flows
    dsimp only
    rw [List.append_nil]
    exact ⟨fun _ => flows,first,nofun,nofun⟩
  | writing sender payload =>
    have flows := order (by rw [at_]; exact ⟨nofun,nofun⟩)
    rw [at_] at flows
    dsimp only
    split_ifs
    · refine ⟨fun _ => ?_,?_,nofun,nofun⟩
      · rw [queuedOf_handed,handedOf_snoc,flows]
        simp [inHand]
      · rw [queuedOf_handed,handedOf_snoc,flows]
        simp [inHand]
    · refine ⟨fun writing => absurd rfl writing.1,?_,fun _ => by simp,nofun⟩
      simpa [queuedOf,handedOf] using first
  | failing =>
    dsimp only
    rw [List.append_nil]
    exact ⟨fun writing => absurd rfl writing.2,first,nofun,fun _ => rfl⟩
  | done => exact still

theorem Answers.send {tr : List Event} {sends : List Send} (h : Answers tr sends) (blocking : Bool)
    (value : Option Payload) : Answers tr (sends ++ [.start blocking value]) := by
  have begins := Send.start_point blocking value
  refine ⟨fun s mem none => ?_,fun i payload => ?_,h.once⟩
  · rcases List.mem_append.1 mem with old | new
    · exact h.valued s old none
    · rw [List.mem_singleton.1 new] at none ⊢
      obtain rfl : value = Option.none := none
      rfl
  · rw [h.returned,List.getElem?_append]
    split_ifs with inside
    · rfl
    · rw [List.getElem?_eq_none (Nat.le_of_not_lt inside)]
      constructor
      · rintro ⟨s,found,-⟩
        cases found
      · rintro ⟨s,found,-,yes⟩
        obtain rfl := List.mem_singleton.1 (List.mem_of_getElem? found)
        simp [yes] at begins

end Order

structure Sound (tr : List Event) (p : Peer) : Prop where
  balanced : Balanced p
  flow : Flow tr p
  answers : Answers tr p.sends

theorem sound_newPeer : Sound [] newPeer where
  balanced := ⟨rfl,by decide,nofun⟩
  flow := ⟨fun _ => rfl,List.prefix_rfl,nofun,nofun⟩
  answers := ⟨nofun,fun i payload => by simp [queuedOf,newPeer],List.nodup_nil⟩

theorem Sound.step {tr : List Event} {p : Peer} (h : Sound tr p) (input : Input) :
    Sound (tr ++ (step p input).2) (step p input).1 := by
  refine ⟨h.balanced.step input,?_,?_⟩
  · cases input with
    | send blocking value =>
      rw [Outbound.step,List.append_nil]
      exact ⟨h.flow.order,h.flow.handed_first,h.flow.failing,h.flow.done⟩
    | step i choice elapsed =>
      rw [Outbound.step]
      cases at_ : p.sends[i]? with
      | none =>
        rw [List.append_nil]
        exact h.flow
      | some s => exact h.flow.effect (effect_stepSend p i s choice elapsed)
    | write choice succeeds => exact h.flow.stepWriter choice succeeds
    | stop =>
      rw [Outbound.step,List.append_nil]
      exact ⟨h.flow.order,h.flow.handed_first,h.flow.failing,fun _ => rfl⟩
  · cases input with
    | send blocking value =>
      rw [Outbound.step,List.append_nil]
      exact h.answers.send blocking value
    | step i choice elapsed =>
      rw [Outbound.step]
      cases at_ : p.sends[i]? with
      | none =>
        rw [List.append_nil]
        exact h.answers
      | some s => exact h.answers.effect at_ (effect_stepSend p i s choice elapsed)
    | write choice succeeds =>
      rw [Outbound.step,sends_stepWriter]
      exact h.answers.of_queued (queuedOf_stepWriter p choice succeeds tr)
    | stop =>
      rw [Outbound.step,List.append_nil]
      exact h.answers

section Delivery

/-- One round of the write loop, from one wait to the next. -/
def round : List Input := List.replicate 3 (.write .channel true)

theorem exec_round (tr : List Event) {p : Peer} {i : Nat} {payload : Payload} {rest : List (Nat × Payload)}
    (waits : p.writer = .waiting) (queue : p.outbound = (i,payload) :: rest) :
    machine.exec tr p round = (tr ++ [.handed i payload],
      { p with outbound := rest, outboundBytes := p.outboundBytes-payload.length }) := by
  simp [round,Machine.exec,machine,step,stepWriter,waits,queue]

theorem exec_rounds (queue : List (Nat × Payload)) (tr : List Event) {p : Peer} (waits : p.writer = .waiting)
    (own : p.outbound = queue) :
    ∃ is, (∀ input ∈ is, input = .write .channel true) ∧
      queuedOf (machine.exec tr p is).1 = queuedOf tr ∧
      handedOf (machine.exec tr p is).1 = handedOf tr ++ queue := by
  induction queue generalizing tr p with
  | nil => exact ⟨[],nofun,rfl,by simp [Machine.exec]⟩
  | cons e rest ih =>
    obtain ⟨i,payload⟩ := e
    have after := exec_round tr waits own
    obtain ⟨is,writes,queued,handed⟩ := ih (machine.exec tr p round).1 (p := (machine.exec tr p round).2)
      (by rw [after]; exact waits) (by rw [after])
    refine ⟨round ++ is,fun input mem => ?_,?_,?_⟩
    · rcases List.mem_append.1 mem with first | later
      · exact List.eq_of_mem_replicate first
      · exact writes input later
    · rw [Machine.exec_append,queued,after,queuedOf_handed]
    · rw [Machine.exec_append,handed,after,handedOf_snoc]
      simp

theorem deliver_hand {tr : List Event} {p p' : Peer} {first : List Input} {i : Nat} {payload : Payload}
    (writes : ∀ input ∈ first, input = .write .channel true)
    (after : machine.exec tr p first = (tr ++ [.handed i payload],p')) (waits : p'.writer = .waiting)
    (order : queuedOf tr = handedOf tr ++ ([(i,payload)] ++ p'.outbound)) :
    ∃ is, (∀ input ∈ is, input = .write .channel true) ∧
      queuedOf (machine.exec tr p is).1 = queuedOf tr ∧ handedOf (machine.exec tr p is).1 = queuedOf tr := by
  obtain ⟨is,rest,queued,handed⟩ := exec_rounds p'.outbound (tr ++ [.handed i payload]) waits rfl
  refine ⟨first ++ is,fun input mem => ?_,?_,?_⟩
  · rcases List.mem_append.1 mem with early | later
    · exact writes input early
    · exact rest input later
  · rw [Machine.exec_append,after,queued,queuedOf_handed]
  · rw [Machine.exec_append,after,handed,handedOf_snoc,order,List.append_assoc]

/-- From wherever it stands the write loop can hand over all that is queued. -/
theorem Sound.deliver {tr : List Event} {p : Peer} (h : Sound tr p) (writing : Writing p.writer) :
    ∃ is, (∀ input ∈ is, input = .write .channel true) ∧
      queuedOf (machine.exec tr p is).1 = queuedOf tr ∧ handedOf (machine.exec tr p is).1 = queuedOf tr := by
  have order := h.flow.order writing
  cases at_ : p.writer with
  | waiting =>
    rw [at_] at order
    obtain ⟨is,writes,queued,handed⟩ := exec_rounds p.outbound tr at_ rfl
    exact ⟨is,writes,queued,handed.trans order.symm⟩
  | taken sender payload =>
    rw [at_] at order
    have after : machine.exec tr p (List.replicate 2 (.write .channel true)) = (tr ++ [.handed sender payload],
        { p with outboundBytes := p.outboundBytes-payload.length, writer := .waiting }) := by
      simp [Machine.exec,machine,Outbound.step,stepWriter,at_]
    exact deliver_hand (fun input mem => List.eq_of_mem_replicate mem) after rfl order
  | writing sender payload =>
    rw [at_] at order
    have after : machine.exec tr p (List.replicate 1 (.write .channel true)) =
        (tr ++ [.handed sender payload],{ p with writer := .waiting }) := by
      simp [Machine.exec,machine,Outbound.step,stepWriter,at_]
    exact deliver_hand (fun input mem => List.eq_of_mem_replicate mem) after rfl order
  | failing => exact absurd at_ writing.1
  | done => exact absurd at_ writing.2

end Delivery

/-- The budget of a peer and the way of its payloads. -/
structure Exact (tr : List Event) (p : Peer) : Prop where
  bytes : p.outboundBytes = queuedBytes p.outbound+reservedBytes p.sends+takenBytes p.writer
  low : 0 ≤ p.outboundBytes
  high : p.outboundBytes ≤ maxPeerOutboundBytes
  /-- The payloads in the order they were queued are those of the sends that returned true, once each. -/
  returned : ∀ i payload, (i,payload) ∈ queuedOf tr ↔
    ∃ s, p.sends[i]? = some s ∧ s.value = some payload ∧ s.point = .returned true
  once : ((queuedOf tr).map Prod.fst).Nodup
  /-- Whatever happens, what is handed over is the beginning of what was queued. -/
  handed_first : handedOf tr <+: queuedOf tr
  /-- Until a stop or a failed write nothing is lost: the rest is in hand or in the queue. -/
  order : p.closed = false → .failed ∉ tr → queuedOf tr = handedOf tr ++ (inHand p.writer ++ p.outbound)
  /-- The write loop by itself hands over the rest. -/
  delivered : p.closed = false → .failed ∉ tr → ∃ is, (∀ input ∈ is, input = .write .channel true) ∧
    queuedOf (machine.exec tr p is).1 = queuedOf tr ∧ handedOf (machine.exec tr p is).1 = queuedOf tr

theorem Sound.exact {tr : List Event} {p : Peer} (h : Sound tr p) : Exact tr p := by
  have writing : p.closed = false → .failed ∉ tr → Writing p.writer := by
    intro opened succeeded
    refine ⟨fun failing => succeeded (h.flow.failing failing),fun done => ?_⟩
    rw [h.flow.done done] at opened
    cases opened
  exact {
    bytes := h.balanced.exact
    low := h.balanced.low
    high := h.balanced.high
    returned := h.answers.returned
    once := h.answers.once
    handed_first := h.flow.handed_first
    order := fun opened succeeded => h.flow.order (writing opened succeeded)
    delivered := fun opened succeeded => h.deliver (writing opened succeeded) }

/-- Over every interleaving of senders, write loop and stops. -/
theorem outbound_exact {tr : List Event} {p : Peer} (run : machine.Run machine.free tr p) : Exact tr p := by
  have sound : Sound tr p := run.invariant
    (fun p start => by rw [start]; exact sound_newPeer) fun tr p input h _ => h.step input
  exact sound.exact

/-- Two sends. The write loop gives bytes back while the second one reserves, and it reads the
counter once more. -/
def twoSends : List Input :=
  [.send false (some [1]),.send true (some [2,3]),.step 0 .default false,.step 0 .default false,
    .step 0 .channel false,.write .channel true,.step 1 .default false,.step 1 .default false,
    .write .channel true,.step 1 .default false,.step 1 .default false,.step 1 .default false,
    .step 1 .channel false,.write .channel true]

theorem twoSends_exact :
    queuedOf (machine.exec [] newPeer twoSends).1 = [(0,[1]),(1,[2,3])] ∧
      handedOf (machine.exec [] newPeer twoSends).1 = [(0,[1])] ∧
      (machine.exec [] newPeer twoSends).2.outboundBytes = 2 ∧
      Exact (machine.exec [] newPeer twoSends).1 (machine.exec [] newPeer twoSends).2 :=
  ⟨by decide,by decide,by decide,outbound_exact (.exec twoSends (.start rfl) (machine.allowed_free _ _ _))⟩

end CodeHarbor.Relay.Outbound
