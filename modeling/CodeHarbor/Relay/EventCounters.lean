import CodeHarbor.Relay.EventIsolation
set_option autoImplicit false

namespace CodeHarbor.Relay
open Lib Lib.Go Lib.Sql

/-! The numbers that `appendOwnedEvent` hands out. In Postgres an append is a transaction
of six statements; concurrent appends interleave between them, and each may be rolled back
at any of them. The commit and its answer are one step: an append whose commit took effect
unanswered returned no number, and is none of the calls here. -/

/-- A row of `gateway_events`. -/
structure EventRow where
  sessionId : Text
  eventSeq : Nat
  event : GatewayPayload
  createdAt : Micros
  deriving DecidableEq, Repr

structure EventTables where
  sessions : OrdMap Text SessionRow := OrdMap.empty
  counters : OrdMap Text Nat := OrdMap.empty
  events : List EventRow := []
  deriving DecidableEq, Repr

/-- How far a transaction has come, with what it has written so far: the row of the
session, then the number it took. -/
inductive AppendStage where
  | begun
  | claimed (row : SessionRow)
  | checked (row : SessionRow)
  | counted (row : SessionRow)
  | numbered (row : SessionRow) (seq : Nat)
  | inserted (row : SessionRow) (seq : Nat)
  | finished
  deriving DecidableEq, Repr

/-- The upsert takes the lock on the row of the session, and the end of the transaction
gives it back. -/
def AppendStage.locking : AppendStage → Bool
  | .begun => false
  | .finished => false
  | _ => true

/-- `now()` is the instant at which the transaction began. -/
structure AppendCall where
  sessionId : Text
  ownerUser : Text
  event : GatewayPayload
  now : Time
  stage : AppendStage := .begun
  deriving DecidableEq, Repr

structure EventDatabase where
  tables : EventTables := {}
  calls : List AppendCall := []
  deriving DecidableEq, Repr

/-- `refused` is an append that failed; `restarted` a new start of the relay. -/
inductive AppendEvent where
  | appended (sessionId : Text) (seq : Nat)
  | refused (sessionId : Text)
  | restarted
  deriving DecidableEq, Repr

def EventDatabase.setStage (d : EventDatabase) (k : Nat) (stage : AppendStage) : EventDatabase :=
  { d with calls := d.calls.modify k ({ · with stage := stage }) }

/-- Another transaction holds the row of the session. -/
def EventDatabase.locked (d : EventDatabase) (k : Nat) (sessionId : Text) : Bool :=
  (List.range d.calls.length).any (fun j => j ≠ k &&
    match d.calls[j]? with
    | none => false
    | some other => other.sessionId = sessionId && other.stage.locking)

/-- The session row as the upsert of the transaction leaves it. -/
def AppendCall.claim (call : AppendCall) (stored : Option SessionRow) : SessionRow :=
  let excluded : SessionRow :=
    { ownerUser := nullIfEmpty (some call.ownerUser), updatedAt := microseconds call.now }
  match stored with
  | none => excluded
  | some row => { row with
      ownerUser := coalesce row.ownerUser excluded.ownerUser
      updatedAt := microseconds call.now }

/-- `last_seq` is a `BIGINT`. -/
def maxSeq : Nat := 2^63-1

def EventTables.lastSeq (t : EventTables) (sessionId : Text) : Nat :=
  (t.counters.get sessionId).getD 0

def EventTables.commit (t : EventTables) (call : AppendCall) (row : SessionRow) (seq : Nat) :
    EventTables where
  sessions := t.sessions.set call.sessionId row
  counters := t.counters.set call.sessionId seq
  events := t.events ++ [⟨call.sessionId,seq,call.event,microseconds call.now⟩]

/-- `Rollback`, deferred to the end of every failing call. -/
def EventDatabase.rollback (d : EventDatabase) (k : Nat) : EventDatabase × List AppendEvent :=
  match d.calls[k]? with
  | none => (d,[])
  | some call =>
    if call.stage = .finished then (d,[]) else (d.setStage k .finished,[.refused call.sessionId])

/-- The call up to its `Begin`. -/
def EventDatabase.begin (d : EventDatabase) (sessionId ownerUser : Text) (event : GatewayPayload)
    (now : Time) : EventDatabase × List AppendEvent :=
  if event.bytes > maxEventBytes then (d,[.refused sessionId])
  else
    ({ d with calls := d.calls ++ [{ sessionId, ownerUser, event, now }] },[])

/-- The next statement of a transaction. One that waits for a lock stays where it is. -/
def EventDatabase.advance (pg : Postgres) (d : EventDatabase) (k : Nat) :
    EventDatabase × List AppendEvent :=
  match d.calls[k]? with
  | none => (d,[])
  | some call =>
    match call.stage with
    | .begun =>
      if (pg.storable call.sessionId && pg.storable call.ownerUser) = false then d.rollback k
      else if d.locked k call.sessionId then (d,[])
      else (d.setStage k (.claimed (call.claim (d.tables.sessions.get call.sessionId))),[])
    | .claimed row =>
      if call.ownerUser ≠ [] ∧ row.ownerUser ≠ some call.ownerUser then d.rollback k
      else (d.setStage k (.checked row),[])
    | .checked row => (d.setStage k (.counted row),[])
    | .counted row =>
      if d.tables.lastSeq call.sessionId+1 > maxSeq then d.rollback k
      else (d.setStage k (.numbered row (d.tables.lastSeq call.sessionId+1)),[])
    | .numbered row seq =>
      if call.event.jsonb = false ∨
          d.tables.events.any (fun e => e.sessionId = call.sessionId && e.eventSeq = seq) then
        d.rollback k
      else (d.setStage k (.inserted row seq),[])
    | .inserted row seq =>
      ({ (d.setStage k .finished) with tables := d.tables.commit call row seq },
        [.appended call.sessionId seq])
    | .finished => (d,[])

/-- `DELETE FROM gateway_events WHERE created_at < now() - make_interval(days => $1)`. -/
def EventTables.retain (t : EventTables) (now : Time) (days : Nat) : EventTables :=
  let horizon := microseconds now-days*86400*1000000
  { t with events := t.events.filter (fun e => horizon ≤ e.createdAt) }

/-- A crash ends every open transaction. -/
def EventDatabase.restart (d : EventDatabase) : EventDatabase :=
  { d with calls := d.calls.map ({ · with stage := .finished }) }

inductive EventStore where
  | memory (m : MemoryStore)
  | postgres (d : EventDatabase)
  deriving DecidableEq, Repr

/-- `days` is `configuredEventRetentionDays`; the maps know no retention. -/
inductive AppendInput where
  | append (sessionId ownerUser : Text) (event : GatewayPayload) (now : Time)
  | advance (call : Nat)
  | rollback (call : Nat)
  | cleanup (now : Time) (days : Nat)
  | restart
  deriving DecidableEq, Repr

def Config.eventStoreStep (c : Config) (pg : Postgres) :
    EventStore → AppendInput → EventStore × List AppendEvent
  | .memory m, .append sessionId ownerUser event now =>
    match c.appendMemory m now sessionId ownerUser event with
    | (m',some seq) => (.memory m',[.appended sessionId seq])
    | (m',none) => (.memory m',[.refused sessionId])
  | .memory _, .restart => (.memory {},[.restarted])
  | .memory m, _ => (.memory m,[])
  | .postgres d, .append sessionId ownerUser event now =>
    let r := d.begin sessionId ownerUser event now
    (.postgres r.1,r.2)
  | .postgres d, .advance k =>
    let r := d.advance pg k
    (.postgres r.1,r.2)
  | .postgres d, .rollback k =>
    let r := d.rollback k
    (.postgres r.1,r.2)
  | .postgres d, .cleanup now days =>
    (.postgres (if days > 0 then { d with tables := d.tables.retain now days } else d),[])
  | .postgres d, .restart => (.postgres d.restart,[.restarted])

def EventStore.unused : EventStore → Prop
  | .memory m => m.events = OrdMap.empty
  | .postgres d => d.tables.counters = OrdMap.empty ∧ d.tables.events = [] ∧ d.calls = []

def Config.eventStore (c : Config) (pg : Postgres) : Machine EventStore AppendInput AppendEvent where
  init s := s.unused
  step s input := c.eventStoreStep pg s input

def numbers (sessionId : Text) (tr : List AppendEvent) : List Nat :=
  tr.filterMap (fun e =>
    match e with
    | .appended id seq => if id = sessionId then some seq else none
    | _ => none)

/-- The committed appends of every session have the numbers 1, 2, …, n. -/
def GapFree (tr : List AppendEvent) : Prop :=
  ∀ sessionId, numbers sessionId tr = List.range' 1 (numbers sessionId tr).length

def sinceRestart : List AppendEvent → List AppendEvent
  | [] => []
  | e :: tr => if .restarted ∈ tr then sinceRestart tr else if e = .restarted then tr else e :: tr

/-- The number a transaction has taken and not yet committed. -/
def AppendStage.taken : AppendStage → Option Nat
  | .numbered _ seq => some seq
  | .inserted _ seq => some seq
  | _ => none

/-- The counter of a session is the number of its committed appends; only one transaction
holds a session, and a number taken is the one after the counter. -/
structure EventDatabase.Sound (tr : List AppendEvent) (d : EventDatabase) : Prop where
  counted : ∀ id, numbers id tr = List.range' 1 (d.tables.lastSeq id)
  exclusive : ∀ (j k : Nat) (a b : AppendCall), d.calls[j]? = some a → d.calls[k]? = some b →
    a.stage.locking = true → b.stage.locking = true → a.sessionId = b.sessionId → j = k
  next : ∀ (k : Nat) (call : AppendCall) seq, d.calls[k]? = some call → call.stage.taken = some seq →
    seq = d.tables.lastSeq call.sessionId+1

theorem AppendStage.locking_of_taken {stage : AppendStage} {seq : Nat} (h : stage.taken = some seq) :
    stage.locking = true := by
  cases stage with
  | numbered row seq => rfl
  | inserted row seq => rfl
  | _ => simp [taken] at h

section Calls

variable {d : EventDatabase} {k : Nat} {call : AppendCall}

theorem EventDatabase.calls_setStage (hk : d.calls[k]? = some call) (stage : AppendStage) (j : Nat) :
    (d.setStage k stage).calls[j]? =
      if j = k then some { call with stage := stage } else d.calls[j]? := by
  rw [setStage,List.getElem?_modify]
  by_cases hj : j = k
  · subst hj
    simp [hk]
  · simp [hj,Ne.symm hj]

theorem EventDatabase.locked_eq_false {id : Text} (h : d.locked k id = false) {j : Nat}
    {other : AppendCall} (hj : d.calls[j]? = some other) (hne : j ≠ k) (hid : other.sessionId = id) :
    other.stage.locking = false := by
  by_contra hlocking
  rw [locked,List.any_eq_false] at h
  have hlt : j < d.calls.length := (List.getElem?_eq_some_iff.mp hj).1
  have hfree := h j (List.mem_range.mpr hlt)
  simp [hj,hne,hid] at hfree
  exact hlocking (by simpa using hfree)

variable {tr : List AppendEvent}

theorem EventDatabase.Sound.setStage (h : d.Sound tr) (hk : d.calls[k]? = some call)
    {stage : AppendStage}
    (hlock : stage.locking = true → call.stage.locking = true ∨ d.locked k call.sessionId = false)
    (htaken : ∀ seq, stage.taken = some seq → seq = d.tables.lastSeq call.sessionId+1) :
    (d.setStage k stage).Sound tr := by
  -- no other transaction on this session holds its row
  have halone : stage.locking = true → ∀ j other, j ≠ k → d.calls[j]? = some other →
      other.sessionId = call.sessionId → other.stage.locking = false := by
    intro hlocking j other hne hj hid
    rcases hlock hlocking with hheld | hfree
    · by_contra hother
      exact hne (h.exclusive j k other call hj hk (by simpa using hother) hheld hid)
    · exact locked_eq_false hfree hj hne hid
  refine ⟨h.counted,?_,?_⟩
  · intro i j a b ha hb hla hlb hid
    rw [calls_setStage hk] at ha hb
    by_cases hi : i = k
    · by_cases hj : j = k
      · rw [hi,hj]
      · simp only [hi,hj,if_true,if_false,Option.some.injEq] at ha hb
        subst ha
        have hfree := halone hla j b hj hb hid.symm
        rw [hfree] at hlb
        cases hlb
    · by_cases hj : j = k
      · simp only [hi,hj,if_true,if_false,Option.some.injEq] at ha hb
        subst hb
        have hfree := halone hlb i a hi ha hid
        rw [hfree] at hla
        cases hla
      · simp only [hi,hj,if_false] at ha hb
        exact h.exclusive i j a b ha hb hla hlb hid
  · intro j other seq hj hseq
    rw [calls_setStage hk] at hj
    by_cases hjk : j = k
    · simp only [hjk,if_true,Option.some.injEq] at hj
      subst hj
      exact htaken seq hseq
    · simp only [hjk,if_false] at hj
      exact h.next j other seq hj hseq

theorem numbers_append (id : Text) (tr out : List AppendEvent) :
    numbers id (tr ++ out) = numbers id tr ++ numbers id out := by
  simp [numbers]

theorem EventDatabase.Sound.append (h : d.Sound tr) {out : List AppendEvent}
    (hout : ∀ id, numbers id out = []) : d.Sound (tr ++ out) := by
  refine ⟨?_,h.exclusive,h.next⟩
  intro id
  rw [numbers_append,hout,List.append_nil]
  exact h.counted id

theorem EventDatabase.Sound.rollback (h : d.Sound tr) (k : Nat) :
    (d.rollback k).1.Sound (tr ++ (d.rollback k).2) := by
  unfold EventDatabase.rollback
  cases hk : d.calls[k]? with
  | none => simpa using h
  | some call =>
    dsimp only
    split_ifs with hfinished
    · simpa using h
    · have hset : (d.setStage k .finished).Sound tr := by
        refine h.setStage hk ?_ ?_
        · simp [AppendStage.locking]
        · simp [AppendStage.taken]
      exact hset.append (fun id => rfl)

theorem EventTables.lastSeq_commit (t : EventTables) (call : AppendCall) (row : SessionRow)
    (seq : Nat) (id : Text) :
    (t.commit call row seq).lastSeq id = if id = call.sessionId then seq else t.lastSeq id := by
  rw [lastSeq,commit,OrdMap.get_set]
  split_ifs with hid
  · rfl
  · rfl

theorem EventDatabase.Sound.commit (h : d.Sound tr) (hk : d.calls[k]? = some call)
    {row : SessionRow} {seq : Nat} (hstage : call.stage = .inserted row seq) :
    EventDatabase.Sound (tr ++ [.appended call.sessionId seq])
      { (d.setStage k .finished) with tables := d.tables.commit call row seq } := by
  have hseq : seq = d.tables.lastSeq call.sessionId+1 :=
    h.next k call seq hk (by rw [hstage]; rfl)
  have hset : (d.setStage k .finished).Sound tr := by
    refine h.setStage hk ?_ ?_
    · simp [AppendStage.locking]
    · simp [AppendStage.taken]
  refine ⟨?_,hset.exclusive,?_⟩
  · intro id
    dsimp only
    rw [numbers_append,EventTables.lastSeq_commit,h.counted id]
    by_cases hid : id = call.sessionId
    · subst hid
      rw [if_pos rfl,hseq,List.range'_concat]
      simp [numbers,Nat.add_comm]
    · simp [numbers,hid,Ne.symm hid]
  · intro j other n hj hn
    dsimp only at hj ⊢
    rw [EventTables.lastSeq_commit]
    have hother := hset.next j other n hj hn
    by_cases hid : other.sessionId = call.sessionId
    · -- the committing transaction held the session alone
      exfalso
      rw [calls_setStage hk] at hj
      by_cases hjk : j = k
      · simp only [hjk,if_true,Option.some.injEq] at hj
        subst hj
        simp [AppendStage.taken] at hn
      · simp only [hjk,if_false] at hj
        have hheld : call.stage.locking = true := by
          rw [hstage]
          rfl
        exact hjk (h.exclusive j k other call hj hk (AppendStage.locking_of_taken hn) hheld hid)
    · rw [if_neg hid]
      exact hother

theorem EventDatabase.Sound.advance (pg : Postgres) (h : d.Sound tr) (k : Nat) :
    (d.advance pg k).1.Sound (tr ++ (d.advance pg k).2) := by
  unfold EventDatabase.advance
  cases hk : d.calls[k]? with
  | none => simpa using h
  | some call =>
    dsimp only
    cases hstage : call.stage with
    | begun =>
      dsimp only
      split_ifs with hstorable hlocked
      · exact h.rollback k
      · simpa using h
      · rw [List.append_nil]
        refine h.setStage hk ?_ ?_
        · intro _
          exact .inr (by simpa using hlocked)
        · simp [AppendStage.taken]
    | claimed row =>
      dsimp only
      split_ifs
      · exact h.rollback k
      · rw [List.append_nil]
        refine h.setStage hk ?_ ?_
        · simp [hstage,AppendStage.locking]
        · simp [AppendStage.taken]
    | checked row =>
      rw [List.append_nil]
      refine h.setStage hk ?_ ?_
      · simp [hstage,AppendStage.locking]
      · simp [AppendStage.taken]
    | counted row =>
      dsimp only
      split_ifs
      · exact h.rollback k
      · rw [List.append_nil]
        refine h.setStage hk ?_ ?_
        · simp [hstage,AppendStage.locking]
        · simp [AppendStage.taken]
    | numbered row seq =>
      dsimp only
      split_ifs
      · exact h.rollback k
      · rw [List.append_nil]
        refine h.setStage hk ?_ ?_
        · simp [hstage,AppendStage.locking]
        · intro n hn
          refine h.next k call n hk ?_
          rw [hstage]
          exact hn
    | inserted row seq => exact h.commit hk hstage
    | finished => simpa using h

theorem EventDatabase.Sound.begin (h : d.Sound tr) (sessionId ownerUser : Text)
    (event : GatewayPayload) (now : Time) :
    (d.begin sessionId ownerUser event now).1.Sound
      (tr ++ (d.begin sessionId ownerUser event now).2) := by
  unfold EventDatabase.begin
  split_ifs
  · exact h.append (fun id => rfl)
  · rw [List.append_nil]
    -- the new call holds nothing yet
    have hold : ∀ (j : Nat) (a : AppendCall),
        (d.calls ++ [({ sessionId, ownerUser, event, now } : AppendCall)])[j]? = some a →
        a.stage.locking = true → d.calls[j]? = some a := by
      intro j a hj hlocking
      rw [List.getElem?_append] at hj
      split_ifs at hj with hlt
      · exact hj
      · rw [List.getElem?_singleton] at hj
        split_ifs at hj
        cases hj
        cases hlocking
    refine ⟨h.counted,?_,?_⟩
    · intro i j a b ha hb hla hlb hid
      exact h.exclusive i j a b (hold i a ha hla) (hold j b hb hlb) hla hlb hid
    · intro j a seq hj hseq
      exact h.next j a seq (hold j a hj (AppendStage.locking_of_taken hseq)) hseq

theorem EventDatabase.Sound.restart (h : d.Sound tr) : d.restart.Sound (tr ++ [.restarted]) := by
  have hidle : ∀ (j : Nat) (a : AppendCall), d.restart.calls[j]? = some a → a.stage = .finished := by
    intro j a hj
    rw [EventDatabase.restart,List.getElem?_map,Option.map_eq_some_iff] at hj
    obtain ⟨b,-,rfl⟩ := hj
    rfl
  have hkept : d.restart.Sound tr := by
    refine ⟨h.counted,?_,?_⟩
    · intro i j a b ha _ hla
      rw [hidle i a ha] at hla
      cases hla
    · intro j a seq hj hseq
      rw [hidle j a hj] at hseq
      cases hseq
  exact hkept.append (fun id => rfl)

theorem EventDatabase.Sound.retain (h : d.Sound tr) (now : Time) (days : Nat) :
    EventDatabase.Sound tr { d with tables := d.tables.retain now days } :=
  ⟨h.counted,h.exclusive,h.next⟩

end Calls

/-- In memory the next number is the length of the log. -/
def MemoryStore.Counts (tr : List AppendEvent) (m : MemoryStore) : Prop :=
  ∀ id, numbers id tr = List.range' 1 ((m.events.get id).getD []).length

theorem sinceRestart_snoc (tr : List AppendEvent) {e : AppendEvent} (he : e ≠ .restarted) :
    sinceRestart (tr ++ [e]) = sinceRestart tr ++ [e] := by
  induction tr with
  | nil => simp [sinceRestart,he]
  | cons d tr ih =>
    have hmem : AppendEvent.restarted ∈ tr ++ [e] ↔ AppendEvent.restarted ∈ tr := by
      simp [Ne.symm he]
    simp only [List.cons_append,sinceRestart,hmem]
    split_ifs
    · exact ih
    · rfl
    · rfl

theorem sinceRestart_restarted (tr : List AppendEvent) : sinceRestart (tr ++ [.restarted]) = [] := by
  induction tr with
  | nil => simp [sinceRestart]
  | cons d tr ih => simp [sinceRestart,ih]

theorem Config.appendMemory_counts (c : Config) {m : MemoryStore} {tr : List AppendEvent}
    (h : m.Counts tr) (now : Time) (sessionId ownerUser : Text) (event : GatewayPayload) :
    match c.appendMemory m now sessionId ownerUser event with
    | (m',some seq) => m'.Counts (tr ++ [.appended sessionId seq])
    | (m',none) => m' = m := by
  have hlog : ∀ sessions : OrdMap Text SessionRecord, MemoryStore.Counts
      (tr ++ [.appended sessionId (((m.events.get sessionId).getD []).length+1)])
      ⟨sessions,m.events.set sessionId ((m.events.get sessionId).getD [] ++ [event])⟩ := by
    intro sessions id
    dsimp only
    rw [numbers_append,h id,OrdMap.get_set]
    by_cases hid : id = sessionId
    · subst hid
      rw [if_pos rfl,Option.getD_some,List.length_append,List.length_singleton,List.range'_concat]
      simp [numbers,Nat.add_comm]
    · simp [numbers,hid,Ne.symm hid]
  unfold Config.appendMemory
  cases hget : m.sessions.get sessionId with
  | none => exact hlog _
  | some existing =>
    dsimp only
    split_ifs
    · rfl
    · exact hlog m.sessions

/-- Restarts lose the log that is kept in memory, with its numbers. -/
def EventStore.Counts (tr : List AppendEvent) : EventStore → Prop
  | .memory m => m.Counts (sinceRestart tr)
  | .postgres d => d.Sound tr

theorem EventStore.Counts.step (c : Config) (pg : Postgres) {tr : List AppendEvent} {s : EventStore}
    (h : s.Counts tr) (input : AppendInput) :
    (c.eventStoreStep pg s input).1.Counts (tr ++ (c.eventStoreStep pg s input).2) := by
  cases s with
  | memory m =>
    cases input with
    | append sessionId ownerUser event now =>
      have hcounts := c.appendMemory_counts h now sessionId ownerUser event
      unfold Config.eventStoreStep
      dsimp only
      generalize c.appendMemory m now sessionId ownerUser event = result at hcounts ⊢
      obtain ⟨m',seq⟩ := result
      cases seq with
      | none =>
        dsimp only at hcounts ⊢
        rw [hcounts]
        intro id
        rw [sinceRestart_snoc tr (by simp),numbers_append]
        simpa [numbers] using h id
      | some seq =>
        dsimp only at hcounts ⊢
        intro id
        rw [sinceRestart_snoc tr (by simp)]
        exact hcounts id
    | restart =>
      intro id
      rw [Config.eventStoreStep,sinceRestart_restarted]
      rfl
    | advance call => simpa [Config.eventStoreStep] using h
    | rollback call => simpa [Config.eventStoreStep] using h
    | cleanup now days => simpa [Config.eventStoreStep] using h
  | postgres d =>
    have hsound : d.Sound tr := h
    cases input with
    | append sessionId ownerUser event now => exact hsound.begin sessionId ownerUser event now
    | advance k => exact hsound.advance pg k
    | rollback k => exact hsound.rollback k
    | restart => exact hsound.restart
    | cleanup now days =>
      have hkept : EventStore.Counts tr
          (.postgres (if days > 0 then { d with tables := d.tables.retain now days } else d)) := by
        split_ifs
        · exact hsound.retain now days
        · exact hsound
      simpa [Config.eventStoreStep] using hkept

theorem EventStore.unused.counts {s : EventStore} (h : s.unused) : s.Counts [] := by
  cases s with
  | memory m =>
    intro id
    have hevents : m.events = OrdMap.empty := h
    simp [sinceRestart,numbers,hevents]
  | postgres d =>
    obtain ⟨hcounters,-,hcalls⟩ := h
    refine ⟨?_,?_,?_⟩
    · intro id
      simp [numbers,EventTables.lastSeq,hcounters]
    · intro j k a b ha
      simp [hcalls] at ha
    · intro k call seq hk
      simp [hcalls] at hk

theorem gapFree_of_counts {tr : List AppendEvent} {last : Text → Nat}
    (h : ∀ id, numbers id tr = List.range' 1 (last id)) : GapFree tr := by
  intro id
  rw [h id,List.length_range']

/-- The committed appends of every session have the numbers 1, 2, …, n: on Postgres across
restarts and clean-ups, in memory since the last restart. -/
def EventStore.GapFree (tr : List AppendEvent) : EventStore → Prop
  | .postgres _ => Relay.GapFree tr
  | .memory _ => Relay.GapFree (sinceRestart tr)

theorem Config.eventStore_gapFree (c : Config) (pg : Postgres) {tr : List AppendEvent}
    {s : EventStore} (hrun : (c.eventStore pg).Run (c.eventStore pg).free tr s) :
    s.GapFree tr := by
  have hcounts : s.Counts tr := hrun.invariant (fun _ hs => EventStore.unused.counts hs)
    (fun tr s input h _ => h.step c pg input)
  cases s with
  | postgres d => exact gapFree_of_counts (EventDatabase.Sound.counted hcounts)
  | memory m => exact gapFree_of_counts hcounts

namespace Sample

/-- Two appends to one session without a database, the relay started again between them. -/
def acrossRestart : List AppendEvent × EventStore :=
  (clock.eventStore postgres).exec [] (.memory {})
    [.append sessionId [] {} tenInstant,.restart,.append sessionId [] {} tenInstant]

end Sample

theorem acrossRestart_not_gapFree :
    (Sample.clock.eventStore Sample.postgres).Run (Sample.clock.eventStore Sample.postgres).free
        Sample.acrossRestart.1 Sample.acrossRestart.2 ∧
      numbers Sample.sessionId Sample.acrossRestart.1 = [1,1] ∧ ¬ GapFree Sample.acrossRestart.1 := by
  refine ⟨?_,by decide,?_⟩
  · exact Machine.Run.exec _ (.start rfl) (Machine.allowed_free _ _ _ _)
  · intro h
    exact absurd (h Sample.sessionId) (by decide)

/-- A second append of the session waits for the first; the first is rolled back after it
took its number, and the second gets that number. -/
theorem eventStore_gapFree_rollback :
    let inputs : List AppendInput := [.append Sample.sessionId [] {} 0,
      .append Sample.sessionId [] {} 0,.advance 0,.advance 1,.advance 0,.advance 0,.advance 0,
      .rollback 0,.advance 1,.advance 1,.advance 1,.advance 1,.advance 1,.advance 1]
    let run := (Sample.clock.eventStore Sample.postgres).exec [] (.postgres {}) inputs
    run.1 = [.refused Sample.sessionId,.appended Sample.sessionId 1] ∧ run.2.GapFree run.1 := by
  refine ⟨by decide,?_⟩
  refine Sample.clock.eventStore_gapFree Sample.postgres ?_
  exact Machine.Run.exec _ (.start ⟨rfl,rfl,rfl⟩) (Machine.allowed_free _ _ _ _)

end CodeHarbor.Relay
