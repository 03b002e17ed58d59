import CodeHarbor.Lib.Run
set_option autoImplicit false

namespace CodeHarbor.Gateway
open Lib

/-- How far a sync has come: it reads the local listing, its frame is out and carries the
listing taken at the given time, or its promise is settled as well. -/
inductive SyncStage where
  | loading (listed : Option Nat)
  | finished (listing : Nat)
  | settled (listing : Nat)
  deriving DecidableEq, Repr

/-- One call of `sendSessionSync`. The fallback is read at the start. -/
structure SessionSync where
  socket : Nat
  startedAt : Nat
  stage : SyncStage := .loading none
  deriving DecidableEq, Repr

/-- What the promise of a caller depends on. -/
inductive Waiting where
  | resolved
  | promise (sync : Nat)
  | follow (sync : Nat)
  deriving DecidableEq, Repr

/-- A call of `syncSessionsNow`, with its time and the relay socket that was open then. -/
structure SyncCaller where
  calledAt : Nat
  socket : Option Nat
  waiting : Waiting
  deriving DecidableEq, Repr

/-- A relay socket that is connecting or closing counts as none: every check treats it so.
Syncs are numbered in the order of their start. -/
structure RelayClient where
  relaySocket : Option Nat := none
  sessionSyncPromise : Option Nat := none
  sessionSyncSocket : Option Nat := none
  sessionSyncAgain : Bool := false
  syncs : List SessionSync := []
  callers : List SyncCaller := []
  nextSocket : Nat := 0
  now : Nat := 0
  deriving DecidableEq, Repr

inductive SyncEvent where
  | sent (socket listing : Nat)
  | resolved (caller : SyncCaller) (relaySocket : Option Nat)
  deriving DecidableEq, Repr

/-- The interleaved segments. `syncSessions` is the sync of `device-ready` and of
`device-owner-bound`; `list` is the moment at which the local route answers the request of a
sync, and `finish` the end of that request, whose answer may have been lost. A frame that the
socket has no room for closes it. -/
inductive SyncInput where
  | opened
  | closed
  | syncSessions
  | call
  | list (sync : Nat)
  | finish (sync : Nat) (ok full : Bool)
  | settle (sync : Nat)
  | wake (caller : Nat)
  deriving DecidableEq, Repr

namespace RelayClient

/-- The promise is the one to wait for; there is none to wait for without an open socket. -/
def syncSessions (st : RelayClient) : RelayClient × Option Nat :=
  match st.relaySocket with
  | none => (st,none)
  | some socket =>
    if st.sessionSyncPromise.isSome ∧ st.sessionSyncSocket = some socket then
      (st,st.sessionSyncPromise)
    else
      ({ st with
        sessionSyncSocket := some socket
        sessionSyncPromise := some st.syncs.length
        syncs := st.syncs ++ [{ socket := socket, startedAt := st.now }] },some st.syncs.length)

def syncSessionsNow (st : RelayClient) : RelayClient × Waiting :=
  match st.sessionSyncPromise with
  | none =>
    match st.syncSessions with
    | (st,none) => (st,.resolved)
    | (st,some k) => (st,.promise k)
  | some k => ({ st with sessionSyncAgain := true },.follow k)

def setStage (st : RelayClient) (k : Nat) (stage : SyncStage) : RelayClient :=
  { st with syncs := st.syncs.modify k fun sync => { sync with stage := stage } }

/-- The end of `sendSessionSync`: the frame carries the answer, or the fallback of the start. -/
def finish (st : RelayClient) (k : Nat) (ok full : Bool) : RelayClient × List SyncEvent :=
  match st.syncs[k]? with
  | some ⟨socket,startedAt,.loading listed⟩ =>
    let listing := if ok then listed.getD startedAt else startedAt
    let done := st.setStage k (.finished listing)
    if st.relaySocket = some socket then
      if full then ({ done with relaySocket := none },[])
      else (done,[.sent socket listing])
    else (done,[])
  | _ => (st,[])

def settle (st : RelayClient) (k : Nat) : RelayClient :=
  match st.syncs[k]? with
  | some ⟨socket,_,.finished listing⟩ =>
    let done := st.setStage k (.settled listing)
    if st.sessionSyncSocket = some socket then
      { done with sessionSyncPromise := none, sessionSyncSocket := none }
    else done
  | _ => st

def settled (st : RelayClient) (k : Nat) : Bool :=
  match st.syncs[k]? with
  | some ⟨_,_,.settled _⟩ => true
  | _ => false

def resolve (st : RelayClient) (i : Nat) (caller : SyncCaller) : RelayClient × List SyncEvent :=
  ({ st with callers := st.callers.eraseIdx i },[.resolved caller st.relaySocket])

/-- The continuation of a caller. One that asked for a follow-up makes it, unless the flag is
down. -/
def wake (st : RelayClient) (i : Nat) : RelayClient × List SyncEvent :=
  match st.callers[i]? with
  | none => (st,[])
  | some caller =>
    match caller.waiting with
    | .resolved => st.resolve i caller
    | .promise k => if st.settled k then st.resolve i caller else (st,[])
    | .follow k =>
      if st.settled k then
        if st.sessionSyncAgain then
          let (st,waiting) := { st with sessionSyncAgain := false }.syncSessionsNow
          ({ st with callers := st.callers.set i { caller with waiting := waiting } },[])
        else st.resolve i caller
      else (st,[])

def act (st : RelayClient) : SyncInput → RelayClient × List SyncEvent
  | .opened =>
    match st.relaySocket with
    | none => ({ st with relaySocket := some st.nextSocket, nextSocket := st.nextSocket+1 },[])
    | some _ => (st,[])
  | .closed => ({ st with relaySocket := none },[])
  | .syncSessions => (st.syncSessions.1,[])
  | .call =>
    let (next,waiting) := st.syncSessionsNow
    ({ next with callers := next.callers ++ [⟨st.now,st.relaySocket,waiting⟩] },[])
  | .list k =>
    match st.syncs[k]? with
    | some ⟨_,_,.loading none⟩ => (st.setStage k (.loading (some st.now)),[])
    | _ => (st,[])
  | .finish k ok full => st.finish k ok full
  | .settle k => (st.settle k,[])
  | .wake i => st.wake i

def step (st : RelayClient) (i : SyncInput) : RelayClient × List SyncEvent :=
  ({ (st.act i).1 with now := st.now+1 },(st.act i).2)

end RelayClient

def sessionSync : Machine RelayClient SyncInput SyncEvent where
  init st := st = {}
  step st i := st.step i

/-- When a caller's promise resolves while the socket of the call is still open, a frame with
a listing of the time of the call or later has been sent on it. -/
def Fresh (tr : List SyncEvent) : Prop :=
  Traced (fun pre e => ∀ caller s, caller.socket = some s → e = .resolved caller (some s) →
    ∃ listing, caller.calledAt ≤ listing ∧ SyncEvent.sent s listing ∈ pre) tr

/-- A caller that wakes after the sync it found in progress finds the flag still up, or that
sync was on the caller's socket and took its listing after the call, or the socket is gone. -/
def keepsFlag (st : RelayClient) : SyncInput → Bool
  | .wake i =>
    match st.callers[i]? with
    | some ⟨calledAt,socket,.follow k⟩ =>
      match st.syncs[k]? with
      | some ⟨syncSocket,_,.settled listing⟩ =>
        st.sessionSyncAgain || (socket = some syncSocket && calledAt ≤ listing) ||
          socket ≠ st.relaySocket
      | _ => true
    | _ => true
  | _ => true

/-- Where a sync stands with what has been sent: its times do not go back, and a frame that
could be sent has been. -/
def SessionSync.Sound (tr : List SyncEvent) (relaySocket : Option Nat) (sync : SessionSync) : Prop :=
  match sync.stage with
  | .loading listed => ∀ t ∈ listed, sync.startedAt ≤ t
  | .finished listing | .settled listing => sync.startedAt ≤ listing ∧
      (relaySocket = some sync.socket → .sent sync.socket listing ∈ tr)

/-- A caller that waits for a sync of its own waits for one that began after the call, on the
socket of the call. -/
def SyncCaller.Served (syncs : List SessionSync) (s : Nat) (caller : SyncCaller) : Prop :=
  match caller.waiting with
  | .resolved => False
  | .promise k => ∃ sync, syncs[k]? = some sync ∧ sync.socket = s ∧ caller.calledAt ≤ sync.startedAt
  | .follow _ => True

structure Synced (tr : List SyncEvent) (st : RelayClient) : Prop where
  fresh : Fresh tr
  relay : ∀ s, st.relaySocket = some s → s < st.nextSocket
  syncs : ∀ sync ∈ st.syncs, sync.socket < st.nextSocket ∧ sync.startedAt ≤ st.now ∧
    sync.Sound tr st.relaySocket
  callers : ∀ caller ∈ st.callers, caller.calledAt ≤ st.now ∧
    ∀ s, caller.socket = some s → s < st.nextSocket ∧
      (st.relaySocket = some s → caller.Served st.syncs s)

section soundness

variable {tr : List SyncEvent} {relay relay' : Option Nat} {sync : SessionSync}

theorem SessionSync.Sound.mono (h : sync.Sound tr relay) {es : List SyncEvent}
    (hrelay : relay' = some sync.socket → relay = some sync.socket) :
    sync.Sound (tr ++ es) relay' := by
  unfold SessionSync.Sound at *
  split at h
  · exact h
  · exact ⟨h.1,fun hopen => List.mem_append_left es (h.2 (hrelay hopen))⟩
  · exact ⟨h.1,fun hopen => List.mem_append_left es (h.2 (hrelay hopen))⟩

def Continues (syncs syncs' : List SessionSync) : Prop :=
  ∀ (k : Nat) (sync : SessionSync), syncs[k]? = some sync → ∃ sync', syncs'[k]? = some sync' ∧
    sync'.socket = sync.socket ∧ sync'.startedAt = sync.startedAt

theorem Continues.refl (syncs : List SessionSync) : Continues syncs syncs :=
  fun _ sync h => ⟨sync,h,rfl,rfl⟩

theorem Continues.append (syncs more : List SessionSync) : Continues syncs (syncs ++ more) := by
  intro k sync h
  refine ⟨sync,?_,rfl,rfl⟩
  rw [List.getElem?_append_left (List.getElem?_eq_some_iff.mp h).1]
  exact h

theorem SyncCaller.Served.mono {syncs syncs' : List SessionSync} {s : Nat} {caller : SyncCaller}
    (h : caller.Served syncs s) (hsyncs : Continues syncs syncs') : caller.Served syncs' s := by
  unfold SyncCaller.Served at *
  split at h
  · exact h
  · obtain ⟨sync,hsync,hsocket,hcalled⟩ := h
    obtain ⟨sync',hsync',hsocket',hstarted⟩ := hsyncs _ sync hsync
    exact ⟨sync',hsync',hsocket'.trans hsocket,hstarted ▸ hcalled⟩
  · trivial

end soundness

namespace RelayClient

variable (st : RelayClient)

theorem syncSessions_spec : ∃ promise socket more,
    st.syncSessions.1 = { st with
      sessionSyncPromise := promise
      sessionSyncSocket := socket
      syncs := st.syncs ++ more } ∧
    (∀ sync ∈ more, sync.startedAt = st.now ∧ sync.stage = .loading none ∧
      st.relaySocket = some sync.socket) ∧
    (st.syncSessions.2 = none → st.relaySocket = none) ∧
    ∀ k, st.sessionSyncPromise = none → st.syncSessions.2 = some k →
      ∃ sync, (st.syncs ++ more)[k]? = some sync ∧ sync.startedAt = st.now ∧
        st.relaySocket = some sync.socket := by
  unfold syncSessions
  split
  · rename_i hrelay
    exact ⟨st.sessionSyncPromise,st.sessionSyncSocket,[],by simp,by simp,fun _ => hrelay,by simp⟩
  · rename_i socket hrelay
    split_ifs with hsame
    · refine ⟨st.sessionSyncPromise,st.sessionSyncSocket,[],by simp,by simp,?_,?_⟩
      · intro hnone
        rw [show st.sessionSyncPromise = none from hnone] at hsame
        simp at hsame
      · intro k hnone
        simp [hnone] at hsame
    · refine ⟨_,_,_,rfl,by simp [hrelay],by simp,?_⟩
      intro k _ hk
      simp only [Option.some.injEq] at hk
      subst hk
      exact ⟨_,List.getElem?_concat_length,rfl,hrelay⟩

theorem syncSessionsNow_spec : ∃ promise socket again more,
    st.syncSessionsNow.1 = { st with
      sessionSyncPromise := promise
      sessionSyncSocket := socket
      sessionSyncAgain := again
      syncs := st.syncs ++ more } ∧
    (∀ sync ∈ more, sync.startedAt = st.now ∧ sync.stage = .loading none ∧
      st.relaySocket = some sync.socket) ∧
    match st.syncSessionsNow.2 with
    | .resolved => st.relaySocket = none
    | .promise k => ∃ sync, (st.syncs ++ more)[k]? = some sync ∧ sync.startedAt = st.now ∧
        st.relaySocket = some sync.socket
    | .follow _ => True := by
  obtain ⟨promise,socket,more,hstate,hmore,hnone,hsome⟩ := st.syncSessions_spec
  unfold syncSessionsNow
  split
  · rename_i hpromise
    rcases hp : st.syncSessions with ⟨next,_ | k⟩
    · rw [hp] at hstate hnone
      exact ⟨promise,socket,st.sessionSyncAgain,more,hstate,hmore,hnone rfl⟩
    · rw [hp] at hstate hsome
      exact ⟨promise,socket,st.sessionSyncAgain,more,hstate,hmore,hsome k hpromise rfl⟩
  · exact ⟨st.sessionSyncPromise,st.sessionSyncSocket,true,[],by simp,by simp,trivial⟩

end RelayClient

namespace Synced

variable {tr es : List SyncEvent} {st st' : RelayClient}

theorem next (h : Synced tr st) (hfresh : Fresh (tr ++ es))
    (hopen : ∀ s, s < st.nextSocket → st'.relaySocket = some s → st.relaySocket = some s)
    (hrelay : ∀ s, st'.relaySocket = some s → s < st'.nextSocket)
    (hnext : st.nextSocket ≤ st'.nextSocket) (hnow : st.now ≤ st'.now)
    (hcontinues : Continues st.syncs st'.syncs)
    (hsyncs : ∀ sync ∈ st'.syncs, sync ∈ st.syncs ∨ sync.socket < st'.nextSocket ∧
      sync.startedAt ≤ st'.now ∧ sync.Sound (tr ++ es) st'.relaySocket)
    (hcallers : ∀ caller ∈ st'.callers, caller ∈ st.callers ∨ caller.calledAt ≤ st'.now ∧
      ∀ s, caller.socket = some s → s < st'.nextSocket ∧
        (st'.relaySocket = some s → caller.Served st'.syncs s)) : Synced (tr ++ es) st' where
  fresh := hfresh
  relay := hrelay
  syncs := by
    intro sync hsync
    rcases hsyncs sync hsync with hold | hnew
    · obtain ⟨hsocket,hstarted,hsound⟩ := h.syncs sync hold
      exact ⟨hsocket.trans_le hnext,hstarted.trans hnow,hsound.mono (hopen _ hsocket)⟩
    · exact hnew
  callers := by
    intro caller hcaller
    rcases hcallers caller hcaller with hold | hnew
    · obtain ⟨hcalled,hserved⟩ := h.callers caller hold
      refine ⟨hcalled.trans hnow,?_⟩
      intro s hs
      obtain ⟨hlt,hserved⟩ := hserved s hs
      exact ⟨hlt.trans_le hnext,fun hrelay => (hserved (hopen s hlt hrelay)).mono hcontinues⟩
    · exact hnew

theorem fresh_of_sent (h : Synced tr st) (hes : ∀ caller relay, SyncEvent.resolved caller relay ∉ es) :
    Fresh (tr ++ es) := by
  refine h.fresh.append ?_
  rintro e he pre caller s - rfl
  exact absurd he (hes caller _)

theorem idle (h : Synced tr st) (hrelay : st'.relaySocket = st.relaySocket ∨ st'.relaySocket = none)
    (hnext : st'.nextSocket = st.nextSocket) (hnow : st.now ≤ st'.now)
    (hsyncs : st'.syncs = st.syncs) (hcallers : st'.callers = st.callers) :
    Synced (tr ++ []) st' := by
  have hopen : ∀ s, st'.relaySocket = some s → st.relaySocket = some s := by
    intro s hs
    rcases hrelay with hsame | hnone
    · rwa [← hsame]
    · simp [hnone] at hs
  refine h.next (h.fresh_of_sent (by simp)) (fun s _ => hopen s) ?_ hnext.ge hnow ?_ ?_ ?_
  · intro s hs
    rw [hnext]
    exact h.relay s (hopen s hs)
  · rw [hsyncs]
    exact Continues.refl _
  · intro sync hsync
    exact .inl (hsyncs ▸ hsync)
  · intro caller hcaller
    exact .inl (hcallers ▸ hcaller)

theorem staged (h : Synced tr st) {k : Nat} {sync : SessionSync} (hk : st.syncs[k]? = some sync)
    (stage : SyncStage) (hes : ∀ caller relay, SyncEvent.resolved caller relay ∉ es)
    (hsound : SessionSync.Sound (tr ++ es) st'.relaySocket { sync with stage := stage })
    (hrelay : st'.relaySocket = st.relaySocket ∨ st'.relaySocket = none)
    (hnext : st'.nextSocket = st.nextSocket) (hnow : st.now ≤ st'.now)
    (hsyncs : st'.syncs = (st.setStage k stage).syncs) (hcallers : st'.callers = st.callers) :
    Synced (tr ++ es) st' := by
  have hopen : ∀ s, st'.relaySocket = some s → st.relaySocket = some s := by
    intro s hs
    rcases hrelay with hsame | hnone
    · rwa [← hsame]
    · simp [hnone] at hs
  refine h.next (h.fresh_of_sent hes) (fun s _ => hopen s) ?_ hnext.ge hnow ?_ ?_ ?_
  · intro s hs
    rw [hnext]
    exact h.relay s (hopen s hs)
  · intro j other hj
    rw [hsyncs]
    simp only [RelayClient.setStage,List.getElem?_modify,hj]
    split_ifs <;> exact ⟨_,rfl,rfl,rfl⟩
  · intro other hother
    rw [hsyncs] at hother
    obtain ⟨j,hj⟩ := List.getElem?_of_mem hother
    simp only [RelayClient.setStage,List.getElem?_modify] at hj
    obtain ⟨old,hold,rfl⟩ := Option.map_eq_some_iff.mp hj
    split_ifs with hjk
    · subst hjk
      rw [hk,Option.some.injEq] at hold
      subst hold
      obtain ⟨hsocket,hstarted,-⟩ := h.syncs sync (List.mem_of_getElem? hk)
      exact .inr ⟨hnext ▸ hsocket,hstarted.trans hnow,hsound⟩
    · exact .inl (List.mem_of_getElem? hold)
  · intro caller hcaller
    exact .inl (hcallers ▸ hcaller)

theorem asked (h : Synced tr st) {more : List SessionSync}
    (hmore : ∀ sync ∈ more, sync.startedAt = st.now ∧ sync.stage = .loading none ∧
      st.relaySocket = some sync.socket)
    (hrelay : st'.relaySocket = st.relaySocket) (hnext : st'.nextSocket = st.nextSocket)
    (hnow : st.now ≤ st'.now) (hsyncs : st'.syncs = st.syncs ++ more)
    (hcallers : ∀ caller ∈ st'.callers, caller ∈ st.callers ∨ caller.calledAt ≤ st'.now ∧
      ∀ s, caller.socket = some s → s < st'.nextSocket ∧
        (st'.relaySocket = some s → caller.Served st'.syncs s)) : Synced (tr ++ []) st' := by
  refine h.next (h.fresh_of_sent (by simp)) ?_ ?_ hnext.ge hnow ?_ ?_ hcallers
  · intro s _ hs
    rwa [← hrelay]
  · intro s hs
    rw [hnext]
    exact h.relay s (hrelay ▸ hs)
  · rw [hsyncs]
    exact Continues.append _ _
  · intro sync hsync
    rw [hsyncs] at hsync
    rcases List.mem_append.mp hsync with hold | hnew
    · exact .inl hold
    · obtain ⟨hstarted,hstage,hsocket⟩ := hmore sync hnew
      refine .inr ⟨hnext ▸ h.relay _ hsocket,hstarted ▸ hnow,?_⟩
      simp [SessionSync.Sound,hstage]

theorem resolved (h : Synced tr st) (i : Nat) {caller : SyncCaller}
    (hfresh : ∀ s, caller.socket = some s → st.relaySocket = some s →
      ∃ listing, caller.calledAt ≤ listing ∧ SyncEvent.sent s listing ∈ tr)
    (hstep : st' = { (st.resolve i caller).1 with now := st.now+1 }) :
    Synced (tr ++ [.resolved caller st.relaySocket]) st' := by
  subst hstep
  refine h.next ?_ (fun s _ hs => hs) h.relay le_rfl (Nat.le_succ _) (Continues.refl _) ?_ ?_
  · refine traced_snoc.mpr ⟨h.fresh,?_⟩
    intro caller' s hs he
    simp only [SyncEvent.resolved.injEq] at he
    obtain ⟨rfl,hrelay⟩ := he
    exact hfresh s hs hrelay
  · intro sync hsync
    exact .inl hsync
  · intro other hother
    exact .inl ((List.eraseIdx_sublist _ _).mem hother)

theorem served_of_spec {caller : SyncCaller} {more : List SessionSync} {s : Nat}
    (hs : st.relaySocket = some s) (hcalled : caller.calledAt ≤ st.now)
    (hwait : match caller.waiting with
      | .resolved => st.relaySocket = none
      | .promise k => ∃ sync, (st.syncs ++ more)[k]? = some sync ∧ sync.startedAt = st.now ∧
          st.relaySocket = some sync.socket
      | .follow _ => True) : caller.Served (st.syncs ++ more) s := by
  unfold SyncCaller.Served
  split
  · rename_i hresolved
    simp [hresolved,hs] at hwait
  · rename_i k hpromise
    rw [hpromise] at hwait
    obtain ⟨sync,hsync,hstarted,hsocket⟩ := hwait
    rw [hs,Option.some.injEq] at hsocket
    exact ⟨sync,hsync,hsocket.symm,hstarted ▸ hcalled⟩
  · trivial

theorem call (h : Synced tr st) : Synced (tr ++ []) (st.step .call).1 := by
  obtain ⟨promise,socket,again,more,hstate,hmore,hwait⟩ := st.syncSessionsNow_spec
  simp only [RelayClient.step,RelayClient.act,hstate]
  refine h.asked hmore rfl rfl (Nat.le_succ _) rfl ?_
  intro caller hcaller
  rcases List.mem_append.mp hcaller with hold | hnew
  · exact .inl hold
  · rw [List.mem_singleton.mp hnew]
    refine .inr ⟨Nat.le_succ _,?_⟩
    intro s hs
    exact ⟨h.relay s hs,fun _ => served_of_spec hs le_rfl hwait⟩

theorem finish (h : Synced tr st) (k : Nat) (ok full : Bool) :
    Synced (tr ++ (st.finish k ok full).2) { (st.finish k ok full).1 with now := st.now+1 } := by
  unfold RelayClient.finish
  split
  · rename_i socket startedAt listed hk
    have hlisted := (h.syncs _ (List.mem_of_getElem? hk)).2.2
    simp only [SessionSync.Sound] at hlisted
    have hstarted : startedAt ≤ if ok then listed.getD startedAt else startedAt := by
      cases ok with
      | false => exact le_rfl
      | true =>
        cases listed with
        | none => exact le_rfl
        | some t => exact hlisted t rfl
    generalize (if ok = true then listed.getD startedAt else startedAt) = listing at hstarted ⊢
    dsimp only
    split_ifs with hrelay hfull
    · refine h.staged hk _ (by simp) ?_ (.inr rfl) rfl (Nat.le_succ _) rfl rfl
      exact ⟨hstarted,by simp⟩
    · refine h.staged hk _ (by simp) ?_ (.inl rfl) rfl (Nat.le_succ _) rfl rfl
      exact ⟨hstarted,fun _ => by simp⟩
    · refine h.staged hk _ (by simp) ?_ (.inl rfl) rfl (Nat.le_succ _) rfl rfl
      exact ⟨hstarted,fun hopen => absurd hopen hrelay⟩
  · exact h.idle (.inl rfl) rfl (Nat.le_succ _) rfl rfl

theorem settle (h : Synced tr st) (k : Nat) :
    Synced (tr ++ []) { st.settle k with now := st.now+1 } := by
  unfold RelayClient.settle
  split
  · rename_i socket startedAt listing hk
    have hsound : SessionSync.Sound (tr ++ []) st.relaySocket ⟨socket,startedAt,.settled listing⟩ := by
      have hold := (h.syncs _ (List.mem_of_getElem? hk)).2.2
      simpa [SessionSync.Sound] using hold
    dsimp only
    split_ifs
    · exact h.staged hk _ (by simp) hsound (.inl rfl) rfl (Nat.le_succ _) rfl rfl
    · exact h.staged hk _ (by simp) hsound (.inl rfl) rfl (Nat.le_succ _) rfl rfl
  · exact h.idle (.inl rfl) rfl (Nat.le_succ _) rfl rfl

theorem settled_iff {k : Nat} : st.settled k = true ↔
    ∃ socket startedAt listing, st.syncs[k]? = some ⟨socket,startedAt,.settled listing⟩ := by
  unfold RelayClient.settled
  split
  · rename_i socket startedAt listing hk
    exact ⟨fun _ => ⟨socket,startedAt,listing,hk⟩,fun _ => rfl⟩
  · rename_i hk
    refine ⟨fun hfalse => by simp at hfalse,?_⟩
    rintro ⟨socket,startedAt,listing,hsync⟩
    exact absurd hsync (hk socket startedAt listing)

theorem wake (h : Synced tr st) (i : Nat) (hflag : keepsFlag st (.wake i) = true) :
    Synced (tr ++ (st.wake i).2) { (st.wake i).1 with now := st.now+1 } := by
  have hidle : Synced (tr ++ []) { st with now := st.now+1 } :=
    h.idle (.inl rfl) rfl (Nat.le_succ _) rfl rfl
  unfold RelayClient.wake
  cases hi : st.callers[i]? with
  | none => exact hidle
  | some caller =>
    obtain ⟨calledAt,socket,waiting⟩ := caller
    obtain ⟨hcalled,hserved⟩ := h.callers _ (List.mem_of_getElem? hi)
    cases waiting with
    | resolved =>
      refine h.resolved i ?_ rfl
      intro s hs hrelay
      exact absurd ((hserved s hs).2 hrelay) id
    | promise k =>
      dsimp only
      split_ifs with hsettled
      · refine h.resolved i ?_ rfl
        intro s hs hrelay
        obtain ⟨sync,hsync,rfl,hstarted⟩ := (hserved s hs).2 hrelay
        obtain ⟨_,_,listing,hk⟩ := settled_iff.mp hsettled
        rw [hsync,Option.some.injEq] at hk
        have hsound := (h.syncs sync (List.mem_of_getElem? hsync)).2.2
        subst hk
        exact ⟨listing,hstarted.trans hsound.1,hsound.2 hrelay⟩
      · exact hidle
    | follow k =>
      dsimp only
      split_ifs with hsettled hagain
      · -- the follow-up: a sync of its own, or another one to wait for
        obtain ⟨promise,socket',again,more,hstate,hmore,hwait⟩ :=
          ({ st with sessionSyncAgain := false } : RelayClient).syncSessionsNow_spec
        rw [hstate]
        refine h.asked hmore rfl rfl (Nat.le_succ _) rfl ?_
        intro caller hcaller
        rcases List.mem_or_eq_of_mem_set hcaller with hold | rfl
        · exact .inl hold
        · refine .inr ⟨hcalled.trans (Nat.le_succ _),?_⟩
          intro s hs
          refine ⟨(hserved s hs).1,?_⟩
          intro hrelay
          have hopen : ({ st with sessionSyncAgain := false } : RelayClient).relaySocket = some s :=
            hrelay
          exact served_of_spec hopen hcalled hwait
      · refine h.resolved i ?_ rfl
        intro s hs hrelay
        obtain ⟨syncSocket,startedAt,listing,hk⟩ := settled_iff.mp hsettled
        have hsound := (h.syncs _ (List.mem_of_getElem? hk)).2.2
        simp only at hs
        subst hs
        simp only [keepsFlag,hi,hk,hagain,hrelay,Bool.false_or] at hflag
        have hflag : s = syncSocket ∧ calledAt ≤ listing := by simpa using hflag
        obtain ⟨rfl,hlisting⟩ := hflag
        exact ⟨listing,hlisting,hsound.2 hrelay⟩
      · exact hidle

theorem step (h : Synced tr st) {i : SyncInput} (hflag : keepsFlag st i = true) :
    Synced (tr ++ (st.step i).2) (st.step i).1 := by
  cases i with
  | opened =>
    simp only [RelayClient.step,RelayClient.act]
    split
    · refine h.next (h.fresh_of_sent (by simp)) ?_ ?_ (Nat.le_succ _) (Nat.le_succ _)
        (Continues.refl _) (fun _ => .inl) (fun _ => .inl)
      · intro s hlt hs
        simp only [Option.some.injEq] at hs
        omega
      · intro s hs
        simp only [Option.some.injEq] at hs
        exact hs ▸ Nat.lt_succ_self _
    · exact h.idle (.inl rfl) rfl (Nat.le_succ _) rfl rfl
  | closed => exact h.idle (.inr rfl) rfl (Nat.le_succ _) rfl rfl
  | syncSessions =>
    obtain ⟨promise,socket,more,hstate,hmore,-⟩ := st.syncSessions_spec
    simp only [RelayClient.step,RelayClient.act,hstate]
    exact h.asked hmore rfl rfl (Nat.le_succ _) rfl fun _ => .inl
  | call => exact h.call
  | list k =>
    simp only [RelayClient.step,RelayClient.act]
    split
    · rename_i socket startedAt hk
      refine h.staged hk _ (by simp) ?_ (.inl rfl) rfl (Nat.le_succ _) rfl rfl
      have hstarted : startedAt ≤ st.now := (h.syncs _ (List.mem_of_getElem? hk)).2.1
      simpa [SessionSync.Sound] using hstarted
    · exact h.idle (.inl rfl) rfl (Nat.le_succ _) rfl rfl
  | finish k ok full => exact h.finish k ok full
  | settle k => exact h.settle k
  | wake i => exact h.wake i hflag

end Synced

/-- In every run in which no caller wakes to a flag that another one has taken down, every
caller whose socket stays open has been served with a listing taken after its call. -/
theorem synced_fresh {tr : List SyncEvent} {st : RelayClient}
    (hr : sessionSync.Run (fun _ st i => keepsFlag st i = true) tr st) : Fresh tr := by
  have hsynced : Synced tr st := by
    apply hr.invariant (P := Synced)
    · rintro st rfl
      exact ⟨Traced.nil _,by simp,by simp,by simp⟩
    · intro tr st i h hi
      exact h.step hi
  exact hsynced.fresh

namespace Sample

/-- A connect-time sync has its listing when a policy change calls: the follow-up serves it. -/
def oneWaiter : List SyncInput :=
  [.opened,.syncSessions,.list 0,.call,.finish 0 true false,.settle 0,.wake 0,.list 1,
    .finish 1 true false,.settle 1,.wake 0]

/-- Two policy changes call: the first to wake takes the flag down, and the second returns
before the follow-up has sent anything. -/
def twoWaiters : List SyncInput :=
  [.opened,.syncSessions,.list 0,.call,.call,.finish 0 true false,.settle 0,.wake 0,.wake 1]

end Sample

theorem oneWaiter_synced_fresh :
    (sessionSync.exec [] {} Sample.oneWaiter).1 =
      [.sent 0 2,.sent 0 7,.resolved ⟨3,some 0,.promise 1⟩ (some 0)] ∧
    Fresh (sessionSync.exec [] {} Sample.oneWaiter).1 := by
  have hrun : sessionSync.Run (fun _ st i => keepsFlag st i = true) [] {} := .start rfl
  exact ⟨by decide,synced_fresh (hrun.exec Sample.oneWaiter (by decide))⟩

theorem twoWaiters_not_synced_fresh :
    sessionSync.Run sessionSync.free (sessionSync.exec [] {} Sample.twoWaiters).1
      (sessionSync.exec [] {} Sample.twoWaiters).2 ∧
    ¬ Fresh (sessionSync.exec [] {} Sample.twoWaiters).1 := by
  have hrun : sessionSync.Run sessionSync.free [] {} := .start rfl
  refine ⟨hrun.exec _ (sessionSync.allowed_free _ _ _),?_⟩
  intro h
  have htrace : (sessionSync.exec [] {} Sample.twoWaiters).1 =
      [.sent 0 2] ++ SyncEvent.resolved ⟨4,some 0,.follow 0⟩ (some 0) :: [] := by decide
  obtain ⟨listing,hlisting,hsent⟩ := h _ _ _ htrace _ 0 rfl rfl
  simp only [List.mem_singleton,SyncEvent.sent.injEq] at hsent
  simp only at hlisting
  omega

end CodeHarbor.Gateway
