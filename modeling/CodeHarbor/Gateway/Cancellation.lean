import CodeHarbor.Gateway.Tasks
set_option autoImplicit false

namespace CodeHarbor.Gateway
open Lib Bridge

def GatewaySession.settled (session : GatewaySession) : Bool :=
  !session.status.live && session.activeTurnId.join.isNone

/-- Interrupted, and no turn accepted since. -/
def cancelled (s : String) (tr : List GatewayEvent) : Bool :=
  tr.foldl (fun since event =>
    match event with
    | .interrupted id => if id = s then true else since
    | .accepted id _ => if id = s then false else since
    | _ => since) false

def Task.run : Task → Option (String × Nat)
  | .turnPrepare id _ generation _ | .turnModel id _ generation _ | .turnStart id generation _ =>
    some (id,generation)
  | _ => none

def Server.Calm (g : Server) (s : String) : Prop :=
  ∀ session ∈ g.store.getSession s, session.settled = true

namespace Server

/-- The session whose record a broadcast makes live again, or gives a turn. -/
def rouses (g : Server) (message : GatewayMessage) : Option String :=
  match message.session with
  | some session => if g.ignores session ∨ session.settled then none else some session.id
  | none =>
    match message.type with
    | .approvalRequested => some message.sessionId
    | .sessionStatus =>
      match message.status with
      | some status =>
        if g.cancelledSessions.has message.sessionId ∨ status.live = false then none
        else some message.sessionId
      | none => none
    | _ => none

end Server

/-- The sessions whose records a continuation makes live again, or gives a turn, without the
check of a generation. -/
def Task.rouses (g : Server) (now : Nat) (o : Outcome) : Task → List String
  | .createTurn id _ => if o.ok then [id] else []
  | .patchAudit session =>
    if o.ok ∧ ¬g.ignores session ∧ session.settled = false then [session.id] else []
  | .apiTurnStart _ _ _ thread _ => if o.ok then [thread.id] else []
  | .interjectSteer id _ _ thread => if o.ok then [(g.interjected now id thread).id] else []
  | .forkThread _ _ _ => (Server.forkedChild o).toList.map ThreadSummary.id
  | .importThread id =>
    if o.ok then
      (((findThreadSummary o.threads id).toList.map (threadToSession · none)).filter
        (·.settled = false)).map GatewaySession.id
    else []
  | .coldImport =>
    ((o.threads.map g.importedSession).filter (·.settled = false)).map GatewaySession.id
  | _ => []

/-- While the session is cancelled, nothing makes its record live again or gives it a turn. -/
def leavesCancelled (s : String) (tr : List GatewayEvent) (g : Server) : Input → Bool
  | .request _ (.codex event) =>
    cancelled s tr = true → event.threadId ≠ "" →
      g.rouses (g.normalizeCodexEvent event).2 ≠ some s
  | .request _ _ => true
  | .proceed now k o =>
    match g.tasks[k]? with
    | none => true
    | some task => cancelled s tr = true → s ∉ task.rouses g now o

section traces

variable {s : String} {tr : List GatewayEvent}

theorem cancelled_snoc (s : String) (tr : List GatewayEvent) (event : GatewayEvent) :
    cancelled s (tr ++ [event]) =
      match event with
      | .interrupted id => if id = s then true else cancelled s tr
      | .accepted id _ => if id = s then false else cancelled s tr
      | _ => cancelled s tr := by
  simp only [cancelled,List.foldl_append,List.foldl_cons,List.foldl_nil]

/-- Without an interrupt in between, only a session that was cancelled before is so after, and
no turn of it has been accepted. -/
theorem cancelled_of_append {es : List GatewayEvent} (hes : GatewayEvent.interrupted s ∉ es)
    (h : cancelled s (tr ++ es) = true) :
    cancelled s tr = true ∧ ∀ n, GatewayEvent.accepted s n ∉ es := by
  induction es generalizing tr with
  | nil => exact ⟨by simpa using h,by simp⟩
  | cons e es ih =>
    rw [List.append_cons] at h
    obtain ⟨hbefore,hnone⟩ := ih (fun hmem => hes (List.mem_cons_of_mem e hmem)) h
    rw [cancelled_snoc] at hbefore
    cases e with
    | interrupted id =>
      have hid : id ≠ s := fun heq => hes (by simp [heq])
      simp only [hid,if_false] at hbefore
      exact ⟨hbefore,by simpa using hnone⟩
    | accepted id n =>
      have hid : id ≠ s := by
        rintro rfl
        simp at hbefore
      simp only [hid,if_false] at hbefore
      refine ⟨hbefore,?_⟩
      intro m hmem
      rcases List.mem_cons.mp hmem with heq | hmem
      · cases heq
        exact hid rfl
      · exact hnone m hmem
    | _ => exact ⟨hbefore,by simpa using hnone⟩

end traces

namespace Server

theorem calm_iff {g : Server} {s : String} :
    g.Calm s ↔ g.store.view GatewaySession.settled s ≠ some false := by
  unfold Calm GatewayStore.view
  cases g.store.getSession s with
  | none => simp
  | some session => simp

end Server

/-- From one state to the next: a settled record stays so and the gate is not taken, provided
the session is cancelled; generations do not go back, and a handler newly suspended for the
session is of an older run than the current one when it is cancelled. -/
structure Undisturbed (s : String) (w : Bool) (g g' : Server) : Prop where
  record : w = true → g.Calm s → g'.Calm s
  gate : w = true → s ∈ g'.turnGate → s ∈ g.turnGate
  generation : g.generation s ≤ g'.generation s
  runs : ∀ task ∈ g'.tasks, task ∈ g.tasks ∨
    ∀ n, task.run = some (s,n) → n+w.toNat ≤ g'.generation s

namespace Undisturbed

variable {s : String} {w : Bool} {g g' g'' : Server}

theorem refl (s : String) (w : Bool) (g : Server) : Undisturbed s w g g :=
  ⟨fun _ h => h,fun _ h => h,le_rfl,fun _ h => .inl h⟩

theorem trans (h : Undisturbed s w g g') (h' : Undisturbed s w g' g'') : Undisturbed s w g g'' where
  record := fun hw hcalm => h'.record hw (h.record hw hcalm)
  gate := fun hw hmem => h.gate hw (h'.gate hw hmem)
  generation := h.generation.trans h'.generation
  runs := by
    intro task htask
    rcases h'.runs task htask with hmid | hnew
    · refine (h.runs task hmid).imp id ?_
      intro hbound n hn
      exact (hbound n hn).trans h'.generation
    · exact .inr hnew

theorem frame (h : Undisturbed s w g g') (hrecord : g''.store.getSession s = g'.store.getSession s)
    (hgate : g''.turnGate ⊆ g'.turnGate) (hgenerations : g''.generations = g'.generations)
    (htasks : g''.tasks = g'.tasks) : Undisturbed s w g g'' := by
  refine h.trans ⟨?_,fun _ hmem => hgate hmem,?_,?_⟩
  · intro _ hcalm
    rw [Server.Calm,hrecord]
    exact hcalm
  · rw [Server.generation,Server.generation,hgenerations]
  · intro task htask
    rw [htasks] at htask
    exact .inl htask

theorem suspend (h : Undisturbed s w g g') {task : Task}
    (hrun : ∀ n, task.run = some (s,n) → n+w.toNat ≤ g'.generation s) :
    Undisturbed s w g (g'.suspend task) := by
  refine h.trans ⟨fun _ hcalm => hcalm,fun _ hmem => hmem,le_rfl,?_⟩
  intro other hother
  rw [Server.suspend_tasks,List.mem_append,List.mem_singleton] at hother
  rcases hother with hold | rfl
  · exact .inl hold
  · exact .inr hrun

theorem store (h : Undisturbed s w g g') {st : GatewayStore}
    (hst : w = true → g'.Calm s → ∀ session ∈ st.getSession s, session.settled = true) :
    Undisturbed s w g { g' with store := st } :=
  h.trans ⟨hst,fun _ hmem => hmem,le_rfl,fun _ htask => .inl htask⟩

theorem settled_spread {existing session : GatewaySession} (he : existing.settled = true)
    (hs : session.settled = true) : (existing.spread session).settled = true := by
  simp only [GatewaySession.settled,GatewaySession.spread,Bool.and_eq_true,
    Option.isNone_iff_eq_none] at *
  refine ⟨hs.1,?_⟩
  cases hturn : session.activeTurnId with
  | none => simpa using he.2
  | some turnId => simpa [hturn] using hs.2

theorem upsertSession (h : Undisturbed s w g g') {session : GatewaySession}
    (hs : w = true → g'.Calm s → session.id = s → session.settled = true) :
    Undisturbed s w g (g'.upsertSession session) := by
  refine h.store ?_
  intro hw hcalm x hx
  rw [GatewayStore.getSession_upsertSession] at hx
  split_ifs at hx with hid
  · simp only [Option.mem_def,Option.some.injEq] at hx
    rw [← hx]
    have hsession := hs hw hcalm hid.symm
    cases hget : g'.store.getSession s with
    | none => exact hsession
    | some existing => exact settled_spread (hcalm existing hget) hsession
  · exact hcalm x hx

theorem upsertSessions (h : Undisturbed s w g g') {sessions : List GatewaySession}
    (hs : w = true → ∀ x ∈ sessions, x.id = s → x.settled = true) :
    Undisturbed s w g { g' with store := g'.store.upsertSessions sessions } := by
  induction sessions generalizing g' with
  | nil => exact h
  | cons x xs ih =>
    have hx : Undisturbed s w g (g'.upsertSession x) :=
      h.upsertSession fun hw _ => hs hw x List.mem_cons_self
    exact ih hx fun hw y hy => hs hw y (List.mem_cons_of_mem x hy)

theorem updateSession (h : Undisturbed s w g g') {id : String} {updater : GatewaySession → GatewaySession}
    (hid : ∀ x, (updater x).id = x.id)
    (hs : w = true → g'.Calm s → id = s → ∀ x, x.settled = true → (updater x).settled = true) :
    Undisturbed s w g (g'.updateSession id updater) := by
  refine h.store ?_
  intro hw hcalm x hx
  rw [GatewayStore.getSession_updateSession _ hid] at hx
  split_ifs at hx with heq
  · obtain ⟨y,hy,rfl⟩ := Option.mem_map.mp hx
    exact hs hw hcalm heq.symm y (hcalm y hy)
  · exact hcalm x hx

theorem saveSession (h : Undisturbed s w g g') (session : GatewaySession)
    (hs : w = true → session.id = s → session.settled = true) :
    Undisturbed s w g { g' with store := g'.store.saveSession session } := by
  refine h.store ?_
  intro hw hcalm x hx
  rw [GatewayStore.getSession_saveSession] at hx
  split_ifs at hx with hid
  · simp only [Option.mem_def,Option.some.injEq] at hx
    rw [← hx]
    exact hs hw hid.symm
  · exact hcalm x hx

theorem view (h : Undisturbed s w g g') {st : GatewayStore}
    (hst : st.view GatewaySession.settled s = g'.store.view GatewaySession.settled s) :
    Undisturbed s w g { g' with store := st } := by
  refine h.store ?_
  intro _ hcalm
  have hview : ({ g' with store := st } : Server).Calm s := by
    rw [Server.calm_iff] at hcalm ⊢
    rwa [hst]
  exact hview

theorem release (h : Undisturbed s w g g') (id : String) : Undisturbed s w g (g'.release id) :=
  h.frame rfl (Finset.erase_subset _ _) rfl rfl

theorem addLive (h : Undisturbed s w g g') (id : String) : Undisturbed s w g (g'.addLive id) :=
  h.frame rfl (Finset.Subset.refl _) rfl rfl

theorem dropLive (h : Undisturbed s w g g') (id : String) : Undisturbed s w g (g'.dropLive id) :=
  h.frame rfl (Finset.Subset.refl _) rfl rfl

theorem rememberPolicy (h : Undisturbed s w g g') (id : String) (m : SessionPolicyMode) :
    Undisturbed s w g (g'.rememberPolicy id m) :=
  h.frame rfl (Finset.Subset.refl _) rfl rfl

theorem trackSession (h : Undisturbed s w g g') (now : Nat) (message : GatewayMessage)
    (hm : w = true → g'.Calm s → g'.rouses message ≠ some s) :
    Undisturbed s w g (g'.trackSession now message) := by
  unfold Server.rouses at hm
  unfold Server.trackSession
  cases hsession : message.session with
  | some session =>
    simp only [hsession] at hm
    dsimp only
    split_ifs with hignored hlive
    · exact h
    · refine (h.addLive session.id).upsertSession ?_
      rintro hw hcalm rfl
      simpa [Server.ignores,hignored] using hm hw hcalm
    · refine ((h.dropLive session.id).release session.id).upsertSession ?_
      rintro hw hcalm rfl
      simpa [Server.ignores,hlive] using hm hw hcalm
  | none =>
    simp only [hsession] at hm
    cases htype : message.type with
    | sessionFinished =>
      refine ((h.dropLive _).release _).updateSession (fun _ => rfl) ?_
      intro _ _ _ x _
      simp only [GatewaySession.settled,inferFinishedStatus]
      split
      · rfl
      · split_ifs <;> rfl
    | sessionStatus =>
      cases hstatus : message.status with
      | none => exact h
      | some status =>
        simp only [htype,hstatus] at hm
        dsimp only
        split_ifs with hignored hlive
        · exact h
        · refine (h.addLive message.sessionId).updateSession ?_ ?_
          · exact fun _ => rfl
          · rintro hw hcalm rfl
            have hkeep := hm hw hcalm
            simp only [hlive,and_true] at hignored
            simp [hignored,hlive] at hkeep
        · refine ((h.dropLive message.sessionId).release message.sessionId).updateSession ?_ ?_
          · exact fun _ => rfl
          · intro _ _ _ x hx
            simp only [GatewaySession.settled,Bool.and_eq_true] at hx ⊢
            exact ⟨by simpa using hlive,hx.2⟩
    | approvalRequested =>
      simp only [htype] at hm
      dsimp only
      refine h.updateSession ?_ ?_
      · exact fun _ => rfl
      · rintro hw hcalm rfl
        exact absurd rfl (hm hw hcalm)
    | _ => exact h

theorem broadcastGateway (h : Undisturbed s w g g') (now : Nat) (message : GatewayMessage)
    (hm : w = true → g'.Calm s → g'.rouses message ≠ some s) :
    Undisturbed s w g (g'.broadcastGateway now message) := by
  obtain ⟨store,hg,hview⟩ := g'.persistSubagentRelation_view message GatewaySession.settled
    (fun _ _ => rfl) (fun _ _ => rfl) s
  have hpersist : Undisturbed s w g (g'.persistSubagentRelation message) := by
    rw [hg]
    exact h.view hview
  refine hpersist.trackSession now message ?_
  intro hw hcalm
  rw [hg] at hcalm ⊢
  refine hm hw ?_
  rw [Server.calm_iff] at hcalm ⊢
  rwa [← hview]

theorem sessions (h : Undisturbed s w g g') {st : GatewayStore} (hst : st.sessions = g'.store.sessions) :
    Undisturbed s w g { g' with store := st } := by
  refine h.frame ?_ (Finset.Subset.refl _) rfl rfl
  simp only [GatewayStore.getSession,hst]

theorem rememberClientRequest (h : Undisturbed s w g g') (id : String) (r : Option RequestId) :
    Undisturbed s w g (g'.rememberClientRequest id r) := by
  cases r with
  | none => exact h
  | some r =>
    refine h.view ?_
    refine (GatewayStore.view_updateSession _ ?_ ?_ id s).trans rfl
    · exact fun _ => rfl
    · exact fun _ => rfl

theorem releaseClientRequest (h : Undisturbed s w g g') (id : String) (r : Option RequestId) :
    Undisturbed s w g (g'.releaseClientRequest id r) := by
  cases r with
  | none => exact h
  | some r => exact h.sessions rfl

theorem reserveClientRequest (h : Undisturbed s w g g') (now : Nat) (id : String) (r : Option RequestId) :
    Undisturbed s w g (g'.reserveClientRequest now id r).1 := by
  cases r with
  | none => exact h
  | some r => exact h.sessions (g'.store.sessions_reserveClientRequest now id r)

theorem releaseCreateRequest (h : Undisturbed s w g g') (r : Option RequestId) :
    Undisturbed s w g (g'.releaseCreateRequest r) := by
  cases r with
  | none => exact h
  | some r => exact h.sessions rfl

theorem rememberCreateRequest (h : Undisturbed s w g g') (id : String) (r : Option RequestId) :
    Undisturbed s w g (g'.rememberCreateRequest id r) := by
  cases r with
  | none => exact h
  | some r => exact h.sessions rfl

theorem acquire (h : Undisturbed s w g g') {id : String} (hid : w = true → id ≠ s)
    (hstore : g''.store = g'.store) (hgate : g''.turnGate = insert id g'.turnGate)
    (hgenerations : g''.generations = g'.generations) (htasks : g''.tasks = g'.tasks) :
    Undisturbed s w g g'' := by
  refine h.trans ⟨?_,?_,?_,?_⟩
  · intro _ hcalm
    rw [Server.Calm,hstore]
    exact hcalm
  · intro hw hmem
    rw [hgate,Finset.mem_insert] at hmem
    exact hmem.resolve_left (Ne.symm (hid hw))
  · rw [Server.generation,Server.generation,hgenerations]
  · intro task htask
    rw [htasks] at htask
    exact .inl htask

theorem beginRun (h : Undisturbed s w g g') (id : String) : Undisturbed s w g (g'.beginRun id) := by
  refine h.trans ⟨fun _ hcalm => hcalm,fun _ hmem => hmem,?_,fun _ htask => .inl htask⟩
  simp only [Server.generation,Server.beginRun_generations,OrdMap.get_set]
  split_ifs with hs
  · subst hs
    simp
  · exact le_rfl

end Undisturbed

structure Passes (s : String) (w : Bool) (g : Server) (out : Server × List GatewayEvent) : Prop where
  keeps : Undisturbed s w g out.1
  events : GatewayEvent.interrupted s ∉ out.2

theorem Undisturbed.passes {s : String} {w : Bool} {g g' : Server} (h : Undisturbed s w g g') :
    Passes s w g (g',[]) := ⟨h,by simp⟩

namespace Server

section handlers

variable {s : String} {w : Bool} (g : Server) (now : Nat) (o : Outcome) (id : String)

theorem failStart_passes (turn : Nat) : Passes s w g (g.failStart now id turn) := by
  refine ⟨?_,by simp [failStart]⟩
  unfold failStart
  dsimp only
  refine ((((Undisturbed.refl s w g).release id).dropLive id).updateSession ?_ ?_).broadcastGateway now _ ?_
  · exact fun _ => rfl
  · exact fun _ _ _ _ _ => rfl
  · simp [rouses]

theorem openCreated_passes (r : Option RequestId) (m : SessionPolicyMode) (confirmed : Bool)
    (hid : w = true → id ≠ s) : Passes s w g (g.openCreated now id r m confirmed) := by
  refine ⟨?_,?_⟩
  · unfold openCreated
    dsimp only
    have hgate : Undisturbed s w g { g with turnGate := insert id g.turnGate, nextTurn := g.nextTurn+1 } :=
      (Undisturbed.refl s w g).acquire hid rfl rfl rfl rfl
    have hsaved := hgate.saveSession { createdSession id now m with
      status := .starting
      activeTurnId := some none
      lastClientRequestId := some r } fun hw heq => absurd heq (hid hw)
    refine ((((hsaved.rememberCreateRequest id r).rememberClientRequest id r).addLive
      id).broadcastGateway now _ ?_).suspend ?_
    · intro hw _ heq
      simp only [rouses] at heq
      split_ifs at heq
      exact hid hw (by simpa using heq)
    · simp [Task.run]
  · cases r <;> simp [openCreated,rememberedEvents]

theorem acceptTurn_passes (receivedAt : Nat) (persisted : Option GatewaySession)
    (session : GatewaySession) (r : Option RequestId) (policy : SessionPolicyMode) (confirmed : Bool)
    (hid : w = true → id ≠ s) (hsession : session.id = id) :
    Passes s w g (g.acceptTurn now receivedAt id persisted session r policy confirmed) := by
  refine ⟨?_,?_⟩
  · unfold acceptTurn
    dsimp only
    have hgate : Undisturbed s w g { g with
        turnGate := insert id g.turnGate
        cancelledSessions := g.cancelledSessions.erase id
        nextTurn := g.nextTurn+1 } := (Undisturbed.refl s w g).acquire hid rfl rfl rfl rfl
    refine (((((((hgate.beginRun id).addLive id).upsertSession ?_).rememberClientRequest id
      r).broadcastGateway now _ ?_).broadcastGateway now _ ?_).rememberPolicy id policy).suspend ?_
    · intro hw _ heq
      exact absurd (hsession.symm.trans heq) (hid hw)
    · simp [rouses]
    · intro hw _ heq
      simp only [rouses] at heq
      split_ifs at heq
      exact hid hw (by simpa [hsession] using heq)
    · -- the new run is the current one; the session it belongs to is no longer cancelled
      intro n hn
      simp only [Task.run,Option.some.injEq,Prod.mk.injEq] at hn
      obtain ⟨rfl,rfl⟩ := hn
      cases w with
      | true => exact absurd rfl (hid rfl)
      | false => exact le_rfl
  · cases r <;> simp [acceptTurn,rememberedEvents]

theorem admitTurn_passes (receivedAt : Nat) (persisted : Option GatewaySession)
    (session : GatewaySession) (r : Option RequestId) (policy : SessionPolicyMode) (confirmed : Bool)
    (hsession : session.id = id)
    (haccept : w = true → ∀ n, GatewayEvent.accepted s n ∉
      (g.admitTurn now receivedAt id persisted session r policy confirmed).2) :
    Passes s w g (g.admitTurn now receivedAt id persisted session r policy confirmed) := by
  have hreserved := (Undisturbed.refl s w g).reserveClientRequest now id r
  unfold admitTurn at haccept ⊢
  split_ifs at haccept ⊢
  · exact ⟨Undisturbed.refl s w g,by simp⟩
  · dsimp only at haccept ⊢
    split_ifs at haccept ⊢
    · exact ⟨hreserved,by simp⟩
    · split at haccept
      · exact ⟨hreserved.releaseClientRequest id r,by simp⟩
      · exact (hreserved.releaseClientRequest id r).passes
      · have hpasses := acceptTurn_passes (s := s) (w := w) (g.reserveClientRequest now id r).1 now
          id receivedAt persisted session r policy confirmed ?_ hsession
        · exact ⟨hreserved.trans hpasses.keeps,hpasses.events⟩
        · rintro hw rfl
          exact haccept hw _ List.mem_cons_self

theorem postTurns_passes (r : Option RequestId) (mode : Option SessionPolicyMode) (confirmed : Bool)
    (haccept : w = true → ∀ n, GatewayEvent.accepted s n ∉ (g.postTurns now id r mode confirmed).2) :
    Passes s w g (g.postTurns now id r mode confirmed) := by
  unfold postTurns at haccept ⊢
  split at haccept
  · exact ((Undisturbed.refl s w g).suspend (by simp [Task.run])).passes
  · rename_i persisted hget
    dsimp only at haccept ⊢
    split_ifs at haccept ⊢
    · exact (Undisturbed.refl s w g).passes
    · exact g.admitTurn_passes now id now _ _ r _ confirmed (g.store.keyed id persisted hget) haccept

theorem turnLookup_passes (r : Option RequestId) (mode : Option SessionPolicyMode) (confirmed : Bool)
    (receivedAt : Nat) (haccept : w = true → ∀ n, GatewayEvent.accepted s n ∉
      (g.turnLookup now o id r mode confirmed receivedAt).2) :
    Passes s w g (g.turnLookup now o id r mode confirmed receivedAt) := by
  unfold turnLookup at haccept ⊢
  split at haccept
  · exact (Undisturbed.refl s w g).passes
  · rename_i thread hthread
    dsimp only at haccept ⊢
    split_ifs at haccept ⊢
    · exact (Undisturbed.refl s w g).passes
    · exact (Undisturbed.refl s w g).passes
    · exact g.admitTurn_passes now id receivedAt none _ r _ confirmed (findThreadSummary_id hthread)
        haccept

theorem interjectAdmit_passes (r : Option RequestId) (turnId : String) (thread : Option ThreadSummary) :
    Passes s w g (g.interjectAdmit now id r turnId thread) := by
  have hreserved := (Undisturbed.refl s w g).reserveClientRequest now id r
  unfold interjectAdmit
  split_ifs
  · exact ⟨Undisturbed.refl s w g,by simp⟩
  · dsimp only
    split_ifs
    · exact (hreserved.suspend (by simp [Task.run])).passes
    · exact ⟨hreserved,by simp⟩

theorem apiTurnFailed_passes (r : Option RequestId) (turn : Nat) :
    Passes s w g (g.apiTurnFailed id r turn) :=
  ⟨((Undisturbed.refl s w g).release id).releaseClientRequest id r,by simp [apiTurnFailed]⟩

theorem setMode_keeps (m : SessionPolicyMode) : Undisturbed s w g (g.setMode now id m) := by
  refine ((Undisturbed.refl s w g).rememberPolicy id m).updateSession ?_ ?_
  · exact fun _ => rfl
  · exact fun _ _ _ _ hx => hx

theorem resumeThread_keeps (m : SessionPolicyMode) : Undisturbed s w g (g.resumeThread now o id m) := by
  have hset : Undisturbed s w g (g.setMode now id m) := g.setMode_keeps now id m
  unfold resumeThread
  split_ifs
  · dsimp only
    split
    · exact hset
    · rename_i updated hupdated
      refine hset.broadcastGateway now _ ?_
      intro _ hcalm heq
      simp only [rouses] at heq
      split_ifs at heq with hnot
      have hid := (g.setMode now id m).store.keyed id updated hupdated
      simp only [Option.some.injEq] at heq
      refine hnot (.inr (hcalm updated ?_))
      rw [← heq,hid]
      exact hupdated
  · exact Undisturbed.refl s w g

theorem settleInterruptedSession_keeps (base : GatewaySession) (hid : w = true → id ≠ s)
    (hbase : base.id = id) :
    Undisturbed s w (g.beginRun id) (g.settleInterruptedSession now id base) := by
  unfold settleInterruptedSession
  dsimp only
  have hcancelled : Undisturbed s w (g.beginRun id) { g.beginRun id with
      cancelledSessions :=
        ((g.beginRun id).cancelledSessions.set id ()).keepNewest maxCancelledSessions } :=
    (Undisturbed.refl s w _).frame rfl (Finset.Subset.refl _) rfl rfl
  refine (((hcancelled.dropLive id).release id).upsertSession ?_).broadcastGateway now _ ?_
  · exact fun hw _ heq => absurd (hbase.symm.trans heq) (hid hw)
  · simp [rouses]

theorem interruptBase_id {session : Option GatewaySession} {base : GatewaySession}
    (hsession : ∀ x, session = some x → x.id = id) (h : interruptBase o id session = some base) :
    base.id = id := by
  unfold interruptBase at h
  split_ifs at h
  cases session with
  | some x =>
    cases h
    exact hsession base rfl
  | none =>
    obtain ⟨thread,hthread,rfl⟩ := Option.map_eq_some_iff.mp h
    exact findThreadSummary_id hthread

theorem settleInterruptedSession_calm (base : GatewaySession) (hbase : base.id = id) :
    (g.settleInterruptedSession now id base).Calm id ∧
      id ∉ (g.settleInterruptedSession now id base).turnGate := by
  subst hbase
  unfold settleInterruptedSession
  dsimp only
  constructor
  · refine ((Undisturbed.refl base.id true _).broadcastGateway now _ ?_).record rfl ?_
    · simp [rouses]
    · intro x hx
      simp only [upsertSession_store,GatewayStore.getSession_upsertSession,if_true,Option.mem_def,
        Option.some.injEq] at hx
      rw [← hx]
      cases GatewayStore.getSession _ base.id with
      | none => rfl
      | some existing => rfl
  · rw [mem_broadcastGateway_turnGate]
    simp [GatewayMessage.frees]

theorem normalizeCodexEvent_eq (event : CodexEvent) :
    ∃ parents, (g.normalizeCodexEvent event).1 = { g with subagentParents := parents } := by
  cases event with
  | approvalRequested threadId => exact ⟨g.subagentParents,rfl⟩
  | subAgentActivity threadId kind agent =>
    cases agent with
    | none => exact ⟨g.subagentParents,rfl⟩
    | some agent =>
      simp only [normalizeCodexEvent]
      split_ifs
      · exact ⟨_,rfl⟩
      · exact ⟨g.subagentParents,rfl⟩
  | threadStatusChanged threadId status =>
    unfold normalizeCodexEvent
    dsimp only
    split
    · exact ⟨g.subagentParents,rfl⟩
    · split
      · exact ⟨_,rfl⟩
      · exact ⟨g.subagentParents,rfl⟩
  | turnCompleted threadId status turn => exact ⟨g.subagentParents,rfl⟩

theorem codexEvent_passes (event : CodexEvent)
    (hrouses : w = true → event.threadId ≠ "" → g.rouses (g.normalizeCodexEvent event).2 ≠ some s) :
    Passes s w g (g.codexEvent now event) := by
  have hevents : GatewayEvent.interrupted s ∉ (g.codexEvent now event).2 := by
    rcases g.codexEvent_events now event with he | ⟨id,status,turn,-,he⟩ <;> simp [he]
  refine ⟨?_,hevents⟩
  unfold codexEvent
  split_ifs with hid
  · exact Undisturbed.refl s w g
  · dsimp only
    obtain ⟨parents,heq⟩ := g.normalizeCodexEvent_eq event
    have hread : Undisturbed s w g (g.normalizeCodexEvent event).1 := by
      rw [heq]
      exact (Undisturbed.refl s w g).frame rfl (Finset.Subset.refl _) rfl rfl
    refine hread.broadcastGateway now _ ?_
    intro hw _
    rw [heq]
    exact hrouses hw hid

theorem listing_keeps (ids : List String) :
    Undisturbed s w g (ids.foldl (fun g id => g.withGatewayThreadStatus now id) g) := by
  induction ids generalizing g with
  | nil => exact Undisturbed.refl s w g
  | cons id ids ih =>
    have hone : Undisturbed s w g (g.withGatewayThreadStatus now id) := by
      unfold withGatewayThreadStatus
      split
      · exact Undisturbed.refl s w g
      · split_ifs
        · exact ((Undisturbed.refl s w g).dropLive id).release id
        · exact Undisturbed.refl s w g
        · exact Undisturbed.refl s w g
        · exact Undisturbed.refl s w g
    exact hone.trans (ih _)

theorem deleteSession_keeps :
    Undisturbed s w g { g with store := g.store.deleteSession id } := by
  refine (Undisturbed.refl s w g).store ?_
  intro _ hcalm
  unfold GatewayStore.deleteSession
  dsimp only
  have herase : ∀ x ∈ (g.store.sessions.erase id).get s, x.settled = true := by
    intro x hx
    rw [OrdMap.get_erase] at hx
    split_ifs at hx
    · simp at hx
    · exact hcalm x hx
  split
  · exact herase
  · intro x hx
    rw [GatewayStore.getSession_updateSession] at hx
    · split_ifs at hx
      · obtain ⟨y,hy,rfl⟩ := Option.mem_map.mp hx
        exact herase y hy
      · exact herase x hx
    · exact fun _ => rfl

theorem receive_passes (q : Request)
    (hrouses : ∀ event, q = .codex event → w = true → event.threadId ≠ "" →
      g.rouses (g.normalizeCodexEvent event).2 ≠ some s)
    (haccept : w = true → ∀ n, GatewayEvent.accepted s n ∉ (g.receive now q).2) :
    Passes s w g (g.receive now q) := by
  have hsuspend : ∀ {task : Task}, task.run = none → Undisturbed s w g (g.suspend task) := by
    intro task htask
    refine (Undisturbed.refl s w g).suspend ?_
    simp [htask]
  cases q with
  | postSessions r mode confirmed =>
    refine Undisturbed.passes ?_
    unfold postSessions
    split_ifs
    · exact Undisturbed.refl s w g
    · cases r with
      | none => exact hsuspend rfl
      | some r =>
        have hreserved : Undisturbed s w g { g with store := (g.store.reserveCreateRequest now r).1 } :=
          (Undisturbed.refl s w g).sessions (by simp)
        dsimp only
        split_ifs
        · exact hreserved.suspend (by simp [Task.run])
        · exact hreserved
  | postThreads mode confirmed =>
    refine Undisturbed.passes ?_
    unfold postThreads
    split_ifs
    · exact Undisturbed.refl s w g
    · exact hsuspend rfl
  | patchPolicy id mode confirmed =>
    refine Undisturbed.passes ?_
    unfold patchPolicy
    split
    · exact Undisturbed.refl s w g
    · exact hsuspend rfl
  | postResume id mode confirmed =>
    refine Undisturbed.passes ?_
    unfold postResume
    dsimp only
    split_ifs
    · exact Undisturbed.refl s w g
    · exact hsuspend rfl
  | postTurns id r mode confirmed => exact g.postTurns_passes now id r mode confirmed haccept
  | postThreadTurns id r =>
    have hreserved := (Undisturbed.refl s w g).reserveClientRequest now id r
    simp only [receive,postThreadTurns]
    split_ifs
    · exact (hreserved.suspend (by simp [Task.run])).passes
    · exact ⟨hreserved,by simp⟩
  | postInterjections id r turnId => exact (hsuspend rfl).passes
  | postInterrupt id => exact (hsuspend rfl).passes
  | postFork id mode confirmed => exact (hsuspend rfl).passes
  | postImport id => exact (hsuspend rfl).passes
  | getSessions =>
    refine Undisturbed.passes ?_
    unfold getSessions
    split_ifs
    · exact hsuspend rfl
    · exact Undisturbed.refl s w g
  | getThreads ids => exact (g.listing_keeps now ids).passes
  | deleteSession id => exact (g.deleteSession_keeps id).passes
  | codex event => exact g.codexEvent_passes now event (hrouses event rfl)

theorem not_isCurrent {n : Nat} (h : n+1 ≤ g.generation s) : g.isCurrent s n = false := by
  unfold generation at h
  unfold isCurrent
  cases hget : g.generations.get s with
  | none => rfl
  | some m =>
    simp only [hget,Option.getD_some] at h
    simp only [Option.some.injEq,decide_eq_false_iff_not]
    omega

theorem turnStart_passes (generation turn : Nat)
    (hrun : id = s → generation+w.toNat ≤ g.generation s) :
    Passes s w g (g.turnStart now o id generation turn) := by
  unfold turnStart
  split_ifs with hok hcurrent
  · cases hid : present o.id with
    | none => simpa [hcurrent,hid] using (Undisturbed.refl s w g).passes
    | some turnId =>
      dsimp only
      refine Undisturbed.passes ((Undisturbed.refl s w g).updateSession ?_ ?_)
      · exact fun _ => rfl
      · rintro rfl _ rfl
        have hold : generation+1 ≤ g.generation id := hrun rfl
        rw [g.not_isCurrent hold] at hcurrent
        cases hcurrent
  · simpa [hcurrent] using (Undisturbed.refl s w g).passes
  · exact g.failStart_passes now id turn
  · exact ⟨Undisturbed.refl s w g,by simp⟩

theorem resume_passes (task : Task) (hrouses : w = true → s ∉ task.rouses g now o)
    (hrun : ∀ n, task.run = some (s,n) → n+w.toNat ≤ g.generation s)
    (haccept : w = true → ∀ n, GatewayEvent.accepted s n ∉ (g.resume now o task).2)
    (hother : ∀ id session, task = .interruptContext id session → id ≠ s)
    (hbase : ∀ id session, task = .interruptContext id (some session) → session.id = id) :
    Passes s w g (g.resume now o task) := by
  have hrefl := Undisturbed.refl s w g
  have hsuspend : ∀ {task : Task}, task.run = none → Undisturbed s w g (g.suspend task) := by
    intro task htask
    refine hrefl.suspend ?_
    simp [htask]
  cases task with
  | createThread r mode confirmed =>
    simp only [resume,createThread] at haccept ⊢
    split at haccept
    · exact (hrefl.releaseCreateRequest r).passes
    · rename_i id hid
      split_ifs at haccept ⊢
      · exact (hrefl.releaseCreateRequest r).passes
      · refine g.openCreated_passes now id r mode confirmed ?_
        rintro hw rfl
        exact haccept hw _ List.mem_cons_self
  | createModel id mode turn =>
    simp only [resume,createModel]
    split_ifs
    · exact ((hrefl.rememberPolicy id mode).suspend (by simp [Task.run])).passes
    · exact g.failStart_passes now id turn
  | createTurn id turn =>
    simp only [resume,createTurn]
    split_ifs with hok
    · have hid : w = true → id ≠ s := by
        rintro hw rfl
        exact hrouses hw (by simp [Task.rouses,hok])
      refine Undisturbed.passes ((hrefl.updateSession ?_ ?_).broadcastGateway now _ ?_)
      · exact fun _ => rfl
      · exact fun hw _ heq => absurd heq (hid hw)
      · intro hw _ heq
        simp only [rouses] at heq
        split_ifs at heq
        exact hid hw (by simpa using heq)
    · exact g.failStart_passes now id turn
  | apiThreadStart mode confirmed =>
    simp only [resume,apiThreadStart]
    split
    · exact hrefl.passes
    · have hturn : Undisturbed s w g { g with nextTurn := g.nextTurn+1 } :=
        hrefl.frame rfl (Finset.Subset.refl _) rfl rfl
      exact ⟨hturn.suspend (by simp [Task.run]),by simp⟩
  | apiThreadModel id mode turn =>
    simp only [resume,apiThreadModel]
    split_ifs
    · exact ((hrefl.rememberPolicy id mode).suspend (by simp [Task.run])).passes
    · exact ⟨hrefl,by simp⟩
  | apiThreadTurn id turn =>
    refine ⟨hrefl,?_⟩
    simp only [resume,apiThreadTurn]
    split_ifs <;> simp
  | patchContext id mode confirmed existing =>
    simp only [resume,patchContext]
    split_ifs
    · exact hrefl.passes
    · exact hrefl.passes
    · exact ⟨(g.setMode_keeps now id mode).suspend (by simp [Task.run]),by simp⟩
  | patchAudit session =>
    refine Undisturbed.passes ?_
    simp only [patchAudit]
    split_ifs with hok
    · refine hrefl.broadcastGateway now _ ?_
      intro hw _ heq
      simp only [Server.rouses] at heq
      split_ifs at heq with hnot
      refine hrouses hw ?_
      have hparts : ¬g.ignores session ∧ session.settled = false := by simpa using hnot
      simp only [Option.some.injEq] at heq
      simp [Task.rouses,hok,hparts,heq]
    · exact hrefl
  | resumeContext id mode confirmed stored =>
    simp only [resume,resumeContext]
    split_ifs
    · exact ⟨(hrefl.rememberPolicy id mode).suspend (by simp [Task.run]),by simp⟩
    · exact hrefl.passes
  | resumeThread id mode => exact (g.resumeThread_keeps now o id mode).passes
  | turnLookup id r mode confirmed receivedAt =>
    exact g.turnLookup_passes now o id r mode confirmed receivedAt haccept
  | turnPrepare id policy generation turn =>
    simp only [resume,turnPrepare]
    split_ifs
    · refine Undisturbed.passes (hrefl.suspend ?_)
      exact hrun
    · exact hrefl.passes
    · exact g.failStart_passes now id turn
    · exact ⟨hrefl,by simp⟩
  | turnModel id policy generation turn =>
    simp only [resume,turnModel]
    split_ifs
    · refine Undisturbed.passes ((hrefl.rememberPolicy id policy).suspend ?_)
      exact hrun
    · exact g.failStart_passes now id turn
    · exact ⟨hrefl,by simp⟩
  | turnStart id generation turn =>
    refine g.turnStart_passes now o id generation turn ?_
    rintro rfl
    exact hrun generation rfl
  | apiTurnLookup id r last =>
    simp only [resume,apiTurnLookup] at haccept ⊢
    split at haccept
    · exact (hrefl.releaseClientRequest id r).passes
    · split at haccept
      · exact ⟨hrefl.releaseClientRequest id r,by simp⟩
      · exact (hrefl.releaseClientRequest id r).passes
      · have hid : w = true → id ≠ s := by
          rintro hw rfl
          exact haccept hw _ List.mem_cons_self
        have hgate : Undisturbed s w g { g with
            turnGate := insert id g.turnGate
            nextTurn := g.nextTurn+1 } := hrefl.acquire hid rfl rfl rfl rfl
        refine ⟨(hgate.rememberPolicy id _).suspend ?_,by simp⟩
        simp [Task.run]
  | apiTurnPrepare id r last thread turn =>
    simp only [resume,apiTurnPrepare]
    split_ifs
    · exact (hsuspend rfl).passes
    · exact g.apiTurnFailed_passes id r turn
  | apiTurnModel id r last thread turn =>
    exact ((hrefl.rememberPolicy id _).suspend (by simp [Task.run])).passes
  | apiTurnStart id r last thread turn =>
    simp only [resume,apiTurnStart]
    split_ifs with hok
    · have hid : w = true → thread.id ≠ s := by
        rintro hw rfl
        exact hrouses hw (by simp [Task.rouses,hok])
      refine ⟨?_,by cases r <;> simp [rememberedEvents]⟩
      dsimp only
      refine (((hrefl.upsertSession ?_).rememberClientRequest id r).addLive id).broadcastGateway now _ ?_
      · exact fun hw _ heq => absurd heq (hid hw)
      · intro hw _ heq
        simp only [Server.rouses] at heq
        split_ifs at heq
        exact hid hw (by simpa [threadToSession] using heq)
    · exact g.apiTurnFailed_passes id r turn
  | interjectContext id r turnId stored =>
    simp only [resume,interjectContext]
    generalize (if stored = true then none else findThreadSummary o.threads id) = thread
    split
    · exact hrefl.passes
    · split
      · exact g.interjectAdmit_passes now id r _ _
      · exact (hsuspend rfl).passes
  | interjectDetail id r thread =>
    simp only [resume,interjectDetail]
    split
    · exact g.interjectAdmit_passes now id r _ _
    · exact hrefl.passes
  | interjectAudit id r turnId thread =>
    simp only [resume,interjectAudit]
    split_ifs
    · exact (hsuspend rfl).passes
    · exact hrefl.passes
  | interjectSteer id r turnId thread =>
    simp only [resume,interjectSteer]
    split_ifs with hok
    · have hid : w = true → (g.interjected now id thread).id ≠ s := by
        rintro hw rfl
        exact hrouses hw (by simp [Task.rouses,hok])
      refine ⟨?_,by cases r <;> simp [rememberedEvents]⟩
      dsimp only
      refine (((hrefl.addLive id).upsertSession ?_).rememberClientRequest id r).broadcastGateway now _ ?_
      · exact fun hw _ heq => absurd heq (hid hw)
      · simp [Server.rouses]
    · exact (hrefl.releaseClientRequest id r).passes
  | interruptContext id session =>
    have hid := hother id session rfl
    simp only [resume,interruptContext]
    split
    · exact hrefl.passes
    · rename_i base hsome
      have hbaseId : base.id = id := by
        refine interruptBase_id o id ?_ hsome
        rintro x rfl
        exact hbase id x rfl
      have hsettle := g.settleInterruptedSession_keeps (w := w) now id base (fun _ => hid) hbaseId
      exact ⟨(hrefl.beginRun id).trans hsettle,by simpa using Ne.symm hid⟩
  | forkContext id mode confirmed stored =>
    refine Undisturbed.passes ?_
    simp only [forkContext]
    split_ifs
    · exact hrefl
    · exact hsuspend rfl
    · exact hrefl
  | forkAudit id mode confirmed =>
    simp only [resume,forkAudit]
    split_ifs
    · exact ⟨(hrefl.rememberPolicy id mode).suspend (by simp [Task.run]),by simp⟩
    · exact hrefl.passes
  | forkThread id mode confirmed =>
    simp only [resume,forkThread]
    split
    · exact hrefl.passes
    · rename_i child hchild
      have hid : w = true → child.id ≠ s := by
        rintro hw rfl
        exact hrouses hw (by simp [Task.rouses,hchild])
      refine ⟨?_,by simp⟩
      dsimp only
      refine (hrefl.upsertSession ?_).broadcastGateway now _ ?_
      · exact fun hw _ heq => absurd heq (hid hw)
      · intro hw _ heq
        simp only [Server.rouses] at heq
        split_ifs at heq
        exact hid hw (by simpa [threadToSession] using heq)
  | importThread id =>
    refine Undisturbed.passes ?_
    simp only [importThread]
    split
    · exact hrefl
    · rename_i thread hthread
      refine hrefl.upsertSession ?_
      intro hw _ heq
      by_contra hsettled
      split_ifs at hthread with hok
      refine hrouses hw ?_
      simp only [Bool.not_eq_true] at hsettled
      simp [Task.rouses,hok,hthread,hsettled,heq]
  | coldImport =>
    refine Undisturbed.passes (hrefl.upsertSessions ?_)
    intro hw x hx heq
    by_contra hsettled
    refine hrouses hw ?_
    simp only [Task.rouses,List.mem_map,List.mem_filter]
    refine ⟨x,⟨List.mem_map.mp hx,?_⟩,heq⟩
    simpa using hsettled

end handlers

end Server

/-- A cancelled session is settled and its place in the gate is free. The handlers of its older
runs are known by their generation, and an interrupt holds the record of its own session. -/
structure Rest (s : String) (tr : List GatewayEvent) (g : Server) : Prop where
  record : cancelled s tr = true → g.Calm s
  gate : cancelled s tr = true → s ∉ g.turnGate
  runs : ∀ task ∈ g.tasks, ∀ n, task.run = some (s,n) → n+(cancelled s tr).toNat ≤ g.generation s
  bases : ∀ task ∈ g.tasks, ∀ id session, task = .interruptContext id (some session) → session.id = id

namespace Rest

variable {s : String} {tr : List GatewayEvent} {g : Server}

theorem bases_step (h : Rest s tr g) (i : Input) :
    ∀ task ∈ (g.step i).1.tasks, ∀ id session,
      task = .interruptContext id (some session) → session.id = id := by
  refine g.step_tasks (P := fun task => ∀ id session,
    task = .interruptContext id (some session) → session.id = id) i h.bases ?_
  intro old task _ hs id session heq
  subst heq
  generalize htask : Task.interruptContext id (some session) = task at hs
  cases hs with
  | plain hp =>
    rw [← htask] at hp
    cases hp
  | interruptContext id' =>
    simp only [Task.interruptContext.injEq] at htask
    obtain ⟨rfl,hget⟩ := htask
    exact g.store.keyed id session hget.symm
  | _ => cases htask

theorem passes (h : Rest s tr g) {i : Input} {g₀ : Server} {out : Server × List GatewayEvent}
    (hstep : g.step i = out) (hp : Passes s (cancelled s (tr ++ out.2)) g₀ out)
    (hcalm : g₀.store = g.store) (hgate : g₀.turnGate = g.turnGate)
    (hgenerations : g₀.generations = g.generations) (htasks : ∀ task ∈ g₀.tasks, task ∈ g.tasks) :
    Rest s (tr ++ out.2) out.1 := by
  have hbefore : cancelled s (tr ++ out.2) = true → cancelled s tr = true :=
    fun hw => (cancelled_of_append hp.events hw).1
  refine ⟨?_,?_,?_,?_⟩
  · intro hw
    refine hp.keeps.record hw ?_
    rw [Server.Calm,hcalm]
    exact h.record (hbefore hw)
  · intro hw hmem
    have hold := hp.keeps.gate hw hmem
    rw [hgate] at hold
    exact h.gate (hbefore hw) hold
  · intro task htask n hn
    rcases hp.keeps.runs task htask with hold | hnew
    · have hbound := h.runs task (htasks task hold) n hn
      have hgeneration := hp.keeps.generation
      simp only [Server.generation,hgenerations] at hgeneration hbound ⊢
      have hle : (cancelled s (tr ++ out.2)).toNat ≤ (cancelled s tr).toNat := by
        cases hw : cancelled s (tr ++ out.2) with
        | false => simp
        | true => rw [hbefore hw]
      omega
    · exact hnew n hn
  · rw [← hstep]
    exact h.bases_step i

theorem interrupted (h : Rest s tr g) (now k : Nat) (base : GatewaySession) (hbase : base.id = s)
    (hbases : ∀ task ∈ ((g.finishTask k).settleInterruptedSession now s base).tasks,
      ∀ id session, task = .interruptContext id (some session) → session.id = id) :
    Rest s (tr ++ [GatewayEvent.interrupted s])
      ((g.finishTask k).settleInterruptedSession now s base) := by
  obtain ⟨hcalm,hgate⟩ := (g.finishTask k).settleInterruptedSession_calm now s base hbase
  refine ⟨fun _ => hcalm,fun _ => hgate,?_,hbases⟩
  intro task htask n hn
  rw [Server.settleInterruptedSession_tasks] at htask
  have hbound := h.runs task (List.mem_of_mem_eraseIdx htask) n hn
  have hsettle : Undisturbed s false ((g.finishTask k).beginRun s)
      ((g.finishTask k).settleInterruptedSession now s base) :=
    (g.finishTask k).settleInterruptedSession_keeps now s base (by simp) hbase
  have hgeneration := hsettle.generation
  have hnext : ((g.finishTask k).beginRun s).generation s = g.generation s+1 := by
    simp [Server.generation,Server.finishTask,OrdMap.get_set]
  rw [hnext] at hgeneration
  simp only [cancelled_snoc,if_true,Bool.toNat_true]
  omega

theorem resume (h : Rest s tr g) (now k : Nat) (o : Outcome) {task : Task}
    (htask : g.tasks[k]? = some task) (hok : cancelled s tr = true → s ∉ task.rouses g now o) :
    Rest s (tr ++ ((g.finishTask k).resume now o task).2) ((g.finishTask k).resume now o task).1 := by
  have hmem : task ∈ g.tasks := List.mem_of_getElem? htask
  have hstep : g.step (.proceed now k o) = (g.finishTask k).resume now o task := by
    simp only [Server.step,htask]
  have hbase := h.bases task hmem
  by_cases hself : ∃ session, task = .interruptContext s session
  · obtain ⟨session,rfl⟩ := hself
    have hbases := h.bases_step (.proceed now k o)
    rw [hstep] at hbases
    simp only [Server.resume,Server.interruptContext] at hbases ⊢
    split at hbases
    · simp only [List.append_nil]
      exact ⟨h.record,h.gate,fun other hother => h.runs other (List.mem_of_mem_eraseIdx hother),hbases⟩
    · rename_i base hsome
      refine h.interrupted now k base ?_ hbases
      refine Server.interruptBase_id o s ?_ hsome
      rintro x rfl
      exact hbase s x rfl
  · have hother : ∀ id session, task = .interruptContext id session → id ≠ s := by
      rintro id session heq rfl
      exact hself ⟨session,heq⟩
    -- the events of the segment first: they decide whether the session is still cancelled
    have hevents : GatewayEvent.interrupted s ∉ ((g.finishTask k).resume now o task).2 := by
      refine (Server.resume_passes (w := false) (g.finishTask k) now o task (by simp) ?_ (by simp)
        hother hbase).events
      intro n hn
      exact (Nat.le_add_right _ _).trans (h.runs task hmem n hn)
    have hbefore : cancelled s (tr ++ ((g.finishTask k).resume now o task).2) = true →
        cancelled s tr = true ∧
          ∀ n, GatewayEvent.accepted s n ∉ ((g.finishTask k).resume now o task).2 :=
      fun hw => cancelled_of_append hevents hw
    have hpasses : Passes s (cancelled s (tr ++ ((g.finishTask k).resume now o task).2))
        (g.finishTask k) ((g.finishTask k).resume now o task) := by
      refine Server.resume_passes (g.finishTask k) now o task ?_ ?_ ?_ hother hbase
      · exact fun hw => hok (hbefore hw).1
      · intro n hn
        have hbound := h.runs task hmem n hn
        cases hw : cancelled s (tr ++ ((g.finishTask k).resume now o task).2) with
        | false => exact (Nat.le_add_right _ _).trans hbound
        | true =>
          rw [(hbefore hw).1] at hbound
          exact hbound
      · exact fun hw => (hbefore hw).2
    exact h.passes hstep hpasses rfl rfl rfl fun _ hold => List.mem_of_mem_eraseIdx hold

theorem step (h : Rest s tr g) {i : Input} (hok : leavesCancelled s tr g i = true) :
    Rest s (tr ++ (g.step i).2) (g.step i).1 := by
  cases i with
  | request now q =>
    have hevents : GatewayEvent.interrupted s ∉ (g.receive now q).2 :=
      (Server.receive_passes (w := false) g now q (by simp) (by simp)).events
    refine h.passes rfl ?_ rfl rfl rfl (fun _ hold => hold)
    refine g.receive_passes now q ?_ (fun hw => (cancelled_of_append hevents hw).2)
    rintro event rfl hw
    simp only [leavesCancelled,decide_eq_true_eq] at hok
    exact hok (cancelled_of_append hevents hw).1
  | proceed now k o =>
    simp only [leavesCancelled] at hok
    cases htask : g.tasks[k]? with
    | none =>
      simp only [Server.step,htask,List.append_nil]
      exact h
    | some task =>
      simp only [htask,decide_eq_true_eq] at hok
      simp only [Server.step,htask]
      exact h.resume now k o htask hok

end Rest

/-- In every run whose steps leave a cancelled session alone, it stays settled with its place
in the gate free until its next turn is accepted. -/
theorem cancelled_settled {s : String} {tr : List GatewayEvent} {g : Server}
    (hr : gateway.Run (fun tr g i => leavesCancelled s tr g i = true) tr g)
    (hc : cancelled s tr = true) :
    (∀ session ∈ g.store.getSession s,
      session.status.live = false ∧ session.activeTurnId.join = none) ∧ s ∉ g.turnGate := by
  have hrest : Rest s tr g := by
    apply hr.invariant (P := Rest s)
    · rintro g rfl
      exact ⟨by simp [cancelled],by simp [cancelled],by simp,by simp⟩
    · intro tr g i h hok
      exact h.step hok
  refine ⟨?_,hrest.gate hc⟩
  intro session hsession
  simpa [GatewaySession.settled] using hrest.record hc session hsession

namespace Sample

/-- A turn is interrupted; its status and completion arrive late, and its `turn/start` too. -/
def lateNotifications : List Input :=
  importSession "t" ++ [Input.request 2 (.postTurns "t" none none false),.proceed 2 0 {},
    .proceed 2 0 {},.request 3 (.postInterrupt "t"),.proceed 4 1 {},
    .proceed 5 0 { id := some "turn-1" },.request 6 (.codex (.threadStatusChanged "t" (some "running"))),
    .request 7 (.codex (.turnCompleted "t" (some "completed") (some 0)))]

/-- The session is interrupted while its first `turn/start` is under way. -/
def interruptedCreation : List Input :=
  [.request 0 (.postSessions none .confirm false),.proceed 1 0 { id := some "t" },.proceed 2 0 {},
    .request 3 (.postInterrupt "t"),.proceed 4 1 {},.proceed 5 0 { id := some "turn-1" }]

/-- An approval request arrives after the interrupt. -/
def lateApproval : List Input :=
  importSession "t" ++ runTurn "t" "a" 2 none ++ [Input.request 3 (.postInterrupt "t"),
    .proceed 4 0 {},.request 5 (.codex (.approvalRequested "t"))]

end Sample

theorem lateNotifications_settled :
    cancelled "t" (gateway.exec [] {} Sample.lateNotifications).1 = true ∧
    ((gateway.exec [] {} Sample.lateNotifications).2.store.getSession "t").isSome ∧
    (∀ session ∈ (gateway.exec [] {} Sample.lateNotifications).2.store.getSession "t",
      session.status.live = false ∧ session.activeTurnId.join = none) ∧
    "t" ∉ (gateway.exec [] {} Sample.lateNotifications).2.turnGate := by
  have hrun : gateway.Run (fun tr g i => leavesCancelled "t" tr g i = true) [] {} := .start rfl
  have hcancelled : cancelled "t" (gateway.exec [] {} Sample.lateNotifications).1 = true := by
    decide
  refine ⟨hcancelled,by decide,?_⟩
  exact cancelled_settled (hrun.exec Sample.lateNotifications (by decide)) hcancelled

/-- The continuation of the creation marks the interrupted session running again, and so does
a late approval request. -/
theorem interruptedCreation_not_settled :
    (gateway.Run gateway.free (gateway.exec [] {} Sample.interruptedCreation).1
        (gateway.exec [] {} Sample.interruptedCreation).2 ∧
      cancelled "t" (gateway.exec [] {} Sample.interruptedCreation).1 = true ∧
      ¬∀ session ∈ (gateway.exec [] {} Sample.interruptedCreation).2.store.getSession "t",
        session.status.live = false ∧ session.activeTurnId.join = none) ∧
    gateway.Run gateway.free (gateway.exec [] {} Sample.lateApproval).1
        (gateway.exec [] {} Sample.lateApproval).2 ∧
      cancelled "t" (gateway.exec [] {} Sample.lateApproval).1 = true ∧
      ¬∀ session ∈ (gateway.exec [] {} Sample.lateApproval).2.store.getSession "t",
        session.status.live = false ∧ session.activeTurnId.join = none := by
  have hrun : gateway.Run gateway.free [] {} := .start rfl
  refine ⟨⟨hrun.exec _ (gateway.allowed_free _ _ _),by decide,by decide +kernel⟩,
    hrun.exec _ (gateway.allowed_free _ _ _),by decide,by decide +kernel⟩

end CodeHarbor.Gateway
