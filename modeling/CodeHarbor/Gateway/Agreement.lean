import CodeHarbor.Gateway.Effects
set_option autoImplicit false

namespace CodeHarbor.Gateway
open Lib Bridge

/-- The bridge is not more permissive about the thread than its stored record shows. -/
def Agrees (t : String) (g : Server) : Prop :=
  g.policyByThread.get t = some .fullAccess →
    ∀ session, g.store.getSession t = some session → session.sessionPolicyMode = .fullAccess

theorem agrees_iff {t : String} {g : Server} :
    Agrees t g ↔
      (g.policyByThread.get t = some .fullAccess → g.store.mode t ≠ some .confirm) := by
  unfold Agrees GatewayStore.mode GatewayStore.view
  cases g.store.getSession t with
  | none => simp
  | some session => cases hmode : session.sessionPolicyMode <;> simp [hmode]

/-- The policy a segment remembers without storing it. -/
def Task.remembers (o : Outcome) : Task → Option (String × SessionPolicyMode)
  | .createModel id mode _ | .apiThreadModel id mode _ | .turnModel id mode _ _
  | .forkAudit id mode _ => if o.ok then some (id,mode) else none
  | .resumeContext id mode _ stored =>
    if o.ok ∧ (stored ∨ (findThreadSummary o.threads id).isSome) then some (id,mode) else none
  | _ => none

/-- The records a segment stores without telling the bridge. -/
def Task.stores (g : Server) (now : Nat) (o : Outcome) : Task → List GatewaySession
  | .createThread _ mode _ =>
    match Server.startedThread o with
    | some id => [Server.createdSession id now mode]
    | none => []
  | .patchAudit session => if o.ok ∧ ¬ g.ignores session then [session] else []
  | .interruptContext id session => (Server.interruptBase o id session).toList
  | .apiTurnStart _ _ _ thread _ => if o.ok then [threadToSession thread (some .running)] else []
  | .interjectSteer id _ _ thread => if o.ok then [g.interjected now id thread] else []
  | .forkThread _ mode _ =>
    match Server.forkedChild o with
    | none => []
    | some child =>
      let session := threadToSession child (some .starting)
      if g.ignores session then [{ session with sessionPolicyMode := mode }] else [session]
  | .importThread id =>
    if o.ok then ((findThreadSummary o.threads id).map (threadToSession · none)).toList else []
  | .coldImport => o.threads.map g.importedSession
  | _ => []

/-- Full access for the thread is not remembered over a record that says `confirm`, and no
record that says `confirm` is stored under a bridge that remembers full access. -/
def keepsAgreement (t : String) (g : Server) : Input → Bool
  | .request _ _ => true
  | .proceed now k o =>
    match g.tasks[k]? with
    | none => true
    | some task =>
      (task.remembers o = some (t,.fullAccess) → g.store.mode t ≠ some .confirm) ∧
      ∀ x ∈ task.stores g now o, x.id = t → x.sessionPolicyMode = .confirm →
        g.policyByThread.get t ≠ some .fullAccess

section rules

variable {t : String} {g g' : Server}

theorem Agrees.same (h : Agrees t g) (hs : Same g g') : Agrees t g' := by
  rw [agrees_iff] at *
  intro hp
  rw [hs.policy] at hp
  rw [hs.mode]
  exact h hp

theorem Agrees.stored (h : Agrees t g) (hp : g'.policyByThread = g.policyByThread)
    (hm : g'.store.mode t = g.store.mode t ∨ g'.store.mode t ≠ some .confirm ∨
      g.policyByThread.get t ≠ some .fullAccess) : Agrees t g' := by
  rw [agrees_iff] at *
  intro hfull
  rw [hp] at hfull
  rcases hm with hm | hm | hm
  · rw [hm]
    exact h hfull
  · exact hm
  · exact absurd hfull hm

theorem Agrees.remembered {id : String} {m : SessionPolicyMode} (h : Agrees t g)
    (hp : g'.policyByThread = Bridge.rememberPolicy g.policyByThread id m)
    (hother : id ≠ t → g'.store.mode t = g.store.mode t)
    (hself : id = t → m = .fullAccess → g'.store.mode t ≠ some .confirm) : Agrees t g' := by
  rw [agrees_iff] at *
  intro hfull
  rw [hp] at hfull
  by_cases hid : id = t
  · subst hid
    rw [get_rememberPolicy_self,Option.some.injEq] at hfull
    exact hself rfl hfull
  · rw [hother hid]
    exact h (get_of_get_rememberPolicy (Ne.symm hid) hfull)

theorem Agrees.accepted {id : String} {r : Option RequestId} {policy : SessionPolicyMode}
    {confirmed : Bool} {copy : Option (List RequestId)} {out : Server × List GatewayEvent}
    (h : Agrees t g) (ha : AcceptedTurn g id r policy confirmed copy out) : Agrees t out.1 := by
  refine h.remembered ha.policies ?_ ?_
  · intro hid
    rw [ha.modes,if_neg (Ne.symm hid)]
  · intro hid hfull
    rw [ha.modes,if_pos hid.symm,hfull]
    simp

theorem Agrees.receive (h : Agrees t g) (now : Nat) (q : Request) :
    Agrees t (g.receive now q).1 := by
  cases q with
  | postTurns id r mode confirmed =>
    rcases g.postTurns_spec now id r confirmed mode with hq | ⟨policy,ha,-⟩
    · exact h.same hq.same
    · exact h.accepted ha
  | getThreads ids =>
    obtain ⟨hstore,hpolicy,-⟩ := g.listing_frame now ids
    exact h.stored hpolicy (.inl (by simp only [Server.receive,hstore]))
  | deleteSession id =>
    refine h.stored rfl ?_
    simp only [Server.receive,GatewayStore.mode_deleteSession]
    by_cases hid : t = id
    · simp [hid]
    · simp [hid]
  | codex event =>
    obtain ⟨hpolicy,-,hmode,-⟩ := g.codexEvent_frame now event
    exact h.stored hpolicy (.inl (hmode t))
  | _ => exact h.same (g.receive_quiet now rfl).same

theorem Agrees.storesOne {x : GatewaySession} (h : Agrees t g)
    (hp : g'.policyByThread = g.policyByThread)
    (hm : g'.store.mode t = if t = x.id then some x.sessionPolicyMode else g.store.mode t)
    (hx : x.id = t → x.sessionPolicyMode = .confirm →
      g.policyByThread.get t ≠ some .fullAccess) : Agrees t g' := by
  refine h.stored hp ?_
  by_cases hid : t = x.id
  · rw [hm,if_pos hid]
    cases hmode : x.sessionPolicyMode with
    | confirm => exact .inr (.inr (hx hid.symm hmode))
    | fullAccess => exact .inr (.inl (by simp))
  · rw [if_neg hid] at hm
    exact .inl hm

theorem Agrees.resume (h : Agrees t g) (now : Nat) {o : Outcome} {task : Task}
    (hr : task.remembers o = some (t,.fullAccess) → g.store.mode t ≠ some .confirm)
    (hs : ∀ x ∈ task.stores g now o, x.id = t → x.sessionPolicyMode = .confirm →
      g.policyByThread.get t ≠ some .fullAccess) : Agrees t (g.resume now o task).1 := by
  -- a segment that remembers a policy and leaves the records alone
  have hremember : ∀ id m g', task.remembers o = some (id,m) →
      g'.policyByThread = Bridge.rememberPolicy g.policyByThread id m →
      g'.store.mode t = g.store.mode t → Agrees t g' := by
    intro id m g' htask hp hm
    refine h.remembered hp (fun _ => hm) ?_
    rintro rfl rfl
    rw [hm]
    exact hr htask
  -- a segment that renews the policy in force
  have hrenew : ∀ id g', g'.policyByThread =
      Bridge.rememberPolicy g.policyByThread id (g.policyMode id) →
      g'.store.mode t = g.store.mode t → Agrees t g' := by
    intro id g' hp hm
    refine h.remembered hp (fun _ => hm) ?_
    rintro rfl hfull
    rw [hm]
    apply agrees_iff.mp h
    simp only [Server.policyMode,Bridge.policyMode] at hfull
    cases hget : g.policyByThread.get id with
    | none => simp [hget] at hfull
    | some m => simpa [hget] using hfull
  by_cases hquiet : task.quiet o = true
  · exact h.same (g.resume_quiet now hquiet).same
  by_cases hfailed : ∃ start, task.failed o = some start
  · obtain ⟨start,hstart⟩ := hfailed
    have hspec := g.resume_failed now start.1 start.2 hstart
    exact h.stored hspec.policy (.inl (hspec.mode t))
  cases task with
  | createThread r mode confirmed =>
    simp only [Server.resume,Server.createThread]
    simp only [Task.stores] at hs
    split
    · exact h.stored (by simp) (.inl (by simp))
    · rename_i id hid
      split_ifs
      · exact h.stored (by simp) (.inl (by simp))
      · rw [hid] at hs
        exact h.storesOne (by simp) (g.openCreated_mode now id r mode confirmed t)
          (hs _ (List.mem_singleton.mpr rfl))
  | createModel id mode turn =>
    simp only [Server.resume,Server.createModel]
    split_ifs with hok
    · exact hremember id mode _ (by simp [Task.remembers,hok]) rfl rfl
    · simp [Task.failed,hok] at hfailed
  | apiThreadStart mode confirmed =>
    simp only [Server.resume,Server.apiThreadStart]
    split
    · exact h
    · exact h.stored rfl (.inl rfl)
  | apiThreadModel id mode turn =>
    simp only [Server.resume,Server.apiThreadModel]
    split_ifs with hok
    · exact hremember id mode _ (by simp [Task.remembers,hok]) rfl rfl
    · exact h
  | patchContext id mode confirmed existing =>
    rcases g.patchContext_spec now o id mode confirmed existing with hq | ⟨-,-,session,heq⟩
    · exact h.same hq.same
    · simp only [Server.resume,heq]
      refine h.remembered rfl ?_ ?_
      · intro hid
        exact (g.setMode_mode now id mode t).trans (if_neg (Ne.symm hid))
      · rintro rfl rfl
        have hmode := (g.setMode_mode now id .fullAccess id).trans (if_pos rfl)
        simp only [Server.suspend_store,hmode]
        cases g.store.mode id <;> simp
  | patchAudit session =>
    simp only [Server.resume,Server.patchAudit]
    split_ifs with hok
    · by_cases hi : g.ignores session
      · refine h.stored (by simp) (.inl ?_)
        simp [Server.broadcastGateway_mode,hi]
      · refine h.storesOne (x := session) (by simp) ?_ (hs session (by simp [Task.stores,hok,hi]))
        simp [Server.broadcastGateway_mode,hi]
    · exact h
  | resumeContext id mode confirmed stored =>
    simp only [Server.resume,Server.resumeContext]
    split_ifs with hok
    · exact hremember id mode _ (by simp [Task.remembers,hok]) rfl rfl
    · exact h
  | resumeThread id mode =>
    rcases g.resumeThread_spec now o id mode with hq | ⟨hp,hm,-⟩
    · exact h.same hq
    · refine h.remembered hp ?_ ?_
      · intro hid
        exact (hm t).trans ((g.setMode_mode now id mode t).trans (if_neg (Ne.symm hid)))
      · rintro rfl rfl
        have hmode := (hm id).trans ((g.setMode_mode now id .fullAccess id).trans (if_pos rfl))
        simp only [Server.resume,hmode]
        cases g.store.mode id <;> simp
  | turnLookup id r mode confirmed receivedAt =>
    rcases g.turnLookup_spec now receivedAt id r confirmed o mode with hq | ⟨policy,ha,-⟩
    · exact h.same hq.same
    · exact h.accepted ha
  | turnModel id policy generation turn =>
    simp only [Server.resume,Server.turnModel]
    split_ifs with hok
    · exact hremember id policy _ (by simp [Task.remembers,hok]) rfl rfl
    all_goals simp [Task.failed,hok] at hfailed
  | apiTurnLookup id r last =>
    simp only [Server.resume,Server.apiTurnLookup]
    split
    · exact h.stored (by simp) (.inl (by simp))
    · split
      · exact h.stored (by simp) (.inl (by simp))
      · exact h.stored (by simp) (.inl (by simp))
      · exact hrenew id _ rfl rfl
  | apiTurnModel id r last thread turn => exact hrenew id _ rfl rfl
  | apiTurnStart id r last thread turn =>
    by_cases hok : o.ok = true
    · obtain ⟨hp,-,hm,-⟩ := g.apiTurnStart_spec now o id r last thread turn hok
      refine h.storesOne (x := threadToSession thread (some .running)) hp (hm t) (hs _ ?_)
      simp [Task.stores,hok]
    · simp [Task.failed,hok] at hfailed
  | interjectSteer id r turnId thread =>
    by_cases hok : o.ok = true
    · obtain ⟨hp,-,hm,-⟩ := g.interjectSteer_spec now o id r turnId thread hok
      exact h.storesOne hp (hm t) (hs _ (by simp [Task.stores,hok]))
    · simp only [Server.resume,Server.interjectSteer,hok]
      exact h.stored (by simp) (.inl (by simp))
  | interruptContext id session =>
    simp only [Server.resume,Server.interruptContext]
    split
    · exact h
    · rename_i base hbase
      exact h.storesOne (by simp) (g.settleInterruptedSession_mode now id base t)
        (hs base (by simp [Task.stores,hbase]))
  | forkAudit id mode confirmed =>
    simp only [Server.resume,Server.forkAudit]
    split_ifs with hok
    · exact hremember id mode _ (by simp [Task.remembers,hok]) rfl rfl
    · exact h
  | forkThread id mode confirmed =>
    cases hchild : Server.forkedChild o with
    | none =>
      simp only [Server.resume,Server.forkThread,hchild]
      exact h
    | some child =>
      obtain ⟨hp,-,hm,-⟩ := g.forkThread_spec now o id mode confirmed hchild
      by_cases hi : g.ignores (threadToSession child (some .starting))
      · refine h.storesOne hp ((hm t).trans (by rw [if_pos hi]; rfl)) (hs
          { threadToSession child (some .starting) with sessionPolicyMode := mode } ?_)
        simp [Task.stores,hchild,hi]
      · refine h.storesOne hp ((hm t).trans (by rw [if_neg hi]; rfl)) (hs
          (threadToSession child (some .starting)) ?_)
        simp [Task.stores,hchild,hi]
  | importThread id =>
    simp only [Server.resume,Server.importThread]
    split
    · exact h
    · rename_i thread hthread
      refine h.storesOne rfl (GatewayStore.mode_upsertSession _ _ t) (hs _ ?_)
      by_cases hok : o.ok = true
      · simp [hok] at hthread
        simp [Task.stores,hok,hthread]
      · simp [hok] at hthread
  | coldImport =>
    refine h.stored rfl ?_
    rcases g.store.mode_upsertSessions (o.threads.map g.importedSession) t with hm | ⟨x,hx,hid,hm⟩
    · exact .inl hm
    · refine .inr (.inr (hs x hx hid ?_))
      obtain ⟨thread,-,rfl⟩ := List.mem_map.mp hx
      rfl
  | createTurn id turn => simp_all [Task.quiet,Task.failed]
  | turnPrepare id policy generation turn => simp_all [Task.quiet,Task.failed]
  | turnStart id generation turn => simp_all [Task.quiet,Task.failed]
  | apiTurnPrepare id r last thread turn => simp_all [Task.quiet,Task.failed]
  | apiThreadTurn id turn => simp_all [Task.quiet,Task.failed]
  | _ => exact absurd rfl hquiet

end rules

theorem Agrees.step {t : String} {g : Server} (h : Agrees t g) {i : Input}
    (hok : keepsAgreement t g i = true) : Agrees t (g.step i).1 := by
  cases i with
  | request now q => exact h.receive now q
  | proceed now k o =>
    simp only [Server.step]
    simp only [keepsAgreement] at hok
    cases htask : g.tasks[k]? with
    | none => exact h
    | some task =>
      simp only [htask,decide_eq_true_eq] at hok
      have hfinish : Agrees t (g.finishTask k) := h
      exact hfinish.resume now hok.1 hok.2

/-- In every run whose steps keep the two copies of the thread's mode apart from conflict,
the bridge is never more permissive than the record. -/
theorem agrees_run {t : String} {tr : List GatewayEvent} {g : Server}
    (hr : gateway.Run (fun _ g i => keepsAgreement t g i = true) tr g) : Agrees t g := by
  apply hr.invariant (P := fun _ g => Agrees t g)
  · rintro g rfl hfull
    simp at hfull
  · intro tr g i h hok
    exact h.step hok

namespace Sample

/-- A thread with full access is imported once more. -/
def thenImported : List Input :=
  fullAccessSession ++ [Input.request 3 (.postImport "t"),
    .proceed 4 1 { threads := [⟨"t","idle",0⟩] }]

end Sample

theorem fullAccessSession_agrees :
    (gateway.exec [] {} Sample.fullAccessSession).2.policyByThread.get "t" = some .fullAccess ∧
    Agrees "t" (gateway.exec [] {} Sample.fullAccessSession).2 := by
  have hrun : gateway.Run (fun _ g i => keepsAgreement "t" g i = true) [] {} := .start rfl
  exact ⟨by decide,
    agrees_run (hrun.exec Sample.fullAccessSession (by decide))⟩

/-- The import rebuilds the record with the default mode while the bridge goes on to accept
without asking. -/
theorem thenImported_not_agrees :
    gateway.Run gateway.free (gateway.exec [] {} Sample.thenImported).1
      (gateway.exec [] {} Sample.thenImported).2 ∧
    ¬ Agrees "t" (gateway.exec [] {} Sample.thenImported).2 := by
  have hrun : gateway.Run gateway.free [] {} := .start rfl
  refine ⟨hrun.exec _ (gateway.allowed_free _ _ _),?_⟩
  intro h
  exact agrees_iff.mp h (by decide) (by decide +kernel)

end CodeHarbor.Gateway
