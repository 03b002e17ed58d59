import CodeHarbor.Gateway.Tasks
set_option autoImplicit false

namespace CodeHarbor.Gateway
open Lib Bridge

/-- The mode an accepted request asks for the thread: one that names the thread or one that
made it. A fork asks nothing for the thread it copies. -/
def GatewayEvent.modeOf (t : String) : GatewayEvent → Option SessionPolicyMode
  | .modeRequested id mode _ => if id = t then some mode else none
  | _ => none

/-- Some accepted request asked full access for the thread and confirmed it, and none after
it asked for `confirm`. -/
def Confirmed (t : String) (tr : List GatewayEvent) : Prop :=
  ∃ pre post, tr = pre ++ GatewayEvent.modeRequested t .fullAccess true :: post ∧
    ∀ e ∈ post, e.modeOf t ≠ some .confirm

/-- The bridge accepts for the thread without asking only where that was confirmed. -/
def OnlyConfirmed (t : String) (tr : List GatewayEvent) (g : Server) : Prop :=
  g.policyByThread.get t = some .fullAccess → Confirmed t tr

/-- The mode the thread was last asked to have. -/
def lastMode (t : String) (tr : List GatewayEvent) : Option SessionPolicyMode :=
  tr.reverse.findSome? (GatewayEvent.modeOf t)

/-- The continuation remembers full access for the thread without a confirmation of its
own: on an earlier decision, on a record read before an await, or for a fork. -/
def Task.reusesFull (t : String) (o : Outcome) : Task → Bool
  | .createModel id mode _ | .apiThreadModel id mode _ | .turnModel id mode _ _
  | .forkAudit id mode _ | .resumeThread id mode => o.ok && id = t && mode = .fullAccess
  | .patchContext id mode confirmed existing =>
    o.ok && id = t && mode = .fullAccess && !confirmed && existing.sessionPolicyMode = .fullAccess
  | .resumeContext id mode confirmed _ => o.ok && id = t && mode = .fullAccess && !confirmed
  | _ => false

def Task.opensConfirm (t : String) (o : Outcome) : Task → Bool
  | .createThread _ mode _ | .apiThreadStart mode _ =>
    Server.startedThread o = some t && mode = .confirm
  | .forkThread _ mode _ => (Server.forkedChild o).any (·.id = t) && mode = .confirm
  | _ => false

/-- Full access is reused only while it is what the thread was last asked to have, and the
app-server opens no thread under an id that has full access already. -/
def reusesRightly (t : String) (tr : List GatewayEvent) (g : Server) : Input → Bool
  | .request _ (.postTurns id _ mode confirmed) =>
    (id = t ∧ id ∉ g.turnGate ∧ confirmed = false ∧ mode ≠ some .confirm ∧
      g.store.mode t = some .fullAccess) → lastMode t tr = some .fullAccess
  | .request _ _ => true
  | .proceed _ k o =>
    match g.tasks[k]? with
    | none => true
    | some task =>
      (task.reusesFull t o = true → lastMode t tr = some .fullAccess) ∧
      (task.opensConfirm t o = true → g.policyByThread.get t ≠ some .fullAccess)

def Task.Checked : Task → Prop
  | .createThread _ m c | .apiThreadStart m c | .forkAudit _ m c | .forkThread _ m c =>
    m = .fullAccess → c = true
  | _ => True

/-- What a guarded run keeps: the bridge has full access only as last asked, and that was
confirmed. -/
structure Asked (t : String) (tr : List GatewayEvent) (g : Server) : Prop where
  policy : g.policyByThread.get t = some .fullAccess → lastMode t tr = some .fullAccess
  confirmed : lastMode t tr = some .fullAccess → Confirmed t tr

def Silent (t : String) (es : List GatewayEvent) : Prop := ∀ e ∈ es, e.modeOf t = none

section traces

variable {t : String} {tr es : List GatewayEvent}

theorem lastMode_append (h : Silent t es) : lastMode t (tr ++ es) = lastMode t tr := by
  have hnone : es.reverse.findSome? (GatewayEvent.modeOf t) = none := by
    rw [List.findSome?_eq_none_iff]
    intro e he
    exact h e (List.mem_reverse.mp he)
  simp [lastMode,List.findSome?_append,hnone]

theorem lastMode_requested {pre : List GatewayEvent} (h : Silent t es) (m : SessionPolicyMode)
    (c : Bool) : lastMode t (tr ++ (pre ++ GatewayEvent.modeRequested t m c :: es)) = some m := by
  have hsplit : tr ++ (pre ++ GatewayEvent.modeRequested t m c :: es) =
      (tr ++ pre ++ [GatewayEvent.modeRequested t m c]) ++ es := by simp
  rw [hsplit,lastMode_append h]
  simp [lastMode,GatewayEvent.modeOf]

theorem Confirmed.append (h : Confirmed t tr) (hes : ∀ e ∈ es, e.modeOf t ≠ some .confirm) :
    Confirmed t (tr ++ es) := by
  obtain ⟨pre,post,rfl,hpost⟩ := h
  refine ⟨pre,post ++ es,by simp,?_⟩
  intro e he
  rcases List.mem_append.mp he with he | he
  · exact hpost e he
  · exact hes e he

theorem Confirmed.lastMode (h : Confirmed t tr) : lastMode t tr = some .fullAccess := by
  obtain ⟨pre,post,rfl,hpost⟩ := h
  cases hfound : post.reverse.findSome? (GatewayEvent.modeOf t) with
  | none => simp [Gateway.lastMode,List.findSome?_append,hfound,GatewayEvent.modeOf]
  | some m =>
    obtain ⟨e,he,hm⟩ := List.exists_of_findSome?_eq_some hfound
    have hne := hpost e (List.mem_reverse.mp he)
    cases m with
    | confirm => exact absurd hm hne
    | fullAccess => simp [Gateway.lastMode,List.findSome?_append,hfound]

theorem Silent.not_confirm (h : Silent t es) : ∀ e ∈ es, e.modeOf t ≠ some .confirm := by
  intro e he
  rw [h e he]
  simp

theorem silent_remembered (t id : String) (newTurn : Bool) (r : Option RequestId) :
    Silent t (Server.rememberedEvents id newTurn r) := by
  cases r <;> simp [Silent,Server.rememberedEvents,GatewayEvent.modeOf]

theorem silent_requested {id : String} (hid : id ≠ t) (m : SessionPolicyMode) (c : Bool)
    {pre : List GatewayEvent} (hpre : Silent t pre) (hes : Silent t es) :
    Silent t (pre ++ GatewayEvent.modeRequested id m c :: es) := by
  intro e he
  rcases List.mem_append.mp he with he | he
  · exact hpre e he
  · rcases List.mem_cons.mp he with rfl | he
    · simp [GatewayEvent.modeOf,hid]
    · exact hes e he

theorem Quiet.silent {g : Server} {out : Server × List GatewayEvent} (h : Quiet g out)
    (t : String) : Silent t out.2 := by
  intro e he
  have hdup := h.events e he
  cases e <;> first | rfl | simp [GatewayEvent.isDuplicate] at hdup

end traces

section rules

variable {t : String} {tr : List GatewayEvent} {g g' : Server}

theorem Asked.silent {es : List GatewayEvent} (h : Asked t tr g) (hes : Silent t es)
    (hp : g'.policyByThread.get t = some .fullAccess →
      g.policyByThread.get t = some .fullAccess ∨ lastMode t tr = some .fullAccess) :
    Asked t (tr ++ es) g' := by
  constructor
  · intro hfull
    rw [lastMode_append hes]
    rcases hp hfull with hold | hlast
    · exact h.policy hold
    · exact hlast
  · intro hlast
    rw [lastMode_append hes] at hlast
    exact (h.confirmed hlast).append hes.not_confirm

theorem Asked.requested {m : SessionPolicyMode} {c : Bool} (h : Asked t tr g)
    (pre post : List GatewayEvent) (hpre : Silent t pre) (hpost : Silent t post)
    (hp : g'.policyByThread.get t = some .fullAccess → m = .fullAccess)
    (hm : m = .fullAccess → c = true ∨ lastMode t tr = some .fullAccess) :
    Asked t (tr ++ (pre ++ GatewayEvent.modeRequested t m c :: post)) g' := by
  constructor
  · intro hfull
    rw [lastMode_requested hpost,hp hfull]
  · intro hlast
    rw [lastMode_requested hpost,Option.some.injEq] at hlast
    subst hlast
    rcases hm rfl with rfl | hlast
    · exact ⟨tr ++ pre,post,by simp,hpost.not_confirm⟩
    · apply (h.confirmed hlast).append
      intro e he
      rcases List.mem_append.mp he with he | he
      · exact hpre.not_confirm e he
      · rcases List.mem_cons.mp he with rfl | he
        · simp [GatewayEvent.modeOf]
        · exact hpost.not_confirm e he

theorem rememberPolicy_full {id : String} {m : SessionPolicyMode}
    (h : (Bridge.rememberPolicy g.policyByThread id m).get t = some .fullAccess) :
    g.policyByThread.get t = some .fullAccess ∧ id ≠ t ∨ id = t ∧ m = .fullAccess := by
  by_cases hid : id = t
  · subst hid
    rw [get_rememberPolicy_self,Option.some.injEq] at h
    exact .inr ⟨rfl,h⟩
  · exact .inl ⟨get_of_get_rememberPolicy (Ne.symm hid) h,hid⟩

theorem Asked.accepted {id : String} {r : Option RequestId} {policy : SessionPolicyMode}
    {confirmed : Bool} {copy : Option (List RequestId)} {out : Server × List GatewayEvent}
    (h : Asked t tr g) (ha : AcceptedTurn g id r policy confirmed copy out)
    (hm : id = t → policy = .fullAccess → confirmed = true ∨ lastMode t tr = some .fullAccess) :
    Asked t (tr ++ out.2) out.1 := by
  rw [ha.events]
  have hpre : Silent t [.accepted id g.nextTurn] := by simp [Silent,GatewayEvent.modeOf]
  have hpost := silent_remembered t id true r
  by_cases hid : id = t
  · subst hid
    refine h.requested _ _ hpre hpost ?_ (hm rfl)
    intro hfull
    rw [ha.policies] at hfull
    rcases rememberPolicy_full hfull with ⟨-,hne⟩ | ⟨-,hfull⟩
    · exact absurd rfl hne
    · exact hfull
  · refine h.silent (silent_requested hid policy confirmed hpre hpost) ?_
    intro hfull
    rw [ha.policies] at hfull
    rcases rememberPolicy_full hfull with ⟨hold,-⟩ | ⟨heq,-⟩
    · exact .inl hold
    · exact absurd heq hid

theorem Asked.quiet {out : Server × List GatewayEvent} (h : Asked t tr g) (hq : Quiet g out) :
    Asked t (tr ++ out.2) out.1 := by
  refine h.silent (hq.silent t) ?_
  rw [hq.same.policy]
  exact .inl

theorem Asked.receive (h : Asked t tr g) (now : Nat) {q : Request}
    (hok : reusesRightly t tr g (.request now q) = true) :
    Asked t (tr ++ (g.receive now q).2) (g.receive now q).1 := by
  cases q with
  | postTurns id r mode confirmed =>
    rcases g.postTurns_spec now id r confirmed mode with hq | ⟨policy,ha,hfull,-⟩
    · exact h.quiet hq
    · refine h.accepted ha ?_
      rintro rfl hpolicy
      rcases hfull hpolicy with hc | ⟨hmode,hstored⟩
      · exact .inl hc
      · cases confirmed with
        | true => exact .inl rfl
        | false =>
          simp only [reusesRightly,decide_eq_true_eq] at hok
          exact .inr (hok ⟨trivial,ha.free,trivial,hmode,hstored⟩)
  | getThreads ids =>
    obtain ⟨-,hpolicy,-⟩ := g.listing_frame now ids
    refine h.silent (by simp [Silent,Server.receive]) ?_
    simp only [Server.receive,hpolicy]
    exact .inl
  | deleteSession id => exact h.silent (by simp [Silent,Server.receive]) .inl
  | codex event =>
    obtain ⟨hpolicy,-⟩ := g.codexEvent_frame now event
    refine h.silent ?_ (by simp only [Server.receive,hpolicy]; exact .inl)
    rcases g.codexEvent_events now event with he | ⟨id,-,turn,-,he⟩
    · simp [Silent,Server.receive,he]
    · simp [Silent,Server.receive,he,GatewayEvent.modeOf]
  | _ => exact h.quiet (g.receive_quiet now rfl)

theorem Asked.opened {id : String} {m : SessionPolicyMode} {c : Bool} (h : Asked t tr g)
    (pre post : List GatewayEvent) (hpre : Silent t pre) (hpost : Silent t post)
    (hp : g'.policyByThread = g.policyByThread) (hm : m = .fullAccess → c = true)
    (hnew : id = t → m = .confirm → g.policyByThread.get t ≠ some .fullAccess) :
    Asked t (tr ++ (pre ++ GatewayEvent.modeRequested id m c :: post)) g' := by
  by_cases hid : id = t
  · subst hid
    refine h.requested _ _ hpre hpost ?_ (fun hfull => .inl (hm hfull))
    intro hfull
    rw [hp] at hfull
    cases m with
    | fullAccess => rfl
    | confirm => exact absurd hfull (hnew rfl rfl)
  · refine h.silent (silent_requested hid m c hpre hpost) ?_
    rw [hp]
    exact .inl

theorem Asked.reused {es : List GatewayEvent} (h : Asked t tr g) (id : String)
    (m : SessionPolicyMode) (hes : Silent t es)
    (hp : g'.policyByThread = Bridge.rememberPolicy g.policyByThread id m)
    (hm : id = t → m = .fullAccess → lastMode t tr = some .fullAccess) : Asked t (tr ++ es) g' := by
  refine h.silent hes ?_
  intro hfull
  rw [hp] at hfull
  rcases rememberPolicy_full hfull with ⟨hold,-⟩ | ⟨hid,hfull⟩
  · exact .inl hold
  · exact .inr (hm hid hfull)

theorem Asked.set {c : Bool} (h : Asked t tr g) (id : String) (m : SessionPolicyMode)
    (hp : g'.policyByThread = Bridge.rememberPolicy g.policyByThread id m)
    (hm : id = t → m = .fullAccess → c = true ∨ lastMode t tr = some .fullAccess) :
    Asked t (tr ++ [GatewayEvent.modeRequested id m c]) g' := by
  by_cases hid : id = t
  · subst hid
    refine h.requested [] [] (by simp [Silent]) (by simp [Silent]) ?_ (hm rfl)
    intro hfull
    rw [hp] at hfull
    rcases rememberPolicy_full hfull with ⟨-,hne⟩ | ⟨-,hfull⟩
    · exact absurd rfl hne
    · exact hfull
  · exact h.reused id m (by simp [Silent,GatewayEvent.modeOf,hid]) hp (fun heq => absurd heq hid)

theorem Asked.unchanged (h : Asked t tr g) (hp : g'.policyByThread = g.policyByThread) :
    Asked t (tr ++ []) g' := by
  refine h.silent (by simp [Silent]) ?_
  rw [hp]
  exact .inl

theorem Asked.resume (h : Asked t tr g) (now : Nat) {o : Outcome} {task : Task}
    (hchecked : task.Checked)
    (hr : task.reusesFull t o = true → lastMode t tr = some .fullAccess)
    (hc : task.opensConfirm t o = true → g.policyByThread.get t ≠ some .fullAccess) :
    Asked t (tr ++ (g.resume now o task).2) (g.resume now o task).1 := by
  -- renewing the policy in force never adds full access
  have hrenew : ∀ id g' es, Silent t es →
      g'.policyByThread = Bridge.rememberPolicy g.policyByThread id (g.policyMode id) →
      Asked t (tr ++ es) g' := by
    intro id g' es hes hp
    refine h.reused id _ hes hp ?_
    rintro rfl hfull
    apply h.policy
    simp only [Server.policyMode,Bridge.policyMode] at hfull
    cases hget : g.policyByThread.get id with
    | none => simp [hget] at hfull
    | some m => simpa [hget] using hfull
  by_cases hquiet : task.quiet o = true
  · exact h.quiet (g.resume_quiet now hquiet)
  by_cases hfailed : ∃ start, task.failed o = some start
  · obtain ⟨start,hstart⟩ := hfailed
    have hspec := g.resume_failed now start.1 start.2 hstart
    rw [hspec.events]
    refine h.silent (by simp [Silent,GatewayEvent.modeOf]) ?_
    rw [hspec.policy]
    exact .inl
  cases task with
  | createThread r mode confirmed =>
    simp only [Server.resume,Server.createThread]
    split
    · exact h.unchanged (by simp)
    · rename_i id hid
      split_ifs
      · exact h.unchanged (by simp)
      · refine h.opened [.accepted id g.nextTurn] _ (by simp [Silent,GatewayEvent.modeOf])
          (silent_remembered t id false r) (by simp) hchecked ?_
        rintro rfl rfl
        exact hc (by simp [Task.opensConfirm,hid])
  | createModel id mode turn =>
    simp only [Server.resume,Server.createModel]
    split_ifs with hok
    · refine h.reused id mode (by simp [Silent]) rfl ?_
      rintro rfl rfl
      exact hr (by simp [Task.reusesFull,hok])
    · simp [Task.failed,hok] at hfailed
  | apiThreadStart mode confirmed =>
    simp only [Server.resume,Server.apiThreadStart]
    split
    · exact h.unchanged rfl
    · rename_i id hid
      refine h.opened [.accepted id g.nextTurn] []
        (by simp [Silent,GatewayEvent.modeOf]) (by simp [Silent]) rfl hchecked ?_
      rintro rfl rfl
      exact hc (by simp [Task.opensConfirm,hid])
  | apiThreadModel id mode turn =>
    simp only [Server.resume,Server.apiThreadModel]
    split_ifs with hok
    · refine h.reused id mode (by simp [Silent]) rfl ?_
      rintro rfl rfl
      exact hr (by simp [Task.reusesFull,hok])
    · simp [Task.failed,hok] at hfailed
  | patchContext id mode confirmed existing =>
    rcases g.patchContext_spec now o id mode confirmed existing with hq | ⟨hok,hcheck,session,heq⟩
    · exact h.quiet hq
    · simp only [Server.resume,heq]
      refine h.set id mode rfl ?_
      rintro rfl rfl
      cases confirmed with
      | true => exact .inl rfl
      | false =>
        have hexisting : existing.sessionPolicyMode = .fullAccess := by
          simpa [fullAccessConfirmationRequired] using hcheck
        exact .inr (hr (by simp [Task.reusesFull,hok,hexisting]))
  | patchAudit session =>
    simp only [Server.resume,Server.patchAudit]
    split_ifs
    · exact h.unchanged (by simp)
    · exact h.unchanged rfl
  | resumeContext id mode confirmed stored =>
    simp only [Server.resume,Server.resumeContext]
    split_ifs with hok
    · refine h.set id mode rfl ?_
      rintro rfl rfl
      cases confirmed with
      | true => exact .inl rfl
      | false => exact .inr (hr (by simp [Task.reusesFull,hok.1]))
    · exact h.unchanged rfl
  | resumeThread id mode =>
    by_cases hok : o.ok = true
    · rcases g.resumeThread_spec now o id mode with hq | ⟨hp,-⟩
      · exact h.quiet hq.quiet
      · refine h.reused id mode (by simp [Silent,Server.resume]) hp ?_
        rintro rfl rfl
        exact hr (by simp [Task.reusesFull,hok])
    · simp only [Server.resume,Server.resumeThread,hok]
      exact h.unchanged rfl
  | turnLookup id r mode confirmed receivedAt =>
    rcases g.turnLookup_spec now receivedAt id r confirmed o mode with hq | ⟨policy,ha,hfull,-⟩
    · exact h.quiet hq
    · exact h.accepted ha (fun _ hpolicy => .inl (hfull hpolicy))
  | turnModel id policy generation turn =>
    simp only [Server.resume,Server.turnModel]
    split_ifs with hok
    · refine h.reused id policy (by simp [Silent]) rfl ?_
      rintro rfl rfl
      exact hr (by simp [Task.reusesFull,hok])
    all_goals simp [Task.failed,hok] at hfailed
  | apiTurnLookup id r last =>
    simp only [Server.resume,Server.apiTurnLookup]
    split
    · exact h.unchanged (by simp)
    · split
      · exact h.silent (by simp [Silent,GatewayEvent.modeOf]) (by simpa using .inl)
      · exact h.unchanged (by simp)
      · exact hrenew id _ _ (by simp [Silent,GatewayEvent.modeOf]) rfl
  | apiTurnModel id r last thread turn => exact hrenew id _ _ (by simp [Silent,Server.resume]) rfl
  | apiTurnStart id r last thread turn =>
    by_cases hok : o.ok = true
    · obtain ⟨hp,-,-,-,-,he⟩ := g.apiTurnStart_spec now o id r last thread turn hok
      simp only [Server.resume,he]
      refine h.silent (silent_remembered t id false r) ?_
      rw [hp]
      exact .inl
    · simp [Task.failed,hok] at hfailed
  | interjectSteer id r turnId thread =>
    by_cases hok : o.ok = true
    · obtain ⟨hp,-,-,-,he⟩ := g.interjectSteer_spec now o id r turnId thread hok
      simp only [Server.resume,he]
      refine h.silent (silent_remembered t id false r) ?_
      rw [hp]
      exact .inl
    · simp only [Server.resume,Server.interjectSteer,hok]
      exact h.unchanged (by simp)
  | interruptContext id session =>
    simp only [Server.resume,Server.interruptContext]
    split
    · exact h.unchanged rfl
    · exact h.silent (by simp [Silent,GatewayEvent.modeOf]) (by simpa using .inl)
  | forkAudit id mode confirmed =>
    simp only [Server.resume,Server.forkAudit]
    split_ifs with hok
    · refine h.reused id mode (by simp [Silent,GatewayEvent.modeOf]) rfl ?_
      rintro rfl rfl
      exact hr (by simp [Task.reusesFull,hok])
    · exact h.unchanged rfl
  | forkThread id mode confirmed =>
    cases hchild : Server.forkedChild o with
    | none =>
      simp only [Server.resume,Server.forkThread,hchild]
      exact h.unchanged rfl
    | some child =>
      obtain ⟨hp,-,-,-,-,he⟩ := g.forkThread_spec now o id mode confirmed hchild
      simp only [Server.resume,he]
      refine h.opened [] [] (by simp [Silent]) (by simp [Silent]) hp hchecked ?_
      rintro rfl rfl
      exact hc (by simp [Task.opensConfirm,hchild])
  | importThread id =>
    simp only [Server.resume,Server.importThread]
    split <;> exact h.unchanged rfl
  | coldImport => exact h.unchanged rfl
  | createTurn id turn => simp_all [Task.quiet,Task.failed]
  | turnPrepare id policy generation turn => simp_all [Task.quiet,Task.failed]
  | turnStart id generation turn => simp_all [Task.quiet,Task.failed]
  | apiTurnPrepare id r last thread turn => simp_all [Task.quiet,Task.failed]
  | apiThreadTurn id turn => simp_all [Task.quiet,Task.failed]
  | _ => exact absurd rfl hquiet

end rules

theorem Spawned.checked {g : Server} {old : Option Task} {task : Task}
    (hold : ∀ k, old = some k → k.Checked) (h : Spawned g old task) : task.Checked := by
  cases h with
  | plain hp => cases task <;> trivial
  | createThread r hc => exact hc
  | apiThreadStart hc => exact hc
  | forkAudit id hc => exact hc
  | forkThread heq =>
    have hchecked := hold _ heq
    exact hchecked
  | patchContext m c hget => trivial
  | patchAudit heq hid hrecent => trivial
  | interruptContext id => trivial

theorem Asked.step {t : String} {tr : List GatewayEvent} {g : Server} (h : Asked t tr g)
    (htasks : ∀ task ∈ g.tasks, task.Checked) {i : Input} (hok : reusesRightly t tr g i = true) :
    Asked t (tr ++ (g.step i).2) (g.step i).1 := by
  cases i with
  | request now q => exact h.receive now hok
  | proceed now k o =>
    simp only [Server.step]
    simp only [reusesRightly] at hok
    cases htask : g.tasks[k]? with
    | none => exact h.unchanged rfl
    | some task =>
      simp only [htask,decide_eq_true_eq] at hok
      have hfinish : Asked t tr (g.finishTask k) := ⟨h.policy,h.confirmed⟩
      exact hfinish.resume now (htasks task (List.mem_of_getElem? htask)) hok.1 hok.2

/-- In every run that reuses full access rightly, the bridge accepts for the thread without
asking only on a confirmed request that no later one took back. -/
theorem confirmed_run {t : String} {tr : List GatewayEvent} {g : Server}
    (hr : gateway.Run (fun tr g i => reusesRightly t tr g i = true) tr g) :
    OnlyConfirmed t tr g := by
  intro hfull
  have hinv : Asked t tr g ∧ ∀ task ∈ g.tasks, task.Checked := by
    apply hr.invariant (P := fun tr g => Asked t tr g ∧ ∀ task ∈ g.tasks, task.Checked)
    · rintro g rfl
      exact ⟨⟨by simp,by simp [lastMode]⟩,by simp⟩
    · rintro tr g i ⟨h,htasks⟩ hok
      exact ⟨h.step htasks hok,g.step_tasks i htasks (fun _ _ hold hs => hs.checked hold)⟩
  exact hinv.1.confirmed (hinv.1.policy hfull)

namespace Sample

/-- A session is created with full access and turned to `confirm` before its first turn. -/
def turnedBack : List Input :=
  [.request 0 (.postSessions none .fullAccess true),.proceed 1 0 { id := some "t" },
    .request 2 (.patchPolicy "t" .confirm false),.proceed 3 1 {}]

/-- A session in mode `confirm` is forked with full access for the child. -/
def forkedFull : List Input :=
  [.request 0 (.postSessions none .confirm false),.proceed 1 0 { id := some "t" },
    .proceed 2 0 {},.request 3 (.postFork "t" (some .fullAccess) true),.proceed 4 1 {},
    .proceed 5 1 {}]

end Sample

theorem fullAccessSession_onlyConfirmed :
    (gateway.exec [] {} Sample.fullAccessSession).2.policyByThread.get "t" = some .fullAccess ∧
    OnlyConfirmed "t" (gateway.exec [] {} Sample.fullAccessSession).1
      (gateway.exec [] {} Sample.fullAccessSession).2 := by
  have hrun : gateway.Run (fun tr g i => reusesRightly "t" tr g i = true) [] {} := .start rfl
  exact ⟨by decide,confirmed_run (hrun.exec Sample.fullAccessSession (by decide +kernel))⟩

/-- Behind its model check the first turn writes the mode of its creation back, and the fork
writes the child's mode under the parent. -/
theorem turnedBack_not_onlyConfirmed :
    (gateway.Run gateway.free (gateway.exec [] {} (Sample.turnedBack ++ [Input.proceed 4 0 {}])).1
        (gateway.exec [] {} (Sample.turnedBack ++ [Input.proceed 4 0 {}])).2 ∧
      ¬ OnlyConfirmed "t" (gateway.exec [] {} (Sample.turnedBack ++ [Input.proceed 4 0 {}])).1
        (gateway.exec [] {} (Sample.turnedBack ++ [Input.proceed 4 0 {}])).2) ∧
    gateway.Run gateway.free (gateway.exec [] {} Sample.forkedFull).1
        (gateway.exec [] {} Sample.forkedFull).2 ∧
      ¬ OnlyConfirmed "t" (gateway.exec [] {} Sample.forkedFull).1
        (gateway.exec [] {} Sample.forkedFull).2 := by
  have hrun : gateway.Run gateway.free [] {} := .start rfl
  refine ⟨⟨hrun.exec _ (gateway.allowed_free _ _ _),?_⟩,hrun.exec _ (gateway.allowed_free _ _ _),?_⟩
  · intro h
    exact absurd (h (by decide)).lastMode (by decide +kernel)
  · intro h
    exact absurd (h (by decide)).lastMode (by decide +kernel)

end CodeHarbor.Gateway
