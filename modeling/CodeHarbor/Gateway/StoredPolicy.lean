import CodeHarbor.Gateway.Agreement
set_option autoImplicit false

namespace CodeHarbor.Gateway
open Lib Bridge

abbrev Choice := String × SessionPolicyMode

def modeAsked (s : String) (tr : List Choice) : SessionPolicyMode :=
  tr.foldl (fun m choice => if choice.1 = s then choice.2 else m) .confirm

/-- The stored record shows the mode last asked for. -/
def PolicyKept (s : String) (tr : List Choice) (g : Server) : Prop :=
  ∀ session, g.store.getSession s = some session → session.sessionPolicyMode = modeAsked s tr

def GatewayEvent.choice : GatewayEvent → Option Choice
  | .modeRequested id mode _ => some (id,mode)
  | _ => none

/-- Whether the body of the request has a `sessionPolicyMode`, given or by the default of its
schema. -/
def Request.named : Request → Bool
  | .postSessions _ _ _ | .postThreads _ _ | .patchPolicy _ _ _ => true
  | .postResume _ mode _ | .postTurns _ _ mode _ | .postFork _ mode _ => mode.isSome
  | _ => false

/-- A turn that names no mode goes on with the one it finds and asks for none. -/
def Request.choices (events : List GatewayEvent) : Request → List Choice
  | .postTurns _ _ none _ => []
  | _ => events.filterMap GatewayEvent.choice

/-- A resume counts from the segment that sets the mode of the record, if its request named
one. A fork asks for its child also where it takes the mode of the parent. -/
def Task.choices (named : Bool) (o : Outcome) (events : List GatewayEvent) : Task → List Choice
  | .resumeContext _ _ _ _ => []
  | .resumeThread id mode => if o.ok ∧ named then [(id,mode)] else []
  | .turnLookup _ _ none _ _ => []
  | _ => events.filterMap GatewayEvent.choice

/-- The gateway and, in step with its suspended handlers, whether the request of each of them
named a mode. -/
structure Choosing where
  server : Server := {}
  named : List Bool := []

namespace Choosing

/-- The handlers a segment suspends come last and belong to its own request. -/
def follow (named : List Bool) (own : Bool) (g g' : Server) : Choosing :=
  ⟨g',named ++ List.replicate (g'.tasks.length-g.tasks.length) own⟩

def step (c : Choosing) : Input → Choosing × List Choice
  | .request now q =>
    let out := c.server.receive now q
    (follow c.named q.named c.server out.1,q.choices out.2)
  | .proceed now k o =>
    match c.server.tasks[k]? with
    | none => (c,[])
    | some task =>
      let g := c.server.finishTask k
      let own := c.named.getD k false
      let out := g.resume now o task
      (follow (c.named.eraseIdx k) own g out.1,task.choices own o out.2)

end Choosing

def choosing : Machine Choosing Input Choice where
  init c := c = {}
  step c i := c.step i

/-- The mode of the session stays the one asked for when the handler goes on: a record that
it writes back whole, or a mode that its request did not name, carries the mode last asked
for, the child of a fork the mode of the fork, and no thread is opened in one mode under the
id of a record in another. -/
def Task.keepsMode (s : String) (asked : SessionPolicyMode) (g : Server) (now : Nat)
    (named : Bool) (o : Outcome) : Task → Bool
  | .createThread _ _ _ => true
  | .apiThreadStart mode _ => Server.startedThread o = some s → ∀ m ∈ g.store.mode s, m = mode
  | .resumeThread id mode =>
    o.ok = true ∧ named = false ∧ id = s ∧ (g.store.mode s).isSome → mode = asked
  | .turnLookup id r none _ _ =>
    o.ok = true ∧ id = s ∧ (findThreadSummary o.threads s).isSome ∧
      g.hasClientRequest s r = false ∧ s ∉ g.turnGate → asked = .confirm
  | .forkThread id mode confirmed =>
    ∀ x ∈ (Task.forkThread id mode confirmed).stores g now o, x.id = s → x.sessionPolicyMode = mode
  | task => ∀ x ∈ task.stores g now o, x.id = s → x.sessionPolicyMode = asked

def keepsMode (s : String) (tr : List Choice) (c : Choosing) : Input → Bool
  | .request _ _ => true
  | .proceed now k o =>
    match c.server.tasks[k]? with
    | none => true
    | some task => task.keepsMode s (modeAsked s tr) c.server now (c.named.getD k false) o

section traces

variable {s : String} {tr : List Choice}

theorem modeAsked_snoc (id : String) (m : SessionPolicyMode) :
    modeAsked s (tr ++ [(id,m)]) = if id = s then m else modeAsked s tr := by
  simp [modeAsked]

theorem Quiet.choices {g : Server} {out : Server × List GatewayEvent} (h : Quiet g out) :
    out.2.filterMap GatewayEvent.choice = [] := by
  rw [List.filterMap_eq_nil_iff]
  intro e he
  have hdup := h.events e he
  cases e <;> first | rfl | simp [GatewayEvent.isDuplicate] at hdup

@[simp] theorem choices_remembered (id : String) (newTurn : Bool) (r : Option RequestId) :
    (Server.rememberedEvents id newTurn r).filterMap GatewayEvent.choice = [] := by
  cases r <;> rfl

theorem AcceptedTurn.choices {g : Server} {id : String} {r : Option RequestId}
    {policy : SessionPolicyMode} {confirmed : Bool} {copy : Option (List RequestId)}
    {out : Server × List GatewayEvent} (h : AcceptedTurn g id r policy confirmed copy out) :
    out.2.filterMap GatewayEvent.choice = [(id,policy)] := by
  simp [h.events,List.filterMap_cons,GatewayEvent.choice]

theorem policyKept_iff {g : Server} :
    PolicyKept s tr g ↔ ∀ m, g.store.mode s = some m → m = modeAsked s tr := by
  unfold PolicyKept GatewayStore.mode GatewayStore.view
  cases g.store.getSession s <;> simp

end traces

section rules

variable {s : String} {tr : List Choice} {g g' : Server}

theorem PolicyKept.unchanged (h : PolicyKept s tr g) (hm : g'.store.mode s = g.store.mode s) :
    PolicyKept s tr g' := by
  rw [policyKept_iff] at *
  rw [hm]
  exact h

theorem PolicyKept.wrote {tr' : List Choice} {id : String} {m : SessionPolicyMode}
    (h : PolicyKept s tr g)
    (hm : g'.store.mode s = if s = id then some m else g.store.mode s)
    (hself : id = s → m = modeAsked s tr')
    (hother : id ≠ s → modeAsked s tr' = modeAsked s tr) : PolicyKept s tr' g' := by
  rw [policyKept_iff] at *
  intro stored hstored
  by_cases hid : id = s
  · rw [hm,if_pos hid.symm,Option.some.injEq] at hstored
    rw [← hstored]
    exact hself hid
  · rw [hm,if_neg (Ne.symm hid)] at hstored
    rw [hother hid]
    exact h stored hstored

theorem PolicyKept.chosen {id : String} {m : SessionPolicyMode} (h : PolicyKept s tr g)
    (hm : g'.store.mode s = if s = id then some m else g.store.mode s) :
    PolicyKept s (tr ++ [(id,m)]) g' := by
  refine h.wrote hm ?_ ?_
  · intro hid
    rw [modeAsked_snoc,if_pos hid]
  · intro hid
    rw [modeAsked_snoc,if_neg hid]

theorem PolicyKept.restored {id : String} {m : SessionPolicyMode} (h : PolicyKept s tr g)
    (hm : g'.store.mode s = if s = id then some m else g.store.mode s)
    (hself : id = s → m = modeAsked s tr) : PolicyKept s tr g' :=
  h.wrote hm hself fun _ => rfl

theorem PolicyKept.reset {tr' : List Choice} {now : Nat} {id : String} {m : SessionPolicyMode}
    (h : PolicyKept s tr g) (hm : g'.store.mode s = (g.setMode now id m).store.mode s)
    (hself : id = s → (g.store.mode s).isSome → m = modeAsked s tr')
    (hother : id ≠ s → modeAsked s tr' = modeAsked s tr) : PolicyKept s tr' g' := by
  rw [g.setMode_mode now id m s] at hm
  cases hget : g.store.mode s with
  | none =>
    rw [policyKept_iff]
    intro stored hstored
    simp [hm,hget] at hstored
  | some old =>
    have hwritten : g'.store.mode s = if s = id then some m else g.store.mode s := by
      rw [hm,hget]
      rfl
    refine h.wrote hwritten ?_ hother
    intro hid
    exact hself hid (by simp [hget])

theorem PolicyKept.set {now : Nat} {id : String} {m : SessionPolicyMode} (h : PolicyKept s tr g)
    (hm : g'.store.mode s = (g.setMode now id m).store.mode s) :
    PolicyKept s (tr ++ [(id,m)]) g' := by
  refine h.reset hm ?_ ?_
  · intro hid _
    rw [modeAsked_snoc,if_pos hid]
  · intro hid
    rw [modeAsked_snoc,if_neg hid]

theorem PolicyKept.silent {choices : List Choice} (h : PolicyKept s tr g) (hc : choices = []) :
    PolicyKept s (tr ++ choices) g := by
  rw [hc,List.append_nil]
  exact h

theorem PolicyKept.quiet {out : Server × List GatewayEvent} (h : PolicyKept s tr g)
    (hq : Quiet g out) : PolicyKept s (tr ++ out.2.filterMap GatewayEvent.choice) out.1 :=
  (h.unchanged (hq.same.mode s)).silent hq.choices

theorem PolicyKept.receive (h : PolicyKept s tr g) (now : Nat) (q : Request) :
    PolicyKept s (tr ++ q.choices (g.receive now q).2) (g.receive now q).1 := by
  cases q with
  | postTurns id r mode confirmed =>
    rcases g.postTurns_spec now id r confirmed mode with hq | ⟨policy,ha,-,hstored⟩
    · refine (h.unchanged (hq.same.mode s)).silent ?_
      cases mode with
      | none => rfl
      | some m => exact hq.choices
    · cases mode with
      | none =>
        refine (h.restored (ha.modes s) ?_).silent rfl
        rintro rfl
        exact policyKept_iff.mp h policy (hstored rfl)
      | some m =>
        have hchoice : (Request.postTurns id r (some m) confirmed).choices
            (g.receive now (.postTurns id r (some m) confirmed)).2 = [(id,policy)] := ha.choices
        rw [hchoice]
        exact h.chosen (ha.modes s)
  | getThreads ids =>
    obtain ⟨hstore,-⟩ := g.listing_frame now ids
    exact (h.unchanged (by simp only [Server.receive,hstore])).silent rfl
  | deleteSession id =>
    refine PolicyKept.silent ?_ rfl
    rw [policyKept_iff] at *
    intro m hm
    simp only [Server.receive,GatewayStore.mode_deleteSession] at hm
    split_ifs at hm
    exact h m hm
  | codex event =>
    obtain ⟨-,-,hmode,-⟩ := g.codexEvent_frame now event
    refine (h.unchanged (hmode s)).silent ?_
    simp only [Server.receive,Request.choices]
    rcases g.codexEvent_events now event with hes | ⟨id,status,turn,-,hes⟩
    · rw [hes]
      rfl
    · rw [hes]
      rfl
  | _ => exact h.quiet (g.receive_quiet now rfl)

theorem PolicyKept.resume (h : PolicyKept s tr g) {now : Nat} {named : Bool} {o : Outcome}
    {task : Task} (hk : task.keepsMode s (modeAsked s tr) g now named o = true) :
    PolicyKept s (tr ++ task.choices named o (g.resume now o task).2)
      (g.resume now o task).1 := by
  by_cases hfailed : ∃ start, task.failed o = some start
  · obtain ⟨start,hstart⟩ := hfailed
    have hspec := g.resume_failed now start.1 start.2 hstart
    refine (h.unchanged (hspec.mode s)).silent ?_
    cases task <;> first | cases hstart | simp [Task.choices,hspec.events,GatewayEvent.choice]
  by_cases hquiet : task.quiet o = true
  · have hspec := g.resume_quiet now hquiet
    refine (h.unchanged (hspec.same.mode s)).silent ?_
    cases task <;> first | exact hspec.choices | cases hquiet
  cases task with
  | createThread r mode confirmed =>
    simp only [Server.resume,Server.createThread,Task.choices]
    split
    · exact (h.unchanged (by simp)).silent rfl
    · rename_i id hid
      split_ifs
      · exact (h.unchanged (by simp)).silent rfl
      · have hchoice : (g.openCreated now id r mode confirmed).2.filterMap GatewayEvent.choice =
            [(id,mode)] := by
          simp [Server.openCreated,List.filterMap_cons,GatewayEvent.choice]
        rw [hchoice]
        exact h.chosen (g.openCreated_mode now id r mode confirmed s)
  | createModel id mode turn =>
    simp only [Server.resume,Server.createModel]
    split_ifs with hok
    · exact (h.unchanged rfl).silent rfl
    · simp [Task.failed,hok] at hfailed
  | apiThreadStart mode confirmed =>
    simp only [Task.keepsMode,decide_eq_true_eq] at hk
    simp only [Server.resume,Server.apiThreadStart,Task.choices]
    split
    · exact h.silent rfl
    · rename_i id hid
      -- the mode is asked for a thread without a record, or one in that mode
      simp only [List.filterMap_cons,GatewayEvent.choice,List.filterMap_nil]
      rw [policyKept_iff] at *
      intro m hm
      rw [modeAsked_snoc]
      by_cases hs : id = s
      · rw [if_pos hs]
        exact hk (by rw [hid,hs]) m hm
      · rw [if_neg hs]
        exact h m hm
  | apiThreadModel id mode turn =>
    simp only [Server.resume,Server.apiThreadModel]
    split_ifs with hok
    · exact (h.unchanged rfl).silent rfl
    · simp [Task.failed,hok] at hfailed
  | patchContext id mode confirmed existing =>
    rcases g.patchContext_spec now o id mode confirmed existing with hq | ⟨-,-,session,heq⟩
    · exact h.quiet hq
    · simp only [Server.resume,Task.choices,heq]
      have hm : ((g.setMode now id mode).suspend (.patchAudit session)).store.mode s =
          (g.setMode now id mode).store.mode s := rfl
      exact h.set hm
  | patchAudit session =>
    simp only [Task.keepsMode,decide_eq_true_eq] at hk
    by_cases hwritten : o.ok = true ∧ ¬ g.ignores session
    · refine (h.restored ?_ (hk session (by simp [Task.stores,hwritten]))).silent rfl
      simp [Server.resume,Server.patchAudit,hwritten,Server.broadcastGateway_mode]
    · refine (h.unchanged ?_).silent rfl
      simp only [Server.resume,Server.patchAudit]
      split_ifs with hok
      · have hi : g.ignores session := by
          by_contra hi
          exact hwritten ⟨hok,hi⟩
        simp [Server.broadcastGateway_mode,hi]
      · rfl
  | resumeContext id mode confirmed stored =>
    refine (h.unchanged ?_).silent rfl
    simp only [Server.resume,Server.resumeContext]
    split_ifs <;> rfl
  | resumeThread id mode =>
    simp only [Task.keepsMode,decide_eq_true_eq] at hk
    cases hok : o.ok with
    | false =>
      refine (h.unchanged ?_).silent (by simp [Task.choices,hok])
      simp [Server.resume,Server.resumeThread,hok]
    | true =>
      have hm := g.resumeThread_mode now o id mode hok s
      cases named with
      | true =>
        simp only [Task.choices,hok,and_self,if_true]
        exact h.set hm
      | false =>
        refine PolicyKept.silent (h.reset hm ?_ fun _ => rfl) (by simp [Task.choices])
        intro hid hsome
        exact hk ⟨hok,rfl,hid,hsome⟩
  | turnLookup id r mode confirmed receivedAt =>
    rcases g.turnLookup_spec now receivedAt id r confirmed o mode with
      hq | ⟨policy,ha,-,hok,hfound,hdefault⟩
    · refine (h.unchanged (hq.same.mode s)).silent ?_
      cases mode with
      | none => rfl
      | some m => exact hq.choices
    · cases mode with
      | none =>
        simp only [Task.keepsMode,decide_eq_true_eq] at hk
        refine (h.restored (ha.modes s) ?_).silent rfl
        rintro rfl
        rw [hdefault rfl]
        exact (hk ⟨hok,rfl,hfound,ha.unknown,ha.free⟩).symm
      | some m =>
        have hchoice : (Task.turnLookup id r (some m) confirmed receivedAt).choices named o
            (g.resume now o (.turnLookup id r (some m) confirmed receivedAt)).2 = [(id,policy)] :=
          ha.choices
        rw [hchoice]
        exact h.chosen (ha.modes s)
  | turnModel id policy generation turn =>
    simp only [Server.resume,Server.turnModel]
    split_ifs with hok
    · exact (h.unchanged rfl).silent rfl
    all_goals simp [Task.failed,hok] at hfailed
  | apiTurnLookup id r last =>
    simp only [Server.resume,Server.apiTurnLookup,Task.choices]
    split
    · exact (h.unchanged (by simp)).silent rfl
    · split
      · exact (h.unchanged (by simp)).silent rfl
      · exact (h.unchanged (by simp)).silent rfl
      · exact (h.unchanged rfl).silent rfl
  | apiTurnModel id r last thread turn => exact (h.unchanged rfl).silent rfl
  | apiTurnStart id r last thread turn =>
    simp only [Task.keepsMode,decide_eq_true_eq] at hk
    by_cases hok : o.ok = true
    · obtain ⟨-,-,hm,-,-,hes⟩ := g.apiTurnStart_spec now o id r last thread turn hok
      refine (h.restored (hm s) (hk (threadToSession thread (some .running)) ?_)).silent ?_
      · simp [Task.stores,hok]
      · simp only [Server.resume,Task.choices,hes,choices_remembered]
    · simp [Task.failed,hok] at hfailed
  | interjectSteer id r turnId thread =>
    simp only [Task.keepsMode,decide_eq_true_eq] at hk
    by_cases hok : o.ok = true
    · obtain ⟨-,-,hm,-,hes⟩ := g.interjectSteer_spec now o id r turnId thread hok
      refine (h.restored (hm s) (hk _ (by simp [Task.stores,hok]))).silent ?_
      simp only [Server.resume,Task.choices,hes,choices_remembered]
    · simp only [Server.resume,Server.interjectSteer,Task.choices,hok]
      exact (h.unchanged (by simp)).silent rfl
  | interruptContext id session =>
    simp only [Task.keepsMode,decide_eq_true_eq] at hk
    simp only [Server.resume,Server.interruptContext,Task.choices]
    split
    · exact h.silent rfl
    · rename_i base hbase
      have hx := hk base (by simp [Task.stores,hbase])
      exact (h.restored (g.settleInterruptedSession_mode now id base s) hx).silent rfl
  | forkAudit id mode confirmed =>
    simp only [Server.resume,Server.forkAudit]
    split_ifs
    · exact (h.unchanged rfl).silent rfl
    · exact h.silent rfl
  | forkThread id mode confirmed =>
    simp only [Task.keepsMode,decide_eq_true_eq] at hk
    cases hchild : Server.forkedChild o with
    | none => simpa [Server.resume,Server.forkThread,hchild,Task.choices] using h
    | some child =>
      obtain ⟨-,-,hm,-,-,hes⟩ := g.forkThread_spec now o id mode confirmed hchild
      simp only [Server.resume,Task.choices,hes,List.filterMap_cons,GatewayEvent.choice,
        List.filterMap_nil]
      have hstored : child.id = s →
          (if g.ignores (threadToSession child (some .starting)) then mode else .confirm) = mode := by
        intro hid
        split_ifs with hi
        · rfl
        · exact hk (threadToSession child (some .starting)) (by simp [Task.stores,hchild,hi]) hid
      refine h.wrote (hm s) ?_ ?_
      · intro hid
        rw [modeAsked_snoc,if_pos hid,hstored hid]
      · intro hid
        rw [modeAsked_snoc,if_neg hid]
  | importThread id =>
    simp only [Task.keepsMode,decide_eq_true_eq] at hk
    refine PolicyKept.silent ?_ rfl
    simp only [Server.resume,Server.importThread]
    split
    · exact h
    · rename_i thread hthread
      refine h.restored (GatewayStore.mode_upsertSession _ (threadToSession thread none) s)
        (hk _ ?_)
      by_cases hok : o.ok = true
      · simp [hok] at hthread
        simp [Task.stores,hok,hthread]
      · simp [hok] at hthread
  | coldImport =>
    simp only [Task.keepsMode,decide_eq_true_eq] at hk
    refine PolicyKept.silent ?_ rfl
    rcases g.store.mode_upsertSessions (o.threads.map g.importedSession) s with hm | ⟨x,hx,hid,hm⟩
    · exact h.unchanged hm
    · rw [policyKept_iff]
      intro m hstored
      have hmode : some m = some x.sessionPolicyMode := hstored.symm.trans hm
      cases hmode
      exact hk x hx hid
  | createTurn id turn => simp_all [Task.quiet,Task.failed]
  | turnPrepare id policy generation turn => simp_all [Task.quiet,Task.failed]
  | turnStart id generation turn => simp_all [Task.quiet,Task.failed]
  | apiTurnPrepare id r last thread turn => simp_all [Task.quiet,Task.failed]
  | apiThreadTurn id turn => simp_all [Task.quiet,Task.failed]
  | _ => exact absurd rfl hquiet

end rules

theorem PolicyKept.step {s : String} {tr : List Choice} {c : Choosing}
    (h : PolicyKept s tr c.server) {i : Input} (hk : keepsMode s tr c i = true) :
    PolicyKept s (tr ++ (c.step i).2) (c.step i).1.server := by
  cases i with
  | request now q => exact h.receive now q
  | proceed now k o =>
    simp only [Choosing.step]
    simp only [keepsMode] at hk
    cases htask : c.server.tasks[k]? with
    | none => exact h.silent rfl
    | some task =>
      simp only [htask] at hk
      have hfinish : PolicyKept s tr (c.server.finishTask k) := h
      exact hfinish.resume hk

/-- In every run whose segments keep the mode of the session, its record shows the mode last
asked for. -/
theorem storedMode_asked {s : String} {tr : List Choice} {c : Choosing}
    (hr : choosing.Run (fun tr c i => keepsMode s tr c i = true) tr c) :
    PolicyKept s tr c.server := by
  apply hr.invariant (P := fun tr c => PolicyKept s tr c.server)
  · rintro c rfl session hget
    cases hget
  · intro tr c i h hk
    exact h.step hk

namespace Sample

/-- A session opened with full access, turned back to `confirm` and resumed. -/
def modeChanged : List Input :=
  fullAccessSession ++ [Input.request 3 (.patchPolicy "t" .confirm false),.proceed 4 1 {},
    .proceed 5 1 {},.request 6 (.postResume "t" none false),.proceed 7 1 {},.proceed 8 1 {}]

/-- A thread is forked with full access. -/
def forkedWithAccess : List Input :=
  importSession "p" ++ [Input.request 2 (.postFork "p" (some .fullAccess) true),
    .proceed 3 0 {},.proceed 4 0 {},.proceed 5 0 { child := some ⟨"c","idle",0⟩ }]

end Sample

theorem modeChanged_asked :
    (choosing.exec [] {} Sample.modeChanged).1 = [("t",.fullAccess),("t",.confirm)] ∧
    (choosing.exec [] {} Sample.modeChanged).2.server.store.mode "t" = some .confirm ∧
    PolicyKept "t" (choosing.exec [] {} Sample.modeChanged).1
      (choosing.exec [] {} Sample.modeChanged).2.server := by
  have hrun : choosing.Run (fun tr c i => keepsMode "t" tr c i = true) [] {} := .start rfl
  exact ⟨by decide,by decide +kernel,
    storedMode_asked (hrun.exec Sample.modeChanged (by decide))⟩

/-- The announcement of the fork carries the record without the mode and is stored over the
one with it. -/
theorem forkedWithAccess_not_kept :
    choosing.Run choosing.free (choosing.exec [] {} Sample.forkedWithAccess).1
      (choosing.exec [] {} Sample.forkedWithAccess).2 ∧
    ¬ PolicyKept "c" (choosing.exec [] {} Sample.forkedWithAccess).1
      (choosing.exec [] {} Sample.forkedWithAccess).2.server := by
  have hrun : choosing.Run choosing.free [] {} := .start rfl
  refine ⟨hrun.exec _ (choosing.allowed_free _ _ _),?_⟩
  intro h
  have hstored := policyKept_iff.mp h .confirm (by decide)
  have hasked : modeAsked "c" (choosing.exec [] {} Sample.forkedWithAccess).1 = .fullAccess := by
    decide
  rw [hasked] at hstored
  cases hstored

end CodeHarbor.Gateway
