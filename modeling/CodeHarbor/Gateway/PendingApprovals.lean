import CodeHarbor.Bridge.Approvals
import CodeHarbor.Gateway.Waiting
set_option autoImplicit false

namespace CodeHarbor.Bridge
open Lib

/-- The steps that neither add nor take an entry of the pending approvals. -/
def CodexBridge.quiet (b : CodexBridge) : BridgeInput → Bool
  | .exit | .stdinError | .outputLimit | .shutdown | .resolveApproval _ _ _ _ => false
  | .auditDone serial true => (b.handler serial).all (·.stage ≠ .auditApproval)
  | .approvalTimeout serial => (b.handler serial).all (·.stage ≠ .waiting)
  | _ => true

/-- Some entry of the pending approvals belongs to the thread. -/
def CodexBridge.Asks (b : CodexBridge) (s : String) : Prop :=
  ∃ r a, b.pendingApprovals.get r = some a ∧ a.threadId = s

structure CodexBridge.SameApprovals (b b' : CodexBridge) : Prop where
  entries : ∀ r, b'.pendingApprovals.get r = b.pendingApprovals.get r
  waiting : ∀ h ∈ b'.handlers, h.stage = .waiting → h ∈ b.handlers

namespace CodexBridge

theorem sameApprovals_finish (b : CodexBridge) (q : ServerRequest) (outcome : Outcome) :
    b.SameApprovals (b.finish q outcome).1 := by
  rw [finish_fst]
  exact ⟨fun _ => rfl,fun h hh _ => (List.mem_filter.mp hh).1⟩

theorem sameApprovals_setStage (b : CodexBridge) (serial : Nat) {stage : Stage}
    (hstage : stage ≠ .waiting) : b.SameApprovals (b.setStage serial stage) := by
  refine ⟨fun _ => rfl,?_⟩
  intro h hh hw
  obtain ⟨k,hk,rfl⟩ := List.mem_map.mp hh
  by_cases heq : k.request.serial = serial
  · subst heq
    rw [Handler.moveTo_self] at hw
    exact absurd hw hstage
  · rw [Handler.moveTo_of_ne stage heq]
    exact hk

/-- Nothing is pending, so nothing is rejected. -/
theorem sameApprovals_rejectAll {b : CodexBridge} (child : Option Child)
    (h : b.pendingApprovals.size = 0) :
    b.SameApprovals ({ b with child := child }.rejectAll).1 := by
  have hempty : b.pendingApprovals.entries = [] := List.length_eq_zero_iff.mp h
  refine ⟨?_,?_⟩
  · intro r
    have hnone : b.pendingApprovals.get r = none := by simp [OrdMap.get,hempty]
    rw [hnone]
    rfl
  · intro k hk _
    simp only [rejectAll,hempty,List.map_nil] at hk
    obtain ⟨k,hmem,rfl⟩ := List.mem_map.mp hk
    exact hmem

theorem sameApprovals_step {b : CodexBridge} {i : BridgeInput} (hi : b.quiet i = true) :
    b.SameApprovals (b.step i).1 := by
  have hrefl : ∀ b' : CodexBridge, b'.pendingApprovals = b.pendingApprovals →
      b'.handlers = b.handlers → b.SameApprovals b' :=
    fun b' ha hh => ⟨fun r => by rw [ha],fun h hmem _ => hh ▸ hmem⟩
  cases i with
  | spawn =>
    simp only [step]
    split
    · split_ifs <;> exact hrefl _ rfl rfl
    · exact hrefl _ rfl rfl
  | stdinClosed => exact hrefl _ rfl rfl
  | setPolicy threadId mode => exact hrefl _ rfl rfl
  | sendRequest method =>
    simp only [step,sendRequest]
    split_ifs <;> exact hrefl _ rfl rfl
  | timeout id =>
    simp only [step]
    split_ifs <;> exact hrefl _ rfl rfl
  | message pid m =>
    simp only [step,handleMessage]
    split
    · exact hrefl _ rfl rfl
    · split_ifs
      · exact hrefl _ rfl rfl
      · split
        · exact hrefl _ rfl rfl
        · refine ⟨fun _ => rfl,?_⟩
          intro h hh hw
          rcases List.mem_append.mp hh with hh | hh
          · exact hh
          · rw [List.mem_singleton.mp hh] at hw
            cases hw
  | auditDone serial ok =>
    simp only [step,auditDone]
    cases hh : b.handler serial with
    | none => exact hrefl _ rfl rfl
    | some h =>
      obtain ⟨q,stage⟩ := h
      cases stage with
      | auditRequest =>
        cases ok with
        | false => exact b.sameApprovals_finish q _
        | true =>
          simp only [if_true,afterRequestAudit]
          split_ifs
          · split
            · exact b.sameApprovals_finish q _
            · exact b.sameApprovals_setStage q.serial (by simp)
          · exact b.sameApprovals_finish q _
      | auditApproval =>
        cases ok with
        | false => exact b.sameApprovals_finish q _
        | true => simp [quiet,hh] at hi
      | waiting => exact hrefl _ rfl rfl
      | decided r => exact hrefl _ rfl rfl
  | approvalTimeout serial =>
    simp only [step,approvalTimeout]
    cases hh : b.handler serial with
    | none => exact hrefl _ rfl rfl
    | some h =>
      obtain ⟨q,stage⟩ := h
      cases stage with
      | waiting => simp [quiet,hh] at hi
      | _ => exact hrefl _ rfl rfl
  | proceed serial =>
    simp only [step,proceed]
    cases b.handler serial with
    | none => exact hrefl _ rfl rfl
    | some h =>
      obtain ⟨q,stage⟩ := h
      cases stage with
      | decided r => exact b.sameApprovals_finish q _
      | _ => exact hrefl _ rfl rfl
  | _ => cases hi

end CodexBridge

end CodeHarbor.Bridge

namespace CodeHarbor.Gateway
open Lib Bridge

section restart

/-- A key that holds `undefined` is not written to the file. -/
def GatewaySession.persisted (session : GatewaySession) : GatewaySession :=
  { session with
    activeTurnId := session.activeTurnId.join.map some
    lastClientRequestId := session.lastClientRequestId.join.map some }

/-- A turn cannot survive the process; an approval that was waited for is left as it is. -/
def GatewaySession.normalizePersistedSession (session : GatewaySession) : GatewaySession :=
  let recentClientRequestIds := match session.recentClientRequestIds with
    | some ids => newest maxRecentClientRequests ids
    | none => session.lastClientRequestId.join.toList
  let normalized := { session with recentClientRequestIds := some recentClientRequestIds }
  if normalized.status ≠ .running ∧ normalized.status ≠ .starting then normalized
  else { normalized with status := .completed, activeTurnId := some none }

namespace GatewayStore

def listSessions (st : GatewayStore) : List GatewaySession :=
  (st.sessions.entries.map Prod.snd).mergeSort (fun left right =>
    right.lastUpdatedAt ≤ left.lastUpdatedAt)

/-- The constructor of the store. The two small tables are written whenever they change, the
sessions come from the last snapshot. -/
def load (st : GatewayStore) (snapshot : List GatewaySession) : GatewayStore :=
  let empty : GatewayStore := { empty with subagentRelations := st.subagentRelations }
  let loaded := snapshot.foldl (fun st session => st.saveSession session.normalizePersistedSession)
    empty
  { loaded with createRequests := st.createRequests.filter (fun _ id => loaded.sessions.has id) }

end GatewayStore

end restart

/-- The approval events of a session's log. An announcement also has the number of the request
it was made for, which no reader sees. -/
inductive ApprovalLine where
  | requested (requestId : String) (serial : Nat)
  | resolved (requestId : String) (decision : Decision)
  | expired (requestId : String)
  deriving DecidableEq, Repr

def ApprovalLine.closes : ApprovalLine → Option String
  | .requested _ _ => none
  | .resolved requestId _ | .expired requestId => some requestId

/-- The log has the announcement and no later event that closes its request id. -/
def Unanswered (r : String) (n : Nat) (lines : List ApprovalLine) : Prop :=
  ∃ pre post, lines = pre ++ ApprovalLine.requested r n :: post ∧
    ∀ line ∈ post, line.closes ≠ some r

/-- The announcements not closed, in order. -/
def unanswered (lines : List ApprovalLine) : List (String × Nat) :=
  lines.foldl (fun found line =>
    match line with
    | .requested r n => found ++ [(r,n)]
    | .resolved r _ | .expired r => found.filter (·.1 ≠ r)) []

abbrev Logs := OrdMap String (List ApprovalLine)

def Logs.lines (logs : Logs) (s : String) : List ApprovalLine := (OrdMap.get logs s).getD []

/-- The gateway process with its bridge, the event logs as it has them, how far they and the
sessions have reached the disk. -/
structure Harbor where
  bridge : CodexBridge := {}
  server : Server := {}
  logs : Logs := OrdMap.empty
  files : Logs := OrdMap.empty
  snapshot : List GatewaySession := []

inductive HarborInput where
  | bridge (now : Nat) (i : BridgeInput)
  | gateway (i : Input)
  | postApproval (now : Nat) (requestId : String) (d : ApprovalDecision) (threadId : String)
      (turnId : Option String)
  | lineWritten (id : String)
  | persistSessions
  | restart

/-- The approval event that the bridge emits in this step. The empty request id is announced
like any other, but `approvalExpired` is dropped for it. -/
def approvalNotice (b : CodexBridge) : BridgeInput → Option (String × ApprovalLine)
  | .auditDone serial true =>
    match b.handler serial with
    | some ⟨q,.auditApproval⟩ => q.thread.map (·,.requested q.id.key q.serial)
    | _ => none
  | .approvalTimeout serial =>
    match b.handler serial with
    | some ⟨q,.waiting⟩ => if q.id.key = "" then none else q.thread.map (·,.expired q.id.key)
    | _ => none
  | _ => none

namespace Harbor

/-- `broadcastGateway` for an approval event: it goes to the log, and an announcement sets the
record to wait. -/
def broadcastApproval (h : Harbor) (now : Nat) (s : String) (line : ApprovalLine) : Harbor :=
  let h := { h with logs := h.logs.set s (h.logs.lines s ++ [line]) }
  match line with
  | .requested _ _ => { h with server := (h.server.codexEvent now (.approvalRequested s)).1 }
  | _ => h

/-- Modes are set and approvals resolved by the routes. -/
def bridgeStep (h : Harbor) (now : Nat) (i : BridgeInput) : Harbor :=
  match i with
  | .setPolicy _ _ | .resolveApproval _ _ _ _ => h
  | i =>
    let next := { h with bridge := (h.bridge.step i).1 }
    match approvalNotice h.bridge i with
    | none => next
    | some (s,line) => next.broadcastApproval now s line

/-- Announcements come from the bridge. The modes that the routes set are the bridge's. -/
def gatewayStep (h : Harbor) (i : Input) : Harbor :=
  match i with
  | .request _ (.codex (.approvalRequested _)) => h
  | i =>
    let server := (h.server.step i).1
    let next := { h with
      server := server
      bridge := { h.bridge with policyByThread := server.policyByThread } }
    match i with
    | .request _ (.deleteSession id) =>
      { next with logs := next.logs.erase id, files := next.files.erase id }
    | _ => next

/-- The last segment of the approvals route; the awaits before it change nothing. -/
def postApproval (h : Harbor) (now : Nat) (requestId : String) (d : ApprovalDecision)
    (threadId : String) (turnId : Option String) : Harbor :=
  let out := h.bridge.step (.resolveApproval requestId d threadId turnId)
  if out.2 = [] then h
  else { h with bridge := out.1 }.broadcastApproval now threadId (.resolved requestId d.decision)

/-- A new process: what was in memory is gone. Requests are numbered on. -/
def restart (h : Harbor) : Harbor where
  bridge := { nextPid := h.bridge.nextPid, nextSerial := h.bridge.nextSerial }
  server := { store := h.server.store.load h.snapshot }
  logs := h.files
  files := h.files
  snapshot := h.snapshot

def step (h : Harbor) : HarborInput → Harbor
  | .bridge now i => h.bridgeStep now i
  | .gateway i => h.gatewayStep i
  | .postApproval now requestId d threadId turnId => h.postApproval now requestId d threadId turnId
  | .lineWritten id =>
    let written := (h.logs.lines id).take ((h.files.lines id).length+1)
    { h with files := h.files.set id written }
  | .persistSessions =>
    { h with snapshot := h.server.store.listSessions.map GatewaySession.persisted }
  | .restart => h.restart

end Harbor

def harbor : Machine Harbor HarborInput Empty where
  init h := h = {}
  step h i := (h.step i,[])

/-- Every announcement that nothing has closed has its pending entry, and a record waits only
while its thread has one. -/
structure NoOrphans (h : Harbor) : Prop where
  lines : ∀ s r n, Unanswered r n (h.logs.lines s) →
    ∃ a, h.bridge.pendingApprovals.get r = some a ∧ a.threadId = s ∧ a.serial = n
  records : ∀ s session, h.server.store.getSession s = some session →
    session.status = .waitingApproval → h.bridge.Asks s

def hasOther (b : CodexBridge) (s r : String) : Bool :=
  b.pendingApprovals.entries.any fun e => e.1 ≠ r ∧ e.2.threadId = s

/-- The entry under the id may go: the record of its thread does not wait, or waits for
another one. -/
def Harbor.spares (h : Harbor) (s r : String) : Bool :=
  h.server.store.Waits s → hasOther h.bridge s r = true

/-- An announcement finds room and an unused id; an entry that goes by decision or timeout
leaves no record waiting, and its expiry is not dropped; entries are not rejected all at once;
no copy of a record that waits is written back when its thread has no entry; and what a
restart finds on the disk neither asks nor waits. -/
def keepsApprovals (h : Harbor) : HarborInput → Bool
  | .bridge _ (.auditDone serial true) =>
    match h.bridge.handler serial with
    | some ⟨q,.auditApproval⟩ =>
      h.bridge.pendingApprovals.size < maxPendingApprovals ∧
        h.bridge.pendingApprovals.get q.id.key = none
    | _ => true
  | .bridge _ (.approvalTimeout serial) =>
    match h.bridge.handler serial with
    | some ⟨q,.waiting⟩ => q.id.key ≠ "" ∧ ∀ s ∈ q.thread, h.spares s q.id.key
    | _ => true
  | .bridge _ .exit | .bridge _ .stdinError | .bridge _ .outputLimit | .bridge _ .shutdown =>
    h.bridge.pendingApprovals.size = 0
  | .gateway (.proceed _ k o) =>
    match (h.server.tasks[k]?).bind (Task.returns h.server o) with
    | some x => x.status = .waitingApproval →
        ∃ e ∈ h.bridge.pendingApprovals.entries, e.2.threadId = x.id
    | none => true
  | .postApproval _ r _ s turnId =>
    match h.bridge.pendingApprovals.get r with
    | some a => a.threadId = s ∧ a.turnId = turnId ∧ (present turnId).isSome → h.spares s r
    | none => true
  | .restart =>
    (∀ e ∈ h.files.entries, unanswered e.2 = []) ∧
      ∀ session ∈ h.snapshot, session.status ≠ .waitingApproval
  | _ => true

section lines

variable {r : String} {n : Nat} {lines : List ApprovalLine}

theorem unanswered_snoc (lines : List ApprovalLine) (line : ApprovalLine) :
    unanswered (lines ++ [line]) = match line with
      | .requested r n => unanswered lines ++ [(r,n)]
      | .resolved r _ | .expired r => (unanswered lines).filter (·.1 ≠ r) := by
  simp only [unanswered,List.foldl_append,List.foldl_cons,List.foldl_nil]

theorem not_unanswered_nil : ¬ Unanswered r n [] := by
  rintro ⟨pre,post,h,-⟩
  simp at h

theorem unanswered_snoc_iff {line : ApprovalLine} :
    Unanswered r n (lines ++ [line]) ↔
      line = .requested r n ∨ Unanswered r n lines ∧ line.closes ≠ some r := by
  constructor
  · rintro ⟨pre,post,heq,hpost⟩
    rcases split_append heq with ⟨mid,hlines,hmid⟩ | ⟨mid,-,hmid⟩
    · refine .inr ⟨⟨pre,mid,hlines,?_⟩,hpost line (by simp [hmid])⟩
      intro other hother
      exact hpost other (by simp [hmid,hother])
    · cases mid with
      | nil =>
        cases hmid
        exact .inl rfl
      | cons m mid => simp at hmid
  · rintro (rfl | ⟨⟨pre,post,rfl,hpost⟩,hline⟩)
    · exact ⟨lines,[],rfl,by simp⟩
    · refine ⟨pre,post ++ [line],by simp,?_⟩
      intro other hother
      rcases List.mem_append.mp hother with hother | hother
      · exact hpost other hother
      · rw [List.mem_singleton.mp hother]
        exact hline

theorem mem_unanswered : (r,n) ∈ unanswered lines ↔ Unanswered r n lines := by
  induction lines using List.reverseRecOn with
  | nil =>
    refine ⟨fun h => by simp [unanswered] at h,fun h => absurd h not_unanswered_nil⟩
  | append_singleton lines line ih =>
    rw [unanswered_snoc_iff,← ih,unanswered_snoc]
    cases line with
    | requested r' n' =>
      simp only [ApprovalLine.closes,List.mem_append,List.mem_singleton,Prod.mk.injEq,
        ApprovalLine.requested.injEq]
      rw [@eq_comm _ r' r,@eq_comm _ n' n,or_comm]
      simp
    | resolved r' d => simp [ApprovalLine.closes,@eq_comm _ r' r]
    | expired r' => simp [ApprovalLine.closes,@eq_comm _ r' r]

end lines

theorem Logs.lines_set (logs : Logs) (s t : String) (ls : List ApprovalLine) :
    Logs.lines (OrdMap.set logs s ls) t = if t = s then ls else logs.lines t := by
  simp only [Logs.lines,OrdMap.get_set]
  split_ifs <;> rfl

theorem Logs.lines_erase (logs : Logs) (s t : String) :
    Logs.lines (OrdMap.erase logs s) t = if t = s then [] else logs.lines t := by
  simp only [Logs.lines,OrdMap.get_erase]
  split_ifs <;> rfl

/-- What a guarded run keeps: besides the two conditions, a handler that waits has its own
entry, and each entry its handler. -/
structure Tidy (h : Harbor) : Prop where
  bridge : ∃ tr, Inv tr h.bridge
  owned : ∀ k ∈ h.bridge.handlers, k.stage = .waiting →
    h.bridge.pendingApprovals.get k.request.id.key = some k.request.entry
  lines : ∀ s r n, Unanswered r n (h.logs.lines s) →
    ∃ a, h.bridge.pendingApprovals.get r = some a ∧ a.threadId = s ∧ a.serial = n
  records : ∀ s, h.server.store.Waits s → h.bridge.Asks s

section steps

variable {h : Harbor}

theorem Tidy.noOrphans (ht : Tidy h) : NoOrphans h where
  lines := ht.lines
  records := fun s session hget hstatus =>
    ht.records s (GatewayStore.waits_iff.mpr ⟨session,hget,hstatus⟩)

theorem Tidy.sameApprovals (ht : Tidy h) {b : CodexBridge} (hinv : ∃ tr, Inv tr b)
    (hb : h.bridge.SameApprovals b) : Tidy { h with bridge := b } where
  bridge := hinv
  owned := by
    intro k hk hw
    rw [hb.entries]
    exact ht.owned k (hb.waiting k hk hw) hw
  lines := by
    intro s r n hu
    rw [hb.entries]
    exact ht.lines s r n hu
  records := by
    intro s hw
    obtain ⟨r,a,hget,hthread⟩ := ht.records s hw
    exact ⟨r,a,by rw [hb.entries]; exact hget,hthread⟩

theorem Tidy.announce (ht : Tidy h) (now : Nat) {b : CodexBridge} {q : ServerRequest} {s : String}
    (hinv : ∃ tr, Inv tr b) (hthread : q.thread = some s)
    (hfresh : h.bridge.pendingApprovals.get q.id.key = none)
    (hentries : ∀ r, b.pendingApprovals.get r =
      if r = q.id.key then some q.entry else h.bridge.pendingApprovals.get r)
    (hwaiting : ∀ k ∈ b.handlers, k.stage = .waiting → k.request = q ∨ k ∈ h.bridge.handlers) :
    Tidy ({ h with bridge := b }.broadcastApproval now s (.requested q.id.key q.serial)) := by
  have hself : b.pendingApprovals.get q.id.key = some q.entry := by rw [hentries,if_pos rfl]
  have hkeep : ∀ r a, h.bridge.pendingApprovals.get r = some a →
      b.pendingApprovals.get r = some a := by
    intro r a hget
    have hne : r ≠ q.id.key := by
      rintro rfl
      rw [hfresh] at hget
      cases hget
    rw [hentries,if_neg hne]
    exact hget
  have hown : q.entry.threadId = s := by simp [ServerRequest.entry,hthread]
  refine ⟨hinv,?_,?_,?_⟩
  · intro k hk hw
    rcases hwaiting k hk hw with rfl | hold
    · exact hself
    · exact hkeep _ _ (ht.owned k hold hw)
  · intro t r n hu
    have hold : Unanswered r n (h.logs.lines t) →
        ∃ a, b.pendingApprovals.get r = some a ∧ a.threadId = t ∧ a.serial = n := by
      intro hu
      obtain ⟨a,hget,hrest⟩ := ht.lines t r n hu
      exact ⟨a,hkeep r a hget,hrest⟩
    simp only [Harbor.broadcastApproval,Logs.lines_set] at hu
    split_ifs at hu with hs
    · subst hs
      rcases unanswered_snoc_iff.mp hu with heq | ⟨hu,-⟩
      · cases heq
        exact ⟨q.entry,hself,hown,rfl⟩
      · exact hold hu
    · exact hold hu
  · intro t hw
    by_cases hs : s = t
    · exact ⟨q.id.key,q.entry,hself,hown.trans hs⟩
    · have hbefore : h.server.store.Waits t := by
        refine h.server.codexEvent_unasked now (.approvalRequested s) ?_ hw
        exact fun heq => hs (by cases heq; rfl)
      obtain ⟨r,a,hget,ha⟩ := ht.records t hbefore
      exact ⟨r,a,hkeep r a hget,ha⟩

theorem Tidy.close (ht : Tidy h) (now : Nat) (line : ApprovalLine) {b : CodexBridge}
    {r s : String} {a : PendingApproval} (hinv : ∃ tr, Inv tr b)
    (hget : h.bridge.pendingApprovals.get r = some a) (hthread : a.threadId = s)
    (hentries : ∀ r', b.pendingApprovals.get r' =
      if r' = r then none else h.bridge.pendingApprovals.get r')
    (hwaiting : ∀ k ∈ b.handlers, k.stage = .waiting →
      k ∈ h.bridge.handlers ∧ k.request.serial ≠ a.serial)
    (hline : line.closes = some r) (hspares : h.spares s r = true) :
    Tidy ({ h with bridge := b }.broadcastApproval now s line) := by
  have hkeep : ∀ r' a', r' ≠ r → h.bridge.pendingApprovals.get r' = some a' →
      b.pendingApprovals.get r' = some a' := by
    intro r' a' hne hget'
    rw [hentries,if_neg hne]
    exact hget'
  have hserver : ({ h with bridge := b }.broadcastApproval now s line).server = h.server := by
    cases line with
    | requested r' n => cases hline
    | _ => rfl
  have hbridge : ({ h with bridge := b }.broadcastApproval now s line).bridge = b := by
    cases line <;> rfl
  have hlogs : ({ h with bridge := b }.broadcastApproval now s line).logs =
      h.logs.set s (h.logs.lines s ++ [line]) := by
    cases line <;> rfl
  refine ⟨by rw [hbridge]; exact hinv,?_,?_,?_⟩
  · rw [hbridge]
    intro k hk hw
    obtain ⟨hold,hserial⟩ := hwaiting k hk hw
    have hkey := ht.owned k hold hw
    refine hkeep _ _ ?_ hkey
    intro hr
    rw [hr,hget] at hkey
    cases hkey
    exact hserial rfl
  · rw [hbridge,hlogs]
    intro t r' n hu
    rw [Logs.lines_set] at hu
    have hold : r' ≠ r → Unanswered r' n (h.logs.lines t) →
        ∃ a, b.pendingApprovals.get r' = some a ∧ a.threadId = t ∧ a.serial = n := by
      intro hne hu
      obtain ⟨a',hget',hrest⟩ := ht.lines t r' n hu
      exact ⟨a',hkeep r' a' hne hget',hrest⟩
    split_ifs at hu with hs
    · subst hs
      rcases unanswered_snoc_iff.mp hu with rfl | ⟨hu,hne⟩
      · cases hline
      · refine hold ?_ hu
        rintro rfl
        exact hne hline
    · refine hold ?_ hu
      rintro rfl
      obtain ⟨a',hget',ha',-⟩ := ht.lines t r' n hu
      rw [hget] at hget'
      cases hget'
      exact hs (ha'.symm.trans hthread)
  · rw [hbridge,hserver]
    intro t hw
    by_cases hs : t = s
    · subst hs
      simp only [Harbor.spares,decide_eq_true_eq] at hspares
      obtain ⟨e,he,hother⟩ := List.any_eq_true.mp (hspares hw)
      simp only [ne_eq,Bool.decide_and,Bool.and_eq_true,decide_eq_true_eq] at hother
      exact ⟨e.1,e.2,hkeep _ _ hother.1 (OrdMap.get_eq_some.mpr he),hother.2⟩
    · obtain ⟨r',a',hget',ha'⟩ := ht.records t hw
      refine ⟨r',a',hkeep r' a' ?_ hget',ha'⟩
      rintro rfl
      rw [hget] at hget'
      cases hget'
      exact hs (ha'.symm.trans hthread)

theorem waiting_setStage {b : CodexBridge} {serial : Nat} {r : RpcResult} {k : Handler}
    (hk : k ∈ (b.setStage serial (.decided r)).handlers) (hw : k.stage = .waiting) :
    k ∈ b.handlers ∧ k.request.serial ≠ serial := by
  obtain ⟨x,hx,rfl⟩ := List.mem_map.mp hk
  by_cases heq : x.request.serial = serial
  · subst heq
    rw [Handler.moveTo_self] at hw
    cases hw
  · rw [Handler.moveTo_of_ne _ heq]
    exact ⟨hx,heq⟩

theorem Tidy.bridgeStep (ht : Tidy h) (now : Nat) {i : BridgeInput}
    (hk : keepsApprovals h (.bridge now i) = true) : Tidy (h.bridgeStep now i) := by
  obtain ⟨tr,hi⟩ := ht.bridge
  have hinv : ∃ tr, Inv tr (h.bridge.step i).1 := ⟨_,hi.step i⟩
  have hquiet : h.bridge.quiet i = true → Tidy { h with bridge := (h.bridge.step i).1 } :=
    fun hq => ht.sameApprovals hinv (CodexBridge.sameApprovals_step hq)
  cases i with
  | exit =>
    have hnone : h.bridge.pendingApprovals.size = 0 := by simpa [keepsApprovals] using hk
    exact ht.sameApprovals hinv (CodexBridge.sameApprovals_rejectAll none hnone)
  | stdinError =>
    have hnone : h.bridge.pendingApprovals.size = 0 := by simpa [keepsApprovals] using hk
    exact ht.sameApprovals hinv (CodexBridge.sameApprovals_rejectAll h.bridge.child hnone)
  | outputLimit =>
    have hnone : h.bridge.pendingApprovals.size = 0 := by simpa [keepsApprovals] using hk
    exact ht.sameApprovals hinv (CodexBridge.sameApprovals_rejectAll _ hnone)
  | shutdown =>
    have hnone : h.bridge.pendingApprovals.size = 0 := by simpa [keepsApprovals] using hk
    exact ht.sameApprovals hinv (CodexBridge.sameApprovals_rejectAll none hnone)
  | setPolicy threadId mode => exact ht
  | resolveApproval requestId d threadId turnId => exact ht
  | auditDone serial ok =>
    cases hh : h.bridge.handler serial with
    | none =>
      have hsame := hquiet (by cases ok <;> simp [CodexBridge.quiet,hh])
      cases ok <;> simpa [Harbor.bridgeStep,approvalNotice,hh] using hsame
    | some k =>
      obtain ⟨q,stage⟩ := k
      obtain ⟨hmem,hserial⟩ := CodexBridge.handler_eq_some hh
      by_cases hasks : ok = true ∧ stage = .auditApproval
      · obtain ⟨rfl,rfl⟩ := hasks
        simp only [keepsApprovals,hh,decide_eq_true_eq] at hk
        obtain ⟨s,hs⟩ := Option.isSome_iff_exists.mp (hi.stage _ hmem).1
        have hstep : (h.bridge.step (.auditDone serial true)).1 =
            ({ h.bridge with
              pendingApprovals := h.bridge.pendingApprovals.set q.id.key q.entry }).setStage
              q.serial .waiting := by
          simp [CodexBridge.step,CodexBridge.auditDone,hh,CodexBridge.afterApprovalAudit,
            Nat.not_le.mpr hk.1,ServerRequest.entry]
        have hnext := ht.announce now hinv hs hk.2 ?_ ?_
        · simpa [Harbor.bridgeStep,approvalNotice,hh,hs] using hnext
        · intro r
          rw [hstep]
          exact OrdMap.get_set _ _ _ _
        · rw [hstep]
          intro x hx hw
          obtain ⟨y,hy,rfl⟩ := List.mem_map.mp hx
          by_cases heq : y.request.serial = q.serial
          · have hy : y = ⟨q,.auditApproval⟩ := hi.eq_of_serial hy hmem heq
            exact .inl (by rw [Handler.moveTo_request,hy])
          · rw [Handler.moveTo_of_ne _ heq]
            exact .inr hy
      · have hsame := hquiet (by cases ok <;> simp_all [CodexBridge.quiet])
        cases ok with
        | false => exact hsame
        | true =>
          cases stage with
          | auditApproval => exact absurd ⟨rfl,rfl⟩ hasks
          | _ => simpa [Harbor.bridgeStep,approvalNotice,hh] using hsame
  | approvalTimeout serial =>
    cases hh : h.bridge.handler serial with
    | none =>
      have hsame := hquiet (by simp [CodexBridge.quiet,hh])
      simpa [Harbor.bridgeStep,approvalNotice,hh] using hsame
    | some k =>
      obtain ⟨q,stage⟩ := k
      obtain ⟨hmem,hserial⟩ := CodexBridge.handler_eq_some hh
      by_cases hw : stage = .waiting
      · subst hw
        simp only [keepsApprovals,hh,decide_eq_true_eq] at hk
        obtain ⟨s,hs⟩ := Option.isSome_iff_exists.mp (hi.stage _ hmem).1
        have hstep : (h.bridge.step (.approvalTimeout serial)).1 =
            ({ h.bridge with
              pendingApprovals := h.bridge.pendingApprovals.erase q.id.key }).setStage
              serial (.decided (approvalResult q.method { decision := .deny })) := by
          simp [CodexBridge.step,CodexBridge.approvalTimeout,hh]
        have hnext := ht.close now (.expired q.id.key) hinv (ht.owned _ hmem rfl)
          (by simp [ServerRequest.entry,hs]) ?_ ?_ rfl (hk.2 s hs)
        · simpa [Harbor.bridgeStep,approvalNotice,hh,hs,hk.1] using hnext
        · intro r
          rw [hstep]
          exact OrdMap.get_erase _ _ _
        · rw [hstep]
          intro x hx hw
          obtain ⟨hold,hne⟩ := waiting_setStage hx hw
          exact ⟨hold,by rw [← hserial] at hne; exact hne⟩
      · have hsame := hquiet (by simp [CodexBridge.quiet,hh,hw])
        cases stage with
        | waiting => exact absurd rfl hw
        | _ => simpa [Harbor.bridgeStep,approvalNotice,hh] using hsame
  | _ => exact hquiet rfl

theorem Tidy.postApproval (ht : Tidy h) (now : Nat) {r s : String} {d : ApprovalDecision}
    {turnId : Option String} (hk : keepsApprovals h (.postApproval now r d s turnId) = true) :
    Tidy (h.postApproval now r d s turnId) := by
  obtain ⟨tr,hi⟩ := ht.bridge
  have hinv : ∃ tr, Inv tr (h.bridge.step (.resolveApproval r d s turnId)).1 := ⟨_,hi.step _⟩
  simp only [Harbor.postApproval]
  split_ifs with hout
  · exact ht
  · by_cases hs : s = ""
    · simp [CodexBridge.step,hs] at hout
    · cases hget : h.bridge.pendingApprovals.get r with
      | none => simp [CodexBridge.step,hs,CodexBridge.resolveApproval,hget] at hout
      | some a =>
        simp only [keepsApprovals,hget,decide_eq_true_eq] at hk
        by_cases hmatch : a.threadId = s ∧ a.turnId = turnId ∧ (present turnId).isSome
        · obtain ⟨hthread,hturn,hpresent⟩ := hmatch
          have hstep : (h.bridge.step (.resolveApproval r d s turnId)).1 =
              ({ h.bridge with
                pendingApprovals := h.bridge.pendingApprovals.erase r }).setStage
                a.serial (.decided (approvalResult a.method d)) := by
            have hsome : present turnId ≠ none := Option.isSome_iff_ne_none.mp hpresent
            simp [CodexBridge.step,hs,CodexBridge.resolveApproval,hget,hthread,hsome,hturn]
          refine ht.close now (.resolved r d.decision) hinv hget hthread ?_ ?_ rfl
            (hk ⟨hthread,hturn,hpresent⟩)
          · intro r'
            rw [hstep]
            exact OrdMap.get_erase _ _ _
          · rw [hstep]
            intro x hx hw
            exact waiting_setStage hx hw
        · refine absurd ?_ hout
          simp only [CodexBridge.step,if_neg hs,CodexBridge.resolveApproval,hget]
          split_ifs with hthread hturn
          · rfl
          · rfl
          · rw [not_or,not_ne_iff] at hturn
            refine absurd ⟨not_ne_iff.mp hthread,hturn.2,?_⟩ hmatch
            rw [← hturn.2]
            exact Option.isSome_iff_ne_none.mpr hturn.1

theorem Tidy.served (ht : Tidy h) (server : Server)
    (hw : ∀ s, server.store.Waits s → h.server.store.Waits s ∨ h.bridge.Asks s) :
    Tidy { h with
      server := server
      bridge := { h.bridge with policyByThread := server.policyByThread } } where
  bridge := by
    obtain ⟨tr,hi⟩ := ht.bridge
    exact ⟨tr ++ [],hi.frame (by rfl) (by rfl) (by rfl) (by simp)⟩
  owned := ht.owned
  lines := ht.lines
  records := by
    intro s hs
    rcases hw s hs with hs | hs
    · exact ht.records s hs
    · exact hs

theorem Tidy.erased (ht : Tidy h) (id : String) :
    Tidy { h with logs := h.logs.erase id, files := h.files.erase id } where
  bridge := ht.bridge
  owned := ht.owned
  lines := by
    intro s r n hu
    rw [Logs.lines_erase] at hu
    split_ifs at hu
    · exact absurd hu not_unanswered_nil
    · exact ht.lines s r n hu
  records := ht.records

theorem Tidy.gatewayStep (ht : Tidy h) {i : Input} (hk : keepsApprovals h (.gateway i) = true) :
    Tidy (h.gatewayStep i) := by
  by_cases hann : ∃ t s, i = .request t (.codex (.approvalRequested s))
  · obtain ⟨t,s,rfl⟩ := hann
    exact ht
  · have hserved := ht.served (h.server.step i).1 ?_
    · cases i with
      | proceed t k o => exact hserved
      | request t q =>
        cases q with
        | codex event =>
          cases event with
          | approvalRequested s => exact absurd ⟨t,s,rfl⟩ hann
          | _ => exact hserved
        | deleteSession id => exact hserved.erased id
        | _ => exact hserved
    · intro s hw
      by_cases hback : h.bridge.Asks s
      · exact .inr hback
      · refine .inl (h.server.step_unasked i ?_ ?_ hw)
        · rintro t event rfl rfl
          exact hann ⟨t,s,rfl⟩
        · rintro t k o task rfl htask x hx rfl hstatus
          simp only [keepsApprovals,htask,Option.bind_some,hx,decide_eq_true_eq] at hk
          obtain ⟨e,he,hthread⟩ := hk hstatus
          exact absurd ⟨e.1,e.2,OrdMap.get_eq_some.mpr he,hthread⟩ hback

theorem normalizePersistedSession_waiting {x : GatewaySession}
    (hx : x.normalizePersistedSession.status = .waitingApproval) : x.status = .waitingApproval := by
  simp only [GatewaySession.normalizePersistedSession] at hx
  split_ifs at hx
  exact hx

theorem waits_load {st : GatewayStore} {snapshot : List GatewaySession} {s : String}
    (hw : (st.load snapshot).Waits s) : ∃ x ∈ snapshot, x.status = .waitingApproval := by
  have hfold : ∀ st : GatewayStore, ¬ st.Waits s → (snapshot.foldl (fun st session =>
      st.saveSession session.normalizePersistedSession) st).Waits s →
      ∃ x ∈ snapshot, x.status = .waitingApproval := by
    clear hw
    induction snapshot with
    | nil =>
      intro st hst hw
      exact absurd hw hst
    | cons x xs ih =>
      intro st hst hw
      by_cases hx : x.status = .waitingApproval
      · exact ⟨x,List.mem_cons_self,hx⟩
      · have hsaved : ¬ (st.saveSession x.normalizePersistedSession).Waits s := by
          intro hsaved
          obtain ⟨y,hy,hstatus⟩ := GatewayStore.waits_iff.mp hsaved
          rw [GatewayStore.getSession_saveSession] at hy
          split_ifs at hy
          · cases hy
            exact hx (normalizePersistedSession_waiting hstatus)
          · exact hst (GatewayStore.waits_iff.mpr ⟨y,hy,hstatus⟩)
        obtain ⟨y,hy,hstatus⟩ := ih _ hsaved hw
        exact ⟨y,List.mem_cons_of_mem x hy,hstatus⟩
  exact hfold _ (by simp [GatewayStore.Waits,GatewayStore.view,GatewayStore.getSession,
    GatewayStore.empty]) hw

theorem inv_fresh (pid serial : Nat) : Inv [] { nextPid := pid, nextSerial := serial } := by
  constructor <;> simp

theorem Tidy.restart (hk : keepsApprovals h .restart = true) : Tidy h.restart where
  bridge := ⟨[],inv_fresh _ _⟩
  owned := by simp [Harbor.restart]
  lines := by
    simp only [keepsApprovals,decide_eq_true_eq] at hk
    intro s r n hu
    have hfile : Unanswered r n (h.files.lines s) := hu
    simp only [Logs.lines] at hfile
    cases hget : OrdMap.get h.files s with
    | none =>
      rw [hget] at hfile
      exact absurd hfile not_unanswered_nil
    | some lines =>
      rw [hget] at hfile
      have hmem := mem_unanswered.mpr hfile
      rw [Option.getD_some,hk.1 (s,lines) (OrdMap.get_eq_some.mp hget)] at hmem
      cases hmem
  records := by
    simp only [keepsApprovals,decide_eq_true_eq] at hk
    intro s hw
    obtain ⟨x,hx,hstatus⟩ := waits_load hw
    exact absurd hstatus (hk.2 x hx)

theorem Tidy.step (ht : Tidy h) {i : HarborInput} (hk : keepsApprovals h i = true) :
    Tidy (h.step i) := by
  cases i with
  | bridge now i => exact ht.bridgeStep now hk
  | gateway i => exact ht.gatewayStep hk
  | postApproval now r d s turnId => exact ht.postApproval now hk
  | lineWritten id => exact ⟨ht.bridge,ht.owned,ht.lines,ht.records⟩
  | persistSessions => exact ⟨ht.bridge,ht.owned,ht.lines,ht.records⟩
  | restart => exact Tidy.restart hk

end steps

/-- In every run whose steps meet the condition no announcement is orphaned and no record is
left waiting. -/
theorem approvals_pending {tr : List Empty} {h : Harbor}
    (hr : harbor.Run (fun _ h i => keepsApprovals h i = true) tr h) : NoOrphans h := by
  have ht : Tidy h := by
    apply hr.invariant (P := fun _ h => Tidy h)
    · rintro h rfl
      refine ⟨⟨[],Inv.init⟩,by simp,?_,?_⟩
      · intro s r n hu
        exact absurd hu not_unanswered_nil
      · intro s hw
        cases hw
    · intro tr h i ht hk
      exact ht.step hk
  exact ht.noOrphans

namespace Sample

/-- A stored session whose turn asks for the approval of a command. -/
def approvalAsked : List HarborInput :=
  (importSession "t").map HarborInput.gateway ++ [.bridge 2 .spawn,
    .bridge 3 (.message 0 {
      id := some (.num "7")
      method := some .commandExecutionApproval
      threadId := some "t"
      turnId := some "turn-1" }),
    .bridge 4 (.auditDone 0 true),.bridge 5 (.auditDone 0 true)]

/-- The thread reports that it runs, the approval is given, and the gateway is restarted when
all of that is on the disk. -/
def approvalGiven : List HarborInput :=
  approvalAsked ++ [.gateway (.request 6 (.codex (.threadStatusChanged "t" (some "active")))),
    .postApproval 7 "7" { decision := .approve } "t" (some "turn-1"),
    .lineWritten "t",.lineWritten "t",.persistSessions,.restart]

/-- The app-server exits before an answer is given. -/
def approvalLost : List HarborInput := approvalAsked ++ [.bridge 6 .exit]

end Sample

theorem approvalGiven_noOrphans :
    (harbor.exec [] {} Sample.approvalAsked).2.bridge.pendingApprovals.size = 1 ∧
    (harbor.exec [] {} Sample.approvalGiven).2.logs.lines "t" =
      [.requested "7" 0,.resolved "7" .approve] ∧
    NoOrphans (harbor.exec [] {} Sample.approvalGiven).2 := by
  have hrun : harbor.Run (fun _ h i => keepsApprovals h i = true) [] {} := .start rfl
  exact ⟨by decide +kernel,by decide +kernel,
    approvals_pending (hrun.exec Sample.approvalGiven (by decide +kernel))⟩

/-- `rejectAll` takes the entry and says nothing, so the prompt stays and cannot be answered. -/
theorem approvalLost_orphaned :
    harbor.Run harbor.free (harbor.exec [] {} Sample.approvalLost).1
      (harbor.exec [] {} Sample.approvalLost).2 ∧
    ¬ NoOrphans (harbor.exec [] {} Sample.approvalLost).2 := by
  have hrun : harbor.Run harbor.free [] {} := .start rfl
  refine ⟨hrun.exec _ (harbor.allowed_free _ _ _),?_⟩
  intro h
  have hopen : Unanswered "7" 0 ((harbor.exec [] {} Sample.approvalLost).2.logs.lines "t") :=
    mem_unanswered.mp (by decide +kernel)
  obtain ⟨a,hget,-⟩ := h.lines "t" "7" 0 hopen
  have hnone : (harbor.exec [] {} Sample.approvalLost).2.bridge.pendingApprovals.get "7" = none := by
    decide +kernel
  rw [hnone] at hget
  cases hget

end CodeHarbor.Gateway
