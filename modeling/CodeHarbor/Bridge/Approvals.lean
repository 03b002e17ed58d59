import CodeHarbor.Bridge.Rpc
set_option autoImplicit false

namespace CodeHarbor.Bridge
open Lib

/-- What entitles a request to an accepting reply: its thread was in full access when the
mode was read, or it was approved by thread and turn while announced and not yet denied. -/
def Granted (pre : List BridgeEvent) (q : ServerRequest) : Prop :=
  .handled q.serial .fullAccess ∈ pre ∨
  ∃ a z threadId turnId, pre = a ++ .resolved q.serial .approve threadId turnId :: z ∧
    q.threadId = some threadId ∧ q.turnId = turnId ∧ (present turnId).isSome ∧
    .announced q.serial ∈ a ∧ .denied q.serial ∉ a

def Handler.StageOk (tr : List BridgeEvent) (h : Handler) : Prop :=
  match h.stage with
  | .auditRequest => .denied h.request.serial ∉ tr
  | .auditApproval => h.request.thread.isSome ∧ h.request.method.isApprovalRequest = true ∧
      .denied h.request.serial ∉ tr
  | .waiting => h.request.thread.isSome ∧ h.request.method.isApprovalRequest = true ∧
      .denied h.request.serial ∉ tr ∧ .announced h.request.serial ∈ tr
  | .decided r => r.accepting = true →
      h.request.method.isApprovalRequest = true ∧ Granted tr h.request

def ServerRequest.entry (q : ServerRequest) : PendingApproval :=
  ⟨q.thread.getD "",q.turnId,q.method,q.serial⟩

structure Inv (tr : List BridgeEvent) (b : CodexBridge) : Prop where
  below : ∀ h ∈ b.handlers, h.request.serial < b.nextSerial
  distinct : (b.handlers.map (·.request.serial)).Nodup
  received : ∀ h ∈ b.handlers, .received h.request ∈ tr
  deniedBelow : ∀ n, .denied n ∈ tr → n < b.nextSerial
  stage : ∀ h ∈ b.handlers, h.StageOk tr
  entries : ∀ key a, b.pendingApprovals.get key = some a → ∃ h ∈ b.handlers,
    h.stage = .waiting ∧ h.request.id.key = key ∧ a = h.request.entry

theorem Granted.append {pre out : List BridgeEvent} {q : ServerRequest} (h : Granted pre q) :
    Granted (pre ++ out) q := by
  rcases h with h | ⟨a,z,threadId,turnId,hpre,rest⟩
  · exact .inl (List.mem_append_left _ h)
  · exact .inr ⟨a,z ++ out,threadId,turnId,by simp [hpre],rest⟩

theorem Handler.StageOk.append {tr out : List BridgeEvent} {h : Handler} (hs : h.StageOk tr)
    (hout : .denied h.request.serial ∉ out) : h.StageOk (tr ++ out) := by
  obtain ⟨q,stage⟩ := h
  cases stage with
  | auditRequest =>
    simp only [StageOk] at *
    simp [hs,hout]
  | auditApproval =>
    simp only [StageOk] at *
    simp [hs,hout]
  | waiting =>
    simp only [StageOk] at *
    simp [hs,hout]
  | decided r =>
    intro hr
    obtain ⟨hm,hg⟩ := hs hr
    exact ⟨hm,hg.append⟩

theorem CodexBridge.handler_eq_some {b : CodexBridge} {serial : Nat} {h : Handler}
    (hh : b.handler serial = some h) : h ∈ b.handlers ∧ h.request.serial = serial := by
  have hp := List.find?_some hh
  exact ⟨List.mem_of_find?_eq_some hh,by simpa using hp⟩

theorem Inv.eq_of_serial {tr : List BridgeEvent} {b : CodexBridge} (hi : Inv tr b)
    {h k : Handler} (hh : h ∈ b.handlers) (hk : k ∈ b.handlers)
    (heq : h.request.serial = k.request.serial) : h = k :=
  List.inj_on_of_nodup_map hi.distinct hh hk heq

theorem Inv.frame {tr out : List BridgeEvent} {b b' : CodexBridge} (hi : Inv tr b)
    (hh : b'.handlers = b.handlers) (hn : b'.nextSerial = b.nextSerial)
    (ha : b'.pendingApprovals = b.pendingApprovals) (hout : ∀ n, .denied n ∉ out) :
    Inv (tr ++ out) b' where
  below := by rw [hh,hn]; exact hi.below
  distinct := by rw [hh]; exact hi.distinct
  received := by
    intro h hmem
    rw [hh] at hmem
    exact List.mem_append_left _ (hi.received h hmem)
  deniedBelow := by
    intro n hmem
    rw [hn]
    rcases List.mem_append.mp hmem with hmem | hmem
    · exact hi.deniedBelow n hmem
    · exact absurd hmem (hout n)
  stage := by
    intro h hmem
    rw [hh] at hmem
    exact (hi.stage h hmem).append (hout _)
  entries := by rw [ha,hh]; exact hi.entries

theorem Inv.update {tr out : List BridgeEvent} {b b' : CodexBridge} {g : Handler → Handler}
    (hi : Inv tr b) (hreq : ∀ h, (g h).request = h.request)
    (hh : b'.handlers = b.handlers.map g) (hn : b'.nextSerial = b.nextSerial)
    (hden : ∀ n, .denied n ∈ out → n < b.nextSerial)
    (hstage : ∀ h ∈ b.handlers, (g h).StageOk (tr ++ out))
    (hentries : ∀ key a, b'.pendingApprovals.get key = some a → ∃ h ∈ b.handlers,
      (g h).stage = .waiting ∧ h.request.id.key = key ∧ a = h.request.entry) :
    Inv (tr ++ out) b' where
  below := by
    rw [hh,hn]
    intro h hmem
    obtain ⟨k,hk,rfl⟩ := List.mem_map.mp hmem
    rw [hreq]
    exact hi.below k hk
  distinct := by
    have hsame : (b.handlers.map g).map (·.request.serial) =
        b.handlers.map (·.request.serial) := by
      rw [List.map_map]
      exact List.map_congr_left (fun h _ => by simp [hreq])
    rw [hh,hsame]
    exact hi.distinct
  received := by
    intro h hmem
    rw [hh] at hmem
    obtain ⟨k,hk,rfl⟩ := List.mem_map.mp hmem
    rw [hreq]
    exact List.mem_append_left _ (hi.received k hk)
  deniedBelow := by
    intro n hmem
    rw [hn]
    rcases List.mem_append.mp hmem with hmem | hmem
    · exact hi.deniedBelow n hmem
    · exact hden n hmem
  stage := by
    intro h hmem
    rw [hh] at hmem
    obtain ⟨k,hk,rfl⟩ := List.mem_map.mp hmem
    exact hstage k hk
  entries := by
    intro key a ha
    obtain ⟨k,hk,hw,hkey,he⟩ := hentries key a ha
    rw [hh]
    exact ⟨g k,List.mem_map_of_mem hk,hw,by rw [hreq]; exact hkey,by rw [hreq]; exact he⟩

theorem Inv.drop {tr out : List BridgeEvent} {b : CodexBridge} (hi : Inv tr b) {h : Handler}
    (hmem : h ∈ b.handlers) (hstage : h.stage ≠ .waiting)
    (hden : ∀ n, .denied n ∈ out → n = h.request.serial) :
    Inv (tr ++ out) (b.dropHandler h.request.serial) where
  below := by
    intro k hk
    exact hi.below k (List.mem_filter.mp hk).1
  distinct := hi.distinct.sublist (List.filter_sublist.map _)
  received := by
    intro k hk
    exact List.mem_append_left _ (hi.received k (List.mem_filter.mp hk).1)
  deniedBelow := by
    intro n hn
    rcases List.mem_append.mp hn with hn | hn
    · exact hi.deniedBelow n hn
    · rw [hden n hn]
      exact hi.below h hmem
  stage := by
    intro k hk
    obtain ⟨hk,hne⟩ := List.mem_filter.mp hk
    apply (hi.stage k hk).append
    intro hn
    exact absurd (hden _ hn) (by simpa using hne)
  entries := by
    intro key a ha
    obtain ⟨k,hk,hw,hkey,he⟩ := hi.entries key a ha
    refine ⟨k,List.mem_filter.mpr ⟨hk,?_⟩,hw,hkey,he⟩
    have hne : k.request.serial ≠ h.request.serial := by
      intro heq
      exact hstage (hi.eq_of_serial hk hmem heq ▸ hw)
    simpa using hne

theorem CodexBridge.finish_fst (b : CodexBridge) (q : ServerRequest) (outcome : Outcome) :
    (b.finish q outcome).1 = b.dropHandler q.serial := by
  unfold finish
  split <;> rfl

theorem CodexBridge.denied_notMem_finish (b : CodexBridge) (q : ServerRequest)
    (outcome : Outcome) (n : Nat) : .denied n ∉ (b.finish q outcome).2 := by
  unfold finish
  split <;> simp

theorem Handler.moveTo_request (serial : Nat) (stage : Stage) (h : Handler) :
    (h.moveTo serial stage).request = h.request := by
  unfold Handler.moveTo
  split_ifs <;> rfl

theorem Handler.moveTo_of_ne {serial : Nat} (stage : Stage) {h : Handler}
    (hne : h.request.serial ≠ serial) : h.moveTo serial stage = h := if_neg hne

theorem Handler.moveTo_self (stage : Stage) (h : Handler) :
    h.moveTo h.request.serial stage = { h with stage := stage } := if_pos rfl

/-- One handler changes stage. An entry of the new approval table belongs to it, if it now
waits, or to another waiting handler. -/
theorem Inv.setStage {tr out : List BridgeEvent} {b b' : CodexBridge} (hi : Inv tr b)
    {h : Handler} (hmem : h ∈ b.handlers) (stage : Stage)
    (hh : b'.handlers = b.handlers.map (Handler.moveTo h.request.serial stage))
    (hn : b'.nextSerial = b.nextSerial)
    (hden : ∀ n, .denied n ∈ out → n = h.request.serial)
    (hok : ({ h with stage := stage } : Handler).StageOk (tr ++ out))
    (hentries : ∀ key a, b'.pendingApprovals.get key = some a →
      stage = .waiting ∧ h.request.id.key = key ∧ a = h.request.entry ∨
      ∃ k ∈ b.handlers, k.request.serial ≠ h.request.serial ∧ k.stage = .waiting ∧
        k.request.id.key = key ∧ a = k.request.entry) : Inv (tr ++ out) b' := by
  apply hi.update (Handler.moveTo_request h.request.serial stage) hh hn
  · intro n hmem'
    rw [hden n hmem']
    exact hi.below h hmem
  · intro k hk
    by_cases heq : k.request.serial = h.request.serial
    · have hkh := hi.eq_of_serial hk hmem heq
      subst hkh
      rw [Handler.moveTo_self]
      exact hok
    · rw [Handler.moveTo_of_ne stage heq]
      exact (hi.stage k hk).append (fun hd => heq (hden _ hd))
  · intro key a ha
    rcases hentries key a ha with ⟨hw,hkey,he⟩ | ⟨k,hk,hne,hw,hkey,he⟩
    · refine ⟨h,hmem,?_,hkey,he⟩
      rw [Handler.moveTo_self]
      exact hw
    · refine ⟨k,hk,?_,hkey,he⟩
      rw [Handler.moveTo_of_ne stage hne]
      exact hw

theorem Inv.entries_erase {tr : List BridgeEvent} {b : CodexBridge} (hi : Inv tr b)
    {h : Handler} (hmem : h ∈ b.handlers) {key : String} {a : PendingApproval}
    (ha : (b.pendingApprovals.erase h.request.id.key).get key = some a) :
    ∃ k ∈ b.handlers, k.request.serial ≠ h.request.serial ∧ k.stage = .waiting ∧
      k.request.id.key = key ∧ a = k.request.entry := by
  rw [OrdMap.get_erase] at ha
  split_ifs at ha with hkey
  obtain ⟨k,hk,hw,hkk,he⟩ := hi.entries key a ha
  refine ⟨k,hk,?_,hw,hkk,he⟩
  intro heq
  have hkh := hi.eq_of_serial hk hmem heq
  subst hkh
  exact hkey hkk.symm

theorem Inv.entries_ne {tr : List BridgeEvent} {b : CodexBridge} (hi : Inv tr b)
    {h : Handler} (hmem : h ∈ b.handlers) (hstage : h.stage ≠ .waiting) {key : String}
    {a : PendingApproval} (ha : b.pendingApprovals.get key = some a) :
    ∃ k ∈ b.handlers, k.request.serial ≠ h.request.serial ∧ k.stage = .waiting ∧
      k.request.id.key = key ∧ a = k.request.entry := by
  obtain ⟨k,hk,hw,hkey,he⟩ := hi.entries key a ha
  refine ⟨k,hk,?_,hw,hkey,he⟩
  intro heq
  exact hstage (hi.eq_of_serial hk hmem heq ▸ hw)

theorem Inv.finish {tr : List BridgeEvent} {b : CodexBridge} (hi : Inv tr b) {h : Handler}
    (hmem : h ∈ b.handlers) (hstage : h.stage ≠ .waiting) (pre : List BridgeEvent)
    (outcome : Outcome) (hpre : ∀ n, .denied n ∈ pre → n = h.request.serial) :
    Inv (tr ++ (pre ++ (b.finish h.request outcome).2)) (b.finish h.request outcome).1 := by
  rw [CodexBridge.finish_fst]
  apply hi.drop hmem hstage
  intro n hn
  rcases List.mem_append.mp hn with hn | hn
  · exact hpre n hn
  · exact absurd hn (b.denied_notMem_finish h.request outcome n)

theorem approvalResult_deny (method : Method) :
    (approvalResult method { decision := .deny }).accepting = false := by
  cases method <;> rfl

theorem Inv.rejectAll {tr : List BridgeEvent} {b : CodexBridge} (hi : Inv tr b) :
    Inv (tr ++ b.rejectAll.2) b.rejectAll.1 := by
  have hentry : ∀ a ∈ b.pendingApprovals.entries.map Prod.snd, ∃ h ∈ b.handlers,
      h.stage = .waiting ∧ a = h.request.entry := by
    intro a ha
    obtain ⟨e,he,rfl⟩ := List.mem_map.mp ha
    obtain ⟨h,hh,hw,-,hq⟩ := hi.entries e.1 e.2 (OrdMap.get_eq_some.mpr he)
    exact ⟨h,hh,hw,hq⟩
  have hdenied : ∀ n, .denied n ∈ b.rejectAll.2 →
      ∃ a ∈ b.pendingApprovals.entries.map Prod.snd, a.serial = n := by
    intro n hn
    simp only [CodexBridge.rejectAll,List.mem_append,List.mem_map] at hn
    rcases hn with ⟨e,-,he⟩ | ⟨a,ha,he⟩
    · cases he
    · cases he
      exact ⟨a,List.mem_map.mpr ha,rfl⟩
  have hreq : ∀ h, (Handler.reject (b.pendingApprovals.entries.map Prod.snd) h).request =
      h.request := by
    intro h
    unfold Handler.reject
    split <;> rfl
  refine hi.update hreq (by rfl) (by rfl) ?_ ?_ ?_
  · intro n hn
    obtain ⟨a,ha,rfl⟩ := hdenied n hn
    obtain ⟨h,hh,-,rfl⟩ := hentry a ha
    exact hi.below h hh
  · intro h hh
    unfold Handler.reject
    split
    · rename_i a ha
      intro hacc
      rw [approvalResult_deny] at hacc
      cases hacc
    · rename_i hnone
      apply (hi.stage h hh).append
      intro hn
      obtain ⟨a,ha,hserial⟩ := hdenied _ hn
      have hne := List.find?_eq_none.mp hnone a ha
      exact hne (by simpa using hserial)
  · intro key a ha
    simp [CodexBridge.rejectAll] at ha

theorem Inv.handleMessage {tr : List BridgeEvent} {b : CodexBridge} (hi : Inv tr b) (pid : Nat)
    (m : Message) : Inv (tr ++ (b.handleMessage pid m).2) (b.handleMessage pid m).1 := by
  unfold CodexBridge.handleMessage
  cases hid : m.id with
  | none => exact hi.frame (by rfl) (by rfl) (by rfl) (by simp)
  | some id =>
    dsimp only
    split_ifs
    · exact hi.frame (by rfl) (by rfl) (by rfl) (by simp)
    · cases m.method with
      | none => exact hi.frame (by rfl) (by rfl) (by rfl) (by simp)
      | some method =>
        have hnew : .denied b.nextSerial ∉ tr :=
          fun hn => Nat.lt_irrefl _ (hi.deniedBelow _ hn)
        constructor
        · intro h hh
          rcases List.mem_append.mp hh with hh | hh
          · exact Nat.lt_succ_of_lt (hi.below h hh)
          · rw [List.mem_singleton.mp hh]
            exact Nat.lt_succ_self _
        · rw [List.map_append]
          apply List.Nodup.append hi.distinct (by simp)
          simp only [List.map_cons,List.map_nil,List.disjoint_singleton]
          intro hmem
          obtain ⟨h,hh,heq⟩ := List.mem_map.mp hmem
          exact Nat.ne_of_lt (hi.below h hh) heq
        · intro h hh
          rcases List.mem_append.mp hh with hh | hh
          · exact List.mem_append_left _ (hi.received h hh)
          · rw [List.mem_singleton.mp hh]
            simp
        · intro n hn
          have hn : .denied n ∈ tr := by simpa using hn
          exact Nat.lt_succ_of_lt (hi.deniedBelow n hn)
        · intro h hh
          rcases List.mem_append.mp hh with hh | hh
          · exact (hi.stage h hh).append (by simp)
          · rw [List.mem_singleton.mp hh]
            simpa [Handler.StageOk] using hnew
        · intro key a ha
          obtain ⟨h,hh,rest⟩ := hi.entries key a ha
          exact ⟨h,List.mem_append_left _ hh,rest⟩

theorem Inv.afterRequestAudit {tr : List BridgeEvent} {b : CodexBridge} (hi : Inv tr b)
    {h : Handler} (hmem : h ∈ b.handlers) (hstage : h.stage = .auditRequest) :
    Inv (tr ++ (b.afterRequestAudit h.request).2) (b.afterRequestAudit h.request).1 := by
  have hnot : h.stage ≠ .waiting := by simp [hstage]
  unfold CodexBridge.afterRequestAudit
  dsimp only
  split_ifs with hask
  · cases ht : h.request.thread with
    | none => exact hi.finish hmem hnot [_,_] _ (by simp)
    | some threadId =>
      refine hi.setStage hmem .auditApproval (by rfl) (by rfl) (by simp) ?_ ?_
      · have hs := hi.stage h hmem
        simp only [Handler.StageOk,hstage] at hs
        refine ⟨by simp [ht],hask.2,?_⟩
        simpa using hs
      · intro key a ha
        exact .inr (hi.entries_ne hmem hnot ha)
  · exact hi.finish hmem hnot [_] _ (by simp)

theorem Inv.afterApprovalAudit {tr : List BridgeEvent} {b : CodexBridge} (hi : Inv tr b)
    {h : Handler} (hmem : h ∈ b.handlers) (hstage : h.stage = .auditApproval) :
    Inv (tr ++ (b.afterApprovalAudit h.request).2) (b.afterApprovalAudit h.request).1 := by
  have hnot : h.stage ≠ .waiting := by simp [hstage]
  unfold CodexBridge.afterApprovalAudit
  dsimp only
  split_ifs
  · exact hi.finish hmem hnot [_,_] _ (by simp)
  · refine hi.setStage hmem .waiting (by rfl) (by rfl) (by simp) ?_ ?_
    · have hs := hi.stage h hmem
      simp only [Handler.StageOk,hstage] at hs
      refine ⟨hs.1,hs.2.1,?_,by simp⟩
      simpa using hs.2.2
    · intro key a ha
      simp only [CodexBridge.setStage,OrdMap.get_set] at ha
      split_ifs at ha with hkey
      · exact .inl ⟨rfl,hkey.symm,(Option.some.inj ha).symm⟩
      · exact .inr (hi.entries_ne hmem hnot ha)

theorem Inv.auditDone {tr : List BridgeEvent} {b : CodexBridge} (hi : Inv tr b) (serial : Nat)
    (ok : Bool) : Inv (tr ++ (b.auditDone serial ok).2) (b.auditDone serial ok).1 := by
  unfold CodexBridge.auditDone
  cases hh : b.handler serial with
  | none => exact hi.frame (by rfl) (by rfl) (by rfl) (by simp)
  | some h =>
    obtain ⟨hmem,-⟩ := CodexBridge.handler_eq_some hh
    obtain ⟨q,stage⟩ := h
    cases stage with
    | auditRequest =>
      cases ok with
      | true => exact hi.afterRequestAudit hmem rfl
      | false => exact hi.finish hmem (by simp) [] _ (by simp)
    | auditApproval =>
      cases ok with
      | true => exact hi.afterApprovalAudit hmem rfl
      | false => exact hi.finish hmem (by simp) [] _ (by simp)
    | waiting => simpa using hi
    | decided r => simpa using hi

theorem Inv.approvalTimeout {tr : List BridgeEvent} {b : CodexBridge} (hi : Inv tr b)
    (serial : Nat) :
    Inv (tr ++ (b.approvalTimeout serial).2) (b.approvalTimeout serial).1 := by
  unfold CodexBridge.approvalTimeout
  cases hh : b.handler serial with
  | none => exact hi.frame (by rfl) (by rfl) (by rfl) (by simp)
  | some h =>
    obtain ⟨hmem,rfl⟩ := CodexBridge.handler_eq_some hh
    obtain ⟨q,stage⟩ := h
    cases stage with
    | waiting =>
      dsimp only
      refine hi.setStage hmem (.decided _) (by rfl) (by rfl) (by simp) ?_ ?_
      · intro hacc
        rw [approvalResult_deny] at hacc
        cases hacc
      · intro key a ha
        exact .inr (hi.entries_erase hmem ha)
    | auditRequest => simpa using hi
    | auditApproval => simpa using hi
    | decided r => simpa using hi

theorem present_eq_some {text : Option String} {value : String} (h : present text = some value) :
    text = some value :=
  (Option.filter_eq_some_iff.mp h).1

theorem Inv.resolveApproval {tr : List BridgeEvent} {b : CodexBridge} (hi : Inv tr b)
    (requestId : String) (d : ApprovalDecision) (threadId : String) (turnId : Option String) :
    Inv (tr ++ (b.resolveApproval requestId d threadId turnId).2)
      (b.resolveApproval requestId d threadId turnId).1 := by
  unfold CodexBridge.resolveApproval
  cases hg : b.pendingApprovals.get requestId with
  | none => exact hi.frame (by rfl) (by rfl) (by rfl) (by simp)
  | some a =>
    dsimp only
    split_ifs with hthread hturn
    · exact hi.frame (by rfl) (by rfl) (by rfl) (by simp)
    · exact hi.frame (by rfl) (by rfl) (by rfl) (by simp)
    · obtain ⟨h,hmem,hw,hkey,rfl⟩ := hi.entries requestId a hg
      have hs := hi.stage h hmem
      simp only [Handler.StageOk,hw] at hs
      obtain ⟨hsome,hmethod,hden,hann⟩ := hs
      obtain ⟨t,ht⟩ := Option.isSome_iff_exists.mp hsome
      have hthread : t = threadId := by simpa [ServerRequest.entry,ht] using hthread
      rw [not_or,not_ne_iff] at hturn
      subst hthread
      refine hi.setStage hmem (.decided _) (by rfl) (by rfl) (by simp) ?_ ?_
      · intro hacc
        refine ⟨hmethod,?_⟩
        cases hd : d.decision with
        | deny =>
          have hres : (approvalResult h.request.method d).accepting = false := by
            unfold approvalResult
            cases h.request.method <;> simp [hd,RpcResult.accepting]
          exact absurd (hacc.symm.trans hres) (by decide)
        | approve =>
          refine .inr ⟨tr,[],t,turnId,rfl,present_eq_some ht,hturn.2,?_,hann,hden⟩
          rw [← hturn.2]
          exact Option.isSome_iff_ne_none.mpr hturn.1
      · intro key a ha
        subst hkey
        exact .inr (hi.entries_erase hmem ha)

theorem Inv.proceed {tr : List BridgeEvent} {b : CodexBridge} (hi : Inv tr b) (serial : Nat) :
    Inv (tr ++ (b.proceed serial).2) (b.proceed serial).1 := by
  unfold CodexBridge.proceed
  cases hh : b.handler serial with
  | none => exact hi.frame (by rfl) (by rfl) (by rfl) (by simp)
  | some h =>
    obtain ⟨hmem,-⟩ := CodexBridge.handler_eq_some hh
    obtain ⟨q,stage⟩ := h
    cases stage with
    | decided r => exact hi.finish hmem (by simp) [] _ (by simp)
    | auditRequest => simpa using hi
    | auditApproval => simpa using hi
    | waiting => simpa using hi

theorem Inv.step {tr : List BridgeEvent} {b : CodexBridge} (hi : Inv tr b) (i : BridgeInput) :
    Inv (tr ++ (b.step i).2) (b.step i).1 := by
  have hchild : ∀ child, Inv tr { b with child := child } := by
    intro child
    have hf : Inv (tr ++ []) { b with child := child } := hi.frame (by rfl) (by rfl) (by rfl) (by simp)
    simpa using hf
  cases i with
  | spawn =>
    unfold CodexBridge.step
    cases b.child with
    | none => exact hi.frame (by rfl) (by rfl) (by rfl) (by simp)
    | some child =>
      dsimp only
      split_ifs
      · exact hi.frame (by rfl) (by rfl) (by rfl) (by simp)
      · exact hi.frame (by rfl) (by rfl) (by rfl) (by simp)
  | exit => exact (hchild none).rejectAll
  | stdinError => exact hi.rejectAll
  | stdinClosed => exact hi.frame (by rfl) (by rfl) (by rfl) (by simp [CodexBridge.step])
  | outputLimit => exact (hchild (b.child.map Child.kill)).rejectAll
  | shutdown => exact (hchild none).rejectAll
  | setPolicy threadId mode =>
    simp only [CodexBridge.step]
    exact hi.frame (by rfl) (by rfl) (by rfl) (by simp)
  | sendRequest method =>
    simp only [CodexBridge.step,CodexBridge.sendRequest]
    split_ifs
    · exact hi.frame (by rfl) (by rfl) (by rfl) (by simp)
    · exact hi.frame (by rfl) (by rfl) (by rfl) (by simp)
  | timeout id =>
    simp only [CodexBridge.step]
    split_ifs
    · exact hi.frame (by rfl) (by rfl) (by rfl) (by simp)
    · exact hi.frame (by rfl) (by rfl) (by rfl) (by simp)
  | message pid m => exact hi.handleMessage pid m
  | auditDone serial ok => exact hi.auditDone serial ok
  | approvalTimeout serial => exact hi.approvalTimeout serial
  | resolveApproval requestId d threadId turnId =>
    simp only [CodexBridge.step]
    split_ifs
    · exact hi.frame (by rfl) (by rfl) (by rfl) (by simp)
    · exact hi.resolveApproval requestId d threadId turnId
  | proceed serial => exact hi.proceed serial

theorem Inv.init : Inv [] {} := by
  constructor <;> simp

end CodeHarbor.Bridge
