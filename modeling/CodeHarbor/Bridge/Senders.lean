import CodeHarbor.Bridge.Approvals
set_option autoImplicit false

namespace CodeHarbor.Bridge
open Lib

/-! Who is answered. A reply goes to whatever process is the child when it is written, so the
process that asked must still be the newest one when an acceptance is. -/

/-- Whether the request can still be answered with an acceptance. -/
def CodexBridge.mayAccept (b : CodexBridge) (h : Handler) : Bool :=
  match h.stage with
  | .auditRequest => h.request.method.isApprovalRequest && h.request.thread.isSome
  | .auditApproval => (present h.request.turnId).isSome
  | .waiting => (present h.request.turnId).isSome &&
      (b.pendingApprovals.get h.request.id.key).any (·.serial = h.request.serial)
  | .decided r => r.accepting

def CodexBridge.asksApproval (b : CodexBridge) (m : Message) : Bool :=
  m.id.any (!b.pending.has ·) && m.method.any Method.isApprovalRequest && (present m.threadId).isSome

/-- No process is started while a request of an earlier one can still be accepted, and none is
read that comes from a process already replaced. -/
def CodexBridge.keepsSenders (b : CodexBridge) : BridgeInput → Bool
  | .spawn => b.child.any (!·.killed) || b.handlers.all (!b.mayAccept ·)
  | .message pid m => pid+1 = b.nextPid || !b.asksApproval m
  | _ => true

/-- The child is the newest process, and so is the sender of all that may be accepted. -/
structure Current (b : CodexBridge) : Prop where
  child : ∀ child, b.child = some child → child.pid+1 = b.nextPid
  sender : ∀ h ∈ b.handlers, b.mayAccept h = true → h.request.pid+1 = b.nextPid

/-- What may be accepted in one state is a request that may be accepted in the other. -/
def Stems (b b' : CodexBridge) : Prop :=
  ∀ h' ∈ b'.handlers, b'.mayAccept h' = true → ∃ h ∈ b.handlers,
    b.mayAccept h = true ∧ h.request = h'.request

theorem CodexBridge.mayAccept_congr {b b' : CodexBridge}
    (ha : b'.pendingApprovals = b.pendingApprovals) (h : Handler) : b'.mayAccept h = b.mayAccept h := by
  simp only [mayAccept,ha]

@[simp] theorem CodexBridge.mayAccept_denied (b : CodexBridge) (q : ServerRequest) (method : Method) :
    b.mayAccept ⟨q,.decided (approvalResult method { decision := .deny })⟩ = false :=
  approvalResult_deny method

theorem Stems.of_handlers {b b' : CodexBridge} (ha : b'.pendingApprovals = b.pendingApprovals)
    (hsub : ∀ h ∈ b'.handlers, h ∈ b.handlers) : Stems b b' := by
  intro h hmem may
  rw [CodexBridge.mayAccept_congr ha] at may
  exact ⟨h,hsub h hmem,may,rfl⟩

theorem Stems.refl (b : CodexBridge) : Stems b b := .of_handlers rfl (by simp)

theorem Stems.finish (b : CodexBridge) (q : ServerRequest) (outcome : Outcome) :
    Stems b (b.finish q outcome).1 := by
  rw [CodexBridge.finish_fst]
  exact .of_handlers rfl (fun h hmem => (List.mem_filter.mp hmem).1)

theorem Stems.setStage {tr : List BridgeEvent} {b b' : CodexBridge} (hi : Inv tr b) {h : Handler}
    (hmem : h ∈ b.handlers) (stage : Stage)
    (hh : b'.handlers = b.handlers.map (Handler.moveTo h.request.serial stage))
    (hself : b'.mayAccept { h with stage := stage } = true → b.mayAccept h = true)
    (hentries : ∀ key a, b'.pendingApprovals.get key = some a → a.serial ≠ h.request.serial →
      b.pendingApprovals.get key = some a) : Stems b b' := by
  intro h' hmem' may
  rw [hh] at hmem'
  obtain ⟨k,hk,rfl⟩ := List.mem_map.mp hmem'
  by_cases same : k.request.serial = h.request.serial
  · have hkh := hi.eq_of_serial hk hmem same
    subst hkh
    rw [Handler.moveTo_self] at may ⊢
    exact ⟨k,hk,hself may,rfl⟩
  · rw [Handler.moveTo_of_ne stage same] at may ⊢
    refine ⟨k,hk,?_,rfl⟩
    unfold CodexBridge.mayAccept at may ⊢
    cases hw : k.stage with
    | waiting =>
      simp only [hw,Bool.and_eq_true,Option.any_eq_true,decide_eq_true_eq] at may ⊢
      obtain ⟨turn,a,ha,own⟩ := may
      exact ⟨turn,a,hentries _ a ha (by rw [own]; exact same),own⟩
    | auditRequest => simpa only [hw] using may
    | auditApproval => simpa only [hw] using may
    | decided r => simpa only [hw] using may

theorem Stems.rejectAll {b c : CodexBridge} (hh : c.handlers = b.handlers) : Stems b c.rejectAll.1 := by
  intro h' hmem may
  simp only [CodexBridge.rejectAll,List.mem_map,hh] at hmem
  obtain ⟨h,hmem,rfl⟩ := hmem
  unfold Handler.reject at may ⊢
  split at may
  · simp at may
  · refine ⟨h,hmem,?_,rfl⟩
    unfold CodexBridge.mayAccept at may ⊢
    cases hw : h.stage with
    | waiting => simp [hw,CodexBridge.rejectAll] at may
    | auditRequest => simpa only [hw] using may
    | auditApproval => simpa only [hw] using may
    | decided r => simpa only [hw] using may

theorem Stems.auditDone {tr : List BridgeEvent} {b : CodexBridge} (hi : Inv tr b) (serial : Nat)
    (ok : Bool) : Stems b (b.auditDone serial ok).1 := by
  unfold CodexBridge.auditDone
  cases hh : b.handler serial with
  | none => exact .refl b
  | some h =>
    obtain ⟨hmem,-⟩ := CodexBridge.handler_eq_some hh
    obtain ⟨q,stage⟩ := h
    cases stage with
    | auditRequest =>
      cases ok with
      | false => exact .finish b q _
      | true =>
        simp only [if_true,CodexBridge.afterRequestAudit]
        split_ifs with hask
        · cases ht : q.thread with
          | none => exact .finish b q _
          | some threadId =>
            refine .setStage hi hmem .auditApproval rfl ?_ (fun key a ha _ => ha)
            intro _
            simp [CodexBridge.mayAccept,hask.2,ht]
        · exact .finish b q _
    | auditApproval =>
      cases ok with
      | false => exact .finish b q _
      | true =>
        simp only [if_true,CodexBridge.afterApprovalAudit]
        split_ifs
        · exact .finish b q _
        · refine .setStage hi hmem .waiting rfl ?_ ?_
          · intro may
            exact (Bool.and_eq_true_iff.mp may).1
          · intro key a ha hne
            simp only [CodexBridge.setStage,OrdMap.get_set] at ha
            split_ifs at ha
            · exact absurd (congrArg PendingApproval.serial (Option.some.inj ha)).symm hne
            · exact ha
    | waiting => exact .refl b
    | decided r => exact .refl b

theorem Stems.approvalTimeout {tr : List BridgeEvent} {b : CodexBridge} (hi : Inv tr b)
    (serial : Nat) : Stems b (b.approvalTimeout serial).1 := by
  unfold CodexBridge.approvalTimeout
  cases hh : b.handler serial with
  | none => exact .refl b
  | some h =>
    obtain ⟨hmem,rfl⟩ := CodexBridge.handler_eq_some hh
    obtain ⟨q,stage⟩ := h
    cases stage with
    | waiting =>
      refine .setStage hi hmem (.decided _) rfl ?_ ?_
      · intro may
        simp at may
      · intro key a ha _
        simp only [CodexBridge.setStage,OrdMap.get_erase] at ha
        split_ifs at ha
        exact ha
    | auditRequest => exact .refl b
    | auditApproval => exact .refl b
    | decided r => exact .refl b

theorem Stems.resolveApproval {tr : List BridgeEvent} {b : CodexBridge} (hi : Inv tr b)
    (requestId : String) (d : ApprovalDecision) (threadId : String) (turnId : Option String) :
    Stems b (b.resolveApproval requestId d threadId turnId).1 := by
  unfold CodexBridge.resolveApproval
  cases hg : b.pendingApprovals.get requestId with
  | none => exact .refl b
  | some a =>
    dsimp only
    split_ifs with hthread hturn
    · exact .refl b
    · exact .refl b
    · obtain ⟨h,hmem,hw,rfl,rfl⟩ := hi.entries requestId a hg
      rw [not_or] at hturn
      have turn : (present h.request.turnId).isSome = true := Option.isSome_iff_ne_none.mpr hturn.1
      refine .setStage hi hmem (.decided _) rfl ?_ ?_
      · intro _
        simp [CodexBridge.mayAccept,hw,turn,hg,ServerRequest.entry]
      · intro key a ha _
        simp only [CodexBridge.setStage,OrdMap.get_erase] at ha
        split_ifs at ha
        exact ha

theorem Stems.proceed (b : CodexBridge) (serial : Nat) : Stems b (b.proceed serial).1 := by
  unfold CodexBridge.proceed
  cases b.handler serial with
  | none => exact .refl b
  | some h =>
    obtain ⟨q,stage⟩ := h
    cases stage with
    | decided r => exact .finish b q _
    | auditRequest => exact .refl b
    | auditApproval => exact .refl b
    | waiting => exact .refl b

theorem Current.of_stems {b b' : CodexBridge} (hc : Current b) (hn : b'.nextPid = b.nextPid)
    (hchild : ∀ child, b'.child = some child → ∃ c, b.child = some c ∧ c.pid = child.pid)
    (hs : Stems b b') : Current b' where
  child := by
    intro child hchild'
    obtain ⟨c,hb,same⟩ := hchild child hchild'
    rw [hn,← same]
    exact hc.child c hb
  sender := by
    intro h' hmem may
    obtain ⟨h,hmem,may,same⟩ := hs h' hmem may
    rw [hn,← same]
    exact hc.sender h hmem may

theorem Current.spawn {b : CodexBridge} (hc : Current b) (hok : b.keepsSenders .spawn = true) :
    Current (b.step .spawn).1 := by
  have started : (∀ h ∈ b.handlers, b.mayAccept h = false) →
      Current { b with child := some ⟨b.nextPid,false,true⟩, nextPid := b.nextPid+1 } := by
    intro none_open
    constructor
    · intro child hchild
      cases hchild
      rfl
    · intro h hmem may
      change b.mayAccept h = true at may
      rw [none_open h hmem] at may
      cases may
  simp only [CodexBridge.keepsSenders,Bool.or_eq_true,List.all_eq_true,Bool.not_eq_true'] at hok
  unfold CodexBridge.step
  cases hb : b.child with
  | none => exact started (hok.resolve_left (by simp [hb]))
  | some child =>
    dsimp only
    split_ifs with hkilled
    · exact started (hok.resolve_left (by simp [hb,hkilled]))
    · exact hc

theorem Current.handleMessage {b : CodexBridge} (hc : Current b) {pid : Nat} {m : Message}
    (hok : b.keepsSenders (.message pid m) = true) : Current (b.handleMessage pid m).1 := by
  unfold CodexBridge.handleMessage
  cases hid : m.id with
  | none => exact hc
  | some id =>
    dsimp only
    split_ifs with hpending
    · exact hc.of_stems rfl (fun child h => ⟨child,h,rfl⟩) (.of_handlers rfl (fun h hmem => hmem))
    · cases hm : m.method with
      | none => exact hc
      | some method =>
        refine ⟨hc.child,?_⟩
        intro h hmem may
        rcases List.mem_append.mp hmem with hmem | hmem
        · exact hc.sender h hmem may
        · rw [List.mem_singleton.mp hmem] at may ⊢
          have asks : b.asksApproval m = true := by
            simpa [CodexBridge.mayAccept,ServerRequest.thread,CodexBridge.asksApproval,hid,hm,
              hpending] using may
          simpa [CodexBridge.keepsSenders,asks] using hok

def SameChild (b b' : CodexBridge) : Prop := b'.nextPid = b.nextPid ∧ b'.child = b.child

theorem SameChild.finish (b : CodexBridge) (q : ServerRequest) (outcome : Outcome) :
    SameChild b (b.finish q outcome).1 := by
  rw [CodexBridge.finish_fst]
  exact ⟨rfl,rfl⟩

theorem SameChild.auditDone (b : CodexBridge) (serial : Nat) (ok : Bool) :
    SameChild b (b.auditDone serial ok).1 := by
  unfold CodexBridge.auditDone CodexBridge.afterRequestAudit CodexBridge.afterApprovalAudit
  dsimp only
  repeat' split
  all_goals first | exact SameChild.finish b _ _ | exact ⟨rfl,rfl⟩

theorem SameChild.proceed (b : CodexBridge) (serial : Nat) : SameChild b (b.proceed serial).1 := by
  unfold CodexBridge.proceed
  repeat' split
  all_goals first | exact SameChild.finish b _ _ | exact ⟨rfl,rfl⟩

theorem SameChild.approvalTimeout (b : CodexBridge) (serial : Nat) :
    SameChild b (b.approvalTimeout serial).1 := by
  unfold CodexBridge.approvalTimeout
  repeat' split
  all_goals exact ⟨rfl,rfl⟩

theorem SameChild.resolveApproval (b : CodexBridge) (requestId : String) (d : ApprovalDecision)
    (threadId : String) (turnId : Option String) :
    SameChild b (b.resolveApproval requestId d threadId turnId).1 := by
  unfold CodexBridge.resolveApproval
  repeat' split
  all_goals exact ⟨rfl,rfl⟩

theorem SameChild.current {b b' : CodexBridge} (same : SameChild b b') (hc : Current b)
    (hs : Stems b b') : Current b' :=
  hc.of_stems same.1 (fun child h => ⟨child,by rw [← same.2]; exact h,rfl⟩) hs

theorem Current.rejectAll {b c : CodexBridge} (hc : Current b) (hn : c.nextPid = b.nextPid)
    (hh : c.handlers = b.handlers)
    (hchild : ∀ child, c.child = some child → ∃ d, b.child = some d ∧ d.pid = child.pid) :
    Current c.rejectAll.1 := hc.of_stems hn hchild (.rejectAll hh)

theorem Current.step {tr : List BridgeEvent} {b : CodexBridge} (hi : Inv tr b) (hc : Current b)
    (i : BridgeInput) (hok : b.keepsSenders i = true) : Current (b.step i).1 := by
  have kept : ∀ {b' : CodexBridge}, b'.pendingApprovals = b.pendingApprovals →
      b'.handlers = b.handlers → SameChild b b' → Current b' := by
    intro b' ha hh same
    exact same.current hc (.of_handlers ha (by rw [hh]; exact fun h hmem => hmem))
  cases i with
  | spawn => exact hc.spawn hok
  | exit => exact hc.rejectAll rfl rfl (by simp)
  | stdinError => exact hc.rejectAll rfl rfl (fun child h => ⟨child,h,rfl⟩)
  | stdinClosed =>
    refine hc.of_stems rfl ?_ (.of_handlers rfl (fun h hmem => hmem))
    intro child hchild
    obtain ⟨c,hb,rfl⟩ := Option.map_eq_some_iff.mp hchild
    exact ⟨c,hb,rfl⟩
  | outputLimit =>
    refine hc.rejectAll rfl rfl ?_
    intro child hchild
    obtain ⟨c,hb,rfl⟩ := Option.map_eq_some_iff.mp hchild
    exact ⟨c,hb,rfl⟩
  | shutdown => exact hc.rejectAll rfl rfl (by simp)
  | setPolicy threadId mode => exact kept rfl rfl ⟨rfl,rfl⟩
  | sendRequest method =>
    simp only [CodexBridge.step,CodexBridge.sendRequest]
    split_ifs
    · exact hc
    · exact kept rfl rfl ⟨rfl,rfl⟩
  | timeout id =>
    simp only [CodexBridge.step]
    split_ifs
    · exact kept rfl rfl ⟨rfl,rfl⟩
    · exact hc
  | message pid m => exact hc.handleMessage hok
  | auditDone serial ok => exact (SameChild.auditDone b serial ok).current hc (.auditDone hi serial ok)
  | approvalTimeout serial =>
    exact (SameChild.approvalTimeout b serial).current hc (.approvalTimeout hi serial)
  | resolveApproval requestId d threadId turnId =>
    simp only [CodexBridge.step]
    split_ifs
    · exact hc
    · exact (SameChild.resolveApproval b requestId d threadId turnId).current hc
        (.resolveApproval hi requestId d threadId turnId)
  | proceed serial => exact (SameChild.proceed b serial).current hc (.proceed b serial)

theorem Current.init : Current {} := by
  constructor <;> simp

/-- What may be accepted was asked by the process that would be written to. -/
theorem Current.target {b : CodexBridge} (hc : Current b) {h : Handler} (hmem : h ∈ b.handlers)
    (may : b.mayAccept h = true) {pid : Nat} (ht : b.target = some pid) : h.request.pid = pid := by
  unfold CodexBridge.target at ht
  cases hb : b.child with
  | none => simp [hb] at ht
  | some child =>
    simp only [hb] at ht
    split_ifs at ht
    cases ht
    have newest := hc.child child hb
    have sender := hc.sender h hmem may
    omega

end CodeHarbor.Bridge
