import CodeHarbor.Bridge.Senders
set_option autoImplicit false

namespace CodeHarbor.Bridge
open Lib

/-- Every accepting reply goes to the process that sent the approval request, which was granted. -/
def Authentic : List BridgeEvent → Prop :=
  Traced (fun pre e => ∀ pid serial id r, e = .wrote pid serial id (.result r) →
    r.accepting = true → ∃ q, .received q ∈ pre ∧ q.serial = serial ∧ q.id = id ∧
      q.method.isApprovalRequest = true ∧ Granted pre q ∧ q.pid = pid)

def BridgeEvent.quiet : BridgeEvent → Bool
  | .wrote _ _ _ _ => false
  | _ => true

theorem authentic_append {tr out : List BridgeEvent} (h : Authentic tr)
    (hout : out.all BridgeEvent.quiet = true) : Authentic (tr ++ out) := by
  apply Traced.append h
  rintro e he pre pid serial id r rfl
  have hq := List.all_eq_true.mp hout _ he
  cases hq

theorem authentic_finish {tr : List BridgeEvent} {b : CodexBridge} {q : ServerRequest}
    (h : Authentic tr) (hrec : .received q ∈ tr) (pre : List BridgeEvent)
    (hpre : pre.all BridgeEvent.quiet = true) (outcome : Outcome)
    (hr : ∀ r, outcome = .result r → r.accepting = true → q.method.isApprovalRequest = true ∧
      Granted (tr ++ pre) q ∧ ∀ pid, b.target = some pid → q.pid = pid) :
    Authentic (tr ++ (pre ++ (b.finish q outcome).2)) := by
  have hquiet := authentic_append h hpre
  rw [← List.append_assoc]
  unfold CodexBridge.finish
  split
  · rename_i pid ht
    refine traced_snoc.mpr ⟨hquiet,?_⟩
    rintro pid' serial id r heq hacc
    cases heq
    obtain ⟨hm,hg,hp⟩ := hr r rfl hacc
    exact ⟨q,List.mem_append_left _ hrec,rfl,rfl,hm,hg,hp pid ht⟩
  · exact authentic_append hquiet rfl

theorem autoResult_accepting {method : Method} (h : (autoResult method).accepting = true) :
    method.isApprovalRequest = true := by
  cases method with
  | other name => cases h
  | _ => rfl

theorem ServerRequest.thread_of_fullAccess {q : ServerRequest} {policies : Policies}
    (h : q.mode policies = .fullAccess) : q.thread.isSome = true := by
  unfold ServerRequest.mode at h
  split at h
  · rename_i threadId ht
    simp [ht]
  · cases h

theorem authentic_auditDone {tr : List BridgeEvent} {b : CodexBridge} (hi : Inv tr b)
    (hc : Current b) (h : Authentic tr) (serial : Nat) (ok : Bool) :
    Authentic (tr ++ (b.auditDone serial ok).2) := by
  have hdeny : ∀ (q : ServerRequest) r, .result (approvalResult q.method { decision := .deny }) =
      Outcome.result r → r.accepting = true → False := by
    intro q r heq hacc
    cases heq
    rw [approvalResult_deny] at hacc
    cases hacc
  unfold CodexBridge.auditDone
  cases hh : b.handler serial with
  | none => exact authentic_append h rfl
  | some k =>
    obtain ⟨hmem,-⟩ := CodexBridge.handler_eq_some hh
    obtain ⟨q,stage⟩ := k
    have hrec := hi.received _ hmem
    have hfail : Authentic (tr ++ (b.finish q .internalError).2) :=
      authentic_finish h hrec [] rfl _ (by intro r heq; cases heq)
    cases stage with
    | auditRequest =>
      cases ok with
      | false => exact hfail
      | true =>
        simp only [if_true,CodexBridge.afterRequestAudit]
        split_ifs with hask
        · split
          · exact authentic_finish h hrec [_,_] rfl _
              (fun r heq hacc => (hdeny q r heq hacc).elim)
          · exact authentic_append h rfl
        · refine authentic_finish h hrec [_] rfl _ ?_
          intro r heq hacc
          cases heq
          have hm := autoResult_accepting hacc
          have hmode : q.mode b.policyByThread = .fullAccess := by
            cases hmode : q.mode b.policyByThread with
            | confirm => exact absurd ⟨hmode,hm⟩ hask
            | fullAccess => rfl
          have may : b.mayAccept ⟨q,.auditRequest⟩ = true := by
            simp [CodexBridge.mayAccept,hm,ServerRequest.thread_of_fullAccess hmode]
          exact ⟨hm,.inl (by simp [hmode]),fun pid ht => hc.target hmem may ht⟩
    | auditApproval =>
      cases ok with
      | false => exact hfail
      | true =>
        simp only [if_true,CodexBridge.afterApprovalAudit]
        split_ifs
        · exact authentic_finish h hrec [_,_] rfl _
            (fun r heq hacc => (hdeny q r heq hacc).elim)
        · exact authentic_append h rfl
    | waiting => exact authentic_append h rfl
    | decided r => exact authentic_append h rfl

theorem authentic_proceed {tr : List BridgeEvent} {b : CodexBridge} (hi : Inv tr b)
    (hc : Current b) (h : Authentic tr) (serial : Nat) : Authentic (tr ++ (b.proceed serial).2) := by
  unfold CodexBridge.proceed
  cases hh : b.handler serial with
  | none => exact authentic_append h rfl
  | some k =>
    obtain ⟨hmem,-⟩ := CodexBridge.handler_eq_some hh
    obtain ⟨q,stage⟩ := k
    cases stage with
    | decided r =>
      refine authentic_finish h (hi.received _ hmem) [] rfl _ ?_
      intro r' heq hacc
      cases heq
      obtain ⟨hm,hg⟩ := hi.stage _ hmem hacc
      exact ⟨hm,by simpa using hg,fun pid ht => hc.target hmem hacc ht⟩
    | auditRequest => exact authentic_append h rfl
    | auditApproval => exact authentic_append h rfl
    | waiting => exact authentic_append h rfl

theorem authentic_step {tr : List BridgeEvent} {b : CodexBridge} (hi : Inv tr b)
    (hc : Current b) (h : Authentic tr) (i : BridgeInput) : Authentic (tr ++ (b.step i).2) := by
  have hreject : ∀ b : CodexBridge, b.rejectAll.2.all BridgeEvent.quiet = true := by
    intro b
    simp [CodexBridge.rejectAll,BridgeEvent.quiet]
  cases i with
  | auditDone serial ok => exact authentic_auditDone hi hc h serial ok
  | proceed serial => exact authentic_proceed hi hc h serial
  | exit => exact authentic_append h (hreject _)
  | stdinError => exact authentic_append h (hreject _)
  | outputLimit => exact authentic_append h (hreject _)
  | shutdown => exact authentic_append h (hreject _)
  | spawn =>
    apply authentic_append h
    unfold CodexBridge.step
    cases b.child with
    | none => rfl
    | some child =>
      dsimp only
      split_ifs <;> rfl
  | stdinClosed => exact authentic_append h rfl
  | setPolicy threadId mode =>
    simp only [CodexBridge.step]
    exact authentic_append h rfl
  | sendRequest method =>
    apply authentic_append h
    simp only [CodexBridge.step,CodexBridge.sendRequest]
    split_ifs <;> rfl
  | timeout id =>
    apply authentic_append h
    simp only [CodexBridge.step]
    split_ifs <;> rfl
  | message pid m =>
    apply authentic_append h
    simp only [CodexBridge.step,CodexBridge.handleMessage]
    split
    · rfl
    · split_ifs
      · rfl
      · split <;> rfl
  | approvalTimeout serial =>
    apply authentic_append h
    simp only [CodexBridge.step,CodexBridge.approvalTimeout]
    split
    · rfl
    · split <;> rfl
  | resolveApproval requestId d threadId turnId =>
    apply authentic_append h
    simp only [CodexBridge.step,CodexBridge.resolveApproval]
    split_ifs
    · rfl
    · split
      · rfl
      · split_ifs <;> rfl

/-- Accepting replies are authentic in every run that never starts a process while an older
one can still be answered with an acceptance, nor reads a request for approval from a process
that has been replaced. -/
theorem authentic_run {tr : List BridgeEvent} {b : CodexBridge}
    (hr : bridge.Run (fun _ b i => b.keepsSenders i = true) tr b) : Authentic tr := by
  have hall : Inv tr b ∧ Current b ∧ Authentic tr := by
    apply hr.invariant (P := fun tr b => Inv tr b ∧ Current b ∧ Authentic tr)
    · rintro b rfl
      exact ⟨Inv.init,Current.init,Traced.nil _⟩
    · rintro tr b i ⟨hi,hc,h⟩ hok
      exact ⟨hi.step i,hc.step hi i hok,authentic_step hi hc h i⟩
  exact hall.2.2

namespace Sample

def commandApproval : Message where
  id := some (.num "7")
  method := some .commandExecutionApproval
  threadId := some "t"
  turnId := some "u"

/-- A process exits with a request open, which is denied, and is replaced. The new one asks
under the same id, and the user approves while it is there. -/
def approvedInTime : List BridgeInput :=
  [.spawn,.message 0 commandApproval,.auditDone 0 true,.auditDone 0 true,.exit,.spawn,.proceed 0,
   .message 1 commandApproval,.auditDone 1 true,.auditDone 1 true,
   .resolveApproval "7" { decision := .approve } "t" (some "u"),.proceed 1]

/-- The process that asked exits and is replaced while the request is being audited. -/
def replacedDuringAudit : List BridgeInput :=
  [.spawn,.setPolicy "t" .fullAccess,.message 0 commandApproval,.exit,.spawn,.auditDone 0 true]

end Sample

theorem approvedInTime_authentic :
    .wrote 1 0 (.num "7") (.result (.decision "cancel")) ∈
      (bridge.exec [] {} Sample.approvedInTime).1 ∧
    .wrote 1 1 (.num "7") (.result (.decision "accept")) ∈
      (bridge.exec [] {} Sample.approvedInTime).1 ∧
    Authentic (bridge.exec [] {} Sample.approvedInTime).1 := by
  have hrun : bridge.Run (fun _ b i => b.keepsSenders i = true) [] {} := .start rfl
  exact ⟨by decide,by decide,authentic_run (hrun.exec Sample.approvedInTime (by decide))⟩

/-- Process 1 is told to accept a command that process 0 asked about. -/
theorem replacedDuringAudit_not_authentic :
    bridge.Run bridge.free (bridge.exec [] {} Sample.replacedDuringAudit).1
      (bridge.exec [] {} Sample.replacedDuringAudit).2 ∧
    ¬ Authentic (bridge.exec [] {} Sample.replacedDuringAudit).1 := by
  have hrun : bridge.Run bridge.free [] {} := .start rfl
  refine ⟨hrun.exec _ (bridge.allowed_free _ _ _),?_⟩
  intro h
  have htrace : (bridge.exec [] {} Sample.replacedDuringAudit).1 =
      [.received ⟨0,0,.num "7",.commandExecutionApproval,some "t",some "u"⟩,
       .handled 0 .fullAccess] ++
      .wrote 1 0 (.num "7") (.result (.decision "accept")) :: [] := by decide
  obtain ⟨q,hq,-,-,-,-,hpid⟩ := h _ _ _ htrace 1 0 _ _ rfl rfl
  simp only [List.mem_cons,BridgeEvent.received.injEq,reduceCtorEq,List.not_mem_nil,
    or_false] at hq
  subst hq
  cases hpid

end CodeHarbor.Bridge
