import CodeHarbor.Bridge.Authentic
set_option autoImplicit false

namespace CodeHarbor.Bridge
open Lib

/-- The last thing that happens to a server request: its reply, or the failure to write
one because no process is there to take it. -/
def BridgeEvent.closes (serial : Nat) : BridgeEvent → Bool
  | .wrote _ n _ _ | .dropped n => n = serial
  | _ => false

def BridgeEvent.passive : BridgeEvent → Bool
  | .received _ | .wrote _ _ _ _ | .dropped _ => false
  | _ => true

/-- No message with both id and method arrives under the id of a pending client request. -/
def CodexBridge.noClash (b : CodexBridge) : BridgeInput → Bool
  | .message _ m =>
    match m.id, m.method with
    | some id, some _ => !b.pending.has id
    | _, _ => true
  | _ => true

def CodexBridge.openRequests (b : CodexBridge) : List ServerRequest := b.handlers.map (·.request)

/-- A server request is open and unanswered, or it was closed exactly once. -/
def AnsweredOnce (tr : List BridgeEvent) (b : CodexBridge) (q : ServerRequest) : Prop :=
  q ∈ b.openRequests ∧ tr.countP (BridgeEvent.closes q.serial) = 0 ∨
  q ∉ b.openRequests ∧ tr.countP (BridgeEvent.closes q.serial) = 1

structure Demultiplexed (tr : List BridgeEvent) (b : CodexBridge) : Prop where
  settled : ∀ id cause, .settled id cause ∈ tr → cause ≠ .message true
  served : ∀ pid m id method, m.id = some id → m.method = some method →
    b.noClash (.message pid m) = true → ∃ q, (b.step (.message pid m)).2 = [.received q] ∧
      q.pid = pid ∧ q.id = id ∧ q.method = method
  answered : ∀ q, .received q ∈ tr → AnsweredOnce tr b q
  ids : ∀ pid serial id outcome, .wrote pid serial id outcome ∈ tr →
    ∃ q, .received q ∈ tr ∧ q.serial = serial ∧ q.id = id
  replies : ∀ h ∈ b.handlers, ∀ r pid, h.stage = .decided r → b.target = some pid →
    (b.step (.proceed h.request.serial)).2 =
      [.wrote pid h.request.serial h.request.id (.result r)]
  dropped : ∀ i serial, .dropped serial ∈ (b.step i).2 → b.target = none

/-- What a step can do to the set of open server requests: nothing, add the one just
received, or close one. -/
inductive Effect (b b' : CodexBridge) (out : List BridgeEvent) : Prop where
  | passive (hreq : b'.handlers.map (·.request) = b.handlers.map (·.request))
      (hn : b'.nextSerial = b.nextSerial) (hout : out.all BridgeEvent.passive = true)
  | opens (q : ServerRequest) (hq : q.serial = b.nextSerial)
      (hh : b'.handlers = b.handlers ++ [⟨q,.auditRequest⟩])
      (hn : b'.nextSerial = b.nextSerial+1) (hout : out = [.received q])
  | closes (h : Handler) (hmem : h ∈ b.handlers) (pre : List BridgeEvent)
      (hpre : pre.all BridgeEvent.passive = true) (last : BridgeEvent)
      (hlast : last = .dropped h.request.serial ∧ b.target = none ∨
        ∃ pid outcome, last = .wrote pid h.request.serial h.request.id outcome)
      (hb : b' = b.dropHandler h.request.serial) (hout : out = pre ++ [last])

theorem Effect.finish {b : CodexBridge} {h : Handler} (hmem : h ∈ b.handlers)
    (pre : List BridgeEvent) (hpre : pre.all BridgeEvent.passive = true) (outcome : Outcome) :
    Effect b (b.finish h.request outcome).1 (pre ++ (b.finish h.request outcome).2) := by
  unfold CodexBridge.finish
  split
  · exact .closes h hmem pre hpre _ (.inr ⟨_,_,rfl⟩) rfl rfl
  · rename_i hnone
    exact .closes h hmem pre hpre _ (.inl ⟨rfl,hnone⟩) rfl rfl

theorem Effect.same {b b' : CodexBridge} {out : List BridgeEvent}
    (hh : b'.handlers = b.handlers) (hn : b'.nextSerial = b.nextSerial)
    (hout : out.all BridgeEvent.passive = true) : Effect b b' out :=
  .passive (by rw [hh]) hn hout

theorem Effect.moved {b b' : CodexBridge} {out : List BridgeEvent} {serial : Nat} {stage : Stage}
    (hh : b'.handlers = b.handlers.map (Handler.moveTo serial stage))
    (hn : b'.nextSerial = b.nextSerial) (hout : out.all BridgeEvent.passive = true) :
    Effect b b' out := by
  refine .passive ?_ hn hout
  rw [hh,List.map_map]
  exact List.map_congr_left (fun h _ => Handler.moveTo_request serial stage h)

theorem Effect.rejectAll (b : CodexBridge) (child : Option Child) :
    Effect b { b with child := child }.rejectAll.1 { b with child := child }.rejectAll.2 := by
  refine .passive ?_ rfl ?_
  · simp only [CodexBridge.rejectAll,List.map_map]
    apply List.map_congr_left
    intro h _
    simp only [Function.comp,Handler.reject]
    split <;> rfl
  · simp [CodexBridge.rejectAll,BridgeEvent.passive]

theorem CodexBridge.effect_auditDone (b : CodexBridge) (serial : Nat) (ok : Bool) :
    Effect b (b.auditDone serial ok).1 (b.auditDone serial ok).2 := by
  unfold CodexBridge.auditDone
  cases hh : b.handler serial with
  | none => exact .same rfl rfl rfl
  | some h =>
    obtain ⟨hmem,-⟩ := CodexBridge.handler_eq_some hh
    obtain ⟨q,stage⟩ := h
    have hfail : Effect b (b.finish q .internalError).1 (b.finish q .internalError).2 :=
      .finish hmem [] rfl _
    cases stage with
    | auditRequest =>
      cases ok with
      | false => exact hfail
      | true =>
        simp only [if_true,CodexBridge.afterRequestAudit]
        split_ifs
        · split
          · exact .finish hmem [_,_] rfl _
          · exact .moved rfl rfl rfl
        · exact .finish hmem [_] rfl _
    | auditApproval =>
      cases ok with
      | false => exact hfail
      | true =>
        simp only [if_true,CodexBridge.afterApprovalAudit]
        split_ifs
        · exact .finish hmem [_,_] rfl _
        · exact .moved rfl rfl rfl
    | waiting => exact .same rfl rfl rfl
    | decided r => exact .same rfl rfl rfl

theorem CodexBridge.effect_step (b : CodexBridge) (i : BridgeInput) :
    Effect b (b.step i).1 (b.step i).2 := by
  cases i with
  | auditDone serial ok => exact b.effect_auditDone serial ok
  | exit => exact Effect.rejectAll b none
  | stdinError => exact Effect.rejectAll b b.child
  | outputLimit => exact Effect.rejectAll b (b.child.map Child.kill)
  | shutdown => exact Effect.rejectAll b none
  | spawn =>
    unfold CodexBridge.step
    cases b.child with
    | none => exact .same rfl rfl rfl
    | some child =>
      dsimp only
      split_ifs
      · exact .same rfl rfl rfl
      · exact .same rfl rfl rfl
  | stdinClosed => exact .same rfl rfl rfl
  | setPolicy threadId mode =>
    simp only [CodexBridge.step]
    exact .same rfl rfl rfl
  | sendRequest method =>
    simp only [CodexBridge.step,CodexBridge.sendRequest]
    split_ifs
    · exact .same rfl rfl rfl
    · exact .same rfl rfl rfl
  | timeout id =>
    simp only [CodexBridge.step]
    split_ifs
    · exact .same rfl rfl rfl
    · exact .same rfl rfl rfl
  | message pid m =>
    simp only [CodexBridge.step,CodexBridge.handleMessage]
    split
    · exact .same rfl rfl rfl
    · split_ifs
      · exact .same rfl rfl rfl
      · split
        · exact .same rfl rfl rfl
        · exact .opens _ rfl rfl rfl rfl
  | approvalTimeout serial =>
    simp only [CodexBridge.step,CodexBridge.approvalTimeout]
    split
    · exact .same rfl rfl rfl
    · split
      · exact .moved rfl rfl rfl
      · exact .same rfl rfl rfl
  | resolveApproval requestId d threadId turnId =>
    simp only [CodexBridge.step,CodexBridge.resolveApproval]
    split_ifs
    · exact .same rfl rfl rfl
    · split
      · exact .same rfl rfl rfl
      · split_ifs
        · exact .same rfl rfl rfl
        · exact .same rfl rfl rfl
        · exact .moved rfl rfl rfl
  | proceed serial =>
    simp only [CodexBridge.step,CodexBridge.proceed]
    cases hh : b.handler serial with
    | none => exact .same rfl rfl rfl
    | some h =>
      obtain ⟨hmem,-⟩ := CodexBridge.handler_eq_some hh
      obtain ⟨q,stage⟩ := h
      cases stage with
      | decided r => exact .finish hmem [] rfl _
      | auditRequest => exact .same rfl rfl rfl
      | auditApproval => exact .same rfl rfl rfl
      | waiting => exact .same rfl rfl rfl

structure Accounted (tr : List BridgeEvent) (b : CodexBridge) : Prop where
  below : ∀ q, .received q ∈ tr → q.serial < b.nextSerial
  unique : ∀ q q', .received q ∈ tr → .received q' ∈ tr → q.serial = q'.serial → q = q'
  closedBelow : ∀ e ∈ tr, ∀ n, e.closes n = true → n < b.nextSerial
  answered : ∀ q, .received q ∈ tr → AnsweredOnce tr b q
  ids : ∀ pid serial id outcome, .wrote pid serial id outcome ∈ tr →
    ∃ q, .received q ∈ tr ∧ q.serial = serial ∧ q.id = id

theorem BridgeEvent.closes_of_passive {e : BridgeEvent} (h : e.passive = true) (n : Nat) :
    e.closes n = false := by
  cases e <;> first | rfl | cases h

theorem countP_closes_passive {out : List BridgeEvent}
    (h : out.all BridgeEvent.passive = true) (n : Nat) :
    out.countP (BridgeEvent.closes n) = 0 := by
  apply List.countP_eq_zero.mpr
  intro e he
  simp [BridgeEvent.closes_of_passive (List.all_eq_true.mp h e he) n]

theorem received_notMem_passive {out : List BridgeEvent}
    (h : out.all BridgeEvent.passive = true) (q : ServerRequest) : .received q ∉ out := by
  intro hq
  cases List.all_eq_true.mp h _ hq

theorem wrote_notMem_passive {out : List BridgeEvent} (h : out.all BridgeEvent.passive = true)
    (pid serial : Nat) (id : RpcId) (outcome : Outcome) :
    .wrote pid serial id outcome ∉ out := by
  intro hq
  cases List.all_eq_true.mp h _ hq

theorem Accounted.passive {tr out : List BridgeEvent} {b b' : CodexBridge} (ha : Accounted tr b)
    (hreq : b'.openRequests = b.openRequests) (hn : b'.nextSerial = b.nextSerial)
    (hout : out.all BridgeEvent.passive = true) : Accounted (tr ++ out) b' where
  below := by
    intro q hq
    rw [List.mem_append,or_iff_left (received_notMem_passive hout q)] at hq
    rw [hn]
    exact ha.below q hq
  unique := by
    intro q q' hq hq' heq
    rw [List.mem_append,or_iff_left (received_notMem_passive hout _)] at hq hq'
    exact ha.unique q q' hq hq' heq
  closedBelow := by
    intro e he n hc
    rw [hn]
    rcases List.mem_append.mp he with he | he
    · exact ha.closedBelow e he n hc
    · rw [BridgeEvent.closes_of_passive (List.all_eq_true.mp hout e he) n] at hc
      cases hc
  answered := by
    intro q hq
    rw [List.mem_append,or_iff_left (received_notMem_passive hout q)] at hq
    unfold AnsweredOnce
    rw [hreq,List.countP_append,countP_closes_passive hout,Nat.add_zero]
    exact ha.answered q hq
  ids := by
    intro pid serial id outcome hw
    rw [List.mem_append,or_iff_left (wrote_notMem_passive hout pid serial id outcome)] at hw
    obtain ⟨q,hq,rest⟩ := ha.ids pid serial id outcome hw
    exact ⟨q,List.mem_append_left _ hq,rest⟩

theorem Accounted.opens {tr : List BridgeEvent} {b b' : CodexBridge} (ha : Accounted tr b)
    (q : ServerRequest) (hq : q.serial = b.nextSerial)
    (hreq : b'.openRequests = b.openRequests ++ [q]) (hn : b'.nextSerial = b.nextSerial+1) :
    Accounted (tr ++ [.received q]) b' := by
  have hold : ∀ p, .received p ∈ tr ++ [.received q] → .received p ∈ tr ∨ p = q := by
    intro p hp
    simpa using hp
  have hne : ∀ p, .received p ∈ tr → p.serial ≠ q.serial := by
    intro p hp heq
    have hlt := ha.below p hp
    omega
  have hcount : ∀ n, (tr ++ [BridgeEvent.received q]).countP (BridgeEvent.closes n) =
      tr.countP (BridgeEvent.closes n) := by
    intro n
    simp [List.countP_append,BridgeEvent.closes]
  constructor
  · intro p hp
    rcases hold p hp with hp | rfl
    · have hlt := ha.below p hp
      omega
    · omega
  · intro p p' hp hp' heq
    rcases hold p hp with hin | rfl
    · rcases hold p' hp' with hin' | rfl
      · exact ha.unique p p' hin hin' heq
      · exact absurd heq (hne p hin)
    · rcases hold p' hp' with hin' | rfl
      · exact absurd heq.symm (hne p' hin')
      · rfl
  · intro e he n hc
    rcases List.mem_append.mp he with he | he
    · have hlt := ha.closedBelow e he n hc
      omega
    · rw [List.mem_singleton.mp he] at hc
      cases hc
  · intro p hp
    unfold AnsweredOnce
    rw [hreq,hcount,List.mem_append,List.mem_singleton]
    rcases hold p hp with hin | rfl
    · have hpq : p ≠ q := fun hpq => hne p hin (congrArg _ hpq)
      simp only [hpq,or_false]
      exact ha.answered p hin
    · refine .inl ⟨.inr rfl,?_⟩
      apply List.countP_eq_zero.mpr
      intro e he hc
      have hlt := ha.closedBelow e he _ hc
      omega
  · intro pid serial id outcome hw
    have hw : .wrote pid serial id outcome ∈ tr := by simpa using hw
    obtain ⟨p,hp,rest⟩ := ha.ids pid serial id outcome hw
    exact ⟨p,List.mem_append_left _ hp,rest⟩

theorem Accounted.closeLast {tr : List BridgeEvent} {b : CodexBridge} (ha : Accounted tr b)
    {h : Handler} (hmem : h ∈ b.handlers) (hrec : .received h.request ∈ tr)
    {last : BridgeEvent} (hlast : last = .dropped h.request.serial ∨
      ∃ pid outcome, last = .wrote pid h.request.serial h.request.id outcome) :
    Accounted (tr ++ [last]) (b.dropHandler h.request.serial) := by
  have hopen : h.request ∈ b.openRequests := List.mem_map_of_mem hmem
  have hcloses : ∀ n, last.closes n = decide (h.request.serial = n) := by
    intro n
    rcases hlast with rfl | ⟨pid,outcome,rfl⟩ <;> rfl
  have hnot : ∀ q, .received q ≠ last := by
    intro q
    rcases hlast with rfl | ⟨pid,outcome,rfl⟩ <;> simp
  have hold : ∀ q, .received q ∈ tr ++ [last] → .received q ∈ tr := by
    intro q hq
    rcases List.mem_append.mp hq with hq | hq
    · exact hq
    · exact absurd (List.mem_singleton.mp hq) (hnot q)
  constructor
  · intro q hq
    exact ha.below q (hold q hq)
  · intro q q' hq hq'
    exact ha.unique q q' (hold q hq) (hold q' hq')
  · intro e he n hc
    rcases List.mem_append.mp he with he | he
    · exact ha.closedBelow e he n hc
    · rw [List.mem_singleton.mp he,hcloses,decide_eq_true_eq] at hc
      rw [← hc]
      exact ha.below h.request hrec
  · intro q hq
    have hq := hold q hq
    have hmemdrop : q ∈ (b.dropHandler h.request.serial).openRequests ↔
        q ∈ b.openRequests ∧ q.serial ≠ h.request.serial := by
      simp only [CodexBridge.openRequests,CodexBridge.dropHandler,List.mem_map,List.mem_filter,
        decide_eq_true_eq]
      constructor
      · rintro ⟨k,⟨hk,hne⟩,rfl⟩
        exact ⟨⟨k,hk,rfl⟩,hne⟩
      · rintro ⟨⟨k,hk,rfl⟩,hne⟩
        exact ⟨k,⟨hk,hne⟩,rfl⟩
    unfold AnsweredOnce
    rw [List.countP_append,hmemdrop]
    by_cases heq : q.serial = h.request.serial
    · have hqh := ha.unique q h.request hq hrec heq
      subst hqh
      rcases ha.answered _ hrec with ⟨-,hzero⟩ | ⟨hclosed,-⟩
      · refine .inr ⟨by simp,?_⟩
        simp [hzero,hcloses]
      · exact absurd hopen hclosed
    · have hother : [last].countP (BridgeEvent.closes q.serial) = 0 := by
        simp [hcloses,Ne.symm heq]
      simp only [hother,Nat.add_zero,heq,ne_eq,not_false_eq_true,and_true]
      exact ha.answered q hq
  · intro pid serial id outcome hw
    rcases List.mem_append.mp hw with hw | hw
    · obtain ⟨q,hq,rest⟩ := ha.ids pid serial id outcome hw
      exact ⟨q,List.mem_append_left _ hq,rest⟩
    · refine ⟨h.request,List.mem_append_left _ hrec,?_⟩
      rw [List.mem_singleton] at hw
      rcases hlast with rfl | ⟨pid',outcome',rfl⟩
      · cases hw
      · cases hw
        exact ⟨rfl,rfl⟩

theorem Accounted.step {tr : List BridgeEvent} {b : CodexBridge} (ha : Accounted tr b)
    (hi : Inv tr b) (i : BridgeInput) : Accounted (tr ++ (b.step i).2) (b.step i).1 := by
  cases b.effect_step i with
  | passive hreq hn hout => exact ha.passive hreq hn hout
  | opens q hq hh hn hout =>
    rw [hout]
    exact ha.opens q hq (by simp [CodexBridge.openRequests,hh]) hn
  | closes h hmem pre hpre last hlast hb hout =>
    have hrec := List.mem_append_left pre (hi.received h hmem)
    rw [hout,hb,← List.append_assoc]
    exact (ha.passive rfl rfl hpre).closeLast hmem hrec (hlast.imp_left And.left)

/-- A request is closed without a reply only while no process can take one. -/
theorem dropped_step {b : CodexBridge} {i : BridgeInput} {serial : Nat}
    (h : .dropped serial ∈ (b.step i).2) : b.target = none := by
  cases b.effect_step i with
  | passive hreq hn hout => cases List.all_eq_true.mp hout _ h
  | opens q hq hh hn hout =>
    rw [hout] at h
    simp at h
  | closes k hmem pre hpre last hlast hb hout =>
    rw [hout,List.mem_append,List.mem_singleton] at h
    rcases h with hin | rfl
    · cases List.all_eq_true.mp hpre _ hin
    · rcases hlast with ⟨-,hnone⟩ | ⟨pid,outcome,hwrote⟩
      · exact hnone
      · cases hwrote

/-- Only a clash lets a message with a method settle a client request. -/
theorem settled_step {b : CodexBridge} {i : BridgeInput} (hok : b.noClash i = true) {id : RpcId}
    {cause : Cause} (h : .settled id cause ∈ (b.step i).2) : cause ≠ .message true := by
  have hfinish : ∀ (b : CodexBridge) q outcome, .settled id cause ∉ (b.finish q outcome).2 := by
    intro b q outcome
    unfold CodexBridge.finish
    split <;> simp
  have hreject : ∀ b : CodexBridge, .settled id cause ∈ b.rejectAll.2 → cause = .rejected := by
    intro b hmem
    simp only [CodexBridge.rejectAll,List.mem_append,List.mem_map] at hmem
    rcases hmem with ⟨e,-,he⟩ | ⟨a,-,he⟩
    · cases he
      rfl
    · cases he
  cases i with
  | exit => simp [hreject _ h]
  | stdinError => simp [hreject _ h]
  | outputLimit => simp [hreject _ h]
  | shutdown => simp [hreject _ h]
  | message pid m =>
    simp only [CodexBridge.step,CodexBridge.handleMessage] at h
    split at h
    · simp at h
    · rename_i id' hid
      split_ifs at h with hpending
      · simp only [List.mem_singleton,BridgeEvent.settled.injEq] at h
        cases hm : m.method with
        | none => simp [h.2,hm]
        | some method => simp [CodexBridge.noClash,hid,hm,hpending] at hok
      · split at h <;> simp at h
  | timeout id' =>
    simp only [CodexBridge.step] at h
    split_ifs at h
    · simp only [List.mem_singleton,BridgeEvent.settled.injEq] at h
      simp [h.2]
    · simp at h
  | auditDone serial ok =>
    exfalso
    simp only [CodexBridge.step,CodexBridge.auditDone] at h
    split at h
    · simp at h
    · split at h
      · split_ifs at h
        · simp only [CodexBridge.afterRequestAudit] at h
          split_ifs at h
          · split at h <;> simp [hfinish] at h
          · simp [hfinish] at h
        · exact hfinish _ _ _ h
      · split_ifs at h
        · simp only [CodexBridge.afterApprovalAudit] at h
          split_ifs at h <;> simp [hfinish] at h
        · exact hfinish _ _ _ h
      · simp at h
  | approvalTimeout serial =>
    exfalso
    simp only [CodexBridge.step,CodexBridge.approvalTimeout] at h
    split at h
    · simp at h
    · split at h <;> simp at h
  | resolveApproval requestId d threadId turnId =>
    exfalso
    simp only [CodexBridge.step,CodexBridge.resolveApproval] at h
    split_ifs at h
    · simp at h
    · split at h
      · simp at h
      · split_ifs at h <;> simp at h
  | proceed serial =>
    exfalso
    simp only [CodexBridge.step,CodexBridge.proceed] at h
    split at h
    · simp at h
    · split at h
      · exact hfinish _ _ _ h
      · simp at h
  | spawn =>
    exfalso
    simp only [CodexBridge.step] at h
    split at h
    · split_ifs at h <;> simp at h
    · simp at h
  | stdinClosed => simp [CodexBridge.step] at h
  | setPolicy threadId mode => simp [CodexBridge.step] at h
  | sendRequest method =>
    simp only [CodexBridge.step,CodexBridge.sendRequest] at h
    split_ifs at h <;> simp at h

theorem CodexBridge.serves (b : CodexBridge) {pid : Nat} {m : Message} {id : RpcId}
    {method : Method} (hid : m.id = some id) (hm : m.method = some method)
    (hok : b.noClash (.message pid m) = true) :
    ∃ q, (b.step (.message pid m)).2 = [.received q] ∧ q.pid = pid ∧ q.id = id ∧
      q.method = method := by
  have hpending : b.pending.has id = false := by simpa [noClash,hid,hm] using hok
  exact ⟨⟨b.nextSerial,pid,id,method,m.threadId,m.turnId⟩,
    by simp [step,handleMessage,hid,hm,hpending],rfl,rfl,rfl⟩

theorem Inv.replies {tr : List BridgeEvent} {b : CodexBridge} (hi : Inv tr b) {h : Handler}
    (hmem : h ∈ b.handlers) {r : RpcResult} {pid : Nat} (hr : h.stage = .decided r)
    (ht : b.target = some pid) :
    (b.step (.proceed h.request.serial)).2 =
      [.wrote pid h.request.serial h.request.id (.result r)] := by
  have hfind : b.handler h.request.serial = some h := by
    cases hf : b.handler h.request.serial with
    | none =>
      have hnone := List.find?_eq_none.mp hf h hmem
      simp at hnone
    | some k =>
      obtain ⟨hk,hs⟩ := CodexBridge.handler_eq_some hf
      rw [hi.eq_of_serial hk hmem hs]
  simp [CodexBridge.step,CodexBridge.proceed,hfind,hr,CodexBridge.finish,ht]

namespace Sample

/-- A client request is under way when the app-server asks for an approval. -/
def requestUnderway (id : RpcId) : List BridgeInput :=
  [.spawn,.sendRequest "thread/list",.message 0 { commandApproval with id := some id }]

end Sample

end CodeHarbor.Bridge
