import CodeHarbor.Network.Requests
import CodeHarbor.Network.Segments
set_option autoImplicit false

namespace CodeHarbor.Network
open Lib Lib.Go Lib.Base64 Relay

/-! Who holds the leases. -/

/-- The peer whose lease call in this step finds the lease free. -/
def Cluster.taker (n : Cluster) (input : ClusterInput) : Option Nat :=
  let caller : Option Nat :=
    match input with
    | .advance k => if (n.sockets[k]?).any (fun s => s.stage = .replaced) then some k else none
    | .proceed i =>
      match (n.tasks[i]?).map Task.work with
      | some (.leasing k _ _ _ _) => some k
      | _ => none
    | _ => none
  caller.filter (fun k => (n.sockets[k]?).any (fun s => n.getPresence s.deviceId = none))

section Leases

variable {n n' n'' : Cluster} {tr : List ClusterEvent}

/-! Tokens and leases. -/

def Cluster.tokens (n : Cluster) : List Text := n.sockets.map (·.presenceToken)

/-- Connections stay who they are, and leases are at most given up. -/
structure Cluster.Keeps (n n' : Cluster) : Prop where
  tokens : n'.tokens = n.tokens
  presence : ∀ deviceId, n'.getPresence deviceId = none ∨ n'.getPresence deviceId = n.getPresence deviceId

theorem Cluster.keeps_of_eq (sockets : n'.sockets = n.sockets) (presence : n'.presence = n.presence)
    (now : n'.now = n.now) : n.Keeps n' where
  tokens := by rw [tokens,sockets,tokens]
  presence deviceId := by
    right
    rw [getPresence,getPresence,presence,now]

theorem Cluster.Keeps.refl (n : Cluster) : n.Keeps n := keeps_of_eq rfl rfl rfl

theorem Cluster.Keeps.trans (h : n.Keeps n') (h' : n'.Keeps n'') : n.Keeps n'' where
  tokens := h'.tokens.trans h.tokens
  presence deviceId := by
    rcases h'.presence deviceId with hnone | hsame
    · exact .inl hnone
    · rw [hsame]
      exact h.presence deviceId

theorem Cluster.keeps_ite {p : Prop} [Decidable p] {n₁ n₂ : Cluster} (h₁ : n.Keeps n₁) (h₂ : n.Keeps n₂) :
    n.Keeps (if p then n₁ else n₂) := by
  split
  · exact h₁
  · exact h₂

theorem Cluster.keeps_modifySocket (k : Nat) {f : Socket → Socket}
    (hf : ∀ s, (f s).presenceToken = s.presenceToken) : n.Keeps (n.modifySocket k f) where
  tokens := by
    unfold tokens modifySocket
    refine List.ext_getElem? ?_
    intro j
    rw [List.getElem?_map,List.getElem?_map,List.getElem?_modify]
    split_ifs with hj
    · cases n.sockets[j]? with
      | none => rfl
      | some s => simp [hf]
    · simp
  presence _ := .inr rfl

theorem Cluster.Keeps.setStage (h : n.Keeps n') (k : Nat) (stage : SocketStage) :
    n.Keeps (n'.setStage k stage) := h.trans (keeps_modifySocket k (fun _ => rfl))

theorem Cluster.Keeps.spawn (h : n.Keeps n') (party : Party) (work : Option Work) :
    n.Keeps (n'.spawn party work) := h.trans (keeps_of_eq rfl rfl rfl)

theorem Cluster.keeps_tick (elapsed : Nat) : n.Keeps { n with now := n.now+elapsed } := by
  refine ⟨rfl,?_⟩
  intro deviceId
  unfold getPresence
  dsimp only
  cases n.presence.get deviceId with
  | none => exact .inl rfl
  | some lease =>
    dsimp only
    split_ifs with hlater hnow
    · exact .inr rfl
    · have hle : n.now ≤ n.now+elapsed := Int.le_add_of_nonneg_right (Int.natCast_nonneg _)
      exact absurd (Int.lt_of_le_of_lt hle hlater) hnow
    · exact .inl rfl
    · exact .inl rfl

theorem Cluster.getPresence_erase (deviceId d : Text) :
    Cluster.getPresence { n with presence := n.presence.erase deviceId } d =
      if d = deviceId then none else n.getPresence d := by
  unfold getPresence
  rw [OrdMap.get_erase]
  by_cases hd : d = deviceId <;> simp [hd]

theorem Cluster.getPresence_set (deviceId value d : Text) :
    (n.setPresence deviceId value).getPresence d =
      if d = deviceId then some value else n.getPresence d := by
  have hlive : n.now < n.now + deviceLeaseTTL := by
    have hpos : 0 < deviceLeaseTTL := by decide
    exact Int.lt_add_of_pos_right n.now hpos
  unfold getPresence setPresence
  rw [OrdMap.get_set]
  by_cases hd : d = deviceId <;> simp [hd,hlive]

theorem Cluster.keeps_clearDevicePresence (s : Socket) (o : Outcome) : n.Keeps (n.clearDevicePresence s o) := by
  unfold clearDevicePresence
  refine keeps_ite ⟨rfl,?_⟩ (.refl n)
  intro d
  rw [getPresence_erase]
  split_ifs
  · exact .inl rfl
  · exact .inr rfl

theorem Cluster.keeps_markDevicePresence (c : Config) (s : Socket) (o : Outcome) :
    n.Keeps (n.markDevicePresence c s o).2 := by
  unfold markDevicePresence
  split
  · exact .refl n
  · split
    · exact .refl n
    · split
      · rename_i howned
        refine keeps_ite ⟨rfl,?_⟩ (.refl n)
        intro d
        rw [getPresence_set]
        split_ifs with hd
        · rw [hd,howned]
          exact .inr rfl
        · exact .inr rfl
      · exact .refl n

theorem Cluster.acquireDeviceLease_presence (s : Socket) (o : Outcome) (d : Text) :
    (n.acquireDeviceLease s o).2.getPresence d = n.getPresence d ∨
    (d = s.deviceId ∧ s.ownerUser ≠ [] ∧ n.getPresence d = none ∧
      (n.acquireDeviceLease s o).2.getPresence d = some s.leaseValue) := by
  unfold acquireDeviceLease
  split
  · exact .inl rfl
  · rename_i hleases
    rw [not_or,Bool.not_eq_false,Bool.not_eq_false] at hleases
    split
    · exact .inl rfl
    · rename_i hfree
      dsimp only
      split
      · rw [getPresence_set]
        by_cases hd : d = s.deviceId
        · right
          rw [Option.not_isSome_iff_eq_none] at hfree
          simp only [Socket.leases,Bool.and_eq_true,decide_eq_true_eq] at hleases
          exact ⟨hd,hleases.2.1.2,hd ▸ hfree,if_pos hd⟩
        · exact .inl (if_neg hd)
      · exact .inl rfl

theorem Cluster.bindLease_presence (o : Outcome) (s : Socket) (oldOwner ownerUser : Text) (d : Text) :
    (n.bindLease o s oldOwner ownerUser).2.getPresence d = n.getPresence d ∨
    (d = s.deviceId ∧
      (n.bindLease o s oldOwner ownerUser).2.getPresence d = some (ownerUser ++ '|' :: s.presenceToken) ∧
      (n.getPresence d = none ∨ ∃ old, n.getPresence d = some (old ++ '|' :: s.presenceToken))) := by
  unfold bindLease
  dsimp only
  split
  · rename_i hcurrent
    dsimp only
    split
    · rw [getPresence_set]
      by_cases hd : d = s.deviceId
      · right
        refine ⟨hd,if_pos hd,?_⟩
        rw [hd]
        rcases hcurrent with hfree | hold | hnew
        · exact .inl hfree
        · exact .inr ⟨oldOwner,hold⟩
        · exact .inr ⟨ownerUser,hnew⟩
      · exact .inl (if_neg hd)
    · exact .inl rfl
  · exact .inl rfl

/-! Segments. -/

theorem Cluster.handle_keeps (o : Outcome) (k : Nat) (message : GatewayMessage) :
    n.Keeps (n.handle o k message).1 := by
  unfold Cluster.handle
  cases n.sockets[k]? with
  | none => exact .refl n
  | some s =>
    cases message with
    | deviceHello hello secret => exact (Keeps.refl n).setStage k _
    | sessionSync sessions =>
      obtain ⟨stored,hstored⟩ := n.syncSessions_eq s.ownerUser s.deviceId sessions
      dsimp only
      rw [hstored]
      exact keeps_ite (keeps_of_eq rfl rfl rfl) (.refl n)
    | gatewayEvent payload =>
      dsimp only
      cases payload.sessionId with
      | none => exact .refl n
      | some sessionId =>
        dsimp only
        cases happend : n.appendOwnedEvent sessionId s.ownerUser payload with
        | none => exact .refl n
        | some appended =>
          obtain ⟨seq,stored⟩ := appended
          obtain ⟨sessions,rfl⟩ := appendOwnedEvent_eq happend
          have hstored : n.Keeps (if o.done = true then { n with sessions := sessions } else n) :=
            keeps_ite (keeps_of_eq rfl rfl rfl) (.refl n)
          dsimp only
          split <;> exact hstored
    | proxyResponse requestId body =>
      dsimp only
      cases htake : n.takePending s.relay requestId s.deviceId s.ownerUser with
      | none => exact .refl n
      | some taken =>
        obtain ⟨entry,later⟩ := taken
        obtain ⟨a,-,-,-,-,rfl⟩ := takePending_spec htake
        exact keeps_of_eq rfl rfl rfl
    | _ => exact .refl n

theorem Cluster.accept_keeps (o : Outcome) (b : Nat) (request : ProxyRequest) :
    n.Keeps (n.accept o b request).1 := by
  unfold Cluster.accept
  cases n.browsers[b]? with
  | none => exact .refl n
  | some browser =>
    dsimp only
    split
    · exact .refl n
    · split <;> exact keeps_of_eq rfl rfl rfl

theorem Cluster.deletePending_keeps (entry : Nat) : n.Keeps (n.deletePending entry) := by
  unfold deletePending
  split
  · exact .refl n
  · exact keeps_of_eq rfl rfl rfl

theorem Cluster.perform_keeps (c : Config) (o : Outcome) {work : Work}
    (hwork : ∀ k old d w announce, work ≠ .leasing k old d w announce) : n.Keeps (n.perform c o work).1 := by
  cases work with
  | subscribing b deviceId replace => exact keeps_of_eq rfl rfl rfl
  | resuming b resume =>
    obtain ⟨out,next,heq,-⟩ := n.resume_eq o b resume
    simp only [Cluster.perform,heq]
    exact .refl n
  | accepting b request => exact accept_keeps o b request
  | forwarding entry device =>
    cases device with
    | some k => exact .refl n
    | none =>
      simp only [Cluster.perform]
      split
      · exact keeps_ite (keeps_of_eq rfl rfl rfl) (.refl n)
      · exact .refl n
  | withdrawing entry => exact deletePending_keeps entry
  | offline entry => exact keeps_of_eq rfl rfl rfl
  | timing entry => exact keeps_ite (deletePending_keeps entry) (.refl n)
  | handling k message => exact handle_keeps o k message
  | publishing k payload eventSeq =>
    simp only [Cluster.perform]
    split <;> exact .refl n
  | emitting relay deviceId ownerUser payload eventSeq =>
    have hsent : n.Keeps (if (n.redis && o.done) = true then
        n.publish (.gatewayEvent deviceId ownerUser payload eventSeq) else n) :=
      keeps_ite (keeps_of_eq rfl rfl rfl) (.refl n)
    simp only [Cluster.perform]
    split <;> exact hsent
  | responding entry requestId body => exact keeps_of_eq rfl rfl rfl
  | relaying k requestId body =>
    simp only [Cluster.perform]
    split
    · exact .refl n
    · exact keeps_ite (keeps_of_eq rfl rfl rfl) (.refl n)
  | checking relay k entry =>
    simp only [Cluster.perform]
    split
    · exact .refl n
    · split <;> exact .refl n
  | dropping relay deviceId k => exact keeps_ite (keeps_of_eq rfl rfl rfl) (.refl n)
  | binding relay deviceId ownerUser announce =>
    simp only [Cluster.perform]
    split <;> exact .refl n
  | comparing k deviceId ownerUser announce =>
    simp only [Cluster.perform]
    split
    · exact .refl n
    · split
      · exact .refl n
      · split <;> exact .refl n
  | leasing k old d w announce => exact absurd rfl (hwork k old d w announce)
  | writing k deviceId ownerUser announce => exact keeps_modifySocket k (fun _ => rfl)
  | announcing deviceId ownerUser => exact keeps_ite (keeps_of_eq rfl rfl rfl) (.refl n)
  | revoking deviceId ownerUser shared =>
    simp only [Cluster.perform]
    split
    · exact .refl n
    · split <;> exact keeps_ite (keeps_of_eq rfl rfl rfl) (.refl n)
  | _ => exact .refl n

theorem Cluster.handleRedisMessage_keeps (o : Outcome) (relay : Nat) (envelope : Envelope) :
    n.Keeps (n.handleRedisMessage o relay envelope).1 := by
  cases envelope with
  | proxyRequest entry =>
    simp only [Cluster.handleRedisMessage]
    split
    · exact .refl n
    · split
      · exact .refl n
      · split <;> exact .refl n
  | proxyResponse deviceId ownerUser requestId body =>
    simp only [Cluster.handleRedisMessage]
    split
    · exact .refl n
    · split
      · exact .refl n
      · rename_i htake
        obtain ⟨a,-,-,-,-,rfl⟩ := takePending_spec htake
        exact keeps_of_eq rfl rfl rfl
  | deviceOwnership deviceId ownerUser =>
    simp only [Cluster.handleRedisMessage]
    split <;> exact .refl n
  | _ => exact .refl n

theorem Cluster.hello_keeps (c : Config) (o : Outcome) (k : Nat) (hello : Hello) (secret : Text) :
    n.Keeps (n.hello c o k hello secret) := by
  unfold Cluster.hello
  dsimp only
  split
  · exact (Keeps.refl n).setStage k _
  · have hstored : ∀ records, n.Keeps (if o.done = true then { n with records := records } else n) :=
      fun records => keeps_ite (keeps_of_eq rfl rfl rfl) (.refl n)
    split
    · exact (hstored _).trans (keeps_modifySocket k (fun _ => rfl))
    · exact (hstored _).setStage k _

theorem Cluster.readDevice_keeps (c : Config) (o : Outcome) (k : Nat) (s : Socket)
    (message : GatewayMessage) : n.Keeps (n.readDevice c o k s message).1 := by
  unfold readDevice
  split
  · exact .refl n
  · exact hello_keeps c o k _ _
  · exact (Keeps.refl n).setStage k _
  · dsimp only
    split
    · exact (keeps_markDevicePresence c s o).spawn _ _
    · exact (keeps_markDevicePresence c s o).setStage k _
  · exact .refl n

theorem Cluster.advance_keeps (c : Config) (o : Outcome) (k : Nat) {s : Socket} (hs : s.stage ≠ .replaced) :
    n.Keeps (n.advance c o k s).1 := by
  unfold Cluster.advance
  cases hstage : s.stage with
  | authenticated => exact (Keeps.refl n).setStage k _
  | replacing previous =>
    dsimp only
    split
    · exact (Keeps.refl n).setStage k _
    · exact (keeps_clearDevicePresence _ o).setStage k _
  | replaced => exact absurd hstage hs
  | leased =>
    exact (keeps_of_eq rfl rfl rfl : n.Keeps { n with
      devices := n.devices.set (s.relay,s.deviceId) k }).setStage k .registered
  | registered => exact (Keeps.refl n).setStage k _
  | announced => exact (keeps_markDevicePresence c s o).setStage k _
  | ended => exact (keeps_clearDevicePresence s o).setStage k _
  | cleared =>
    dsimp only
    unfold removeSocket
    dsimp only
    split
    · refine Keeps.setStage ?_ k _
      exact keeps_of_eq rfl rfl rfl
    · exact (Keeps.refl n).setStage k _
  | _ => exact .refl n

/-! Steps. -/

/-- Inputs that write no lease and open no connection. -/
def Cluster.keepsLeases (n : Cluster) (input : ClusterInput) : Bool :=
  match input with
  | .connectDevice _ _ => false
  | .advance k => (n.sockets[k]?).all (·.stage ≠ .replaced)
  | .proceed i =>
    match (n.tasks[i]?).map Task.work with
    | some (.leasing _ _ _ _ _) => false
    | _ => true
  | _ => true

theorem Cluster.step_keeps (c : Config) (o : Outcome) {input : ClusterInput}
    (hkeeps : n.keepsLeases input = true) : n.Keeps (n.step c o input).1 := by
  cases input with
  | tick elapsed => exact keeps_tick elapsed
  | connectBrowser relay account =>
    simp only [Cluster.step]
    split <;> exact keeps_of_eq rfl rfl rfl
  | browserFrame b message =>
    simp only [Cluster.step]
    split
    · exact .refl n
    · split <;> exact keeps_of_eq rfl rfl rfl
  | closeBrowser b => exact keeps_ite (.refl n) (keeps_of_eq rfl rfl rfl)
  | connectDevice relay token => cases hkeeps
  | deviceFrame k message =>
    simp only [Cluster.step]
    split
    · exact .refl n
    · split
      · exact .refl n
      · exact readDevice_keeps c o k _ message
  | advance k =>
    cases hget : n.sockets[k]? with
    | none =>
      simp only [Cluster.step,hget]
      exact .refl n
    | some s =>
      simp only [Cluster.step,hget]
      split
      · exact .refl n
      · refine advance_keeps c o k ?_
        simpa [keepsLeases,hget] using hkeeps
  | closeDevice k =>
    simp only [Cluster.step]
    split
    · exact .refl n
    · split
      · exact .refl n
      · exact (Keeps.refl n).setStage k _
  | proceed i =>
    cases htask : n.tasks[i]? with
    | none =>
      simp only [Cluster.step,htask]
      exact .refl n
    | some task =>
      simp only [Cluster.step,htask]
      have herase : n.Keeps { n with tasks := n.tasks.eraseIdx i } := keeps_of_eq rfl rfl rfl
      refine (herase.trans (perform_keeps c o ?_)).spawn _ _
      intro k old d w announce hw
      simp [keepsLeases,htask,hw] at hkeeps
  | fire entry =>
    simp only [Cluster.step]
    split <;> exact keeps_of_eq rfl rfl rfl
  | deliver i =>
    simp only [Cluster.step]
    split
    · exact .refl n
    · split
      · exact .refl n
      · have herase : n.Keeps { n with messages := n.messages.eraseIdx i } := keeps_of_eq rfl rfl rfl
        exact (herase.trans (handleRedisMessage_keeps o _ _)).spawn _ _
  | lose i => exact keeps_of_eq rfl rfl rfl
  | enroll account requested random secret =>
    simp only [Cluster.step]
    split
    · exact .refl n
    · exact keeps_ite (keeps_of_eq rfl rfl rfl) (.refl n)
  | pair relay deviceId account =>
    simp only [Cluster.step]
    split
    · exact .refl n
    · refine Keeps.spawn ?_ _ _
      exact keeps_ite (keeps_of_eq rfl rfl rfl) (.refl n)
  | revoke account deviceId =>
    simp only [Cluster.step]
    split
    · exact .refl n
    · refine Keeps.spawn ?_ _ _
      exact keeps_ite (keeps_of_eq rfl rfl rfl) (.refl n)
  | retain sessionId eventSeq =>
    simp only [Cluster.step]
    split <;> exact keeps_of_eq rfl rfl rfl

theorem Cluster.step_tokens (c : Config) (o : Outcome) (input : ClusterInput) :
    (n.step c o input).1.tokens = n.tokens ∨
    ∃ token, (n.step c o input).1.tokens = n.tokens ++ [token] ∧ n.freshToken token = true := by
  by_cases hkeeps : n.keepsLeases input = true
  · exact .inl (step_keeps c o hkeeps).tokens
  cases input with
  | connectDevice relay token =>
    simp only [Cluster.step]
    split
    · exact .inl rfl
    · rename_i hfresh
      rw [not_or,Bool.not_eq_false] at hfresh
      exact .inr ⟨token,by simp [tokens],hfresh.1⟩
  | advance k =>
    left
    cases hget : n.sockets[k]? with
    | none => simp [keepsLeases,hget] at hkeeps
    | some s =>
      have hstage : s.stage = .replaced := by simpa [keepsLeases,hget] using hkeeps
      simp only [Cluster.step,hget]
      split
      · rfl
      · obtain ⟨presence,heq⟩ := acquireDeviceLease_eq (n := n) s o
        simp only [Cluster.advance,hstage,heq]
        exact ((Keeps.refl { n with presence := presence }).setStage k _).tokens
  | proceed i =>
    left
    cases htask : n.tasks[i]? with
    | none => simp [keepsLeases,htask] at hkeeps
    | some task =>
      simp only [Cluster.step,htask]
      cases hw : task.work with
      | leasing k old d w announce =>
        simp only [Cluster.perform]
        split
        · rfl
        · rename_i s _
          obtain ⟨presence,heq⟩ := bindLease_eq (n := { n with tasks := n.tasks.eraseIdx i }) o s old w
          simp only [Effect.by,heq]
          rfl
      | _ => simp [keepsLeases,htask,hw] at hkeeps
  | _ => exact absurd rfl hkeeps

theorem Cluster.Sound.step_presence (h : n.Sound tr) (c : Config) (o : Outcome) (input : ClusterInput)
    (d : Text) : (n.step c o input).1.getPresence d = none ∨
      (n.step c o input).1.getPresence d = n.getPresence d ∨
      ∃ k s w, n.sockets[k]? = some s ∧ s.deviceId = d ∧ n.records.owns d w ∧
        (n.step c o input).1.getPresence d = some (w ++ '|' :: s.presenceToken) ∧
        (n.taker input = some k ∨ ∃ old, n.getPresence d = some (old ++ '|' :: s.presenceToken)) := by
  by_cases hkeeps : n.keepsLeases input = true
  · rcases (step_keeps c o hkeeps).presence d with hnone | hsame
    · exact .inl hnone
    · exact .inr (.inl hsame)
  cases input with
  | connectDevice relay token =>
    right
    left
    simp only [Cluster.step]
    split <;> rfl
  | advance k =>
    right
    cases hget : n.sockets[k]? with
    | none => simp [keepsLeases,hget] at hkeeps
    | some s =>
      have hstage : s.stage = .replaced := by simpa [keepsLeases,hget] using hkeeps
      simp only [Cluster.step,hget]
      split
      · exact .inl rfl
      · simp only [Cluster.advance,hstage]
        rcases acquireDeviceLease_presence (n := n) s o d with hsame | ⟨rfl,hne,hfree,hnew⟩
        · exact .inl hsame
        · refine .inr ⟨k,s,s.ownerUser,hget,rfl,(h.sockets k s hget).bound hne,hnew,.inl ?_⟩
          simp [taker,hget,hstage,hfree]
  | proceed i =>
    right
    cases htask : n.tasks[i]? with
    | none => simp [keepsLeases,htask] at hkeeps
    | some task =>
      simp only [Cluster.step,htask]
      cases hw : task.work with
      | leasing k old deviceId w announce =>
        have hwork := h.tasks task (List.mem_of_getElem? htask)
        rw [hw] at hwork
        obtain ⟨howns,-,s,hget,rfl⟩ := hwork
        simp only [Cluster.perform,hget]
        rcases bindLease_presence (n := { n with tasks := n.tasks.eraseIdx i }) o s old w d with
          hsame | ⟨rfl,hnew,hbefore⟩
        · exact .inl hsame
        · refine .inr ⟨k,s,w,hget,rfl,howns,hnew,?_⟩
          rcases hbefore with hfree | hbefore
          · left
            have hfree' : n.getPresence s.deviceId = none := hfree
            simp [taker,htask,hw,hget,hfree']
          · exact .inr hbefore
      | _ => simp [keepsLeases,htask,hw] at hkeeps
  | _ => exact absurd rfl hkeeps

theorem leaseToken_unique {owner owner' token token' : Text} (h : owner ++ '|' :: token = owner' ++ '|' :: token')
    (hplain : '|' ∉ token) (hplain' : '|' ∉ token') : token = token' := by
  rcases List.append_eq_append_iff.mp h with ⟨rest,-,hrest⟩ | ⟨rest,-,hrest⟩
  · cases rest with
    | nil => exact (List.cons.inj hrest).2
    | cons x rest =>
      rw [(List.cons.inj hrest).2] at hplain
      exact absurd (by simp) hplain
  · cases rest with
    | nil => exact (List.cons.inj hrest).2.symm
    | cons x rest =>
      rw [(List.cons.inj hrest).2] at hplain'
      exact absurd (by simp) hplain'

end Leases

end CodeHarbor.Network
