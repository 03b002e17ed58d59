import CodeHarbor.Network.Ownership
set_option autoImplicit false

namespace CodeHarbor.Network
open Lib Lib.Go Lib.Base64 Relay

/-- What a browser may be sent: the greeting when it connects, replies to its own frames,
events of sessions of its user, responses of the devices it asked, and live events of devices
of its user that it has subscribed to. The state is that before the frame is enqueued, the
trace that up to it. -/
def Cluster.Entitled (n : Cluster) (tr : List ClusterEvent) (b : Nat) : BrowserFrame → Prop
  | .cloudReady => n.browsers[b]? = none
  | .pong => .browserSent b .ping ∈ tr
  | .resumeComplete _ _ => ∃ cursors, .browserSent b (.resume cursors) ∈ tr
  | .historyGap _ _ _ _ => ∃ cursors, .browserSent b (.resume cursors) ∈ tr
  | .replay sessionId eventSeq event =>
    ∃ user, n.IsUser b user ∧ n.Logged sessionId user eventSeq event
  | .live deviceId payload _ => ∃ browser, n.browsers[b]? = some browser ∧
      n.records.owns deviceId browser.user ∧ deviceId ∈ browser.subscriptions ∧
      ∃ k, .deviceSent k deviceId (.gatewayEvent payload) ∈ tr
  | .proxyError requestId _ _ => ∃ request, .browserSent b (.gatewayProxy request) ∈ tr ∧
      request.requestId = requestId
  | .proxyResponse requestId body => ∃ request k, .browserSent b (.gatewayProxy request) ∈ tr ∧
      request.requestId = requestId ∧ .deviceSent k request.deviceId (.proxyResponse requestId body) ∈ tr

def Cluster.Isolates (n : Cluster) (tr out : List ClusterEvent) : Prop :=
  ∀ b frame entry, .toBrowser b frame entry ∈ out → n.Entitled tr b frame

section Frames

variable {n n' : Cluster} {tr tr' : List ClusterEvent}

theorem Cluster.Entitled.mono {b : Nat} {frame : BrowserFrame} (h : n.Entitled tr b frame)
    (hbrowsers : n'.browsers = n.browsers) (hrecords : n'.records = n.records)
    (hsessions : n'.sessions = n.sessions) (htr : tr ⊆ tr') : n'.Entitled tr' b frame := by
  cases frame with
  | cloudReady =>
    rw [Entitled,hbrowsers]
    exact h
  | pong => exact htr h
  | resumeComplete cursors truncated =>
    obtain ⟨sent,hsent⟩ := h
    exact ⟨sent,htr hsent⟩
  | historyGap sessionId requested first last =>
    obtain ⟨sent,hsent⟩ := h
    exact ⟨sent,htr hsent⟩
  | replay sessionId seq event =>
    obtain ⟨user,⟨browser,hget,huser⟩,session,hsession,howner,hevent⟩ := h
    exact ⟨user,⟨browser,hbrowsers ▸ hget,huser⟩,session,hsessions ▸ hsession,howner,hevent⟩
  | live deviceId payload seq =>
    obtain ⟨browser,hget,howns,hsubscribed,k,hsent⟩ := h
    rw [Entitled,hbrowsers,hrecords]
    exact ⟨browser,hget,howns,hsubscribed,k,htr hsent⟩
  | proxyError requestId status error =>
    obtain ⟨request,hsent,hid⟩ := h
    exact ⟨request,htr hsent,hid⟩
  | proxyResponse requestId body =>
    obtain ⟨request,k,hsent,hid,hresponse⟩ := h
    exact ⟨request,k,htr hsent,hid,htr hresponse⟩

/-- Besides, it answers no accepted request, and hands none over. -/
def Cluster.Fits (n : Cluster) (tr : List ClusterEvent) : ClusterEvent → Prop
  | .toBrowser b frame entry => n.Entitled tr b frame ∧ entry = none
  | .handed _ _ _ _ _ _ _ => False
  | _ => True

def Cluster.AllFit (n : Cluster) (tr out : List ClusterEvent) : Prop := ∀ e ∈ out, n.Fits tr e

theorem Cluster.allFit_nil : n.AllFit tr [] := fun _ h => nomatch h

theorem Cluster.allFit_send {o : Outcome} {b : Nat} {frame : BrowserFrame} (h : n.Entitled tr b frame) :
    n.AllFit tr (sendBrowser o b frame none) := by
  intro e he
  unfold sendBrowser at he
  split_ifs at he
  · cases he
  · rw [List.mem_singleton.mp he]
    exact ⟨h,rfl⟩

theorem Cluster.allFit_device {o : Outcome} {k : Nat} {frame : DeviceFrame} :
    n.AllFit tr (sendDevice o k frame) := by
  intro e he
  unfold sendDevice at he
  split_ifs at he
  · cases he
  · rw [List.mem_singleton.mp he]
    trivial

theorem Cluster.AllFit.mono {out : List ClusterEvent} (h : n.AllFit tr out)
    (hbrowsers : n'.browsers = n.browsers) (hrecords : n'.records = n.records)
    (hsessions : n'.sessions = n.sessions) (htr : tr ⊆ tr') : n'.AllFit tr' out := by
  intro e he
  have hfits := h e he
  cases e with
  | toBrowser b frame entry => exact ⟨hfits.1.mono hbrowsers hrecords hsessions htr,hfits.2⟩
  | handed relay socket deviceId ownerUser entry user request => exact hfits
  | _ => trivial

theorem Cluster.Sound.allFit_broadcast (h : n.Sound tr) (o : Outcome) (relay : Nat)
    {deviceId ownerUser : Text} {payload : Payload} {eventSeq : Option Nat} (hne : deviceId ≠ [])
    (hsent : ∃ k, .deviceSent k deviceId (.gatewayEvent payload) ∈ tr) :
    n.AllFit tr (n.broadcast o relay deviceId ownerUser payload eventSeq) := by
  intro e he
  obtain ⟨⟨browser,b⟩,hmem,hevent⟩ := List.mem_flatMap.mp he
  have hget : n.browsers[b]? = some browser := List.mem_zipIdx_iff_getElem?.mp hmem
  dsimp only at hevent
  split_ifs at hevent with hcond
  · simp only [Bool.and_eq_true,Bool.or_eq_true,decide_eq_true_eq] at hcond
    have hsubscribed := hcond.2.resolve_left hne
    have hb := h.browsers browser (List.mem_of_getElem? hget)
    refine allFit_send ?_ e hevent
    exact ⟨browser,hget,(hb.subscriptions deviceId hsubscribed).2,hsubscribed,hsent⟩
  · cases hevent

/-! One segment after another. -/

theorem Cluster.allFit_resume (o : Outcome) {b : Nat} {r : Resume}
    (hw : (Work.resuming b r).Sound n tr) : n.AllFit tr (n.resume o b r).2.1 := by
  obtain ⟨hsent,hstage⟩ := hw
  unfold Cluster.resume
  cases n.browsers[b]? with
  | none => exact allFit_nil
  | some browser =>
    dsimp only
    cases hs : r.stage with
    | next =>
      dsimp only
      cases r.cursors with
      | nil => exact allFit_send hsent
      | cons entry rest =>
        obtain ⟨sessionId,raw⟩ := entry
        dsimp only
        split_ifs
        · exact allFit_nil
        · exact allFit_nil
        · cases raw <;> exact allFit_nil
    | bounds sessionId cursor =>
      dsimp only
      split_ifs
      · exact allFit_send hsent
      · exact allFit_nil
    | list sessionId batch =>
      dsimp only
      split
      · exact allFit_nil
      · split_ifs <;> exact allFit_nil
    | send sessionId batch events hasMore =>
      rw [hs] at hstage
      obtain ⟨user,-,huser,hevents⟩ := hstage
      cases events with
      | nil =>
        dsimp only
        split_ifs <;> exact allFit_nil
      | cons event rest =>
        dsimp only
        split
        · exact allFit_nil
        · intro e he
          rw [List.mem_singleton.mp he]
          exact ⟨⟨user,huser,hevents event List.mem_cons_self⟩,rfl⟩

theorem Cluster.allFit_accept (o : Outcome) {b : Nat} {request : ProxyRequest}
    (hw : (Work.accepting b request).Sound n tr) : n.AllFit tr (n.accept o b request).2.1 := by
  have herror : ∀ error : ProxyError,
      n.AllFit tr (sendBrowser o b (error.frame request.requestId) none) :=
    fun error => allFit_send ⟨request,hw.1,rfl⟩
  unfold Cluster.accept
  cases n.browsers[b]? with
  | none => exact allFit_nil
  | some browser =>
    dsimp only
    split
    · exact herror .tooManyPendingRequests
    · split
      · exact herror .duplicateRequestId
      · exact allFit_nil

theorem Cluster.allFit_handle (o : Outcome) (k : Nat) (message : GatewayMessage) :
    n.AllFit tr (n.handle o k message).2.1 := by
  unfold Cluster.handle
  cases n.sockets[k]? with
  | none => exact allFit_nil
  | some s =>
    cases message with
    | ping => exact allFit_device
    | deviceHello hello secret => exact allFit_nil
    | sessionSync sessions => exact allFit_device
    | gatewayEvent payload =>
      dsimp only
      cases payload.sessionId with
      | none => exact allFit_nil
      | some sessionId =>
        dsimp only
        cases n.appendOwnedEvent sessionId s.ownerUser payload with
        | none => exact allFit_device
        | some stored =>
          dsimp only
          split
          · exact allFit_nil
          · exact allFit_device
    | proxyResponse requestId body =>
      dsimp only
      cases n.takePending s.relay requestId s.deviceId s.ownerUser <;> exact allFit_nil
    | unknown => exact allFit_nil

/-- The segments that hand an accepted request over or answer it. -/
def Work.carries : Work → Bool
  | .forwarding _ (some _) => true
  | .handing _ _ _ => true
  | .offline _ => true
  | .timedOut _ => true
  | .responding _ _ _ => true
  | _ => false

theorem Cluster.Sound.allFit_perform (h : n.Sound tr) (c : Config) (o : Outcome) {work : Work}
    (hw : work.Sound n tr) (hcarries : work.carries = false) : n.AllFit tr (n.perform c o work).2.1 := by
  cases work with
  | resuming b resume => exact allFit_resume o hw
  | accepting b request => exact allFit_accept o hw
  | forwarding entry device =>
    cases device with
    | some k => cases hcarries
    | none =>
      simp only [Cluster.perform]
      split <;> exact allFit_nil
  | offline entry => cases hcarries
  | timedOut entry => cases hcarries
  | handling k message => exact allFit_handle o k message
  | publishing k payload eventSeq =>
    simp only [Cluster.perform]
    split <;> exact allFit_nil
  | emitting relay deviceId ownerUser payload eventSeq =>
    simp only [Cluster.perform]
    split
    · exact allFit_nil
    · exact h.allFit_broadcast o relay hw.1 hw.2
  | responding entry requestId body => cases hcarries
  | relaying k requestId body =>
    simp only [Cluster.perform]
    split <;> exact allFit_nil
  | checking relay k entry =>
    simp only [Cluster.perform]
    split
    · exact allFit_nil
    · split <;> exact allFit_nil
  | handing relay k entry => cases hcarries
  | binding relay deviceId ownerUser announce =>
    simp only [Cluster.perform]
    split <;> exact allFit_nil
  | comparing k deviceId ownerUser announce =>
    simp only [Cluster.perform]
    split
    · exact allFit_nil
    · split_ifs <;> exact allFit_nil
  | leasing k oldOwner deviceId ownerUser announce =>
    simp only [Cluster.perform]
    split <;> exact allFit_nil
  | writing k deviceId ownerUser announce => exact allFit_device
  | revoking deviceId ownerUser shared =>
    simp only [Cluster.perform]
    split
    · exact allFit_nil
    · split <;> exact allFit_nil
  | _ => exact allFit_nil

theorem Cluster.Sound.allFit_handleRedisMessage (h : n.Sound tr) (o : Outcome) (relay : Nat)
    {envelope : Envelope} (he : envelope.Sound n tr) :
    n.AllFit tr (n.handleRedisMessage o relay envelope).2.1 := by
  cases envelope with
  | gatewayEvent deviceId ownerUser payload eventSeq => exact h.allFit_broadcast o relay he.1 he.2
  | proxyRequest entry =>
    simp only [Cluster.handleRedisMessage]
    split
    · exact allFit_nil
    · split
      · exact allFit_nil
      · split <;> exact allFit_nil
  | proxyResponse deviceId ownerUser requestId body =>
    simp only [Cluster.handleRedisMessage]
    split
    · exact allFit_nil
    · split <;> exact allFit_nil
  | deviceOwnership deviceId ownerUser =>
    simp only [Cluster.handleRedisMessage]
    split <;> exact allFit_nil
  | deviceRevocation deviceId ownerUser => exact allFit_nil

theorem Cluster.allFit_readBrowser (o : Outcome) {b : Nat} {browser : Browser} {message : BrowserMessage}
    (hsent : .browserSent b message ∈ tr) : n.AllFit tr (n.readBrowser o b browser message).1 := by
  cases message with
  | ping => exact allFit_send hsent
  | resume cursors =>
    cases cursors with
    | none => exact allFit_send ⟨_,hsent⟩
    | some cursors => exact allFit_nil
  | subscribe deviceId replace =>
    simp only [Cluster.readBrowser]
    split <;> exact allFit_nil
  | gatewayProxy request =>
    simp only [Cluster.readBrowser]
    split_ifs with howner hid
    · exact allFit_send ⟨request,hsent,hid⟩
    · exact allFit_nil
    · exact allFit_send ⟨request,hsent,rfl⟩
  | unknown => exact allFit_nil

theorem Cluster.allFit_advance (c : Config) (o : Outcome) (k : Nat) {s : Socket} (hs : s.stage ≠ .cleared) :
    n.AllFit tr (n.advance c o k s).2 := by
  unfold Cluster.advance
  cases hstage : s.stage with
  | registered => exact allFit_device
  | cleared => exact absurd hstage hs
  | _ => exact allFit_nil

theorem Cluster.allFit_readDevice (c : Config) (o : Outcome) (k : Nat) (s : Socket)
    (message : GatewayMessage) : n.AllFit tr (n.readDevice c o k s message).2 := by
  cases hstage : s.stage with
  | waiting =>
    cases message with
    | ping =>
      simp only [Cluster.readDevice,hstage]
      exact allFit_device
    | _ =>
      simp only [Cluster.readDevice,hstage]
      exact allFit_nil
  | ready =>
    simp only [Cluster.readDevice,hstage]
    split
    · intro e he
      rw [List.mem_singleton.mp he]
      trivial
    · exact allFit_nil
  | _ =>
    simp only [Cluster.readDevice,hstage]
    exact allFit_nil

theorem Cluster.Sound.task (h : n.Sound tr) {i : Nat} {task : Task} (htask : n.tasks[i]? = some task) :
    Cluster.Sound tr { n with tasks := n.tasks.eraseIdx i } ∧
      task.work.Sound { n with tasks := n.tasks.eraseIdx i } tr := by
  have herase : Leads tr n tr { n with tasks := n.tasks.eraseIdx i } :=
    leads_tasks (fun t ht => .inl (List.mem_of_mem_eraseIdx ht))
  exact ⟨h.leads herase,
    (h.tasks task (List.mem_of_getElem? htask)).extends herase.extends_ rfl herase.trace⟩

/-- A step sends what fits, or it is a segment that carries a request, or the removal of a
device socket. -/
theorem Cluster.Sound.step_allFit (h : n.Sound tr) (c : Config) (o : Outcome) (input : ClusterInput) :
    n.AllFit (tr ++ (n.step c o input).2) (n.step c o input).2 ∨
    (∃ i task, input = .proceed i ∧ n.tasks[i]? = some task ∧ task.work.carries = true) ∨
    (∃ k s, input = .advance k ∧ n.sockets[k]? = some s ∧ s.stage = .cleared) := by
  have hmore : ∀ {out : List ClusterEvent}, n.AllFit tr out → n.AllFit (tr ++ out) out :=
    fun hout => hout.mono rfl rfl rfl (fun _ he => List.mem_append_left _ he)
  cases input with
  | advance k =>
    cases hget : n.sockets[k]? with
    | none =>
      left
      simp only [Cluster.step,hget]
      exact allFit_nil
    | some s =>
      by_cases hs : s.stage = .cleared
      · exact .inr (.inr ⟨k,s,rfl,hget,hs⟩)
      · left
        simp only [Cluster.step,hget]
        split
        · exact allFit_nil
        · exact hmore (allFit_advance c o k hs)
  | proceed i =>
    cases htask : n.tasks[i]? with
    | none =>
      left
      simp only [Cluster.step,htask]
      exact allFit_nil
    | some task =>
      by_cases hcarries : task.work.carries = true
      · exact .inr (.inl ⟨i,task,rfl,htask,hcarries⟩)
      · left
        simp only [Cluster.step,htask]
        obtain ⟨hsound,hwork⟩ := h.task htask
        exact hmore ((hsound.allFit_perform c o hwork (Bool.eq_false_iff.mpr hcarries)).mono rfl rfl rfl
          (fun _ he => he))
  | connectBrowser relay account =>
    left
    simp only [Cluster.step]
    split_ifs
    · exact allFit_nil
    · exact allFit_send (by simp [Entitled])
  | browserFrame b message =>
    left
    simp only [Cluster.step]
    split
    · exact allFit_nil
    · split_ifs
      · exact allFit_nil
      · intro e he
        rcases List.mem_cons.mp he with rfl | hread
        · trivial
        · exact allFit_readBrowser o (by simp) e hread
  | deviceFrame k message =>
    left
    simp only [Cluster.step]
    split
    · exact allFit_nil
    · split_ifs
      · exact allFit_nil
      · exact hmore (allFit_readDevice c o k _ message)
  | deliver i =>
    left
    simp only [Cluster.step]
    cases hmessage : n.messages[i]? with
    | none => exact allFit_nil
    | some m =>
      dsimp only
      split_ifs
      · exact allFit_nil
      · have herase : Leads tr n tr { n with messages := n.messages.eraseIdx i } :=
          leads_messages (fun t ht => .inl (List.mem_of_mem_eraseIdx ht))
        have henvelope := (h.messages m (List.mem_of_getElem? hmessage)).extends herase.extends_
          herase.trace
        exact hmore (((h.leads herase).allFit_handleRedisMessage o m.relay henvelope).mono rfl rfl rfl
          (fun _ he => he))
  | closeDevice k =>
    left
    simp only [Cluster.step]
    split
    · exact allFit_nil
    · split_ifs <;> exact allFit_nil
  | connectDevice relay token =>
    left
    simp only [Cluster.step]
    split_ifs <;> exact allFit_nil
  | fire entry =>
    left
    simp only [Cluster.step]
    split_ifs <;> exact allFit_nil
  | enroll account requested random secret =>
    left
    simp only [Cluster.step]
    split <;> exact allFit_nil
  | pair relay deviceId account =>
    left
    simp only [Cluster.step]
    split <;> exact allFit_nil
  | revoke account deviceId =>
    left
    simp only [Cluster.step]
    split <;> exact allFit_nil
  | retain sessionId eventSeq =>
    left
    simp only [Cluster.step]
    split <;> exact allFit_nil
  | _ => exact .inl allFit_nil

/-! Answers and requests. -/

theorem Cluster.mem_answer {o : Outcome} {entry : Nat} {frame : Accepted → BrowserFrame} {e : ClusterEvent}
    (h : e ∈ n.answer o entry frame) : ∃ a, n.accepted[entry]? = some a ∧
      e = .toBrowser a.browser (frame a) (some entry) := by
  unfold answer at h
  cases ha : n.accepted[entry]? with
  | none =>
    rw [ha] at h
    cases h
  | some a =>
    rw [ha] at h
    unfold sendBrowser at h
    dsimp only at h
    split_ifs at h
    · cases h
    · exact ⟨a,rfl,List.mem_singleton.mp h⟩

theorem Cluster.mem_hand {o : Outcome} {k entry : Nat} {e : ClusterEvent} (h : e ∈ n.hand o k entry) :
    ∃ s a, k ∉ o.blocked ∧ n.sockets[k]? = some s ∧ n.accepted[entry]? = some a ∧
      e = .handed s.relay k s.deviceId s.ownerUser entry a.user a.request := by
  unfold hand at h
  split at h
  · rename_i s a hs ha
    split_ifs at h with hblocked
    · cases h
    · exact ⟨s,a,hblocked,hs,ha,List.mem_singleton.mp h⟩
  · cases h

theorem Cluster.mem_removeSocket {o : Outcome} {k : Nat} {s : Socket} {e : ClusterEvent}
    (h : e ∈ (n.removeSocket o k s).2) : ∃ entry, e ∈ n.answerError o entry .deviceDisconnected := by
  unfold removeSocket at h
  dsimp only at h
  split_ifs at h
  · obtain ⟨entry,-,he⟩ := List.mem_flatMap.mp h
    exact ⟨entry,he⟩
  · cases h

theorem Cluster.Sound.isolates_error (h : n.Sound tr) {o : Outcome} {entry : Nat} {error : ProxyError} :
    n.Isolates tr (n.answerError o entry error) := by
  intro b frame entry' hmem
  obtain ⟨a,ha,heq⟩ := mem_answer hmem
  cases heq
  exact ⟨a.request,(h.accepted a (List.mem_of_getElem? ha)).sent,rfl⟩

theorem Cluster.isolates_hand {o : Outcome} {k entry : Nat} : n.Isolates tr (n.hand o k entry) := by
  intro b frame entry' hmem
  obtain ⟨s,a,-,-,-,heq⟩ := mem_hand hmem
  cases heq

theorem Cluster.Sound.isolates_perform (h : n.Sound tr) (c : Config) (o : Outcome) {work : Work}
    (hw : work.Sound n tr) (hcarries : work.carries = true) : n.Isolates tr (n.perform c o work).2.1 := by
  cases work with
  | forwarding entry device =>
    cases device with
    | some k => exact isolates_hand
    | none => cases hcarries
  | handing relay k entry => exact isolates_hand
  | offline entry => exact h.isolates_error
  | timedOut entry => exact h.isolates_error
  | responding entry requestId body =>
    obtain ⟨a,ha,hid,k,hsent⟩ := hw
    intro b frame entry' hmem
    obtain ⟨a',ha',heq⟩ := mem_answer hmem
    have hsame : some a = some a' := ha.symm.trans ha'
    cases hsame
    cases heq
    exact ⟨a.request,k,(h.accepted a (List.mem_of_getElem? ha)).sent,hid,hsent⟩
  | _ => cases hcarries

theorem Cluster.Isolates.mono {out : List ClusterEvent} (h : n.Isolates tr out)
    (hbrowsers : n'.browsers = n.browsers) (hrecords : n'.records = n.records)
    (hsessions : n'.sessions = n.sessions) (htr : tr ⊆ tr') : n'.Isolates tr' out :=
  fun b frame entry hmem => (h b frame entry hmem).mono hbrowsers hrecords hsessions htr

theorem Cluster.Sound.isolates_step (h : n.Sound tr) (c : Config) (o : Outcome) (input : ClusterInput) :
    n.Isolates (tr ++ (n.step c o input).2) (n.step c o input).2 := by
  have hmore : ∀ {out : List ClusterEvent}, n.Isolates tr out → n.Isolates (tr ++ out) out :=
    fun hout => hout.mono rfl rfl rfl (fun _ he => List.mem_append_left _ he)
  rcases h.step_allFit c o input with hfits | ⟨i,task,rfl,htask,hcarries⟩ | ⟨k,s,rfl,hget,hcleared⟩
  · exact fun b frame entry hmem => (hfits _ hmem).1
  · obtain ⟨hsound,hwork⟩ := h.task htask
    simp only [Cluster.step,htask]
    exact hmore ((hsound.isolates_perform c o hwork hcarries).mono rfl rfl rfl (fun _ he => he))
  · simp only [Cluster.step,hget]
    split
    · intro b frame entry hmem
      cases hmem
    · refine hmore ?_
      intro b frame entry hmem
      simp only [Cluster.advance,hcleared] at hmem
      obtain ⟨e,he⟩ := mem_removeSocket hmem
      exact h.isolates_error b frame entry he

end Frames

/-- In every state that a run reaches, every step sends to a browser only what it may be
sent. -/
theorem cluster_isolates (c : Config) {tr : List ClusterEvent} {n : Cluster}
    (hrun : (cluster c).Run (cluster c).free tr n) (input : ClusterInput × Outcome) :
    n.Isolates (tr ++ ((cluster c).step n input).2) ((cluster c).step n input).2 :=
  (cluster_sound c hrun).isolates_step c input.2 input.1

namespace Sample

/-- Two instances with a stored device of `amy`. -/
def stored : Cluster where
  relays := 2
  records := Relay.Sample.enrolled.records

/-- The handshake of a socket with the device's own secret. -/
def shakeHands (k : Nat) : List ClusterInput :=
  .deviceFrame k (.deviceHello { deviceId := Relay.Sample.device, deviceToken := Relay.Sample.secret } []) ::
    List.replicate 6 (.advance k)

/-- A browser at one instance subscribes, and the device at the other sends an event. -/
def subscribed : List ClusterInput :=
  [.connectBrowser 1 Relay.Sample.amyAccount,
    .browserFrame 0 (.subscribe Relay.Sample.device false),.proceed 0,.connectDevice 0 "p1".toList] ++
    shakeHands 0 ++
    [.deviceFrame 0 (.gatewayEvent { body := "hi".toList }),.proceed 0,.proceed 0,.proceed 0]

def run (n : Cluster) (inputs : List ClusterInput) : List ClusterEvent × Cluster :=
  (cluster Relay.Sample.config).exec [] n (inputs.map (·,{}))

end Sample

/-- The event arrives at the other instance. -/
theorem subscribed_isolates :
    let reached := Sample.run Sample.stored Sample.subscribed
    let out := ((cluster Relay.Sample.config).step reached.2 (.deliver 1,{})).2
    out = [.toBrowser 0 (.live Relay.Sample.device { body := "hi".toList } none) none] ∧
      reached.2.Isolates (reached.1 ++ out) out := by
  refine ⟨by decide,?_⟩
  refine cluster_isolates Relay.Sample.config ?_ (.deliver 1,{})
  exact Machine.Run.exec _ (.start ⟨rfl,rfl,rfl,rfl,rfl,rfl,rfl⟩) (Machine.allowed_free _ _ _ _)

end CodeHarbor.Network
