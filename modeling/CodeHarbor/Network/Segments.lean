import CodeHarbor.Lib.Queues
import CodeHarbor.Network.Isolation
set_option autoImplicit false

namespace CodeHarbor.Network
open Lib Lib.Go Lib.Base64 Relay

/-- The accepted request that a goroutine is busy with. -/
def Work.entry : Work → Option Nat
  | .forwarding entry _ => some entry
  | .withdrawing entry => some entry
  | .offline entry => some entry
  | .timing entry => some entry
  | .timedOut entry => some entry
  | .responding entry _ _ => some entry
  | .checking _ _ entry => some entry
  | .handing _ _ entry => some entry
  | _ => none

/-- The instance that a copy of a request is under way to, and the request. -/
def Message.copy (m : Message) : Option (Nat × Nat) :=
  match m.envelope with
  | .proxyRequest entry => some (m.relay,entry)
  | _ => none

def Cluster.copies (n : Cluster) : List (Nat × Nat) := n.messages.filterMap Message.copy

/-- Nothing happens to the accepted requests. -/
structure Cluster.Aside (n n' : Cluster) : Prop where
  tasks : ∃ more, n'.tasks = n.tasks ++ more ∧ ∀ task ∈ more, task.work.entry = none
  accepted : n'.accepted = n.accepted
  pending : n'.pending = n.pending
  copies : n'.copies = n.copies

section Aside

variable {n n' n'' : Cluster}

theorem Cluster.aside_of_eq (tasks : n'.tasks = n.tasks) (accepted : n'.accepted = n.accepted)
    (pending : n'.pending = n.pending) (messages : n'.messages = n.messages) : n.Aside n' where
  tasks := ⟨[],by simp [tasks],fun _ hmem => nomatch hmem⟩
  accepted := accepted
  pending := pending
  copies := by rw [copies,messages,copies]

theorem Cluster.Aside.refl (n : Cluster) : n.Aside n := aside_of_eq rfl rfl rfl rfl

theorem Cluster.Aside.trans (h : n.Aside n') (h' : n'.Aside n'') : n.Aside n'' where
  tasks := by
    obtain ⟨more,hmore,hnone⟩ := h.tasks
    obtain ⟨more',hmore',hnone'⟩ := h'.tasks
    refine ⟨more ++ more',by rw [hmore',hmore,List.append_assoc],?_⟩
    intro task hmem
    rcases List.mem_append.mp hmem with hold | hnew
    · exact hnone task hold
    · exact hnone' task hnew
  accepted := h'.accepted.trans h.accepted
  pending := h'.pending.trans h.pending
  copies := h'.copies.trans h.copies

theorem Cluster.aside_spawn (party : Party) {work : Option Work} (h : ∀ w, work = some w → w.entry = none) :
    n.Aside (n.spawn party work) where
  tasks := by
    refine ⟨work.toList.map (⟨party,·⟩),rfl,?_⟩
    intro task hmem
    obtain ⟨w,hw,rfl⟩ := List.mem_map.mp hmem
    exact h w (Option.mem_toList.mp hw)
  accepted := rfl
  pending := rfl
  copies := rfl

theorem Cluster.aside_publish {envelope : Envelope} (h : ∀ entry, envelope ≠ .proxyRequest entry) :
    n.Aside (n.publish envelope) where
  tasks := ⟨[],by simp [publish],fun _ hmem => nomatch hmem⟩
  accepted := rfl
  pending := rfl
  copies := by
    have hnone : ((List.range n.relays).map (Message.mk · envelope)).filterMap Message.copy = [] := by
      rw [List.filterMap_eq_nil_iff]
      intro m hmem
      obtain ⟨r,-,rfl⟩ := List.mem_map.mp hmem
      cases envelope with
      | proxyRequest entry => exact absurd rfl (h entry)
      | _ => rfl
    rw [copies,publish,List.filterMap_append,hnone,List.append_nil,copies]

theorem Cluster.aside_ite {p : Prop} [Decidable p] {n₁ n₂ : Cluster} (h₁ : n.Aside n₁) (h₂ : n.Aside n₂) :
    n.Aside (if p then n₁ else n₂) := by
  split
  · exact h₁
  · exact h₂

/-! Segments of the store, the leases and the sockets. -/

theorem Cluster.aside_modifySocket (k : Nat) (f : Socket → Socket) : n.Aside (n.modifySocket k f) :=
  aside_of_eq rfl rfl rfl rfl

theorem Cluster.Aside.setStage (h : n.Aside n') (k : Nat) (stage : SocketStage) :
    n.Aside (n'.setStage k stage) := h.trans (aside_modifySocket k _)

theorem Cluster.aside_presence {presence : OrdMap Text (Text × Time)}
    (h : n' = { n with presence := presence }) : n.Aside n' := by
  subst h
  exact aside_of_eq rfl rfl rfl rfl

theorem Cluster.aside_acquireDeviceLease (s : Socket) (o : Outcome) :
    n.Aside (n.acquireDeviceLease s o).2 := by
  obtain ⟨presence,h⟩ := acquireDeviceLease_eq (n := n) s o
  exact aside_presence h

theorem Cluster.aside_clearDevicePresence (s : Socket) (o : Outcome) :
    n.Aside (n.clearDevicePresence s o) := by
  obtain ⟨presence,h⟩ := clearDevicePresence_eq (n := n) s o
  exact aside_presence h

theorem Cluster.aside_markDevicePresence (c : Config) (s : Socket) (o : Outcome) :
    n.Aside (n.markDevicePresence c s o).2 := by
  obtain ⟨presence,h⟩ := markDevicePresence_eq (n := n) c s o
  exact aside_presence h

theorem Cluster.aside_bindLease (o : Outcome) (s : Socket) (oldOwner ownerUser : Text) :
    n.Aside (n.bindLease o s oldOwner ownerUser).2 := by
  obtain ⟨presence,h⟩ := bindLease_eq (n := n) o s oldOwner ownerUser
  exact aside_presence h

theorem Cluster.appendOwnedEvent_eq {sessionId ownerUser : Text} {event : Payload} {seq : Nat}
    (h : n.appendOwnedEvent sessionId ownerUser event = some (seq,n')) :
    ∃ sessions, n' = { n with sessions := sessions } := by
  unfold appendOwnedEvent at h
  dsimp only at h
  rw [Option.ite_none_left_eq_some] at h
  obtain ⟨-,h⟩ := h
  cases h
  exact ⟨_,rfl⟩

theorem Cluster.syncSessions_eq (n : Cluster) (ownerUser deviceId : Text) (sessions : List (Text × Bool)) :
    ∃ stored, n.syncSessions ownerUser deviceId sessions = { n with sessions := stored } := by
  unfold syncSessions
  split
  · exact ⟨_,rfl⟩
  · induction sessions generalizing n with
    | nil => exact ⟨_,rfl⟩
    | cons session rest ih =>
      obtain ⟨first,hfirst⟩ : ∃ stored, n.syncSession ownerUser deviceId session =
          { n with sessions := stored } := by
        unfold syncSession
        dsimp only
        split <;> exact ⟨_,rfl⟩
      obtain ⟨stored,hstored⟩ := ih (n.syncSession ownerUser deviceId session)
      refine ⟨stored,?_⟩
      rw [List.foldl_cons,hstored,hfirst]

/-! Segments of goroutines. -/

/-- The segment leaves the requests alone, and so will the next one. -/
def Effect.Aside (n : Cluster) (e : Effect) : Prop :=
  n.Aside e.1 ∧ ∀ w, e.2.2 = some w → w.entry = none

theorem Effect.aside_done {out : List ClusterEvent} (h : n.Aside n') : Effect.Aside n (n',out,none) :=
  ⟨h,fun _ hw => nomatch hw⟩

theorem Effect.aside_go {out : List ClusterEvent} {work : Work} (h : n.Aside n')
    (hwork : work.entry = none) : Effect.Aside n (n',out,some work) := by
  refine ⟨h,?_⟩
  intro w hw
  cases hw
  exact hwork

theorem Effect.Aside.by {e : Effect} (h : e.Aside n) (party : Party) : n.Aside (e.by party).1 :=
  h.1.trans (Cluster.aside_spawn party h.2)

theorem Cluster.resume_eq (n : Cluster) (o : Outcome) (b : Nat) (r : Resume) :
    ∃ out next, n.resume o b r = (n,out,next) ∧ ∀ w, next = some w → w.entry = none := by
  have hdone : ∀ out : List ClusterEvent, ∃ out' next, ((n,out,none) : Effect) = (n,out',next) ∧
      ∀ w : Work, next = some w → w.entry = none :=
    fun out => ⟨out,none,rfl,fun w hw => nomatch hw⟩
  have hgo : ∀ (out : List ClusterEvent) (r : Resume), ∃ out' next,
      ((n,out,some (.resuming b r)) : Effect) = (n,out',next) ∧ ∀ w : Work, next = some w → w.entry = none := by
    intro out r
    refine ⟨out,_,rfl,?_⟩
    intro w hw
    cases hw
    rfl
  unfold Cluster.resume
  cases n.browsers[b]? with
  | none => exact hdone _
  | some browser =>
    dsimp only
    cases r.stage with
    | next =>
      dsimp only
      cases r.cursors with
      | nil => exact hdone _
      | cons entry rest =>
        obtain ⟨sessionId,raw⟩ := entry
        dsimp only
        split_ifs
        · exact hgo _ _
        · exact hgo _ _
        · cases raw <;> exact hgo _ _
    | bounds sessionId cursor =>
      dsimp only
      split <;> exact hgo _ _
    | list sessionId batch =>
      dsimp only
      split
      · exact hgo _ _
      · split_ifs <;> exact hgo _ _
    | send sessionId batch events hasMore =>
      cases events with
      | nil =>
        dsimp only
        split <;> exact hgo _ _
      | cons event rest =>
        dsimp only
        split <;> exact hgo _ _

theorem announced_entry {announce : Bool} {deviceId ownerUser : Text} {w : Work}
    (h : announced announce deviceId ownerUser = some w) : w.entry = none := by
  unfold announced at h
  split_ifs at h
  cases h
  rfl

/-- Segments that leave the accepted requests alone. -/
def Work.quiet : Work → Bool
  | .accepting _ _ => false
  | .handling _ (.proxyResponse _ _) => false
  | work => work.entry = none

theorem Cluster.handle_aside (o : Outcome) (k : Nat) {message : GatewayMessage}
    (hquiet : (Work.handling k message).quiet = true) : Effect.Aside n (n.handle o k message) := by
  unfold handle
  cases hs : n.sockets[k]? with
  | none => exact Effect.aside_done (.refl n)
  | some s =>
    cases message with
    | ping => exact Effect.aside_done (.refl n)
    | deviceHello hello secret => exact Effect.aside_done ((Aside.refl n).setStage k _)
    | sessionSync sessions =>
      obtain ⟨stored,hstored⟩ := n.syncSessions_eq s.ownerUser s.deviceId sessions
      dsimp only
      rw [hstored]
      exact Effect.aside_done (aside_ite (aside_of_eq rfl rfl rfl rfl) (.refl n))
    | gatewayEvent payload =>
      dsimp only
      cases payload.sessionId with
      | none => exact Effect.aside_go (.refl n) rfl
      | some sessionId =>
        dsimp only
        cases happend : n.appendOwnedEvent sessionId s.ownerUser payload with
        | none => exact Effect.aside_done (.refl n)
        | some appended =>
          obtain ⟨seq,stored⟩ := appended
          obtain ⟨sessions,rfl⟩ := appendOwnedEvent_eq happend
          have hstored : n.Aside (if o.done = true then { n with sessions := sessions } else n) :=
            aside_ite (aside_of_eq rfl rfl rfl rfl) (.refl n)
          dsimp only
          split
          · exact Effect.aside_go hstored rfl
          · exact Effect.aside_done hstored
    | proxyResponse requestId body => cases hquiet
    | unknown => exact Effect.aside_done (.refl n)

theorem Cluster.perform_aside (c : Config) (o : Outcome) {work : Work} (hquiet : work.quiet = true) :
    Effect.Aside n (n.perform c o work) := by
  cases work with
  | subscribing b deviceId replace => exact Effect.aside_done (aside_of_eq rfl rfl rfl rfl)
  | resuming b resume =>
    obtain ⟨out,next,heq,hnext⟩ := n.resume_eq o b resume
    simp only [Cluster.perform,heq]
    exact ⟨.refl n,hnext⟩
  | handling k message => exact handle_aside o k hquiet
  | publishing k payload eventSeq =>
    simp only [Cluster.perform]
    split
    · exact Effect.aside_done (.refl n)
    · exact Effect.aside_go (.refl n) rfl
  | emitting relay deviceId ownerUser payload eventSeq =>
    have hsent : n.Aside (if (n.redis && o.done) = true then
        n.publish (.gatewayEvent deviceId ownerUser payload eventSeq) else n) :=
      aside_ite (aside_publish (by simp)) (.refl n)
    simp only [Cluster.perform]
    split
    · exact Effect.aside_done hsent
    · exact Effect.aside_done hsent
  | relaying k requestId body =>
    simp only [Cluster.perform]
    split
    · exact Effect.aside_done (.refl n)
    · exact Effect.aside_done (aside_ite (aside_publish (by simp)) (.refl n))
  | dropping relay deviceId k =>
    exact Effect.aside_done (aside_ite (aside_of_eq rfl rfl rfl rfl) (.refl n))
  | binding relay deviceId ownerUser announce =>
    simp only [Cluster.perform]
    split
    · exact ⟨.refl n,fun _ hw => announced_entry hw⟩
    · exact Effect.aside_go (.refl n) rfl
  | comparing k deviceId ownerUser announce =>
    simp only [Cluster.perform]
    split
    · exact ⟨.refl n,fun _ hw => announced_entry hw⟩
    · split
      · exact ⟨.refl n,fun _ hw => announced_entry hw⟩
      · split
        · exact Effect.aside_go (.refl n) rfl
        · exact Effect.aside_go (.refl n) rfl
  | leasing k oldOwner deviceId ownerUser announce =>
    simp only [Cluster.perform]
    split
    · exact ⟨.refl n,fun _ hw => announced_entry hw⟩
    · refine ⟨aside_bindLease o _ oldOwner ownerUser,?_⟩
      intro w hw
      dsimp only at hw
      split at hw
      · cases hw
        rfl
      · exact announced_entry hw
  | writing k deviceId ownerUser announce =>
    exact ⟨aside_modifySocket k _,fun _ hw => announced_entry hw⟩
  | announcing deviceId ownerUser =>
    exact Effect.aside_done (aside_ite (aside_publish (by simp)) (.refl n))
  | revoking deviceId ownerUser shared =>
    simp only [Cluster.perform]
    split
    · exact Effect.aside_done (.refl n)
    · split
      · exact Effect.aside_done (aside_ite (aside_publish (by simp)) (.refl n))
      · refine ⟨aside_ite (aside_of_eq rfl rfl rfl rfl) (.refl n),?_⟩
        intro w hw
        dsimp only at hw
        split at hw
        · cases hw
          rfl
        · cases hw
  | _ => cases hquiet

/-- A request is refused, or enters `r.pending` and goes on. -/
theorem Cluster.accept_cases (o : Outcome) (b : Nat) (request : ProxyRequest) :
    Effect.Aside n (n.accept o b request) ∨
    ∃ (a : Accepted) (devices : OrdMap (Nat × Text) Nat) (device : Option Nat),
      n.accept o b request = ({ n with
        devices := devices
        accepted := n.accepted ++ [a]
        pending := n.pending.set a.key n.accepted.length },[],some (.forwarding n.accepted.length device)) := by
  unfold Cluster.accept
  cases n.browsers[b]? with
  | none => exact .inl (Effect.aside_done (.refl n))
  | some browser =>
    dsimp only
    split
    · exact .inl (Effect.aside_done (.refl n))
    · split
      · exact .inl (Effect.aside_done (aside_of_eq rfl rfl rfl rfl))
      · exact .inr ⟨⟨browser.relay,b,browser.user,request⟩,_,_,rfl⟩

theorem Cluster.handleRedisMessage_aside (o : Outcome) (relay : Nat) {envelope : Envelope}
    (hrequest : ∀ entry, envelope ≠ .proxyRequest entry)
    (hresponse : ∀ d w r b, envelope ≠ .proxyResponse d w r b) :
    Effect.Aside n (n.handleRedisMessage o relay envelope) := by
  cases envelope with
  | gatewayEvent deviceId ownerUser payload eventSeq => exact Effect.aside_done (.refl n)
  | proxyRequest entry => exact absurd rfl (hrequest entry)
  | proxyResponse deviceId ownerUser requestId body => exact absurd rfl (hresponse _ _ _ _)
  | deviceOwnership deviceId ownerUser =>
    simp only [Cluster.handleRedisMessage]
    split
    · exact Effect.aside_done (.refl n)
    · exact Effect.aside_go (.refl n) rfl
  | deviceRevocation deviceId ownerUser => exact Effect.aside_done (.refl n)

/-! Steps. -/

theorem Cluster.readBrowser_entry (o : Outcome) {b : Nat} {browser : Browser} {message : BrowserMessage}
    {w : Work} (h : (n.readBrowser o b browser message).2 = some w) : w.entry = none := by
  cases message with
  | resume cursors =>
    cases cursors with
    | none => cases h
    | some cursors =>
      cases h
      rfl
  | subscribe deviceId replace =>
    simp only [readBrowser] at h
    split at h
    · cases h
      rfl
    · cases h
  | gatewayProxy request =>
    simp only [readBrowser] at h
    split at h
    · split at h
      · cases h
      · cases h
        rfl
    · cases h
  | _ => cases h

theorem Cluster.hello_aside (c : Config) (o : Outcome) (k : Nat) (hello : Hello) (secret : Text) :
    n.Aside (n.hello c o k hello secret) := by
  unfold Cluster.hello
  dsimp only
  split
  · exact aside_modifySocket k _
  · have hstored : ∀ records, n.Aside (if o.done = true then { n with records := records } else n) :=
      fun records => aside_ite (aside_of_eq rfl rfl rfl rfl) (.refl n)
    split
    · exact (hstored _).trans (aside_modifySocket k _)
    · exact (hstored _).setStage k _

theorem Cluster.readDevice_aside (c : Config) (o : Outcome) (k : Nat) (s : Socket)
    (message : GatewayMessage) : n.Aside (n.readDevice c o k s message).1 := by
  unfold readDevice
  split
  · exact .refl n
  · exact hello_aside c o k _ _
  · exact aside_modifySocket k _
  · dsimp only
    split
    · refine (aside_markDevicePresence c s o).trans (aside_spawn _ ?_)
      intro w hw
      cases hw
      rfl
    · exact (aside_markDevicePresence c s o).setStage k _
  · exact .refl n

theorem Cluster.advance_aside (c : Config) (o : Outcome) (k : Nat) {s : Socket} (hs : s.stage ≠ .cleared) :
    n.Aside (n.advance c o k s).1 := by
  unfold Cluster.advance
  cases hstage : s.stage with
  | authenticated => exact aside_modifySocket k _
  | replacing previous =>
    dsimp only
    split
    · exact aside_modifySocket k _
    · exact (aside_clearDevicePresence _ o).setStage k _
  | replaced => exact (aside_acquireDeviceLease s o).setStage k _
  | leased => exact aside_of_eq rfl rfl rfl rfl
  | registered => exact aside_modifySocket k _
  | announced => exact (aside_markDevicePresence c s o).setStage k _
  | ended => exact (aside_clearDevicePresence s o).setStage k _
  | cleared => exact absurd hstage hs
  | _ => exact .refl n

def Cluster.quiet (n : Cluster) : ClusterInput → Bool
  | .proceed _ => false
  | .deliver _ => false
  | .lose _ => false
  | .fire _ => false
  | .closeBrowser _ => false
  | .advance k => (n.sockets[k]?).all (·.stage ≠ .cleared)
  | _ => true

theorem Cluster.step_aside (c : Config) (o : Outcome) {input : ClusterInput} (hquiet : n.quiet input = true) :
    n.Aside (n.step c o input).1 := by
  cases input with
  | tick elapsed => exact aside_of_eq rfl rfl rfl rfl
  | connectBrowser relay account =>
    simp only [Cluster.step]
    split
    · exact .refl n
    · exact aside_of_eq rfl rfl rfl rfl
  | browserFrame b message =>
    simp only [Cluster.step]
    split
    · exact .refl n
    · split
      · exact .refl n
      · exact aside_spawn _ (fun w hw => readBrowser_entry o hw)
  | connectDevice relay token =>
    simp only [Cluster.step]
    split
    · exact .refl n
    · exact aside_of_eq rfl rfl rfl rfl
  | deviceFrame k message =>
    simp only [Cluster.step]
    split
    · exact .refl n
    · split
      · exact .refl n
      · exact readDevice_aside c o k _ message
  | advance k =>
    cases hget : n.sockets[k]? with
    | none =>
      simp only [Cluster.step,hget]
      exact .refl n
    | some s =>
      simp only [Cluster.step,hget]
      split
      · exact .refl n
      · refine advance_aside c o k ?_
        simpa [quiet,hget] using hquiet
  | closeDevice k =>
    simp only [Cluster.step]
    split
    · exact .refl n
    · split
      · exact .refl n
      · exact aside_modifySocket k _
  | enroll account requested random secret =>
    simp only [Cluster.step]
    split
    · exact .refl n
    · exact aside_ite (aside_of_eq rfl rfl rfl rfl) (.refl n)
  | pair relay deviceId account =>
    simp only [Cluster.step]
    split
    · exact .refl n
    · rename_i records _
      have hstored : n.Aside (if o.done = true then { n with records := records } else n) :=
        aside_ite (aside_of_eq rfl rfl rfl rfl) (.refl n)
      refine hstored.trans (aside_spawn _ ?_)
      intro w hw
      split at hw
      · cases hw
        rfl
      · cases hw
  | revoke account deviceId =>
    simp only [Cluster.step]
    split
    · exact .refl n
    · rename_i records _
      have hstored : n.Aside (if o.done = true then { n with records := records } else n) :=
        aside_ite (aside_of_eq rfl rfl rfl rfl) (.refl n)
      refine hstored.trans (aside_spawn _ ?_)
      intro w hw
      split at hw
      · cases hw
        rfl
      · cases hw
  | retain sessionId eventSeq =>
    simp only [Cluster.step]
    split
    · exact .refl n
    · exact aside_of_eq rfl rfl rfl rfl
  | _ => cases hquiet

/-! Counting. -/

/-- How many goroutines are at such a segment. -/
def Cluster.doing (n : Cluster) (p : Work → Bool) : Nat := n.tasks.countP (fun task => p task.work)

theorem Cluster.Aside.doing (h : n.Aside n') {p : Work → Bool} (hp : ∀ w, p w = true → w.entry ≠ none) :
    n'.doing p = n.doing p := by
  obtain ⟨more,hmore,hnone⟩ := h.tasks
  have hzero : more.countP (fun task => p task.work) = 0 := by
    rw [List.countP_eq_zero]
    intro task hmem hpos
    exact hp task.work hpos (hnone task hmem)
  rw [Cluster.doing,hmore,List.countP_append,hzero,Nat.add_zero,Cluster.doing]

theorem Cluster.doing_spawn (party : Party) (work : Option Work) (p : Work → Bool) :
    (n.spawn party work).doing p = n.doing p + (work.any p).toNat := by
  cases work with
  | none => simp [spawn,doing]
  | some w => simp [spawn,doing,List.countP_append,List.countP_cons,Bool.toNat]

theorem Cluster.doing_erase {i : Nat} {task : Task} (htask : n.tasks[i]? = some task) (p : Work → Bool) :
    Cluster.doing { n with tasks := n.tasks.eraseIdx i } p + (p task.work).toNat = n.doing p :=
  countP_eraseIdx (fun task : Task => p task.work) htask

theorem Cluster.doing_eq (h : n'.tasks = n.tasks) (p : Work → Bool) : n'.doing p = n.doing p := by
  rw [doing,h,doing]

theorem Cluster.perform_doing (c : Config) (o : Outcome) (work : Work) {p : Work → Bool}
    (hp : ∀ w, p w = true → w.entry ≠ none) : (n.perform c o work).1.doing p = n.doing p := by
  by_cases hquiet : work.quiet = true
  · exact (perform_aside c o hquiet).1.doing hp
  cases work with
  | accepting b request =>
    rcases accept_cases (n := n) o b request with haside | ⟨a,devices,device,heq⟩
    · exact haside.1.doing hp
    · simp only [Cluster.perform,heq]
      rfl
  | forwarding entry device =>
    cases device with
    | some k => rfl
    | none =>
      simp only [Cluster.perform]
      split
      · dsimp only
        split <;> rfl
      · rfl
  | withdrawing entry =>
    simp only [Cluster.perform,deletePending]
    split <;> rfl
  | timing entry =>
    simp only [Cluster.perform,deletePending]
    split
    · split <;> rfl
    · rfl
  | handling k message =>
    cases message with
    | proxyResponse requestId body =>
      simp only [Cluster.perform,Cluster.handle]
      cases n.sockets[k]? with
      | none => rfl
      | some s =>
        dsimp only
        cases htake : n.takePending s.relay requestId s.deviceId s.ownerUser with
        | none => rfl
        | some taken =>
          obtain ⟨a,-,-,-,-,heq⟩ := takePending_spec htake
          have hsame : taken.2.tasks = n.tasks := by rw [heq]
          exact doing_eq hsame p
    | _ => exact absurd rfl hquiet
  | checking relay k entry =>
    simp only [Cluster.perform]
    split
    · rfl
    · split <;> rfl
  | _ => first | rfl | exact absurd rfl hquiet

theorem Cluster.handleRedisMessage_doing (o : Outcome) (relay : Nat) (envelope : Envelope) (p : Work → Bool) :
    (n.handleRedisMessage o relay envelope).1.doing p = n.doing p := by
  cases envelope with
  | proxyRequest entry =>
    simp only [Cluster.handleRedisMessage]
    split
    · rfl
    · split
      · rfl
      · split <;> rfl
  | proxyResponse deviceId ownerUser requestId body =>
    simp only [Cluster.handleRedisMessage]
    split
    · rfl
    · split
      · rfl
      · rename_i htake
        obtain ⟨a,-,-,-,-,heq⟩ := takePending_spec htake
        exact doing_eq (by rw [heq]) p
  | deviceOwnership deviceId ownerUser =>
    simp only [Cluster.handleRedisMessage]
    split <;> rfl
  | _ => rfl

def Cluster.current (n : Cluster) : ClusterInput → Option Work
  | .proceed i => (n.tasks[i]?).map Task.work
  | _ => none

def Cluster.next (c : Config) (n : Cluster) (o : Outcome) : ClusterInput → Option Work
  | .proceed i =>
    (n.tasks[i]?).bind (fun task => (Cluster.perform c { n with tasks := n.tasks.eraseIdx i } o task.work).2.2)
  | .fire entry =>
    if entry < n.accepted.length ∧ entry ∉ n.fired ∧ entry ∉ n.stopped then some (.timing entry) else none
  | .deliver i =>
    (n.messages[i]?).bind (fun m =>
      if n.busy (.consumer m.relay) then none
      else (Cluster.handleRedisMessage { n with messages := n.messages.eraseIdx i } o m.relay m.envelope).2.2)
  | _ => none

theorem Cluster.step_doing (c : Config) (o : Outcome) (input : ClusterInput) {p : Work → Bool}
    (hp : ∀ w, p w = true → w.entry ≠ none) :
    (n.step c o input).1.doing p + ((n.current input).any p).toNat =
      n.doing p + ((n.next c o input).any p).toNat := by
  by_cases hquiet : n.quiet input = true
  · have hcurrent : n.current input = none := by cases input <;> first | rfl | cases hquiet
    have hnext : n.next c o input = none := by cases input <;> first | rfl | cases hquiet
    rw [(step_aside c o hquiet).doing hp,hcurrent,hnext]
  cases input with
  | closeBrowser b =>
    simp only [Cluster.step]
    split <;> rfl
  | advance k =>
    have hsame : (n.step c o (.advance k)).1.tasks = n.tasks := by
      cases hget : n.sockets[k]? with
      | none => simp [quiet,hget] at hquiet
      | some s =>
        have hcleared : s.stage = .cleared := by simpa [quiet,hget] using hquiet
        simp only [Cluster.step,hget]
        split
        · rfl
        · simp only [Cluster.advance,hcleared,removeSocket]
          split <;> rfl
    rw [doing_eq hsame p]
    rfl
  | proceed i =>
    cases htask : n.tasks[i]? with
    | none => simp [Cluster.step,current,next,htask]
    | some task =>
      have herase := doing_erase htask p
      have hsame := perform_doing (n := { n with tasks := n.tasks.eraseIdx i }) c o task.work hp
      simp only [Cluster.step,current,next,htask,Option.map_some,Option.any_some,Option.bind_some,Effect.by]
      rw [doing_spawn,hsame]
      omega
  | fire entry =>
    simp only [Cluster.step,current,next,Option.any_none,Bool.toNat_false,Nat.add_zero]
    split
    · rw [doing_spawn]
      rfl
    · rfl
  | deliver i =>
    simp only [Cluster.step,current,next,Option.any_none,Bool.toNat_false,Nat.add_zero]
    cases n.messages[i]? with
    | none => rfl
    | some m =>
      simp only [Option.bind_some]
      split
      · rfl
      · rw [Effect.by,doing_spawn,handleRedisMessage_doing]
        rfl
  | lose i => rfl
  | _ => exact absurd rfl hquiet

/-- How the work on a request goes on. -/
inductive Work.Next (n : Cluster) (o : Outcome) : Work → Work → Prop where
  | accept {b : Nat} {request : ProxyRequest} {device : Option Nat} :
      Next n o (.accepting b request) (.forwarding n.accepted.length device)
  | withdraw {entry : Nat} : Next n o (.forwarding entry none) (.withdrawing entry)
  | offline {entry : Nat} : Next n o (.withdrawing entry) (.offline entry)
  | timeOut {entry : Nat} : Next n o (.timing entry) (.timedOut entry)
  | respond {k entry : Nat} {requestId body : Text} :
      Next n o (.handling k (.proxyResponse requestId body)) (.responding entry requestId body)
  | hand {relay k entry : Nat} :
      n.deviceLeaseOwned k o = true → Next n o (.checking relay k entry) (.handing relay k entry)

theorem Cluster.perform_next (c : Config) (o : Outcome) {work w : Work}
    (hnext : (n.perform c o work).2.2 = some w) (hentry : w.entry ≠ none) : Work.Next n o work w := by
  by_cases hquiet : work.quiet = true
  · exact absurd ((perform_aside c o hquiet).2 w hnext) hentry
  cases work with
  | accepting b request =>
    rcases accept_cases (n := n) o b request with haside | ⟨a,devices,device,heq⟩
    · exact absurd (haside.2 w hnext) hentry
    · simp only [Cluster.perform,heq] at hnext
      cases hnext
      exact .accept
  | forwarding entry device =>
    cases device with
    | some k => cases hnext
    | none =>
      simp only [Cluster.perform] at hnext
      split at hnext
      · dsimp only at hnext
        split at hnext
        · cases hnext
        · cases hnext
          exact .withdraw
      · cases hnext
        exact .withdraw
  | withdrawing entry =>
    cases hnext
    exact .offline
  | timing entry =>
    cases hnext
    exact .timeOut
  | handling k message =>
    cases message with
    | proxyResponse requestId body =>
      simp only [Cluster.perform,Cluster.handle] at hnext
      cases hget : n.sockets[k]? with
      | none =>
        rw [hget] at hnext
        cases hnext
      | some s =>
        rw [hget] at hnext
        dsimp only at hnext
        split at hnext
        · cases hnext
          exact .respond
        · dsimp only at hnext
          split at hnext
          · cases hnext
            exact absurd rfl hentry
          · cases hnext
    | _ => exact absurd rfl hquiet
  | checking relay k entry =>
    simp only [Cluster.perform] at hnext
    split at hnext
    · cases hnext
    · split at hnext
      · rename_i howned
        cases hnext
        exact .hand howned
      · cases hnext
        exact absurd rfl hentry
  | _ => first | cases hnext | exact absurd rfl hquiet

end Aside

end CodeHarbor.Network
