import CodeHarbor.Network.Model
set_option autoImplicit false

namespace CodeHarbor.Network
open Lib Lib.Go Lib.Base64 Relay

/-! What the parties may rely on between two of their segments. -/

def Cluster.IsUser (n : Cluster) (b : Nat) (user : Text) : Prop :=
  ∃ browser, n.browsers[b]? = some browser ∧ browser.user = user

def Cluster.IsDevice (n : Cluster) (k : Nat) (deviceId : Text) : Prop :=
  deviceId ≠ [] ∧ ∃ s, n.sockets[k]? = some s ∧ s.deviceId = deviceId

def Cluster.IsBound (n : Cluster) (k : Nat) (deviceId ownerUser : Text) : Prop :=
  deviceId ≠ [] ∧ ownerUser ≠ [] ∧
    ∃ s, n.sockets[k]? = some s ∧ s.deviceId = deviceId ∧ s.ownerUser = ownerUser

def Cluster.Holds (n : Cluster) (place : Nat × Text) (k : Nat) : Prop :=
  place.2 ≠ [] ∧ ∃ s, n.sockets[k]? = some s ∧ s.relay = place.1 ∧ s.deviceId = place.2

def Cluster.Logged (n : Cluster) (sessionId user : Text) (eventSeq : Nat) (event : Payload) : Prop :=
  ∃ session, n.sessions.get sessionId = some session ∧ session.ownerUser = user ∧
    0 < eventSeq ∧ session.events[eventSeq-1]? = some event

/-- Owners are never taken away, logs only grow, and a peer stays what it has become. -/
structure Cluster.Extends (n n' : Cluster) : Prop where
  records : DeviceRecords.Grows n.records n'.records
  sessions : ∀ id session, n.sessions.get id = some session → ∃ later, n'.sessions.get id = some later ∧
    (session.ownerUser ≠ [] → later.ownerUser = session.ownerUser) ∧ session.events <+: later.events
  browsers : ∀ (b : Nat) (browser : Browser), n.browsers[b]? = some browser →
    ∃ later, n'.browsers[b]? = some later ∧ later.user = browser.user ∧ later.relay = browser.relay
  sockets : ∀ (k : Nat) (s : Socket), n.sockets[k]? = some s → ∃ later, n'.sockets[k]? = some later ∧
    later.relay = s.relay ∧ later.presenceToken = s.presenceToken ∧
    (s.deviceId ≠ [] → later.deviceId = s.deviceId) ∧ (s.ownerUser ≠ [] → later.ownerUser = s.ownerUser)
  accepted : n.accepted <+: n'.accepted

section Extends

variable {n n' n'' : Cluster}

theorem Cluster.Extends.refl (n : Cluster) : n.Extends n where
  records := .refl _
  sessions _ session h := ⟨session,h,fun _ => rfl,List.prefix_refl _⟩
  browsers _ browser h := ⟨browser,h,rfl,rfl⟩
  sockets _ s h := ⟨s,h,rfl,rfl,fun _ => rfl,fun _ => rfl⟩
  accepted := List.prefix_refl _

theorem Cluster.Extends.trans (h : n.Extends n') (h' : n'.Extends n'') : n.Extends n'' where
  records := h.records.trans h'.records
  sessions id session hget := by
    obtain ⟨later,hlater,howner,hevents⟩ := h.sessions id session hget
    obtain ⟨last,hlast,howner',hevents'⟩ := h'.sessions id later hlater
    refine ⟨last,hlast,?_,hevents.trans hevents'⟩
    intro hne
    rw [howner' (by rw [howner hne]; exact hne),howner hne]
  browsers b browser hget := by
    obtain ⟨later,hlater,huser,hrelay⟩ := h.browsers b browser hget
    obtain ⟨last,hlast,huser',hrelay'⟩ := h'.browsers b later hlater
    exact ⟨last,hlast,huser'.trans huser,hrelay'.trans hrelay⟩
  sockets k s hget := by
    obtain ⟨later,hlater,hrelay,htoken,hdevice,howner⟩ := h.sockets k s hget
    obtain ⟨last,hlast,hrelay',htoken',hdevice',howner'⟩ := h'.sockets k later hlater
    refine ⟨last,hlast,hrelay'.trans hrelay,htoken'.trans htoken,?_,?_⟩
    · intro hne
      rw [hdevice' (by rw [hdevice hne]; exact hne),hdevice hne]
    · intro hne
      rw [howner' (by rw [howner hne]; exact hne),howner hne]
  accepted := h.accepted.trans h'.accepted

theorem Cluster.IsUser.extends {b : Nat} {user : Text} (h : n.IsUser b user) (hext : n.Extends n') :
    n'.IsUser b user := by
  obtain ⟨browser,hget,huser⟩ := h
  obtain ⟨later,hlater,huser',-⟩ := hext.browsers b browser hget
  exact ⟨later,hlater,huser'.trans huser⟩

theorem Cluster.IsDevice.extends {k : Nat} {deviceId : Text} (h : n.IsDevice k deviceId)
    (hext : n.Extends n') : n'.IsDevice k deviceId := by
  obtain ⟨hne,s,hget,hdevice⟩ := h
  obtain ⟨later,hlater,-,-,hdevice',-⟩ := hext.sockets k s hget
  exact ⟨hne,later,hlater,by rw [hdevice' (by rw [hdevice]; exact hne),hdevice]⟩

theorem Cluster.IsBound.extends {k : Nat} {deviceId ownerUser : Text}
    (h : n.IsBound k deviceId ownerUser) (hext : n.Extends n') : n'.IsBound k deviceId ownerUser := by
  obtain ⟨hdne,hone,s,hget,hdevice,howner⟩ := h
  obtain ⟨later,hlater,-,-,hdevice',howner'⟩ := hext.sockets k s hget
  refine ⟨hdne,hone,later,hlater,?_,?_⟩
  · rw [hdevice' (by rw [hdevice]; exact hdne),hdevice]
  · rw [howner' (by rw [howner]; exact hone),howner]

theorem Cluster.Holds.extends {place : Nat × Text} {k : Nat} (h : n.Holds place k)
    (hext : n.Extends n') : n'.Holds place k := by
  obtain ⟨hne,s,hget,hrelay,hdevice⟩ := h
  obtain ⟨later,hlater,hrelay',-,hdevice',-⟩ := hext.sockets k s hget
  exact ⟨hne,later,hlater,hrelay'.trans hrelay,by rw [hdevice' (by rw [hdevice]; exact hne),hdevice]⟩

theorem Cluster.Holds.isDevice {place : Nat × Text} {k : Nat} (h : n.Holds place k) :
    n.IsDevice k place.2 := by
  obtain ⟨hne,s,hget,-,hdevice⟩ := h
  exact ⟨hne,s,hget,hdevice⟩

theorem Cluster.Logged.extends {sessionId user : Text} {seq : Nat} {event : Payload}
    (h : n.Logged sessionId user seq event) (huser : user ≠ []) (hext : n.Extends n') :
    n'.Logged sessionId user seq event := by
  obtain ⟨session,hget,howner,hpos,hevent⟩ := h
  obtain ⟨later,hlater,howner',hevents⟩ := hext.sessions sessionId session hget
  refine ⟨later,hlater,?_,hpos,?_⟩
  · rw [howner' (by rw [howner]; exact huser),howner]
  · obtain ⟨more,hmore⟩ := hevents
    rw [← hmore,List.getElem?_append_left (List.getElem?_eq_some_iff.mp hevent).1]
    exact hevent

theorem Cluster.Extends.getAccepted (hext : n.Extends n') {entry : Nat} {a : Accepted}
    (h : n.accepted[entry]? = some a) : n'.accepted[entry]? = some a := by
  obtain ⟨more,hmore⟩ := hext.accepted
  rw [← hmore,List.getElem?_append_left (List.getElem?_eq_some_iff.mp h).1]
  exact h

end Extends

/-- A replay under way sends events of a session of its user. -/
def ResumeStage.Sound (n : Cluster) (b : Nat) : ResumeStage → Prop
  | .send sessionId _ events _ => ∃ user, user ≠ [] ∧ n.IsUser b user ∧
      ∀ e ∈ events, n.Logged sessionId user e.2 e.1
  | _ => True

/-- What a goroutine has found out before its next segment. -/
def Work.Sound (n : Cluster) (tr : List ClusterEvent) : Work → Prop
  | .subscribing b deviceId _ =>
    deviceId ≠ [] ∧ ∃ user, n.IsUser b user ∧ n.records.owns deviceId user
  | .resuming b resume =>
    (∃ cursors, .browserSent b (.resume cursors) ∈ tr) ∧ resume.stage.Sound n b
  | .accepting b request => .browserSent b (.gatewayProxy request) ∈ tr ∧
      ∃ user, n.IsUser b user ∧ n.records.owns request.deviceId user
  | .forwarding entry device => ∃ a, n.accepted[entry]? = some a ∧
      ∀ k, device = some k → n.IsDevice k a.request.deviceId ∧
        (n.redis = true → n.IsBound k a.request.deviceId a.user)
  | .withdrawing _ => True
  | .offline _ => True
  | .timing _ => True
  | .timedOut _ => True
  | .handling k message => ∃ deviceId, n.IsDevice k deviceId ∧ .deviceSent k deviceId message ∈ tr
  | .publishing k payload _ =>
    ∃ deviceId, n.IsDevice k deviceId ∧ .deviceSent k deviceId (.gatewayEvent payload) ∈ tr
  | .emitting _ deviceId _ payload _ =>
    deviceId ≠ [] ∧ ∃ k, .deviceSent k deviceId (.gatewayEvent payload) ∈ tr
  | .responding entry requestId body => ∃ a, n.accepted[entry]? = some a ∧
      a.request.requestId = requestId ∧
      ∃ k, .deviceSent k a.request.deviceId (.proxyResponse requestId body) ∈ tr
  | .relaying k requestId body =>
    ∃ deviceId, n.IsDevice k deviceId ∧ .deviceSent k deviceId (.proxyResponse requestId body) ∈ tr
  | .checking relay k entry => ∃ a, n.accepted[entry]? = some a ∧
      n.IsBound k a.request.deviceId a.user ∧ n.Holds (relay,a.request.deviceId) k
  | .handing relay k entry => ∃ a, n.accepted[entry]? = some a ∧
      n.IsBound k a.request.deviceId a.user ∧ n.Holds (relay,a.request.deviceId) k
  | .dropping _ _ _ => True
  | .binding _ deviceId ownerUser _ => n.records.owns deviceId ownerUser
  | .comparing k deviceId ownerUser _ => n.records.owns deviceId ownerUser ∧ n.IsDevice k deviceId
  | .leasing k _ deviceId ownerUser _ => n.records.owns deviceId ownerUser ∧ n.IsDevice k deviceId
  | .writing k deviceId ownerUser _ => n.records.owns deviceId ownerUser ∧ n.IsDevice k deviceId
  | .announcing deviceId ownerUser => n.records.owns deviceId ownerUser
  | .revoking _ _ _ => True

/-- What a message under way says of its sender. -/
def Envelope.Sound (n : Cluster) (tr : List ClusterEvent) : Envelope → Prop
  | .gatewayEvent deviceId _ payload _ =>
    deviceId ≠ [] ∧ ∃ k, .deviceSent k deviceId (.gatewayEvent payload) ∈ tr
  | .proxyRequest _ => True
  | .proxyResponse deviceId _ requestId body =>
    ∃ k, .deviceSent k deviceId (.proxyResponse requestId body) ∈ tr
  | .deviceOwnership deviceId ownerUser => n.records.owns deviceId ownerUser
  | .deviceRevocation _ _ => True

section Sound

variable {n n' : Cluster} {tr tr' : List ClusterEvent}

theorem Work.Sound.extends {work : Work} (h : work.Sound n tr) (hext : n.Extends n')
    (hredis : n'.redis = n.redis) (htr : tr ⊆ tr') : work.Sound n' tr' := by
  cases work with
  | subscribing b deviceId replace =>
    obtain ⟨hne,user,huser,howns⟩ := h
    exact ⟨hne,user,huser.extends hext,howns.grows hext.records⟩
  | resuming b resume =>
    obtain ⟨⟨cursors,hsent⟩,hstage⟩ := h
    refine ⟨⟨cursors,htr hsent⟩,?_⟩
    cases hs : resume.stage with
    | send sessionId batch events hasMore =>
      rw [hs] at hstage
      obtain ⟨user,hne,huser,hevents⟩ := hstage
      exact ⟨user,hne,huser.extends hext,fun e he => (hevents e he).extends hne hext⟩
    | _ => trivial
  | accepting b request =>
    obtain ⟨hsent,user,huser,howns⟩ := h
    exact ⟨htr hsent,user,huser.extends hext,howns.grows hext.records⟩
  | forwarding entry device =>
    obtain ⟨a,ha,hdevice⟩ := h
    refine ⟨a,hext.getAccepted ha,?_⟩
    intro k hk
    refine ⟨(hdevice k hk).1.extends hext,?_⟩
    intro hr
    exact ((hdevice k hk).2 (hredis ▸ hr)).extends hext
  | handling k message =>
    obtain ⟨deviceId,hdevice,hsent⟩ := h
    exact ⟨deviceId,hdevice.extends hext,htr hsent⟩
  | publishing k payload eventSeq =>
    obtain ⟨deviceId,hdevice,hsent⟩ := h
    exact ⟨deviceId,hdevice.extends hext,htr hsent⟩
  | emitting relay deviceId ownerUser payload eventSeq =>
    obtain ⟨hne,k,hsent⟩ := h
    exact ⟨hne,k,htr hsent⟩
  | responding entry requestId body =>
    obtain ⟨a,ha,hid,k,hsent⟩ := h
    exact ⟨a,hext.getAccepted ha,hid,k,htr hsent⟩
  | relaying k requestId body =>
    obtain ⟨deviceId,hdevice,hsent⟩ := h
    exact ⟨deviceId,hdevice.extends hext,htr hsent⟩
  | checking relay k entry =>
    obtain ⟨a,ha,hbound,hplace⟩ := h
    exact ⟨a,hext.getAccepted ha,hbound.extends hext,hplace.extends hext⟩
  | handing relay k entry =>
    obtain ⟨a,ha,hbound,hplace⟩ := h
    exact ⟨a,hext.getAccepted ha,hbound.extends hext,hplace.extends hext⟩
  | binding relay deviceId ownerUser announce => exact DeviceRecords.owns.grows h hext.records
  | comparing k deviceId ownerUser announce => exact ⟨h.1.grows hext.records,h.2.extends hext⟩
  | leasing k oldOwner deviceId ownerUser announce =>
    exact ⟨h.1.grows hext.records,h.2.extends hext⟩
  | writing k deviceId ownerUser announce => exact ⟨h.1.grows hext.records,h.2.extends hext⟩
  | announcing deviceId ownerUser => exact DeviceRecords.owns.grows h hext.records
  | _ => trivial

theorem Envelope.Sound.extends {envelope : Envelope} (h : envelope.Sound n tr) (hext : n.Extends n')
    (htr : tr ⊆ tr') : envelope.Sound n' tr' := by
  cases envelope with
  | gatewayEvent deviceId ownerUser payload eventSeq =>
    obtain ⟨hne,k,hsent⟩ := h
    exact ⟨hne,k,htr hsent⟩
  | proxyResponse deviceId ownerUser requestId body =>
    obtain ⟨k,hsent⟩ := h
    exact ⟨k,htr hsent⟩
  | deviceOwnership deviceId ownerUser => exact DeviceRecords.owns.grows h hext.records
  | _ => trivial

/-- The stations between the store's answer to the hello and the end of the read loop. -/
def SocketStage.named : SocketStage → Bool
  | .waiting => false
  | .ended => false
  | .cleared => false
  | .closed => false
  | _ => true

/-- A socket is bound to no one, or to the owner of its device. -/
structure Socket.Sound (records : DeviceRecords) (s : Socket) : Prop where
  waiting : s.stage = .waiting → s.deviceId = []
  named : s.stage.named = true → s.deviceId ≠ []
  unbound : s.deviceId = [] → s.ownerUser = []
  bound : s.ownerUser ≠ [] → records.owns s.deviceId s.ownerUser

structure Browser.Sound (records : DeviceRecords) (browser : Browser) : Prop where
  user : browser.user ≠ []
  subscriptions : ∀ deviceId ∈ browser.subscriptions, deviceId ≠ [] ∧ records.owns deviceId browser.user

structure Accepted.Sound (n : Cluster) (tr : List ClusterEvent) (a : Accepted) : Prop where
  user : n.IsUser a.browser a.user
  owner : n.records.owns a.request.deviceId a.user
  sent : .browserSent a.browser (.gatewayProxy a.request) ∈ tr

/-- The invariant that links the store, the live peers and the subscriptions. -/
structure Cluster.Sound (tr : List ClusterEvent) (n : Cluster) : Prop where
  devices : ∀ place k, n.devices.get place = some k → n.Holds place k
  sockets : ∀ (k : Nat) (s : Socket), n.sockets[k]? = some s → s.Sound n.records
  browsers : ∀ browser ∈ n.browsers, browser.Sound n.records
  accepted : ∀ a ∈ n.accepted, a.Sound n tr
  pending : ∀ key entry, n.pending.get key = some entry →
    ∃ a, n.accepted[entry]? = some a ∧ a.key = key
  tasks : ∀ task ∈ n.tasks, task.work.Sound n tr
  messages : ∀ m ∈ n.messages, m.envelope.Sound n tr

theorem Socket.Sound.grows {records later : DeviceRecords} {s : Socket} (h : s.Sound records)
    (hg : DeviceRecords.Grows records later) : s.Sound later :=
  ⟨h.waiting,h.named,h.unbound,fun hne => (h.bound hne).grows hg⟩

theorem Browser.Sound.grows {records later : DeviceRecords} {browser : Browser}
    (h : browser.Sound records) (hg : DeviceRecords.Grows records later) : browser.Sound later :=
  ⟨h.user,fun d hd => ⟨(h.subscriptions d hd).1,(h.subscriptions d hd).2.grows hg⟩⟩

theorem Accepted.Sound.extends {a : Accepted} (h : a.Sound n tr) (hext : n.Extends n')
    (htr : tr ⊆ tr') : a.Sound n' tr' :=
  ⟨h.user.extends hext,h.owner.grows hext.records,htr h.sent⟩

/-- Whatever a step brings in must be sound by itself; the rest was sound before. -/
structure Cluster.Leads (tr : List ClusterEvent) (n : Cluster) (tr' : List ClusterEvent)
    (n' : Cluster) : Prop where
  extends_ : n.Extends n'
  redis : n'.redis = n.redis
  trace : tr ⊆ tr'
  devices : ∀ place k, n'.devices.get place = some k → n.devices.get place = some k ∨ n'.Holds place k
  sockets : ∀ (k : Nat) (s : Socket), n'.sockets[k]? = some s →
    n.sockets[k]? = some s ∨ s.Sound n'.records
  browsers : ∀ browser ∈ n'.browsers, browser ∈ n.browsers ∨ browser.Sound n'.records
  accepted : ∀ a ∈ n'.accepted, a ∈ n.accepted ∨ a.Sound n' tr'
  pending : ∀ key entry, n'.pending.get key = some entry → n.pending.get key = some entry ∨
    ∃ a, n'.accepted[entry]? = some a ∧ a.key = key
  tasks : ∀ task ∈ n'.tasks, task ∈ n.tasks ∨ task.work.Sound n' tr'
  messages : ∀ m ∈ n'.messages, m ∈ n.messages ∨ m.envelope.Sound n' tr'

theorem Cluster.Sound.leads (h : n.Sound tr) (hl : Leads tr n tr' n') : n'.Sound tr' where
  devices place k hget := by
    rcases hl.devices place k hget with hold | hnew
    · exact (h.devices place k hold).extends hl.extends_
    · exact hnew
  sockets k s hget := by
    rcases hl.sockets k s hget with hold | hnew
    · exact (h.sockets k s hold).grows hl.extends_.records
    · exact hnew
  browsers browser hmem := by
    rcases hl.browsers browser hmem with hold | hnew
    · exact (h.browsers browser hold).grows hl.extends_.records
    · exact hnew
  accepted a hmem := by
    rcases hl.accepted a hmem with hold | hnew
    · exact (h.accepted a hold).extends hl.extends_ hl.trace
    · exact hnew
  pending key entry hget := by
    rcases hl.pending key entry hget with hold | hnew
    · obtain ⟨a,ha,hkey⟩ := h.pending key entry hold
      exact ⟨a,hl.extends_.getAccepted ha,hkey⟩
    · exact hnew
  tasks task hmem := by
    rcases hl.tasks task hmem with hold | hnew
    · exact (h.tasks task hold).extends hl.extends_ hl.redis hl.trace
    · exact hnew
  messages m hmem := by
    rcases hl.messages m hmem with hold | hnew
    · exact (h.messages m hold).extends hl.extends_ hl.trace
    · exact hnew

theorem Cluster.Leads.refl (tr : List ClusterEvent) (n : Cluster) : Leads tr n tr n where
  extends_ := .refl n
  redis := rfl
  trace := fun _ he => he
  devices _ _ hget := .inl hget
  sockets _ _ hget := .inl hget
  browsers _ hmem := .inl hmem
  accepted _ hmem := .inl hmem
  pending _ _ hget := .inl hget
  tasks _ hmem := .inl hmem
  messages _ hmem := .inl hmem

theorem Cluster.Leads.trans {n'' : Cluster} {tr'' : List ClusterEvent} (h : Leads tr n tr' n')
    (h' : Leads tr' n' tr'' n'') : Leads tr n tr'' n'' where
  extends_ := h.extends_.trans h'.extends_
  redis := h'.redis.trans h.redis
  trace := fun _ he => h'.trace (h.trace he)
  devices place k hget := by
    rcases h'.devices place k hget with hold | hnew
    · exact (h.devices place k hold).imp_right (·.extends h'.extends_)
    · exact .inr hnew
  sockets k s hget := by
    rcases h'.sockets k s hget with hold | hnew
    · exact (h.sockets k s hold).imp_right (·.grows h'.extends_.records)
    · exact .inr hnew
  browsers browser hmem := by
    rcases h'.browsers browser hmem with hold | hnew
    · exact (h.browsers browser hold).imp_right (·.grows h'.extends_.records)
    · exact .inr hnew
  accepted a hmem := by
    rcases h'.accepted a hmem with hold | hnew
    · exact (h.accepted a hold).imp_right (·.extends h'.extends_ h'.trace)
    · exact .inr hnew
  pending key entry hget := by
    rcases h'.pending key entry hget with hold | hnew
    · refine (h.pending key entry hold).imp_right ?_
      rintro ⟨a,ha,hkey⟩
      exact ⟨a,h'.extends_.getAccepted ha,hkey⟩
    · exact .inr hnew
  tasks task hmem := by
    rcases h'.tasks task hmem with hold | hnew
    · exact (h.tasks task hold).imp_right (·.extends h'.extends_ h'.redis h'.trace)
    · exact .inr hnew
  messages m hmem := by
    rcases h'.messages m hmem with hold | hnew
    · exact (h.messages m hold).imp_right (·.extends h'.extends_ h'.trace)
    · exact .inr hnew

theorem Cluster.Leads.append (tr out : List ClusterEvent) (n : Cluster) : Leads tr n (tr ++ out) n :=
  { Leads.refl tr n with
    trace := fun _ he => List.mem_append_left out he
    accepted := fun _ hmem => .inl hmem
    tasks := fun _ hmem => .inl hmem
    messages := fun _ hmem => .inl hmem }

theorem Cluster.extends_of_eq (records : n'.records = n.records) (sessions : n'.sessions = n.sessions)
    (browsers : n'.browsers = n.browsers) (sockets : n'.sockets = n.sockets)
    (accepted : n'.accepted = n.accepted) : n.Extends n' where
  records := records ▸ .refl _
  sessions := by
    rw [sessions]
    exact (Extends.refl n).sessions
  browsers := by
    rw [browsers]
    exact (Extends.refl n).browsers
  sockets := by
    rw [sockets]
    exact (Extends.refl n).sockets
  accepted := accepted ▸ List.prefix_refl _

theorem Cluster.leads_aside (tr : List ClusterEvent) (redis : n'.redis = n.redis)
    (records : n'.records = n.records) (sessions : n'.sessions = n.sessions)
    (browsers : n'.browsers = n.browsers) (sockets : n'.sockets = n.sockets)
    (devices : n'.devices = n.devices) (accepted : n'.accepted = n.accepted)
    (pending : n'.pending = n.pending) (tasks : n'.tasks = n.tasks)
    (messages : n'.messages = n.messages) : Leads tr n tr n' where
  extends_ := extends_of_eq records sessions browsers sockets accepted
  redis := redis
  trace := fun _ he => he
  devices _ _ hget := .inl (devices ▸ hget)
  sockets _ _ hget := .inl (sockets ▸ hget)
  browsers _ hmem := .inl (browsers ▸ hmem)
  accepted _ hmem := .inl (accepted ▸ hmem)
  pending _ _ hget := .inl (pending ▸ hget)
  tasks _ hmem := .inl (tasks ▸ hmem)
  messages _ hmem := .inl (messages ▸ hmem)

end Sound

end CodeHarbor.Network
