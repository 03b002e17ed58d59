import CodeHarbor.Network.Leads
set_option autoImplicit false

namespace CodeHarbor.Network
open Lib Lib.Go Lib.Base64 Relay

section Segments

variable {n n' : Cluster} {tr tr' : List ClusterEvent}

/-! Segments: where they lead, and what is known for the next one. -/

def Effect.Leads (tr : List ClusterEvent) (n : Cluster) (e : Effect) : Prop :=
  Cluster.Leads tr n tr e.1 ∧ ∀ w, e.2.2 = some w → w.Sound e.1 tr

theorem Effect.Leads.done {out : List ClusterEvent} (h : Cluster.Leads tr n tr n') :
    Effect.Leads tr n (n',out,none) :=
  ⟨h,fun _ hw => nomatch hw⟩

theorem Effect.Leads.go {out : List ClusterEvent} {w : Work} (h : Cluster.Leads tr n tr n')
    (hw : w.Sound n' tr) : Effect.Leads tr n (n',out,some w) :=
  ⟨h,fun _ heq => by cases heq; exact hw⟩

theorem Effect.Leads.by {e : Effect} (h : e.Leads tr n) (party : Party) :
    Cluster.Leads tr n tr (e.by party).1 :=
  h.1.trans (Cluster.leads_spawn party h.2)

theorem Cluster.Sound.getUser (h : n.Sound tr) {b : Nat} {browser : Browser}
    (hget : n.browsers[b]? = some browser) : browser.user ≠ [] ∧ n.IsUser b browser.user :=
  ⟨(h.browsers browser (List.mem_of_getElem? hget)).user,browser,hget,rfl⟩

theorem Cluster.Sound.resume (h : n.Sound tr) (o : Outcome) (b : Nat) {r : Resume}
    (hw : (Work.resuming b r).Sound n tr) : (n.resume o b r).Leads tr n := by
  obtain ⟨hsent,hstage⟩ := hw
  have hgo : ∀ (r : Resume) (out : List ClusterEvent), r.stage.Sound n b →
      Effect.Leads tr n (n,out,some (.resuming b r)) :=
    fun r out hs => .go (.refl tr n) ⟨hsent,hs⟩
  unfold Cluster.resume
  cases hget : n.browsers[b]? with
  | none => exact .done (.refl tr n)
  | some browser =>
    dsimp only
    cases hs : r.stage with
    | next =>
      dsimp only
      cases r.cursors with
      | nil => exact .done (.refl tr n)
      | cons entry rest =>
        obtain ⟨sessionId,raw⟩ := entry
        dsimp only
        split_ifs
        · exact hgo _ _ trivial
        · exact hgo _ _ trivial
        · cases raw with
          | none => exact hgo _ _ trivial
          | some cursor =>
            refine hgo _ _ ?_
            dsimp only
            split_ifs <;> trivial
    | bounds sessionId cursor =>
      dsimp only
      split_ifs
      · exact hgo _ _ trivial
      · exact hgo _ _ trivial
    | list sessionId batch =>
      dsimp only
      split
      · exact hgo _ _ trivial
      · rename_i events hlist
        split_ifs
        · exact hgo _ _ trivial
        · exact hgo _ _ trivial
        · refine hgo _ _ ⟨browser.user,(h.getUser hget).1,(h.getUser hget).2,?_⟩
          intro e he
          exact (listed_logged hlist (List.mem_of_mem_take he)).2
    | send sessionId batch events hasMore =>
      rw [hs] at hstage
      obtain ⟨user,hne,huser,hevents⟩ := hstage
      cases events with
      | nil =>
        dsimp only
        split_ifs
        · exact hgo _ _ trivial
        · exact hgo _ _ trivial
      | cons e rest =>
        dsimp only
        split_ifs
        · exact hgo _ _ ⟨user,hne,huser,fun e he => nomatch he⟩
        · exact hgo _ _ ⟨user,hne,huser,fun e he => hevents e (List.mem_cons_of_mem _ he)⟩
        · exact hgo _ _ ⟨user,hne,huser,fun e he => hevents e (List.mem_cons_of_mem _ he)⟩

theorem Cluster.leads_accepted {a : Accepted} (h : a.Sound n tr) :
    Leads tr n tr { n with
      accepted := n.accepted ++ [a]
      pending := n.pending.set a.key n.accepted.length } := by
  have hext : n.Extends { n with
      accepted := n.accepted ++ [a]
      pending := n.pending.set a.key n.accepted.length } :=
    { Extends.refl n with accepted := List.prefix_append _ _ }
  refine { Leads.refl tr n with
    extends_ := hext
    accepted := ?_
    pending := ?_
    tasks := fun _ hmem => .inl hmem
    messages := fun _ hmem => .inl hmem }
  · intro a' hmem
    rcases List.mem_append.mp hmem with hold | hnew
    · exact .inl hold
    · rw [List.mem_singleton.mp hnew]
      exact .inr (h.extends hext (fun _ he => he))
  · intro key entry hget
    dsimp only at hget
    rw [OrdMap.get_set] at hget
    split_ifs at hget with hkey
    · cases hget
      exact .inr ⟨a,by simp,hkey.symm⟩
    · exact .inl hget

theorem owner_unique {records : DeviceRecords} {deviceId user user' : Text}
    (h : records.owns deviceId user) (h' : records.owns deviceId user') : user = user' := by
  obtain ⟨-,record,hget,howner⟩ := h
  obtain ⟨-,record',hget',howner'⟩ := h'
  rw [hget] at hget'
  cases hget'
  exact howner.symm.trans howner'

/-- A peer whose lease is owned has an owner when there is a Redis. -/
theorem Cluster.Sound.leaseOwned_bound (h : n.Sound tr) {o : Outcome} {k : Nat} {deviceId user : Text}
    (hdevice : n.IsDevice k deviceId) (howns : n.records.owns deviceId user)
    (hlease : n.deviceLeaseOwned k o = true) (hredis : n.redis = true) : n.IsBound k deviceId user := by
  obtain ⟨hne,s,hget,hid⟩ := hdevice
  simp only [deviceLeaseOwned,hget,hredis,Bool.true_eq_false,decide_false,Bool.false_or,
    Bool.and_eq_true,Socket.leases,decide_eq_true_eq] at hlease
  have hbound := (h.sockets k s hget).bound hlease.1.1.1.2
  rw [hid] at hbound
  exact ⟨hne,howns.1,s,hget,hid,owner_unique hbound howns⟩

theorem Cluster.Sound.accept (h : n.Sound tr) (o : Outcome) {b : Nat} {request : ProxyRequest}
    (hw : (Work.accepting b request).Sound n tr) : (n.accept o b request).Leads tr n := by
  obtain ⟨hsent,user,⟨browser,hget,huser⟩,howns⟩ := hw
  subst huser
  let place := (browser.relay,request.deviceId)
  let device := (n.devices.get place).filter (fun k => n.deviceLeaseOwned k o)
  let devices := if device = none then n.devices.erase place else n.devices
  have hdevices : Leads tr n tr { n with devices := devices } := by
    refine leads_devices ?_
    intro place' k hplace
    dsimp only [devices] at hplace
    split_ifs at hplace
    · rw [OrdMap.get_erase] at hplace
      split_ifs at hplace
      exact .inl hplace
    · exact .inl hplace
  let a : Accepted := ⟨browser.relay,b,browser.user,request⟩
  have ha : a.Sound n tr := ⟨⟨browser,hget,rfl⟩,howns,hsent⟩
  have haccepted := hdevices.trans
    (leads_accepted (n := { n with devices := devices }) (ha.extends hdevices.extends_ hdevices.trace))
  unfold Cluster.accept
  rw [hget]
  dsimp only
  split
  · exact .done (.refl tr n)
  · split
    · exact .done hdevices
    · refine .go haccepted ⟨a,by simp [a],?_⟩
      intro k hk
      obtain ⟨hplace,hlease⟩ := Option.filter_eq_some_iff.mp hk
      have hdevice := (h.devices place k hplace).isDevice
      refine ⟨hdevice.extends haccepted.extends_,?_⟩
      intro hredis
      exact (h.leaseOwned_bound hdevice howns hlease hredis).extends haccepted.extends_

theorem Cluster.takePending_spec {relay entry : Nat} {requestId deviceId ownerUser : Text}
    (h : n.takePending relay requestId deviceId ownerUser = some (entry,n')) :
    ∃ a, n.pending.get (relay,requestId) = some entry ∧ n.accepted[entry]? = some a ∧
      a.user = ownerUser ∧ a.request.deviceId = deviceId ∧
      n' = { n with pending := n.pending.erase (relay,requestId) } := by
  unfold takePending at h
  cases hget : n.pending.get (relay,requestId) with
  | none => simp [hget] at h
  | some e =>
    cases ha : n.accepted[e]? with
    | none => simp [hget,ha] at h
    | some a =>
      simp only [hget,ha,Option.ite_none_right_eq_some,Option.some.injEq,Prod.mk.injEq] at h
      obtain ⟨⟨huser,hdevice⟩,rfl,rfl⟩ := h
      exact ⟨a,rfl,ha,huser,hdevice,rfl⟩

theorem Cluster.Sound.takePending (h : n.Sound tr) {relay entry : Nat}
    {requestId deviceId ownerUser body : Text}
    (htake : n.takePending relay requestId deviceId ownerUser = some (entry,n'))
    (hsent : ∃ k, .deviceSent k deviceId (.proxyResponse requestId body) ∈ tr) :
    Effect.Leads tr n (n',[],some (.responding entry requestId body)) := by
  obtain ⟨a,hget,ha,-,hdevice,rfl⟩ := takePending_spec htake
  obtain ⟨a',ha',hkey⟩ := h.pending _ _ hget
  have heq : some a = some a' := ha.symm.trans ha'
  cases heq
  refine .go (leads_erase_pending _) ⟨a,ha,congrArg Prod.snd hkey,?_⟩
  rw [hdevice]
  exact hsent

theorem Cluster.Sound.handle (h : n.Sound tr) (o : Outcome) {k : Nat} {message : GatewayMessage}
    (hw : (Work.handling k message).Sound n tr) : (n.handle o k message).Leads tr n := by
  obtain ⟨deviceId,⟨hne,s,hget,hid⟩,hsent⟩ := hw
  unfold Cluster.handle
  rw [hget]
  dsimp only
  cases message with
  | ping => exact .done (.refl tr n)
  | deviceHello hello secret => exact .done (h.setStage (by simp) (by simp [SocketStage.named]))
  | sessionSync sessions =>
    refine .done ?_
    split_ifs
    · exact leads_syncSessions _ _ _
    · exact .refl tr n
  | gatewayEvent payload =>
    dsimp only
    cases payload.sessionId with
    | none => exact .go (.refl tr n) ⟨deviceId,⟨hne,s,hget,hid⟩,hsent⟩
    | some sessionId =>
      dsimp only
      cases happend : n.appendOwnedEvent sessionId s.ownerUser payload with
      | none => exact .done (.refl tr n)
      | some stored =>
        have hlead : Leads tr n tr (if o.done = true then stored.2 else n) := by
          split_ifs
          · exact leads_appendOwnedEvent happend
          · exact .refl tr n
        dsimp only
        split
        · refine .go hlead ⟨deviceId,?_,hsent⟩
          exact Cluster.IsDevice.extends ⟨hne,s,hget,hid⟩ hlead.extends_
        · exact .done hlead
  | proxyResponse requestId body =>
    dsimp only
    cases htake : n.takePending s.relay requestId s.deviceId s.ownerUser with
    | none =>
      dsimp only
      split_ifs
      · exact .go (.refl tr n) ⟨deviceId,⟨hne,s,hget,hid⟩,hsent⟩
      · exact .done (.refl tr n)
    | some taken =>
      refine h.takePending htake ⟨k,?_⟩
      rw [hid]
      exact hsent
  | unknown => exact .done (.refl tr n)

theorem announced_sound {announce : Bool} {deviceId ownerUser : Text} {w : Work}
    (howns : n.records.owns deviceId ownerUser) (h : announced announce deviceId ownerUser = some w) :
    w.Sound n tr := by
  unfold announced at h
  split_ifs at h
  cases h
  exact howns

theorem Browser.Sound.subscribe {records : DeviceRecords} {browser : Browser}
    (h : browser.Sound records) {deviceId : Text} (hne : deviceId ≠ [])
    (howns : records.owns deviceId browser.user) (replace : Bool) :
    (browser.subscribe deviceId replace).Sound records := by
  have hkept : ∀ d ∈ (if replace = true then [] else browser.subscriptions),
      d ≠ [] ∧ records.owns d browser.user := by
    intro d hd
    split_ifs at hd
    · cases hd
    · exact h.subscriptions d hd
  unfold Browser.subscribe
  dsimp only
  generalize (if replace = true then [] else browser.subscriptions) = kept at hkept ⊢
  split
  · exact ⟨h.user,hkept⟩
  · refine ⟨h.user,?_⟩
    intro d hd
    rcases List.mem_append.mp hd with hold | hnew
    · exact hkept d hold
    · rw [List.mem_singleton.mp hnew]
      exact ⟨hne,howns⟩

theorem Browser.subscribe_user (browser : Browser) (deviceId : Text) (replace : Bool) :
    (browser.subscribe deviceId replace).user = browser.user ∧
      (browser.subscribe deviceId replace).relay = browser.relay := by
  unfold Browser.subscribe
  dsimp only
  split_ifs <;> exact ⟨rfl,rfl⟩

theorem Cluster.Sound.bind (h : n.Sound tr) {k : Nat} {deviceId ownerUser : Text}
    (howns : n.records.owns deviceId ownerUser) (hdevice : n.IsDevice k deviceId) :
    Leads tr n tr (n.modifySocket k ({ · with ownerUser := ownerUser })) := by
  obtain ⟨hne,s,hget,hid⟩ := hdevice
  refine leads_socket ?_
  intro s' hget'
  have heq : some s = some s' := hget.symm.trans hget'
  cases heq
  have hs := h.sockets k s hget
  refine ⟨rfl,rfl,fun _ => rfl,?_,hs.waiting,hs.named,?_,?_⟩
  · intro hbound
    have howns' := hs.bound hbound
    rw [hid] at howns'
    exact owner_unique howns howns'
  · intro hnil
    exact absurd (hid.symm.trans hnil) hne
  · intro _
    rw [hid]
    exact howns

theorem Cluster.Sound.perform (h : n.Sound tr) (c : Config) (o : Outcome) {work : Work}
    (hw : work.Sound n tr) : (n.perform c o work).Leads tr n := by
  cases work with
  | subscribing b deviceId replace =>
    obtain ⟨hne,user,⟨browser,hget,huser⟩,howns⟩ := hw
    refine .done (leads_browser (fun _ => Browser.subscribe_user _ _ _) ?_)
    intro browser' hget'
    have heq : some browser = some browser' := hget.symm.trans hget'
    cases heq
    exact (h.browsers browser (List.mem_of_getElem? hget)).subscribe hne (huser ▸ howns) replace
  | resuming b resume => exact h.resume o b hw
  | accepting b request => exact h.accept o hw
  | forwarding entry device =>
    cases device with
    | some k => exact .done (.refl tr n)
    | none =>
      simp only [Cluster.perform]
      have hlead : Leads tr n tr (if o.done = true then n.publish (.proxyRequest entry) else n) := by
        split_ifs
        · exact leads_publish trivial
        · exact .refl tr n
      split
      · refine ⟨hlead,?_⟩
        intro w hnext
        dsimp only at hnext
        split_ifs at hnext
        cases hnext
        trivial
      · exact .go (.refl tr n) trivial
  | withdrawing entry => exact .go (leads_deletePending entry) trivial
  | offline entry => exact .done (leads_aside tr rfl rfl rfl rfl rfl rfl rfl rfl rfl rfl)
  | timing entry =>
    simp only [Cluster.perform]
    split_ifs
    · exact .go (leads_deletePending entry) trivial
    · exact .go (.refl tr n) trivial
  | timedOut entry => exact .done (.refl tr n)
  | handling k message => exact h.handle o hw
  | publishing k payload eventSeq =>
    obtain ⟨deviceId,⟨hne,s,hget,hid⟩,hsent⟩ := hw
    simp only [Cluster.perform,hget]
    refine .go (.refl tr n) ⟨?_,k,?_⟩
    · rw [hid]
      exact hne
    · rw [hid]
      exact hsent
  | emitting relay deviceId ownerUser payload eventSeq =>
    have hlead : Leads tr n tr (if n.redis && o.done then
        n.publish (.gatewayEvent deviceId ownerUser payload eventSeq) else n) := by
      split_ifs
      · exact leads_publish hw
      · exact .refl tr n
    simp only [Cluster.perform]
    split
    · exact .done hlead
    · exact .done hlead
  | responding entry requestId body =>
    exact .done (leads_aside tr rfl rfl rfl rfl rfl rfl rfl rfl rfl rfl)
  | relaying k requestId body =>
    obtain ⟨deviceId,⟨hne,s,hget,hid⟩,hsent⟩ := hw
    simp only [Cluster.perform,hget]
    refine .done ?_
    split_ifs
    · refine leads_publish ⟨k,?_⟩
      rw [hid]
      exact hsent
    · exact .refl tr n
  | checking relay k entry =>
    obtain ⟨a,ha,hknown⟩ := hw
    simp only [Cluster.perform,ha]
    split_ifs
    · exact .go (.refl tr n) ⟨a,ha,hknown⟩
    · exact .go (.refl tr n) trivial
  | handing relay k entry => exact .done (.refl tr n)
  | dropping relay deviceId k =>
    simp only [Cluster.perform]
    refine .done ?_
    split_ifs
    · exact leads_erase_device _
    · exact .refl tr n
  | binding relay deviceId ownerUser announce =>
    simp only [Cluster.perform]
    cases hplace : n.devices.get (relay,deviceId) with
    | none => exact ⟨.refl tr n,fun w hnext => announced_sound hw hnext⟩
    | some k => exact .go (.refl tr n) ⟨hw,(h.devices _ k hplace).isDevice⟩
  | comparing k deviceId ownerUser announce =>
    simp only [Cluster.perform]
    split
    · exact ⟨.refl tr n,fun w hnext => announced_sound hw.1 hnext⟩
    · split_ifs
      · exact ⟨.refl tr n,fun w hnext => announced_sound hw.1 hnext⟩
      · exact .go (.refl tr n) hw
      · exact .go (.refl tr n) hw
  | leasing k oldOwner deviceId ownerUser announce =>
    simp only [Cluster.perform]
    split
    · exact ⟨.refl tr n,fun w hnext => announced_sound hw.1 hnext⟩
    · rename_i s hget
      obtain ⟨presence,heq⟩ := n.bindLease_eq o s oldOwner ownerUser
      have hlead : Leads tr n tr (n.bindLease o s oldOwner ownerUser).2 := by
        rw [heq]
        exact leads_presence presence
      have howns := hw.1.grows hlead.extends_.records
      refine ⟨hlead,?_⟩
      intro w hnext
      dsimp only at hnext
      split_ifs at hnext
      · cases hnext
        exact ⟨howns,hw.2.extends hlead.extends_⟩
      · exact announced_sound howns hnext
  | writing k deviceId ownerUser announce =>
    have hlead := h.bind hw.1 hw.2
    exact ⟨hlead,fun w hnext => announced_sound (hw.1.grows hlead.extends_.records) hnext⟩
  | announcing deviceId ownerUser =>
    simp only [Cluster.perform]
    refine .done ?_
    split_ifs
    · exact leads_publish hw
    · exact .refl tr n
  | revoking deviceId ownerUser shared =>
    simp only [Cluster.perform]
    split
    · exact .done (.refl tr n)
    · split
      · refine .done ?_
        split_ifs
        · exact leads_publish trivial
        · exact .refl tr n
      · refine ⟨?_,?_⟩
        · dsimp only
          split_ifs
          · exact leads_aside tr rfl rfl rfl rfl rfl rfl rfl rfl rfl rfl
          · exact .refl tr n
        · intro w hnext
          dsimp only at hnext
          split_ifs at hnext
          cases hnext
          trivial

theorem Cluster.Sound.handleRedisMessage (h : n.Sound tr) (o : Outcome) (relay : Nat)
    {envelope : Envelope} (he : envelope.Sound n tr) :
    (n.handleRedisMessage o relay envelope).Leads tr n := by
  cases envelope with
  | gatewayEvent deviceId ownerUser payload eventSeq => exact .done (.refl tr n)
  | proxyRequest entry =>
    simp only [Cluster.handleRedisMessage]
    cases ha : n.accepted[entry]? with
    | none => exact .done (.refl tr n)
    | some a =>
      dsimp only
      cases hplace : n.devices.get (relay,a.request.deviceId) with
      | none => exact .done (.refl tr n)
      | some k =>
        dsimp only
        split_ifs with howner
        · have hholds := h.devices _ k hplace
          obtain ⟨hne,s,hget,hid⟩ := hholds.isDevice
          rw [hget,Option.map_some,Option.some.injEq] at howner
          exact .go (.refl tr n) ⟨a,ha,⟨hne,howner.1,s,hget,hid,howner.2⟩,hholds⟩
        · exact .done (.refl tr n)
  | proxyResponse deviceId ownerUser requestId body =>
    simp only [Cluster.handleRedisMessage]
    split_ifs
    · exact .done (.refl tr n)
    · cases htake : n.takePending relay requestId deviceId ownerUser with
      | none => exact .done (.refl tr n)
      | some taken => exact h.takePending htake he
  | deviceOwnership deviceId ownerUser =>
    simp only [Cluster.handleRedisMessage]
    split_ifs
    · exact .done (.refl tr n)
    · exact .go (.refl tr n) he
  | deviceRevocation deviceId ownerUser => exact .done (.refl tr n)

/-! Steps. -/

theorem Cluster.device_owner {id user : Text} (huser : user ≠ [])
    (h : (n.device id).map (·.ownerUser) = some user) : id ≠ [] ∧ n.records.owns id user := by
  obtain ⟨record,hrecord,howner⟩ := Option.map_eq_some_iff.mp h
  unfold device at hrecord
  split_ifs at hrecord with hblank
  refine ⟨?_,huser,record,(Option.filter_eq_some_iff.mp hrecord).1,howner⟩
  rintro rfl
  exact hblank rfl

theorem Cluster.Sound.readBrowser (h : n.Sound tr) (o : Outcome) {b : Nat} {browser : Browser}
    (hget : n.browsers[b]? = some browser) (message : BrowserMessage) {w : Work}
    (hw : (n.readBrowser o b browser message).2 = some w)
    (hsent : .browserSent b message ∈ tr) : w.Sound n tr := by
  obtain ⟨hne,huser⟩ := h.getUser hget
  cases message with
  | ping => cases hw
  | resume cursors =>
    cases cursors with
    | none => cases hw
    | some cursors =>
      cases hw
      exact ⟨⟨_,hsent⟩,trivial⟩
  | subscribe deviceId replace =>
    simp only [Cluster.readBrowser] at hw
    split_ifs at hw with howner
    cases hw
    obtain ⟨hid,howns⟩ := device_owner hne howner.2
    exact ⟨hid,browser.user,huser,howns⟩
  | gatewayProxy request =>
    simp only [Cluster.readBrowser] at hw
    split_ifs at hw with howner
    cases hw
    exact ⟨hsent,browser.user,huser,(device_owner hne howner.2).2⟩
  | unknown => cases hw

theorem Cluster.leads_newBrowser {browser : Browser} (h : browser.Sound n.records) :
    Leads tr n tr { n with browsers := n.browsers ++ [browser] } := by
  refine { Leads.refl tr n with
    extends_ := { Extends.refl n with browsers := ?_ }
    browsers := ?_
    accepted := fun _ hmem => .inl hmem
    tasks := fun _ hmem => .inl hmem
    messages := fun _ hmem => .inl hmem }
  · intro b old hget
    refine ⟨old,?_,rfl,rfl⟩
    dsimp only
    rw [List.getElem?_append_left (List.getElem?_eq_some_iff.mp hget).1]
    exact hget
  · intro other hmem
    rcases List.mem_append.mp hmem with hold | hnew
    · exact .inl hold
    · rw [List.mem_singleton.mp hnew]
      exact .inr h

theorem Cluster.leads_newSocket {s : Socket} (h : s.Sound n.records) :
    Leads tr n tr { n with sockets := n.sockets ++ [s] } := by
  refine { Leads.refl tr n with
    extends_ := { Extends.refl n with sockets := ?_ }
    devices := fun _ _ hget => .inl hget
    sockets := ?_
    accepted := fun _ hmem => .inl hmem
    tasks := fun _ hmem => .inl hmem
    messages := fun _ hmem => .inl hmem }
  · intro k old hget
    refine ⟨old,?_,rfl,rfl,fun _ => rfl,fun _ => rfl⟩
    dsimp only
    rw [List.getElem?_append_left (List.getElem?_eq_some_iff.mp hget).1]
    exact hget
  · intro k other hget
    rcases List.mem_append.mp (List.mem_of_getElem? hget) with hold | hnew
    · by_cases hk : k < n.sockets.length
      · dsimp only at hget
        rw [List.getElem?_append_left hk] at hget
        exact .inl hget
      · have hother : other = s := by
          dsimp only at hget
          rw [List.getElem?_append_right (by omega)] at hget
          exact List.mem_singleton.mp (List.mem_of_getElem? hget)
        rw [hother]
        exact .inr h
    · rw [List.mem_singleton.mp hnew]
      exact .inr h

theorem Cluster.Sound.removeBrowser (h : n.Sound tr) (b : Nat) : Leads tr n tr (n.removeBrowser b) := by
  have hbrowser : Leads tr n tr
      { n with browsers := n.browsers.modify b ({ · with connected := false }) } := by
    refine leads_browser (fun _ => ⟨rfl,rfl⟩) ?_
    intro browser hget
    have hs := h.browsers browser (List.mem_of_getElem? hget)
    exact ⟨hs.user,hs.subscriptions⟩
  unfold Cluster.removeBrowser
  refine hbrowser.trans (leads_pending ?_)
  intro key entry hget
  exact (OrdMap.get_filter.mp hget).1

theorem Cluster.Sound.readDevice (h : n.Sound tr) (c : Config) (o : Outcome) {k : Nat} {s : Socket}
    (hget : n.sockets[k]? = some s) (message : GatewayMessage) :
    Leads tr n (tr ++ (n.readDevice c o k s message).2) (n.readDevice c o k s message).1 := by
  have hended : Leads tr n tr (n.setStage k .ended) := h.setStage (by simp) (by simp [SocketStage.named])
  cases hstage : s.stage with
  | waiting =>
    cases message with
    | ping =>
      simp only [Cluster.readDevice,hstage]
      exact .append tr _ n
    | deviceHello hello secret =>
      simp only [Cluster.readDevice,hstage]
      exact (h.hello c o hget hstage hello secret).trans (.append tr [] _)
    | _ =>
      simp only [Cluster.readDevice,hstage]
      exact hended.trans (.append tr [] _)
  | ready =>
    have hne := (h.sockets k s hget).named (by rw [hstage]; rfl)
    obtain ⟨presence,heq⟩ := n.markDevicePresence_eq c s o
    have hmarked : Leads tr n tr (n.markDevicePresence c s o).2 := by
      rw [heq]
      exact leads_presence presence
    simp only [Cluster.readDevice,hstage]
    split_ifs
    · refine (hmarked.trans (.append tr _ _)).trans (leads_spawn _ ?_)
      intro w hw
      cases hw
      refine ⟨s.deviceId,?_,by simp⟩
      exact Cluster.IsDevice.extends ⟨hne,s,hget,rfl⟩ hmarked.extends_
    · refine (hmarked.trans ((h.leads hmarked).setStage ?_ ?_)).trans (.append tr [] _)
      · simp
      · simp [SocketStage.named]
  | _ =>
    simp only [Cluster.readDevice,hstage]
    exact .append tr [] n

theorem Cluster.Sound.step_leads (h : n.Sound tr) (c : Config) (o : Outcome) (input : ClusterInput) :
    Leads tr n (tr ++ (n.step c o input).2) (n.step c o input).1 := by
  have hstay : ∀ out, Leads tr n (tr ++ out) n := fun out => .append tr out n
  have hstored : ∀ {records : DeviceRecords}, DeviceRecords.Grows n.records records →
      Leads tr n tr (if o.done = true then { n with records := records } else n) := by
    intro records hg
    split_ifs
    · exact leads_records hg
    · exact .refl tr n
  cases input with
  | tick elapsed =>
    have hnow : Leads tr n tr { n with now := n.now+elapsed } :=
      leads_aside tr rfl rfl rfl rfl rfl rfl rfl rfl rfl rfl
    exact hnow.trans (.append tr [] _)
  | connectBrowser relay account =>
    simp only [Cluster.step]
    split_ifs with hrefused
    · exact hstay []
    · refine (leads_newBrowser ?_).trans (.append tr _ _)
      exact ⟨fun hnil => hrefused (.inl hnil),fun d hd => nomatch hd⟩
  | browserFrame b message =>
    simp only [Cluster.step]
    cases hget : n.browsers[b]? with
    | none => exact hstay []
    | some browser =>
      dsimp only
      split_ifs
      · exact hstay []
      · have happend := hstay (.browserSent b message :: (n.readBrowser o b browser message).1)
        refine happend.trans (leads_spawn _ ?_)
        intro w hw
        exact (h.leads happend).readBrowser o hget message hw (by simp)
  | closeBrowser b =>
    simp only [Cluster.step]
    split_ifs
    · exact hstay []
    · exact (h.removeBrowser b).trans (.append tr [] _)
  | connectDevice relay token =>
    simp only [Cluster.step]
    split_ifs
    · exact hstay []
    · refine (leads_newSocket ?_).trans (.append tr [] _)
      exact ⟨fun _ => rfl,fun hn => (nomatch hn),fun _ => rfl,fun hne => absurd rfl hne⟩
  | deviceFrame k message =>
    simp only [Cluster.step]
    cases hget : n.sockets[k]? with
    | none => exact hstay []
    | some s =>
      dsimp only
      split_ifs
      · exact hstay []
      · exact h.readDevice c o hget message
  | advance k =>
    simp only [Cluster.step]
    cases hget : n.sockets[k]? with
    | none => exact hstay []
    | some s =>
      dsimp only
      split_ifs
      · exact hstay []
      · exact (h.advance c o hget).trans (.append tr _ _)
  | closeDevice k =>
    simp only [Cluster.step]
    cases hget : n.sockets[k]? with
    | none => exact hstay []
    | some s =>
      dsimp only
      split_ifs
      · exact hstay []
      · refine (h.setStage ?_ ?_).trans (.append tr [] _)
        · simp
        · simp [SocketStage.named]
  | proceed i =>
    simp only [Cluster.step]
    cases htask : n.tasks[i]? with
    | none => exact hstay []
    | some task =>
      have herase : Leads tr n tr { n with tasks := n.tasks.eraseIdx i } :=
        leads_tasks (fun t ht => .inl (List.mem_of_mem_eraseIdx ht))
      have hwork := (h.tasks task (List.mem_of_getElem? htask)).extends herase.extends_ rfl
        herase.trace
      exact (herase.trans (((h.leads herase).perform c o hwork).by task.party)).trans (.append tr _ _)
  | fire entry =>
    simp only [Cluster.step]
    split_ifs
    · have hfired : Leads tr n tr { n with fired := entry :: n.fired } :=
        leads_aside tr rfl rfl rfl rfl rfl rfl rfl rfl rfl rfl
      refine (hfired.trans (leads_spawn _ ?_)).trans (.append tr [] _)
      intro w hw
      cases hw
      trivial
    · exact hstay []
  | deliver i =>
    simp only [Cluster.step]
    cases hmessage : n.messages[i]? with
    | none => exact hstay []
    | some m =>
      dsimp only
      split_ifs
      · exact hstay []
      · have herase : Leads tr n tr { n with messages := n.messages.eraseIdx i } :=
          leads_messages (fun t ht => .inl (List.mem_of_mem_eraseIdx ht))
        have henvelope := (h.messages m (List.mem_of_getElem? hmessage)).extends herase.extends_
          herase.trace
        exact (herase.trans (((h.leads herase).handleRedisMessage o m.relay henvelope).by
          (.consumer m.relay))).trans (.append tr _ _)
  | lose i =>
    exact (leads_messages (fun t ht => .inl (List.mem_of_mem_eraseIdx ht))).trans (.append tr [] _)
  | enroll account requested random secret =>
    simp only [Cluster.step]
    split
    · exact hstay []
    · rename_i records henroll
      exact (hstored (DeviceRecords.enrollDevice_grows henroll)).trans (.append tr [] _)
  | pair relay deviceId account =>
    simp only [Cluster.step]
    split
    · exact hstay []
    · rename_i records hpair
      obtain ⟨hgrows,howns⟩ := DeviceRecords.pairDevice_spec hpair
      refine ((hstored hgrows).trans (leads_spawn _ ?_)).trans (.append tr [] _)
      intro w hw
      split_ifs at hw with hok
      cases hw
      have hdone : o.done = true := by
        simp only [Outcome.ok,Bool.and_eq_true] at hok
        exact hok.1
      rw [if_pos hdone]
      exact howns
  | revoke account deviceId =>
    simp only [Cluster.step]
    split
    · exact hstay []
    · rename_i records hrevoke
      refine ((hstored (DeviceRecords.revokeDevice_spec hrevoke).1).trans (leads_spawn _ ?_)).trans
        (.append tr [] _)
      intro w hw
      split_ifs at hw
      cases hw
      trivial
  | retain sessionId eventSeq =>
    simp only [Cluster.step]
    cases hget : n.sessions.get sessionId with
    | none => exact hstay []
    | some session =>
      refine (leads_session ?_).trans (.append tr [] _)
      intro old hold
      rw [hget] at hold
      cases hold
      exact ⟨fun _ => rfl,List.prefix_refl _⟩

/-- The run lemma. -/
theorem cluster_sound (c : Config) {ok : List ClusterEvent → Cluster → ClusterInput × Outcome → Prop}
    (hrun : (cluster c).Run ok tr n) : n.Sound tr := by
  refine hrun.invariant (P := fun tr n => n.Sound tr) ?_ ?_
  · intro n hn
    obtain ⟨hbrowsers,hsockets,hdevices,haccepted,hpending,htasks,hmessages⟩ := hn
    exact ⟨by simp [hdevices],by simp [hsockets],by simp [hbrowsers],by simp [haccepted],
      by simp [hpending],by simp [htasks],by simp [hmessages]⟩
  · intro tr n input h _
    exact h.leads (h.step_leads c input.2 input.1)

end Segments

end CodeHarbor.Network
