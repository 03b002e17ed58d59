import CodeHarbor.Network.Soundness
set_option autoImplicit false

namespace CodeHarbor.Network
open Lib Lib.Go Lib.Base64 Relay

section Parts

variable {n n' : Cluster} {tr tr' : List ClusterEvent}

/-! What a step changes, part by part. -/

theorem Cluster.leads_tasks {tasks : List Task}
    (h : ∀ task ∈ tasks, task ∈ n.tasks ∨ task.work.Sound n tr) :
    Leads tr n tr { n with tasks := tasks } :=
  { Leads.refl tr n with
    extends_ := extends_of_eq rfl rfl rfl rfl rfl
    accepted := fun _ hmem => .inl hmem
    tasks := fun task hmem => (h task hmem).imp_right
      (fun hs => hs.extends (extends_of_eq rfl rfl rfl rfl rfl) rfl (fun _ he => he))
    messages := fun _ hmem => .inl hmem }

theorem Cluster.leads_messages {messages : List Message}
    (h : ∀ m ∈ messages, m ∈ n.messages ∨ m.envelope.Sound n tr) :
    Leads tr n tr { n with messages := messages } :=
  { Leads.refl tr n with
    extends_ := extends_of_eq rfl rfl rfl rfl rfl
    accepted := fun _ hmem => .inl hmem
    tasks := fun _ hmem => .inl hmem
    messages := fun m hmem => (h m hmem).imp_right
      (fun hs => hs.extends (extends_of_eq rfl rfl rfl rfl rfl) (fun _ he => he)) }

theorem Cluster.leads_devices {devices : OrdMap (Nat × Text) Nat}
    (h : ∀ place k, devices.get place = some k → n.devices.get place = some k ∨ n.Holds place k) :
    Leads tr n tr { n with devices := devices } :=
  { Leads.refl tr n with
    extends_ := extends_of_eq rfl rfl rfl rfl rfl
    devices := h
    accepted := fun _ hmem => .inl hmem
    tasks := fun _ hmem => .inl hmem
    messages := fun _ hmem => .inl hmem }

theorem Cluster.leads_pending {pending : OrdMap (Nat × Text) Nat} {stopped : List Nat}
    (h : ∀ key entry, pending.get key = some entry → n.pending.get key = some entry) :
    Leads tr n tr { n with pending := pending, stopped := stopped } :=
  { Leads.refl tr n with
    extends_ := extends_of_eq rfl rfl rfl rfl rfl
    accepted := fun _ hmem => .inl hmem
    pending := fun key entry hget => .inl (h key entry hget)
    tasks := fun _ hmem => .inl hmem
    messages := fun _ hmem => .inl hmem }

theorem Cluster.leads_records {records : DeviceRecords} (h : DeviceRecords.Grows n.records records) :
    Leads tr n tr { n with records := records } :=
  { Leads.refl tr n with
    extends_ := { Extends.refl n with records := h }
    sockets := fun _ _ hget => .inl hget
    browsers := fun _ hmem => .inl hmem
    accepted := fun _ hmem => .inl hmem
    tasks := fun _ hmem => .inl hmem
    messages := fun _ hmem => .inl hmem }

theorem Cluster.leads_session {id : Text} {session : StoredSession}
    (h : ∀ old, n.sessions.get id = some old →
      (old.ownerUser ≠ [] → session.ownerUser = old.ownerUser) ∧ old.events <+: session.events) :
    Leads tr n tr { n with sessions := n.sessions.set id session } := by
  refine { Leads.refl tr n with
    extends_ := { Extends.refl n with sessions := ?_ }
    accepted := fun _ hmem => .inl hmem
    tasks := fun _ hmem => .inl hmem
    messages := fun _ hmem => .inl hmem }
  intro i old hget
  dsimp only
  rw [OrdMap.get_set]
  split_ifs with hi
  · subst hi
    exact ⟨session,rfl,h old hget⟩
  · exact ⟨old,hget,fun _ => rfl,List.prefix_refl _⟩

theorem Cluster.leads_browser {b : Nat} {f : Browser → Browser}
    (huser : ∀ browser, (f browser).user = browser.user ∧ (f browser).relay = browser.relay)
    (h : ∀ browser, n.browsers[b]? = some browser → (f browser).Sound n.records) :
    Leads tr n tr { n with browsers := n.browsers.modify b f } := by
  refine { Leads.refl tr n with
    extends_ := { Extends.refl n with browsers := ?_ }
    browsers := ?_
    accepted := fun _ hmem => .inl hmem
    tasks := fun _ hmem => .inl hmem
    messages := fun _ hmem => .inl hmem }
  · intro i browser hget
    dsimp only
    rw [List.getElem?_modify,hget]
    by_cases hi : b = i
    · exact ⟨f browser,by simp [hi],huser browser⟩
    · exact ⟨browser,by simp [hi],rfl,rfl⟩
  · intro browser hmem
    obtain ⟨i,hget⟩ := List.mem_iff_getElem?.mp hmem
    dsimp only at hget
    rw [List.getElem?_modify] at hget
    obtain ⟨old,hold,heq⟩ := Option.map_eq_some_iff.mp hget
    by_cases hi : b = i
    · rw [if_pos hi] at heq
      rw [← heq]
      exact .inr (h old (hi ▸ hold))
    · rw [if_neg hi] at heq
      rw [← heq]
      exact .inl (List.mem_of_getElem? hold)

theorem Cluster.leads_socket {k : Nat} {f : Socket → Socket}
    (h : ∀ s, n.sockets[k]? = some s → (f s).relay = s.relay ∧
      (f s).presenceToken = s.presenceToken ∧ (s.deviceId ≠ [] → (f s).deviceId = s.deviceId) ∧
      (s.ownerUser ≠ [] → (f s).ownerUser = s.ownerUser) ∧ (f s).Sound n.records) :
    Leads tr n tr (n.modifySocket k f) := by
  refine { Leads.refl tr n with
    extends_ := { Extends.refl n with sockets := ?_ }
    devices := fun _ _ hget => .inl hget
    sockets := ?_
    accepted := fun _ hmem => .inl hmem
    tasks := fun _ hmem => .inl hmem
    messages := fun _ hmem => .inl hmem }
  · intro i s hget
    simp only [modifySocket,List.getElem?_modify,hget]
    by_cases hi : k = i
    · subst hi
      obtain ⟨hrelay,htoken,hdevice,howner,-⟩ := h s hget
      exact ⟨f s,by simp,hrelay,htoken,hdevice,howner⟩
    · exact ⟨s,by simp [hi],rfl,rfl,fun _ => rfl,fun _ => rfl⟩
  · intro i s hget
    simp only [modifySocket,List.getElem?_modify] at hget
    obtain ⟨old,hold,heq⟩ := Option.map_eq_some_iff.mp hget
    by_cases hi : k = i
    · rw [if_pos hi] at heq
      rw [← heq]
      exact .inr (h old (hi ▸ hold)).2.2.2.2
    · rw [if_neg hi] at heq
      rw [← heq]
      exact .inl hold

theorem Cluster.Sound.setStage (h : n.Sound tr) {k : Nat} {stage : SocketStage}
    (hwaiting : stage ≠ .waiting)
    (hnamed : stage.named = true → ∀ s, n.sockets[k]? = some s → s.deviceId ≠ []) :
    Leads tr n tr (n.setStage k stage) := by
  refine leads_socket ?_
  intro s hget
  have hs := h.sockets k s hget
  exact ⟨rfl,rfl,fun _ => rfl,fun _ => rfl,fun heq => absurd heq hwaiting,
    fun hn => hnamed hn s hget,hs.unbound,hs.bound⟩

theorem Cluster.leads_spawn (party : Party) {work : Option Work}
    (h : ∀ w, work = some w → w.Sound n tr) : Leads tr n tr (n.spawn party work) := by
  refine leads_tasks ?_
  intro task hmem
  rw [List.mem_append] at hmem
  rcases hmem with hold | hnew
  · exact .inl hold
  · obtain ⟨w,hw,rfl⟩ := List.mem_map.mp hnew
    exact .inr (h w (Option.mem_toList.mp hw))

theorem Cluster.leads_publish {envelope : Envelope} (h : envelope.Sound n tr) :
    Leads tr n tr (n.publish envelope) := by
  refine leads_messages ?_
  intro m hmem
  rw [List.mem_append] at hmem
  rcases hmem with hold | hnew
  · exact .inl hold
  · obtain ⟨relay,-,rfl⟩ := List.mem_map.mp hnew
    exact .inr h

theorem Cluster.leads_erase_pending (key : Nat × Text) :
    Leads tr n tr { n with pending := n.pending.erase key } := by
  refine leads_pending ?_
  intro key' entry hget
  rw [OrdMap.get_erase] at hget
  split_ifs at hget
  exact hget

theorem Cluster.leads_deletePending (entry : Nat) : Leads tr n tr (n.deletePending entry) := by
  unfold deletePending
  split
  · exact .refl tr n
  · exact leads_erase_pending _

theorem Cluster.leads_erase_device (place : Nat × Text) :
    Leads tr n tr { n with devices := n.devices.erase place } := by
  refine leads_devices ?_
  intro place' k hget
  rw [OrdMap.get_erase] at hget
  split_ifs at hget
  exact .inl hget

/-! Leases. -/

theorem Cluster.leads_presence (presence : OrdMap Text (Text × Time)) :
    Leads tr n tr { n with presence := presence } :=
  leads_aside tr rfl rfl rfl rfl rfl rfl rfl rfl rfl rfl

theorem Cluster.acquireDeviceLease_eq (s : Socket) (o : Outcome) :
    ∃ presence, (n.acquireDeviceLease s o).2 = { n with presence := presence } := by
  unfold acquireDeviceLease setPresence
  split_ifs <;> exact ⟨_,rfl⟩

theorem Cluster.clearDevicePresence_eq (s : Socket) (o : Outcome) :
    ∃ presence, n.clearDevicePresence s o = { n with presence := presence } := by
  unfold clearDevicePresence
  split_ifs <;> exact ⟨_,rfl⟩

theorem Cluster.markDevicePresence_eq (c : Config) (s : Socket) (o : Outcome) :
    ∃ presence, (n.markDevicePresence c s o).2 = { n with presence := presence } := by
  unfold markDevicePresence setPresence
  split_ifs <;> exact ⟨_,rfl⟩

theorem Cluster.bindLease_eq (o : Outcome) (s : Socket) (oldOwner ownerUser : Text) :
    ∃ presence, (n.bindLease o s oldOwner ownerUser).2 = { n with presence := presence } := by
  unfold bindLease setPresence
  dsimp only
  split_ifs <;> exact ⟨_,rfl⟩

theorem Cluster.Sound.setStage_presence (h : n.Sound tr) {k : Nat} {s : Socket}
    (hget : n.sockets[k]? = some s) (hs : s.deviceId ≠ []) {stage : SocketStage}
    (hwaiting : stage ≠ .waiting) (hcall : ∃ presence, n' = { n with presence := presence }) :
    Leads tr n tr (n'.setStage k stage) := by
  obtain ⟨presence,rfl⟩ := hcall
  have hlead : Leads tr n tr { n with presence := presence } := leads_presence presence
  refine hlead.trans ((h.leads hlead).setStage hwaiting ?_)
  intro _ s' hget'
  have heq : some s = some s' := hget.symm.trans hget'
  cases heq
  exact hs

/-! Device sockets. -/

theorem Cluster.Sound.hello (h : n.Sound tr) (c : Config) (o : Outcome) {k : Nat} {s : Socket}
    (hget : n.sockets[k]? = some s) (hstage : s.stage = .waiting) (hello : Hello) (secret : Text) :
    Leads tr n tr (n.hello c o k hello secret) := by
  have hended : ∀ {m : Cluster}, m.Sound tr → Leads tr m tr (m.setStage k .ended) :=
    fun hm => hm.setStage (by simp) (by simp [SocketStage.named])
  unfold Cluster.hello
  dsimp only
  cases hresolve : Instance.resolve c { records := n.records, legacyToken := n.legacyToken } hello
      secret with
  | none => exact hended h
  | some found =>
    obtain ⟨deviceId,record,records⟩ := found
    obtain ⟨hgrows,-,howner⟩ := Instance.resolve_spec hresolve
    have hrecords : Leads tr n tr { n with records := records } := leads_records hgrows
    dsimp only
    cases hdone : o.done with
    | false =>
      have hok : o.ok = false := by simp [Outcome.ok,hdone]
      rw [if_neg (by simp [hok]),if_neg (by simp)]
      exact hended h
    | true =>
      rw [if_pos rfl]
      split_ifs with hne
      · refine hrecords.trans (leads_socket ?_)
        intro s' hget'
        have heq : some s = some s' := hget.symm.trans hget'
        cases heq
        have hs := h.sockets k s hget
        have hdevice := hs.waiting hstage
        have hunbound := hs.unbound hdevice
        refine ⟨rfl,rfl,fun hn => absurd hdevice hn,fun hn => absurd hunbound hn,?_⟩
        refine ⟨fun hw => (nomatch hw),fun _ => hne.2,fun hnil => absurd hnil hne.2,?_⟩
        intro hn
        exact howner.resolve_left hn
      · exact hrecords.trans (hended (h.leads hrecords))

theorem Cluster.leads_removeSocket (o : Outcome) (k : Nat) (s : Socket) :
    Leads tr n tr (n.removeSocket o k s).1 := by
  unfold removeSocket
  dsimp only
  split_ifs
  · have hdevices : Leads tr n tr { n with devices := n.devices.erase (s.relay,s.deviceId) } :=
      leads_erase_device _
    refine hdevices.trans (leads_pending ?_)
    intro key entry hget
    exact (OrdMap.get_filter.mp hget).1
  · exact .refl tr n

theorem Cluster.Sound.advance (h : n.Sound tr) (c : Config) (o : Outcome) {k : Nat} {s : Socket}
    (hget : n.sockets[k]? = some s) : Leads tr n tr (n.advance c o k s).1 := by
  have hs := h.sockets k s hget
  have hnamed : s.stage.named = true → ∀ s', n.sockets[k]? = some s' → s'.deviceId ≠ [] := by
    intro hn s' hget'
    have heq : some s = some s' := hget.symm.trans hget'
    cases heq
    exact hs.named hn
  unfold Cluster.advance
  cases hstage : s.stage with
  | authenticated => exact h.setStage (by simp) (fun _ => hnamed (by rw [hstage]; rfl))
  | replacing previous =>
    refine h.setStage_presence hget (hs.named (by rw [hstage]; rfl)) (by simp) ?_
    split
    · exact ⟨n.presence,rfl⟩
    · exact clearDevicePresence_eq _ o
  | replaced =>
    refine h.setStage_presence hget (hs.named (by rw [hstage]; rfl)) ?_ (acquireDeviceLease_eq s o)
    split_ifs <;> simp
  | leased =>
    have hne := hs.named (by rw [hstage]; rfl)
    have hdevices : Leads tr n tr { n with devices := n.devices.set (s.relay,s.deviceId) k } := by
      refine leads_devices ?_
      intro place j hplace
      rw [OrdMap.get_set] at hplace
      split_ifs at hplace with hsame
      · cases hplace
        subst hsame
        exact .inr ⟨hne,s,hget,rfl,rfl⟩
      · exact .inl hplace
    exact hdevices.trans
      ((h.leads hdevices).setStage (by simp) (fun _ => hnamed (by rw [hstage]; rfl)))
  | registered => exact h.setStage (by simp) (fun _ => hnamed (by rw [hstage]; rfl))
  | announced =>
    refine h.setStage_presence hget (hs.named (by rw [hstage]; rfl)) ?_ (markDevicePresence_eq c s o)
    split_ifs <;> simp
  | ended =>
    obtain ⟨presence,heq⟩ := n.clearDevicePresence_eq s o
    have hlead : Leads tr n tr { n with presence := presence } := leads_presence presence
    dsimp only
    rw [heq]
    exact hlead.trans ((h.leads hlead).setStage (by simp) (by simp [SocketStage.named]))
  | cleared =>
    have hlead : Leads tr n tr (n.removeSocket o k s).1 := leads_removeSocket o k s
    exact hlead.trans ((h.leads hlead).setStage (by simp) (by simp [SocketStage.named]))
  | _ => exact .refl tr n

/-! Sessions. -/

theorem Cluster.leads_appendOwnedEvent {sessionId ownerUser : Text} {event : Payload} {seq : Nat}
    (h : n.appendOwnedEvent sessionId ownerUser event = some (seq,n')) : Leads tr n tr n' := by
  unfold appendOwnedEvent at h
  dsimp only at h
  rw [Option.ite_none_left_eq_some] at h
  obtain ⟨-,h⟩ := h
  cases h
  refine leads_session ?_
  intro old hold
  rw [hold]
  refine ⟨?_,List.prefix_append _ _⟩
  intro hne
  exact if_neg (fun hnil => hne hnil.2)

theorem Cluster.leads_syncSession (ownerUser deviceId : Text) (session : Text × Bool) :
    Leads tr n tr (n.syncSession ownerUser deviceId session) := by
  unfold syncSession
  dsimp only
  split_ifs with howned
  · refine leads_session ?_
    intro old hold
    rw [hold] at howned ⊢
    refine ⟨?_,List.prefix_refl _⟩
    intro hne
    have hsame : old.ownerUser = ownerUser := by
      simp only [Option.getD_some,hne,decide_false,Bool.false_or,Bool.and_eq_true,
        decide_eq_true_eq] at howned
      exact howned.1.1
    exact hsame.symm
  · exact .refl tr n

theorem Cluster.leads_syncSessions (ownerUser deviceId : Text) (sessions : List (Text × Bool)) :
    Leads tr n tr (n.syncSessions ownerUser deviceId sessions) := by
  unfold syncSessions
  split_ifs
  · exact .refl tr n
  · induction sessions generalizing n with
    | nil => exact .refl tr n
    | cons session rest ih => exact (leads_syncSession ownerUser deviceId session).trans ih

theorem Cluster.listed_logged {sessionId user : Text} {after : Int} {limit : Nat}
    {events : List (Payload × Nat)} (h : n.listEventsForUserLimited sessionId user after limit = some events)
    {e : Payload × Nat} (he : e ∈ events) : user ≠ [] ∧ n.Logged sessionId user e.2 e.1 := by
  unfold listEventsForUserLimited at h
  cases hget : n.sessions.get sessionId with
  | none =>
    simp only [hget] at h
    split_ifs at h
    cases h
    cases he
  | some session =>
    simp only [hget] at h
    split_ifs at h with huser howner
    · cases h
      cases he
    · cases h
      have hmem := List.mem_zipIdx (List.mem_of_mem_filter (List.mem_of_mem_filter (List.mem_of_mem_take he)))
      refine ⟨huser,session,hget,not_not.mp howner,by omega,?_⟩
      rw [List.getElem?_eq_some_iff]
      exact ⟨by omega,hmem.2.2.symm⟩

end Parts

end CodeHarbor.Network
