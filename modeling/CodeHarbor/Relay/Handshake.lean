import CodeHarbor.Relay.Instance
set_option autoImplicit false

namespace CodeHarbor.Relay
open Lib Lib.Go Lib.Base64

/-! What the segments of an instance do to its sockets and its device map. -/

section Sockets

/-- What a party may do to a socket once its device is fixed. -/
structure DeviceSocket.Becomes (records : DeviceRecords) (s s' : DeviceSocket) : Prop where
  deviceId : s'.deviceId = s.deviceId
  stopped : s.stopped = true → s'.stopped = true
  waiting : s'.stage = .waiting → s.stage = .waiting
  underway : s'.stage.underway = true → s.stage.underway = true
  owner : s'.ownerUser = s.ownerUser ∨ records.owns s'.deviceId s'.ownerUser

/-- A socket whose owner, if it has one, owns its device. -/
def DeviceSocket.Bound (records : DeviceRecords) (s : DeviceSocket) : Prop :=
  s.ownerUser = [] ∨ records.owns s.deviceId s.ownerUser

/-- A segment that neither authenticates a socket nor enters one into the device map. -/
structure Instance.Follows (r r' : Instance) : Prop where
  records : DeviceRecords.Grows r.records r'.records
  kept : ∀ (k : Nat) (s : DeviceSocket), r.sockets[k]? = some s →
    ∃ s', r'.sockets[k]? = some s' ∧ s.Becomes r'.records s'
  fresh : ∀ (k : Nat) (s' : DeviceSocket), r'.sockets[k]? = some s' → r.sockets[k]? = none →
    s'.Bound r'.records ∧ s'.stage.underway = false
  devices : ∀ deviceId k, r'.devices.get deviceId = some k → r.devices.get deviceId = some k

variable {r r' r'' : Instance} {records later : DeviceRecords}

theorem DeviceSocket.Becomes.refl (s : DeviceSocket) : s.Becomes records s :=
  ⟨rfl,fun h => h,fun h => h,fun h => h,.inl rfl⟩

theorem DeviceSocket.Becomes.trans {s s' s'' : DeviceSocket} (h : s.Becomes records s')
    (hg : records.Grows later) (h' : s'.Becomes later s'') : s.Becomes later s'' where
  deviceId := h'.deviceId.trans h.deviceId
  stopped hs := h'.stopped (h.stopped hs)
  waiting hs := h.waiting (h'.waiting hs)
  underway hs := h.underway (h'.underway hs)
  owner := by
    rcases h'.owner with hsame | howns
    · rcases h.owner with hsame' | howns
      · exact .inl (hsame.trans hsame')
      · right
        rw [hsame,h'.deviceId]
        exact howns.grows hg
    · exact .inr howns

theorem DeviceSocket.Bound.becomes {s s' : DeviceSocket} (h : s.Bound records)
    (hg : records.Grows later) (hb : s.Becomes later s') : s'.Bound later := by
  rcases hb.owner with hsame | howns
  · rcases h with hnil | howns
    · exact .inl (hsame.trans hnil)
    · right
      rw [hsame,hb.deviceId]
      exact howns.grows hg
  · exact .inr howns

theorem Instance.Follows.trans (h : r.Follows r') (h' : r'.Follows r'') : r.Follows r'' where
  records := h.records.trans h'.records
  kept k s hs := by
    obtain ⟨s',hs',hb⟩ := h.kept k s hs
    obtain ⟨s'',hs'',hb'⟩ := h'.kept k s' hs'
    exact ⟨s'',hs'',hb.trans h'.records hb'⟩
  fresh k s'' hs'' hs := by
    cases hs' : r'.sockets[k]? with
    | none => exact h'.fresh k s'' hs'' hs'
    | some s' =>
      obtain ⟨hbound,hstage⟩ := h.fresh k s' hs' hs
      obtain ⟨t,ht,hb⟩ := h'.kept k s' hs'
      rw [hs''] at ht
      cases ht
      refine ⟨hbound.becomes h'.records hb,?_⟩
      by_contra hunder
      have := hb.underway (by simpa using hunder)
      simp [hstage] at this
  devices deviceId k hk := h.devices deviceId k (h'.devices deviceId k hk)

theorem Instance.Follows.of_sockets (hr : DeviceRecords.Grows r.records r'.records)
    (hs : r'.sockets = r.sockets)
    (hd : ∀ deviceId k, r'.devices.get deviceId = some k → r.devices.get deviceId = some k) :
    r.Follows r' where
  records := hr
  kept k s hk := ⟨s,by rw [hs,hk],.refl s⟩
  fresh k s hk hn := by
    rw [hs,hn] at hk
    cases hk
  devices := hd

theorem Instance.Follows.refl (r : Instance) : r.Follows r :=
  .of_sockets (.refl _) rfl (fun _ _ h => h)

theorem Instance.modifySocket_follows {k : Nat} {f : DeviceSocket → DeviceSocket}
    (h : ∀ s, r.sockets[k]? = some s → s.Becomes r.records (f s)) : r.Follows (r.modifySocket k f) where
  records := .refl _
  kept j s hs := by
    simp only [modifySocket,List.getElem?_modify]
    by_cases hj : k = j
    · subst hj
      exact ⟨f s,by simp [hs],h s hs⟩
    · exact ⟨s,by simp [hj,hs],.refl s⟩
  fresh j s hs hn := by
    simp [modifySocket,List.getElem?_modify,hn] at hs
  devices _ _ hk := hk

theorem Instance.stop_follows (r : Instance) (k : Nat) : r.Follows (r.stop k) :=
  modifySocket_follows (fun _ _ => ⟨rfl,fun _ => rfl,fun h => h,fun h => h,.inl rfl⟩)

theorem Instance.stopPrevious_follows (r : Instance) (k : Nat) (previous : Option Nat) :
    r.Follows (r.stopPrevious k previous) := by
  cases previous with
  | none => exact .refl r
  | some j =>
    simp only [stopPrevious]
    split_ifs
    · exact .refl r
    · exact r.stop_follows j

theorem Instance.setStage_follows {k : Nat} {stage : HelloStage} (hw : stage ≠ .waiting)
    (h : ∀ s, r.sockets[k]? = some s → stage.underway = true → s.stage.underway = true) :
    r.Follows (r.setStage k stage) :=
  modifySocket_follows (fun s hs => ⟨rfl,fun h => h,fun hstage => absurd hstage hw,h s hs,.inl rfl⟩)

theorem Instance.dropStale_follows (r : Instance) (deviceId : Text) (k : Nat) :
    r.Follows (r.dropStale deviceId k) := by
  unfold dropStale
  refine Follows.trans ?_ (stop_follows _ k)
  refine .of_sockets (.refl _) rfl ?_
  intro id j hj
  dsimp only at hj
  split_ifs at hj with hk
  · rw [OrdMap.get_erase] at hj
    split_ifs at hj
    exact hj
  · exact hj

theorem Instance.remove_follows (r : Instance) (k : Nat) : r.Follows (r.remove k) := by
  unfold remove
  cases hs : r.sockets[k]? with
  | none => exact .refl r
  | some s =>
    refine (r.dropStale_follows s.deviceId k).trans (setStage_follows (by simp) ?_)
    simp [HelloStage.underway]

end Sockets

section Soundness

/-- The device map leads from the id to a socket that is not stopped. -/
def Instance.live (r : Instance) (deviceId : Text) (k : Nat) : Prop :=
  r.devices.get deviceId = some k ∧ ∃ s, r.sockets[k]? = some s ∧ s.stopped = false

theorem Instance.running_eq_false {r : Instance} {deviceId : Text} :
    r.running deviceId = false ↔ ∀ k, ¬ r.live deviceId k := by
  unfold running live
  cases hget : r.devices.get deviceId with
  | none => simp
  | some k =>
    cases hs : r.sockets[k]? with
    | none => simp [hs]
    | some s => simp [hs]

/-- The socket has been authenticated for the device, now or before. -/
def Instance.identified (r : Instance) (k : Nat) (deviceId : Text) : Prop :=
  ∃ s, r.sockets[k]? = some s ∧ s.deviceId = deviceId ∧ s.stage ≠ .waiting

/-- Sockets, pairings and accepted revocations agree with the stored devices on owners. -/
structure Instance.Sound (r : Instance) : Prop where
  bound : ∀ (k : Nat) (s : DeviceSocket), r.sockets[k]? = some s → s.Bound r.records
  mapped : ∀ deviceId k, r.devices.get deviceId = some k → r.identified k deviceId
  paired : ∀ p ∈ r.paired, r.records.owns p.1 p.2.user
  bindings : ∀ b ∈ r.bindings, ∃ deviceId, r.identified b.1 deviceId ∧
    r.records.owns deviceId b.2.user
  calls : ∀ call ∈ r.calls, ∃ deviceId, normalizeDeviceId call.deviceId = some deviceId ∧
    r.records.owns deviceId call.account.user ∧ r.records.revokes deviceId

variable {r r' : Instance}

theorem Instance.Follows.identified (hf : r.Follows r') {k : Nat} {deviceId : Text}
    (h : r.identified k deviceId) : r'.identified k deviceId := by
  obtain ⟨s,hs,hid,hstage⟩ := h
  obtain ⟨s',hs',hb⟩ := hf.kept k s hs
  exact ⟨s',hs',hb.deviceId.trans hid,fun hw => hstage (hb.waiting hw)⟩

theorem Instance.Follows.live (hf : r.Follows r') (h : r.Sound) {deviceId : Text} {k : Nat}
    (hl : r'.live deviceId k) : r.live deviceId k := by
  obtain ⟨hget,s',hs',hrunning⟩ := hl
  have hget' := hf.devices deviceId k hget
  obtain ⟨s,hs,-⟩ := h.mapped deviceId k hget'
  obtain ⟨t,ht,hb⟩ := hf.kept k s hs
  rw [hs'] at ht
  cases ht
  refine ⟨hget',s,hs,?_⟩
  by_contra hstopped
  have := hb.stopped (by simpa using hstopped)
  simp [hrunning] at this

theorem Instance.Sound.follows (h : r.Sound) (hf : r.Follows r')
    (hp : ∀ p ∈ r'.paired, p ∈ r.paired ∨ r'.records.owns p.1 p.2.user)
    (hb : ∀ b ∈ r'.bindings, b ∈ r.bindings ∨
      ∃ deviceId, r.identified b.1 deviceId ∧ r.records.owns deviceId b.2.user)
    (hc : ∀ call ∈ r'.calls, (∃ old ∈ r.calls, old.deviceId = call.deviceId ∧
        old.account = call.account) ∨
      ∃ deviceId, normalizeDeviceId call.deviceId = some deviceId ∧
        r'.records.owns deviceId call.account.user ∧ r'.records.revokes deviceId) : r'.Sound where
  bound k s' hs' := by
    cases hs : r.sockets[k]? with
    | none => exact (hf.fresh k s' hs' hs).1
    | some s =>
      obtain ⟨t,ht,hbecomes⟩ := hf.kept k s hs
      rw [hs'] at ht
      cases ht
      exact (h.bound k s hs).becomes hf.records hbecomes
  mapped deviceId k hk := hf.identified (h.mapped deviceId k (hf.devices deviceId k hk))
  paired p hmem := by
    rcases hp p hmem with hold | hnew
    · exact (h.paired p hold).grows hf.records
    · exact hnew
  bindings b hmem := by
    rcases hb b hmem with hold | ⟨deviceId,hid,howns⟩
    · obtain ⟨deviceId,hid,howns⟩ := h.bindings b hold
      exact ⟨deviceId,hf.identified hid,howns.grows hf.records⟩
    · exact ⟨deviceId,hf.identified hid,howns.grows hf.records⟩
  calls call hmem := by
    rcases hc call hmem with ⟨old,hold,hid,haccount⟩ | hnew
    · obtain ⟨deviceId,hnorm,howns,hrevokes⟩ := h.calls old hold
      refine ⟨deviceId,?_,?_,hrevokes.grows hf.records⟩
      · rw [← hid,hnorm]
      · rw [← haccount]
        exact howns.grows hf.records
    · exact hnew

def Instance.pending (r : Instance) :
    List (Text × Account) × List (Nat × Account) × List RevokeCall :=
  (r.paired,r.bindings,r.calls)

theorem Instance.Sound.follows_same (h : r.Sound) (hf : r.Follows r')
    (hp : r'.pending = r.pending) : r'.Sound := by
  simp only [pending,Prod.mk.injEq] at hp
  apply h.follows hf
  · intro p hmem
    rw [hp.1] at hmem
    exact .inl hmem
  · intro b hmem
    rw [hp.2.1] at hmem
    exact .inl hmem
  · intro call hmem
    rw [hp.2.2] at hmem
    exact .inl ⟨call,hmem,rfl,rfl⟩

theorem Instance.calls_of_pending (h : r'.pending = r.pending) : r'.calls = r.calls := by
  simp only [pending,Prod.mk.injEq] at h
  exact h.2.2

@[simp] theorem Instance.pending_stop (k : Nat) : (r.stop k).pending = r.pending := rfl

@[simp] theorem Instance.pending_setStage (k : Nat) (stage : HelloStage) :
    (r.setStage k stage).pending = r.pending := rfl

@[simp] theorem Instance.pending_stopPrevious (k : Nat) (previous : Option Nat) :
    (r.stopPrevious k previous).pending = r.pending := by
  cases previous with
  | none => rfl
  | some j =>
    simp only [stopPrevious]
    split_ifs <;> rfl

@[simp] theorem Instance.pending_remove (k : Nat) : (r.remove k).pending = r.pending := by
  unfold remove
  cases r.sockets[k]? with
  | none => rfl
  | some s => rfl

end Soundness

section Steps

variable {r r' : Instance}

theorem Instance.stopPrevious_self (k : Nat) (previous : Option Nat) :
    (r.stopPrevious k previous).sockets[k]? = r.sockets[k]? := by
  cases previous with
  | none => rfl
  | some j =>
    simp only [stopPrevious]
    split_ifs with hj
    · rfl
    · simp [stop,modifySocket,hj]

theorem Instance.advance_follows {k : Nat} {leaseUp : Bool}
    (h : ∀ s, r.sockets[k]? = some s → s.stage ≠ .leased) :
    r.Follows (r.advance k leaseUp) ∧ (r.advance k leaseUp).pending = r.pending := by
  unfold advance
  cases hs : r.sockets[k]? with
  | none => exact ⟨.refl r,rfl⟩
  | some s =>
    have hsame : ∀ t, r.sockets[k]? = some t → t = s := by
      intro t ht
      rw [hs] at ht
      exact (Option.some.inj ht).symm
    dsimp only
    cases hstage : s.stage with
    | authenticated =>
      refine ⟨setStage_follows (by simp) ?_,rfl⟩
      intro t ht _
      rw [hsame t ht,hstage]
      rfl
    | replacing previous =>
      refine ⟨(stopPrevious_follows r k previous).trans (setStage_follows (by simp) ?_),by simp⟩
      intro t ht _
      rw [stopPrevious_self] at ht
      rw [hsame t ht,hstage]
      rfl
    | replaced =>
      cases leaseUp with
      | true =>
        refine ⟨setStage_follows (by simp) ?_,rfl⟩
        intro t ht _
        rw [hsame t ht,hstage]
        rfl
      | false => exact ⟨(r.stop_follows k).trans (remove_follows _ k),by simp⟩
    | leased => exact absurd hstage (h s hs)
    | registered previous =>
      refine ⟨(stopPrevious_follows r k previous).trans (setStage_follows (by simp) ?_),by simp⟩
      simp [HelloStage.underway]
    | waiting => exact ⟨.refl r,rfl⟩
    | ready => exact ⟨.refl r,rfl⟩
    | closed => exact ⟨.refl r,rfl⟩

theorem Instance.connect_follows (r : Instance) : r.Follows { r with sockets := r.sockets ++ [{}] } where
  records := .refl _
  kept k s hs := by
    have hlt := (List.getElem?_eq_some_iff.mp hs).1
    exact ⟨s,by simp [List.getElem?_append_left hlt,hs],.refl s⟩
  fresh k s hs hn := by
    have hle := List.getElem?_eq_none_iff.mp hn
    simp only [List.getElem?_append_right hle,List.getElem?_singleton] at hs
    split_ifs at hs
    cases hs
    exact ⟨.inl rfl,rfl⟩
  devices _ _ hk := hk

theorem Instance.bindStart_follows (r : Instance) (n : Nat) : r.Follows (r.bindStart n) := by
  unfold bindStart
  repeat' split
  · exact .refl r
  · exact .refl r
  · exact .refl r
  · exact r.stop_follows _
  · exact .of_sockets (.refl _) rfl (fun _ _ h => h)

theorem Instance.calls_bindStart (n : Nat) : (r.bindStart n).calls = r.calls := by
  unfold bindStart
  repeat' split
  all_goals rfl

theorem Instance.bindStart_sound (h : r.Sound) (n : Nat) : (r.bindStart n).Sound := by
  apply h.follows (r.bindStart_follows n)
  · intro p hmem
    left
    unfold bindStart at hmem
    repeat' split at hmem
    all_goals exact hmem
  · intro b hmem
    unfold bindStart at hmem
    cases hp : r.paired[n]? with
    | none =>
      simp only [hp] at hmem
      exact .inl hmem
    | some p =>
      obtain ⟨deviceId,account⟩ := p
      simp only [hp] at hmem
      cases hk : r.devices.get deviceId with
      | none =>
        simp only [hk] at hmem
        exact .inl hmem
      | some k =>
        simp only [hk] at hmem
        cases hs : r.sockets[k]? with
        | none =>
          simp only [hs] at hmem
          exact .inl hmem
        | some s =>
          simp only [hs] at hmem
          split_ifs at hmem
          · exact .inl hmem
          · rw [List.mem_append,List.mem_singleton] at hmem
            rcases hmem with hmem | rfl
            · exact .inl hmem
            · right
              exact ⟨deviceId,h.mapped deviceId k hk,
                h.paired _ (List.mem_of_getElem? hp)⟩
  · intro call hmem
    rw [calls_bindStart] at hmem
    exact .inl ⟨call,hmem,rfl,rfl⟩

theorem Instance.bindEnd_follows (h : r.Sound) (n : Nat) (leaseUp : Bool) :
    r.Follows (r.bindEnd n leaseUp) := by
  unfold bindEnd
  cases hb : r.bindings[n]? with
  | none => exact .refl r
  | some b =>
    obtain ⟨k,account⟩ := b
    dsimp only
    split_ifs
    · apply modifySocket_follows
      intro s hs
      obtain ⟨deviceId,⟨t,ht,hid,-⟩,howns⟩ := h.bindings _ (List.mem_of_getElem? hb)
      rw [hs] at ht
      cases ht
      exact ⟨rfl,fun h => h,fun h => h,fun h => h,.inr (hid ▸ howns)⟩
    · exact r.stop_follows k

theorem Instance.pending_bindEnd (n : Nat) (leaseUp : Bool) :
    (r.bindEnd n leaseUp).pending = r.pending := by
  unfold bindEnd
  cases r.bindings[n]? with
  | none => rfl
  | some b => cases leaseUp <;> rfl

theorem Instance.revoke_spec (r : Instance) (path : Text) (account : Account) (storageUp : Bool) :
    r.revoke path account storageUp = r ∨
    ∃ deviceId id records, r.revoke path account storageUp =
        { r with
          records := records
          calls := r.calls ++ [{ deviceId := deviceId, account := account }] } ∧
      r.records.Grows records ∧ normalizeDeviceId deviceId = some id ∧
      records.owns id account.user ∧ records.revokes id := by
  unfold revoke
  cases cutSuffix (trimPrefix path devicesPath) revokeSuffix with
  | none => exact .inl rfl
  | some deviceId =>
    cases storageUp with
    | false => exact .inl rfl
    | true =>
      cases hstore : r.records.revokeDevice account deviceId with
      | none =>
        left
        simp [hstore]
      | some records =>
        right
        obtain ⟨hgrows,id,hid,howns,hrevokes⟩ := DeviceRecords.revokeDevice_spec hstore
        exact ⟨deviceId,id,records,by simp [hstore],hgrows,hid,howns,hrevokes⟩

theorem Instance.resolve_spec {c : Config} {hello : Hello} {secret deviceId : Text}
    {record : DeviceRecord} {records : DeviceRecords}
    (h : r.resolve c hello secret = some (deviceId,record,records)) :
    r.records.Grows records ∧ ¬ r.records.revokes deviceId ∧
      (record.ownerUser = [] ∨ records.owns deviceId record.ownerUser) := by
  unfold resolve at h
  split_ifs at h with htoken hlegacy
  · obtain ⟨found,hfound,heq⟩ := Option.map_eq_some_iff.mp h
    cases heq
    obtain ⟨hrevokes,hget⟩ := DeviceRecords.authenticateDevice_spec hfound
    refine ⟨.refl _,hrevokes,?_⟩
    by_cases hne : record.ownerUser = []
    · exact .inl hne
    · exact .inr ⟨hne,record,hget,rfl⟩
  · obtain ⟨hgrows,hrevokes,hnil⟩ := DeviceRecords.registerLegacyDevice_spec h
    exact ⟨hgrows,hrevokes,.inl hnil⟩

def Instance.welcome (r : Instance) (k : Nat) (deviceId : Text) (record : DeviceRecord)
    (records : DeviceRecords) : Instance :=
  { r with records := records }.modifySocket k
    (fun s => { s with
      deviceId := deviceId
      ownerUser := record.ownerUser
      stage := .authenticated })

theorem Instance.hello_spec (c : Config) (r : Instance) (k : Nat) (hello : Hello) (secret : Text)
    (storageUp : Bool) :
    (r.Follows (r.hello c k hello secret storageUp).1 ∧
      (r.hello c k hello secret storageUp).1.pending = r.pending ∧
      (r.hello c k hello secret storageUp).2 = []) ∨
    ∃ s deviceId record records, r.sockets[k]? = some s ∧ s.stage = .waiting ∧
      r.hello c k hello secret storageUp =
        (r.welcome k deviceId record records,[.authenticated k deviceId]) ∧
      r.records.Grows records ∧ ¬ r.records.revokes deviceId ∧
      (record.ownerUser = [] ∨ records.owns deviceId record.ownerUser) := by
  have hclose : r.Follows ((r.stop k).remove k) := (r.stop_follows k).trans (remove_follows _ k)
  unfold Instance.hello
  cases hs : r.sockets[k]? with
  | none => exact .inl ⟨.refl r,rfl,rfl⟩
  | some s =>
    by_cases hstage : s.stage = .waiting
    · cases storageUp with
      | false =>
        left
        simp [hstage,hclose]
      | true =>
        cases hresolve : r.resolve c hello secret with
        | none =>
          left
          simp [hstage,hclose]
        | some found =>
          obtain ⟨deviceId,record,records⟩ := found
          right
          obtain ⟨hgrows,hrevokes,howner⟩ := resolve_spec hresolve
          exact ⟨s,deviceId,record,records,rfl,hstage,by simp [hstage,welcome],hgrows,hrevokes,howner⟩
    · left
      simp [hstage,Follows.refl]

theorem Instance.welcome_sockets (k : Nat) (deviceId : Text) (record : DeviceRecord)
    (records : DeviceRecords) {j : Nat} {s' : DeviceSocket}
    (h : (r.welcome k deviceId record records).sockets[j]? = some s') :
    (j = k ∧ s'.deviceId = deviceId ∧ s'.ownerUser = record.ownerUser) ∨
      (j ≠ k ∧ r.sockets[j]? = some s') := by
  simp only [welcome,modifySocket,List.getElem?_modify] at h
  by_cases hj : k = j
  · subst hj
    cases hs : r.sockets[k]? with
    | none => simp [hs] at h
    | some s =>
      simp only [hs,if_true,Option.map_eq_map,Option.map_some,Option.some.injEq] at h
      subst h
      exact .inl ⟨rfl,rfl,rfl⟩
  · right
    refine ⟨fun heq => hj heq.symm,?_⟩
    simpa [hj] using h

theorem Instance.welcome_identified {k : Nat} {s : DeviceSocket} (hs : r.sockets[k]? = some s)
    (hstage : s.stage = .waiting) (deviceId : Text) (record : DeviceRecord)
    (records : DeviceRecords) {j : Nat} {id : Text} (h : r.identified j id) :
    (r.welcome k deviceId record records).identified j id := by
  obtain ⟨t,ht,hid,hne⟩ := h
  refine ⟨t,?_,hid,hne⟩
  have hj : k ≠ j := by
    rintro rfl
    rw [hs] at ht
    cases ht
    exact hne hstage
  simp [welcome,modifySocket,hj,ht]

theorem Instance.welcome_sound (h : r.Sound) {k : Nat} {s : DeviceSocket}
    (hs : r.sockets[k]? = some s) (hstage : s.stage = .waiting) {deviceId : Text}
    {record : DeviceRecord} {records : DeviceRecords} (hg : r.records.Grows records)
    (howner : record.ownerUser = [] ∨ records.owns deviceId record.ownerUser) :
    (r.welcome k deviceId record records).Sound where
  bound j s' hs' := by
    rcases welcome_sockets k deviceId record records hs' with ⟨-,hid,howner'⟩ | ⟨-,hold⟩
    · unfold DeviceSocket.Bound
      rw [hid,howner']
      exact howner
    · rcases h.bound j s' hold with hnil | howns
      · exact .inl hnil
      · exact .inr (howns.grows hg)
  mapped id j hj := welcome_identified hs hstage _ _ _ (h.mapped id j hj)
  paired p hp := (h.paired p hp).grows hg
  bindings b hb := by
    obtain ⟨id,hid,howns⟩ := h.bindings b hb
    exact ⟨id,welcome_identified hs hstage _ _ _ hid,howns.grows hg⟩
  calls call hc := by
    obtain ⟨id,hid,howns,hrevokes⟩ := h.calls call hc
    exact ⟨id,hid,howns.grows hg,hrevokes.grows hg⟩

def Instance.register (r : Instance) (k : Nat) (deviceId : Text) : Instance :=
  { r with devices := r.devices.set deviceId k }

theorem Instance.register_sound (h : r.Sound) {k : Nat} {deviceId : Text}
    (hid : r.identified k deviceId) : (r.register k deviceId).Sound where
  bound := h.bound
  mapped id j hj := by
    simp only [register,OrdMap.get_set] at hj
    split_ifs at hj with heq
    · cases hj
      rw [heq]
      exact hid
    · exact h.mapped id j hj
  paired := h.paired
  bindings := h.bindings
  calls := h.calls

theorem Instance.advance_leased {k : Nat} {leaseUp : Bool} {s : DeviceSocket}
    (hs : r.sockets[k]? = some s) (hstage : s.stage = .leased) :
    r.advance k leaseUp =
      (r.register k s.deviceId).setStage k (.registered (r.devices.get s.deviceId)) := by
  simp [advance,hs,hstage,register]

theorem Instance.registered_follows (k : Nat) (deviceId : Text) (previous : Option Nat) :
    (r.register k deviceId).Follows ((r.register k deviceId).setStage k (.registered previous)) :=
  setStage_follows (by simp) (by simp [HelloStage.underway])

theorem Instance.advance_sound (h : r.Sound) (k : Nat) (leaseUp : Bool) :
    (r.advance k leaseUp).Sound := by
  by_cases hleased : ∃ s, r.sockets[k]? = some s ∧ s.stage = .leased
  · obtain ⟨s,hs,hstage⟩ := hleased
    rw [advance_leased hs hstage]
    have hid : r.identified k s.deviceId := ⟨s,hs,rfl,by simp [hstage]⟩
    exact (register_sound h hid).follows_same (registered_follows k s.deviceId _) rfl
  · have hother : ∀ s, r.sockets[k]? = some s → s.stage ≠ .leased :=
      fun s hs hstage => hleased ⟨s,hs,hstage⟩
    exact h.follows_same (advance_follows hother).1 (advance_follows hother).2

theorem Instance.setCall_mem {h : Nat} {stage : RevokeStage} {call : RevokeCall}
    (hc : r.calls[h]? = some call) {call' : RevokeCall} (hmem : call' ∈ (r.setCall h stage).calls) :
    call' ∈ r.calls ∨ call' = { call with stage := stage } := by
  obtain ⟨j,hj⟩ := List.mem_iff_getElem?.mp hmem
  simp only [setCall,List.getElem?_modify] at hj
  by_cases hh : h = j
  · subst hh
    simp only [hc,if_true,Option.map_eq_map,Option.map_some,Option.some.injEq] at hj
    exact .inr hj.symm
  · left
    simp only [hh,if_false,id_map'] at hj
    exact List.mem_of_getElem? (by simpa using hj)

theorem Instance.setCall_kept {h : Nat} (stage : RevokeStage) {call : RevokeCall}
    (hc : r.calls[h]? = some call) {old : RevokeCall} (hmem : old ∈ r.calls) :
    old = call ∨ old ∈ (r.setCall h stage).calls := by
  obtain ⟨j,hj⟩ := List.mem_iff_getElem?.mp hmem
  by_cases hh : h = j
  · subst hh
    rw [hc] at hj
    exact .inl (Option.some.inj hj).symm
  · right
    apply List.mem_iff_getElem?.mpr ⟨j,_⟩
    simp [setCall,hh,hj]

theorem Instance.setCall_new {h : Nat} {stage : RevokeStage} {call : RevokeCall}
    (hc : r.calls[h]? = some call) : { call with stage := stage } ∈ (r.setCall h stage).calls := by
  apply List.mem_iff_getElem?.mpr ⟨h,_⟩
  simp [setCall,hc]

theorem Instance.setCall_follows (r : Instance) (h : Nat) (stage : RevokeStage) :
    r.Follows (r.setCall h stage) :=
  .of_sockets (.refl _) rfl (fun _ _ hk => hk)

theorem Instance.setCall_sound (hr : r.Sound) {h : Nat} {stage : RevokeStage} {call : RevokeCall}
    (hc : r.calls[h]? = some call) : (r.setCall h stage).Sound := by
  apply hr.follows (r.setCall_follows h stage) (fun p hp => .inl hp) (fun b hb => .inl hb)
  intro call' hmem
  left
  rcases setCall_mem hc hmem with hold | rfl
  · exact ⟨call',hold,rfl,rfl⟩
  · exact ⟨call,List.mem_of_getElem? hc,rfl,rfl⟩

/-- What one segment of an accepted revocation does: nothing, or one call moves on, with a
socket stopped first when one was found. -/
inductive RevokeCall.Moves (r : Instance) (call : RevokeCall) :
    Instance → RevokeStage → List InstanceEvent → Prop where
  | lookup : call.stage = .stored →
      Moves r call r (.found (r.ownedTarget call.deviceId call.account.user)) [.lookedUp call.deviceId]
  | stop (k : Nat) : call.stage = .found (some k) → Moves r call (r.stop k) .disconnected []
  | absent : call.stage = .found none → Moves r call r .disconnected []
  | share : call.stage = .disconnected → Moves r call r .shared []
  | answer : call.stage = .disconnected ∨ call.stage = .shared →
      Moves r call r .answered [.answered call.deviceId]
  | fail : call.stage = .disconnected ∨ call.stage = .shared → Moves r call r .failed []

theorem Instance.revokeStep_spec (r : Instance) (h : Nat) (redisUp : Bool) :
    r.revokeStep h redisUp = (r,[]) ∨
    ∃ call r₁ stage out, r.calls[h]? = some call ∧ call.Moves r r₁ stage out ∧
      r.revokeStep h redisUp = (r₁.setCall h stage,out) := by
  unfold revokeStep
  cases hc : r.calls[h]? with
  | none => exact .inl rfl
  | some call =>
    dsimp only
    cases hstage : call.stage with
    | stored => exact .inr ⟨call,_,_,_,rfl,.lookup hstage,rfl⟩
    | found target =>
      cases target with
      | none => exact .inr ⟨call,_,_,_,rfl,.absent hstage,rfl⟩
      | some k => exact .inr ⟨call,_,_,_,rfl,.stop k hstage,rfl⟩
    | disconnected =>
      by_cases hredis : r.redis = false
      · exact .inr ⟨call,_,_,_,rfl,.answer (.inl hstage),by simp [hredis]⟩
      · cases redisUp with
        | true => exact .inr ⟨call,_,_,_,rfl,.share hstage,by simp [hredis]⟩
        | false => exact .inr ⟨call,_,_,_,rfl,.fail (.inl hstage),by simp [hredis]⟩
    | shared =>
      cases redisUp with
      | true => exact .inr ⟨call,_,_,_,rfl,.answer (.inr hstage),rfl⟩
      | false => exact .inr ⟨call,_,_,_,rfl,.fail (.inr hstage),rfl⟩
    | answered => exact .inl rfl
    | failed => exact .inl rfl

theorem RevokeCall.Moves.follows {call : RevokeCall} {r₁ : Instance} {stage : RevokeStage}
    {out : List InstanceEvent} (h : call.Moves r r₁ stage out) :
    r.Follows r₁ ∧ r₁.pending = r.pending := by
  cases h with
  | stop k => exact ⟨r.stop_follows k,rfl⟩
  | lookup => exact ⟨.refl r,rfl⟩
  | absent => exact ⟨.refl r,rfl⟩
  | share => exact ⟨.refl r,rfl⟩
  | answer => exact ⟨.refl r,rfl⟩
  | fail => exact ⟨.refl r,rfl⟩

theorem Instance.step_sound (c : Config) (h : r.Sound) (input : InstanceInput) :
    (r.step c input).1.Sound := by
  cases input with
  | connect => exact h.follows_same r.connect_follows rfl
  | hello k hello secret storageUp =>
    rcases r.hello_spec c k hello secret storageUp with ⟨hf,hp,-⟩ |
      ⟨s,deviceId,record,records,hs,hstage,heq,hg,-,howner⟩
    · exact h.follows_same hf hp
    · simp only [step,heq]
      exact welcome_sound h hs hstage hg howner
  | advance k leaseUp => exact advance_sound h k leaseUp
  | remove k => exact h.follows_same (r.remove_follows k) (by simp [step])
  | stop k => exact h.follows_same (r.stop_follows k) rfl
  | dropStale deviceId k => exact h.follows_same (r.dropStale_follows deviceId k) rfl
  | enroll account requested random secret =>
    simp only [step]
    cases hstore : r.records.enrollDevice c account.user requested random secret with
    | none => exact h
    | some records =>
      have hg := DeviceRecords.enrollDevice_grows hstore
      exact h.follows_same (.of_sockets hg rfl (fun _ _ hk => hk)) rfl
  | pair deviceId account =>
    simp only [step]
    cases hstore : r.records.pairDevice deviceId account with
    | none => exact h
    | some records =>
      obtain ⟨hg,howns⟩ := DeviceRecords.pairDevice_spec hstore
      refine h.follows ?_ ?_ ?_ ?_
      · exact .of_sockets hg rfl (fun _ _ hk => hk)
      rotate_left
      · exact fun b hb => .inl hb
      · exact fun call hc => .inl ⟨call,hc,rfl,rfl⟩
      intro p hp
      rw [List.mem_append,List.mem_singleton] at hp
      rcases hp with hold | rfl
      · exact .inl hold
      · exact .inr howns
  | bindStart n => exact bindStart_sound h n
  | bindEnd n leaseUp => exact h.follows_same (bindEnd_follows h n leaseUp) (pending_bindEnd n leaseUp)
  | revoke path account storageUp =>
    simp only [step]
    rcases r.revoke_spec path account storageUp with heq | ⟨deviceId,id,records,heq,hg,hid,howns,hrev⟩
    · rw [heq]
      exact h
    · rw [heq]
      refine h.follows ?_ ?_ ?_ ?_
      · exact .of_sockets hg rfl (fun _ _ hk => hk)
      · exact fun p hp => .inl hp
      · exact fun b hb => .inl hb
      intro call hc
      rw [List.mem_append,List.mem_singleton] at hc
      rcases hc with hold | rfl
      · exact .inl ⟨call,hold,rfl,rfl⟩
      · exact .inr ⟨id,hid,howns,hrev⟩
  | revokeStep n redisUp =>
    simp only [step]
    rcases r.revokeStep_spec n redisUp with heq | ⟨call,r₁,stage,out,hc,hmoves,heq⟩
    · rw [heq]
      exact h
    · rw [heq]
      obtain ⟨hf,hp⟩ := hmoves.follows
      have hc₁ : r₁.calls[n]? = some call := by
        rw [calls_of_pending hp,hc]
      exact setCall_sound (h.follows_same hf hp) hc₁

end Steps

end CodeHarbor.Relay
