import CodeHarbor.Relay.Handshake
set_option autoImplicit false

namespace CodeHarbor.Relay
open Lib Lib.Go Lib.Base64

/-! A device whose revocation is answered with success has no running socket. -/

/-- Every revocation answered with success has closed its device. -/
def Instance.Closed (tr : List InstanceEvent) (r : Instance) : Prop :=
  ∀ id deviceId, .answered id ∈ tr → normalizeDeviceId id = some deviceId →
    r.running deviceId = false

def InstanceEvent.looksUp (deviceId : Text) : InstanceEvent → Bool
  | .lookedUp id => normalizeDeviceId id = some deviceId
  | _ => false

/-- The socket was authenticated for the device before some look-up of it. -/
def straddles (k : Nat) (deviceId : Text) : List InstanceEvent → Bool
  | [] => false
  | e :: tr =>
    (e == .authenticated k deviceId && tr.any (·.looksUp deviceId)) || straddles k deviceId tr

/-- The look-up of a revocation spelled other than its device's id must find the device
without a running socket, and a handshake that was authenticated before a look-up of its
device must not enter the device map after it. -/
def Instance.revokesCleanly (tr : List InstanceEvent) (r : Instance) : InstanceInput → Bool
  | .revokeStep h _ =>
    match r.calls[h]? with
    | none => true
    | some call =>
      match normalizeDeviceId call.deviceId with
      | none => true
      | some deviceId => call.stage ≠ .stored || call.deviceId = deviceId || !r.running deviceId
  | .advance k _ =>
    match r.sockets[k]? with
    | none => true
    | some s => s.stage ≠ .leased || s.stopped || !straddles k s.deviceId tr
  | _ => true

section Revocation

variable {tr : List InstanceEvent} {r r' : Instance}

/-- What an accepted revocation still owes, given the live sockets of its device. -/
def RevokeStage.Settles (live : Nat → Prop) : RevokeStage → Prop
  | .stored => True
  | .found target => ∀ k, live k → target = some k
  | _ => ∀ k, ¬ live k

theorem RevokeStage.Settles.mono {live live' : Nat → Prop} {stage : RevokeStage}
    (h : stage.Settles live) (hl : ∀ k, live' k → live k) : stage.Settles live' := by
  cases stage with
  | stored => trivial
  | found target => exact fun k hk => h k (hl k hk)
  | disconnected => exact fun k hk => h k (hl k hk)
  | shared => exact fun k hk => h k (hl k hk)
  | answered => exact fun k hk => h k (hl k hk)
  | failed => exact fun k hk => h k (hl k hk)

/-- No device is authenticated after a revocation of it has looked for its socket. -/
def AuthenticatedFirst : List InstanceEvent → Prop :=
  Traced (fun pre e => ∀ k deviceId, e = .authenticated k deviceId →
    ∀ id, .lookedUp id ∈ pre → normalizeDeviceId id ≠ some deviceId)

structure Instance.Guarded (tr : List InstanceEvent) (r : Instance) : Prop where
  settled : ∀ call ∈ r.calls, ∀ deviceId, normalizeDeviceId call.deviceId = some deviceId →
    call.stage.Settles (r.live deviceId)
  lookedUp : ∀ id, .lookedUp id ∈ tr → ∃ call ∈ r.calls, call.deviceId = id ∧ call.stage ≠ .stored
  traced : ∀ call ∈ r.calls, call.stage ≠ .stored → .lookedUp call.deviceId ∈ tr
  answered : ∀ id, .answered id ∈ tr → ∃ call ∈ r.calls, call.deviceId = id ∧ call.stage = .answered
  underway : ∀ (k : Nat) (s : DeviceSocket), r.sockets[k]? = some s → s.stage.underway = true →
    .authenticated k s.deviceId ∈ tr
  first : AuthenticatedFirst tr

theorem Instance.Guarded.follows (h : r.Guarded tr) (hs : r.Sound) (hf : r.Follows r')
    (hc : r'.calls = r.calls) : r'.Guarded tr where
  settled call hmem deviceId hid := by
    rw [hc] at hmem
    exact (h.settled call hmem deviceId hid).mono (fun k hk => hf.live hs hk)
  lookedUp id hid := by
    rw [hc]
    exact h.lookedUp id hid
  traced call hmem := by
    rw [hc] at hmem
    exact h.traced call hmem
  answered id hid := by
    rw [hc]
    exact h.answered id hid
  underway k s' hs' hunder := by
    cases hk : r.sockets[k]? with
    | none =>
      have := (hf.fresh k s' hs' hk).2
      simp [hunder] at this
    | some s =>
      obtain ⟨t,ht,hb⟩ := hf.kept k s hk
      rw [hs'] at ht
      cases ht
      rw [hb.deviceId]
      exact h.underway k s hk (hb.underway hunder)
  first := h.first

theorem Instance.ownedTarget_live (h : r.Sound) {deviceId ownerUser : Text}
    (howns : r.records.owns deviceId ownerUser) {k : Nat} (hl : r.live deviceId k) :
    r.ownedTarget deviceId ownerUser = some k := by
  obtain ⟨hget,s,hs,-⟩ := hl
  obtain ⟨t,ht,hid,-⟩ := h.mapped deviceId k hget
  rw [hs] at ht
  cases ht
  have howner : s.ownerUser = ownerUser ∨ s.ownerUser = [] := by
    rcases h.bound k s hs with hnil | ⟨-,record,hrecord,hsame⟩
    · exact .inr hnil
    · obtain ⟨-,record',hrecord',hsame'⟩ := howns
      rw [hid,hrecord'] at hrecord
      cases hrecord
      exact .inl (hsame.symm.trans hsame')
  simp [ownedTarget,hget,hs,howner]

theorem Instance.stop_not_live {deviceId : Text} {k : Nat} : ¬ (r.stop k).live deviceId k := by
  rintro ⟨-,s,hs,hrunning⟩
  simp only [stop,modifySocket,List.getElem?_modify,if_true] at hs
  cases hk : r.sockets[k]? with
  | none => simp [hk] at hs
  | some t =>
    simp only [hk,Option.map_eq_map,Option.map_some,Option.some.injEq] at hs
    subst hs
    simp at hrunning

theorem RevokeCall.Moves.settles {call : RevokeCall} {r₁ : Instance} {stage : RevokeStage}
    {out : List InstanceEvent} (hm : call.Moves r r₁ stage out) (h : r.Guarded tr) (hs : r.Sound)
    (hmem : call ∈ r.calls) {deviceId : Text} (hid : normalizeDeviceId call.deviceId = some deviceId)
    (hclean : call.stage = .stored → call.deviceId ≠ deviceId → ∀ k, ¬ r.live deviceId k) :
    stage.Settles (r₁.live deviceId) := by
  have hsettled := h.settled call hmem deviceId hid
  cases hm with
  | lookup hstage =>
    intro k hk
    by_cases hraw : call.deviceId = deviceId
    · obtain ⟨id,hid',howns,-⟩ := hs.calls call hmem
      rw [hid] at hid'
      cases hid'
      rw [hraw]
      exact Instance.ownedTarget_live hs howns hk
    · exact absurd hk (hclean hstage hraw k)
  | stop k hstage =>
    intro j hj
    rw [hstage] at hsettled
    have hjk := hsettled j ((r.stop_follows k).live hs hj)
    cases hjk
    exact Instance.stop_not_live hj
  | absent hstage =>
    intro j hj
    rw [hstage] at hsettled
    have := hsettled j hj
    cases this
  | share hstage =>
    rw [hstage] at hsettled
    exact hsettled
  | answer hstage =>
    rcases hstage with hstage | hstage <;> rw [hstage] at hsettled <;> exact hsettled
  | fail hstage =>
    rcases hstage with hstage | hstage <;> rw [hstage] at hsettled <;> exact hsettled

theorem RevokeCall.Moves.out {call : RevokeCall} {r₁ : Instance} {stage : RevokeStage}
    {out : List InstanceEvent} (hm : call.Moves r r₁ stage out) :
    stage ≠ .stored ∧ call.stage ≠ .answered ∧
      (∀ id, .lookedUp id ∈ out → id = call.deviceId) ∧
      (call.stage = .stored → .lookedUp call.deviceId ∈ out) ∧
      (∀ id, .answered id ∈ out → id = call.deviceId ∧ stage = .answered) ∧
      ∀ k deviceId, .authenticated k deviceId ∉ out := by
  cases hm with
  | lookup hstage => simp [hstage]
  | stop k hstage => simp [hstage]
  | absent hstage => simp [hstage]
  | share hstage => simp [hstage]
  | answer hstage => rcases hstage with hstage | hstage <;> simp [hstage]
  | fail hstage => rcases hstage with hstage | hstage <;> simp [hstage]

theorem Instance.guarded_revokeStep (h : r.Guarded tr) (hs : r.Sound) {n : Nat} {call : RevokeCall}
    (hc : r.calls[n]? = some call) {r₁ : Instance} {stage : RevokeStage} {out : List InstanceEvent}
    (hm : call.Moves r r₁ stage out)
    (hclean : ∀ deviceId, normalizeDeviceId call.deviceId = some deviceId → call.stage = .stored →
      call.deviceId ≠ deviceId → ∀ k, ¬ r.live deviceId k) :
    (r₁.setCall n stage).Guarded (tr ++ out) := by
  obtain ⟨hf,hp⟩ := hm.follows
  have hcalls : r₁.calls = r.calls := calls_of_pending hp
  have hc₁ : r₁.calls[n]? = some call := by rw [hcalls,hc]
  have h₁ := h.follows hs hf hcalls
  have hmem := List.mem_of_getElem? hc
  obtain ⟨hmoved,hunanswered,hlooked,hreports,hanswered,hauth⟩ := hm.out
  constructor
  · intro call' hmem' deviceId hid
    rcases setCall_mem hc₁ hmem' with hold | rfl
    · exact h₁.settled call' hold deviceId hid
    · exact hm.settles h hs hmem hid (hclean deviceId hid)
  · intro id hid
    rw [List.mem_append] at hid
    have hnew : ∃ call' ∈ (r₁.setCall n stage).calls, call'.deviceId = call.deviceId ∧
        call'.stage ≠ .stored := ⟨_,setCall_new hc₁,rfl,hmoved⟩
    rcases hid with hid | hid
    · obtain ⟨old,hold,rfl,hstage⟩ := h₁.lookedUp id hid
      rcases setCall_kept stage hc₁ hold with rfl | hkept
      · exact hnew
      · exact ⟨old,hkept,rfl,hstage⟩
    · rw [hlooked id hid]
      exact hnew
  · intro call' hmem' hpast
    rw [List.mem_append]
    rcases setCall_mem hc₁ hmem' with hold | rfl
    · exact .inl (h₁.traced call' hold hpast)
    · by_cases hstored : call.stage = .stored
      · exact .inr (hreports hstored)
      · exact .inl (h.traced call hmem hstored)
  · intro id hid
    rw [List.mem_append] at hid
    rcases hid with hid | hid
    · obtain ⟨old,hold,rfl,hstage⟩ := h₁.answered id hid
      rcases setCall_kept stage hc₁ hold with rfl | hkept
      · exact absurd hstage hunanswered
      · exact ⟨old,hkept,rfl,hstage⟩
    · obtain ⟨rfl,hstage⟩ := hanswered id hid
      exact ⟨_,setCall_new hc₁,rfl,hstage⟩
  · intro k s hk hunder
    exact List.mem_append_left _ (h₁.underway k s hk hunder)
  · apply h.first.append
    rintro e hmem' pre k deviceId rfl
    exact absurd hmem' (hauth k deviceId)

theorem Instance.guarded_welcome (h : r.Guarded tr) (hs : r.Sound) {k : Nat} {s : DeviceSocket}
    (hk : r.sockets[k]? = some s) (hstage : s.stage = .waiting) {deviceId : Text}
    (record : DeviceRecord) {records : DeviceRecords} (hrevokes : ¬ r.records.revokes deviceId) :
    (r.welcome k deviceId record records).Guarded (tr ++ [.authenticated k deviceId]) := by
  have hlive : ∀ id j, (r.welcome k deviceId record records).live id j → r.live id j := by
    rintro id j ⟨hget,s',hs',hrunning⟩
    obtain ⟨t,ht,-,hne⟩ := hs.mapped id j hget
    rcases welcome_sockets k deviceId record records hs' with ⟨rfl,-⟩ | ⟨-,hold⟩
    · rw [hk] at ht
      cases ht
      exact absurd hstage hne
    · exact ⟨hget,s',hold,hrunning⟩
  constructor
  · intro call hmem id hid
    exact (h.settled call hmem id hid).mono (hlive id)
  · intro id hid
    simp only [List.mem_append,List.mem_singleton,reduceCtorEq,or_false] at hid
    exact h.lookedUp id hid
  · intro call hmem hpast
    exact List.mem_append_left _ (h.traced call hmem hpast)
  · intro id hid
    simp only [List.mem_append,List.mem_singleton,reduceCtorEq,or_false] at hid
    exact h.answered id hid
  · intro j s' hs' hunder
    rcases welcome_sockets k deviceId record records hs' with ⟨rfl,hid,-⟩ | ⟨-,hold⟩
    · rw [hid]
      exact List.mem_append_right _ List.mem_cons_self
    · exact List.mem_append_left _ (h.underway j s' hold hunder)
  · refine traced_snoc.mpr ⟨h.first,?_⟩
    intro j id heq raw hraw hnorm
    cases heq
    obtain ⟨call,hmem,rfl,-⟩ := h.lookedUp raw hraw
    obtain ⟨id,hid,-,hrev⟩ := hs.calls call hmem
    rw [hnorm] at hid
    cases hid
    exact hrevokes hrev

theorem straddles_of_mem {k : Nat} {deviceId id : Text} {pre : List InstanceEvent}
    (post : List InstanceEvent) (hmem : .authenticated k deviceId ∈ pre) (hid : normalizeDeviceId id = some deviceId) :
    straddles k deviceId (pre ++ .lookedUp id :: post) = true := by
  induction pre with
  | nil => cases hmem
  | cons e pre ih =>
    simp only [List.cons_append,straddles,Bool.or_eq_true,Bool.and_eq_true]
    rcases List.mem_cons.mp hmem with rfl | hmem
    · left
      refine ⟨by simp,?_⟩
      rw [List.any_eq_true]
      exact ⟨.lookedUp id,by simp,by simp [InstanceEvent.looksUp,hid]⟩
    · exact .inr (ih hmem)

theorem Instance.guarded_register (h : r.Guarded tr) {k : Nat} {s : DeviceSocket}
    (hk : r.sockets[k]? = some s) (hstage : s.stage = .leased)
    (hclean : s.stopped = false → straddles k s.deviceId tr = false) :
    (r.register k s.deviceId).Guarded tr where
  settled call hmem deviceId hid := by
    by_cases hstored : call.stage = .stored
    · rw [hstored]
      trivial
    refine (h.settled call hmem deviceId hid).mono ?_
    rintro j ⟨hget,s',hs',hrunning⟩
    simp only [register,OrdMap.get_set] at hget
    split_ifs at hget with heq
    · cases hget
      have hsame : s = s' := Option.some.inj (hk.symm.trans hs')
      subst hsame heq
      have hunder := h.underway k s hk (by rw [hstage]; rfl)
      obtain ⟨pre,post,htr⟩ := List.append_of_mem (h.traced call hmem hstored)
      rw [htr,List.mem_append,List.mem_cons] at hunder
      rcases hunder with hunder | hunder | hunder
      · have hstraddles := straddles_of_mem post hunder hid
        rw [← htr,hclean hrunning] at hstraddles
        cases hstraddles
      · cases hunder
      · obtain ⟨mid,rest,hpost⟩ := List.append_of_mem hunder
        have hfirst := h.first (pre ++ .lookedUp call.deviceId :: mid) (.authenticated k s.deviceId) rest
          (by simp [htr,hpost]) k s.deviceId rfl call.deviceId (by simp)
        exact absurd hid hfirst
    · exact ⟨hget,s',hs',hrunning⟩
  lookedUp := h.lookedUp
  traced := h.traced
  answered := h.answered
  underway := h.underway
  first := h.first

theorem Instance.guarded_revoke (h : r.Guarded tr) (hs : r.Sound) {records : DeviceRecords}
    (hg : r.records.Grows records) (deviceId : Text) (account : Account) :
    ({ r with
      records := records
      calls := r.calls ++ [{ deviceId := deviceId, account := account }] } : Instance).Guarded
        (tr ++ []) := by
  have hf : r.Follows { r with records := records } := .of_sockets hg rfl (fun _ _ hk => hk)
  have h₁ := h.follows hs hf rfl
  rw [List.append_nil]
  constructor
  · intro call hmem
    rw [List.mem_append,List.mem_singleton] at hmem
    rcases hmem with hold | rfl
    · exact h₁.settled call hold
    · exact fun _ _ => trivial
  · intro id hid
    obtain ⟨call,hmem,hcall⟩ := h₁.lookedUp id hid
    exact ⟨call,List.mem_append_left _ hmem,hcall⟩
  · intro call hmem hpast
    rw [List.mem_append,List.mem_singleton] at hmem
    rcases hmem with hold | rfl
    · exact h₁.traced call hold hpast
    · exact absurd rfl hpast
  · intro id hid
    obtain ⟨call,hmem,hcall⟩ := h₁.answered id hid
    exact ⟨call,List.mem_append_left _ hmem,hcall⟩
  · exact h₁.underway
  · exact h₁.first

theorem Instance.guarded_step (c : Config) (h : r.Guarded tr) (hs : r.Sound) (input : InstanceInput)
    (hclean : r.revokesCleanly tr input = true) :
    (r.step c input).1.Guarded (tr ++ (r.step c input).2) := by
  -- every segment but three follows with the same revocations and no event
  have hquiet : ∀ {r' : Instance}, r.Follows r' → r'.calls = r.calls → r'.Guarded (tr ++ []) := by
    intro r' hf hc
    rw [List.append_nil]
    exact h.follows hs hf hc
  cases input with
  | connect => exact hquiet r.connect_follows rfl
  | hello k hello secret storageUp =>
    rcases r.hello_spec c k hello secret storageUp with ⟨hf,hp,hout⟩ |
      ⟨s,deviceId,record,records,hk,hstage,heq,-,hrevokes,-⟩
    · simp only [step,hout]
      exact hquiet hf (calls_of_pending hp)
    · simp only [step,heq]
      exact guarded_welcome h hs hk hstage record hrevokes
  | advance k leaseUp =>
    by_cases hleased : ∃ s, r.sockets[k]? = some s ∧ s.stage = .leased
    · obtain ⟨s,hk,hstage⟩ := hleased
      have hstraddles : s.stopped = false → straddles k s.deviceId tr = false := by
        intro hrunning
        simpa [revokesCleanly,hk,hstage,hrunning] using hclean
      have hreg := guarded_register h hk hstage hstraddles
      have hid : r.identified k s.deviceId := ⟨s,hk,rfl,by simp [hstage]⟩
      simp only [step,advance_leased hk hstage,List.append_nil]
      exact hreg.follows (register_sound hs hid) (registered_follows k s.deviceId _) rfl
    · have hother : ∀ s, r.sockets[k]? = some s → s.stage ≠ .leased :=
        fun s hk hstage => hleased ⟨s,hk,hstage⟩
      obtain ⟨hf,hp⟩ := advance_follows (r := r) hother
      exact hquiet hf (calls_of_pending hp)
  | remove k => exact hquiet (r.remove_follows k) (calls_of_pending (pending_remove k))
  | stop k => exact hquiet (r.stop_follows k) rfl
  | dropStale deviceId k => exact hquiet (r.dropStale_follows deviceId k) rfl
  | enroll account requested random secret =>
    simp only [step]
    cases hstore : r.records.enrollDevice c account.user requested random secret with
    | none => exact hquiet (.refl r) rfl
    | some records =>
      have hg := DeviceRecords.enrollDevice_grows hstore
      exact hquiet (.of_sockets hg rfl (fun _ _ hk => hk)) rfl
  | pair deviceId account =>
    simp only [step]
    cases hstore : r.records.pairDevice deviceId account with
    | none => exact hquiet (.refl r) rfl
    | some records =>
      have hg := (DeviceRecords.pairDevice_spec hstore).1
      exact hquiet (.of_sockets hg rfl (fun _ _ hk => hk)) rfl
  | bindStart n => exact hquiet (r.bindStart_follows n) (calls_bindStart n)
  | bindEnd n leaseUp =>
    exact hquiet (bindEnd_follows hs n leaseUp)
      (calls_of_pending (pending_bindEnd n leaseUp))
  | revoke path account storageUp =>
    simp only [step]
    rcases r.revoke_spec path account storageUp with heq | ⟨deviceId,id,records,heq,hg,-,-,-⟩
    · rw [heq]
      exact hquiet (.refl r) rfl
    · rw [heq]
      exact guarded_revoke h hs hg deviceId account
  | revokeStep n redisUp =>
    simp only [step]
    rcases r.revokeStep_spec n redisUp with heq | ⟨call,r₁,stage,out,hc,hmoves,heq⟩
    · rw [heq]
      exact hquiet (.refl r) rfl
    · rw [heq]
      refine guarded_revokeStep h hs hc hmoves ?_
      intro deviceId hid hstage hraw
      rw [← running_eq_false]
      simpa [revokesCleanly,hc,hid,hstage,hraw] using hclean

/-- In every run whose look-ups are spelled canonically or find no live socket, and whose
handshakes do not straddle a look-up of their device, an answered revocation leaves no live
socket of the device behind, then or later. -/
theorem Config.relayInstance_closed (c : Config)
    (hr : c.relayInstance.Run (fun tr r input => r.revokesCleanly tr input = true) tr r) :
    r.Closed tr := by
  have hinv : r.Sound ∧ r.Guarded tr := by
    refine Machine.Run.invariant (P := fun tr r => r.Sound ∧ r.Guarded tr) ?_ ?_ hr
    · rintro r ⟨hsockets,hdevices,hpaired,hbindings,hcalls⟩
      refine ⟨⟨?_,?_,?_,?_,?_⟩,⟨?_,?_,?_,?_,?_,Traced.nil _⟩⟩ <;>
        simp [hsockets,hdevices,hpaired,hbindings,hcalls]
    · rintro tr r input ⟨hs,hg⟩ hclean
      exact ⟨Instance.step_sound c hs input,Instance.guarded_step c hg hs input hclean⟩
  intro id deviceId hanswered hid
  obtain ⟨call,hmem,rfl,hstage⟩ := hinv.2.answered id hanswered
  have hsettled := hinv.2.settled call hmem deviceId hid
  rw [hstage] at hsettled
  exact Instance.running_eq_false.mpr hsettled

end Revocation

namespace Sample

def amyAccount : Account := ⟨amy,by decide⟩

def device : Text := "dev1".toList

def secret : Text := "s1".toList

def enrolled : Instance where
  records := OrdMap.empty.set device { ownerUser := amy, credentialHash := config.hashCredential secret }

/-- The handshake of a socket, as far as the lease. -/
def shakeHands (k : Nat) : List InstanceInput :=
  [.connect,.hello k { deviceId := device, deviceToken := secret } [] true,
   .advance k true,.advance k true,.advance k true]

def revokeAll (path : String) : List InstanceInput :=
  [.revoke path.toList amyAccount true,.revokeStep 0 true,.revokeStep 0 true,.revokeStep 0 true]

/-- A connected device is revoked under the given path. -/
def revokeConnected (path : String) : List InstanceEvent × Instance :=
  config.relayInstance.exec [] enrolled (shakeHands 0 ++ [.advance 0 true] ++ revokeAll path)

/-- The revocation runs between the lease and the registration of a handshake. -/
def revokeBeforeRegister : List InstanceEvent × Instance :=
  config.relayInstance.exec [] enrolled
    (shakeHands 0 ++ revokeAll "/api/v1/devices/dev1/revoke" ++ [.advance 0 true])

end Sample

theorem revokeConnected_closed :
    (Sample.revokeConnected "/api/v1/devices/dev1/revoke").2.Closed
      (Sample.revokeConnected "/api/v1/devices/dev1/revoke").1 := by
  refine Config.relayInstance_closed Sample.config (Machine.Run.exec _ (.start ?_) ?_)
  · exact ⟨rfl,rfl,rfl,rfl,rfl⟩
  · decide

/-- A leading blank in the path revokes the stored device and leaves its socket running,
and so does a handshake that registers after the look-up. -/
theorem revocation_leaves_running :
    ¬ (Sample.revokeConnected "/api/v1/devices/ dev1/revoke").2.Closed
        (Sample.revokeConnected "/api/v1/devices/ dev1/revoke").1 ∧
      ¬ Sample.revokeBeforeRegister.2.Closed Sample.revokeBeforeRegister.1 := by
  constructor
  · intro h
    have hclosed := h " dev1".toList Sample.device (by decide) (by decide +kernel)
    have hrunning : (Sample.revokeConnected "/api/v1/devices/ dev1/revoke").2.running
        Sample.device = true := by decide
    simp [hclosed] at hrunning
  · intro h
    have hclosed := h Sample.device Sample.device (by decide) (by decide +kernel)
    have hrunning : Sample.revokeBeforeRegister.2.running Sample.device = true := by
      decide
    simp [hclosed] at hrunning

end CodeHarbor.Relay
