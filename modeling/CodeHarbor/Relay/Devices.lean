import CodeHarbor.Relay.DeviceSpecs
set_option autoImplicit false

namespace CodeHarbor.Relay
open Lib Lib.Go Lib.Sql Lib.Base64

/-! The store while devices are enrolled, registered, paired and revoked. -/

inductive DeviceInput where
  | enroll (user requested name : Text) (random : Fin 16 → UInt8) (secret : Fin 32 → UInt8)
  | registerLegacy (raw name : Text) (secret : Fin 32 → UInt8)
  | createPairCode (deviceId : Text) (random : Fin 6 → UInt8) (now : Time)
  | consumePairCode (code user : Text) (now : Time)
  | revoke (user raw : Text) (now : Time)
  | cleanup (now : Time)

/-- What the calls that changed the store have handed out or done. -/
inductive DeviceEvent where
  | issued (id secret : Text)
  | created (code deviceId : Text) (expiresAt : Time)
  | consumed (code deviceId user : Text)
  | revoked (id : Text)
  | cleaned (now : Time)
  deriving DecidableEq, Repr

def Config.deviceStep (c : Config) (pg : Postgres) (s : DeviceStore) :
    DeviceInput → DeviceStore × List DeviceEvent
  | .enroll user requested name random secret =>
    match s.enrollDevice c pg user requested name random secret with
    | .error _ => (s,[])
    | .ok (s',id) => (s',[.issued id (randomToken secret)])
  | .registerLegacy raw name secret =>
    match s.registerLegacyDevice c pg raw name secret with
    | .error _ => (s,[])
    | .ok (s',id) => (s',[.issued id (randomToken secret)])
  | .createPairCode deviceId random now =>
    match s.createPairCode c pg deviceId random now with
    | .error _ => (s,[])
    | .ok (s',id) => (s',[.created (randomPairCode random) id (s.keeps (now+pairCodeTTL))])
  | .consumePairCode code user now =>
    match s.consumePairCode c pg code user now with
    | .error _ => (s,[])
    | .ok (s',id) => (s',[.consumed (normalizePairCode code) id (trimSpace user)])
  | .revoke user raw now =>
    match s.revokeDevice pg user raw now with
    | .error _ => (s,[])
    | .ok s' => (s',(normalizeDeviceId raw).toList.map .revoked)
  | .cleanup now => (s.cleanupExpired now,[.cleaned now])

def Config.deviceStore (c : Config) (pg : Postgres) : Machine DeviceStore DeviceInput DeviceEvent where
  init s := s = .memory {} ∨ s = .postgres {}
  step s input := c.deviceStep pg s input

def DeviceStore.ownerOf (s : DeviceStore) (id : Text) : Text := (s.device id).elim [] (·.ownerUser)

def DeviceStore.revoked (s : DeviceStore) (id : Text) : Prop :=
  ∃ d, s.device id = some d ∧ d.revoked = true

def DeviceStore.credential (s : DeviceStore) (id : Text) : Option Bytes :=
  (s.device id).map (·.credentialHash)

def lastIssued (id : Text) : List DeviceEvent → Option Text
  | [] => none
  | .issued id' secret :: tr => (lastIssued id tr).or (if id' = id then some secret else none)
  | _ :: tr => lastIssued id tr

/-- Everything a call can do: nothing, issue a credential, revoke, create a code, pair, or
remove expired codes. -/
inductive DeviceStore.Effect (c : Config) (pg : Postgres) (s : DeviceStore) :
    DeviceStore → List DeviceEvent → Prop where
  | none : Effect c pg s s []
  | issued {s' : DeviceStore} {id owner secret : Text} (named : id ≠ []) (token : secret ≠ [])
      (h : s.Issued pg s' id owner (c.hashCredential secret)) : Effect c pg s s' [.issued id secret]
  | revoked {s' : DeviceStore} {id : Text} {d : Device} (hd : s.device id = some d)
      (h : s.Puts pg s' id { d with revoked := true }) : Effect c pg s s' [.revoked id]
  | created {s' : DeviceStore} {code id : Text} {expiresAt : Time}
      (shape : byteLen code = pairCodeLength)
      (h : s.Creates pg s' id (c.hashCredential code) expiresAt) :
      Effect c pg s s' [.created code id expiresAt]
  | consumed {s' : DeviceStore} {code user : Text} {now : Time} {p : PairCode} {d : Device}
      (hlive : s.Consumes pg (c.hashCredential code) user now p d)
      (h : s.Bound pg s' (c.hashCredential code) user p d) (shape : byteLen code = pairCodeLength)
      (named : user ≠ []) : Effect c pg s s' [.consumed code p.deviceId user]
  | cleaned (now : Time) : Effect c pg s (s.cleanupExpired now) [.cleaned now]

theorem utf8Size_pairCodeAlphabet : ∀ ch ∈ pairCodeAlphabet, ch.utf8Size = 1 := by
  have hall : pairCodeAlphabet.all (fun ch => ch.utf8Size = 1) = true := by decide
  simpa using hall

theorem byteLen_randomPairCode (random : Fin 6 → UInt8) :
    byteLen (randomPairCode random) = pairCodeLength := by
  have hone : ∀ b : UInt8,
      (pairCodeAlphabet.getD (b.toNat%pairCodeAlphabet.length) 'A').utf8Size = 1 := by
    intro b
    have hlt : b.toNat%pairCodeAlphabet.length < pairCodeAlphabet.length :=
      Nat.mod_lt _ (by decide)
    rw [List.getD_eq_getElem?_getD,List.getElem?_eq_getElem hlt]
    exact utf8Size_pairCodeAlphabet _ (List.getElem_mem hlt)
  simp only [byteLen,randomPairCode,List.ofFn_succ,List.ofFn_zero,List.map_cons,List.map_nil,hone]
  rfl

theorem Config.deviceStep_effect (c : Config) (pg : Postgres) (s : DeviceStore) (i : DeviceInput) :
    s.Effect c pg (c.deviceStep pg s i).1 (c.deviceStep pg s i).2 := by
  cases i with
  | enroll user requested name random secret =>
    simp only [deviceStep]
    cases h : s.enrollDevice c pg user requested name random secret with
    | error e => exact .none
    | ok r =>
      obtain ⟨-,hnamed,hissued⟩ := DeviceStore.enrollDevice_issued h
      exact .issued hnamed (randomToken_ne_nil secret) hissued
  | registerLegacy raw name secret =>
    simp only [deviceStep]
    cases h : s.registerLegacyDevice c pg raw name secret with
    | error e => exact .none
    | ok r =>
      obtain ⟨hnamed,hissued⟩ := DeviceStore.registerLegacyDevice_issued h
      exact .issued hnamed (randomToken_ne_nil secret) hissued
  | createPairCode deviceId random now =>
    simp only [deviceStep]
    cases h : s.createPairCode c pg deviceId random now with
    | error e => exact .none
    | ok r => exact .created (byteLen_randomPairCode random) (DeviceStore.createPairCode_spec h)
  | consumePairCode code user now =>
    simp only [deviceStep]
    cases h : s.consumePairCode c pg code user now with
    | error e => exact .none
    | ok r =>
      obtain ⟨s',id⟩ := r
      obtain ⟨p,d,hlive,rfl,hbound⟩ := DeviceStore.consumePairCode_spec h
      obtain ⟨hshape,hnamed,-⟩ := DeviceStore.consumePairCode_iff.mp ⟨_,h⟩
      exact .consumed hlive hbound hshape hnamed
  | revoke user raw now =>
    simp only [deviceStep]
    cases h : s.revokeDevice pg user raw now with
    | error e => exact .none
    | ok s' =>
      obtain ⟨id,d,hid,hd,-,hputs⟩ := DeviceStore.revokeDevice_spec h
      simp only [hid]
      exact .revoked hd hputs
  | cleanup now => exact .cleaned now

theorem lastIssued_append (id : Text) (tr out : List DeviceEvent) :
    lastIssued id (tr ++ out) = (lastIssued id out).or (lastIssued id tr) := by
  induction tr with
  | nil => simp [lastIssued]
  | cons e tr ih => cases e <;> simp [lastIssued,ih,Option.or_assoc]

/-- Devices keep an owner once they have one, and revoked devices stay as they are. -/
def DeviceStore.Lasts (s s' : DeviceStore) : Prop :=
  ∀ id d, s.device id = some d → ∃ d', s'.device id = some d' ∧
    (d.ownerUser ≠ [] → d'.ownerUser = d.ownerUser) ∧ (d.revoked = true → d' = d)

section Lasting

variable {c : Config} {pg : Postgres} {s s' s'' : DeviceStore} {out : List DeviceEvent}

theorem DeviceStore.Lasts.of_device (h : s'.device = s.device) : s.Lasts s' := by
  intro id d hd
  exact ⟨d,by rw [h,hd],fun _ => rfl,fun _ => rfl⟩

theorem DeviceStore.Lasts.trans (h : s.Lasts s') (h' : s'.Lasts s'') : s.Lasts s'' := by
  intro id d hd
  obtain ⟨d',hd',howner,hrevoked⟩ := h id d hd
  obtain ⟨d'',hd'',howner',hrevoked'⟩ := h' id d' hd'
  refine ⟨d'',hd'',?_,?_⟩
  · intro hne
    rw [howner' (by rw [howner hne]; exact hne),howner hne]
  · intro hrev
    have heq := hrevoked hrev
    rw [hrevoked' (by rw [heq]; exact hrev),heq]

theorem DeviceStore.Lasts.of_update {id : Text} {new : Device}
    (hput : ∀ j, s'.device j = if j = id then some new else s.device j)
    (hnew : ∀ d, s.device id = some d → (d.ownerUser ≠ [] → new.ownerUser = d.ownerUser) ∧
      (d.revoked = true → new = d)) : s.Lasts s' := by
  intro j d hd
  rw [hput]
  split_ifs with hj
  · rw [hj] at hd
    exact ⟨new,rfl,hnew d hd⟩
  · exact ⟨d,hd,fun _ => rfl,fun _ => rfl⟩

theorem Device.free.owner {d : Device} {user : Text} (h : d.free user) (hne : d.ownerUser ≠ []) :
    user = d.ownerUser := (h.2.resolve_left hne).symm

theorem DeviceStore.Effect.lasts (h : s.Effect c pg s' out) : s.Lasts s' := by
  cases h with
  | none => exact .of_device rfl
  | issued hnamed htoken hissued =>
    obtain ⟨name,hputs⟩ := hissued.puts
    refine .of_update hputs.device ?_
    intro d hd
    have hfree := hissued.free d hd
    refine ⟨hfree.owner,?_⟩
    intro hrevoked
    rw [hfree.1] at hrevoked
    cases hrevoked
  | revoked hd hputs =>
    refine .of_update hputs.device ?_
    intro d' hd'
    rw [hd] at hd'
    cases hd'
    refine ⟨fun _ => rfl,?_⟩
    intro hrevoked
    rw [← hrevoked]
  | created hshape hcreates => exact .of_device hcreates.device
  | consumed hlive hbound hshape hnamed =>
    refine .of_update hbound.device ?_
    intro d' hd'
    rw [hlive.device] at hd'
    cases hd'
    refine ⟨hlive.free.owner,?_⟩
    intro hrevoked
    rw [hlive.free.1] at hrevoked
    cases hrevoked
  | cleaned now => exact .of_device (cleanupExpired_device now)

theorem DeviceStore.Effect.not_issued (h : s.Effect c pg s' out) {id secret : Text}
    (hrevoked : s.revoked id) : .issued id secret ∉ out := by
  obtain ⟨d,hd,hrev⟩ := hrevoked
  cases h with
  | issued hnamed htoken hissued =>
    simp only [List.mem_singleton,DeviceEvent.issued.injEq]
    rintro ⟨rfl,-⟩
    have hfree := hissued.free d hd
    rw [hfree.1] at hrev
    cases hrev
  | none => simp
  | revoked => simp
  | created => simp
  | consumed => simp
  | cleaned => simp

theorem DeviceStore.Lasts.revoked (h : s.Lasts s') {id : Text} (hrevoked : s.revoked id) :
    s'.device id = s.device id := by
  obtain ⟨d,hd,hrev⟩ := hrevoked
  obtain ⟨d',hd',-,hsame⟩ := h id d hd
  rw [hd',hd,hsame hrev]

theorem Config.deviceStore_lasts (c : Config) (pg : Postgres) (later : List DeviceInput)
    (tr : List DeviceEvent) (s : DeviceStore) :
    s.Lasts ((c.deviceStore pg).exec tr s later).2 ∧
      ∀ id secret, s.revoked id →
        ((c.deviceStore pg).exec tr s later).1.count (.issued id secret) =
          tr.count (.issued id secret) := by
  induction later generalizing tr s with
  | nil => exact ⟨.of_device rfl,fun _ _ _ => rfl⟩
  | cons i later ih =>
    have heffect := c.deviceStep_effect pg s i
    obtain ⟨hlasts,hcount⟩ := ih (tr ++ (c.deviceStep pg s i).2) (c.deviceStep pg s i).1
    refine ⟨heffect.lasts.trans hlasts,?_⟩
    intro id secret hrevoked
    have hstill : (c.deviceStep pg s i).1.revoked id := by
      rw [DeviceStore.revoked,heffect.lasts.revoked hrevoked]
      exact hrevoked
    have hnone : .issued id secret ∉ (c.deviceStep pg s i).2 := heffect.not_issued hrevoked
    rw [Machine.exec]
    refine (hcount id secret hstill).trans ?_
    rw [List.count_append,List.count_eq_zero.mpr hnone,Nat.add_zero]

end Lasting

/-- The revoked devices are those that a call has revoked. -/
def DeviceStore.Marked (tr : List DeviceEvent) (s : DeviceStore) : Prop :=
  ∀ id, s.revoked id ↔ .revoked id ∈ tr

section Marks

variable {c : Config} {pg : Postgres} {tr : List DeviceEvent} {s s' : DeviceStore}
  {out : List DeviceEvent}

theorem DeviceStore.Marked.of_device (h : s.Marked tr) (hdevice : s'.device = s.device)
    (hout : ∀ id, .revoked id ∉ out) : s'.Marked (tr ++ out) := by
  intro id
  rw [DeviceStore.revoked,hdevice,List.mem_append,← h id]
  simp [DeviceStore.revoked,hout id]

/-- The record of a device that is not revoked is replaced by another such record. -/
theorem DeviceStore.Marked.of_live (h : s.Marked tr) {id : Text} {new : Device}
    (hput : ∀ j, s'.device j = if j = id then some new else s.device j) (hnew : new.revoked = false)
    (hold : ∀ d, s.device id = some d → d.revoked = false) (hout : ∀ id, .revoked id ∉ out) :
    s'.Marked (tr ++ out) := by
  intro j
  rw [List.mem_append,← h j]
  simp only [DeviceStore.revoked,hput,hout j,or_false]
  split_ifs with hj
  · rw [hj]
    constructor
    · rintro ⟨d,hd,hrevoked⟩
      cases hd
      rw [hnew] at hrevoked
      cases hrevoked
    · rintro ⟨d,hd,hrevoked⟩
      rw [hold d hd] at hrevoked
      cases hrevoked
  · exact Iff.rfl

theorem DeviceStore.Marked.step (h : s.Marked tr) (heffect : s.Effect c pg s' out) :
    s'.Marked (tr ++ out) := by
  cases heffect with
  | none => exact h.of_device rfl (by simp)
  | issued hnamed htoken hissued =>
    obtain ⟨name,hputs⟩ := hissued.puts
    exact h.of_live hputs.device rfl (fun d hd => (hissued.free d hd).1) (by simp)
  | revoked hd hputs =>
    rename_i id d
    intro j
    rw [List.mem_append,← h j,List.mem_singleton,DeviceEvent.revoked.injEq]
    simp only [DeviceStore.revoked,hputs.device]
    by_cases hj : j = id
    · simp [hj]
    · simp [hj]
  | created hshape hcreates => exact h.of_device hcreates.device (by simp)
  | consumed hlive hbound hshape hnamed =>
    refine h.of_live hbound.device hlive.free.1 ?_ (by simp)
    intro d hd
    rw [hlive.device] at hd
    cases hd
    exact hlive.free.1
  | cleaned now => exact h.of_device (cleanupExpired_device now) (by simp)

theorem Config.deviceStore_marked
    (hr : (c.deviceStore pg).Run (c.deviceStore pg).free tr s) : s.Marked tr := by
  refine hr.invariant (P := fun tr s => s.Marked tr) ?_ ?_
  · rintro s (rfl | rfl) id
    · simp [DeviceStore.revoked,DeviceStore.device]
    · simp [DeviceStore.revoked,DeviceStore.device]
  · intro tr s i h _
    exact h.step (c.deviceStep_effect pg s i)

end Marks

/-- Each stored device has the credential that was issued for it last. -/
def DeviceStore.Known (c : Config) (pg : Postgres) (tr : List DeviceEvent) (s : DeviceStore) : Prop :=
  ∀ id, (s.device id = none ∧ lastIssued id tr = none) ∨
    ∃ d secret, s.device id = some d ∧ lastIssued id tr = some secret ∧ id ≠ [] ∧ secret ≠ [] ∧
      s.holds pg id = true ∧ d.credentialHash = c.hashCredential secret

section Credentials

variable {c : Config} {pg : Postgres} {tr : List DeviceEvent} {s s' : DeviceStore}
  {out : List DeviceEvent}

theorem DeviceStore.Known.keep (h : s.Known c pg tr) (hout : ∀ id, lastIssued id out = none)
    (hholds : s'.holds pg = s.holds pg)
    (hdevice : ∀ id, (s'.device id = none ∧ s.device id = none) ∨
      ∃ d d', s.device id = some d ∧ s'.device id = some d' ∧ d'.credentialHash = d.credentialHash) :
    s'.Known c pg (tr ++ out) := by
  intro id
  rw [lastIssued_append,hout,Option.none_or,hholds]
  rcases h id with ⟨hnone,hlast⟩ | ⟨d,secret,hd,hlast,hid,hsecret,hid',hcred⟩
  · rcases hdevice id with ⟨hnone',-⟩ | ⟨d,d',hd,-⟩
    · exact .inl ⟨hnone',hlast⟩
    · rw [hnone] at hd
      cases hd
  · rcases hdevice id with ⟨-,hnone⟩ | ⟨e,e',he,he',hsame⟩
    · rw [hnone] at hd
      cases hd
    · rw [hd] at he
      cases he
      exact .inr ⟨e',secret,he',hlast,hid,hsecret,hid',hsame.trans hcred⟩

theorem DeviceStore.Known.of_device (h : s.Known c pg tr) (hout : ∀ id, lastIssued id out = none)
    (hholds : s'.holds pg = s.holds pg) (hdevice : s'.device = s.device) :
    s'.Known c pg (tr ++ out) := by
  refine h.keep hout hholds ?_
  intro id
  rw [hdevice]
  cases hd : s.device id with
  | none => exact .inl ⟨rfl,rfl⟩
  | some d => exact .inr ⟨d,d,rfl,rfl,rfl⟩

theorem DeviceStore.Known.of_update (h : s.Known c pg tr) (hout : ∀ id, lastIssued id out = none)
    (hholds : s'.holds pg = s.holds pg) {id : Text} {d new : Device} (hd : s.device id = some d)
    (hput : ∀ j, s'.device j = if j = id then some new else s.device j)
    (hcred : new.credentialHash = d.credentialHash) : s'.Known c pg (tr ++ out) := by
  refine h.keep hout hholds ?_
  intro j
  rw [hput]
  split_ifs with hj
  · rw [hj]
    exact .inr ⟨d,new,hd,rfl,hcred⟩
  · cases hget : s.device j with
    | none => exact .inl ⟨rfl,rfl⟩
    | some e => exact .inr ⟨e,e,rfl,rfl,rfl⟩

theorem DeviceStore.Known.step (h : s.Known c pg tr) (heffect : s.Effect c pg s' out) :
    s'.Known c pg (tr ++ out) := by
  cases heffect with
  | none => exact h.of_device (fun _ => rfl) rfl rfl
  | issued hnamed htoken hissued =>
    rename_i issuedId owner secret
    obtain ⟨name,hputs⟩ := hissued.puts
    intro id
    rw [lastIssued_append,hputs.device,hputs.holds]
    by_cases hid : id = issuedId
    · rw [if_pos hid,hid]
      exact .inr ⟨_,secret,rfl,by simp [lastIssued],hnamed,htoken,hissued.holds,rfl⟩
    · rw [if_neg hid]
      simpa [lastIssued,Ne.symm hid] using h id
  | revoked hd hputs => exact h.of_update (fun _ => rfl) hputs.holds hd hputs.device rfl
  | created hshape hcreates => exact h.of_device (fun _ => rfl) hcreates.holds hcreates.device
  | consumed hlive hbound hshape hnamed =>
    exact h.of_update (fun _ => rfl) hbound.holds hlive.device hbound.device rfl
  | cleaned now =>
    exact h.of_device (fun _ => rfl) (cleanupExpired_holds now) (cleanupExpired_device now)

theorem Config.deviceStore_known
    (hr : (c.deviceStore pg).Run (c.deviceStore pg).free tr s) : s.Known c pg tr := by
  refine hr.invariant (P := fun tr s => s.Known c pg tr) ?_ ?_
  · rintro s (rfl | rfl) id
    · exact .inl ⟨rfl,rfl⟩
    · exact .inl ⟨rfl,rfl⟩
  · intro tr s i h _
    exact h.step (c.deviceStep_effect pg s i)

end Credentials

/-- The life of a stored device: its owner is set once, a revocation freezes the record and
nothing else does, and the credential in force is the one issued last. -/
theorem Config.deviceStore_lifecycle (c : Config) (pg : Postgres)
    (hsha : Function.Injective c.sha256) {tr : List DeviceEvent} {s : DeviceStore}
    (hr : (c.deviceStore pg).Run (c.deviceStore pg).free tr s) (later : List DeviceInput) (id : Text) :
    let after := (c.deviceStore pg).exec tr s later
    (after.2.ownerOf id = s.ownerOf id ∨ s.ownerOf id = [] ∧ after.2.ownerOf id ≠ []) ∧
    (s.revoked id → after.2.revoked id ∧ after.2.credential id = s.credential id ∧
      after.2.ownerOf id = s.ownerOf id ∧
      ∀ secret, after.1.count (.issued id secret) = tr.count (.issued id secret)) ∧
    (s.revoked id ↔ .revoked id ∈ tr) ∧
    (∀ secret, (∃ owner, s.authenticateDevice c pg id secret = .ok owner) ↔
      lastIssued id tr = some secret ∧ ¬ s.revoked id) := by
  intro after
  obtain ⟨hlasts,hcount⟩ := c.deviceStore_lasts pg later tr s
  refine ⟨?_,?_,Config.deviceStore_marked hr id,?_⟩
  · by_cases hempty : s.ownerOf id = []
    · rw [hempty]
      by_cases hstill : after.2.ownerOf id = []
      · exact .inl hstill
      · exact .inr ⟨rfl,hstill⟩
    · left
      cases hd : s.device id with
      | none => simp [DeviceStore.ownerOf,hd] at hempty
      | some d =>
        obtain ⟨d',hd',howner,-⟩ := hlasts id d hd
        simp only [DeviceStore.ownerOf,hd,Option.elim_some] at hempty
        simp only [DeviceStore.ownerOf,after,hd',hd,Option.elim_some]
        exact howner hempty
  · intro hrevoked
    have hsame := hlasts.revoked hrevoked
    refine ⟨?_,?_,?_,fun secret => hcount id secret hrevoked⟩
    · rw [DeviceStore.revoked,hsame]
      exact hrevoked
    · rw [DeviceStore.credential,DeviceStore.credential,hsame]
    · rw [DeviceStore.ownerOf,DeviceStore.ownerOf,hsame]
  · intro secret
    rw [DeviceStore.authenticateDevice_iff]
    constructor
    · rintro ⟨-,-,-,d,hd,hcred,hlive⟩
      rcases Config.deviceStore_known hr id with ⟨hnone,-⟩ | ⟨d',issued,hd',hlast,-,-,-,hcred'⟩
      · rw [hnone] at hd
        cases hd
      · rw [hd] at hd'
        cases hd'
        have hsame : secret = issued := hsha (hcred.symm.trans hcred')
        refine ⟨by rw [hlast,hsame],?_⟩
        rintro ⟨e,he,hrev⟩
        rw [hd] at he
        cases he
        rw [hlive] at hrev
        cases hrev
    · rintro ⟨hissued,hlive⟩
      rcases Config.deviceStore_known hr id with ⟨-,hnone⟩ |
        ⟨d,issued,hd,hlast,hnamed,htoken,hholds,hcred⟩
      · rw [hnone] at hissued
        cases hissued
      · rw [hlast] at hissued
        cases hissued
        refine ⟨hnamed,htoken,hholds,d,hd,hcred,?_⟩
        by_contra hrev
        exact hlive ⟨d,hd,by simpa using hrev⟩

namespace Sample

/-- A legacy device in memory that `amy` has paired. -/
def pairedDevice : List DeviceEvent × DeviceStore :=
  (config.deviceStore postgres).exec [] (.memory {})
    [.registerLegacy device [] (fun _ => 7),.createPairCode device (fun _ => 0) 0,
      .consumePairCode "AAAAAA".toList amy 1]

/-- The same device after she has revoked it. -/
def revokedDevice : List DeviceEvent × DeviceStore :=
  (config.deviceStore postgres).exec pairedDevice.1 pairedDevice.2 [.revoke amy device 2]

end Sample

/-- Once revoked the device is refused with its credential and cannot be enrolled again. -/
theorem pairedDevice_lifecycle :
    Sample.pairedDevice.2.ownerOf Sample.device = Sample.amy ∧
    (∃ owner, Sample.pairedDevice.2.authenticateDevice Sample.config Sample.postgres Sample.device
      (randomToken (fun _ => 7)) = .ok owner) ∧
    Sample.revokedDevice.2.revoked Sample.device ∧
    (∀ secret owner, Sample.revokedDevice.2.authenticateDevice Sample.config Sample.postgres
      Sample.device secret ≠ .ok owner) ∧
    ((Sample.config.deviceStore Sample.postgres).exec Sample.revokedDevice.1 Sample.revokedDevice.2
      [.enroll Sample.amy Sample.device [] (fun _ => 0) (fun _ => 9)]).2.credential Sample.device =
        Sample.revokedDevice.2.credential Sample.device := by
  have hpaired : (Sample.config.deviceStore Sample.postgres).Run (Machine.free _)
      Sample.pairedDevice.1 Sample.pairedDevice.2 :=
    Machine.Run.exec _ (.start (.inl rfl)) (Machine.allowed_free _ _ _ _)
  have hrevoked : (Sample.config.deviceStore Sample.postgres).Run (Machine.free _)
      Sample.revokedDevice.1 Sample.revokedDevice.2 :=
    Machine.Run.exec _ hpaired (Machine.allowed_free _ _ _ _)
  obtain ⟨-,-,hmark,hauth⟩ := Config.deviceStore_lifecycle Sample.config Sample.postgres
    Sample.spread_injective hpaired [] Sample.device
  obtain ⟨-,hfrozen,hmark',hauth'⟩ := Config.deviceStore_lifecycle Sample.config Sample.postgres
    Sample.spread_injective hrevoked [.enroll Sample.amy Sample.device [] (fun _ => 0) (fun _ => 9)]
    Sample.device
  have hgone : Sample.revokedDevice.2.revoked Sample.device := hmark'.mpr (by decide)
  refine ⟨by decide,(hauth _).mpr ⟨by decide,?_⟩,hgone,?_,(hfrozen hgone).2.1⟩
  · rw [hmark]
    decide
  · intro secret owner hok
    exact ((hauth' secret).mp ⟨owner,hok⟩).2 hgone

end CodeHarbor.Relay
