import CodeHarbor.Relay.DeviceStore
set_option autoImplicit false

namespace CodeHarbor.Relay
open Lib Lib.Go Lib.Sql Lib.Base64

/-! What each call of the store does to what both stores know. -/

section Specs

variable {pg : Postgres} {s s' : DeviceStore}

theorem map_get_set {κ α β : Type} [DecidableEq κ] (f : α → β) (m : OrdMap κ α) (k : κ) (v : α)
    (j : κ) : ((m.set k v).get j).map f = if j = k then some (f v) else (m.get j).map f := by
  rw [OrdMap.get_set]
  split_ifs <;> rfl

theorem DeviceStore.puts_memory (m : DeviceMemory) (id : Text) (record : MemoryDevice) :
    Puts pg (.memory m) (.memory { m with devices := m.devices.set id record }) id record.device where
  device := map_get_set _ _ _ _
  pairCode := rfl
  holds := rfl

theorem DeviceStore.puts_postgres (t : DeviceTables) (id : Text) (row : DeviceRow) :
    Puts pg (.postgres t) (.postgres { t with devices := t.devices.set id row }) id row.device where
  device := map_get_set _ _ _ _
  pairCode := rfl
  holds := rfl

theorem enrollCheck_eq_none {user ownerUser : Text} {revoked : Bool} :
    enrollCheck user ownerUser revoked = none ↔
      revoked = false ∧ (ownerUser = [] ∨ ownerUser = user) := by
  unfold enrollCheck
  cases revoked with
  | true => simp
  | false =>
    by_cases hnil : ownerUser = []
    · simp [hnil]
    · by_cases huser : ownerUser = user
      · simp [huser]
      · simp [hnil,huser]

theorem legacyCheck_eq_none {ownerUser : Text} {revoked : Bool} :
    legacyCheck ownerUser revoked = none ↔ revoked = false ∧ ownerUser = [] := by
  unfold legacyCheck
  cases revoked <;> simp

theorem normalizeDeviceId_ne_nil {raw id : Text} (h : normalizeDeviceId raw = some id) : id ≠ [] := by
  unfold normalizeDeviceId at h
  dsimp only at h
  split_ifs at h with hbounds hany
  cases h
  exact fun hnil => hbounds (.inl hnil)

theorem randomDeviceId_ne_nil (random : Fin 16 → UInt8) : randomDeviceId random ≠ [] := by
  simp [randomDeviceId]

theorem enrolledId_ne_nil {requested id : Text} {random : Fin 16 → UInt8}
    (h : enrolledId requested random = .ok id) : id ≠ [] := by
  unfold enrolledId at h
  split at h
  · rename_i normalized hid
    cases h
    exact normalizeDeviceId_ne_nil hid
  · split_ifs at h
    cases h
    exact randomDeviceId_ne_nil random

theorem randomToken_ne_nil (secret : Fin 32 → UInt8) : randomToken secret ≠ [] := by
  intro h
  have hdecode := decodeString_encodeToString (List.ofFn secret)
  rw [← randomToken,h] at hdecode
  have hlength := congrArg List.length (Option.some.inj hdecode)
  simp at hlength

/-- A credential has been issued for the device: its record was free for the owner. -/
structure DeviceStore.Issued (pg : Postgres) (s s' : DeviceStore) (id owner : Text) (hash : Bytes) :
    Prop where
  free : ∀ d, s.device id = some d → d.free owner
  puts : ∃ name, s.Puts pg s' id ⟨owner,name,hash,false⟩
  holds : s.holds pg id = true

section Issuing

variable {user id name : Text} {hash : Bytes}

theorem DeviceMemory.enrollDevice_issued {m m' : DeviceMemory}
    (h : m.enrollDevice user id name hash = .ok m') :
    DeviceStore.Issued pg (.memory m) (.memory m') id user hash := by
  unfold enrollDevice at h
  split at h
  · cases h
  · rename_i hcheck
    cases h
    refine ⟨?_,⟨_,DeviceStore.puts_memory m id _⟩,rfl⟩
    intro d hd
    obtain ⟨record,hrecord,rfl⟩ := Option.map_eq_some_iff.mp hd
    rw [hrecord,Option.bind_some,enrollCheck_eq_none] at hcheck
    exact hcheck

theorem DeviceMemory.registerLegacyDevice_issued {m m' : DeviceMemory}
    (h : m.registerLegacyDevice id name hash = .ok m') :
    DeviceStore.Issued pg (.memory m) (.memory m') id [] hash := by
  unfold registerLegacyDevice at h
  split at h
  · cases h
  · rename_i hcheck
    cases h
    refine ⟨?_,⟨_,DeviceStore.puts_memory m id _⟩,rfl⟩
    intro d hd
    obtain ⟨record,hrecord,rfl⟩ := Option.map_eq_some_iff.mp hd
    rw [hrecord,Option.bind_some,legacyCheck_eq_none] at hcheck
    exact ⟨hcheck.1,.inl hcheck.2⟩

theorem DeviceTables.issued_row {t : DeviceTables} {row row' : DeviceRow} {owner : Text}
    (hget : t.devices.get id = some row) (hfree : row.device.free owner)
    (hrow : row'.device = ⟨owner,row'.name,hash,row.revokedAt.isSome⟩)
    (hholds : pg.storable id = true) :
    DeviceStore.Issued pg (.postgres t) (.postgres { t with devices := t.devices.set id row' }) id
      owner hash := by
  have hlive : row.revokedAt.isSome = false := hfree.1
  rw [hlive] at hrow
  refine ⟨?_,⟨row'.name,hrow ▸ DeviceStore.puts_postgres t id row'⟩,hholds⟩
  intro d hd
  rw [DeviceStore.device,hget,Option.map_some] at hd
  cases hd
  exact hfree

theorem DeviceTables.issued_new {t : DeviceTables} {row : DeviceRow} {owner : Text}
    (hget : t.devices.get id = none) (hrow : row.device = ⟨owner,row.name,hash,false⟩)
    (hholds : pg.storable id = true) :
    DeviceStore.Issued pg (.postgres t) (.postgres { t with devices := t.devices.set id row }) id
      owner hash := by
  refine ⟨?_,⟨row.name,hrow ▸ DeviceStore.puts_postgres t id row⟩,hholds⟩
  intro d hd
  simp [DeviceStore.device,hget] at hd

theorem DeviceTables.enrollDevice_issued {t t' : DeviceTables}
    (h : t.enrollDevice pg user id name hash = .ok t') :
    DeviceStore.Issued pg (.postgres t) (.postgres t') id user hash := by
  unfold enrollDevice at h
  by_cases hstorable : pg.storable id = true
  · simp only [hstorable,Bool.true_eq_false,if_false] at h
    cases hget : t.devices.get id with
    | some row =>
      simp only [hget] at h
      cases hcheck : enrollCheck user (readText row.ownerUser) row.revokedAt.isSome with
      | some e => simp [hcheck] at h
      | none =>
        simp only [hcheck] at h
        split_ifs at h
        cases h
        exact issued_row hget (enrollCheck_eq_none.mp hcheck) rfl hstorable
    | none =>
      simp only [hget] at h
      split_ifs at h
      cases h
      exact issued_new hget rfl hstorable
  · simp [Bool.eq_false_iff.mpr hstorable] at h

theorem DeviceTables.registerLegacyDevice_issued {t t' : DeviceTables}
    (h : t.registerLegacyDevice pg id name hash = .ok t') :
    DeviceStore.Issued pg (.postgres t) (.postgres t') id [] hash := by
  unfold registerLegacyDevice at h
  by_cases hstorable : pg.storable id = true
  · simp only [hstorable,Bool.true_eq_false,if_false] at h
    cases hget : t.devices.get id with
    | some row =>
      simp only [hget] at h
      cases hcheck : legacyCheck (readText row.ownerUser) row.revokedAt.isSome with
      | some e => simp [hcheck] at h
      | none =>
        simp only [hcheck] at h
        split_ifs at h
        cases h
        obtain ⟨hlive,howner⟩ := legacyCheck_eq_none.mp hcheck
        refine issued_row hget ⟨hlive,.inl howner⟩ ?_ hstorable
        simp [DeviceRow.device,howner]
    | none =>
      simp only [hget] at h
      split_ifs at h
      cases h
      exact issued_new hget rfl hstorable
  · simp [Bool.eq_false_iff.mpr hstorable] at h

end Issuing

theorem map_eq_ok {ε α β : Type} {f : α → β} {x : Except ε α} {b : β} :
    x.map f = .ok b ↔ ∃ a, x = .ok a ∧ f a = b := by
  cases x <;> simp [Except.map]

theorem DeviceStore.enrollDevice_issued {c : Config} {user requested name id : Text}
    {random : Fin 16 → UInt8} {secret : Fin 32 → UInt8}
    (h : s.enrollDevice c pg user requested name random secret = .ok (s',id)) :
    user ≠ [] ∧ id ≠ [] ∧ s.Issued pg s' id user (c.hashCredential (randomToken secret)) := by
  unfold enrollDevice at h
  split_ifs at h with huser
  cases hid : enrolledId requested random with
  | error e => simp [hid] at h
  | ok enrolled =>
    simp only [hid] at h
    cases s with
    | memory m =>
      obtain ⟨m',hm,heq⟩ := map_eq_ok.mp h
      cases heq
      exact ⟨huser,enrolledId_ne_nil hid,DeviceMemory.enrollDevice_issued hm⟩
    | postgres t =>
      obtain ⟨t',ht,heq⟩ := map_eq_ok.mp h
      cases heq
      exact ⟨huser,enrolledId_ne_nil hid,DeviceTables.enrollDevice_issued ht⟩

theorem DeviceStore.registerLegacyDevice_issued {c : Config} {raw name id : Text}
    {secret : Fin 32 → UInt8} (h : s.registerLegacyDevice c pg raw name secret = .ok (s',id)) :
    id ≠ [] ∧ s.Issued pg s' id [] (c.hashCredential (randomToken secret)) := by
  unfold registerLegacyDevice at h
  cases hid : normalizeDeviceId raw with
  | none => simp [hid] at h
  | some normalized =>
    simp only [hid] at h
    cases s with
    | memory m =>
      obtain ⟨m',hm,heq⟩ := map_eq_ok.mp h
      cases heq
      exact ⟨normalizeDeviceId_ne_nil hid,DeviceMemory.registerLegacyDevice_issued hm⟩
    | postgres t =>
      obtain ⟨t',ht,heq⟩ := map_eq_ok.mp h
      cases heq
      exact ⟨normalizeDeviceId_ne_nil hid,DeviceTables.registerLegacyDevice_issued ht⟩

theorem DeviceStore.authenticateDevice_iff {c : Config} {id secret : Text} :
    (∃ owner, s.authenticateDevice c pg id secret = .ok owner) ↔
      id ≠ [] ∧ secret ≠ [] ∧ s.holds pg id = true ∧
        ∃ d, s.device id = some d ∧ d.credentialHash = c.hashCredential secret ∧ d.revoked = false := by
  unfold authenticateDevice
  by_cases hempty : id = [] ∨ secret = []
  · simp only [hempty,if_true]
    constructor
    · rintro ⟨owner,h⟩
      cases h
    · rintro ⟨hid,hsecret,-⟩
      exact absurd hempty (not_or.mpr ⟨hid,hsecret⟩)
  · simp only [hempty,if_false]
    obtain ⟨hid,hsecret⟩ := not_or.mp hempty
    cases s with
    | memory m =>
      simp only [DeviceMemory.authenticateDevice,DeviceStore.device,DeviceStore.holds]
      cases m.devices.get id with
      | none => simp [Except.map]
      | some record =>
        dsimp only
        split_ifs with hhash hrevoked
        · simp [Except.map,MemoryDevice.device,hhash]
        · simp [Except.map,MemoryDevice.device,hrevoked]
        · simp [Except.map,MemoryDevice.device,hid,hsecret,not_not.mp hhash,
            Bool.eq_false_iff.mpr hrevoked]
    | postgres t =>
      simp only [DeviceTables.authenticateDevice,DeviceStore.device,DeviceStore.holds]
      cases hstorable : pg.storable id with
      | false => simp [Except.map]
      | true =>
        cases t.devices.get id with
        | none => simp [Except.map]
        | some row =>
          simp only [Bool.true_eq_false,if_false]
          split_ifs with hrevoked hhash
          · simp [Except.map,DeviceRow.device,hrevoked]
          · simp [Except.map,DeviceRow.device,hhash]
          · simp [Except.map,DeviceRow.device,hid,hsecret,not_not.mp hhash,
              Bool.eq_false_iff.mpr hrevoked]

theorem DeviceStore.revokeDevice_spec {user raw : Text} {now : Time}
    (h : s.revokeDevice pg user raw now = .ok s') :
    ∃ id d, normalizeDeviceId raw = some id ∧ s.device id = some d ∧ d.ownerUser = trimSpace user ∧
      s.Puts pg s' id { d with revoked := true } := by
  unfold revokeDevice at h
  dsimp only at h
  split_ifs at h
  cases hid : normalizeDeviceId raw with
  | none => simp [hid] at h
  | some id =>
    simp only [hid] at h
    refine ⟨id,?_⟩
    cases s with
    | memory m =>
      obtain ⟨m',hm,heq⟩ := map_eq_ok.mp h
      cases heq
      unfold DeviceMemory.revokeDevice at hm
      cases hget : m.devices.get id with
      | none => simp [hget] at hm
      | some record =>
        simp only [hget] at hm
        split_ifs at hm with howner
        cases hm
        refine ⟨record.device,rfl,by simp [DeviceStore.device,hget],not_not.mp howner,?_⟩
        exact puts_memory m id { record with revokedAt := some now }
    | postgres t =>
      obtain ⟨t',ht,heq⟩ := map_eq_ok.mp h
      cases heq
      unfold DeviceTables.revokeDevice at ht
      cases hget : t.devices.get id with
      | none =>
        simp only [hget] at ht
        split_ifs at ht
      | some row =>
        simp only [hget] at ht
        split_ifs at ht with hstorable howner hrevoked
        all_goals refine ⟨row.device,rfl,by simp [DeviceStore.device,hget],
          by simp [DeviceRow.device,readText,not_not.mp howner],?_⟩
        · cases ht
          refine ⟨?_,rfl,rfl⟩
          intro j
          split_ifs with hj
          · simp [DeviceStore.device,hj,hget,DeviceRow.device,hrevoked]
          · rfl
        · cases ht
          exact puts_postgres t id { row with revokedAt := some (microseconds now) }

/-- A pair code after a newer one of the device has been created. -/
def PairCode.supersede (deviceId : Text) (p : PairCode) : PairCode :=
  if p.deviceId = deviceId then { p with used := true } else p

/-- A new code of an unowned device stands beside the superseded ones. -/
structure DeviceStore.Creates (pg : Postgres) (s s' : DeviceStore) (deviceId : Text) (hash : Bytes)
    (expiresAt : Time) : Prop where
  device : s'.device = s.device
  pairCode : ∀ h, s'.pairCode h =
    if h = hash then some ⟨deviceId,expiresAt,false⟩ else (s.pairCode h).map (·.supersede deviceId)
  holds : s'.holds pg = s.holds pg

theorem DeviceStore.createPairCode_spec {c : Config} {raw id : Text} {random : Fin 6 → UInt8}
    {now : Time} (h : s.createPairCode c pg raw random now = .ok (s',id)) :
    s.Creates pg s' id (c.hashCredential (randomPairCode random)) (s.keeps (now+pairCodeTTL)) := by
  unfold createPairCode at h
  dsimp only at h
  split_ifs at h
  cases s with
  | memory m =>
    obtain ⟨m',hm,heq⟩ := map_eq_ok.mp h
    cases heq
    unfold DeviceMemory.createPairCode at hm
    cases hget : m.devices.get (trimSpace raw) with
    | none => simp [hget] at hm
    | some device =>
      simp only [hget] at hm
      split_ifs at hm
      cases hm
      refine ⟨rfl,?_,rfl⟩
      intro hash
      simp only [DeviceStore.pairCode,OrdMap.get_set,OrdMap.get_mapValues]
      split_ifs with hnew
      · rfl
      · cases m.pairCodes.get hash with
        | none => rfl
        | some value =>
          simp only [Option.map_some,PairCode.supersede,MemoryPairCode.pairCode]
          cases hused : value.used <;> by_cases hid : value.deviceId = trimSpace raw <;>
            simp [hid,hused]
  | postgres t =>
    obtain ⟨t',ht,heq⟩ := map_eq_ok.mp h
    cases heq
    unfold DeviceTables.createPairCode at ht
    cases hget : t.devices.get (trimSpace raw) with
    | none =>
      simp only [hget] at ht
      split_ifs at ht
    | some row =>
      simp only [hget] at ht
      split_ifs at ht
      cases ht
      refine ⟨rfl,?_,rfl⟩
      intro hash
      simp only [DeviceStore.pairCode,OrdMap.get_set,OrdMap.get_mapValues]
      split_ifs with hnew
      · rfl
      · cases t.pairCodes.get hash with
        | none => rfl
        | some value =>
          simp only [Option.map_some,PairCode.supersede,PairCodeRow.pairCode,PairCodeRow.expiry]
          cases hused : value.usedAt <;> by_cases hid : value.deviceId = trimSpace raw <;>
            simp [hid,hused]

/-- A live code of a device that is free for the user, and the store with the device
bound and the code used. -/
structure DeviceStore.Consumes (pg : Postgres) (s : DeviceStore) (hash : Bytes) (user : Text)
    (now : Time) (p : PairCode) (d : Device) : Prop where
  code : s.pairCode hash = some p
  unused : p.used = false
  fresh : now < p.expiresAt
  device : s.device p.deviceId = some d
  free : d.free user
  holds : s.holds pg user = true

structure DeviceStore.Bound (pg : Postgres) (s s' : DeviceStore) (hash : Bytes) (user : Text)
    (p : PairCode) (d : Device) : Prop where
  device : ∀ j, s'.device j = if j = p.deviceId then some { d with ownerUser := user } else s.device j
  pairCode : ∀ h, s'.pairCode h = if h = hash then some { p with used := true } else s.pairCode h
  holds : s'.holds pg = s.holds pg

theorem DeviceMemory.consumePairCode_eq_ok {m : DeviceMemory} {hash : Bytes} {user : Text}
    {now : Time} {r : DeviceMemory × Text} :
    m.consumePairCode hash user now = .ok r ↔ ∃ value device,
      m.pairCodes.get hash = some value ∧ value.used = false ∧ now < value.expiresAt ∧
      m.devices.get value.deviceId = some device ∧ device.device.free user ∧
      r = ({ devices := m.devices.set value.deviceId { device with ownerUser := user }
             pairCodes := m.pairCodes.set hash { value with used := true } },value.deviceId) := by
  constructor
  · intro h
    unfold consumePairCode at h
    cases hcode : m.pairCodes.get hash with
    | none => simp [hcode] at h
    | some value =>
      simp only [hcode] at h
      by_cases hdead : value.used = true ∨ ¬ now < value.expiresAt
      · rw [if_pos hdead] at h
        cases h
      · rw [if_neg hdead] at h
        rw [not_or,not_not,Bool.not_eq_true] at hdead
        cases hget : m.devices.get value.deviceId with
        | none => simp [hget] at h
        | some device =>
          simp only [hget] at h
          split_ifs at h with hrevoked howned
          cases h
          rw [not_and_or,not_not,not_not] at howned
          exact ⟨value,device,rfl,hdead.1,hdead.2,hget,⟨Bool.eq_false_iff.mpr hrevoked,howned⟩,rfl⟩
  · rintro ⟨value,device,hcode,hunused,hfresh,hget,⟨hlive,howner⟩,rfl⟩
    have hrevoked : device.revokedAt.isSome = false := hlive
    have howned : ¬ (device.ownerUser ≠ [] ∧ device.ownerUser ≠ user) := by
      rw [not_and_or,not_not,not_not]
      exact howner
    simp only [consumePairCode,hcode,hunused,hfresh,hget,hrevoked,howned,if_false,
      not_true_eq_false,Bool.false_eq_true,or_self]

theorem DeviceTables.consumePairCode_eq_ok {t : DeviceTables} {hash : Bytes} {user : Text}
    {now : Time} {r : DeviceTables × Text} :
    t.consumePairCode pg hash user now = .ok r ↔ ∃ value row,
      t.pairCodes.get hash = some value ∧ value.usedAt.isSome = false ∧ now < value.expiry ∧
      t.devices.get value.deviceId = some row ∧ row.device.free user ∧ pg.storable user = true ∧
      r = ({ devices := t.devices.set value.deviceId { row with ownerUser := some user }
             pairCodes := t.pairCodes.set hash { value with usedAt := some (microseconds now) } },
            value.deviceId) := by
  constructor
  · intro h
    unfold consumePairCode at h
    cases hcode : t.pairCodes.get hash with
    | none => simp [hcode] at h
    | some value =>
      simp only [hcode] at h
      by_cases hdead : value.usedAt.isSome = true ∨ ¬ now < value.expiry
      · rw [if_pos hdead] at h
        cases h
      · rw [if_neg hdead] at h
        rw [not_or,not_not,Bool.not_eq_true] at hdead
        cases hget : t.devices.get value.deviceId with
        | none => simp [hget] at h
        | some row =>
          simp only [hget] at h
          split_ifs at h with hrevoked howned hstorable
          cases h
          rw [not_and_or,not_not,not_not] at howned
          exact ⟨value,row,rfl,hdead.1,hdead.2,hget,⟨Bool.eq_false_iff.mpr hrevoked,howned⟩,
            Bool.eq_true_of_not_eq_false hstorable,rfl⟩
  · rintro ⟨value,row,hcode,hunused,hfresh,hget,⟨hlive,howner⟩,hstorable,rfl⟩
    have hrevoked : row.revokedAt.isSome = false := hlive
    have howned : ¬ (readText row.ownerUser ≠ [] ∧ readText row.ownerUser ≠ user) := by
      rw [not_and_or,not_not,not_not]
      exact howner
    simp only [consumePairCode,hcode,hunused,hfresh,hget,hrevoked,howned,hstorable,if_false,
      not_true_eq_false,Bool.false_eq_true,Bool.true_eq_false,or_self]

theorem DeviceStore.consumePairCode_iff {c : Config} {code user : Text} {now : Time} :
    (∃ r, s.consumePairCode c pg code user now = .ok r) ↔
      byteLen (normalizePairCode code) = pairCodeLength ∧ trimSpace user ≠ [] ∧
        ∃ p d, s.Consumes pg (c.hashCredential (normalizePairCode code)) (trimSpace user) now p d := by
  unfold consumePairCode
  dsimp only
  by_cases hshape : byteLen (normalizePairCode code) ≠ pairCodeLength ∨ trimSpace user = []
  · rw [if_pos hshape]
    constructor
    · rintro ⟨r,h⟩
      cases h
    · rintro ⟨hlength,huser,-⟩
      exact absurd hshape (not_or.mpr ⟨not_not.mpr hlength,huser⟩)
  · rw [if_neg hshape]
    rw [not_or,not_not] at hshape
    refine Iff.trans ?_ (and_iff_right hshape.1).symm
    refine Iff.trans ?_ (and_iff_right hshape.2).symm
    cases s with
    | memory m =>
      constructor
      · rintro ⟨r,h⟩
        obtain ⟨r',hr,-⟩ := map_eq_ok.mp h
        obtain ⟨value,device,hcode,hunused,hfresh,hget,hfree,-⟩ :=
          DeviceMemory.consumePairCode_eq_ok.mp hr
        exact ⟨value.pairCode,device.device,⟨by simp [DeviceStore.pairCode,hcode],hunused,hfresh,
          by simp [DeviceStore.device,MemoryPairCode.pairCode,hget],hfree,rfl⟩⟩
      · rintro ⟨p,d,hcode,hunused,hfresh,hget,hfree,-⟩
        obtain ⟨value,hvalue,rfl⟩ := Option.map_eq_some_iff.mp hcode
        obtain ⟨device,hdevice,rfl⟩ := Option.map_eq_some_iff.mp hget
        exact ⟨_,map_eq_ok.mpr ⟨_,DeviceMemory.consumePairCode_eq_ok.mpr
          ⟨value,device,hvalue,hunused,hfresh,hdevice,hfree,rfl⟩,rfl⟩⟩
    | postgres t =>
      constructor
      · rintro ⟨r,h⟩
        obtain ⟨r',hr,-⟩ := map_eq_ok.mp h
        obtain ⟨value,row,hcode,hunused,hfresh,hget,hfree,hstorable,-⟩ :=
          DeviceTables.consumePairCode_eq_ok.mp hr
        exact ⟨value.pairCode,row.device,⟨by simp [DeviceStore.pairCode,hcode],hunused,hfresh,
          by simp [DeviceStore.device,PairCodeRow.pairCode,hget],hfree,hstorable⟩⟩
      · rintro ⟨p,d,hcode,hunused,hfresh,hget,hfree,hstorable⟩
        obtain ⟨value,hvalue,rfl⟩ := Option.map_eq_some_iff.mp hcode
        obtain ⟨row,hrow,rfl⟩ := Option.map_eq_some_iff.mp hget
        exact ⟨_,map_eq_ok.mpr ⟨_,DeviceTables.consumePairCode_eq_ok.mpr
          ⟨value,row,hvalue,hunused,hfresh,hrow,hfree,hstorable,rfl⟩,rfl⟩⟩

theorem DeviceStore.consumePairCode_spec {c : Config} {code user id : Text} {now : Time}
    (h : s.consumePairCode c pg code user now = .ok (s',id)) :
    ∃ p d, s.Consumes pg (c.hashCredential (normalizePairCode code)) (trimSpace user) now p d ∧
      id = p.deviceId ∧
      s.Bound pg s' (c.hashCredential (normalizePairCode code)) (trimSpace user) p d := by
  unfold consumePairCode at h
  dsimp only at h
  split_ifs at h
  cases s with
  | memory m =>
    obtain ⟨r,hr,heq⟩ := map_eq_ok.mp h
    obtain ⟨value,device,hcode,hunused,hfresh,hget,hfree,rfl⟩ :=
      DeviceMemory.consumePairCode_eq_ok.mp hr
    cases heq
    refine ⟨value.pairCode,device.device,⟨by simp [DeviceStore.pairCode,hcode],hunused,hfresh,
      by simp [DeviceStore.device,MemoryPairCode.pairCode,hget],hfree,rfl⟩,rfl,?_,?_,rfl⟩
    · exact map_get_set _ _ _ _
    · exact map_get_set _ _ _ _
  | postgres t =>
    obtain ⟨r,hr,heq⟩ := map_eq_ok.mp h
    obtain ⟨value,row,hcode,hunused,hfresh,hget,hfree,hstorable,rfl⟩ :=
      DeviceTables.consumePairCode_eq_ok.mp hr
    cases heq
    refine ⟨value.pairCode,row.device,⟨by simp [DeviceStore.pairCode,hcode],hunused,hfresh,
      by simp [DeviceStore.device,PairCodeRow.pairCode,hget],hfree,hstorable⟩,rfl,?_,?_,rfl⟩
    · exact map_get_set _ _ _ _
    · exact map_get_set _ _ _ _

theorem microseconds_lt {now : Time} {expiresAt : Micros} :
    microseconds now < expiresAt ↔ now < expiresAt*1000 := by
  exact Int.ediv_lt_iff_lt_mul (by decide)

theorem DeviceStore.cleanupExpired_device (now : Time) : (s.cleanupExpired now).device = s.device := by
  cases s <;> rfl

theorem DeviceStore.cleanupExpired_holds (now : Time) :
    (s.cleanupExpired now).holds pg = s.holds pg := by
  cases s <;> rfl

theorem DeviceStore.cleanupExpired_pairCode (now : Time) (hash : Bytes) :
    (s.cleanupExpired now).pairCode hash = (s.pairCode hash).filter (now < ·.expiresAt) := by
  cases s with
  | memory m =>
    apply Option.ext
    intro p
    simp only [DeviceStore.cleanupExpired,DeviceMemory.cleanupExpired,DeviceStore.pairCode,
      Option.filter_eq_some_iff,Option.map_eq_some_iff,OrdMap.get_filter]
    constructor
    · rintro ⟨value,⟨hget,hfresh⟩,rfl⟩
      exact ⟨⟨value,hget,rfl⟩,hfresh⟩
    · rintro ⟨⟨value,hget,rfl⟩,hfresh⟩
      exact ⟨value,⟨hget,hfresh⟩,rfl⟩
  | postgres t =>
    apply Option.ext
    intro p
    simp only [DeviceStore.cleanupExpired,DeviceTables.cleanupExpired,DeviceStore.pairCode,
      Option.filter_eq_some_iff,Option.map_eq_some_iff,OrdMap.get_filter,decide_eq_true_eq,
      microseconds_lt]
    constructor
    · rintro ⟨value,⟨hget,hfresh⟩,rfl⟩
      exact ⟨⟨value,hget,rfl⟩,hfresh⟩
    · rintro ⟨⟨value,hget,rfl⟩,hfresh⟩
      exact ⟨value,⟨hget,hfresh⟩,rfl⟩

end Specs

end CodeHarbor.Relay
