import CodeHarbor.Network.RelayClient
set_option autoImplicit false

namespace CodeHarbor.Network.Identity
open Lib Lib.Go Lib.Sql Lib.Base64 Relay

/-! When the relay accepts a gateway: by the credential of its device, or because it would enrol
or register the device anew. -/

section Store

variable {c : Config} {pg : Postgres} {s s' : DeviceStore} {raw id user name : Text}
variable {random : Fin 16 → UInt8} {secret : Fin 32 → UInt8}

theorem normalizeDeviceId_self (h : normalizeDeviceId raw = some id) :
    normalizeDeviceId id = some id := by
  have hne := normalizeDeviceId_ne_nil h
  have htrim : trimSpace id = id := by
    have hid : trimSpace raw = id := by
      unfold normalizeDeviceId at h
      dsimp only at h
      split_ifs at h
      exact Option.some.inj h
    obtain ⟨ch,r,hcons⟩ := List.exists_cons_of_ne_nil hne
    obtain ⟨last,hlast⟩ := List.getLast?_isSome.mpr hne |> Option.isSome_iff_exists.mp
    exact trimSpace_eq_self hcons (trimSpace_head (hid.trans hcons)) hlast
      (trimSpace_getLast (hid ▸ hlast))
  unfold normalizeDeviceId at h ⊢
  dsimp only at h ⊢
  split_ifs at h with hbounds hany
  cases h
  rw [htrim,if_neg hbounds,if_neg hany]

structure Enrolls (pg : Postgres) (s : DeviceStore) (id user name : Text) : Prop where
  named : user ≠ []
  holds : s.holds pg id = true ∧ s.holds pg user = true ∧ s.holds pg (trimSpace name) = true
  free : ∀ d, s.device id = some d → d.free user

/-- The device may be registered with the shared server token. -/
structure Registers (pg : Postgres) (s : DeviceStore) (id name : Text) : Prop where
  holds : s.holds pg id = true ∧ s.holds pg (trimSpace name) = true
  free : ∀ d, s.device id = some d → d.free []

theorem enrollCheck_memory {record : MemoryDevice} :
    enrollCheck user record.ownerUser record.revokedAt.isSome = none ↔ record.device.free user :=
  enrollCheck_eq_none

theorem enrollCheck_row {row : DeviceRow} :
    enrollCheck user (readText row.ownerUser) row.revokedAt.isSome = none ↔ row.device.free user :=
  enrollCheck_eq_none

theorem free_nil {d : Device} : d.free [] ↔ d.revoked = false ∧ d.ownerUser = [] := by
  rw [Device.free,or_self_iff]

theorem legacyCheck_memory {record : MemoryDevice} :
    legacyCheck record.ownerUser record.revokedAt.isSome = none ↔ record.device.free [] :=
  legacyCheck_eq_none.trans (free_nil (d := record.device)).symm

theorem legacyCheck_row {row : DeviceRow} :
    legacyCheck (readText row.ownerUser) row.revokedAt.isSome = none ↔ row.device.free [] :=
  legacyCheck_eq_none.trans (free_nil (d := row.device)).symm

theorem memory_enrollDevice_iff {m : DeviceMemory} {hash : Bytes} :
    (∃ m', m.enrollDevice user id name hash = .ok m') ↔
      ∀ d, (DeviceStore.memory m).device id = some d → d.free user := by
  unfold DeviceMemory.enrollDevice
  simp only [DeviceStore.device]
  cases m.devices.get id with
  | none => simp
  | some record =>
    by_cases hfree : record.device.free user
    · simp [enrollCheck_memory.mpr hfree,hfree]
    · obtain ⟨e,hcheck⟩ := Option.ne_none_iff_exists'.mp (mt enrollCheck_memory.mp hfree)
      simp [hcheck,hfree]

theorem memory_registerLegacyDevice_iff {m : DeviceMemory} {hash : Bytes} :
    (∃ m', m.registerLegacyDevice id name hash = .ok m') ↔
      ∀ d, (DeviceStore.memory m).device id = some d → d.free [] := by
  unfold DeviceMemory.registerLegacyDevice
  simp only [DeviceStore.device]
  cases m.devices.get id with
  | none => simp
  | some record =>
    by_cases hfree : record.device.free []
    · simp [legacyCheck_memory.mpr hfree,hfree]
    · obtain ⟨e,hcheck⟩ := Option.ne_none_iff_exists'.mp (mt legacyCheck_memory.mp hfree)
      simp [hcheck,hfree]

theorem tables_enrollDevice_iff {t : DeviceTables} {hash : Bytes} :
    (∃ t', t.enrollDevice pg user id name hash = .ok t') ↔
      (pg.storable id = true ∧ pg.storable user = true ∧ pg.storable (trimSpace name) = true) ∧
        ∀ d, (DeviceStore.postgres t).device id = some d → d.free user := by
  unfold DeviceTables.enrollDevice
  simp only [DeviceStore.device]
  cases hid : pg.storable id with
  | false => simp
  | true =>
    cases t.devices.get id with
    | none => cases pg.storable user <;> cases pg.storable (trimSpace name) <;> simp
    | some row =>
      by_cases hfree : row.device.free user
      · simp only [enrollCheck_row.mpr hfree]
        cases pg.storable user <;> cases pg.storable (trimSpace name) <;> simp [hfree]
      · obtain ⟨e,hcheck⟩ := Option.ne_none_iff_exists'.mp (mt enrollCheck_row.mp hfree)
        simp [hcheck,hfree]

theorem tables_registerLegacyDevice_iff {t : DeviceTables} {hash : Bytes} :
    (∃ t', t.registerLegacyDevice pg id name hash = .ok t') ↔
      (pg.storable id = true ∧ pg.storable (trimSpace name) = true) ∧
        ∀ d, (DeviceStore.postgres t).device id = some d → d.free [] := by
  unfold DeviceTables.registerLegacyDevice
  simp only [DeviceStore.device]
  cases hid : pg.storable id with
  | false => simp
  | true =>
    cases t.devices.get id with
    | none => cases pg.storable (trimSpace name) <;> simp
    | some row =>
      by_cases hfree : row.device.free []
      · simp only [legacyCheck_row.mpr hfree]
        cases pg.storable (trimSpace name) <;> simp [hfree]
      · obtain ⟨e,hcheck⟩ := Option.ne_none_iff_exists'.mp (mt legacyCheck_row.mp hfree)
        simp [hcheck,hfree]

theorem exists_map_ok {ε α β : Type} {f : α → β} {x : Except ε α} :
    (∃ b, x.map f = .ok b) ↔ ∃ a, x = .ok a := by
  cases x <;> simp [Except.map]

theorem enrolledId_named (hid : normalizeDeviceId raw = some id) : enrolledId raw random = .ok id := by
  rw [enrolledId,hid]

theorem enrollDevice_iff (hid : normalizeDeviceId raw = some id) :
    (∃ r, s.enrollDevice c pg user raw name random secret = .ok r) ↔ Enrolls pg s id user name := by
  unfold DeviceStore.enrollDevice
  rw [enrolledId_named hid]
  by_cases huser : user = []
  · simp only [huser,if_true]
    constructor
    · rintro ⟨r,h⟩
      cases h
    · exact fun h => absurd rfl h.named
  · simp only [huser,if_false]
    cases s with
    | memory m =>
      rw [exists_map_ok,memory_enrollDevice_iff]
      exact ⟨fun h => ⟨huser,⟨rfl,rfl,rfl⟩,h⟩,fun h => h.free⟩
    | postgres t =>
      rw [exists_map_ok,tables_enrollDevice_iff]
      exact ⟨fun h => ⟨huser,h.1,h.2⟩,fun h => ⟨h.holds,h.free⟩⟩

theorem registerLegacyDevice_iff (hid : normalizeDeviceId raw = some id) :
    (∃ r, s.registerLegacyDevice c pg raw name secret = .ok r) ↔ Registers pg s id name := by
  unfold DeviceStore.registerLegacyDevice
  rw [hid]
  cases s with
  | memory m =>
    simp only
    rw [exists_map_ok,memory_registerLegacyDevice_iff]
    exact ⟨fun h => ⟨⟨rfl,rfl⟩,h⟩,fun h => h.free⟩
  | postgres t =>
    simp only
    rw [exists_map_ok,tables_registerLegacyDevice_iff]
    exact ⟨fun h => ⟨h.1,h.2⟩,fun h => ⟨h.holds,h.free⟩⟩

theorem enrollDevice_id {id' : Text} (hid : normalizeDeviceId raw = some id)
    (h : s.enrollDevice c pg user raw name random secret = .ok (s',id')) : id' = id := by
  unfold DeviceStore.enrollDevice at h
  simp only [enrolledId_named hid] at h
  split_ifs at h
  cases s with
  | memory m =>
    obtain ⟨m',-,heq⟩ := map_eq_ok.mp h
    cases heq
    rfl
  | postgres t =>
    obtain ⟨t',-,heq⟩ := map_eq_ok.mp h
    cases heq
    rfl

theorem registerLegacyDevice_id {id' : Text} (hid : normalizeDeviceId raw = some id)
    (h : s.registerLegacyDevice c pg raw name secret = .ok (s',id')) : id' = id := by
  unfold DeviceStore.registerLegacyDevice at h
  rw [hid] at h
  cases s with
  | memory m =>
    obtain ⟨m',-,heq⟩ := map_eq_ok.mp h
    cases heq
    rfl
  | postgres t =>
    obtain ⟨t',-,heq⟩ := map_eq_ok.mp h
    cases heq
    rfl

theorem map_eq_error {ε α β : Type} {f : α → β} {x : Except ε α} {e : ε} :
    x.map f = .error e ↔ x = .error e := by
  cases x <;> simp [Except.map]

theorem enrollCheck_owned {owner : Text} {revoked : Bool}
    (h : enrollCheck user owner revoked = some .owned) : owner ≠ [] ∧ owner ≠ user := by
  unfold enrollCheck at h
  split_ifs at h with hrevoked howner
  · cases h
  · exact howner

theorem enrollDevice_owned (hid : normalizeDeviceId raw = some id)
    (h : s.enrollDevice c pg user raw name random secret = .error .owned) :
    ∃ d, s.device id = some d ∧ d.ownerUser ≠ [] ∧ d.ownerUser ≠ user := by
  unfold DeviceStore.enrollDevice at h
  simp only [enrolledId_named hid] at h
  split_ifs at h
  · cases h
  cases s with
  | memory m =>
    have hm := map_eq_error.mp h
    unfold DeviceMemory.enrollDevice at hm
    cases hget : m.devices.get id with
    | none => simp [hget] at hm
    | some record =>
      rw [hget,Option.bind_some] at hm
      cases hc : enrollCheck user record.ownerUser record.revokedAt.isSome with
      | none => simp [hc] at hm
      | some e =>
        simp only [hc,Except.error.injEq] at hm
        subst hm
        exact ⟨record.device,by simp [DeviceStore.device,hget],enrollCheck_owned hc⟩
  | postgres t =>
    have ht := map_eq_error.mp h
    unfold DeviceTables.enrollDevice at ht
    cases hstorable : pg.storable id with
    | false => simp [hstorable] at ht
    | true =>
      simp only [hstorable,Bool.true_eq_false,if_false] at ht
      cases hget : t.devices.get id with
      | none =>
        simp only [hget] at ht
        split_ifs at ht
        cases ht
      | some row =>
        simp only [hget] at ht
        cases hc : enrollCheck user (readText row.ownerUser) row.revokedAt.isSome with
        | none =>
          simp only [hc] at ht
          split_ifs at ht
          cases ht
        | some e =>
          simp only [hc,Except.error.injEq] at ht
          subst ht
          exact ⟨row.device,by simp [DeviceStore.device,hget],enrollCheck_owned hc⟩

end Store

/-- The token, or for an identity of the old relay its secret. -/
def PersistedRelayIdentity.credential (identity : PersistedRelayIdentity) : Text :=
  if identity.deviceToken = [] then identity.deviceSecret else identity.deviceToken

section Acceptance

variable (d : Deployment) (r : RelayState) (raw id : Text)

def Deployment.enrolls : Prop :=
  ∃ user, d.principal r = some user ∧ ∀ random secret, ∃ x,
    r.store.enrollDevice d.relay.toConfig d.postgres user raw d.gateway.deviceName random secret = .ok x

def Deployment.registers : Prop :=
  d.deviceToken ≠ [] ∧ d.gateway.relayServerToken = d.deviceToken ∧ ∀ secret, ∃ x,
    r.store.registerLegacyDevice d.relay.toConfig d.postgres raw d.gateway.deviceName secret = .ok x

def World.authenticates (w : World) : Prop :=
  ∃ owner, w.relay.store.authenticateDevice d.relay.toConfig d.postgres w.identity.deviceId
    w.identity.credential = .ok owner

/-- The gateway still has a credential with which the relay would accept it as the device. -/
def World.Accepted (w : World) : Prop :=
  normalizeDeviceId w.identity.deviceId = some id ∧
    (w.authenticates d ∨ d.enrolls w.relay w.identity.deviceId ∨ d.registers w.relay w.identity.deviceId)

/-- The account credentials stand for the owner, or for anyone while the device is unowned. -/
def Deployment.ByAccount : Prop :=
  ∃ user, d.principal r = some user ∧ Enrolls d.postgres r.store id user d.gateway.deviceName

/-- The device is unowned and the gateway has the server token of the relay. -/
def Deployment.ByServerToken : Prop :=
  d.deviceToken ≠ [] ∧ d.gateway.relayServerToken = d.deviceToken ∧
    Registers d.postgres r.store id d.gateway.deviceName

def Deployment.Replaceable : Prop := d.ByAccount r id ∨ d.ByServerToken r id

variable {d r raw id}

theorem replaceable_iff (hid : normalizeDeviceId raw = some id) :
    d.enrolls r raw ∨ d.registers r raw ↔ d.Replaceable r id := by
  unfold Deployment.enrolls Deployment.registers Deployment.Replaceable
  refine or_congr (exists_congr fun user => and_congr_right fun _ => ?_)
    (and_congr_right fun _ => and_congr_right fun _ => ?_)
  · constructor
    · exact fun h => (enrollDevice_iff hid).mp (h (fun _ => 0) (fun _ => 0))
    · exact fun h random secret => (enrollDevice_iff hid).mpr h
  · constructor
    · exact fun h => (registerLegacyDevice_iff hid).mp (h (fun _ => 0))
    · exact fun h secret => (registerLegacyDevice_iff hid).mpr h

theorem World.accepted_iff {w : World} (hid : normalizeDeviceId w.identity.deviceId = some id) :
    w.Accepted d id ↔ w.authenticates d ∨ d.Replaceable w.relay id := by
  rw [World.Accepted,replaceable_iff hid]
  exact and_iff_right hid

theorem World.authenticates_iff {w : World} : w.authenticates d ↔
    w.identity.deviceId ≠ [] ∧ w.identity.credential ≠ [] ∧
      w.relay.store.holds d.postgres w.identity.deviceId = true ∧
      ∃ device, w.relay.store.device w.identity.deviceId = some device ∧
        device.credentialHash = d.relay.hashCredential w.identity.credential ∧ device.revoked = false :=
  DeviceStore.authenticateDevice_iff

theorem World.not_authenticates {w : World} (h : w.identity.credential = []) : ¬ w.authenticates d := by
  rw [World.authenticates_iff]
  exact fun hauth => hauth.2.1 h

def Deployment.loginUser (d : Deployment) : Text :=
  if d.relay.adminValid d.gateway.loginBody then d.relay.configuredAdminUser
  else (normalizeAccountUsername d.gateway.loginBody.username).getD []

theorem login_eq_some {user : Text} (h : d.login r = some user) : user = d.loginUser := by
  unfold Deployment.login at h
  split at h
  · rename_i user' hreply
    cases h
    unfold AccountConfig.loginWithPassword at hreply
    dsimp only at hreply
    unfold Deployment.loginUser
    split at hreply
    · cases hreply
    · split at hreply
      · cases hreply
      · rename_i username husername
        rw [husername,Option.getD_some]
        split_ifs at hreply ⊢
        · cases hreply
          rfl
        · cases hreply
          rfl
  · cases h

theorem login_admin {name : Text}
    (hadmin : d.relay.adminValid d.gateway.loginBody = true)
    (hname : normalizeAccountUsername d.gateway.loginBody.username = some name) :
    d.login r = some d.relay.configuredAdminUser := by
  obtain ⟨accountValid,hvalid⟩ : ∃ valid,
      d.relay.authenticateAccount r.accounts true name d.gateway.loginBody.password = some valid := by
    unfold AccountConfig.authenticateAccount
    rw [if_neg (by decide)]
    split <;> exact ⟨_,rfl⟩
  unfold Deployment.login AccountConfig.loginWithPassword
  simp [hname,hvalid,hadmin]

theorem principal_admin {name : Text} (hunset : d.gateway.relayAccountToken = [])
    (hadmin : d.relay.adminValid d.gateway.loginBody = true)
    (hname : normalizeAccountUsername d.gateway.loginBody.username = some name) :
    d.principal r = some d.relay.configuredAdminUser := by
  have hset : d.gateway.relayAccountUsername ≠ [] ∧ d.gateway.relayAccountPassword ≠ [] := by
    unfold AccountConfig.adminValid at hadmin
    simp only [Bool.and_eq_true,decide_eq_true_eq] at hadmin
    obtain ⟨⟨⟨hadmin,huser⟩,hpassword⟩,-⟩ := hadmin
    exact ⟨fun hnil => hadmin (huser.symm.trans hnil),hpassword⟩
  rw [Deployment.principal,if_neg (not_not.mpr hunset),if_pos hset,login_admin hadmin hname]

/-- A token that `authenticateAccount` can have returned. -/
def Deployment.TokenOk (d : Deployment) : AccountToken → Prop
  | .configured => d.gateway.relayAccountToken ≠ []
  | .issued user _ => d.gateway.relayAccountToken = [] ∧ user = d.loginUser

theorem tokenUser_eq {token : AccountToken} {user user' : Text} (hok : d.TokenOk token)
    (h : d.tokenUser r token = some user) (hprincipal : d.principal r = some user') : user = user' := by
  unfold Deployment.principal at hprincipal
  cases token with
  | configured =>
    have hset : d.gateway.relayAccountToken ≠ [] := hok
    rw [if_pos hset,h] at hprincipal
    exact Option.some.inj hprincipal
  | issued u expiresAt =>
    obtain ⟨hunset,rfl⟩ : d.gateway.relayAccountToken = [] ∧ u = d.loginUser := hok
    rw [if_neg (not_not.mpr hunset)] at hprincipal
    simp only [Deployment.tokenUser] at h
    split_ifs at h hprincipal
    cases h
    exact (login_eq_some hprincipal).symm

theorem principal_eq_none (h : d.gateway.hasAccountCredentials = false) : d.principal r = none := by
  simp only [GatewayConfig.hasAccountCredentials,Bool.or_eq_false_iff,decide_eq_false_iff_not,
    Bool.and_eq_false_iff] at h
  unfold Deployment.principal
  rw [if_neg h.1,if_neg]
  simpa [imp_iff_not_or] using h.2

variable {store : DeviceStore} {random : Fin 16 → UInt8} {secret : Fin 32 → UInt8} {id' user name : Text}

theorem enrollDevice_device (hid : normalizeDeviceId raw = some id)
    (h : r.store.enrollDevice d.relay.toConfig d.postgres user raw name random secret = .ok (store,id')) :
    id' = id ∧ store.holds d.postgres = r.store.holds d.postgres ∧ ∃ name, ∀ j, store.device j =
      if j = id then some ⟨user,name,d.relay.hashCredential (randomToken secret),false⟩
      else r.store.device j := by
  obtain ⟨-,-,hissued⟩ := DeviceStore.enrollDevice_issued h
  obtain rfl := enrollDevice_id hid h
  obtain ⟨name,hputs⟩ := hissued.puts
  exact ⟨rfl,hputs.holds,name,hputs.device⟩

theorem byAccount_enrollDevice (hprincipal : d.principal r = some user)
    (hid : normalizeDeviceId raw = some id)
    (h : r.store.enrollDevice d.relay.toConfig d.postgres user raw d.gateway.deviceName random secret =
      .ok (store,id')) : d.ByAccount { r with store := store } id := by
  have hbefore := (enrollDevice_iff hid).mp ⟨_,h⟩
  obtain ⟨-,hholds,name,hdevice⟩ := enrollDevice_device hid h
  refine ⟨user,hprincipal,hbefore.named,?_,?_⟩
  · rw [hholds]
    exact hbefore.holds
  · intro device hd
    rw [hdevice,if_pos rfl] at hd
    cases hd
    exact ⟨rfl,.inr rfl⟩

/-- An enrolment for an account that the gateway has no access to any more shuts it out. -/
theorem not_replaceable_enrollDevice (hprincipal : d.principal r = none)
    (hid : normalizeDeviceId raw = some id)
    (h : r.store.enrollDevice d.relay.toConfig d.postgres user raw name random secret =
      .ok (store,id')) : ¬ d.Replaceable { r with store := store } id := by
  have hbefore := (enrollDevice_iff hid).mp ⟨_,h⟩
  obtain ⟨-,-,name,hdevice⟩ := enrollDevice_device hid h
  have howner := hdevice id
  rw [if_pos rfl] at howner
  rintro (⟨user',hprincipal',-⟩ | ⟨-,-,hregisters⟩)
  · have hnone : d.principal r = some user' := hprincipal'
    rw [hprincipal] at hnone
    cases hnone
  · rcases (hregisters.free _ howner).2 with hnil | hnil
    · exact hbefore.named hnil
    · exact hbefore.named hnil

theorem replaceable_registerLegacyDevice (hreplaceable : d.Replaceable r id)
    (hid : normalizeDeviceId raw = some id)
    (h : r.store.registerLegacyDevice d.relay.toConfig d.postgres raw name secret = .ok (store,id')) :
    d.Replaceable { r with store := store } id := by
  obtain ⟨-,hissued⟩ := DeviceStore.registerLegacyDevice_issued h
  obtain rfl := registerLegacyDevice_id hid h
  obtain ⟨name,hputs⟩ := hissued.puts
  have hfree : ∀ {user : Text} device, store.device id' = some device → device.free user := by
    intro user device hdevice
    rw [hputs.device,if_pos rfl] at hdevice
    cases hdevice
    exact ⟨rfl,.inl rfl⟩
  rcases hreplaceable with ⟨user,hprincipal,henrolls⟩ | ⟨hset,hsame,hregisters⟩
  · exact .inl ⟨user,hprincipal,henrolls.named,by rw [hputs.holds]; exact henrolls.holds,hfree⟩
  · exact .inr ⟨hset,hsame,by rw [hputs.holds]; exact hregisters.holds,hfree⟩

theorem enrolls_restarted {pg : Postgres} (h : Enrolls pg r.store id user name) :
    Enrolls pg r.restarted.store id user name := by
  unfold RelayState.restarted
  cases hstore : r.store with
  | postgres t => exact h
  | memory m => exact ⟨h.named,⟨rfl,rfl,rfl⟩,fun device hdevice => by cases hdevice⟩

theorem byServerToken_restarted (h : d.ByServerToken r id) : d.ByServerToken r.restarted id := by
  obtain ⟨hset,hsame,hregisters⟩ := h
  unfold RelayState.restarted
  cases hstore : r.store with
  | postgres t => exact ⟨hset,hsame,hregisters⟩
  | memory m => exact ⟨hset,hsame,⟨rfl,rfl⟩,fun device hdevice => by cases hdevice⟩

theorem replaceable_not_owned (hreplaceable : d.Replaceable r id) {token : AccountToken}
    (hok : d.TokenOk token) (hprincipal : d.tokenUser r token = some user)
    (hid : normalizeDeviceId raw = some id) :
    r.store.enrollDevice d.relay.toConfig d.postgres user raw name random secret ≠ .error .owned := by
  intro h
  obtain ⟨device,hdevice,howner,hother⟩ := enrollDevice_owned hid h
  rcases hreplaceable with ⟨user',hprincipal',henrolls⟩ | ⟨-,-,hregisters⟩
  · obtain rfl := tokenUser_eq hok hprincipal hprincipal'
    exact (henrolls.free device hdevice).2.elim howner hother
  · exact (hregisters.free device hdevice).2.elim howner howner

variable {hello : DeviceHello} {ready : DeviceReady}

/-- A hello with a credential changes nothing at the relay and is issued no token. -/
theorem resolve_credential (hcredential : hello.deviceToken ≠ [] ∨ hello.deviceSecret ≠ [])
    (h : d.resolve r.store hello secret = .ok (store,ready)) :
    store = r.store ∧ ready = { deviceId := hello.deviceId } := by
  have hne : (if hello.deviceToken = [] then hello.deviceSecret else hello.deviceToken) ≠ [] := by
    split_ifs with htoken
    · exact hcredential.resolve_left (not_not.mpr htoken)
    · exact htoken
  unfold Deployment.resolve at h
  rw [if_pos hne] at h
  obtain ⟨owner,-,heq⟩ := map_eq_ok.mp h
  cases heq
  exact ⟨rfl,rfl⟩

theorem resolve_replaceable (hreplaceable : d.Replaceable r id)
    (hid : normalizeDeviceId hello.deviceId = some id)
    (h : d.resolve r.store hello secret = .ok (store,ready)) :
    d.Replaceable { r with store := store } id ∧ normalizeDeviceId ready.deviceId = some id := by
  unfold Deployment.resolve at h
  dsimp only at h
  generalize (if hello.deviceToken = [] then hello.deviceSecret else hello.deviceToken) = token at h
  split_ifs at h
  · obtain ⟨owner,-,heq⟩ := map_eq_ok.mp h
    cases heq
    exact ⟨hreplaceable,hid⟩
  · obtain ⟨⟨store₁,id₁⟩,hregister,heq⟩ := map_eq_ok.mp h
    cases heq
    refine ⟨replaceable_registerLegacyDevice hreplaceable hid hregister,?_⟩
    rw [registerLegacyDevice_id hid hregister]
    exact normalizeDeviceId_self hid

end Acceptance

end CodeHarbor.Network.Identity
