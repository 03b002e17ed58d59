import CodeHarbor.Network.InFlight
set_option autoImplicit false

namespace CodeHarbor.Network.Identity
open Lib Lib.Go Lib.Sql Lib.Base64 Relay

/-! What a gateway and its relay may lose while the gateway keeps a credential for its device. -/

/-- The steps after which nothing but another credential is left: they drop the stored one or its
record, or change the accounts of a gateway that has none stored. -/
def World.loses (d : Deployment) (w : World) : WorldInput → Prop
  | .connect => w.migrates d
  | .close code => ∃ s, w.relaySocket = some s ∧ w.recovers s code = true
  | .relayRestart => ∃ m, w.relay.store = .memory m
  | .elsewhere _ _ _ => ¬ w.authenticates d
  | _ => False

def World.relayLeft (w : World) : WorldInput → RelayState
  | .relayRestart => w.relay.restarted
  | .elsewhere accounts auth elapsed => w.relay.elsewhere accounts auth elapsed
  | _ => w.relay

/-- The stored credential is for another spelling of the id, or the same as the issued one. -/
def World.outlasts (d : Deployment) (id : Text) (w : World) (secret : Fin 32 → UInt8) : Prop :=
  if w.identity.deviceId = id then
    w.identity.credential ≠ [] ∧
      d.relay.hashCredential w.identity.credential = d.relay.hashCredential (randomToken secret)
  else w.authenticates d

/-- A late enrolment, for an account that the gateway can no longer log in to. -/
def World.strays (d : Deployment) (id : Text) (w : World) : WorldInput → Prop
  | .relayEnrolls i _ secret storageUp =>
    storageUp = true ∧ d.principal w.relay = none ∧ ¬ w.outlasts d id secret ∧
      ∃ n token requested user, w.requests[i]? = some (n,token,requested) ∧
        d.tokenUser w.relay token = some user ∧
        Enrolls d.postgres w.relay.store id user d.gateway.deviceName
  | _ => False

/-- The gateway loses its credential only where another one can replace it. -/
def World.recoverable (d : Deployment) (id : Text) (w : World) (i : WorldInput) : Prop :=
  (w.loses d i → d.Replaceable (w.relayLeft i) id) ∧ ¬ w.strays d id i

section Losses

variable {d : Deployment} {id : Text} {w w' : World}

theorem World.accepted_of_same (hidentity : w'.identity = w.identity) (hrelay : w'.relay = w.relay) :
    w'.Accepted d id ↔ w.Accepted d id := by
  unfold World.Accepted World.authenticates
  rw [hidentity,hrelay]

theorem World.Accepted.same (ha : w.Accepted d id) (hidentity : w'.identity = w.identity)
    (hrelay : w'.relay = w.relay) : w'.Accepted d id :=
  (accepted_of_same hidentity hrelay).mpr ha

theorem World.accepted_iff_replaceable (hid : normalizeDeviceId w.identity.deviceId = some id)
    (hcredential : ¬ w.authenticates d) : w.Accepted d id ↔ d.Replaceable w.relay id := by
  rw [accepted_iff hid,or_iff_right hcredential]

theorem World.recoverable_of_kept {i : WorldInput} (hl : ¬ w.loses d i) (hs : ¬ w.strays d id i) :
    w.recoverable d id i :=
  ⟨fun hloses => absurd hloses hl,hs⟩

theorem World.recoverable_iff {i : WorldInput} (hl : w.loses d i) (hs : ¬ w.strays d id i) :
    w.recoverable d id i ↔ d.Replaceable (w.relayLeft i) id :=
  ⟨fun h => h.1 hl,fun h => ⟨fun _ => h,hs⟩⟩

theorem World.accepted_connect (h : w.Settled d id) (ha : w.Accepted d id) :
    (w.connect d).Accepted d id ↔ w.recoverable d id .connect := by
  have hs : ¬ w.strays d id .connect := not_false
  by_cases hl : w.loses d .connect
  · have hmigrates : w.migrates d := hl
    obtain ⟨hsocket,henrollment,htoken,hsecret,hhas⟩ := hmigrates
    have heq : w.connect d =
        World.enrollDevice d { w with identity := { deviceId := w.identity.deviceId } } true := by
      simp [World.connect,hsocket,henrollment,htoken,hsecret,hhas]
    rw [recoverable_iff hl hs,heq]
    exact accepted_iff_replaceable h.named.identity (not_authenticates rfl)
  · refine iff_of_true ?_ (recoverable_of_kept hl hs)
    rcases w.connect_cases d with heq | ⟨-,heq,-⟩ | ⟨hidle,hclosed,htoken,has,heq⟩ | ⟨-,-,-,-,heq⟩
    · rwa [heq]
    · rw [heq]
      exact ha.same rfl rfl
    · rw [heq]
      have hsecret : w.identity.deviceSecret = [] := by
        by_contra hsecret
        exact hl ⟨hclosed,hidle,htoken,hsecret,has⟩
      refine ha.same ?_ rfl
      exact PersistedRelayIdentity.ext rfl htoken.symm hsecret.symm
    · rw [heq]
      exact ha.same rfl rfl

theorem World.accepted_close (h : w.Settled d id) (ha : w.Accepted d id) (code : Nat) :
    (w.close code).1.Accepted d id ↔ w.recoverable d id (.close code) := by
  have hs : ¬ w.strays d id (.close code) := not_false
  by_cases hl : w.loses d (.close code)
  · have hcloses : ∃ s, w.relaySocket = some s ∧ w.recovers s code = true := hl
    obtain ⟨s,hsocket,hrecovers⟩ := hcloses
    rw [recoverable_iff hl hs]
    have hidentity : (w.close code).1.identity = { deviceId := w.identity.deviceId } := by
      simp [World.close,hsocket,hrecovers]
    have hrelay : (w.close code).1.relay = w.relay := by
      simp [World.close,hsocket,hrecovers]
    have hnone : ¬ (w.close code).1.authenticates d := not_authenticates (by rw [hidentity]; rfl)
    rw [accepted_iff_replaceable (by rw [hidentity]; exact h.named.identity) hnone,hrelay]
    rfl
  · refine iff_of_true ?_ (recoverable_of_kept hl hs)
    unfold World.close
    split
    · exact ha
    · rename_i s hsocket
      have hkeeps : w.recovers s code ≠ true := fun hrecovers => hl ⟨s,hsocket,hrecovers⟩
      simp only [hkeeps]
      exact ha.same rfl rfl

theorem World.accepted_relayRestart (h : w.Settled d id) (ha : w.Accepted d id) :
    w.relayRestart.Accepted d id ↔ w.recoverable d id .relayRestart := by
  have hs : ¬ w.strays d id .relayRestart := not_false
  cases hstore : w.relay.store with
  | memory m =>
    have hl : w.loses d .relayRestart := ⟨m,hstore⟩
    rw [recoverable_iff hl hs]
    refine accepted_iff_replaceable h.named.identity ?_
    rw [authenticates_iff,World.relayRestart,RelayState.restarted,hstore]
    rintro ⟨-,-,-,device,hdevice,-⟩
    cases hdevice
  | postgres t =>
    have hl : ¬ w.loses d .relayRestart := by
      rintro ⟨m,hmemory⟩
      rw [hstore] at hmemory
      cases hmemory
    refine iff_of_true (ha.same rfl ?_) (recoverable_of_kept hl hs)
    rw [World.relayRestart,RelayState.restarted,hstore]

theorem World.accepted_elsewhere (h : w.Settled d id) (accounts : List (Text × Bytes)) (auth : AuthState)
    (elapsed : Nat) :
    World.Accepted d id { w with relay := w.relay.elsewhere accounts auth elapsed } ↔
      w.recoverable d id (.elsewhere accounts auth elapsed) := by
  have hs : ¬ w.strays d id (.elsewhere accounts auth elapsed) := not_false
  by_cases hauth : w.authenticates d
  · refine iff_of_true ?_ (recoverable_of_kept (not_not.mpr hauth) hs)
    refine (accepted_iff ?_).mpr (.inl ?_)
    · exact h.named.identity
    · exact hauth
  · have hl : w.loses d (.elsewhere accounts auth elapsed) := hauth
    rw [recoverable_iff hl hs]
    exact accepted_iff_replaceable h.named.identity hauth

theorem World.authenticates_enrollDevice {store : DeviceStore} {random : Fin 16 → UInt8}
    {secret : Fin 32 → UInt8} {raw id' user name : Text} (hid : normalizeDeviceId raw = some id)
    (h : w.relay.store.enrollDevice d.relay.toConfig d.postgres user raw name random secret = .ok (store,id'))
    (hidentity : w'.identity = w.identity) (hrelay : w'.relay = { w.relay with store := store }) :
    w'.authenticates d ↔ w.outlasts d id secret := by
  have hholds := ((enrollDevice_iff hid).mp ⟨_,h⟩).holds.1
  obtain ⟨-,hsame,name,hdevice⟩ := enrollDevice_device hid h
  unfold outlasts
  rw [authenticates_iff,hidentity,hrelay]
  dsimp only
  rw [hdevice,hsame]
  split_ifs with hwritten
  · rw [hwritten]
    constructor
    · rintro ⟨-,hcredential,-,device,heq,hhash,-⟩
      cases heq
      exact ⟨hcredential,hhash.symm⟩
    · rintro ⟨hcredential,hhash⟩
      exact ⟨normalizeDeviceId_ne_nil hid,hcredential,hholds,_,rfl,hhash.symm,rfl⟩
  · rw [authenticates_iff]

/-- An enrolment keeps the device accepted for the account it is for, if that is still known. -/
theorem World.accepted_relayEnrolls (h : w.Settled d id) (ha : w.Accepted d id) (i : Nat)
    (random : Fin 16 → UInt8) (secret : Fin 32 → UInt8) (storageUp : Bool) :
    (w.relayEnrolls d i random secret storageUp).Accepted d id ↔
      w.recoverable d id (.relayEnrolls i random secret storageUp) := by
  have hl : ¬ w.loses d (.relayEnrolls i random secret storageUp) := not_false
  unfold World.relayEnrolls
  split
  · rename_i hget
    refine iff_of_true ha (recoverable_of_kept hl ?_)
    rintro ⟨-,-,-,n,token,requested,user,hrequest,-⟩
    rw [hget] at hrequest
    cases hrequest
  rename_i n token requested hget
  have hrequest := h.named.requests _ (List.mem_of_getElem? hget)
  obtain ⟨hok,hid⟩ : d.TokenOk token ∧ normalizeDeviceId requested = some id := hrequest
  dsimp only
  split_ifs with hup
  · refine iff_of_true (ha.same rfl rfl) (recoverable_of_kept hl ?_)
    rintro ⟨hstorage,-⟩
    rw [hup] at hstorage
    cases hstorage
  split
  · rename_i huser
    refine iff_of_true (ha.same rfl rfl) (recoverable_of_kept hl ?_)
    rintro ⟨-,-,-,n',token',requested',user,hrequest,huser',-⟩
    rw [hget] at hrequest
    cases hrequest
    rw [huser] at huser'
    cases huser'
  rename_i user huser
  -- an enrolment that is refused, for whatever reason, leaves the relay as it was
  have hrefused : (∀ x, w.relay.store.enrollDevice d.relay.toConfig d.postgres user requested
        d.gateway.deviceName random secret ≠ .ok x) →
      ¬ w.strays d id (.relayEnrolls i random secret storageUp) := by
    rintro hfails ⟨-,-,-,n',token',requested',user',hrequest,huser',henrolls⟩
    rw [hget] at hrequest
    cases hrequest
    rw [huser] at huser'
    cases huser'
    obtain ⟨x,hx⟩ : ∃ x, w.relay.store.enrollDevice d.relay.toConfig d.postgres user requested
        d.gateway.deviceName random secret = .ok x := (enrollDevice_iff hid).mpr henrolls
    exact hfails x hx
  split
  · rename_i store id' henroll
    have hiff : World.authenticates d { w with
          relay := { w.relay with store := store }
          requests := w.requests.eraseIdx i
          answers := w.answers ++ [(n,.enrolled id' (randomToken secret))] } ↔
        w.outlasts d id secret := authenticates_enrollDevice hid henroll rfl rfl
    cases hprincipal : d.principal w.relay with
    | some user' =>
      obtain rfl := tokenUser_eq hok huser hprincipal
      refine iff_of_true ?_ (recoverable_of_kept hl ?_)
      · have hby := byAccount_enrollDevice (r := w.relay) hprincipal hid henroll
        refine (accepted_iff ?_).mpr (.inr (.inl hby))
        exact h.named.identity
      · rintro ⟨-,hnone,-⟩
        rw [hprincipal] at hnone
        cases hnone
    | none =>
      rw [accepted_iff (by exact h.named.identity),
        or_iff_left (not_replaceable_enrollDevice hprincipal hid henroll),hiff]
      constructor
      · exact fun houtlasts => recoverable_of_kept hl (fun hs => hs.2.2.1 houtlasts)
      · intro hrecoverable
        by_contra houtlasts
        exact hrecoverable.2 ⟨Bool.eq_true_of_not_eq_false hup,hprincipal,houtlasts,n,token,requested,user,hget,
          huser,(enrollDevice_iff hid).mp ⟨_,henroll⟩⟩
  · rename_i henroll
    exact iff_of_true (ha.same rfl rfl) (recoverable_of_kept hl (hrefused (by simp [henroll])))
  · rename_i henroll
    exact iff_of_true (ha.same rfl rfl) (recoverable_of_kept hl (hrefused (by simp [henroll])))

theorem World.accepted_relayReads (h : w.Settled d id) (ha : w.Accepted d id) (i : Nat)
    (secret : Fin 32 → UInt8) (storageUp leaseUp : Bool) :
    (w.relayReads d i secret storageUp leaseUp).Accepted d id := by
  unfold World.relayReads
  split
  · exact ha
  rename_i n hello hget
  have hmem := List.mem_of_getElem? hget
  dsimp only
  by_cases hup : storageUp = false
  · rw [if_pos hup]
    exact ha.same rfl rfl
  rw [if_neg hup]
  split
  · exact ha.same rfl rfl
  rename_i store ready hresolve
  rcases h.shows with ⟨-,hserver⟩ | hplain
  · have hreplaceable := (resolve_replaceable (.inr hserver) (h.named.hellos _ hmem) hresolve).1
    split_ifs
    · exact (accepted_iff (by exact h.named.identity)).mpr (.inr hreplaceable)
    · exact (accepted_iff (by exact h.named.identity)).mpr (.inr hreplaceable)
  · obtain ⟨rfl,-⟩ := resolve_credential (hplain.hellos _ hmem).1 hresolve
    split_ifs
    · exact ha.same rfl rfl
    · exact ha.same rfl rfl

theorem World.accepted_deviceReady (h : w.Settled d id) (ha : w.Accepted d id) (i : Nat) :
    (w.deviceReady i).1.Accepted d id := by
  unfold World.deviceReady
  split
  · rename_i n ready s hget hsocket
    have hmem := List.mem_of_getElem? hget
    dsimp only
    by_cases hnumber : s.number ≠ n
    · rw [if_pos hnumber]
      exact ha.same rfl rfl
    rw [if_neg hnumber]
    rcases h.shows with ⟨-,hserver⟩ | hplain
    · exact (accepted_iff (by exact h.named.readies _ hmem)).mpr (.inr (.inr hserver))
    · obtain ⟨htoken,hid⟩ := hplain.readies _ hmem
      have hsame := hid ⟨s,hsocket,not_not.mp hnumber⟩
      dsimp only at htoken hsame
      rw [htoken,if_pos rfl,if_pos rfl,hsame]
      exact ha.same rfl rfl
  · exact ha

theorem World.enrollAnswer_same (w : World) (i : Nat) (uuid : Text) :
    (w.enrollAnswer d i uuid).relay = w.relay ∧
      (w.enrollAnswer d i uuid).credentialRecoveryAttempted = w.credentialRecoveryAttempted := by
  unfold World.enrollAnswer
  split
  · rename_i n answer e hget hrunning
    dsimp only
    split
    · exact ⟨rfl,rfl⟩
    cases answer with
    | enrolled deviceId deviceToken =>
      dsimp only
      split <;> exact ⟨rfl,rfl⟩
    | deviceOwned =>
      dsimp only
      split <;> exact ⟨rfl,rfl⟩
    | failed => exact ⟨rfl,rfl⟩
  · exact ⟨rfl,rfl⟩

theorem World.accepted_enrollAnswer (h : w.Settled d id) (ha : w.Accepted d id) (i : Nat) (uuid : Text) :
    (w.enrollAnswer d i uuid).Accepted d id := by
  have hsettled := h.enrollAnswer i uuid
  have hrelay := (w.enrollAnswer_same (d := d) i uuid).1
  cases hrunning : w.enrollment with
  | none =>
    unfold World.enrollAnswer
    rw [hrunning]
    split
    · rename_i heq
      cases heq
    · exact ha
  | some e =>
    have hreplaceable := ha.replaceable (h.named.enrollment e hrunning).credential
    rw [accepted_iff hsettled.named.identity,hrelay]
    exact .inr hreplaceable

/-- One step keeps the device accepted precisely when what it loses can be replaced. -/
theorem World.accepted_step (h : w.Settled d id) (ha : w.Accepted d id) (i : WorldInput) :
    (w.step d i).1.Accepted d id ↔ w.recoverable d id i := by
  cases i with
  | connect => exact accepted_connect h ha
  | close code => exact accepted_close h ha code
  | relayRestart => exact accepted_relayRestart h ha
  | elsewhere accounts auth elapsed => exact accepted_elsewhere h accounts auth elapsed
  | relayEnrolls i random secret storageUp => exact accepted_relayEnrolls h ha i random secret storageUp
  | relayReads i secret storageUp leaseUp =>
    exact iff_of_true (accepted_relayReads h ha i secret storageUp leaseUp) (recoverable_of_kept not_false not_false)
  | deviceReady i =>
    exact iff_of_true (accepted_deviceReady h ha i) (recoverable_of_kept not_false not_false)
  | enrollAnswer i uuid =>
    exact iff_of_true (accepted_enrollAnswer h ha i uuid) (recoverable_of_kept not_false not_false)
  | enrollFails => exact iff_of_true (ha.same rfl rfl) (recoverable_of_kept not_false not_false)
  | login =>
    refine iff_of_true ?_ (recoverable_of_kept not_false not_false)
    rw [World.step,World.login]
    split
    · exact ha
    split_ifs
    · exact ha
    split
    · exact ha.same rfl rfl
    · exact ha.same rfl rfl
  | post =>
    refine iff_of_true ?_ (recoverable_of_kept not_false not_false)
    rw [World.step,World.post]
    split
    · exact ha
    split
    · exact ha
    split_ifs
    · exact ha
    · exact ha.same rfl rfl
  | opened =>
    refine iff_of_true ?_ (recoverable_of_kept not_false not_false)
    rw [World.step,World.opened]
    split
    · exact ha
    split_ifs
    · exact ha
    · exact ha.same rfl rfl

end Losses

section Discards

variable {d : Deployment} {w : World}

theorem World.relayEnrolls_attempted (w : World) (i : Nat) (random : Fin 16 → UInt8)
    (secret : Fin 32 → UInt8) (storageUp : Bool) :
    (w.relayEnrolls d i random secret storageUp).credentialRecoveryAttempted =
      w.credentialRecoveryAttempted := by
  unfold World.relayEnrolls
  split
  · rfl
  dsimp only
  split
  · rfl
  split
  · rfl
  split <;> rfl

theorem World.relayReads_attempted (w : World) (i : Nat) (secret : Fin 32 → UInt8)
    (storageUp leaseUp : Bool) :
    (w.relayReads d i secret storageUp leaseUp).credentialRecoveryAttempted =
      w.credentialRecoveryAttempted := by
  unfold World.relayReads
  split
  · rfl
  dsimp only
  split
  · rfl
  split
  · rfl
  split <;> rfl

theorem World.step_events (d : Deployment) (w : World) (i : WorldInput) :
    ((w.step d i).2 = [] ∧
        (w.step d i).1.credentialRecoveryAttempted = w.credentialRecoveryAttempted) ∨
      ((w.step d i).2 = [.deviceReady] ∧ (w.step d i).1.credentialRecoveryAttempted = false) ∨
      ((w.step d i).2 = [.tokenDiscarded] ∧ w.credentialRecoveryAttempted = false ∧
        (w.step d i).1.credentialRecoveryAttempted = true) := by
  cases i with
  | connect =>
    refine .inl ⟨rfl,?_⟩
    rw [step,World.connect]
    dsimp only
    split_ifs <;> rfl
  | login =>
    refine .inl ⟨rfl,?_⟩
    rw [step,World.login]
    split
    · rfl
    split
    · rfl
    split <;> rfl
  | post =>
    refine .inl ⟨rfl,?_⟩
    rw [step,World.post]
    split
    · rfl
    split
    · rfl
    split <;> rfl
  | opened =>
    refine .inl ⟨rfl,?_⟩
    rw [step,World.opened]
    split
    · rfl
    · split <;> rfl
  | deviceReady i =>
    rw [step,World.deviceReady]
    split
    · dsimp only
      split
      · exact .inl ⟨rfl,rfl⟩
      · exact .inr (.inl ⟨rfl,rfl⟩)
    · exact .inl ⟨rfl,rfl⟩
  | close code =>
    rw [step,World.close]
    split
    · exact .inl ⟨rfl,rfl⟩
    dsimp only
    split
    · rename_i s hsocket hrecovers
      unfold recovers at hrecovers
      refine .inr (.inr ⟨rfl,?_,rfl⟩)
      simpa using (Bool.and_eq_true_iff.mp hrecovers).2
    · exact .inl ⟨rfl,rfl⟩
  | enrollFails => exact .inl ⟨rfl,rfl⟩
  | relayRestart => exact .inl ⟨rfl,rfl⟩
  | elsewhere accounts auth elapsed => exact .inl ⟨rfl,rfl⟩
  | relayEnrolls i random secret storageUp =>
    exact .inl ⟨rfl,w.relayEnrolls_attempted i random secret storageUp⟩
  | enrollAnswer i uuid => exact .inl ⟨rfl,(w.enrollAnswer_same i uuid).2⟩
  | relayReads i secret storageUp leaseUp =>
    exact .inl ⟨rfl,w.relayReads_attempted i secret storageUp leaseUp⟩

/-- A token has been discarded and no `device-ready` has come since. -/
def Discarded : List IdentityEvent → Prop := Since .tokenDiscarded (· = .deviceReady)

/-- Between two `device-ready` messages at most one token is discarded. -/
def DiscardsOnce : List IdentityEvent → Prop :=
  Traced (fun before event => event = .tokenDiscarded → ¬ Discarded before)

theorem discardsOnce_step {tr : List IdentityEvent} (i : WorldInput)
    (h : DiscardsOnce tr ∧ (w.credentialRecoveryAttempted = false → ¬ Discarded tr)) :
    DiscardsOnce (tr ++ (w.step d i).2) ∧
      ((w.step d i).1.credentialRecoveryAttempted = false → ¬ Discarded (tr ++ (w.step d i).2)) := by
  obtain ⟨honce,hflag⟩ := h
  rcases w.step_events d i with ⟨hout,hsame⟩ | ⟨hout,-⟩ | ⟨hout,hbefore,hafter⟩
  · rw [hout,hsame,List.append_nil]
    exact ⟨honce,hflag⟩
  · rw [hout]
    refine ⟨traced_snoc.mpr ⟨honce,by simp⟩,fun _ => ?_⟩
    rw [Discarded,since_snoc]
    simp
  · rw [hout,hafter]
    exact ⟨traced_snoc.mpr ⟨honce,fun _ => hflag hbefore⟩,by simp⟩

end Discards

/-- A gateway process that has just started, with a credential for its device. -/
structure World.Started (d : Deployment) (id : Text) (w : World) : Prop where
  accepted : w.Accepted d id
  socket : w.relaySocket = none
  enrollment : w.enrollment = none
  hellos : w.hellos = []
  readies : w.readies = []
  requests : w.requests = []
  answers : w.answers = []

def Deployment.world (d : Deployment) : Machine World WorldInput IdentityEvent where
  init w := ∃ id, w.Started d id
  step := World.step d

/-- The relay goes on taking the credentials of the gateway for the same account. -/
def World.keepsAccount (d : Deployment) (w : World) (i : WorldInput) : Prop :=
  d.principal (w.relayLeft i) = d.principal w.relay

def WorldInput.ofGateway : WorldInput → Bool
  | .relayEnrolls _ _ _ _ | .relayReads _ _ _ _ | .relayRestart | .elsewhere _ _ _ => false
  | _ => true

section Runs

variable {d : Deployment} {id : Text} {w : World}

theorem World.Started.settled (h : w.Started d id) : w.Settled d id := by
  have hplain : w.Plain := ⟨by simp [h.hellos],by simp [h.readies]⟩
  refine ⟨⟨h.accepted.1,?_,?_,?_,?_,?_,?_⟩,⟨?_,?_,?_,?_,?_,?_⟩,?_,?_⟩
  · simp [h.hellos]
  · simp [h.readies]
  · simp [h.requests]
  · simp [h.answers]
  · simp [h.answers]
  · simp [h.enrollment]
  · simp [h.hellos]
  · simp [h.readies]
  · simp [h.requests]
  · simp [h.answers]
  · simp [h.socket]
  · simp [h.enrollment]
  · exact fun _ => ⟨hplain,fun hopen => absurd h.socket hopen⟩
  · exact fun _ => ⟨h.requests,.inr hplain⟩

theorem discardsOnce_run (h : w.Started d id) (schedule : List WorldInput) :
    DiscardsOnce (d.world.exec [] w schedule).1 := by
  have hrun : d.world.Run d.world.free (d.world.exec [] w schedule).1 (d.world.exec [] w schedule).2 :=
    Machine.Run.exec schedule (.start ⟨id,h⟩) (Machine.allowed_free _ _ _ _)
  exact (hrun.invariant (P := fun tr w =>
      DiscardsOnce tr ∧ (w.credentialRecoveryAttempted = false → ¬ Discarded tr))
    (fun _ _ => ⟨.nil _,fun _ => Since.nil⟩)
    (fun _ _ i hinv _ => discardsOnce_step i hinv)).1

/-- The gateway keeps a credential for its device throughout, and discards a token once between
two `device-ready` messages, precisely when all it ever loses can be replaced. -/
theorem identity_kept_iff (h : w.Started d id) (schedule : List WorldInput) :
    (∀ before later, schedule = before ++ later →
        (d.world.exec [] w before).2.Accepted d id) ∧
      DiscardsOnce (d.world.exec [] w schedule).1 ↔
    d.world.Allowed (fun _ w i => w.recoverable d id i) [] w schedule := by
  rw [and_iff_left (discardsOnce_run h schedule)]
  refine Machine.always_iff_allowed (I := World.Settled d id) (P := fun w => w.Accepted d id)
    ?_ ?_ schedule h.settled h.accepted
  · exact fun _ w i hsettled haccepted => World.accepted_step hsettled haccepted i
  · exact fun w i hsettled haccepted _ => hsettled.step haccepted i

theorem World.step_relay {i : WorldInput} (hi : i.ofGateway = true) : (w.step d i).1.relay = w.relay := by
  cases i with
  | connect =>
    change (w.connect d).relay = w.relay
    rcases w.connect_cases d with heq | ⟨-,heq,-⟩ | ⟨-,-,-,-,heq⟩ | ⟨-,-,-,-,heq⟩
    · rw [heq]
    · rw [heq]
      rfl
    · rw [heq]
      rfl
    · rw [heq]
      rfl
  | login =>
    rw [step,World.login]
    split
    · rfl
    split
    · rfl
    split <;> rfl
  | post =>
    rw [step,World.post]
    split
    · rfl
    split
    · rfl
    split <;> rfl
  | opened =>
    rw [step,World.opened]
    split
    · rfl
    split <;> rfl
  | enrollFails => rfl
  | enrollAnswer n uuid => exact (w.enrollAnswer_same n uuid).1
  | deviceReady n =>
    rw [step,World.deviceReady]
    split
    · dsimp only
      split <;> rfl
    · rfl
  | close code =>
    rw [step,World.close]
    split
    · rfl
    dsimp only
    split <;> rfl
  | _ => cases hi

theorem World.byAccount_relayEnrolls (h : w.Settled d id) (hby : d.ByAccount w.relay id) (i : Nat)
    (random : Fin 16 → UInt8) (secret : Fin 32 → UInt8) (storageUp : Bool) :
    d.ByAccount (w.relayEnrolls d i random secret storageUp).relay id := by
  unfold World.relayEnrolls
  split
  · exact hby
  rename_i n token requested hget
  have hrequest := h.named.requests _ (List.mem_of_getElem? hget)
  obtain ⟨hok,hid⟩ : d.TokenOk token ∧ normalizeDeviceId requested = some id := hrequest
  have hby' := hby
  obtain ⟨owner,hprincipal,-⟩ := hby'
  dsimp only
  split_ifs
  · exact hby
  split
  · exact hby
  rename_i user huser
  obtain rfl := tokenUser_eq hok huser hprincipal
  split
  · rename_i store id' henroll
    exact byAccount_enrollDevice hprincipal hid henroll
  · exact hby
  · exact hby

theorem World.relay_relayReads (h : w.Plain) {i : Nat} {secret : Fin 32 → UInt8} {storageUp leaseUp : Bool} :
    (w.relayReads d i secret storageUp leaseUp).relay = w.relay := by
  unfold World.relayReads
  split
  · rfl
  rename_i n hello hget
  dsimp only
  by_cases hup : storageUp = false
  · rw [if_pos hup]
  rw [if_neg hup]
  split
  · rfl
  rename_i store ready hresolve
  obtain ⟨rfl,-⟩ := resolve_credential (h.hellos _ (List.mem_of_getElem? hget)).1 hresolve
  split_ifs <;> rfl

theorem World.byAccount_step (h : w.Settled d id) (hby : d.ByAccount w.relay id) {i : WorldInput}
    (hkeeps : w.keepsAccount d i) : d.ByAccount (w.step d i).1.relay id := by
  have haccount : d.gateway.hasAccountCredentials = true := by
    obtain ⟨user,hprincipal,-⟩ := hby
    by_contra hnone
    rw [principal_eq_none (Bool.eq_false_of_not_eq_true hnone)] at hprincipal
    cases hprincipal
  cases i with
  | relayEnrolls n random secret up => exact byAccount_relayEnrolls h hby n random secret up
  | relayReads n secret up lease =>
    rw [step,relay_relayReads (h.account haccount).1]
    exact hby
  | relayRestart =>
    obtain ⟨user,hprincipal,henrolls⟩ := hby
    exact ⟨user,hkeeps.trans hprincipal,enrolls_restarted henrolls⟩
  | elsewhere accounts auth elapsed =>
    obtain ⟨user,hprincipal,henrolls⟩ := hby
    exact ⟨user,hkeeps.trans hprincipal,henrolls⟩
  | _ =>
    rw [step_relay rfl]
    exact hby

theorem World.keepsAccount_admin {name : Text} {i : WorldInput} (hunset : d.gateway.relayAccountToken = [])
    (hadmin : d.relay.adminValid d.gateway.loginBody = true)
    (hname : normalizeAccountUsername d.gateway.loginBody.username = some name) : w.keepsAccount d i := by
  rw [keepsAccount,principal_admin hunset hadmin hname,principal_admin hunset hadmin hname]

theorem World.Settled.accepted_byAccount (h : w.Settled d id) (ha : w.Accepted d id)
    (hby : d.ByAccount w.relay id) {i : WorldInput} (hkeeps : w.keepsAccount d i) :
    (w.step d i).1.Accepted d id :=
  (accepted_iff (h.step ha i).named.identity).mpr (.inr (.inl (World.byAccount_step h hby hkeeps)))

/-- Credentials of the owner that the relay goes on taking for the owner make a run harmless. -/
theorem World.Started.allowed (h : w.Started d id) (hby : d.ByAccount w.relay id)
    {schedule : List WorldInput}
    (hkeeps : d.world.Allowed (fun _ w i => w.keepsAccount d i) [] w schedule) :
    d.world.Allowed (fun _ w i => w.recoverable d id i) [] w schedule := by
  have hstart : w.Settled d id ∧ w.Accepted d id ∧ d.ByAccount w.relay id :=
    ⟨h.settled,h.accepted,hby⟩
  refine Machine.Allowed.of_invariant
    (I := fun _ w => w.Settled d id ∧ w.Accepted d id ∧ d.ByAccount w.relay id) ?_ ?_ hkeeps hstart
  · rintro _ w i ⟨hsettled,haccepted,hby⟩ hkeeps
    exact ⟨hsettled.step haccepted i,hsettled.accepted_byAccount haccepted hby hkeeps,
      World.byAccount_step hsettled hby hkeeps⟩
  · rintro _ w i ⟨hsettled,haccepted,hby⟩ hkeeps
    exact (World.accepted_step hsettled haccepted i).mp
      (hsettled.accepted_byAccount haccepted hby hkeeps)

end Runs

namespace Sample
open Relay.Sample

def laptop : PersistedRelayIdentity := { deviceId := device, deviceToken := secret }

def laptopRecord : MemoryDevice := { ownerUser := amy, credentialHash := config.hashCredential secret }

def laptopRow : DeviceRow := { ownerUser := some amy, credentialHash := config.hashCredential secret }

/-- The laptop belongs to `amy` and the relay keeps it in memory. -/
def owned : World where
  identity := laptop
  relay := { store := .memory { devices := OrdMap.empty.set device laptopRecord } }

/-- The gateway logs in as `amy`, the admin of the relay. -/
def withAccount : Deployment where
  gateway := { relayAccountUsername := amy, relayAccountPassword := "s3cret-admin-pw".toList }
  relay := accounts amy
  postgres := postgres

/-- A dropped handshake and a new enrolment, another account, and a restart after which the device
is enrolled anew. -/
def dropped : List WorldInput :=
  [.connect,.opened,.close 1006,.connect,.login,.post,.relayEnrolls 0 (fun _ => 0) (fun _ => 7) true,
   .enrollAnswer 0 [],.opened,.relayReads 1 (fun _ => 0) true true,.deviceReady 0,
   .elsewhere [("bob".toList,[])] {} 60,.close 1006,.relayRestart,.connect,.opened,.close 1006]

/-- The same laptop in the tables, and a gateway with nothing but its token. -/
def stored : World where
  identity := laptop
  relay := { store := .postgres { devices := OrdMap.empty.set device laptopRow } }

def tokenOnly : Deployment where
  relay := accounts amy
  postgres := postgres

end Sample

section Examples
open Relay.Sample

theorem owned_kept :
    (Sample.withAccount.world.exec [] Sample.owned Sample.dropped).1 =
        [.tokenDiscarded,.deviceReady,.tokenDiscarded] ∧
      (∀ before later, Sample.dropped = before ++ later →
        (Sample.withAccount.world.exec [] Sample.owned before).2.Accepted Sample.withAccount device) ∧
      DiscardsOnce (Sample.withAccount.world.exec [] Sample.owned Sample.dropped).1 := by
  have hid : normalizeDeviceId Sample.owned.identity.deviceId = some device := by decide
  have hby : Sample.withAccount.ByAccount Sample.owned.relay device := by
    refine ⟨amy,by decide,by decide,⟨rfl,rfl,rfl⟩,?_⟩
    intro d hd
    have hall : (Sample.owned.relay.store.device device).all
        (fun d => d.revoked = false && d.ownerUser = amy) = true := by decide
    simp only [hd,Option.all_some,Bool.and_eq_true,decide_eq_true_eq] at hall
    exact ⟨hall.1,.inr hall.2⟩
  have hstarted : Sample.owned.Started Sample.withAccount device :=
    ⟨(World.accepted_iff hid).mpr (.inr (.inl hby)),rfl,rfl,rfl,rfl,rfl,rfl⟩
  have hkeeps : Sample.withAccount.world.Allowed (fun _ w i => w.keepsAccount Sample.withAccount i) []
      Sample.owned Sample.dropped := by
    refine Machine.Allowed.of_invariant (I := fun _ _ => True) (fun _ _ _ _ _ => trivial) ?_
      (Machine.allowed_free _ Sample.dropped _ _) trivial
    exact fun _ w i _ _ => World.keepsAccount_admin rfl (by decide) (show _ = some amy by decide)
  refine ⟨by decide,?_⟩
  exact (identity_kept_iff hstarted Sample.dropped).mpr (hstarted.allowed hby hkeeps)

/-- One dropped handshake costs a gateway its only credential: the device is accepted before it,
and neither account nor server token is left after it. -/
theorem stored_lost :
    Sample.stored.Started Sample.tokenOnly device ∧
      ¬ ∀ before later, [.connect,.opened,.close 1006] = before ++ later →
        (Sample.tokenOnly.world.exec [] Sample.stored before).2.Accepted Sample.tokenOnly device := by
  constructor
  · refine ⟨⟨by decide,.inl ⟨amy,?_⟩⟩,rfl,rfl,rfl,rfl,rfl,rfl⟩
    rfl
  · intro h
    obtain ⟨-,hauth | ⟨user,hprincipal,-⟩ | ⟨htoken,-⟩⟩ := h [.connect,.opened,.close 1006] [] rfl
    · exact World.not_authenticates (d := Sample.tokenOnly) (by decide) hauth
    · cases hprincipal
    · exact htoken rfl

end Examples

end CodeHarbor.Network.Identity
