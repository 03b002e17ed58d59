import CodeHarbor.Relay.Devices
set_option autoImplicit false

namespace CodeHarbor.Relay
open Lib Lib.Go Lib.Sql Lib.Base64

/-! Pair codes read off the history of the store: which code a device was given last, and
what has become of a code since it was created. -/

/-- The last creation of a code: `consumed` when it has been used since, `lapsed` when a
clean-up has found it expired since. -/
structure CodeHistory where
  deviceId : Text
  expiresAt : Time
  consumed : Bool := false
  lapsed : Bool := false
  deriving DecidableEq, Repr

def advanceCode (code : Text) (h : Option CodeHistory) : DeviceEvent → Option CodeHistory
  | .created code' deviceId expiresAt =>
    if code' = code then some { deviceId := deviceId, expiresAt := expiresAt } else h
  | .consumed code' _ _ => if code' = code then h.map ({ · with consumed := true }) else h
  | .cleaned now =>
    h.map (fun h => { h with lapsed := h.lapsed || decide (h.expiresAt ≤ now) })
  | .issued _ _ | .revoked _ => h

def codeHistory (code : Text) (tr : List DeviceEvent) : Option CodeHistory :=
  tr.foldl (advanceCode code) none

def advanceLatest (deviceId : Text) (latest : Option Text) : DeviceEvent → Option Text
  | .created code deviceId' _ => if deviceId' = deviceId then some code else latest
  | _ => latest

def latestCode (deviceId : Text) (tr : List DeviceEvent) : Option Text :=
  tr.foldl (advanceLatest deviceId) none

theorem codeHistory_snoc (code : Text) (tr : List DeviceEvent) (e : DeviceEvent) :
    codeHistory code (tr ++ [e]) = advanceCode code (codeHistory code tr) e := by
  simp [codeHistory]

theorem latestCode_snoc (deviceId : Text) (tr : List DeviceEvent) (e : DeviceEvent) :
    latestCode deviceId (tr ++ [e]) = advanceLatest deviceId (latestCode deviceId tr) e := by
  simp [latestCode]

def CodeHistory.record (h : CodeHistory) (code : Text) (tr : List DeviceEvent) : Option PairCode :=
  if h.lapsed then none
  else some ⟨h.deviceId,h.expiresAt,h.consumed || latestCode h.deviceId tr ≠ some code⟩

/-- SHA-256 tells the six-character codes apart. -/
def Config.SeparatesCodes (c : Config) : Prop :=
  ∀ code code', byteLen code = pairCodeLength → byteLen code' = pairCodeLength →
    c.hashCredential code = c.hashCredential code' → code = code'

/-- The store has exactly the records that the history accounts for. -/
def DeviceStore.Recorded (c : Config) (tr : List DeviceEvent) (s : DeviceStore) : Prop :=
  ∀ code, (byteLen code ≠ pairCodeLength → codeHistory code tr = none) ∧
    (byteLen code = pairCodeLength →
      s.pairCode (c.hashCredential code) = (codeHistory code tr).bind (·.record code tr))

section Records

variable {c : Config} {pg : Postgres} {tr : List DeviceEvent} {s s' : DeviceStore}

theorem DeviceStore.Recorded.frame (h : s.Recorded c tr) (hcode : s'.pairCode = s.pairCode)
    {out : List DeviceEvent} (hhistory : ∀ code, codeHistory code (tr ++ out) = codeHistory code tr)
    (hlatest : ∀ id, latestCode id (tr ++ out) = latestCode id tr) : s'.Recorded c (tr ++ out) := by
  intro code
  obtain ⟨hnone,hrecord⟩ := h code
  refine ⟨fun hshape => (hhistory code).trans (hnone hshape),?_⟩
  intro hshape
  rw [hcode,hrecord hshape,hhistory]
  cases codeHistory code tr with
  | none => rfl
  | some hist => simp [CodeHistory.record,hlatest]

theorem DeviceStore.Recorded.created (hsha : c.SeparatesCodes) (h : s.Recorded c tr)
    {code id : Text} {expiresAt : Time} (hshape : byteLen code = pairCodeLength)
    (hcreates : s.Creates pg s' id (c.hashCredential code) expiresAt) :
    s'.Recorded c (tr ++ [.created code id expiresAt]) := by
  intro code'
  obtain ⟨hnone,hrecord⟩ := h code'
  rw [codeHistory_snoc,advanceCode]
  by_cases hcode : code = code'
  · subst hcode
    refine ⟨fun hother => absurd hshape hother,?_⟩
    intro _
    rw [hcreates.pairCode,if_pos rfl,if_pos rfl]
    simp [CodeHistory.record,latestCode_snoc,advanceLatest]
  · rw [if_neg hcode]
    refine ⟨hnone,?_⟩
    intro hshape'
    have hhash : c.hashCredential code' ≠ c.hashCredential code :=
      fun heq => hcode (hsha code code' hshape hshape' heq.symm)
    rw [hcreates.pairCode,if_neg hhash,hrecord hshape']
    cases codeHistory code' tr with
    | none => rfl
    | some hist =>
      simp only [Option.bind_some,CodeHistory.record,latestCode_snoc,advanceLatest]
      cases hist.lapsed with
      | true => rfl
      | false =>
        by_cases hid : hist.deviceId = id
        · -- the newer code of the device supersedes this one
          simp [PairCode.supersede,hid,hcode]
        · simp [PairCode.supersede,hid,Ne.symm hid]

theorem DeviceStore.Recorded.consumed (hsha : c.SeparatesCodes) (h : s.Recorded c tr)
    {code user : Text} {now : Time} {p : PairCode} {d : Device} (hshape : byteLen code = pairCodeLength)
    (hlive : s.Consumes pg (c.hashCredential code) user now p d)
    (hbound : s.Bound pg s' (c.hashCredential code) user p d) :
    s'.Recorded c (tr ++ [.consumed code p.deviceId user]) := by
  intro code'
  obtain ⟨hnone,hrecord⟩ := h code'
  have hlatest : ∀ id, latestCode id (tr ++ [.consumed code p.deviceId user]) = latestCode id tr :=
    fun id => latestCode_snoc id tr _
  rw [codeHistory_snoc,advanceCode]
  by_cases hcode : code = code'
  · subst hcode
    refine ⟨fun hother => absurd hshape hother,?_⟩
    intro _
    have hp := hrecord hshape
    rw [hlive.code] at hp
    rw [hbound.pairCode,if_pos rfl,if_pos rfl]
    cases hhist : codeHistory code tr with
    | none => simp [hhist] at hp
    | some hist =>
      simp only [hhist,Option.bind_some,CodeHistory.record] at hp
      split_ifs at hp with hlapsed
      cases hp
      simp [CodeHistory.record,hlapsed]
  · rw [if_neg hcode]
    refine ⟨hnone,?_⟩
    intro hshape'
    have hhash : c.hashCredential code' ≠ c.hashCredential code :=
      fun heq => hcode (hsha code code' hshape hshape' heq.symm)
    rw [hbound.pairCode,if_neg hhash,hrecord hshape']
    cases codeHistory code' tr with
    | none => rfl
    | some hist => simp [CodeHistory.record,hlatest]

theorem DeviceStore.Recorded.cleaned (h : s.Recorded c tr) (now : Time) :
    (s.cleanupExpired now).Recorded c (tr ++ [.cleaned now]) := by
  intro code
  obtain ⟨hnone,hrecord⟩ := h code
  have hlatest : ∀ id, latestCode id (tr ++ [.cleaned now]) = latestCode id tr :=
    fun id => latestCode_snoc id tr _
  rw [codeHistory_snoc,advanceCode]
  refine ⟨fun hshape => by rw [hnone hshape]; rfl,?_⟩
  intro hshape
  rw [cleanupExpired_pairCode,hrecord hshape]
  cases codeHistory code tr with
  | none => rfl
  | some hist =>
    simp only [Option.map_some,Option.bind_some,CodeHistory.record,hlatest]
    cases hist.lapsed with
    | true => simp
    | false =>
      by_cases hexpired : hist.expiresAt ≤ now
      · simp [hexpired,Option.filter]
      · simp [hexpired,Option.filter,lt_of_not_ge hexpired]

theorem DeviceStore.Recorded.step (hsha : c.SeparatesCodes) (h : s.Recorded c tr)
    {out : List DeviceEvent} (heffect : s.Effect c pg s' out) : s'.Recorded c (tr ++ out) := by
  cases heffect with
  | none => exact h.frame rfl (fun _ => by rw [List.append_nil]) (fun _ => by rw [List.append_nil])
  | issued hnamed htoken hissued =>
    obtain ⟨name,hputs⟩ := hissued.puts
    exact h.frame hputs.pairCode (fun _ => codeHistory_snoc _ _ _) (fun _ => latestCode_snoc _ _ _)
  | revoked hd hputs =>
    exact h.frame hputs.pairCode (fun _ => codeHistory_snoc _ _ _) (fun _ => latestCode_snoc _ _ _)
  | created hshape hcreates => exact h.created hsha hshape hcreates
  | consumed hlive hbound hshape hnamed => exact h.consumed hsha hshape hlive hbound
  | cleaned now => exact h.cleaned now

theorem Config.deviceStore_recorded (hsha : c.SeparatesCodes)
    (hr : (c.deviceStore pg).Run (c.deviceStore pg).free tr s) : s.Recorded c tr := by
  refine hr.invariant (P := fun tr s => s.Recorded c tr) ?_ ?_
  · rintro s (rfl | rfl) code
    · exact ⟨fun _ => rfl,fun _ => rfl⟩
    · exact ⟨fun _ => rfl,fun _ => rfl⟩
  · intro tr s i h _
    exact h.step hsha (c.deviceStep_effect pg s i)

end Records

/-- The code is the newest of some device, neither consumed nor expired, and the device
exists, is not revoked and has no owner other than the user. -/
def Redeemable (tr : List DeviceEvent) (s : DeviceStore) (code user : Text) (now : Time) : Prop :=
  ∃ h d, codeHistory code tr = some h ∧ latestCode h.deviceId tr = some code ∧
    h.consumed = false ∧ h.lapsed = false ∧ now < h.expiresAt ∧
    s.device h.deviceId = some d ∧ d.revoked = false ∧ (d.ownerUser = [] ∨ d.ownerUser = user)

/-- Between two uses of a code lies a creation of it. -/
def ConsumedOnce : List DeviceEvent → Prop :=
  Traced (fun pre e => ∀ code deviceId user, e = .consumed code deviceId user →
    ∃ h, codeHistory code pre = some h ∧ h.consumed = false)

section Redemption

variable {c : Config} {pg : Postgres} {tr : List DeviceEvent} {s s' : DeviceStore}

/-- A record is unused exactly while its code is the newest of its device and unconsumed. -/
theorem DeviceStore.Recorded.unused (h : s.Recorded c tr) {code : Text}
    (hshape : byteLen code = pairCodeLength) (p : PairCode) :
    s.pairCode (c.hashCredential code) = some p ∧ p.used = false ↔
      ∃ hist, codeHistory code tr = some hist ∧ hist.lapsed = false ∧ hist.consumed = false ∧
        latestCode hist.deviceId tr = some code ∧ p = ⟨hist.deviceId,hist.expiresAt,false⟩ := by
  rw [(h code).2 hshape]
  cases codeHistory code tr with
  | none => simp
  | some hist =>
    simp only [Option.bind_some,CodeHistory.record,Option.some.injEq,exists_eq_left']
    cases hist.lapsed with
    | true => simp
    | false =>
      simp only [Bool.false_eq_true,if_false,Option.some.injEq,true_and]
      constructor
      · rintro ⟨rfl,hunused⟩
        simp only [Bool.or_eq_false_iff,decide_eq_false_iff_not,not_not] at hunused
        simp [hunused]
      · rintro ⟨hconsumed,hlatest,rfl⟩
        simp [hconsumed,hlatest]

theorem DeviceStore.Recorded.redeemable (h : s.Recorded c tr) (code : Text) {user : Text} (now : Time)
    (huser : trimSpace user ≠ []) (hholds : s.holds pg (trimSpace user) = true) :
    (∃ r, s.consumePairCode c pg code user now = .ok r) ↔
      Redeemable tr s (normalizePairCode code) (trimSpace user) now := by
  rw [consumePairCode_iff]
  constructor
  · rintro ⟨hshape,-,p,d,hlive⟩
    obtain ⟨hist,hhist,hlapsed,hconsumed,hlatest,rfl⟩ := (h.unused hshape p).mp ⟨hlive.code,hlive.unused⟩
    exact ⟨hist,d,hhist,hlatest,hconsumed,hlapsed,hlive.fresh,hlive.device,hlive.free⟩
  · rintro ⟨hist,d,hhist,hlatest,hconsumed,hlapsed,hfresh,hdevice,hfree⟩
    have hshape : byteLen (normalizePairCode code) = pairCodeLength := by
      by_contra hother
      rw [(h _).1 hother] at hhist
      cases hhist
    obtain ⟨hcode,hunused⟩ := (h.unused hshape _).mpr ⟨hist,hhist,hlapsed,hconsumed,hlatest,rfl⟩
    exact ⟨hshape,huser,_,d,⟨hcode,hunused,hfresh,hdevice,hfree,hholds⟩⟩

theorem ConsumedOnce.step (hrecorded : s.Recorded c tr) (h : ConsumedOnce tr)
    {out : List DeviceEvent} (heffect : s.Effect c pg s' out) : ConsumedOnce (tr ++ out) := by
  cases heffect with
  | none => simpa using h
  | revoked hd hputs => exact traced_snoc.mpr ⟨h,by simp⟩
  | issued hnamed htoken hissued => exact traced_snoc.mpr ⟨h,by simp⟩
  | created hshape hcreates => exact traced_snoc.mpr ⟨h,by simp⟩
  | cleaned now => exact traced_snoc.mpr ⟨h,by simp⟩
  | consumed hlive hbound hshape hnamed =>
    refine traced_snoc.mpr ⟨h,?_⟩
    rintro code deviceId user heq
    cases heq
    obtain ⟨hist,hhist,-,hconsumed,-⟩ := (hrecorded.unused hshape _).mp ⟨hlive.code,hlive.unused⟩
    exact ⟨hist,hhist,hconsumed⟩

theorem Config.deviceStore_consumedOnce (hsha : c.SeparatesCodes)
    (hr : (c.deviceStore pg).Run (c.deviceStore pg).free tr s) : ConsumedOnce tr := by
  have hboth : s.Recorded c tr ∧ ConsumedOnce tr := by
    refine hr.invariant (P := fun tr s => s.Recorded c tr ∧ ConsumedOnce tr) ?_ ?_
    · intro s hinit
      exact ⟨deviceStore_recorded hsha (.start hinit),Traced.nil _⟩
    · intro tr s i h _
      have heffect := c.deviceStep_effect pg s i
      exact ⟨h.1.step hsha heffect,h.2.step h.1 heffect⟩
  exact hboth.2

end Redemption

/-- Pair codes are single-use and only the latest of a device is live. -/
theorem Config.pairCodes_single_use (c : Config) (pg : Postgres) (hsha : c.SeparatesCodes)
    {tr : List DeviceEvent} {s : DeviceStore}
    (hr : (c.deviceStore pg).Run (c.deviceStore pg).free tr s) (code : Text) (u : Account) (now : Time)
    (hu : u.user ≠ []) (hholds : s.holds pg u.user = true) :
    ((∃ r, s.consumePairCode c pg code u.user now = .ok r) ↔
      Redeemable tr s (normalizePairCode code) u.user now) ∧
    ConsumedOnce tr ∧
    (∀ s' id, s.consumePairCode c pg code u.user now = .ok (s',id) →
      ∃ d, s.device id = some d ∧
        (∀ j, s'.device j = if j = id then some { d with ownerUser := u.user } else s.device j) ∧
        (∀ hash, s'.pairCode hash =
          if hash = c.hashCredential (normalizePairCode code) then
            (s.pairCode hash).map ({ · with used := true })
          else s.pairCode hash)) ∧
    ((∀ r, s.consumePairCode c pg code u.user now ≠ .ok r) →
      c.deviceStep pg s (.consumePairCode code u.user now) = (s,[])) := by
  have hrecorded := deviceStore_recorded hsha hr
  refine ⟨?_,deviceStore_consumedOnce hsha hr,?_,?_⟩
  · have htrimmed := u.trimmed
    have hredeem := hrecorded.redeemable code now (by rw [htrimmed]; exact hu)
      (by rw [htrimmed]; exact hholds)
    rwa [htrimmed] at hredeem
  · intro s' id h
    obtain ⟨p,d,hlive,rfl,hbound⟩ := DeviceStore.consumePairCode_spec h
    rw [u.trimmed] at hlive hbound
    refine ⟨d,hlive.device,hbound.device,?_⟩
    intro hash
    rw [hbound.pairCode]
    split_ifs with heq
    · rw [heq,hlive.code,Option.map_some]
    · rfl
  · intro hfail
    rw [deviceStep]
    cases h : s.consumePairCode c pg code u.user now with
    | error e => rfl
    | ok r => exact absurd h (hfail r)

namespace Sample

def pairedLaptop : List DeviceEvent × DeviceStore :=
  (config.deviceStore postgres).exec [] (.postgres {})
    [.registerLegacy device [] (fun _ => 7),.createPairCode device (fun _ => 0) 0]

end Sample

theorem pairedLaptop_single_use :
    codeHistory "AAAAAA".toList Sample.pairedLaptop.1 = some ⟨Sample.device,pairCodeTTL,false,false⟩ ∧
      ∃ r, Sample.pairedLaptop.2.consumePairCode Sample.config Sample.postgres " aaaaaa".toList
        Sample.amy 60000000000 = .ok r := by
  refine ⟨by decide,?_⟩
  have hsha : Sample.config.SeparatesCodes := fun _ _ _ _ h => Sample.spread_injective h
  have hrun : (Sample.config.deviceStore Sample.postgres).Run (Machine.free _) Sample.pairedLaptop.1
      Sample.pairedLaptop.2 := Machine.Run.exec _ (.start (.inr rfl)) (Machine.allowed_free _ _ _ _)
  have hone := Config.pairCodes_single_use Sample.config Sample.postgres hsha hrun " aaaaaa".toList
    Sample.amyAccount 60000000000 (by decide) (by decide +kernel)
  refine hone.1.mpr ⟨⟨Sample.device,pairCodeTTL,false,false⟩,
    ⟨[],[],Sample.config.hashCredential (randomToken (fun _ => 7)),false⟩,?_⟩
  decide

end CodeHarbor.Relay
