import CodeHarbor.Lib.OrdMap
import CodeHarbor.Relay.Token
set_option autoImplicit false

namespace CodeHarbor.Relay
open Lib Lib.Go Lib.Base64

/-! The stored devices, as the handlers of a relay instance read and write them. -/

def maxDeviceIdLength : Nat := 256

def isControl (ch : Char) : Bool :=
  ch.toNat < 0x20 || (0x7f ≤ ch.toNat && ch.toNat ≤ 0x9f)

def normalizeDeviceId (raw : Text) : Option Text :=
  let id := trimSpace raw
  if id = [] ∨ byteLen id > maxDeviceIdLength then none
  else if id.any (fun ch => isControl ch || ch == '/' || ch == '\\') then none
  else some id

/-- Account names are signed into tokens only after normalisation, and the configured
administrator is trimmed, so a principal is its own trimming. -/
structure Account where
  user : Text
  trimmed : trimSpace user = user
  deriving DecidableEq, Repr

structure DeviceRecord where
  ownerUser : Text := []
  credentialHash : Bytes := []
  revoked : Bool := false
  deriving DecidableEq, Repr

abbrev DeviceRecords := OrdMap Text DeviceRecord

/-- `store.revokeDevice`; a failed call leaves the records alone. -/
def DeviceRecords.revokeDevice (records : DeviceRecords) (account : Account) (raw : Text) :
    Option DeviceRecords :=
  let ownerUser := trimSpace account.user
  match normalizeDeviceId raw with
  | none => none
  | some deviceId =>
    if ownerUser = [] then none
    else
      match records.get deviceId with
      | none => none
      | some record =>
        if record.ownerUser ≠ ownerUser then none
        else some (records.set deviceId { record with revoked := true })

/-- `store.enrollDevice` with its random id (when none is requested) and secret. -/
def DeviceRecords.enrollDevice (c : Config) (records : DeviceRecords) (user requested random
    secret : Text) : Option DeviceRecords :=
  let id := if requested = [] then some random else normalizeDeviceId requested
  let record : DeviceRecord := { ownerUser := user, credentialHash := c.hashCredential secret }
  match id with
  | none => none
  | some id =>
    if user = [] then none
    else
      match records.get id with
      | some existing =>
        if existing.revoked then none
        else if existing.ownerUser ≠ [] ∧ existing.ownerUser ≠ user then none
        else some (records.set id record)
      | none => some (records.set id record)

/-- `store.registerLegacyDevice`: only devices that are neither revoked nor owned. -/
def DeviceRecords.registerLegacyDevice (c : Config) (records : DeviceRecords) (raw secret : Text) :
    Option (Text × DeviceRecord × DeviceRecords) :=
  match normalizeDeviceId raw with
  | none => none
  | some id =>
    let record : DeviceRecord := { credentialHash := c.hashCredential secret }
    match records.get id with
    | some existing =>
      if existing.revoked ∨ existing.ownerUser ≠ [] then none
      else some (id,record,records.set id record)
    | none => some (id,record,records.set id record)

def DeviceRecords.authenticateDevice (c : Config) (records : DeviceRecords) (id secret : Text) :
    Option DeviceRecord :=
  if id = [] ∨ secret = [] then none
  else
    match records.get id with
    | none => none
    | some record =>
      if record.credentialHash ≠ c.hashCredential secret ∨ record.revoked then none
      else some record

/-- What `consumePairCode` does to the device of a valid, unused code. -/
def DeviceRecords.pairDevice (records : DeviceRecords) (id : Text) (account : Account) :
    Option DeviceRecords :=
  let ownerUser := trimSpace account.user
  if ownerUser = [] then none
  else
    match records.get id with
    | none => none
    | some record =>
      if record.revoked then none
      else if record.ownerUser ≠ [] ∧ record.ownerUser ≠ ownerUser then none
      else some (records.set id { record with ownerUser := ownerUser })

section Records

def DeviceRecords.owns (records : DeviceRecords) (deviceId ownerUser : Text) : Prop :=
  ownerUser ≠ [] ∧ ∃ record, records.get deviceId = some record ∧ record.ownerUser = ownerUser

def DeviceRecords.revokes (records : DeviceRecords) (deviceId : Text) : Prop :=
  ∃ record, records.get deviceId = some record ∧ record.revoked = true

/-- Stored devices keep an owner once they have one, and stay revoked. -/
def DeviceRecords.Grows (records later : DeviceRecords) : Prop :=
  ∀ deviceId record, records.get deviceId = some record →
    ∃ record', later.get deviceId = some record' ∧
      (record.ownerUser ≠ [] → record'.ownerUser = record.ownerUser) ∧
      (record.revoked = true → record'.revoked = true)

variable {records later : DeviceRecords} {deviceId ownerUser : Text}

theorem DeviceRecords.Grows.refl (records : DeviceRecords) : records.Grows records := by
  intro deviceId record h
  exact ⟨record,h,fun _ => rfl,id⟩

theorem DeviceRecords.Grows.trans {last : DeviceRecords} (h : records.Grows later)
    (h' : later.Grows last) : records.Grows last := by
  intro deviceId record hget
  obtain ⟨record',hget',howner,hrevoked⟩ := h deviceId record hget
  obtain ⟨record'',hget'',howner',hrevoked'⟩ := h' deviceId record' hget'
  refine ⟨record'',hget'',?_,fun hr => hrevoked' (hrevoked hr)⟩
  intro hne
  have hsame := howner hne
  rw [howner' (by rw [hsame]; exact hne),hsame]

theorem DeviceRecords.grows_set {new : DeviceRecord}
    (h : ∀ record, records.get deviceId = some record →
      (record.ownerUser ≠ [] → new.ownerUser = record.ownerUser) ∧
      (record.revoked = true → new.revoked = true)) : records.Grows (records.set deviceId new) := by
  intro id record hget
  rw [OrdMap.get_set]
  split_ifs with hid
  · subst hid
    exact ⟨new,rfl,h record hget⟩
  · exact ⟨record,hget,fun _ => rfl,fun hr => hr⟩

theorem DeviceRecords.owns.grows (h : records.owns deviceId ownerUser) (hg : records.Grows later) :
    later.owns deviceId ownerUser := by
  obtain ⟨hne,record,hget,howner⟩ := h
  obtain ⟨record',hget',howner',-⟩ := hg deviceId record hget
  exact ⟨hne,record',hget',by rw [howner' (by rw [howner]; exact hne),howner]⟩

theorem DeviceRecords.revokes.grows (h : records.revokes deviceId) (hg : records.Grows later) :
    later.revokes deviceId := by
  obtain ⟨record,hget,hrevoked⟩ := h
  obtain ⟨record',hget',-,hrevoked'⟩ := hg deviceId record hget
  exact ⟨record',hget',hrevoked' hrevoked⟩

theorem DeviceRecords.revokeDevice_spec {account : Account} {raw : Text}
    (h : records.revokeDevice account raw = some later) :
    records.Grows later ∧ ∃ deviceId, normalizeDeviceId raw = some deviceId ∧
      later.owns deviceId account.user ∧ later.revokes deviceId := by
  unfold revokeDevice at h
  rw [account.trimmed] at h
  cases hid : normalizeDeviceId raw with
  | none => simp [hid] at h
  | some deviceId =>
    by_cases hne : account.user = []
    · simp [hid,hne] at h
    cases hget : records.get deviceId with
    | none => simp [hid,hne,hget] at h
    | some record =>
      by_cases howner : record.ownerUser = account.user
      · simp [hid,hne,hget,howner] at h
        subst h
        refine ⟨grows_set ?_,deviceId,rfl,⟨hne,_,by rw [OrdMap.get_set,if_pos rfl],rfl⟩,
          ⟨_,by rw [OrdMap.get_set,if_pos rfl],rfl⟩⟩
        intro existing hexisting
        rw [hget] at hexisting
        cases hexisting
        simp [howner]
      · simp [hid,hne,hget,howner] at h

theorem DeviceRecords.enrollDevice_grows {c : Config} {user requested random secret : Text}
    (h : records.enrollDevice c user requested random secret = some later) :
    records.Grows later := by
  unfold enrollDevice at h
  dsimp only at h
  split at h
  · cases h
  · rename_i id hid
    split_ifs at h with hne
    split at h
    · rename_i existing hget
      split_ifs at h with hrevoked howner
      cases h
      apply grows_set
      intro record hrecord
      rw [hget] at hrecord
      cases hrecord
      refine ⟨?_,fun hr => absurd hr hrevoked⟩
      intro hne'
      by_contra hdiff
      exact howner ⟨hne',fun heq => hdiff heq.symm⟩
    · rename_i hget
      cases h
      apply grows_set
      intro record hrecord
      rw [hget] at hrecord
      cases hrecord

theorem DeviceRecords.registerLegacyDevice_spec {c : Config} {raw secret id : Text}
    {record : DeviceRecord} (h : records.registerLegacyDevice c raw secret = some (id,record,later)) :
    records.Grows later ∧ ¬ records.revokes id ∧ record.ownerUser = [] := by
  unfold registerLegacyDevice at h
  cases hid : normalizeDeviceId raw with
  | none => simp [hid] at h
  | some deviceId =>
    simp only [hid] at h
    cases hget : records.get deviceId with
    | none =>
      simp only [hget,Option.some.injEq,Prod.mk.injEq] at h
      obtain ⟨rfl,rfl,rfl⟩ := h
      refine ⟨grows_set ?_,?_,rfl⟩
      · simp [hget]
      · rintro ⟨existing,hexisting,-⟩
        rw [hget] at hexisting
        cases hexisting
    | some existing =>
      simp only [hget] at h
      split_ifs at h with hrefused
      simp only [Option.some.injEq,Prod.mk.injEq] at h
      obtain ⟨rfl,rfl,rfl⟩ := h
      rw [not_or,not_not] at hrefused
      refine ⟨grows_set ?_,?_,rfl⟩
      · intro record hrecord
        rw [hget] at hrecord
        cases hrecord
        simp [hrefused]
      · rintro ⟨record,hrecord,hrevoked⟩
        rw [hget] at hrecord
        cases hrecord
        exact hrefused.1 hrevoked

theorem DeviceRecords.authenticateDevice_spec {c : Config} {id secret : Text} {record : DeviceRecord}
    (h : records.authenticateDevice c id secret = some record) :
    ¬ records.revokes id ∧ records.get id = some record := by
  unfold authenticateDevice at h
  split_ifs at h
  cases hget : records.get id with
  | none => simp [hget] at h
  | some existing =>
    simp only [hget] at h
    split_ifs at h with hrefused
    cases h
    refine ⟨?_,rfl⟩
    rintro ⟨other,hother,hrevoked⟩
    rw [hget] at hother
    cases hother
    exact hrefused (.inr hrevoked)

theorem DeviceRecords.pairDevice_spec {account : Account}
    (h : records.pairDevice deviceId account = some later) :
    records.Grows later ∧ later.owns deviceId account.user := by
  unfold pairDevice at h
  rw [account.trimmed] at h
  by_cases hne : account.user = []
  · simp [hne] at h
  cases hget : records.get deviceId with
  | none => simp [hne,hget] at h
  | some record =>
    simp only [hne,if_false,hget] at h
    split_ifs at h with hrevoked howner
    cases h
    refine ⟨grows_set ?_,hne,_,by rw [OrdMap.get_set,if_pos rfl],rfl⟩
    intro existing hexisting
    rw [hget] at hexisting
    cases hexisting
    refine ⟨?_,fun hr => absurd hr hrevoked⟩
    intro hne'
    by_contra hdiff
    exact howner ⟨hne',fun heq => hdiff heq.symm⟩

end Records

end CodeHarbor.Relay
