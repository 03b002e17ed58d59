import CodeHarbor.Relay.Account
import CodeHarbor.Lib.Utf8
set_option autoImplicit false

namespace CodeHarbor.Relay
open Lib Lib.Go

/-! An account from its registration to its later logins. -/

def bytesOf (text : Text) : List UInt8 := text.flatMap String.utf8EncodeChar

/-- What bcrypt is known for: it hashes no more than 72 bytes, and compares the first 72. (It fills
them up by repeating the password with a NUL between, so that the library takes P and P NUL P for
the same password; that is left aside here.) -/
structure AccountConfig.Bcrypt (c : AccountConfig) : Prop where
  generates : ∀ salt password, c.generateFromPassword salt password = none ↔ 72 < (bytesOf password).length
  compares : ∀ salt password hash other, c.generateFromPassword salt password = some hash →
    (c.compareHashAndPassword hash other = true ↔ (bytesOf other).take 72 = (bytesOf password).take 72)

/-- Nothing outside the request stands in its way. -/
def Surroundings.Ready (env : Surroundings) : Prop := env.limiter = .allowed ∧ env.storageUp = true

/-- A login by name and password that is given a token. -/
def AccountConfig.LogsIn (c : AccountConfig) (s : AccountState) (env : Surroundings) (body : LoginBody) : Prop :=
  ∃ user, (c.login s env (some body)).2 = .token user

/-- A registration succeeds, and from then on, whatever happens, every spelling of the name logs in with
the password and no other, the admin's apart; and one that fails leaves the accounts as they are. -/
structure AccountConfig.RoundTrip (c : AccountConfig) (s : AccountState) (registration : RegisterBody)
    (name : Text) : Prop where
  succeeds : ∀ env, env.Ready → (c.register s env (some registration)).2 = .token name
  logsIn : ∀ env, env.Ready → ∀ (inputs : List AuthInput) (later : Surroundings) (body : LoginBody), later.Ready →
    trimSpace body.token = [] → normalizeAccountUsername body.username = some name →
    (c.LogsIn (c.machine.exec [] (c.register s env (some registration)).1 inputs).2 later body ↔
      body.password = registration.password ∨ c.adminValid body = true)
  failed : ∀ env body status message, (c.register s env body).2 = .error status message →
    (c.register s env body).1.accounts = s.accounts

theorem length_bytesOf (text : Text) : (bytesOf text).length = byteLen text := by
  rw [bytesOf,byteLen,List.length_flatMap]
  simp only [String.length_utf8EncodeChar]

theorem bytesOf_injective {a b : Text} (h : bytesOf a = bytesOf b) : a = b := by
  apply String.ofList_injective
  rw [← String.toByteArray_inj,String.toByteArray_ofList,String.toByteArray_ofList,List.utf8Encode,List.utf8Encode]
  exact congrArg List.toByteArray h

theorem bytesOf_append (a b : Text) : bytesOf (a ++ b) = bytesOf a ++ bytesOf b := List.flatMap_append

namespace AccountConfig

section
variable {c : AccountConfig} {s : AccountState} {name : Text} {hash : Lib.Base64.Bytes}

theorem register_failed (env : Surroundings) (body : Option RegisterBody) {status : Nat} {message : String}
    (h : (c.register s env body).2 = .error status message) : (c.register s env body).1.accounts = s.accounts := by
  rcases c.register_cases s env body with ⟨_,_,same⟩ | ⟨_,_,_,-,-,-,filed⟩
  · rw [same]
  · rw [filed] at h
    cases h

theorem lookup_handle (h : s.accounts.lookup name = some hash) (i : AuthInput) :
    (c.handle s i).1.accounts.lookup name = some hash := by
  unfold handle
  cases i.call with
  | register body =>
    rcases c.register_cases s i.env body with ⟨_,_,same⟩ | ⟨_,other,_,-,-,free,filed⟩
    · simpa [same] using h
    · have apart : (name == other) = false := by
        apply beq_false_of_ne
        rintro rfl
        rw [h] at free
        cases free
      dsimp only
      rw [filed,List.lookup_cons,apart]
      exact h
  | login body =>
    rw [c.login_accounts s i.env body]
    exact h
  | sessionToken req => exact h
  | refresh req => exact h
  | other pairing auth => exact h

theorem lookup_exec (h : s.accounts.lookup name = some hash) (inputs : List AuthInput) (tr : List Reply) :
    (c.machine.exec tr s inputs).2.accounts.lookup name = some hash := by
  induction inputs generalizing s tr with
  | nil => exact h
  | cons i inputs ih => exact ih (lookup_handle h i) _

theorem logsIn_iff (h : s.accounts.lookup name = some hash) {env : Surroundings} (ready : env.Ready)
    {body : LoginBody} (no_code : trimSpace body.token = [])
    (named : normalizeAccountUsername body.username = some name) :
    c.LogsIn s env body ↔ c.compareHashAndPassword hash body.password = true ∨ c.adminValid body = true := by
  obtain ⟨allowed,up⟩ := ready
  unfold LogsIn
  simp only [login,allowed,no_code,loginWithPassword,named,authenticateAccount,up,Option.getD_some,h]
  cases c.compareHashAndPassword hash body.password <;> cases c.adminValid body <;> simp

theorem register_short (bcrypt : c.Bcrypt) {registration : RegisterBody}
    (named : normalizeAccountUsername registration.username = some name)
    (valid : validAccountPassword registration.password = true) (free : s.accounts.lookup name = none)
    (short : byteLen registration.password ≤ 72) {env : Surroundings} (ready : env.Ready) :
    ∃ hash, c.generateFromPassword env.salt registration.password = some hash ∧
      c.register s env (some registration) = ({ s with accounts := (name,hash) :: s.accounts },.token name) := by
  obtain ⟨allowed,up⟩ := ready
  cases generated : c.generateFromPassword env.salt registration.password with
  | none =>
    have long := (bcrypt.generates env.salt registration.password).1 generated
    rw [length_bytesOf] at long
    omega
  | some hash =>
    refine ⟨hash,rfl,?_⟩
    simp [register,allowed,named,valid,createAccount,generated,up,free]

theorem register_long (bcrypt : c.Bcrypt) {registration : RegisterBody}
    (long : 72 < byteLen registration.password) (env : Surroundings) :
    (c.register s env (some registration)).2 ≠ .token name := by
  have none : c.generateFromPassword env.salt registration.password = none :=
    (bcrypt.generates env.salt registration.password).2 (by rwa [length_bytesOf])
  unfold register
  cases env.limiter with
  | unavailable => nofun
  | limited => nofun
  | allowed =>
    dsimp only
    cases normalizeAccountUsername registration.username with
    | none => nofun
    | some name =>
      dsimp only
      split_ifs
      · nofun
      · simp [createAccount,none]

theorem take_eq_iff {password other : Text} (short : byteLen password < 72) :
    (bytesOf other).take 72 = (bytesOf password).take 72 ↔ other = password := by
  constructor
  · intro same
    have length : ((bytesOf other).take 72).length = byteLen password := by
      rw [same,List.length_take,length_bytesOf]
      omega
    rw [List.length_take] at length
    rw [List.take_of_length_le (by omega),List.take_of_length_le (by rw [length_bytesOf]; omega)] at same
    exact bytesOf_injective same
  · rintro rfl
    rfl

theorem exists_longer (c : AccountConfig) {password : Text} (full : byteLen password = 72) :
    ∃ other, other ≠ password ∧ other ≠ c.adminPassword ∧ (bytesOf other).take 72 = (bytesOf password).take 72 := by
  have longer : ∀ ch : Char, password ++ [ch] ≠ password ∧
      (bytesOf (password ++ [ch])).take 72 = (bytesOf password).take 72 := by
    intro ch
    refine ⟨by simp,?_⟩
    rw [bytesOf_append,List.take_append_of_le_length (by rw [length_bytesOf]; omega)]
  by_cases admin : c.adminPassword = password ++ ['a']
  · refine ⟨password ++ ['b'],(longer 'b').1,?_,(longer 'b').2⟩
    rw [admin]
    simp
  · exact ⟨password ++ ['a'],(longer 'a').1,Ne.symm admin,(longer 'a').2⟩

end

/-- A registered account is its password's exactly below 72 bytes. -/
theorem roundTrip_iff (c : AccountConfig) (bcrypt : c.Bcrypt) (s : AccountState) (registration : RegisterBody)
    (name : Text) (named : normalizeAccountUsername registration.username = some name)
    (valid : validAccountPassword registration.password = true) (free : s.accounts.lookup name = none) :
    c.RoundTrip s registration name ↔ (bytesOf registration.password).length < 72 := by
  have ready : Surroundings.Ready {} := ⟨rfl,rfl⟩
  rw [length_bytesOf]
  constructor
  · intro trip
    rcases Nat.lt_trichotomy (byteLen registration.password) 72 with short | full | long
    · exact short
    · obtain ⟨other,apart,not_admin,same⟩ := exists_longer c full
      obtain ⟨hash,generated,filed⟩ := register_short bcrypt named valid free (Nat.le_of_eq full) ready
      have answer := trip.logsIn {} ready [] {} ⟨registration.username,other,[]⟩ ready rfl named
      rw [filed] at answer
      have now : (c.machine.exec [] { s with accounts := (name,hash) :: s.accounts } []).2.accounts.lookup name =
          some hash := List.lookup_cons_self
      rw [logsIn_iff now ready rfl named,bcrypt.compares _ _ _ _ generated] at answer
      rcases answer.1 (.inl same) with own | admin
      · exact absurd own apart
      · simp [adminValid,not_admin] at admin
    · exact absurd (trip.succeeds {} ready) (register_long bcrypt long {})
  · intro short
    refine ⟨fun env ready => ?_,fun env ready inputs later body ready' no_code spelling => ?_,
      fun env body status message h => register_failed env body h⟩
    · obtain ⟨hash,-,filed⟩ := register_short bcrypt named valid free (Nat.le_of_lt short) ready
      rw [filed]
    · obtain ⟨hash,generated,filed⟩ := register_short bcrypt named valid free (Nat.le_of_lt short) ready
      have now : (c.register s env (some registration)).1.accounts.lookup name = some hash := by
        rw [filed]
        exact List.lookup_cons_self
      have kept := lookup_exec (c := c) now inputs []
      rw [logsIn_iff kept ready' no_code spelling,bcrypt.compares _ _ _ _ generated,take_eq_iff short]

end AccountConfig

namespace Sample

/-- A deployment whose hash is the password itself, within bcrypt's bound. -/
def bounded : AccountConfig where
  toConfig := config
  generateFromPassword _ password := if (bytesOf password).length ≤ 72 then some (bytesOf password) else none
  compareHashAndPassword hash password := (bytesOf password).take 72 = hash

theorem bounded_bcrypt : bounded.Bcrypt where
  generates salt password := by simp [bounded]
  compares salt password hash other h := by
    simp only [bounded] at h ⊢
    split_ifs at h with short
    cases h
    rw [List.take_of_length_le short,decide_eq_true_eq]

end Sample

theorem alice_roundTrip : Sample.bounded.RoundTrip {} ⟨"Alice".toList,"correct horse".toList⟩ "alice".toList :=
  (AccountConfig.roundTrip_iff _ Sample.bounded_bcrypt {} ⟨"Alice".toList,"correct horse".toList⟩ "alice".toList
    (by decide) (by decide) rfl).2 (by decide)

/-- A password of a hundred characters is valid and cannot be registered. -/
theorem long_not_roundTrip : ¬ ∀ (c : AccountConfig), c.Bcrypt → ∀ (s : AccountState) (registration : RegisterBody)
    (name : Text), normalizeAccountUsername registration.username = some name →
    validAccountPassword registration.password = true → s.accounts.lookup name = none →
    c.RoundTrip s registration name := by
  intro h
  have trip := h Sample.bounded Sample.bounded_bcrypt {} ⟨"alice".toList,List.replicate 100 'a'⟩ "alice".toList
    (by decide) (by decide) rfl
  exact AccountConfig.register_long Sample.bounded_bcrypt (by decide) {} (trip.succeeds {} ⟨rfl,rfl⟩)

end CodeHarbor.Relay
