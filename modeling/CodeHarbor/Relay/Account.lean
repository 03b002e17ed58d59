import CodeHarbor.Lib.Run
import CodeHarbor.Relay.Principal
set_option autoImplicit false

namespace CodeHarbor.Relay
open Lib Lib.Go Lib.Base64

/-- Account passwords go through bcrypt, which stays abstract: `salt` is its random
source, and hashing may fail. -/
structure AccountConfig extends Config where
  generateFromPassword : Text → Text → Option Bytes
  compareHashAndPassword : Bytes → Text → Bool

/-- Lower-case ASCII letters, digits, dot, underscore and hyphen. -/
def accountChar (ch : Char) : Bool :=
  let n := ch.toNat
  (0x61 ≤ n && n ≤ 0x7a) || (0x30 ≤ n && n ≤ 0x39) || n == 0x2e || n == 0x5f || n == 0x2d

def normalizeAccountUsername (raw : Text) : Option Text :=
  let value := toLower (trimSpace raw)
  if byteLen value < 3 ∨ byteLen value > 64 then none
  else if value.all accountChar then some value
  else none

def validAccountPassword (password : Text) : Bool :=
  12 ≤ byteLen password && byteLen password ≤ 256 &&
    password.all (fun ch => !(ch.toNat < 0x20 || ch.toNat == 0x7f))

structure PairCodeRecord where
  deviceId : Text
  expiresAt : Time
  used : Bool := false
  deriving DecidableEq, Repr

structure PairDevice where
  ownerUser : Text := []
  revoked : Bool := false
  deriving DecidableEq, Repr

/-- Pair codes by the hash of the code, devices by id. -/
structure Pairing where
  codes : List (Bytes × PairCodeRecord) := []
  devices : List (Text × PairDevice) := []
  deriving DecidableEq, Repr

inductive PairError where
  | invalid
  | owned
  | storage
  deriving DecidableEq, Repr

def pairCodeLength : Nat := 6

def Config.consumePairCode (c : Config) (p : Pairing) (now : Time) (storageUp : Bool)
    (rawCode rawOwner : Text) : Except PairError (Text × Pairing) :=
  let code := toUpper (trimSpace rawCode)
  let ownerUser := trimSpace rawOwner
  if byteLen code ≠ pairCodeLength ∨ ownerUser = [] then .error .invalid
  else if storageUp = false then .error .storage
  else
    let hash := c.hashCredential code
    match p.codes.lookup hash with
    | none => .error .invalid
    | some record =>
      if record.used ∨ ¬ now < record.expiresAt then .error .invalid
      else
        match p.devices.lookup record.deviceId with
        | none => .error .invalid
        | some device =>
          if device.revoked then .error .invalid
          else if device.ownerUser ≠ [] ∧ device.ownerUser ≠ ownerUser then .error .owned
          else
            .ok (record.deviceId,
              { codes := (hash,{ record with used := true }) :: p.codes
                devices := (record.deviceId,{ device with ownerUser := ownerUser }) :: p.devices })

structure AccountState where
  accounts : List (Text × Bytes) := []
  pairing : Pairing := {}
  auth : AuthState := {}
  deriving DecidableEq, Repr

inductive AccountError where
  | exists
  | storage
  deriving DecidableEq, Repr

def AccountConfig.createAccount (c : AccountConfig) (accounts : List (Text × Bytes))
    (storageUp : Bool) (salt username password : Text) :
    Except AccountError (List (Text × Bytes)) :=
  match c.generateFromPassword salt password with
  | none => .error .storage
  | some hash =>
    if storageUp = false then .error .storage
    else if (accounts.lookup username).isSome then .error .exists
    else .ok ((username,hash) :: accounts)

/-- `none` is a storage error. -/
def AccountConfig.authenticateAccount (c : AccountConfig) (accounts : List (Text × Bytes))
    (storageUp : Bool) (username password : Text) : Option Bool :=
  if storageUp = false then none
  else
    match accounts.lookup username with
    | none => some false
    | some hash => some (c.compareHashAndPassword hash password)

inductive Limiter where
  | allowed
  | limited
  | unavailable
  deriving DecidableEq, Repr

/-- What a request meets besides its own content: the clock, the rate limiter, the
stores, and the random source of salts. -/
structure Surroundings where
  now : Time := 0
  limiter : Limiter := .allowed
  storageUp : Bool := true
  redisUp : Bool := true
  salt : Text := []
  deriving DecidableEq, Repr

inductive Reply where
  | token (user : Text)
  | error (status : Nat) (message : String)
  deriving DecidableEq, Repr

structure RegisterBody where
  username : Text
  password : Text
  deriving DecidableEq, Repr

structure LoginBody where
  username : Text := []
  password : Text := []
  token : Text := []
  deriving DecidableEq, Repr

/-- `POST /api/v1/auth/register`; an undecodable body is `none`. -/
def AccountConfig.register (c : AccountConfig) (s : AccountState) (env : Surroundings)
    (body : Option RegisterBody) : AccountState × Reply :=
  match env.limiter with
  | .unavailable => (s,.error 503 "rate_limiter_unavailable")
  | .limited => (s,.error 429 "login_rate_limited")
  | .allowed =>
    match body with
    | none => (s,.error 400 "invalid_account")
    | some body =>
      match normalizeAccountUsername body.username with
      | none => (s,.error 400 "invalid_account")
      | some username =>
        if validAccountPassword body.password = false then (s,.error 400 "invalid_account")
        else
          match c.createAccount s.accounts env.storageUp env.salt username body.password with
          | .error .exists => (s,.error 409 "account_exists")
          | .error .storage => (s,.error 503 "storage_unavailable")
          | .ok accounts => ({ s with accounts := accounts },.token username)

/-- The pair-code branch of login; its principal is always the configured admin. -/
def AccountConfig.loginWithPairCode (c : AccountConfig) (s : AccountState) (env : Surroundings)
    (code : Text) : AccountState × Reply :=
  let user := c.configuredAdminUser
  if user = [] then (s,.error 503 "account_not_configured")
  else
    match c.consumePairCode s.pairing env.now env.storageUp code user with
    | .ok (_,pairing) => ({ s with pairing := pairing },.token user)
    | .error .storage => (s,.error 503 "storage_unavailable")
    | .error _ => (s,.error 401 "invalid_pair_code")

def AccountConfig.adminValid (c : AccountConfig) (body : LoginBody) : Bool :=
  c.configuredAdminUser ≠ [] && body.username = c.configuredAdminUser &&
    body.password ≠ [] && body.password = c.adminPassword

/-- The password branch. An invalid name is looked up as the empty text, as in the
source, and refused afterwards. -/
def AccountConfig.loginWithPassword (c : AccountConfig) (s : AccountState) (env : Surroundings)
    (body : LoginBody) : Reply :=
  let username := normalizeAccountUsername body.username
  match c.authenticateAccount s.accounts env.storageUp (username.getD []) body.password with
  | none => .error 503 "storage_unavailable"
  | some accountValid =>
    match username with
    | none => .error 401 "invalid_credentials"
    | some username =>
      if accountValid = false ∧ c.adminValid body = false then .error 401 "invalid_credentials"
      else .token (if c.adminValid body then c.configuredAdminUser else username)

def AccountConfig.login (c : AccountConfig) (s : AccountState) (env : Surroundings)
    (body : Option LoginBody) : AccountState × Reply :=
  match env.limiter with
  | .unavailable => (s,.error 503 "rate_limiter_unavailable")
  | .limited => (s,.error 429 "login_rate_limited")
  | .allowed =>
    match body with
    | none => (s,.error 401 "invalid_credentials")
    | some body =>
      if trimSpace body.token ≠ [] then c.loginWithPairCode s env body.token
      else (s,c.loginWithPassword s env body)

/-- `GET …/session-token` and `POST …/refresh` share one body. -/
def AccountConfig.reissue (c : AccountConfig) (s : AccountState) (env : Surroundings)
    (req : Request) : Reply :=
  match c.relayApiPrincipal s.auth env.now env.redisUp req with
  | none => .error 401 "unauthorized"
  | some credential => .token credential.user

/-- The four issuing endpoints, and everything else the relay does in between: other
endpoints may change pairings and revocations at will but never the account table. -/
inductive AuthCall where
  | register (body : Option RegisterBody)
  | login (body : Option LoginBody)
  | sessionToken (req : Request)
  | refresh (req : Request)
  | other (pairing : Pairing) (auth : AuthState)
  deriving DecidableEq, Repr

structure AuthInput where
  env : Surroundings := {}
  call : AuthCall
  deriving DecidableEq, Repr

def AccountConfig.handle (c : AccountConfig) (s : AccountState) (i : AuthInput) :
    AccountState × Option Reply :=
  match i.call with
  | .register body => ((c.register s i.env body).1,some (c.register s i.env body).2)
  | .login body => ((c.login s i.env body).1,some (c.login s i.env body).2)
  | .sessionToken req | .refresh req => (s,some (c.reissue s i.env req))
  | .other pairing auth => ({ s with pairing := pairing, auth := auth },none)

/-- The relay from an empty account table; the trace lists the replies. -/
def AccountConfig.machine (c : AccountConfig) : Machine AccountState AuthInput Reply where
  init s := s.accounts = []
  step s i := ((c.handle s i).1,(c.handle s i).2.toList)

inductive Ground where
  | accountPassword
  | adminPassword
  | pairCode
  | validToken
  | cloudToken
  | created
  deriving DecidableEq, Repr

def AuthCall.request : AuthCall → Option Request
  | .sessionToken req | .refresh req => some req
  | _ => none

def Request.presents (req : Request) (token : Text) : Prop :=
  token = trimPrefix req.authorization bearer ∨ req.cookie = some token

/-- The caller of `i` presents, in that very request and against state `s`, the named
ground for principal `user`. -/
def AccountConfig.Presents (c : AccountConfig) (s : AccountState) (i : AuthInput)
    (user : Text) : Ground → Prop
  | .accountPassword => ∃ body hash, i.call = .login (some body) ∧
      s.accounts.lookup user = some hash ∧ c.compareHashAndPassword hash body.password = true
  | .adminPassword => user = c.configuredAdminUser ∧ ∃ body, i.call = .login (some body) ∧
      body.password ≠ [] ∧ body.password = c.adminPassword
  | .pairCode => user = c.configuredAdminUser ∧ ∃ body device pairing,
      i.call = .login (some body) ∧
      c.consumePairCode s.pairing i.env.now i.env.storageUp body.token user = .ok (device,pairing)
  | .validToken => ∃ req token, i.call.request = some req ∧ req.presents token ∧
      c.verify s.auth.revoked i.env.now token = some user
  | .cloudToken => user = c.configuredAdminUser ∧ ∃ req, i.call.request = some req ∧
      c.cloudToken ≠ [] ∧ req.authorization = bearer ++ c.cloudToken
  | .created => user ≠ c.configuredAdminUser ∧ ∃ body, i.call = .register (some body) ∧
      normalizeAccountUsername body.username = some user ∧ s.accounts.lookup user = none ∧
      ((c.handle s i).1.accounts.lookup user).isSome

def adminGrounds : List Ground := [.adminPassword,.pairCode,.validToken,.cloudToken]

/-- In every reachable state, a token goes only to a caller with a ground for its
principal, and a token of the admin only to one with an admin ground. -/
def AccountConfig.PrincipalProof (c : AccountConfig) : Prop :=
  ∀ tr s, c.machine.Run c.machine.free tr s → ∀ i user,
    (c.handle s i).2 = some (.token user) →
    (∃ ground, c.Presents s i user ground) ∧
    (user = c.configuredAdminUser → ∃ ground ∈ adminGrounds, c.Presents s i user ground)

theorem accountChar_toLower {ch : Char} (h : accountChar ch = true) :
    lowerRune ch = ch ∧ isSpace ch = false := by
  have hr : (0x61 ≤ ch.toNat ∧ ch.toNat ≤ 0x7a) ∨ (0x30 ≤ ch.toNat ∧ ch.toNat ≤ 0x39) ∨
      ch.toNat = 0x2e ∨ ch.toNat = 0x5f ∨ ch.toNat = 0x2d := by
    simpa [accountChar,or_assoc] using h
  have hlower : ch.toLower = ch := by
    unfold Char.toLower
    split_ifs with hu
    · exfalso
      have h1 : 65 ≤ ch.toNat := hu.1
      have h2 : ch.toNat ≤ 90 := hu.2
      omega
    · rfl
  refine ⟨?_,?_⟩
  · have h1 : ch.toNat ≠ 0x130 := by omega
    have h2 : ch.toNat ≠ 0x212a := by omega
    simp [lowerRune,h1,h2,hlower]
  · simp only [isSpace,Bool.or_eq_false_iff,Bool.and_eq_false_iff,beq_eq_false_iff_ne,
      decide_eq_false_iff_not]
    omega

theorem normalizeAccountUsername_idem {raw name : Text}
    (h : normalizeAccountUsername raw = some name) : normalizeAccountUsername name = some name := by
  unfold normalizeAccountUsername at h
  dsimp only at h
  split_ifs at h with hlen hchars
  cases h
  generalize toLower (trimSpace raw) = name at hlen hchars ⊢
  have hall := List.all_eq_true.mp hchars
  have hlower : toLower name = name :=
    (List.map_congr_left (fun ch hc => (accountChar_toLower (hall ch hc)).1)).trans
      (List.map_id' name)
  have htrim : trimSpace name = name := by
    cases hn : name with
    | nil => rfl
    | cons ch rest =>
      rw [hn] at hall
      cases hl : (ch :: rest).getLast? with
      | none => simp at hl
      | some d =>
        exact trimSpace_eq_self rfl (accountChar_toLower (hall ch List.mem_cons_self)).2 hl
          (accountChar_toLower (hall d (List.mem_of_getLast? hl))).2
  simp only [normalizeAccountUsername,htrim,hlower,hlen,hchars,if_true,if_false]

def AccountState.NamesNormal (s : AccountState) : Prop :=
  ∀ entry ∈ s.accounts, normalizeAccountUsername entry.1 = some entry.1

/-- What a registration does: it fails and changes nothing, or files a new account under
a normal name and answers with its token. -/
theorem AccountConfig.register_cases (c : AccountConfig) (s : AccountState) (env : Surroundings)
    (body : Option RegisterBody) :
    (∃ status message, c.register s env body = (s,.error status message)) ∨
    ∃ b name hash, body = some b ∧ normalizeAccountUsername b.username = some name ∧
      s.accounts.lookup name = none ∧
      c.register s env body = ({ s with accounts := (name,hash) :: s.accounts },.token name) := by
  unfold register
  cases env.limiter with
  | unavailable => exact .inl ⟨_,_,rfl⟩
  | limited => exact .inl ⟨_,_,rfl⟩
  | allowed =>
    cases body with
    | none => exact .inl ⟨_,_,rfl⟩
    | some b =>
      dsimp only
      cases hn : normalizeAccountUsername b.username with
      | none => exact .inl ⟨_,_,rfl⟩
      | some name =>
        dsimp only
        split_ifs
        · exact .inl ⟨_,_,rfl⟩
        · unfold createAccount
          cases c.generateFromPassword env.salt b.password with
          | none => exact .inl ⟨_,_,rfl⟩
          | some hash =>
            dsimp only
            split_ifs with hup hexists
            · exact .inl ⟨_,_,rfl⟩
            · exact .inl ⟨_,_,rfl⟩
            · exact .inr ⟨b,name,hash,rfl,hn,Option.not_isSome_iff_eq_none.mp hexists,rfl⟩

theorem AccountConfig.login_accounts (c : AccountConfig) (s : AccountState) (env : Surroundings)
    (body : Option LoginBody) : (c.login s env body).1.accounts = s.accounts := by
  unfold login
  cases env.limiter with
  | unavailable => rfl
  | limited => rfl
  | allowed =>
    cases body with
    | none => rfl
    | some b =>
      dsimp only
      split_ifs
      · unfold loginWithPairCode
        dsimp only
        split_ifs
        · rfl
        · split <;> rfl
      · rfl

theorem AccountConfig.loginWithPairCode_token {c : AccountConfig} {s : AccountState}
    {env : Surroundings} {code user : Text}
    (h : (c.loginWithPairCode s env code).2 = .token user) :
    user = c.configuredAdminUser ∧ ∃ device pairing,
      c.consumePairCode s.pairing env.now env.storageUp code user = .ok (device,pairing) := by
  unfold loginWithPairCode at h
  dsimp only at h
  split_ifs at h
  split at h
  · rename_i device pairing hc
    cases h
    exact ⟨rfl,device,pairing,hc⟩
  · cases h
  · cases h

theorem AccountConfig.loginWithPassword_token {c : AccountConfig} {s : AccountState}
    {env : Surroundings} {body : LoginBody} {user : Text}
    (h : c.loginWithPassword s env body = .token user) :
    (∃ hash, s.accounts.lookup user = some hash ∧
      c.compareHashAndPassword hash body.password = true) ∨
    user = c.configuredAdminUser ∧ body.password ≠ [] ∧ body.password = c.adminPassword := by
  unfold loginWithPassword at h
  dsimp only at h
  split at h
  · cases h
  · rename_i accountValid hauth
    split at h
    · cases h
    · rename_i name hname
      split_ifs at h with hrefused hadmin
      · cases h
        simp only [adminValid,Bool.and_eq_true,decide_eq_true_eq] at hadmin
        exact .inr ⟨rfl,by simpa using hadmin.1.2,hadmin.2⟩
      · cases h
        have hvalid : accountValid = true := by simpa [hadmin] using hrefused
        rw [hname,hvalid] at hauth
        unfold authenticateAccount at hauth
        split_ifs at hauth
        split at hauth
        · cases hauth
        · rename_i hash hlookup
          exact .inl ⟨hash,hlookup,Option.some.inj hauth⟩

theorem AccountConfig.login_token {c : AccountConfig} {s : AccountState} {i : AuthInput}
    {body : Option LoginBody} {user : Text} (hcall : i.call = .login body)
    (h : (c.login s i.env body).2 = .token user) :
    c.Presents s i user .accountPassword ∨ c.Presents s i user .adminPassword ∨
      c.Presents s i user .pairCode := by
  unfold login at h
  cases hl : i.env.limiter with
  | unavailable => simp [hl] at h
  | limited => simp [hl] at h
  | allowed =>
    simp only [hl] at h
    cases body with
    | none => simp at h
    | some b =>
      dsimp only at h
      split_ifs at h
      · obtain ⟨huser,device,pairing,hc⟩ := loginWithPairCode_token h
        exact .inr (.inr ⟨huser,b,device,pairing,hcall,hc⟩)
      · rcases loginWithPassword_token h with ⟨hash,hlookup,hcompare⟩ | ⟨huser,hne,hadmin⟩
        · exact .inl ⟨b,hash,hcall,hlookup,hcompare⟩
        · exact .inr (.inl ⟨huser,b,hcall,hne,hadmin⟩)

theorem AccountConfig.reissue_token {c : AccountConfig} {s : AccountState} {i : AuthInput}
    {req : Request} {user : Text} (hreq : i.call.request = some req)
    (h : c.reissue s i.env req = .token user) :
    c.Presents s i user .validToken ∨ c.Presents s i user .cloudToken := by
  unfold reissue at h
  split at h
  · cases h
  · rename_i credential hcred
    cases h
    have hcred := Config.sharedGate_eq_some hcred
    cases credential with
    | signed token user =>
      obtain ⟨hv,hsource⟩ := Config.apiCredential_signed hcred
      refine .inl ⟨req,token,hreq,?_,hv⟩
      exact hsource.imp id (·.2)
    | cloud user =>
      have hcloud := Config.apiCredential_cloud hcred
      unfold Config.cloudCredential at hcloud
      split_ifs at hcloud with hpresented
      cases hcloud
      exact .inr ⟨rfl,req,hreq,hpresented.1,hpresented.2⟩

theorem AccountConfig.namesNormal_handle (c : AccountConfig) (s : AccountState) (i : AuthInput)
    (h : s.NamesNormal) : (c.handle s i).1.NamesNormal := by
  unfold handle
  cases i.call with
  | register body =>
    rcases c.register_cases s i.env body with ⟨status,message,he⟩ | ⟨b,name,hash,-,hn,-,he⟩
    · simpa [he] using h
    · intro entry hentry
      simp only [he,List.mem_cons] at hentry
      rcases hentry with rfl | hentry
      · exact normalizeAccountUsername_idem hn
      · exact h entry hentry
  | login body =>
    intro entry hentry
    rw [c.login_accounts s i.env body] at hentry
    exact h entry hentry
  | sessionToken req => exact h
  | refresh req => exact h
  | other pairing auth => exact h

theorem AccountConfig.namesNormal_run (c : AccountConfig) {tr : List Reply} {s : AccountState}
    (hr : c.machine.Run c.machine.free tr s) : s.NamesNormal := by
  apply hr.invariant (P := fun _ s => s.NamesNormal)
  · intro s hs entry hentry
    have hs : s.accounts = [] := hs
    simp [hs] at hentry
  · intro _ s i h _
    exact c.namesNormal_handle s i h

theorem AccountState.NamesNormal.lookup_admin {s : AccountState} (h : s.NamesNormal)
    {admin : Text} (hadmin : normalizeAccountUsername admin ≠ some admin) (hash : Bytes) :
    s.accounts.lookup admin ≠ some hash := by
  intro hl
  have hmem : (admin,hash) ∈ s.accounts := by
    obtain ⟨pre,post,he,-⟩ := List.lookup_eq_some_iff.mp hl
    simp [he]
  exact hadmin (h _ hmem)

theorem AccountConfig.principalProof_of_admin_not_name (c : AccountConfig)
    (hadmin : normalizeAccountUsername c.configuredAdminUser ≠ some c.configuredAdminUser) :
    c.PrincipalProof := by
  intro tr s hr i user h
  have hnormal := c.namesNormal_run hr
  unfold handle at h
  cases hcall : i.call with
  | register body =>
    simp only [hcall,Option.some.injEq] at h
    rcases c.register_cases s i.env body with ⟨status,message,he⟩ | ⟨b,name,hash,hb,hn,hnew,he⟩
    · rw [he] at h
      cases h
    · rw [he] at h
      cases h
      have hne : user ≠ c.configuredAdminUser := by
        rintro rfl
        exact hadmin (normalizeAccountUsername_idem hn)
      refine ⟨⟨.created,hne,b,hb ▸ hcall,hn,hnew,?_⟩,fun heq => absurd heq hne⟩
      simp [handle,hcall,he]
  | login body =>
    simp only [hcall,Option.some.injEq] at h
    rcases login_token hcall h with hp | hp | hp
    · refine ⟨⟨_,hp⟩,?_⟩
      rintro rfl
      obtain ⟨b,hash,-,hl,-⟩ := hp
      exact absurd hl (hnormal.lookup_admin hadmin hash)
    · exact ⟨⟨_,hp⟩,fun _ => ⟨_,by simp [adminGrounds],hp⟩⟩
    · exact ⟨⟨_,hp⟩,fun _ => ⟨_,by simp [adminGrounds],hp⟩⟩
  | sessionToken req =>
    simp only [hcall,Option.some.injEq] at h
    rcases reissue_token (by simp [hcall,AuthCall.request]) h with hp | hp
    · exact ⟨⟨_,hp⟩,fun _ => ⟨_,by simp [adminGrounds],hp⟩⟩
    · exact ⟨⟨_,hp⟩,fun _ => ⟨_,by simp [adminGrounds],hp⟩⟩
  | refresh req =>
    simp only [hcall,Option.some.injEq] at h
    rcases reissue_token (by simp [hcall,AuthCall.request]) h with hp | hp
    · exact ⟨⟨_,hp⟩,fun _ => ⟨_,by simp [adminGrounds],hp⟩⟩
    · exact ⟨⟨_,hp⟩,fun _ => ⟨_,by simp [adminGrounds],hp⟩⟩
  | other pairing auth => simp [hcall] at h

/-- The first registration of the admin's own name, with a password bcrypt takes. -/
def adminRegistration (admin : Text) : AuthInput where
  call := .register (some { username := admin, password := "correct horse".toList })

theorem AccountConfig.adminRegistration_token (c : AccountConfig)
    (hbcrypt : ∀ salt password, byteLen password ≤ 72 →
      (c.generateFromPassword salt password).isSome)
    (hadmin : normalizeAccountUsername c.configuredAdminUser = some c.configuredAdminUser) :
    (c.handle {} (adminRegistration c.configuredAdminUser)).2 =
      some (.token c.configuredAdminUser) := by
  have hvalid : validAccountPassword "correct horse".toList = true := by decide
  obtain ⟨hash,hhash⟩ := Option.isSome_iff_exists.mp
    (hbcrypt [] "correct horse".toList (by decide))
  simp only [handle,adminRegistration,register,hadmin,hvalid,createAccount,hhash]
  rfl

/-- Registering the admin's name yields an admin token on no admin ground. -/
theorem AccountConfig.not_principalProof_of_admin_name (c : AccountConfig)
    (hbcrypt : ∀ salt password, byteLen password ≤ 72 →
      (c.generateFromPassword salt password).isSome)
    (hadmin : normalizeAccountUsername c.configuredAdminUser = some c.configuredAdminUser) :
    ¬ c.PrincipalProof := by
  intro hproof
  have hissued := c.adminRegistration_token hbcrypt hadmin
  have hrun : c.machine.Run c.machine.free [] {} := .start rfl
  obtain ⟨-,hground⟩ := hproof [] {} hrun _ _ hissued
  obtain ⟨ground,hmem,hp⟩ := hground rfl
  simp only [adminGrounds,List.mem_cons,List.not_mem_nil,or_false] at hmem
  rcases hmem with rfl | rfl | rfl | rfl
  · obtain ⟨-,body,hcall,-⟩ := hp
    cases hcall
  · obtain ⟨-,body,device,pairing,hcall,-⟩ := hp
    cases hcall
  · obtain ⟨req,token,hcall,-⟩ := hp
    cases hcall
  · obtain ⟨-,req,hcall,-⟩ := hp
    cases hcall

/-- Principal proof holds of exactly the configurations whose admin name cannot be
registered as an account. -/
theorem AccountConfig.principalProof_iff (c : AccountConfig)
    (hbcrypt : ∀ salt password, byteLen password ≤ 72 →
      (c.generateFromPassword salt password).isSome) :
    c.PrincipalProof ↔
      normalizeAccountUsername c.configuredAdminUser ≠ some c.configuredAdminUser := by
  constructor
  · intro hproof hadmin
    exact c.not_principalProof_of_admin_name hbcrypt hadmin hproof
  · exact c.principalProof_of_admin_not_name

namespace Sample

/-- A deployment with the given admin name; bcrypt takes passwords of up to 72 bytes. -/
def accounts (admin : Text) : AccountConfig where
  toConfig := { config with adminUser := admin, adminPassword := "s3cret-admin-pw".toList }
  generateFromPassword salt password :=
    if byteLen password ≤ 72 then some (spread (salt ++ password)) else none
  compareHashAndPassword hash password := hash = spread password

theorem accounts_generate (admin salt password : Text) (h : byteLen password ≤ 72) :
    ((accounts admin).generateFromPassword salt password).isSome := by
  simp [accounts,h]

end Sample

theorem spacedAdmin_principalProof : (Sample.accounts "site admin".toList).PrincipalProof :=
  (AccountConfig.principalProof_iff _ (Sample.accounts_generate _)).mpr (by decide)

/-- With the admin called `admin`, the first stranger to register that name is the admin. -/
theorem plainAdmin_not_principalProof :
    ((Sample.accounts "admin".toList).handle {} (adminRegistration "admin".toList)).2 =
      some (.token "admin".toList) ∧
    ¬ (Sample.accounts "admin".toList).PrincipalProof :=
  ⟨AccountConfig.adminRegistration_token _ (Sample.accounts_generate _) (by decide),
    AccountConfig.not_principalProof_of_admin_name _ (Sample.accounts_generate _) (by decide)⟩

end CodeHarbor.Relay
