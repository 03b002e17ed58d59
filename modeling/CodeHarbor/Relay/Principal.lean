import CodeHarbor.Relay.Token
set_option autoImplicit false

namespace CodeHarbor.Relay
open Lib.Go Lib.Base64

/-- The parts of an HTTP request that carry credentials. Absent headers read as empty;
`queryToken` lists the values of `?token=`, and `cookie` is the session cookie's value. -/
structure Request where
  authorization : Text := []
  protocols : Text := []
  queryToken : Option (List Text) := none
  cookie : Option Text := none
  deriving DecidableEq, Repr

/-- How a request proved its principal: by a signed token, or by the fixed cloud token
that stands for the configured admin. -/
inductive Credential where
  | signed (token user : Text)
  | cloud (user : Text)
  deriving DecidableEq, Repr

def Credential.user : Credential → Text
  | .signed _ user | .cloud user => user

def Config.signedCredential (c : Config) (revoked : Revocations) (now : Time) (token : Text) :
    Option Credential :=
  (c.verify revoked now token).map (Credential.signed token)

def Config.cloudCredential (c : Config) (req : Request) : Option Credential :=
  if c.cloudToken ≠ [] ∧ req.authorization = bearer ++ c.cloudToken then
    if c.configuredAdminUser = [] then none else some (.cloud c.configuredAdminUser)
  else none

/-- The package-level `apiPrincipal`, keeping the credential it accepted: the
Authorization header, then the cookie, then the cloud token. -/
def Config.apiCredential (c : Config) (revoked : Revocations) (now : Time) (req : Request) :
    Option Credential :=
  (c.signedCredential revoked now (trimPrefix req.authorization bearer)).or
    ((req.cookie.bind (c.signedCredential revoked now)).or (c.cloudCredential req))

def subprotocol : Text := "codeharbor-v1.".toList

/-- The token candidates of the `Sec-WebSocket-Protocol` header, in the order offered. -/
def protocolTokens (req : Request) : List Text :=
  (((split req.protocols ',').map trimSpace).filter (hasPrefix · subprotocol)).map
    (trimPrefix · subprotocol)

def Env.browserQueryTokenAllowed (e : Env) : Bool :=
  if e.nodeEnv ≠ "production".toList then true
  else toLower (trimSpace e.allowQueryToken) = "true".toList

/-- The package-level `browserPrincipal` with its credential. It falls through every
candidate that does not verify; only a repeated query parameter is refused outright. -/
def Config.browserCredential (c : Config) (revoked : Revocations) (now : Time) (req : Request) :
    Option Credential :=
  match (protocolTokens req).findSome? (c.signedCredential revoked now) with
  | some credential => some credential
  | none =>
    if c.browserQueryTokenAllowed then
      match req.queryToken with
      | some [value] =>
        (c.signedCredential revoked now (trimSpace value)).or (c.apiCredential revoked now req)
      | some _ => none
      | none => c.apiCredential revoked now req
    else c.apiCredential revoked now req

def Config.accepts (c : Config) (revoked : Revocations) (now : Time) (token : Text) : Bool :=
  (c.verify revoked now token).isSome

def Config.authenticatedRequestToken (c : Config) (revoked : Revocations) (now : Time)
    (req : Request) : Text :=
  let header := trimSpace (trimPrefix req.authorization bearer)
  if header ≠ [] ∧ (c.accepts revoked now header ∨ header = c.cloudToken) then header
  else
    match req.cookie with
    | some cookie =>
      if c.accepts revoked now (trimSpace cookie) then trimSpace cookie else []
    | none => []

/-- Unlike `browserPrincipal`, this stops at the first candidate, verified or not. -/
def Config.browserRequestToken (c : Config) (revoked : Revocations) (now : Time)
    (req : Request) : Text :=
  match protocolTokens req with
  | token :: _ => trimSpace token
  | [] =>
    match req.queryToken with
    | some [value] =>
      if c.browserQueryTokenAllowed then trimSpace value
      else c.authenticatedRequestToken revoked now req
    | _ => c.authenticatedRequestToken revoked now req

structure BrowserPeer where
  ownerUser : Text
  authTokenHash : Bytes
  deriving DecidableEq, Repr

/-- One relay instance's authentication state: the local revocation table, the shared
revoked-token keys when Redis is configured, and the connected browsers. -/
structure AuthState where
  revoked : Revocations := []
  redis : Option Revocations := none
  browsers : List BrowserPeer := []
  deriving DecidableEq, Repr

/-- `none` when Redis cannot be reached. -/
def Config.sharedTokenRevoked (c : Config) (s : AuthState) (now : Time) (redisUp : Bool)
    (token : Text) : Option Bool :=
  if c.isTokenRevoked s.revoked now token then some true
  else
    match s.redis with
    | none => some false
    | some keys =>
      if token = [] then some false
      else if redisUp then some (c.isTokenRevoked keys now token)
      else none

/-- The shared-revocation gate that both `relay` methods put behind the local check:
`token` is what the gate looks up, whatever credential was accepted. -/
def Config.sharedGate (c : Config) (s : AuthState) (now : Time) (redisUp : Bool) (token : Text)
    (credential : Option Credential) : Option Credential :=
  if token = [] ∨ token = c.cloudToken ∨ s.redis = none then credential
  else if c.sharedTokenRevoked s now redisUp token = some false then credential
  else none

def Config.relayApiPrincipal (c : Config) (s : AuthState) (now : Time) (redisUp : Bool)
    (req : Request) : Option Credential :=
  c.sharedGate s now redisUp (c.authenticatedRequestToken s.revoked now req)
    (c.apiCredential s.revoked now req)

def Config.relayBrowserPrincipal (c : Config) (s : AuthState) (now : Time) (redisUp : Bool)
    (req : Request) : Option Credential :=
  c.sharedGate s now redisUp (c.browserRequestToken s.revoked now req)
    (c.browserCredential s.revoked now req)

/-- The peer `serveBrowser` builds: no hash is stored for an empty token. -/
def Config.browserPeer (c : Config) (s : AuthState) (now : Time) (req : Request) (user : Text) :
    BrowserPeer :=
  let token := c.browserRequestToken s.revoked now req
  { ownerUser := user, authTokenHash := if token ≠ [] then c.hashCredential token else [] }

/-- The token the logout handler revokes for a request it let in. -/
def Config.logoutToken (c : Config) (s : AuthState) (now : Time) (req : Request) : Text :=
  c.authenticatedRequestToken s.revoked now req

/-- When the API extractor finds the token that authenticates. A header that verifies must
carry no outer white space. A header that does not verify must not come to life once
trimmed (nor be the cloud token), unless it then spells the very cookie; and the cookie
itself must carry no outer white space. -/
def Config.ApiAgrees (c : Config) (revoked : Revocations) (now : Time) (req : Request) : Prop :=
  let raw := trimPrefix req.authorization bearer
  let header := trimSpace raw
  if c.accepts revoked now raw then header = raw
  else
    match req.cookie with
    | none => True
    | some cookie =>
      if header ≠ [] ∧ (c.accepts revoked now header ∨ header = c.cloudToken) then
        header = cookie
      else trimSpace cookie = cookie

def Config.laterTokens (c : Config) (req : Request) : List Text :=
  let rest := trimPrefix req.authorization bearer :: req.cookie.toList
  if c.browserQueryTokenAllowed then
    match req.queryToken with
    | some [value] => trimSpace value :: rest
    | some _ => []
    | none => rest
  else rest

/-- When the browser extractor finds the token that authenticates: the first subprotocol
candidate, or failing any the single query token, must itself be the one that verifies. -/
def Config.BrowserAgrees (c : Config) (revoked : Revocations) (now : Time) (req : Request) :
    Prop :=
  match protocolTokens req with
  | token :: rest =>
    if c.accepts revoked now token then trimSpace token = token
    else (rest ++ c.laterTokens req).find? (c.accepts revoked now) = some (trimSpace token)
  | [] =>
    match req.queryToken with
    | some [value] =>
      if c.browserQueryTokenAllowed then c.accepts revoked now (trimSpace value) = true
      else c.ApiAgrees revoked now req
    | _ => c.ApiAgrees revoked now req

theorem Config.browserAgrees_iff_apiAgrees {c : Config} {revoked : Revocations} {now : Time}
    {req : Request} (hp : protocolTokens req = []) (hq : req.queryToken = none) :
    c.BrowserAgrees revoked now req ↔ c.ApiAgrees revoked now req := by
  simp only [BrowserAgrees,hp,hq]

theorem Config.signedCredential_eq_some {c : Config} {revoked : Revocations} {now : Time}
    {token : Text} {credential : Credential} :
    c.signedCredential revoked now token = some credential ↔
      ∃ user, c.verify revoked now token = some user ∧ credential = .signed token user := by
  rw [signedCredential,Option.map_eq_some_iff]
  constructor
  · rintro ⟨user,hv,rfl⟩
    exact ⟨user,hv,rfl⟩
  · rintro ⟨user,hv,rfl⟩
    exact ⟨user,hv,rfl⟩

theorem Config.signedCredential_eq_none {c : Config} {revoked : Revocations} {now : Time}
    {token : Text} :
    c.signedCredential revoked now token = none ↔ c.accepts revoked now token = false := by
  simp [signedCredential,accepts]

theorem Config.accepts_ne_nil {c : Config} {revoked : Revocations} {now : Time} {token : Text}
    (h : c.accepts revoked now token = true) : token ≠ [] := by
  rintro rfl
  simp [accepts,verify_nil] at h

theorem Config.cloudCredential_ne_signed (c : Config) (req : Request) (token user : Text) :
    c.cloudCredential req ≠ some (.signed token user) := by
  unfold cloudCredential
  split_ifs <;> simp

theorem Config.apiCredential_signed {c : Config} {revoked : Revocations} {now : Time}
    {req : Request} {token user : Text}
    (h : c.apiCredential revoked now req = some (.signed token user)) :
    c.verify revoked now token = some user ∧
    (token = trimPrefix req.authorization bearer ∨
      c.accepts revoked now (trimPrefix req.authorization bearer) = false ∧
        req.cookie = some token) := by
  unfold apiCredential at h
  rcases Option.or_eq_some_iff.mp h with h | ⟨hnone,h⟩
  · obtain ⟨u,hv,he⟩ := signedCredential_eq_some.mp h
    cases he
    exact ⟨hv,.inl rfl⟩
  · rcases Option.or_eq_some_iff.mp h with h | ⟨-,h⟩
    · obtain ⟨cookie,hc,h⟩ := Option.bind_eq_some_iff.mp h
      obtain ⟨u,hv,he⟩ := signedCredential_eq_some.mp h
      cases he
      exact ⟨hv,.inr ⟨signedCredential_eq_none.mp hnone,hc⟩⟩
    · exact absurd h (c.cloudCredential_ne_signed req token user)

theorem Config.apiCredential_cloud {c : Config} {revoked : Revocations} {now : Time}
    {req : Request} {user : Text} (h : c.apiCredential revoked now req = some (.cloud user)) :
    c.cloudCredential req = some (.cloud user) := by
  have hsigned : ∀ token, c.signedCredential revoked now token ≠ some (.cloud user) := by
    intro token hs
    obtain ⟨u,-,he⟩ := signedCredential_eq_some.mp hs
    cases he
  rcases Option.or_eq_some_iff.mp h with h | ⟨-,h⟩
  · exact absurd h (hsigned _)
  · rcases Option.or_eq_some_iff.mp h with h | ⟨-,h⟩
    · obtain ⟨cookie,-,h⟩ := Option.bind_eq_some_iff.mp h
      exact absurd h (hsigned cookie)
    · exact h

theorem trimSpace_idem (s : Text) : trimSpace (trimSpace s) = trimSpace s := by
  cases h : trimSpace s with
  | nil => rfl
  | cons ch r =>
    cases hl : (ch :: r).getLast? with
    | none => simp at hl
    | some d =>
      exact trimSpace_eq_self rfl (trimSpace_head h) hl (trimSpace_getLast (h ▸ hl))

theorem Config.authenticatedRequestToken_trimmed (c : Config) (revoked : Revocations)
    (now : Time) (req : Request) :
    trimSpace (c.authenticatedRequestToken revoked now req) =
      c.authenticatedRequestToken revoked now req := by
  unfold authenticatedRequestToken
  dsimp only
  split_ifs with h
  · exact trimSpace_idem _
  · cases req.cookie with
    | none => rfl
    | some cookie =>
      dsimp only
      split_ifs
      · exact trimSpace_idem _
      · rfl

theorem Config.authenticatedRequestToken_eq_iff {c : Config} {revoked : Revocations} {now : Time}
    {req : Request} {token user : Text}
    (h : c.apiCredential revoked now req = some (.signed token user)) :
    c.authenticatedRequestToken revoked now req = token ↔ c.ApiAgrees revoked now req := by
  obtain ⟨hv,hsource⟩ := apiCredential_signed h
  have hacc : c.accepts revoked now token = true := by simp [accepts,hv]
  have hne := accepts_ne_nil hacc
  have htrim := c.authenticatedRequestToken_trimmed revoked now req
  rcases hsource with rfl | ⟨hraw,hcookie⟩
  · simp only [ApiAgrees,hacc,if_true]
    constructor
    · intro he
      rw [he] at htrim
      exact htrim
    · intro he
      simp [authenticatedRequestToken,he,hne,hacc]
  · simp only [ApiAgrees,authenticatedRequestToken,hraw,hcookie,Bool.false_eq_true,if_false]
    split_ifs with hheader hk
    · rfl
    · rfl
    · constructor
      · intro he
        exact absurd he.symm hne
      · intro he
        rw [he] at hk
        exact absurd hacc hk

theorem Config.findSome_signedCredential {c : Config} {revoked : Revocations} {now : Time}
    (tokens : List Text) :
    tokens.findSome? (c.signedCredential revoked now) =
      (tokens.find? (c.accepts revoked now)).bind (c.signedCredential revoked now) := by
  induction tokens with
  | nil => rfl
  | cons token rest ih =>
    cases ha : c.accepts revoked now token with
    | false => simp [ha,signedCredential_eq_none.mpr ha,ih]
    | true =>
      obtain ⟨user,hv⟩ := Option.isSome_iff_exists.mp ha
      simp [ha,signedCredential,hv]

theorem Config.find_of_apiCredential {c : Config} {revoked : Revocations} {now : Time}
    {req : Request} {token user : Text}
    (h : c.apiCredential revoked now req = some (.signed token user)) :
    (trimPrefix req.authorization bearer :: req.cookie.toList).find? (c.accepts revoked now) =
      some token := by
  obtain ⟨hv,hsource⟩ := apiCredential_signed h
  have hacc : c.accepts revoked now token = true := by simp [accepts,hv]
  rcases hsource with rfl | ⟨hraw,hcookie⟩
  · simp [hacc]
  · simp [hraw,hcookie,hacc]

theorem Config.find_of_browserCredential {c : Config} {revoked : Revocations} {now : Time}
    {req : Request} {token user : Text}
    (h : c.browserCredential revoked now req = some (.signed token user)) :
    (protocolTokens req ++ c.laterTokens req).find? (c.accepts revoked now) = some token := by
  unfold browserCredential at h
  rw [findSome_signedCredential] at h
  rw [List.find?_append]
  cases hf : (protocolTokens req).find? (c.accepts revoked now) with
  | some first =>
    have ha : c.accepts revoked now first = true := List.find?_some hf
    obtain ⟨u,hv⟩ := Option.isSome_iff_exists.mp ha
    simp [hf,signedCredential,hv] at h
    simp [h.1]
  | none =>
    simp only [hf,Option.bind_none] at h
    rw [Option.none_or]
    unfold laterTokens
    split_ifs at h ⊢ with hallowed
    · cases hq : req.queryToken with
      | none =>
        rw [hq] at h
        exact find_of_apiCredential h
      | some values =>
        rw [hq] at h
        match values with
        | [] => simp at h
        | _ :: _ :: _ => simp at h
        | [value] =>
          rcases Option.or_eq_some_iff.mp h with h | ⟨hnone,h⟩
          · obtain ⟨u,hv,he⟩ := signedCredential_eq_some.mp h
            cases he
            simp [accepts,hv]
          · rw [List.find?_cons,signedCredential_eq_none.mp hnone]
            exact find_of_apiCredential h
    · exact find_of_apiCredential h

theorem Config.browserRequestToken_eq_iff {c : Config} {revoked : Revocations} {now : Time}
    {req : Request} {token user : Text}
    (h : c.browserCredential revoked now req = some (.signed token user)) :
    c.browserRequestToken revoked now req = token ↔ c.BrowserAgrees revoked now req := by
  have hf := find_of_browserCredential h
  unfold browserRequestToken BrowserAgrees
  cases hp : protocolTokens req with
  | cons first rest =>
    rw [hp] at hf
    simp only [List.cons_append,List.find?_cons] at hf
    cases ha : c.accepts revoked now first with
    | true =>
      simp only [ha,Option.some.injEq] at hf
      subst hf
      simp only [ha,if_true]
    | false =>
      simp only [ha] at hf
      simp only [ha,Bool.false_eq_true,if_false,hf,Option.some.injEq]
      exact eq_comm
  | nil =>
    unfold browserCredential at h
    simp only [hp,List.findSome?_nil] at h
    rw [hp,List.nil_append] at hf
    dsimp only
    split
    · rename_i value hq
      simp only [hq] at h
      unfold laterTokens at hf
      cases hallowed : c.browserQueryTokenAllowed with
      | false =>
        simp only [hallowed,Bool.false_eq_true,if_false] at h ⊢
        exact authenticatedRequestToken_eq_iff h
      | true =>
        simp only [hallowed,if_true,hq,List.find?_cons] at hf ⊢
        cases ha : c.accepts revoked now (trimSpace value) with
        | true => simpa [ha] using hf
        | false =>
          simp only [ha] at hf
          have hacc : c.accepts revoked now token = true := by
            exact List.find?_some (l := _ :: _) hf
          constructor
          · intro he
            rw [he,hacc] at ha
            exact absurd ha (by decide)
          · intro he
            exact absurd he (by decide)
    · rename_i hq
      have hapi : c.apiCredential revoked now req = some (.signed token user) := by
        split_ifs at h
        · split at h
          · rename_i value hv
            exact absurd hv (hq value)
          · simp at h
          · exact h
        · exact h
      exact authenticatedRequestToken_eq_iff hapi

theorem Config.sharedGate_eq_some {c : Config} {s : AuthState} {now : Time} {redisUp : Bool}
    {token : Text} {found : Option Credential} {credential : Credential}
    (h : c.sharedGate s now redisUp token found = some credential) :
    found = some credential := by
  unfold sharedGate at h
  split_ifs at h <;> exact h

/-- The three places that use a request's token all use the one that authenticated it:
the shared lookup and logout on the API side, the shared lookup and the peer's token hash
on the browser side. -/
structure Config.UsesAuthenticatingToken (c : Config) (s : AuthState) (now : Time)
    (redisUp : Bool) (req : Request) : Prop where
  api : ∀ token user, c.relayApiPrincipal s now redisUp req = some (.signed token user) →
    c.authenticatedRequestToken s.revoked now req = token
  logout : ∀ token user, c.apiCredential s.revoked now req = some (.signed token user) →
    c.logoutToken s now req = token
  browser : ∀ token user, c.relayBrowserPrincipal s now redisUp req = some (.signed token user) →
    c.browserRequestToken s.revoked now req = token
  peer : ∀ token user, c.relayBrowserPrincipal s now redisUp req = some (.signed token user) →
    (c.browserPeer s now req user).authTokenHash = c.hashCredential token

theorem Config.browserPeer_hash_iff {c : Config} {s : AuthState} {now : Time} {req : Request}
    {token user : Text} (hinj : Function.Injective c.sha256) (hsize : ∀ t, c.sha256 t ≠ [])
    (hne : token ≠ []) :
    (c.browserPeer s now req user).authTokenHash = c.hashCredential token ↔
      c.browserRequestToken s.revoked now req = token := by
  simp only [browserPeer,hashCredential]
  split_ifs with hfound
  · exact hinj.eq_iff
  · constructor
    · intro h
      exact absurd h.symm (hsize token)
    · intro h
      exact absurd (h ▸ hne) hfound

theorem Config.browserCredential_accepts {c : Config} {revoked : Revocations} {now : Time}
    {req : Request} {token user : Text}
    (h : c.browserCredential revoked now req = some (.signed token user)) :
    c.accepts revoked now token = true :=
  List.find?_some (find_of_browserCredential h)

/-- Exactly the requests on which the extractors agree with the checks: those that, when
accepted through a signed token, meet `ApiAgrees` and `BrowserAgrees`. -/
theorem Config.usesAuthenticatingToken_iff (c : Config) (hinj : Function.Injective c.sha256)
    (hsize : ∀ t, c.sha256 t ≠ []) (s : AuthState) (now : Time) (redisUp : Bool)
    (req : Request) :
    c.UsesAuthenticatingToken s now redisUp req ↔
      ((∃ token user, c.apiCredential s.revoked now req = some (.signed token user)) →
        c.ApiAgrees s.revoked now req) ∧
      ((∃ token user, c.relayBrowserPrincipal s now redisUp req = some (.signed token user)) →
        c.BrowserAgrees s.revoked now req) := by
  constructor
  · intro h
    refine ⟨?_,?_⟩
    · rintro ⟨token,user,hcred⟩
      exact (authenticatedRequestToken_eq_iff hcred).mp (h.logout token user hcred)
    · rintro ⟨token,user,hcred⟩
      exact (browserRequestToken_eq_iff (sharedGate_eq_some hcred)).mp (h.browser token user hcred)
  · rintro ⟨hapi,hbrowser⟩
    have hfound : ∀ token user,
        c.relayBrowserPrincipal s now redisUp req = some (.signed token user) →
        c.browserRequestToken s.revoked now req = token := by
      intro token user hcred
      have hagrees := hbrowser ⟨token,user,hcred⟩
      exact (browserRequestToken_eq_iff (sharedGate_eq_some hcred)).mpr hagrees
    refine ⟨?_,?_,hfound,?_⟩
    · intro token user hcred
      have hcred := sharedGate_eq_some hcred
      exact (authenticatedRequestToken_eq_iff hcred).mpr (hapi ⟨token,user,hcred⟩)
    · intro token user hcred
      exact (authenticatedRequestToken_eq_iff hcred).mpr (hapi ⟨token,user,hcred⟩)
    · intro token user hcred
      have hne := accepts_ne_nil (browserCredential_accepts (sharedGate_eq_some hcred))
      exact (browserPeer_hash_iff hinj hsize hne).mpr (hfound token user hcred)

namespace Sample

theorem spread_ne_nil (t : Text) : spread t ≠ [] := by cases t <;> simp [spread]

def plainHeader : Request where
  authorization := bearer ++ token

/-- A stale subprotocol in front of the live one, as a reconnecting client may offer. -/
def staleProtocols : Request where
  protocols := "codeharbor-v1.stale, ".toList ++ subprotocol ++ token

/-- The live token was revoked on another instance and the notice has not arrived. -/
def revokedElsewhere : AuthState where
  redis := some [(spread token,expiry)]

end Sample

theorem plainHeader_usesAuthenticatingToken :
    Sample.config.UsesAuthenticatingToken {} 0 true Sample.plainHeader := by
  have hagrees : Sample.config.ApiAgrees [] 0 Sample.plainHeader := by
    have hacc : Sample.config.accepts [] 0
        (trimPrefix Sample.plainHeader.authorization bearer) = true := by decide
    simp only [Config.ApiAgrees,hacc,if_true]
    decide
  have hbrowser : Sample.config.BrowserAgrees [] 0 Sample.plainHeader := by
    have hnone : protocolTokens Sample.plainHeader = [] := by decide
    exact (Config.browserAgrees_iff_apiAgrees hnone rfl).mpr hagrees
  exact (Config.usesAuthenticatingToken_iff Sample.config Sample.spread_injective
    Sample.spread_ne_nil {} 0 true Sample.plainHeader).mpr
      ⟨fun _ => hagrees,fun _ => hbrowser⟩

/-- With the stale candidate in front, the shared lookup asks about the stale text, so the
revoked token is let in and the peer is filed under the wrong hash. -/
theorem staleProtocols_not_usesAuthenticatingToken :
    ¬ Sample.config.UsesAuthenticatingToken Sample.revokedElsewhere 0 true
      Sample.staleProtocols := by
  intro h
  have hcred : Sample.config.relayBrowserPrincipal Sample.revokedElsewhere 0 true
      Sample.staleProtocols = some (.signed Sample.token Sample.amy) := by decide
  have hfound := h.browser _ _ hcred
  revert hfound
  decide

end CodeHarbor.Relay
