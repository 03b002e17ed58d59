import CodeHarbor.Relay.Principal
set_option autoImplicit false

namespace CodeHarbor.Relay
open Lib.Go Lib.Base64

inductive LogoutReply where
  | ok
  | unauthorized
  | storageUnavailable
  | revocationUnavailable
  deriving DecidableEq, Repr

/-- Outcomes of the stores a logout talks to. -/
structure LogoutStores where
  storageUp : Bool := true
  redisSet : Bool := true
  redisPublish : Bool := true
  deriving DecidableEq, Repr

def Config.disconnectBrowsersByTokenHash (_ : Config) (browsers : List BrowserPeer)
    (tokenHash : Bytes) : List BrowserPeer :=
  if tokenHash = [] then browsers else browsers.filter (·.authTokenHash ≠ tokenHash)

/-- Keys are filed under the credential hash and lapse at `expiresAt`. -/
def Config.setSharedRevocation (c : Config) (keys : Revocations) (now : Time) (token : Text)
    (expiresAt : Time) : Revocations :=
  if token = [] ∨ expiresAt ≤ now then keys else (c.hashCredential token,expiresAt) :: keys

/-- `POST /api/v1/auth/logout`. A failing shared store still leaves the local revocation
in place. -/
def Config.logout (c : Config) (s : AuthState) (now : Time) (stores : LogoutStores)
    (req : Request) : AuthState × LogoutReply :=
  match c.apiCredential s.revoked now req with
  | none => (s,.unauthorized)
  | some _ =>
    let token := c.logoutToken s now req
    match c.tokenExpiry token with
    | none => (s,.ok)
    | some expiresAt =>
      if stores.storageUp = false then (s,.storageUnavailable)
      else
        let hash := c.hashCredential token
        let revoked := rememberRevokedHash s.revoked now hash expiresAt
        let browsers := c.disconnectBrowsersByTokenHash s.browsers hash
        match s.redis with
        | none => ({ s with revoked := revoked, browsers := browsers },.ok)
        | some keys =>
          if stores.redisSet = false then
            ({ s with revoked := revoked, browsers := browsers },.revocationUnavailable)
          else
            let keys := c.setSharedRevocation keys now token expiresAt
            ({ revoked := revoked, redis := some keys, browsers := browsers },
              if stores.redisPublish then .ok else .revocationUnavailable)

/-- The instant until which `tokenUser` honours a signed token. -/
def Config.expiry (c : Config) (token : Text) : Option Time :=
  ((c.signedPayload token).bind c.payloadClaims).bind (fun claims => c.parseTime claims.2)

/-- No text with the same signed payload opens a request any more. -/
def Config.SessionEnded (c : Config) (s : AuthState) (now : Time) (token : Text) : Prop :=
  ∀ (redisUp : Bool) (req : Request) (other user : Text),
    c.signedPayload other = c.signedPayload token →
    c.relayApiPrincipal s now redisUp req ≠ some (.signed other user) ∧
    c.relayBrowserPrincipal s now redisUp req ≠ some (.signed other user)

/-- Another spelling of a token: line feeds in front of the signature. -/
def respell (payload signature : Text) (k : Nat) : Text :=
  payload ++ '.' :: (List.replicate k '\n' ++ signature)

theorem respell_injective (payload signature : Text) :
    Function.Injective (respell payload signature) := by
  intro j k h
  have hlen := congrArg List.length h
  simp [respell] at hlen
  omega

theorem Config.signedPayload_respell {c : Config} {token payload signature : Text}
    (hsplit : split token '.' = [payload,signature]) (k : Nat) :
    c.signedPayload (respell payload signature k) = c.signedPayload token := by
  have hdot : '.' ∉ List.replicate k '\n' := by simp
  have hk : split (respell payload signature k) '.' =
      [payload,List.replicate k '\n' ++ signature] := split_insert hsplit hdot
  have hbreaks : (List.replicate k '\n').all isLineBreak := by simp [isLineBreak]
  simp only [signedPayload,hsplit,hk,decodeString_lineBreaks hbreaks]

theorem trimSpace_respell {token payload signature : Text}
    (hsplit : split token '.' = [payload,signature]) (hsig : signature ≠ [])
    (htrim : trimSpace token = token) (k : Nat) :
    trimSpace (respell payload signature k) = respell payload signature k := by
  have htoken := split_two hsplit
  obtain ⟨d,hd⟩ : ∃ d, signature.getLast? = some d := by
    cases h : signature.getLast? with
    | none => simp [hsig] at h
    | some d => exact ⟨d,rfl⟩
  have hlast : isSpace d = false := by
    apply trimSpace_getLast (s := token)
    rw [htrim,htoken]
    simp [List.getLast?_append,List.getLast?_cons,hd]
  have hkd : (respell payload signature k).getLast? = some d := by
    simp [respell,List.getLast?_append,List.getLast?_cons,hd]
  cases hp : payload with
  | nil =>
    rw [hp] at hkd
    exact trimSpace_eq_self (c := '.') rfl (by decide) hkd hlast
  | cons ch rest =>
    rw [hp] at hkd
    have hhead : isSpace ch = false := by
      apply trimSpace_head (s := token) (r := rest ++ '.' :: signature)
      rw [htrim,htoken,hp]
      rfl
    exact trimSpace_eq_self (c := ch) rfl hhead hkd hlast

theorem Config.isTokenRevoked_of_notMem {c : Config} {revoked : Revocations} {now : Time}
    {token : Text} (h : c.hashCredential token ∉ revoked.map Prod.fst) :
    c.isTokenRevoked revoked now token = false := by
  have hnone : revoked.lookup (c.hashCredential token) = none := by
    apply List.lookup_eq_none_iff.mpr
    intro entry hentry
    have hne : c.hashCredential token ≠ entry.1 := by
      intro he
      exact h (List.mem_map.mpr ⟨entry,hentry,he.symm⟩)
    simpa using hne
  simp [isTokenRevoked,hnone]

theorem Config.exists_unrevoked_respell (c : Config) (hinj : Function.Injective c.sha256)
    (payload signature : Text) (hashes : List Bytes) :
    ∃ k, c.hashCredential (respell payload signature k) ∉ hashes := by
  have hf : Function.Injective (fun k => c.hashCredential (respell payload signature k)) :=
    hinj.comp (respell_injective payload signature)
  obtain ⟨hash,⟨k,rfl⟩,hk⟩ :=
    (Set.infinite_range_of_injective hf).exists_notMem_finset hashes.toFinset
  exact ⟨k,by simpa using hk⟩

def AuthState.hashes (s : AuthState) : List Bytes :=
  s.revoked.map Prod.fst ++ (s.redis.getD []).map Prod.fst

theorem Config.sharedGate_of_notMem {c : Config} {s : AuthState} {now : Time} {token : Text}
    {found : Option Credential} (h : c.hashCredential token ∉ s.hashes) :
    c.sharedGate s now true token found = found := by
  simp only [AuthState.hashes,List.mem_append,not_or] at h
  have hlocal : c.isTokenRevoked s.revoked now token = false := isTokenRevoked_of_notMem h.1
  unfold sharedGate
  split_ifs with hskip hshared
  · rfl
  · rfl
  · exfalso
    apply hshared
    cases hr : s.redis with
    | none => simp [sharedTokenRevoked,hlocal,hr]
    | some keys =>
      rw [hr] at h
      have hkeys : c.isTokenRevoked keys now token = false := isTokenRevoked_of_notMem h.2
      simp only [sharedTokenRevoked,hlocal,hr,hkeys,Bool.false_eq_true,if_false,if_true,ite_self]

theorem protocolTokens_of_nil {req : Request} (h : req.protocols = []) :
    protocolTokens req = [] := by
  rw [protocolTokens,h]
  decide

/-- A trimmed token that verifies and is in no revocation table opens every door: as a
header, and as a query token where those are allowed. -/
theorem Config.opens_of_verify {c : Config} {s : AuthState} {now : Time} {token user : Text}
    (hv : c.verify s.revoked now token = some user) (htrim : trimSpace token = token)
    (hfree : c.hashCredential token ∉ s.hashes) :
    c.relayApiPrincipal s now true { authorization := bearer ++ token } =
      some (.signed token user) ∧
    c.relayBrowserPrincipal s now true { authorization := bearer ++ token } =
      some (.signed token user) ∧
    (c.browserQueryTokenAllowed →
      c.relayBrowserPrincipal s now true { queryToken := some [token] } =
        some (.signed token user)) := by
  have hacc : c.accepts s.revoked now token = true := by simp [accepts,hv]
  have hapi : c.apiCredential s.revoked now { authorization := bearer ++ token } =
      some (.signed token user) := by
    simp [apiCredential,trimPrefix_append,signedCredential,hv]
  have hagrees : c.ApiAgrees s.revoked now { authorization := bearer ++ token } := by
    simp only [ApiAgrees,trimPrefix_append,hacc,if_true,htrim]
  have hfound := (authenticatedRequestToken_eq_iff hapi).mpr hagrees
  have hnone : ∀ req : Request, req.protocols = [] → protocolTokens req = [] :=
    fun _ => protocolTokens_of_nil
  refine ⟨?_,?_,?_⟩
  · rw [relayApiPrincipal,hfound,sharedGate_of_notMem hfree,hapi]
  · have htoken : c.browserRequestToken s.revoked now { authorization := bearer ++ token } =
        token := by
      simp [browserRequestToken,hnone,hfound]
    rw [relayBrowserPrincipal,htoken,sharedGate_of_notMem hfree]
    simp [browserCredential,hnone,hapi]
  · intro hallowed
    have htoken : c.browserRequestToken s.revoked now { queryToken := some [token] } =
        token := by
      simp [browserRequestToken,hnone,hallowed,htrim]
    rw [relayBrowserPrincipal,htoken,sharedGate_of_notMem hfree]
    simp [browserCredential,hnone,hallowed,htrim,signedCredential,hv]

theorem Config.expiry_eq_some {c : Config} {token : Text} {expiry : Time} :
    c.expiry token = some expiry ↔ ∃ decoded claims, c.signedPayload token = some decoded ∧
      c.payloadClaims decoded = some claims ∧ c.parseTime claims.2 = some expiry := by
  simp only [Config.expiry,Option.bind_eq_some_iff]
  constructor
  · rintro ⟨claims,⟨decoded,hp,hc⟩,ht⟩
    exact ⟨decoded,claims,hp,hc,ht⟩
  · rintro ⟨decoded,claims,hp,hc,ht⟩
    exact ⟨claims,⟨decoded,hp,hc⟩,ht⟩

/-- Whatever has been revoked so far, a signed token that has not expired has a spelling
that still verifies and stands in no table. -/
theorem Config.exists_live_spelling (c : Config) (hinj : Function.Injective c.sha256)
    (hmac : ∀ key message, c.hmac key message ≠ []) (s : AuthState) {token : Text}
    (htrim : trimSpace token = token) {now expiry : Time}
    (hexpiry : c.expiry token = some expiry) (hnow : now < expiry) :
    ∃ other user, c.signedPayload other = c.signedPayload token ∧
      c.verify s.revoked now other = some user ∧ trimSpace other = other ∧
      c.hashCredential other ∉ s.hashes := by
  obtain ⟨decoded,claims,hp,hc,ht⟩ := expiry_eq_some.mp hexpiry
  obtain ⟨payload,signature,hsplit,hsig,-⟩ := signedPayload_eq_some.mp hp
  have hne : signature ≠ [] := by
    rintro rfl
    have hnil : decodeString [] = some [] := rfl
    exact hmac _ _ (Option.some.inj (hsig.symm.trans hnil))
  obtain ⟨k,hk⟩ := c.exists_unrevoked_respell hinj payload signature s.hashes
  have hspell := c.signedPayload_respell hsplit k
  have hlocal : c.hashCredential (respell payload signature k) ∉ s.revoked.map Prod.fst := by
    intro hmem
    exact hk (List.mem_append_left _ hmem)
  refine ⟨respell payload signature k,claims.1,hspell,?_,trimSpace_respell hsplit hne htrim k,hk⟩
  exact verify_eq_some.mpr
    ⟨decoded,claims.2,expiry,hspell.trans hp,hc,ht,hnow,isTokenRevoked_of_notMem hlocal⟩

/-- No logout ends the session: at every instant before the token's expiry some other text
with the same signed payload is let in. It has line feeds before the signature, as the query of
a browser's request may; the one further down goes through an HTTP header as well. -/
theorem Config.logout_not_sessionEnded (c : Config) (hinj : Function.Injective c.sha256)
    (hmac : ∀ key message, c.hmac key message ≠ []) (s : AuthState) (now : Time)
    (stores : LogoutStores) (req : Request) (user : Text)
    (_ : c.verify s.revoked now (c.logoutToken s now req) = some user)
    (_ : (c.logout s now stores req).2 = .ok) (later expiry : Time)
    (hexpiry : c.expiry (c.logoutToken s now req) = some expiry) (hlater : later < expiry) :
    ¬ c.SessionEnded (c.logout s now stores req).1 later (c.logoutToken s now req) ∧
      (c.browserQueryTokenAllowed → ∃ other owner,
        c.signedPayload other = c.signedPayload (c.logoutToken s now req) ∧
        c.relayBrowserPrincipal (c.logout s now stores req).1 later true
          { queryToken := some [other] } = some (.signed other owner)) := by
  have htrim : trimSpace (c.logoutToken s now req) = c.logoutToken s now req :=
    c.authenticatedRequestToken_trimmed s.revoked now req
  obtain ⟨other,owner,hsame,hv,hother,hfree⟩ :=
    c.exists_live_spelling hinj hmac (c.logout s now stores req).1 htrim hexpiry hlater
  have hopen := opens_of_verify hv hother hfree
  refine ⟨?_,fun hallowed => ⟨other,owner,hsame,hopen.2.2 hallowed⟩⟩
  intro hended
  exact (hended true _ other owner hsame).1 hopen.1

namespace Sample

/-- The same signature with its two spare low bits set differently. -/
def respelled : Text := payloadText ++ '.' :: "ZGeSK9VAO4dcBYxsTenU4WttsgZmHXVoSMhlDEWKzPp".toList

theorem hmac_ne_nil (key message : Text) : config.hmac key message ≠ [] := by
  simp only [config]
  split_ifs <;> decide

end Sample

theorem plainHeader_logout_not_sessionEnded :
    ¬ Sample.config.SessionEnded (Sample.config.logout {} 0 {} Sample.plainHeader).1 1
        (Sample.config.logoutToken {} 0 Sample.plainHeader) ∧
      ∃ other owner, Sample.config.signedPayload other =
          Sample.config.signedPayload (Sample.config.logoutToken {} 0 Sample.plainHeader) ∧
        Sample.config.relayBrowserPrincipal (Sample.config.logout {} 0 {} Sample.plainHeader).1 1 true
          { queryToken := some [other] } = some (.signed other owner) := by
  have hlogout := Config.logout_not_sessionEnded Sample.config Sample.spread_injective
    Sample.hmac_ne_nil {} 0 {} Sample.plainHeader Sample.amy (by decide) (by decide +kernel) 1
    Sample.expiry (by decide) (by decide)
  exact ⟨hlogout.1,hlogout.2 (by decide)⟩

/-- After the logout, an Authorization header with the respelled signature is accepted. -/
theorem respelled_opens_after_logout :
    (Sample.config.logout {} 0 {} Sample.plainHeader).2 = .ok ∧
    Sample.config.expiry Sample.token = some Sample.expiry ∧
    ¬ Sample.config.SessionEnded (Sample.config.logout {} 0 {} Sample.plainHeader).1 1
      Sample.token := by
  refine ⟨by decide,by decide +kernel,?_⟩
  intro hended
  have hsame : Sample.config.signedPayload Sample.respelled =
      Sample.config.signedPayload Sample.token := by decide
  have hopen : Sample.config.relayApiPrincipal
      (Sample.config.logout {} 0 {} Sample.plainHeader).1 1 true
      { authorization := bearer ++ Sample.respelled } =
        some (.signed Sample.respelled Sample.amy) := by decide +kernel
  exact (hended true _ _ _ hsame).1 hopen

end CodeHarbor.Relay
