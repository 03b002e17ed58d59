import CodeHarbor.Lib.Base64
set_option autoImplicit false

namespace CodeHarbor.Relay
open Lib.Go Lib.Base64

/-- Instants in nanoseconds, as `time.Now` and `time.Parse` deliver them. -/
abbrev Time := Int

/-- The process environment the relay reads; an unset variable is the empty text. -/
structure Env where
  authSecret : Text := []
  cloudToken : Text := []
  adminUser : Text := []
  adminPassword : Text := []
  nodeEnv : Text := []
  allowQueryToken : Text := []
  deriving DecidableEq, Repr

structure AccountTokenPayload where
  user : Text
  expiresAt : Text
  nonce : Text
  deriving DecidableEq, Repr

/-- Environment together with the cryptographic and codec functions the relay calls.
HMAC and SHA-256 stay abstract; so do the JSON of the payload record, RFC 3339 instants and
the reading of raw bytes as text. -/
structure Config extends Env where
  hmac : Text → Text → Bytes
  sha256 : Text → Bytes
  unmarshal : Bytes → Option AccountTokenPayload
  formatTime : Time → Text
  parseTime : Text → Option Time
  runes : Bytes → Text

def bearer : Text := "Bearer ".toList

/-- `env(CODEHARBOR_AUTH_SECRET, env(CODEHARBOR_CLOUD_TOKEN, …))`. -/
def Env.signingKey (e : Env) : Text :=
  if e.authSecret ≠ [] then e.authSecret
  else if e.cloudToken ≠ [] then e.cloudToken
  else "development-only-secret".toList

def Env.configuredAdminUser (e : Env) : Text := trimSpace e.adminUser

def Config.hashCredential (c : Config) (value : Text) : Bytes := c.sha256 value

/-- `accountTokenTTL`, thirty days. -/
def accountTokenTTL : Time := 30*24*3600*1000000000

/-- Revoked credential hashes with the instant each entry lapses. The newest entry of a
hash is the one in force. Dropping a lapsed entry changes no later answer, so lookups
leave the table as it is. -/
abbrev Revocations := List (Bytes × Time)

def Config.isTokenRevoked (c : Config) (revoked : Revocations) (now : Time) (token : Text) :
    Bool :=
  match revoked.lookup (c.hashCredential token) with
  | some expires => now < expires
  | none => false

def rememberRevokedHash (revoked : Revocations) (now : Time) (hash : Bytes) (expiresAt : Time) :
    Revocations :=
  if hash = [] ∨ expiresAt < now then revoked else (hash,expiresAt) :: revoked

/-- The legacy payload `user|expiry`, cut at the last bar; neither side may be empty. -/
def cutLegacy (text : Text) : Option (Text × Text) :=
  let rev := text.reverse
  let after := (rev.takeWhile (· ≠ '|')).reverse
  match rev.dropWhile (· ≠ '|') with
  | [] => none
  | _ :: before => if before = [] ∨ after = [] then none else some (before.reverse,after)

/-- User and expiry text of a signed payload: the JSON record when it names both, the
legacy form otherwise. -/
def Config.payloadClaims (c : Config) (decoded : Bytes) : Option (Text × Text) :=
  match c.unmarshal decoded with
  | some p =>
    if p.user ≠ [] ∧ p.expiresAt ≠ [] then some (p.user,p.expiresAt)
    else cutLegacy (c.runes decoded)
  | none => cutLegacy (c.runes decoded)

/-- The decoded payload of a token whose signature checks out. -/
def Config.signedPayload (c : Config) (token : Text) : Option Bytes :=
  match split token '.' with
  | [payload,signature] =>
    match decodeString signature with
    | some expected =>
      if expected = c.hmac c.signingKey payload then decodeString payload else none
    | none => none
  | _ => none

/-- `tokenUser` behind the removal of the `Bearer ` prefix. -/
def Config.verify (c : Config) (revoked : Revocations) (now : Time) (token : Text) :
    Option Text :=
  match c.signedPayload token with
  | none => none
  | some decoded =>
    match c.payloadClaims decoded with
    | none => none
    | some (user,expiresAt) =>
      match c.parseTime expiresAt with
      | none => none
      | some expiry =>
        if now < expiry ∧ c.isTokenRevoked revoked now token = false then some user else none

/-- `tokenExpiry` reads the expiry without checking the signature, and takes the JSON
record's expiry even when the record names no user. -/
def Config.tokenExpiry (c : Config) (value : Text) : Option Time :=
  match split (trimPrefix value bearer) '.' with
  | [payload,_] =>
    match decodeString payload with
    | none => none
    | some decoded =>
      match c.unmarshal decoded with
      | some p =>
        if p.expiresAt ≠ [] then c.parseTime p.expiresAt
        else (cutLegacy (c.runes decoded)).bind (fun claims => c.parseTime claims.2)
      | none => (cutLegacy (c.runes decoded)).bind (fun claims => c.parseTime claims.2)
  | _ => none

theorem Config.signedPayload_eq_some {c : Config} {token : Text} {decoded : Bytes} :
    c.signedPayload token = some decoded ↔ ∃ payload signature,
      split token '.' = [payload,signature] ∧
      decodeString signature = some (c.hmac c.signingKey payload) ∧
      decodeString payload = some decoded := by
  constructor
  · intro h
    unfold signedPayload at h
    split at h
    · rename_i payload signature hsplit
      split at h
      · rename_i expected hdec
        split at h
        · rename_i heq
          exact ⟨payload,signature,hsplit,heq ▸ hdec,h⟩
        · simp at h
      · simp at h
    · simp at h
  · rintro ⟨payload,signature,hsplit,hsig,hpay⟩
    simp [signedPayload,hsplit,hsig,hpay]

theorem Config.verify_eq_some {c : Config} {revoked : Revocations} {now : Time}
    {token user : Text} :
    c.verify revoked now token = some user ↔ ∃ decoded expiresAt expiry,
      c.signedPayload token = some decoded ∧ c.payloadClaims decoded = some (user,expiresAt) ∧
      c.parseTime expiresAt = some expiry ∧ now < expiry ∧
      c.isTokenRevoked revoked now token = false := by
  constructor
  · intro h
    unfold verify at h
    split at h
    · simp at h
    · rename_i decoded hp
      split at h
      · simp at h
      · rename_i u e hc
        split at h
        · simp at h
        · rename_i expiry ht
          split at h
          · rename_i hcond
            cases h
            exact ⟨decoded,e,expiry,hp,hc,ht,hcond.1,hcond.2⟩
          · simp at h
  · rintro ⟨decoded,expiresAt,expiry,hp,hc,ht,hnow,hrev⟩
    simp [verify,hp,hc,ht,hnow,hrev]

theorem Config.verify_nil (c : Config) (revoked : Revocations) (now : Time) :
    c.verify revoked now [] = none := by
  simp [verify,signedPayload,split]

/-! A small deployment for concrete runs: no secret is configured, one signed token of
user `amy` is in circulation, with the digest HMAC-SHA256 has on its payload. -/

namespace Sample

def payloadText : Text :=
  "eyJ1IjoiYW15IiwiZSI6IjIwMjYtMDEtMzFUMDA6MDA6MDBaIiwibiI6Im4xIn0".toList

def payloadBytes : Bytes :=
  [123,34,117,34,58,34,97,109,121,34,44,34,101,34,58,34,50,48,50,54,45,48,49,45,51,49,84,48,48,
   58,48,48,58,48,48,90,34,44,34,110,34,58,34,110,49,34,125]

def digest : Bytes :=
  [100,103,146,43,213,64,59,135,92,5,140,108,77,233,212,225,107,109,178,6,102,29,117,104,72,200,
   101,12,69,138,204,250]

def amy : Text := "amy".toList
def expiryText : Text := "2026-01-31T00:00:00Z".toList
def expiry : Time := 1769817600000000000

/-- Three bytes a rune, so that distinct texts have distinct hashes. -/
def spread : Text → Bytes
  | [] => [1]
  | ch :: rest =>
    UInt8.ofNat (ch.toNat/65536) :: UInt8.ofNat (ch.toNat/256%256) ::
      UInt8.ofNat (ch.toNat%256) :: spread rest

def config : Config where
  hmac key message :=
    if key = "development-only-secret".toList ∧ message = payloadText then digest
    else List.replicate 32 0
  sha256 := spread
  unmarshal raw :=
    if raw = payloadBytes then
      some { user := amy, expiresAt := expiryText, nonce := "n1".toList }
    else none
  formatTime _ := expiryText
  parseTime text := if text = expiryText then some expiry else none
  runes raw := raw.map (fun b => Char.ofNat b.toNat)

def signature : Text := "ZGeSK9VAO4dcBYxsTenU4WttsgZmHXVoSMhlDEWKzPo".toList

def token : Text := payloadText ++ '.' :: signature

theorem rune_lt (ch : Char) : ch.toNat < 0x110000 := by
  have h : ch.toNat < 0xd800 ∨ 0xdfff < ch.toNat ∧ ch.toNat < 0x110000 := ch.valid
  omega

theorem spread_injective : Function.Injective spread := by
  intro s t h
  induction s generalizing t with
  | nil =>
    cases t with
    | nil => rfl
    | cons d t => cases t <;> simp [spread] at h
  | cons ch s ih =>
    cases t with
    | nil => cases s <;> simp [spread] at h
    | cons d t =>
      simp only [spread,List.cons.injEq] at h
      obtain ⟨h0,h1,h2,ht⟩ := h
      have hc := rune_lt ch
      have hd := rune_lt d
      have e0 := congrArg UInt8.toNat h0
      have e1 := congrArg UInt8.toNat h1
      have e2 := congrArg UInt8.toNat h2
      simp only [UInt8.toNat_ofNat'] at e0 e1 e2
      have he : ch.toNat = d.toNat := by omega
      rw [Char.toNat_inj.mp he,ih ht]

end Sample

end CodeHarbor.Relay
