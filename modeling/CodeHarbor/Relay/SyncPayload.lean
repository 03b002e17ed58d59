import CodeHarbor.Lib.JsText
import CodeHarbor.Relay.Sessions
set_option autoImplicit false

namespace CodeHarbor.Relay
open Lib Lib.Go Lib.Js

/-! The session inventory on its way from the gateway to the relay. -/

/-- A field of a listed session, as far as the encoder tells values apart. -/
inductive JsField where
  | nullish
  | text (value : JsText)
  | other
  deriving DecidableEq, Repr

/-- The fields that the encoder reads from a session of the listing or of the store. -/
structure ListedSession where
  id : JsField := .nullish
  title : JsField := .nullish
  workspacePath : JsField := .nullish
  status : JsField := .nullish
  updatedAt : JsField := .nullish
  lastUpdatedAt : JsField := .nullish
  sessionPolicyMode : JsField := .nullish
  deriving DecidableEq, Repr

structure SessionSyncMetadata where
  id : JsText
  title : JsText
  workspacePath : JsText
  status : JsText
  updatedAt : JsText
  sessionPolicyMode : JsText
  deriving DecidableEq, Repr

def stringOr (value : JsField) (fallback : JsText) : JsText :=
  match value with
  | .text t => t
  | _ => fallback

/-- `left ?? right`. -/
def JsField.orElse (left right : JsField) : JsField :=
  match left with
  | .nullish => right
  | _ => left

/-- `normalizeSession`; `none` stands for a value that is no object, or has no id. -/
def normalizeSession (value : Option ListedSession) : Option SessionSyncMetadata :=
  match value with
  | none => none
  | some record =>
    let id := Js.trim (stringOr record.id [])
    if id = [] then none
    else some
      { id := id
        title := stringOr record.title (ofString "Codex 会话")
        workspacePath := stringOr record.workspacePath []
        status := stringOr record.status (ofString "completed")
        updatedAt := stringOr (record.updatedAt.orElse record.lastUpdatedAt)
          (ofString "1970-01-01T00:00:00.000Z")
        sessionPolicyMode :=
          if record.sessionPolicyMode = .text (ofString "full-access") then ofString "full-access"
          else ofString "confirm" }

structure SessionSyncPayload where
  requestId : JsText
  sessions : List SessionSyncMetadata
  cursors : List (JsText × Nat)
  deriving DecidableEq, Repr

/-- Cursors are kept when they name a session and are safe integers that are not negative;
other numbers come in as `none`. -/
def normalizeCursors (cursors : List (JsText × Option Nat)) : List (JsText × Nat) :=
  cursors.filterMap (fun entry =>
    if entry.1 = [] then none
    else
      match entry.2 with
      | some n => if n < 2^53 then some (entry.1,n) else none
      | none => none)

/-- `buildSessionSyncPayload`: a listing that came back is authoritative, and the last
session with an id is the one that counts. -/
def buildSessionSyncPayload (response : Option (List (Option ListedSession)))
    (fallback : List (Option ListedSession)) (cursors : List (JsText × Option Nat))
    (requestId : JsText) : SessionSyncPayload :=
  let byId := OrdMap.empty.setAll SessionSyncMetadata.id
    ((response.getD fallback).filterMap normalizeSession)
  { requestId := requestId
    sessions := byId.entries.map Prod.snd
    cursors := normalizeCursors cursors }

/-- JSON documents, as far as the two sides write and read them here. -/
inductive Json where
  | null
  | number (n : Nat)
  | str (text : Text)
  | arr (items : List Json)
  | obj (members : List (Text × Json))

def SessionSyncMetadata.json (m : SessionSyncMetadata) : Json :=
  .obj [("id".toList,.str (toRunes m.id)),("title".toList,.str (toRunes m.title)),
    ("workspacePath".toList,.str (toRunes m.workspacePath)),("status".toList,.str (toRunes m.status)),
    ("updatedAt".toList,.str (toRunes m.updatedAt)),
    ("sessionPolicyMode".toList,.str (toRunes m.sessionPolicyMode))]

/-- `JSON.stringify` of the payload, as the relay reads it back into a map. -/
def SessionSyncPayload.json (p : SessionSyncPayload) : List (Text × Json) :=
  [("type".toList,.str "session-sync".toList),("requestId".toList,.str (toRunes p.requestId)),
    ("sessions".toList,.arr (p.sessions.map SessionSyncMetadata.json)),
    ("cursors".toList,.obj (p.cursors.map (fun e => (toRunes e.1,.number e.2))))]

/-- The fields of `sessionRecord` by their JSON names, which match in any case. -/
def sessionField (name : Text) : Option (SessionRecord → Text → SessionRecord) :=
  let name := toLower name
  if name = "id".toList then some (fun r t => { r with id := t })
  else if name = "deviceid".toList then some (fun r t => { r with deviceId := t })
  else if name = "status".toList then some (fun r t => { r with status := t })
  else if name = "title".toList then some (fun r t => { r with title := t })
  else if name = "workspacepath".toList then some (fun r t => { r with workspacePath := t })
  else if name = "updatedat".toList then some (fun r t => { r with updatedAt := t })
  else if name = "sessionpolicymode".toList then some (fun r t => { r with sessionPolicyMode := t })
  else none

def assignField (record : SessionRecord) (field : Text × Json) : Option SessionRecord :=
  match sessionField field.1 with
  | none => some record
  | some assign =>
    match field.2 with
    | .str text => some (assign record text)
    | .null => some record
    | _ => none

/-- `json.Unmarshal` into a `sessionRecord`. -/
def unmarshalSession : Json → Option SessionRecord
  | .obj members => members.foldlM assignField { id := [] }
  | .null => some { id := [] }
  | _ => none

/-- The sessions stand at the top level or under `payload`. -/
def sessionSyncPayload (msg : List (Text × Json)) : Option (List SessionRecord) :=
  let raw :=
    match msg.lookup "sessions".toList with
    | some raw => some raw
    | none =>
      match msg.lookup "payload".toList with
      | some (.obj members) => members.lookup "sessions".toList
      | some (.arr items) => some (.arr items)
      | _ => none
  match raw with
  | some (.arr items) => items.mapM unmarshalSession
  | _ => none

/-- `handleSessionSync` up to the store. -/
def Config.handleSessionSync (c : Config) (now : Time) (ownerUser deviceId : Text)
    (msg : List (Text × Json)) : Except SyncError (List (NormalizedSession c)) :=
  match sessionSyncPayload msg with
  | none => .error .invalidSessionSync
  | some sessions => c.normalizeBatch now ownerUser deviceId sessions

def SessionSyncMetadata.record (m : SessionSyncMetadata) : SessionRecord where
  id := toRunes m.id
  title := toRunes m.title
  workspacePath := toRunes m.workspacePath
  status := toRunes m.status
  updatedAt := toRunes m.updatedAt
  sessionPolicyMode := toRunes m.sessionPolicyMode

/-- A time text the relay can parse; it fills in its own clock for an empty one. -/
def Config.datable (c : Config) (now : Time) (text : Text) : Bool :=
  (c.parseInstant (if trimSpace text = [] then c.formatTime now else trimSpace text)).isSome

/-- The limits of the relay, in bytes of the trimmed texts. -/
def Config.admits (c : Config) (now : Time) (m : SessionSyncMetadata) : Bool :=
  trimSpace (toRunes m.id) ≠ [] &&
    byteLen (trimSpace (toRunes m.id)) ≤ maxSessionIdLength &&
    byteLen (trimSpace (toRunes m.title)) ≤ maxSessionTitleLen &&
    byteLen (trimSpace (toRunes m.workspacePath)) ≤ maxWorkspacePathLen &&
    byteLen (trimSpace (toRunes m.status)) ≤ maxSessionStatusLen &&
    c.datable now (toRunes m.updatedAt)

def Config.admitsLast (c : Config) (now : Time) : List SessionSyncMetadata → Bool
  | [] => true
  | m :: rest => (rest.any (·.id = m.id) || c.admits now m) && c.admitsLast now rest

/-- A list of sessions within the relay's limits: each one that counts, and how many
different ids there are. -/
def Config.withinLimits (c : Config) (now : Time) (sessions : List (Option ListedSession)) : Bool :=
  let listed := sessions.filterMap normalizeSession
  c.admitsLast now listed && (listed.map (·.id)).eraseDups.length ≤ maxSessionSyncItems

theorem unmarshalSession_json (m : SessionSyncMetadata) : unmarshalSession m.json = some m.record := by
  rfl

/-- Every frame the encoder makes is decoded, record by record. -/
theorem sessionSyncPayload_json (p : SessionSyncPayload) :
    sessionSyncPayload p.json = some (p.sessions.map SessionSyncMetadata.record) := by
  have hlookup : p.json.lookup "sessions".toList =
      some (.arr (p.sessions.map SessionSyncMetadata.json)) := rfl
  have hitems : (p.sessions.map SessionSyncMetadata.json).mapM unmarshalSession =
      some (p.sessions.map SessionSyncMetadata.record) := by
    induction p.sessions with
    | nil => rfl
    | cons m rest ih => simp [List.mapM_cons,unmarshalSession_json,ih]
  simp only [sessionSyncPayload,hlookup,hitems]

theorem Config.normalizeSessionSync_isSome (c : Config) (now : Time) (m : SessionSyncMetadata)
    (hmode : m.sessionPolicyMode = ofString "full-access" ∨ m.sessionPolicyMode = ofString "confirm") :
    (c.normalizeSessionSync now m.record).isSome = c.admits now m := by
  have htrimmed : trimSpace m.record.sessionPolicyMode = fullAccessMode ∨
      trimSpace m.record.sessionPolicyMode = confirmMode := by
    simp only [SessionSyncMetadata.record]
    rcases hmode with hmode | hmode
    · left
      rw [hmode]
      decide
    · right
      rw [hmode]
      decide
  have hshort : byteLen (trimSpace m.record.sessionPolicyMode) ≤ maxSessionPolicyLen := by
    rcases htrimmed with htrimmed | htrimmed
    · rw [htrimmed]
      decide
    · rw [htrimmed]
      decide
  have hknown : ¬ ((c.trimSession now m.record).sessionPolicyMode ≠ confirmMode ∧
      (c.trimSession now m.record).sessionPolicyMode ≠ fullAccessMode) := by
    simp only [trimSession]
    rcases htrimmed with htrimmed | htrimmed
    · rw [htrimmed]
      decide
    · rw [htrimmed]
      decide
  have hfits : c.admits now m = (m.record.fits && c.datable now m.record.updatedAt) := by
    simp only [SessionRecord.fits,hshort,decide_true,Bool.and_true]
    rfl
  have hdatable : c.datable now m.record.updatedAt =
      (c.parseInstant (c.trimSession now m.record).updatedAt).isSome := rfl
  rw [hfits,hdatable]
  unfold normalizeSessionSync
  cases hf : m.record.fits with
  | false => simp
  | true =>
    simp only [Bool.true_eq_false,if_false,hknown,Bool.true_and]
    split
    · rename_i hparsed
      simp [hparsed]
    · rename_i instant hparsed
      simp [hparsed]

theorem normalizeSession_mode {value : Option ListedSession} {m : SessionSyncMetadata}
    (h : normalizeSession value = some m) :
    m.sessionPolicyMode = ofString "full-access" ∨ m.sessionPolicyMode = ofString "confirm" := by
  cases value with
  | none => simp [normalizeSession] at h
  | some record =>
    simp only [normalizeSession] at h
    split_ifs at h with hid hmode
    · cases h
      exact .inl rfl
    · cases h
      exact .inr rfl

theorem Config.admitsLast_iff (c : Config) (now : Time) (listed : List SessionSyncMetadata) :
    c.admitsLast now listed = true ↔
      ∀ id m, (listed.filter (·.id = id)).getLast? = some m → c.admits now m = true := by
  induction listed with
  | nil => simp [admitsLast]
  | cons m rest ih =>
    rw [admitsLast,Bool.and_eq_true,ih]
    constructor
    · rintro ⟨hfirst,hrest⟩ id n hlast
      rw [List.filter_cons] at hlast
      cases hrestlast : (rest.filter (·.id = id)).getLast? with
      | some n' =>
        have hn : n' = n := by
          split_ifs at hlast
          · simpa [List.getLast?_cons,hrestlast] using hlast
          · rw [hrestlast] at hlast
            exact Option.some.inj hlast
        subst hn
        exact hrest id n' hrestlast
      | none =>
        have hnone : rest.filter (·.id = id) = [] := List.getLast?_eq_none_iff.mp hrestlast
        rw [hnone] at hlast
        split_ifs at hlast with hid
        · simp only [List.getLast?_singleton,Option.some.injEq] at hlast
          subst hlast
          have hlater : rest.any (·.id = m.id) = false := by
            rw [List.any_eq_false]
            intro x hx hsame
            have hmem : x ∈ rest.filter (·.id = id) := by
              rw [List.mem_filter]
              exact ⟨hx,by simp_all⟩
            simp [hnone] at hmem
          simpa [hlater] using hfirst
        · simp at hlast
    · intro h
      refine ⟨?_,?_⟩
      · rw [Bool.or_eq_true]
        cases hrestlast : (rest.filter (·.id = m.id)).getLast? with
        | none =>
          right
          apply h m.id m
          have hnone := List.getLast?_eq_none_iff.mp hrestlast
          simp [hnone]
        | some n =>
          left
          rw [List.any_eq_true]
          have hmem := List.mem_of_getLast? hrestlast
          rw [List.mem_filter] at hmem
          exact ⟨n,hmem.1,hmem.2⟩
      · intro id n hlast
        apply h id n
        rw [List.filter_cons]
        split_ifs
        · simp [List.getLast?_cons,hlast]
        · exact hlast

theorem mapM_isSome {α β : Type} (f : α → Option β) (xs : List α) :
    (xs.mapM f).isSome = xs.all (fun x => (f x).isSome) := by
  induction xs with
  | nil => rfl
  | cons x xs ih =>
    rw [List.mapM_cons,List.all_cons,← ih]
    cases f x with
    | none => rfl
    | some y => cases xs.mapM f <;> rfl

section ById

variable (listed : List SessionSyncMetadata)

theorem mem_byId {m : SessionSyncMetadata} :
    m ∈ (OrdMap.empty.setAll SessionSyncMetadata.id listed).entries.map Prod.snd ↔
      ∃ id, (listed.filter (·.id = id)).getLast? = some m := by
  have hget : ∀ id, (OrdMap.empty.setAll SessionSyncMetadata.id listed).get id =
      (listed.filter (·.id = id)).getLast? := by
    intro id
    rw [OrdMap.get_setAll]
    simp
  constructor
  · intro hm
    obtain ⟨⟨id,n⟩,hentry,rfl⟩ := List.mem_map.mp hm
    exact ⟨id,by rw [← hget,OrdMap.get_eq_some]; exact hentry⟩
  · rintro ⟨id,hlast⟩
    rw [← hget,OrdMap.get_eq_some] at hlast
    exact List.mem_map.mpr ⟨(id,m),hlast,rfl⟩

theorem byId_all (c : Config) (now : Time) :
    ((OrdMap.empty.setAll SessionSyncMetadata.id listed).entries.map Prod.snd).all (c.admits now) =
      c.admitsLast now listed := by
  rw [Bool.eq_iff_iff,c.admitsLast_iff,List.all_eq_true]
  constructor
  · intro h id m hlast
    exact h m ((mem_byId listed).mpr ⟨id,hlast⟩)
  · intro h m hm
    obtain ⟨id,hlast⟩ := (mem_byId listed).mp hm
    exact h id m hlast

end ById

/-- The inventory of a paired device is never refused as an invalid sync exactly when the
sessions that count are within the relay's limits and there are not too many of them. -/
theorem Config.sessionSync_accepted_iff (c : Config) (now : Time) (ownerUser deviceId : Text)
    (response : Option (List (Option ListedSession))) (fallback : List (Option ListedSession))
    (cursors : List (JsText × Option Nat)) (requestId : JsText) :
    c.handleSessionSync now ownerUser deviceId
        (buildSessionSyncPayload response fallback cursors requestId).json ≠
        .error .invalidSessionSync ↔
      trimSpace ownerUser = [] ∨ trimSpace deviceId = [] ∨
        c.withinLimits now (response.getD fallback) = true := by
  set listed := (response.getD fallback).filterMap normalizeSession with hlisted
  set sent := (OrdMap.empty.setAll SessionSyncMetadata.id listed).entries.map Prod.snd with hsent
  have hlength : sent.length = (listed.map (·.id)).eraseDups.length := by
    rw [hsent,List.length_map]
    exact OrdMap.size_setAll SessionSyncMetadata.id listed
  have hmode : ∀ m ∈ sent, (c.normalizeSessionSync now m.record).isSome = c.admits now m := by
    intro m hm
    obtain ⟨id,hlast⟩ := (mem_byId listed).mp hm
    have hmem := List.mem_of_mem_filter (List.mem_of_getLast? hlast)
    rw [hlisted,List.mem_filterMap] at hmem
    obtain ⟨value,-,hvalue⟩ := hmem
    exact c.normalizeSessionSync_isSome now m (normalizeSession_mode hvalue)
  have hall : ((sent.map SessionSyncMetadata.record).mapM (c.normalizeSessionSync now)).isSome =
      c.admitsLast now listed := by
    rw [mapM_isSome,List.all_map,← byId_all,Bool.eq_iff_iff,List.all_eq_true,List.all_eq_true]
    exact forall₂_congr (fun m hm => by rw [← hmode m hm]; rfl)
  have hlimits : c.withinLimits now (response.getD fallback) =
      (c.admitsLast now listed && decide (sent.length ≤ maxSessionSyncItems)) := by
    rw [hlength]
    rfl
  have hpayload : sessionSyncPayload
      (buildSessionSyncPayload response fallback cursors requestId).json =
        some (sent.map SessionSyncMetadata.record) := sessionSyncPayload_json _
  simp only [handleSessionSync,hpayload,normalizeBatch,hlimits]
  by_cases hblank : trimSpace ownerUser = [] ∨ trimSpace deviceId = []
  · have hgoal : trimSpace ownerUser = [] ∨ trimSpace deviceId = [] ∨
        (c.admitsLast now listed && decide (sent.length ≤ maxSessionSyncItems)) = true := by
      rcases hblank with hblank | hblank
      · exact .inl hblank
      · exact .inr (.inl hblank)
    rw [if_pos hblank]
    exact ⟨fun _ => hgoal,fun _ h => by cases h⟩
  · rw [not_or] at hblank
    by_cases hmany : sent.length ≤ maxSessionSyncItems
    · cases hsync : (sent.map SessionSyncMetadata.record).mapM (c.normalizeSessionSync now) with
      | none =>
        rw [hsync] at hall
        simp [hblank,hmany,← hall]
      | some batch =>
        rw [hsync] at hall
        simp [hblank,hmany,← hall]
    · simp [hblank,hmany]

/-- `z.string().max(200).optional()` counts code units. -/
def admitsTitle (title : Option JsText) : Bool := title.all (·.length ≤ 200)

/-- The title that `POST /sessions` stores: `title || prompt.slice(0, 32) || …`. -/
def createdTitle (title : Option JsText) (prompt : JsText) : JsText :=
  if title.getD [] ≠ [] then title.getD []
  else if prompt.take 32 ≠ [] then prompt.take 32
  else ofString "Codex 会话"

/-- The listing of a session created with a title and a prompt. -/
def createdSession (id : String) (title : Option JsText) (prompt workspacePath : JsText)
    (lastUpdatedAt : Text) : ListedSession where
  id := .text (ofString id)
  title := .text (createdTitle title prompt)
  workspacePath := .text workspacePath
  status := .text (ofString "starting")
  lastUpdatedAt := .text (lastUpdatedAt.map (fun ch => UInt16.ofNat ch.toNat))
  sessionPolicyMode := .text (ofString "confirm")

namespace Sample

/-- Two hundred times the same Chinese character. -/
def longTitle : JsText := List.replicate 200 0x4f1a

def titled (title : JsText) : ListedSession :=
  createdSession "thread-1" (some title) (ofString "hi") (ofString "/srv/a") ten

end Sample

/-- The route admits the title and the relay refuses the whole inventory. -/
theorem longTitle_rejected :
    admitsTitle (some Sample.longTitle) = true ∧
      Sample.clock.handleSessionSync Sample.tenInstant Sample.amy "laptop".toList
          (buildSessionSyncPayload none [some (Sample.titled Sample.longTitle)] [] []).json =
        .error .invalidSessionSync := by
  decide +kernel

end CodeHarbor.Relay
