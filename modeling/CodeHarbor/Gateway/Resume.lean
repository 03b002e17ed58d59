import CodeHarbor.Lib.Cursor
import CodeHarbor.Lib.JsValue
import CodeHarbor.Gateway.Events
set_option autoImplicit false

namespace CodeHarbor.Gateway
open Lib Lib.Js

/-! The replay that a client of the gateway asks for with the cursors of its sessions. -/

def maxResumeEvents : Nat := 5000
def maxResumeBytes : Nat := 32*1024*1024
def maxResumeSessions : Nat := 512

/-- A stored message: its number, the rest of it and the length of its JSON. -/
structure StoredMessage where
  eventSeq : Rat
  content : JsText := []
  bytes : Nat
  deriving DecidableEq

/-- What `listEvents` gives for each session while nothing is appended. The reader of a file
and the merge with the cache leave every session in the order of its numbers. -/
structure EventLog where
  listEvents : JsText → List StoredMessage
  increasing : ∀ sessionId, Increasing StoredMessage.eventSeq (listEvents sessionId)

def EventLog.listEventsAfter (log : EventLog) (sessionId : JsText) (cursor : Rat) : List StoredMessage :=
  beyond StoredMessage.eventSeq cursor (log.listEvents sessionId)

inductive ResumeFrame where
  | event (sessionId : JsText) (message : StoredMessage)
  | resumeRateLimited
  | resumeComplete (cursors : List (JsText × Rat)) (truncated : Bool)
  deriving DecidableEq

/-- How a send ends: the text is handed to the socket, the socket is no longer open, its
buffer has no room for the text, or its `send` throws. The socket is closed after the last
two. -/
inductive SendResult where
  | sent
  | notOpen
  | slowConsumer
  | threw
  deriving DecidableEq, Repr

/-- The variables of the handler, with the frames that the socket took. `attempts` counts the
sends so that the outside can decide each of them. -/
structure ResumeState where
  latest : OrdMap JsText Rat := OrdMap.empty
  replayedEvents : Nat := 0
  replayedBytes : Nat := 0
  truncated : Bool := false
  frames : List ResumeFrame := []
  isOpen : Bool := true
  attempts : Nat := 0

/-- `latest[sessionId] = seq`. -/
def assignCursor (latest : OrdMap JsText Rat) (sessionId : JsText) (seq : Rat) : OrdMap JsText Rat :=
  if sessionId = protoKey then latest else latest.set sessionId seq

/-- `seq > (latest[sessionId] ?? 0)`. Under the key above one reads an object, and no number
compares with it. -/
def exceedsCursor (latest : OrdMap JsText Rat) (sessionId : JsText) (seq : Rat) : Bool :=
  sessionId ≠ protoKey && decide ((latest.get sessionId).getD 0 < seq)

/-- `typeof rawCursor === "number" && Number.isFinite(rawCursor) ? rawCursor : 0`. -/
def cursorOf : Value → Rat
  | .num n => n
  | _ => 0

namespace ResumeState

def sendClient (results : Nat → SendResult) (r : ResumeState) (frame : ResumeFrame) :
    ResumeState × Bool :=
  if r.isOpen = false then ({ r with attempts := r.attempts+1 },false)
  else
    match results r.attempts with
    | .sent => ({ r with frames := r.frames ++ [frame], attempts := r.attempts+1 },true)
    | .notOpen | .slowConsumer | .threw =>
      ({ r with isOpen := false, attempts := r.attempts+1 },false)

/-- The loop over the messages of a session. Only the budgets raise the flag; a failed send
just ends the loop. -/
def replayMessages (results : Nat → SendResult) (sessionId : JsText) :
    ResumeState → List StoredMessage → ResumeState
  | r, [] => r
  | r, message :: rest =>
    if maxResumeEvents ≤ r.replayedEvents ∨ maxResumeBytes < r.replayedBytes+message.bytes then
      { r with truncated := true }
    else
      match r.sendClient results (.event sessionId message) with
      | (r,false) => r
      | (r,true) =>
        replayMessages results sessionId { r with
          replayedEvents := r.replayedEvents+1
          replayedBytes := r.replayedBytes+message.bytes
          latest := if exceedsCursor r.latest sessionId message.eventSeq then
              assignCursor r.latest sessionId message.eventSeq
            else r.latest } rest

def replaySession (log : EventLog) (results : Nat → SendResult) (r : ResumeState) (sessionId : JsText)
    (rawCursor : Value) : ResumeState :=
  let cursor := cursorOf rawCursor
  replayMessages results sessionId { r with latest := assignCursor r.latest sessionId cursor }
    (log.listEventsAfter sessionId cursor)

/-- `!sessionId || sessionId.length > 256` is false. -/
def validId (sessionId : JsText) : Bool := sessionId ≠ [] && sessionId.length ≤ 256

def resumeSessions (log : EventLog) (results : Nat → SendResult) :
    Nat → ResumeState → List (JsText × Value) → ResumeState
  | _, r, [] => r
  | processedSessions, r, (sessionId,rawCursor) :: rest =>
    if maxResumeSessions ≤ processedSessions then { r with truncated := true }
    else if validId sessionId = false then
      resumeSessions log results (processedSessions+1) { r with truncated := true } rest
    else
      let r := replaySession log results r sessionId rawCursor
      if r.truncated then r else resumeSessions log results (processedSessions+1) r rest

end ResumeState

/-- A `resume` message with the entries of its cursors object, so many milliseconds after the
one before it. -/
def resumeClient (log : EventLog) (results : Nat → SendResult) (sinceLastResume : Nat)
    (cursors : List (JsText × Value)) : ResumeState :=
  if sinceLastResume < 1000 then (({} : ResumeState).sendClient results .resumeRateLimited).1
  else
    let r := ResumeState.resumeSessions log results 0 {} cursors
    (r.sendClient results (.resumeComplete r.latest.entries r.truncated)).1

def replayedMessages (sessionId : JsText) (frames : List ResumeFrame) : List StoredMessage :=
  frames.filterMap fun
    | .event s message => if s = sessionId then some message else none
    | _ => none

/-- What a `resume-complete` that the socket took says is so: of a session that it lists, the
messages up to its cursor came before it, and when it is not truncated, every session asked
for is listed and has nothing beyond its cursor. -/
def Truthful (log : EventLog) (cursors : List (JsText × Value)) (r : ResumeState) : Prop :=
  ∀ before reported truncated rest, r.frames = before ++ .resumeComplete reported truncated :: rest →
    (∀ s d, (s,d) ∈ reported → ∃ rawCursor, (s,rawCursor) ∈ cursors ∧
      replayedMessages s before =
        between StoredMessage.eventSeq (cursorOf rawCursor) d (log.listEvents s)) ∧
    (truncated = false → ∀ s rawCursor, (s,rawCursor) ∈ cursors →
      ∃ d, (s,d) ∈ reported ∧ beyond StoredMessage.eventSeq d (log.listEvents s) = [])

def requestedMessages (log : EventLog) (cursors : List (JsText × Value)) : List StoredMessage :=
  cursors.flatMap (fun entry => log.listEventsAfter entry.1 (cursorOf entry.2))

/-- The request is within all limits: of sessions, of their ids, of messages and of bytes. -/
def withinLimits (log : EventLog) (cursors : List (JsText × Value)) : Bool :=
  cursors.length ≤ maxResumeSessions && cursors.all (fun entry => ResumeState.validId entry.1) &&
    (requestedMessages log cursors).length ≤ maxResumeEvents &&
    ((requestedMessages log cursors).map StoredMessage.bytes).sum ≤ maxResumeBytes

section files

variable {β : Type}

theorem lt_explicitOrNext {fallbackSeq : Nat} (h : fallbackSeq < 2^53) (explicitSeq : Option Nat) :
    fallbackSeq < explicitOrNext fallbackSeq explicitSeq := by
  have hnext : fallbackSeq < jsSucc fallbackSeq := by
    rw [jsSucc_eq h]
    exact Nat.lt_succ_self fallbackSeq
  unfold explicitOrNext
  split
  · split_ifs with hlt
    · exact hlt
    · exact hnext
  · exact hnext

theorem renumber_increasing {sessionId : String} {fallbackSeq : Nat} {lines : List (β × Option Nat)}
    (hsafe : ∀ entry ∈ renumber sessionId fallbackSeq lines, entry.eventSeq < 2^53) :
    Increasing TimelineEntry.eventSeq (renumber sessionId fallbackSeq lines) := by
  induction lines generalizing fallbackSeq with
  | nil => exact List.Pairwise.nil
  | cons line lines ih =>
    obtain ⟨body,explicitSeq⟩ := line
    rw [renumber] at hsafe ⊢
    have hhead := hsafe _ List.mem_cons_self
    have htail := ih (fun entry hentry => hsafe entry (List.mem_cons_of_mem _ hentry))
    refine List.pairwise_cons.mpr ⟨fun entry hentry => ?_,htail⟩
    cases lines with
    | nil => cases hentry
    | cons next lines =>
      obtain ⟨nextBody,nextSeq⟩ := next
      rw [renumber] at htail hentry
      have hnext := lt_explicitOrNext hhead nextSeq
      rcases List.mem_cons.mp hentry with rfl | hlater
      · exact hnext
      · exact hnext.trans ((List.pairwise_cons.mp htail).1 entry hlater)

/-- The log of a gateway that has just started over its files. -/
def EventLog.ofFiles (files : String → List (EventLine β)) (name : JsText → String)
    (message : TimelineEntry β → JsText × Nat)
    (hsafe : ∀ id, ∀ entry ∈ readLines (files id) id, entry.eventSeq < 2^53) : EventLog where
  listEvents := fun sessionId => ((EventStore.start files).listEvents (name sessionId)).2.map
    (fun entry => ⟨entry.eventSeq,(message entry).1,(message entry).2⟩)
  increasing := by
    intro sessionId
    have hlist : ((EventStore.start files).listEvents (name sessionId)).2 =
        readLines (files (name sessionId)) (name sessionId) := rfl
    rw [hlist]
    refine List.pairwise_map.mpr ((renumber_increasing (hsafe _)).imp fun {a b} hlt => ?_)
    dsimp only
    exact_mod_cast hlt

end files

section session

variable {results : Nat → SendResult} {s t : JsText} {log : List StoredMessage}

theorem ResumeState.sendClient_cases (results : Nat → SendResult) (r : ResumeState) (frame : ResumeFrame) :
    (r.isOpen = true ∧ r.sendClient results frame =
      ({ r with frames := r.frames ++ [frame], attempts := r.attempts+1 },true)) ∨
    ∃ r', r.sendClient results frame = (r',false) ∧ r'.isOpen = false ∧ r'.frames = r.frames := by
  unfold sendClient
  by_cases hopen : r.isOpen = false
  · rw [if_pos hopen]
    exact .inr ⟨_,rfl,hopen,rfl⟩
  · rw [if_neg hopen]
    cases results r.attempts with
    | sent => exact .inl ⟨eq_true_of_ne_false hopen,rfl⟩
    | notOpen => exact .inr ⟨_,rfl,rfl,rfl⟩
    | slowConsumer => exact .inr ⟨_,rfl,rfl,rfl⟩
    | threw => exact .inr ⟨_,rfl,rfl,rfl⟩

/-- On a socket that stays open, the messages of a session beyond its cursor `c` are sent up to
a point where a budget is spent, and the cursor is there. -/
structure Replayed (log : List StoredMessage) (s : JsText) (c : Rat) (r r' : ResumeState)
    (read rest : List StoredMessage) : Prop where
  split : beyond StoredMessage.eventSeq c log = read ++ rest
  latest : ∀ t, r'.latest.get t =
    if t = s ∧ s ≠ protoKey then some (advance StoredMessage.eventSeq c read) else r.latest.get t
  frames : r'.frames = r.frames ++ read.map (.event s)
  truncated : r'.truncated = (r.truncated || rest ≠ [])
  events : r'.replayedEvents = r.replayedEvents+read.length
  bytes : r'.replayedBytes = r.replayedBytes+(read.map StoredMessage.bytes).sum
  within : r'.replayedEvents ≤ maxResumeEvents ∧ r'.replayedBytes ≤ maxResumeBytes
  spent : rest ≠ [] → maxResumeEvents < r.replayedEvents+(read ++ rest).length ∨
    maxResumeBytes < r.replayedBytes+((read ++ rest).map StoredMessage.bytes).sum
  wasOpen : r.isOpen = true

theorem ResumeState.replayMessages_replayed (results : Nat → SendResult) (hlog : Increasing StoredMessage.eventSeq log) {c : Rat}
    {r : ResumeState} (hc : s ≠ protoKey → r.latest.get s = some c)
    (hwithin : r.replayedEvents ≤ maxResumeEvents ∧ r.replayedBytes ≤ maxResumeBytes)
    {messages : List StoredMessage} (hmessages : beyond StoredMessage.eventSeq c log = messages)
    (hopen : (replayMessages results s r messages).isOpen = true) :
    ∃ read rest, Replayed log s c r (replayMessages results s r messages) read rest := by
  induction messages generalizing c r with
  | nil =>
    refine ⟨[],[],hmessages,fun t => ?_,by simp [replayMessages],by simp [replayMessages],rfl,rfl,
      hwithin,fun h => absurd rfl h,hopen⟩
    split_ifs with ht
    · rw [ht.1,replayMessages,hc ht.2]
      rfl
    · rfl
  | cons message rest ih =>
    have hnext : c < message.eventSeq := by
      have hmessage : message ∈ beyond StoredMessage.eventSeq c log := by
        rw [hmessages]
        exact List.mem_cons_self
      exact (mem_beyond.mp hmessage).2
    rw [replayMessages] at hopen ⊢
    by_cases hspent : maxResumeEvents ≤ r.replayedEvents ∨
        maxResumeBytes < r.replayedBytes+message.bytes
    · rw [if_pos hspent] at hopen ⊢
      refine ⟨[],message :: rest,hmessages,fun t => ?_,by simp,by simp,rfl,rfl,hwithin,
        fun _ => ?_,hopen⟩
      · split_ifs with ht
        · rw [ht.1,hc ht.2]
          rfl
        · rfl
      · simp only [List.nil_append,List.length_cons,List.map_cons,List.sum_cons]
        omega
    · rw [if_neg hspent] at hopen ⊢
      rw [not_or] at hspent
      rcases r.sendClient_cases results (.event s message) with
        ⟨hwas,hsend⟩ | ⟨r',hsend,hclosed,-⟩
      · rw [hsend] at hopen ⊢
        dsimp only at hopen ⊢
        have hlatest (t : JsText) : (if exceedsCursor r.latest s message.eventSeq = true then
            assignCursor r.latest s message.eventSeq else r.latest).get t =
              if t = s ∧ s ≠ protoKey then some message.eventSeq else r.latest.get t := by
          by_cases hproto : s = protoKey
          · simp [exceedsCursor,hproto]
          · simp [exceedsCursor,assignCursor,hproto,hc hproto,hnext,OrdMap.get_set]
        obtain ⟨read,left,hread⟩ := ih (c := message.eventSeq)
          (fun hproto => by rw [hlatest,if_pos ⟨rfl,hproto⟩]) (by dsimp only; omega)
          (beyond_of_cons hlog hmessages) hopen
        have hsplit := hread.split
        refine ⟨message :: read,left,?_,fun t => ?_,?_,hread.truncated,?_,?_,hread.within,fun hleft => ?_,hwas⟩
        · rw [hmessages,← beyond_of_cons hlog hmessages,List.cons_append]
          exact congrArg _ hsplit
        · rw [hread.latest,hlatest]
          split_ifs
          · congr 1
            unfold advance
            rw [List.getLast?_cons]
            cases read.getLast? <;> rfl
          · rfl
        · rw [hread.frames,List.map_cons,List.append_assoc]
          rfl
        · rw [hread.events,List.length_cons]
          dsimp only
          omega
        · rw [hread.bytes,List.map_cons,List.sum_cons]
          dsimp only
          omega
        · have hmore := hread.spent hleft
          simp only [List.cons_append,List.length_cons,List.map_cons,List.sum_cons] at hmore ⊢
          omega
      · rw [hsend] at hopen
        rw [show r'.isOpen = true from hopen] at hclosed
        cases hclosed

end session

section run

variable {log : EventLog} {results : Nat → SendResult} {cursors done : List (JsText × Value)}

/-- The loop on a socket that is still open, when it has come through `done`, the first of the
cursors. -/
structure Progress (log : EventLog) (cursors done : List (JsText × Value)) (r : ResumeState) : Prop where
  listed : ∀ s d, r.latest.get s = some d → ∃ rawCursor, (s,rawCursor) ∈ done ∧
    replayedMessages s r.frames =
      between StoredMessage.eventSeq (cursorOf rawCursor) d (log.listEvents s) ∧
    (r.truncated = false → beyond StoredMessage.eventSeq d (log.listEvents s) = [])
  untouched : ∀ s, s ∉ done.map Prod.fst → replayedMessages s r.frames = []
  all : r.truncated = false → ∀ s rawCursor, (s,rawCursor) ∈ done → s ≠ protoKey →
    ∃ d, r.latest.get s = some d
  counted : r.truncated = false → r.replayedEvents = (requestedMessages log done).length ∧
    r.replayedBytes = ((requestedMessages log done).map StoredMessage.bytes).sum
  valid : r.truncated = false → done.all (fun entry => ResumeState.validId entry.1) = true
  within : r.replayedEvents ≤ maxResumeEvents ∧ r.replayedBytes ≤ maxResumeBytes
  proto : r.latest.get protoKey = none
  cut : r.truncated = true → withinLimits log cursors = false

theorem Progress.start (log : EventLog) (cursors : List (JsText × Value)) : Progress log cursors [] {} where
  listed := fun s d h => by simp at h
  untouched := fun _ _ => rfl
  all := fun _ s rawCursor h => absurd h List.not_mem_nil
  counted := fun _ => ⟨rfl,rfl⟩
  valid := fun _ => rfl
  within := ⟨Nat.zero_le _,Nat.zero_le _⟩
  proto := rfl
  cut := fun h => nomatch h

theorem Progress.truncate {r : ResumeState} (h : Progress log cursors done r) (more : List (JsText × Value))
    (hcut : withinLimits log cursors = false) :
    Progress log cursors (done ++ more) { r with truncated := true } where
  listed := fun s d hd => by
    obtain ⟨rawCursor,hmem,hread,-⟩ := h.listed s d hd
    exact ⟨rawCursor,List.mem_append_left _ hmem,hread,fun h => nomatch h⟩
  untouched := fun s hs => h.untouched s (fun hmem => hs (by simp [hmem]))
  all := fun h => nomatch h
  counted := fun h => nomatch h
  valid := fun h => nomatch h
  within := h.within
  proto := h.proto
  cut := fun _ => hcut

theorem replayedMessages_append (s : JsText) (frames frames' : List ResumeFrame) :
    replayedMessages s (frames ++ frames') = replayedMessages s frames ++ replayedMessages s frames' :=
  List.filterMap_append

theorem replayedMessages_events (s t : JsText) (read : List StoredMessage) :
    replayedMessages s (read.map (.event t)) = if t = s then read else [] := by
  unfold replayedMessages
  rw [List.filterMap_map]
  split_ifs with h
  · simp [h]
  · simp [h]

theorem requestedMessages_append (xs ys : List (JsText × Value)) :
    requestedMessages log (xs ++ ys) = requestedMessages log xs ++ requestedMessages log ys :=
  List.flatMap_append

theorem withinLimits_of_spent {first : List (JsText × Value)} (hfirst : first <+: cursors)
    (hspent : maxResumeEvents < (requestedMessages log first).length ∨
      maxResumeBytes < ((requestedMessages log first).map StoredMessage.bytes).sum) :
    withinLimits log cursors = false := by
  obtain ⟨rest,rfl⟩ := hfirst
  by_contra hwithin
  have hwithin := eq_true_of_ne_false hwithin
  simp only [withinLimits,requestedMessages_append,List.length_append,List.map_append,List.sum_append,
    Bool.and_eq_true,decide_eq_true_eq] at hwithin
  omega

theorem Progress.replaySession {r : ResumeState} {s : JsText} {rawCursor : Value}
    (h : Progress log cursors done r) (hdone : done ++ [(s,rawCursor)] <+: cursors)
    (hs : s ∉ done.map Prod.fst) (hvalid : ResumeState.validId s = true)
    (hopen : (r.replaySession log results s rawCursor).isOpen = true) :
    Progress log cursors (done ++ [(s,rawCursor)]) (r.replaySession log results s rawCursor) := by
  have hassign (t : JsText) : (assignCursor r.latest s (cursorOf rawCursor)).get t =
      if t = s ∧ s ≠ protoKey then some (cursorOf rawCursor) else r.latest.get t := by
    unfold assignCursor
    by_cases hproto : s = protoKey
    · simp [hproto]
    · simp [hproto,OrdMap.get_set]
  obtain ⟨read,rest,hread⟩ := ResumeState.replayMessages_replayed results (s := s)
    (r := { r with latest := assignCursor r.latest s (cursorOf rawCursor) }) (log.increasing s)
    (fun hproto => by rw [hassign,if_pos ⟨rfl,hproto⟩]) h.within rfl hopen
  have hrun : ResumeState.replayMessages results s
      { r with latest := assignCursor r.latest s (cursorOf rawCursor) }
      (beyond StoredMessage.eventSeq (cursorOf rawCursor) (log.listEvents s)) =
        r.replaySession log results s rawCursor := rfl
  rw [hrun] at hread
  generalize r.replaySession log results s rawCursor = r' at hread ⊢
  have hlatest (t : JsText) : r'.latest.get t = if t = s ∧ s ≠ protoKey then
      some (advance StoredMessage.eventSeq (cursorOf rawCursor) read) else r.latest.get t := by
    rw [hread.latest,hassign]
    split_ifs <;> rfl
  have hframes (t : JsText) : replayedMessages t r'.frames =
      replayedMessages t r.frames ++ if s = t then read else [] := by
    rw [hread.frames,replayedMessages_append,replayedMessages_events]
  have hflag (hr' : r'.truncated = false) : r.truncated = false ∧ rest = [] := by
    have hor := hread.truncated.symm.trans hr'
    simpa using hor
  have hasked : requestedMessages log (done ++ [(s,rawCursor)]) =
      requestedMessages log done ++ (read ++ rest) := by
    rw [requestedMessages_append,← hread.split]
    simp [requestedMessages,EventLog.listEventsAfter]
  have hnew : s ≠ protoKey → ∃ d, r'.latest.get s = some d := fun hproto =>
    ⟨_,by rw [hlatest,if_pos ⟨rfl,hproto⟩]⟩
  constructor
  case listed =>
    intro t d hd
    rw [hlatest] at hd
    by_cases hown : t = s ∧ s ≠ protoKey
    · rw [if_pos hown] at hd
      obtain rfl := Option.some.inj hd
      rw [hown.1,hframes,h.untouched s hs,if_pos rfl,List.nil_append]
      refine ⟨rawCursor,by simp,(between_advance (log.increasing s) hread.split).symm,fun hr' => ?_⟩
      rw [beyond_advance (log.increasing s) hread.split,(hflag hr').2]
    · rw [if_neg hown] at hd
      obtain ⟨raw,hmem,hold,hnone⟩ := h.listed t d hd
      have hne : s ≠ t := by
        rintro rfl
        exact hs (List.mem_map_of_mem hmem)
      rw [hframes,if_neg hne,List.append_nil]
      exact ⟨raw,List.mem_append_left _ hmem,hold,fun hr' => hnone (hflag hr').1⟩
  case untouched =>
    intro t ht
    rw [List.map_append,List.mem_append,not_or] at ht
    have hne : s ≠ t := by
      rintro rfl
      exact ht.2 (by simp)
    rw [hframes,h.untouched t ht.1,if_neg hne]
    rfl
  case all =>
    intro hr' t raw hmem hproto
    rcases List.mem_append.mp hmem with hold | hlast
    · obtain ⟨d,hd⟩ := h.all (hflag hr').1 t raw hold hproto
      refine ⟨d,?_⟩
      rw [hlatest,if_neg]
      · exact hd
      · rintro ⟨rfl,-⟩
        exact hs (List.mem_map_of_mem hold)
    · obtain ⟨rfl,-⟩ := Prod.mk.inj (List.mem_singleton.mp hlast)
      exact hnew hproto
  case counted =>
    intro hr'
    obtain ⟨hr,rfl⟩ := hflag hr'
    obtain ⟨hevents,hbytes⟩ := h.counted hr
    rw [hread.events,hread.bytes,hasked,List.append_nil]
    simp [hevents,hbytes]
  case valid =>
    intro hr'
    simp [h.valid (hflag hr').1,hvalid]
  case within => exact hread.within
  case proto =>
    rw [hlatest,if_neg (fun hown => hown.2 hown.1.symm)]
    exact h.proto
  case cut =>
    intro hr'
    cases hr : r.truncated with
    | true => exact h.cut hr
    | false =>
      have hrest : rest ≠ [] := by
        have hor := hread.truncated.symm.trans hr'
        simpa [hr] using hor
      have hspent := hread.spent hrest
      dsimp only at hspent
      rw [(h.counted hr).1,(h.counted hr).2] at hspent
      refine withinLimits_of_spent hdone ?_
      rw [hasked,List.length_append,List.map_append,List.sum_append]
      exact hspent

theorem ResumeState.replayMessages_closed {s : JsText} {r : ResumeState} (h : r.isOpen = false)
    (messages : List StoredMessage) : (replayMessages results s r messages).isOpen = false := by
  cases messages with
  | nil => exact h
  | cons message rest =>
    rw [replayMessages]
    split_ifs
    · exact h
    · rcases r.sendClient_cases results (.event s message) with
        ⟨hopen,-⟩ | ⟨r',hsend,hclosed,-⟩
      · rw [h] at hopen
        cases hopen
      · rw [hsend]
        exact hclosed

theorem ResumeState.resumeSessions_closed {r : ResumeState} (h : r.isOpen = false) (processed : Nat)
    (rest : List (JsText × Value)) : (resumeSessions log results processed r rest).isOpen = false := by
  induction rest generalizing processed r with
  | nil => exact h
  | cons entry rest ih =>
    obtain ⟨s,rawCursor⟩ := entry
    rw [resumeSessions]
    split_ifs with hfull hvalid
    · exact h
    · exact ih (r := { r with truncated := true }) h _
    · have hsession : (r.replaySession log results s rawCursor).isOpen = false :=
        replayMessages_closed
          (r := { r with latest := assignCursor r.latest s (cursorOf rawCursor) }) h _
      dsimp only
      split_ifs
      · exact hsession
      · exact ih hsession _

theorem ResumeState.resumeSessions_progress (results : Nat → SendResult) {r : ResumeState} {rest : List (JsText × Value)}
    (h : Progress log cursors done r) (hcursors : cursors = done ++ rest)
    (hnodup : (cursors.map Prod.fst).Nodup) (hfew : done.length ≤ maxResumeSessions)
    (hopen : (resumeSessions log results done.length r rest).isOpen = true) :
    ∃ done', Progress log cursors done' (resumeSessions log results done.length r rest) ∧
      done' <+: cursors ∧ ((resumeSessions log results done.length r rest).truncated = false →
        done' = cursors ∧ cursors.length ≤ maxResumeSessions) := by
  induction rest generalizing done r with
  | nil =>
    rw [List.append_nil] at hcursors
    subst hcursors
    exact ⟨cursors,h,List.prefix_rfl,fun _ => ⟨rfl,hfew⟩⟩
  | cons entry rest ih =>
    obtain ⟨s,rawCursor⟩ := entry
    have hdone : done ++ [(s,rawCursor)] <+: cursors := ⟨rest,by simp [hcursors]⟩
    rw [resumeSessions] at hopen ⊢
    by_cases hfull : maxResumeSessions ≤ done.length
    · rw [if_pos hfull] at hopen ⊢
      have hcut : withinLimits log cursors = false := by
        have hlong : ¬cursors.length ≤ maxResumeSessions := by
          rw [hcursors,List.length_append,List.length_cons]
          omega
        simp [withinLimits,hlong]
      have htruncate := h.truncate [] hcut
      rw [List.append_nil] at htruncate
      exact ⟨done,htruncate,⟨_,hcursors.symm⟩,fun h => nomatch h⟩
    rw [if_neg hfull] at hopen ⊢
    have hlength : (done ++ [(s,rawCursor)]).length = done.length+1 := by simp
    have hsplit : cursors = (done ++ [(s,rawCursor)]) ++ rest := by simp [hcursors]
    by_cases hvalid : validId s = false
    · rw [if_pos hvalid] at hopen ⊢
      have hcut : withinLimits log cursors = false := by
        have hsome : cursors.all (fun entry => validId entry.1) = false := by
          rw [List.all_eq_false]
          exact ⟨(s,rawCursor),by simp [hcursors],by simp [hvalid]⟩
        simp [withinLimits,hsome]
      rw [← hlength] at hopen ⊢
      exact ih (h.truncate _ hcut) hsplit (by omega) hopen
    · rw [if_neg hvalid] at hopen ⊢
      dsimp only at hopen ⊢
      have hsession : (r.replaySession log results s rawCursor).isOpen = true := by
        by_contra hclosed
        have hclosed := eq_false_of_ne_true hclosed
        split_ifs at hopen
        · rw [hclosed] at hopen
          cases hopen
        · rw [resumeSessions_closed hclosed] at hopen
          cases hopen
      have hs : s ∉ done.map Prod.fst := by
        rw [hcursors,List.map_append,List.map_cons,List.nodup_append] at hnodup
        exact fun hmem => hnodup.2.2 s hmem s List.mem_cons_self rfl
      have hnext := h.replaySession hdone hs (eq_true_of_ne_false hvalid) hsession
      split_ifs at hopen ⊢ with htruncated
      · exact ⟨_,hnext,hdone,fun hnot => by rw [htruncated] at hnot; cases hnot⟩
      · rw [← hlength] at hopen ⊢
        exact ih hnext hsplit (by omega) hopen

/-- The frames of the loop are messages: the report comes after it. -/
def ResumeState.Unreported (r : ResumeState) : Prop :=
  ∀ reported truncated, .resumeComplete reported truncated ∉ r.frames

theorem ResumeState.replayMessages_unreported {s : JsText} {r : ResumeState} (h : r.Unreported)
    (messages : List StoredMessage) : (replayMessages results s r messages).Unreported := by
  induction messages generalizing r with
  | nil => exact h
  | cons message rest ih =>
    rw [replayMessages]
    split_ifs
    · exact h
    · rcases r.sendClient_cases results (.event s message) with
        ⟨-,hsend⟩ | ⟨r',hsend,-,hframes⟩
      · rw [hsend]
        refine ih fun reported truncated hmem => ?_
        rcases List.mem_append.mp hmem with hold | hnew
        · exact h _ _ hold
        · cases List.mem_singleton.mp hnew
      · rw [hsend]
        intro reported truncated hmem
        rw [hframes] at hmem
        exact h _ _ hmem

theorem ResumeState.resumeSessions_unreported {r : ResumeState} (h : r.Unreported) (processed : Nat)
    (rest : List (JsText × Value)) : (resumeSessions log results processed r rest).Unreported := by
  induction rest generalizing processed r with
  | nil => exact h
  | cons entry rest ih =>
    obtain ⟨s,rawCursor⟩ := entry
    rw [resumeSessions]
    split_ifs with hfull hvalid
    · exact h
    · exact ih (r := { r with truncated := true }) h _
    · have hsession : (r.replaySession log results s rawCursor).Unreported :=
        replayMessages_unreported
          (r := { r with latest := assignCursor r.latest s (cursorOf rawCursor) }) h _
      dsimp only
      split_ifs
      · exact hsession
      · exact ih hsession _

theorem resumeClient_report {since : Nat} {before rest : List ResumeFrame}
    {reported : List (JsText × Rat)} {truncated : Bool}
    (h : (resumeClient log results since cursors).frames =
      before ++ .resumeComplete reported truncated :: rest) :
    (ResumeState.resumeSessions log results 0 {} cursors).isOpen = true ∧
    before = (ResumeState.resumeSessions log results 0 {} cursors).frames ∧
    reported = (ResumeState.resumeSessions log results 0 {} cursors).latest.entries ∧
    truncated = (ResumeState.resumeSessions log results 0 {} cursors).truncated := by
  have hmem : .resumeComplete reported truncated ∈ (resumeClient log results since cursors).frames := by
    rw [h]
    simp
  unfold resumeClient at h hmem
  split_ifs at h hmem
  · rcases ({} : ResumeState).sendClient_cases results .resumeRateLimited with
      ⟨-,hsend⟩ | ⟨r',hsend,-,hframes⟩
    · rw [hsend] at hmem
      simp at hmem
    · rw [hsend] at hmem
      simp [hframes] at hmem
  · have hunreported : (ResumeState.resumeSessions log results 0 {} cursors).Unreported :=
      ResumeState.resumeSessions_unreported (fun _ _ => List.not_mem_nil) 0 cursors
    dsimp only at h hmem
    generalize ResumeState.resumeSessions log results 0 {} cursors = r at h hmem hunreported ⊢
    rcases r.sendClient_cases results (.resumeComplete r.latest.entries r.truncated) with
      ⟨hopen,hsend⟩ | ⟨r',hsend,-,hframes⟩
    · rw [hsend] at h
      dsimp only at h
      rcases List.eq_nil_or_concat rest with rfl | ⟨rest',last,rfl⟩
      · obtain ⟨hbefore,hlast⟩ := List.append_inj' h rfl
        obtain ⟨hreported,htruncated⟩ := ResumeFrame.resumeComplete.inj (List.cons.inj hlast).1
        exact ⟨hopen,hbefore.symm,hreported.symm,htruncated.symm⟩
      · rw [List.concat_eq_append,← List.cons_append,← List.append_assoc] at h
        obtain ⟨hbefore,-⟩ := List.append_inj' h rfl
        exact absurd (by rw [hbefore]; simp) (hunreported reported truncated)
    · rw [hsend] at hmem
      dsimp only at hmem
      rw [hframes] at hmem
      exact absurd hmem (hunreported reported truncated)

theorem ResumeState.resumeSessions_sent (log : EventLog) {r : ResumeState} (h : r.isOpen = true) (processed : Nat)
    (rest : List (JsText × Value)) :
    (resumeSessions log (fun _ => .sent) processed r rest).isOpen = true := by
  have hmessages (s : JsText) (messages : List StoredMessage) : ∀ r : ResumeState, r.isOpen = true →
      (replayMessages (fun _ => .sent) s r messages).isOpen = true := by
    induction messages with
    | nil => exact fun _ hr => hr
    | cons message messages ih =>
      intro r hr
      rw [replayMessages]
      split_ifs
      · exact hr
      · rw [sendClient,if_neg (by simp [hr])]
        exact ih _ hr
  induction rest generalizing processed r with
  | nil => exact h
  | cons entry rest ih =>
    obtain ⟨s,rawCursor⟩ := entry
    rw [resumeSessions]
    split_ifs
    · exact h
    · exact ih (r := { r with truncated := true }) h _
    · have hsession := hmessages s (log.listEventsAfter s (cursorOf rawCursor))
        { r with latest := assignCursor r.latest s (cursorOf rawCursor) } h
      dsimp only
      split_ifs
      · exact hsession
      · exact ih hsession _

/-- A report on which a client can rely is all that it ever gets, unless it asks within the
limits for a session under the key that the object of cursors does not take. -/
theorem truthful_iff (log : EventLog) {cursors : List (JsText × Value)}
    (hnodup : (cursors.map Prod.fst).Nodup) :
    (∀ results since, Truthful log cursors (resumeClient log results since cursors)) ↔
      (withinLimits log cursors = true → protoKey ∉ cursors.map Prod.fst) := by
  constructor
  · intro h hwithin hmem
    obtain ⟨⟨key,rawCursor⟩,hentry,hkey⟩ := List.mem_map.mp hmem
    obtain rfl : key = protoKey := hkey
    have hopen := ResumeState.resumeSessions_sent log (r := {}) rfl 0 cursors
    obtain ⟨done,hprogress,-,-⟩ := ResumeState.resumeSessions_progress (fun _ => .sent)
      (Progress.start log cursors) rfl hnodup (Nat.zero_le _) hopen
    rw [List.length_nil] at hprogress
    have hwhole : (ResumeState.resumeSessions log (fun _ => .sent) 0 {} cursors).truncated = false := by
      by_contra hcut
      rw [hprogress.cut (eq_true_of_ne_false hcut)] at hwithin
      cases hwithin
    have hframes : (resumeClient log (fun _ => .sent) 1000 cursors).frames =
        (ResumeState.resumeSessions log (fun _ => .sent) 0 {} cursors).frames ++
          [.resumeComplete (ResumeState.resumeSessions log (fun _ => .sent) 0 {} cursors).latest.entries
            (ResumeState.resumeSessions log (fun _ => .sent) 0 {} cursors).truncated] := by
      rw [resumeClient,if_neg (by decide)]
      dsimp only
      rw [ResumeState.sendClient,if_neg (by simp [hopen])]
    obtain ⟨d,hd,-⟩ := (h _ _ _ _ _ _ hframes).2 hwhole protoKey rawCursor hentry
    rw [← OrdMap.get_eq_some,hprogress.proto] at hd
    cases hd
  · intro hcond results since before reported truncated rest hframes
    obtain ⟨hopen,rfl,rfl,rfl⟩ := resumeClient_report hframes
    obtain ⟨done,hprogress,hdone,hall⟩ := ResumeState.resumeSessions_progress results
      (Progress.start log cursors) rfl hnodup (Nat.zero_le _) hopen
    simp only [← OrdMap.get_eq_some]
    constructor
    · intro s d hd
      obtain ⟨rawCursor,hmem,hread,-⟩ := hprogress.listed s d hd
      exact ⟨rawCursor,hdone.subset hmem,hread⟩
    · intro hwhole s rawCursor hmem
      obtain ⟨rfl,hfew⟩ := hall hwhole
      have hwithin : withinLimits log done = true := by
        obtain ⟨hevents,hbytes⟩ := hprogress.counted hwhole
        have hbudget := hprogress.within
        rw [hevents,hbytes] at hbudget
        simp only [withinLimits,hprogress.valid hwhole,hfew,hbudget.1,hbudget.2,decide_true,Bool.and_self]
      have hproto : s ≠ protoKey := by
        rintro rfl
        exact hcond hwithin (List.mem_map_of_mem hmem)
      obtain ⟨d,hd⟩ := hprogress.all hwhole s rawCursor hmem hproto
      obtain ⟨-,-,-,hnone⟩ := hprogress.listed s d hd
      exact ⟨d,hd,hnone hwhole⟩

/-- A file whose second line is torn and whose third was written without a number. -/
def Sample.lines (sessionId : String) : List (EventLine Nat) :=
  [.entry sessionId 200 (some 1),.corrupt,.entry sessionId 300 none]

theorem Sample.readLines_lines (sessionId : String) :
    readLines (Sample.lines sessionId) sessionId = [⟨sessionId,200,1⟩,⟨sessionId,300,2⟩] := by
  simp [readLines,Sample.lines,EventLine.parse,List.filterMap_cons,renumber,explicitOrNext,jsSucc]

def Sample.twoMessages : EventLog :=
  EventLog.ofFiles Sample.lines (fun s => String.ofList (s.map fun u => Char.ofNat u.toNat))
    (fun entry => ([],entry.body)) (by
      intro sessionId entry hentry
      rw [Sample.readLines_lines] at hentry
      rcases List.mem_pair.mp hentry with rfl | rfl
      · show 1 < 2^53
        decide
      · show 2 < 2^53
        decide)

/-- One session is asked for beyond its first message and one from its start. -/
def Sample.asked : List (JsText × Value) := [(ofString "s",.num 1),(ofString "t",.null)]

theorem twoMessages_truthful :
    (resumeClient Sample.twoMessages (fun _ => .sent) 1000 Sample.asked).frames =
      [.event (ofString "s") { eventSeq := 2, bytes := 300 },
        .event (ofString "t") { eventSeq := 1, bytes := 200 },
        .event (ofString "t") { eventSeq := 2, bytes := 300 },
        .resumeComplete [(ofString "s",2),(ofString "t",2)] false] ∧
    ∀ results since, Truthful Sample.twoMessages Sample.asked
      (resumeClient Sample.twoMessages results since Sample.asked) := by
  constructor
  · decide +kernel
  · exact (truthful_iff Sample.twoMessages (by decide)).mpr (fun _ => by decide)

/-- The messages are sent and the report is neither truncated nor does it list the session. -/
theorem protoKey_not_truthful :
    ¬Truthful Sample.twoMessages [(protoKey,.num 0)]
      (resumeClient Sample.twoMessages (fun _ => .sent) 1000 [(protoKey,.num 0)]) := by
  intro h
  have hframes : (resumeClient Sample.twoMessages (fun _ => .sent) 1000 [(protoKey,.num 0)]).frames =
      [.event protoKey { eventSeq := 1, bytes := 200 },.event protoKey { eventSeq := 2, bytes := 300 }] ++
        .resumeComplete [] false :: [] := by decide +kernel
  obtain ⟨d,hd,-⟩ := (h _ _ _ _ hframes).2 rfl protoKey (.num 0) List.mem_cons_self
  cases hd

end run

end CodeHarbor.Gateway
