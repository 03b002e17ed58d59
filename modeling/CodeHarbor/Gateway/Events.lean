import CodeHarbor.Lib.OrdMap
import CodeHarbor.Lib.Run
set_option autoImplicit false

namespace CodeHarbor.Gateway
open Lib

/-- The body is what the store never looks into: the type, the request id, the timestamp
and the payload. -/
structure TimelineEntry (β : Type) where
  sessionId : String
  body : β
  eventSeq : Nat
  deriving DecidableEq, Repr

/-- A line of an event file. One that is no JSON is skipped when the file is read, and one
written by an older gateway may lack its number. -/
inductive EventLine (β : Type) where
  | corrupt
  | entry (sessionId : String) (body : β) (eventSeq : Option Nat)
  deriving DecidableEq, Repr

variable {β : Type}

def TimelineEntry.line (entry : TimelineEntry β) : EventLine β :=
  .entry entry.sessionId entry.body (some entry.eventSeq)

/-- The double `n + 1` for a double `n`. From 2^53 on the doubles are two apart, from 2^54 on
four, and a sum halfway between two of them goes to the even one. -/
def jsSucc (n : Nat) : Nat :=
  if n < 2^53 then n+1
  else if n < 2^54 ∧ n%4 = 2 then n+2
  else n

theorem le_jsSucc (n : Nat) : n ≤ jsSucc n := by
  unfold jsSucc
  split_ifs <;> omega

theorem jsSucc_eq {n : Nat} (h : n < 2^53) : jsSucc n = n+1 := if_pos h

def isSafeInteger (n : Int) : Bool := n.natAbs < 2^53

/-- A supplied number that is no integer fails the safe integer test just as a missing one. -/
def nextSeq (currentSeq : Nat) (suppliedSeq : Option Int) : Nat :=
  match suppliedSeq with
  | some n => if isSafeInteger n ∧ (currentSeq : Int) < n then n.toNat else jsSucc currentSeq
  | none => jsSucc currentSeq

theorem lt_nextSeq {currentSeq : Nat} (h : currentSeq < 2^53) (suppliedSeq : Option Int) :
    currentSeq < nextSeq currentSeq suppliedSeq := by
  have hsucc : currentSeq < jsSucc currentSeq := by
    rw [jsSucc_eq h]
    exact Nat.lt_succ_self currentSeq
  unfold nextSeq
  split
  · split_ifs with hn
    · have hlt := hn.2
      omega
    · exact hsucc
  · exact hsucc

def eventCacheMaxSessions : Nat := 64
def eventCacheMaxEntries : Nat := 512

structure CachedEvents (β : Type) where
  entries : List (TimelineEntry β)
  complete : Bool
  deriving DecidableEq, Repr

/-- What a promise chain has still to do: put a line on the file, run the `finally` handler of
that write, remove the file. -/
inductive FileJob (β : Type) where
  | append (entry : TimelineEntry β)
  | settled
  | remove
  deriving DecidableEq, Repr

def FileJob.isAppend : FileJob β → Bool
  | .append _ => true
  | _ => false

def FileJob.line : FileJob β → Option (TimelineEntry β)
  | .append entry => some entry
  | _ => none

/-- The chain is current while `eventWriteChains` holds the promise of its last write. A chain
that is no longer current still runs to its end. -/
structure WriteChain (β : Type) where
  jobs : List (FileJob β)
  current : Bool
  deriving DecidableEq, Repr

/-- The event part of the store with the data directory. A session id stands for its file:
`encodeURIComponent` is injective. -/
structure EventStore (β : Type) where
  sessions : List String
  latestSeqBySession : OrdMap String Nat
  eventCache : OrdMap String (CachedEvents β)
  eventWriteChains : String → List (WriteChain β)
  deletedSessions : List String
  files : String → List (EventLine β)

/-- What the reader keeps of a line: the lines of another session are filtered out. -/
def EventLine.parse (sessionId : String) : EventLine β → Option (β × Option Nat)
  | .corrupt => none
  | .entry id body eventSeq => if id = sessionId then some (body,eventSeq) else none

/-- A number that does not exceed the one before it is replaced by the next. -/
def explicitOrNext (fallbackSeq : Nat) (explicitSeq : Option Nat) : Nat :=
  match explicitSeq with
  | some n => if fallbackSeq < n then n else jsSucc fallbackSeq
  | none => jsSucc fallbackSeq

def renumber (sessionId : String) : Nat → List (β × Option Nat) → List (TimelineEntry β)
  | _, [] => []
  | fallbackSeq, (body,explicitSeq) :: rest =>
    ⟨sessionId,body,explicitOrNext fallbackSeq explicitSeq⟩ ::
      renumber sessionId (explicitOrNext fallbackSeq explicitSeq) rest

def readLines (lines : List (EventLine β)) (sessionId : String) : List (TimelineEntry β) :=
  renumber sessionId 0 (lines.filterMap (EventLine.parse sessionId))

/-- The last entry with a number wins, and the result is in the order of the numbers. -/
def mergeEvents (diskEntries cachedEntries : List (TimelineEntry β)) : List (TimelineEntry β) :=
  if cachedEntries.isEmpty then diskEntries
  else
    let bySequence := ((OrdMap.empty : OrdMap Nat (TimelineEntry β)).setAll
      TimelineEntry.eventSeq diskEntries).setAll TimelineEntry.eventSeq cachedEntries
    (bySequence.entries.map Prod.snd).insertionSort (fun left right => left.eventSeq ≤ right.eventSeq)

namespace EventStore

def start (files : String → List (EventLine β)) : EventStore β where
  sessions := []
  latestSeqBySession := .empty
  eventCache := .empty
  eventWriteChains := fun _ => []
  deletedSessions := []
  files := files

def readEventsFromDisk (st : EventStore β) (sessionId : String) : List (TimelineEntry β) :=
  readLines (st.files sessionId) sessionId

/-- A hit moves the session to the young end of the map. -/
def getCachedEvents (st : EventStore β) (sessionId : String) :
    EventStore β × Option (CachedEvents β) :=
  match st.eventCache.get sessionId with
  | none => (st,none)
  | some cached =>
    ({ st with eventCache := (st.eventCache.erase sessionId).set sessionId cached },some cached)

def cacheEvents (st : EventStore β) (sessionId : String) (entries : List (TimelineEntry β))
    (complete : Bool) : EventStore β :=
  let boundedEntries := newest eventCacheMaxEntries entries
  let cached := ⟨boundedEntries,complete && decide (boundedEntries.length = entries.length)⟩
  { st with
    eventCache := ((st.eventCache.erase sessionId).set sessionId cached).keepNewest
      eventCacheMaxSessions }

def lastSeq (entries : List (TimelineEntry β)) : Option Nat :=
  entries.getLast?.map TimelineEntry.eventSeq

def setLatest (st : EventStore β) (sessionId : String) (latest : Option Nat) : EventStore β :=
  match latest with
  | some n => { st with latestSeqBySession := st.latestSeqBySession.set sessionId n }
  | none => st

def listEvents (st : EventStore β) (sessionId : String) :
    EventStore β × List (TimelineEntry β) :=
  let (st,cached) := st.getCachedEvents sessionId
  let entries := match cached with
    | some cached =>
      if cached.complete then cached.entries
      else mergeEvents (st.readEventsFromDisk sessionId) cached.entries
    | none => mergeEvents (st.readEventsFromDisk sessionId) []
  let st := st.cacheEvents sessionId entries (match cached with
    | some cached => cached.complete
    | none => true)
  (st.setLatest sessionId (lastSeq entries),entries)

def listEventsAfter (st : EventStore β) (sessionId : String) (cursor : Nat) :
    EventStore β × List (TimelineEntry β) :=
  let (st,entries) := st.listEvents sessionId
  (st,entries.filter (fun entry => cursor < entry.eventSeq))

structure EventPage (β : Type) where
  entries : List (TimelineEntry β)
  nextCursor : Nat
  truncated : Bool
  deriving DecidableEq, Repr

def listEventsAfterLimited (st : EventStore β) (sessionId : String) (cursor limit : Nat) :
    EventStore β × EventPage β :=
  let safeLimit := max 1 (min 5000 limit)
  let (st,entries) := st.listEventsAfter sessionId cursor
  let page := entries.take safeLimit
  (st,⟨page,(lastSeq page).getD cursor,decide (safeLimit < entries.length)⟩)

def currentSeq (st : EventStore β) (sessionId : String) : EventStore β × Option Nat :=
  match st.latestSeqBySession.get sessionId with
  | some n => (st,some n)
  | none =>
    let (st,entries) := st.listEvents sessionId
    (st,lastSeq entries)

/-- One pass of the loop of `latestCursors`. -/
def addCursor (acc : EventStore β × List (String × Nat)) (sessionId : String) :
    EventStore β × List (String × Nat) :=
  let (st,last) := acc.1.currentSeq sessionId
  (st,match last with
    | some n => acc.2 ++ [(sessionId,n)]
    | none => acc.2)

def latestCursors (st : EventStore β) : EventStore β × List (String × Nat) :=
  st.sessions.foldl addCursor (st,[])

/-- The write joins the session's current chain, or starts one. -/
def queueEventWrite (st : EventStore β) (sessionId : String) (entry : TimelineEntry β) :
    EventStore β :=
  let chains := st.eventWriteChains sessionId
  let write : List (FileJob β) := [.append entry,.settled]
  let chains :=
    if chains.any WriteChain.current then
      chains.map (fun chain =>
        if chain.current then { chain with jobs := chain.jobs ++ write } else chain)
    else chains ++ [⟨write,true⟩]
  { st with eventWriteChains := Function.update st.eventWriteChains sessionId chains }

/-- A message without a session id, or for a deleted session, is not kept. -/
def appendEvent (st : EventStore β) (sessionId : String) (body : β) (suppliedSeq : Option Int) :
    EventStore β × Option (TimelineEntry β) :=
  if sessionId = "" ∨ sessionId ∈ st.deletedSessions then (st,none)
  else
    let (st,current) := st.currentSeq sessionId
    let eventSeq := nextSeq (current.getD 0) suppliedSeq
    let entry : TimelineEntry β := ⟨sessionId,body,eventSeq⟩
    let (st,cached) := st.getCachedEvents sessionId
    let entries := match cached with
      | some cached => cached.entries ++ [entry]
      | none => st.readEventsFromDisk sessionId ++ [entry]
    let st := st.cacheEvents sessionId entries (match cached with
      | some cached => cached.complete
      | none => true)
    let st := st.queueEventWrite sessionId entry
    (st.setLatest sessionId (some eventSeq),some entry)

/-- Saving a record lifts the tombstone of its session. -/
def saveSession (st : EventStore β) (sessionId : String) : EventStore β :=
  { st with
    deletedSessions := st.deletedSessions.filter (· ≠ sessionId)
    sessions := if sessionId ∈ st.sessions then st.sessions else st.sessions ++ [sessionId] }

/-- The bulk variant leaves the tombstones. -/
def upsertSessions (st : EventStore β) (sessionIds : List String) : EventStore β :=
  { st with
    sessions := sessionIds.foldl (fun ids id => if id ∈ ids then ids else ids ++ [id]) st.sessions }

/-- The file goes at once when no write is outstanding, else after the writes queued so far. -/
def deleteSession (st : EventStore β) (sessionId : String) : EventStore β :=
  let chains := st.eventWriteChains sessionId
  let st := { st with
    deletedSessions := sessionId :: st.deletedSessions
    sessions := st.sessions.filter (· ≠ sessionId)
    latestSeqBySession := st.latestSeqBySession.erase sessionId
    eventCache := st.eventCache.erase sessionId }
  if chains.any WriteChain.current then
    { st with
      eventWriteChains := Function.update st.eventWriteChains sessionId (chains.map (fun chain =>
        if chain.current then { chain with jobs := chain.jobs ++ [.remove] } else chain)) }
  else { st with files := Function.update st.files sessionId [] }

/-- The session's chains once the given one has `jobs` left. A chain with nothing left is
forgotten. -/
def replaceChain (chains : List (WriteChain β)) (k : Nat) (chain : WriteChain β) :
    List (WriteChain β) :=
  (chains.set k chain).filter (fun c => !c.jobs.isEmpty)

/-- The next job of the `k`th chain of a session is done; a line reaches the file only when its
write succeeds. -/
def runFileJob (st : EventStore β) (sessionId : String) (k : Nat) (succeeds : Bool) :
    EventStore β :=
  let chains := st.eventWriteChains sessionId
  match chains[k]? with
  | none => st
  | some chain =>
    match chain.jobs with
    | [] => st
    | .append entry :: rest =>
      { st with
        files := if succeeds then
            Function.update st.files sessionId (st.files sessionId ++ [entry.line])
          else st.files
        eventWriteChains := Function.update st.eventWriteChains sessionId
          (replaceChain chains k { chain with jobs := rest }) }
    | .settled :: rest =>
      -- the entry of the map is this write's promise only when the chain has no later write
      { st with
        eventWriteChains := Function.update st.eventWriteChains sessionId
          (replaceChain chains k ⟨rest,chain.current && rest.any FileJob.isAppend⟩) }
    | .remove :: rest =>
      -- whatever promise the map holds by now, its entry goes
      { st with
        files := Function.update st.files sessionId []
        eventWriteChains := Function.update st.eventWriteChains sessionId
          (replaceChain (chains.map (fun c => { c with current := false })) k ⟨rest,false⟩) }

end EventStore

inductive StoreInput (β : Type) where
  | appendEvent (sessionId : String) (body : β) (eventSeq : Option Int)
  | listEvents (sessionId : String)
  | listEventsAfter (sessionId : String) (cursor : Nat)
  | listEventsAfterLimited (sessionId : String) (cursor limit : Nat)
  | latestCursors
  | saveSession (sessionId : String)
  | upsertSessions (sessionIds : List String)
  | deleteSession (sessionId : String)
  | fileJob (sessionId : String) (chain : Nat) (succeeds : Bool)
  deriving DecidableEq, Repr

inductive StoreEvent (β : Type) where
  | appended (entry : TimelineEntry β)
  | listed (sessionId : String) (entries : List (TimelineEntry β))
  | deleted (sessionId : String)
  deriving DecidableEq, Repr

def EventStore.step (st : EventStore β) : StoreInput β → EventStore β × List (StoreEvent β)
  | .appendEvent sessionId body eventSeq =>
    let (st,entry) := st.appendEvent sessionId body eventSeq
    (st,entry.toList.map StoreEvent.appended)
  | .listEvents sessionId =>
    let (st,entries) := st.listEvents sessionId
    (st,[StoreEvent.listed sessionId entries])
  | .listEventsAfter sessionId cursor => ((st.listEventsAfter sessionId cursor).1,[])
  | .listEventsAfterLimited sessionId cursor limit =>
    ((st.listEventsAfterLimited sessionId cursor limit).1,[])
  | .latestCursors => (st.latestCursors.1,[])
  | .saveSession sessionId => (st.saveSession sessionId,[])
  | .upsertSessions sessionIds => (st.upsertSessions sessionIds,[])
  | .deleteSession sessionId => (st.deleteSession sessionId,[StoreEvent.deleted sessionId])
  | .fileJob sessionId chain succeeds => (st.runFileJob sessionId chain succeeds,[])

def eventMachine (files : String → List (EventLine β)) :
    Machine (EventStore β) (StoreInput β) (StoreEvent β) where
  init := fun st => st = EventStore.start files
  step := EventStore.step

namespace EventStore

def idle (st : EventStore β) (sessionId : String) : Bool := (st.eventWriteChains sessionId).isEmpty

def queued (st : EventStore β) (sessionId : String) : List (TimelineEntry β) :=
  ((st.eventWriteChains sessionId).flatMap WriteChain.jobs).filterMap FileJob.line

def removing (st : EventStore β) (sessionId : String) : Prop :=
  FileJob.remove ∈ (st.eventWriteChains sessionId).flatMap WriteChain.jobs

instance [DecidableEq β] (st : EventStore β) (sessionId : String) : Decidable (st.removing sessionId) :=
  inferInstanceAs (Decidable (_ ∈ _))

def timeline (st : EventStore β) (sessionId : String) : List (TimelineEntry β) :=
  match st.eventCache.get sessionId with
  | some cached =>
    if cached.complete then cached.entries
    else mergeEvents (st.readEventsFromDisk sessionId) cached.entries
  | none => st.readEventsFromDisk sessionId

/-- A step on other sessions leaves a session's counter, chains and file, and can at most
evict its cache entry. -/
structure Aside (st st' : EventStore β) (s : String) : Prop where
  latest : st'.latestSeqBySession.get s = st.latestSeqBySession.get s
  cache : ∀ cached, st'.eventCache.get s = some cached → st.eventCache.get s = some cached
  chains : st'.eventWriteChains s = st.eventWriteChains s
  files : st'.files s = st.files s

theorem Aside.refl (st : EventStore β) (s : String) : Aside st st s := ⟨rfl,fun _ h => h,rfl,rfl⟩

theorem Aside.trans {st₁ st₂ st₃ : EventStore β} {s : String} (h : Aside st₁ st₂ s)
    (h' : Aside st₂ st₃ s) : Aside st₁ st₃ s where
  latest := h'.latest.trans h.latest
  cache := fun cached hget => h.cache cached (h'.cache cached hget)
  chains := h'.chains.trans h.chains
  files := h'.files.trans h.files

/-- The cache and the counters may have changed, nothing else. -/
structure SameFiles (st st' : EventStore β) : Prop where
  sessions : st'.sessions = st.sessions
  deleted : st'.deletedSessions = st.deletedSessions
  chains : st'.eventWriteChains = st.eventWriteChains
  files : st'.files = st.files

theorem SameFiles.trans {st₁ st₂ st₃ : EventStore β} (h : SameFiles st₁ st₂) (h' : SameFiles st₂ st₃) :
    SameFiles st₁ st₃ where
  sessions := h'.sessions.trans h.sessions
  deleted := h'.deleted.trans h.deleted
  chains := h'.chains.trans h.chains
  files := h'.files.trans h.files

section Cache
variable (st : EventStore β) (sessionId : String)

theorem getCachedEvents_snd : (st.getCachedEvents sessionId).2 = st.eventCache.get sessionId := by
  unfold getCachedEvents
  cases h : st.eventCache.get sessionId <;> rfl

theorem getCachedEvents_get (s : String) :
    (st.getCachedEvents sessionId).1.eventCache.get s = st.eventCache.get s := by
  unfold getCachedEvents
  cases h : st.eventCache.get sessionId with
  | none => rfl
  | some cached =>
    dsimp only
    rw [OrdMap.get_set,OrdMap.get_erase]
    split_ifs with hs
    · rw [hs,h]
    · rfl

theorem getCachedEvents_latest :
    (st.getCachedEvents sessionId).1.latestSeqBySession = st.latestSeqBySession := by
  unfold getCachedEvents
  cases st.eventCache.get sessionId <;> rfl

theorem getCachedEvents_same : SameFiles st (st.getCachedEvents sessionId).1 := by
  unfold getCachedEvents
  cases st.eventCache.get sessionId with
  | none => exact ⟨rfl,rfl,rfl,rfl⟩
  | some cached => exact ⟨rfl,rfl,rfl,rfl⟩

theorem cacheEvents_same (entries : List (TimelineEntry β)) (complete : Bool) :
    SameFiles st (st.cacheEvents sessionId entries complete) :=
  ⟨rfl,rfl,rfl,rfl⟩

theorem cacheEvents_latest (entries : List (TimelineEntry β)) (complete : Bool) :
    (st.cacheEvents sessionId entries complete).latestSeqBySession = st.latestSeqBySession :=
  rfl

theorem cacheEvents_get_self (entries : List (TimelineEntry β)) (complete : Bool) :
    (st.cacheEvents sessionId entries complete).eventCache.get sessionId =
      some ⟨newest eventCacheMaxEntries entries,
        complete && decide ((newest eventCacheMaxEntries entries).length = entries.length)⟩ := by
  apply OrdMap.get_keepNewest_set_new (by decide)
  rw [OrdMap.get_erase,if_pos rfl]

theorem cacheEvents_get_of_ne {entries : List (TimelineEntry β)} {complete : Bool} {s : String}
    (hs : s ≠ sessionId) {cached : CachedEvents β}
    (h : (st.cacheEvents sessionId entries complete).eventCache.get s = some cached) :
    st.eventCache.get s = some cached := by
  have hset := OrdMap.get_of_get_keepNewest h
  rw [OrdMap.get_set,if_neg hs,OrdMap.get_erase,if_neg hs] at hset
  exact hset

theorem setLatest_get (latest : Option Nat) (s : String) :
    (st.setLatest sessionId latest).latestSeqBySession.get s =
      if s = sessionId then latest.or (st.latestSeqBySession.get s)
      else st.latestSeqBySession.get s := by
  cases latest with
  | none => simp [setLatest]
  | some n =>
    simp only [setLatest,OrdMap.get_set]
    rfl

theorem setLatest_cache (latest : Option Nat) :
    (st.setLatest sessionId latest).eventCache = st.eventCache := by
  cases latest <;> rfl

theorem setLatest_same (latest : Option Nat) : SameFiles st (st.setLatest sessionId latest) := by
  cases latest with
  | none => exact ⟨rfl,rfl,rfl,rfl⟩
  | some n => exact ⟨rfl,rfl,rfl,rfl⟩

end Cache

/-- The flag `listEvents` and `appendEvent` hand on to the cache. -/
def cachedWhole (st : EventStore β) (sessionId : String) : Bool :=
  match st.eventCache.get sessionId with
  | some cached => cached.complete
  | none => true

def known (st : EventStore β) (sessionId : String) : List (TimelineEntry β) :=
  match st.eventCache.get sessionId with
  | some cached => cached.entries
  | none => st.readEventsFromDisk sessionId

section Reading
variable (st : EventStore β) (sessionId : String)

theorem listEvents_eq :
    st.listEvents sessionId =
      (((st.getCachedEvents sessionId).1.cacheEvents sessionId (st.timeline sessionId)
        (st.cachedWhole sessionId)).setLatest sessionId (lastSeq (st.timeline sessionId)),
        st.timeline sessionId) := by
  have hdisk : (st.getCachedEvents sessionId).1.readEventsFromDisk sessionId =
      st.readEventsFromDisk sessionId := by
    rw [readEventsFromDisk,(getCachedEvents_same st sessionId).files]
    rfl
  unfold listEvents
  simp only [getCachedEvents_snd,hdisk]
  unfold timeline cachedWhole
  cases st.eventCache.get sessionId with
  | none => simp [mergeEvents]
  | some cached => rfl

theorem listEvents_snd : (st.listEvents sessionId).2 = st.timeline sessionId := by
  rw [listEvents_eq]

theorem listEvents_cache :
    (st.listEvents sessionId).1.eventCache.get sessionId =
      some ⟨newest eventCacheMaxEntries (st.timeline sessionId),st.cachedWhole sessionId &&
        decide ((newest eventCacheMaxEntries (st.timeline sessionId)).length =
          (st.timeline sessionId).length)⟩ := by
  rw [listEvents_eq]
  dsimp only
  rw [setLatest_cache,cacheEvents_get_self]

theorem listEvents_latest (s : String) :
    (st.listEvents sessionId).1.latestSeqBySession.get s =
      if s = sessionId then
        (lastSeq (st.timeline sessionId)).or (st.latestSeqBySession.get s)
      else st.latestSeqBySession.get s := by
  rw [listEvents_eq]
  dsimp only
  rw [setLatest_get,cacheEvents_latest,getCachedEvents_latest]

theorem listEvents_same : SameFiles st (st.listEvents sessionId).1 := by
  rw [listEvents_eq]
  have hcache := (getCachedEvents_same st sessionId).trans
    (cacheEvents_same _ sessionId (st.timeline sessionId) (st.cachedWhole sessionId))
  exact hcache.trans (setLatest_same _ _ _)

theorem listEvents_aside {s : String} (hs : s ≠ sessionId) :
    Aside st (st.listEvents sessionId).1 s where
  latest := by rw [listEvents_latest,if_neg hs]
  cache := by
    intro cached hget
    rw [listEvents_eq] at hget
    dsimp only at hget
    rw [setLatest_cache] at hget
    have h := cacheEvents_get_of_ne _ _ hs hget
    rw [getCachedEvents_get] at h
    exact h
  chains := by rw [(listEvents_same st sessionId).chains]
  files := by rw [(listEvents_same st sessionId).files]

theorem currentSeq_cases :
    (∃ n, st.latestSeqBySession.get sessionId = some n ∧ st.currentSeq sessionId = (st,some n)) ∨
    (st.latestSeqBySession.get sessionId = none ∧
      st.currentSeq sessionId =
        ((st.listEvents sessionId).1,lastSeq (st.timeline sessionId))) := by
  unfold currentSeq
  cases st.latestSeqBySession.get sessionId with
  | some n => exact .inl ⟨n,rfl,rfl⟩
  | none =>
    refine .inr ⟨rfl,?_⟩
    rw [← listEvents_snd]

theorem currentSeq_aside {s : String} (hs : s ≠ sessionId) :
    Aside st (st.currentSeq sessionId).1 s := by
  rcases currentSeq_cases st sessionId with ⟨n,-,h⟩ | ⟨-,h⟩
  · rw [h]
    exact Aside.refl st s
  · rw [h]
    exact listEvents_aside st sessionId hs

theorem currentSeq_same : SameFiles st (st.currentSeq sessionId).1 := by
  rcases currentSeq_cases st sessionId with ⟨n,-,h⟩ | ⟨-,h⟩
  · rw [h]
    exact ⟨rfl,rfl,rfl,rfl⟩
  · rw [h]
    exact listEvents_same st sessionId

end Reading

/-- The entry is cached behind what is known, its write is queued and its number counted. -/
structure Pushed (st st' : EventStore β) (entry : TimelineEntry β) : Prop where
  cache : st'.eventCache.get entry.sessionId =
    some ⟨newest eventCacheMaxEntries (st.known entry.sessionId ++ [entry]),
      st.cachedWhole entry.sessionId &&
        decide ((newest eventCacheMaxEntries (st.known entry.sessionId ++ [entry])).length =
          (st.known entry.sessionId ++ [entry]).length)⟩
  latest : st'.latestSeqBySession.get entry.sessionId = some entry.eventSeq
  chains : st'.eventWriteChains = (st.queueEventWrite entry.sessionId entry).eventWriteChains
  files : st'.files = st.files
  aside : ∀ s, s ≠ entry.sessionId → Aside st st' s

section QueueEventWrite

variable (st : EventStore β) (sessionId : String) (entry : TimelineEntry β)

theorem queueEventWrite_cache : (st.queueEventWrite sessionId entry).eventCache = st.eventCache :=
  rfl

theorem queueEventWrite_latest :
    (st.queueEventWrite sessionId entry).latestSeqBySession = st.latestSeqBySession :=
  rfl

theorem queueEventWrite_files : (st.queueEventWrite sessionId entry).files = st.files :=
  rfl

end QueueEventWrite

theorem queueEventWrite_of_ne (st : EventStore β) {sessionId s : String} (hs : s ≠ sessionId)
    (entry : TimelineEntry β) :
    (st.queueEventWrite sessionId entry).eventWriteChains s = st.eventWriteChains s := by
  simp [queueEventWrite,hs]

theorem queueEventWrite_congr {st st' : EventStore β} (h : SameFiles st st') (sessionId : String)
    (entry : TimelineEntry β) :
    (st'.queueEventWrite sessionId entry).eventWriteChains =
      (st.queueEventWrite sessionId entry).eventWriteChains := by
  simp [queueEventWrite,h.chains]

def push (st : EventStore β) (entry : TimelineEntry β) : EventStore β :=
  (((st.getCachedEvents entry.sessionId).1.cacheEvents entry.sessionId
    (st.known entry.sessionId ++ [entry]) (st.cachedWhole entry.sessionId)).queueEventWrite
      entry.sessionId entry).setLatest entry.sessionId (some entry.eventSeq)

theorem push_pushed (st : EventStore β) (entry : TimelineEntry β) :
    Pushed st (st.push entry) entry := by
  have hsame := (getCachedEvents_same st entry.sessionId).trans
    (cacheEvents_same (st.getCachedEvents entry.sessionId).1 entry.sessionId
      (st.known entry.sessionId ++ [entry]) (st.cachedWhole entry.sessionId))
  have hchains : (st.push entry).eventWriteChains =
      (st.queueEventWrite entry.sessionId entry).eventWriteChains := by
    rw [push,(setLatest_same _ _ _).chains]
    exact queueEventWrite_congr hsame entry.sessionId entry
  have hfiles : (st.push entry).files = st.files := by
    rw [push,(setLatest_same _ _ _).files,queueEventWrite_files]
    exact hsame.files
  constructor
  · rw [push,setLatest_cache,queueEventWrite_cache]
    exact cacheEvents_get_self _ _ _ _
  · rw [push,setLatest_get,if_pos rfl]
    rfl
  · exact hchains
  · exact hfiles
  · intro s hs
    constructor
    · rw [push,setLatest_get,if_neg hs,queueEventWrite_latest,cacheEvents_latest,
        getCachedEvents_latest]
    · intro cached hget
      rw [push,setLatest_cache,queueEventWrite_cache] at hget
      have h := cacheEvents_get_of_ne _ _ hs hget
      rw [getCachedEvents_get] at h
      exact h
    · rw [hchains,queueEventWrite_of_ne _ hs]
    · rw [hfiles]

theorem appendEvent_eq (st : EventStore β) (sessionId : String) (body : β)
    (suppliedSeq : Option Int) (h : ¬(sessionId = "" ∨ sessionId ∈ st.deletedSessions)) :
    st.appendEvent sessionId body suppliedSeq =
      ((st.currentSeq sessionId).1.push
        ⟨sessionId,body,nextSeq ((st.currentSeq sessionId).2.getD 0) suppliedSeq⟩,
        some ⟨sessionId,body,nextSeq ((st.currentSeq sessionId).2.getD 0) suppliedSeq⟩) := by
  rw [appendEvent,if_neg h]
  obtain ⟨st₁,current⟩ := st.currentSeq sessionId
  dsimp only
  generalize nextSeq (current.getD 0) suppliedSeq = eventSeq
  have hdisk : (st₁.getCachedEvents sessionId).1.readEventsFromDisk sessionId =
      st₁.readEventsFromDisk sessionId := by
    rw [readEventsFromDisk,(getCachedEvents_same st₁ sessionId).files]
    rfl
  simp only [getCachedEvents_snd,hdisk,push,known,cachedWhole]
  cases st₁.eventCache.get sessionId <;> rfl

theorem appendEvent_cases (st : EventStore β) (sessionId : String) (body : β)
    (suppliedSeq : Option Int) :
    st.appendEvent sessionId body suppliedSeq = (st,none) ∨
    ∃ st' entry, st.appendEvent sessionId body suppliedSeq = (st',some entry) ∧
      entry.sessionId = sessionId ∧
      entry.eventSeq = nextSeq ((st.currentSeq sessionId).2.getD 0) suppliedSeq ∧
      Pushed (st.currentSeq sessionId).1 st' entry := by
  by_cases h : sessionId = "" ∨ sessionId ∈ st.deletedSessions
  · exact .inl (if_pos h)
  · refine .inr ⟨_,_,appendEvent_eq st sessionId body suppliedSeq h,rfl,rfl,?_⟩
    exact push_pushed _ _

theorem deleteSession_aside (st : EventStore β) {sessionId s : String} (hs : s ≠ sessionId) :
    Aside st (st.deleteSession sessionId) s := by
  unfold deleteSession
  dsimp only
  split_ifs with h
  all_goals
    refine ⟨?_,?_,?_,?_⟩
    · exact (OrdMap.get_erase _ _ _).trans (if_neg hs)
    · intro cached hget
      exact ((OrdMap.get_erase _ _ _).trans (if_neg hs)).symm.trans hget
    · simp [hs]
    · simp [hs]

theorem runFileJob_aside (st : EventStore β) {sessionId s : String} (hs : s ≠ sessionId) (k : Nat)
    (succeeds : Bool) : Aside st (st.runFileJob sessionId k succeeds) s := by
  unfold runFileJob
  dsimp only
  split
  · exact Aside.refl st s
  · split
    · exact Aside.refl st s
    · refine ⟨rfl,fun _ h => h,?_,?_⟩
      · simp [hs]
      · by_cases hok : succeeds = true
        · simp [hok,hs]
        · simp [hok]
    · refine ⟨rfl,fun _ h => h,?_,rfl⟩
      simp [hs]
    · refine ⟨rfl,fun _ h => h,?_,?_⟩
      · simp [hs]
      · simp [hs]

theorem lastSeq_snoc (entries : List (TimelineEntry β)) (entry : TimelineEntry β) :
    lastSeq (entries ++ [entry]) = some entry.eventSeq := by
  simp [lastSeq]

theorem lastSeq_newest {n : Nat} (hn : 0 < n) (entries : List (TimelineEntry β)) :
    lastSeq (newest n entries) = lastSeq entries := by
  rcases List.eq_nil_or_concat entries with rfl | ⟨init,entry,rfl⟩
  · rfl
  · have hdrop : newest n (init ++ [entry]) = init.drop (init.length+1-n) ++ [entry] := by
      rw [newest_eq_drop,List.length_append,List.length_singleton]
      exact List.drop_append_of_le_length (by omega)
    rw [List.concat_eq_append,hdrop,lastSeq_snoc,lastSeq_snoc]

theorem exists_lastSeq {entries : List (TimelineEntry β)}
    (hsorted : entries.Pairwise (fun a b => a.eventSeq ≤ b.eventSeq)) {entry : TimelineEntry β}
    (hmem : entry ∈ entries) : ∃ m, lastSeq entries = some m ∧ entry.eventSeq ≤ m := by
  rcases List.eq_nil_or_concat entries with rfl | ⟨init,last,rfl⟩
  · simp at hmem
  · rw [List.concat_eq_append] at *
    refine ⟨last.eventSeq,lastSeq_snoc init last,?_⟩
    rcases List.mem_append.mp hmem with h | h
    · exact (List.pairwise_append.mp hsorted).2.2 entry h last List.mem_cons_self
    · simp at h
      rw [h]

theorem le_explicitOrNext (fallbackSeq : Nat) (explicitSeq : Option Nat) :
    fallbackSeq ≤ explicitOrNext fallbackSeq explicitSeq ∧
      ∀ n, explicitSeq = some n → n ≤ explicitOrNext fallbackSeq explicitSeq := by
  have hsucc := le_jsSucc fallbackSeq
  unfold explicitOrNext
  cases explicitSeq with
  | none => exact ⟨hsucc,by simp⟩
  | some n =>
    dsimp only
    split_ifs with hlt
    · exact ⟨hlt.le,by simp⟩
    · refine ⟨hsucc,?_⟩
      intro m hm
      cases hm
      omega

theorem le_renumber {sessionId : String} {fallbackSeq : Nat} {lines : List (β × Option Nat)}
    {entry : TimelineEntry β} (h : entry ∈ renumber sessionId fallbackSeq lines) :
    fallbackSeq ≤ entry.eventSeq := by
  induction lines generalizing fallbackSeq with
  | nil => simp [renumber] at h
  | cons line rest ih =>
    have hle := (le_explicitOrNext fallbackSeq line.2).1
    rcases List.mem_cons.mp h with rfl | hrest
    · exact hle
    · exact hle.trans (ih hrest)

theorem renumber_sorted (sessionId : String) (fallbackSeq : Nat) (lines : List (β × Option Nat)) :
    (renumber sessionId fallbackSeq lines).Pairwise (fun a b => a.eventSeq ≤ b.eventSeq) := by
  induction lines generalizing fallbackSeq with
  | nil => exact List.Pairwise.nil
  | cons line rest ih =>
    refine List.Pairwise.cons ?_ (ih _)
    intro entry hentry
    exact le_renumber hentry

theorem exists_renumber (sessionId : String) (fallbackSeq : Nat) {lines : List (β × Option Nat)}
    {body : β} {n : Nat} (h : (body,some n) ∈ lines) :
    ∃ entry ∈ renumber sessionId fallbackSeq lines, n ≤ entry.eventSeq := by
  induction lines generalizing fallbackSeq with
  | nil => simp at h
  | cons line rest ih =>
    rcases List.mem_cons.mp h with rfl | hrest
    · exact ⟨_,List.mem_cons_self,(le_explicitOrNext fallbackSeq (some n)).2 n rfl⟩
    · obtain ⟨entry,hmem,hle⟩ := ih (explicitOrNext fallbackSeq line.2) hrest
      exact ⟨entry,List.mem_cons_of_mem _ hmem,hle⟩

theorem exists_lastSeq_readLines {lines : List (EventLine β)} {entry : TimelineEntry β}
    (h : entry.line ∈ lines) :
    ∃ m, lastSeq (readLines lines entry.sessionId) = some m ∧ entry.eventSeq ≤ m := by
  have hparse : (entry.body,some entry.eventSeq) ∈
      lines.filterMap (EventLine.parse entry.sessionId) := by
    refine List.mem_filterMap.mpr ⟨entry.line,h,?_⟩
    simp [TimelineEntry.line,EventLine.parse]
  obtain ⟨e,he,hle⟩ := exists_renumber entry.sessionId 0 hparse
  obtain ⟨m,hm,hem⟩ := exists_lastSeq (renumber_sorted _ _ _) he
  exact ⟨m,hm,hle.trans hem⟩

theorem mergeEvents_sorted {diskEntries : List (TimelineEntry β)}
    (hdisk : diskEntries.Pairwise (fun a b => a.eventSeq ≤ b.eventSeq))
    (cachedEntries : List (TimelineEntry β)) :
    (mergeEvents diskEntries cachedEntries).Pairwise (fun a b => a.eventSeq ≤ b.eventSeq) := by
  unfold mergeEvents
  split_ifs
  · exact hdisk
  · have : IsTrans (TimelineEntry β) (fun a b => a.eventSeq ≤ b.eventSeq) :=
      ⟨fun _ _ _ hab hbc => le_trans hab hbc⟩
    have : Std.Total (fun a b : TimelineEntry β => a.eventSeq ≤ b.eventSeq) :=
      ⟨fun a b => le_total a.eventSeq b.eventSeq⟩
    exact List.pairwise_insertionSort _ _

theorem get_bySequence (diskEntries cachedEntries : List (TimelineEntry β)) (k : Nat) :
    (((OrdMap.empty : OrdMap Nat (TimelineEntry β)).setAll TimelineEntry.eventSeq
      diskEntries).setAll TimelineEntry.eventSeq cachedEntries).get k =
        ((cachedEntries.filter (·.eventSeq = k)).getLast?).or
          ((diskEntries.filter (·.eventSeq = k)).getLast?) := by
  rw [OrdMap.get_setAll,OrdMap.get_setAll,OrdMap.get_empty,Option.or_none]

theorem bySequence_key {diskEntries cachedEntries : List (TimelineEntry β)} {k : Nat}
    {entry : TimelineEntry β} (h : (k,entry) ∈ (((OrdMap.empty : OrdMap Nat (TimelineEntry β)).setAll
      TimelineEntry.eventSeq diskEntries).setAll TimelineEntry.eventSeq cachedEntries).entries) :
    entry.eventSeq = k := by
  have hk := OrdMap.get_eq_some.mpr h
  rw [get_bySequence] at hk
  rcases Option.or_eq_some_iff.mp hk with h | ⟨-,h⟩
  · simpa using (List.mem_filter.mp (List.mem_of_getLast? h)).2
  · simpa using (List.mem_filter.mp (List.mem_of_getLast? h)).2

theorem mem_mergeEvents {diskEntries cachedEntries : List (TimelineEntry β)}
    (hcached : cachedEntries ≠ []) (entry : TimelineEntry β) :
    entry ∈ mergeEvents diskEntries cachedEntries ↔
      ((cachedEntries.filter (·.eventSeq = entry.eventSeq)).getLast?).or
        ((diskEntries.filter (·.eventSeq = entry.eventSeq)).getLast?) = some entry := by
  have hempty : ¬cachedEntries.isEmpty = true := by simpa using hcached
  rw [mergeEvents,if_neg hempty,List.mem_insertionSort,List.mem_map,← get_bySequence]
  constructor
  · rintro ⟨⟨k,e⟩,hmem,rfl⟩
    rw [bySequence_key hmem]
    exact OrdMap.get_eq_some.mpr hmem
  · intro h
    exact ⟨(entry.eventSeq,entry),OrdMap.get_eq_some.mp h,rfl⟩

theorem mergeEvents_nodup (diskEntries : List (TimelineEntry β)) {cachedEntries : List (TimelineEntry β)}
    (hcached : cachedEntries ≠ []) :
    ((mergeEvents diskEntries cachedEntries).map TimelineEntry.eventSeq).Nodup := by
  have hempty : ¬cachedEntries.isEmpty = true := by simpa using hcached
  rw [mergeEvents,if_neg hempty]
  refine (((List.perm_insertionSort _ _).map _).nodup_iff).mpr ?_
  rw [List.map_map]
  refine ((List.map_congr_left ?_).symm ▸ OrdMap.nodup _)
  rintro ⟨k,e⟩ hmem
  exact bySequence_key hmem

theorem exists_mergeEvents {diskEntries cachedEntries : List (TimelineEntry β)}
    {entry : TimelineEntry β} (h : entry ∈ cachedEntries) :
    ∃ e ∈ mergeEvents diskEntries cachedEntries, e.eventSeq = entry.eventSeq := by
  have hfilter : entry ∈ cachedEntries.filter (·.eventSeq = entry.eventSeq) :=
    List.mem_filter.mpr ⟨h,by simp⟩
  obtain ⟨e,he⟩ := Option.isSome_iff_exists.mp
    (List.getLast?_isSome.mpr (List.ne_nil_of_mem hfilter))
  have hseq : e.eventSeq = entry.eventSeq := by
    simpa using (List.mem_filter.mp (List.mem_of_getLast? he)).2
  refine ⟨e,(mem_mergeEvents (List.ne_nil_of_mem h) e).mpr ?_,hseq⟩
  rw [hseq,he]
  rfl

theorem mem_replaceChain {chains : List (WriteChain β)} {k : Nat} {chain : WriteChain β}
    (chain' : WriteChain β) {job : FileJob β} (hk : chains[k]? = some chain)
    (hjobs : chain.jobs = job :: chain'.jobs) (x : FileJob β) :
    x ∈ chains.flatMap WriteChain.jobs ↔
      x = job ∨ x ∈ (replaceChain chains k chain').flatMap WriteChain.jobs := by
  have hfilter : ∀ cs : List (WriteChain β),
      (cs.filter (fun c => !c.jobs.isEmpty)).flatMap WriteChain.jobs = cs.flatMap WriteChain.jobs := by
    intro cs
    induction cs with
    | nil => rfl
    | cons c cs ih =>
      obtain ⟨jobs,current⟩ := c
      cases jobs <;> simp [ih]
  rw [replaceChain,hfilter]
  induction chains generalizing k with
  | nil => simp at hk
  | cons c cs ih =>
    cases k with
    | zero =>
      simp only [List.getElem?_cons_zero,Option.some.injEq] at hk
      subst hk
      simp [hjobs]
    | succ k =>
      simp only [List.getElem?_cons_succ] at hk
      simp [ih hk]
      tauto

theorem mem_queueEventWrite (st : EventStore β) (sessionId : String) (entry : TimelineEntry β)
    (x : FileJob β) :
    x ∈ ((st.queueEventWrite sessionId entry).eventWriteChains sessionId).flatMap WriteChain.jobs ↔
      x ∈ (st.eventWriteChains sessionId).flatMap WriteChain.jobs ∨
        x = .append entry ∨ x = .settled := by
  simp only [queueEventWrite,Function.update_self]
  generalize st.eventWriteChains sessionId = chains
  split_ifs with hany
  · obtain ⟨current,hmem,hcurrent⟩ := List.any_eq_true.mp hany
    simp only [List.flatMap_map,List.mem_flatMap]
    constructor
    · rintro ⟨chain,hchain,hx⟩
      by_cases hc : chain.current = true
      · simp only [hc,if_true,List.mem_append,List.mem_cons,List.not_mem_nil,or_false] at hx
        rcases hx with hx | hx
        · exact .inl ⟨chain,hchain,hx⟩
        · exact .inr hx
      · exact .inl ⟨chain,hchain,by simpa [hc] using hx⟩
    · rintro (⟨chain,hchain,hx⟩ | hx)
      · refine ⟨chain,hchain,?_⟩
        split_ifs
        · exact List.mem_append_left _ hx
        · exact hx
      · exact ⟨current,hmem,by simp [hcurrent,hx]⟩
  · simp

/-- What has been appended to a session since its last deletion, `base` standing for what was
there before the first event. -/
def sinceDeletion (base : List (TimelineEntry β)) (s : String) (tr : List (StoreEvent β)) :
    List (TimelineEntry β) :=
  tr.foldl (fun entries event =>
    match event with
    | .appended entry => if entry.sessionId = s then entries ++ [entry] else entries
    | .deleted sessionId => if sessionId = s then [] else entries
    | .listed _ _ => entries) base

theorem sinceDeletion_snoc (base : List (TimelineEntry β)) (s : String) (tr : List (StoreEvent β))
    (event : StoreEvent β) :
    sinceDeletion base s (tr ++ [event]) =
      match event with
      | .appended entry =>
        if entry.sessionId = s then sinceDeletion base s tr ++ [entry] else sinceDeletion base s tr
      | .deleted sessionId => if sessionId = s then [] else sinceDeletion base s tr
      | .listed _ _ => sinceDeletion base s tr := by
  simp only [sinceDeletion,List.foldl_append]
  rfl

theorem listEvents_keys (st : EventStore β) (sessionId : String) :
    (st.listEvents sessionId).1.eventCache.entries.map Prod.fst =
      touch eventCacheMaxSessions (st.eventCache.entries.map Prod.fst) sessionId := by
  rw [listEvents_eq]
  dsimp only
  rw [setLatest_cache]
  refine (OrdMap.keys_touch _ _ _ _).trans ?_
  unfold getCachedEvents
  cases st.eventCache.get sessionId with
  | none => rfl
  | some cached =>
    -- the hit has moved the key to the end, from where the second use takes it again
    have hmoved : ((st.eventCache.erase sessionId).set sessionId cached).erase sessionId =
        st.eventCache.erase sessionId := by
      have hnone : sessionId ∉ (st.eventCache.erase sessionId).entries.map Prod.fst :=
        OrdMap.get_eq_none.mp (by rw [OrdMap.get_erase,if_pos rfl])
      have hset : ((st.eventCache.erase sessionId).set sessionId cached).entries =
          (st.eventCache.erase sessionId).entries ++ [(sessionId,cached)] := by
        unfold OrdMap.set
        exact if_neg hnone
      simp only [OrdMap.erase,OrdMap.filter,OrdMap.mk.injEq] at hset ⊢
      rw [hset,List.filter_append,List.filter_filter]
      simp
    have hkeys := OrdMap.keys_touch ((st.eventCache.erase sessionId).set sessionId cached)
      eventCacheMaxSessions sessionId cached
    rw [hmoved,OrdMap.keys_touch] at hkeys
    exact hkeys.symm

theorem evicted_by_listings (files : String → List (EventLine β)) {ids : List String}
    (hnodup : ids.Nodup) (hlength : ids.length = eventCacheMaxSessions) {s : String} (hs : s ∉ ids)
    (base : List (TimelineEntry β)) (tr : List (StoreEvent β)) (st : EventStore β) :
    ∃ tr' st', (eventMachine files).exec tr st (ids.map StoreInput.listEvents) = (tr',st') ∧
      sinceDeletion base s tr' = sinceDeletion base s tr ∧ Aside st st' s ∧
      st'.deletedSessions = st.deletedSessions ∧ st'.eventCache.get s = none := by
  have hrun : ∀ (ids : List String), s ∉ ids → ∀ (tr : List (StoreEvent β)) (st : EventStore β),
      ∃ tr' st', (eventMachine files).exec tr st (ids.map StoreInput.listEvents) = (tr',st') ∧
        sinceDeletion base s tr' = sinceDeletion base s tr ∧ Aside st st' s ∧
        st'.deletedSessions = st.deletedSessions ∧
        st'.eventCache.entries.map Prod.fst =
          ids.foldl (touch eventCacheMaxSessions) (st.eventCache.entries.map Prod.fst) := by
    intro ids
    induction ids with
    | nil => exact fun _ tr st => ⟨tr,st,rfl,rfl,Aside.refl st s,rfl,rfl⟩
    | cons id ids ih =>
      intro hmem tr st
      have hne : s ≠ id := fun heq => hmem (heq ▸ List.mem_cons_self)
      obtain ⟨tr',st',hexec,hsince,haside,hdeleted,hkeys⟩ :=
        ih (fun h => hmem (List.mem_cons_of_mem id h))
          (tr ++ [StoreEvent.listed id (st.listEvents id).2]) (st.listEvents id).1
      refine ⟨tr',st',hexec,?_,(listEvents_aside st id hne).trans haside,?_,?_⟩
      · rw [hsince,sinceDeletion_snoc]
      · rw [hdeleted,(listEvents_same st id).deleted]
      · rw [hkeys,listEvents_keys]
        rfl
  obtain ⟨tr',st',hexec,hsince,haside,hdeleted,hkeys⟩ := hrun ids hs tr st
  refine ⟨tr',st',hexec,hsince,haside,hdeleted,OrdMap.get_eq_none.mpr ?_⟩
  rw [hkeys,foldl_touch_eq (by decide) _ hnodup hlength]
  exact hs

end EventStore

namespace Sample

def crowd : List String :=
  (List.range eventCacheMaxSessions).map (fun n => String.ofList (List.replicate (n+1) 'a'))

theorem crowd_nodup : crowd.Nodup := by
  refine List.nodup_range.map ?_
  intro m n h
  have hlist := congrArg List.length (String.ofList_injective h)
  simpa using hlist

theorem crowd_length : crowd.length = eventCacheMaxSessions := by simp [crowd]

def store : Machine (EventStore Unit) (StoreInput Unit) (StoreEvent Unit) := eventMachine fun _ => []

end Sample

end CodeHarbor.Gateway
