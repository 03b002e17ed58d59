import CodeHarbor.Gateway.Events
set_option autoImplicit false

namespace CodeHarbor.Gateway
open Lib

variable {β : Type}

/-- Event files as a gateway leaves them: they read back in strictly increasing order. -/
structure EventFiles (β : Type) where
  lines : String → List (EventLine β)
  numbered : ∀ s, (readLines (lines s) s).Pairwise (fun a b => a.eventSeq < b.eventSeq)

namespace EventStore

/-- A listing of a session the cache has lost finds nothing left to do on its file, and one of a
session cached in part finds no more queued writes than the cached part holds. -/
def listsWhole (st : EventStore β) (s : String) : Prop :=
  match st.eventCache.get s with
  | none => st.idle s
  | some cached => cached.complete ∨ (st.queued s).length ≤ eventCacheMaxEntries

def cachedOrIdle (st : EventStore β) (s : String) : Prop :=
  (st.eventCache.get s).isSome ∨ st.idle s

/-- An append finds the session cached or its file settled and a counter that doubles can still
count on; a listing finds what it misses in the file or the cache; no write fails. -/
def readsWhole (st : EventStore β) : StoreInput β → Prop
  | .appendEvent s _ _ => st.cachedOrIdle s ∧ (st.currentSeq s).2.getD 0 < 2^53
  | .listEvents s | .listEventsAfter s _ | .listEventsAfterLimited s _ _ => st.listsWhole s
  | .latestCursors => ∀ s ∈ st.sessions, st.latestSeqBySession.get s = none → st.cachedOrIdle s
  | .fileJob _ _ succeeds => succeeds = true
  | .saveSession _ | .upsertSessions _ | .deleteSession _ => True

instance (st : EventStore β) (s : String) : Decidable (st.listsWhole s) :=
  match h : st.eventCache.get s with
  | none => decidable_of_iff (st.idle s = true) (by simp [listsWhole,h])
  | some cached =>
    decidable_of_iff (cached.complete = true ∨ (st.queued s).length ≤ eventCacheMaxEntries)
      (by simp [listsWhole,h])

instance (st : EventStore β) (s : String) : Decidable (st.cachedOrIdle s) :=
  inferInstanceAs (Decidable (_ ∨ _))

instance (st : EventStore β) : (i : StoreInput β) → Decidable (st.readsWhole i)
  | .appendEvent _ _ _ => inferInstanceAs (Decidable (_ ∧ _))
  | .listEvents s | .listEventsAfter s _ | .listEventsAfterLimited s _ _ =>
    inferInstanceAs (Decidable (st.listsWhole s))
  | .latestCursors => inferInstanceAs (Decidable (∀ s ∈ st.sessions, _ → _))
  | .fileJob _ _ succeeds => inferInstanceAs (Decidable (succeeds = true))
  | .saveSession _ | .upsertSessions _ | .deleteSession _ => inferInstanceAs (Decidable True)

/-- The jobs of a chain that only writes: perhaps the handler of a write that is on the file,
then the writes still to come. -/
def writeJobs (settling : Bool) (pending : List (TimelineEntry β)) : List (FileJob β) :=
  (if settling then [.settled] else []) ++ pending.flatMap (fun entry => [.append entry,.settled])

def onlyChain (jobs : List (FileJob β)) : List (WriteChain β) :=
  if jobs.isEmpty then [] else [⟨jobs,true⟩]

/-- The file lags behind the timeline by the queued writes, or it waits for its removal and the
timeline is empty. -/
inductive Pipeline (st : EventStore β) (s : String) (entries : List (TimelineEntry β)) : Prop where
  | writing (settling : Bool) (pending : List (TimelineEntry β)) :
      st.eventWriteChains s = onlyChain (writeJobs settling pending) →
      st.readEventsFromDisk s ++ pending = entries →
      (st.latestSeqBySession.get s = none → st.eventWriteChains s = []) →
      Pipeline st s entries
  | removing (writes : List (FileJob β)) (removals : Nat) (current : Bool) :
      FileJob.remove ∉ writes →
      st.eventWriteChains s = [⟨writes ++ List.replicate (removals+1) FileJob.remove,current⟩] →
      entries = [] → st.eventCache.get s = none → st.latestSeqBySession.get s = none →
      Pipeline st s entries

/-- The store has the whole timeline of a session, spread over cache, queue and file. -/
structure Whole (st : EventStore β) (s : String) (entries : List (TimelineEntry β)) : Prop where
  increasing : entries.Pairwise (fun a b => a.eventSeq < b.eventSeq)
  own : ∀ entry ∈ entries, entry.sessionId = s ∧ 0 < entry.eventSeq
  latest : ∀ n, st.latestSeqBySession.get s = some n → lastSeq entries = some n
  tail : ∀ cached, st.eventCache.get s = some cached →
    cached.entries = newest eventCacheMaxEntries entries ∧
      (cached.complete = true → cached.entries = entries)
  pipeline : Pipeline st s entries

theorem queued_onlyChain {st : EventStore β} {s : String} {settling : Bool}
    {pending : List (TimelineEntry β)}
    (h : st.eventWriteChains s = onlyChain (writeJobs settling pending)) :
    st.queued s = pending := by
  have hpending : ∀ pending : List (TimelineEntry β),
      (pending.flatMap (fun entry => [FileJob.append entry,.settled])).filterMap FileJob.line =
        pending := by
    intro pending
    induction pending with
    | nil => rfl
    | cons entry pending ih => exact congrArg (entry :: ·) ih
  have hjobs : (onlyChain (writeJobs settling pending)).flatMap WriteChain.jobs =
      writeJobs settling pending := by
    unfold onlyChain
    split_ifs with hempty
    · rw [List.isEmpty_iff.mp hempty]
      rfl
    · simp
  rw [queued,h,hjobs,writeJobs,List.filterMap_append,hpending]
  cases settling <;> rfl

theorem onlyChain_eq_nil {settling : Bool} {pending : List (TimelineEntry β)}
    (h : onlyChain (writeJobs settling pending) = []) : settling = false ∧ pending = [] := by
  unfold onlyChain at h
  split_ifs at h with hempty
  rw [List.isEmpty_iff,writeJobs,List.append_eq_nil_iff] at hempty
  refine ⟨by simpa using hempty.1,?_⟩
  cases pending with
  | nil => rfl
  | cons entry pending => simp at hempty

theorem eq_of_eventSeq_eq {entries : List (TimelineEntry β)}
    (h : entries.Pairwise (fun a b => a.eventSeq < b.eventSeq)) {a b : TimelineEntry β}
    (ha : a ∈ entries) (hb : b ∈ entries) (heq : a.eventSeq = b.eventSeq) : a = b := by
  have hnodup : (entries.map TimelineEntry.eventSeq).Nodup := by
    rw [List.nodup_iff_pairwise_ne,List.pairwise_map]
    exact h.imp Nat.ne_of_lt
  exact List.inj_on_of_nodup_map hnodup ha hb heq

theorem getLast?_filter_eventSeq {entries xs : List (TimelineEntry β)}
    (hsorted : entries.Pairwise (fun a b => a.eventSeq < b.eventSeq)) (hxs : xs ⊆ entries)
    {e : TimelineEntry β} (he : e ∈ entries) :
    (e ∈ xs → (xs.filter (·.eventSeq = e.eventSeq)).getLast? = some e) ∧
    (e ∉ xs → (xs.filter (·.eventSeq = e.eventSeq)).getLast? = none) := by
  have honly : ∀ x ∈ xs.filter (·.eventSeq = e.eventSeq), x = e := by
    intro x hx
    rw [List.mem_filter] at hx
    exact eq_of_eventSeq_eq hsorted (hxs hx.1) he (by simpa using hx.2)
  constructor
  · intro hmem
    have hfilter : e ∈ xs.filter (·.eventSeq = e.eventSeq) := List.mem_filter.mpr ⟨hmem,by simp⟩
    obtain ⟨x,hx⟩ := Option.isSome_iff_exists.mp
      (List.getLast?_isSome.mpr (List.ne_nil_of_mem hfilter))
    rw [hx,honly x (List.mem_of_getLast? hx)]
  · intro hmem
    rw [List.getLast?_eq_none_iff,List.eq_nil_iff_forall_not_mem]
    intro x hx
    exact hmem (honly x hx ▸ (List.mem_filter.mp hx).1)

theorem mem_mergeEvents_parts {diskEntries cachedEntries entries : List (TimelineEntry β)}
    (hsorted : entries.Pairwise (fun a b => a.eventSeq < b.eventSeq)) (hcached : cachedEntries ≠ [])
    (hparts : ∀ e, e ∈ entries ↔ e ∈ diskEntries ∨ e ∈ cachedEntries) (e : TimelineEntry β) :
    e ∈ mergeEvents diskEntries cachedEntries ↔ e ∈ entries := by
  rw [mem_mergeEvents hcached]
  constructor
  · intro h
    rw [hparts]
    rcases Option.or_eq_some_iff.mp h with h | ⟨-,h⟩
    · exact .inr (List.mem_filter.mp (List.mem_of_getLast? h)).1
    · exact .inl (List.mem_filter.mp (List.mem_of_getLast? h)).1
  · intro he
    have htail := getLast?_filter_eventSeq hsorted (fun x hx => (hparts x).mpr (.inr hx)) he
    have hdisk := getLast?_filter_eventSeq hsorted (fun x hx => (hparts x).mpr (.inl hx)) he
    by_cases hmem : e ∈ cachedEntries
    · rw [htail.1 hmem]
      rfl
    · have hfile : e ∈ diskEntries := ((hparts e).mp he).resolve_right hmem
      rw [htail.2 hmem,hdisk.1 hfile]
      rfl

theorem mergeEvents_whole {diskEntries pending entries : List (TimelineEntry β)} {n : Nat}
    (hn : 0 < n) (hentries : diskEntries ++ pending = entries)
    (hsorted : entries.Pairwise (fun a b => a.eventSeq < b.eventSeq)) (hpending : pending.length ≤ n) :
    mergeEvents diskEntries (newest n entries) = entries := by
  by_cases hcached : newest n entries = []
  · have hlength := length_newest n entries
    rw [hcached,List.length_nil] at hlength
    have hnil : entries = [] := List.length_eq_zero_iff.mp (by omega)
    rw [hnil,List.append_eq_nil_iff] at hentries
    rw [hnil,hentries.1]
    rfl
  · have hparts : ∀ e, e ∈ entries ↔ e ∈ diskEntries ∨ e ∈ newest n entries := by
      intro e
      constructor
      · intro he
        rw [← hentries] at he
        refine (List.mem_append.mp he).imp id ?_
        intro h
        exact (suffix_newest ⟨diskEntries,hentries⟩ hpending).subset h
      · rintro (h | h)
        · rw [← hentries]
          exact List.mem_append_left _ h
        · exact (newest_suffix n entries).subset h
    have hlt : (mergeEvents diskEntries (newest n entries)).Pairwise
        (fun a b => a.eventSeq < b.eventSeq) := by
      have hdisk := (List.pairwise_append.mp (hentries ▸ hsorted)).1.imp Nat.le_of_lt
      have hle := mergeEvents_sorted hdisk (newest n entries)
      have hnodup := mergeEvents_nodup diskEntries hcached
      rw [List.nodup_iff_pairwise_ne,List.pairwise_map] at hnodup
      exact (hle.and hnodup).imp fun h => Nat.lt_of_le_of_ne h.1 h.2
    have : Std.Irrefl (fun a b : TimelineEntry β => a.eventSeq < b.eventSeq) :=
      ⟨fun a => Nat.lt_irrefl a.eventSeq⟩
    have : Std.Antisymm (fun a b : TimelineEntry β => a.eventSeq < b.eventSeq) :=
      ⟨fun a b hab hba => absurd hab (Nat.lt_asymm hba)⟩
    exact hlt.eq_of_mem_iff hsorted (mem_mergeEvents_parts hsorted hcached hparts)

theorem renumber_snoc {sessionId : String} {fallbackSeq : Nat} {lines : List (β × Option Nat)}
    {body : β} {n : Nat} (hfallback : fallbackSeq < n)
    (hlt : ∀ entry ∈ renumber sessionId fallbackSeq lines, entry.eventSeq < n) :
    renumber sessionId fallbackSeq (lines ++ [(body,some n)]) =
      renumber sessionId fallbackSeq lines ++ [⟨sessionId,body,n⟩] := by
  induction lines generalizing fallbackSeq with
  | nil => simp [renumber,explicitOrNext,hfallback]
  | cons line rest ih =>
    have hhead := hlt _ List.mem_cons_self
    have hrest := ih hhead fun entry hentry => hlt entry (List.mem_cons_of_mem _ hentry)
    simp only [List.cons_append,renumber,hrest]

theorem readLines_snoc {lines : List (EventLine β)} {entry : TimelineEntry β}
    (hpos : 0 < entry.eventSeq)
    (hlt : ∀ e ∈ readLines lines entry.sessionId, e.eventSeq < entry.eventSeq) :
    readLines (lines ++ [entry.line]) entry.sessionId =
      readLines lines entry.sessionId ++ [entry] := by
  have hparse : (lines ++ [entry.line]).filterMap (EventLine.parse entry.sessionId) =
      lines.filterMap (EventLine.parse entry.sessionId) ++ [(entry.body,some entry.eventSeq)] := by
    simp [List.filterMap_append,TimelineEntry.line,EventLine.parse]
  rw [readLines,hparse]
  exact renumber_snoc hpos hlt

theorem mem_readLines {lines : List (EventLine β)} {s : String} {entry : TimelineEntry β}
    (h : entry ∈ readLines lines s) : entry.sessionId = s ∧ 0 < entry.eventSeq := by
  have hrenumber : ∀ (fallbackSeq : Nat) (xs : List (β × Option Nat)),
      entry ∈ renumber s fallbackSeq xs → entry.sessionId = s ∧ 0 < entry.eventSeq := by
    intro fallbackSeq xs
    induction xs generalizing fallbackSeq with
    | nil => simp [renumber]
    | cons line rest ih =>
      intro hmem
      rcases List.mem_cons.mp hmem with rfl | hrest
      · refine ⟨rfl,?_⟩
        have hsucc : 0 < jsSucc fallbackSeq := by
          unfold jsSucc
          split_ifs <;> omega
        simp only [explicitOrNext]
        split
        · split_ifs <;> omega
        · exact hsucc
      · exact ih _ hrest
  exact hrenumber 0 _ h

theorem Whole.aside {st st' : EventStore β} {s : String} {entries : List (TimelineEntry β)}
    (h : Whole st s entries) (ha : Aside st st' s) : Whole st' s entries where
  increasing := h.increasing
  own := h.own
  latest := by
    rw [ha.latest]
    exact h.latest
  tail := fun cached hget => h.tail cached (ha.cache cached hget)
  pipeline := by
    have hdisk : st'.readEventsFromDisk s = st.readEventsFromDisk s := by
      rw [readEventsFromDisk,ha.files]
      rfl
    cases h.pipeline with
    | writing settling pending hchains hentries hlatest =>
      refine .writing settling pending ?_ ?_ ?_
      · rw [ha.chains,hchains]
      · rw [hdisk,hentries]
      · rw [ha.latest,ha.chains]
        exact hlatest
    | removing writes removals current hwrites hchains hentries hcache hlatest =>
      refine .removing writes removals current hwrites ?_ hentries ?_ ?_
      · rw [ha.chains,hchains]
      · rw [Option.eq_none_iff_forall_ne_some] at hcache ⊢
        exact fun cached hget => hcache cached (ha.cache cached hget)
      · rw [ha.latest,hlatest]

theorem Whole.disk {st : EventStore β} {s : String} {entries : List (TimelineEntry β)}
    (h : Whole st s entries) (hidle : st.idle s) : st.readEventsFromDisk s = entries := by
  have hchains : st.eventWriteChains s = [] := List.isEmpty_iff.mp hidle
  cases h.pipeline with
  | writing settling pending hjobs hentries _ =>
    rw [hchains] at hjobs
    have hpending := (onlyChain_eq_nil hjobs.symm).2
    rw [← hentries,hpending,List.append_nil]
  | removing writes removals current _ hjobs _ _ _ =>
    rw [hchains] at hjobs
    cases hjobs

theorem Whole.timeline {st : EventStore β} {s : String} {entries : List (TimelineEntry β)}
    (h : Whole st s entries) (hlist : st.listsWhole s) : st.timeline s = entries := by
  unfold EventStore.timeline
  unfold listsWhole at hlist
  cases hc : st.eventCache.get s with
  | none =>
    rw [hc] at hlist
    exact h.disk hlist
  | some cached =>
    rw [hc] at hlist
    obtain ⟨htail,hcomplete⟩ := h.tail cached hc
    dsimp only at hlist ⊢
    split_ifs with hflag
    · exact hcomplete hflag
    · have hlength := hlist.resolve_left hflag
      cases h.pipeline with
      | writing settling pending hchains hentries _ =>
        rw [queued_onlyChain hchains] at hlength
        rw [htail]
        exact mergeEvents_whole (by decide) hentries h.increasing hlength
      | removing writes removals current _ _ _ hcache _ => simp [hcache] at hc

theorem Whole.listEvents {st : EventStore β} {s : String} {entries : List (TimelineEntry β)}
    (h : Whole st s entries) (hlist : st.listsWhole s) : Whole (st.listEvents s).1 s entries := by
  have htimeline := h.timeline hlist
  have hsame := listEvents_same st s
  refine ⟨h.increasing,h.own,?_,?_,?_⟩
  · intro n hn
    rw [listEvents_latest,if_pos rfl,htimeline] at hn
    rcases Option.or_eq_some_iff.mp hn with hlast | ⟨-,hold⟩
    · exact hlast
    · exact h.latest n hold
  · intro cached hget
    rw [listEvents_cache,htimeline] at hget
    cases hget
    refine ⟨rfl,?_⟩
    intro hcomplete
    simp only [Bool.and_eq_true,decide_eq_true_eq] at hcomplete
    exact newest_eq_self hcomplete.2
  · have hdisk : (st.listEvents s).1.readEventsFromDisk s = st.readEventsFromDisk s := by
      rw [readEventsFromDisk,hsame.files]
      rfl
    cases h.pipeline with
    | writing settling pending hchains hentries hlatest =>
      refine .writing settling pending ?_ ?_ ?_
      · rw [hsame.chains,hchains]
      · rw [hdisk,hentries]
      · intro hnone
        rw [listEvents_latest,if_pos rfl,Option.or_eq_none_iff] at hnone
        rw [hsame.chains]
        exact hlatest hnone.2
    | removing writes removals current _ hchains _ hcache _ =>
      -- a file that waits for its removal is neither cached nor settled
      exfalso
      simp [listsWhole,hcache,idle,hchains] at hlist

theorem Whole.idle_of_latest {st : EventStore β} {s : String} {entries : List (TimelineEntry β)}
    (h : Whole st s entries) (hlatest : st.latestSeqBySession.get s = none)
    (hready : st.cachedOrIdle s) : st.idle s := by
  cases h.pipeline with
  | writing settling pending _ _ hnone => exact List.isEmpty_iff.mpr (hnone hlatest)
  | removing writes removals current _ _ _ hcache _ =>
    refine hready.resolve_left ?_
    simp [hcache]

theorem listsWhole_of_idle {st : EventStore β} {s : String} (h : st.idle s) : st.listsWhole s := by
  unfold listsWhole
  cases st.eventCache.get s with
  | none => exact h
  | some cached =>
    have hchains : st.eventWriteChains s = [] := List.isEmpty_iff.mp h
    refine .inr ?_
    simp [queued,hchains]

theorem Whole.currentSeq {st : EventStore β} {s : String} {entries : List (TimelineEntry β)}
    (h : Whole st s entries) (hidle : st.latestSeqBySession.get s = none → st.idle s) :
    Whole (st.currentSeq s).1 s entries ∧ (st.currentSeq s).2 = lastSeq entries := by
  rcases currentSeq_cases st s with ⟨n,hn,hcur⟩ | ⟨hnone,hcur⟩
  · rw [hcur]
    exact ⟨h,(h.latest n hn).symm⟩
  · have hlist := listsWhole_of_idle (hidle hnone)
    rw [hcur,h.timeline hlist]
    exact ⟨h.listEvents hlist,rfl⟩

theorem Whole.latestCursors {st : EventStore β} {log : String → List (TimelineEntry β)}
    (h : ∀ s, Whole st s (log s))
    (hready : ∀ s ∈ st.sessions, st.latestSeqBySession.get s = none → st.cachedOrIdle s) (s : String) :
    Whole st.latestCursors.1 s (log s) := by
  have hfold : ∀ (ids : List String) (acc : EventStore β × List (String × Nat)),
      (∀ s, Whole acc.1 s (log s)) →
      (∀ id ∈ ids, acc.1.latestSeqBySession.get id = none → acc.1.idle id) →
      ∀ s, Whole (ids.foldl addCursor acc).1 s (log s) := by
    intro ids
    induction ids with
    | nil => exact fun _ hacc _ => hacc
    | cons id ids ih =>
      intro acc hacc hidle
      refine ih (addCursor acc id) ?_ ?_
      · intro s
        by_cases hs : s = id
        · subst hs
          exact ((hacc s).currentSeq (hidle s List.mem_cons_self)).1
        · exact (hacc s).aside (currentSeq_aside acc.1 id hs)
      · intro j hj hnone
        have hchains : (addCursor acc id).1.eventWriteChains = acc.1.eventWriteChains :=
          (currentSeq_same acc.1 id).chains
        rw [idle,hchains]
        refine hidle j (List.mem_cons_of_mem id hj) ?_
        rcases currentSeq_cases acc.1 id with ⟨n,-,hcur⟩ | ⟨-,hcur⟩
        · simpa [addCursor,hcur] using hnone
        · simp only [addCursor,hcur,listEvents_latest] at hnone
          split_ifs at hnone with hjid
          · exact (Option.or_eq_none_iff.mp hnone).2
          · exact hnone
  refine hfold st.sessions (st,[]) h ?_ s
  intro id hid hnone
  exact (h id).idle_of_latest hnone (hready id hid hnone)

theorem Whole.known {st : EventStore β} {s : String} {entries : List (TimelineEntry β)}
    (h : Whole st s entries) (hready : st.cachedOrIdle s) (entry : TimelineEntry β) :
    newest eventCacheMaxEntries (st.known s ++ [entry]) =
      newest eventCacheMaxEntries (entries ++ [entry]) ∧
    (st.cachedWhole s = true → st.known s = entries) := by
  unfold EventStore.known cachedWhole
  cases hc : st.eventCache.get s with
  | none =>
    have hidle : st.idle s := hready.resolve_left (by simp [hc])
    have hdisk := h.disk hidle
    exact ⟨by simp only [hdisk],fun _ => hdisk⟩
  | some cached =>
    obtain ⟨htail,hcomplete⟩ := h.tail cached hc
    refine ⟨?_,hcomplete⟩
    simp only [htail]
    exact newest_newest_snoc _ entries entry

theorem queueEventWrite_onlyChain {st : EventStore β} {s : String} {settling : Bool}
    {pending : List (TimelineEntry β)}
    (h : st.eventWriteChains s = onlyChain (writeJobs settling pending)) (entry : TimelineEntry β) :
    (st.queueEventWrite s entry).eventWriteChains s =
      onlyChain (writeJobs settling (pending ++ [entry])) := by
  have hjobs : writeJobs settling (pending ++ [entry]) =
      writeJobs settling pending ++ [.append entry,.settled] := by
    simp [writeJobs]
  simp only [queueEventWrite,Function.update_self,h,hjobs,onlyChain]
  by_cases hempty : (writeJobs settling pending).isEmpty = true
  · simp [List.isEmpty_iff.mp hempty]
  · simp [hempty]

theorem Whole.pushed {st st' : EventStore β} {entry : TimelineEntry β}
    {entries : List (TimelineEntry β)} (h : Whole st entry.sessionId entries)
    (hready : st.cachedOrIdle entry.sessionId) (hp : Pushed st st' entry)
    (hlt : ∀ old ∈ entries, old.eventSeq < entry.eventSeq) (hpos : 0 < entry.eventSeq) :
    Whole st' entry.sessionId (entries ++ [entry]) := by
  obtain ⟨htail,hwhole⟩ := h.known hready entry
  refine ⟨?_,?_,?_,?_,?_⟩
  · refine List.pairwise_append.mpr ⟨h.increasing,List.pairwise_singleton _ _,?_⟩
    intro old hold e he
    rw [List.mem_singleton.mp he]
    exact hlt old hold
  · intro e he
    rcases List.mem_append.mp he with he | he
    · exact h.own e he
    · rw [List.mem_singleton.mp he]
      exact ⟨rfl,hpos⟩
  · intro n hn
    rw [hp.latest] at hn
    rw [lastSeq_snoc,hn]
  · intro cached hget
    rw [hp.cache] at hget
    cases hget
    refine ⟨htail,?_⟩
    intro hcomplete
    simp only [Bool.and_eq_true,decide_eq_true_eq] at hcomplete
    dsimp only
    rw [newest_eq_self hcomplete.2,hwhole hcomplete.1]
  · cases h.pipeline with
    | writing settling pending hchains hentries _ =>
      refine .writing settling (pending ++ [entry]) ?_ ?_ ?_
      · rw [hp.chains]
        exact queueEventWrite_onlyChain hchains entry
      · rw [readEventsFromDisk,hp.files,← List.append_assoc,← hentries]
        rfl
      · rw [hp.latest]
        simp
    | removing writes removals current _ hchains _ hcache _ =>
      exfalso
      simp [cachedOrIdle,hcache,idle,hchains] at hready

theorem remove_not_mem_writeJobs (settling : Bool) (pending : List (TimelineEntry β)) :
    FileJob.remove ∉ writeJobs settling pending := by
  cases settling <;> simp [writeJobs]

theorem Whole.deleteSession {st : EventStore β} {s : String} {entries : List (TimelineEntry β)}
    (h : Whole st s entries) : Whole (st.deleteSession s) s [] := by
  have hlatest : (st.deleteSession s).latestSeqBySession.get s = none := by
    unfold EventStore.deleteSession
    dsimp only
    split_ifs
    all_goals exact (OrdMap.get_erase _ _ _).trans (if_pos rfl)
  have hcache : (st.deleteSession s).eventCache.get s = none := by
    unfold EventStore.deleteSession
    dsimp only
    split_ifs
    all_goals exact (OrdMap.get_erase _ _ _).trans (if_pos rfl)
  refine ⟨List.Pairwise.nil,by simp,by simp [hlatest],by simp [hcache],?_⟩
  cases h.pipeline with
  | writing settling pending hchains _ _ =>
    by_cases hempty : (writeJobs settling pending).isEmpty = true
    · have hnil : st.eventWriteChains s = [] := by rw [hchains,onlyChain,if_pos hempty]
      refine .writing false [] ?_ ?_ ?_
      · simp [EventStore.deleteSession,hnil,onlyChain,writeJobs]
      · simp [EventStore.deleteSession,hnil,readEventsFromDisk,readLines,renumber]
      · simp [EventStore.deleteSession,hnil]
    · refine .removing (writeJobs settling pending) 0 true (remove_not_mem_writeJobs _ _) ?_ rfl
        hcache hlatest
      simp [EventStore.deleteSession,hchains,onlyChain,hempty]
  | removing writes removals current hwrites hchains _ _ _ =>
    cases current with
    | true =>
      refine .removing writes (removals+1) true hwrites ?_ rfl hcache hlatest
      simp [EventStore.deleteSession,hchains,List.replicate_succ']
    | false =>
      refine .removing writes removals false hwrites ?_ rfl hcache hlatest
      simp [EventStore.deleteSession,hchains]

theorem replaceChain_singleton (chain chain' : WriteChain β) :
    replaceChain [chain] 0 chain' = if chain'.jobs.isEmpty then [] else [chain'] := by
  cases h : chain'.jobs.isEmpty <;> simp [replaceChain,h]

theorem Whole.writeJob {st : EventStore β} {s : String} {entries : List (TimelineEntry β)}
    (h : Whole st s entries) {settling : Bool} {pending : List (TimelineEntry β)}
    (hchains : st.eventWriteChains s = onlyChain (writeJobs settling pending))
    (hentries : st.readEventsFromDisk s ++ pending = entries)
    (hlatest : st.latestSeqBySession.get s = none → st.eventWriteChains s = []) (k : Nat) :
    Pipeline (st.runFileJob s k true) s entries := by
  by_cases hk : k = 0 ∧ (writeJobs settling pending) ≠ []
  · obtain ⟨rfl,hjobs⟩ := hk
    have hempty : (writeJobs settling pending).isEmpty = false := by simpa using hjobs
    have hone : st.eventWriteChains s = [⟨writeJobs settling pending,true⟩] := by
      rw [hchains,onlyChain,hempty]
      rfl
    have hsome : st.latestSeqBySession.get s ≠ none := by
      intro hnone
      rw [hlatest hnone] at hone
      cases hone
    cases settling with
    | true =>
      have hcons : writeJobs true pending = .settled :: writeJobs false pending := rfl
      refine .writing false pending ?_ ?_ ?_
      · simp only [runFileJob,hone,hcons,List.getElem?_cons_zero,Function.update_self,
          replaceChain_singleton,onlyChain]
        cases pending with
        | nil => rfl
        | cons entry pending => simp [writeJobs,FileJob.isAppend]
      · simp only [runFileJob,hone,hcons,List.getElem?_cons_zero]
        exact hentries
      · intro hnone
        simp only [runFileJob,hone,hcons,List.getElem?_cons_zero] at hnone
        exact absurd hnone hsome
    | false =>
      cases pending with
      | nil => simp [writeJobs] at hjobs
      | cons entry pending =>
        have hcons : writeJobs false (entry :: pending) = .append entry :: writeJobs true pending := rfl
        have hmem : entry ∈ entries := by simp [← hentries]
        have hlt : ∀ e ∈ st.readEventsFromDisk s, e.eventSeq < entry.eventSeq := by
          intro e he
          exact (List.pairwise_append.mp (hentries ▸ h.increasing)).2.2 e he entry List.mem_cons_self
        obtain ⟨rfl,hpos⟩ := h.own entry hmem
        refine .writing true pending ?_ ?_ ?_
        · simp only [runFileJob,hone,hcons,List.getElem?_cons_zero,Function.update_self,
            replaceChain_singleton,onlyChain]
        · simp only [runFileJob,hone,hcons,List.getElem?_cons_zero,readEventsFromDisk,
            Function.update_self,if_true]
          rw [readLines_snoc hpos hlt,← hentries,List.append_assoc]
          rfl
        · intro hnone
          simp only [runFileJob,hone,hcons,List.getElem?_cons_zero] at hnone
          exact absurd hnone hsome
  · have hnone : (st.eventWriteChains s)[k]? = none := by
      rw [hchains,onlyChain]
      split_ifs with hempty
      · rfl
      · have hpos : k ≠ 0 := fun hzero => hk ⟨hzero,by simpa using hempty⟩
        simpa using hpos
    have hsame : st.runFileJob s k true = st := by
      unfold runFileJob
      simp only [hnone]
    rw [hsame]
    exact .writing settling pending hchains hentries hlatest

theorem Pipeline.removeJob {st : EventStore β} {s : String} {writes : List (FileJob β)}
    {removals : Nat} {current : Bool} (hwrites : FileJob.remove ∉ writes)
    (hchains : st.eventWriteChains s = [⟨writes ++ List.replicate (removals+1) FileJob.remove,current⟩])
    (hcache : st.eventCache.get s = none) (hlatest : st.latestSeqBySession.get s = none) (k : Nat) :
    Pipeline (st.runFileJob s k true) s [] := by
  by_cases hk : k = 0
  · subst hk
    cases writes with
    | nil =>
      cases removals with
      | zero =>
        refine .writing false [] ?_ ?_ ?_
        · simp [runFileJob,hchains,replaceChain,onlyChain,writeJobs]
        · simp [runFileJob,hchains,readEventsFromDisk,readLines,renumber]
        · simp [runFileJob,hchains,replaceChain]
      | succ removals =>
        refine .removing [] removals false (by simp) ?_ rfl ?_ ?_
        · simp [runFileJob,hchains,List.replicate_succ,replaceChain]
        · simpa [runFileJob,hchains,List.replicate_succ] using hcache
        · simpa [runFileJob,hchains,List.replicate_succ] using hlatest
    | cons job writes =>
      have hrest : FileJob.remove ∉ writes := fun hmem => hwrites (List.mem_cons_of_mem job hmem)
      cases job with
      | append entry =>
        refine .removing writes removals current hrest ?_ rfl ?_ ?_
        · simp [runFileJob,hchains,replaceChain,List.replicate_succ]
        · simpa [runFileJob,hchains] using hcache
        · simpa [runFileJob,hchains] using hlatest
      | settled =>
        refine .removing writes removals
          (current && (writes ++ List.replicate (removals+1) FileJob.remove).any FileJob.isAppend)
          hrest ?_ rfl ?_ ?_
        · simp only [runFileJob,hchains,List.cons_append,List.getElem?_cons_zero,
            Function.update_self,replaceChain_singleton]
          exact if_neg (by simp [List.replicate_succ])
        · simpa [runFileJob,hchains] using hcache
        · simpa [runFileJob,hchains] using hlatest
      | remove => simp at hwrites
  · have hsame : st.runFileJob s k true = st := by
      have hnone : (st.eventWriteChains s)[k]? = none := by simpa [hchains] using hk
      unfold runFileJob
      simp only [hnone]
    rw [hsame]
    exact .removing writes removals current hwrites hchains rfl hcache hlatest

theorem runFileJob_memory (st : EventStore β) (s : String) (k : Nat) (succeeds : Bool) :
    (st.runFileJob s k succeeds).latestSeqBySession = st.latestSeqBySession ∧
      (st.runFileJob s k succeeds).eventCache = st.eventCache := by
  unfold runFileJob
  dsimp only
  split
  · exact ⟨rfl,rfl⟩
  · split <;> exact ⟨rfl,rfl⟩

theorem Whole.runFileJob {st : EventStore β} {s : String} {entries : List (TimelineEntry β)}
    (h : Whole st s entries) (sessionId : String) (k : Nat) :
    Whole (st.runFileJob sessionId k true) s entries := by
  by_cases hs : s = sessionId
  · subst hs
    obtain ⟨hlatest,hcache⟩ := runFileJob_memory st s k true
    refine ⟨h.increasing,h.own,?_,?_,?_⟩
    · rw [hlatest]
      exact h.latest
    · rw [hcache]
      exact h.tail
    · cases h.pipeline with
      | writing settling pending hchains hentries hnone =>
        exact h.writeJob hchains hentries hnone k
      | removing writes removals current hwrites hchains hentries hcached hcounter =>
        rw [hentries]
        exact Pipeline.removeJob hwrites hchains hcached hcounter k
  · exact h.aside (runFileJob_aside st hs k true)

theorem cachedOrIdle_currentSeq {st : EventStore β} {s : String} (h : st.cachedOrIdle s) :
    (st.currentSeq s).1.cachedOrIdle s := by
  rcases currentSeq_cases st s with ⟨n,-,hcur⟩ | ⟨-,hcur⟩
  · rw [hcur]
    exact h
  · rw [hcur]
    refine .inl ?_
    dsimp only
    rw [listEvents_cache]
    rfl

theorem Whole.appendEvent {base : String → List (TimelineEntry β)} {tr : List (StoreEvent β)}
    {st : EventStore β} (h : ∀ s, Whole st s (sinceDeletion (base s) s tr)) (sessionId : String)
    (body : β) (suppliedSeq : Option Int) (hready : st.cachedOrIdle sessionId)
    (hcount : (st.currentSeq sessionId).2.getD 0 < 2^53) (s : String) :
    Whole (st.appendEvent sessionId body suppliedSeq).1 s (sinceDeletion (base s) s
      (tr ++ (st.appendEvent sessionId body suppliedSeq).2.toList.map StoreEvent.appended)) := by
  rcases appendEvent_cases st sessionId body suppliedSeq with hrefused | ⟨st',entry,heq,hid,hseq,hp⟩
  · rw [hrefused]
    simpa using h s
  · rw [heq]
    subst hid
    simp only [Option.toList_some,List.map_cons,List.map_nil,sinceDeletion_snoc]
    obtain ⟨hcurrent,hlast⟩ := (h entry.sessionId).currentSeq fun hnone =>
      (h entry.sessionId).idle_of_latest hnone hready
    have hnext := lt_nextSeq hcount suppliedSeq
    rw [← hseq] at hnext
    have hlt : ∀ old ∈ sinceDeletion (base entry.sessionId) entry.sessionId tr,
        old.eventSeq < entry.eventSeq := by
      intro old hold
      obtain ⟨m,hm,hle⟩ := exists_lastSeq (hcurrent.increasing.imp Nat.le_of_lt) hold
      rw [hlast,hm] at hnext
      exact Nat.lt_of_le_of_lt hle hnext
    split_ifs with hs
    · subst hs
      exact hcurrent.pushed (cachedOrIdle_currentSeq hready) hp hlt (Nat.zero_lt_of_lt hnext)
    · have haside : Aside st st' s :=
        (currentSeq_aside st entry.sessionId (Ne.symm hs)).trans (hp.aside s (Ne.symm hs))
      exact (h s).aside haside

theorem Whole.next {base : String → List (TimelineEntry β)} {tr : List (StoreEvent β)}
    {st : EventStore β} (h : ∀ s, Whole st s (sinceDeletion (base s) s tr)) {i : StoreInput β}
    (hok : st.readsWhole i) (s : String) :
    Whole (st.step i).1 s (sinceDeletion (base s) s (tr ++ (st.step i).2)) := by
  have hlist : ∀ sessionId, st.listsWhole sessionId →
      Whole (st.listEvents sessionId).1 s (sinceDeletion (base s) s tr) := by
    intro sessionId hwhole
    by_cases hs : s = sessionId
    · subst hs
      exact (h s).listEvents hwhole
    · exact (h s).aside (listEvents_aside st sessionId hs)
  cases i with
  | appendEvent sessionId body eventSeq =>
    exact Whole.appendEvent h sessionId body eventSeq hok.1 hok.2 s
  | listEvents sessionId =>
    rw [EventStore.step,sinceDeletion_snoc]
    exact hlist sessionId hok
  | listEventsAfter sessionId cursor =>
    rw [EventStore.step,List.append_nil]
    exact hlist sessionId hok
  | listEventsAfterLimited sessionId cursor limit =>
    rw [EventStore.step,List.append_nil]
    exact hlist sessionId hok
  | latestCursors =>
    rw [EventStore.step,List.append_nil]
    exact Whole.latestCursors h hok s
  | saveSession sessionId =>
    rw [EventStore.step,List.append_nil]
    exact (h s).aside ⟨rfl,fun _ hget => hget,rfl,rfl⟩
  | upsertSessions sessionIds =>
    rw [EventStore.step,List.append_nil]
    exact (h s).aside ⟨rfl,fun _ hget => hget,rfl,rfl⟩
  | deleteSession sessionId =>
    rw [EventStore.step,sinceDeletion_snoc]
    dsimp only
    split_ifs with hs
    · subst hs
      exact (h sessionId).deleteSession
    · exact (h s).aside (deleteSession_aside st (Ne.symm hs))
  | fileJob sessionId chain succeeds =>
    rw [EventStore.step,List.append_nil]
    cases hok
    exact (h s).runFileJob sessionId chain

theorem Whole.start (files : EventFiles β) (s : String) :
    Whole (EventStore.start files.lines) s (readLines (files.lines s) s) where
  increasing := files.numbered s
  own := fun _ hentry => mem_readLines hentry
  latest := by simp [EventStore.start]
  tail := by simp [EventStore.start]
  pipeline := .writing false [] rfl (by simp [EventStore.start,readEventsFromDisk]) (fun _ => rfl)

end EventStore

/-- The listing returns what was on the file at the start and has been appended since, or what
has been appended since the last deletion. -/
def listsTimeline (files : EventFiles β) (before : List (StoreEvent β)) : StoreEvent β → Prop
  | .listed s entries => entries = EventStore.sinceDeletion (readLines (files.lines s) s) s before
  | .appended _ | .deleted _ => True

/-- The file of an older gateway, with a line that lost its number and one that is no JSON. -/
def Sample.oldFiles : EventFiles Unit where
  lines := fun s => if s = "s" then [.entry "s" () (some 3),.corrupt,.entry "s" () none] else []
  numbered := by
    intro s
    split_ifs with hs
    · subst hs
      decide
    · exact List.Pairwise.nil

def Sample.noFiles : EventFiles Unit := ⟨fun _ => [],fun _ => List.Pairwise.nil⟩

end CodeHarbor.Gateway
