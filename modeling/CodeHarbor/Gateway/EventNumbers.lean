import CodeHarbor.Gateway.Events
set_option autoImplicit false

namespace CodeHarbor.Gateway
open Lib

variable {β : Type}

namespace EventStore

/-- A listing takes the session's counter back to its file only where the cache has lost the
session; then no write of it may still be queued. -/
def listsAllWritten (st : EventStore β) (s : String) : Prop :=
  (st.latestSeqBySession.get s).isNone ∨ (st.eventCache.get s).isSome ∨ (st.queued s).isEmpty

/-- An append finds no removal of the file outstanding and a counter that doubles can still
count on; a listing finds all writes done or the session cached; no write fails. -/
def countsOn (st : EventStore β) : StoreInput β → Prop
  | .appendEvent s _ _ => ¬st.removing s ∧ (st.currentSeq s).2.getD 0 < 2^53
  | .listEvents s | .listEventsAfter s _ | .listEventsAfterLimited s _ _ => st.listsAllWritten s
  | .fileJob _ _ succeeds => succeeds = true
  | .latestCursors | .saveSession _ | .upsertSessions _ | .deleteSession _ => True

instance (st : EventStore β) (s : String) : Decidable (st.listsAllWritten s) :=
  inferInstanceAs (Decidable (_ ∨ _))

instance [DecidableEq β] (st : EventStore β) : (i : StoreInput β) → Decidable (st.countsOn i)
  | .appendEvent _ _ _ => inferInstanceAs (Decidable (_ ∧ _))
  | .listEvents s | .listEventsAfter s _ | .listEventsAfterLimited s _ _ =>
    inferInstanceAs (Decidable (st.listsAllWritten s))
  | .fileJob _ _ succeeds => inferInstanceAs (Decidable (succeeds = true))
  | .latestCursors | .saveSession _ | .upsertSessions _ | .deleteSession _ =>
    inferInstanceAs (Decidable True)

/-- The number of an appended entry is safe: the counter and the cached tail are not below
it, and the entry is on the file or queued, with no removal outstanding. -/
structure Counted (st : EventStore β) (entry : TimelineEntry β) : Prop where
  counter : ∃ m, st.latestSeqBySession.get entry.sessionId = some m ∧ entry.eventSeq ≤ m
  cached : ∀ cached, st.eventCache.get entry.sessionId = some cached →
    ∃ m, lastSeq cached.entries = some m ∧ entry.eventSeq ≤ m
  kept : ¬st.removing entry.sessionId
  stored : entry.line ∈ st.files entry.sessionId ∨ entry ∈ st.queued entry.sessionId

theorem Counted.aside {st st' : EventStore β} {entry : TimelineEntry β} (h : Counted st entry)
    (ha : Aside st st' entry.sessionId) : Counted st' entry where
  counter := by
    rw [ha.latest]
    exact h.counter
  cached := fun cached hget => h.cached cached (ha.cache cached hget)
  kept := by
    rw [removing,ha.chains]
    exact h.kept
  stored := by
    rw [queued,ha.files,ha.chains]
    exact h.stored

theorem Counted.timeline {st : EventStore β} {entry : TimelineEntry β} (h : Counted st entry)
    (hlist : st.listsAllWritten entry.sessionId) :
    ∃ m, lastSeq (st.timeline entry.sessionId) = some m ∧ entry.eventSeq ≤ m := by
  unfold EventStore.timeline
  cases hc : st.eventCache.get entry.sessionId with
  | some cached =>
    obtain ⟨m,hlast,hle⟩ := h.cached cached hc
    dsimp only
    split_ifs
    · exact ⟨m,hlast,hle⟩
    · obtain ⟨e,he,heq⟩ : ∃ e, cached.entries.getLast? = some e ∧ e.eventSeq = m := by
        simpa [lastSeq] using hlast
      obtain ⟨e',he',hseq⟩ := exists_mergeEvents (List.mem_of_getLast? he)
      obtain ⟨m',hm',hle'⟩ := exists_lastSeq
        (mergeEvents_sorted (renumber_sorted _ _ _) cached.entries) he'
      refine ⟨m',hm',?_⟩
      omega
  | none =>
    obtain ⟨m,hm,-⟩ := h.counter
    have hqueue : st.queued entry.sessionId = [] := by
      simpa [listsAllWritten,hm,hc] using hlist
    rcases h.stored with hfile | hq
    · exact exists_lastSeq_readLines hfile
    · simp [hqueue] at hq

theorem Counted.listEvents {st : EventStore β} {entry : TimelineEntry β} (h : Counted st entry)
    {s : String} (hlist : st.listsAllWritten s) : Counted (st.listEvents s).1 entry := by
  by_cases hs : entry.sessionId = s
  · subst hs
    have hsame := listEvents_same st entry.sessionId
    obtain ⟨m,hm,hle⟩ := h.timeline hlist
    refine ⟨⟨m,?_,hle⟩,?_,?_,?_⟩
    · rw [listEvents_latest,if_pos rfl,hm]
      rfl
    · intro cached hget
      rw [listEvents_cache] at hget
      cases hget
      exact ⟨m,(lastSeq_newest (by decide) _).trans hm,hle⟩
    · rw [removing,hsame.chains]
      exact h.kept
    · rw [queued,hsame.files,hsame.chains]
      exact h.stored
  · exact h.aside (listEvents_aside st s hs)

/-- With a number assigned the counter is on the map, so asking for it lists nothing. -/
theorem Counted.currentSeq {st : EventStore β} {entry : TimelineEntry β} (h : Counted st entry)
    (s : String) : Counted (st.currentSeq s).1 entry := by
  rcases currentSeq_cases st s with ⟨n,-,hcur⟩ | ⟨hnone,hcur⟩
  · rw [hcur]
    exact h
  · rw [hcur]
    refine h.listEvents ?_
    simp [listsAllWritten,hnone]

theorem Counted.latestCursors {st : EventStore β} {entry : TimelineEntry β} (h : Counted st entry) :
    Counted st.latestCursors.1 entry := by
  have hfold : ∀ (ids : List String) (acc : EventStore β × List (String × Nat)),
      Counted acc.1 entry → Counted (ids.foldl addCursor acc).1 entry := by
    intro ids
    induction ids with
    | nil => exact fun _ h => h
    | cons id ids ih =>
      intro acc hacc
      exact ih _ (hacc.currentSeq id)
  exact hfold _ _ h

theorem Counted.runFileJob {st : EventStore β} {entry : TimelineEntry β} (h : Counted st entry)
    (s : String) (k : Nat) : Counted (st.runFileJob s k true) entry := by
  by_cases hs : entry.sessionId = s
  · subst hs
    unfold EventStore.runFileJob
    dsimp only
    split
    · exact h
    · rename_i chain hchain
      split
      · exact h
      · rename_i e rest hjobs
        have hmem := mem_replaceChain { chain with jobs := rest } hchain hjobs
        refine ⟨h.counter,h.cached,?_,?_⟩
        · intro hrem
          simp only [removing,Function.update_self] at hrem
          exact h.kept ((hmem _).mpr (.inr hrem))
        · simp only [queued,Function.update_self,if_true,List.mem_append,List.mem_singleton]
          rcases h.stored with hfile | hq
          · exact .inl (.inl hfile)
          · simp only [queued,List.mem_filterMap] at hq ⊢
            obtain ⟨job,hjob,heq⟩ := hq
            rcases (hmem job).mp hjob with rfl | hrest
            · simp only [FileJob.line,Option.some.injEq] at heq
              exact .inl (.inr (by rw [heq]))
            · exact .inr ⟨job,hrest,heq⟩
      · rename_i rest hjobs
        have hmem := mem_replaceChain ⟨rest,chain.current && rest.any FileJob.isAppend⟩
          hchain hjobs
        refine ⟨h.counter,h.cached,?_,?_⟩
        · intro hrem
          simp only [removing,Function.update_self] at hrem
          exact h.kept ((hmem _).mpr (.inr hrem))
        · simp only [queued,Function.update_self]
          rcases h.stored with hfile | hq
          · exact .inl hfile
          · simp only [queued,List.mem_filterMap] at hq ⊢
            obtain ⟨job,hjob,heq⟩ := hq
            rcases (hmem job).mp hjob with rfl | hrest
            · simp [FileJob.line] at heq
            · exact .inr ⟨job,hrest,heq⟩
      · rename_i rest hjobs
        have hrem : st.removing entry.sessionId :=
          (mem_replaceChain ⟨rest,false⟩ hchain hjobs _).mpr (.inl rfl)
        exact absurd hrem h.kept
  · exact h.aside (runFileJob_aside st hs k true)

theorem Counted.pushed {st st' : EventStore β} {old entry : TimelineEntry β} (h : Counted st old)
    (hp : Pushed st st' entry) (hle : old.sessionId = entry.sessionId → old.eventSeq ≤ entry.eventSeq) :
    Counted st' old := by
  by_cases hs : old.sessionId = entry.sessionId
  · have hmem := mem_queueEventWrite st entry.sessionId entry
    refine ⟨⟨entry.eventSeq,hs ▸ hp.latest,hle hs⟩,?_,?_,?_⟩
    · intro cached hget
      rw [hs,hp.cache] at hget
      cases hget
      refine ⟨entry.eventSeq,?_,hle hs⟩
      rw [lastSeq_newest (by decide),lastSeq_snoc]
    · intro hrem
      rw [removing,hs,hp.chains,hmem] at hrem
      refine h.kept ?_
      rw [removing,hs]
      simpa using hrem
    · rw [hs,hp.files,← hs]
      refine h.stored.imp id ?_
      intro hq
      simp only [queued,List.mem_filterMap] at hq ⊢
      obtain ⟨job,hjob,heq⟩ := hq
      refine ⟨job,?_,heq⟩
      rw [hs] at hjob ⊢
      rw [hp.chains,hmem]
      exact .inl hjob
  · exact h.aside (hp.aside old.sessionId hs)

theorem Pushed.counted {st st' : EventStore β} {entry : TimelineEntry β} (hp : Pushed st st' entry)
    (hrem : ¬st.removing entry.sessionId) : Counted st' entry where
  counter := ⟨entry.eventSeq,hp.latest,le_rfl⟩
  cached := by
    intro cached hget
    rw [hp.cache] at hget
    cases hget
    refine ⟨entry.eventSeq,?_,le_rfl⟩
    rw [lastSeq_newest (by decide),lastSeq_snoc]
  kept := by
    rw [removing,hp.chains,mem_queueEventWrite]
    simpa [removing] using hrem
  stored := by
    refine .inr (List.mem_filterMap.mpr ⟨.append entry,?_,rfl⟩)
    rw [hp.chains,mem_queueEventWrite]
    exact .inr (.inl rfl)

/-- The numbers of a session's entries grow, and every one of them is safe. -/
structure Numbered (st : EventStore β) (s : String) (entries : List (TimelineEntry β)) : Prop where
  increasing : entries.Pairwise (fun a b => a.eventSeq < b.eventSeq)
  own : ∀ entry ∈ entries, entry.sessionId = s
  counted : ∀ entry ∈ entries, Counted st entry

theorem Numbered.nil (st : EventStore β) (s : String) : Numbered st s [] :=
  ⟨List.Pairwise.nil,by simp,by simp⟩

theorem Numbered.step {st st' : EventStore β} {s : String} {entries : List (TimelineEntry β)}
    (h : Numbered st s entries) (hstep : ∀ entry ∈ entries, Counted st entry → Counted st' entry) :
    Numbered st' s entries where
  increasing := h.increasing
  own := h.own
  counted := fun entry hentry => hstep entry hentry (h.counted entry hentry)

theorem Numbered.snoc {st : EventStore β} {entries : List (TimelineEntry β)}
    {entry : TimelineEntry β} (h : Numbered st entry.sessionId entries) (hentry : Counted st entry)
    (hlt : ∀ old ∈ entries, old.eventSeq < entry.eventSeq) :
    Numbered st entry.sessionId (entries ++ [entry]) where
  increasing := by
    refine List.pairwise_append.mpr ⟨h.increasing,List.pairwise_singleton _ _,?_⟩
    intro old hold e he
    rw [List.mem_singleton.mp he]
    exact hlt old hold
  own := by
    intro e he
    rcases List.mem_append.mp he with he | he
    · exact h.own e he
    · rw [List.mem_singleton.mp he]
  counted := by
    intro e he
    rcases List.mem_append.mp he with he | he
    · exact h.counted e he
    · rw [List.mem_singleton.mp he]
      exact hentry

theorem Numbered.lt_next {st : EventStore β} {s : String} {entries : List (TimelineEntry β)}
    (h : Numbered st s entries) (hcount : (st.currentSeq s).2.getD 0 < 2^53)
    (suppliedSeq : Option Int) :
    ∀ old ∈ entries, old.eventSeq < nextSeq ((st.currentSeq s).2.getD 0) suppliedSeq := by
  intro old hold
  obtain ⟨m,hm,hle⟩ := (h.counted old hold).counter
  rw [h.own old hold] at hm
  have hcur : (st.currentSeq s).2.getD 0 = m := by simp [EventStore.currentSeq,hm]
  rw [hcur] at hcount ⊢
  have hnext := lt_nextSeq hcount suppliedSeq
  omega

theorem Numbered.appendEvent {tr : List (StoreEvent β)} {st : EventStore β}
    (h : ∀ s, Numbered st s (sinceDeletion [] s tr)) (sessionId : String) (body : β)
    (suppliedSeq : Option Int) (hrem : ¬st.removing sessionId)
    (hcount : (st.currentSeq sessionId).2.getD 0 < 2^53) (s : String) :
    Numbered (st.appendEvent sessionId body suppliedSeq).1 s (sinceDeletion [] s
      (tr ++ (st.appendEvent sessionId body suppliedSeq).2.toList.map StoreEvent.appended)) := by
  rcases appendEvent_cases st sessionId body suppliedSeq with hrefused | ⟨st',entry,heq,hid,hseq,hp⟩
  · rw [hrefused]
    simpa using h s
  · rw [heq]
    subst hid
    simp only [Option.toList_some,List.map_cons,List.map_nil,sinceDeletion_snoc]
    have hlt : ∀ old ∈ sinceDeletion [] entry.sessionId tr, old.eventSeq < entry.eventSeq := by
      rw [hseq]
      exact (h entry.sessionId).lt_next hcount suppliedSeq
    have hold : Numbered st' s (sinceDeletion [] s tr) := by
      refine (h s).step ?_
      intro old hmem hcounted
      refine (hcounted.currentSeq entry.sessionId).pushed hp ?_
      intro hs
      rw [← (h s).own old hmem,hs] at hmem
      exact (hlt old hmem).le
    have hrem' : ¬(st.currentSeq entry.sessionId).1.removing entry.sessionId := by
      rw [removing,(currentSeq_same st entry.sessionId).chains]
      exact hrem
    split_ifs with hs
    · subst hs
      exact hold.snoc (hp.counted hrem') hlt
    · exact hold

theorem Numbered.next {tr : List (StoreEvent β)} {st : EventStore β}
    (h : ∀ s, Numbered st s (sinceDeletion [] s tr)) {i : StoreInput β} (hok : st.countsOn i)
    (s : String) : Numbered (st.step i).1 s (sinceDeletion [] s (tr ++ (st.step i).2)) := by
  have haside : ∀ {st' : EventStore β}, (∀ id, Aside st st' id) →
      Numbered st' s (sinceDeletion [] s tr) := by
    intro st' ha
    exact (h s).step fun entry _ hcounted => hcounted.aside (ha entry.sessionId)
  cases i with
  | appendEvent sessionId body eventSeq =>
    exact Numbered.appendEvent h sessionId body eventSeq hok.1 hok.2 s
  | listEvents sessionId =>
    rw [EventStore.step,sinceDeletion_snoc]
    exact (h s).step fun _ _ hcounted => hcounted.listEvents hok
  | listEventsAfter sessionId cursor =>
    rw [EventStore.step,List.append_nil]
    exact (h s).step fun _ _ hcounted => hcounted.listEvents hok
  | listEventsAfterLimited sessionId cursor limit =>
    rw [EventStore.step,List.append_nil]
    exact (h s).step fun _ _ hcounted => hcounted.listEvents hok
  | latestCursors =>
    rw [EventStore.step,List.append_nil]
    exact (h s).step fun _ _ hcounted => hcounted.latestCursors
  | saveSession sessionId =>
    rw [EventStore.step,List.append_nil]
    exact haside fun _ => ⟨rfl,fun _ hget => hget,rfl,rfl⟩
  | upsertSessions sessionIds =>
    rw [EventStore.step,List.append_nil]
    exact haside fun _ => ⟨rfl,fun _ hget => hget,rfl,rfl⟩
  | deleteSession sessionId =>
    rw [EventStore.step,sinceDeletion_snoc]
    dsimp only
    split_ifs with hs
    · exact Numbered.nil _ s
    · refine (h s).step ?_
      intro entry hentry hcounted
      refine hcounted.aside (deleteSession_aside st ?_)
      rw [(h s).own entry hentry]
      exact fun heq => hs heq.symm
  | fileJob sessionId chain succeeds =>
    rw [EventStore.step,List.append_nil]
    cases hok
    exact (h s).step fun _ _ hcounted => hcounted.runFileJob sessionId chain

end EventStore

end CodeHarbor.Gateway
