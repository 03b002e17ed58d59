import CodeHarbor.Gateway.Effects
set_option autoImplicit false

namespace CodeHarbor.Gateway
open Lib Bridge

def GatewayEvent.remembers (s : String) : GatewayEvent → Option RequestId
  | .remembered id q _ => if id = s then some q else none
  | _ => none

/-- The other request ids remembered for the session. -/
def others (s : String) (r : RequestId) (es : List GatewayEvent) : Finset RequestId :=
  (es.filterMap (GatewayEvent.remembers s)).toFinset.erase r

/-- An acceptance of the request follows an earlier one only after too many other ids. -/
def Once (s : String) (r : RequestId) (pre : List GatewayEvent) (e : GatewayEvent) : Prop :=
  e = .remembered s r true → ∀ before after, pre = before ++ GatewayEvent.remembered s r true :: after →
    maxRecentClientRequests ≤ (others s r after).card

/-- A turn request is accepted once, and answered as a duplicate from then on, as long as
fewer than 128 other ids were remembered for its session since. -/
structure Idempotent (s : String) (r : RequestId) (tr : List GatewayEvent) (g : Server) : Prop where
  once : Traced (Once s r) tr
  answered : ∀ before after, tr = before ++ GatewayEvent.remembered s r true :: after →
    (others s r after).card < maxRecentClientRequests →
    ∀ now mode confirmed, fullAccessConfirmationRequired mode confirmed (g.store.mode s) = false →
      g.postTurns now s r mode confirmed = (g,[.duplicate s r])

def advance (s : String) (r : RequestId) (since : Option (Finset RequestId)) :
    GatewayEvent → Option (Finset RequestId)
  | .remembered id q newTurn =>
    if id = s then
      if q = r then if newTurn then some ∅ else since else since.map (insert q)
    else since
  | _ => since

/-- The ids remembered for the session since it last accepted the request, and `none` when
it never did or when there are too many of them. -/
def window (s : String) (r : RequestId) (tr : List GatewayEvent) : Option (Finset RequestId) :=
  (tr.foldl (advance s r) none).filter (·.card < maxRecentClientRequests)

/-- The ledger has the request, followed only by ids remembered since. -/
def Keeps (r : RequestId) (since : Finset RequestId) (ids : List RequestId) : Prop :=
  r ∈ ids ∧ ∀ q ∈ (ids.dropWhile (· ≠ r)).tail, q ∈ since

instance (r : RequestId) (since : Finset RequestId) (ids : List RequestId) :
    Decidable (Keeps r since ids) := inferInstanceAs (Decidable (_ ∧ _))

namespace Server

def writesBack (g : Server) (o : Outcome) : Task → Option GatewaySession
  | .patchAudit session => if o.ok ∧ ¬ g.ignores session then some session else none
  | .interruptContext id session => interruptBase o id session
  | _ => none

/-- The thread whose record a continuation writes anew. -/
def creates (g : Server) (o : Outcome) : Task → Option String
  | .createThread _ _ _ => (startedThread o).filter (· ∉ g.turnGate)
  | _ => none

end Server

/-- The request is accepted only while the stored record has no ledger, the record is not
replaced, and a copy of it is written back only if it was read since the acceptance. -/
def keepsLedger (s : String) (r : RequestId) (tr : List GatewayEvent) (g : Server) : Input → Bool
  | .request _ (.postTurns id q _ _) =>
    id = s ∧ q = some r ∧ s ∉ g.turnGate ∧ g.store.hasClientRequest s r = false →
      g.store.recent s = none
  | .request _ (.deleteSession id) => id = s → window s r tr = none
  | .request _ _ => true
  | .proceed _ k o =>
    match g.tasks[k]? with
    | none => true
    | some task =>
      (g.creates o task = some s → window s r tr = none) ∧
      (∀ copy ∈ g.writesBack o task, copy.id = s → ∀ ids ∈ copy.recentClientRequestIds,
        ∀ since ∈ window s r tr, Keeps r since ids)

section ledgers

variable {r : RequestId} {since : Finset RequestId} {ids : List RequestId}

theorem dropWhile_split {pre post : List RequestId} (hpre : r ∉ pre) :
    (pre ++ r :: post).dropWhile (· ≠ r) = r :: post := by
  rw [List.dropWhile_append_of_pos]
  · simp
  · intro q hq
    simp only [ne_eq,decide_eq_true_eq]
    rintro rfl
    exact hpre hq

theorem keeps_of_split {pre post : List RequestId} (hpre : r ∉ pre)
    (hpost : ∀ q ∈ post, q ∈ since) : Keeps r since (pre ++ r :: post) := by
  refine ⟨by simp,?_⟩
  rwa [dropWhile_split hpre]

theorem Keeps.split (h : Keeps r since ids) :
    ∃ pre post, ids = pre ++ r :: post ∧ r ∉ pre ∧ ∀ q ∈ post, q ∈ since := by
  obtain ⟨pre,post,rfl,hpre⟩ := List.eq_append_cons_of_mem h.1
  have hpost := h.2
  rw [dropWhile_split hpre] at hpost
  exact ⟨pre,post,rfl,hpre,hpost⟩

theorem Keeps.mono {since' : Finset RequestId} (h : Keeps r since ids) (hsub : since ⊆ since') :
    Keeps r since' ids :=
  ⟨h.1,fun q hq => hsub (h.2 q hq)⟩

theorem Keeps.remembered {since' : Finset RequestId} {q : RequestId} (h : Keeps r since ids)
    (hsub : since ⊆ since') (hq : q ≠ r → q ∈ since')
    (hcard : since'.card < maxRecentClientRequests) :
    Keeps r since' (GatewayStore.remembered ids q) := by
  obtain ⟨pre,post,rfl,hpre,hpost⟩ := h.split
  have hnew : ∀ y ∈ post ++ [q], y ≠ r → y ∈ since' := by
    intro y hy hne
    rcases List.mem_append.mp hy with hy | hy
    · exact hsub (hpost y hy)
    · rw [List.mem_singleton.mp hy] at hne ⊢
      exact hq hne
  obtain ⟨pre',post',heq,hpre',hpost'⟩ := newest_eraseDups hpre hnew hcard
  have hledger : GatewayStore.remembered (pre ++ r :: post) q = pre' ++ r :: post' := by
    rw [← heq]
    simp [GatewayStore.remembered]
  rw [hledger]
  exact keeps_of_split hpre' hpost'

theorem keeps_remembered (h : r ∉ ids) : Keeps r ∅ (GatewayStore.remembered ids r) := by
  have hnone : ∀ q ∈ ([] : List RequestId), q ≠ r → q ∈ (∅ : Finset RequestId) := by simp
  obtain ⟨pre',post',heq,hpre',hpost'⟩ := newest_eraseDups (n := maxRecentClientRequests) h hnone
    (by decide)
  rw [GatewayStore.remembered,heq]
  exact keeps_of_split hpre' hpost'

end ledgers

section traces

variable {s : String} {r : RequestId} {tr es : List GatewayEvent}

theorem foldl_advance_of_forall (since : Option (Finset RequestId))
    (h : ∀ e ∈ es, e.remembers s = none) : es.foldl (advance s r) since = since := by
  induction es generalizing since with
  | nil => rfl
  | cons e es ih =>
    have he : advance s r since e = since := by
      have hnone := h e List.mem_cons_self
      cases e with
      | remembered id q newTurn =>
        have hid : id ≠ s := by
          rintro rfl
          simp [GatewayEvent.remembers] at hnone
        simp [advance,hid]
      | _ => rfl
    rw [List.foldl_cons,he]
    exact ih since (fun d hd => h d (List.mem_cons_of_mem e hd))

theorem window_append (h : ∀ e ∈ es, e.remembers s = none) :
    window s r (tr ++ es) = window s r tr := by
  rw [window,List.foldl_append,foldl_advance_of_forall _ h,window]

theorem window_snoc (s : String) (r : RequestId) (tr : List GatewayEvent) (e : GatewayEvent) :
    window s r (tr ++ [e]) = (advance s r (tr.foldl (advance s r) none) e).filter
      (·.card < maxRecentClientRequests) := by
  simp [window]

theorem window_accepted : window s r (tr ++ [GatewayEvent.remembered s r true]) = some ∅ := by
  simp [window_snoc,advance,maxRecentClientRequests]

theorem window_remembered {id : String} {q : RequestId} {newTurn : Bool} {since : Finset RequestId}
    (hne : ¬ (id = s ∧ q = r ∧ newTurn = true))
    (h : window s r (tr ++ [GatewayEvent.remembered id q newTurn]) = some since) :
    ∃ since', window s r tr = some since' ∧ since' ⊆ since ∧ (id = s → q ≠ r → q ∈ since) ∧
      since.card < maxRecentClientRequests := by
  rw [window_snoc,Option.filter_eq_some_iff] at h
  obtain ⟨hadvance,hcard⟩ := h
  have hcard : since.card < maxRecentClientRequests := by simpa using hcard
  have hsmaller : ∀ since', tr.foldl (advance s r) none = some since' → since' ⊆ since →
      window s r tr = some since' := by
    intro since' hfold hsub
    rw [window,Option.filter_eq_some_iff]
    exact ⟨hfold,by simpa using lt_of_le_of_lt (Finset.card_le_card hsub) hcard⟩
  simp only [advance] at hadvance
  split_ifs at hadvance with hid hq hnew
  · exact absurd ⟨hid,hq,hnew⟩ hne
  · refine ⟨since,hsmaller since hadvance (Finset.Subset.refl _),Finset.Subset.refl _,?_,hcard⟩
    intro _ hqr
    exact absurd hq hqr
  · rw [Option.map_eq_some_iff] at hadvance
    obtain ⟨since',hfold,rfl⟩ := hadvance
    have hsub := Finset.subset_insert q since'
    exact ⟨since',hsmaller since' hfold hsub,hsub,fun _ _ => Finset.mem_insert_self q since',hcard⟩
  · refine ⟨since,hsmaller since hadvance (Finset.Subset.refl _),Finset.Subset.refl _,?_,hcard⟩
    intro heq
    exact absurd heq hid

theorem mem_others {q : RequestId} :
    q ∈ others s r es ↔ q ≠ r ∧ ∃ newTurn, .remembered s q newTurn ∈ es := by
  have hremembers : ∀ e : GatewayEvent, e.remembers s = some q ↔
      ∃ newTurn, e = .remembered s q newTurn := by
    intro e
    cases e with
    | remembered id q' newTurn =>
      by_cases hid : id = s
      · simp [GatewayEvent.remembers,hid]
      · simp [GatewayEvent.remembers,hid]
    | _ => simp [GatewayEvent.remembers]
  simp only [others,Finset.mem_erase,List.mem_toFinset,List.mem_filterMap,hremembers]
  constructor
  · rintro ⟨hne,e,he,newTurn,rfl⟩
    exact ⟨hne,newTurn,he⟩
  · rintro ⟨hne,newTurn,he⟩
    exact ⟨hne,_,he,newTurn,rfl⟩

theorem others_mono {es' : List GatewayEvent} (h : es ⊆ es') : others s r es ⊆ others s r es' := by
  intro q hq
  rw [mem_others] at *
  obtain ⟨hne,newTurn,he⟩ := hq
  exact ⟨hne,newTurn,h he⟩

theorem foldl_advance_subset (s : String) (r : RequestId) (before after : List GatewayEvent) :
    ∃ since, (before ++ GatewayEvent.remembered s r true :: after).foldl (advance s r) none = some since ∧
      since ⊆ others s r after := by
  induction after using List.reverseRecOn with
  | nil => exact ⟨∅,by simp [advance],Finset.empty_subset _⟩
  | append_singleton after e ih =>
    obtain ⟨since,hfold,hsub⟩ := ih
    have hgrow : since ⊆ others s r (after ++ [e]) :=
      hsub.trans (others_mono (List.subset_append_left after [e]))
    rw [← List.cons_append,← List.append_assoc,List.foldl_append,hfold,List.foldl_cons,
      List.foldl_nil]
    cases e with
    | remembered id q newTurn =>
      simp only [advance]
      split_ifs with hid hq hnew
      · exact ⟨∅,rfl,Finset.empty_subset _⟩
      · exact ⟨since,rfl,hgrow⟩
      · refine ⟨insert q since,rfl,Finset.insert_subset ?_ hgrow⟩
        exact mem_others.mpr ⟨hq,newTurn,by simp [hid]⟩
      · exact ⟨since,rfl,hgrow⟩
    | _ => exact ⟨since,rfl,hgrow⟩

theorem window_of_others (before : List GatewayEvent) {after : List GatewayEvent}
    (hcard : (others s r after).card < maxRecentClientRequests) :
    ∃ since, window s r (before ++ GatewayEvent.remembered s r true :: after) = some since := by
  obtain ⟨since,hfold,hsub⟩ := foldl_advance_subset s r before after
  refine ⟨since,?_⟩
  rw [window,Option.filter_eq_some_iff]
  exact ⟨hfold,by simpa using lt_of_le_of_lt (Finset.card_le_card hsub) hcard⟩

def Forgetful (s : String) (es : List GatewayEvent) : Prop := ∀ e ∈ es, e.remembers s = none

theorem Forgetful.once (h : Forgetful s es) : ∀ e ∈ es, ∀ pre, Once s r pre e := by
  rintro e he pre rfl
  have hnone := h _ he
  simp [GatewayEvent.remembers] at hnone

theorem Quiet.forgetful {g : Server} {out : Server × List GatewayEvent} (h : Quiet g out)
    (s : String) : Forgetful s out.2 := by
  intro e he
  have hdup := h.events e he
  cases e <;> first | rfl | simp [GatewayEvent.isDuplicate] at hdup

end traces

/-- What a guarded run keeps: while the request is in its window, the stored ledger has it. -/
structure Recorded (s : String) (r : RequestId) (tr : List GatewayEvent) (g : Server) : Prop where
  once : Traced (Once s r) tr
  kept : ∀ since, window s r tr = some since →
    ∃ ids, g.store.recent s = some ids ∧ Keeps r since ids

section rules

variable {s : String} {r : RequestId} {tr es : List GatewayEvent} {g g' : Server}

theorem Recorded.same (h : Recorded s r tr g) (hes : Forgetful s es)
    (hrecent : g'.store.recent s = g.store.recent s) : Recorded s r (tr ++ es) g' := by
  refine ⟨h.once.append hes.once,?_⟩
  rw [window_append hes,hrecent]
  exact h.kept

theorem Recorded.unchanged (h : Recorded s r tr g)
    (hrecent : g'.store.recent s = g.store.recent s) : Recorded s r (tr ++ []) g' :=
  h.same (by simp [Forgetful]) hrecent

theorem Recorded.quiet {out : Server × List GatewayEvent} (h : Recorded s r tr g)
    (hq : Quiet g out) : Recorded s r (tr ++ out.2) out.1 :=
  h.same (hq.forgetful s) (hq.same.recent s)

theorem Recorded.written {copy : Option (List RequestId)} (h : Recorded s r tr g)
    (hes : Forgetful s es) (hrecent : g'.store.recent s = copy.or (g.store.recent s))
    (hcopy : ∀ ids ∈ copy, ∀ since ∈ window s r tr, Keeps r since ids) :
    Recorded s r (tr ++ es) g' := by
  refine ⟨h.once.append hes.once,?_⟩
  rw [window_append hes,hrecent]
  intro since hwindow
  cases copy with
  | none => exact h.kept since hwindow
  | some ids => exact ⟨ids,rfl,hcopy ids rfl since hwindow⟩

theorem Recorded.remembers {id : String} {q : RequestId} {newTurn : Bool} (h : Recorded s r tr g)
    (hne : ¬ (id = s ∧ q = r ∧ newTurn = true))
    (hrecent : g'.store.recent s = g.store.recent s ∨
      s = id ∧ g'.store.recent s = extended (g.store.recent s) (some q) ∨ window s r tr = none) :
    Recorded s r (tr ++ [GatewayEvent.remembered id q newTurn]) g' := by
  constructor
  · refine traced_snoc.mpr ⟨h.once,?_⟩
    intro heq
    cases heq
    exact absurd ⟨rfl,rfl,rfl⟩ hne
  · intro since hwindow
    obtain ⟨since',hwindow',hsub,hq,hcard⟩ := window_remembered hne hwindow
    obtain ⟨ids,hids,hkeeps⟩ := h.kept since' hwindow'
    rcases hrecent with hsame | ⟨rfl,hext⟩ | hnone
    · exact ⟨ids,hsame.trans hids,hkeeps.mono hsub⟩
    · rw [hids] at hext
      exact ⟨_,hext,hkeeps.remembered hsub (hq rfl) hcard⟩
    · simp [hnone] at hwindow'

theorem Recorded.rememberedEvents {id : String} {q : Option RequestId} (h : Recorded s r tr g)
    (hrecent : g'.store.recent s = g.store.recent s ∨
      s = id ∧ g'.store.recent s = extended (g.store.recent s) q ∨ window s r tr = none) :
    Recorded s r (tr ++ Server.rememberedEvents id false q) g' := by
  cases q with
  | some q => exact h.remembers (by simp) hrecent
  | none =>
    refine ⟨by simpa [Server.rememberedEvents] using h.once,?_⟩
    intro since hwindow
    simp only [Server.rememberedEvents,List.append_nil] at hwindow
    obtain ⟨ids,hids,hkeeps⟩ := h.kept since hwindow
    rcases hrecent with hsame | ⟨-,hext⟩ | hnone
    · exact ⟨ids,hsame.trans hids,hkeeps⟩
    · exact ⟨ids,hext.trans hids,hkeeps⟩
    · simp [hnone] at hwindow

theorem Recorded.accepts (h : Recorded s r tr g) (hunknown : g.store.hasClientRequest s r = false)
    (hrecent : g'.store.recent s = extended (g.store.recent s) (some r)) :
    Recorded s r (tr ++ [GatewayEvent.remembered s r true]) g' := by
  have hnew : ∀ ids, g.store.recent s = some ids → r ∉ ids := by
    intro ids hids hmem
    rw [GatewayStore.hasClientRequest_of_recent hids hmem] at hunknown
    cases hunknown
  constructor
  · refine traced_snoc.mpr ⟨h.once,?_⟩
    rintro - before after rfl
    by_contra hcard
    obtain ⟨since,hwindow⟩ := window_of_others before (Nat.lt_of_not_le hcard)
    obtain ⟨ids,hids,hkeeps⟩ := h.kept since hwindow
    exact hnew ids hids hkeeps.1
  · intro since hwindow
    rw [window_accepted,Option.some.injEq] at hwindow
    subst hwindow
    refine ⟨_,hrecent,keeps_remembered ?_⟩
    cases hids : g.store.recent s with
    | none => simp
    | some ids => exact hnew ids hids

theorem Recorded.turn {id : String} {q : Option RequestId} {policy : SessionPolicyMode}
    {confirmed : Bool} {copy : Option (List RequestId)} {out : Server × List GatewayEvent}
    (h : Recorded s r tr g) (ha : AcceptedTurn g id q policy confirmed copy out)
    (hcopy : copy = none ∨ copy = g.store.recent id)
    (hfirst : id = s → q = some r → copy = none) : Recorded s r (tr ++ out.2) out.1 := by
  have hstart : Recorded s r (tr ++ [GatewayEvent.accepted id g.nextTurn,.modeRequested id policy confirmed]) g :=
    h.same (by simp [Forgetful,GatewayEvent.remembers]) rfl
  have hrecent : out.1.store.recent s = g.store.recent s ∨
      s = id ∧ out.1.store.recent s = extended (g.store.recent s) q := by
    rw [ha.ledgers]
    split_ifs with hs
    · subst hs
      rcases hcopy with rfl | rfl
      · exact .inr ⟨rfl,by simp⟩
      · cases g.store.recent s with
        | none => exact .inr ⟨rfl,by simp⟩
        | some ids => exact .inl rfl
    · exact .inl rfl
  have hevents : tr ++ out.2 = tr ++ [GatewayEvent.accepted id g.nextTurn,.modeRequested id policy confirmed] ++
      Server.rememberedEvents id true q := by
    rw [ha.events]
    simp
  rw [hevents]
  cases q with
  | none =>
    refine hstart.unchanged ?_
    rcases hrecent with hsame | ⟨-,hext⟩
    · exact hsame
    · exact hext
  | some q =>
    by_cases heq : id = s ∧ q = r
    · obtain ⟨rfl,rfl⟩ := heq
      refine hstart.accepts ha.unknown ?_
      rw [ha.ledgers,if_pos rfl,hfirst rfl rfl,Option.none_or]
    · refine hstart.remembers ?_ ?_
      · rintro ⟨hid,hq,-⟩
        exact heq ⟨hid,hq⟩
      · rcases hrecent with hsame | hext
        · exact .inl hsame
        · exact .inr (.inl hext)

theorem Recorded.receive (h : Recorded s r tr g) (now : Nat) {q : Request}
    (hok : keepsLedger s r tr g (.request now q) = true) :
    Recorded s r (tr ++ (g.receive now q).2) (g.receive now q).1 := by
  cases q with
  | postTurns id q mode confirmed =>
    rcases g.postTurns_spec now id q confirmed mode with hq | ⟨policy,ha,-⟩
    · exact h.quiet hq
    · refine h.turn ha (.inr rfl) ?_
      rintro rfl rfl
      simp only [keepsLedger,decide_eq_true_eq] at hok
      exact hok ⟨trivial,trivial,ha.free,ha.unknown⟩
  | getThreads ids =>
    obtain ⟨hstore,-⟩ := g.listing_frame now ids
    exact h.unchanged (by simp only [Server.receive,hstore])
  | deleteSession id =>
    simp only [keepsLedger,decide_eq_true_eq] at hok
    by_cases hid : id = s
    · refine ⟨by simpa [Server.receive] using h.once,?_⟩
      intro since hwindow
      simp [Server.receive,hok hid] at hwindow
    · exact h.unchanged (GatewayStore.recent_deleteSession _ (Ne.symm hid))
  | codex event =>
    refine h.same ?_ ((g.codexEvent_frame now event).2.2.2 s)
    rcases g.codexEvent_events now event with he | ⟨id,-,turn,-,he⟩
    · simp [Forgetful,Server.receive,he]
    · simp [Forgetful,Server.receive,he,GatewayEvent.remembers]
  | _ => exact h.quiet (g.receive_quiet now rfl)

theorem Recorded.resume (h : Recorded s r tr g) (now : Nat) {o : Outcome} {task : Task}
    (hcreates : g.creates o task = some s → window s r tr = none)
    (hcopy : ∀ copy ∈ g.writesBack o task, copy.id = s → ∀ ids ∈ copy.recentClientRequestIds,
      ∀ since ∈ window s r tr, Keeps r since ids) :
    Recorded s r (tr ++ (g.resume now o task).2) (g.resume now o task).1 := by
  by_cases hquiet : task.quiet o = true
  · exact h.quiet (g.resume_quiet now hquiet)
  by_cases hfailed : ∃ start, task.failed o = some start
  · obtain ⟨⟨id,turn⟩,hstart⟩ := hfailed
    have hspec := g.resume_failed now id turn hstart
    rw [hspec.events]
    exact h.same (by simp [Forgetful,GatewayEvent.remembers]) (hspec.recent s)
  cases task with
  | createThread q mode confirmed =>
    simp only [Server.resume,Server.createThread]
    split
    · exact h.unchanged (by simp)
    · rename_i id hid
      split_ifs with hbusy
      · exact h.unchanged (by simp)
      · have hstart : Recorded s r
            (tr ++ [GatewayEvent.accepted id g.nextTurn,.modeRequested id mode confirmed]) g :=
          h.same (by simp [Forgetful,GatewayEvent.remembers]) rfl
        have hmore : Recorded s r (tr ++ [GatewayEvent.accepted id g.nextTurn,.modeRequested id mode confirmed] ++
            Server.rememberedEvents id false q) (g.openCreated now id q mode confirmed).1 := by
          refine hstart.rememberedEvents ?_
          by_cases hs : id = s
          · refine .inr (.inr ?_)
            rw [window_append (by simp [GatewayEvent.remembers])]
            apply hcreates
            have hfree : id ∉ g.turnGate := by
              intro hmem
              simp [TurnGate.acquire_none,hmem] at hbusy
            simp [Server.creates,hid,← hs,hfree]
          · exact .inl (by rw [g.openCreated_recent,if_neg (Ne.symm hs)])
        simpa [Server.openCreated] using hmore
  | patchContext id mode confirmed existing =>
    rcases g.patchContext_spec now o id mode confirmed existing with hq | ⟨-,-,session,heq⟩
    · exact h.quiet hq
    · simp only [Server.resume,heq]
      exact h.same (by simp [Forgetful,GatewayEvent.remembers]) (by simp)
  | patchAudit session =>
    simp only [Server.resume,Server.patchAudit]
    split_ifs with hok
    · by_cases hs : s = session.id ∧ ¬ g.ignores session
      · refine h.written (by simp [Forgetful]) ?_
          (hcopy session (by simp [Server.writesBack,hok,hs.2]) hs.1.symm)
        rw [Server.broadcastGateway_recent]
        exact if_pos hs
      · refine h.unchanged ?_
        rw [Server.broadcastGateway_recent]
        exact if_neg hs
    · exact h.unchanged rfl
  | resumeThread id mode =>
    refine h.unchanged ?_
    rcases g.resumeThread_spec now o id mode with hsame | ⟨-,-,hrecent⟩
    · exact hsame.recent s
    · exact hrecent s
  | turnLookup id q mode confirmed receivedAt =>
    rcases g.turnLookup_spec now receivedAt id q confirmed o mode with hq | ⟨policy,ha,-⟩
    · exact h.quiet hq
    · exact h.turn ha (.inl rfl) (fun _ _ => rfl)
  | apiTurnLookup id q last =>
    simp only [Server.resume,Server.apiTurnLookup]
    split
    · exact h.unchanged (by simp)
    · split
      · exact h.same (by simp [Forgetful,GatewayEvent.remembers]) (by simp)
      · exact h.unchanged (by simp)
      · exact h.same (by simp [Forgetful,GatewayEvent.remembers]) rfl
  | apiTurnStart id q last thread turn =>
    by_cases hok : o.ok = true
    · obtain ⟨-,-,-,hrecent,-,he⟩ := g.apiTurnStart_spec now o id q last thread turn hok
      simp only [Server.resume,he]
      refine h.rememberedEvents ?_
      rcases hrecent s with hsame | hext
      · exact .inl hsame
      · exact .inr (.inl hext)
    · simp [Task.failed,hok] at hfailed
  | interjectSteer id q turnId thread =>
    by_cases hok : o.ok = true
    · obtain ⟨-,-,-,-,he⟩ := g.interjectSteer_spec now o id q turnId thread hok
      simp only [Server.resume,he]
      refine h.rememberedEvents ?_
      rcases g.interjectSteer_recent now o id q turnId thread hok s with hsame | hext
      · exact .inl hsame
      · exact .inr (.inl hext)
    · simp only [Server.resume,Server.interjectSteer,hok]
      exact h.unchanged (by simp)
  | interruptContext id session =>
    simp only [Server.resume,Server.interruptContext]
    split
    · exact h.unchanged rfl
    · rename_i base hbase
      by_cases hs : s = base.id
      · refine h.written (by simp [Forgetful,GatewayEvent.remembers]) ?_ (hcopy base hbase hs.symm)
        rw [Server.settleInterruptedSession_recent,if_pos hs]
      · refine h.same (by simp [Forgetful,GatewayEvent.remembers]) ?_
        rw [Server.settleInterruptedSession_recent,if_neg hs]
  | forkThread id mode confirmed =>
    cases hchild : Server.forkedChild o with
    | none =>
      simp only [Server.resume,Server.forkThread,hchild]
      exact h.unchanged rfl
    | some child =>
      obtain ⟨-,-,-,hrecent,-,he⟩ := g.forkThread_spec now o id mode confirmed hchild
      simp only [Server.resume,he]
      exact h.same (by simp [Forgetful,GatewayEvent.remembers]) (hrecent s)
  | importThread id =>
    simp only [Server.resume,Server.importThread]
    split
    · exact h.unchanged rfl
    · refine h.unchanged ?_
      simp [GatewayStore.recent_upsertSession,threadToSession]
  | coldImport =>
    refine h.unchanged (GatewayStore.recent_upsertSessions _ ?_ s)
    simp [Server.importedSession,threadToSession]
  | createModel id mode turn =>
    simp only [Server.resume,Server.createModel]
    split_ifs with hok
    · exact h.unchanged rfl
    · simp [Task.failed,hok] at hfailed
  | apiThreadStart mode confirmed =>
    simp only [Server.resume,Server.apiThreadStart]
    split
    · exact h.unchanged rfl
    · exact h.same (by simp [Forgetful,GatewayEvent.remembers]) rfl
  | apiThreadModel id mode turn =>
    simp only [Server.resume,Server.apiThreadModel]
    split_ifs with hok
    · exact h.unchanged rfl
    · simp [Task.failed,hok] at hfailed
  | resumeContext id mode confirmed stored =>
    simp only [Server.resume,Server.resumeContext]
    split_ifs
    · exact h.same (by simp [Forgetful,GatewayEvent.remembers]) rfl
    · exact h.unchanged rfl
  | turnModel id policy generation turn =>
    simp only [Server.resume,Server.turnModel]
    split_ifs with hok
    · exact h.unchanged rfl
    all_goals simp [Task.failed,hok] at hfailed
  | apiTurnModel id q last thread turn => exact h.unchanged rfl
  | forkAudit id mode confirmed =>
    simp only [Server.resume,Server.forkAudit]
    split_ifs
    · exact h.same (by simp [Forgetful,GatewayEvent.remembers]) rfl
    · exact h.unchanged rfl
  | createTurn id turn => simp_all [Task.quiet,Task.failed]
  | turnPrepare id policy generation turn => simp_all [Task.quiet,Task.failed]
  | turnStart id generation turn => simp_all [Task.quiet,Task.failed]
  | apiTurnPrepare id q last thread turn => simp_all [Task.quiet,Task.failed]
  | apiThreadTurn id turn => simp_all [Task.quiet,Task.failed]
  | _ => exact absurd rfl hquiet

theorem Recorded.step (h : Recorded s r tr g) {i : Input} (hok : keepsLedger s r tr g i = true) :
    Recorded s r (tr ++ (g.step i).2) (g.step i).1 := by
  cases i with
  | request now q => exact h.receive now hok
  | proceed now k o =>
    simp only [Server.step]
    simp only [keepsLedger] at hok
    cases htask : g.tasks[k]? with
    | none => exact h.unchanged rfl
    | some task =>
      simp only [htask,decide_eq_true_eq] at hok
      have hfinish : Recorded s r tr (g.finishTask k) := ⟨h.once,h.kept⟩
      exact hfinish.resume now hok.1 hok.2

end rules

theorem Server.postTurns_duplicate {g : Server} {id : String} {r : RequestId}
    (h : g.store.hasClientRequest id r = true) (now : Nat) {mode : Option SessionPolicyMode}
    {confirmed : Bool}
    (hcheck : fullAccessConfirmationRequired mode confirmed (g.store.mode id) = false) :
    g.postTurns now id r mode confirmed = (g,[.duplicate id r]) := by
  unfold postTurns
  cases hget : g.store.getSession id with
  | none => simp [GatewayStore.hasClientRequest,hget] at h
  | some persisted =>
    have hmode : g.store.mode id = some persisted.sessionPolicyMode := by
      simp [GatewayStore.mode,GatewayStore.view,hget]
    rw [hmode] at hcheck
    simp [hcheck,admitTurn,hasClientRequest,h]

/-- In every run that keeps the ledger of the session, a turn request is accepted once and
answered as a duplicate while it is in its window. -/
theorem idempotent_run {s : String} {r : RequestId} {tr : List GatewayEvent} {g : Server}
    (hr : gateway.Run (fun tr g i => keepsLedger s r tr g i = true) tr g) : Idempotent s r tr g := by
  have hinv : Recorded s r tr g := by
    apply hr.invariant (P := Recorded s r)
    · rintro g rfl
      refine ⟨Traced.nil _,?_⟩
      intro since hwindow
      simp [window] at hwindow
    · intro tr g i h hok
      exact h.step hok
  refine ⟨hinv.once,?_⟩
  rintro before after rfl hcard now mode confirmed hcheck
  obtain ⟨since,hwindow⟩ := window_of_others before hcard
  obtain ⟨ids,hids,hkeeps⟩ := hinv.kept since hwindow
  exact Server.postTurns_duplicate (GatewayStore.hasClientRequest_of_recent hids hkeeps.1) now hcheck

namespace Sample

def first : RequestId := ⟨"first",by decide⟩
def second : RequestId := ⟨"second",by decide⟩

/-- Two turns with request ids, each completed. -/
def twoTurns : List Input :=
  importSession "t" ++ runTurn "t" "a" 2 first ++ completeTurn "t" 3 0 ++
    runTurn "t" "b" 4 second ++ completeTurn "t" 5 1

end Sample

theorem twoTurns_idempotent :
    .remembered "t" Sample.first true ∈ (gateway.exec [] {} Sample.twoTurns).1 ∧
    Idempotent "t" Sample.first (gateway.exec [] {} Sample.twoTurns).1
      (gateway.exec [] {} Sample.twoTurns).2 := by
  have hrun : gateway.Run (fun tr g i => keepsLedger "t" Sample.first tr g i = true) [] {} :=
    .start rfl
  exact ⟨by decide,idempotent_run (hrun.exec Sample.twoTurns (by decide +kernel))⟩

/-- The second request finds a ledger, which its own status broadcast writes back: sent
again after its turn, it is accepted again. -/
theorem twoTurns_not_idempotent :
    gateway.Run gateway.free
      (gateway.exec [] {} (Sample.twoTurns ++ Sample.runTurn "t" "c" 6 Sample.second)).1
      (gateway.exec [] {} (Sample.twoTurns ++ Sample.runTurn "t" "c" 6 Sample.second)).2 ∧
    ¬ Traced (Once "t" Sample.second)
      (gateway.exec [] {} (Sample.twoTurns ++ Sample.runTurn "t" "c" 6 Sample.second)).1 := by
  have hrun : gateway.Run gateway.free [] {} := .start rfl
  refine ⟨hrun.exec _ (gateway.allowed_free _ _ _),?_⟩
  intro h
  have hsplit : (gateway.exec [] {} (Sample.twoTurns ++ Sample.runTurn "t" "c" 6 Sample.second)).1 =
      ([GatewayEvent.accepted "t" 0,.modeRequested "t" .confirm false,.remembered "t" Sample.first true,
        .turnCompleted "t" 0,.accepted "t" 1,.modeRequested "t" .confirm false] ++
        .remembered "t" Sample.second true :: [.turnCompleted "t" 1,.accepted "t" 2,
          .modeRequested "t" .confirm false]) ++ GatewayEvent.remembered "t" Sample.second true :: [] := by
    decide
  have hmany := h _ _ _ hsplit rfl _ _ rfl
  exact absurd hmany (by decide)

end CodeHarbor.Gateway
