import CodeHarbor.Gateway.Events
import CodeHarbor.Lib.Queues
set_option autoImplicit false

namespace CodeHarbor.Gateway
open Lib

/-! What a deletion leaves behind: the tombstone, the removal that waits for the writes queued
before it, and the sessions that are stored again under the same id. -/

variable {β : Type}

def FileJob.works : FileJob β → Bool
  | .settled => false
  | _ => true

/-- What is still to be done on the file, chain by chain. -/
def pendingWork (chains : List (WriteChain β)) : List (FileJob β) :=
  (chains.flatMap WriteChain.jobs).filter FileJob.works

/-- The next write joins the chain, or it has work left. -/
def WriteChain.live (chain : WriteChain β) : Bool := chain.current || chain.jobs.any FileJob.works

/-- At most one chain is live. -/
def OneLine (chains : List (WriteChain β)) : Prop :=
  chains.Pairwise (fun c d => c.live = false ∨ d.live = false)

section Chains

variable {chains pre post : List (WriteChain β)} {c c' : WriteChain β}

theorem pendingWork_append (xs ys : List (WriteChain β)) :
    pendingWork (xs ++ ys) = pendingWork xs ++ pendingWork ys := by
  simp [pendingWork]

theorem pendingWork_cons (c : WriteChain β) (chains : List (WriteChain β)) :
    pendingWork (c :: chains) = c.jobs.filter FileJob.works ++ pendingWork chains := by
  simp [pendingWork]

theorem pendingWork_eq_nil (h : ∀ c ∈ chains, c.live = false) : pendingWork chains = [] := by
  unfold pendingWork
  rw [List.filter_eq_nil_iff]
  intro job hjob
  obtain ⟨c,hc,hjob⟩ := List.mem_flatMap.mp hjob
  have hlive := h c hc
  unfold WriteChain.live at hlive
  rw [Bool.or_eq_false_iff] at hlive
  exact List.any_eq_false.mp hlive.2 job hjob

theorem pendingWork_filter (chains : List (WriteChain β)) :
    pendingWork (chains.filter (fun c => !c.jobs.isEmpty)) = pendingWork chains := by
  induction chains with
  | nil => rfl
  | cons c chains ih =>
    obtain ⟨jobs,current⟩ := c
    cases jobs with
    | nil => simp [pendingWork_cons,ih]
    | cons job jobs => simp [pendingWork_cons,ih]

theorem OneLine.others (h : OneLine (pre ++ c :: post)) (hc : c.live = true) :
    ∀ d ∈ pre ++ post, d.live = false := by
  obtain ⟨-,hpost,hpre⟩ := List.pairwise_append.mp h
  intro d hd
  rcases List.mem_append.mp hd with hd | hd
  · exact (hpre d hd c List.mem_cons_self).resolve_right (by rw [hc]; exact Bool.noConfusion)
  · exact ((List.pairwise_cons.mp hpost).1 d hd).resolve_left (by rw [hc]; exact Bool.noConfusion)

theorem oneLine_of_others (h : ∀ d ∈ pre ++ post, d.live = false) : OneLine (pre ++ c :: post) := by
  have hpre : ∀ d ∈ pre, d.live = false := fun d hd => h d (List.mem_append_left post hd)
  have hpost : ∀ d ∈ post, d.live = false := fun d hd => h d (List.mem_append_right pre hd)
  refine List.pairwise_append.mpr ⟨?_,List.pairwise_cons.mpr ⟨?_,?_⟩,?_⟩
  · exact List.pairwise_of_forall_mem_list (fun d hd _ _ => .inl (hpre d hd))
  · exact fun d hd => .inr (hpost d hd)
  · exact List.pairwise_of_forall_mem_list (fun d hd _ _ => .inl (hpost d hd))
  · exact fun d hd _ _ => .inl (hpre d hd)

theorem OneLine.work (h : OneLine (pre ++ c :: post)) (hc : c.live = true) :
    pendingWork (pre ++ c :: post) = c.jobs.filter FileJob.works := by
  have hothers := h.others hc
  rw [pendingWork_append,pendingWork_cons,
    pendingWork_eq_nil (fun d hd => hothers d (List.mem_append_left post hd)),
    pendingWork_eq_nil (fun d hd => hothers d (List.mem_append_right pre hd)),List.nil_append,
    List.append_nil]

theorem OneLine.replace (h : OneLine (pre ++ c :: post)) (hc : c'.live = true → c.live = true) :
    OneLine (pre ++ c' :: post) := by
  cases hlive : c.live with
  | true => exact oneLine_of_others (h.others hlive)
  | false =>
    have hdead : c'.live = false := by
      by_contra hne
      rw [hc (by simpa using hne)] at hlive
      cases hlive
    obtain ⟨hpre,hpost,hacross⟩ := List.pairwise_append.mp h
    refine List.pairwise_append.mpr ⟨hpre,List.pairwise_cons.mpr ⟨fun _ _ => .inl hdead,
      (List.pairwise_cons.mp hpost).2⟩,?_⟩
    intro d hd e he
    rcases List.mem_cons.mp he with rfl | he
    · exact .inr hdead
    · exact hacross d hd e (List.mem_cons_of_mem c he)

theorem OneLine.filter (h : OneLine chains) (p : WriteChain β → Bool) : OneLine (chains.filter p) :=
  List.Pairwise.sublist List.filter_sublist h

theorem OneLine.pop (h : OneLine (pre ++ c :: post)) {jobs : List (FileJob β)}
    (hc : c'.live = true → c.live = true)
    (hjobs : c.jobs.filter FileJob.works = jobs ++ c'.jobs.filter FileJob.works)
    (hfront : jobs = [] ∨ c.live = true) :
    OneLine (EventStore.replaceChain (pre ++ c :: post) pre.length c') ∧
      pendingWork (pre ++ c :: post) =
        jobs ++ pendingWork (EventStore.replaceChain (pre ++ c :: post) pre.length c') := by
  have hset : (pre ++ c :: post).set pre.length c' = pre ++ c' :: post := by simp
  unfold EventStore.replaceChain
  rw [hset,pendingWork_filter]
  refine ⟨(h.replace hc).filter _,?_⟩
  rw [pendingWork_append,pendingWork_append,pendingWork_cons,pendingWork_cons,hjobs]
  rcases hfront with rfl | hlive
  · rfl
  · rw [pendingWork_eq_nil (fun d hd => h.others hlive d (List.mem_append_left post hd))]
    simp

theorem OneLine.join (h : OneLine chains) (hany : chains.any WriteChain.current = true)
    (write : List (FileJob β)) :
    OneLine (chains.map (fun chain =>
      if chain.current then { chain with jobs := chain.jobs ++ write } else chain)) ∧
    pendingWork (chains.map (fun chain =>
      if chain.current then { chain with jobs := chain.jobs ++ write } else chain)) =
      pendingWork chains ++ write.filter FileJob.works := by
  obtain ⟨c,hmem,hcurrent⟩ := List.any_eq_true.mp hany
  obtain ⟨pre,post,rfl⟩ := List.append_of_mem hmem
  have hlive : c.live = true := by simp [WriteChain.live,hcurrent]
  have hothers := h.others hlive
  have hkeep : ∀ part : List (WriteChain β), (∀ d ∈ part, d ∈ pre ++ post) → part.map (fun chain =>
      if chain.current then { chain with jobs := chain.jobs ++ write } else chain) = part := by
    intro part hpart
    refine (List.map_congr_left (fun d hd => ?_)).trans (List.map_id part)
    have hdead := hothers d (hpart d hd)
    unfold WriteChain.live at hdead
    rw [(Bool.or_eq_false_iff.mp hdead).1,if_neg Bool.false_ne_true]
    rfl
  have hmap : (pre ++ c :: post).map (fun chain : WriteChain β =>
      if chain.current then { chain with jobs := chain.jobs ++ write } else chain) =
      pre ++ { c with jobs := c.jobs ++ write } :: post := by
    rw [List.map_append,List.map_cons,hkeep pre (fun d hd => List.mem_append_left post hd),
      hkeep post (fun d hd => List.mem_append_right pre hd),if_pos hcurrent]
  have hafter : OneLine (pre ++ { c with jobs := c.jobs ++ write } :: post) := oneLine_of_others hothers
  rw [hmap]
  refine ⟨hafter,?_⟩
  have hstill : WriteChain.live { c with jobs := c.jobs ++ write } = true := by
    simp [WriteChain.live,hcurrent]
  rw [hafter.work hstill,h.work hlive,List.filter_append]

end Chains

namespace EventStore

def work (st : EventStore β) (s : String) : List (FileJob β) := pendingWork (st.eventWriteChains s)

theorem queued_eq (st : EventStore β) (s : String) : st.queued s = (st.work s).filterMap FileJob.line := by
  unfold queued work pendingWork
  rw [List.filterMap_filter]
  congr 1
  funext job
  cases job <;> rfl

/-- Chains that no later write joins are done with the file. -/
def Joined (st : EventStore β) (s : String) : Prop :=
  ∀ chain ∈ st.eventWriteChains s, chain.current = false → chain.jobs.any FileJob.works = false

/-- Chains that no later write joins have nothing to write. -/
def Written (st : EventStore β) (s : String) : Prop :=
  ∀ chain ∈ st.eventWriteChains s, chain.current = false → chain.jobs.any FileJob.isAppend = false

section Operations

variable {st : EventStore β} {s : String}

theorem queueEventWrite_work (h : OneLine (st.eventWriteChains s)) (hjoined : st.Joined s)
    (entry : TimelineEntry β) :
    OneLine ((st.queueEventWrite s entry).eventWriteChains s) ∧
      (st.queueEventWrite s entry).work s = st.work s ++ [.append entry] := by
  unfold work queueEventWrite
  dsimp only
  rw [Function.update_self]
  split_ifs with hany
  · exact h.join hany [.append entry,.settled]
  · have hdead : ∀ d ∈ st.eventWriteChains s ++ [], d.live = false := by
      intro d hd
      rw [List.append_nil] at hd
      have hcurrent : d.current = false := by
        by_contra hne
        exact hany (List.any_eq_true.mpr ⟨d,hd,by simpa using hne⟩)
      simp [WriteChain.live,hcurrent,hjoined d hd hcurrent]
    refine ⟨oneLine_of_others hdead,?_⟩
    rw [pendingWork_append]
    rfl

theorem deleteSession_work (h : OneLine (st.eventWriteChains s)) :
    OneLine ((st.deleteSession s).eventWriteChains s) ∧
      (((st.deleteSession s).work s = st.work s ++ [.remove] ∧ (st.deleteSession s).files s = st.files s) ∨
        ((st.eventWriteChains s).any WriteChain.current = false ∧
          (st.deleteSession s).work s = st.work s ∧ (st.deleteSession s).files s = [])) := by
  unfold work deleteSession
  dsimp only
  split_ifs with hany
  · dsimp only
    rw [Function.update_self]
    obtain ⟨hline,hwork⟩ := h.join hany [.remove]
    exact ⟨hline,.inl ⟨hwork,rfl⟩⟩
  · dsimp only
    rw [Function.update_self]
    exact ⟨h,.inr ⟨by simpa using hany,rfl,rfl⟩⟩

def nextJob (st : EventStore β) (s : String) (k : Nat) : Option (FileJob β) :=
  ((st.eventWriteChains s)[k]?).bind (·.jobs.head?)

def jobDone (ok : Bool) (file : List (EventLine β)) : FileJob β → List (EventLine β)
  | .append entry => if ok then file ++ [entry.line] else file
  | .settled => file
  | .remove => []

theorem runFileJob_work (h : OneLine (st.eventWriteChains s)) {k : Nat} {job : FileJob β}
    (hjob : st.nextJob s k = some job) (ok : Bool) :
    OneLine ((st.runFileJob s k ok).eventWriteChains s) ∧
      st.work s = [job].filter FileJob.works ++ (st.runFileJob s k ok).work s ∧
      (st.runFileJob s k ok).files s = jobDone ok (st.files s) job := by
  obtain ⟨chain,hchain,hhead⟩ := Option.bind_eq_some_iff.mp hjob
  obtain ⟨jobs,current⟩ := chain
  cases jobs with
  | nil => cases hhead
  | cons first rest =>
    cases hhead
    obtain ⟨pre,post,hsplit,rfl⟩ := split_of_getElem? hchain
    unfold work runFileJob
    dsimp only
    rw [hchain]
    rw [hsplit] at h ⊢
    have hrest : WriteChain.live ⟨rest,current⟩ = true → WriteChain.live ⟨job :: rest,current⟩ = true := by
      simp only [WriteChain.live,List.any_cons,Bool.or_eq_true]
      tauto
    cases job with
    | append entry =>
      have hlive : WriteChain.live ⟨.append entry :: rest,current⟩ = true := by
        simp [WriteChain.live,FileJob.works]
      obtain ⟨hline,hwork⟩ := @OneLine.pop _ _ _ _ ⟨rest,current⟩ h [.append entry] hrest rfl (.inr hlive)
      dsimp only
      rw [Function.update_self]
      refine ⟨hline,hwork,?_⟩
      unfold jobDone
      split_ifs
      · rw [Function.update_self]
      · rfl
    | settled =>
      obtain ⟨hline,hwork⟩ := @OneLine.pop _ _ _ _ ⟨rest,current && rest.any FileJob.isAppend⟩ h []
        (by
          intro hlive
          apply hrest
          simp only [WriteChain.live,Bool.or_eq_true,Bool.and_eq_true] at hlive ⊢
          tauto) rfl (.inl rfl)
      dsimp only
      rw [Function.update_self]
      exact ⟨hline,hwork,rfl⟩
    | remove =>
      have hlive : WriteChain.live ⟨.remove :: rest,current⟩ = true := by
        simp [WriteChain.live,FileJob.works]
      obtain ⟨hline,hwork⟩ := @OneLine.pop _ _ _ _ ⟨rest,false⟩ h [.remove] (fun _ => hlive) rfl (.inr hlive)
      have hothers : ∀ part : List (WriteChain β), (∀ d ∈ part, d ∈ pre ++ post) →
          part.map (fun c => { c with current := false }) = part := by
        intro part hpart
        refine (List.map_congr_left (fun d hd => ?_)).trans (List.map_id part)
        have hdead := h.others hlive d (hpart d hd)
        unfold WriteChain.live at hdead
        obtain ⟨jobs,current⟩ := d
        have hcurrent : current = false := (Bool.or_eq_false_iff.mp hdead).1
        rw [hcurrent]
        rfl
      have hmap : replaceChain ((pre ++ ⟨.remove :: rest,current⟩ :: post).map
          (fun c : WriteChain β => { c with current := false })) pre.length ⟨rest,false⟩ =
          replaceChain (pre ++ ⟨.remove :: rest,current⟩ :: post) pre.length ⟨rest,false⟩ := by
        rw [List.map_append,List.map_cons,hothers pre (fun d hd => List.mem_append_left post hd),
          hothers post (fun d hd => List.mem_append_right pre hd)]
        simp [replaceChain]
      dsimp only
      rw [Function.update_self,Function.update_self,hmap]
      exact ⟨hline,hwork,rfl⟩

theorem runFileJob_of_none {k : Nat} (h : st.nextJob s k = none) (ok : Bool) : st.runFileJob s k ok = st := by
  unfold nextJob at h
  unfold runFileJob
  dsimp only
  cases hchain : (st.eventWriteChains s)[k]? with
  | none => rfl
  | some chain =>
    rw [hchain] at h
    obtain ⟨jobs,current⟩ := chain
    cases jobs with
    | nil => rfl
    | cons job rest => cases h

end Operations

/-- The file once the jobs are done, if every write succeeds. -/
def drain (file : List (EventLine β)) (jobs : List (FileJob β)) : List (EventLine β) :=
  jobs.foldl (jobDone true) file

theorem drain_append_remove (file : List (EventLine β)) (jobs : List (FileJob β)) :
    drain file (jobs ++ [.remove]) = [] := by
  simp [drain,jobDone]

theorem drain_of_no_append {jobs : List (FileJob β)} (h : jobs.any FileJob.isAppend = false) :
    drain [] jobs = [] := by
  induction jobs with
  | nil => rfl
  | cons job jobs ih =>
    rw [List.any_cons,Bool.or_eq_false_iff] at h
    cases job with
    | append entry => cases h.1
    | settled => exact ih h.2
    | remove => exact ih h.2

theorem drain_eq_nil {file file' : List (EventLine β)} {jobs : List (FileJob β)}
    (h : drain file jobs = []) (hfile : file = [] → file' = []) : drain file' jobs = [] := by
  induction jobs generalizing file file' with
  | nil => exact hfile h
  | cons job jobs ih =>
    cases job with
    | append entry => exact ih h (fun hne => absurd hne (by simp [jobDone]))
    | settled => exact ih h hfile
    | remove => exact h

end EventStore

/-! The operations on sessions and events, in any order. -/

/-- The store with the parents of subagent sessions. -/
structure DeletionStore (β : Type) where
  events : EventStore β
  subagentRelations : OrdMap String String

inductive DeletionInput (β : Type) where
  | saveSession (s : String)
  | upsertSession (s : String)
  | upsertSessions (sessionIds : List String)
  | appendEvent (s : String) (body : β) (eventSeq : Option Int)
  | deleteSession (s : String)
  | fileJob (s : String) (chain : Nat) (succeeds : Bool)
  deriving DecidableEq, Repr

inductive DeletionEvent (β : Type) where
  | stored (s : String)
  | appended (entry : TimelineEntry β)
  | deleted (s : String)
  | wrote (s : String) (entry : TimelineEntry β) (ok : Bool)
  deriving DecidableEq, Repr

/-- The parent of a deleted subagent session forgets it, which saves the parent again. -/
def DeletionStore.deleteSession (st : DeletionStore β) (s : String) :
    DeletionStore β × List (DeletionEvent β) :=
  let events := st.events.deleteSession s
  let relations := st.subagentRelations.filter (fun child parent => child ≠ s && parent ≠ s)
  match st.subagentRelations.get s with
  | some parent =>
    if parent ≠ "" ∧ parent ∈ events.sessions then
      (⟨events.saveSession parent,relations⟩,[.deleted s,.stored parent])
    else (⟨events,relations⟩,[.deleted s])
  | none => (⟨events,relations⟩,[.deleted s])

def DeletionStore.step (st : DeletionStore β) :
    DeletionInput β → DeletionStore β × List (DeletionEvent β)
  | .saveSession s => ({ st with events := st.events.saveSession s },[.stored s])
  | .upsertSession s => ({ st with events := st.events.saveSession s },[.stored s])
  | .upsertSessions ids => ({ st with events := st.events.upsertSessions ids },ids.map .stored)
  | .appendEvent s body eventSeq =>
    let next := st.events.appendEvent s body eventSeq
    ({ st with events := next.1 },next.2.toList.map .appended)
  | .deleteSession s => st.deleteSession s
  | .fileJob s chain succeeds =>
    ({ st with events := st.events.runFileJob s chain succeeds },
      ((st.events.nextJob s chain).bind FileJob.line).toList.map (.wrote s · succeeds))

def deletions (files : String → List (EventLine β)) :
    Machine (DeletionStore β) (DeletionInput β) (DeletionEvent β) where
  init st := st.events = { EventStore.start files with sessions := st.events.sessions }
  step := DeletionStore.step

def DeletionEvent.stores (s : String) : DeletionEvent β → Bool
  | .stored id => id = s
  | _ => false

def DeletionEvent.appendedTo (s : String) : DeletionEvent β → Option (TimelineEntry β)
  | .appended entry => if entry.sessionId = s then some entry else none
  | _ => none

def DeletionEvent.wroteTo (s : String) : DeletionEvent β → Option (TimelineEntry β)
  | .wrote id entry _ => if id = s then some entry else none
  | _ => none

def Gone (s : String) (tr : List (DeletionEvent β)) : Prop := Since (.deleted s) (DeletionEvent.stores s) tr

structure TombstonesExact (tr : List (DeletionEvent β)) (st : EventStore β) : Prop where
  recorded : ∀ s ∈ st.sessions, s ∉ st.deletedSessions ∧
    (s ≠ "" → ∀ body eventSeq, (st.appendEvent s body eventSeq).2.isSome = true)
  noCache : ∀ s, Gone s tr → st.eventCache.get s = none
  noFile : ∀ s, Gone s tr → st.idle s = true → st.files s = []
  survives : ∀ pre entry post, tr = pre ++ .appended entry :: post → .deleted entry.sessionId ∉ post →
    entry ∈ st.queued entry.sessionId ∨ .wrote entry.sessionId entry false ∈ post ∨
      entry.line ∈ st.files entry.sessionId
  inOrder : ∀ s, tr.filterMap (DeletionEvent.appendedTo s) =
    tr.filterMap (DeletionEvent.wroteTo s) ++ st.queued s

/-- Sessions under a tombstone are not stored in bulk; an event is appended, and a session
deleted, only when the writes that the map of chains has lost are done. -/
def DeletionStore.Orderly (st : DeletionStore β) : DeletionInput β → Prop
  | .upsertSessions ids => ∀ id ∈ ids, id ∉ st.events.deletedSessions
  | .appendEvent s _ _ => s = "" ∨ s ∈ st.events.deletedSessions ∨ st.events.Joined s
  | .deleteSession s => st.events.Written s
  | _ => True

/-- An appended entry waits for its write, with no removal behind it, or the write failed, or
the line is there to stay. -/
def Survives (post : List (DeletionEvent β)) (file : List (EventLine β)) (work : List (FileJob β))
    (entry : TimelineEntry β) : Prop :=
  (∃ before after, work = before ++ .append entry :: after ∧ .remove ∉ after) ∨
    .wrote entry.sessionId entry false ∈ post ∨ (entry.line ∈ file ∧ .remove ∉ work)

structure Kept (tr : List (DeletionEvent β)) (st : EventStore β) (s : String) : Prop where
  line : OneLine (st.eventWriteChains s)
  apart : s ∈ st.sessions → s ∉ st.deletedSessions
  gone : Gone s tr → s ∈ st.deletedSessions ∧ st.eventCache.get s = none ∧
    EventStore.drain (st.files s) (st.work s) = []
  inOrder : tr.filterMap (DeletionEvent.appendedTo s) =
    tr.filterMap (DeletionEvent.wroteTo s) ++ st.queued s
  survives : ∀ pre entry post, tr = pre ++ .appended entry :: post → entry.sessionId = s →
    .deleted s ∉ post → Survives post (st.files s) (st.work s) entry

section Keeping

variable {tr : List (DeletionEvent β)} {st st' : EventStore β} {s : String}

theorem Survives.mono {post more : List (DeletionEvent β)} {file : List (EventLine β)}
    {work : List (FileJob β)} {entry : TimelineEntry β} (h : Survives post file work entry) :
    Survives (post ++ more) file work entry := by
  rcases h with h | h | h
  · exact .inl h
  · exact .inr (.inl (List.mem_append_left more h))
  · exact .inr (.inr h)

theorem gone_snoc {d : DeletionEvent β} (hd : d ≠ .deleted s) (h : Gone s (tr ++ [d])) :
    Gone s tr ∧ d.stores s = false := by
  rcases since_snoc.mp h with h | h
  · exact absurd h hd
  · exact h

theorem Kept.aside (h : Kept tr st s) (haside : EventStore.Aside st st' s)
    (hsessions : s ∈ st'.sessions → s ∈ st.sessions)
    (hdeleted : s ∈ st'.deletedSessions ↔ s ∈ st.deletedSessions) : Kept tr st' s := by
  have hwork : st'.work s = st.work s := by
    unfold EventStore.work
    rw [haside.chains]
  refine ⟨?_,?_,?_,?_,?_⟩
  · rw [haside.chains]
    exact h.line
  · intro hs
    rw [hdeleted]
    exact h.apart (hsessions hs)
  · intro hgone
    obtain ⟨hdead,hcache,hdrain⟩ := h.gone hgone
    rw [hdeleted,hwork,haside.files]
    refine ⟨hdead,?_,hdrain⟩
    cases hget : st'.eventCache.get s with
    | none => rfl
    | some cached =>
      rw [haside.cache cached hget] at hcache
      cases hcache
  · rw [EventStore.queued_eq,hwork,← EventStore.queued_eq]
    exact h.inOrder
  · rw [haside.files,hwork]
    exact h.survives

theorem Kept.other (h : Kept tr st s) {d : DeletionEvent β} (happended : d.appendedTo s = none)
    (hwrote : d.wroteTo s = none) (hd : d ≠ .deleted s) : Kept (tr ++ [d]) st s := by
  refine ⟨h.line,h.apart,fun hgone => h.gone (gone_snoc hd hgone).1,?_,?_⟩
  · simp [List.filterMap_append,happended,hwrote,h.inOrder]
  · intro pre entry post htr hs hdeleted
    rcases split_append htr with ⟨mid,hpre,rfl⟩ | ⟨mid,-,hmid⟩
    · exact (h.survives pre entry mid hpre hs
        (fun hmem => hdeleted (List.mem_append_left [d] hmem))).mono
    · cases mid with
      | nil =>
        cases hmid
        simp [DeletionEvent.appendedTo,hs] at happended
      | cons m mid => simp at hmid

theorem Kept.others (h : Kept tr st s) {out : List (DeletionEvent β)}
    (hout : ∀ d ∈ out, d.appendedTo s = none ∧ d.wroteTo s = none ∧ d ≠ .deleted s) :
    Kept (tr ++ out) st s := by
  induction out generalizing tr with
  | nil => simpa using h
  | cons d out ih =>
    obtain ⟨happended,hwrote,hd⟩ := hout d List.mem_cons_self
    have hrest := ih (h.other happended hwrote hd) (fun e he => hout e (List.mem_cons_of_mem d he))
    simpa using hrest

theorem Kept.store (h : Kept tr st s) (id : String) : Kept (tr ++ [.stored id]) (st.saveSession id) s := by
  have hafter := @Kept.other _ _ _ _ h (.stored id) rfl rfl nofun
  refine ⟨hafter.line,?_,?_,hafter.inOrder,hafter.survives⟩
  · intro hs
    unfold EventStore.saveSession at hs ⊢
    simp only [List.mem_filter,decide_eq_true_eq,not_and_not_right]
    intro hdead
    by_contra hne
    have hold : s ∈ st.sessions := by
      dsimp only at hs
      split_ifs at hs
      · exact hs
      · rcases List.mem_append.mp hs with hs | hs
        · exact hs
        · exact absurd (List.mem_singleton.mp hs) hne
    exact h.apart hold hdead
  · intro hgone
    have hne : id ≠ s := by simpa [DeletionEvent.stores] using (gone_snoc (d := .stored id) nofun hgone).2
    obtain ⟨hdead,hcache,hdrain⟩ := hafter.gone hgone
    refine ⟨?_,hcache,hdrain⟩
    unfold EventStore.saveSession
    simp only [List.mem_filter,decide_eq_true_eq]
    exact ⟨hdead,hne.symm⟩

theorem mem_foldl_insert {α : Type} [DecidableEq α] {x : α} (ids old : List α) :
    x ∈ ids.foldl (fun ids id => if id ∈ ids then ids else ids ++ [id]) old → x ∈ old ∨ x ∈ ids := by
  induction ids generalizing old with
  | nil => exact .inl
  | cons id ids ih =>
    intro hx
    rcases ih _ hx with hx | hx
    · dsimp only at hx
      split_ifs at hx
      · exact .inl hx
      · rcases List.mem_append.mp hx with hx | hx
        · exact .inl hx
        · exact .inr (by rw [List.mem_singleton.mp hx]; exact List.mem_cons_self)
    · exact .inr (List.mem_cons_of_mem id hx)

theorem Kept.storeAll (h : Kept tr st s) {ids : List String} (hids : ∀ id ∈ ids, id ∉ st.deletedSessions) :
    Kept (tr ++ ids.map .stored) (st.upsertSessions ids) s := by
  have hafter := @Kept.others _ _ _ _ h (ids.map .stored) (by
    intro d hd
    obtain ⟨id,-,rfl⟩ := List.mem_map.mp hd
    exact ⟨rfl,rfl,nofun⟩)
  refine ⟨hafter.line,?_,hafter.gone,hafter.inOrder,hafter.survives⟩
  intro hs
  rcases mem_foldl_insert ids st.sessions hs with hs | hs
  · exact h.apart hs
  · exact hids s hs

theorem EventStore.push_same (st : EventStore β) (entry : TimelineEntry β) :
    (st.push entry).sessions = st.sessions ∧ (st.push entry).deletedSessions = st.deletedSessions := by
  have hcached := (EventStore.getCachedEvents_same st entry.sessionId).trans
    (EventStore.cacheEvents_same (st.getCachedEvents entry.sessionId).1 entry.sessionId
      (st.known entry.sessionId ++ [entry]) (st.cachedWhole entry.sessionId))
  unfold EventStore.push
  rw [(EventStore.setLatest_same _ _ _).sessions,(EventStore.setLatest_same _ _ _).deleted]
  exact ⟨hcached.sessions,hcached.deleted⟩

theorem Kept.append (h : Kept tr st s) (id : String) (body : β) (eventSeq : Option Int)
    (hjoined : id = "" ∨ id ∈ st.deletedSessions ∨ st.Joined id) :
    Kept (tr ++ (st.appendEvent id body eventSeq).2.toList.map .appended)
      (st.appendEvent id body eventSeq).1 s := by
  by_cases hrefused : id = "" ∨ id ∈ st.deletedSessions
  · rw [EventStore.appendEvent,if_pos hrefused]
    simpa using h
  · have hchains := hjoined.resolve_left (fun hempty => hrefused (.inl hempty))
    replace hchains := hchains.resolve_left (fun hdead => hrefused (.inr hdead))
    rw [EventStore.appendEvent_eq st id body eventSeq hrefused]
    generalize hentry : TimelineEntry.mk id body
      (nextSeq ((st.currentSeq id).2.getD 0) eventSeq) = entry
    have hid : entry.sessionId = id := by rw [← hentry]
    have hsame := EventStore.currentSeq_same st id
    have hpushed := EventStore.push_pushed (st.currentSeq id).1 entry
    obtain ⟨hsessions,hdeleted⟩ := EventStore.push_same (st.currentSeq id).1 entry
    rw [hsame.sessions] at hsessions
    rw [hsame.deleted] at hdeleted
    simp only [Option.toList_some,List.map_cons,List.map_nil]
    by_cases hs : s = id
    · subst hs
      have hqueue := EventStore.queueEventWrite_work h.line hchains entry
      have hwrites : ((st.currentSeq s).1.push entry).eventWriteChains =
          (st.queueEventWrite s entry).eventWriteChains := by
        rw [hpushed.chains,hid]
        exact EventStore.queueEventWrite_congr hsame s entry
      have hwork : ((st.currentSeq s).1.push entry).work s = st.work s ++ [.append entry] := by
        rw [← hqueue.2]
        unfold EventStore.work
        rw [hwrites]
      have hfiles : ((st.currentSeq s).1.push entry).files s = st.files s := by
        rw [hpushed.files,hsame.files]
      refine ⟨?_,?_,?_,?_,?_⟩
      · rw [hwrites]
        exact hqueue.1
      · rw [hsessions,hdeleted]
        exact h.apart
      · intro hgone
        exact absurd (h.gone (gone_snoc (d := .appended entry) (by simp) hgone).1).1 (fun hdead => hrefused (.inr hdead))
      · rw [EventStore.queued_eq,hwork,List.filterMap_append,List.filterMap_append,List.filterMap_append,
          ← EventStore.queued_eq,h.inOrder]
        simp [DeletionEvent.appendedTo,DeletionEvent.wroteTo,FileJob.line,hid]
      · rw [hfiles,hwork]
        intro pre other post htr hother hnone
        rcases split_append htr with ⟨mid,hpre,rfl⟩ | ⟨mid,-,hmid⟩
        · have hold := @Survives.mono _ mid [.appended entry] _ _ _ (h.survives pre other mid hpre hother
            (fun hmem => hnone (List.mem_append_left _ hmem)))
          rcases hold with ⟨before,after,hafter,hremove⟩ | hfailed | ⟨hline,hremove⟩
          · exact .inl ⟨before,after ++ [.append entry],by simp [hafter],by simp [hremove]⟩
          · exact .inr (.inl hfailed)
          · exact .inr (.inr ⟨hline,by simp [hremove]⟩)
        · cases mid with
          | nil =>
            cases hmid
            exact .inl ⟨st.work s,[],rfl,List.not_mem_nil⟩
          | cons m mid => simp at hmid
    · have haside := (EventStore.currentSeq_aside st id hs).trans
        (hpushed.aside s (by rw [hid]; exact hs))
      have hafter := @Kept.other _ _ _ _ h (.appended entry)
        (by simp [DeletionEvent.appendedTo,hid,Ne.symm hs]) rfl (by simp)
      exact hafter.aside haside (fun hmem => hsessions ▸ hmem) (by rw [hdeleted])

theorem work_of_written (h : st.Written s) (hnone : (st.eventWriteChains s).any WriteChain.current = false) :
    (st.work s).any FileJob.isAppend = false := by
  rw [List.any_eq_false]
  intro job hjob
  obtain ⟨chain,hchain,hjob⟩ := List.mem_flatMap.mp (List.mem_of_mem_filter hjob)
  have hcurrent : chain.current = false := by simpa using List.any_eq_false.mp hnone chain hchain
  exact List.any_eq_false.mp (h chain hchain hcurrent) job hjob

theorem Kept.delete (h : Kept tr st s) {id : String} (hwritten : st.Written id) :
    Kept (tr ++ [.deleted id]) (st.deleteSession id) s := by
  have hsessions : (st.deleteSession id).sessions = st.sessions.filter (· ≠ id) := by
    unfold EventStore.deleteSession
    dsimp only
    split_ifs
    · rfl
    · rfl
  have hdeleted : (st.deleteSession id).deletedSessions = id :: st.deletedSessions := by
    unfold EventStore.deleteSession
    dsimp only
    split_ifs
    · rfl
    · rfl
  by_cases hs : s = id
  · subst hs
    have hcache : (st.deleteSession s).eventCache.get s = none := by
      have herased : (st.eventCache.erase s).get s = none := by rw [OrdMap.get_erase,if_pos rfl]
      unfold EventStore.deleteSession
      dsimp only
      split_ifs
      · exact herased
      · exact herased
    obtain ⟨hline,hwork⟩ := EventStore.deleteSession_work h.line
    refine ⟨hline,?_,?_,?_,?_⟩
    · intro hmem
      rw [hsessions,List.mem_filter] at hmem
      simp at hmem
    · intro _
      rw [hdeleted]
      refine ⟨List.mem_cons_self,hcache,?_⟩
      rcases hwork with ⟨hwork,hfile⟩ | ⟨hnone,hwork,hfile⟩
      · rw [hwork]
        exact EventStore.drain_append_remove _ _
      · rw [hwork,hfile]
        exact EventStore.drain_of_no_append (work_of_written hwritten hnone)
    · have hqueued : (st.deleteSession s).queued s = st.queued s := by
        rw [EventStore.queued_eq,EventStore.queued_eq]
        rcases hwork with ⟨hwork,-⟩ | ⟨-,hwork,-⟩
        · rw [hwork,List.filterMap_append]
          exact List.append_nil _
        · rw [hwork]
      rw [hqueued,List.filterMap_append,List.filterMap_append,h.inOrder,List.append_assoc,List.append_assoc]
      exact congrArg _ (List.append_nil _)
    · intro pre entry post htr _ hnone
      rcases split_append htr with ⟨mid,-,rfl⟩ | ⟨mid,-,hmid⟩
      · exact absurd (List.mem_append_right mid (List.mem_singleton.mpr rfl)) hnone
      · cases mid with
        | nil => cases hmid
        | cons m mid => simp at hmid
  · have hafter := @Kept.other _ _ _ _ h (.deleted id) rfl rfl (by
      intro heq
      cases heq
      exact hs rfl)
    refine hafter.aside (EventStore.deleteSession_aside st hs) ?_ ?_
    · rw [hsessions]
      exact List.mem_of_mem_filter
    · rw [hdeleted,List.mem_cons]
      exact or_iff_right hs

theorem EventStore.runFileJob_same (st : EventStore β) (id : String) (k : Nat) (ok : Bool) :
    (st.runFileJob id k ok).sessions = st.sessions ∧
      (st.runFileJob id k ok).deletedSessions = st.deletedSessions ∧
      (st.runFileJob id k ok).eventCache = st.eventCache := by
  unfold runFileJob
  dsimp only
  split
  · exact ⟨rfl,rfl,rfl⟩
  · split
    · exact ⟨rfl,rfl,rfl⟩
    · exact ⟨rfl,rfl,rfl⟩
    · exact ⟨rfl,rfl,rfl⟩
    · exact ⟨rfl,rfl,rfl⟩

theorem Survives.jobDone {post : List (DeletionEvent β)} {file : List (EventLine β)}
    {work : List (FileJob β)} {job : FileJob β} {ok : Bool} {entry : TimelineEntry β}
    (h : Survives post file ([job].filter FileJob.works ++ work) entry) :
    Survives (post ++ job.line.toList.map (.wrote entry.sessionId · ok)) (EventStore.jobDone ok file job)
      work entry := by
  cases job with
  | settled => exact h.mono
  | remove =>
    rcases h with ⟨before,after,hwork,hafter⟩ | hfailed | ⟨-,hremove⟩
    · cases before with
      | nil => cases hwork
      | cons first before =>
        exact .inl ⟨before,after,(List.cons.inj hwork).2,hafter⟩
    · exact .inr (.inl (List.mem_append_left _ hfailed))
    · exact absurd List.mem_cons_self hremove
  | append written =>
    rcases h with ⟨before,after,hwork,hafter⟩ | hfailed | ⟨hline,hremove⟩
    · cases before with
      | nil =>
        cases hwork
        cases ok with
        | true => exact .inr (.inr ⟨List.mem_append_right file (List.mem_singleton.mpr rfl),hafter⟩)
        | false => exact .inr (.inl (List.mem_append_right post (List.mem_singleton.mpr rfl)))
      | cons first before => exact .inl ⟨before,after,(List.cons.inj hwork).2,hafter⟩
    · exact .inr (.inl (List.mem_append_left _ hfailed))
    · refine .inr (.inr ⟨?_,fun hmem => hremove (List.mem_cons_of_mem _ hmem)⟩)
      unfold EventStore.jobDone
      split_ifs
      · exact List.mem_append_left _ hline
      · exact hline

theorem Kept.jobDone (h : Kept tr st s) {k : Nat} {job : FileJob β} (hjob : st.nextJob s k = some job)
    (ok : Bool) : Kept (tr ++ job.line.toList.map (.wrote s · ok)) (st.runFileJob s k ok) s := by
  obtain ⟨hline,hwork,hfile⟩ := EventStore.runFileJob_work h.line hjob ok
  obtain ⟨hsessions,hdeleted,hcache⟩ := EventStore.runFileJob_same st s k ok
  have hquiet : ∀ d ∈ job.line.toList.map (DeletionEvent.wrote s · ok),
      d.appendedTo s = none ∧ d ≠ .deleted s ∧ ∀ entry, d ≠ .appended entry := by
    intro d hd
    obtain ⟨entry,-,rfl⟩ := List.mem_map.mp hd
    exact ⟨rfl,nofun,nofun⟩
  have hbefore {tr' : List (DeletionEvent β)} (hgone : Gone s (tr ++ tr'))
      (hd : ∀ d ∈ tr', d ≠ .deleted s) : Gone s tr := by
    induction tr' using List.reverseRecOn with
    | nil => simpa using hgone
    | append_singleton tr' d ih =>
      rw [← List.append_assoc] at hgone
      exact ih (gone_snoc (hd d (by simp)) hgone).1 (fun e he => hd e (by simp [he]))
  refine ⟨hline,?_,?_,?_,?_⟩
  · rw [hsessions,hdeleted]
    exact h.apart
  · intro hgone
    obtain ⟨hdead,hnone,hdrain⟩ := h.gone (hbefore hgone (fun d hd => (hquiet d hd).2.1))
    rw [hdeleted,hcache]
    refine ⟨hdead,hnone,?_⟩
    rw [hwork] at hdrain
    rw [hfile]
    cases job with
    | append entry =>
      refine EventStore.drain_eq_nil hdrain (fun hne => absurd hne ?_)
      simp [EventStore.jobDone]
    | settled => exact hdrain
    | remove => exact hdrain
  · have hnone : (job.line.toList.map (DeletionEvent.wrote s · ok)).filterMap
        (DeletionEvent.appendedTo s) = [] := by
      rw [List.filterMap_eq_nil_iff]
      exact fun d hd => (hquiet d hd).1
    have hwrote : (job.line.toList.map (DeletionEvent.wrote s · ok)).filterMap
        (DeletionEvent.wroteTo s) = job.line.toList := by
      cases job.line with
      | none => rfl
      | some entry => simp [DeletionEvent.wroteTo]
    have hqueued : st.queued s = job.line.toList ++ (st.runFileJob s k ok).queued s := by
      rw [EventStore.queued_eq,EventStore.queued_eq,hwork,List.filterMap_append]
      cases job <;> rfl
    rw [List.filterMap_append,List.filterMap_append,hnone,hwrote,List.append_nil,h.inOrder,hqueued,
      List.append_assoc]
  · intro pre entry post htr hentry hdeleted
    rcases split_append htr with ⟨mid,hpre,rfl⟩ | ⟨mid,-,hmid⟩
    · have hold := h.survives pre entry mid hpre hentry
        (fun hmem => hdeleted (List.mem_append_left _ hmem))
      rw [hwork] at hold
      rw [hfile]
      subst hentry
      exact hold.jobDone
    · have hmem : DeletionEvent.appended entry ∈ job.line.toList.map (DeletionEvent.wrote s · ok) := by
        rw [hmid]
        simp
      exact absurd rfl ((hquiet _ hmem).2.2 entry)

theorem Kept.fileJob (h : Kept tr st s) (id : String) (k : Nat) (ok : Bool) :
    Kept (tr ++ ((st.nextJob id k).bind FileJob.line).toList.map (.wrote id · ok))
      (st.runFileJob id k ok) s := by
  cases hjob : st.nextJob id k with
  | none =>
    rw [EventStore.runFileJob_of_none hjob]
    simpa using h
  | some job =>
    by_cases hs : s = id
    · subst hs
      exact h.jobDone hjob ok
    · obtain ⟨hsessions,hdeleted,-⟩ := EventStore.runFileJob_same st id k ok
      have hafter := @Kept.others _ _ _ _ h (job.line.toList.map (.wrote id · ok)) (by
        intro d hd
        obtain ⟨entry,-,rfl⟩ := List.mem_map.mp hd
        exact ⟨rfl,by simp [DeletionEvent.wroteTo,Ne.symm hs],nofun⟩)
      exact hafter.aside (EventStore.runFileJob_aside st hs k ok) (fun hmem => hsessions ▸ hmem)
        (by rw [hdeleted])

theorem Kept.step {st : DeletionStore β} (h : Kept tr st.events s) {i : DeletionInput β}
    (hi : st.Orderly i) : Kept (tr ++ (st.step i).2) (st.step i).1.events s := by
  cases i with
  | saveSession id => exact h.store id
  | upsertSession id => exact h.store id
  | upsertSessions ids => exact h.storeAll hi
  | appendEvent id body eventSeq => exact h.append id body eventSeq hi
  | fileJob id k ok => exact h.fileJob id k ok
  | deleteSession id =>
    have hdeleted := h.delete hi
    show Kept (tr ++ (st.deleteSession id).2) (st.deleteSession id).1.events s
    unfold DeletionStore.deleteSession
    cases st.subagentRelations.get id with
    | none => exact hdeleted
    | some parent =>
      dsimp only
      split_ifs
      · have hstored := hdeleted.store parent
        rw [List.append_assoc] at hstored
        exact hstored
      · exact hdeleted

end Keeping

theorem Kept.start (files : String → List (EventLine β)) (sessions : List String) (s : String) :
    Kept [] { EventStore.start files with sessions := sessions } s where
  line := List.Pairwise.nil
  apart _ := List.not_mem_nil
  gone h := absurd h Since.nil
  inOrder := rfl
  survives pre entry post h := by simp at h

/-- Whatever the order of the operations and of the writes, the tombstones keep their promises
while every step is orderly. -/
theorem tombstones_exact (files : String → List (EventLine β)) {tr : List (DeletionEvent β)}
    {st : DeletionStore β} (hr : (deletions files).Run (fun _ st i => st.Orderly i) tr st) :
    TombstonesExact tr st.events := by
  have hkept (s : String) : Kept tr st.events s := by
    refine hr.invariant (P := fun tr st => Kept tr st.events s) ?_ ?_
    · intro st hinit
      have hevents : st.events = { EventStore.start files with sessions := st.events.sessions } := hinit
      rw [hevents]
      exact Kept.start files st.events.sessions s
    · exact fun tr st i h hi => h.step hi
  refine ⟨?_,?_,?_,?_,?_⟩
  · intro s hs
    have hdead := (hkept s).apart hs
    refine ⟨hdead,?_⟩
    intro hne body eventSeq
    rw [EventStore.appendEvent_eq st.events s body eventSeq (not_or.mpr ⟨hne,hdead⟩)]
    rfl
  · exact fun s hgone => ((hkept s).gone hgone).2.1
  · intro s hgone hidle
    have hdrain := ((hkept s).gone hgone).2.2
    have hchains : st.events.eventWriteChains s = [] := by
      simpa [EventStore.idle] using hidle
    have hwork : st.events.work s = [] := by
      unfold EventStore.work
      rw [hchains]
      rfl
    rw [hwork] at hdrain
    exact hdrain
  · intro pre entry post htr hnone
    rcases (hkept entry.sessionId).survives pre entry post htr rfl hnone with
      ⟨before,after,hwork,-⟩ | hfailed | ⟨hline,-⟩
    · refine .inl ?_
      rw [EventStore.queued_eq,hwork,List.filterMap_append]
      exact List.mem_append_right _ List.mem_cons_self
    · exact .inr (.inl hfailed)
    · exact .inr (.inr hline)
  · exact fun s => (hkept s).inOrder

instance (st : EventStore β) (s : String) : Decidable (st.Joined s) :=
  inferInstanceAs (Decidable (∀ chain ∈ _, _ → _))

instance (st : EventStore β) (s : String) : Decidable (st.Written s) :=
  inferInstanceAs (Decidable (∀ chain ∈ _, _ → _))

instance (st : DeletionStore β) : (i : DeletionInput β) → Decidable (st.Orderly i)
  | .upsertSessions ids => inferInstanceAs (Decidable (∀ id ∈ ids, id ∉ st.events.deletedSessions))
  | .appendEvent s _ _ => inferInstanceAs (Decidable (s = "" ∨ s ∈ st.events.deletedSessions ∨ _))
  | .deleteSession s => inferInstanceAs (Decidable (st.events.Written s))
  | .saveSession _ | .upsertSession _ | .fileJob _ _ _ => isTrue trivial

namespace Sample

def emptyStore : DeletionStore Unit := ⟨EventStore.start fun _ => [],.empty⟩

def deletionRun (is : List (DeletionInput Unit)) : List (DeletionEvent Unit) × DeletionStore Unit :=
  (deletions fun _ => []).exec [] emptyStore is

/-- A session is deleted while its first event is being written, stored again under the same
id, and gets a second event; then the first write ends and the file is removed. -/
def storedAgain : List (DeletionInput Unit) :=
  [.saveSession "s1",.appendEvent "s1" () none,.deleteSession "s1",.saveSession "s1",
    .appendEvent "s1" () none,.fileJob "s1" 0 true,.fileJob "s1" 0 true,.fileJob "s1" 0 true]

/-- The second write ends before a third event comes. -/
def writtenAgain : List (DeletionInput Unit) :=
  storedAgain ++ [.fileJob "s1" 0 true,.fileJob "s1" 0 true,.appendEvent "s1" () none]

/-- The third event comes before, and its write overtakes the second. -/
def overtaken : List (DeletionInput Unit) :=
  storedAgain ++ [.appendEvent "s1" () none,.fileJob "s1" 1 true]

/-- The session is deleted once more before. -/
def deletedAgain : List (DeletionInput Unit) :=
  storedAgain ++ [.deleteSession "s1",.fileJob "s1" 0 true,.fileJob "s1" 0 true]

/-- A deleted session is imported again. -/
def imported : List (DeletionInput Unit) :=
  [.saveSession "s1",.deleteSession "s1",.upsertSessions ["s1"]]

end Sample

/-- An imported session stays under its tombstone; the removal forgets a write that is still to
be done, so a later one overtakes it, and a second deletion leaves its line on the file. -/
theorem tombstones_not_exact :
    ¬ TombstonesExact (Sample.deletionRun Sample.imported).1
      (Sample.deletionRun Sample.imported).2.events ∧
    ¬ TombstonesExact (Sample.deletionRun Sample.overtaken).1
      (Sample.deletionRun Sample.overtaken).2.events ∧
    ¬ TombstonesExact (Sample.deletionRun Sample.deletedAgain).1
      (Sample.deletionRun Sample.deletedAgain).2.events := by
  refine ⟨?_,?_,?_⟩
  · intro h
    exact (h.recorded "s1" (by decide)).1 (by decide)
  · intro h
    have horder := h.inOrder "s1"
    revert horder
    decide
  · intro h
    have hgone : Gone "s1" (Sample.deletionRun Sample.deletedAgain).1 :=
      ⟨(Sample.deletionRun Sample.deletedAgain).1.take 6,
        (Sample.deletionRun Sample.deletedAgain).1.drop 7,by decide,by decide⟩
    have hfile := h.noFile "s1" hgone (by decide)
    revert hfile
    decide

/-- When the second write ends first, it is there after the removal and the third is queued. -/
theorem writtenAgain_exact :
    TombstonesExact (Sample.deletionRun Sample.writtenAgain).1
        (Sample.deletionRun Sample.writtenAgain).2.events ∧
      (Sample.deletionRun Sample.writtenAgain).2.events.files "s1" =
        [.entry "s1" () (some 1)] ∧
      (Sample.deletionRun Sample.writtenAgain).2.events.queued "s1" = [⟨"s1",(),2⟩] := by
  refine ⟨?_,by decide,by decide⟩
  have hrun := Machine.Run.exec Sample.writtenAgain
    (@Machine.Run.start _ _ _ (deletions fun _ => []) (fun _ st i => st.Orderly i) Sample.emptyStore rfl)
    (by decide)
  exact tombstones_exact (fun _ => []) hrun

end CodeHarbor.Gateway
