import CodeHarbor.Network.Segments
set_option autoImplicit false

namespace CodeHarbor.Network
open Lib Lib.Go Lib.Base64 Relay

def ClusterEvent.answers (entry : Nat) : ClusterEvent → Bool
  | .toBrowser _ _ (some e) => e = entry
  | _ => false

def given (entry : Nat) (tr : List ClusterEvent) : Nat := tr.countP (ClusterEvent.answers entry)

/-- An answer is for the browser that sent the request, and comes from the relay or from the
device that the request is for. -/
def Cluster.Genuine (n : Cluster) (tr : List ClusterEvent) (entry b : Nat) (frame : BrowserFrame) : Prop :=
  ∃ a, n.accepted[entry]? = some a ∧ a.browser = b ∧
    ((∃ error : ProxyError, frame = error.frame a.request.requestId) ∨
      ∃ k body, frame = .proxyResponse a.request.requestId body ∧
        .deviceSent k a.request.deviceId (.proxyResponse a.request.requestId body) ∈ tr)

def AnsweredOnce (tr : List ClusterEvent) (n : Cluster) : Prop :=
  (∀ entry, given entry tr ≤ 1) ∧
    ∀ b frame entry, .toBrowser b frame (some entry) ∈ tr → n.Genuine tr entry b frame

/-- The timer's callback, and the failed publication, still find their own entry in
`r.pending` when they get the lock. -/
def Cluster.findsPending (n : Cluster) (input : ClusterInput) : Bool :=
  match input with
  | .proceed i =>
    match (n.tasks[i]?).map Task.work with
    | some (.timing entry) => n.isPending entry
    | some (.withdrawing entry) => n.isPending entry
    | _ => true
  | _ => true

def Work.answers (entry : Nat) : Work → Bool
  | .offline e => e = entry
  | .timedOut e => e = entry
  | .responding e _ _ => e = entry
  | _ => false

/-- The answer that an entry is good for. -/
def Cluster.room (n : Cluster) (entry : Nat) : Nat := (decide (entry < n.accepted.length)).toNat

def Cluster.due (n : Cluster) (entry : Nat) : Nat := (n.isPending entry).toNat

/-- The answers that were given, those on their way and those still open. -/
def Cluster.Settled (tr : List ClusterEvent) (n : Cluster) : Prop :=
  ∀ entry, given entry tr + n.doing (Work.answers entry) + n.due entry ≤ n.room entry

/-- The answers that a segment gives, those it goes on to give and those left open are among
the ones it had in hand and the ones that were open. -/
def Cluster.Balances (n n' : Cluster) (held : Nat → Nat) (out : List ClusterEvent) (next : Option Work) : Prop :=
  ∀ entry, given entry out + (next.any (Work.answers entry)).toNat + n'.due entry + n.room entry ≤
    held entry + n.due entry + n'.room entry

section Answers

variable {n n' : Cluster} {tr out : List ClusterEvent}

theorem Work.answers_entry {entry : Nat} (w : Work) (h : w.answers entry = true) : w.entry ≠ none := by
  cases w <;> simp_all [Work.answers,Work.entry]

/-! Entries. -/

theorem Cluster.isPending_iff {entry : Nat} : n.isPending entry = true ↔
    ∃ a, n.accepted[entry]? = some a ∧ n.pending.get a.key = some entry := by
  unfold isPending
  cases n.accepted[entry]? with
  | none => simp
  | some a => simp

theorem Cluster.due_eq (haccepted : n'.accepted = n.accepted) (hpending : n'.pending = n.pending)
    (entry : Nat) : n'.due entry = n.due entry := by
  rw [Cluster.due,Cluster.due,isPending,isPending,haccepted,hpending]

theorem Cluster.room_eq (haccepted : n'.accepted = n.accepted) (entry : Nat) :
    n'.room entry = n.room entry := by
  rw [room,room,haccepted]

theorem Cluster.due_le (haccepted : n'.accepted = n.accepted)
    (hpending : ∀ key e, n'.pending.get key = some e → n.pending.get key = some e) (entry : Nat) :
    n'.due entry ≤ n.due entry := by
  refine Bool.toNat_le_toNat ?_
  intro hdue
  obtain ⟨a,ha,hget⟩ := isPending_iff.mp hdue
  exact isPending_iff.mpr ⟨a,haccepted ▸ ha,hpending _ _ hget⟩

theorem Cluster.due_of_not {entry : Nat} (h : n.isPending entry ≠ true) : n.due entry = 0 := by
  rw [Cluster.due,Bool.eq_false_iff.mpr h]
  rfl

theorem Cluster.due_of {entry : Nat} (h : n.isPending entry = true) : n.due entry = 1 := by
  rw [Cluster.due,h]
  rfl

theorem Cluster.erase_pending_le (key : Nat × Text) (entry : Nat) :
    Cluster.due { n with pending := n.pending.erase key } entry ≤ n.due entry := by
  refine due_le (n := n) ?_ ?_ entry
  · rfl
  · intro k e hget
    rw [OrdMap.get_erase] at hget
    split_ifs at hget
    exact hget

theorem Cluster.take_due {e : Nat} {a : Accepted} (ha : n.accepted[e]? = some a)
    (hget : n.pending.get a.key = some e) (entry : Nat) :
    (decide (e = entry)).toNat + Cluster.due { n with pending := n.pending.erase a.key } entry ≤
      n.due entry := by
  by_cases hsame : e = entry
  · subst hsame
    have hbefore : n.due e = 1 := due_of (isPending_iff.mpr ⟨a,ha,hget⟩)
    have hafter : Cluster.due { n with pending := n.pending.erase a.key } e = 0 := by
      refine due_of_not ?_
      intro hdue
      obtain ⟨a',ha',hget'⟩ := isPending_iff.mp hdue
      have heq : some a = some a' := ha.symm.trans ha'
      cases heq
      simp [OrdMap.get_erase] at hget'
    simp [hbefore,hafter]
  · simpa [hsame] using erase_pending_le a.key entry

theorem Cluster.accept_due {a : Accepted} (devices : OrdMap (Nat × Text) Nat)
    (hpending : ∀ key e, n.pending.get key = some e → e < n.accepted.length) (entry : Nat) :
    let n' : Cluster := { n with
      devices := devices
      accepted := n.accepted ++ [a]
      pending := n.pending.set a.key n.accepted.length }
    n'.due entry + n.room entry ≤ n.due entry + n'.room entry := by
  intro n'
  by_cases hnew : entry = n.accepted.length
  · have hbefore : n.room entry = 0 := by simp [room,hnew]
    have hafter : n'.room entry = 1 := by simp [room,n',hnew]
    have hdue : n'.due entry ≤ 1 := Bool.toNat_le _
    omega
  · have hroom : n'.room entry = n.room entry := by
      have hiff : entry < n.accepted.length + 1 ↔ entry < n.accepted.length := by omega
      simp only [room,n',List.length_append,List.length_singleton,hiff]
    have hdue : n'.due entry ≤ n.due entry := by
      refine Bool.toNat_le_toNat ?_
      intro h
      obtain ⟨a',ha',hget⟩ := isPending_iff.mp h
      dsimp only [n'] at ha' hget
      rw [OrdMap.get_set] at hget
      split_ifs at hget with hkey
      · cases hget
        exact absurd rfl hnew
      · refine isPending_iff.mpr ⟨a',?_,hget⟩
        rwa [List.getElem?_append_left (hpending _ _ hget)] at ha'
    omega

/-! What segments give. -/

theorem given_answer (n : Cluster) (o : Outcome) (e : Nat) (frame : Accepted → BrowserFrame) (entry : Nat) :
    given entry (n.answer o e frame) ≤ (decide (e = entry)).toNat := by
  unfold Cluster.answer
  cases n.accepted[e]? with
  | none => exact Nat.zero_le _
  | some a =>
    dsimp only
    unfold sendBrowser
    split_ifs
    · exact Nat.zero_le _
    · by_cases hsame : e = entry <;> simp [given,ClusterEvent.answers,hsame]

theorem given_eq_zero {entry : Nat} (h : ∀ e ∈ out, e.answers entry = false) : given entry out = 0 := by
  rw [given,List.countP_eq_zero]
  intro e he
  simp [h e he]

theorem Cluster.AllFit.given {m : Cluster} (h : m.AllFit tr out) (entry : Nat) :
    Network.given entry out = 0 := by
  refine given_eq_zero ?_
  intro e he
  have hfits := h e he
  cases e with
  | toBrowser b frame of =>
    rw [hfits.2]
    rfl
  | _ => rfl

theorem given_hand (n : Cluster) (o : Outcome) (k e entry : Nat) : given entry (n.hand o k e) = 0 := by
  refine given_eq_zero ?_
  intro event hmem
  obtain ⟨s,a,-,-,-,rfl⟩ := Cluster.mem_hand hmem
  rfl

theorem answers_none {work : Option Work} (h : ∀ w, work = some w → w.entry = none) (entry : Nat) :
    work.any (Work.answers entry) = false := by
  cases work with
  | none => rfl
  | some w =>
    rw [Option.any_some,Bool.eq_false_iff]
    intro hanswers
    exact Work.answers_entry w hanswers (h w rfl)

theorem Cluster.Aside.balances (h : n.Aside n') {next : Option Work} (hnext : ∀ w, next = some w → w.entry = none)
    (hout : ∀ entry, given entry out = 0) (held : Nat → Nat) : n.Balances n' held out next := by
  intro entry
  have hnone := hout entry
  have hdue := due_eq h.accepted h.pending entry
  have hroom := room_eq h.accepted entry
  rw [answers_none hnext entry,Bool.toNat_false]
  omega

theorem Cluster.balances_give {held : Nat → Nat} {next : Option Work} (haccepted : n'.accepted = n.accepted)
    (hpending : n'.pending = n.pending)
    (hgiven : ∀ entry, given entry out + (next.any (Work.answers entry)).toNat ≤ held entry) :
    n.Balances n' held out next := by
  intro entry
  have hgive := hgiven entry
  have hdue := due_eq haccepted hpending entry
  have hroom := room_eq haccepted entry
  omega

theorem Cluster.balances_nil (n : Cluster) (held : Nat → Nat) : n.Balances n held [] none :=
  balances_give rfl rfl (fun _ => Nat.zero_le _)

theorem Cluster.balances_take {e : Nat} {a : Accepted} {work : Work} (held : Nat → Nat)
    (ha : n.accepted[e]? = some a) (hget : n.pending.get a.key = some e)
    (hwork : ∀ entry, work.answers entry = decide (e = entry)) :
    n.Balances { n with pending := n.pending.erase a.key } held [] (some work) := by
  intro entry
  have htake := take_due ha hget entry
  have hroom : Cluster.room { n with pending := n.pending.erase a.key } entry = n.room entry := rfl
  have hnone : given entry [] = 0 := rfl
  rw [Option.any_some,hwork]
  omega

theorem Cluster.balances_throw {held : Nat → Nat} (haccepted : n'.accepted = n.accepted)
    (hdue : ∀ entry, given entry out + n'.due entry ≤ n.due entry) : n.Balances n' held out none := by
  intro entry
  have hless := hdue entry
  have hroom := room_eq haccepted entry
  rw [Option.any_none,Bool.toNat_false]
  omega

theorem Cluster.Sound.pending_lt (h : n.Sound tr) (key : Nat × Text) (e : Nat)
    (hget : n.pending.get key = some e) : e < n.accepted.length := by
  obtain ⟨a,ha,-⟩ := h.pending key e hget
  exact (List.getElem?_eq_some_iff.mp ha).1

theorem Cluster.Sound.balances_takePending (h : n.Sound tr) {relay entry : Nat}
    {requestId deviceId ownerUser body : Text} (held : Nat → Nat)
    (htake : n.takePending relay requestId deviceId ownerUser = some (entry,n')) :
    n.Balances n' held [] (some (.responding entry requestId body)) := by
  obtain ⟨a,hget,ha,-,-,rfl⟩ := takePending_spec htake
  obtain ⟨a',ha',hkey⟩ := h.pending _ _ hget
  have heq : some a = some a' := ha.symm.trans ha'
  cases heq
  rw [← hkey] at hget ⊢
  exact balances_take held ha hget (fun _ => rfl)

theorem Cluster.Sound.perform_balances (h : n.Sound tr) (c : Config) (o : Outcome) {work : Work}
    (hw : work.Sound n tr)
    (hfinds : ∀ entry, work = .timing entry ∨ work = .withdrawing entry → n.isPending entry = true) :
    n.Balances (n.perform c o work).1 (fun entry => (work.answers entry).toNat) (n.perform c o work).2.1
      (n.perform c o work).2.2 := by
  by_cases hquiet : work.quiet = true
  · have haside := perform_aside (n := n) c o hquiet
    have hcarries : work.carries = false := by
      cases work <;> simp_all [Work.quiet,Work.entry,Work.carries]
    exact haside.1.balances haside.2 (h.allFit_perform c o hw hcarries).given _
  have htake : ∀ {e : Nat} {next : Work}, n.isPending e = true →
      (∀ entry, next.answers entry = decide (e = entry)) →
      n.Balances (n.deletePending e) (fun entry => (work.answers entry).toNat) [] (some next) := by
    intro e next hpending hnext
    obtain ⟨a,ha,hget⟩ := isPending_iff.mp hpending
    rw [deletePending,ha]
    exact balances_take _ ha hget hnext
  cases work with
  | accepting b request =>
    rcases accept_cases (n := n) o b request with haside | ⟨a,devices,device,heq⟩
    · exact haside.1.balances haside.2 (allFit_accept o hw).given _
    · simp only [Cluster.perform]
      rw [heq]
      intro entry
      have hsum := accept_due (a := a) devices h.pending_lt entry
      have hnone : given entry [] = 0 := rfl
      simp only [Option.any_some,Work.answers,Bool.toNat_false]
      omega
  | forwarding entry device =>
    cases device with
    | some k => exact balances_give rfl rfl (fun e => (given_hand n o k entry e).le)
    | none =>
      simp only [Cluster.perform]
      split
      · refine balances_give ?_ ?_ ?_
        · dsimp only
          split <;> rfl
        · dsimp only
          split <;> rfl
        · intro e
          dsimp only
          cases o.ok <;> exact Nat.zero_le _
      · exact balances_give rfl rfl (fun e => Nat.zero_le _)
  | withdrawing entry => exact htake (hfinds entry (.inr rfl)) (fun _ => rfl)
  | offline entry => exact balances_give rfl rfl (fun e => given_answer n o entry _ e)
  | timing entry =>
    simp only [Cluster.perform]
    rw [if_pos (hfinds entry (.inl rfl))]
    exact htake (hfinds entry (.inl rfl)) (fun _ => rfl)
  | timedOut entry => exact balances_give rfl rfl (fun e => given_answer n o entry _ e)
  | handling k message =>
    cases message with
    | proxyResponse requestId body =>
      simp only [Cluster.perform,Cluster.handle]
      cases n.sockets[k]? with
      | none => exact balances_nil n _
      | some s =>
        dsimp only
        cases htaken : n.takePending s.relay requestId s.deviceId s.ownerUser with
        | none =>
          refine balances_give rfl rfl ?_
          intro e
          dsimp only
          cases n.redis <;> exact Nat.zero_le _
        | some taken => exact h.balances_takePending _ htaken
    | _ => exact absurd rfl hquiet
  | responding entry requestId body =>
    exact balances_give rfl rfl (fun e => given_answer n o entry _ e)
  | checking relay k entry =>
    simp only [Cluster.perform]
    split
    · exact balances_nil n _
    · split <;> exact balances_give rfl rfl (fun e => Nat.zero_le _)
  | handing relay k entry => exact balances_give rfl rfl (fun e => (given_hand n o k entry e).le)
  | _ => exact absurd rfl hquiet

theorem Cluster.Sound.redis_balances (h : n.Sound tr) (o : Outcome) (relay : Nat) {envelope : Envelope}
    (henvelope : envelope.Sound n tr) :
    n.Balances (n.handleRedisMessage o relay envelope).1 (fun _ => 0) (n.handleRedisMessage o relay envelope).2.1
      (n.handleRedisMessage o relay envelope).2.2 := by
  cases henv : envelope with
  | proxyRequest entry =>
    simp only [Cluster.handleRedisMessage]
    split
    · exact balances_nil n _
    · split
      · exact balances_nil n _
      · split <;> exact balances_give rfl rfl (fun e => Nat.zero_le _)
  | proxyResponse deviceId ownerUser requestId body =>
    simp only [Cluster.handleRedisMessage]
    split
    · exact balances_nil n _
    · split
      · exact balances_nil n _
      · rename_i htake
        exact h.balances_takePending _ htake
  | _ =>
    rw [← henv]
    have haside : Effect.Aside n (n.handleRedisMessage o relay envelope) := by
      refine handleRedisMessage_aside o relay ?_ ?_
      · rw [henv]
        simp
      · rw [henv]
        simp
    exact haside.1.balances haside.2 (h.allFit_handleRedisMessage o relay henvelope).given _

/-! Removals. -/

theorem given_flatMap_answer (n : Cluster) (o : Outcome) (error : ProxyError) (entries : List Nat)
    (entry : Nat) : given entry (entries.flatMap (n.answerError o · error)) ≤ entries.count entry := by
  induction entries with
  | nil => exact Nat.zero_le _
  | cons e entries ih =>
    have hone := given_answer n o e (fun a => error.frame a.request.requestId) entry
    have hsplit : given entry ((e :: entries).flatMap (n.answerError o · error)) =
        given entry (n.answerError o e error) + given entry (entries.flatMap (n.answerError o · error)) := by
      rw [List.flatMap_cons,given,List.countP_append,given,given]
    have hcount : (e :: entries).count entry = entries.count entry + (decide (e = entry)).toNat := by
      rw [List.count_cons]
      by_cases hsame : e = entry <;> simp [hsame]
    rw [hsplit,hcount,Cluster.answerError]
    omega

theorem Cluster.Sound.pending_nodup (h : n.Sound tr) : (n.pending.entries.map Prod.snd).Nodup := by
  refine List.Nodup.map_on ?_ (List.Nodup.of_map _ n.pending.nodup)
  rintro ⟨key,e⟩ hp ⟨key',e'⟩ hq heq
  dsimp only at heq
  subst heq
  obtain ⟨a,ha,rfl⟩ := h.pending key e (OrdMap.get_eq_some.mpr hp)
  obtain ⟨a',ha',rfl⟩ := h.pending key' e (OrdMap.get_eq_some.mpr hq)
  rw [ha] at ha'
  cases ha'
  rfl

theorem Cluster.Sound.filter_due (h : n.Sound tr) (its : Nat → Bool) (entry : Nat) :
    ((n.pending.entries.map Prod.snd).filter its).count entry +
      Cluster.due { n with pending := n.pending.filter (fun _ e => !its e) } entry ≤ n.due entry := by
  have hpending : ∀ key e, (n.pending.filter (fun _ e => !its e)).get key = some e →
      n.pending.get key = some e := fun key e hget => (OrdMap.get_filter.mp hget).1
  by_cases hmem : entry ∈ (n.pending.entries.map Prod.snd).filter its
  · obtain ⟨hlisted,hits⟩ := List.mem_filter.mp hmem
    obtain ⟨⟨key,e⟩,hentry,rfl⟩ := List.mem_map.mp hlisted
    have hget := OrdMap.get_eq_some.mpr hentry
    obtain ⟨a,ha,rfl⟩ := h.pending key e hget
    have hbefore : n.due e = 1 := due_of (isPending_iff.mpr ⟨a,ha,hget⟩)
    have hafter : Cluster.due { n with pending := n.pending.filter (fun _ e => !its e) } e = 0 := by
      refine due_of_not ?_
      intro hdue
      obtain ⟨a',-,hget'⟩ := isPending_iff.mp hdue
      have hkept := (OrdMap.get_filter.mp hget').2
      simp [hits] at hkept
    have honce := List.nodup_iff_count_le_one.mp (h.pending_nodup.filter its) e
    dsimp only
    omega
  · have hle := @due_le n { n with pending := n.pending.filter (fun _ e => !its e) } rfl hpending entry
    rw [List.count_eq_zero_of_not_mem hmem,Nat.zero_add]
    exact hle

theorem Cluster.Sound.removeBrowser_balances (h : n.Sound tr) (b : Nat) :
    n.Balances (n.removeBrowser b) (fun _ => 0) [] none := by
  refine balances_throw rfl ?_
  intro entry
  have hdue := h.filter_due (fun e => n.accepted[e]?.any (·.browser = b)) entry
  have hsame : (n.removeBrowser b).due entry = Cluster.due { n with
    pending := n.pending.filter (fun _ e => !n.accepted[e]?.any (·.browser = b)) } entry := rfl
  have hnone : given entry [] = 0 := rfl
  omega

theorem Cluster.Sound.removeSocket_balances (h : n.Sound tr) (o : Outcome) (k : Nat) (s : Socket) :
    n.Balances ((n.removeSocket o k s).1.setStage k .closed) (fun _ => 0) (n.removeSocket o k s).2 none := by
  unfold removeSocket
  dsimp only
  split
  · refine balances_throw rfl ?_
    intro entry
    let its := fun e : Nat => n.accepted[e]?.any
      (fun a : Accepted => a.relay = s.relay && a.request.deviceId = s.deviceId)
    have hgiven := given_flatMap_answer n o .deviceDisconnected
      ((n.pending.entries.map Prod.snd).filter its) entry
    have hdue := h.filter_due its entry
    exact (Nat.add_le_add_right hgiven _).trans hdue
  · exact balances_give rfl rfl (fun _ => Nat.zero_le _)

/-! Steps. -/

theorem Cluster.Sound.step_balances (h : n.Sound tr) (c : Config) (o : Outcome) (input : ClusterInput)
    (hfinds : n.findsPending input = true) :
    n.Balances (n.step c o input).1 (fun entry => ((n.current input).any (Work.answers entry)).toNat)
      (n.step c o input).2 (n.next c o input) := by
  by_cases hquiet : n.quiet input = true
  · have hnext : n.next c o input = none := by cases input <;> first | rfl | cases hquiet
    rw [hnext]
    refine (step_aside c o hquiet).balances ?_ ?_ _
    · intro w hw
      cases hw
    · rcases h.step_allFit c o input with hfits | ⟨i,task,rfl,-,-⟩ | ⟨k,s,rfl,hget,hcleared⟩
      · exact hfits.given
      · cases hquiet
      · simp [quiet,hget,hcleared] at hquiet
  cases input with
  | closeBrowser b =>
    simp only [Cluster.step]
    split
    · exact balances_nil n _
    · exact h.removeBrowser_balances b
  | advance k =>
    cases hget : n.sockets[k]? with
    | none => simp [quiet,hget] at hquiet
    | some s =>
      have hcleared : s.stage = .cleared := by simpa [quiet,hget] using hquiet
      simp only [Cluster.step,hget]
      split
      · exact balances_nil n _
      · simp only [Cluster.advance,hcleared]
        exact h.removeSocket_balances o k s
  | proceed i =>
    cases htask : n.tasks[i]? with
    | none =>
      simp only [Cluster.step,next,htask]
      exact balances_nil n _
    | some task =>
      obtain ⟨hsound,hwork⟩ := h.task htask
      have hfound : ∀ entry, task.work = .timing entry ∨ task.work = .withdrawing entry →
          n.isPending entry = true := by
        rintro entry (hw | hw)
        · simpa [findsPending,htask,hw] using hfinds
        · simpa [findsPending,htask,hw] using hfinds
      simp only [Cluster.step,current,next,htask]
      exact hsound.perform_balances c o hwork hfound
  | fire entry =>
    simp only [Cluster.step,next]
    split
    · exact balances_give rfl rfl (fun _ => Nat.zero_le _)
    · exact balances_nil n _
  | deliver i =>
    simp only [Cluster.step,next]
    cases hmessage : n.messages[i]? with
    | none => exact balances_nil n _
    | some m =>
      simp only [Option.bind_some]
      split
      · exact balances_nil n _
      · have herase : Leads tr n tr { n with messages := n.messages.eraseIdx i } :=
          leads_messages (fun t ht => .inl (List.mem_of_mem_eraseIdx ht))
        have henvelope := (h.messages m (List.mem_of_getElem? hmessage)).extends herase.extends_
          herase.trace
        exact (h.leads herase).redis_balances o m.relay henvelope
  | lose i => exact balances_nil n _
  | _ => exact absurd rfl hquiet

theorem Cluster.Sound.step_settled (h : n.Sound tr) (c : Config) (o : Outcome) (input : ClusterInput)
    (hfinds : n.findsPending input = true) (hsettled : n.Settled tr) :
    (n.step c o input).1.Settled (tr ++ (n.step c o input).2) := by
  intro entry
  have hbefore := hsettled entry
  have hdoing := step_doing (n := n) c o input (p := Work.answers entry) Work.answers_entry
  have hstep := h.step_balances c o input hfinds entry
  have hgiven : given entry (tr ++ (n.step c o input).2) =
    given entry tr + given entry (n.step c o input).2 := List.countP_append
  dsimp only at hstep
  omega

theorem Cluster.Genuine.leads {tr' : List ClusterEvent} {entry b : Nat} {frame : BrowserFrame}
    (h : n.Genuine tr entry b frame) (hl : Leads tr n tr' n') : n'.Genuine tr' entry b frame := by
  obtain ⟨a,ha,hbrowser,horigin⟩ := h
  refine ⟨a,hl.extends_.getAccepted ha,hbrowser,?_⟩
  rcases horigin with hrelay | ⟨k,body,hframe,hsent⟩
  · exact .inl hrelay
  · exact .inr ⟨k,body,hframe,hl.trace hsent⟩

theorem Cluster.genuine_error {o : Outcome} {e entry b : Nat} {error : ProxyError} {frame : BrowserFrame}
    (hmem : .toBrowser b frame (some entry) ∈ n.answerError o e error) : n.Genuine tr entry b frame := by
  obtain ⟨a,ha,heq⟩ := mem_answer hmem
  cases heq
  exact ⟨a,ha,rfl,.inl ⟨error,rfl⟩⟩

theorem Cluster.Sound.step_genuine (h : n.Sound tr) (c : Config) (o : Outcome) (input : ClusterInput)
    {entry b : Nat} {frame : BrowserFrame} (hmem : .toBrowser b frame (some entry) ∈ (n.step c o input).2) :
    n.Genuine tr entry b frame := by
  rcases h.step_allFit c o input with hfits | ⟨i,task,rfl,htask,hcarries⟩ | ⟨k,s,rfl,hget,hcleared⟩
  · cases (hfits _ hmem).2
  · simp only [Cluster.step,htask,Effect.by] at hmem
    obtain ⟨-,hwork⟩ := h.task htask
    cases hw : task.work with
    | forwarding e device =>
      cases device with
      | none => simp [hw,Work.carries] at hcarries
      | some k =>
        rw [hw] at hmem
        obtain ⟨s,a,-,-,-,heq⟩ := mem_hand hmem
        cases heq
    | handing r k e =>
      rw [hw] at hmem
      obtain ⟨s,a,-,-,-,heq⟩ := mem_hand hmem
      cases heq
    | offline e =>
      rw [hw] at hmem
      exact genuine_error (n := n) hmem
    | timedOut e =>
      rw [hw] at hmem
      exact genuine_error (n := n) hmem
    | responding e requestId body =>
      rw [hw] at hmem hwork
      obtain ⟨a,ha,rfl,k,hsent⟩ := hwork
      obtain ⟨a',ha',heq⟩ := mem_answer hmem
      cases heq
      have hsame : some a = some a' := ha.symm.trans ha'
      cases hsame
      exact ⟨a,ha,rfl,.inr ⟨k,body,rfl,hsent⟩⟩
    | _ => simp [hw,Work.carries] at hcarries
  · simp only [Cluster.step,hget] at hmem
    split at hmem
    · cases hmem
    · simp only [Cluster.advance,hcleared] at hmem
      obtain ⟨e,he⟩ := mem_removeSocket hmem
      exact genuine_error he

end Answers

/-- In every run in which timers and failed publications find their entries, every accepted
request is answered at most once, by the right party and to the right browser. -/
theorem answered_once (c : Config) {tr : List ClusterEvent} {n : Cluster}
    (hrun : (cluster c).Run (fun _ n input => n.findsPending input.1 = true) tr n) : AnsweredOnce tr n := by
  have hall : n.Sound tr ∧ n.Settled tr ∧
      ∀ b frame entry, .toBrowser b frame (some entry) ∈ tr → n.Genuine tr entry b frame := by
    refine Machine.Run.invariant (P := fun tr n => n.Sound tr ∧ n.Settled tr ∧
      ∀ b frame entry, .toBrowser b frame (some entry) ∈ tr → n.Genuine tr entry b frame) ?_ ?_ hrun
    · rintro n hn
      have hstart : (cluster c).Run (cluster c).free [] n := .start hn
      obtain ⟨-,-,-,haccepted,-,htasks,-⟩ := hn
      refine ⟨cluster_sound c hstart,?_,fun _ _ _ hmem => nomatch hmem⟩
      intro entry
      simp [given,Cluster.doing,htasks,Cluster.due,Cluster.isPending,haccepted]
    · rintro tr n ⟨input,o⟩ ⟨hsound,hsettled,hgenuine⟩ hfinds
      have hleads := hsound.step_leads c o input
      refine ⟨hsound.leads hleads,hsound.step_settled c o input hfinds hsettled,?_⟩
      intro b frame entry hmem
      rcases List.mem_append.mp hmem with hold | hnew
      · exact (hgenuine b frame entry hold).leads hleads
      · exact (hsound.step_genuine c o input hnew).leads hleads
  refine ⟨?_,hall.2.2⟩
  intro entry
  have hsum := hall.2.1 entry
  have hroom : n.room entry ≤ 1 := Bool.toNat_le _
  omega

namespace Sample

def proxied : ProxyRequest := { deviceId := Relay.Sample.device, requestId := "r1".toList }

/-- A request to a device at the same instance, up to the response of the device. -/
def requested : List ClusterInput :=
  [.connectDevice 0 "p1".toList] ++ shakeHands 0 ++
    [.connectBrowser 0 Relay.Sample.amyAccount,.browserFrame 0 (.gatewayProxy proxied),.proceed 0,.proceed 0]

def response : ClusterInput := .deviceFrame 0 (.proxyResponse "r1".toList "ok".toList)

def answered : List ClusterInput := requested ++ [response,.proceed 0,.proceed 0]

/-- The callback of the timer waits for the lock while the response takes the entry. -/
def answeredTwice : List ClusterInput :=
  requested ++ [.fire 0,response,.proceed 1,.proceed 1,.proceed 0,.proceed 0]

end Sample

theorem answered_answered_once :
    let reached := Sample.run Sample.stored Sample.answered
    .toBrowser 0 (.proxyResponse "r1".toList "ok".toList) (some 0) ∈ reached.1 ∧
      AnsweredOnce reached.1 reached.2 := by
  refine ⟨by decide,?_⟩
  refine answered_once Relay.Sample.config (Machine.Run.exec _ (.start ⟨rfl,rfl,rfl,rfl,rfl,rfl,rfl⟩) ?_)
  decide

theorem answeredTwice_not_answered_once :
    ¬ AnsweredOnce (Sample.run Sample.stored Sample.answeredTwice).1
      (Sample.run Sample.stored Sample.answeredTwice).2 := by
  intro h
  have htwice : given 0 (Sample.run Sample.stored Sample.answeredTwice).1 = 2 := by decide
  have honce := h.1 0
  omega

end CodeHarbor.Network
