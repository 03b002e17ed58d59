import CodeHarbor.Network.Answers
import CodeHarbor.Network.Leases
set_option autoImplicit false

namespace CodeHarbor.Network
open Lib Lib.Go Lib.Base64 Relay

def ClusterEvent.hands (entry k : Nat) : ClusterEvent → Bool
  | .handed _ socket _ _ e _ _ => e = entry && socket = k
  | _ => false

def HandedOnce (tr : List ClusterEvent) : Prop :=
  ∀ entry k k', tr.any (ClusterEvent.hands entry k) = true → tr.any (ClusterEvent.hands entry k') = true →
    k = k'

/-- A goroutine that has found the peer of the device in possession of the lease. -/
def Work.hands (entry k : Nat) : Work → Bool
  | .handing _ socket e => e = entry && socket = k
  | _ => false

def Work.checks (entry : Nat) : Work → Bool
  | .checking _ _ e => e = entry
  | _ => false

def Work.forwards (entry : Nat) : Work → Bool
  | .forwarding e _ => e = entry
  | _ => false

/-- The request has passed the lease check for the peer. -/
def Cluster.passed (tr : List ClusterEvent) (n : Cluster) (entry k : Nat) : Bool :=
  tr.any (ClusterEvent.hands entry k) || 0 < n.doing (Work.hands entry k)

/-- A copy of the request has still to be checked. -/
def Cluster.unchecked (n : Cluster) (entry : Nat) : Bool :=
  n.copies.any (·.2 = entry) || 0 < n.doing (Work.checks entry)

/-- No peer takes the lease of a device while a request for the device has passed the check
for another peer and a copy of it has still to be checked. -/
def Cluster.leaseStays (tr : List ClusterEvent) (n : Cluster) (input : ClusterInput) : Bool :=
  match n.taker input with
  | none => true
  | some k => n.accepted.zipIdx.all (fun p =>
      (n.sockets[k]?).all (·.deviceId ≠ p.1.request.deviceId) || !n.unchecked p.2 ||
        (List.range n.sockets.length).all (fun j => j = k || !Cluster.passed tr n p.2 j))

section Copies

variable {n n' : Cluster} {tr : List ClusterEvent}

/-! Copies of a request, and how far they are. -/

theorem Cluster.perform_copies (c : Config) (o : Outcome) {work : Work} {copy : Nat × Nat}
    (hmem : copy ∈ (n.perform c o work).1.copies) :
    copy ∈ n.copies ∨ (work = .forwarding copy.2 none ∧ n.redis = true) := by
  by_cases hquiet : work.quiet = true
  · rw [(perform_aside c o hquiet).1.copies] at hmem
    exact .inl hmem
  cases work with
  | accepting b request =>
    left
    rcases accept_cases (n := n) o b request with haside | ⟨a,devices,device,heq⟩
    · rwa [Cluster.perform,haside.1.copies] at hmem
    · rw [Cluster.perform,heq] at hmem
      exact hmem
  | forwarding entry device =>
    cases device with
    | some k => exact .inl hmem
    | none =>
      simp only [Cluster.perform] at hmem
      split at hmem
      · rename_i hredis
        dsimp only at hmem
        split at hmem
        · rw [copies,publish,List.filterMap_append,List.mem_append] at hmem
          rcases hmem with hold | hnew
          · exact .inl hold
          · obtain ⟨m,hm,hcopy⟩ := List.mem_filterMap.mp hnew
            obtain ⟨r,-,rfl⟩ := List.mem_map.mp hm
            cases hcopy
            exact .inr ⟨rfl,hredis⟩
        · exact .inl hmem
      · exact .inl hmem
  | withdrawing entry =>
    left
    simp only [Cluster.perform,deletePending] at hmem
    split at hmem <;> exact hmem
  | timing entry =>
    left
    simp only [Cluster.perform,deletePending] at hmem
    split at hmem
    · split at hmem <;> exact hmem
    · exact hmem
  | handling k message =>
    cases message with
    | proxyResponse requestId body =>
      left
      simp only [Cluster.perform,Cluster.handle] at hmem
      split at hmem
      · exact hmem
      · split at hmem
        · rename_i htake
          obtain ⟨a,-,-,-,-,rfl⟩ := takePending_spec htake
          exact hmem
        · exact hmem
    | _ => exact absurd rfl hquiet
  | checking relay k entry =>
    left
    simp only [Cluster.perform] at hmem
    split at hmem
    · exact hmem
    · split at hmem <;> exact hmem
  | _ => first | exact .inl hmem | exact absurd rfl hquiet

theorem Cluster.handleRedisMessage_messages (o : Outcome) (relay : Nat) (envelope : Envelope) :
    (n.handleRedisMessage o relay envelope).1.messages = n.messages := by
  cases envelope with
  | proxyRequest entry =>
    simp only [Cluster.handleRedisMessage]
    split
    · rfl
    · split
      · rfl
      · split <;> rfl
  | proxyResponse deviceId ownerUser requestId body =>
    simp only [Cluster.handleRedisMessage]
    split
    · rfl
    · split
      · rfl
      · rename_i htake
        obtain ⟨a,-,-,-,-,rfl⟩ := takePending_spec htake
        rfl
  | deviceOwnership deviceId ownerUser =>
    simp only [Cluster.handleRedisMessage]
    split <;> rfl
  | _ => rfl

theorem copies_eraseIdx {messages : List Message} {i : Nat} {copy : Nat × Nat}
    (h : copy ∈ (messages.eraseIdx i).filterMap Message.copy) : copy ∈ messages.filterMap Message.copy :=
  ((List.eraseIdx_sublist messages i).filterMap Message.copy).subset h

theorem Cluster.step_copies (c : Config) (o : Outcome) (input : ClusterInput) {copy : Nat × Nat}
    (hmem : copy ∈ (n.step c o input).1.copies) :
    copy ∈ n.copies ∨ (n.current input = some (.forwarding copy.2 none) ∧ n.redis = true) := by
  by_cases hquiet : n.quiet input = true
  · rw [(step_aside c o hquiet).copies] at hmem
    exact .inl hmem
  cases input with
  | closeBrowser b =>
    left
    simp only [Cluster.step] at hmem
    split at hmem <;> exact hmem
  | advance k =>
    left
    cases hget : n.sockets[k]? with
    | none => simp [quiet,hget] at hquiet
    | some s =>
      have hcleared : s.stage = .cleared := by simpa [quiet,hget] using hquiet
      simp only [Cluster.step,hget] at hmem
      split at hmem
      · exact hmem
      · simp only [Cluster.advance,hcleared,removeSocket] at hmem
        split at hmem <;> exact hmem
  | proceed i =>
    cases htask : n.tasks[i]? with
    | none =>
      simp only [Cluster.step,htask] at hmem
      exact .inl hmem
    | some task =>
      simp only [Cluster.step,htask] at hmem
      rcases perform_copies c o hmem with hold | ⟨hwork,hredis⟩
      · exact .inl hold
      · exact .inr ⟨by simp [current,htask,hwork],hredis⟩
  | fire entry =>
    left
    simp only [Cluster.step] at hmem
    split at hmem <;> exact hmem
  | deliver i =>
    left
    simp only [Cluster.step] at hmem
    split at hmem
    · exact hmem
    · split at hmem
      · exact hmem
      · rw [Effect.by,copies,Cluster.spawn,handleRedisMessage_messages] at hmem
        exact copies_eraseIdx hmem
  | lose i => exact .inl (copies_eraseIdx hmem)
  | _ => exact absurd rfl hquiet

theorem Work.hands_entry {entry k : Nat} (w : Work) (h : w.hands entry k = true) : w.entry ≠ none := by
  cases w <;> simp_all [Work.hands,Work.entry]

theorem Work.checks_entry {entry : Nat} (w : Work) (h : w.checks entry = true) : w.entry ≠ none := by
  cases w <;> simp_all [Work.checks,Work.entry]

theorem Work.forwards_entry {entry : Nat} (w : Work) (h : w.forwards entry = true) : w.entry ≠ none := by
  cases w <;> simp_all [Work.forwards,Work.entry]

theorem Cluster.next_cases (c : Config) (o : Outcome) {input : ClusterInput} {w : Work}
    (hnext : n.next c o input = some w) (hentry : w.entry ≠ none) :
    (∃ work, n.current input = some work ∧ Work.Next n o work w) ∨ (∃ entry, w = .timing entry) ∨
    (∃ entry requestId body, w = .responding entry requestId body) ∨
    (∃ relay k entry, w = .checking relay k entry ∧ (relay,entry) ∈ n.copies) := by
  cases input with
  | proceed i =>
    left
    simp only [next] at hnext
    obtain ⟨⟨party,work⟩,htask,hwork⟩ := Option.bind_eq_some_iff.mp hnext
    have hperform := perform_next c o hwork hentry
    refine ⟨work,by simp [current,htask],?_⟩
    -- the scheduler's list is no matter to the lease check
    cases hperform with
    | accept => exact .accept
    | withdraw => exact .withdraw
    | offline => exact .offline
    | timeOut => exact .timeOut
    | respond => exact .respond
    | hand howned => exact .hand howned
  | fire entry =>
    simp only [next] at hnext
    split at hnext
    · cases hnext
      exact .inr (.inl ⟨entry,rfl⟩)
    · cases hnext
  | deliver i =>
    simp only [next] at hnext
    obtain ⟨m,hm,hrest⟩ := Option.bind_eq_some_iff.mp hnext
    split at hrest
    · cases hrest
    · cases henv : m.envelope with
      | proxyRequest entry =>
        have hcopy : (m.relay,entry) ∈ n.copies :=
          List.mem_filterMap.mpr ⟨m,List.mem_of_getElem? hm,by rw [Message.copy,henv]⟩
        rw [henv] at hrest
        simp only [Cluster.handleRedisMessage] at hrest
        split at hrest
        · cases hrest
        · split at hrest
          · cases hrest
          · split at hrest
            · cases hrest
              exact .inr (.inr (.inr ⟨_,_,_,rfl,hcopy⟩))
            · cases hrest
      | proxyResponse deviceId ownerUser requestId body =>
        rw [henv] at hrest
        simp only [Cluster.handleRedisMessage] at hrest
        split at hrest
        · cases hrest
        · split at hrest
          · cases hrest
          · cases hrest
            exact .inr (.inr (.inl ⟨_,_,_,rfl⟩))
      | _ =>
        refine absurd ((handleRedisMessage_aside o m.relay ?_ ?_).2 w hrest) hentry
        · rw [henv]
          simp
        · rw [henv]
          simp
  | _ => cases hnext

theorem Cluster.any_current {input : ClusterInput} {work : Work} (hcurrent : n.current input = some work)
    {p : Work → Bool} (hp : p work = true) : 0 < n.doing p := by
  cases input with
  | proceed i =>
    obtain ⟨task,htask,rfl⟩ := Option.map_eq_some_iff.mp hcurrent
    have herase := doing_erase htask p
    rw [hp,Bool.toNat_true] at herase
    omega
  | _ => cases hcurrent

theorem Cluster.step_doing_pos (c : Config) (o : Outcome) {input : ClusterInput} {p : Work → Bool}
    (hp : ∀ w, p w = true → w.entry ≠ none) (hpos : 0 < (n.step c o input).1.doing p) :
    0 < n.doing p ∨ ∃ w, n.next c o input = some w ∧ p w = true := by
  have hdoing := step_doing (n := n) c o input hp
  by_cases hany : (n.next c o input).any p = true
  · obtain ⟨w,hw,hpw⟩ := (Option.any_eq_true _ _).mp hany
    exact .inr ⟨w,hw,hpw⟩
  · rw [Bool.eq_false_iff.mpr hany,Bool.toNat_false] at hdoing
    left
    omega

theorem Cluster.step_unchecked (c : Config) (o : Outcome) (input : ClusterInput) {entry : Nat}
    (h : (n.step c o input).1.unchecked entry = true) :
    n.unchecked entry = true ∨ (n.current input = some (.forwarding entry none) ∧ n.redis = true) := by
  simp only [unchecked,Bool.or_eq_true,List.any_eq_true,decide_eq_true_eq] at h ⊢
  rcases h with ⟨copy,hmem,rfl⟩ | hpos
  · rcases step_copies c o input hmem with hold | hnew
    · exact .inl (.inl ⟨copy,hold,rfl⟩)
    · exact .inr hnew
  · rcases step_doing_pos c o Work.checks_entry hpos with hold | ⟨w,hnext,hw⟩
    · exact .inl (.inr hold)
    · rcases next_cases c o hnext (Work.checks_entry w hw) with ⟨work,-,hwork⟩ | ⟨e,rfl⟩ | ⟨e,id,body,rfl⟩ |
        ⟨relay,k,e,rfl,hcopy⟩
      · cases hwork <;> cases hw
      · cases hw
      · cases hw
      · obtain rfl : e = entry := by simpa [Work.checks] using hw
        exact .inl (.inl ⟨_,hcopy,rfl⟩)

theorem Cluster.Sound.step_passed (h : n.Sound tr) (c : Config) (o : Outcome) (input : ClusterInput)
    {entry k : Nat} (hpassed : (n.step c o input).1.passed (tr ++ (n.step c o input).2) entry k = true) :
    Cluster.passed tr n entry k = true ∨ n.current input = some (.forwarding entry (some k)) ∨
    ∃ relay, n.current input = some (.checking relay k entry) ∧ n.deviceLeaseOwned k o = true := by
  simp only [passed,Bool.or_eq_true,decide_eq_true_eq,List.any_append] at hpassed ⊢
  rcases hpassed with (hold | hout) | hpos
  · exact .inl (.inl hold)
  · obtain ⟨event,hmem,hhands⟩ := List.any_eq_true.mp hout
    cases event with
    | handed relay socket deviceId ownerUser e user request =>
      simp only [ClusterEvent.hands,Bool.and_eq_true,decide_eq_true_eq] at hhands
      obtain ⟨rfl,rfl⟩ := hhands
      obtain ⟨i,task,s,a,rfl,htask,hwork,-⟩ := h.handed_step c o input hmem
      rcases hwork with hw | ⟨r,hw⟩
      · exact .inr (.inl (by simp [current,htask,hw]))
      · have hcurrent : n.current (.proceed i) = some task.work := by simp [current,htask]
        exact .inl (.inr (any_current hcurrent (by simp [hw,Work.hands])))
    | _ => cases hhands
  · rcases step_doing_pos c o Work.hands_entry hpos with hold | ⟨w,hnext,hw⟩
    · exact .inl (.inr hold)
    · rcases next_cases c o hnext (Work.hands_entry w hw) with ⟨work,hcurrent,hwork⟩ | ⟨e,rfl⟩ |
        ⟨e,id,body,rfl⟩ | ⟨relay,k',e,rfl,-⟩
      · cases hwork with
        | hand howned =>
          simp only [Work.hands,Bool.and_eq_true,decide_eq_true_eq] at hw
          obtain ⟨rfl,rfl⟩ := hw
          exact .inr (.inr ⟨_,hcurrent,howned⟩)
        | _ => cases hw
      · cases hw
      · cases hw
      · cases hw

theorem Cluster.next_forwards (c : Config) (o : Outcome) {input : ClusterInput} {entry : Nat} {w : Work}
    (hnext : n.next c o input = some w) (hw : w.forwards entry = true) :
    entry = n.accepted.length ∧ (n.step c o input).1.room entry = 1 := by
  rcases next_cases c o hnext (Work.forwards_entry w hw) with ⟨work,hcurrent,hwork⟩ | ⟨e,rfl⟩ |
    ⟨e,id,body,rfl⟩ | ⟨relay,k,e,rfl,-⟩
  · cases hwork with
    | accept =>
      obtain rfl : n.accepted.length = entry := by simpa [Work.forwards] using hw
      refine ⟨rfl,?_⟩
      cases input with
      | proceed i =>
        obtain ⟨⟨party,work⟩,htask,hwork⟩ := Option.map_eq_some_iff.mp hcurrent
        dsimp only at hwork
        subst hwork
        simp only [next,htask,Option.bind_some] at hnext
        simp only [Cluster.step,htask]
        rcases accept_cases (n := { n with tasks := n.tasks.eraseIdx i }) o _ _ with
          haside | ⟨a,devices,device,heq⟩
        · exact absurd (haside.2 _ hnext) (by intro hnone; cases hnone)
        · simp only [Cluster.perform,heq]
          simp [room,Effect.by,Cluster.spawn]
      | _ => cases hcurrent
    | _ => cases hw
  · cases hw
  · cases hw
  · cases hw

end Copies

/-- The invariant. A request that is still to be forwarded has no copy anywhere; while a copy
has still to be checked, the lease is free or with the peer that another one has passed for. -/
structure Cluster.Single (tr : List ClusterEvent) (n : Cluster) : Prop where
  tokens : n.tokens.Nodup
  plain : ∀ token ∈ n.tokens, '|' ∉ token
  shared : ∀ entry, n.unchecked entry = true → n.redis = true
  alone : ∀ entry, n.doing (Work.forwards entry) ≤ n.room entry
  first : ∀ entry, 0 < n.doing (Work.forwards entry) ∨ n.accepted.length ≤ entry →
    n.unchecked entry = false ∧ ∀ k, Cluster.passed tr n entry k = false
  once : ∀ entry k k', Cluster.passed tr n entry k = true → Cluster.passed tr n entry k' = true → k = k'
  lease : ∀ entry a k, n.accepted[entry]? = some a → Cluster.passed tr n entry k = true →
    n.unchecked entry = true → ∃ s, n.sockets[k]? = some s ∧
      (n.getPresence a.request.deviceId = none ∨
        n.getPresence a.request.deviceId = some (a.user ++ '|' :: s.presenceToken))

section Single

variable {n : Cluster} {tr : List ClusterEvent}

theorem Cluster.getToken {k : Nat} {s : Socket} (hs : n.sockets[k]? = some s) :
    n.tokens[k]? = some s.presenceToken := by
  rw [Cluster.tokens,List.getElem?_map,hs]
  rfl

theorem Cluster.Single.plainToken (h : n.Single tr) {k : Nat} {s : Socket} (hs : n.sockets[k]? = some s) :
    '|' ∉ s.presenceToken := h.plain _ (List.mem_of_getElem? (getToken hs))

theorem Cluster.Single.token_unique (h : n.Single tr) {k k' : Nat} {s s' : Socket} {owner owner' : Text}
    (hs : n.sockets[k]? = some s) (hs' : n.sockets[k']? = some s')
    (heq : owner ++ '|' :: s.presenceToken = owner' ++ '|' :: s'.presenceToken) : k = k' := by
  have htoken := leaseToken_unique heq (h.plainToken hs) (h.plainToken hs')
  have hk := getToken hs
  rw [htoken] at hk
  obtain ⟨hlt,-⟩ := List.getElem?_eq_some_iff.mp hk
  exact (List.getElem?_inj hlt h.tokens).mp (hk.trans (getToken hs').symm)

theorem Cluster.Sound.checked_lease (h : n.Sound tr) {input : ClusterInput} {relay k entry : Nat}
    {a : Accepted} (o : Outcome) (hcurrent : n.current input = some (.checking relay k entry))
    (ha : n.accepted[entry]? = some a) (hredis : n.redis = true) (howned : n.deviceLeaseOwned k o = true) :
    ∃ s, n.sockets[k]? = some s ∧
      n.getPresence a.request.deviceId = some (a.user ++ '|' :: s.presenceToken) := by
  cases input with
  | proceed i =>
    obtain ⟨⟨party,work⟩,htask,hwork⟩ := Option.map_eq_some_iff.mp hcurrent
    dsimp only at hwork
    subst hwork
    obtain ⟨a',ha',⟨-,-,s,hs,hid,howner⟩,-⟩ := h.tasks _ (List.mem_of_getElem? htask)
    have heq : some a = some a' := ha.symm.trans ha'
    cases heq
    refine ⟨s,hs,?_⟩
    simp only [deviceLeaseOwned,hs,hredis,Bool.true_eq_false,decide_false,Bool.false_or,Bool.and_eq_true,
      decide_eq_true_eq] at howned
    rw [← hid,← howner]
    exact howned.2
  | _ => cases hcurrent

theorem Cluster.room_mono {n' : Cluster} (hext : n.Extends n') (entry : Nat) : n.room entry ≤ n'.room entry := by
  refine Bool.toNat_le_toNat ?_
  intro hlt
  exact decide_eq_true ((of_decide_eq_true hlt).trans_le hext.accepted.length_le)

theorem Cluster.Single.forwarded (h : n.Single tr) (c : Config) (o : Outcome)
    {input : ClusterInput} {entry : Nat} {device : Option Nat}
    (hcurrent : n.current input = some (.forwarding entry device)) :
    0 < n.doing (Work.forwards entry) ∧ (n.step c o input).1.doing (Work.forwards entry) = 0 ∧
      entry < n.accepted.length := by
  have hpos : 0 < n.doing (Work.forwards entry) := any_current hcurrent (by simp [Work.forwards])
  have hone := h.alone entry
  have hlt : entry < n.accepted.length := by
    by_contra hge
    simp only [room,hge,decide_false,Bool.toNat_false] at hone
    omega
  refine ⟨hpos,?_,hlt⟩
  have hdoing := step_doing (n := n) c o input (p := Work.forwards entry) Work.forwards_entry
  have hnext : (n.next c o input).any (Work.forwards entry) = false := by
    rw [Bool.eq_false_iff]
    intro hany
    obtain ⟨w,hnext,hw⟩ := (Option.any_eq_true _ _).mp hany
    have hnew := (next_forwards c o hnext hw).1
    omega
  have hroom : n.room entry ≤ 1 := Bool.toNat_le _
  rw [hcurrent,hnext,Option.any_some] at hdoing
  simp only [Work.forwards,decide_true,Bool.toNat_true,Bool.toNat_false] at hdoing
  omega

theorem Cluster.Single.step_tokens (h : n.Single tr) (c : Config) (o : Outcome) (input : ClusterInput) :
    (n.step c o input).1.tokens.Nodup ∧ ∀ token ∈ (n.step c o input).1.tokens, '|' ∉ token := by
  rcases Cluster.step_tokens (n := n) c o input with hsame | ⟨token,hnew,hfresh⟩
  · rw [hsame]
    exact ⟨h.tokens,h.plain⟩
  · simp only [freshToken,Bool.and_eq_true,decide_eq_true_eq,List.all_eq_true] at hfresh
    rw [hnew]
    constructor
    · refine List.Nodup.append h.tokens (List.nodup_singleton token) ?_
      intro other hmem hother
      obtain ⟨s,hs,rfl⟩ := List.mem_map.mp hmem
      exact hfresh.2 s hs (List.mem_singleton.mp hother)
    · intro other hmem
      rcases List.mem_append.mp hmem with hold | hlast
      · exact h.plain other hold
      · rw [List.mem_singleton.mp hlast]
        exact hfresh.1.2

theorem Cluster.Single.step_first (h : n.Single tr) (hsound : n.Sound tr) (c : Config) (o : Outcome)
    (input : ClusterInput) {entry : Nat}
    (hentry : 0 < (n.step c o input).1.doing (Work.forwards entry) ∨
      (n.step c o input).1.accepted.length ≤ entry) :
    (n.step c o input).1.unchecked entry = false ∧
      ∀ k, (n.step c o input).1.passed (tr ++ (n.step c o input).2) entry k = false := by
  have hlength := (hsound.step_leads c o input).extends_.accepted.length_le
  have hbefore : 0 < n.doing (Work.forwards entry) ∨ n.accepted.length ≤ entry := by
    rcases hentry with hpos | hlater
    · rcases step_doing_pos c o Work.forwards_entry hpos with hold | ⟨w,hnext,hw⟩
      · exact .inl hold
      · exact .inr (next_forwards c o hnext hw).1.ge
    · exact .inr (hlength.trans hlater)
  have hnot : ∀ device, n.current input ≠ some (.forwarding entry device) := by
    intro device hcurrent
    obtain ⟨-,hdone,hlt⟩ := h.forwarded c o hcurrent
    omega
  obtain ⟨hunchecked,hpassed⟩ := h.first entry hbefore
  constructor
  · rw [Bool.eq_false_iff]
    intro hnew
    rcases step_unchecked c o input hnew with hold | ⟨hcurrent,-⟩
    · rw [hunchecked] at hold
      cases hold
    · exact hnot _ hcurrent
  · intro k
    rw [Bool.eq_false_iff]
    intro hnew
    rcases hsound.step_passed c o input hnew with hold | hcurrent | ⟨relay,hcurrent,-⟩
    · rw [hpassed k] at hold
      cases hold
    · exact hnot _ hcurrent
    · have hpos : 0 < n.doing (Work.checks entry) := any_current hcurrent (by simp [Work.checks])
      simp [unchecked,hpos] at hunchecked

theorem Cluster.Single.lease_before (h : n.Single tr) (hsound : n.Sound tr) (c : Config) (o : Outcome)
    (input : ClusterInput) {entry k : Nat} {a : Accepted} (ha : n.accepted[entry]? = some a)
    (hunchecked : n.unchecked entry = true)
    (hpassed : (n.step c o input).1.passed (tr ++ (n.step c o input).2) entry k = true) :
    (Cluster.passed tr n entry k = true ∨ n.taker input = none) ∧ ∃ s, n.sockets[k]? = some s ∧
      (n.getPresence a.request.deviceId = none ∨
        n.getPresence a.request.deviceId = some (a.user ++ '|' :: s.presenceToken)) := by
  rcases hsound.step_passed c o input hpassed with hold | hcurrent | ⟨relay,hcurrent,howned⟩
  · exact ⟨.inl hold,h.lease entry a k ha hold hunchecked⟩
  · have hnone := (h.first entry (.inl (h.forwarded c o hcurrent).1)).1
    rw [hunchecked] at hnone
    cases hnone
  · obtain ⟨s,hs,hlease⟩ := hsound.checked_lease o hcurrent ha (h.shared entry hunchecked) howned
    refine ⟨.inr ?_,s,hs,.inr hlease⟩
    cases input with
    | proceed i =>
      simp only [current] at hcurrent
      simp [taker,hcurrent]
    | _ => cases hcurrent

theorem Cluster.Single.step_once (h : n.Single tr) (hsound : n.Sound tr) (c : Config) (o : Outcome)
    (input : ClusterInput) {entry k k' : Nat}
    (hk : (n.step c o input).1.passed (tr ++ (n.step c o input).2) entry k = true)
    (hk' : (n.step c o input).1.passed (tr ++ (n.step c o input).2) entry k' = true) : k = k' := by
  -- a request forwarded just now has passed for no other peer
  have hforward : ∀ {j j' : Nat}, n.current input = some (.forwarding entry (some j)) →
      (n.step c o input).1.passed (tr ++ (n.step c o input).2) entry j' = true → j = j' := by
    intro j j' hcurrent hj'
    rcases hsound.step_passed c o input hj' with hold | hsame | ⟨relay,hother,-⟩
    · rw [(h.first entry (.inl (h.forwarded c o hcurrent).1)).2 j'] at hold
      cases hold
    · rw [hcurrent] at hsame
      cases hsame
      rfl
    · rw [hcurrent] at hother
      cases hother
  -- a copy that passes now finds the lease with the peer that another one has passed for
  have hcheck : ∀ {j j' relay : Nat}, n.current input = some (.checking relay j entry) →
      n.deviceLeaseOwned j o = true → Cluster.passed tr n entry j' = true → j = j' := by
    intro j j' relay hcurrent howned hold
    have hunchecked : n.unchecked entry = true := by
      have hpos : 0 < n.doing (Work.checks entry) := any_current hcurrent (by simp [Work.checks])
      simp [unchecked,hpos]
    have hlt : entry < n.accepted.length := by
      by_contra hge
      have hnone := (h.first entry (.inr (not_lt.mp hge))).1
      rw [hunchecked] at hnone
      cases hnone
    have ha := List.getElem?_eq_getElem hlt
    obtain ⟨s,hs,howns⟩ := hsound.checked_lease o hcurrent ha (h.shared entry hunchecked) howned
    obtain ⟨s',hs',hlease⟩ := h.lease entry _ j' ha hold hunchecked
    rw [howns] at hlease
    rcases hlease with hfree | hsame
    · cases hfree
    · exact h.token_unique hs hs' (Option.some.inj hsame)
  rcases hsound.step_passed c o input hk with hold | hcurrent | ⟨relay,hcurrent,howned⟩
  · rcases hsound.step_passed c o input hk' with hold' | hcurrent' | ⟨relay',hcurrent',howned'⟩
    · exact h.once entry k k' hold hold'
    · exact (hforward hcurrent' hk).symm
    · exact (hcheck hcurrent' howned' hold).symm
  · exact hforward hcurrent hk'
  · rcases hsound.step_passed c o input hk' with hold' | hcurrent' | ⟨relay',hcurrent',-⟩
    · exact hcheck hcurrent howned hold'
    · exact (hforward hcurrent' hk).symm
    · rw [hcurrent] at hcurrent'
      cases hcurrent'
      rfl

theorem Cluster.taker_passed {input : ClusterInput} {entry j k : Nat} {a : Accepted} {s s' : Socket}
    (hstays : Cluster.leaseStays tr n input = true) (htaker : n.taker input = some k)
    (ha : n.accepted[entry]? = some a) (hs : n.sockets[k]? = some s) (hid : s.deviceId = a.request.deviceId)
    (hunchecked : n.unchecked entry = true) (hs' : n.sockets[j]? = some s')
    (hpassed : Cluster.passed tr n entry j = true) : j = k := by
  have hlt := (List.getElem?_eq_some_iff.mp hs').1
  have hmem : (a,entry) ∈ n.accepted.zipIdx := by
    rw [List.mem_zipIdx_iff_getElem?]
    exact ha
  simp only [leaseStays,htaker,List.all_eq_true] at hstays
  have hall := hstays (a,entry) hmem
  simp only [hs,hid,hunchecked,Option.all_some,ne_eq,not_true_eq_false,decide_false,Bool.not_true,
    Bool.or_false,Bool.false_or,List.all_eq_true,List.mem_range] at hall
  have hj := hall j hlt
  simpa [hpassed] using hj

theorem Cluster.Single.step_lease (h : n.Single tr) (hsound : n.Sound tr) (c : Config) (o : Outcome)
    (input : ClusterInput) (hstays : Cluster.leaseStays tr n input = true) {entry k : Nat} {a : Accepted}
    (ha' : (n.step c o input).1.accepted[entry]? = some a)
    (hpassed : (n.step c o input).1.passed (tr ++ (n.step c o input).2) entry k = true)
    (hunchecked' : (n.step c o input).1.unchecked entry = true) :
    ∃ s, (n.step c o input).1.sockets[k]? = some s ∧
      ((n.step c o input).1.getPresence a.request.deviceId = none ∨
        (n.step c o input).1.getPresence a.request.deviceId = some (a.user ++ '|' :: s.presenceToken)) := by
  have hleads := hsound.step_leads c o input
  have hunchecked : n.unchecked entry = true := by
    rcases step_unchecked c o input hunchecked' with hold | ⟨hcurrent,-⟩
    · exact hold
    · -- a request that is being published has passed for no peer
      rcases hsound.step_passed c o input hpassed with hold | hother | ⟨relay,hother,-⟩
      · rw [(h.first entry (.inl (h.forwarded c o hcurrent).1)).2 k] at hold
        cases hold
      · rw [hcurrent] at hother
        cases hother
      · rw [hcurrent] at hother
        cases hother
  have hlt : entry < n.accepted.length := by
    by_contra hge
    have hnone := (h.first entry (.inr (not_lt.mp hge))).1
    rw [hunchecked] at hnone
    cases hnone
  have ha : n.accepted[entry]? = some a := by
    have hfirst := List.getElem?_eq_getElem hlt
    have hlater := hleads.extends_.getAccepted hfirst
    have heq : some a = some _ := ha'.symm.trans hlater
    cases heq
    exact hfirst
  obtain ⟨htaken,s,hs,hlease⟩ := h.lease_before hsound c o input ha hunchecked hpassed
  obtain ⟨later,hlater,-,htoken,-,-⟩ := hleads.extends_.sockets k s hs
  refine ⟨later,hlater,?_⟩
  rw [htoken]
  rcases hsound.step_presence c o input a.request.deviceId with hnone | hsame |
    ⟨j,s',w,hs',hid,howns,hnew,hwriter⟩
  · exact .inl hnone
  · rw [hsame]
    exact hlease
  · right
    have howner : w = a.user := owner_unique howns (hsound.accepted a (List.mem_of_getElem? ha)).owner
    have hsame : j = k := by
      rcases hwriter with htaker | ⟨old,hold⟩
      · rcases htaken with hpassed | hnone
        · exact (taker_passed hstays htaker ha hs' hid hunchecked hs hpassed).symm
        · rw [htaker] at hnone
          cases hnone
      · rw [hold] at hlease
        rcases hlease with hfree | heq
        · cases hfree
        · exact h.token_unique hs' hs (Option.some.inj heq)
    subst hsame
    have heq : some s = some s' := hs.symm.trans hs'
    cases heq
    rw [hnew,howner]

theorem Cluster.Single.step (h : n.Single tr) (hsound : n.Sound tr) (c : Config) (o : Outcome)
    (input : ClusterInput) (hstays : Cluster.leaseStays tr n input = true) :
    (n.step c o input).1.Single (tr ++ (n.step c o input).2) where
  tokens := (h.step_tokens c o input).1
  plain := (h.step_tokens c o input).2
  shared entry hunchecked := by
    rw [(hsound.step_leads c o input).redis]
    rcases step_unchecked c o input hunchecked with hold | ⟨-,hredis⟩
    · exact h.shared entry hold
    · exact hredis
  alone entry := by
    have hbefore := h.alone entry
    have hroom := room_mono (hsound.step_leads c o input).extends_ entry
    have hdoing := step_doing (n := n) c o input (p := Work.forwards entry) Work.forwards_entry
    by_cases hany : (n.next c o input).any (Work.forwards entry) = true
    · obtain ⟨w,hnext,hw⟩ := (Option.any_eq_true _ _).mp hany
      obtain ⟨hnew,hone⟩ := next_forwards c o hnext hw
      have hzero : n.room entry = 0 := by simp [room,hnew]
      rw [hany,Bool.toNat_true] at hdoing
      omega
    · rw [Bool.eq_false_iff.mpr hany,Bool.toNat_false] at hdoing
      omega
  first entry hentry := h.step_first hsound c o input hentry
  once entry k k' hk hk' := h.step_once hsound c o input hk hk'
  lease entry a k ha hpassed hunchecked := h.step_lease hsound c o input hstays ha hpassed hunchecked

end Single

/-- In every run in which no lease moves between the checks of two copies, every accepted
request is enqueued to at most one device peer. -/
theorem handed_once (c : Config) {tr : List ClusterEvent} {n : Cluster}
    (hrun : (cluster c).Run (fun tr n input => Cluster.leaseStays tr n input.1 = true) tr n) :
    HandedOnce tr := by
  have hall : n.Sound tr ∧ n.Single tr := by
    refine Machine.Run.invariant (P := fun tr n => n.Sound tr ∧ n.Single tr) ?_ ?_ hrun
    · intro n hn
      have hstart : (cluster c).Run (cluster c).free [] n := .start hn
      obtain ⟨-,hsockets,-,-,-,htasks,hmessages⟩ := hn
      have hdoing : ∀ p, n.doing p = 0 := by
        intro p
        rw [Cluster.doing,htasks]
        rfl
      have hunchecked : ∀ entry, n.unchecked entry = false := by
        intro entry
        simp [Cluster.unchecked,Cluster.copies,hmessages,hdoing]
      have hpassed : ∀ entry k, Cluster.passed [] n entry k = false := by
        intro entry k
        simp [Cluster.passed,hdoing]
      refine ⟨cluster_sound c hstart,?_⟩
      constructor
      · simp [Cluster.tokens,hsockets]
      · simp [Cluster.tokens,hsockets]
      · simp [hunchecked]
      · simp [hdoing]
      · exact fun entry _ => ⟨hunchecked entry,hpassed entry⟩
      · simp [hpassed]
      · simp [hpassed]
    · rintro tr n ⟨input,o⟩ ⟨hsound,hsingle⟩ hstays
      exact ⟨hsound.leads (hsound.step_leads c o input),hsingle.step hsound c o input hstays⟩
  intro entry k k' hk hk'
  refine hall.2.once entry k k' ?_ ?_
  · rw [Cluster.passed,hk,Bool.true_or]
  · rw [Cluster.passed,hk',Bool.true_or]

namespace Sample

/-- The device loses its connection and comes back at the other instance. -/
def reconnect : List ClusterInput :=
  [.closeDevice 0,.advance 0,.advance 0,.connectDevice 1 "p2".toList] ++ shakeHands 1

/-- Both instances have seen their copy before the device moves. -/
def movedAfter : List ClusterInput := acrossInstances ++ [.deliver 0] ++ reconnect

/-- The copy for the other instance is late. -/
def movedBetween : List ClusterInput := acrossInstances ++ reconnect ++ [.deliver 0,.proceed 0,.proceed 0]

end Sample

theorem movedAfter_handed_once :
    let reached := Sample.run Sample.stored Sample.movedAfter
    reached.1.any (ClusterEvent.hands 0 0) = true ∧
      reached.2.devices.get (1,Relay.Sample.device) = some 1 ∧ HandedOnce reached.1 := by
  refine ⟨by decide,by decide,?_⟩
  refine handed_once Relay.Sample.config (Machine.Run.exec _ (.start ⟨rfl,rfl,rfl,rfl,rfl,rfl,rfl⟩) ?_)
  decide

theorem movedBetween_not_handed_once :
    ¬ HandedOnce (Sample.run Sample.stored Sample.movedBetween).1 := by
  intro h
  have hsame : 0 = 1 := h 0 0 1 (by decide) (by decide)
  cases hsame

end CodeHarbor.Network
