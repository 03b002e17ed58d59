import CodeHarbor.Network.Isolation
set_option autoImplicit false

namespace CodeHarbor.Network
open Lib Lib.Go Lib.Base64 Relay

/-- Requests reach only peers that are authenticated as the device they name and bound to
the user who sent them. -/
def HandedToOwner (tr : List ClusterEvent) : Prop :=
  ∀ relay socket deviceId ownerUser entry user request,
    .handed relay socket deviceId ownerUser entry user request ∈ tr →
      deviceId = request.deviceId ∧ ownerUser = user

/-- A request that is handed over on the instance that accepted it finds a peer that is
already bound to some owner. -/
def Cluster.handsToBound (n : Cluster) (input : ClusterInput × Outcome) : Bool :=
  match input.1 with
  | .proceed i =>
    match (n.tasks[i]?).map Task.work with
    | some (.forwarding _ (some k)) => k ∈ input.2.blocked || (n.sockets[k]?).all (·.ownerUser ≠ [])
    | _ => true
  | _ => true

section Handed

variable {n : Cluster} {tr : List ClusterEvent}

theorem Cluster.Sound.handed_step (h : n.Sound tr) (c : Config) (o : Outcome) (input : ClusterInput)
    {relay socket entry : Nat} {deviceId ownerUser user : Text} {request : ProxyRequest}
    (hmem : .handed relay socket deviceId ownerUser entry user request ∈ (n.step c o input).2) :
    ∃ i task s a, input = .proceed i ∧ n.tasks[i]? = some task ∧
      (task.work = .forwarding entry (some socket) ∨ ∃ r, task.work = .handing r socket entry) ∧
      socket ∉ o.blocked ∧ n.sockets[socket]? = some s ∧ n.accepted[entry]? = some a ∧
      relay = s.relay ∧ deviceId = s.deviceId ∧ ownerUser = s.ownerUser ∧ user = a.user ∧ request = a.request := by
  have hhand : ∀ {m : Cluster} {k e : Nat}, m.sockets = n.sockets → m.accepted = n.accepted →
      .handed relay socket deviceId ownerUser entry user request ∈ m.hand o k e → k = socket ∧ e = entry ∧
        ∃ s a, socket ∉ o.blocked ∧ n.sockets[socket]? = some s ∧ n.accepted[entry]? = some a ∧
          relay = s.relay ∧ deviceId = s.deviceId ∧ ownerUser = s.ownerUser ∧ user = a.user ∧ request = a.request := by
    intro m k e hsockets haccepted hin
    obtain ⟨s,a,hblocked,hs,ha,heq⟩ := mem_hand hin
    cases heq
    exact ⟨rfl,rfl,s,a,hblocked,hsockets ▸ hs,haccepted ▸ ha,rfl,rfl,rfl,rfl,rfl⟩
  rcases h.step_allFit c o input with hfits | ⟨i,task,rfl,htask,hcarries⟩ | ⟨k,s,rfl,hget,hcleared⟩
  · exact (hfits _ hmem).elim
  · simp only [Cluster.step,htask,Effect.by] at hmem
    cases hwork : task.work with
    | forwarding e device =>
      cases device with
      | none => simp [hwork,Work.carries] at hcarries
      | some k =>
        rw [hwork] at hmem
        obtain ⟨rfl,rfl,s,a,hrest⟩ := hhand rfl rfl hmem
        exact ⟨i,task,s,a,rfl,htask,.inl hwork,hrest⟩
    | handing r k e =>
      rw [hwork] at hmem
      obtain ⟨rfl,rfl,s,a,hrest⟩ := hhand rfl rfl hmem
      exact ⟨i,task,s,a,rfl,htask,.inr ⟨r,hwork⟩,hrest⟩
    | offline e =>
      rw [hwork] at hmem
      obtain ⟨a,-,heq⟩ := mem_answer hmem
      cases heq
    | timedOut e =>
      rw [hwork] at hmem
      obtain ⟨a,-,heq⟩ := mem_answer hmem
      cases heq
    | responding e requestId body =>
      rw [hwork] at hmem
      obtain ⟨a,-,heq⟩ := mem_answer hmem
      cases heq
    | _ => simp [hwork,Work.carries] at hcarries
  · simp only [Cluster.step,hget] at hmem
    split at hmem
    · cases hmem
    · simp only [Cluster.advance,hcleared] at hmem
      obtain ⟨e,he⟩ := mem_removeSocket hmem
      obtain ⟨a,-,heq⟩ := mem_answer he
      cases heq

theorem Cluster.Sound.handed_owner (h : n.Sound tr) {k entry : Nat} {s : Socket} {a : Accepted}
    (hs : n.sockets[k]? = some s) (ha : n.accepted[entry]? = some a)
    (hdevice : n.IsDevice k a.request.deviceId) :
    s.deviceId = a.request.deviceId ∧ (s.ownerUser = a.user ↔ s.ownerUser ≠ []) := by
  obtain ⟨-,s',hs',hid⟩ := hdevice
  have heq : some s = some s' := hs.symm.trans hs'
  cases heq
  have howner := (h.accepted a (List.mem_of_getElem? ha)).owner
  refine ⟨hid,?_,?_⟩
  · intro hsame
    rw [hsame]
    exact howner.1
  · intro hne
    have hbound := (h.sockets k s hs).bound hne
    rw [hid] at hbound
    exact owner_unique hbound howner

theorem Cluster.Sound.handed_iff (h : n.Sound tr) (c : Config) (input : ClusterInput × Outcome) :
    HandedToOwner (n.step c input.2 input.1).2 ↔ n.handsToBound input = true := by
  obtain ⟨input,o⟩ := input
  constructor
  · intro hall
    cases input with
    | proceed i =>
      unfold handsToBound
      dsimp only
      split
      · rename_i entry k hwork
        obtain ⟨task,htask,hw⟩ := Option.map_eq_some_iff.mp hwork
        have hknown := h.tasks task (List.mem_of_getElem? htask)
        rw [hw] at hknown
        obtain ⟨a,ha,hdevice⟩ := hknown
        obtain ⟨-,s,hs,hid⟩ := (hdevice k rfl).1
        by_cases hblocked : k ∈ o.blocked
        · simp [hblocked]
        · have hstep : .handed s.relay k s.deviceId s.ownerUser entry a.user a.request ∈
              (n.step c o (.proceed i)).2 := by
            simp [Cluster.step,htask,hw,Cluster.perform,Effect.by,Cluster.hand,hs,ha,hblocked]
          have howner := (hall _ _ _ _ _ _ _ hstep).2
          have hne := (h.accepted a (List.mem_of_getElem? ha)).owner.1
          simp [hs,howner,hne]
      · rfl
    | _ => rfl
  · intro hok relay socket deviceId ownerUser entry user request hmem
    obtain ⟨i,task,s,a,rfl,htask,hwork,hblocked,hs,ha,rfl,rfl,rfl,rfl,rfl⟩ := h.handed_step c o input hmem
    have hknown := h.tasks task (List.mem_of_getElem? htask)
    rcases hwork with hw | ⟨r,hw⟩
    · rw [hw] at hknown
      obtain ⟨a',ha',hdevice⟩ := hknown
      have heq : some a = some a' := ha.symm.trans ha'
      cases heq
      obtain ⟨hid,howner⟩ := h.handed_owner hs ha (hdevice socket rfl).1
      refine ⟨hid,howner.mpr ?_⟩
      simpa [handsToBound,htask,hw,hblocked,hs] using hok
    · rw [hw] at hknown
      obtain ⟨a',ha',⟨-,-,s',hs',hid,howner⟩,-⟩ := hknown
      have heq : some a = some a' := ha.symm.trans ha'
      have heqs : some s = some s' := hs.symm.trans hs'
      cases heq
      cases heqs
      exact ⟨hid,howner⟩

theorem Cluster.Sound.handsToBound_redis (h : n.Sound tr) (hredis : n.redis = true)
    (input : ClusterInput × Outcome) : n.handsToBound input = true := by
  unfold handsToBound
  split
  · split
    · rename_i entry k hwork
      obtain ⟨task,htask,hw⟩ := Option.map_eq_some_iff.mp hwork
      have hknown := h.tasks task (List.mem_of_getElem? htask)
      rw [hw] at hknown
      obtain ⟨a,ha,hdevice⟩ := hknown
      obtain ⟨-,hne,s,hs,-,howner⟩ := (hdevice k rfl).2 hredis
      simp [hs,howner,hne]
    · rfl
  · rfl

theorem handedToOwner_append {out : List ClusterEvent} :
    HandedToOwner (tr ++ out) ↔ HandedToOwner tr ∧ HandedToOwner out := by
  constructor
  · intro h
    exact ⟨fun i s d w e u r hmem => h i s d w e u r (List.mem_append_left out hmem),
      fun i s d w e u r hmem => h i s d w e u r (List.mem_append_right tr hmem)⟩
  · rintro ⟨htr,hout⟩ i s d w e u r hmem
    rcases List.mem_append.mp hmem with hold | hnew
    · exact htr i s d w e u r hold
    · exact hout i s d w e u r hnew

end Handed

/-- A run hands every request to a peer of its device bound to its sender precisely when its
steps meet the condition. With a Redis they always do. -/
theorem handedToOwner_iff (c : Config) {n : Cluster} (hn : n.Started)
    (inputs : List (ClusterInput × Outcome)) :
    (HandedToOwner ((cluster c).exec [] n inputs).1 ↔
      (cluster c).Allowed (fun _ n input => n.handsToBound input = true) [] n inputs) ∧
    (n.redis = true → HandedToOwner ((cluster c).exec [] n inputs).1) := by
  have hinv : ∀ tr n (input : ClusterInput × Outcome), n.Sound tr →
      Cluster.Sound (tr ++ ((cluster c).step n input).2) ((cluster c).step n input).1 :=
    fun tr n input h => h.leads (h.step_leads c input.2 input.1)
  have hrun : (cluster c).Run (cluster c).free [] n := .start hn
  have hstart : n.Sound [] := cluster_sound c hrun
  have hiff : HandedToOwner ((cluster c).exec [] n inputs).1 ↔ HandedToOwner [] ∧
      (cluster c).Allowed (fun _ n input => n.handsToBound input = true) [] n inputs :=
    Machine.exec_iff_allowed (I := fun tr n => n.Sound tr) hinv
      (fun tr n input h => handedToOwner_append.trans (and_congr_right (fun _ => h.handed_iff c input)))
      inputs hstart
  have hnone : HandedToOwner [] := fun _ _ _ _ _ _ _ hmem => nomatch hmem
  refine ⟨hiff.trans (and_iff_right hnone),?_⟩
  intro hredis
  refine hiff.mpr ⟨hnone,?_⟩
  refine (Machine.allowed_free _ inputs _ _).of_invariant
    (I := fun tr n => n.Sound tr ∧ n.redis = true) ?_ ?_ ⟨hstart,hredis⟩
  · rintro tr n input ⟨h,hr⟩ -
    exact ⟨hinv tr n input h,(h.step_leads c input.2 input.1).redis.trans hr⟩
  · rintro tr n input ⟨h,hr⟩ -
    exact h.handsToBound_redis hr input

namespace Sample

/-- One instance without a Redis, and a device that is still without an account. -/
def legacy : Cluster where
  redis := false
  legacyToken := "shared".toList

/-- The device connects with the shared token, is enrolled by `amy`, and she sends it a
request. -/
def enrolledLive : List ClusterInput :=
  [.connectDevice 0 "p1".toList,
    .deviceFrame 0 (.deviceHello { deviceId := Relay.Sample.device, serverToken := some "shared".toList }
      Relay.Sample.secret)] ++
    List.replicate 6 (.advance 0) ++
    [.enroll Relay.Sample.amyAccount Relay.Sample.device [] Relay.Sample.secret,
      .connectBrowser 0 Relay.Sample.amyAccount,
      .browserFrame 0 (.gatewayProxy { deviceId := Relay.Sample.device, requestId := "r1".toList }),
      .proceed 0,.proceed 0]

/-- The same request through two instances, the device with its own secret at the other. -/
def acrossInstances : List ClusterInput :=
  [.connectDevice 0 "p1".toList] ++ shakeHands 0 ++
    [.connectBrowser 1 Relay.Sample.amyAccount,
      .browserFrame 0 (.gatewayProxy { deviceId := Relay.Sample.device, requestId := "r1".toList }),
      .proceed 0,.proceed 0,.deliver 0,.proceed 0,.proceed 0]

end Sample

theorem enrolledLive_not_handedToOwner :
    ¬ HandedToOwner (Sample.run Sample.legacy Sample.enrolledLive).1 := by
  intro h
  have hmem : .handed 0 0 Relay.Sample.device [] 0 Relay.Sample.amy
      { deviceId := Relay.Sample.device, requestId := "r1".toList } ∈
        (Sample.run Sample.legacy Sample.enrolledLive).1 := by
    decide
  exact absurd (h _ _ _ _ _ _ _ hmem).2 (by decide)

theorem acrossInstances_handedToOwner :
    let reached := Sample.run Sample.stored Sample.acrossInstances
    .handed 0 0 Relay.Sample.device Relay.Sample.amy 0 Relay.Sample.amy
        { deviceId := Relay.Sample.device, requestId := "r1".toList } ∈ reached.1 ∧
      HandedToOwner reached.1 := by
  refine ⟨by decide,?_⟩
  refine (handedToOwner_iff Relay.Sample.config ⟨rfl,rfl,rfl,rfl,rfl,rfl,rfl⟩ _).1.mpr ?_
  decide

end CodeHarbor.Network
