import CodeHarbor.Gateway.PendingApprovals
set_option autoImplicit false

namespace CodeHarbor.Gateway
open Lib Bridge

/-- The store with the two files its family links are kept in. `deleted` are the sessions that
were deleted and have not been stored since. -/
structure FamilyStore where
  store : GatewayStore := .empty
  deleted : Finset String := ∅
  relationsFile : OrdMap String String := OrdMap.empty
  sessionsFile : List GatewaySession := []

inductive FamilyInput where
  | linkSubagent (parentId childId : String)
  | deleteSession (id : String)
  | saveSession (session : GatewaySession)
  | upsertSession (session : GatewaySession)
  | persistSessions
  | restart
  deriving DecidableEq, Repr

namespace FamilyStore

/-- A link and a deletion write the relations at once, the sessions wait for the timer. -/
def step (st : FamilyStore) : FamilyInput → FamilyStore
  | .linkSubagent parentId childId =>
    let store := st.store.linkSubagent parentId childId
    { st with store := store, relationsFile := store.subagentRelations }
  | .deleteSession id =>
    let store := st.store.deleteSession id
    { st with
      store := store
      deleted := insert id st.deleted
      relationsFile := store.subagentRelations }
  | .saveSession session =>
    { st with
      store := st.store.saveSession session
      deleted := st.deleted.erase session.id }
  | .upsertSession session =>
    { st with
      store := st.store.upsertSession session
      deleted := st.deleted.erase session.id }
  | .persistSessions =>
    { st with sessionsFile := st.store.listSessions.map GatewaySession.persisted }
  | .restart =>
    let store := GatewayStore.load { st.store with subagentRelations := st.relationsFile }
      st.sessionsFile
    { st with store := store, deleted := st.deleted.filter (fun id => ¬ store.sessions.has id) }

end FamilyStore

def family : Machine FamilyStore FamilyInput Empty where
  init st := st = {}
  step st i := (st.step i,[])

/-- The relation is stored three times: in the map, in the list of the parent and in the field
of the child. -/
structure Related (st : FamilyStore) : Prop where
  children : ∀ p session, st.store.getSession p = some session → ∀ c,
    c ∈ session.childSessionIds.getD [] ↔ st.store.subagentRelations.get c = some p
  parent : ∀ c session, st.store.getSession c = some session →
    session.parentSessionId = st.store.subagentRelations.get c
  deleted : ∀ c p, st.store.subagentRelations.get c = some p → c ∉ st.deleted ∧ p ∉ st.deleted

def GatewaySession.agrees (relations : OrdMap String String) (session : GatewaySession) : Bool :=
  session.parentSessionId = relations.get session.id ∧
  (∀ c ∈ session.childSessionIds.getD [], relations.get c = some session.id) ∧
  ∀ e ∈ relations.entries, e.2 = session.id → e.1 ∈ session.childSessionIds.getD []

/-- A child is linked anew only when its recorded parent is not stored, and a deleted session is
not linked; a session is deleted only when no stored one has it as its parent; what is written
has the links of the map; and a restart finds no record of a session that is gone or that has
got other links since. -/
def keepsRelations (st : FamilyStore) : FamilyInput → Bool
  | .linkSubagent parentId childId =>
    parentId ≠ "" ∧ childId ≠ "" ∧ parentId ≠ childId →
      (∀ q ∈ st.store.subagentRelations.get childId, q ≠ parentId → ¬ st.store.sessions.has q) ∧
      parentId ∉ st.deleted ∧ childId ∉ st.deleted
  | .deleteSession id =>
    ∀ e ∈ st.store.subagentRelations.entries, e.2 = id → ¬ st.store.sessions.has e.1
  | .saveSession session => session.agrees st.store.subagentRelations
  | .upsertSession session =>
    (((st.store.getSession session.id).map (·.spread session)).getD session).agrees
      st.store.subagentRelations
  | .persistSessions => true
  | .restart => ∀ x ∈ st.sessionsFile, ∃ y ∈ st.store.getSession x.id,
      x.parentSessionId = y.parentSessionId ∧ x.childSessionIds = y.childSessionIds

namespace GatewayStore

theorem relations_updateSession (st : GatewayStore) (id : String)
    (updater : GatewaySession → GatewaySession) :
    (st.updateSession id updater).subagentRelations = st.subagentRelations := by
  unfold updateSession
  split <;> rfl

theorem relations_upsertSession (st : GatewayStore) (session : GatewaySession) :
    (st.upsertSession session).subagentRelations = st.subagentRelations := by
  unfold upsertSession
  split <;> rfl

theorem linkSubagent_spec (st : GatewayStore) {parentId childId : String}
    (h : ¬ (parentId = "" ∨ childId = "" ∨ parentId = childId)) :
    (st.linkSubagent parentId childId).subagentRelations =
      st.subagentRelations.set childId parentId ∧
    ∀ id, (st.linkSubagent parentId childId).getSession id =
      if id = childId then
        (st.getSession id).map fun session => { session with parentSessionId := some parentId }
      else if id = parentId then
        (st.getSession id).map fun session => { session with
          childSessionIds := some ((session.childSessionIds.getD [] ++ [childId]).eraseDups) }
      else st.getSession id := by
  unfold linkSubagent
  rw [if_neg h]
  refine ⟨?_,?_⟩
  · rw [relations_updateSession,relations_updateSession]
  · intro id
    have hne : parentId ≠ childId := fun heq => h (.inr (.inr heq))
    dsimp only
    rw [getSession_updateSession _ ?_,getSession_updateSession _ ?_]
    · by_cases hc : id = childId
      · subst hc
        simp only [if_true,if_neg (Ne.symm hne)]
        rfl
      · simp only [if_neg hc]
        rfl
    · exact fun _ => rfl
    · exact fun _ => rfl

theorem deleteSession_relations (st : GatewayStore) (s : String) :
    (st.deleteSession s).subagentRelations =
      (st.subagentRelations.erase s).filter (fun _ linked => linked ≠ s) ∧
    ∀ id, (st.deleteSession s).getSession id =
      if id = s then none
      else if st.subagentRelations.get s = some id then
        (st.getSession id).map fun session => { session with
          childSessionIds := some ((session.childSessionIds.getD []).filter (· ≠ s)) }
      else st.getSession id := by
  have herase : ∀ id, (st.sessions.erase s).get id = if id = s then none else st.getSession id :=
    fun id => OrdMap.get_erase _ _ _
  unfold deleteSession getSubagentParent
  dsimp only
  split
  · rename_i hnone
    refine ⟨rfl,?_⟩
    intro id
    simp only [hnone]
    exact herase id
  · rename_i q hq
    refine ⟨relations_updateSession _ _ _,?_⟩
    intro id
    rw [getSession_updateSession _ ?_]
    · simp only [hq,Option.some.injEq,eq_comm (a := q)]
      by_cases hs : id = s
      · subst hs
        simp [getSession,herase]
      · simp only [getSession,herase,if_neg hs]
    · exact fun _ => rfl

theorem getSession_load (st : GatewayStore) {snapshot : List GatewaySession} {id : String}
    {x : GatewaySession} (h : (st.load snapshot).getSession id = some x) :
    ∃ y ∈ snapshot, y.id = id ∧ x = y.normalizePersistedSession := by
  have hfold : ∀ (ys : List GatewaySession) (st : GatewayStore),
      (ys.foldl (fun st session => st.saveSession session.normalizePersistedSession) st).getSession
        id = some x →
      st.getSession id = some x ∨ ∃ y ∈ ys, y.id = id ∧ x = y.normalizePersistedSession := by
    intro ys
    induction ys with
    | nil => exact fun _ h => .inl h
    | cons y ys ih =>
      intro st h
      rcases ih _ h with hsaved | ⟨z,hz,hid,hx⟩
      · rw [getSession_saveSession] at hsaved
        have hid : y.normalizePersistedSession.id = y.id := by
          simp only [GatewaySession.normalizePersistedSession]
          split_ifs <;> rfl
        split_ifs at hsaved with heq
        · exact .inr ⟨y,List.mem_cons_self,by rw [heq,hid],(Option.some.inj hsaved).symm⟩
        · exact .inl hsaved
      · exact .inr ⟨z,List.mem_cons_of_mem y hz,hid,hx⟩
  rcases hfold snapshot _ h with hnone | hsome
  · cases hnone
  · exact hsome

theorem relations_load (st : GatewayStore) (snapshot : List GatewaySession) :
    (st.load snapshot).subagentRelations = st.subagentRelations := by
  have hfold : ∀ (xs : List GatewaySession) (store : GatewayStore),
      (xs.foldl (fun st session => st.saveSession session.normalizePersistedSession)
        store).subagentRelations = store.subagentRelations := by
    intro xs
    induction xs with
    | nil => exact fun _ => rfl
    | cons x xs ih => exact fun store => ih _
  exact hfold snapshot _

end GatewayStore

theorem GatewaySession.agrees_iff {relations : OrdMap String String} {session : GatewaySession} :
    session.agrees relations = true ↔ session.parentSessionId = relations.get session.id ∧
      ∀ c, c ∈ session.childSessionIds.getD [] ↔ relations.get c = some session.id := by
  simp only [agrees,decide_eq_true_eq]
  refine and_congr_right fun _ => ?_
  constructor
  · rintro ⟨hthere,hback⟩ c
    refine ⟨hthere c,?_⟩
    intro hc
    exact hback (c,session.id) (OrdMap.get_eq_some.mp hc) rfl
  · intro h
    refine ⟨fun c => (h c).mp,?_⟩
    rintro ⟨c,p⟩ he rfl
    exact (h c).mpr (OrdMap.get_eq_some.mpr he)

theorem GatewayStore.has_iff {st : GatewayStore} {id : String} :
    st.sessions.has id = true ↔ ∃ session, st.getSession id = some session :=
  Option.isSome_iff_exists

namespace Related

variable {st : FamilyStore}

theorem link (h : Related st) {parentId childId : String}
    (hk : keepsRelations st (.linkSubagent parentId childId) = true) :
    Related (st.step (.linkSubagent parentId childId)) := by
  by_cases hnone : parentId = "" ∨ childId = "" ∨ parentId = childId
  · have hsame : st.store.linkSubagent parentId childId = st.store := by
      unfold GatewayStore.linkSubagent
      rw [if_pos hnone]
    simp only [FamilyStore.step,hsame]
    exact ⟨h.children,h.parent,h.deleted⟩
  obtain ⟨hrelations,hget⟩ := st.store.linkSubagent_spec hnone
  have hvalid : parentId ≠ "" ∧ childId ≠ "" ∧ parentId ≠ childId := by simpa using hnone
  simp only [keepsRelations,decide_eq_true_eq] at hk
  obtain ⟨hother,hparent,hchild⟩ := hk hvalid
  refine ⟨?_,?_,?_⟩
  · intro p session hp c
    simp only [FamilyStore.step,hrelations,hget,OrdMap.get_set] at hp ⊢
    by_cases hpc : p = childId
    · -- the child's own list does not change
      subst hpc
      rw [if_pos rfl,Option.map_eq_some_iff] at hp
      obtain ⟨old,hold,rfl⟩ := hp
      have hchildren := h.children p old hold c
      simp only
      rw [hchildren]
      split_ifs with hc
      · subst hc
        have hnot : st.store.subagentRelations.get c ≠ some c := by
          intro hself
          exact hother c hself (Ne.symm hvalid.2.2) (GatewayStore.has_iff.mpr ⟨old,hold⟩)
        simp [hnot,hvalid.2.2]
      · rfl
    · rw [if_neg hpc] at hp
      by_cases hpp : p = parentId
      · subst hpp
        rw [if_pos rfl,Option.map_eq_some_iff] at hp
        obtain ⟨old,hold,rfl⟩ := hp
        have hchildren := h.children p old hold c
        simp only [Option.getD_some,List.mem_eraseDups,List.mem_append,List.mem_singleton]
        rw [hchildren]
        split_ifs with hc
        · simp [hc]
        · simp [hc]
      · rw [if_neg hpp] at hp
        rw [h.children p session hp c]
        split_ifs with hc
        · -- a stored parent of before would keep the child
          subst hc
          have hnot : st.store.subagentRelations.get c ≠ some p := by
            intro hold
            exact hother p hold hpp (GatewayStore.has_iff.mpr ⟨session,hp⟩)
          simp [hnot,Ne.symm hpp]
        · rfl
  · intro c session hc
    simp only [FamilyStore.step,hrelations,hget,OrdMap.get_set] at hc ⊢
    split_ifs at hc ⊢ with hchild hp
    · obtain ⟨old,hold,rfl⟩ := Option.map_eq_some_iff.mp hc
      rfl
    · obtain ⟨old,hold,rfl⟩ := Option.map_eq_some_iff.mp hc
      exact h.parent c old hold
    · exact h.parent c session hc
  · intro c p hcp
    simp only [FamilyStore.step,hrelations,OrdMap.get_set] at hcp ⊢
    split_ifs at hcp with hc
    · rw [hc,← Option.some.inj hcp]
      exact ⟨hchild,hparent⟩
    · exact h.deleted c p hcp

theorem delete (h : Related st) {s : String}
    (hk : keepsRelations st (.deleteSession s) = true) : Related (st.step (.deleteSession s)) := by
  obtain ⟨hrelations,hget⟩ := st.store.deleteSession_relations s
  simp only [keepsRelations,decide_eq_true_eq] at hk
  have hnew : ∀ c p, (st.store.deleteSession s).subagentRelations.get c = some p ↔
      c ≠ s ∧ p ≠ s ∧ st.store.subagentRelations.get c = some p := by
    intro c p
    rw [hrelations,OrdMap.get_filter,OrdMap.get_erase]
    by_cases hc : c = s
    · simp [hc]
    · simp [hc,and_comm]
  refine ⟨?_,?_,?_⟩
  · intro p session hp c
    simp only [FamilyStore.step,hget] at hp ⊢
    rw [hnew]
    split_ifs at hp with hps hparent
    · obtain ⟨old,hold,rfl⟩ := Option.map_eq_some_iff.mp hp
      simp only [Option.getD_some,List.mem_filter,h.children p old hold c]
      simp [hps,and_comm]
    · rw [h.children p session hp c]
      constructor
      · intro hc
        refine ⟨?_,hps,hc⟩
        rintro rfl
        exact hparent hc
      · exact fun hc => hc.2.2
  · intro c session hc
    simp only [FamilyStore.step,hget] at hc ⊢
    have hold : c ≠ s ∧ ∃ old, st.store.getSession c = some old ∧
        session.parentSessionId = old.parentSessionId := by
      split_ifs at hc with hcs hparent
      · obtain ⟨old,hold,rfl⟩ := Option.map_eq_some_iff.mp hc
        exact ⟨hcs,old,hold,rfl⟩
      · exact ⟨hcs,session,hc,rfl⟩
    obtain ⟨hcs,old,hold,heq⟩ := hold
    rw [heq,h.parent c old hold]
    apply Option.ext
    intro p
    rw [hnew]
    constructor
    · intro hcp
      refine ⟨hcs,?_,hcp⟩
      rintro rfl
      -- a stored child would keep the deleted session as its parent
      exact hk (c,p) (OrdMap.get_eq_some.mp hcp) rfl (GatewayStore.has_iff.mpr ⟨old,hold⟩)
    · exact fun hcp => hcp.2.2
  · intro c p hcp
    simp only [FamilyStore.step] at hcp ⊢
    rw [hnew] at hcp
    obtain ⟨hc,hp,hcp⟩ := hcp
    obtain ⟨hc',hp'⟩ := h.deleted c p hcp
    simp [hc,hp,hc',hp']

theorem write (h : Related st) {store : GatewayStore} {x : GatewaySession}
    (hrelations : store.subagentRelations = st.store.subagentRelations)
    (hget : ∀ id, store.getSession id = if id = x.id then some x else st.store.getSession id)
    (hx : x.agrees st.store.subagentRelations = true) :
    Related { st with store := store, deleted := st.deleted.erase x.id } := by
  obtain ⟨hparent,hchildren⟩ := GatewaySession.agrees_iff.mp hx
  refine ⟨?_,?_,?_⟩
  · intro p session hp c
    simp only [hget,hrelations] at hp ⊢
    split_ifs at hp with hid
    · cases hp
      rw [hid]
      exact hchildren c
    · exact h.children p session hp c
  · intro c session hc
    simp only [hget,hrelations] at hc ⊢
    split_ifs at hc with hid
    · cases hc
      rw [hid]
      exact hparent
    · exact h.parent c session hc
  · intro c p hcp
    simp only [hrelations] at hcp ⊢
    obtain ⟨hc,hp⟩ := h.deleted c p hcp
    exact ⟨fun hmem => hc (Finset.mem_of_mem_erase hmem),fun hmem => hp (Finset.mem_of_mem_erase hmem)⟩

theorem restart (h : Related st) (hfile : st.relationsFile = st.store.subagentRelations)
    (hk : keepsRelations st .restart = true) : Related (st.step .restart) := by
  simp only [keepsRelations,decide_eq_true_eq] at hk
  have hrelations : (st.step .restart).store.subagentRelations = st.store.subagentRelations :=
    (GatewayStore.relations_load _ _).trans hfile
  -- a record that is loaded has the links of the stored one
  have hloaded : ∀ id session, (st.step .restart).store.getSession id = some session →
      ∃ old, st.store.getSession id = some old ∧
        session.parentSessionId = old.parentSessionId ∧
        session.childSessionIds = old.childSessionIds := by
    intro id session hget
    obtain ⟨y,hy,rfl,rfl⟩ := GatewayStore.getSession_load _ hget
    obtain ⟨old,hold,hparent,hchildren⟩ := hk y hy
    refine ⟨old,hold,?_,?_⟩
    · rw [← hparent]
      simp only [GatewaySession.normalizePersistedSession]
      split_ifs <;> rfl
    · rw [← hchildren]
      simp only [GatewaySession.normalizePersistedSession]
      split_ifs <;> rfl
  refine ⟨?_,?_,?_⟩
  · intro p session hp c
    obtain ⟨old,hold,-,hchildren⟩ := hloaded p session hp
    rw [hrelations,hchildren]
    exact h.children p old hold c
  · intro c session hc
    obtain ⟨old,hold,hparent,-⟩ := hloaded c session hc
    rw [hrelations,hparent]
    exact h.parent c old hold
  · intro c p hcp
    rw [hrelations] at hcp
    obtain ⟨hc,hp⟩ := h.deleted c p hcp
    exact ⟨fun hmem => hc (Finset.mem_filter.mp hmem).1,fun hmem => hp (Finset.mem_filter.mp hmem).1⟩

theorem step (h : Related st) (hfile : st.relationsFile = st.store.subagentRelations)
    {i : FamilyInput} (hk : keepsRelations st i = true) : Related (st.step i) := by
  cases i with
  | linkSubagent parentId childId => exact h.link hk
  | deleteSession id => exact h.delete hk
  | saveSession session =>
    exact h.write rfl (fun id => st.store.getSession_saveSession session id) hk
  | upsertSession session =>
    have hid : (((st.store.getSession session.id).map (·.spread session)).getD session).id =
        session.id := by cases st.store.getSession session.id <;> rfl
    simp only [FamilyStore.step]
    rw [← hid]
    refine h.write (st.store.relations_upsertSession session) ?_ hk
    intro id
    rw [GatewayStore.getSession_upsertSession,hid]
    split_ifs with heq
    · rw [heq]
    · rfl
  | persistSessions => exact ⟨h.children,h.parent,h.deleted⟩
  | restart => exact h.restart hfile hk

end Related

theorem FamilyStore.step_relationsFile {st : FamilyStore}
    (h : st.relationsFile = st.store.subagentRelations) (i : FamilyInput) :
    (st.step i).relationsFile = (st.step i).store.subagentRelations := by
  cases i with
  | linkSubagent parentId childId => rfl
  | deleteSession id => rfl
  | saveSession session => exact h
  | upsertSession session => exact h.trans (st.store.relations_upsertSession session).symm
  | persistSessions => exact h
  | restart =>
    simp only [step,GatewayStore.relations_load]

/-- In every run whose steps meet the condition the three copies of the relation agree. -/
theorem related_run {tr : List Empty} {st : FamilyStore}
    (hr : family.Run (fun _ st i => keepsRelations st i = true) tr st) : Related st := by
  have hboth : Related st ∧ st.relationsFile = st.store.subagentRelations := by
    apply hr.invariant (P := fun _ st => Related st ∧ st.relationsFile = st.store.subagentRelations)
    · rintro st rfl
      refine ⟨⟨?_,?_,?_⟩,rfl⟩
      · intro p session hp
        cases hp
      · intro c session hc
        cases hc
      · intro c p hcp
        cases hcp
    · intro tr st i h hk
      exact ⟨h.1.step h.2 hk,FamilyStore.step_relationsFile h.2 i⟩
  exact hboth.1

namespace Sample

def stored (id : String) : GatewaySession := minimalSession id 0 .completed

/-- A child linked before its parent is stored, a restart with everything written, and a second
child that goes again. -/
def linkedFamily : List FamilyInput :=
  [.saveSession (stored "c"),.linkSubagent "p" "c",.persistSessions,.restart,
    .saveSession { stored "p" with childSessionIds := some ["c"] },
    .saveSession (stored "d"),.linkSubagent "p" "d",.deleteSession "d"]

/-- The child gets another parent. -/
def linkedAnew : List FamilyInput :=
  [.saveSession (stored "p"),.saveSession (stored "q"),.saveSession (stored "c"),
    .linkSubagent "p" "c",.linkSubagent "q" "c"]

end Sample

theorem linkedFamily_related_run :
    (family.exec [] {} Sample.linkedFamily).2.store.view GatewaySession.childSessionIds "p" =
      some (some ["c"]) ∧
    (family.exec [] {} Sample.linkedFamily).2.store.view GatewaySession.parentSessionId "c" =
      some (some "p") ∧
    Related (family.exec [] {} Sample.linkedFamily).2 := by
  have hrun : family.Run (fun _ st i => keepsRelations st i = true) [] {} := .start rfl
  exact ⟨by decide +kernel,by decide +kernel,
    related_run (hrun.exec Sample.linkedFamily (by decide +kernel))⟩

/-- The parent of before keeps the child in its list. -/
theorem linkedAnew_not_related :
    family.Run family.free (family.exec [] {} Sample.linkedAnew).1
      (family.exec [] {} Sample.linkedAnew).2 ∧
    ¬ Related (family.exec [] {} Sample.linkedAnew).2 := by
  have hrun : family.Run family.free [] {} := .start rfl
  refine ⟨hrun.exec _ (family.allowed_free _ _ _),?_⟩
  intro h
  have hold : (family.exec [] {} Sample.linkedAnew).2.store.getSession "p" =
      some { Sample.stored "p" with childSessionIds := some ["c"] } := by decide +kernel
  have hnow : (family.exec [] {} Sample.linkedAnew).2.store.subagentRelations.get "c" =
      some "q" := by decide +kernel
  have hchild := (h.children "p" _ hold "c").mp (by simp)
  rw [hnow] at hchild
  simp at hchild

end CodeHarbor.Gateway
