import Mathlib
set_option autoImplicit false

namespace CodeHarbor.Lib

/-- Drop from the front while there are more than `n`. -/
def newest {α : Type} (n : Nat) : List α → List α
  | [] => []
  | x :: xs => if xs.length < n then x :: xs else newest n xs

theorem newest_eq_drop {α : Type} (n : Nat) (xs : List α) : newest n xs = xs.drop (xs.length-n) := by
  induction xs with
  | nil => simp [newest]
  | cons x xs ih =>
    rw [newest,List.length_cons]
    split_ifs with h
    · have hzero : xs.length+1-n = 0 := by omega
      rw [hzero,List.drop_zero]
    · have hsucc : xs.length+1-n = (xs.length-n)+1 := by omega
      rw [ih,hsucc,List.drop_succ_cons]

theorem map_newest {α β : Type} (f : α → β) (n : Nat) (xs : List α) :
    (newest n xs).map f = newest n (xs.map f) := by
  rw [newest_eq_drop,newest_eq_drop,List.map_drop,List.length_map]

theorem newest_suffix {α : Type} (n : Nat) (xs : List α) : newest n xs <:+ xs := by
  rw [newest_eq_drop]
  exact List.drop_suffix _ _

theorem length_newest {α : Type} (n : Nat) (xs : List α) : (newest n xs).length = min n xs.length := by
  rw [newest_eq_drop,List.length_drop]
  omega

theorem newest_eq_self {α : Type} {n : Nat} {xs : List α} (h : (newest n xs).length = xs.length) :
    newest n xs = xs := (newest_suffix n xs).eq_of_length h

theorem suffix_newest {α : Type} {n : Nat} {xs ys : List α} (h : ys <:+ xs) (hlength : ys.length ≤ n) :
    ys <:+ newest n xs := by
  refine List.suffix_of_suffix_length_le h (newest_suffix n xs) ?_
  rw [length_newest]
  exact le_min hlength h.length_le

theorem newest_newest_snoc {α : Type} (n : Nat) (xs : List α) (x : α) :
    newest n (newest n xs ++ [x]) = newest n (xs ++ [x]) := by
  obtain ⟨old,hold⟩ := newest_suffix n xs
  have hsuffix : newest n xs ++ [x] <:+ xs ++ [x] := ⟨old,by rw [← List.append_assoc,hold]⟩
  refine List.IsSuffix.eq_of_length ?_ ?_
  · refine List.suffix_of_suffix_length_le ((newest_suffix n _).trans hsuffix)
      (newest_suffix n _) ?_
    simp only [length_newest,List.length_append,List.length_singleton]
    omega
  · simp only [length_newest,List.length_append,List.length_singleton]
    omega

theorem nodup_eraseDups {α : Type} [BEq α] [LawfulBEq α] (xs : List α) : xs.eraseDups.Nodup := by
  induction hn : xs.length using Nat.strong_induction_on generalizing xs with
  | _ n ih =>
    cases xs with
    | nil => simp
    | cons x xs =>
      rw [List.eraseDups_cons,List.nodup_cons,List.mem_eraseDups]
      refine ⟨by simp,ih _ ?_ _ rfl⟩
      rw [← hn,List.length_cons]
      exact Nat.lt_succ_of_le (List.length_filter_le _ _)

/-- An element stays in the window while fewer than `n` others came after it. -/
theorem newest_eraseDups {α : Type} [DecidableEq α] [BEq α] [LawfulBEq α] {n : Nat}
    {pre post : List α} {x : α} {others : Finset α} (hx : x ∉ pre) (hpost : ∀ y ∈ post, y ≠ x → y ∈ others)
    (hcard : others.card < n) :
    ∃ pre' post', newest n (pre ++ x :: post).eraseDups = pre' ++ x :: post' ∧ x ∉ pre' ∧
      ∀ y ∈ post', y ∈ others := by
  have hsplit : (pre ++ x :: post).eraseDups = pre.eraseDups ++
      x :: ((post.removeAll pre).filter (fun y => !y == x)).eraseDups := by
    rw [List.eraseDups_append,List.cons_removeAll]
    simp [hx,List.eraseDups_cons]
  have hmem : ∀ y ∈ ((post.removeAll pre).filter (fun y => !y == x)).eraseDups, y ∈ others := by
    intro y hy
    rw [List.mem_eraseDups,List.mem_filter] at hy
    refine hpost y ?_ (by simpa using hy.2)
    exact List.mem_of_mem_filter hy.1
  generalize hpost' : ((post.removeAll pre).filter (fun y => !y == x)).eraseDups = post' at *
  have hlength : post'.length ≤ others.card := by
    have hnodup : post'.Nodup := hpost' ▸ nodup_eraseDups _
    rw [← List.toFinset_card_of_nodup hnodup]
    exact Finset.card_le_card (fun y hy => hmem y (List.mem_toFinset.mp hy))
  refine ⟨pre.eraseDups.drop ((pre.eraseDups ++ x :: post').length-n),post',?_,?_,hmem⟩
  · rw [hsplit,newest_eq_drop,List.drop_append_of_le_length]
    rw [List.length_append,List.length_cons]
    omega
  · intro hmem
    exact hx (List.mem_eraseDups.mp (List.mem_of_mem_drop hmem))

/-- A use of a key in a least recently used order of at most `n` keys, oldest first. -/
def touch {κ : Type} [DecidableEq κ] (n : Nat) (keys : List κ) (k : κ) : List κ :=
  newest n (keys.filter (· ≠ k) ++ [k])

theorem foldl_touch {κ : Type} [DecidableEq κ] {n : Nat} (pre used fresh : List κ)
    (hnodup : (used ++ fresh).Nodup) (hlength : (used ++ fresh).length ≤ n) :
    ∃ pre', fresh.foldl (touch n) (pre ++ used) = pre' ++ (used ++ fresh) := by
  induction fresh generalizing pre used with
  | nil => exact ⟨pre,by simp⟩
  | cons k fresh ih =>
    have hmove : used ++ k :: fresh = (used ++ [k]) ++ fresh := by simp
    rw [hmove] at hnodup hlength ⊢
    have hk : ∀ j ∈ used, j ≠ k := by
      intro j hj
      have hdisjoint := (List.nodup_append.mp (List.nodup_append.mp hnodup).1).2.2
      exact hdisjoint j hj k List.mem_cons_self
    have hused : used.filter (· ≠ k) = used := List.filter_eq_self.mpr (by simpa using hk)
    obtain ⟨pre',hpre⟩ : ∃ pre', touch n (pre ++ used) k = pre' ++ (used ++ [k]) := by
      rw [touch,List.filter_append,hused,List.append_assoc,newest_eq_drop]
      refine ⟨_,List.drop_append_of_le_length ?_⟩
      rw [List.length_append] at *
      omega
    rw [List.foldl_cons,hpre]
    exact ih pre' (used ++ [k]) hnodup hlength

theorem foldl_touch_eq {κ : Type} [DecidableEq κ] {n : Nat} (hn : 0 < n) (keys : List κ)
    {fresh : List κ} (hnodup : fresh.Nodup) (hlength : fresh.length = n) :
    fresh.foldl (touch n) keys = fresh := by
  obtain ⟨pre',hpre⟩ := foldl_touch keys [] fresh (by simpa using hnodup) (by simpa using hlength.le)
  rw [List.append_nil,List.nil_append] at hpre
  have hbound : (fresh.foldl (touch n) keys).length ≤ n := by
    rcases List.eq_nil_or_concat fresh with rfl | ⟨init,k,rfl⟩
    · simp at hlength
      omega
    · rw [List.concat_eq_append,List.foldl_append,List.foldl_cons,List.foldl_nil,touch,
        newest_eq_drop,List.length_drop]
      omega
  rw [hpre,List.length_append] at hbound
  have hnil : pre' = [] := List.length_eq_zero_iff.mp (by omega)
  rw [hpre,hnil,List.nil_append]

/-- A finite map that remembers insertion order, oldest entry first. -/
structure OrdMap (κ α : Type) where
  entries : List (κ × α)
  nodup : (entries.map Prod.fst).Nodup
  deriving DecidableEq, Repr

namespace OrdMap

variable {κ α : Type}

def empty : OrdMap κ α := ⟨[],List.nodup_nil⟩

instance : Inhabited (OrdMap κ α) := ⟨empty⟩

def size (m : OrdMap κ α) : Nat := m.entries.length

/-- Forget the oldest entries until at most `n` are left. -/
def keepNewest (m : OrdMap κ α) (n : Nat) : OrdMap κ α where
  entries := newest n m.entries
  nodup := by
    rw [newest_eq_drop,List.map_drop]
    exact m.nodup.sublist (List.drop_sublist _ _)

def filter (m : OrdMap κ α) (p : κ → α → Bool) : OrdMap κ α where
  entries := m.entries.filter (fun e => p e.1 e.2)
  nodup := m.nodup.sublist (List.filter_sublist.map _)

def mapValues {β : Type} (m : OrdMap κ α) (f : κ → α → β) : OrdMap κ β where
  entries := m.entries.map (fun e => (e.1,f e.1 e.2))
  nodup := by
    rw [List.map_map]
    exact m.nodup

variable [DecidableEq κ]

def get (m : OrdMap κ α) (k : κ) : Option α := m.entries.lookup k

def has (m : OrdMap κ α) (k : κ) : Bool := (m.get k).isSome

def erase (m : OrdMap κ α) (k : κ) : OrdMap κ α := m.filter (fun j _ => j ≠ k)

/-- A present key keeps its place, a new one goes to the end. -/
def set (m : OrdMap κ α) (k : κ) (v : α) : OrdMap κ α where
  entries :=
    if k ∈ m.entries.map Prod.fst then
      m.entries.map (fun e => if e.1 = k then (k,v) else e)
    else m.entries ++ [(k,v)]
  nodup := by
    split_ifs with h
    · have hkeys : (m.entries.map (fun e => if e.1 = k then (k,v) else e)).map Prod.fst =
          m.entries.map Prod.fst := by
        rw [List.map_map]
        apply List.map_congr_left
        intro e _
        by_cases he : e.1 = k
        · simp [he]
        · simp [he]
      rw [hkeys]
      exact m.nodup
    · rw [List.map_append]
      apply List.Nodup.append m.nodup
      · simp
      · simpa using h

theorem get_eq_some {m : OrdMap κ α} {k : κ} {v : α} :
    m.get k = some v ↔ (k,v) ∈ m.entries := by
  obtain ⟨entries,hn⟩ := m
  simp only [get]
  induction entries with
  | nil => simp
  | cons e rest ih =>
    obtain ⟨j,w⟩ := e
    rw [List.map_cons,List.nodup_cons] at hn
    have ih := ih hn.2
    by_cases hk : k = j
    · subst hk
      have hnot : (k,v) ∉ rest := by
        intro hmem
        exact hn.1 (List.mem_map.mpr ⟨(k,v),hmem,rfl⟩)
      simp [hnot,eq_comm]
    · have hk' : (k == j) = false := by simpa using hk
      simp [List.lookup_cons,hk',hk,ih]

theorem get_eq_none {m : OrdMap κ α} {k : κ} :
    m.get k = none ↔ k ∉ m.entries.map Prod.fst := by
  constructor
  · intro h hmem
    obtain ⟨e,he,rfl⟩ := List.mem_map.mp hmem
    have hsome : m.get e.1 = some e.2 := get_eq_some.mpr he
    simp [h] at hsome
  · intro h
    cases hg : m.get k with
    | none => rfl
    | some v => exact absurd (List.mem_map.mpr ⟨(k,v),get_eq_some.mp hg,rfl⟩) h

@[simp] theorem get_empty (k : κ) : (empty : OrdMap κ α).get k = none := rfl

theorem get_filter {m : OrdMap κ α} {p : κ → α → Bool} {k : κ} {v : α} :
    (m.filter p).get k = some v ↔ m.get k = some v ∧ p k v = true := by
  rw [get_eq_some,get_eq_some]
  simp [filter]

theorem get_mapValues {β : Type} (m : OrdMap κ α) (f : κ → α → β) (k : κ) :
    (m.mapValues f).get k = (m.get k).map (f k) := by
  obtain ⟨entries,hn⟩ := m
  simp only [get,mapValues]
  clear hn
  induction entries with
  | nil => rfl
  | cons e entries ih =>
    obtain ⟨j,v⟩ := e
    by_cases hj : k = j
    · simp [List.lookup,hj]
    · simp [List.lookup,beq_false_of_ne hj,ih]

theorem get_erase (m : OrdMap κ α) (k j : κ) :
    (m.erase k).get j = if j = k then none else m.get j := by
  apply Option.ext
  intro v
  rw [erase,get_filter]
  by_cases h : j = k
  · simp [h]
  · simp [h]

theorem has_erase_self (m : OrdMap κ α) (k : κ) : (m.erase k).has k = false := by
  simp [has,get_erase]

theorem get_set (m : OrdMap κ α) (k j : κ) (v : α) :
    (m.set k v).get j = if j = k then some v else m.get j := by
  apply Option.ext
  intro w
  rw [get_eq_some]
  unfold set
  dsimp only
  by_cases hmem : k ∈ m.entries.map Prod.fst
  · obtain ⟨e,he,hek⟩ := List.mem_map.mp hmem
    simp only [hmem,if_true,List.mem_map]
    by_cases hj : j = k
    · subst hj
      constructor
      · rintro ⟨e',-,h⟩
        split_ifs at h with h'
        · simp_all
        · exact absurd (congrArg Prod.fst h) h'
      · intro h
        simp at h
        exact ⟨e,he,by simp [hek,h]⟩
    · simp only [hj,if_false]
      rw [get_eq_some]
      constructor
      · rintro ⟨e',he',h⟩
        split_ifs at h with h'
        · exact absurd (congrArg Prod.fst h).symm hj
        · exact h ▸ he'
      · intro h
        exact ⟨(j,w),h,by simp [hj]⟩
  · simp only [hmem,if_false,List.mem_append,List.mem_singleton,Prod.mk.injEq]
    by_cases hj : j = k
    · subst hj
      have hnone : (j,w) ∉ m.entries := fun h => hmem (List.mem_map.mpr ⟨_,h,rfl⟩)
      simp [hnone,eq_comm]
    · simp [hj,get_eq_some]

theorem get_of_get_keepNewest {m : OrdMap κ α} {n : Nat} {k : κ} {v : α}
    (h : (m.keepNewest n).get k = some v) : m.get k = some v := by
  rw [get_eq_some] at *
  simp only [keepNewest,newest_eq_drop] at h
  exact List.mem_of_mem_drop h

theorem get_keepNewest_set_new {m : OrdMap κ α} {n : Nat} (hn : 0 < n) {k : κ}
    (hk : m.get k = none) (v : α) : ((m.set k v).keepNewest n).get k = some v := by
  have hmem := get_eq_none.mp hk
  rw [get_eq_some]
  have hent : (m.set k v).entries = m.entries ++ [(k,v)] := by
    unfold set
    exact if_neg hmem
  simp only [keepNewest,newest_eq_drop,hent,List.length_append,List.length_singleton]
  rw [List.drop_append_of_le_length (by omega)]
  simp

theorem keys_touch (m : OrdMap κ α) (n : Nat) (k : κ) (v : α) :
    (((m.erase k).set k v).keepNewest n).entries.map Prod.fst = touch n (m.entries.map Prod.fst) k := by
  have hkeys : (m.erase k).entries.map Prod.fst = (m.entries.map Prod.fst).filter (· ≠ k) := by
    simp only [erase,filter,List.filter_map]
    rfl
  have hset : ((m.erase k).set k v).entries = (m.erase k).entries ++ [(k,v)] := by
    have hnone : k ∉ (m.erase k).entries.map Prod.fst := by
      rw [hkeys]
      simp
    unfold set
    exact if_neg hnone
  have hkeep : ((m.erase k).set k v).entries.map Prod.fst =
      (m.entries.map Prod.fst).filter (· ≠ k) ++ [k] := by
    rw [hset,List.map_append,hkeys]
    rfl
  rw [keepNewest,map_newest,hkeep]
  rfl

/-- The order of an object's own properties: those with an index come first and by it, the
others as they were added. -/
def byIndex (m : OrdMap κ α) (index : κ → Option Nat) : OrdMap κ α where
  entries := (m.entries.filter (fun e => (index e.1).isSome)).mergeSort
      (fun left right => (index left.1).getD 0 ≤ (index right.1).getD 0) ++
    m.entries.filter (fun e => !(index e.1).isSome)
  nodup := by
    refine ((List.Perm.map Prod.fst ?_).nodup_iff).mpr m.nodup
    refine ((List.mergeSort_perm _ _).append_right _).trans ?_
    exact List.filter_append_perm (fun e : κ × α => (index e.1).isSome) m.entries

theorem get_byIndex (m : OrdMap κ α) (index : κ → Option Nat) (k : κ) :
    (m.byIndex index).get k = m.get k := by
  apply Option.ext
  intro v
  rw [get_eq_some,get_eq_some]
  simp only [byIndex,List.mem_append,List.mem_mergeSort,List.mem_filter]
  cases (index k).isSome <;> simp

/-- Every value set under its own key, in order. -/
def setAll (m : OrdMap κ α) (key : α → κ) (xs : List α) : OrdMap κ α :=
  xs.foldl (fun m x => m.set (key x) x) m

theorem get_setAll (m : OrdMap κ α) (key : α → κ) (xs : List α) (k : κ) :
    (m.setAll key xs).get k = ((xs.filter (key · = k)).getLast?).or (m.get k) := by
  induction xs generalizing m with
  | nil => simp [setAll]
  | cons x xs ih =>
    have hstep : (m.setAll key (x :: xs)).get k = ((m.set (key x) x).setAll key xs).get k := rfl
    rw [hstep,ih,get_set,List.filter_cons]
    by_cases hk : key x = k
    · subst hk
      cases hlast : (xs.filter (key · = key x)).getLast? <;> simp [List.getLast?_cons,hlast]
    · simp [hk,Ne.symm hk]

theorem size_setAll [BEq κ] [LawfulBEq κ] (key : α → κ) (xs : List α) :
    ((empty : OrdMap κ α).setAll key xs).size = (xs.map key).eraseDups.length := by
  have hperm : (((empty : OrdMap κ α).setAll key xs).entries.map Prod.fst).Perm
      (xs.map key).eraseDups := by
    rw [List.perm_ext_iff_of_nodup (OrdMap.nodup _) (nodup_eraseDups _)]
    intro k
    rw [List.mem_eraseDups,← not_iff_not,← get_eq_none,get_setAll]
    simp
  have hlength := hperm.length_eq
  rw [List.length_map] at hlength
  exact hlength

end OrdMap

end CodeHarbor.Lib
