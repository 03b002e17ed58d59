import Mathlib
set_option autoImplicit false

namespace CodeHarbor.Lib.Paging

/-! Pages of a list that is sorted by a key, newest first: the cursor is the key of the last row of a
page, and the zero key is no cursor. -/

variable {α κ : Type} [LinearOrder κ] [Zero κ]

section Definitions
variable (key : α → Option κ) (all : List α) (n : Nat)

/-- What a cursor lets through. -/
def admits (c : κ) (x : α) : Bool := c = 0 || (key x).any fun t => t < c

def rows : Option κ → List α
  | none => all
  | some c => all.filter (admits key c)

def page (c : Option κ) : List α := (rows key all c).take n

/-- A row without a key gives the zero cursor. -/
def cursorOf (x : α) : κ := (key x).getD 0

def next (c : Option κ) : Option κ :=
  if n < (rows key all c).length then (page key all n c).getLast?.map (cursorOf key) else none

/-- The pages from a cursor to the last one, none while there are more than the fuel. -/
def follow : Nat → Option κ → Option (List α)
  | 0, _ => none
  | fuel+1, c =>
    match next key all n c with
    | none => some (page key all n c)
    | some d => (follow fuel (some d)).map (page key all n c ++ ·)

def returned : Nat → Option κ → List α
  | 0, _ => []
  | fuel+1, c => page key all n c ++
    match next key all n c with
    | none => []
    | some d => returned fuel (some d)

/-- Keys fall, and rows without one come last. -/
def Descending : Prop := all.Pairwise fun x y => ∀ t, key y = some t → ∃ s, key x = some s ∧ t ≤ s

/-- The cursor of the `k`-th page separates what it has shown of the first `m` rows from the rest. -/
def Clear (m k : Nat) : Prop :=
  ∃ c, (all.take (k*n)).getLast?.bind key = some c ∧ c ≠ 0 ∧
    ∀ z ∈ (all.take m).drop (k*n), ∃ t, key z = some t ∧ t < c

def Stands (m k : Nat) (c : Option κ) : Prop :=
  ∃ tail, rows key all c = (all.take m).drop (k*n) ++ tail ∧ (all.length ≤ m → tail = [])

end Definitions

variable {key : α → Option κ} {all : List α} {n : Nat}

theorem returned_of_follow {fuel : Nat} {c : Option κ} {out : List α} (h : follow key all n fuel c = some out) :
    returned key all n fuel c = out := by
  induction fuel generalizing c out with
  | zero => cases h
  | succ fuel ih =>
    rw [follow] at h
    rw [returned]
    cases step : next key all n c with
    | none =>
      rw [step] at h
      cases h
      simp
    | some d =>
      rw [step] at h
      obtain ⟨rest,found,rfl⟩ := Option.map_eq_some_iff.1 h
      rw [← ih found]

theorem mem_of_mem_page {c : Option κ} {x : α} (h : x ∈ page key all n c) : x ∈ all := by
  have listed := List.mem_of_mem_take h
  cases c with
  | none => exact listed
  | some c => exact List.mem_of_mem_filter listed

theorem mem_of_mem_returned {fuel : Nat} {c : Option κ} {x : α} (h : x ∈ returned key all n fuel c) : x ∈ all := by
  induction fuel generalizing c with
  | zero => cases h
  | succ fuel ih =>
    rw [returned,List.mem_append] at h
    rcases h with here | later
    · exact mem_of_mem_page here
    · cases step : next key all n c with
      | none => simp [step] at later
      | some d =>
        rw [step] at later
        exact ih later

theorem admits_iff {c : κ} (h : c ≠ 0) (x : α) : admits key c x = true ↔ ∃ t, key x = some t ∧ t < c := by
  cases found : key x <;> simp [admits,h,found]

theorem rows_zero : rows key all (some 0) = all := by
  simp [rows,admits]

theorem filter_front (sorted : Descending key all) {m : Nat} {c : κ} (last : (all.take m).getLast?.bind key = some c)
    (nonzero : c ≠ 0) : (all.take m).filter (admits key c) = [] := by
  obtain ⟨y,found,isKey⟩ := Option.bind_eq_some_iff.1 last
  obtain ⟨front,split⟩ := List.getLast?_eq_some_iff.1 found
  have falls := sorted.sublist (List.take_sublist m all)
  rw [split] at falls ⊢
  rw [List.filter_eq_nil_iff]
  intro x mem admitted
  obtain ⟨t,own,less⟩ := (admits_iff nonzero x).1 admitted
  rcases List.mem_append.1 mem with before | at_
  · obtain ⟨s,larger,le⟩ := (List.pairwise_append.1 falls).2.2 x before y (by simp) c isKey
    rw [own] at larger
    cases larger
    exact absurd less (not_lt_of_ge le)
  · obtain rfl : x = y := by simpa using at_
    rw [own] at isKey
    cases isKey
    exact absurd less (lt_irrefl _)

theorem stands_start (m : Nat) : Stands key all n m 0 none :=
  ⟨all.drop m,by simp [rows],List.drop_eq_nil_of_le⟩

theorem stands_zero (m : Nat) : Stands key all n m 0 (some 0) :=
  ⟨all.drop m,by simp [rows_zero],List.drop_eq_nil_of_le⟩

theorem stands_clear (sorted : Descending key all) {m k : Nat} (h : k*n ≤ m) {c : κ}
    (last : (all.take (k*n)).getLast?.bind key = some c) (nonzero : c ≠ 0)
    (below : ∀ z ∈ (all.take m).drop (k*n), ∃ t, key z = some t ∧ t < c) :
    Stands key all n m k (some c) := by
  have parts : all = all.take (k*n) ++ ((all.take m).drop (k*n) ++ all.drop m) := by
    have inner : all.take (k*n) = (all.take m).take (k*n) := by rw [List.take_take,Nat.min_eq_left h]
    rw [← List.append_assoc,inner,List.take_append_drop,List.take_append_drop]
  refine ⟨(all.drop m).filter (admits key c),?_,fun short => by simp [List.drop_eq_nil_of_le short]⟩
  have kept : ((all.take m).drop (k*n)).filter (admits key c) = (all.take m).drop (k*n) :=
    List.filter_eq_self.2 fun z mem => (admits_iff nonzero z).2 (below z mem)
  calc rows key all (some c) = all.filter (admits key c) := rfl
    _ = (all.take (k*n) ++ ((all.take m).drop (k*n) ++ all.drop m)).filter (admits key c) := by rw [← parts]
    _ = _ := by rw [List.filter_append,List.filter_append,filter_front sorted last nonzero,kept,List.nil_append]

section Standing
variable {m k : Nat} {c : Option κ}

theorem Stands.page_eq (h : Stands key all n m k c) (fits : (k+1)*n ≤ m ∨ all.length ≤ m) :
    page key all n c = (all.drop (k*n)).take n := by
  obtain ⟨tail,rows_eq,whole⟩ := h
  rw [page,rows_eq]
  by_cases short : all.length ≤ m
  · rw [whole short,List.append_nil,List.take_of_length_le short]
  · have fits := fits.resolve_right short
    rw [Nat.succ_mul] at fits
    rw [List.take_append_of_le_length,List.drop_take,List.take_take,Nat.min_eq_left (by omega)]
    rw [List.length_drop,List.length_take]
    omega

theorem take_succ_mul (hn : 0 < n) (behind : k*n < all.length) :
    (all.take ((k+1)*n)).getLast? = ((all.drop (k*n)).take n).getLast? := by
  rw [Nat.succ_mul,List.take_add,List.getLast?_append_of_ne_nil]
  intro nothing
  have := congrArg List.length nothing
  rw [List.length_take,List.length_drop,List.length_nil] at this
  omega

theorem Stands.next_eq (h : Stands key all n m k c) (hn : 0 < n) (more : (k+1)*n < all.length) (fits : (k+1)*n < m) :
    next key all n c = (all.take ((k+1)*n)).getLast?.map (cursorOf key) := by
  have shown := h.page_eq (.inl (Nat.le_of_lt fits))
  obtain ⟨tail,rows_eq,-⟩ := h
  rw [take_succ_mul hn (by rw [Nat.succ_mul] at more; omega),← shown,next,if_pos]
  rw [rows_eq,List.length_append,List.length_drop,List.length_take]
  rw [Nat.succ_mul] at more fits
  omega

theorem Stands.done (h : Stands key all n m k c) (short : all.length ≤ m) (last : all.length ≤ (k+1)*n) :
    next key all n c = none := by
  obtain ⟨tail,rows_eq,whole⟩ := h
  rw [next,if_neg]
  rw [rows_eq,whole short,List.append_nil,List.length_drop,List.length_take]
  rw [Nat.succ_mul] at last
  omega

theorem Stands.step (h : Stands key all n m k c) (sorted : Descending key all) (hn : 0 < n)
    (more : (k+1)*n < all.length) (fits : (k+1)*n < m) (clear : Clear key all n m (k+1)) :
    ∃ d, next key all n c = some d ∧ Stands key all n m (k+1) (some d) := by
  obtain ⟨d,last,nonzero,below⟩ := clear
  refine ⟨d,?_,stands_clear sorted (Nat.le_of_lt fits) last nonzero below⟩
  obtain ⟨y,found,isKey⟩ := Option.bind_eq_some_iff.1 last
  rw [h.next_eq hn more fits,found]
  simp [cursorOf,isKey]

end Standing

theorem follow_of_stands (sorted : Descending key all) (hn : 0 < n)
    (clear : ∀ k, 0 < k → k*n < all.length → Clear key all n all.length k) {k : Nat} {c : Option κ}
    (h : Stands key all n all.length k c) (inside : k*n ≤ all.length) {fuel : Nat}
    (enough : all.length < (k+fuel)*n) : follow key all n fuel c = some (all.drop (k*n)) := by
  induction fuel generalizing k c with
  | zero => rw [Nat.add_zero] at enough; omega
  | succ fuel ih =>
    have parts : all.drop (k*n) = (all.drop (k*n)).take n ++ all.drop ((k+1)*n) := by
      conv_lhs => rw [← List.take_append_drop n (all.drop (k*n)),List.drop_drop]
      rw [Nat.succ_mul]
    rw [follow]
    by_cases more : (k+1)*n < all.length
    · obtain ⟨d,step,stands⟩ := h.step sorted hn more more (clear (k+1) (by omega) more)
      rw [step,h.page_eq (.inr (Nat.le_refl _))]
      dsimp only
      rw [ih stands (Nat.le_of_lt more) (by rwa [Nat.add_right_comm,Nat.add_assoc]),Option.map_some,← parts]
    · have last : (all.drop (k*n)).take n = all.drop (k*n) := by
        rw [List.take_of_length_le]
        rw [List.length_drop]
        rw [Nat.succ_mul] at more
        omega
      rw [h.done (Nat.le_refl _) (Nat.le_of_not_lt more),h.page_eq (.inr (Nat.le_refl _)),last]

section Missed
variable {m k : Nat} {z : α}

/-- The pages from here never show the row: they are before it, or the cursor is behind it. -/
def Apart (key : α → Option κ) (all : List α) (n m k : Nat) (z : α) (s : Option κ) : Prop :=
  (∃ j < k, Stands key all n m j s) ∨ ∃ c, s = some c ∧ c ≠ 0 ∧ admits key c z = false

theorem apart_zero (hk : 0 < k) : Apart key all n m k z (some 0) := .inl ⟨0,hk,stands_zero m⟩

theorem Apart.not_mem_page (nodup : all.Nodup) (behind : z ∈ (all.take m).drop (k*n)) (inside : k*n < m)
    {s : Option κ} (h : Apart key all n m k z s) : z ∉ page key all n s := by
  rcases h with ⟨j,less,stands⟩ | ⟨c,rfl,-,kept_out⟩
  · have fits : (j+1)*n ≤ k*n := Nat.mul_le_mul_right n less
    rw [stands.page_eq (.inl (by omega))]
    intro mem
    have early : z ∈ all.take (k*n) := by
      apply (List.take_subset_take_left all fits)
      rw [Nat.succ_mul,List.take_add]
      exact List.mem_append_right _ mem
    have late : z ∈ all.drop (k*n) := (List.Sublist.drop (List.take_sublist m all) _).mem behind
    exact List.disjoint_take_drop nodup (Nat.le_refl _) early late
  · intro mem
    have admitted := (List.mem_filter.1 (List.mem_of_mem_take mem)).2
    rw [kept_out] at admitted
    cases admitted

theorem Apart.step (sorted : Descending key all) (hn : 0 < n) (hk : 0 < k) (inside : k*n < m)
    (more : k*n < all.length) (clear : ∀ j, 0 < j → j < k → Clear key all n m j)
    (bad : ∀ y, (all.take (k*n)).getLast? = some y → cursorOf key y ≠ 0 → admits key (cursorOf key y) z = false)
    {s : Option κ} (h : Apart key all n m k z s) {d : κ} (step : next key all n s = some d) :
    Apart key all n m k z (some d) := by
  rcases h with ⟨j,less,stands⟩ | ⟨c,rfl,nonzero,kept_out⟩
  · have fits : (j+1)*n ≤ k*n := Nat.mul_le_mul_right n less
    rcases Nat.lt_or_ge (j+1) k with before | last
    · obtain ⟨e,step',stands'⟩ := stands.step sorted hn (by omega) (by omega) (clear (j+1) (by omega) before)
      rw [step] at step'
      cases step'
      exact .inl ⟨j+1,before,stands'⟩
    · obtain rfl : k = j+1 := by omega
      rw [stands.next_eq hn more inside] at step
      obtain ⟨y,found,rfl⟩ := Option.map_eq_some_iff.1 step
      by_cases zero : cursorOf key y = 0
      · rw [zero]
        exact apart_zero hk
      · exact .inr ⟨_,rfl,zero,bad y found zero⟩
  · rw [next] at step
    split_ifs at step
    obtain ⟨y,found,rfl⟩ := Option.map_eq_some_iff.1 step
    have admitted := (List.mem_filter.1 (List.mem_of_mem_take (List.mem_of_getLast? found))).2
    obtain ⟨t,isKey,less⟩ := (admits_iff nonzero y).1 admitted
    by_cases zero : cursorOf key y = 0
    · rw [zero]
      exact apart_zero hk
    · refine .inr ⟨_,rfl,zero,Bool.eq_false_of_not_eq_true fun later => ?_⟩
      obtain ⟨u,own,below⟩ := (admits_iff zero z).1 later
      have same : cursorOf key y = t := by simp [cursorOf,isKey]
      rw [(admits_iff nonzero z).2 ⟨u,own,lt_trans (same ▸ below) less⟩] at kept_out
      cases kept_out

theorem Apart.not_mem_returned (sorted : Descending key all) (nodup : all.Nodup) (hn : 0 < n) (hk : 0 < k)
    (inside : k*n < m) (more : k*n < all.length) (clear : ∀ j, 0 < j → j < k → Clear key all n m j)
    (behind : z ∈ (all.take m).drop (k*n))
    (bad : ∀ y, (all.take (k*n)).getLast? = some y → cursorOf key y ≠ 0 → admits key (cursorOf key y) z = false)
    (fuel : Nat) {s : Option κ} (h : Apart key all n m k z s) : z ∉ returned key all n fuel s := by
  induction fuel generalizing s with
  | zero => simp [returned]
  | succ fuel ih =>
    rw [returned,List.mem_append,not_or]
    refine ⟨h.not_mem_page nodup behind inside,?_⟩
    cases step : next key all n s with
    | none => simp
    | some d => exact ih (h.step sorted hn hk inside more clear bad step)

theorem exists_missed (sorted : Descending key all) (nodup : all.Nodup) (hn : 0 < n) (hk : 0 < k)
    (inside : k*n < m) (more : k*n < all.length) (clear : ∀ j, 0 < j → j < k → Clear key all n m j)
    (not_clear : ¬ Clear key all n m k) :
    ∃ z ∈ all.take m, ∀ fuel, z ∉ returned key all n fuel none := by
  have length : ((all.take m).drop (k*n)).length ≠ 0 := by
    rw [List.length_drop,List.length_take]
    omega
  obtain ⟨x,mem⟩ := List.exists_mem_of_length_pos (Nat.pos_of_ne_zero length)
  have chosen : ∃ z ∈ (all.take m).drop (k*n), ∀ y, (all.take (k*n)).getLast? = some y → cursorOf key y ≠ 0 →
      admits key (cursorOf key y) z = false := by
    by_contra none
    refine not_clear ?_
    push Not at none
    obtain ⟨y,found,nonzero,-⟩ := none x mem
    have isKey : key y = some (cursorOf key y) := by
      cases own : key y with
      | none => simp [cursorOf,own] at nonzero
      | some c => simp [cursorOf,own]
    refine ⟨cursorOf key y,by rw [found]; exact isKey,nonzero,fun z behind => ?_⟩
    obtain ⟨y',found',-,admitted⟩ := none z behind
    rw [found] at found'
    cases found'
    exact (admits_iff nonzero z).1 (Bool.eq_true_of_not_eq_false admitted)
  obtain ⟨z,behind,bad⟩ := chosen
  exact ⟨z,List.mem_of_mem_drop behind,fun fuel =>
    Apart.not_mem_returned sorted nodup hn hk inside more clear behind bad fuel (.inl ⟨0,hk,stands_start m⟩)⟩

end Missed

theorem clear_of_shown (sorted : Descending key all) (nodup : all.Nodup) (hn : 0 < n) {m : Nat}
    (shown : ∀ z ∈ all.take m, ∃ fuel, z ∈ returned key all n fuel none) {k : Nat} (hk : 0 < k)
    (inside : k*n < m) (more : k*n < all.length) : Clear key all n m k := by
  induction k using Nat.strongRecOn with
  | ind k ih =>
    by_contra not_clear
    obtain ⟨z,mem,missed⟩ := exists_missed sorted nodup hn hk inside more (fun j hj less => by
      have before : j*n ≤ k*n := Nat.mul_le_mul_right n (Nat.le_of_lt less)
      exact ih j less hj (by omega) (by omega)) not_clear
    obtain ⟨fuel,found⟩ := shown z mem
    exact missed fuel found

/-- The pages are the whole list exactly when every cursor is clear. -/
theorem follow_iff (sorted : Descending key all) (nodup : all.Nodup) (hn : 0 < n) :
    (∃ fuel, follow key all n fuel none = some all) ↔
      ∀ k, 0 < k → k*n < all.length → Clear key all n all.length k := by
  constructor
  · rintro ⟨fuel,whole⟩ k hk more
    refine clear_of_shown sorted nodup hn (fun z mem => ⟨fuel,?_⟩) hk more more
    rw [returned_of_follow whole]
    exact List.mem_of_mem_take mem
  · intro clear
    refine ⟨all.length+1,?_⟩
    have enough : all.length < (0+(all.length+1))*n := by
      have := Nat.mul_le_mul_left (all.length+1) hn
      rw [Nat.zero_add]
      omega
    have whole := follow_of_stands sorted hn clear (stands_start all.length) (by omega) enough
    rwa [Nat.zero_mul,List.drop_zero] at whole

theorem Stands.shown (sorted : Descending key all) (hn : 0 < n) {p : Nat}
    (clear : ∀ k, 0 < k → k < p → k*n < all.length → Clear key all n (p*n) k) {fuel k : Nat} (span : k+fuel = p)
    {c : Option κ} (h : Stands key all n (p*n) k c) {x : α} (mem : x ∈ (all.take (p*n)).drop (k*n)) :
    x ∈ returned key all n fuel c := by
  induction fuel generalizing k c with
  | zero =>
    have := List.length_pos_of_mem mem
    rw [List.length_drop,List.length_take,← span,Nat.add_zero] at this
    omega
  | succ fuel ih =>
    have fits : (k+1)*n ≤ p*n := Nat.mul_le_mul_right n (by omega)
    rw [returned,List.mem_append,h.page_eq (.inl fits)]
    rw [← List.take_append_drop n ((all.take (p*n)).drop (k*n)),List.mem_append] at mem
    rcases mem with here | later
    · rw [List.drop_take,List.take_take,Nat.min_eq_left (by rw [Nat.succ_mul] at fits; omega)] at here
      exact .inl here
    · have along : k*n+n = (k+1)*n := (Nat.succ_mul k n).symm
      rw [List.drop_drop,along] at later
      have more := List.length_pos_of_mem later
      rw [List.length_drop,List.length_take] at more
      have before : k+1 < p := by
        by_contra end_
        obtain rfl : p = k+1 := by omega
        omega
      obtain ⟨d,step,stands⟩ := h.step sorted hn (by omega) (by omega) (clear (k+1) (by omega) before (by omega))
      rw [step]
      exact .inr (ih (by omega) stands later)

/-- The first pages show the rows that belong on them exactly when their cursors are clear so far. -/
theorem returned_iff (sorted : Descending key all) (nodup : all.Nodup) (hn : 0 < n) (p : Nat) :
    (∀ x ∈ all.take (p*n), x ∈ returned key all n p none) ↔
      ∀ k, 0 < k → k < p → k*n < all.length → Clear key all n (p*n) k := by
  constructor
  · intro shown k hk less more
    exact clear_of_shown sorted nodup hn (fun z mem => ⟨p,shown z mem⟩) hk (Nat.mul_lt_mul_of_pos_right less hn) more
  · intro clear x mem
    exact (stands_start (p*n)).shown sorted hn clear (Nat.zero_add p) (by rwa [Nat.zero_mul,List.drop_zero])

/-- A cursor is clear when the next key is smaller and no row up to there is without one. -/
theorem clear_iff (sorted : Descending key all) {m k : Nat} (inside : k*n < m) (more : k*n < all.length) :
    Clear key all n m k ↔ ∃ c t, (all.take (k*n)).getLast?.bind key = some c ∧ c ≠ 0 ∧
      (all[k*n]?).bind key = some t ∧ t < c ∧ ∀ z ∈ all.take m, (key z).isSome = true := by
  have first : (all.take m).drop (k*n) = all[k*n] :: ((all.take m).drop (k*n+1)) := by
    rw [List.drop_eq_getElem_cons (by rw [List.length_take]; omega),List.getElem_take]
  constructor
  · rintro ⟨c,last,nonzero,below⟩
    obtain ⟨t,own,less⟩ := below all[k*n] (by rw [first]; simp)
    refine ⟨c,t,last,nonzero,by rw [List.getElem?_eq_getElem more]; exact own,less,fun z mem => ?_⟩
    rw [← List.take_append_drop (k*n) (all.take m),List.mem_append] at mem
    rcases mem with before | behind
    · rw [List.take_take,Nat.min_eq_left (Nat.le_of_lt inside)] at before
      obtain ⟨y,found,isKey⟩ := Option.bind_eq_some_iff.1 last
      obtain ⟨front,split⟩ := List.getLast?_eq_some_iff.1 found
      have falls := sorted.sublist (List.take_sublist (k*n) all)
      rw [split] at falls before
      rcases List.mem_append.1 before with earlier | at_
      · obtain ⟨s,has,-⟩ := (List.pairwise_append.1 falls).2.2 z earlier y (by simp) c isKey
        rw [has]
        rfl
      · obtain rfl : z = y := by simpa using at_
        rw [isKey]
        rfl
    · obtain ⟨u,has,-⟩ := below z behind
      rw [has]
      rfl
  · rintro ⟨c,t,last,nonzero,next_,less,keyed⟩
    refine ⟨c,last,nonzero,fun z behind => ?_⟩
    obtain ⟨u,own⟩ := Option.isSome_iff_exists.1 (keyed z (List.mem_of_mem_drop behind))
    refine ⟨u,own,?_⟩
    rw [List.getElem?_eq_getElem more,Option.bind_some] at next_
    rw [first] at behind
    rcases List.mem_cons.1 behind with rfl | later
    · rw [own] at next_
      cases next_
      exact less
    · have falls := (sorted.sublist (List.take_sublist m all)).sublist (List.drop_sublist (k*n) _)
      rw [first] at falls
      obtain ⟨s,has,le⟩ := (List.pairwise_cons.1 falls).1 z later u own
      rw [next_] at has
      cases has
      exact lt_of_le_of_lt le less

end CodeHarbor.Lib.Paging
