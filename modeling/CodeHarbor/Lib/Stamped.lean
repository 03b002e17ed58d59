import Mathlib
set_option autoImplicit false

namespace CodeHarbor.Lib

/-! Records with times, written one after another to a register that takes none older than its
content. The content may be incomplete, and then it has no time. -/

structure Stamped (ξ τ : Type) where
  stamp : ξ → τ
  blank : ξ → Bool

namespace Stamped

variable {ξ τ : Type} [LinearOrder τ] (k : Stamped ξ τ)

/-- The time of a content that is the given record. -/
def mark (x : ξ) : WithBot τ := if k.blank x then ⊥ else k.stamp x

def tick (c : WithBot τ) (x : ξ) : WithBot τ := if c ≤ k.stamp x then k.mark x else c

def ends (c : WithBot τ) (xs : List ξ) : WithBot τ := xs.foldl k.tick c

def taken : WithBot τ → List ξ → List ξ
  | _, [] => []
  | c, x :: xs => if c ≤ k.stamp x then x :: taken (k.mark x) xs else taken c xs

/-- A record that is not blank, newer than all of `above` and than each blank one behind it. -/
def Stands (xs above : List ξ) : Prop :=
  ∃ a y b, xs = a ++ y :: b ∧ k.blank y = false ∧ (∀ z ∈ above, k.stamp z < k.stamp y) ∧
    ∀ z ∈ b, k.blank z = true → k.stamp z < k.stamp y

variable {k} {c d : WithBot τ} {x : ξ} {xs ys : List ξ}

theorem mark_le (x : ξ) : k.mark x ≤ k.stamp x := by
  unfold mark
  split_ifs
  · exact bot_le
  · exact le_rfl

theorem ends_append : k.ends c (xs ++ ys) = k.ends (k.ends c xs) ys := List.foldl_append

theorem ends_cons_of_le (h : c ≤ k.stamp x) : k.ends c (x :: xs) = k.ends (k.mark x) xs := by
  simp [ends,tick,h]

theorem ends_cons_of_lt (h : k.stamp x < c) : k.ends c (x :: xs) = k.ends c xs := by
  simp [ends,tick,h.not_ge]

theorem taken_cons_of_le (h : c ≤ k.stamp x) : k.taken c (x :: xs) = x :: k.taken (k.mark x) xs :=
  if_pos h

theorem taken_cons_of_lt (h : k.stamp x < c) : k.taken c (x :: xs) = k.taken c xs := if_neg h.not_ge

theorem taken_append : k.taken c (xs ++ ys) = k.taken c xs ++ k.taken (k.ends c xs) ys := by
  induction xs generalizing c with
  | nil => rfl
  | cons x xs ih =>
    rw [List.cons_append]
    rcases le_or_gt c (k.stamp x) with h | h
    · rw [taken_cons_of_le h,taken_cons_of_le h,ends_cons_of_le h,ih,List.cons_append]
    · rw [taken_cons_of_lt h,taken_cons_of_lt h,ends_cons_of_lt h,ih]

theorem ends_of_older (h : ∀ z ∈ xs, k.stamp z < c) : k.ends c xs = c := by
  induction xs with
  | nil => rfl
  | cons x xs ih =>
    rw [ends_cons_of_lt (h x List.mem_cons_self)]
    exact ih (fun z hz => h z (List.mem_cons_of_mem x hz))

theorem taken_eq_nil_iff : k.taken c xs = [] ↔ ∀ z ∈ xs, k.stamp z < c := by
  induction xs with
  | nil => simp [taken]
  | cons x xs ih =>
    rcases le_or_gt c (k.stamp x) with h | h
    · rw [taken_cons_of_le h]
      simp [h]
    · rw [taken_cons_of_lt h,ih]
      simp [h]

theorem taken_sublist (c : WithBot τ) (xs : List ξ) : (k.taken c xs).Sublist xs := by
  induction xs generalizing c with
  | nil => exact List.Sublist.refl _
  | cons x xs ih =>
    rcases le_or_gt c (k.stamp x) with h | h
    · rw [taken_cons_of_le h]
      exact (ih _).cons_cons x
    · rw [taken_cons_of_lt h]
      exact (ih c).cons x

theorem exists_due (h : k.taken c xs ≠ []) : ∃ z ∈ xs, c ≤ k.stamp z := by
  simpa [taken_eq_nil_iff] using h

/-- Two contents agree from the first record on that is not older than the later one. -/
theorem ends_of_due (le : d ≤ c) (due : ∃ z ∈ xs, c ≤ k.stamp z) : k.ends d xs = k.ends c xs := by
  induction xs generalizing d with
  | nil => simp at due
  | cons x xs ih =>
    rcases le_or_gt c (k.stamp x) with h | h
    · rw [ends_cons_of_le h,ends_cons_of_le (le.trans h)]
    · have due' : ∃ z ∈ xs, c ≤ k.stamp z := by simpa [h.not_ge] using due
      rw [ends_cons_of_lt h]
      rcases le_or_gt d (k.stamp x) with hd | hd
      · rw [ends_cons_of_le hd]
        exact ih ((mark_le x).trans h.le) due'
      · rw [ends_cons_of_lt hd]
        exact ih le due'

theorem taken_of_due (le : d ≤ c) (due : ∃ z ∈ xs, c ≤ k.stamp z) :
    ∃ front, k.taken d xs = front ++ k.taken c xs := by
  induction xs generalizing d with
  | nil => simp at due
  | cons x xs ih =>
    rcases le_or_gt c (k.stamp x) with h | h
    · exact ⟨[],by rw [taken_cons_of_le h,taken_cons_of_le (le.trans h)]; rfl⟩
    · have due' : ∃ z ∈ xs, c ≤ k.stamp z := by simpa [h.not_ge] using due
      rw [taken_cons_of_lt h]
      rcases le_or_gt d (k.stamp x) with hd | hd
      · obtain ⟨front,split⟩ := ih ((mark_le x).trans h.le) due'
        exact ⟨x :: front,by rw [taken_cons_of_le hd,split]; rfl⟩
      · rw [taken_cons_of_lt hd]
        exact ih le due'

theorem ends_mono (le : d ≤ c) : k.ends d xs ≤ k.ends c xs := by
  by_cases due : ∃ z ∈ xs, c ≤ k.stamp z
  · rw [ends_of_due le due]
  · have older : ∀ z ∈ xs, k.stamp z < c := by simpa using due
    rw [ends_of_older older]
    clear due
    induction xs generalizing d with
    | nil => exact le
    | cons x xs ih =>
      have older' : ∀ z ∈ xs, k.stamp z < c := fun z hz => older z (List.mem_cons_of_mem x hz)
      rcases le_or_gt d (k.stamp x) with hd | hd
      · rw [ends_cons_of_le hd]
        exact ih ((mark_le x).trans (older x List.mem_cons_self).le) older'
      · rw [ends_cons_of_lt hd]
        exact ih le older'

theorem ends_eq_or (c : WithBot τ) (xs : List ξ) : k.taken c xs = [] ∧ k.ends c xs = c ∨
    ∃ a y b, xs = a ++ y :: b ∧ k.ends c a ≤ k.stamp y ∧ k.ends c xs = k.mark y ∧
      ∀ z ∈ b, k.stamp z < k.mark y := by
  induction xs generalizing c with
  | nil => exact .inl ⟨rfl,rfl⟩
  | cons x xs ih =>
    rcases le_or_gt c (k.stamp x) with h | h
    · rw [ends_cons_of_le h]
      right
      rcases ih (k.mark x) with ⟨none_taken,kept⟩ | ⟨a,y,b,rfl,due,last,older⟩
      · exact ⟨[],x,xs,rfl,h,kept,taken_eq_nil_iff.mp none_taken⟩
      · exact ⟨x :: a,y,b,rfl,by rw [ends_cons_of_le h]; exact due,last,older⟩
    · rw [ends_cons_of_lt h,taken_cons_of_lt h]
      rcases ih c with kept | ⟨a,y,b,rfl,due,last,older⟩
      · exact .inl kept
      · exact .inr ⟨x :: a,y,b,rfl,by rw [ends_cons_of_lt h]; exact due,last,older⟩

theorem le_ends {t : τ} (le : t ≤ c) (blanks : ∀ z ∈ xs, k.blank z = true → k.stamp z < t) :
    t ≤ k.ends c xs := by
  induction xs generalizing c with
  | nil => exact le
  | cons x xs ih =>
    have blanks' : ∀ z ∈ xs, k.blank z = true → k.stamp z < t :=
      fun z hz => blanks z (List.mem_cons_of_mem x hz)
    rcases le_or_gt c (k.stamp x) with h | h
    · rw [ends_cons_of_le h]
      have newer : t ≤ k.stamp x := WithBot.coe_le_coe.mp (le.trans h)
      have titled : ¬ k.blank x = true := fun blank => (blanks x List.mem_cons_self blank).not_ge newer
      refine ih ?_ blanks'
      rw [mark,if_neg titled]
      exact WithBot.coe_le_coe.mpr newer
    · rw [ends_cons_of_lt h]
      exact ih le blanks'

theorem stands_iff {above : List ξ} (hne : above ≠ []) :
    k.Stands xs above ↔ ∀ z ∈ above, k.stamp z < k.ends ⊥ xs := by
  constructor
  · rintro ⟨a,y,b,rfl,titled,newer,blanks⟩ z hz
    have behind : (k.stamp y : WithBot τ) ≤ k.ends (k.ends ⊥ a) (y :: b) := by
      rcases le_or_gt (k.ends ⊥ a) (k.stamp y) with h | h
      · rw [ends_cons_of_le h]
        exact le_ends (by simp [mark,titled]) blanks
      · rw [ends_cons_of_lt h]
        exact le_ends h.le blanks
    rw [ends_append]
    exact (WithBot.coe_lt_coe.mpr (newer z hz)).trans_le behind
  · intro newer
    obtain ⟨first,rest,rfl⟩ := List.exists_cons_of_ne_nil hne
    have some_time : k.ends ⊥ xs ≠ ⊥ := (bot_le.trans_lt (newer first List.mem_cons_self)).ne'
    rcases ends_eq_or (k := k) ⊥ xs with ⟨-,kept⟩ | ⟨a,y,b,rfl,-,last,older⟩
    · exact absurd kept some_time
    · have titled : ¬ k.blank y = true := by
        intro blank
        exact some_time (by rw [last,mark,if_pos blank])
      rw [last] at newer
      rw [mark,if_neg titled] at newer older
      refine ⟨a,y,b,rfl,by simpa using titled,?_,?_⟩
      · exact fun z hz => WithBot.coe_lt_coe.mp (newer z hz)
      · exact fun z hz _ => WithBot.coe_lt_coe.mp (older z hz)

theorem not_stands_singleton : ¬ k.Stands xs [x] ↔ k.ends ⊥ xs ≤ k.stamp x := by
  rw [stands_iff (by simp)]
  simp

theorem exists_ends_bot_le (hne : xs ≠ []) : ∃ z ∈ xs, k.ends ⊥ xs ≤ k.stamp z := by
  rcases ends_eq_or (k := k) ⊥ xs with ⟨-,kept⟩ | ⟨a,y,b,rfl,-,last,-⟩
  · obtain ⟨z,rest,rfl⟩ := List.exists_cons_of_ne_nil hne
    exact ⟨z,List.mem_cons_self,by rw [kept]; exact bot_le⟩
  · exact ⟨y,by simp,by rw [last]; exact mark_le y⟩

theorem Stands.ends_later (hne : ys ≠ []) (h : k.Stands xs ys) :
    k.ends ⊥ ys < k.ends (k.ends ⊥ ys) (xs ++ ys) := by
  have newer := (stands_iff hne).mp h
  obtain ⟨z,hz,hle⟩ := exists_ends_bot_le (k := k) hne
  have later : k.ends ⊥ ys < k.ends ⊥ xs := hle.trans_lt (newer z hz)
  have some_record : xs ≠ [] := by
    rintro rfl
    exact absurd later not_lt_bot
  obtain ⟨y,hy,reached⟩ := exists_ends_bot_le (k := k) some_record
  rw [ends_append,← ends_of_due bot_le ⟨y,hy,later.le.trans reached⟩,ends_of_older newer]
  exact later

theorem taken_behind (hne : ys ≠ []) (h : ¬ k.Stands xs ys)
    (some_taken : k.taken (k.ends ⊥ ys) (xs ++ ys) ≠ []) :
    ∃ front, k.taken ⊥ ys = front ++ k.taken (k.ends (k.ends ⊥ ys) xs) ys ∧
      k.taken (k.ends (k.ends ⊥ ys) xs) ys ≠ [] := by
  rw [stands_iff hne] at h
  push Not at h
  have due : ∃ z ∈ ys, k.ends (k.ends ⊥ ys) xs ≤ k.stamp z := by
    by_cases reached : ∃ y ∈ xs, k.ends ⊥ ys ≤ k.stamp y
    · rw [← ends_of_due bot_le reached]
      exact h
    · push Not at reached
      rw [taken_append,taken_eq_nil_iff.mpr reached,List.nil_append] at some_taken
      exact exists_due some_taken
  obtain ⟨front,split⟩ := taken_of_due bot_le due
  refine ⟨front,split,?_⟩
  obtain ⟨z,hz,hle⟩ := due
  exact fun none_taken => (taken_eq_nil_iff.mp none_taken z hz).not_ge hle

theorem forall_taken_iff {P : ξ → Prop} : (∀ y ∈ k.taken c xs, P y) ↔
    ∀ a y b, xs = a ++ y :: b → k.ends c a ≤ k.stamp y → P y := by
  induction xs generalizing c with
  | nil => simp [taken]
  | cons x xs ih =>
    have split : ∀ {Q : List ξ → ξ → Prop}, (∀ a y b, x :: xs = a ++ y :: b → Q a y) ↔
        Q [] x ∧ ∀ a y b, xs = a ++ y :: b → Q (x :: a) y := by
      intro Q
      constructor
      · intro h
        exact ⟨h [] x xs rfl,fun a y b heq => h (x :: a) y b (by rw [heq]; rfl)⟩
      · rintro ⟨first,later⟩ a y b heq
        cases a with
        | nil =>
          cases heq
          exact first
        | cons z a =>
          cases heq
          exact later a y b rfl
    rw [split]
    rcases le_or_gt c (k.stamp x) with h | h
    · rw [taken_cons_of_le h,List.forall_mem_cons,ih]
      simp only [ends_cons_of_le h]
      exact and_congr_left fun _ => ⟨fun hx _ => hx,fun hx => hx h⟩
    · rw [taken_cons_of_lt h,ih]
      simp only [ends_cons_of_lt h]
      exact ⟨fun hxs => ⟨fun hx => absurd hx h.not_ge,hxs⟩,fun hxs => hxs.2⟩

theorem exists_last_taken {P : ξ → Prop} (h : ∃ y ∈ k.taken c xs, P y) :
    ∃ a m b, xs = a ++ m :: b ∧ k.ends c a ≤ k.stamp m ∧ P m ∧
      ∀ y ∈ k.taken (k.mark m) b, ¬ P y := by
  induction xs generalizing c with
  | nil => simp [taken] at h
  | cons x xs ih =>
    rcases le_or_gt c (k.stamp x) with hx | hx
    · rw [taken_cons_of_le hx] at h
      by_cases later : ∃ y ∈ k.taken (k.mark x) xs, P y
      · obtain ⟨a,m,b,rfl,due,hm,last⟩ := ih later
        exact ⟨x :: a,m,b,rfl,by rw [ends_cons_of_le hx]; exact due,hm,last⟩
      · have here : P x := by
          obtain ⟨y,hy,hP⟩ := h
          rcases List.mem_cons.mp hy with rfl | hy
          · exact hP
          · exact absurd ⟨y,hy,hP⟩ later
        exact ⟨[],x,xs,rfl,hx,here,fun y hy hP => later ⟨y,hy,hP⟩⟩
    · rw [taken_cons_of_lt hx] at h
      obtain ⟨a,m,b,rfl,due,hm,last⟩ := ih h
      exact ⟨x :: a,m,b,rfl,by rw [ends_cons_of_lt hx]; exact due,hm,last⟩

section Given

variable {κ : Type}

def lastGiven (given : ξ → Option κ) (xs : List ξ) : Option κ := (xs.filterMap given).getLast?

/-- A record older than a complete content, with a part of its own. When the records are written
once more they get to it with an earlier time, and none behind it gives another part. -/
def Revives (k : Stamped ξ τ) (given : ξ → Option κ) (c : WithBot τ) (part : κ) (xs : List ξ) : Prop :=
  ∃ front m rest p, xs = front ++ m :: rest ∧ given m = some p ∧ p ≠ part ∧
    (∀ z ∈ front ++ [m], k.stamp z < c) ∧ (∃ z ∈ rest, c ≤ k.stamp z) ∧
    ¬ k.Stands front [m] ∧ ¬ k.Stands xs (front ++ [m]) ∧
    ∀ a y b, rest = a ++ y :: b → given y ≠ none → k.Stands (front ++ m :: a) [y]

variable {given : ξ → Option κ} {part p : κ} {m : ξ} {front rest : List ξ}

theorem lastGiven_append : lastGiven given (xs ++ ys) = (lastGiven given ys).or (lastGiven given xs) := by
  simp [lastGiven]

theorem lastGiven_eq_none : lastGiven given xs = none ↔ ∀ x ∈ xs, given x = none := by
  simp [lastGiven]

theorem lastGiven_cons : lastGiven given (x :: xs) = (lastGiven given xs).or (given x) := by
  rw [← List.singleton_append,lastGiven_append]
  cases h : given x <;> simp [lastGiven,h]

theorem lastGiven_taken (due : k.ends c front ≤ k.stamp m) (hm : given m = some p)
    (last : ∀ y ∈ k.taken (k.mark m) rest, given y = none) :
    lastGiven given (k.taken c (front ++ m :: rest)) = some p := by
  rw [taken_append,taken_cons_of_le due,lastGiven_append,lastGiven_cons,lastGiven_eq_none.mpr last,hm]
  rfl

theorem ends_le_of_due (le : d ≤ c) (due : ∃ z ∈ front ++ [m], c ≤ k.stamp z)
    (h : k.ends d front ≤ k.stamp m) : k.ends c front ≤ k.stamp m := by
  by_cases earlier : ∃ z ∈ front, c ≤ k.stamp z
  · rw [← ends_of_due le earlier]
    exact h
  · have older : ∀ z ∈ front, k.stamp z < c := by simpa using earlier
    rw [ends_of_older older]
    obtain ⟨z,hz,hle⟩ := due
    rcases List.mem_append.mp hz with hz | hz
    · exact absurd hle (older z hz).not_ge
    · rwa [List.mem_singleton.mp hz] at hle

theorem ends_through (due : ∃ z ∈ front ++ [m], c ≤ k.stamp z) (hm : k.ends c front ≤ k.stamp m)
    (a : List ξ) : k.ends ⊥ (front ++ m :: a) = k.ends (k.mark m) a := by
  have due' : ∃ z ∈ front ++ m :: a, c ≤ k.stamp z := by
    obtain ⟨z,hz,hle⟩ := due
    refine ⟨z,?_,hle⟩
    rcases List.mem_append.mp hz with hz | hz
    · exact List.mem_append_left _ hz
    · rw [List.mem_singleton.mp hz]
      exact List.mem_append_right _ List.mem_cons_self
  rw [ends_of_due bot_le due',ends_append,ends_cons_of_le hm]

theorem reaches_of_not_stands (h : ¬ k.Stands xs (front ++ [m])) :
    ∃ z ∈ front ++ [m], k.ends ⊥ xs ≤ k.stamp z := by
  rw [stands_iff (by simp)] at h
  push Not at h
  exact h

theorem revives_of_lastGiven (earlier : k.ends c xs < c)
    (first : lastGiven given (k.taken c xs) = none)
    (second : lastGiven given (k.taken (k.ends c xs) xs) = some p) (hp : p ≠ part) :
    k.Revives given c part xs := by
  have some_taken : k.taken c xs ≠ [] := by
    intro none_taken
    rw [ends_of_older (taken_eq_nil_iff.mp none_taken)] at earlier
    exact lt_irrefl _ earlier
  have gives : ∃ y ∈ k.taken (k.ends c xs) xs, given y ≠ none := by
    by_contra none_gives
    push Not at none_gives
    rw [lastGiven_eq_none.mpr none_gives] at second
    cases second
  obtain ⟨front,m,rest,split,due,hm,last⟩ := exists_last_taken gives
  simp only [ne_eq,not_not] at last
  obtain ⟨q,hq⟩ := Option.ne_none_iff_exists'.mp hm
  rw [split,lastGiven_taken (by rw [← split]; exact due) hq last] at second
  cases second
  have before : ∀ z ∈ front ++ [m], k.stamp z < c := by
    by_contra taken_first
    push Not at taken_first
    have taken_m := ends_le_of_due earlier.le taken_first due
    rw [lastGiven_eq_none,forall_taken_iff] at first
    exact hm (first front m rest split taken_m)
  have empty : k.ends ⊥ xs = k.ends c xs := ends_of_due bot_le (exists_due some_taken)
  have reached : ∃ z ∈ front ++ [m], k.ends c xs ≤ k.stamp z := by
    by_contra older
    push Not at older
    rw [ends_of_older (fun z hz => older z (List.mem_append_left _ hz))] at due
    exact (older m (by simp)).not_ge due
  refine ⟨front,m,rest,p,split,hq,hp,before,?_,?_,?_,?_⟩
  · obtain ⟨z,hz,hle⟩ := exists_due some_taken
    rw [split,← List.singleton_append,← List.append_assoc] at hz
    rcases List.mem_append.mp hz with hz | hz
    · exact absurd hle (before z hz).not_ge
    · exact ⟨z,hz,hle⟩
  · rw [not_stands_singleton]
    exact (ends_mono bot_le).trans due
  · rw [stands_iff (by simp),empty]
    push Not
    exact reached
  · intro a y b hrest hy
    by_contra stands
    rw [not_stands_singleton,ends_through reached due] at stands
    exact hy (forall_taken_iff.mp last a y b hrest stands)

theorem Revives.lastGiven (h : k.Revives given c part xs) : k.ends c xs < c ∧
    lastGiven given (k.taken c xs) = none ∧
    ∃ p, lastGiven given (k.taken (k.ends c xs) xs) = some p ∧ p ≠ part := by
  obtain ⟨front,m,rest,p,split,hm,hp,before,later,open_m,open_xs,closed⟩ := h
  have due : ∃ z ∈ xs, c ≤ k.stamp z := by
    obtain ⟨z,hz,hle⟩ := later
    exact ⟨z,by rw [split]; exact List.mem_append_right _ (List.mem_cons_of_mem m hz),hle⟩
  have empty : k.ends ⊥ xs = k.ends c xs := ends_of_due bot_le due
  have reached := reaches_of_not_stands open_xs
  rw [empty] at reached
  have taken_m := ends_le_of_due bot_le reached (not_stands_singleton.mp open_m)
  have last : ∀ y ∈ k.taken (k.mark m) rest, given y = none := by
    rw [forall_taken_iff]
    intro a y b hrest hle
    by_contra hy
    have stands := closed a y b hrest hy
    rw [← not_not (a := k.Stands _ _),not_stands_singleton,ends_through reached taken_m] at stands
    exact stands hle
  have skipped : k.taken c xs = k.taken c rest := by
    rw [split,← List.singleton_append,← List.append_assoc,taken_append,taken_eq_nil_iff.mpr before,
      ends_of_older before,List.nil_append]
  have marked : k.mark m ≤ c := (mark_le m).trans (before m (by simp)).le
  obtain ⟨extra,suffix⟩ := taken_of_due marked later
  refine ⟨?_,?_,p,?_,hp⟩
  · obtain ⟨z,hz,hle⟩ := reached
    exact hle.trans_lt (before z hz)
  · rw [skipped,lastGiven_eq_none]
    exact fun y hy => last y (by rw [suffix]; exact List.mem_append_right _ hy)
  · rw [split] at taken_m ⊢
    exact lastGiven_taken taken_m hm last

end Given

end Stamped

end CodeHarbor.Lib
