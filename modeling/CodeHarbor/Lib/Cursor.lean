import Mathlib
set_option autoImplicit false

namespace CodeHarbor.Lib

/-! Reading a log by a cursor: a reader asks for what lies beyond its cursor, takes some of it
and moves the cursor to the last thing it took. -/

section cursor

variable {α κ : Type} [LinearOrder κ] (key : α → κ)

/-- A log in the order of its keys. -/
def Increasing (log : List α) : Prop := log.Pairwise (fun a b => key a < key b)

def beyond (c : κ) (log : List α) : List α := log.filter (fun a => decide (c < key a))

def between (c d : κ) (log : List α) : List α :=
  log.filter (fun a => decide (c < key a) && decide (key a ≤ d))

/-- The cursor of a reader that has read this far. -/
def advance (c : κ) (read : List α) : κ := (read.getLast?.map key).getD c

variable {key} {c d : κ} {log read rest : List α}

omit [LinearOrder κ] in
@[simp] theorem advance_append_singleton (x : α) : advance key c (read ++ [x]) = key x := by
  simp [advance]

theorem mem_beyond {x : α} : x ∈ beyond key c log ↔ x ∈ log ∧ c < key x := by simp [beyond]

theorem Increasing.beyond (h : Increasing key log) (c : κ) : Increasing key (beyond key c log) :=
  List.Pairwise.sublist List.filter_sublist h

theorem Increasing.eq_of_key_eq (h : Increasing key log) {x y : α} (hx : x ∈ log) (hy : y ∈ log)
    (hxy : key x = key y) : x = y := by
  induction log with
  | nil => cases hx
  | cons z log ih =>
    obtain ⟨hz,hlog⟩ := List.pairwise_cons.mp h
    rcases List.mem_cons.mp hx with hxz | hxlog
    · rcases List.mem_cons.mp hy with hyz | hylog
      · rw [hxz,hyz]
      · exact absurd hxy (hxz ▸ (hz y hylog).ne)
    · rcases List.mem_cons.mp hy with hyz | hylog
      · exact absurd hxy.symm (hyz ▸ (hz x hxlog).ne)
      · exact ih hlog hxlog hylog

/-- There is one way to put a log in order. -/
theorem Increasing.eq_of_perm (h : Increasing key log) (hperm : read.Perm log)
    (hread : read.Pairwise (fun a b => key a ≤ key b)) : read = log := by
  refine hperm.eq_of_pairwise ?_ hread (h.imp le_of_lt)
  intro x y hx hy hxy hyx
  exact h.eq_of_key_eq (hperm.mem_iff.mp hx) hy (le_antisymm hxy hyx)

theorem beyond_beyond (h : c ≤ d) : beyond key d (beyond key c log) = beyond key d log := by
  unfold Lib.beyond
  rw [List.filter_filter]
  refine List.filter_congr fun x _ => ?_
  by_cases hx : d < key x
  · simp [hx,lt_of_le_of_lt h hx]
  · simp [hx]

theorem between_eq_filter_beyond :
    between key c d log = (beyond key c log).filter (fun a => decide (key a ≤ d)) := by
  unfold Lib.between Lib.beyond
  rw [List.filter_filter]
  exact List.filter_congr fun x _ => Bool.and_comm _ _

theorem le_advance (hread : beyond key c log = read ++ rest) : c ≤ advance key c read := by
  cases hlast : read.getLast? with
  | none => simp [advance,hlast]
  | some x =>
    have hx : x ∈ beyond key c log := by
      rw [hread]
      exact List.mem_append_left _ (List.mem_of_getLast? hlast)
    simpa [advance,hlast] using (mem_beyond.mp hx).2.le

theorem le_advance_lt (h : Increasing key log) (hread : beyond key c log = read ++ rest) :
    (∀ x ∈ read, key x ≤ advance key c read) ∧ ∀ x ∈ rest, advance key c read < key x := by
  have hincreasing := h.beyond c
  rw [hread] at hincreasing
  cases hlast : read.getLast? with
  | none =>
    obtain rfl := List.getLast?_eq_none_iff.mp hlast
    refine ⟨by simp,fun x hx => ?_⟩
    have hx : x ∈ beyond key c log := by simpa [hread] using hx
    exact (mem_beyond.mp hx).2
  | some y =>
    obtain ⟨init,rfl⟩ := List.getLast?_eq_some_iff.mp hlast
    rw [advance_append_singleton]
    obtain ⟨hfirst,-,hacross⟩ := List.pairwise_append.mp hincreasing
    constructor
    · intro x hx
      rcases List.mem_append.mp hx with hinit | hy
      · exact ((List.pairwise_append.mp hfirst).2.2 x hinit y (List.mem_singleton_self y)).le
      · rw [List.mem_singleton.mp hy]
    · intro x hx
      exact hacross y (List.mem_append_right _ (List.mem_singleton_self y)) x hx

theorem beyond_advance (h : Increasing key log) (hread : beyond key c log = read ++ rest) :
    beyond key (advance key c read) log = rest := by
  obtain ⟨hbefore,hbeyond⟩ := le_advance_lt h hread
  rw [← beyond_beyond (le_advance hread),hread]
  unfold Lib.beyond
  rw [List.filter_append]
  have hnone : read.filter (fun a => decide (advance key c read < key a)) = [] := by
    simpa [List.filter_eq_nil_iff] using hbefore
  have hall : rest.filter (fun a => decide (advance key c read < key a)) = rest := by
    simpa [List.filter_eq_self] using hbeyond
  rw [hnone,hall,List.nil_append]

theorem beyond_of_cons {x : α} (h : Increasing key log) (hread : beyond key c log = x :: rest) :
    beyond key (key x) log = rest := by
  have hsplit : beyond key c log = [x] ++ rest := hread
  exact beyond_advance h hsplit

theorem between_advance (h : Increasing key log) (hread : beyond key c log = read ++ rest) :
    between key c (advance key c read) log = read := by
  obtain ⟨hbefore,hbeyond⟩ := le_advance_lt h hread
  rw [between_eq_filter_beyond,hread,List.filter_append]
  have hall : read.filter (fun a => decide (key a ≤ advance key c read)) = read := by
    simpa [List.filter_eq_self] using hbefore
  have hnone : rest.filter (fun a => decide (key a ≤ advance key c read)) = [] := by
    simpa [List.filter_eq_nil_iff] using hbeyond
  rw [hall,hnone,List.append_nil]

end cursor

section budget

variable {α : Type} (size : α → Nat) (budget : Nat)

/-- The longest first part whose sizes, added to a total, stay within a budget. -/
def fill : Nat → List α → List α
  | _, [] => []
  | total, x :: xs => if budget < total+size x then [] else x :: fill (total+size x) xs

variable {size budget}

theorem fill_first (total : Nat) (xs : List α) : fill size budget total xs <+: xs := by
  induction xs generalizing total with
  | nil => exact List.prefix_rfl
  | cons x xs ih =>
    rw [fill]
    split_ifs
    · exact List.nil_prefix
    · exact List.cons_prefix_cons.mpr ⟨rfl,ih _⟩

theorem fill_ne_nil {x : α} {xs : List α} (h : size x ≤ budget) :
    fill size budget 0 (x :: xs) ≠ [] := by
  rw [fill,if_neg (by omega)]
  exact List.cons_ne_nil _ _

end budget

end CodeHarbor.Lib
