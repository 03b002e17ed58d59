import CodeHarbor.Lib.Stamped
set_option autoImplicit false

namespace CodeHarbor.Lib

/-! A register with a time. A record replaces the content unless it is older, and an
incomplete content in any case, so that the time can also go back. -/

structure LastWriter (σ ξ τ : Type) where
  incomplete : σ → Bool
  time : σ → τ
  stamp : ξ → τ
  put : σ → ξ → σ
  time_put : ∀ s x, time (put s x) = stamp x

namespace LastWriter

variable {σ ξ τ : Type} [LinearOrder τ] (w : LastWriter σ ξ τ)

def takes (s : σ) (x : ξ) : Bool := w.incomplete s || w.time s ≤ w.stamp x

def write (s : σ) (x : ξ) : σ := if w.takes s x then w.put s x else s

variable {w} {s r : σ} {x : ξ} {xs ys : List ξ}

theorem takes_iff : w.takes s x = true ↔ w.incomplete s = true ∨ w.time s ≤ w.stamp x := by
  simp [takes]

theorem write_of_takes (h : w.takes s x = true) : w.write s x = w.put s x := by simp [write,h]

theorem write_of_skips (h : w.takes s x = false) : w.write s x = s := by simp [write,h]

theorem skips_iff : w.takes s x = false ↔ w.incomplete s = false ∧ w.stamp x < w.time s := by
  simp [takes]

section Again

/-- Records that leave the same content wherever they are written. -/
structure Overwrites (w : LastWriter σ ξ τ) (I : σ → Prop) (xs : List ξ) : Prop where
  put_eq : ∀ x ∈ xs, ∀ s s', I s → I s' → w.put s x = w.put s' x
  put_mem : ∀ x ∈ xs, ∀ s, I s → I (w.put s x)

variable {I : σ → Prop}

omit [LinearOrder τ] in
theorem Overwrites.tail (h : w.Overwrites I (x :: xs)) : w.Overwrites I xs :=
  ⟨fun y hy => h.put_eq y (List.mem_cons_of_mem x hy),
    fun y hy => h.put_mem y (List.mem_cons_of_mem x hy)⟩

theorem Overwrites.write_mem (h : w.Overwrites I xs) (hx : x ∈ xs) (hs : I s) : I (w.write s x) := by
  unfold write
  split_ifs
  · exact h.put_mem x hx s hs
  · exact hs

theorem Overwrites.foldl_mem (h : w.Overwrites I xs) (hs : I s) : I (xs.foldl w.write s) := by
  induction xs generalizing s with
  | nil => exact hs
  | cons x xs ih => exact ih h.tail (h.write_mem List.mem_cons_self hs)

/-- A content that is behind a complete one catches up with it at the next record that the
complete one takes. -/
theorem Overwrites.catches_up (h : w.Overwrites I xs) (hs : I s) (hr : I r)
    (hcomplete : w.incomplete s = false) (hbehind : w.time r < w.time s)
    (hchanges : xs.foldl w.write s ≠ s) : xs.foldl w.write r = xs.foldl w.write s := by
  induction xs generalizing r with
  | nil => exact absurd rfl hchanges
  | cons x xs ih =>
    rw [List.foldl_cons,List.foldl_cons]
    rw [List.foldl_cons] at hchanges
    cases hx : w.takes s x with
    | true =>
      have hstamp : w.time s ≤ w.stamp x := by simpa [takes,hcomplete] using hx
      have htakes : w.takes r x = true := takes_iff.mpr (.inr (hbehind.le.trans hstamp))
      rw [write_of_takes hx,write_of_takes htakes]
      rw [h.put_eq x List.mem_cons_self r s hr hs]
    | false =>
      rw [write_of_skips hx] at hchanges ⊢
      refine ih h.tail (h.write_mem List.mem_cons_self hr) ?_ hchanges
      unfold write
      split_ifs
      · rw [w.time_put]
        exact (skips_iff.mp hx).2
      · exact hbehind

/-- What the records leave they leave again when they are written once more. The content
`r` is what `s` is about to become. -/
theorem Overwrites.foldl_from (h : w.Overwrites I xs) (hs : I s) (hr : I r)
    (hresult : xs.foldl w.write s = r) : xs.foldl w.write r = r := by
  induction xs generalizing s with
  | nil => rfl
  | cons x xs ih =>
    rw [List.foldl_cons] at hresult ⊢
    cases hx : w.takes r x with
    | false =>
      rw [write_of_skips hx]
      exact ih h.tail (h.write_mem List.mem_cons_self hs) hresult
    | true =>
      cases hsx : w.takes s x with
      | true =>
        -- both take the record and agree from then on
        have heq : w.write r x = w.write s x := by
          rw [write_of_takes hx,write_of_takes hsx]
          exact h.put_eq x List.mem_cons_self r s hr hs
        rw [heq]
        exact hresult
      | false =>
        -- only `r` takes it, and is behind `s` until `s` changes
        obtain ⟨hcomplete,holder⟩ := skips_iff.mp hsx
        rw [write_of_skips hsx] at hresult
        have hchanges : xs.foldl w.write s ≠ s := by
          rintro hkept
          rw [hresult] at hkept
          rw [hkept,hsx] at hx
          cases hx
        have hbehind : w.time (w.write r x) < w.time s := by
          rw [write_of_takes hx,w.time_put]
          exact holder
        rw [h.tail.catches_up hs (h.write_mem List.mem_cons_self hr) hcomplete hbehind hchanges]
        exact hresult

theorem Overwrites.foldl_again (h : w.Overwrites I xs) (hs : I s) :
    xs.foldl w.write (xs.foldl w.write s) = xs.foldl w.write s :=
  h.foldl_from hs (h.foldl_mem hs) rfl

end Again

section Keeping

open Stamped

/-- The time of a content, none when it is incomplete. -/
def clock (w : LastWriter σ ξ τ) (s : σ) : WithBot τ := if w.incomplete s then ⊥ else w.time s

def stamped (w : LastWriter σ ξ τ) (blank : ξ → Bool) : Stamped ξ τ := ⟨w.stamp,blank⟩

theorem takes_iff_clock : w.takes s x = true ↔ w.clock s ≤ w.stamp x := by
  rw [takes_iff,clock]
  split_ifs with h
  · simp [h]
  · simp [h]

variable {γ κ : Type}

/-- A content with a part that a record gives or keeps. A content whose part is not full is
incomplete; of a full one the record decides it. -/
structure Keeps (w : LastWriter σ ξ τ) (I : σ → Prop) (blank : ξ → Bool) (core : σ → γ) (kept : σ → κ)
    (given : ξ → Option κ) (full : κ → Prop) : Prop where
  ext : ∀ s r, core s = core r → kept s = kept r → s = r
  put_mem : ∀ s x, I s → I (w.put s x)
  core_put : ∀ s r x, I s → I r → core (w.put s x) = core (w.put r x)
  kept_put : ∀ s x, I s → kept (w.put s x) = (given x).getD (kept s)
  full_given : ∀ x p, given x = some p → full p
  vacant : ∀ s, ¬ full (kept s) → w.incomplete s = true
  incomplete_put : ∀ s x, full (kept (w.put s x)) → w.incomplete (w.put s x) = blank x

variable {I : σ → Prop} {blank : ξ → Bool} {core : σ → γ} {kept : σ → κ} {given : ξ → Option κ}
  {full : κ → Prop}

section Parts

omit [LinearOrder τ]

theorem Keeps.foldl_put_mem (hk : w.Keeps I blank core kept given full) (hs : I s) :
    I (xs.foldl w.put s) :=
  List.foldlRecOn xs _ hs (fun s hs x _ => hk.put_mem s x hs)

theorem Keeps.kept_foldl_put (hk : w.Keeps I blank core kept given full) (hs : I s) :
    kept (xs.foldl w.put s) = (lastGiven given xs).getD (kept s) := by
  induction xs generalizing s with
  | nil => rfl
  | cons x xs ih =>
    rw [List.foldl_cons,ih (hk.put_mem s x hs),hk.kept_put s x hs,lastGiven_cons]
    cases lastGiven given xs <;> rfl

theorem Keeps.core_foldl_put (hk : w.Keeps I blank core kept given full) (hs : I s) (hr : I r)
    (hne : xs ≠ []) : core (xs.foldl w.put s) = core (xs.foldl w.put r) := by
  obtain ⟨init,last,rfl⟩ : ∃ init last, xs = init ++ [last] :=
    ⟨_,_,(List.dropLast_append_getLast hne).symm⟩
  simp only [List.foldl_append,List.foldl_cons,List.foldl_nil]
  exact hk.core_put _ _ last (hk.foldl_put_mem hs) (hk.foldl_put_mem hr)

theorem Keeps.foldl_put_again (hk : w.Keeps I blank core kept given full) (hs : I s)
    (hne : xs ≠ []) (ys : List ξ) {zs : List ξ} (hnone : ∀ z ∈ zs, given z = none) :
    (zs ++ xs).foldl w.put ((ys ++ xs).foldl w.put s) = (ys ++ xs).foldl w.put s := by
  have hmid : I (ys.foldl w.put s) := hk.foldl_put_mem hs
  have honce : I ((ys ++ xs).foldl w.put s) := hk.foldl_put_mem hs
  apply hk.ext
  · rw [List.foldl_append]
    conv_rhs => rw [List.foldl_append]
    exact hk.core_foldl_put (hk.foldl_put_mem honce) hmid hne
  · rw [hk.kept_foldl_put honce,hk.kept_foldl_put hs,lastGiven_append,lastGiven_append,
      lastGiven_eq_none.mpr hnone]
    cases lastGiven given xs <;> rfl

theorem Keeps.full_put (hk : w.Keeps I blank core kept given full) (hs : I s)
    (h : given x ≠ none ∨ full (kept s)) : full (kept (w.put s x)) := by
  rw [hk.kept_put s x hs]
  cases hx : given x with
  | none => exact h.resolve_left (fun hne => hne hx)
  | some p => exact hk.full_given x p hx

theorem Keeps.clock_put (hk : w.Keeps I blank core kept given full)
    (h : full (kept (w.put s x))) : w.clock (w.put s x) = (w.stamped blank).mark x := by
  rw [clock,hk.incomplete_put s x h,w.time_put]
  rfl

end Parts

/-- From a full content on, the clock tells which records are written. -/
theorem Keeps.foldl_write (hk : w.Keeps I blank core kept given full) (hs : I s)
    (hfull : full (kept s)) (xs : List ξ) :
    xs.foldl w.write s = ((w.stamped blank).taken (w.clock s) xs).foldl w.put s ∧
      w.clock (xs.foldl w.write s) = (w.stamped blank).ends (w.clock s) xs := by
  induction xs generalizing s with
  | nil => exact ⟨rfl,rfl⟩
  | cons x xs ih =>
    rw [List.foldl_cons]
    rcases le_or_gt (w.clock s) (w.stamp x) with h | h
    · have hput := hk.full_put (x := x) hs (.inr hfull)
      rw [write_of_takes (takes_iff_clock.mpr h),Stamped.taken_cons_of_le h,Stamped.ends_cons_of_le h,
        List.foldl_cons,← hk.clock_put hput]
      exact ih (hk.put_mem s x hs) hput
    · have hskips : w.takes s x = false := by
        rw [← Bool.not_eq_true,takes_iff_clock]
        exact h.not_ge
      rw [write_of_skips hskips,Stamped.taken_cons_of_lt h,Stamped.ends_cons_of_lt h]
      exact ih hs hfull

theorem Keeps.full_foldl_write (hk : w.Keeps I blank core kept given full) (hs : I s)
    (hfull : full (kept s)) (xs : List ξ) : full (kept (xs.foldl w.write s)) := by
  rw [(hk.foldl_write hs hfull xs).1,hk.kept_foldl_put hs]
  cases hlast : lastGiven given ((w.stamped blank).taken (w.clock s) xs) with
  | none => exact hfull
  | some p =>
    obtain ⟨x,-,hx⟩ := List.mem_filterMap.mp (List.mem_of_getLast? hlast)
    exact hk.full_given x p hx

theorem Keeps.again_of_le (hk : w.Keeps I blank core kept given full) (hs : I s)
    (hfull : full (kept s)) (hle : w.clock s ≤ (w.stamped blank).ends (w.clock s) xs) :
    xs.foldl w.write (xs.foldl w.write s) = xs.foldl w.write s := by
  obtain ⟨hfirst,hclock⟩ := hk.foldl_write hs hfull xs
  have honce : I (xs.foldl w.write s) := by rw [hfirst]; exact hk.foldl_put_mem hs
  have hfull' := hk.full_foldl_write hs hfull xs
  obtain ⟨hsecond,-⟩ := hk.foldl_write honce hfull' xs
  rw [hclock] at hsecond
  rw [hsecond]
  cases hnone : (w.stamped blank).taken ((w.stamped blank).ends (w.clock s) xs) xs with
  | nil => rfl
  | cons y taken =>
    have hne : (w.stamped blank).taken ((w.stamped blank).ends (w.clock s) xs) xs ≠ [] := by simp [hnone]
    obtain ⟨front,hsplit⟩ := Stamped.taken_of_due hle (Stamped.exists_due hne)
    rw [hfirst,hsplit,← hnone]
    exact hk.foldl_put_again hs hne _ (List.forall_mem_nil _)

theorem Keeps.again_of_lt (hk : w.Keeps I blank core kept given full) (hs : I s)
    (hfull : full (kept s)) (hlt : (w.stamped blank).ends (w.clock s) xs < w.clock s) :
    xs.foldl w.write (xs.foldl w.write s) = xs.foldl w.write s ↔
      ¬ (lastGiven given ((w.stamped blank).taken (w.clock s) xs) = none ∧
        ∃ p, lastGiven given ((w.stamped blank).taken ((w.stamped blank).ends (w.clock s) xs) xs) = some p ∧
          p ≠ kept s) := by
  obtain ⟨hfirst,hclock⟩ := hk.foldl_write hs hfull xs
  have honce : I (xs.foldl w.write s) := by rw [hfirst]; exact hk.foldl_put_mem hs
  have hfull' := hk.full_foldl_write hs hfull xs
  obtain ⟨hsecond,-⟩ := hk.foldl_write honce hfull' xs
  rw [hclock] at hsecond
  have hne : (w.stamped blank).taken (w.clock s) xs ≠ [] := by
    intro hnil
    rw [Stamped.ends_of_older (Stamped.taken_eq_nil_iff.mp hnil)] at hlt
    exact lt_irrefl _ hlt
  obtain ⟨front,hsplit⟩ := Stamped.taken_of_due hlt.le (Stamped.exists_due hne)
  have hcore : core (xs.foldl w.write (xs.foldl w.write s)) = core (xs.foldl w.write s) := by
    rw [hsecond,hsplit,List.foldl_append]
    conv_rhs => rw [hfirst]
    exact hk.core_foldl_put (hk.foldl_put_mem honce) hs hne
  have hkept : xs.foldl w.write (xs.foldl w.write s) = xs.foldl w.write s ↔
      kept (xs.foldl w.write (xs.foldl w.write s)) = kept (xs.foldl w.write s) :=
    ⟨congrArg kept,hk.ext _ _ hcore⟩
  rw [hkept,hsecond,hk.kept_foldl_put honce,hfirst,hk.kept_foldl_put hs,hsplit,lastGiven_append]
  cases lastGiven given ((w.stamped blank).taken (w.clock s) xs) with
  | some p => simp
  | none =>
    cases lastGiven given front with
    | none => simp
    | some p => simp

/-- When writing the records once more changes a full content. -/
theorem Keeps.again_iff_of_full (hk : w.Keeps I blank core kept given full) (hs : I s)
    (hfull : full (kept s)) : xs.foldl w.write (xs.foldl w.write s) = xs.foldl w.write s ↔
      ¬ (w.stamped blank).Revives given (w.clock s) (kept s) xs := by
  rcases le_or_gt (w.clock s) ((w.stamped blank).ends (w.clock s) xs) with hle | hlt
  · refine ⟨fun _ hrevives => ?_,fun _ => hk.again_of_le hs hfull hle⟩
    exact absurd hle hrevives.lastGiven.1.not_ge
  · rw [hk.again_of_lt hs hfull hlt]
    refine not_congr ⟨?_,fun hrevives => hrevives.lastGiven.2⟩
    rintro ⟨hfirst,p,hsecond,hp⟩
    exact revives_of_lastGiven hlt hfirst hsecond hp

theorem Keeps.foldl_write_vacant (hk : w.Keeps I blank core kept given full) (hs : I s)
    (hvacant : ¬ full (kept s)) (hnone : ∀ x ∈ xs, given x = none) :
    xs.foldl w.write s = xs.foldl w.put s ∧ kept (xs.foldl w.write s) = kept s := by
  induction xs generalizing s with
  | nil => exact ⟨rfl,rfl⟩
  | cons x xs ih =>
    have hkept : kept (w.put s x) = kept s := by
      rw [hk.kept_put s x hs,hnone x List.mem_cons_self]
      rfl
    rw [List.foldl_cons,List.foldl_cons,write_of_takes (takes_iff.mpr (.inl (hk.vacant s hvacant)))]
    have hrest := ih (hk.put_mem s x hs) (by rw [hkept]; exact hvacant)
      (fun y hy => hnone y (List.mem_cons_of_mem x hy))
    exact ⟨hrest.1,by rw [hrest.2,hkept]⟩

theorem Keeps.foldl_write_first (hk : w.Keeps I blank core kept given full) (hs : I s)
    (hvacant : ¬ full (kept s)) (hx : given x ≠ none) (xs : List ξ) :
    (x :: xs).foldl w.write s = ((w.stamped blank).taken ⊥ (x :: xs)).foldl w.put s ∧
      w.clock ((x :: xs).foldl w.write s) = (w.stamped blank).ends ⊥ (x :: xs) ∧
      full (kept ((x :: xs).foldl w.write s)) := by
  have hput := hk.full_put hs (.inl hx)
  have hrest := hk.foldl_write (hk.put_mem s x hs) hput xs
  rw [hk.clock_put hput] at hrest
  have hfull := hk.full_foldl_write (hk.put_mem s x hs) hput xs
  rw [taken_cons_of_le bot_le,ends_cons_of_le bot_le,List.foldl_cons,List.foldl_cons,
    write_of_takes (takes_iff.mpr (.inl (hk.vacant s hvacant)))]
  exact ⟨hrest.1,hrest.2,hfull⟩

theorem Keeps.again_iff_of_first (hk : w.Keeps I blank core kept given full) (hs : I s)
    (hvacant : ¬ full (kept s)) (hx : given x ≠ none) (hnone : ∀ y ∈ ys, given y = none) :
    (ys ++ x :: xs).foldl w.write ((x :: xs).foldl w.write s) = (x :: xs).foldl w.write s ↔
      ¬ (w.stamped blank).Stands ys (x :: xs) := by
  obtain ⟨honce,hclock,hfull⟩ := hk.foldl_write_first hs hvacant hx xs
  have honce_mem : I ((x :: xs).foldl w.write s) := by rw [honce]; exact hk.foldl_put_mem hs
  obtain ⟨htwice,hclock'⟩ := hk.foldl_write honce_mem hfull (ys ++ x :: xs)
  rw [hclock] at htwice hclock'
  constructor
  · intro hsame hstands
    rw [hsame,hclock] at hclock'
    exact (hstands.ends_later (by simp)).ne hclock'
  · intro hopen
    rw [htwice]
    cases htaken : (w.stamped blank).taken ((w.stamped blank).ends ⊥ (x :: xs)) (ys ++ x :: xs) with
    | nil => rfl
    | cons t ts =>
      obtain ⟨front,hsplit,hne⟩ := taken_behind (by simp) hopen (by rw [htaken]; simp)
      rw [← htaken,honce,taken_append,hsplit]
      refine hk.foldl_put_again hs hne front (fun z hz => hnone z ?_)
      exact (taken_sublist _ ys).subset hz

/-- When writing the records once more changes a content that is not full. `ys` are the records
before the first that gives the part. -/
theorem Keeps.again_iff_of_vacant (hk : w.Keeps I blank core kept given full) (hs : I s)
    (hvacant : ¬ full (kept s)) (hx : given x ≠ none) (hnone : ∀ y ∈ ys, given y = none) :
    (ys ++ x :: xs).foldl w.write ((ys ++ x :: xs).foldl w.write s) = (ys ++ x :: xs).foldl w.write s ↔
      ¬ (w.stamped blank).Stands ys (x :: xs) := by
  obtain ⟨hput,hkept⟩ := hk.foldl_write_vacant hs hvacant hnone
  have hmid : I (ys.foldl w.write s) := by rw [hput]; exact hk.foldl_put_mem hs
  have honce : (ys ++ x :: xs).foldl w.write s = (x :: xs).foldl w.write (ys.foldl w.write s) :=
    List.foldl_append
  rw [honce]
  exact hk.again_iff_of_first hmid (by rw [hkept]; exact hvacant) hx hnone

theorem Keeps.again_of_none (hk : w.Keeps I blank core kept given full) (hs : I s)
    (hvacant : ¬ full (kept s)) (hnone : ∀ x ∈ xs, given x = none) :
    xs.foldl w.write (xs.foldl w.write s) = xs.foldl w.write s := by
  obtain ⟨hput,hkept⟩ := hk.foldl_write_vacant hs hvacant hnone
  have honce : I (xs.foldl w.write s) := by rw [hput]; exact hk.foldl_put_mem hs
  rw [(hk.foldl_write_vacant honce (by rw [hkept]; exact hvacant) hnone).1,hput]
  cases xs with
  | nil => rfl
  | cons x xs => exact hk.foldl_put_again hs (by simp) [] (List.forall_mem_nil _)

end Keeping

theorem foldl_eq_write {I : σ → Prop} {f : σ → ξ → σ} (hf : ∀ s x, I s → f s x = w.write s x)
    (hI : ∀ s x, I s → I (w.put s x)) (hs : I s) : xs.foldl f s = xs.foldl w.write s := by
  induction xs generalizing s with
  | nil => rfl
  | cons x xs ih =>
    rw [List.foldl_cons,List.foldl_cons,hf s x hs]
    refine ih ?_
    unfold write
    split_ifs
    · exact hI s x hs
    · exact hs

end LastWriter

end CodeHarbor.Lib
