import Mathlib
set_option autoImplicit false

namespace CodeHarbor.Lib

theorem countP_eraseIdx {α : Type} (p : α → Bool) {xs : List α} {i : Nat} {x : α} (h : xs[i]? = some x) :
    (xs.eraseIdx i).countP p + (p x).toNat = xs.countP p := by
  obtain ⟨hi,rfl⟩ := List.getElem?_eq_some_iff.mp h
  rw [← (List.getElem_cons_eraseIdx_perm hi).countP_eq p,List.countP_cons]
  cases p xs[i] <;> rfl

variable {α : Type}

theorem split_of_getElem? {xs : List α} {i : Nat} {x : α} (h : xs[i]? = some x) :
    ∃ pre post, xs = pre ++ x :: post ∧ pre.length = i := by
  obtain ⟨hi,hx⟩ := List.getElem?_eq_some_iff.mp h
  refine ⟨xs.take i,xs.drop (i+1),?_,?_⟩
  · rw [← hx,List.getElem_cons_drop,List.take_append_drop]
  · rw [List.length_take]
    omega

/-- Of a family of queues one holds `q`, and the others hold nothing. -/
def Sole (queues : Nat → List α) (q : List α) : Prop :=
  ∃ k, queues k = q ∧ ∀ i, i ≠ k → queues i = []

variable {queues : Nat → List α} {q : List α} {k : Nat}

theorem sole_nil (h : ∀ i, queues i = []) : Sole queues [] := ⟨0,h 0,fun i _ => h i⟩

theorem Sole.eq_nil (h : Sole queues q) (hempty : ∀ i, queues i = []) : q = [] := by
  obtain ⟨k,rfl,-⟩ := h
  exact hempty k

theorem Sole.eq_of_others (h : Sole queues q) (hothers : ∀ i, i ≠ k → queues i = []) : queues k = q := by
  obtain ⟨j,rfl,hj⟩ := h
  by_cases hk : k = j
  · rw [hk]
  · rw [hj k hk,hothers j (Ne.symm hk)]

theorem Sole.push (h : Sole queues q) (hothers : ∀ i, i ≠ k → queues i = []) (x : α) :
    Sole (Function.update queues k (queues k ++ [x])) (q ++ [x]) := by
  refine ⟨k,?_,?_⟩
  · rw [Function.update_self,h.eq_of_others hothers]
  · intro i hi
    rw [Function.update_of_ne hi]
    exact hothers i hi

theorem Sole.pop (h : Sole queues q) {x : α} {rest : List α} (hk : queues k = x :: rest) :
    q = x :: rest ∧ Sole (Function.update queues k rest) rest := by
  obtain ⟨j,rfl,hj⟩ := h
  have hsame : k = j := by
    by_contra hne
    rw [hj k hne] at hk
    cases hk
  subst hsame
  refine ⟨hk,k,Function.update_self _ _ _,?_⟩
  intro i hi
  rw [Function.update_of_ne hi]
  exact hj i hi

end CodeHarbor.Lib
