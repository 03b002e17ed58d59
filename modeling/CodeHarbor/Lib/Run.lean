import Mathlib
set_option autoImplicit false

namespace CodeHarbor.Lib

variable {σ ι ε : Type}

theorem split_append {xs ys pre post : List ε} {e : ε} (h : xs ++ ys = pre ++ e :: post) :
    (∃ mid, xs = pre ++ e :: mid ∧ post = mid ++ ys) ∨
    (∃ mid, pre = xs ++ mid ∧ ys = mid ++ e :: post) := by
  induction xs generalizing pre with
  | nil => exact .inr ⟨pre,rfl,h⟩
  | cons x xs ih =>
    cases pre with
    | nil =>
      simp only [List.cons_append,List.nil_append,List.cons.injEq] at h
      exact .inl ⟨xs,by simp [h.1],h.2.symm⟩
    | cons p pre =>
      simp only [List.cons_append,List.cons.injEq] at h
      rcases ih h.2 with ⟨mid,hx,hp⟩ | ⟨mid,hp,hy⟩
      · exact .inl ⟨mid,by simp [h.1,hx],hp⟩
      · exact .inr ⟨mid,by simp [h.1,hp],hy⟩

/-- Every event of the trace stands in the given relation to the events before it. -/
def Traced (P : List ε → ε → Prop) (tr : List ε) : Prop :=
  ∀ pre e post, tr = pre ++ e :: post → P pre e

theorem Traced.nil (P : List ε → ε → Prop) : Traced P [] := by
  intro pre e post h
  simp at h

theorem traced_snoc {P : List ε → ε → Prop} {tr : List ε} {e : ε} :
    Traced P (tr ++ [e]) ↔ Traced P tr ∧ P tr e := by
  constructor
  · intro h
    refine ⟨?_,h tr e [] rfl⟩
    intro pre d post htr
    exact h pre d (post ++ [e]) (by simp [htr])
  · rintro ⟨htr,he⟩ pre d post heq
    rcases split_append heq with ⟨mid,hpre,-⟩ | ⟨mid,hpre,hmid⟩
    · exact htr pre d mid hpre
    · cases mid with
      | nil =>
        cases hmid
        rw [hpre,List.append_nil]
        exact he
      | cons m mid => simp at hmid

theorem Traced.append {P : List ε → ε → Prop} {tr out : List ε} (h : Traced P tr)
    (hout : ∀ e ∈ out, ∀ pre, P pre e) : Traced P (tr ++ out) := by
  induction out generalizing tr with
  | nil => simpa using h
  | cons e out ih =>
    have hsnoc : Traced P (tr ++ [e]) := traced_snoc.mpr ⟨h,hout e List.mem_cons_self tr⟩
    have hall := ih hsnoc (fun d hd => hout d (List.mem_cons_of_mem e hd))
    simpa using hall

/-- The event has happened and nothing after it ends what it began. -/
def Since (e : ε) (ends : ε → Bool) (tr : List ε) : Prop :=
  ∃ pre post, tr = pre ++ e :: post ∧ ∀ d ∈ post, ends d = false

theorem Since.nil {e : ε} {ends : ε → Bool} : ¬ Since e ends [] := by
  rintro ⟨pre,post,h,-⟩
  simp at h

theorem since_snoc {e d : ε} {ends : ε → Bool} {tr : List ε} :
    Since e ends (tr ++ [d]) ↔ d = e ∨ Since e ends tr ∧ ends d = false := by
  constructor
  · rintro ⟨pre,post,heq,hpost⟩
    rcases split_append heq with ⟨mid,htr,hmid⟩ | ⟨mid,-,hmid⟩
    · refine .inr ⟨⟨pre,mid,htr,?_⟩,hpost d (by simp [hmid])⟩
      intro x hx
      exact hpost x (by simp [hmid,hx])
    · cases mid with
      | nil =>
        cases hmid
        exact .inl rfl
      | cons m mid => simp at hmid
  · rintro (rfl | ⟨⟨pre,post,rfl,hpost⟩,hd⟩)
    · exact ⟨tr,[],rfl,by simp⟩
    · refine ⟨pre,post ++ [d],by simp,?_⟩
      intro x hx
      rcases List.mem_append.mp hx with hx | hx
      · exact hpost x hx
      · rwa [List.mem_singleton.mp hx]

/-- A machine reads one input at a time and appends the events of that step to a trace.
An interleaving of concurrent parties is a list of inputs, one per atomic segment. -/
structure Machine (σ ι ε : Type) where
  init : σ → Prop
  step : σ → ι → σ × List ε

/-- Runs whose every step meets the guard. The guard reads only what precedes the step:
the trace so far, the state and the input. -/
inductive Machine.Run (m : Machine σ ι ε) (ok : List ε → σ → ι → Prop) : List ε → σ → Prop where
  | start {s : σ} : m.init s → Run m ok [] s
  | next {tr : List ε} {s : σ} (i : ι) :
      Run m ok tr s → ok tr s i → Run m ok (tr ++ (m.step s i).2) (m.step s i).1

def Machine.free (_ : Machine σ ι ε) : List ε → σ → ι → Prop := fun _ _ _ => True

/-- The invariant rule: what holds initially and is kept by every guarded step holds
after every guarded run. -/
theorem Machine.Run.invariant {m : Machine σ ι ε} {ok : List ε → σ → ι → Prop}
    {P : List ε → σ → Prop} (hinit : ∀ s, m.init s → P [] s)
    (hstep : ∀ tr s i, P tr s → ok tr s i → P (tr ++ (m.step s i).2) (m.step s i).1)
    {tr : List ε} {s : σ} (hr : m.Run ok tr s) : P tr s := by
  induction hr with
  | start hs => exact hinit _ hs
  | next i _ hi ih => exact hstep _ _ i ih hi

/-- A run under one guard is a run under every guard that allows more. -/
theorem Machine.Run.mono {m : Machine σ ι ε} {ok ok' : List ε → σ → ι → Prop} {tr : List ε} {s : σ}
    (hr : m.Run ok tr s) (h : ∀ tr s i, ok tr s i → ok' tr s i) : m.Run ok' tr s := by
  induction hr with
  | start hs => exact .start hs
  | next i _ hi ih => exact .next i ih (h _ _ i hi)

def Machine.exec (m : Machine σ ι ε) : List ε → σ → List ι → List ε × σ
  | tr, s, [] => (tr, s)
  | tr, s, i :: is => m.exec (tr ++ (m.step s i).2) (m.step s i).1 is

theorem Machine.exec_append (m : Machine σ ι ε) (is js : List ι) (tr : List ε) (s : σ) :
    m.exec tr s (is ++ js) = m.exec (m.exec tr s is).1 (m.exec tr s is).2 js := by
  induction is generalizing tr s with
  | nil => rfl
  | cons i is ih => exact ih _ _

/-- Every step of the given schedule meets the guard. -/
def Machine.Allowed (m : Machine σ ι ε) (ok : List ε → σ → ι → Prop) :
    List ε → σ → List ι → Prop
  | _, _, [] => True
  | tr, s, i :: is => ok tr s i ∧ m.Allowed ok (tr ++ (m.step s i).2) (m.step s i).1 is

instance Machine.decidableAllowed (m : Machine σ ι ε) (ok : List ε → σ → ι → Prop)
    [∀ tr s i, Decidable (ok tr s i)] :
    (tr : List ε) → (s : σ) → (is : List ι) → Decidable (m.Allowed ok tr s is)
  | _, _, [] => isTrue trivial
  | tr, s, i :: is =>
    have := m.decidableAllowed ok (tr ++ (m.step s i).2) (m.step s i).1 is
    inferInstanceAs (Decidable (_ ∧ _))

theorem Machine.Run.exec {m : Machine σ ι ε} {ok : List ε → σ → ι → Prop} (is : List ι)
    {tr : List ε} {s : σ} (hr : m.Run ok tr s) (ha : m.Allowed ok tr s is) :
    m.Run ok (m.exec tr s is).1 (m.exec tr s is).2 := by
  induction is generalizing tr s with
  | nil => exact hr
  | cons i is ih => exact ih (.next i hr ha.1) ha.2

theorem Machine.allowed_free (m : Machine σ ι ε) (is : List ι) (tr : List ε) (s : σ) :
    m.Allowed m.free tr s is := by
  induction is generalizing tr s with
  | nil => trivial
  | cons i is ih => exact ⟨trivial,ih _ _⟩

/-- Where one guard keeps an invariant that gives another guard, it allows no more. -/
theorem Machine.Allowed.of_invariant {m : Machine σ ι ε} {ok ok' : List ε → σ → ι → Prop}
    {I : List ε → σ → Prop}
    (hinv : ∀ tr s i, I tr s → ok tr s i → I (tr ++ (m.step s i).2) (m.step s i).1)
    (hok : ∀ tr s i, I tr s → ok tr s i → ok' tr s i) {is : List ι} {tr : List ε} {s : σ}
    (ha : m.Allowed ok tr s is) (h : I tr s) : m.Allowed ok' tr s is := by
  induction is generalizing tr s with
  | nil => trivial
  | cons i is ih => exact ⟨hok tr s i h ha.1,ih ha.2 (hinv tr s i h ha.1)⟩

/-- Exactness rule: when every step keeps a trace property precisely under the guard, a
whole schedule keeps it precisely when all its steps meet the guard. -/
theorem Machine.exec_iff_allowed {m : Machine σ ι ε} {ok : List ε → σ → ι → Prop}
    {I : List ε → σ → Prop} {P : List ε → Prop}
    (hinv : ∀ tr s i, I tr s → I (tr ++ (m.step s i).2) (m.step s i).1)
    (hstep : ∀ tr s i, I tr s → (P (tr ++ (m.step s i).2) ↔ P tr ∧ ok tr s i))
    (is : List ι) {tr : List ε} {s : σ} (h : I tr s) :
    P (m.exec tr s is).1 ↔ P tr ∧ m.Allowed ok tr s is := by
  induction is generalizing tr s with
  | nil => simp [exec,Allowed]
  | cons i is ih =>
    rw [exec,Allowed,ih (hinv tr s i h),hstep tr s i h,and_assoc]

/-- Exactness rule for a state property: as long as the property holds, the next step keeps it
precisely under the guard, and with it the invariant that says so. -/
theorem Machine.always_iff_allowed {m : Machine σ ι ε} {ok : List ε → σ → ι → Prop}
    {I P : σ → Prop}
    (hstep : ∀ tr s i, I s → P s → (P (m.step s i).1 ↔ ok tr s i))
    (hinv : ∀ s i, I s → P s → P (m.step s i).1 → I (m.step s i).1)
    (is : List ι) {tr : List ε} {s : σ} (hI : I s) (hP : P s) :
    (∀ pre post, is = pre ++ post → P (m.exec tr s pre).2) ↔ m.Allowed ok tr s is := by
  induction is generalizing tr s with
  | nil =>
    constructor
    · exact fun _ => trivial
    · intro _ pre post h
      rw [(List.append_eq_nil_iff.mp h.symm).1]
      exact hP
  | cons i is ih =>
    constructor
    · intro h
      have hnext : P (m.step s i).1 := h [i] is rfl
      refine ⟨(hstep tr s i hI hP).mp hnext,(ih (hinv s i hI hP hnext) hnext).mp ?_⟩
      intro pre post hsplit
      exact h (i :: pre) post (by rw [hsplit,List.cons_append])
    · rintro ⟨hok,hrest⟩ pre post hsplit
      have hnext : P (m.step s i).1 := (hstep tr s i hI hP).mpr hok
      cases pre with
      | nil => exact hP
      | cons j pre =>
        obtain ⟨rfl,htail⟩ := List.cons.inj hsplit
        exact (ih (hinv s i hI hP hnext) hnext).mpr hrest pre post htail

/-- The invariant rule for a fold that may stop: what holds at the start and is kept by
every element, given what was folded in before it, holds at the end. -/
theorem foldlM_invariant {f : σ → ι → Option σ} {P : List ι → σ → Prop} {s s' : σ} {is : List ι}
    (hinit : P [] s)
    (hstep : ∀ pre i post t t', is = pre ++ i :: post → P pre t → f t i = some t' → P (pre ++ [i]) t')
    (h : is.foldlM f s = some s') : P is s' := by
  suffices hrest : ∀ rest pre t, is = pre ++ rest → P pre t → rest.foldlM f t = some s' → P is s' from
    hrest is [] s rfl hinit h
  intro rest
  induction rest with
  | nil =>
    intro pre t his hpre ht
    cases ht
    rw [his,List.append_nil]
    exact hpre
  | cons i rest ih =>
    intro pre t his hpre ht
    rw [List.foldlM_cons] at ht
    obtain ⟨t',hone,ht⟩ := Option.bind_eq_some_iff.mp ht
    have hmove : is = (pre ++ [i]) ++ rest := by simp [his]
    exact ih (pre ++ [i]) t' hmove (hstep pre i rest t t' his hpre hone) ht

end CodeHarbor.Lib
