import CodeHarbor.Lib.JsValue
set_option autoImplicit false

namespace CodeHarbor.Lib.Js

/-! Doubles as the rationals that they are, and how a number is rounded to one. -/

/-- The nearest integer, the even one of two. -/
def roundEven (q : Rat) : Int :=
  if q-⌊q⌋ < 1/2 then ⌊q⌋ else if 1/2 < q-⌊q⌋ then ⌊q⌋+1 else if ⌊q⌋%2 = 0 then ⌊q⌋ else ⌊q⌋+1

def ulp (x : Rat) : Rat := 2^max (-1074) (Int.log 2 |x|-52)

/-- The nearest number of 53 bits, whatever its exponent. -/
def round53 (x : Rat) : Rat := roundEven (x/ulp x)*ulp x

def toDouble (x : Rat) : Value := if |round53 x| < 2^1024 then .num (round53 x) else .infinity (x < 0)

def IsDouble (x : Rat) : Prop := round53 x = x ∧ |x| < 2^1024

/-- `x + 1`, which is finite for every finite `x`. -/
def addOne (x : Rat) : Rat := round53 (x+1)

theorem ulp_pos (x : Rat) : 0 < ulp x := by
  exact zpow_pos (by norm_num) _

theorem floor_le_roundEven (q : Rat) : ⌊q⌋ ≤ roundEven q := by
  unfold roundEven
  split_ifs <;> omega

@[simp] theorem roundEven_intCast (n : Int) : roundEven n = n := by
  simp [roundEven]

theorem le_roundEven {n : Int} {q : Rat} (h : n ≤ q) : n ≤ roundEven q :=
  (Int.le_floor.2 h).trans (floor_le_roundEven q)

theorem le_round53 {n : Int} {x : Rat} (h : n*ulp x ≤ x) : n*ulp x ≤ round53 x := by
  have scaled : (n : Rat) ≤ x/ulp x := (le_div_iff₀ (ulp_pos x)).2 h
  have rounded : (n : Rat) ≤ roundEven (x/ulp x) := by exact_mod_cast le_roundEven scaled
  exact mul_le_mul_of_nonneg_right rounded (ulp_pos x).le

theorem round53_of_multiple {n : Int} {x : Rat} (h : x = n*ulp x) : round53 x = x := by
  have scaled : x/ulp x = n := by
    rw [div_eq_iff (ulp_pos x).ne']
    exact h
  rw [round53,scaled,roundEven_intCast]
  exact h.symm

theorem round53_zero : round53 0 = 0 := round53_of_multiple (n := 0) (by simp)

theorem ulp_of_lt {x : Rat} (h : |x| < 2^53) : ∃ k : Nat, 2^k*ulp x = 1 := by
  have small : Int.log 2 |x| ≤ 52 := by
    rcases eq_or_ne x 0 with rfl|nonzero
    · simp
    · have below := (Int.zpow_log_le_self (by norm_num : 1 < 2) (abs_pos.2 nonzero)).trans_lt h
      have bound : (2 : Rat)^Int.log 2 |x| < 2^(53 : Int) := by exact_mod_cast below
      have := (zpow_lt_zpow_iff_right₀ (by norm_num : (1 : Rat) < 2)).1 bound
      omega
  have nonpos : max (-1074) (Int.log 2 |x|-52) ≤ 0 := by omega
  refine ⟨(-max (-1074) (Int.log 2 |x|-52)).toNat,?_⟩
  rw [ulp,← zpow_natCast,← zpow_add₀ (by norm_num),Int.toNat_of_nonneg (by omega)]
  simp

theorem int_multiple {x : Rat} (h : |x| < 2^53) (n : Int) : ∃ m : Int, (n : Rat) = m*ulp x := by
  obtain ⟨k,hk⟩ := ulp_of_lt h
  refine ⟨n*2^k,?_⟩
  push_cast
  rw [mul_assoc,hk,mul_one]

theorem isDouble_intCast {n : Int} (h : |n| < 2^53) : IsDouble n := by
  have cast : |(n : Rat)| < 2^53 := by exact_mod_cast h
  refine ⟨?_,cast.trans_le (pow_le_pow_right₀ (by norm_num) (by norm_num))⟩
  obtain ⟨m,hm⟩ := int_multiple cast n
  exact round53_of_multiple hm

theorem isDouble_natCast {n : Nat} (h : n < 2^53) : IsDouble n := by
  have := isDouble_intCast (n := n) (by rw [abs_of_nonneg (by omega)]; exact_mod_cast h)
  exact_mod_cast this

theorem roundEven_neg (q : Rat) : roundEven (-q) = -roundEven q := by
  have below := Int.floor_le q
  have above := Int.lt_floor_add_one q
  rcases eq_or_lt_of_le below with whole | inside
  · rw [← whole,← Int.cast_neg,roundEven_intCast,roundEven_intCast]
  · have floor : ⌊-q⌋ = -⌊q⌋-1 := by
      rw [Int.floor_eq_iff]
      push_cast
      constructor <;> linarith
    have sides : -q-(⌊-q⌋ : Rat) = 1-(q-⌊q⌋) := by
      rw [floor]
      push_cast
      ring
    unfold roundEven
    rw [sides,floor]
    split_ifs <;> first | omega | (exfalso; linarith)

theorem round53_neg (x : Rat) : round53 (-x) = -round53 x := by
  have same : ulp (-x) = ulp x := by rw [ulp,abs_neg,ulp]
  rw [round53,same,neg_div,roundEven_neg,round53]
  push_cast
  ring

theorem IsDouble.neg {x : Rat} (h : IsDouble x) : IsDouble (-x) :=
  ⟨by rw [round53_neg,h.1],by rw [abs_neg]; exact h.2⟩

theorem toDouble_of_isDouble {x : Rat} (h : IsDouble x) : toDouble x = .num x := by
  rw [toDouble,h.1,if_pos h.2]

/-- A double is a whole number of some power of two. -/
theorem IsDouble.den_eq {x : Rat} (h : IsDouble x) : ∃ k, x.den = 2^k := by
  obtain ⟨n,hn⟩ : ∃ n : Int, x = n*ulp x := ⟨_,h.1.symm⟩
  have scaled : ∃ (m : Int) (k : Nat), x*2^k = m := by
    unfold ulp at hn
    rcases le_or_gt 0 (max (-1074) (Int.log 2 |x|-52)) with nonneg | neg
    · obtain ⟨k,hk⟩ := Int.eq_ofNat_of_zero_le nonneg
      refine ⟨n*2^k,0,?_⟩
      rw [hn,hk]
      simp
    · obtain ⟨k,hk⟩ := Int.eq_ofNat_of_zero_le (by omega : 0 ≤ -max (-1074) (Int.log 2 |x|-52))
      refine ⟨n,k,?_⟩
      rw [hn,show max (-1074) (Int.log 2 |x|-52) = -(k : Int) by omega,zpow_neg,zpow_natCast,mul_assoc,
        inv_mul_cancel₀ (by positivity),mul_one]
  obtain ⟨m,k,hm⟩ := scaled
  have whole : x.num*2^k = m*x.den := by
    have := congrArg (· * (x.den : Rat)) hm
    simp only [mul_right_comm,Rat.mul_den_eq_num] at this
    exact_mod_cast this
  have divides : x.den ∣ 2^k := by
    have product : x.den ∣ x.num.natAbs*2^k := by
      refine ⟨m.natAbs,?_⟩
      simpa [Int.natAbs_mul,Int.natAbs_pow,mul_comm] using congrArg Int.natAbs whole
    exact x.reduced.symm.dvd_of_dvd_mul_left product
  obtain ⟨j,-,hj⟩ := (Nat.dvd_prime_pow Nat.prime_two).1 divides
  exact ⟨j,hj⟩

/-- Adding one counts up as long as the count is below `2^53`. -/
theorem lt_addOne {x : Rat} (nonneg : 0 ≤ x) (h : x < 2^53) : x < addOne x := by
  have abs : |x+1| = x+1 := abs_of_nonneg (by linarith)
  unfold addOne
  rcases lt_or_ge (x+1) (2^53) with small|large
  · have least : (⌊x⌋+1 : Int) ≤ x+1 := by
      push_cast
      linarith [Int.floor_le x]
    obtain ⟨m,hm⟩ := int_multiple (abs.symm ▸ small) (⌊x⌋+1)
    have rounded := le_round53 (hm ▸ least)
    rw [← hm] at rounded
    push_cast at rounded
    linarith [Int.lt_floor_add_one x]
  · have log : Int.log 2 |x+1| = 53 := by
      rw [abs]
      apply le_antisymm
      · have below : (2 : Rat)^Int.log 2 (x+1) < 2^(54 : Int) :=
          (Int.zpow_log_le_self (by norm_num) (by linarith)).trans_lt (by norm_num; linarith)
        have := (zpow_lt_zpow_iff_right₀ (by norm_num : (1 : Rat) < 2)).1 below
        omega
      · exact (Int.zpow_le_iff_le_log (by norm_num) (by linarith)).1 (by exact_mod_cast large)
    have two : ulp (x+1) = 2 := by
      rw [ulp,log]
      norm_num
    have rounded := le_round53 (n := 2^52) (x := x+1) (by rw [two]; push_cast; linarith)
    rw [two] at rounded
    push_cast at rounded
    linarith

end CodeHarbor.Lib.Js
