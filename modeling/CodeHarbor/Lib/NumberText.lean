import CodeHarbor.Lib.Double
set_option autoImplicit false

namespace CodeHarbor.Lib.Js

/-! Number literals, read unit by unit, and the shortest decimal that stands for a double. -/

def fromDigits (ds : List Nat) : Nat := ds.foldl (fun n d => n*10+d) 0

def digitUnit (d : Nat) : UInt16 := UInt16.ofNat (0x30+d)

def digitText (ds : List Nat) : JsText := ds.map digitUnit

def digitOf (u : UInt16) : Option Nat :=
  if 0x30 ≤ u.toNat ∧ u.toNat ≤ 0x39 then some (u.toNat-0x30) else none

/-- The part of a literal that was read last. -/
inductive Part where
  | sign
  | zero
  | whole
  | point
  | fraction
  | mark
  | markSign
  | power
  deriving DecidableEq, Repr

/-- A literal so far: its digits as one number, how many of them stand behind the point, and
the power of ten. -/
structure Literal where
  part : Part
  negative : Bool := false
  digits : Nat := 0
  places : Nat := 0
  powerNegative : Bool := false
  power : Nat := 0
  deriving DecidableEq, Repr

namespace Literal

def start (u : UInt16) : Option Literal :=
  if u = 0x2d then some { part := .sign, negative := true }
  else if u = 0x30 then some { part := .zero }
  else (digitOf u).map fun d => { part := .whole, digits := d }

def mark (l : Literal) (u : UInt16) : Option Literal :=
  if u = 0x65 ∨ u = 0x45 then some { l with part := .mark } else none

def point (l : Literal) (u : UInt16) : Option Literal :=
  if u = 0x2e then some { l with part := .point } else l.mark u

def withWhole (l : Literal) (d : Nat) : Literal := { l with part := .whole, digits := l.digits*10+d }

def withPlace (l : Literal) (d : Nat) : Literal :=
  { l with part := .fraction, digits := l.digits*10+d, places := l.places+1 }

def withPower (l : Literal) (d : Nat) : Literal := { l with part := .power, power := l.power*10+d }

def next (l : Literal) (u : UInt16) : Option Literal :=
  match l.part with
  | .sign => if u = 0x30 then some { l with part := .zero } else (digitOf u).map l.withWhole
  | .zero => l.point u
  | .whole => match digitOf u with
    | some d => some (l.withWhole d)
    | none => l.point u
  | .point => (digitOf u).map l.withPlace
  | .fraction => match digitOf u with
    | some d => some (l.withPlace d)
    | none => l.mark u
  | .mark =>
    if u = 0x2b then some { l with part := .markSign }
    else if u = 0x2d then some { l with part := .markSign, powerNegative := true }
    else (digitOf u).map l.withPower
  | .markSign => (digitOf u).map l.withPower
  | .power => (digitOf u).map l.withPower

def complete (l : Literal) : Bool :=
  match l.part with
  | .zero => true
  | .whole => true
  | .fraction => true
  | .power => true
  | _ => false

def exponent (l : Literal) : Int := (if l.powerNegative then -(l.power : Int) else l.power)-l.places

def magnitude (l : Literal) : Rat := l.digits*10^l.exponent

def value (l : Literal) : Value := toDouble (if l.negative then -l.magnitude else l.magnitude)

end Literal

def readLiteral : JsText → Option Literal
  | [] => none
  | u :: rest => Literal.start u >>= fun l => rest.foldlM Literal.next l

/-- The number with `e` zeros or decimals behind it that lies nearest to `x`, or the one on its
other side, when `x` is the double for it. -/
def closest (x : Rat) (e : Int) : Option (Nat × Int) :=
  let n := (roundEven (x/10^e)).toNat
  let other := if n ≤ x/10^e then n+1 else n-1
  (([n,other].find? fun (c : Nat) => decide (round53 (c*10^e) = x)).map fun c => (c,e))

/-- A decimal number of the fewest digits whose double is `x`. Seventeen always do; the last
case is the double itself, digit by digit. -/
def shortest (x : Rat) : Nat × Int :=
  ((List.range 17).findSome? fun k => closest x (Int.log 10 x-k)).getD
    (x.num.natAbs*5^Nat.log2 x.den,-(Nat.log2 x.den : Int))

/-- Digits without a zero at either end, and how many of them stand before the point. -/
structure Decimal where
  digits : List Nat
  point : Int
  deriving DecidableEq, Repr

def decimal (number : Nat × Int) : Decimal :=
  let ds := Nat.digits 10 number.1
  { digits := (ds.dropWhile (· = 0)).reverse, point := ds.length+number.2 }

def Decimal.magnitude (d : Decimal) : Rat := fromDigits d.digits*10^(d.point-d.digits.length)

/-- The digits behind the `e` of a literal. -/
def powerText (e : Int) : JsText :=
  0x65 :: (if e < 0 then 0x2d else 0x2b) :: digitText (Nat.digits 10 e.natAbs).reverse

/-- The digits with the zeros, the point and the power that `Number.prototype.toString` sets. -/
def Decimal.text (d : Decimal) : JsText :=
  if d.digits.length ≤ d.point ∧ d.point ≤ 21 then
    digitText (d.digits ++ List.replicate (d.point-d.digits.length).toNat 0)
  else if 0 < d.point ∧ d.point ≤ 21 then
    digitText (d.digits.take d.point.toNat) ++ 0x2e :: digitText (d.digits.drop d.point.toNat)
  else if -6 < d.point ∧ d.point ≤ 0 then
    0x30 :: 0x2e :: digitText (List.replicate (-d.point).toNat 0 ++ d.digits)
  else
    digitText (d.digits.take 1) ++
      (if d.digits.length = 1 then [] else 0x2e :: digitText (d.digits.drop 1)) ++ powerText (d.point-1)

def numberText (x : Rat) : JsText :=
  if x = 0 then [0x30]
  else if x < 0 then 0x2d :: (decimal (shortest (-x))).text
  else (decimal (shortest x)).text

theorem fromDigits_append_zeros (ds : List Nat) (n : Nat) :
    fromDigits (ds ++ List.replicate n 0) = fromDigits ds*10^n := by
  induction n with
  | zero => simp
  | succ n ih =>
    have last : fromDigits (ds ++ List.replicate n 0 ++ [0]) =
        fromDigits (ds ++ List.replicate n 0)*10 := by simp [fromDigits,List.foldl_append]
    rw [List.replicate_succ',← List.append_assoc,last,ih,pow_succ,mul_assoc]

theorem fromDigits_zeros_append (ds : List Nat) (n : Nat) :
    fromDigits (List.replicate n 0 ++ ds) = fromDigits ds := by
  have zeros := fromDigits_append_zeros [] n
  simp only [List.nil_append,fromDigits,List.foldl_nil,zero_mul] at zeros
  rw [fromDigits,List.foldl_append,zeros]
  rfl

theorem fromDigits_digits (n : Nat) : fromDigits (Nat.digits 10 n).reverse = n := by
  have flip : ∀ (ds : List Nat), ds.foldr (fun d n => n*10+d) 0 = Nat.ofDigits 10 ds := by
    intro ds
    induction ds with
    | nil => rfl
    | cons d ds ih => simp only [List.foldr_cons,ih,Nat.ofDigits_cons]; ring
  rw [fromDigits,List.foldl_reverse,flip,Nat.ofDigits_digits]

theorem digitOf_digitUnit {d : Nat} (h : d < 10) : digitOf (digitUnit d) = some d := by
  interval_cases d <;> rfl

theorem digitUnit_ne_zero {d : Nat} (h : d < 10) (nonzero : d ≠ 0) : digitUnit d ≠ 0x30 := by
  interval_cases d <;> first | exact absurd rfl nonzero | decide

namespace Literal

theorem foldlM_digits {f : Literal → Nat → Literal} {P : Literal → Prop}
    (step : ∀ l d, P l → d < 10 → l.next (digitUnit d) = some (f l d) ∧ P (f l d)) {ds : List Nat}
    (small : ∀ d ∈ ds, d < 10) {l : Literal} (h : P l) :
    (digitText ds).foldlM next l = some (ds.foldl f l) := by
  induction ds generalizing l with
  | nil => rfl
  | cons d ds ih =>
    have first := step l d h (small d (by simp))
    simp only [digitText,List.map_cons,List.foldlM_cons,first.1,List.foldl_cons]
    exact ih (fun d mem => small d (by simp [mem])) first.2

theorem foldlM_whole {ds : List Nat} (small : ∀ d ∈ ds, d < 10) {l : Literal} (h : l.part = .whole) :
    (digitText ds).foldlM next l = some { l with digits := ds.foldl (fun n d => n*10+d) l.digits } := by
  rw [foldlM_digits (f := withWhole) (P := fun l => l.part = .whole) _ small h]
  · congr 1
    clear small
    induction ds generalizing l with
    | nil => rfl
    | cons d ds ih => rw [List.foldl_cons,ih rfl]; simp [withWhole,h]
  · intro l d part digit
    simp [next,part,digitOf_digitUnit digit,withWhole]

theorem foldlM_places {ds : List Nat} (small : ∀ d ∈ ds, d < 10) (some_digit : ds ≠ []) {l : Literal}
    (h : l.part = .point) : (digitText ds).foldlM next l = some { l with
      part := .fraction
      digits := ds.foldl (fun n d => n*10+d) l.digits
      places := l.places+ds.length } := by
  rw [foldlM_digits (f := withPlace) (P := fun l => l.part = .point ∨ l.part = .fraction) _ small (.inl h)]
  · congr 1
    clear small h
    obtain ⟨d,ds,rfl⟩ := List.exists_cons_of_ne_nil some_digit
    clear some_digit
    induction ds generalizing l d with
    | nil => rfl
    | cons e ds ih =>
      rw [List.foldl_cons,ih]
      simp [withPlace]
      omega
  · rintro l d (part | part) digit <;> simp [next,part,digitOf_digitUnit digit,withPlace]

theorem foldlM_power {ds : List Nat} (small : ∀ d ∈ ds, d < 10) (some_digit : ds ≠ []) {l : Literal}
    (h : l.part = .markSign) : (digitText ds).foldlM next l = some { l with
      part := .power
      power := ds.foldl (fun n d => n*10+d) l.power } := by
  rw [foldlM_digits (f := withPower) (P := fun l => l.part = .markSign ∨ l.part = .power) _ small (.inl h)]
  · congr 1
    clear small h
    obtain ⟨d,ds,rfl⟩ := List.exists_cons_of_ne_nil some_digit
    clear some_digit
    induction ds generalizing l d with
    | nil => rfl
    | cons e ds ih => rw [List.foldl_cons,ih]; simp [withPower]
  · rintro l d (part | part) digit <;> simp [next,part,digitOf_digitUnit digit,withPower]

end Literal

/-- A text that reads as a literal of a magnitude, after a sign or without one. -/
def Spells (s : JsText) (m : Rat) : Prop :=
  ∀ negative, ∃ l, s.foldlM Literal.next { part := .sign, negative := negative } = some l ∧
    l.complete = true ∧ l.negative = negative ∧ l.magnitude = m

structure Decimal.Valid (d : Decimal) : Prop where
  small : ∀ e ∈ d.digits, e < 10
  leading : ∃ e rest, d.digits = e :: rest ∧ e ≠ 0

theorem foldlM_leading {d : Nat} {ds : List Nat} (small : ∀ e ∈ d :: ds, e < 10) (nonzero : d ≠ 0)
    (negative : Bool) :
    (digitText (d :: ds)).foldlM Literal.next { part := .sign, negative := negative } =
      some { part := .whole, negative := negative, digits := fromDigits (d :: ds) } := by
  have digit : d < 10 := small d (by simp)
  have first : Literal.next { part := .sign, negative := negative } (digitUnit d) =
      some { part := .whole, negative := negative, digits := d } := by
    simp [Literal.next,digitUnit_ne_zero digit nonzero,digitOf_digitUnit digit,Literal.withWhole]
  rw [digitText,List.map_cons,List.foldlM_cons,first]
  exact (Literal.foldlM_whole (fun e mem => small e (by simp [mem])) rfl).trans (by simp [fromDigits])

theorem foldlM_powerText {e : Int} (h : e ≠ 0) {l : Literal} (part : l.part = .whole ∨ l.part = .fraction)
    (plain : l.power = 0 ∧ l.powerNegative = false) :
    ∃ r, (powerText e).foldlM Literal.next l = some r ∧ r.complete = true ∧ r.negative = l.negative ∧
      r.digits = l.digits ∧ r.exponent = e-l.places := by
  have small : ∀ d ∈ (Nat.digits 10 e.natAbs).reverse, d < 10 := by
    intro d mem
    exact Nat.digits_lt_base (by norm_num) (List.mem_reverse.1 mem)
  have some_digit : (Nat.digits 10 e.natAbs).reverse ≠ [] := by
    simpa [Nat.digits_eq_nil_iff_eq_zero] using h
  have marked : l.next 0x65 = some { l with part := .mark } := by
    rcases part with part | part <;> simp [Literal.next,part,digitOf,Literal.point,Literal.mark]
  have signed : Literal.next { l with part := .mark } (if e < 0 then 0x2d else 0x2b) =
      some { l with part := .markSign, powerNegative := decide (e < 0) } := by
    rcases lt_or_ge e 0 with neg | pos
    · simp [Literal.next,neg]
    · simp [Literal.next,not_lt.2 pos,plain.2]
  refine ⟨{ l with part := .power, powerNegative := decide (e < 0), power := e.natAbs },?_,rfl,rfl,rfl,?_⟩
  · rw [powerText,List.foldlM_cons,marked]
    change List.foldlM Literal.next { l with part := .mark } _ = _
    rw [List.foldlM_cons,signed]
    refine (Literal.foldlM_power small some_digit rfl).trans ?_
    simp only [plain.1]
    rw [← fromDigits,fromDigits_digits]
  · simp only [Literal.exponent,decide_eq_true_eq]
    split_ifs <;> omega

theorem Decimal.Valid.spells {d : Decimal} (h : d.Valid) : Spells d.text d.magnitude := by
  obtain ⟨first,rest,digits,nonzero⟩ := h.leading
  have small := h.small
  rw [digits] at small
  have restSmall : ∀ e ∈ rest, e < 10 := fun e mem => small e (by simp [mem])
  intro negative
  unfold Decimal.text Decimal.magnitude
  split_ifs with whole point zeros
  · -- the digits and zeros up to the point
    obtain ⟨n,hn⟩ : ∃ n : Nat, d.point = d.digits.length+n := ⟨(d.point-d.digits.length).toNat,by omega⟩
    have padded : ∀ e ∈ first :: (rest ++ List.replicate n 0), e < 10 := by
      intro e mem
      simp only [List.mem_cons,List.mem_append,List.mem_replicate] at mem
      rcases mem with rfl | mem | ⟨-,rfl⟩
      · exact small e (by simp)
      · exact restSmall e mem
      · norm_num
    have read := foldlM_leading padded nonzero negative
    refine ⟨_,by rw [hn]; simpa [digits] using read,rfl,rfl,?_⟩
    rw [← List.cons_append,fromDigits_append_zeros,← digits]
    simp [Literal.magnitude,Literal.exponent,hn]
  · -- the point stands among the digits
    obtain ⟨n,hn⟩ : ∃ n : Nat, d.point = n+1 := ⟨(d.point-1).toNat,by omega⟩
    have size : d.digits.length = rest.length+1 := by rw [digits]; rfl
    have behind : rest.drop n ≠ [] := by
      rw [Ne,List.drop_eq_nil_iff]
      omega
    have front : ∀ e ∈ first :: rest.take n, e < 10 := fun e mem =>
      small e (List.mem_of_mem_take (i := n+1) mem)
    have read := foldlM_leading front nonzero negative
    refine ⟨{ part := .fraction, negative, digits := fromDigits d.digits, places := rest.length-n },
      ?_,rfl,rfl,?_⟩
    · rw [hn,show ((n : Int)+1).toNat = n+1 by omega,digits,List.take_succ_cons,List.drop_succ_cons,
        List.foldlM_append,read]
      change List.foldlM Literal.next { part := .point, negative := negative, digits := _ } _ = _
      rw [Literal.foldlM_places (fun e mem => restSmall e (List.mem_of_mem_drop mem)) behind rfl]
      simp only [fromDigits,← List.foldl_append,List.cons_append,List.take_append_drop,List.length_drop,zero_add]
    · simp only [Literal.magnitude,Literal.exponent]
      congr 2
      push_cast
      omega
  · -- zeros between the point and the digits
    obtain ⟨n,hn⟩ : ∃ n : Nat, d.point = -n := ⟨(-d.point).toNat,by omega⟩
    have padded : ∀ e ∈ List.replicate n 0 ++ d.digits, e < 10 := by
      intro e mem
      rcases List.mem_append.1 mem with mem | mem
      · rw [List.eq_of_mem_replicate mem]
        norm_num
      · exact h.small e mem
    refine ⟨{ part := .fraction, negative, digits := fromDigits d.digits, places := n+d.digits.length },
      ?_,rfl,rfl,?_⟩
    · rw [hn,show (-(-(n : Int))).toNat = n by omega]
      change List.foldlM Literal.next { part := .point, negative := negative } _ = _
      have value : (List.replicate n 0 ++ d.digits).foldl (fun n d => n*10+d) 0 = fromDigits d.digits :=
        fromDigits_zeros_append d.digits n
      rw [Literal.foldlM_places padded (by simp [digits]) rfl]
      simp only [value,List.length_append,List.length_replicate,zero_add]
    · simp only [Literal.magnitude,Literal.exponent]
      congr 2
      push_cast
      omega
  · -- one digit and a power of ten
    obtain rfl : rest = [] := by simpa [digits] using ‹d.digits.length = 1›
    have single : ∀ e ∈ [first], e < 10 := by simpa using small
    have read := foldlM_leading single nonzero negative
    have size : d.digits.length = 1 := by rw [digits]; rfl
    obtain ⟨l,power,complete,sign,number,exponent⟩ := foldlM_powerText (e := d.point-1) (by omega)
      (l := { part := .whole, negative := negative, digits := fromDigits [first] }) (.inl rfl) ⟨rfl,rfl⟩
    refine ⟨l,?_,complete,sign,?_⟩
    · rw [digits,List.append_nil,List.foldlM_append,List.take_succ_cons,List.take_zero,read]
      exact power
    · rw [Literal.magnitude,number,exponent,digits]
      simp
  · -- more digits and a power of ten
    have single : ∀ e ∈ [first], e < 10 := by simpa using small first (by simp)
    have read := foldlM_leading single nonzero negative
    have behind : rest ≠ [] := by
      rintro rfl
      simp [digits] at *
    have size : d.digits.length = rest.length+1 := by rw [digits]; rfl
    obtain ⟨l,power,complete,sign,number,exponent⟩ := foldlM_powerText (e := d.point-1) (by omega)
      (l := { part := .fraction, negative, digits := fromDigits (first :: rest), places := rest.length })
      (.inr rfl) ⟨rfl,rfl⟩
    refine ⟨l,?_,complete,sign,?_⟩
    · rw [digits,List.foldlM_append,List.foldlM_append,List.take_succ_cons,List.take_zero,read]
      change (List.foldlM Literal.next { part := .point, negative := negative, digits := _ } _ >>= _) = _
      rw [List.drop_succ_cons,List.drop_zero,Literal.foldlM_places restSmall behind rfl]
      simpa [fromDigits] using power
    · rw [Literal.magnitude,number,exponent,digits]
      congr 2
      simp
      omega

theorem closest_rounds {x : Rat} {e : Int} {number : Nat × Int} (h : closest x e = some number) :
    round53 (number.1*10^number.2) = x := by
  obtain ⟨c,found,rfl⟩ := Option.map_eq_some_iff.1 h
  simpa using List.find?_some found

theorem shortest_rounds {x : Rat} (h : IsDouble x) (pos : 0 < x) :
    round53 ((shortest x).1*10^(shortest x).2) = x := by
  unfold shortest
  cases found : (List.range 17).findSome? fun k => closest x (Int.log 10 x-k) with
  | some number =>
    obtain ⟨k,-,hk⟩ := List.exists_of_findSome?_eq_some found
    exact closest_rounds hk
  | none =>
    obtain ⟨k,hk⟩ := h.den_eq
    have num : (x.num.natAbs : Rat) = x.num := by
      rw [← Int.cast_natCast,Int.natAbs_of_nonneg (Rat.num_nonneg.2 pos.le)]
    have exact : ((x.num.natAbs*5^k : Nat) : Rat)*10^(-(k : Int)) = x := by
      rw [zpow_neg,zpow_natCast,← div_eq_mul_inv,div_eq_iff (by positivity)]
      push_cast
      rw [num,show (10 : Rat) = 2*5 by norm_num,mul_pow,← mul_assoc]
      congr 1
      conv_rhs => rw [← Rat.num_div_den x]
      rw [hk]
      push_cast
      field_simp
    simp only [Option.getD_none,hk,Nat.log2_two_pow]
    rw [exact,h.1]

theorem decimal_magnitude (number : Nat × Int) : (decimal number).magnitude = number.1*10^number.2 := by
  obtain ⟨c,e⟩ := number
  simp only [Decimal.magnitude,decimal,List.length_reverse]
  have value := fromDigits_digits c
  have zeros : ∀ d ∈ (Nat.digits 10 c).takeWhile (fun d => decide (d = 0)), d = 0 := by
    intro d mem
    simpa using List.mem_takeWhile_imp mem
  have split := List.takeWhile_append_dropWhile (p := fun d => decide (d = 0)) (l := Nat.digits 10 c)
  generalize (Nat.digits 10 c).takeWhile (fun d => decide (d = 0)) = front at zeros split
  generalize (Nat.digits 10 c).dropWhile (fun d => decide (d = 0)) = digits at split
  rw [← split,List.reverse_append,List.eq_replicate_of_mem zeros,List.reverse_replicate,
    fromDigits_append_zeros] at value
  rw [← split,← value,List.length_append]
  push_cast
  rw [show (front.length : Int)+digits.length+e-digits.length = front.length+e by ring,
    zpow_add₀ (by norm_num),zpow_natCast,mul_assoc]

theorem decimal_valid {number : Nat × Int} (h : number.1 ≠ 0) : (decimal number).Valid where
  small := by
    intro d mem
    have := (List.dropWhile_sublist _).subset (List.mem_reverse.1 mem)
    exact Nat.digits_lt_base (by norm_num) this
  leading := by
    have last := Nat.getLast_digit_ne_zero 10 h
    have split := List.takeWhile_append_dropWhile (p := fun d => decide (d = 0)) (l := Nat.digits 10 number.1)
    have nonempty : (Nat.digits 10 number.1).dropWhile (fun d => decide (d = 0)) ≠ [] := by
      intro empty
      have all := List.dropWhile_eq_nil_iff.1 empty _ (List.getLast_mem (Nat.digits_ne_nil_iff_ne_zero.2 h))
      exact last (by simpa using all)
    refine ⟨_,_,(List.cons_head_tail (by simpa [decimal] using nonempty)).symm,?_⟩
    simp only [decimal,List.head_reverse]
    rwa [← List.getLast_append_of_ne_nil (l := (Nat.digits 10 number.1).takeWhile fun d => decide (d = 0))
      (by simpa [split] using Nat.digits_ne_nil_iff_ne_zero.2 h) nonempty,List.getLast_congr _ _ split]

theorem numberText_pos {x : Rat} (h : IsDouble x) (pos : 0 < x) :
    ∃ m, Spells (decimal (shortest x)).text m ∧ round53 m = x := by
  have rounds := shortest_rounds h pos
  refine ⟨_,(decimal_valid ?_).spells,by rw [decimal_magnitude,rounds]⟩
  intro zero
  rw [zero,Nat.cast_zero,zero_mul,round53_zero] at rounds
  exact pos.ne rounds

theorem toDouble_of_rounds {m x : Rat} (h : IsDouble x) (rounds : round53 m = x) : toDouble m = .num x := by
  rw [toDouble,rounds,if_pos h.2]

theorem readLiteral_of_spells {s : JsText} {m : Rat} (h : Spells s m) :
    ∃ l, readLiteral s = some l ∧ l.complete = true ∧ l.negative = false ∧ l.magnitude = m := by
  obtain ⟨l,read,complete,sign,magnitude⟩ := h false
  refine ⟨l,?_,complete,sign,magnitude⟩
  cases s with
  | nil =>
    cases Option.some.inj read
    cases complete
  | cons u rest =>
    rw [List.foldlM_cons] at read
    have starts : Literal.start u = Literal.next { part := .sign } u := by
      rcases eq_or_ne u 0x2d with rfl | minus
      · cases read
      · have first : Literal.withWhole { part := .sign } = fun d => { part := .whole, digits := d } := by
          funext d
          simp [Literal.withWhole]
        simp only [Literal.start,if_neg minus,Literal.next,first]
    rw [readLiteral,starts]
    exact read

theorem readLiteral_numberText {x : Rat} (h : IsDouble x) :
    ∃ l, readLiteral (numberText x) = some l ∧ l.complete = true ∧ l.value = .num x := by
  unfold numberText
  split_ifs with zero neg
  · refine ⟨{ part := .zero },rfl,rfl,?_⟩
    simpa [Literal.value,Literal.magnitude,zero] using toDouble_of_isDouble h
  · obtain ⟨m,spells,rounds⟩ := numberText_pos h.neg (by linarith)
    obtain ⟨l,read,complete,sign,magnitude⟩ := spells true
    refine ⟨l,read,complete,?_⟩
    rw [Literal.value,sign,magnitude,if_pos rfl]
    exact toDouble_of_rounds h (by rw [round53_neg,rounds,neg_neg])
  · obtain ⟨m,spells,rounds⟩ := numberText_pos h (lt_of_le_of_ne (not_lt.1 neg) (Ne.symm zero))
    obtain ⟨l,read,complete,sign,magnitude⟩ := readLiteral_of_spells spells
    refine ⟨l,read,complete,?_⟩
    rw [Literal.value,sign,magnitude]
    exact toDouble_of_rounds h rounds

end CodeHarbor.Lib.Js
