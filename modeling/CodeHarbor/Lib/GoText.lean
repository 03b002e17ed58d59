import Mathlib
set_option autoImplicit false

namespace CodeHarbor.Lib.Go

/-- Go text, read rune by rune. Byte counts are recovered by `byteLen`. -/
abbrev Text := List Char

/-- The white space of `unicode.IsSpace`. -/
def isSpace (c : Char) : Bool :=
  let n := c.toNat
  n == 0x20 || (0x09 ≤ n && n ≤ 0x0d) || n == 0x85 || n == 0xa0 || n == 0x1680 ||
    (0x2000 ≤ n && n ≤ 0x200a) || n == 0x2028 || n == 0x2029 || n == 0x202f ||
    n == 0x205f || n == 0x3000

def trimLeft (s : Text) : Text := s.dropWhile isSpace

def trimSpace (s : Text) : Text := (trimLeft (trimLeft s).reverse).reverse

def hasPrefix (s p : Text) : Bool := p.isPrefixOf s

def trimPrefix (s p : Text) : Text := if hasPrefix s p then s.drop p.length else s

def hasSuffix (s p : Text) : Bool := p.isSuffixOf s

def trimSuffix (s p : Text) : Text := if hasSuffix s p then s.take (s.length-p.length) else s

def split (s : Text) (sep : Char) : List Text := s.splitOn sep

/-- `strings.ToLower`. Outside ASCII only the dotted capital I and the Kelvin sign have
an ASCII image; every other non-ASCII rune stays non-ASCII and is left as it is. -/
def lowerRune (c : Char) : Char :=
  if c.toNat == 0x130 then 'i' else if c.toNat == 0x212a then 'k' else c.toLower

def toLower (s : Text) : Text := s.map lowerRune

/-- `strings.ToUpper`; the dotless i and the long s are the only outsiders with an ASCII
image. -/
def upperRune (c : Char) : Char :=
  if c.toNat == 0x131 then 'I' else if c.toNat == 0x17f then 'S' else c.toUpper

def toUpper (s : Text) : Text := s.map upperRune

def byteLen (s : Text) : Nat := (s.map Char.utf8Size).sum

/-- The digits of a number, and whether a minus stands before them. -/
def signed : Text → Bool × Text
  | '-' :: digits => (true,digits)
  | '+' :: digits => (false,digits)
  | digits => (false,digits)

/-- `strconv.ParseInt` in base ten for 64 bits, and `strconv.Atoi`: a sign, digits and a value
in range. -/
def parseInt64 (raw : Text) : Option Int :=
  let digits := (signed raw).2
  let n := Nat.ofDigitChars 10 digits 0
  let value : Int := if (signed raw).1 then -n else n
  if digits ≠ [] ∧ digits.all Char.isDigit = true ∧ -2^63 ≤ value ∧ value < 2^63 then some value
  else none

def decimal (n : Nat) : Text := Nat.toDigits 10 n

theorem parseInt64_decimal {n : Nat} (h : n < 2^63) : parseInt64 (decimal n) = some (n : Int) := by
  have hdigits : ∀ c ∈ decimal n, c.isDigit = true := fun c hc =>
    Nat.isDigit_of_mem_toDigits (by decide) (by decide) hc
  have hsign : ∀ c : Char, c.isDigit = true → c ≠ '-' ∧ c ≠ '+' := by
    intro c hc
    refine ⟨?_,?_⟩
    all_goals
      rintro rfl
      exact absurd hc (by decide)
  cases hd : decimal n with
  | nil => exact absurd hd Nat.toDigits_ne_nil
  | cons c rest =>
    obtain ⟨hminus,hplus⟩ := hsign c (hdigits c (by simp [hd]))
    have hvalue : Nat.ofDigitChars 10 (c :: rest) 0 = n := by
      rw [← hd,decimal,Nat.ofDigitChars_ten_toDigits]
    have hall : (c :: rest).all Char.isDigit = true := by
      rw [← hd]
      simpa using hdigits
    have hsigned : signed (c :: rest) = (false,c :: rest) := by
      unfold signed
      split
      · rename_i heq
        exact absurd (List.cons.inj heq).1 hminus
      · rename_i heq
        exact absurd (List.cons.inj heq).1 hplus
      · rfl
    simp only [parseInt64,hsigned,hvalue,Bool.false_eq_true,if_false]
    exact if_pos ⟨List.cons_ne_nil _ _,hall,by omega,by omega⟩

theorem decimal_ne_nil (n : Nat) : decimal n ≠ [] := Nat.toDigits_ne_nil

theorem trimSuffix_append (s p : Text) : trimSuffix (s ++ p) p = s := by
  simp [trimSuffix,hasSuffix]

theorem trimPrefix_append (p s : Text) : trimPrefix (p ++ s) p = s := by
  simp [trimPrefix,hasPrefix]

theorem trimLeft_cons_of_not_isSpace {c : Char} {s : Text} (h : isSpace c = false) :
    trimLeft (c :: s) = c :: s := by
  simp [trimLeft,h]

theorem trimLeft_head {c : Char} {s r : Text} (h : trimLeft s = c :: r) :
    isSpace c = false := by
  induction s with
  | nil => simp [trimLeft] at h
  | cons d s ih =>
    cases hd : isSpace d with
    | true =>
      have hs : trimLeft s = c :: r := by simpa [trimLeft,hd] using h
      exact ih hs
    | false =>
      rw [trimLeft_cons_of_not_isSpace hd] at h
      cases h
      exact hd

theorem trimSpace_eq_self {c d : Char} {s r : Text} (hc : s = c :: r)
    (hs : isSpace c = false) (hd : s.getLast? = some d) (hl : isSpace d = false) :
    trimSpace s = s := by
  obtain ⟨t,rfl⟩ := List.getLast?_eq_some_iff.mp hd
  have hleft : trimLeft (t ++ [d]) = t ++ [d] := by
    rw [hc]
    exact trimLeft_cons_of_not_isSpace hs
  rw [trimSpace,hleft,List.reverse_append]
  simp [trimLeft_cons_of_not_isSpace hl]

theorem trimSpace_getLast {s : Text} {c : Char} (h : (trimSpace s).getLast? = some c) :
    isSpace c = false := by
  obtain ⟨t,ht⟩ := List.getLast?_eq_some_iff.mp h
  have hrev : trimLeft (trimLeft s).reverse = c :: t.reverse := by
    have hr := congrArg List.reverse ht
    simpa [trimSpace] using hr
  exact trimLeft_head hrev

theorem trimSpace_head {s r : Text} {c : Char} (h : trimSpace s = c :: r) :
    isSpace c = false := by
  have hsuf : trimLeft (trimLeft s).reverse <:+ (trimLeft s).reverse :=
    List.dropWhile_suffix _
  have hpre : trimSpace s <+: trimLeft s := by
    have hr := List.reverse_prefix.mpr hsuf
    simpa [trimSpace] using hr
  obtain ⟨u,hu⟩ := hpre
  rw [h] at hu
  exact trimLeft_head hu.symm

theorem split_two {s p q : Text} {sep : Char} (h : split s sep = [p,q]) :
    s = p ++ sep :: q := by
  have hi : [sep].intercalate (s.splitOn sep) = s := List.intercalate_splitOn sep
  unfold split at h
  rw [h] at hi
  simpa [List.intercalate] using hi.symm

theorem split_two_parts {s p q : Text} {sep : Char} (h : split s sep = [p,q]) :
    split p sep = [p] ∧ split q sep = [q] := by
  have hs := split_two h
  have ha : split s sep = split p sep ++ split q sep := by
    rw [hs]
    exact List.splitOn_append_cons_self p q
  have hp := List.splitOn_ne_nil sep p
  have hq := List.splitOn_ne_nil sep q
  rw [h] at ha
  unfold split at *
  cases hpp : p.splitOn sep with
  | nil => exact absurd hpp hp
  | cons a ps =>
    cases hqq : q.splitOn sep with
    | nil => exact absurd hqq hq
    | cons b qs =>
      rw [hpp,hqq] at ha
      have hlen := congrArg List.length ha
      simp at hlen
      have hps : ps = [] := List.length_eq_zero_iff.mp (by omega)
      have hqs : qs = [] := List.length_eq_zero_iff.mp (by omega)
      subst hps hqs
      simp at ha
      simp [ha]

theorem split_insert {s p q n : Text} {sep : Char} (h : split s sep = [p,q])
    (hn : sep ∉ n) : split (p ++ sep :: (n ++ q)) sep = [p,n ++ q] := by
  obtain ⟨hp,hq⟩ := split_two_parts h
  have hnq : split (n ++ q) sep = [n ++ q] := by
    induction n with
    | nil => exact hq
    | cons c n ih =>
      have hc : ¬ c = sep := fun hc => hn (by simp [hc])
      have ih := ih (fun hm => hn (List.mem_cons_of_mem _ hm))
      unfold split at *
      simp [List.splitOn_cons_eq_if_modifyHead,hc,ih]
  have ha : split (p ++ sep :: (n ++ q)) sep = split p sep ++ split (n ++ q) sep :=
    List.splitOn_append_cons_self p (n ++ q)
  rw [ha,hp,hnq]
  rfl

end CodeHarbor.Lib.Go
