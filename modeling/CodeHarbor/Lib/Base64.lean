import CodeHarbor.Lib.GoText
set_option autoImplicit false

namespace CodeHarbor.Lib.Base64
open Go

abbrev Bytes := List UInt8

/-- RFC 4648 section 5, the URL-safe alphabet. -/
def alphabet : Text :=
  "ABCDEFGHIJKLMNOPQRSTUVWXYZabcdefghijklmnopqrstuvwxyz0123456789-_".toList

def digit (v : Nat) : Char := alphabet.getD v 'A'

def value (c : Char) : Option Nat :=
  let n := c.toNat
  if 65 ≤ n ∧ n ≤ 90 then some (n-65)
  else if 97 ≤ n ∧ n ≤ 122 then some (n-71)
  else if 48 ≤ n ∧ n ≤ 57 then some (n+4)
  else if n = 45 then some 62
  else if n = 95 then some 63
  else none

def isLineBreak (c : Char) : Bool := c == '\r' || c == '\n'

/-- Sextets to bytes. A last group of two or three sextets carries one or two bytes; its
spare low bits are dropped unread, as the non-strict decoder does. -/
def quanta : List Nat → Option Bytes
  | [] => some []
  | [_] => none
  | [a,b] => some [UInt8.ofNat (a*4+b/16)]
  | [a,b,c] => some [UInt8.ofNat (a*4+b/16),UInt8.ofNat (b%16*16+c/4)]
  | a :: b :: c :: d :: rest =>
    (quanta rest).map (fun bs => UInt8.ofNat (a*4+b/16) :: UInt8.ofNat (b%16*16+c/4) ::
      UInt8.ofNat (c%4*64+d) :: bs)

/-- `RawURLEncoding.DecodeString`: line breaks are skipped wherever they stand, any other
character outside the alphabet (padding included) is an error. -/
def decodeString (s : Text) : Option Bytes :=
  ((s.filter (fun c => !isLineBreak c)).mapM value).bind quanta

def encodeToString : Bytes → Text
  | [] => []
  | [a] => [digit (a.toNat/4),digit (a.toNat%4*16)]
  | [a,b] => [digit (a.toNat/4),digit (a.toNat%4*16+b.toNat/16),digit (b.toNat%16*4)]
  | a :: b :: c :: rest =>
    digit (a.toNat/4) :: digit (a.toNat%4*16+b.toNat/16) ::
      digit (b.toNat%16*4+c.toNat/64) :: digit (c.toNat%64) :: encodeToString rest

theorem digit_table : ∀ v : Fin 64, value (digit v) = some v.val ∧ isLineBreak (digit v) = false := by
  decide +kernel

theorem value_digit {v : Nat} (h : v < 64) : value (digit v) = some v :=
  (digit_table ⟨v,h⟩).1

theorem isLineBreak_digit {v : Nat} (h : v < 64) : isLineBreak (digit v) = false :=
  (digit_table ⟨v,h⟩).2

theorem decodeString_lineBreaks {n : Text} (hn : n.all isLineBreak) (s : Text) :
    decodeString (n ++ s) = decodeString s := by
  have hnil : n.filter (fun c => !isLineBreak c) = [] := by
    simpa [List.filter_eq_nil_iff] using hn
  simp [decodeString,hnil]

theorem decodeString_digits (vs : List Nat) (h : ∀ v ∈ vs, v < 64) :
    decodeString (vs.map digit) = quanta vs := by
  have hf : (vs.map digit).filter (fun c => !isLineBreak c) = vs.map digit := by
    apply List.filter_eq_self.mpr
    intro c hc
    obtain ⟨v,hv,rfl⟩ := List.mem_map.mp hc
    simp [isLineBreak_digit (h v hv)]
  have hm : (vs.map digit).mapM value = some vs := by
    rw [List.mapM_map]
    clear hf
    induction vs with
    | nil => rfl
    | cons v vs ih =>
      have ih := ih (fun w hw => h w (List.mem_cons_of_mem v hw))
      have hv := value_digit (h v List.mem_cons_self)
      simp_all [List.mapM_cons]
  simp [decodeString,hf,hm]

/-- The sextets behind an encoded text. -/
def sextets : Bytes → List Nat
  | [] => []
  | [a] => [a.toNat/4,a.toNat%4*16]
  | [a,b] => [a.toNat/4,a.toNat%4*16+b.toNat/16,b.toNat%16*4]
  | a :: b :: c :: rest =>
    (a.toNat/4) :: (a.toNat%4*16+b.toNat/16) :: (b.toNat%16*4+c.toNat/64) ::
      (c.toNat%64) :: sextets rest

theorem encodeToString_eq (bs : Bytes) : encodeToString bs = (sextets bs).map digit := by
  induction bs using encodeToString.induct <;> simp_all [encodeToString,sextets]

theorem sextets_lt (bs : Bytes) : ∀ v ∈ sextets bs, v < 64 := by
  induction bs using encodeToString.induct with
  | case1 => simp [sextets]
  | case2 a =>
    have ha := a.toNat_lt
    simp [sextets]; omega
  | case3 a b =>
    have ha := a.toNat_lt
    have hb := b.toNat_lt
    simp [sextets]; omega
  | case4 a b c rest ih =>
    have ha := a.toNat_lt
    have hb := b.toNat_lt
    have hc := c.toNat_lt
    intro v hv
    simp only [sextets,List.mem_cons] at hv
    rcases hv with rfl | rfl | rfl | rfl | hv
    · omega
    · omega
    · omega
    · omega
    · exact ih v hv

theorem ofNat_eq {b : UInt8} {n : Nat} (h : n = b.toNat) : UInt8.ofNat n = b := by
  rw [h]
  exact UInt8.ofNat_toNat

theorem quanta_sextets (bs : Bytes) : quanta (sextets bs) = some bs := by
  induction bs using encodeToString.induct with
  | case1 => rfl
  | case2 a =>
    have ha := a.toNat_lt
    simp only [sextets,quanta]
    rw [ofNat_eq (b := a) (by omega)]
  | case3 a b =>
    have ha := a.toNat_lt
    have hb := b.toNat_lt
    simp only [sextets,quanta]
    rw [ofNat_eq (b := a) (by omega),ofNat_eq (b := b) (by omega)]
  | case4 a b c rest ih =>
    have ha := a.toNat_lt
    have hb := b.toNat_lt
    have hc := c.toNat_lt
    simp only [sextets,quanta,ih,Option.map_some]
    rw [ofNat_eq (b := a) (by omega),ofNat_eq (b := b) (by omega),
      ofNat_eq (b := c) (by omega)]

theorem decodeString_encodeToString (bs : Bytes) :
    decodeString (encodeToString bs) = some bs := by
  rw [encodeToString_eq,decodeString_digits _ (sextets_lt bs),quanta_sextets]

/-- RFC 4648 section 4, the standard alphabet. -/
def standardDigit (v : Nat) : Char := if v = 62 then '+' else if v = 63 then '/' else digit v

def encodePadded (bs : Bytes) : Text :=
  (sextets bs).map standardDigit ++ List.replicate ((3-bs.length%3)%3) '='

theorem length_sextets (bs : Bytes) : (sextets bs).length = (4*bs.length+2)/3 := by
  induction bs using encodeToString.induct with
  | case1 => rfl
  | case2 a => simp [sextets]
  | case3 a b => simp [sextets]
  | case4 a b c rest ih =>
    simp only [sextets,List.length_cons,ih]
    omega

theorem length_encodePadded (bs : Bytes) : (encodePadded bs).length = 4*((bs.length+2)/3) := by
  rw [encodePadded,List.length_append,List.length_map,List.length_replicate,length_sextets]
  omega

theorem standardDigit_table : ∀ v : Fin 64, 0x2b ≤ (standardDigit v).toNat ∧
    (standardDigit v).toNat < 0x7b ∧ (standardDigit v).toNat ≠ 0x5c := by
  decide +kernel

theorem encodePadded_range (bs : Bytes) :
    ∀ c ∈ encodePadded bs, 0x2b ≤ c.toNat ∧ c.toNat < 0x7b ∧ c.toNat ≠ 0x5c := by
  intro c hc
  rcases List.mem_append.mp hc with hc | hc
  · obtain ⟨v,hv,rfl⟩ := List.mem_map.mp hc
    exact standardDigit_table ⟨v,sextets_lt bs v hv⟩
  · rw [List.eq_of_mem_replicate hc]
    decide

end CodeHarbor.Lib.Base64
