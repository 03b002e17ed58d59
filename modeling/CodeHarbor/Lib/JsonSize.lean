import CodeHarbor.Lib.Json
set_option autoImplicit false

namespace CodeHarbor.Lib.Js.Json

/-! How many bytes the compact JSON document of a value takes in UTF-8. -/

/-- A unit that is not half of a pair, as `quote` writes it. -/
def unitSize (u : UInt16) : Nat :=
  if isHigh u || isLow u then 6
  else if u = 0x08 ∨ u = 0x09 ∨ u = 0x0a ∨ u = 0x0c ∨ u = 0x0d ∨ u = 0x22 ∨ u = 0x5c then 2
  else if u.toNat < 0x20 then 6
  else if u.toNat < 0x80 then 1
  else if u.toNat < 0x800 then 2
  else 3

def unitsSize : JsText → Nat
  | [] => 0
  | [u] => unitSize u
  | u :: v :: rest =>
    if isHigh u && isLow v then 4+unitsSize rest else unitSize u+unitsSize (v :: rest)

mutual

def size : Value → Nat
  | .undefined => 4
  | .null => 4
  | .bool true => 4
  | .bool false => 5
  | .num n => (numberText n).length
  | .infinity _ => 4
  | .str s => 2+unitsSize s
  | .arr items => 2+(itemSizes items).sum+(items.length-1)
  | .obj members => 2+(memberSizes members).sum+(members.length-1)

def itemSizes : List Value → List Nat
  | [] => []
  | v :: vs => size v :: itemSizes vs

def memberSizes : Members → List Nat
  | [] => []
  | (key,v) :: ms => (2+unitsSize key+1+size v) :: memberSizes ms

end

/-- A text without lone surrogates, and its bytes. -/
structure Sized (s : JsText) (n : Nat) : Prop where
  wellFormed : WellFormed s
  bytes : byteLength s = n

theorem Sized.nil : Sized [] 0 := ⟨.nil,rfl⟩

theorem Sized.append {s t : JsText} {m n : Nat} (hs : Sized s m) (ht : Sized t n) :
    Sized (s ++ t) (m+n) where
  wellFormed := hs.wellFormed.append ht.wellFormed
  bytes := by rw [byteLength_append hs.wellFormed,hs.bytes,ht.bytes]

theorem utf8Size_char {n : Nat} (h : n.isValidChar) :
    (Char.ofNat n).utf8Size = if n < 0x80 then 1 else if n < 0x800 then 2 else if n < 0x10000 then 3 else 4 := by
  have point : (Char.ofNat n).val.toNat = n := toNat_char h
  unfold Char.utf8Size
  simp only [UInt32.le_iff_toNat_le,point]
  split_ifs <;> simp_all <;> omega

theorem sized_unit {u : UInt16} (high : isHigh u = false) (low : isLow u = false) :
    Sized [u] (if u.toNat < 0x80 then 1 else if u.toNat < 0x800 then 2 else 3) where
  wellFormed := .unit high low
  bytes := by
    have range : u.toNat < 0xd800 ∨ 0xdfff < u.toNat := by
      simp only [isHigh,isLow,Bool.and_eq_false_iff,decide_eq_false_iff_not] at high low
      omega
    have small : u.toNat < 0x10000 := u.toNat_lt
    have valid : u.toNat.isValidChar := range.imp_right fun h => ⟨h,by omega⟩
    rw [byteLength,toRunes,rune,high,low,Bool.or_self,if_neg Bool.false_ne_true,Go.byteLen,
      List.map_singleton,List.sum_singleton,utf8Size_char valid]
    split_ifs <;> rfl

theorem sized_pair {u v : UInt16} (high : isHigh u = true) (low : isLow v = true) : Sized [u,v] 4 where
  wellFormed := .pair high low
  bytes := by
    have pair := high
    have pair' := low
    simp only [isHigh,isLow,Bool.and_eq_true,decide_eq_true_eq] at pair pair'
    have valid : (0x10000+(u.toNat-0xd800)*0x400+(v.toNat-0xdc00)).isValidChar := .inr ⟨by omega,by omega⟩
    rw [byteLength,toRunes,high,low,Bool.and_self,if_pos rfl,toRunes,Go.byteLen,List.map_singleton,
      List.sum_singleton,utf8Size_char valid]
    split_ifs <;> omega

theorem sized_plain {s : JsText} (h : ∀ u ∈ s, Plain u) : Sized s s.length := by
  induction s with
  | nil => exact .nil
  | cons u s ih =>
    have plain := h u (by simp)
    have lone : isHigh u = false ∧ isLow u = false := by
      simp only [Plain] at plain
      simp only [isHigh,isLow,Bool.and_eq_false_iff,decide_eq_false_iff_not]
      omega
    have one := sized_unit lone.1 lone.2
    rw [if_pos plain.2] at one
    have both := one.append (ih fun v mem => h v (by simp [mem]))
    rw [List.length_cons,Nat.add_comm]
    exact both

theorem sized_escaped {u : UInt16} (high : isHigh u = false) (low : isLow u = false) :
    Sized (escaped u) (unitSize u) := by
  unfold unitSize
  rw [high,low,Bool.or_self,if_neg Bool.false_ne_true]
  by_cases short : u = 0x08 ∨ u = 0x09 ∨ u = 0x0a ∨ u = 0x0c ∨ u = 0x0d ∨ u = 0x22 ∨ u = 0x5c
  · rw [if_pos short]
    rcases short with rfl | rfl | rfl | rfl | rfl | rfl | rfl <;>
      exact sized_plain (s := [_,_]) (by decide)
  · have kept : escaped u = if u < 0x20 then unicodeEscape u else [u] := by
      simp only [not_or] at short
      simp [escaped,short]
    rw [if_neg short,kept]
    by_cases control : u.toNat < 0x20
    · rw [if_pos control,if_pos (UInt16.lt_iff_toNat_lt.2 control)]
      exact sized_plain (plain_unicodeEscape u)
    · rw [if_neg control,if_neg (fun below => control (UInt16.lt_iff_toNat_lt.1 below))]
      exact sized_unit high low

theorem sized_single (u : UInt16) :
    Sized (if isHigh u || isLow u then unicodeEscape u else escaped u) (unitSize u) := by
  by_cases lone : (isHigh u || isLow u) = true
  · rw [if_pos lone,unitSize,if_pos lone]
    exact sized_plain (plain_unicodeEscape u)
  · rw [if_neg lone]
    rw [Bool.or_eq_true,not_or,Bool.not_eq_true,Bool.not_eq_true] at lone
    exact sized_escaped lone.1 lone.2

theorem sized_quoteFrom (s : JsText) : Sized (quoteFrom false s) (unitsSize s) := by
  induction s using toRunes.induct with
  | case1 => exact .nil
  | case2 u =>
    rw [quoteFrom_single (by simp)]
    exact (sized_single u).append .nil
  | case3 u v rest pair ih =>
    rw [unitsSize,if_pos pair]
    rw [Bool.and_eq_true] at pair
    have split : quoteFrom false (u :: v :: rest) = [u,v] ++ quoteFrom false rest := by
      simp [quoteFrom,pair]
    rw [split]
    exact (sized_pair pair.1 pair.2).append ih
  | case4 u v rest single ih =>
    rw [unitsSize,if_neg single,quoteFrom_single (by simpa using single)]
    exact (sized_single u).append ih

theorem sized_quote (s : JsText) : Sized (quote s) (2+unitsSize s) := by
  have quotes : Sized [0x22] 1 := sized_plain (by decide)
  have whole := quotes.append ((sized_quoteFrom s).append quotes)
  have same : 1+(unitsSize s+1) = 2+unitsSize s := by omega
  rwa [same] at whole

theorem sized_bracket {opening closing : UInt16} (ends : Plain opening ∧ Plain closing) {depth : Nat}
    {parts : List JsText} {sizes : List Nat} (h : List.Forall₂ Sized parts sizes) :
    Sized (bracket opening closing 0 depth parts) (2+sizes.sum+(sizes.length-1)) := by
  have first : Sized [opening] 1 := sized_plain (by simpa using ends.1)
  have last : Sized [closing] 1 := sized_plain (by simpa using ends.2)
  have rest : ∀ {parts : List JsText} {sizes : List Nat}, List.Forall₂ Sized parts sizes →
      Sized (parts.flatMap fun p => 0x2c :: newline 0 (depth+1) ++ p) (sizes.sum+sizes.length) := by
    intro parts sizes h
    induction h with
    | nil => exact .nil
    | @cons p n parts sizes hp hparts ih =>
      have comma : Sized [0x2c] 1 := sized_plain (by decide)
      have whole := (comma.append hp).append ih
      have same : 1+n+(sizes.sum+sizes.length) = (n :: sizes).sum+(n :: sizes).length := by
        rw [List.sum_cons,List.length_cons]
        omega
      rw [same] at whole
      exact whole
  cases h with
  | nil => exact first.append last
  | @cons p n parts sizes hp hparts =>
    have whole := ((first.append hp).append (rest hparts)).append last
    have same : 1+n+(sizes.sum+sizes.length)+1 = 2+(n :: sizes).sum+((n :: sizes).length-1) := by
      rw [List.sum_cons,List.length_cons]
      omega
    rw [same] at whole
    simpa [bracket,newline] using whole

theorem sized_memberText (key : JsText) {value : JsText} {n : Nat} (h : Sized value n) :
    Sized (memberText 0 key value) (2+unitsSize key+1+n) := by
  have colon : Sized [0x3a] 1 := sized_plain (by decide)
  have whole := ((sized_quote key).append colon).append h
  simpa [memberText] using whole

theorem length_itemSizes (vs : List Value) : (itemSizes vs).length = vs.length := by
  induction vs with
  | nil => rfl
  | cons v vs ih => rw [itemSizes,List.length_cons,List.length_cons,ih]

theorem length_memberSizes (ms : Members) : (memberSizes ms).length = ms.length := by
  induction ms with
  | nil => rfl
  | cons m ms ih => rw [memberSizes,List.length_cons,List.length_cons,ih]

mutual

theorem sized_text (depth : Nat) : ∀ v : Value, Sized (text 0 depth v) (size v)
  | .undefined => sized_plain (s := ofString "null") (by decide)
  | .null => sized_plain (s := ofString "null") (by decide)
  | .bool true => sized_plain (s := ofString "true") (by decide)
  | .bool false => sized_plain (s := ofString "false") (by decide)
  | .num n => sized_plain (plain_numberText n)
  | .infinity _ => sized_plain (s := ofString "null") (by decide)
  | .str s => sized_quote s
  | .arr items => by
    rw [size,← length_itemSizes]
    exact sized_bracket (by decide) (sized_itemTexts (depth+1) items)
  | .obj members => by
    rw [size,← length_memberSizes]
    exact sized_bracket (by decide) (sized_memberTexts (depth+1) members)

theorem sized_itemTexts (depth : Nat) : ∀ vs : List Value,
    List.Forall₂ Sized (itemTexts 0 depth vs) (itemSizes vs)
  | [] => .nil
  | v :: vs => .cons (sized_text depth v) (sized_itemTexts depth vs)

theorem sized_memberTexts (depth : Nat) : ∀ ms : Members,
    List.Forall₂ Sized (memberTexts 0 depth ms) (memberSizes ms)
  | [] => .nil
  | (key,v) :: ms => .cons (sized_memberText key (sized_text depth v)) (sized_memberTexts depth ms)

end

/-- The bytes of a compact document are those of the value that it carries. -/
theorem byteLength_stringify (v : Value) : byteLength (stringify 0 v) = size (carried v) :=
  (sized_text 0 (carried v)).bytes

theorem unitSize_le (u : UInt16) : unitSize u ≤ 6 := by
  unfold unitSize
  split_ifs <;> omega

theorem unitsSize_le (s : JsText) : unitsSize s ≤ 6*s.length := by
  induction s using toRunes.induct with
  | case1 => rfl
  | case2 u => exact unitSize_le u
  | case3 u v rest pair ih =>
    rw [unitsSize,if_pos pair,List.length_cons,List.length_cons]
    omega
  | case4 u v rest single ih =>
    have one := unitSize_le u
    rw [unitsSize,if_neg single,List.length_cons]
    omega

theorem unitsSize_cons {u : UInt16} (high : isHigh u = false) (s : JsText) :
    unitsSize (u :: s) = unitSize u+unitsSize s := by
  cases s with
  | nil => rfl
  | cons v rest => rw [unitsSize,high,Bool.false_and,if_neg Bool.false_ne_true]

theorem unitsSize_plain {s : JsText} (h : ∀ u ∈ s, Plain u ∧ u ≠ 0x22 ∧ u ≠ 0x5c) :
    unitsSize s = s.length := by
  induction s with
  | nil => rfl
  | cons u s ih =>
    obtain ⟨⟨above,below⟩,quoteless,backless⟩ := h u (by simp)
    have lone : isHigh u = false ∧ isLow u = false := by
      simp only [isHigh,isLow,Bool.and_eq_false_iff,decide_eq_false_iff_not]
      omega
    have long : ¬ (u = 0x08 ∨ u = 0x09 ∨ u = 0x0a ∨ u = 0x0c ∨ u = 0x0d ∨ u = 0x22 ∨ u = 0x5c) := by
      rintro (rfl | rfl | rfl | rfl | rfl | short)
      · exact absurd above (by decide)
      · exact absurd above (by decide)
      · exact absurd above (by decide)
      · exact absurd above (by decide)
      · exact absurd above (by decide)
      · exact short.elim quoteless backless
    have one : unitSize u = 1 := by
      rw [unitSize,lone.1,lone.2,Bool.or_self,if_neg Bool.false_ne_true,if_neg long,if_neg (by omega),
        if_pos below]
    rw [unitsSize_cons lone.1,one,ih fun v mem => h v (by simp [mem]),List.length_cons]
    omega

end CodeHarbor.Lib.Js.Json
