import CodeHarbor.Lib.JsText
set_option autoImplicit false

namespace CodeHarbor.Lib.Js

/-! Bytes read as UTF-8, malformed ones as the replacement character. -/

abbrev Bytes := List UInt8

def replacement : UInt16 := 0xfffd

/-- A character of which `needed` bytes are still to come; the next one lies between the
bounds. -/
structure Sequence where
  point : Nat
  needed : Nat
  lower : Nat := 0x80
  upper : Nat := 0xbf
  deriving DecidableEq, Repr

/-- The bounds keep out overlong forms, surrogates and points beyond the last one. -/
def startSequence (b : UInt8) : Option Sequence :=
  let n := b.toNat
  if n < 0xc2 then none
  else if n < 0xe0 then some { point := n%0x20, needed := 1 }
  else if n = 0xe0 then some { point := n%0x10, needed := 2, lower := 0xa0 }
  else if n = 0xed then some { point := n%0x10, needed := 2, upper := 0x9f }
  else if n < 0xf0 then some { point := n%0x10, needed := 2 }
  else if n = 0xf0 then some { point := n%0x08, needed := 3, lower := 0x90 }
  else if n < 0xf4 then some { point := n%0x08, needed := 3 }
  else if n = 0xf4 then some { point := n%0x08, needed := 3, upper := 0x8f }
  else none

def utf16 (point : Nat) : JsText :=
  if point < 0x10000 then [UInt16.ofNat point]
  else [UInt16.ofNat (0xd800+(point-0x10000)/0x400),UInt16.ofNat (0xdc00+(point-0x10000)%0x400)]

def decodeStart (b : UInt8) : JsText × Option Sequence :=
  if b.toNat < 0x80 then ([UInt16.ofNat b.toNat],none)
  else
    match startSequence b with
    | some sequence => ([],some sequence)
    | none => ([replacement],none)

/-- A byte that does not continue a character ends it and starts another. -/
def decodeByte : Option Sequence → UInt8 → JsText × Option Sequence
  | none, b => decodeStart b
  | some q, b =>
    if q.lower ≤ b.toNat ∧ b.toNat ≤ q.upper then
      let point := q.point*0x40+b.toNat%0x40
      if q.needed = 1 then (utf16 point,none) else ([],some { point := point, needed := q.needed-1 })
    else
      let next := decodeStart b
      (replacement :: next.1,next.2)

def decodeFrom : Option Sequence → Bytes → JsText
  | none, [] => []
  | some _, [] => [replacement]
  | q, b :: bs =>
    let next := decodeByte q b
    next.1 ++ decodeFrom next.2 bs

/-- `buffer.toString("utf8")`. -/
def decodeUtf8 (bytes : Bytes) : JsText := decodeFrom none bytes

/-- A `StringDecoder` with the bytes of an unfinished character. -/
structure StringDecoder where
  held : Bytes := []
  deriving DecidableEq, Repr

def charLength (b : UInt8) : Nat :=
  if b &&& 0xe0 = 0xc0 then 2 else if b &&& 0xf0 = 0xe0 then 3 else if b &&& 0xf8 = 0xf0 then 4 else 0

/-- How many of the last bytes are an unfinished character; the bytes come last one first,
`n` of them were continuations. -/
def unfinished : Nat → Bytes → Nat
  | _, [] => 0
  | n, b :: earlier =>
    if b &&& 0xc0 = 0x80 then if 3 ≤ n then 0 else unfinished (n+1) earlier
    else if n+1 < charLength b then n+1 else 0

def StringDecoder.write (d : StringDecoder) (chunk : Bytes) : StringDecoder × JsText :=
  let bytes := d.held ++ chunk
  let complete := bytes.length-unfinished 0 bytes.reverse
  (⟨bytes.drop complete⟩,decodeUtf8 (bytes.take complete))

/-- `Buffer.byteLength(s, "utf8")`. -/
def byteLength (s : JsText) : Nat := Go.byteLen (toRunes s)

/-- The euro sign in two pieces. -/
example : (StringDecoder.write {} [0x61,0xe2,0x82]).1.held = [0xe2,0x82] ∧
    ((StringDecoder.write {} [0x61,0xe2,0x82]).1.write [0xac]).2 = [0x20ac] := by decide

def encodeUtf8 (s : JsText) : Bytes := (toRunes s).flatMap String.utf8EncodeChar

/-- A text without lone surrogates. -/
def WellFormed (s : JsText) : Prop := ∃ t : Go.Text, s = t.flatMap fun c => utf16 c.toNat

theorem length_encodeUtf8 (s : JsText) : (encodeUtf8 s).length = byteLength s := by
  unfold encodeUtf8 byteLength Go.byteLen
  induction toRunes s with
  | nil => rfl
  | cons c t ih => simp [ih]

theorem encodeUtf8_cons {u : UInt16} (h : u.toNat < 0x80) (s : JsText) :
    encodeUtf8 (u :: s) = UInt8.ofNat u.toNat :: encodeUtf8 s := by
  have plain : isHigh u = false ∧ isLow u = false := by
    simp only [isHigh,isLow,Bool.and_eq_false_iff,decide_eq_false_iff_not]
    omega
  have runes : toRunes (u :: s) = Char.ofNat u.toNat :: toRunes s := by
    cases s <;> simp [toRunes,rune,plain]
  have point : (Char.ofNat u.toNat).val.toNat = u.toNat := toNat_char (.inl (by omega))
  rw [encodeUtf8,runes,List.flatMap_cons,String.utf8EncodeChar]
  simp only [point]
  rw [if_pos (by omega)]
  rfl

theorem WellFormed.nil : WellFormed [] := ⟨[],rfl⟩

theorem WellFormed.append {s t : JsText} (hs : WellFormed s) (ht : WellFormed t) : WellFormed (s ++ t) := by
  obtain ⟨a,rfl⟩ := hs
  obtain ⟨b,rfl⟩ := ht
  exact ⟨a ++ b,by rw [List.flatMap_append]⟩

theorem valid_point (c : Char) : c.toNat < 0xd800 ∨ (0xdfff < c.toNat ∧ c.toNat < 0x110000) := c.valid

theorem WellFormed.unit {u : UInt16} (high : isHigh u = false) (low : isLow u = false) : WellFormed [u] := by
  have range : u.toNat < 0xd800 ∨ 0xdfff < u.toNat := by
    simp only [isHigh,isLow,Bool.and_eq_false_iff,decide_eq_false_iff_not] at high low
    omega
  have size : u.toNat < 0x10000 := u.toNat_lt
  have point : (Char.ofNat u.toNat).toNat = u.toNat :=
    toNat_char (range.imp_right fun h => ⟨h,by omega⟩)
  exact ⟨[Char.ofNat u.toNat],by simp [point,utf16,size]⟩

theorem WellFormed.pair {u v : UInt16} (high : isHigh u = true) (low : isLow v = true) : WellFormed [u,v] := by
  simp only [isHigh,isLow,Bool.and_eq_true,decide_eq_true_eq] at high low
  have point : (Char.ofNat (0x10000+(u.toNat-0xd800)*0x400+(v.toNat-0xdc00))).toNat =
      0x10000+(u.toNat-0xd800)*0x400+(v.toNat-0xdc00) :=
    toNat_char (.inr ⟨by omega,by omega⟩)
  refine ⟨[Char.ofNat (0x10000+(u.toNat-0xd800)*0x400+(v.toNat-0xdc00))],?_⟩
  have first : 0xd800+(0x10000+(u.toNat-0xd800)*0x400+(v.toNat-0xdc00)-0x10000)/0x400 = u.toNat := by omega
  have second : 0xdc00+(0x10000+(u.toNat-0xd800)*0x400+(v.toNat-0xdc00)-0x10000)%0x400 = v.toNat := by omega
  have large : ¬ 0x10000+(u.toNat-0xd800)*0x400+(v.toNat-0xdc00) < 0x10000 := by omega
  simp only [List.flatMap_cons,List.flatMap_nil,List.append_nil,point,utf16,if_neg large,first,second,
    UInt16.ofNat_toNat]

theorem WellFormed.of_small {s : JsText} (h : ∀ u ∈ s, u.toNat < 0xd800) : WellFormed s := by
  induction s with
  | nil => exact .nil
  | cons u s ih =>
    have plain : isHigh u = false ∧ isLow u = false := by
      have := h u (by simp)
      simp only [isHigh,isLow,Bool.and_eq_false_iff,decide_eq_false_iff_not]
      omega
    exact (WellFormed.unit plain.1 plain.2).append (ih fun v mem => h v (by simp [mem]))

theorem toRunes_flatMap_append (t : Go.Text) (rest : JsText) :
    toRunes ((t.flatMap fun c => utf16 c.toNat) ++ rest) = t ++ toRunes rest := by
  induction t with
  | nil => rfl
  | cons c t ih =>
    have range := valid_point c
    rw [List.flatMap_cons,List.append_assoc]
    rcases Nat.lt_or_ge c.toNat 0x10000 with small | large
    · have unit : (UInt16.ofNat c.toNat).toNat = c.toNat := UInt16.toNat_ofNat_of_lt' small
      have plain : isHigh (UInt16.ofNat c.toNat) = false ∧ isLow (UInt16.ofNat c.toNat) = false := by
        simp only [isHigh,isLow,unit,Bool.and_eq_false_iff,decide_eq_false_iff_not]
        omega
      have one : ∀ rest, toRunes (UInt16.ofNat c.toNat :: rest) = c :: toRunes rest := by
        intro rest
        cases rest <;> simp [toRunes,rune,plain,unit]
      rw [utf16,if_pos small,List.singleton_append,one,ih,List.cons_append]
    · have high : (UInt16.ofNat (0xd800+(c.toNat-0x10000)/0x400)).toNat = 0xd800+(c.toNat-0x10000)/0x400 :=
        UInt16.toNat_ofNat_of_lt' (show _ < 0x10000 by omega)
      have low : (UInt16.ofNat (0xdc00+(c.toNat-0x10000)%0x400)).toNat = 0xdc00+(c.toNat-0x10000)%0x400 :=
        UInt16.toNat_ofNat_of_lt' (show _ < 0x10000 by omega)
      have halves : isHigh (UInt16.ofNat (0xd800+(c.toNat-0x10000)/0x400)) = true ∧
          isLow (UInt16.ofNat (0xdc00+(c.toNat-0x10000)%0x400)) = true := by
        simp only [isHigh,isLow,high,low,Bool.and_eq_true,decide_eq_true_eq]
        omega
      have point : 0x10000+(0xd800+(c.toNat-0x10000)/0x400-0xd800)*0x400+
          (0xdc00+(c.toNat-0x10000)%0x400-0xdc00) = c.toNat := by omega
      rw [utf16,if_neg (by omega),List.cons_append,List.singleton_append,toRunes,halves.1,halves.2,
        Bool.and_self,if_pos rfl,high,low,point,Char.ofNat_toNat,ih,List.cons_append]

theorem toRunes_flatMap (t : Go.Text) : toRunes (t.flatMap fun c => utf16 c.toNat) = t := by
  simpa [toRunes] using toRunes_flatMap_append t []

theorem byteLength_append {s : JsText} (h : WellFormed s) (t : JsText) :
    byteLength (s ++ t) = byteLength s + byteLength t := by
  obtain ⟨a,rfl⟩ := h
  rw [byteLength,byteLength,byteLength,toRunes_flatMap_append,toRunes_flatMap,Go.byteLen,Go.byteLen,
    Go.byteLen,List.map_append,List.sum_append]

theorem decodeFrom_start (b : UInt8) (rest : Bytes) :
    decodeFrom none (b :: rest) = (decodeStart b).1 ++ decodeFrom (decodeStart b).2 rest := rfl

/-- The bytes that complete a character, and its point. -/
inductive Completes : Sequence → Bytes → Nat → Prop where
  | last (q : Sequence) (b : UInt8) (bounds : q.lower ≤ b.toNat ∧ b.toNat ≤ q.upper) (one : q.needed = 1) :
      Completes q [b] (q.point*0x40+b.toNat%0x40)
  | next (q : Sequence) (b : UInt8) (bs : Bytes) (point : Nat) (bounds : q.lower ≤ b.toNat ∧ b.toNat ≤ q.upper)
      (more : q.needed ≠ 1) (rest : Completes { point := q.point*0x40+b.toNat%0x40, needed := q.needed-1 } bs point) :
      Completes q (b :: bs) point

theorem Completes.decode {q : Sequence} {bs : Bytes} {point : Nat} (h : Completes q bs point) (rest : Bytes) :
    decodeFrom (some q) (bs ++ rest) = utf16 point ++ decodeFrom none rest := by
  induction h with
  | last q b bounds one => simp [decodeFrom,decodeByte,bounds,one]
  | next q b bs point bounds more _ ih =>
    rw [← ih]
    simp [decodeFrom,decodeByte,bounds,more]

theorem Completes.cut {q : Sequence} {bs : Bytes} {point : Nat} (h : Completes q bs point) {n : Nat}
    (short : n < bs.length) : decodeFrom (some q) (bs.take n) = [replacement] := by
  induction h generalizing n with
  | last q b bounds one =>
    have zero : n = 0 := by simpa using short
    rw [zero]
    rfl
  | next q b bs point bounds more _ ih =>
    cases n with
    | zero => rfl
    | succ n =>
      rw [List.take_succ_cons,← ih (by simpa using short)]
      simp [decodeFrom,decodeByte,bounds,more]

theorem encoded_completes {c : Char} (h : 0x80 ≤ c.toNat) : ∃ b q bs, String.utf8EncodeChar c = b :: bs ∧
    decodeStart b = ([],some q) ∧ Completes q bs c.toNat := by
  have range := valid_point c
  have byte : ∀ n, n < 256 → (UInt8.ofNat n).toNat = n := fun n h => UInt8.toNat_ofNat_of_lt' h
  have value : c.val.toNat = c.toNat := rfl
  unfold String.utf8EncodeChar
  simp only [value,show ¬ c.toNat ≤ 127 by omega,if_false]
  split_ifs with two three
  · have b₁ := byte (c.toNat/64%32+192) (by omega)
    have b₂ := byte (c.toNat%64+128) (by omega)
    refine ⟨_,{ point := c.toNat/64, needed := 1 },_,rfl,?_,?_⟩
    · rw [decodeStart,b₁,if_neg (by omega),startSequence,b₁]
      simp only [show ¬ c.toNat/64%32+192 < 0xc2 by omega,show c.toNat/64%32+192 < 0xe0 by omega,if_true,if_false]
      rw [show (c.toNat/64%32+192)%0x20 = c.toNat/64 by omega]
    · have point : c.toNat/64*0x40+(UInt8.ofNat (c.toNat%64+128)).toNat%0x40 = c.toNat := by omega
      have last := Completes.last { point := c.toNat/64, needed := 1 } (UInt8.ofNat (c.toNat%64+128))
        (by simp only [b₂]; omega) rfl
      rwa [point] at last
  · have b₁ := byte (c.toNat/4096%16+224) (by omega)
    have b₂ := byte (c.toNat/64%64+128) (by omega)
    have b₃ := byte (c.toNat%64+128) (by omega)
    -- the first byte bounds the second one so that no point below 0x800 and no surrogate fits
    obtain ⟨lower,upper,starts,bounds⟩ : ∃ lower upper, decodeStart (UInt8.ofNat (c.toNat/4096%16+224)) =
        ([],some { point := c.toNat/4096, needed := 2, lower := lower, upper := upper }) ∧
        lower ≤ c.toNat/64%64+128 ∧ c.toNat/64%64+128 ≤ upper := by
      rw [decodeStart,b₁,if_neg (by omega),startSequence,b₁]
      simp only [show ¬ c.toNat/4096%16+224 < 0xc2 by omega,show ¬ c.toNat/4096%16+224 < 0xe0 by omega,if_false]
      have point : (c.toNat/4096%16+224)%0x10 = c.toNat/4096 := by omega
      split_ifs with first second third
      · exact ⟨0xa0,0xbf,by rw [point],by omega,by omega⟩
      · exact ⟨0x80,0x9f,by rw [point],by omega,by omega⟩
      · exact ⟨0x80,0xbf,by rw [point],by omega,by omega⟩
      all_goals omega
    refine ⟨_,_,_,rfl,starts,.next _ _ _ _ (by simp only [b₂]; exact bounds) (by simp) ?_⟩
    have point : (c.toNat/4096*0x40+(UInt8.ofNat (c.toNat/64%64+128)).toNat%0x40)*0x40+
        (UInt8.ofNat (c.toNat%64+128)).toNat%0x40 = c.toNat := by omega
    have last := Completes.last
      { point := c.toNat/4096*0x40+(UInt8.ofNat (c.toNat/64%64+128)).toNat%0x40, needed := 1 }
      (UInt8.ofNat (c.toNat%64+128)) (by simp only [b₃]; omega) rfl
    rwa [point] at last
  · have b₁ := byte (c.toNat/262144%8+240) (by omega)
    have b₂ := byte (c.toNat/4096%64+128) (by omega)
    have b₃ := byte (c.toNat/64%64+128) (by omega)
    have b₄ := byte (c.toNat%64+128) (by omega)
    -- and here so that no point below 0x10000 or from 0x110000 on does
    obtain ⟨lower,upper,starts,bounds⟩ : ∃ lower upper, decodeStart (UInt8.ofNat (c.toNat/262144%8+240)) =
        ([],some { point := c.toNat/262144, needed := 3, lower := lower, upper := upper }) ∧
        lower ≤ c.toNat/4096%64+128 ∧ c.toNat/4096%64+128 ≤ upper := by
      rw [decodeStart,b₁,if_neg (by omega),startSequence,b₁]
      simp only [show ¬ c.toNat/262144%8+240 < 0xc2 by omega,show ¬ c.toNat/262144%8+240 < 0xe0 by omega,
        show ¬ c.toNat/262144%8+240 = 0xe0 by omega,show ¬ c.toNat/262144%8+240 = 0xed by omega,
        show ¬ c.toNat/262144%8+240 < 0xf0 by omega,if_false]
      have point : (c.toNat/262144%8+240)%0x08 = c.toNat/262144 := by omega
      split_ifs with first second third
      · exact ⟨0x90,0xbf,by rw [point],by omega,by omega⟩
      · exact ⟨0x80,0xbf,by rw [point],by omega,by omega⟩
      · exact ⟨0x80,0x8f,by rw [point],by omega,by omega⟩
      all_goals omega
    refine ⟨_,_,_,rfl,starts,.next _ _ _ _ (by simp only [b₂]; exact bounds) (by simp)
      (.next _ _ _ _ (by simp only [b₃]; omega) (by simp) ?_)⟩
    have point : ((c.toNat/262144*0x40+(UInt8.ofNat (c.toNat/4096%64+128)).toNat%0x40)*0x40+
        (UInt8.ofNat (c.toNat/64%64+128)).toNat%0x40)*0x40+(UInt8.ofNat (c.toNat%64+128)).toNat%0x40 =
          c.toNat := by omega
    have last := Completes.last { point := (c.toNat/262144*0x40+(UInt8.ofNat (c.toNat/4096%64+128)).toNat%0x40)*0x40+
      (UInt8.ofNat (c.toNat/64%64+128)).toNat%0x40, needed := 1 } (UInt8.ofNat (c.toNat%64+128))
      (by simp only [b₄]; omega) rfl
    rwa [point] at last

theorem encoded_ascii {c : Char} (h : c.toNat < 0x80) :
    String.utf8EncodeChar c = [UInt8.ofNat c.toNat] ∧ utf16 c.toNat = [UInt16.ofNat c.toNat] ∧
      decodeStart (UInt8.ofNat c.toNat) = ([UInt16.ofNat c.toNat],none) := by
  have value : c.val.toNat = c.toNat := rfl
  have byte : (UInt8.ofNat c.toNat).toNat = c.toNat := UInt8.toNat_ofNat_of_lt' (show _ < 256 by omega)
  refine ⟨?_,by rw [utf16,if_pos (by omega)],by rw [decodeStart,byte,if_pos h]⟩
  unfold String.utf8EncodeChar
  simp only [value]
  rw [if_pos (by omega)]

theorem decodeFrom_char (c : Char) (rest : Bytes) :
    decodeFrom none (String.utf8EncodeChar c ++ rest) = utf16 c.toNat ++ decodeFrom none rest := by
  rcases Nat.lt_or_ge c.toNat 0x80 with ascii | beyond
  · obtain ⟨bytes,units,start⟩ := encoded_ascii ascii
    rw [bytes,units,List.singleton_append,decodeFrom_start,start]
  · obtain ⟨b,q,bs,bytes,start,completes⟩ := encoded_completes beyond
    rw [bytes,List.cons_append,decodeFrom_start,start]
    exact completes.decode rest

theorem decodeFrom_cut {c : Char} {n : Nat} (some_bytes : 0 < n) (short : n < (String.utf8EncodeChar c).length) :
    decodeFrom none ((String.utf8EncodeChar c).take n) = [replacement] := by
  rcases Nat.lt_or_ge c.toNat 0x80 with ascii | beyond
  · rw [(encoded_ascii ascii).1,List.length_singleton] at short
    omega
  · obtain ⟨b,q,bs,bytes,start,completes⟩ := encoded_completes beyond
    obtain ⟨n,rfl⟩ := Nat.exists_eq_add_one_of_ne_zero (Nat.pos_iff_ne_zero.1 some_bytes)
    rw [bytes,List.length_cons] at short
    rw [bytes,List.take_succ_cons,decodeFrom_start,start]
    exact completes.cut (by omega)

/-- What is written for a text reads as the text, whatever comes behind it. -/
theorem decodeUtf8_encodeUtf8_append {s : JsText} (h : WellFormed s) (rest : Bytes) :
    decodeUtf8 (encodeUtf8 s ++ rest) = s ++ decodeUtf8 rest := by
  obtain ⟨t,rfl⟩ := h
  rw [encodeUtf8,toRunes_flatMap]
  induction t with
  | nil => rfl
  | cons c t ih =>
    rw [List.flatMap_cons,List.flatMap_cons,List.append_assoc,List.append_assoc,← ih]
    exact decodeFrom_char c _

theorem decodeUtf8_take {s : JsText} (h : WellFormed s) {n : Nat} (short : n < (encodeUtf8 s).length) :
    ∃ front rest, s = front ++ rest ∧ rest ≠ [] ∧ (decodeUtf8 ((encodeUtf8 s).take n) = front ∨
      decodeUtf8 ((encodeUtf8 s).take n) = front ++ [replacement]) := by
  obtain ⟨t,rfl⟩ := h
  rw [encodeUtf8,toRunes_flatMap] at short ⊢
  induction t generalizing n with
  | nil => simp at short
  | cons c t ih =>
    have solid : utf16 c.toNat ≠ [] := by
      unfold utf16
      split_ifs <;> simp
    rw [List.flatMap_cons] at short ⊢
    rw [List.flatMap_cons]
    rcases Nat.lt_or_ge n (String.utf8EncodeChar c).length with cut | whole
    · refine ⟨[],_,rfl,by simp [solid],?_⟩
      rw [List.take_append_of_le_length (Nat.le_of_lt cut)]
      rcases Nat.eq_zero_or_pos n with rfl | some_bytes
      · exact .inl rfl
      · exact .inr (decodeFrom_cut some_bytes cut)
    · rw [List.length_append] at short
      obtain ⟨front,rest,split,left,read⟩ := ih (n := n-(String.utf8EncodeChar c).length) (by omega)
      refine ⟨utf16 c.toNat ++ front,rest,by rw [split,List.append_assoc],left,?_⟩
      rw [List.take_append,List.take_of_length_le whole,decodeUtf8,decodeFrom_char,List.append_assoc]
      exact read.imp (congrArg _) (congrArg _)

theorem startSequence_lower {b : UInt8} {q : Sequence} (h : startSequence b = some q) : 0x80 ≤ q.lower := by
  simp only [startSequence] at h
  split_ifs at h <;> cases h <;> simp

theorem decodeByte_lower {q r : Option Sequence} {b : UInt8} (h : (decodeByte q b).2 = r)
    (lower : ∀ s ∈ q, 0x80 ≤ s.lower) : ∀ s ∈ r, 0x80 ≤ s.lower := by
  have start : ∀ s ∈ (decodeStart b).2, 0x80 ≤ s.lower := by
    intro s mem
    unfold decodeStart at mem
    split_ifs at mem
    · cases mem
    · split at mem
      · cases mem
        exact startSequence_lower ‹_›
      · cases mem
  subst h
  cases q with
  | none => exact start
  | some q =>
    simp only [decodeByte]
    split_ifs
    · nofun
    · intro s mem
      cases mem
      simp
    · exact start

theorem decodeFrom_append {q : Option Sequence} (lower : ∀ s ∈ q, 0x80 ≤ s.lower) (front rest : Bytes) {b : UInt8}
    (h : b.toNat < 0x80) : decodeFrom q (front ++ b :: rest) = decodeFrom q front ++ decodeFrom none (b :: rest) := by
  induction front generalizing q with
  | nil =>
    cases q with
    | none => rfl
    | some q =>
      have low := lower q rfl
      have outside : ¬ (q.lower ≤ b.toNat ∧ b.toNat ≤ q.upper) := by omega
      simp [decodeFrom,decodeByte,outside]
  | cons c front ih =>
    rw [List.cons_append,decodeFrom,decodeFrom,ih (decodeByte_lower rfl lower),List.append_assoc]

theorem decodeUtf8_append (front rest : Bytes) {b : UInt8} (h : b.toNat < 0x80) :
    decodeUtf8 (front ++ b :: rest) = decodeUtf8 front ++ decodeUtf8 (b :: rest) :=
  decodeFrom_append (by simp) front rest h

end CodeHarbor.Lib.Js
