import CodeHarbor.Lib.GoText
set_option autoImplicit false

namespace CodeHarbor.Lib.Js

/-- A JavaScript string: its UTF-16 code units. -/
abbrev JsText := List UInt16

/-- What is said of every unit of a text is decided along the text, not over all units there are. -/
instance decidableUnits (s : JsText) (p : UInt16 → Prop) [DecidablePred p] : Decidable (∀ u ∈ s, p u) :=
  List.decidableBAll p s

/-- A text of the basic plane, unit by unit. -/
def ofString (s : String) : JsText := s.toList.map (fun ch => UInt16.ofNat ch.toNat)

/-- The white space and line terminators that `trim` removes. -/
def isSpace (u : UInt16) : Bool :=
  let n := u.toNat
  n == 0x20 || (0x09 ≤ n && n ≤ 0x0d) || n == 0xa0 || n == 0xfeff || n == 0x1680 ||
    (0x2000 ≤ n && n ≤ 0x200a) || n == 0x2028 || n == 0x2029 || n == 0x202f ||
    n == 0x205f || n == 0x3000

def trim (s : JsText) : JsText := ((s.dropWhile isSpace).reverse.dropWhile isSpace).reverse

def isHigh (u : UInt16) : Bool := 0xd800 ≤ u.toNat && u.toNat < 0xdc00

def isLow (u : UInt16) : Bool := 0xdc00 ≤ u.toNat && u.toNat < 0xe000

/-- A unit on its own; a lone surrogate reads as the replacement character. -/
def rune (u : UInt16) : Char := if isHigh u || isLow u then Char.ofNat 0xfffd else Char.ofNat u.toNat

/-- The text that a JSON document carries for a string: pairs of surrogates are one
character, and a reader replaces lone ones. -/
def toRunes : JsText → Go.Text
  | [] => []
  | [u] => [rune u]
  | u :: v :: rest =>
    if isHigh u && isLow v then
      Char.ofNat (0x10000+(u.toNat-0xd800)*0x400+(v.toNat-0xdc00)) :: toRunes rest
    else rune u :: toRunes (v :: rest)

theorem toNat_char {n : Nat} (h : n.isValidChar) : (Char.ofNat n).toNat = n := by
  rw [Char.ofNat,dif_pos h]
  rfl

theorem trim_append (front : JsText) {u v : UInt16} {inner : JsText} (first : isSpace u = false)
    (last : isSpace v = false) :
    trim (front ++ (u :: inner ++ [v])) = front.dropWhile isSpace ++ (u :: inner ++ [v]) := by
  have opened : (front ++ (u :: inner ++ [v])).dropWhile isSpace =
      front.dropWhile isSpace ++ (u :: inner ++ [v]) := by
    rw [List.dropWhile_append]
    split_ifs with blank
    · rw [List.isEmpty_iff.1 blank,List.nil_append,List.cons_append,List.dropWhile_cons,first]
      rfl
    · rfl
  rw [trim,opened,← List.append_assoc,List.reverse_append,List.reverse_singleton,List.singleton_append,
    List.dropWhile_cons,last]
  simp

theorem trim_eq_nil {s : JsText} : trim s = [] ↔ s.dropWhile isSpace = [] := by
  unfold trim
  constructor
  · intro h
    by_contra solid
    rw [List.reverse_eq_nil_iff,List.dropWhile_eq_nil_iff] at h
    have head := List.dropWhile_get_zero_not (p := isSpace) s (List.length_pos_of_ne_nil solid)
    refine head (h _ (List.mem_reverse.2 ?_))
    exact List.get_mem ..
  · intro h
    rw [h]
    rfl

theorem trim_of_solid {s : JsText} (h : ∀ u ∈ s, isSpace u = false) : trim s = s := by
  have kept : ∀ t : JsText, (∀ u ∈ t, isSpace u = false) → t.dropWhile isSpace = t := by
    intro t solid
    cases t with
    | nil => rfl
    | cons u t => rw [List.dropWhile_cons,solid u List.mem_cons_self]; rfl
  rw [trim,kept s h,kept s.reverse fun u mem => h u (List.mem_reverse.1 mem),List.reverse_reverse]

theorem trim_cons {u : UInt16} (h : isSpace u = false) (s : JsText) :
    ∃ kept spaces, s = kept ++ spaces ∧ trim (u :: s) = u :: kept := by
  have start : (u :: s).dropWhile isSpace = u :: s := by
    rw [List.dropWhile_cons,h]
    rfl
  have split := List.takeWhile_append_dropWhile (p := isSpace) (l := s.reverse)
  refine ⟨(s.reverse.dropWhile isSpace).reverse,(s.reverse.takeWhile isSpace).reverse,?_,?_⟩
  · rw [← List.reverse_append,split,List.reverse_reverse]
  · rw [trim,start,List.reverse_cons,List.dropWhile_append]
    split_ifs with blank
    · rw [List.isEmpty_iff.1 blank,List.dropWhile_cons,h]
      rfl
    · rw [List.reverse_append]
      rfl

end CodeHarbor.Lib.Js
