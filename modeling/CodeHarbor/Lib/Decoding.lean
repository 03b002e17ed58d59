import CodeHarbor.Lib.Utf8
set_option autoImplicit false

namespace CodeHarbor.Lib.Js

/-! What a `StringDecoder` gives and holds depends on the bytes, not on their chunks. -/

/-- How much of some bytes is decoded. -/
def completeLength (bytes : Bytes) : Nat := bytes.length-unfinished 0 bytes.reverse

def decoded (bytes : Bytes) : JsText := decodeUtf8 (bytes.take (completeLength bytes))

def heldBack (bytes : Bytes) : Bytes := bytes.drop (completeLength bytes)

def isContinuation (b : UInt8) : Bool := b &&& 0xc0 = 0x80

/-- The character that is open behind some bytes. -/
def stateAfter : Option Sequence → Bytes → Option Sequence
  | q, [] => q
  | q, b :: bs => stateAfter (decodeByte q b).2 bs

theorem stateAfter_snoc (q : Option Sequence) (bs : Bytes) (b : UInt8) :
    stateAfter q (bs ++ [b]) = (decodeByte (stateAfter q bs) b).2 := by
  induction bs generalizing q with
  | nil => rfl
  | cons c bs ih => exact ih _

theorem decodeFrom_append_of {q : Option Sequence} (front rest : Bytes)
    (h : ∀ s, stateAfter q front = some s → ∃ b bs, rest = b :: bs ∧
      ¬ (s.lower ≤ b.toNat ∧ b.toNat ≤ s.upper)) :
    decodeFrom q (front ++ rest) = decodeFrom q front ++ decodeFrom none rest := by
  induction front generalizing q with
  | nil =>
    cases q with
    | none => rfl
    | some s =>
      obtain ⟨b,bs,rfl,outside⟩ := h s rfl
      simp [decodeFrom,decodeByte,outside]
  | cons c front ih =>
    rw [List.cons_append,decodeFrom,decodeFrom,ih h,List.append_assoc]

theorem charLength_start : ∀ b : UInt8, ∀ q, startSequence b = some q →
    charLength b = 1+q.needed ∧ 1 ≤ q.needed ∧ 0x80 ≤ q.lower ∧ q.upper ≤ 0xbf := by
  have all : ∀ n : Fin 256, ∀ q ∈ startSequence (UInt8.ofNat n), charLength (UInt8.ofNat n) = 1+q.needed ∧
      1 ≤ q.needed ∧ 0x80 ≤ q.lower ∧ q.upper ≤ 0xbf := by
    decide +kernel
  intro b q h
  have at_b := all ⟨b.toNat,b.toNat_lt⟩
  simp only [UInt8.ofNat_toNat] at at_b
  exact at_b q h

theorem isContinuation_of_bounds : ∀ b : UInt8, 0x80 ≤ b.toNat → b.toNat ≤ 0xbf → isContinuation b = true := by
  have all : ∀ n : Fin 256, 0x80 ≤ n.val → n.val ≤ 0xbf → isContinuation (UInt8.ofNat n) = true := by
    decide +kernel
  intro b low high
  have at_b := all ⟨b.toNat,b.toNat_lt⟩ low high
  simpa only [UInt8.ofNat_toNat] using at_b

theorem not_bounds_of_start : ∀ b : UInt8, isContinuation b = false → b.toNat < 0x80 ∨ 0xbf < b.toNat := by
  intro b start
  by_contra inside
  rw [not_or,not_lt,not_lt] at inside
  rw [isContinuation_of_bounds b inside.1 inside.2] at start
  cases start

theorem charLength_le (b : UInt8) : charLength b ≤ 4 := by
  unfold charLength
  split_ifs <;> omega

theorem isContinuation_of_charLength : ∀ b : UInt8, 1 < charLength b → isContinuation b = false := by
  have all : ∀ n : Fin 256, 1 < charLength (UInt8.ofNat n) → isContinuation (UInt8.ofNat n) = false := by
    decide +kernel
  intro b long
  have at_b := all ⟨b.toNat,b.toNat_lt⟩
  simp only [UInt8.ofNat_toNat] at at_b
  exact at_b long

theorem stateAfter_some {bytes : Bytes} {s : Sequence} (h : stateAfter none bytes = some s) :
    0x80 ≤ s.lower ∧ s.upper ≤ 0xbf ∧ 1 ≤ s.needed ∧ ∃ earlier first conts, bytes = earlier ++ first :: conts ∧
      (∀ b ∈ conts, isContinuation b = true) ∧ conts.length+1+s.needed = charLength first := by
  induction bytes using List.reverseRecOn generalizing s with
  | nil => cases h
  | append_singleton bytes b ih =>
    rw [stateAfter_snoc] at h
    have start : (decodeStart b).2 = some s → 0x80 ≤ s.lower ∧ s.upper ≤ 0xbf ∧ 1 ≤ s.needed ∧
        ∃ earlier first conts, bytes ++ [b] = earlier ++ first :: conts ∧
          (∀ b ∈ conts, isContinuation b = true) ∧ conts.length+1+s.needed = charLength first := by
      intro begins
      have sequence : startSequence b = some s := by
        unfold decodeStart at begins
        split_ifs at begins
        split at begins
        · cases begins
          assumption
        · cases begins
      obtain ⟨length,needed,lower,upper⟩ := charLength_start b s sequence
      exact ⟨lower,upper,needed,bytes,b,[],rfl,by simp,by rw [length,List.length_nil,Nat.zero_add]⟩
    cases before : stateAfter none bytes with
    | none =>
      rw [before] at h
      exact start h
    | some q =>
      rw [before] at h
      simp only [decodeByte] at h
      split_ifs at h with bounds one
      · cases h
        obtain ⟨lower,upper,needed,earlier,first,conts,split,all,length⟩ := ih before
        refine ⟨by simp,by simp,by simp only; omega,earlier,first,conts ++ [b],?_,?_,?_⟩
        · rw [split,List.append_assoc,List.cons_append]
        · intro c mem
          rcases List.mem_append.1 mem with old | new
          · exact all c old
          · rw [List.mem_singleton.1 new]
            exact isContinuation_of_bounds b (by omega) (by omega)
        · rw [List.length_append,List.length_singleton]
          simp only
          omega
      · exact start h

theorem unfinished_le (n : Nat) (bytes : Bytes) : unfinished n bytes ≤ n+bytes.length := by
  induction bytes generalizing n with
  | nil => simp [unfinished]
  | cons b bytes ih =>
    have next := ih (n+1)
    rw [unfinished,List.length_cons]
    split_ifs <;> omega

theorem unfinished_continuations {conts : Bytes} (h : ∀ b ∈ conts, isContinuation b = true) {n : Nat}
    (short : n+conts.length ≤ 3) (earlier : Bytes) :
    unfinished n (conts ++ earlier) = unfinished (n+conts.length) earlier := by
  induction conts generalizing n with
  | nil => rfl
  | cons b conts ih =>
    rw [List.length_cons] at short
    have continuation : b &&& 0xc0 = 0x80 := by simpa [isContinuation] using h b List.mem_cons_self
    rw [List.cons_append,unfinished,if_pos continuation,if_neg (by omega),
      ih (fun c mem => h c (List.mem_cons_of_mem b mem)) (by omega),List.length_cons]
    congr 1
    omega

theorem unfinished_zero_of_le {m n : Nat} (le : m ≤ n) {bytes : Bytes} (h : unfinished m bytes = 0) :
    unfinished n bytes = 0 := by
  induction bytes generalizing m n with
  | nil => rfl
  | cons b bytes ih =>
    rw [unfinished] at h ⊢
    split_ifs at h ⊢ <;> first | rfl | omega | exact ih (by omega) h

theorem unfinished_append_zero (n : Nat) (bytes : Bytes) {earlier : Bytes} (h : unfinished 0 earlier = 0) :
    unfinished n (bytes ++ earlier) = unfinished n bytes := by
  induction bytes generalizing n with
  | nil => exact unfinished_zero_of_le (Nat.zero_le n) h
  | cons b bytes ih =>
    rw [List.cons_append,unfinished,unfinished,ih]

theorem unfinished_append_start (n : Nat) {bytes : Bytes} (earlier : Bytes)
    (h : ∃ b ∈ bytes, isContinuation b = false) : unfinished n (bytes ++ earlier) = unfinished n bytes := by
  induction bytes generalizing n with
  | nil => simp at h
  | cons b bytes ih =>
    rw [List.cons_append,unfinished,unfinished]
    by_cases continuation : b &&& 0xc0 = 0x80
    · obtain ⟨c,mem,start⟩ := h
      rcases List.mem_cons.1 mem with rfl | mem
      · simp [isContinuation,continuation] at start
      · rw [ih (n+1) ⟨c,mem,start⟩]
    · rw [if_neg continuation,if_neg continuation]

theorem stateAfter_of_finished {bytes : Bytes} (h : unfinished 0 bytes.reverse = 0) :
    stateAfter none bytes = none := by
  cases state : stateAfter none bytes with
  | none => rfl
  | some s =>
    obtain ⟨-,-,needed,earlier,first,conts,rfl,all,length⟩ := stateAfter_some state
    have bound := charLength_le first
    have start : ¬ first &&& 0xc0 = 0x80 := by
      simpa [isContinuation] using isContinuation_of_charLength first (by omega)
    rw [List.reverse_append,List.reverse_cons,List.append_assoc,
      unfinished_continuations (by simpa using all) (by rw [List.length_reverse]; omega),
      List.singleton_append,unfinished,if_neg start,List.length_reverse,if_pos (by omega)] at h
    omega

theorem unfinished_pos {n : Nat} {bytes : Bytes} (h : unfinished n bytes ≠ 0) :
    ∃ conts first earlier, bytes = conts ++ first :: earlier ∧ isContinuation first = false ∧
      unfinished n bytes = n+conts.length+1 := by
  induction bytes generalizing n with
  | nil => exact absurd rfl h
  | cons b bytes ih =>
    rw [unfinished] at h ⊢
    split_ifs at h ⊢ with continuation many long
    · exact absurd rfl h
    · obtain ⟨conts,first,earlier,rfl,start,count⟩ := ih h
      refine ⟨b :: conts,first,earlier,rfl,start,?_⟩
      rw [count,List.length_cons]
      omega
    · exact ⟨[],b,bytes,rfl,by simpa [isContinuation] using continuation,by simp⟩
    · exact absurd rfl h

theorem heldBack_cases (bytes : Bytes) :
    heldBack bytes = [] ∧ unfinished 0 bytes.reverse = 0 ∨
      ∃ first rest, heldBack bytes = first :: rest ∧ isContinuation first = false := by
  by_cases finished : unfinished 0 bytes.reverse = 0
  · refine .inl ⟨?_,finished⟩
    rw [heldBack,completeLength,finished,Nat.sub_zero,List.drop_length]
  · obtain ⟨conts,first,earlier,split,start,count⟩ := unfinished_pos finished
    have whole : bytes = earlier.reverse ++ first :: conts.reverse := by
      rw [← bytes.reverse_reverse,split]
      simp
    refine .inr ⟨first,conts.reverse,?_,start⟩
    have complete : completeLength bytes = earlier.reverse.length := by
      rw [completeLength,count,← bytes.length_reverse,split]
      simp only [List.length_append,List.length_cons,List.length_reverse]
      omega
    rw [heldBack,complete,whole,List.drop_left]

theorem completeLength_le (bytes : Bytes) : completeLength bytes ≤ bytes.length := Nat.sub_le _ _

theorem take_append_heldBack (bytes : Bytes) : bytes.take (completeLength bytes) ++ heldBack bytes = bytes :=
  List.take_append_drop _ _

theorem unfinished_heldBack (bytes chunk : Bytes) :
    unfinished 0 (bytes ++ chunk).reverse = unfinished 0 (heldBack bytes ++ chunk).reverse := by
  rcases heldBack_cases bytes with ⟨none,finished⟩ | ⟨first,rest,held,start⟩
  · rw [none,List.nil_append,List.reverse_append,unfinished_append_zero 0 _ finished]
  · conv_lhs => rw [← take_append_heldBack bytes]
    rw [List.append_assoc,@List.reverse_append _ (bytes.take _)]
    refine unfinished_append_start 0 _ ⟨first,?_,start⟩
    simp [held]

theorem write_heldBack (bytes chunk : Bytes) :
    (StringDecoder.write ⟨heldBack bytes⟩ chunk).1 = ⟨heldBack (bytes ++ chunk)⟩ ∧
      decoded (bytes ++ chunk) = decoded bytes ++ (StringDecoder.write ⟨heldBack bytes⟩ chunk).2 := by
  have count := unfinished_heldBack bytes chunk
  have front := List.length_take_of_le (completeLength_le bytes)
  have whole : bytes ++ chunk = bytes.take (completeLength bytes) ++ (heldBack bytes ++ chunk) := by
    rw [← List.append_assoc,take_append_heldBack]
  have lengths : completeLength (bytes ++ chunk) =
      completeLength bytes+completeLength (heldBack bytes ++ chunk) := by
    have short := unfinished_le 0 (heldBack bytes ++ chunk).reverse
    have sum := congrArg List.length whole
    rw [@List.length_append _ (bytes.take _),front] at sum
    rw [List.length_reverse,Nat.zero_add] at short
    rw [completeLength,count,sum,Nat.add_sub_assoc short]
    rfl
  refine ⟨?_,?_⟩
  · have rest : heldBack (bytes ++ chunk) = heldBack (heldBack bytes ++ chunk) := by
      rw [heldBack,lengths,whole,List.drop_append,front,List.drop_of_length_le (by rw [front]; omega),
        List.nil_append,Nat.add_sub_cancel_left]
      rfl
    rw [rest]
    rfl
  · have taken : (bytes ++ chunk).take (completeLength (bytes ++ chunk)) =
        bytes.take (completeLength bytes) ++
          (heldBack bytes ++ chunk).take (completeLength (heldBack bytes ++ chunk)) := by
      rw [lengths,whole,List.take_append,front,List.take_of_length_le (by rw [front]; omega)]
      simp
    have split : decodeUtf8 (bytes.take (completeLength bytes) ++
        (heldBack bytes ++ chunk).take (completeLength (heldBack bytes ++ chunk))) =
          decoded bytes ++ decodeUtf8 ((heldBack bytes ++ chunk).take (completeLength (heldBack bytes ++ chunk))) := by
      rcases Nat.eq_zero_or_pos (completeLength (heldBack bytes ++ chunk)) with nothing | some_bytes
      · rw [nothing,List.take_zero,List.append_nil]
        exact (List.append_nil _).symm
      · refine decodeFrom_append_of _ _ ?_
        intro s state
        obtain ⟨lower,upper,-⟩ := stateAfter_some state
        rcases heldBack_cases bytes with ⟨none,finished⟩ | ⟨first,rest,held,start⟩
        · rw [completeLength,finished,Nat.sub_zero,List.take_length,stateAfter_of_finished finished] at state
          cases state
        · obtain ⟨k,succ⟩ := Nat.exists_eq_add_one_of_ne_zero (Nat.pos_iff_ne_zero.1 some_bytes)
          rw [succ,held,List.cons_append,List.take_succ_cons]
          refine ⟨first,_,rfl,?_⟩
          have outside := not_bounds_of_start first start
          omega
    rw [decoded,taken,split]
    rfl

end CodeHarbor.Lib.Js
