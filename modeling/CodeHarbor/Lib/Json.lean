import CodeHarbor.Lib.NumberText
import CodeHarbor.Lib.Utf8
set_option autoImplicit false

namespace CodeHarbor.Lib.Js.Json

/-! `JSON.parse`, as an automaton that takes one unit after the other and keeps the arrays and
objects that are still open on a stack, and `JSON.stringify`. -/

abbrev Members := List (JsText × Value)

/-- The number that an array index stands for. -/
def index? (key : JsText) : Option Nat :=
  match key.mapM digitOf with
  | some (d :: ds) =>
    if (d = 0 ∧ ds ≠ []) ∨ 2^32-1 ≤ fromDigits (d :: ds) then none else some (fromDigits (d :: ds))
  | _ => none

/-- Whether an object lists one key before the other whatever was set first: array indices come
in their order and before the other keys. -/
def sortsBefore (a b : JsText) : Bool :=
  match index? a, index? b with
  | some m, some n => m < n
  | some _, none => true
  | none, _ => false

/-- `object[key] = value` on the members of an object, for a key that is a property of its own. -/
def setMember (key : JsText) (value : Value) : Members → Members
  | [] => [(key,value)]
  | m :: rest =>
    if m.1 = key then (key,value) :: rest
    else if sortsBefore key m.1 then (key,value) :: m :: rest
    else m :: setMember key value rest

def isBlank (u : UInt16) : Bool := u = 0x20 || u = 0x09 || u = 0x0a || u = 0x0d

def hexDigit (u : UInt16) : Option Nat :=
  let n := u.toNat
  if 0x30 ≤ n ∧ n ≤ 0x39 then some (n-0x30)
  else if 0x61 ≤ n ∧ n ≤ 0x66 then some (n-0x57)
  else if 0x41 ≤ n ∧ n ≤ 0x46 then some (n-0x37)
  else none

/-- What the unit behind a backslash stands for. -/
def unescape (u : UInt16) : Option UInt16 :=
  if u = 0x22 ∨ u = 0x5c ∨ u = 0x2f then some u
  else if u = 0x62 then some 0x08
  else if u = 0x66 then some 0x0c
  else if u = 0x6e then some 0x0a
  else if u = 0x72 then some 0x0d
  else if u = 0x74 then some 0x09
  else none

inductive Escape where
  | none
  | started
  | hex (left code : Nat)
  deriving DecidableEq, Repr

/-- Whether a string is a value or the key of a member. -/
inductive Role where
  | value
  | key (done : Members)

/-- An open array or object; a value for it is being read. -/
inductive Frame where
  | item (done : List Value)
  | member (done : Members) (key : JsText)

inductive Mode where
  | value
  | firstItem
  | key (first : Bool) (done : Members)
  | text (role : Role) (read : JsText) (escape : Escape)
  | colon (done : Members) (key : JsText)
  | word (left : JsText) (value : Value)
  | number (literal : Literal)
  | after (value : Value)

structure Parser where
  stack : List Frame
  mode : Mode

def begin (stack : List Frame) (u : UInt16) : Option Parser :=
  if u = 0x7b then some ⟨stack,.key true []⟩
  else if u = 0x5b then some ⟨stack,.firstItem⟩
  else if u = 0x22 then some ⟨stack,.text .value [] .none⟩
  else if u = 0x74 then some ⟨stack,.word (ofString "rue") (.bool true)⟩
  else if u = 0x66 then some ⟨stack,.word (ofString "alse") (.bool false)⟩
  else if u = 0x6e then some ⟨stack,.word (ofString "ull") .null⟩
  else (Literal.start u).map fun l => ⟨stack,.number l⟩

/-- A value has ended before the unit. -/
def follow (stack : List Frame) (v : Value) (u : UInt16) : Option Parser :=
  if isBlank u then some ⟨stack,.after v⟩
  else
    match stack with
    | [] => none
    | .item done :: rest =>
      if u = 0x2c then some ⟨.item (done ++ [v]) :: rest,.value⟩
      else if u = 0x5d then some ⟨rest,.after (.arr (done ++ [v]))⟩
      else none
    | .member done key :: rest =>
      if u = 0x2c then some ⟨rest,.key false (setMember key v done)⟩
      else if u = 0x7d then some ⟨rest,.after (.obj (setMember key v done))⟩
      else none

def close (stack : List Frame) (read : JsText) : Role → Parser
  | .value => ⟨stack,.after (.str read)⟩
  | .key done => ⟨stack,.colon done read⟩

def stepText (stack : List Frame) (role : Role) (read : JsText) (u : UInt16) : Escape → Option Parser
  | .none =>
    if u = 0x22 then some (close stack read role)
    else if u = 0x5c then some ⟨stack,.text role read .started⟩
    else if u < 0x20 then none
    else some ⟨stack,.text role (read ++ [u]) .none⟩
  | .started =>
    if u = 0x75 then some ⟨stack,.text role read (.hex 4 0)⟩
    else (unescape u).map fun c => ⟨stack,.text role (read ++ [c]) .none⟩
  | .hex left code =>
    (hexDigit u).map fun d =>
      if left ≤ 1 then ⟨stack,.text role (read ++ [UInt16.ofNat (code*16+d)]) .none⟩
      else ⟨stack,.text role read (.hex (left-1) (code*16+d))⟩

def step (p : Parser) (u : UInt16) : Option Parser :=
  match p.mode with
  | .value => if isBlank u then some p else begin p.stack u
  | .firstItem =>
    if isBlank u then some p
    else if u = 0x5d then some ⟨p.stack,.after (.arr [])⟩
    else begin (.item [] :: p.stack) u
  | .key first done =>
    if isBlank u then some p
    else if u = 0x22 then some ⟨p.stack,.text (.key done) [] .none⟩
    else if u = 0x7d ∧ first then some ⟨p.stack,.after (.obj [])⟩
    else none
  | .text role read escape => stepText p.stack role read u escape
  | .colon done key =>
    if isBlank u then some p
    else if u = 0x3a then some ⟨.member done key :: p.stack,.value⟩
    else none
  | .word left v =>
    match left with
    | [] => none
    | w :: rest =>
      if u = w then some ⟨p.stack,if rest = [] then .after v else .word rest v⟩ else none
  | .number l =>
    match l.next u with
    | some l => some ⟨p.stack,.number l⟩
    | none => if l.complete then follow p.stack l.value u else none
  | .after v => follow p.stack v u

/-- The value when the text may end here. -/
def result (p : Parser) : Option Value :=
  match p.stack, p.mode with
  | [], .after v => some v
  | [], .number l => if l.complete then some l.value else none
  | _, _ => none

def run (p : Parser) (s : JsText) : Option Parser := s.foldlM step p

/-- `JSON.parse`, none when it throws. -/
def parse (s : JsText) : Option Value := run ⟨[],.value⟩ s >>= result

def hexUnit (d : Nat) : UInt16 := UInt16.ofNat (if d < 10 then 0x30+d else 0x57+d)

def unicodeEscape (u : UInt16) : JsText :=
  let n := u.toNat
  [0x5c,0x75,hexUnit (n/0x1000),hexUnit (n/0x100%0x10),hexUnit (n/0x10%0x10),hexUnit (n%0x10)]

def escaped (u : UInt16) : JsText :=
  if u = 0x08 then [0x5c,0x62]
  else if u = 0x09 then [0x5c,0x74]
  else if u = 0x0a then [0x5c,0x6e]
  else if u = 0x0c then [0x5c,0x66]
  else if u = 0x0d then [0x5c,0x72]
  else if u = 0x22 ∨ u = 0x5c then [0x5c,u]
  else if u < 0x20 then unicodeEscape u
  else [u]

/-- The units of a string, surrogates without a partner escaped; `true` stands before the second
half of a pair. -/
def quoteFrom : Bool → JsText → JsText
  | _, [] => []
  | true, u :: rest => u :: quoteFrom false rest
  | false, u :: rest =>
    if isHigh u && rest.head?.any isLow then u :: quoteFrom true rest
    else if isHigh u || isLow u then unicodeEscape u ++ quoteFrom false rest
    else escaped u ++ quoteFrom false rest

def quote (s : JsText) : JsText := 0x22 :: (quoteFrom false s ++ [0x22])

/-- A line break and the indentation of a depth, nothing without a gap. -/
def newline (gap depth : Nat) : JsText :=
  if gap = 0 then [] else 0x0a :: List.replicate (gap*depth) 0x20

def bracket (opening closing : UInt16) (gap depth : Nat) : List JsText → JsText
  | [] => [opening,closing]
  | part :: parts =>
    opening :: newline gap (depth+1) ++ part ++
      parts.flatMap (fun p => 0x2c :: newline gap (depth+1) ++ p) ++ newline gap depth ++ [closing]

def memberText (gap : Nat) (key value : JsText) : JsText :=
  quote key ++ 0x3a :: (if gap = 0 then [] else [0x20]) ++ value

mutual

/-- The text of a value that JSON can carry. -/
def text (gap depth : Nat) : Value → JsText
  | .undefined => ofString "null"
  | .null => ofString "null"
  | .bool true => ofString "true"
  | .bool false => ofString "false"
  | .num n => numberText n
  | .infinity _ => ofString "null"
  | .str s => quote s
  | .arr items => bracket 0x5b 0x5d gap depth (itemTexts gap (depth+1) items)
  | .obj members => bracket 0x7b 0x7d gap depth (memberTexts gap (depth+1) members)

def itemTexts (gap depth : Nat) : List Value → List JsText
  | [] => []
  | v :: vs => text gap depth v :: itemTexts gap depth vs

def memberTexts (gap depth : Nat) : Members → List JsText
  | [] => []
  | (key,v) :: ms => memberText gap key (text gap depth v) :: memberTexts gap depth ms

end

mutual

/-- What JSON carries of a value: no member that is undefined, and null for an undefined element
and an infinite number. -/
def carried : Value → Value
  | .undefined => .null
  | .null => .null
  | .bool b => .bool b
  | .num n => .num n
  | .infinity _ => .null
  | .str s => .str s
  | .arr items => .arr (carriedItems items)
  | .obj members => .obj (carriedMembers members)

def carriedItems : List Value → List Value
  | [] => []
  | v :: vs => carried v :: carriedItems vs

def carriedMembers : Members → Members
  | [] => []
  | (_,.undefined) :: ms => carriedMembers ms
  | (key,v) :: ms => (key,carried v) :: carriedMembers ms

end

/-- `JSON.stringify(v, null, gap)` of a value other than undefined. -/
def stringify (gap : Nat) (v : Value) : JsText := text gap 0 (carried v)

/-- A value as a parser builds it: its numbers are doubles and its members stand in their
order. -/
inductive IsJson : Value → Prop where
  | null : IsJson .null
  | bool (b : Bool) : IsJson (.bool b)
  | num (n : Rat) (double : IsDouble n) : IsJson (.num n)
  | str (s : JsText) : IsJson (.str s)
  | arr (items : List Value) (json : ∀ v ∈ items, IsJson v) : IsJson (.arr items)
  | obj (members : Members)
      (ordered : members.Pairwise fun m n => m.1 ≠ n.1 ∧ sortsBefore n.1 m.1 = false)
      (json : ∀ m ∈ members, IsJson m.2) : IsJson (.obj members)

theorem lookup_cons_eq (k : JsText) (m : JsText × Value) (ms : Members) :
    (m :: ms).lookup k = if k = m.1 then some m.2 else ms.lookup k := by
  rw [List.lookup_cons]
  split_ifs with same
  · rw [beq_iff_eq.2 same]
  · rw [beq_eq_false_iff_ne.2 same]

theorem lookup_setMember (key k : JsText) (v : Value) (ms : Members) :
    (setMember key v ms).lookup k = if k = key then some v else ms.lookup k := by
  induction ms with
  | nil => exact lookup_cons_eq k (key,v) []
  | cons m ms ih =>
    rw [setMember]
    by_cases old : m.1 = key
    · rw [if_pos old,lookup_cons_eq,lookup_cons_eq,old]
      split_ifs <;> rfl
    · rw [if_neg old]
      by_cases first : sortsBefore key m.1 = true
      · rw [if_pos first,lookup_cons_eq]
      · rw [if_neg first,lookup_cons_eq,lookup_cons_eq,ih]
        split_ifs with here there
        · exact absurd (here.symm.trans there) old
        · rfl
        · rfl
        · rfl

/-! The texts that `stringify` writes read back as the value. -/

theorem run_append (p : Parser) (s t : JsText) : run p (s ++ t) = run p s >>= fun q => run q t := by
  simp [run,List.foldlM_append]

theorem run_append_of {p q : Parser} {s : JsText} (h : run p s = some q) (t : JsText) :
    run p (s ++ t) = run q t := by
  rw [run_append,h]
  rfl

theorem run_cons_of {p q : Parser} {u : UInt16} (h : step p u = some q) (s : JsText) :
    run p (u :: s) = run q s := by
  rw [run,List.foldlM_cons,h]
  rfl

/-- The modes in which blanks mean nothing. -/
def Mode.AtRest : Mode → Prop
  | .value => True
  | .firstItem => True
  | .key _ _ => True
  | .colon _ _ => True
  | .after _ => True
  | _ => False

theorem step_blank {p : Parser} {u : UInt16} (rest : p.mode.AtRest) (blank : isBlank u = true) :
    step p u = some p := by
  obtain ⟨stack,mode⟩ := p
  cases mode <;> first | exact rest.elim | simp [step,follow,blank]

theorem run_blanks {p : Parser} {s : JsText} (rest : p.mode.AtRest) (blank : ∀ u ∈ s, isBlank u = true) :
    run p s = some p := by
  induction s with
  | nil => rfl
  | cons u s ih =>
    rw [run_cons_of (step_blank rest (blank u (by simp)))]
    exact ih fun u mem => blank u (by simp [mem])

theorem newline_blank {gap depth : Nat} : ∀ u ∈ newline gap depth, isBlank u = true := by
  unfold newline
  split_ifs
  · simp
  · intro u mem
    rcases List.mem_cons.1 mem with rfl | mem
    · rfl
    · rw [List.eq_of_mem_replicate mem]
      rfl

section strings

variable {stack : List Frame} {role : Role}

theorem hexDigit_hexUnit {d : Nat} (h : d < 16) : hexDigit (hexUnit d) = some d := by
  interval_cases d <;> rfl

theorem step_hex {read : JsText} {code : Nat} (left : Nat) {u : UInt16} {d : Nat} (h : hexDigit u = some d) :
    step ⟨stack,.text role read (.hex (left+2) code)⟩ u =
      some ⟨stack,.text role read (.hex (left+1) (code*16+d))⟩ := by
  simp [step,stepText,h]

theorem step_lastHex {read : JsText} {code : Nat} {u : UInt16} {d : Nat} (h : hexDigit u = some d) :
    step ⟨stack,.text role read (.hex 1 code)⟩ u =
      some ⟨stack,.text role (read ++ [UInt16.ofNat (code*16+d)]) .none⟩ := by
  simp [step,stepText,h]

theorem run_unicodeEscape (read : JsText) (u : UInt16) :
    run ⟨stack,.text role read .none⟩ (unicodeEscape u) = some ⟨stack,.text role (read ++ [u]) .none⟩ := by
  have size : u.toNat < 0x10000 := u.toNat_lt
  have code : (((0*16+u.toNat/0x1000)*16+u.toNat/0x100%0x10)*16+u.toNat/0x10%0x10)*16+u.toNat%0x10 =
      u.toNat := by omega
  have unit : UInt16.ofNat u.toNat = u := UInt16.ofNat_toNat
  have d₁ := hexDigit_hexUnit (show u.toNat/0x1000 < 16 by omega)
  have d₂ := hexDigit_hexUnit (show u.toNat/0x100%0x10 < 16 by omega)
  have d₃ := hexDigit_hexUnit (show u.toNat/0x10%0x10 < 16 by omega)
  have d₄ := hexDigit_hexUnit (show u.toNat%0x10 < 16 by omega)
  rw [unicodeEscape,run_cons_of rfl,run_cons_of rfl,run_cons_of (step_hex 2 d₁),run_cons_of (step_hex 1 d₂),
    run_cons_of (step_hex 0 d₃),run_cons_of (step_lastHex d₄),code,unit]
  rfl

theorem run_escaped (read : JsText) (u : UInt16) :
    run ⟨stack,.text role read .none⟩ (escaped u) = some ⟨stack,.text role (read ++ [u]) .none⟩ := by
  unfold escaped
  split_ifs with h₁ h₂ h₃ h₄ h₅ h₆ h₇
  · simp [h₁,run,step,stepText,unescape]
  · simp [h₂,run,step,stepText,unescape]
  · simp [h₃,run,step,stepText,unescape]
  · simp [h₄,run,step,stepText,unescape]
  · simp [h₅,run,step,stepText,unescape]
  · rcases h₆ with rfl | rfl <;> simp [run,step,stepText,unescape]
  · exact run_unicodeEscape read u
  · rw [not_or] at h₆
    simp [run,step,stepText,h₆.1,h₆.2,h₇]

theorem step_plain {read : JsText} {u : UInt16} (h : 0xd800 ≤ u.toNat) :
    step ⟨stack,.text role read .none⟩ u = some ⟨stack,.text role (read ++ [u]) .none⟩ := by
  have apart : ∀ n : UInt16, n.toNat < 0xd800 → u ≠ n := by
    rintro n small rfl
    omega
  have large : ¬ u < 0x20 := by
    rw [UInt16.lt_iff_toNat_lt]
    simp
    omega
  simp [step,stepText,apart 0x22 (by decide),apart 0x5c (by decide),large]

theorem run_quoteFrom (read : JsText) {low : Bool} {s : JsText} (h : low = true → s.head?.any isLow = true) :
    run ⟨stack,.text role read .none⟩ (quoteFrom low s) = some ⟨stack,.text role (read ++ s) .none⟩ := by
  induction s generalizing low read with
  | nil => cases low <;> simp [quoteFrom,run]
  | cons u s ih =>
    have snoc : read ++ u :: s = (read ++ [u]) ++ s := by simp
    cases low with
    | true =>
      have surrogate : 0xd800 ≤ u.toNat := by
        have := h rfl
        simp [isLow] at this
        omega
      rw [quoteFrom,run_cons_of (step_plain surrogate),snoc]
      exact ih _ (by simp)
    | false =>
      rw [quoteFrom,snoc]
      split_ifs with pair lone
      · simp only [Bool.and_eq_true,isHigh,decide_eq_true_eq] at pair
        rw [run_cons_of (step_plain pair.1.1)]
        exact ih _ fun _ => pair.2
      · rw [run_append_of (run_unicodeEscape read u)]
        exact ih _ (by simp)
      · rw [run_append_of (run_escaped read u)]
        exact ih _ (by simp)

theorem run_quoted (s : JsText) :
    run ⟨stack,.text role [] .none⟩ (quoteFrom false s ++ [0x22]) = some (close stack s role) := by
  rw [run_append_of (run_quoteFrom [] (by simp))]
  rfl

end strings

/-- The mode stands for a value that may end here. -/
def Mode.Holds (mode : Mode) (v : Value) : Prop :=
  mode = .after v ∨ ∃ l, mode = .number l ∧ l.complete = true ∧ l.value = v

/-- What may stand behind a value. -/
def Stops (u : UInt16) : Prop := isBlank u = true ∨ u = 0x2c ∨ u = 0x5d ∨ u = 0x7d

theorem next_of_stops {l : Literal} {u : UInt16} (complete : l.complete = true) (h : Stops u) :
    l.next u = none := by
  have units : u = 0x20 ∨ u = 0x09 ∨ u = 0x0a ∨ u = 0x0d ∨ u = 0x2c ∨ u = 0x5d ∨ u = 0x7d := by
    simpa [Stops,isBlank,or_assoc] using h
  obtain ⟨part,_,_,_,_,_⟩ := l
  cases part with
  | sign | point | mark | markSign => cases complete
  | zero | whole | fraction | power => rcases units with rfl | rfl | rfl | rfl | rfl | rfl | rfl <;> rfl

theorem step_holds {mode : Mode} {v : Value} (h : mode.Holds v) {u : UInt16} (stops : Stops u)
    (stack : List Frame) : step ⟨stack,mode⟩ u = follow stack v u := by
  obtain rfl | ⟨l,rfl,complete,rfl⟩ := h
  · rfl
  · simp [step,next_of_stops complete stops,complete]

theorem run_literal {stack : List Frame} {l r : Literal} {s : JsText}
    (h : s.foldlM Literal.next l = some r) : run ⟨stack,.number l⟩ s = some ⟨stack,.number r⟩ := by
  induction s generalizing l with
  | nil =>
    cases Option.some.inj h
    rfl
  | cons u s ih =>
    rw [List.foldlM_cons] at h
    obtain ⟨m,next,rest⟩ := Option.bind_eq_some_iff.1 h
    rw [run_cons_of (q := ⟨stack,.number m⟩) (by simp [step,next])]
    exact ih rest

theorem start_units {u : UInt16} {l : Literal} (h : Literal.start u = some l) :
    isBlank u = false ∧ u ≠ 0x5d ∧ ∀ stack, begin stack u = some ⟨stack,.number l⟩ := by
  have units : u = 0x2d ∨ (0x30 ≤ u.toNat ∧ u.toNat ≤ 0x39) := by
    simp only [Literal.start] at h
    split_ifs at h with minus zero
    · exact .inl minus
    · exact .inr (by rw [zero]; decide)
    · obtain ⟨d,digit,-⟩ := Option.map_eq_some_iff.1 h
      simp only [digitOf] at digit
      split_ifs at digit with range
      exact .inr range
  have apart : ∀ n : UInt16, n ≠ 0x2d → (n.toNat < 0x30 ∨ 0x39 < n.toNat) → u ≠ n := by
    rintro n minus outside rfl
    rcases units with rfl | range
    · exact minus rfl
    · omega
  refine ⟨?_,apart _ (by decide) (by decide),fun stack => ?_⟩
  · simp [isBlank,apart 0x20 (by decide) (by decide),apart 0x09 (by decide) (by decide),
      apart 0x0a (by decide) (by decide),apart 0x0d (by decide) (by decide)]
  · simp [begin,h,apart 0x7b (by decide) (by decide),apart 0x5b (by decide) (by decide),
      apart 0x22 (by decide) (by decide),apart 0x74 (by decide) (by decide),
      apart 0x66 (by decide) (by decide),apart 0x6e (by decide) (by decide)]

/-- A text that reads as a value wherever one may stand. -/
structure Reads (s : JsText) (v : Value) : Prop where
  begins : ∃ u rest, s = u :: rest ∧ isBlank u = false ∧ u ≠ 0x5d
  ends : ∀ stack, ∃ mode, run ⟨stack,.value⟩ s = some ⟨stack,mode⟩ ∧ mode.Holds v

theorem Reads.firstItem {s : JsText} {v : Value} (h : Reads s v) (stack : List Frame) :
    run ⟨stack,.firstItem⟩ s = run ⟨.item [] :: stack,.value⟩ s := by
  obtain ⟨u,rest,rfl,solid,closing⟩ := h.begins
  simp [run,List.foldlM_cons,step,solid,closing]

theorem reads_numberText {x : Rat} (h : IsDouble x) : Reads (numberText x) (.num x) := by
  obtain ⟨l,read,complete,value⟩ := readLiteral_numberText h
  cases spelled : numberText x with
  | nil =>
    rw [spelled] at read
    cases read
  | cons u rest =>
    rw [spelled] at read
    obtain ⟨first,starts,rest'⟩ := Option.bind_eq_some_iff.1 read
    have units := start_units starts
    refine ⟨⟨u,rest,rfl,units.1,units.2.1⟩,fun stack => ⟨.number l,?_,.inr ⟨l,rfl,complete,value⟩⟩⟩
    rw [run_cons_of (q := ⟨stack,.number first⟩) (by simp [step,units.1,units.2.2])]
    exact run_literal rest'

theorem reads_quote (s : JsText) : Reads (quote s) (.str s) where
  begins := ⟨0x22,_,rfl,rfl,by decide⟩
  ends := fun stack => ⟨.after (.str s),run_quoted s,.inl rfl⟩

theorem reads_word {s : JsText} {v : Value} (begins : ∃ u rest, s = u :: rest ∧ isBlank u = false ∧ u ≠ 0x5d)
    (ends : ∀ stack, run ⟨stack,.value⟩ s = some ⟨stack,.after v⟩) : Reads s v :=
  ⟨begins,fun stack => ⟨_,ends stack,.inl rfl⟩⟩

theorem run_after {stack : List Frame} {mode : Mode} {v : Value} {blanks rest : JsText} {u : UInt16}
    (holds : mode.Holds v) (blank : ∀ w ∈ blanks, isBlank w = true) (stops : Stops u) :
    run ⟨stack,mode⟩ (blanks ++ u :: rest) = follow stack v u >>= fun q => run q rest := by
  induction blanks generalizing mode with
  | nil =>
    rw [List.nil_append,run,List.foldlM_cons,step_holds holds stops]
    rfl
  | cons w blanks ih =>
    have first : step ⟨stack,mode⟩ w = some ⟨stack,.after v⟩ := by
      rw [step_holds holds (.inl (blank w (by simp)))]
      simp [follow,blank w (by simp)]
    rw [List.cons_append,run_cons_of first]
    exact ih (.inl rfl) fun w mem => blank w (by simp [mem])

theorem run_comma {stack : List Frame} {mode next : Mode} {v : Value} {frame : Frame} {gap depth : Nat}
    {frames : List Frame} (holds : mode.Holds v) (comma : follow (frame :: stack) v 0x2c = some ⟨frames,next⟩)
    (rest : next.AtRest) (s : JsText) :
    run ⟨frame :: stack,mode⟩ (0x2c :: newline gap depth ++ s) = run ⟨frames,next⟩ s := by
  have first : run ⟨frame :: stack,mode⟩ ([] ++ 0x2c :: (newline gap depth ++ s)) =
      follow (frame :: stack) v 0x2c >>= fun q => run q (newline gap depth ++ s) :=
    run_after holds (by simp) (.inr (.inl rfl))
  rw [comma] at first
  exact first.trans (run_append_of (run_blanks rest newline_blank) s)

theorem run_items {stack : List Frame} {gap depth : Nat} {texts : List JsText} {vs : List Value}
    (h : List.Forall₂ Reads texts vs) {done : List Value} {v : Value} {mode : Mode} (holds : mode.Holds v) :
    run ⟨.item done :: stack,mode⟩
      (texts.flatMap (fun p => 0x2c :: newline gap (depth+1) ++ p) ++ newline gap depth ++ [0x5d]) =
        some ⟨stack,.after (.arr (done ++ v :: vs))⟩ := by
  induction h generalizing done v mode with
  | nil => exact run_after holds newline_blank (.inr (.inr (.inl rfl)))
  | @cons p w texts vs reads _ ih =>
    obtain ⟨next,read,ends⟩ := reads.ends (.item (done ++ [v]) :: stack)
    rw [List.flatMap_cons,List.append_assoc,List.append_assoc,List.append_assoc]
    have comma : follow (.item done :: stack) v 0x2c = some ⟨.item (done ++ [v]) :: stack,.value⟩ := rfl
    rw [run_comma holds comma trivial,run_append_of read,← List.append_assoc,ih ends]
    simp

theorem setMember_last {key : JsText} {v : Value} {done : Members}
    (h : ∀ m ∈ done, m.1 ≠ key ∧ sortsBefore key m.1 = false) :
    setMember key v done = done ++ [(key,v)] := by
  induction done with
  | nil => rfl
  | cons m done ih =>
    have first := h m (by simp)
    rw [setMember,if_neg first.1,first.2,ih fun m mem => h m (by simp [mem])]
    rfl

def Spelled (gap : Nat) (part : JsText) (m : JsText × Value) : Prop :=
  ∃ s, part = memberText gap m.1 s ∧ Reads s m.2

theorem run_member {stack : List Frame} {gap : Nat} {first : Bool} {done : Members} {part : JsText}
    {m : JsText × Value} (h : Spelled gap part m) :
    ∃ mode, run ⟨stack,.key first done⟩ part = some ⟨.member done m.1 :: stack,mode⟩ ∧ mode.Holds m.2 := by
  obtain ⟨s,rfl,reads⟩ := h
  obtain ⟨mode,read,holds⟩ := reads.ends (.member done m.1 :: stack)
  refine ⟨mode,?_,holds⟩
  have key : run ⟨stack,.text (.key done) [] .none⟩ (quoteFrom false m.1 ++ [0x22]) =
      some (close stack m.1 (.key done)) := run_quoted m.1
  have blank : ∀ u ∈ (if gap = 0 then [] else [0x20] : JsText), isBlank u = true := by
    split_ifs <;> simp [isBlank]
  have split : memberText gap m.1 s =
      0x22 :: (quoteFrom false m.1 ++ [0x22] ++ (0x3a :: (if gap = 0 then [] else [0x20]) ++ s)) := by
    simp [memberText,quote]
  have colon : run ⟨stack,.colon done m.1⟩ [0x3a] = some ⟨.member done m.1 :: stack,.value⟩ := rfl
  rw [split,run_cons_of (q := ⟨stack,.text (.key done) [] .none⟩) rfl,run_append_of key,← List.singleton_append,
    List.append_assoc,close,run_append_of colon,
    run_append_of (run_blanks (p := ⟨.member done m.1 :: stack,.value⟩) trivial blank)]
  exact read

theorem run_members {stack : List Frame} {gap depth : Nat} {parts : List JsText} {ms : Members}
    (h : List.Forall₂ (Spelled gap) parts ms) {done : Members} {m : JsText × Value} {mode : Mode}
    (holds : mode.Holds m.2)
    (ordered : (done ++ m :: ms).Pairwise fun m n => m.1 ≠ n.1 ∧ sortsBefore n.1 m.1 = false) :
    run ⟨.member done m.1 :: stack,mode⟩
      (parts.flatMap (fun p => 0x2c :: newline gap (depth+1) ++ p) ++ newline gap depth ++ [0x7d]) =
        some ⟨stack,.after (.obj (done ++ m :: ms))⟩ := by
  have last : setMember m.1 m.2 done = done ++ [m] :=
    setMember_last fun n mem => (List.pairwise_append.1 ordered).2.2 n mem m (by simp)
  induction h generalizing done m mode with
  | nil =>
    refine (run_after holds newline_blank (.inr (.inr (.inr rfl)))).trans ?_
    simp [follow,isBlank,last,run]
  | @cons p n parts ms spelled _ ih =>
    have comma : follow (.member done m.1 :: stack) m.2 0x2c = some ⟨stack,.key false (done ++ [m])⟩ := by
      simp [follow,isBlank,last]
    obtain ⟨next,read,ends⟩ : ∃ mode, run ⟨stack,.key false (done ++ [m])⟩ p =
        some ⟨.member (done ++ [m]) n.1 :: stack,mode⟩ ∧ mode.Holds n.2 := run_member spelled
    have rest : ((done ++ [m]) ++ n :: ms).Pairwise fun m n => m.1 ≠ n.1 ∧ sortsBefore n.1 m.1 = false := by
      simpa using ordered
    rw [List.flatMap_cons,List.append_assoc,List.append_assoc,List.append_assoc,run_comma holds comma trivial,
      run_append_of read,← List.append_assoc,
      ih ends rest (setMember_last fun k mem => (List.pairwise_append.1 rest).2.2 k mem n (by simp))]
    simp

theorem forall₂_itemTexts {gap depth : Nat} {items : List Value}
    (h : ∀ v ∈ items, Reads (text gap depth v) v) : List.Forall₂ Reads (itemTexts gap depth items) items := by
  induction items with
  | nil => exact .nil
  | cons v items ih => exact .cons (h v (by simp)) (ih fun v mem => h v (by simp [mem]))

theorem forall₂_memberTexts {gap depth : Nat} {members : Members}
    (h : ∀ m ∈ members, Reads (text gap depth m.2) m.2) :
    List.Forall₂ (Spelled gap) (memberTexts gap depth members) members := by
  induction members with
  | nil => exact .nil
  | cons m members ih => exact .cons ⟨_,rfl,h m (by simp)⟩ (ih fun m mem => h m (by simp [mem]))

theorem reads_items {gap depth : Nat} {texts : List JsText} {vs : List Value} (h : List.Forall₂ Reads texts vs) :
    Reads (bracket 0x5b 0x5d gap depth texts) (.arr vs) := by
  cases h with
  | nil => exact reads_word ⟨_,_,rfl,rfl,by decide⟩ fun stack => rfl
  | @cons p v texts vs reads more =>
    refine reads_word ⟨_,_,rfl,rfl,by decide⟩ fun stack => ?_
    obtain ⟨mode,read,holds⟩ := reads.ends (.item [] :: stack)
    rw [bracket,List.append_assoc,List.append_assoc,List.append_assoc,List.cons_append,
      run_cons_of (q := ⟨stack,.firstItem⟩) rfl,
      run_append_of (run_blanks (p := ⟨stack,.firstItem⟩) trivial newline_blank),
      run_append_of ((reads.firstItem stack).trans read),← List.append_assoc,run_items more holds]
    rfl

theorem reads_members {gap depth : Nat} {parts : List JsText} {ms : Members}
    (h : List.Forall₂ (Spelled gap) parts ms)
    (ordered : ms.Pairwise fun m n => m.1 ≠ n.1 ∧ sortsBefore n.1 m.1 = false) :
    Reads (bracket 0x7b 0x7d gap depth parts) (.obj ms) := by
  cases h with
  | nil => exact reads_word ⟨_,_,rfl,rfl,by decide⟩ fun stack => rfl
  | @cons p m parts ms spelled more =>
    refine reads_word ⟨_,_,rfl,rfl,by decide⟩ fun stack => ?_
    obtain ⟨mode,read,holds⟩ : ∃ mode, run ⟨stack,.key true []⟩ p =
        some ⟨.member [] m.1 :: stack,mode⟩ ∧ mode.Holds m.2 := run_member spelled
    rw [bracket,List.append_assoc,List.append_assoc,List.append_assoc,List.cons_append,
      run_cons_of (q := ⟨stack,.key true []⟩) rfl,
      run_append_of (run_blanks (p := ⟨stack,.key true []⟩) trivial newline_blank),
      run_append_of read,← List.append_assoc,run_members more holds (by simpa using ordered)]
    rfl

theorem reads_text {v : Value} (h : IsJson v) (gap depth : Nat) : Reads (text gap depth v) v := by
  induction h generalizing depth with
  | null => exact reads_word ⟨_,_,rfl,rfl,by decide⟩ fun stack => rfl
  | bool b => cases b <;> exact reads_word ⟨_,_,rfl,rfl,by decide⟩ fun stack => rfl
  | num n double => exact reads_numberText double
  | str s => exact reads_quote s
  | arr items json ih => exact reads_items (forall₂_itemTexts fun v mem => ih v mem (depth+1))
  | obj members ordered json ih =>
    exact reads_members (forall₂_memberTexts fun m mem => ih m mem (depth+1)) ordered

theorem parse_of_reads {s : JsText} {v : Value} (h : Reads s v) : parse s = some v := by
  obtain ⟨mode,read,holds⟩ := h.ends []
  rw [parse,read]
  obtain rfl | ⟨l,rfl,complete,rfl⟩ := holds
  · rfl
  · simp [result,complete]

/-- What `JSON.stringify` writes `JSON.parse` reads. -/
theorem parse_text {v : Value} (h : IsJson v) (gap : Nat) : parse (text gap 0 v) = some v :=
  parse_of_reads (reads_text h gap 0)

/-- A JavaScript value whose numbers are doubles and whose members stand in their order. -/
inductive IsValue : Value → Prop where
  | undefined : IsValue .undefined
  | null : IsValue .null
  | bool (b : Bool) : IsValue (.bool b)
  | num (n : Rat) (double : IsDouble n) : IsValue (.num n)
  | infinity (negative : Bool) : IsValue (.infinity negative)
  | str (s : JsText) : IsValue (.str s)
  | arr (items : List Value) (values : ∀ v ∈ items, IsValue v) : IsValue (.arr items)
  | obj (members : Members)
      (ordered : members.Pairwise fun m n => m.1 ≠ n.1 ∧ sortsBefore n.1 m.1 = false)
      (values : ∀ m ∈ members, IsValue m.2) : IsValue (.obj members)

theorem carriedItems_eq (items : List Value) : carriedItems items = items.map carried := by
  induction items with
  | nil => rfl
  | cons v items ih => rw [carriedItems,ih,List.map_cons]

theorem carriedMembers_eq (ms : Members) :
    carriedMembers ms = (ms.filter fun m => m.2.isDefined).map fun m => (m.1,carried m.2) := by
  induction ms with
  | nil => rfl
  | cons m ms ih =>
    obtain ⟨key,v⟩ := m
    cases v <;> simp [carriedMembers,Value.isDefined,ih]

theorem lookup_carriedMembers {ms : Members} (apart : ms.Pairwise fun m n => m.1 ≠ n.1) {key : JsText}
    {v : Value} (h : ms.lookup key = some v) (defined : v.isDefined = true) :
    (carriedMembers ms).lookup key = some (carried v) := by
  rw [carriedMembers_eq]
  induction ms with
  | nil => cases h
  | cons m ms ih =>
    have rest := (List.pairwise_cons.1 apart).2
    rw [lookup_cons_eq] at h
    by_cases kept : m.2.isDefined = true
    · rw [List.filter_cons_of_pos (by exact kept),List.map_cons,lookup_cons_eq]
      split_ifs at h ⊢ with here
      · rw [Option.some.inj h]
      · exact ih rest h
    · rw [List.filter_cons_of_neg (by exact kept)]
      split_ifs at h with here
      · exact absurd ((Option.some.inj h).symm ▸ defined) kept
      · exact ih rest h

theorem mem_setMember {key : JsText} {v : Value} {ms : Members} {m : JsText × Value}
    (h : m ∈ setMember key v ms) : m = (key,v) ∨ m ∈ ms := by
  induction ms with
  | nil => exact .inl (List.mem_singleton.1 h)
  | cons n ms ih =>
    rw [setMember] at h
    split_ifs at h
    · rcases List.mem_cons.1 h with rfl | mem
      · exact .inl rfl
      · exact .inr (by simp [mem])
    · rcases List.mem_cons.1 h with rfl | mem
      · exact .inl rfl
      · exact .inr mem
    · rcases List.mem_cons.1 h with rfl | mem
      · exact .inr (by simp)
      · exact (ih mem).imp_right fun mem => by simp [mem]

theorem setMember_pairwise {key : JsText} {v : Value} {ms : Members} (name : index? key = none)
    (h : ms.Pairwise fun m n => m.1 ≠ n.1 ∧ sortsBefore n.1 m.1 = false) :
    (setMember key v ms).Pairwise fun m n => m.1 ≠ n.1 ∧ sortsBefore n.1 m.1 = false := by
  have last : ∀ k, sortsBefore key k = false := by
    intro k
    simp only [sortsBefore,name]
  induction ms with
  | nil => exact List.pairwise_singleton ..
  | cons m ms ih =>
    obtain ⟨head,tail⟩ := List.pairwise_cons.1 h
    rw [setMember,last,if_neg Bool.false_ne_true]
    split_ifs with same
    · exact List.pairwise_cons.2 ⟨fun n mem => same ▸ head n mem,tail⟩
    · refine List.pairwise_cons.2 ⟨fun n mem => ?_,ih tail⟩
      rcases mem_setMember mem with rfl | mem
      · exact ⟨same,last m.1⟩
      · exact head n mem

theorem isJson_carried {v : Value} (h : IsValue v) : IsJson (carried v) := by
  induction h with
  | undefined | null | infinity => exact .null
  | bool b => exact .bool b
  | num n double => exact .num n double
  | str s => exact .str s
  | arr items values ih =>
    refine .arr _ ?_
    rw [carriedItems_eq]
    intro w mem
    obtain ⟨v,listed,rfl⟩ := List.mem_map.1 mem
    exact ih v listed
  | obj members ordered values ih =>
    rw [carried,carriedMembers_eq]
    refine .obj _ (List.pairwise_map.2 (ordered.filter _)) ?_
    intro m mem
    obtain ⟨n,listed,rfl⟩ := List.mem_map.1 mem
    exact ih n (List.mem_filter.1 listed).1

/-! What holds of the parts of a text holds of the text. -/

/-- A unit of ASCII that is no control character. -/
def Plain (u : UInt16) : Prop := 0x20 ≤ u.toNat ∧ u.toNat < 0x80

instance (u : UInt16) : Decidable (Plain u) := inferInstanceAs (Decidable (_ ∧ _))

theorem plain_digitText {ds : List Nat} (h : ∀ d ∈ ds, d < 10) : ∀ u ∈ digitText ds, Plain u := by
  intro u mem
  obtain ⟨d,listed,rfl⟩ := List.mem_map.1 mem
  have small := h d listed
  rw [Plain,digitUnit,UInt16.toNat_ofNat_of_lt' (show _ < 0x10000 by omega)]
  omega

theorem plain_powerText (e : Int) : ∀ u ∈ powerText e, Plain u := by
  have digits : ∀ d ∈ (Nat.digits 10 e.natAbs).reverse, d < 10 := by
    intro d mem
    exact Nat.digits_lt_base (by norm_num) (List.mem_reverse.1 mem)
  intro u mem
  simp only [powerText,List.mem_cons] at mem
  rcases mem with rfl | rfl | mem
  · decide
  · split_ifs <;> decide
  · exact plain_digitText digits u mem

theorem plain_decimalText {d : Decimal} (h : ∀ e ∈ d.digits, e < 10) : ∀ u ∈ d.text, Plain u := by
  have zeros : ∀ n, ∀ e ∈ List.replicate n 0, e < 10 := by
    intro n e mem
    rw [List.eq_of_mem_replicate mem]
    norm_num
  intro u mem
  unfold Decimal.text at mem
  split_ifs at mem
  · refine plain_digitText (fun e listed => ?_) u mem
    exact (List.mem_append.1 listed).elim (h e) (zeros _ e)
  · rcases List.mem_append.1 mem with mem | mem
    · exact plain_digitText (fun e listed => h e (List.mem_of_mem_take listed)) u mem
    · rcases List.mem_cons.1 mem with rfl | mem
      · decide
      · exact plain_digitText (fun e listed => h e (List.mem_of_mem_drop listed)) u mem
  · simp only [List.mem_cons] at mem
    rcases mem with rfl | rfl | mem
    · decide
    · decide
    · refine plain_digitText (fun e listed => ?_) u mem
      exact (List.mem_append.1 listed).elim (zeros _ e) (h e)
  · rcases List.mem_append.1 mem with mem | mem
    · rw [List.append_nil] at mem
      exact plain_digitText (fun e listed => h e (List.mem_of_mem_take listed)) u mem
    · exact plain_powerText _ u mem
  · simp only [List.mem_append,List.mem_cons] at mem
    rcases mem with (mem | rfl | mem) | mem
    · exact plain_digitText (fun e listed => h e (List.mem_of_mem_take listed)) u mem
    · decide
    · exact plain_digitText (fun e listed => h e (List.mem_of_mem_drop listed)) u mem
    · exact plain_powerText _ u mem

theorem plain_numberText (x : Rat) : ∀ u ∈ numberText x, Plain u := by
  have digits : ∀ number, ∀ d ∈ (decimal number).digits, d < 10 := by
    intro number d mem
    have listed := (List.dropWhile_sublist _).subset (List.mem_reverse.1 mem)
    exact Nat.digits_lt_base (by norm_num) listed
  unfold numberText
  split_ifs
  · decide
  · intro u mem
    rcases List.mem_cons.1 mem with rfl | mem
    · decide
    · exact plain_decimalText (digits _) u mem
  · exact plain_decimalText (digits _)

theorem plain_unicodeEscape (u : UInt16) : ∀ v ∈ unicodeEscape u, Plain v := by
  have hex : ∀ d, d < 16 → Plain (hexUnit d) := by
    intro d small
    interval_cases d <;> decide
  have size : u.toNat < 0x10000 := u.toNat_lt
  intro v mem
  simp only [unicodeEscape,List.mem_cons,List.not_mem_nil,or_false] at mem
  rcases mem with rfl | rfl | rfl | rfl | rfl | rfl
  · decide
  · decide
  all_goals exact hex _ (by omega)

structure Kept (gap : Nat) (P : JsText → Prop) : Prop where
  nil : P []
  append : ∀ s t, P s → P t → P (s ++ t)
  plain : ∀ u, Plain u → P [u]
  newline : ∀ depth, P (newline gap depth)
  quote : ∀ s, P (quote s)

namespace Kept

variable {gap : Nat} {P : JsText → Prop}

theorem units (h : Kept gap P) {s : JsText} (plain : ∀ u ∈ s, Plain u) : P s := by
  induction s with
  | nil => exact h.nil
  | cons u s ih =>
    exact h.append [u] s (h.plain u (plain u (by simp))) (ih fun v mem => plain v (by simp [mem]))

theorem bracket (h : Kept gap P) {opening closing : UInt16} (ends : Plain opening ∧ Plain closing) {depth : Nat}
    {parts : List JsText} (all : ∀ p ∈ parts, P p) : P (bracket opening closing gap depth parts) := by
  cases parts with
  | nil => exact h.append _ _ (h.plain _ ends.1) (h.plain _ ends.2)
  | cons part parts =>
    have rest : P (parts.flatMap fun p => 0x2c :: Json.newline gap (depth+1) ++ p) := by
      have more := fun p mem => all p (List.mem_cons_of_mem part mem)
      clear all
      induction parts with
      | nil => exact h.nil
      | cons p parts ih =>
        refine h.append _ _ (h.append _ _ ?_ (more p (by simp))) (ih fun p mem => more p (by simp [mem]))
        exact h.append [0x2c] _ (h.plain _ (by decide)) (h.newline _)
    have opened := h.append _ _ (h.append [opening] _ (h.plain _ ends.1) (h.newline (depth+1))) (all part (by simp))
    exact h.append _ _ (h.append _ _ (h.append _ _ opened rest) (h.newline depth)) (h.plain _ ends.2)

theorem memberText (h : Kept gap P) (key : JsText) {value : JsText} (hv : P value) :
    P (memberText gap key value) := by
  have colon : P (0x3a :: if gap = 0 then [] else [0x20]) := by
    refine h.units ?_
    split_ifs <;> decide
  rw [Json.memberText,List.append_assoc]
  exact h.append _ _ (h.quote key) (h.append _ _ colon hv)

theorem text (h : Kept gap P) {v : Value} (json : IsJson v) (depth : Nat) : P (text gap depth v) := by
  induction json generalizing depth with
  | null => exact h.units (s := ofString "null") (by decide)
  | bool b =>
    cases b with
    | false => exact h.units (s := ofString "false") (by decide)
    | true => exact h.units (s := ofString "true") (by decide)
  | num n _ => exact h.units (plain_numberText n)
  | str s => exact h.quote s
  | arr items _ ih =>
    refine h.bracket (by decide) ?_
    clear * - ih
    induction items with
    | nil => nofun
    | cons v items more =>
      intro p mem
      rcases List.mem_cons.1 mem with rfl | mem
      · exact ih v (by simp) _
      · exact more (fun w listed => ih w (by simp [listed])) p mem
  | obj members _ _ ih =>
    refine h.bracket (by decide) ?_
    clear * - ih h
    induction members with
    | nil => nofun
    | cons m members more =>
      intro p mem
      rcases List.mem_cons.1 mem with rfl | mem
      · exact h.memberText _ (ih m (by simp) _)
      · exact more (fun n listed => ih n (by simp [listed])) p mem

end Kept

theorem wellFormed_plain {s : JsText} (h : ∀ u ∈ s, Plain u) : WellFormed s :=
  .of_small fun u mem => (h u mem).2.trans (by norm_num)

theorem wellFormed_escaped {u : UInt16} (high : isHigh u = false) (low : isLow u = false) :
    WellFormed (escaped u) := by
  unfold escaped
  split_ifs with h₁ h₂ h₃ h₄ h₅ h₆ h₇
  · exact .of_small (by decide)
  · exact .of_small (by decide)
  · exact .of_small (by decide)
  · exact .of_small (by decide)
  · exact .of_small (by decide)
  · rcases h₆ with rfl | rfl <;> exact .of_small (by decide)
  · exact wellFormed_plain (plain_unicodeEscape u)
  · exact .unit high low

theorem wellFormed_single (u : UInt16) :
    WellFormed (if isHigh u || isLow u then unicodeEscape u else escaped u) := by
  split_ifs with lone
  · exact wellFormed_plain (plain_unicodeEscape u)
  · rw [Bool.or_eq_true,not_or,Bool.not_eq_true,Bool.not_eq_true] at lone
    exact wellFormed_escaped lone.1 lone.2

theorem quoteFrom_single {u : UInt16} {rest : JsText} (h : (isHigh u && rest.head?.any isLow) = false) :
    quoteFrom false (u :: rest) =
      (if isHigh u || isLow u then unicodeEscape u else escaped u) ++ quoteFrom false rest := by
  rw [quoteFrom,h,if_neg Bool.false_ne_true]
  split_ifs <;> rfl

theorem wellFormed_quote (s : JsText) : WellFormed (quote s) := by
  have inner : WellFormed (quoteFrom false s) := by
    induction s using toRunes.induct with
    | case1 => exact .nil
    | case2 u =>
      rw [quoteFrom_single (by simp)]
      exact (wellFormed_single u).append .nil
    | case3 u v rest pair ih =>
      rw [Bool.and_eq_true] at pair
      have split : quoteFrom false (u :: v :: rest) = [u,v] ++ quoteFrom false rest := by
        simp [quoteFrom,pair]
      rw [split]
      exact (WellFormed.pair pair.1 pair.2).append ih
    | case4 u v rest single ih =>
      rw [quoteFrom_single (by simpa using single)]
      exact (wellFormed_single u).append ih
  exact (WellFormed.of_small (s := [0x22]) (by decide)).append (inner.append (.of_small (by decide)))

theorem wellFormed_kept (gap : Nat) : Kept gap WellFormed where
  nil := .nil
  append := fun _ _ => .append
  plain := fun u plain => wellFormed_plain (by simpa using plain)
  newline := fun depth => by
    refine .of_small fun u mem => ?_
    have blank := newline_blank u mem
    simp only [isBlank,Bool.or_eq_true,decide_eq_true_eq] at blank
    rcases blank with ((rfl | rfl) | rfl) | rfl <;> decide
  quote := wellFormed_quote

theorem wellFormed_stringify {v : Value} (h : IsValue v) (gap : Nat) : WellFormed (stringify gap v) :=
  (wellFormed_kept gap).text (isJson_carried h) 0

theorem printed_single (u : UInt16) :
    ∀ v ∈ (if isHigh u || isLow u then unicodeEscape u else escaped u), 0x20 ≤ v.toNat := by
  intro v mem
  split_ifs at mem
  · exact (plain_unicodeEscape u v mem).1
  · unfold escaped at mem
    split_ifs at mem with h₁ h₂ h₃ h₄ h₅ h₆ h₇
    · revert v; decide
    · revert v; decide
    · revert v; decide
    · revert v; decide
    · revert v; decide
    · rcases h₆ with rfl | rfl <;> (revert v; decide)
    · exact (plain_unicodeEscape u v mem).1
    · rw [List.mem_singleton.1 mem]
      rw [UInt16.lt_iff_toNat_lt] at h₇
      exact not_lt.1 h₇

theorem printed_kept : Kept 0 fun s => ∀ u ∈ s, 0x20 ≤ u.toNat where
  nil := nofun
  append := fun s t hs ht u mem => (List.mem_append.1 mem).elim (hs u) (ht u)
  plain := fun u plain => by simpa using plain.1
  newline := fun _ => nofun
  quote := fun s => by
    have inner : ∀ v ∈ quoteFrom false s, 0x20 ≤ v.toNat := by
      induction s using toRunes.induct with
      | case1 => nofun
      | case2 u =>
        rw [quoteFrom_single (by simp)]
        simpa [quoteFrom] using printed_single u
      | case3 u v rest pair ih =>
        have split : quoteFrom false (u :: v :: rest) = u :: v :: quoteFrom false rest := by
          simp only [Bool.and_eq_true] at pair
          simp [quoteFrom,pair]
        simp only [isHigh,isLow,Bool.and_eq_true,decide_eq_true_eq] at pair
        rw [split]
        intro w mem
        simp only [List.mem_cons] at mem
        rcases mem with rfl | rfl | mem
        · omega
        · omega
        · exact ih w mem
      | case4 u v rest single ih =>
        rw [quoteFrom_single (by simpa using single)]
        exact fun w mem => (List.mem_append.1 mem).elim (printed_single u w) (ih w)
    intro u mem
    simp only [quote,List.mem_cons,List.mem_append,List.not_mem_nil,or_false] at mem
    rcases mem with rfl | mem | rfl
    · decide
    · exact inner u mem
    · decide

end CodeHarbor.Lib.Js.Json
