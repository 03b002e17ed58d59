import CodeHarbor.Lib.JsText
set_option autoImplicit false

namespace CodeHarbor.App.Markdown
open Lib.Js

def unit (c : Char) : UInt16 := UInt16.ofNat c.toNat

def startsWith (s t : JsText) : Bool := t.isPrefixOf s

def isDigit (u : UInt16) : Bool := unit '0' ≤ u && u ≤ unit '9'

/-- What `parseBlocks` renders, before the inline markup of a text is looked at. -/
inductive Block where
  | code (code language : JsText)
  | heading (level : Nat) (text : JsText)
  | quote (lines : List JsText)
  | list (items : List JsText)
  | ordered (items : List JsText)
  | rule
  | table (header : List JsText) (rows : List (List JsText))
  | paragraph (text : JsText)
  deriving DecidableEq, Repr

def isFence (line : JsText) : Bool := startsWith (trim line) (ofString "```")

def isQuote (line : JsText) : Bool := startsWith line (ofString "> ")

/-- The expression `/^[-*+]\s+/`. -/
def isItem : JsText → Bool
  | c :: d :: _ => (c == unit '-' || c == unit '*' || c == unit '+') && isSpace d
  | _ => false

/-- The expression `/^\d+\.\s+/`. -/
def isOrdered (line : JsText) : Bool :=
  (line.takeWhile isDigit != []) &&
    match line.dropWhile isDigit with
    | c :: d :: _ => c == unit '.' && isSpace d
    | _ => false

def isRule (line : JsText) : Bool :=
  [ofString "***",ofString "---",ofString "___"].contains (trim line)

def hasBar (line : JsText) : Bool := line.contains (unit '|')

/-- The expression `/\|?\s*[-:]+[-| :]*\s*\|?/`, which is not anchored: a dash or a colon
anywhere is all it takes. -/
def isDivider (line : JsText) : Bool := line.any fun u => u == unit '-' || u == unit ':'

def isTable (line : JsText) (next : Option JsText) : Bool := hasBar line && next.any isDivider

def inParagraph (line : JsText) : Bool :=
  (trim line != []) && !startsWith line (ofString "```") && !startsWith line (ofString "#") &&
    !isQuote line && !isItem line && !isOrdered line && !isRule line

def itemText (line : JsText) : JsText := (line.drop 1).dropWhile isSpace

def orderedText (line : JsText) : JsText := ((line.dropWhile isDigit).drop 1).dropWhile isSpace

def cells (line : JsText) : List JsText :=
  ((line.splitOn (unit '|')).map trim).filter (· != [])

/-- One iteration of the outer loop, at a line: the block it pushes, if any, and the index it
goes on from. -/
def parseBlock (lines : List JsText) (i : Nat) (line : JsText) : Option Block × Nat :=
  if isFence line then
    let lang := trim ((trim line).drop 3)
    let codeLines := (lines.drop (i+1)).takeWhile (!isFence ·)
    let j := i+1+codeLines.length
    let closed := (lines[j]?).any isFence
    (some (.code ([unit '\n'].intercalate codeLines) (if lang = [] then ofString "text" else lang)),
      if closed then j+1 else j)
  else if startsWith line (ofString "# ") then (some (.heading 1 (line.drop 2)),i+1)
  else if startsWith line (ofString "## ") then (some (.heading 2 (line.drop 3)),i+1)
  else if startsWith line (ofString "### ") then (some (.heading 3 (line.drop 4)),i+1)
  else if startsWith line (ofString "#### ") then (some (.heading 4 (line.drop 5)),i+1)
  else if isQuote line then
    let quoteLines := (lines.drop i).takeWhile isQuote
    (some (.quote (quoteLines.map (·.drop 2))),i+quoteLines.length)
  else if isItem line then
    let listItems := (lines.drop i).takeWhile isItem
    (some (.list (listItems.map itemText)),i+listItems.length)
  else if isOrdered line then
    let listItems := (lines.drop i).takeWhile isOrdered
    (some (.ordered (listItems.map orderedText)),i+listItems.length)
  else if isRule line then (some .rule,i+1)
  else if isTable line lines[i+1]? then
    let rows := (lines.drop (i+2)).takeWhile hasBar
    (some (.table (cells line) ((rows.map cells).filter (· != []))),i+2+rows.length)
  else if trim line = [] then (none,i+1)
  else
    let pLines := (lines.drop i).takeWhile inParagraph
    (some (.paragraph ([unit ' '].intercalate pLines)),i+pLines.length)

/-- The outer loop, for as many iterations as there is fuel. -/
def loop (lines : List JsText) : Nat → Nat → List Block → Option (List Block)
  | fuel, i, blocks =>
    match lines[i]? with
    | none => some blocks
    | some line =>
      match fuel with
      | 0 => none
      | fuel+1 =>
        let (block,j) := parseBlock lines i line
        loop lines fuel j (blocks ++ block.toList)

def splitLines (raw : JsText) : List JsText := raw.splitOn (unit '\n')

def parseBlocks (raw : JsText) (fuel : Nat) : Option (List Block) := loop (splitLines raw) fuel 0 []

/-- The indices at which an iteration of the outer loop begins. -/
inductive Reached (lines : List JsText) : Nat → Prop where
  | start : Reached lines 0
  | next {i : Nat} {line : JsText} :
      Reached lines i → lines[i]? = some line → Reached lines (parseBlock lines i line).2

/-- Every iteration moves on, and the loop returns after at most as many of them as there are
lines. -/
structure Terminates (raw : JsText) : Prop where
  advances : ∀ i line, Reached (splitLines raw) i → (splitLines raw)[i]? = some line →
    i < (parseBlock (splitLines raw) i line).2
  returns : ∃ blocks, parseBlocks raw (splitLines raw).length = some blocks

def isHeading (line : JsText) : Bool :=
  startsWith line (ofString "# ") || startsWith line (ofString "## ") ||
    startsWith line (ofString "### ") || startsWith line (ofString "#### ")

/-- A line that no form of block takes: it begins with a number sign, is no heading of the
first four levels and no head of a table. -/
def unclaimed (line : JsText) (next : Option JsText) : Bool :=
  startsWith line (ofString "#") && !isHeading line && !isTable line next

/-- Where a line stands: at the start of a block or in what an earlier line has opened. -/
inductive Mode where
  | text
  | code
  | divider
  | rows
  | paragraph
  deriving DecidableEq, Repr

def startsBlock (mode : Mode) (line : JsText) : Bool :=
  match mode with
  | .text => true
  | .code | .divider => false
  | .rows => !hasBar line
  | .paragraph => !inParagraph line

def opens (line : JsText) (next : Option JsText) : Mode :=
  if isFence line then .code
  else if isHeading line || isQuote line || isItem line || isOrdered line || isRule line then .text
  else if isTable line next then .divider
  else if trim line = [] then .text
  else .paragraph

def nextMode (mode : Mode) (line : JsText) (next : Option JsText) : Mode :=
  if startsBlock mode line then opens line next
  else match mode with
    | .code => if isFence line then .text else .code
    | .divider => .rows
    | mode => mode

/-- Every line that stands at the start of a block is of some form. -/
def settles : Mode → List JsText → Bool
  | _, [] => true
  | mode, line :: rest =>
    !(startsBlock mode line && unclaimed line rest.head?) &&
      settles (nextMode mode line rest.head?) rest

section lines

variable {line : JsText} {next : Option JsText}

theorem trim_cons {c : UInt16} (hc : isSpace c = false) (rest : JsText) :
    ∃ tail, trim (c :: rest) = c :: tail := by
  have hdrop : (c :: rest).dropWhile isSpace = c :: rest := by simp [hc]
  rw [trim,hdrop,List.reverse_cons,List.dropWhile_append]
  split_ifs
  · exact ⟨[],by simp [hc]⟩
  · exact ⟨(rest.reverse.dropWhile isSpace).reverse,by simp⟩

theorem not_fence_of_cons {c : UInt16} (hspace : isSpace c = false) (hc : c ≠ unit (Char.ofNat 96))
    (rest : JsText) : isFence (c :: rest) = false := by
  obtain ⟨tail,htrim⟩ := trim_cons hspace rest
  have hfirst : ofString "```" = unit (Char.ofNat 96) :: ofString "``" := by decide
  rw [isFence,startsWith,htrim,hfirst,List.isPrefixOf_cons_cons]
  simp [Ne.symm hc]

theorem isFence_of_ticks (h : startsWith line (ofString "```") = true) : isFence line = true := by
  have hticks : ofString "```" = List.replicate 3 (unit (Char.ofNat 96)) := by decide
  rw [startsWith,hticks,List.isPrefixOf_iff_prefix] at h
  obtain ⟨rest,rfl⟩ := h
  have hspace : isSpace (unit (Char.ofNat 96)) = false := by decide
  have htrim : trim (List.replicate 3 (unit (Char.ofNat 96)) ++ rest) =
      List.replicate 3 (unit (Char.ofNat 96)) ++ (rest.reverse.dropWhile isSpace).reverse := by
    have hdrop : (List.replicate 3 (unit (Char.ofNat 96)) ++ rest).dropWhile isSpace =
        List.replicate 3 (unit (Char.ofNat 96)) ++ rest := by
      simp [List.replicate_succ,hspace]
    rw [trim,hdrop,List.reverse_append,List.reverse_replicate,List.dropWhile_append]
    split_ifs with hnone
    · have hnone : rest.reverse.dropWhile isSpace = [] := by simpa using hnone
      simp [List.replicate_succ,hspace,hnone]
    · simp
  rw [isFence,startsWith,hticks,htrim,List.isPrefixOf_iff_prefix]
  exact List.prefix_append _ _

theorem startsWith_cons {s : JsText} {c : UInt16} {t : JsText} (h : startsWith s (c :: t) = true) :
    ∃ rest, s = c :: rest := by
  cases s with
  | nil => simp [startsWith] at h
  | cons d rest =>
    simp only [startsWith,List.isPrefixOf_cons_cons,Bool.and_eq_true,beq_iff_eq] at h
    exact ⟨rest,by rw [h.1]⟩

theorem number_sign (rest : JsText) :
    isFence (unit '#' :: rest) = false ∧ isQuote (unit '#' :: rest) = false ∧
    isItem (unit '#' :: rest) = false ∧ isOrdered (unit '#' :: rest) = false ∧
    isRule (unit '#' :: rest) = false ∧ trim (unit '#' :: rest) ≠ [] := by
  obtain ⟨tail,htrim⟩ := trim_cons (c := unit '#') (by decide) rest
  refine ⟨not_fence_of_cons (by decide) (by decide) rest,?_,?_,?_,?_,by simp [htrim]⟩
  · simp only [isQuote,startsWith]
    rw [show ofString "> " = unit '>' :: ofString " " by decide,List.isPrefixOf_cons_cons]
    simp [show (unit '>' == unit '#') = false by decide]
  · cases rest with
    | nil => rfl
    | cons d rest =>
      simp [isItem,show (unit '#' == unit '-') = false by decide,
        show (unit '#' == unit '*') = false by decide,
        show (unit '#' == unit '+') = false by decide]
  · simp [isOrdered,show isDigit (unit '#') = false by decide]
  · simp only [isRule,htrim]
    simp [show ofString "***" = unit '*' :: ofString "**" by decide,
      show ofString "---" = unit '-' :: ofString "--" by decide,
      show ofString "___" = unit '_' :: ofString "__" by decide,
      show unit '#' ≠ unit '*' by decide,show unit '#' ≠ unit '-' by decide,
      show unit '#' ≠ unit '_' by decide]

theorem isHeading_number_sign (h : isHeading line = true) : ∃ rest, line = unit '#' :: rest := by
  simp only [isHeading,Bool.or_eq_true] at h
  rcases h with ((h | h) | h) | h
  all_goals exact startsWith_cons h

theorem unclaimed_iff_number_sign (h : isHeading line = false) (htable : isTable line next = false) :
    unclaimed line next = startsWith line (ofString "#") := by simp [unclaimed,h,htable]

theorem claimed_of_ne (h : ∀ rest, line ≠ unit '#' :: rest) :
    unclaimed line next = false ∧ isHeading line = false ∧ startsWith line (ofString "#") = false := by
  have hsign : startsWith line (ofString "#") = false := by
    by_contra hne
    obtain ⟨rest,hline⟩ := startsWith_cons (eq_true_of_ne_false hne)
    exact h rest hline
  refine ⟨by simp [unclaimed,hsign],?_,hsign⟩
  by_contra hne
  obtain ⟨rest,hline⟩ := isHeading_number_sign (eq_true_of_ne_false hne)
  exact h rest hline

theorem claimed_of_fence (h : isFence line = true) : unclaimed line next = false := by
  refine (claimed_of_ne ?_).1
  rintro rest rfl
  rw [(number_sign rest).1] at h
  cases h

theorem claimed_of_rule (h : isRule line = true) : unclaimed line next = false := by
  refine (claimed_of_ne ?_).1
  rintro rest rfl
  rw [(number_sign rest).2.2.2.2.1] at h
  cases h

theorem claimed_of_blank (h : trim line = []) : unclaimed line next = false := by
  refine (claimed_of_ne ?_).1
  rintro rest rfl
  exact (number_sign rest).2.2.2.2.2 h

theorem quote_not_fence (h : isQuote line = true) : isFence line = false := by
  obtain ⟨rest,rfl⟩ := startsWith_cons (c := unit '>') h
  exact not_fence_of_cons (by decide) (by decide) rest

theorem item_not_fence (h : isItem line = true) : isFence line = false := by
  match line with
  | [] => simp [isItem] at h
  | [c] => simp [isItem] at h
  | c :: d :: rest =>
    simp only [isItem,Bool.and_eq_true,Bool.or_eq_true,beq_iff_eq] at h
    obtain ⟨(rfl | rfl) | rfl,-⟩ := h
    all_goals exact not_fence_of_cons (by decide) (by decide) _

theorem ordered_not_fence (h : isOrdered line = true) : isFence line = false := by
  cases line with
  | nil => simp [isOrdered] at h
  | cons c rest =>
    have hdigit : isDigit c = true := by
      by_contra hc
      simp [isOrdered,hc] at h
    simp only [isDigit,Bool.and_eq_true,decide_eq_true_eq] at hdigit
    have hbounds : 48 ≤ c.toNat ∧ c.toNat ≤ 57 := hdigit
    refine not_fence_of_cons ?_ ?_ rest
    · simp only [isSpace]
      have h1 : (c.toNat == 0x20) = false := by simp; omega
      simp [h1]
      omega
    · rintro rfl
      exact absurd hbounds (by decide)

theorem claimed_of_group {p : JsText → Bool} (hgroup : p = isQuote ∨ p = isItem ∨ p = isOrdered)
    (line : JsText) (next : Option JsText) (h : p line = true) :
    unclaimed line next = false ∧ opens line next = .text := by
  have hfence : isFence line = false := by
    rcases hgroup with rfl | rfl | rfl
    · exact quote_not_fence h
    · exact item_not_fence h
    · exact ordered_not_fence h
  constructor
  · refine (claimed_of_ne ?_).1
    rintro rest rfl
    obtain ⟨-,hquote,hitem,hordered,-⟩ := number_sign rest
    rcases hgroup with rfl | rfl | rfl
    · simp [hquote] at h
    · simp [hitem] at h
    · simp [hordered] at h
  · unfold opens
    rcases hgroup with rfl | rfl | rfl <;> simp [hfence,h]

end lines

section modes

theorem drop_takeWhile (p : JsText → Bool) (lines : List JsText) :
    lines.drop (lines.takeWhile p).length = lines.dropWhile p := by
  have hsplit := List.takeWhile_append_dropWhile (p := p) (l := lines)
  calc lines.drop (lines.takeWhile p).length
      = (lines.takeWhile p ++ lines.dropWhile p).drop (lines.takeWhile p).length := by rw [hsplit]
    _ = lines.dropWhile p := List.drop_left

theorem settles_of_startsBlock {mode : Mode} {line : JsText} (h : startsBlock mode line = true)
    (rest : List JsText) : settles mode (line :: rest) = settles .text (line :: rest) := by
  have htext : startsBlock .text line = true := rfl
  simp only [settles,nextMode,h,htext,if_true]

theorem settles_code (rest : List JsText) :
    settles .code rest = settles .text ((rest.dropWhile (!isFence ·)).drop 1) := by
  induction rest with
  | nil => rfl
  | cons line rest ih =>
    cases hfence : isFence line with
    | true => simp [settles,startsBlock,nextMode,hfence]
    | false => simp [settles,startsBlock,nextMode,hfence,ih]

theorem settles_while {mode : Mode} {p : JsText → Bool}
    (hmode : ∀ line, startsBlock mode line = !p line)
    (hnext : ∀ line next, p line = true → nextMode mode line next = mode) (rest : List JsText) :
    settles mode rest = settles .text (rest.dropWhile p) := by
  induction rest with
  | nil => rfl
  | cons line rest ih =>
    cases hp : p line with
    | true => simp [settles,hmode,hp,hnext line _ hp,ih]
    | false =>
      rw [settles_of_startsBlock (by simp [hmode,hp])]
      simp [hp]

theorem settles_rows (rest : List JsText) :
    settles .rows rest = settles .text (rest.dropWhile hasBar) :=
  settles_while (fun _ => rfl) (fun line next h => by simp [nextMode,startsBlock,h]) rest

theorem settles_paragraph (rest : List JsText) :
    settles .paragraph rest = settles .text (rest.dropWhile inParagraph) :=
  settles_while (fun _ => rfl) (fun line next h => by simp [nextMode,startsBlock,h]) rest

theorem settles_skip {p : JsText → Bool}
    (hp : ∀ line next, p line = true → unclaimed line next = false ∧ opens line next = .text)
    (lines : List JsText) : settles .text lines = settles .text (lines.dropWhile p) := by
  induction lines with
  | nil => rfl
  | cons line rest ih =>
    cases hline : p line with
    | true =>
      obtain ⟨hclaimed,hopens⟩ := hp line rest.head? hline
      simp [settles,startsBlock,nextMode,hclaimed,hopens,hline,ih]
    | false => simp [hline]

end modes

section iteration

variable {lines : List JsText} {i : Nat} {line : JsText}

theorem drop_eq_cons (h : lines[i]? = some line) : lines.drop i = line :: lines.drop (i+1) := by
  obtain ⟨hi,rfl⟩ := List.getElem?_eq_some_iff.mp h
  exact List.drop_eq_getElem_cons hi

theorem head_drop : (lines.drop (i+1)).head? = lines[i+1]? := by simp

theorem settles_text_cons (rest : List JsText) :
    settles .text (line :: rest) =
      (!unclaimed line rest.head? && settles (opens line rest.head?) rest) := by
  simp [settles,startsBlock,nextMode]

theorem length_takeWhile_pos {p : JsText → Bool} (h : lines[i]? = some line) (hp : p line = true) :
    0 < ((lines.drop i).takeWhile p).length := by simp [drop_eq_cons h,hp]

theorem settles_taken {p : JsText → Bool}
    (hall : ∀ line next, p line = true → unclaimed line next = false ∧ opens line next = .text) :
    settles .text (lines.drop i) =
      settles .text (lines.drop (i+((lines.drop i).takeWhile p).length)) := by
  rw [← List.drop_drop,drop_takeWhile]
  exact settles_skip hall _

inductive Form (lines : List JsText) (i : Nat) (line : JsText) : Nat → Prop where
  | fence : isFence line = true → Form lines i line
      (let j := i+1+((lines.drop (i+1)).takeWhile (!isFence ·)).length
      if (lines[j]?).any isFence then j+1 else j)
  | heading : isFence line = false → isHeading line = true → Form lines i line (i+1)
  | group (p : JsText → Bool) : p = isQuote ∨ p = isItem ∨ p = isOrdered → p line = true →
      Form lines i line (i+((lines.drop i).takeWhile p).length)
  | rule : isFence line = false → isRule line = true → Form lines i line (i+1)
  | table : opens line lines[i+1]? = .divider → isTable line lines[i+1]? = true →
      Form lines i line (i+2+((lines.drop (i+2)).takeWhile hasBar).length)
  | blank : opens line lines[i+1]? = .text → trim line = [] → Form lines i line (i+1)
  | paragraph : opens line lines[i+1]? = .paragraph →
      inParagraph line = !startsWith line (ofString "#") →
      unclaimed line lines[i+1]? = startsWith line (ofString "#") →
      Form lines i line (i+((lines.drop i).takeWhile inParagraph).length)

theorem parseBlock_form (lines : List JsText) (i : Nat) (line : JsText) :
    Form lines i line (parseBlock lines i line).2 := by
  rw [parseBlock]
  by_cases hfence : isFence line = true
  · rw [if_pos hfence]
    exact .fence hfence
  rw [if_neg hfence]
  have hfence : isFence line = false := eq_false_of_ne_true hfence
  by_cases h1 : startsWith line (ofString "# ") = true
  · rw [if_pos h1]
    exact .heading hfence (by rw [isHeading,h1]; rfl)
  rw [if_neg h1]
  by_cases h2 : startsWith line (ofString "## ") = true
  · rw [if_pos h2]
    exact .heading hfence (by rw [isHeading,h2,Bool.or_true]; rfl)
  rw [if_neg h2]
  by_cases h3 : startsWith line (ofString "### ") = true
  · rw [if_pos h3]
    exact .heading hfence (by rw [isHeading,h3,Bool.or_true]; rfl)
  rw [if_neg h3]
  by_cases h4 : startsWith line (ofString "#### ") = true
  · rw [if_pos h4]
    exact .heading hfence (by rw [isHeading,h4,Bool.or_true])
  rw [if_neg h4]
  have hheading : isHeading line = false := by
    rw [isHeading,eq_false_of_ne_true h1,eq_false_of_ne_true h2,eq_false_of_ne_true h3,
      eq_false_of_ne_true h4]
    rfl
  by_cases hquote : isQuote line = true
  · rw [if_pos hquote]
    exact .group isQuote (.inl rfl) hquote
  rw [if_neg hquote]
  by_cases hitem : isItem line = true
  · rw [if_pos hitem]
    exact .group isItem (.inr (.inl rfl)) hitem
  rw [if_neg hitem]
  by_cases hordered : isOrdered line = true
  · rw [if_pos hordered]
    exact .group isOrdered (.inr (.inr rfl)) hordered
  rw [if_neg hordered]
  by_cases hrule : isRule line = true
  · rw [if_pos hrule]
    exact .rule hfence hrule
  rw [if_neg hrule]
  have hnone : (isHeading line || isQuote line || isItem line || isOrdered line || isRule line) =
      false := by
    rw [hheading,eq_false_of_ne_true hquote,eq_false_of_ne_true hitem,eq_false_of_ne_true hordered,
      eq_false_of_ne_true hrule]
    rfl
  by_cases htable : isTable line lines[i+1]? = true
  · rw [if_pos htable]
    refine .table ?_ htable
    rw [opens,hfence,hnone,htable]
    rfl
  rw [if_neg htable]
  have htable : isTable line lines[i+1]? = false := eq_false_of_ne_true htable
  by_cases hblank : trim line = []
  · rw [if_pos hblank]
    refine .blank ?_ hblank
    rw [opens,hfence,hnone,htable]
    exact if_pos hblank
  rw [if_neg hblank]
  refine .paragraph ?_ ?_ (unclaimed_iff_number_sign hheading htable)
  · rw [opens,hfence,hnone,htable]
    exact if_neg hblank
  · have hticks : startsWith line (ofString "```") = false := by
      by_contra hne
      rw [isFence_of_ticks (eq_true_of_ne_false hne)] at hfence
      cases hfence
    have htrim : (trim line != []) = true := by simpa using hblank
    rw [inParagraph,htrim,hticks,eq_false_of_ne_true hquote,eq_false_of_ne_true hitem,
      eq_false_of_ne_true hordered,eq_false_of_ne_true hrule]
    simp only [Bool.not_false,Bool.and_true,Bool.true_and]

/-- An iteration moves on from every line except one that no form of block takes. -/
theorem advances_iff (h : lines[i]? = some line) :
    i < (parseBlock lines i line).2 ↔ unclaimed line lines[i+1]? = false := by
  have hform := parseBlock_form lines i line
  generalize (parseBlock lines i line).2 = j at hform ⊢
  cases hform with
  | fence hfence =>
    have hbefore : i < i+1+((lines.drop (i+1)).takeWhile (!isFence ·)).length := by omega
    simp only [claimed_of_fence hfence,iff_true]
    split_ifs
    · exact Nat.lt_succ_of_lt hbefore
    · exact hbefore
  | heading hfence hheading => simp [unclaimed,hheading]
  | group p hgroup hp =>
    have hpos := length_takeWhile_pos h hp
    have hclaimed := (claimed_of_group hgroup line lines[i+1]? hp).1
    simp [hclaimed,hpos]
  | rule hfence hrule => simp [claimed_of_rule hrule]
  | table hopens htable =>
    simp only [unclaimed,htable,Bool.not_true,Bool.and_false,iff_true]
    omega
  | blank hopens hblank => simp [claimed_of_blank hblank]
  | paragraph hopens hparagraph hunclaimed =>
    rw [hunclaimed]
    cases hsign : startsWith line (ofString "#") with
    | true =>
      rw [hsign] at hparagraph
      simp [drop_eq_cons h,hparagraph]
    | false =>
      rw [hsign] at hparagraph
      simp [drop_eq_cons h,hparagraph]

theorem settles_parseBlock (h : lines[i]? = some line) :
    settles .text (lines.drop i) = true ↔ unclaimed line lines[i+1]? = false ∧
      settles .text (lines.drop (parseBlock lines i line).2) = true := by
  have hform := parseBlock_form lines i line
  generalize (parseBlock lines i line).2 = j at hform ⊢
  have hcons : settles .text (lines.drop i) =
      (!unclaimed line lines[i+1]? && settles (opens line lines[i+1]?) (lines.drop (i+1))) := by
    rw [drop_eq_cons h,settles_text_cons,head_drop]
  cases hform with
  | fence hfence =>
    have hopens : opens line lines[i+1]? = .code := by simp [opens,hfence]
    have hrest := drop_takeWhile (!isFence ·) (lines.drop (i+1))
    rw [List.drop_drop] at hrest
    rw [hcons,claimed_of_fence hfence,hopens,settles_code,← hrest]
    simp only [Bool.not_false,Bool.true_and,true_and,List.drop_drop]
    split_ifs with hclosed
    · rfl
    · -- the fence is not closed, and the code goes on to the last line
      have hend : lines.drop (i+1+((lines.drop (i+1)).takeWhile (!isFence ·)).length) = [] := by
        cases hdrop : lines.drop (i+1+((lines.drop (i+1)).takeWhile (!isFence ·)).length) with
        | nil => rfl
        | cons next rest =>
          have hnext : lines[i+1+((lines.drop (i+1)).takeWhile (!isFence ·)).length]? = some next := by
            rw [← List.head?_drop,hdrop]
            rfl
          have hstop := List.head?_dropWhile_not (!isFence ·) (lines.drop (i+1))
          rw [← hrest,hdrop] at hstop
          have hstop : isFence next = true := by simpa using hstop
          simp [hnext,hstop] at hclosed
      rw [← List.drop_drop,hend]
      simp
  | heading hfence hheading =>
    have hopens : opens line lines[i+1]? = .text := by simp [opens,hfence,hheading]
    rw [hcons,hopens]
    simp
  | group p hgroup hp =>
    obtain ⟨hclaimed,-⟩ := claimed_of_group hgroup line lines[i+1]? hp
    rw [settles_taken (claimed_of_group hgroup)]
    simp [hclaimed]
  | rule hfence hrule =>
    have hopens : opens line lines[i+1]? = .text := by simp [opens,hfence,hrule]
    rw [hcons,hopens]
    simp
  | table hopens htable =>
    obtain ⟨-,hnext⟩ : hasBar line = true ∧ (lines[i+1]?).any isDivider = true := by
      simpa [isTable] using htable
    obtain ⟨divider,hdivider⟩ : ∃ divider, lines[i+1]? = some divider := by
      cases hnone : lines[i+1]? with
      | none => simp [hnone] at hnext
      | some divider => exact ⟨divider,rfl⟩
    have hrows : settles .divider (lines.drop (i+1)) = settles .rows (lines.drop (i+2)) := by
      rw [drop_eq_cons hdivider]
      simp [settles,startsBlock,nextMode]
    rw [hcons,hopens,hrows,settles_rows,← drop_takeWhile,List.drop_drop]
    simp
  | blank hopens hblank =>
    rw [hcons,hopens]
    simp
  | paragraph hopens hparagraph hunclaimed =>
    rw [hcons,hopens,hunclaimed]
    cases hsign : startsWith line (ofString "#") with
    | true => simp
    | false =>
      rw [hsign] at hparagraph
      have hdrop : (lines.drop i).dropWhile inParagraph =
          (lines.drop (i+1)).dropWhile inParagraph := by simp [drop_eq_cons h,hparagraph]
      rw [settles_paragraph,← hdrop,← drop_takeWhile,List.drop_drop]
      simp

end iteration

section termination

variable {lines : List JsText}

theorem settles_reached (h : settles .text lines = true) {i : Nat} (hi : Reached lines i) :
    settles .text (lines.drop i) = true := by
  induction hi with
  | start => exact h
  | next hi hline ih => exact ((settles_parseBlock hline).mp ih).2

theorem loop_returns (fuel i : Nat) (blocks : List Block)
    (h : settles .text (lines.drop i) = true) (hfuel : lines.length ≤ i+fuel) :
    ∃ result, loop lines fuel i blocks = some result := by
  induction fuel generalizing i blocks with
  | zero =>
    have hnone : lines[i]? = none := List.getElem?_eq_none (by omega)
    exact ⟨blocks,by rw [loop,hnone]⟩
  | succ fuel ih =>
    cases hline : lines[i]? with
    | none => exact ⟨blocks,by rw [loop,hline]⟩
    | some line =>
      obtain ⟨hclaimed,hrest⟩ := (settles_parseBlock hline).mp h
      have hadvance := (advances_iff hline).mpr hclaimed
      rw [loop,hline]
      exact ih (parseBlock lines i line).2 _ hrest (by omega)

theorem settles_of_advances
    (h : ∀ i line, Reached lines i → lines[i]? = some line → i < (parseBlock lines i line).2) (n i : Nat)
    (hi : Reached lines i) (hn : lines.length ≤ i+n) : settles .text (lines.drop i) = true := by
  induction n generalizing i with
  | zero =>
    rw [List.drop_eq_nil_of_le (by omega)]
    rfl
  | succ n ih =>
    cases hline : lines[i]? with
    | none =>
      rw [List.drop_eq_nil_of_le (List.getElem?_eq_none_iff.mp hline)]
      rfl
    | some line =>
      have hadvance := h i line hi hline
      refine (settles_parseBlock hline).mpr ⟨(advances_iff hline).mp hadvance,?_⟩
      exact ih _ (.next hi hline) (by omega)

/-- The parser terminates on exactly those texts in which every line that begins with a number
sign and stands at the start of a block is a heading or the head of a table. -/
theorem terminates_iff_settles (raw : JsText) :
    Terminates raw ↔ settles .text (splitLines raw) = true := by
  constructor
  · intro h
    exact settles_of_advances h.advances (splitLines raw).length 0 .start (by omega)
  · intro h
    refine ⟨?_,loop_returns _ 0 [] h (by omega)⟩
    intro i line hi hline
    obtain ⟨hclaimed,-⟩ := (settles_parseBlock hline).mp (settles_reached h hi)
    exact (advances_iff hline).mpr hclaimed

theorem loop_stuck {i : Nat} {line : JsText} (h : lines[i]? = some line)
    (hstay : (parseBlock lines i line).2 = i) (fuel : Nat) (blocks : List Block) :
    loop lines fuel i blocks = none := by
  induction fuel generalizing blocks with
  | zero => rw [loop,h]
  | succ fuel ih =>
    rw [loop,h]
    simp only [hstay]
    exact ih _

/-- A text that is a number sign and nothing more, the first thing that arrives of any heading,
is never done with. -/
theorem number_sign_not_terminates :
    ¬Terminates (ofString "#") ∧ ∀ fuel, parseBlocks (ofString "#") fuel = none := by
  have hstay : (parseBlock (splitLines (ofString "#")) 0 (ofString "#")).2 = 0 := by decide
  have hline : (splitLines (ofString "#"))[0]? = some (ofString "#") := by decide
  refine ⟨?_,fun fuel => loop_stuck hline hstay fuel []⟩
  intro h
  have hadvance := h.advances 0 (ofString "#") .start hline
  rw [hstay] at hadvance
  exact Nat.lt_irrefl 0 hadvance

end termination

end CodeHarbor.App.Markdown
