import CodeHarbor.Lib.Json
set_option autoImplicit false

namespace CodeHarbor.Lib.Js.Json

/-! Texts with something before them, and texts that are cut off, do not read. -/

/-- A value has begun; the text behind it does not start another one on its own. -/
structure Parser.Begun (p : Parser) : Prop where
  inside : p.mode = .value → p.stack ≠ []
  word : ∀ left v, p.mode = .word left v → (∀ u ∈ left, u.toNat < 0x7b) ∧ v ≠ .undefined
  defined : ∀ v, p.mode = .after v → v ≠ .undefined

theorem Parser.Begun.of_mode {p : Parser} (value : p.mode ≠ .value) (word : ∀ left v, p.mode ≠ .word left v)
    (after : ∀ v, p.mode ≠ .after v) : p.Begun :=
  ⟨fun h => absurd h value,fun left v h => absurd h (word left v),fun v h => absurd h (after v)⟩

theorem Parser.Begun.of_after {stack : List Frame} {v : Value} (h : v ≠ .undefined) :
    Parser.Begun ⟨stack,.after v⟩ := by
  refine ⟨nofun,nofun,fun w same => ?_⟩
  cases same
  exact h

theorem toDouble_ne_undefined (x : Rat) : toDouble x ≠ .undefined := by
  unfold toDouble
  split_ifs <;> nofun

theorem begin_begun {stack : List Frame} {u : UInt16} {p : Parser} (h : begin stack u = some p) : p.Begun := by
  have word : ∀ s v, (∀ u ∈ s, u.toNat < 0x7b) ∧ v ≠ .undefined → Parser.Begun ⟨stack,.word s v⟩ := by
    intro s v free
    refine ⟨nofun,fun left w same => ?_,nofun⟩
    cases same
    exact free
  unfold begin at h
  split_ifs at h
  · cases h; exact .of_mode nofun nofun nofun
  · cases h; exact .of_mode nofun nofun nofun
  · cases h; exact .of_mode nofun nofun nofun
  · cases h; exact word _ _ ⟨by decide,nofun⟩
  · cases h; exact word _ _ ⟨by decide,nofun⟩
  · cases h; exact word _ _ ⟨by decide,nofun⟩
  · obtain ⟨l,-,rfl⟩ := Option.map_eq_some_iff.1 h
    exact .of_mode nofun nofun nofun

theorem follow_begun {stack : List Frame} {v : Value} {u : UInt16} {p : Parser} (defined : v ≠ .undefined)
    (h : follow stack v u = some p) : p.Begun := by
  cases stack with
  | nil =>
    simp only [follow] at h
    split_ifs at h
    cases h
    exact .of_after defined
  | cons frame rest =>
    cases frame <;> simp only [follow] at h <;> split_ifs at h <;> cases h
    · exact .of_after defined
    · exact ⟨fun _ => List.cons_ne_nil _ _,by simp,by simp⟩
    · exact .of_after (by simp)
    · exact .of_after defined
    · exact .of_mode (by simp) (by simp) (by simp)
    · exact .of_after (by simp)

theorem Parser.Begun.of_text {stack : List Frame} {role : Role} {read : JsText} {escape : Escape} :
    Parser.Begun ⟨stack,.text role read escape⟩ :=
  .of_mode (by simp) (by simp) (by simp)

theorem stepText_begun {stack : List Frame} {role : Role} {read : JsText} {u : UInt16} {escape : Escape}
    {p : Parser} (h : stepText stack role read u escape = some p) : p.Begun := by
  cases escape with
  | none =>
    simp only [stepText] at h
    split_ifs at h <;> cases h
    · cases role with
      | value => exact .of_after (by simp)
      | key done => exact .of_mode (by simp [close]) (by simp [close]) (by simp [close])
    · exact .of_text
    · exact .of_text
  | started =>
    simp only [stepText] at h
    split_ifs at h
    · cases h; exact .of_text
    · obtain ⟨c,-,rfl⟩ := Option.map_eq_some_iff.1 h
      exact .of_text
  | hex left code =>
    obtain ⟨d,-,rfl⟩ := Option.map_eq_some_iff.1 h
    split_ifs <;> exact .of_text

theorem step_begun {p q : Parser} {u : UInt16} (begun : p.Begun) (h : step p u = some q) : q.Begun := by
  obtain ⟨stack,mode⟩ := p
  cases mode with
  | value =>
    simp only [step] at h
    split_ifs at h
    · cases h; exact begun
    · exact begin_begun h
  | firstItem =>
    simp only [step] at h
    split_ifs at h
    · cases h; exact begun
    · cases h; exact .of_after (by simp)
    · exact begin_begun h
  | key first done =>
    simp only [step] at h
    split_ifs at h <;> cases h
    · exact begun
    · exact .of_mode (by simp) (by simp) (by simp)
    · exact .of_after (by simp)
  | text role read escape => exact stepText_begun h
  | colon done key =>
    simp only [step] at h
    split_ifs at h <;> cases h
    · exact begun
    · exact ⟨fun _ => List.cons_ne_nil _ _,by simp,by simp⟩
  | word left v =>
    have free := begun.word left v rfl
    cases left with
    | nil => cases h
    | cons w rest =>
      simp only [step] at h
      split_ifs at h with same ended <;> cases h
      · exact .of_after free.2
      · refine ⟨by simp,fun left v same => ?_,by simp⟩
        cases same
        exact ⟨fun u mem => free.1 u (List.mem_cons_of_mem _ mem),free.2⟩
  | number l =>
    simp only [step] at h
    split at h
    · cases h; exact .of_mode (by simp) (by simp) (by simp)
    · split_ifs at h
      exact follow_begun (toDouble_ne_undefined _) h
  | after v => exact follow_begun (begun.defined v rfl) h

theorem run_begun {p q : Parser} {s : JsText} (begun : p.Begun) (h : run p s = some q) : q.Begun := by
  induction s generalizing p with
  | nil =>
    cases Option.some.inj h
    exact begun
  | cons u s ih =>
    obtain ⟨r,first,rest⟩ := Option.bind_eq_some_iff.1 (h.symm.trans (List.foldlM_cons ..)).symm
    exact ih (step_begun begun first) rest

theorem run_start {s : JsText} {p : Parser} (h : run ⟨[],.value⟩ s = some p) : p = ⟨[],.value⟩ ∨ p.Begun := by
  induction s with
  | nil => exact .inl (Option.some.inj h).symm
  | cons u s ih =>
    rcases Bool.eq_false_or_eq_true (isBlank u) with blank | solid
    · rw [run_cons_of (step_blank (p := ⟨[],.value⟩) trivial blank)] at h
      exact ih h
    · obtain ⟨q,first,rest⟩ := Option.bind_eq_some_iff.1 ((List.foldlM_cons ..).symm.trans h)
      simp only [step,solid,if_neg Bool.false_ne_true] at first
      exact .inr (run_begun (begin_begun first) rest)

theorem parse_ne_undefined (s : JsText) : parse s ≠ some .undefined := by
  intro h
  obtain ⟨p,read,ends⟩ := Option.bind_eq_some_iff.1 h
  obtain rfl | begun := run_start read
  · cases ends
  · obtain ⟨stack,mode⟩ := p
    cases stack with
    | cons frame rest => cases ends
    | nil =>
      cases mode <;> try cases ends
      · rename_i l
        simp only [result] at ends
        split_ifs at ends
        exact toDouble_ne_undefined _ (Option.some.inj ends)
      · exact begun.defined _ rfl rfl

theorem run_cons_none {p : Parser} {u : UInt16} (h : step p u = none) (s : JsText) : run p (u :: s) = none := by
  rw [run,List.foldlM_cons,h]
  rfl

theorem result_inside {stack : List Frame} {mode : Mode} (h : stack ≠ []) : result ⟨stack,mode⟩ = none := by
  cases stack with
  | nil => exact absurd rfl h
  | cons frame rest => rfl

theorem run_object_behind {p : Parser} (begun : p.Begun) {s : JsText} {v : Value} (reads : Reads s v)
    {c : UInt16} {rest : JsText} (object : s = 0x7b :: 0x22 :: c :: rest)
    (letter : isBlank c = false ∧ c ≠ 0x2c ∧ c ≠ 0x5d ∧ c ≠ 0x7d ∧ c ≠ 0x3a) : run p s >>= result = none := by
  have closed : ∀ stack v, follow stack v c = none := by
    intro stack v
    rcases stack with _ | ⟨_ | _,_⟩ <;> simp [follow,letter]
  have inside : ∀ stack : List Frame, stack ≠ [] → run ⟨stack,.value⟩ s >>= result = none := by
    intro stack nonempty
    obtain ⟨mode,read,-⟩ := reads.ends stack
    rw [read]
    exact result_inside nonempty
  obtain ⟨stack,mode⟩ := p
  cases mode with
  | value => exact inside stack (begun.inside rfl)
  | firstItem =>
    rw [reads.firstItem]
    exact inside _ (List.cons_ne_nil _ _)
  | key first done =>
    rw [object,run_cons_none (by simp [step,isBlank])]
    rfl
  | text role read escape =>
    cases escape with
    | none =>
      have first : step ⟨stack,.text role read .none⟩ 0x7b = some ⟨stack,.text role (read ++ [0x7b]) .none⟩ := by
        simp [step,stepText]
      have second : step ⟨stack,.text role (read ++ [0x7b]) .none⟩ 0x22 =
          some (close stack (read ++ [0x7b]) role) := rfl
      have third : step (close stack (read ++ [0x7b]) role) c = none := by
        cases role with
        | value => exact closed stack _
        | key done => simp [close,step,letter]
      rw [object,run_cons_of first,run_cons_of second,run_cons_none third]
      rfl
    | started =>
      rw [object,run_cons_none (by simp [step,stepText,unescape])]
      rfl
    | hex left code =>
      rw [object,run_cons_none (by simp [step,stepText,hexDigit])]
      rfl
  | colon done key =>
    rw [object,run_cons_none (by simp [step,isBlank])]
    rfl
  | word left w =>
    have stops : step ⟨stack,.word left w⟩ 0x7b = none := by
      cases left with
      | nil => rfl
      | cons u left =>
        have apart : (0x7b : UInt16) ≠ u := by
          rintro rfl
          exact absurd ((begun.word _ _ rfl).1 _ List.mem_cons_self) (by decide)
        simp [step,apart]
    rw [object,run_cons_none stops]
    rfl
  | number l =>
    have stops : step ⟨stack,.number l⟩ 0x7b = none := by
      have next : l.next 0x7b = none := by
        obtain ⟨part,_,_,_,_,_⟩ := l
        cases part <;> rfl
      rcases stack with _ | ⟨_ | _,_⟩ <;> simp [step,next,follow,isBlank]
    rw [object,run_cons_none stops]
    rfl
  | after w =>
    have stops : step ⟨stack,.after w⟩ 0x7b = none := by
      rcases stack with _ | ⟨_ | _,_⟩ <;> simp [step,follow,isBlank]
    rw [object,run_cons_none stops]
    rfl

/-- An object written behind a text that is not blank is lost with it. -/
theorem parse_object_behind {u : UInt16} {t s : JsText} {v : Value} (solid : isBlank u = false) (reads : Reads s v)
    {c : UInt16} {rest : JsText} (object : s = 0x7b :: 0x22 :: c :: rest)
    (letter : isBlank c = false ∧ c ≠ 0x2c ∧ c ≠ 0x5d ∧ c ≠ 0x7d ∧ c ≠ 0x3a) : parse (u :: t ++ s) = none := by
  rw [parse,run_append]
  cases front : run ⟨[],.value⟩ (u :: t) with
  | none => rfl
  | some p =>
    have start : step ⟨[],.value⟩ u = begin [] u := by simp [step,solid]
    cases first : begin [] u with
    | none =>
      rw [run_cons_none (start.trans first)] at front
      cases front
    | some q =>
      rw [run_cons_of (start.trans first)] at front
      exact run_object_behind (run_begun (begin_begun first) front) reads object letter

theorem isBlank_of_isSpace {u : UInt16} (h : isSpace u = false) : isBlank u = false := by
  by_contra blank
  rw [Bool.not_eq_false,isBlank] at blank
  simp only [Bool.or_eq_true,decide_eq_true_eq] at blank
  rcases blank with ((rfl | rfl) | rfl) | rfl <;> exact absurd h (by decide)

def Parser.Enclosed (p : Parser) : Prop := ∀ l, p.mode = .number l → p.stack ≠ []

theorem Parser.Enclosed.of_mode {p : Parser} (number : ∀ l, p.mode ≠ .number l) : p.Enclosed :=
  fun l same => absurd same (number l)

theorem follow_enclosed {stack : List Frame} {v : Value} {u : UInt16} {p : Parser} (h : follow stack v u = some p) :
    p.Enclosed := by
  cases stack with
  | nil =>
    simp only [follow] at h
    split_ifs at h
    cases h
    exact .of_mode (by simp)
  | cons frame rest =>
    cases frame <;> simp only [follow] at h <;> split_ifs at h <;> cases h <;> exact .of_mode (by simp)

theorem begin_enclosed {stack : List Frame} {u : UInt16} {p : Parser} (inside : stack ≠ [])
    (h : begin stack u = some p) : p.Enclosed := by
  unfold begin at h
  split_ifs at h
  · cases h; nofun
  · cases h; nofun
  · cases h; nofun
  · cases h; nofun
  · cases h; nofun
  · cases h; nofun
  · obtain ⟨l,-,rfl⟩ := Option.map_eq_some_iff.1 h
    exact fun _ _ => inside

theorem step_enclosed {p q : Parser} {u : UInt16} (begun : p.Begun) (enclosed : p.Enclosed)
    (h : step p u = some q) : q.Enclosed := by
  obtain ⟨stack,mode⟩ := p
  cases mode with
  | value =>
    simp only [step] at h
    split_ifs at h
    · cases h; exact .of_mode (by simp)
    · exact begin_enclosed (begun.inside rfl) h
  | firstItem =>
    simp only [step] at h
    split_ifs at h
    · cases h; exact .of_mode (by simp)
    · cases h; exact .of_mode (by simp)
    · exact begin_enclosed (List.cons_ne_nil _ _) h
  | key first done =>
    simp only [step] at h
    split_ifs at h <;> cases h <;> exact .of_mode (by simp)
  | text role read escape =>
    simp only [step] at h
    cases escape with
    | none =>
      simp only [stepText] at h
      split_ifs at h <;> cases h
      · cases role <;> exact .of_mode (by simp [close])
      · exact .of_mode (by simp)
      · exact .of_mode (by simp)
    | started =>
      simp only [stepText] at h
      split_ifs at h
      · cases h; exact .of_mode (by simp)
      · obtain ⟨c,-,rfl⟩ := Option.map_eq_some_iff.1 h
        exact .of_mode (by simp)
    | hex left code =>
      obtain ⟨d,-,rfl⟩ := Option.map_eq_some_iff.1 h
      split_ifs <;> exact .of_mode (by simp)
  | colon done key =>
    simp only [step] at h
    split_ifs at h <;> cases h <;> exact .of_mode (by simp)
  | word left v =>
    cases left with
    | nil => cases h
    | cons w rest =>
      simp only [step] at h
      split_ifs at h <;> cases h <;> exact .of_mode (by simp)
  | number l =>
    simp only [step] at h
    split at h
    · cases h
      exact fun _ _ => enclosed l rfl
    · split_ifs at h
      exact follow_enclosed h
  | after v => exact follow_enclosed h

theorem run_enclosed {p q : Parser} {s : JsText} (begun : p.Begun) (enclosed : p.Enclosed)
    (h : run p s = some q) : q.Enclosed := by
  induction s generalizing p with
  | nil =>
    cases Option.some.inj h
    exact enclosed
  | cons u s ih =>
    obtain ⟨r,first,rest⟩ := Option.bind_eq_some_iff.1 ((List.foldlM_cons ..).symm.trans h)
    exact ih (step_begun begun first) (step_enclosed begun enclosed first) rest

theorem run_whole {v : Value} {s : JsText} {p : Parser} (h : run ⟨[],.after v⟩ s = some p) :
    ∀ u ∈ s, isBlank u = true := by
  induction s with
  | nil => nofun
  | cons u s ih =>
    obtain ⟨q,first,rest⟩ := Option.bind_eq_some_iff.1 ((List.foldlM_cons ..).symm.trans h)
    simp only [step,follow] at first
    split_ifs at first with blank
    cases first
    intro w mem
    rcases List.mem_cons.1 mem with rfl | mem
    · exact blank
    · exact ih rest w mem

/-- The first units of a text that is not a number, without its end, are no value. -/
theorem parse_cut {u w : UInt16} {front rest : JsText} {v : Value} (whole : parse (u :: front ++ rest) = some v)
    (solid : isBlank u = false) (notNumber : Literal.start u = none) (missing : w ∈ rest)
    (unblank : isBlank w = false) : parse (u :: front) = none := by
  by_contra some_value
  obtain ⟨x,read⟩ := Option.ne_none_iff_exists'.1 some_value
  obtain ⟨p,ran,ends⟩ := Option.bind_eq_some_iff.1 read
  have start : step ⟨[],.value⟩ u = begin [] u := by simp [step,solid]
  obtain ⟨q,first,more⟩ := Option.bind_eq_some_iff.1 ((List.foldlM_cons ..).symm.trans ran)
  rw [start] at first
  have noNumber : q.Enclosed := by
    unfold begin at first
    split_ifs at first
    · cases first; exact .of_mode (by simp)
    · cases first; exact .of_mode (by simp)
    · cases first; exact .of_mode (by simp)
    · cases first; exact .of_mode (by simp)
    · cases first; exact .of_mode (by simp)
    · cases first; exact .of_mode (by simp)
    · rw [notNumber] at first
      cases first
  have enclosed := run_enclosed (begin_begun first) noNumber more
  -- the value is complete, but the rest of the text goes on
  have complete : ∃ x, p = ⟨[],.after x⟩ := by
    obtain ⟨stack,mode⟩ := p
    cases stack with
    | cons frame rest => cases ends
    | nil =>
      cases mode with
      | after x => exact ⟨x,rfl⟩
      | number l => exact absurd rfl (enclosed l rfl)
      | _ => cases ends
  obtain ⟨x,rfl⟩ := complete
  obtain ⟨r,last,-⟩ := Option.bind_eq_some_iff.1 whole
  rw [run_append_of ran] at last
  exact absurd (run_whole last w missing) (by rw [unblank]; decide)

theorem result_replacement {p q : Parser} (begun : p.Begun) (h : step p replacement = some q) : result q = none := by
  have number : ∀ l : Literal, l.next replacement = none := by
    rintro ⟨part,_,_,_,_,_⟩
    cases part <;> rfl
  have follows : ∀ stack v, follow stack v replacement = none := by
    intro stack v
    rcases stack with _ | ⟨_ | _,_⟩ <;> rfl
  have begins : ∀ stack, begin stack replacement = none := fun stack => rfl
  obtain ⟨stack,mode⟩ := p
  cases mode with
  | value => rw [show step ⟨stack,.value⟩ replacement = none from begins stack] at h; cases h
  | firstItem => rw [show step ⟨stack,.firstItem⟩ replacement = none from begins (.item [] :: stack)] at h; cases h
  | key first done => rw [show step ⟨stack,.key first done⟩ replacement = none from rfl] at h; cases h
  | text role read escape =>
    cases escape with
    | none =>
      cases h
      cases stack <;> rfl
    | started => cases h
    | hex left code => cases h
  | colon done key => cases h
  | word left v =>
    cases left with
    | nil => cases h
    | cons w rest =>
      have apart : replacement ≠ w := by
        rintro rfl
        exact absurd ((begun.word _ _ rfl).1 _ List.mem_cons_self) (by decide)
      simp [step,apart] at h
  | number l =>
    simp only [step,number,follows] at h
    split_ifs at h
  | after v => rw [show step ⟨stack,.after v⟩ replacement = none from follows stack v] at h; cases h

theorem parse_replacement (front : JsText) : parse (front ++ [replacement]) = none := by
  rw [parse,run_append]
  cases ran : run ⟨[],.value⟩ front with
  | none => rfl
  | some p =>
    change (step p replacement >>= fun q => some q) >>= result = none
    cases last : step p replacement with
    | none => rfl
    | some q =>
      obtain rfl | begun := run_start ran
      · cases last
      · exact result_replacement begun last

theorem text_ends {v : Value} (h : IsJson v) (number : ∀ n, v ≠ .num n) (gap depth : Nat) :
    ∃ u inner w, text gap depth v = u :: inner ++ [w] ∧ isSpace u = false ∧ isSpace w = false ∧
      Literal.start u = none := by
  have brackets : ∀ opening closing parts, ∃ inner, bracket opening closing gap depth parts =
      opening :: inner ++ [closing] := by
    intro opening closing parts
    cases parts with
    | nil => exact ⟨[],rfl⟩
    | cons part parts => exact ⟨_,rfl⟩
  cases h with
  | null => exact ⟨0x6e,ofString "ul",0x6c,rfl,rfl,rfl,rfl⟩
  | bool b =>
    cases b with
    | false => exact ⟨0x66,ofString "als",0x65,rfl,rfl,rfl,rfl⟩
    | true => exact ⟨0x74,ofString "ru",0x65,rfl,rfl,rfl,rfl⟩
  | num n => exact absurd rfl (number n)
  | str s => exact ⟨0x22,quoteFrom false s,0x22,rfl,rfl,rfl,rfl⟩
  | arr items =>
    obtain ⟨inner,text⟩ := brackets 0x5b 0x5d (itemTexts gap (depth+1) items)
    exact ⟨0x5b,inner,0x5d,text,rfl,rfl,rfl⟩
  | obj members =>
    obtain ⟨inner,text⟩ := brackets 0x7b 0x7d (memberTexts gap (depth+1) members)
    exact ⟨0x7b,inner,0x7d,text,rfl,rfl,rfl⟩

theorem trim_of_ends {u w : UInt16} {inner : JsText} (first : isSpace u = false) (last : isSpace w = false) :
    trim (u :: inner ++ [w]) = u :: inner ++ [w] :=
  trim_append [] first last

theorem digitOf_of_space {u : UInt16} (h : isSpace u = true) : digitOf u = none := by
  simp only [digitOf]
  split_ifs with range
  · have solid : isSpace u = false := by
      obtain ⟨low,high⟩ := range
      simp only [isSpace,Bool.or_eq_false_iff,beq_eq_false_iff_ne,Bool.and_eq_false_iff,decide_eq_false_iff_not]
      omega
    rw [solid] at h
    cases h
  · rfl

theorem next_of_space {u : UInt16} (h : isSpace u = true) (l : Literal) : l.next u = none ∧ Literal.start u = none := by
  have apart : ∀ n : UInt16, isSpace n = false → u ≠ n := by
    rintro n solid rfl
    rw [h] at solid
    cases solid
  have digit := digitOf_of_space h
  obtain ⟨part,_,_,_,_,_⟩ := l
  refine ⟨?_,by simp [Literal.start,digit,apart 0x2d (by decide),apart 0x30 (by decide)]⟩
  cases part <;>
    simp [Literal.next,Literal.point,Literal.mark,digit,apart 0x30 (by decide),apart 0x2e (by decide),
      apart 0x65 (by decide),apart 0x45 (by decide),apart 0x2b (by decide),apart 0x2d (by decide)]

theorem literal_solid {l r : Literal} {s : JsText} (h : s.foldlM Literal.next l = some r) :
    ∀ u ∈ s, isSpace u = false := by
  induction s generalizing l with
  | nil => nofun
  | cons u s ih =>
    rw [List.foldlM_cons] at h
    obtain ⟨m,next,rest⟩ := Option.bind_eq_some_iff.1 h
    intro w mem
    rcases List.mem_cons.1 mem with rfl | mem
    · by_contra space
      rw [Bool.not_eq_false] at space
      rw [(next_of_space space l).1] at next
      cases next
    · exact ih rest w mem

theorem numberText_solid {x : Rat} (h : IsDouble x) : ∀ u ∈ numberText x, isSpace u = false := by
  obtain ⟨l,read,-⟩ := readLiteral_numberText h
  cases spelled : numberText x with
  | nil => nofun
  | cons u rest =>
    rw [spelled] at read
    obtain ⟨first,starts,more⟩ := Option.bind_eq_some_iff.1 read
    intro w mem
    rcases List.mem_cons.1 mem with rfl | mem
    · by_contra space
      rw [Bool.not_eq_false] at space
      rw [(next_of_space space first).2] at starts
      cases starts
    · exact literal_solid more w mem

theorem trim_text {v : Value} (h : IsJson v) (gap : Nat) : trim (text gap 0 v) = text gap 0 v := by
  by_cases number : ∃ n, v = .num n
  · obtain ⟨n,rfl⟩ := number
    cases h with
    | num _ double => exact trim_of_solid (numberText_solid double)
  · obtain ⟨u,inner,w,ends,first,last,-⟩ := text_ends h (fun n same => number ⟨n,same⟩) gap 0
    rw [ends,trim_of_ends first last]

/-- The first bytes of the text of a value are no value, unless it is a number. -/
theorem parse_trim_take {v : Value} (h : IsJson v) (number : ∀ n, v ≠ .num n) (gap : Nat) {n : Nat}
    (short : n < (encodeUtf8 (text gap 0 v)).length) :
    parse (trim (decodeUtf8 ((encodeUtf8 (text gap 0 v)).take n))) = none := by
  obtain ⟨u,inner,w,ends,first,last,start⟩ := text_ends h number gap 0
  obtain ⟨front,rest,split,missing,read⟩ := decodeUtf8_take ((wellFormed_kept gap).text h 0) short
  have whole := parse_text h gap
  -- the last unit of the text is among the missing ones
  have lost : w ∈ rest := by
    have tail := congrArg List.getLast? (ends.symm.trans split)
    rw [List.getLast?_concat,List.getLast?_append_of_ne_nil _ missing] at tail
    exact List.mem_of_getLast? tail.symm
  cases front with
  | nil =>
    rcases read with read | read <;> rw [read] <;> rfl
  | cons a front =>
    have same : a = u := by
      have heads := ends.symm.trans split
      exact (List.cons.inj heads).1.symm
    subst same
    rcases read with read | read
    · obtain ⟨kept,spaces,parts,trimmed⟩ := trim_cons first front
      rw [read,trimmed]
      have longer : parse (a :: kept ++ (spaces ++ rest)) = some v := by
        rw [← whole,split,parts]
        simp
      exact parse_cut longer (isBlank_of_isSpace first) start (List.mem_append_right _ lost)
        (isBlank_of_isSpace last)
    · rw [read,trim_of_ends first (by decide)]
      exact parse_replacement _

end CodeHarbor.Lib.Js.Json
