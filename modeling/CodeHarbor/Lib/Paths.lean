import CodeHarbor.Lib.JsText
set_option autoImplicit false

namespace CodeHarbor.Lib.Js

/-! POSIX paths, as `node:path` resolves them. -/

def slash : UInt16 := 0x2f

def dot : UInt16 := 0x2e

def dots : JsText := [dot,dot]

/-- A path that starts at the root. -/
structure AbsolutePath where
  text : JsText
  absolute : text.head? = some slash
  deriving DecidableEq, Repr

structure IsName (name : JsText) : Prop where
  solid : name ≠ []
  whole : slash ∉ name
  here : name ≠ [dot]
  up : name ≠ dots

/-- One more part between slashes; nothing lies above the root. -/
def enter (cs : List JsText) (part : JsText) : List JsText :=
  if part = [] ∨ part = [dot] then cs else if part = dots then cs.dropLast else cs ++ [part]

/-- `part` is what was read since the last slash. -/
def walk (cs : List JsText) (part : JsText) : JsText → List JsText
  | [] => enter cs part
  | u :: rest => if u = slash then walk (enter cs part) [] rest else walk cs (part ++ [u]) rest

/-- The components of a path from the root, after normalisation. -/
def components (path : JsText) : List JsText := walk [] [] path

def join : List JsText → JsText
  | [] => []
  | [c] => c
  | c :: cs => c ++ slash :: join cs

def render (cs : List JsText) : AbsolutePath := ⟨slash :: join cs,rfl⟩

/-- The text that `path.resolve` normalises; the arguments come last one first. -/
def gather (cwd : AbsolutePath) : List JsText → JsText → JsText
  | [], tail => cwd.text ++ slash :: tail
  | path :: paths, tail =>
    if path = [] then gather cwd paths tail
    else if path.head? = some slash then path ++ slash :: tail
    else gather cwd paths (path ++ slash :: tail)

/-- `path.resolve(...paths)` in a working directory. -/
def resolve (cwd : AbsolutePath) (paths : List JsText) : AbsolutePath :=
  render (components (gather cwd paths.reverse []))

def commonLength : List JsText → List JsText → Nat
  | a :: as, b :: bs => if a = b then commonLength as bs+1 else 0
  | _, _ => 0

/-- `path.relative(from, to)`: up to the last common component, and down from there. -/
def relative (cwd : AbsolutePath) (source target : JsText) : JsText :=
  let a := components (resolve cwd [source]).text
  let b := components (resolve cwd [target]).text
  let common := commonLength a b
  join (List.replicate (a.length-common) dots ++ b.drop common)

def isAbsolute (path : JsText) : Bool := path.head? = some slash

/-- `path.basename(path)`. -/
def basename (path : JsText) : JsText :=
  ((path.reverse.dropWhile (· = slash)).takeWhile (· ≠ slash)).reverse

/-- `path.extname(name)` of a name without slashes. -/
def extname (name : JsText) : JsText :=
  let stem := name.reverse.dropWhile (· ≠ dot)
  if stem.length ≤ 1 ∨ name = dots then [] else name.drop (stem.length-1)

section Walk

variable {cs : List JsText} {part name : JsText}

theorem enter_name (h : IsName name) : enter cs name = cs ++ [name] := by
  simp [enter,h.solid,h.here,h.up]

theorem enter_names (hcs : ∀ c ∈ cs, IsName c) (hpart : slash ∉ part) : ∀ c ∈ enter cs part, IsName c := by
  intro c mem
  unfold enter at mem
  split_ifs at mem with none up
  · exact hcs c mem
  · exact hcs c ((List.dropLast_sublist cs).subset mem)
  · rw [not_or] at none
    rcases List.mem_append.1 mem with old | new
    · exact hcs c old
    · rw [List.mem_singleton.1 new]
      exact ⟨none.1,hpart,none.2,up⟩

theorem walk_names (hcs : ∀ c ∈ cs, IsName c) (hpart : slash ∉ part) (path : JsText) :
    ∀ c ∈ walk cs part path, IsName c := by
  induction path generalizing cs part with
  | nil => exact enter_names hcs hpart
  | cons u path ih =>
    rw [walk]
    split_ifs with separator
    · exact ih (enter_names hcs hpart) (by simp)
    · refine ih hcs ?_
      simp [hpart,Ne.symm separator]

theorem components_names (path : JsText) : ∀ c ∈ components path, IsName c :=
  walk_names (by simp) (by simp) path

theorem walk_append_slash (path rest : JsText) :
    walk cs part (path ++ slash :: rest) = walk (walk cs part path) [] rest := by
  induction path generalizing cs part with
  | nil => simp [walk]
  | cons u path ih =>
    rw [List.cons_append,walk,walk]
    split_ifs
    · exact ih
    · exact ih

theorem walk_whole (hname : slash ∉ name) : walk cs part name = enter cs (part ++ name) := by
  induction name generalizing part with
  | nil => simp [walk]
  | cons u name ih =>
    have other : u ≠ slash := fun same => hname (by rw [same]; exact List.mem_cons_self)
    rw [walk,if_neg other,ih fun mem => hname (List.mem_cons_of_mem u mem),List.append_assoc]
    rfl

theorem walk_name (h : IsName name) : walk cs [] name = cs ++ [name] := by
  rw [walk_whole h.whole,List.nil_append,enter_name h]

theorem walk_join (h : ∀ c ∈ cs, IsName c) (before : List JsText) : walk before [] (join cs) = before ++ cs := by
  induction cs generalizing before with
  | nil => simp [join,walk,enter]
  | cons c cs ih =>
    have name := h c List.mem_cons_self
    cases cs with
    | nil => exact walk_name name
    | cons d cs =>
      have others := ih (fun e mem => h e (List.mem_cons_of_mem c mem))
      rw [join,walk_append_slash,walk_name name,others,List.append_assoc]
      · rfl
      · nofun

theorem walk_slash (path : JsText) : walk cs [] (slash :: path) = walk cs [] path := by
  simp [walk,enter]

theorem components_render (h : ∀ c ∈ cs, IsName c) : components (render cs).text = cs := by
  rw [components,render,walk_slash,walk_join h,List.nil_append]

theorem components_resolve (cwd : AbsolutePath) (paths : List JsText) :
    components (resolve cwd paths).text = components (gather cwd paths.reverse []) :=
  components_render (components_names _)

theorem components_resolve_absolute (cwd path : AbsolutePath) :
    components (resolve cwd [path.text]).text = components path.text := by
  have solid : path.text ≠ [] := by
    intro none
    have absolute := path.absolute
    simp [none] at absolute
  rw [components_resolve,List.reverse_singleton,gather,if_neg solid,if_pos path.absolute,components,
    walk_append_slash]
  simp [walk,enter,components]

theorem components_resolve_child (cwd directory : AbsolutePath) {name : JsText} (h : IsName name) :
    components (resolve cwd [directory.text,name]).text = components directory.text ++ [name] := by
  have relative_name : name.head? ≠ some slash := by
    intro first
    exact h.whole (List.mem_of_mem_head? first)
  have solid : directory.text ≠ [] := by
    intro none
    have absolute := directory.absolute
    simp [none] at absolute
  rw [components_resolve]
  change components (gather cwd [name,directory.text] []) = _
  rw [gather,if_neg h.solid,if_neg relative_name,gather,if_neg solid,if_pos directory.absolute,components,
    walk_append_slash,walk_append_slash,walk_name h]
  simp [walk,enter,components]

end Walk

section Relative

theorem commonLength_le (a b : List JsText) : commonLength a b ≤ a.length := by
  induction a generalizing b with
  | nil => simp [commonLength]
  | cons c a ih =>
    cases b with
    | nil => simp [commonLength]
    | cons d b =>
      rw [commonLength,List.length_cons]
      split_ifs
      · exact Nat.succ_le_succ (ih b)
      · exact Nat.zero_le _

theorem commonLength_eq_iff {a b : List JsText} : commonLength a b = a.length ↔ a <+: b := by
  induction a generalizing b with
  | nil => simp [commonLength]
  | cons c a ih =>
    cases b with
    | nil => simp [commonLength]
    | cons d b =>
      rw [commonLength,List.length_cons,List.cons_prefix_cons]
      split_ifs with same
      · rw [Nat.add_right_cancel_iff,ih]
        simp [same]
      · simp [same]

theorem join_eq_nil {cs : List JsText} (h : ∀ c ∈ cs, c ≠ []) : join cs = [] ↔ cs = [] := by
  cases cs with
  | nil => simp [join]
  | cons c cs =>
    have solid := h c List.mem_cons_self
    cases cs with
    | nil => simpa [join] using solid
    | cons d cs => simp [join]

theorem dots_join_iff {c : JsText} (cs : List JsText) (hc : c ≠ []) (hslash : slash ∉ c) :
    dots <+: join (c :: cs) ↔ dots <+: c := by
  cases cs with
  | nil => exact Iff.rfl
  | cons d cs =>
    change dots <+: c ++ slash :: join (d :: cs) ↔ _
    cases c with
    | nil => exact absurd rfl hc
    | cons u c =>
      cases c with
      | nil => simp [dots,dot,slash]
      | cons v c => simp [dots,List.cons_prefix_cons]

theorem head?_join {c : JsText} (cs : List JsText) (hc : c ≠ []) (hslash : slash ∉ c) :
    (join (c :: cs)).head? ≠ some slash := by
  have first : (join (c :: cs)).head? = c.head? := by
    obtain ⟨u,rest,rfl⟩ := List.exists_cons_of_ne_nil hc
    cases cs <;> rfl
  rw [first]
  intro head
  exact hslash (List.mem_of_mem_head? head)

theorem dots_name : dots ≠ [] ∧ slash ∉ dots := by decide

variable (cwd : AbsolutePath) {source target : AbsolutePath}

theorem relative_below (h : components source.text <+: components target.text) :
    relative cwd source.text target.text =
      join ((components target.text).drop (components source.text).length) := by
  simp only [relative,components_resolve_absolute]
  rw [commonLength_eq_iff.2 h,Nat.sub_self]
  rfl

theorem relative_elsewhere (h : ¬ components source.text <+: components target.text) :
    ∃ cs, relative cwd source.text target.text = join (dots :: cs) := by
  have fewer : commonLength (components source.text) (components target.text) <
      (components source.text).length :=
    lt_of_le_of_ne (commonLength_le _ _) (fun same => h (commonLength_eq_iff.1 same))
  obtain ⟨k,ups⟩ := Nat.exists_eq_add_one_of_ne_zero (Nat.sub_ne_zero_of_lt fewer)
  simp only [relative,components_resolve_absolute]
  rw [ups,List.replicate_succ,List.cons_append]
  exact ⟨_,rfl⟩

end Relative

end CodeHarbor.Lib.Js
