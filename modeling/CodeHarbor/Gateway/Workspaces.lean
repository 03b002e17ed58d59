import CodeHarbor.Lib.Paths
set_option autoImplicit false

namespace CodeHarbor.Gateway.Workspaces
open Lib.Js

/-! Which directories a client may work in. -/

def isPathWithin (cwd : AbsolutePath) (rootPath targetPath : JsText) : Bool :=
  let resolvedRoot := resolve cwd [rootPath]
  let resolvedTarget := resolve cwd [targetPath]
  let relative := relative cwd resolvedRoot.text resolvedTarget.text
  relative = [] || (!dots.isPrefixOf relative && !isAbsolute relative)

/-- What the file system says: `realpath`, none when it fails, and whether `stat` finds a
directory. -/
structure FileSystem where
  realpath : JsText → Option AbsolutePath
  isDirectory : AbsolutePath → Bool

def resolveAllowedWorkspaceUnbounded (fs : FileSystem) (cwd : AbsolutePath)
    (allowedFilesystemRoots : List JsText) (rawPath : JsText) (allowTrustedOutsideRoots : Bool) :
    Option AbsolutePath :=
  match fs.realpath (resolve cwd [rawPath]).text with
  | none => none
  | some workspace =>
    if fs.isDirectory workspace = false then none
    else if allowTrustedOutsideRoots then some workspace
    else if allowedFilesystemRoots.any (fun rootPath =>
      (fs.realpath (resolve cwd [rootPath]).text).any (fun root => isPathWithin cwd root.text workspace.text))
    then some workspace
    else none

/-- The directory itself, or something below it. -/
def Contains (root target : AbsolutePath) : Prop := components root.text <+: components target.text

/-- The first step down from the root is to a name that begins with two dots. -/
def ThroughDots (root target : AbsolutePath) : Prop :=
  ∃ name rest, components target.text = components root.text ++ name :: rest ∧ dots <+: name

def AllowedRoot (fs : FileSystem) (cwd : AbsolutePath) (allowedFilesystemRoots : List JsText)
    (root : AbsolutePath) : Prop :=
  ∃ rootPath ∈ allowedFilesystemRoots, fs.realpath (resolve cwd [rootPath]).text = some root

def ExistingDirectory (fs : FileSystem) (cwd : AbsolutePath) (rawPath : JsText) (workspace : AbsolutePath) :
    Prop :=
  fs.realpath (resolve cwd [rawPath]).text = some workspace ∧ fs.isDirectory workspace = true

theorem isPathWithin_iff (cwd root target : AbsolutePath) :
    isPathWithin cwd root.text target.text = true ↔ Contains root target ∧ ¬ ThroughDots root target := by
  have resolved : ∀ path : AbsolutePath, components (resolve cwd [path.text]).text = components path.text :=
    fun path => components_resolve_absolute cwd path
  unfold isPathWithin Contains ThroughDots
  by_cases h : components root.text <+: components target.text
  · have below : components (resolve cwd [root.text]).text <+: components (resolve cwd [target.text]).text := by
      rw [resolved,resolved]
      exact h
    dsimp only
    rw [relative_below cwd below,resolved,resolved]
    obtain ⟨rest,split⟩ := h
    have names : ∀ c ∈ rest, IsName c := fun c mem =>
      components_names target.text c (by rw [← split]; exact List.mem_append_right _ mem)
    rw [← split,List.drop_left]
    cases rest with
    | nil => simp [join]
    | cons name rest =>
      have name_ok := names name List.mem_cons_self
      have solid : join (name :: rest) ≠ [] := by
        rw [Ne,join_eq_nil fun c mem => (names c mem).solid]
        exact List.cons_ne_nil _ _
      have down : isAbsolute (join (name :: rest)) = false := by
        simpa [isAbsolute] using head?_join rest name_ok.solid name_ok.whole
      simp only [solid,down,decide_false,Bool.false_or,Bool.not_false,Bool.and_true,Bool.not_eq_true',
        ← Bool.not_eq_true,List.isPrefixOf_iff_prefix,dots_join_iff rest name_ok.solid name_ok.whole]
      simp
  · have elsewhere : ¬ components (resolve cwd [root.text]).text <+:
        components (resolve cwd [target.text]).text := by
      rw [resolved,resolved]
      exact h
    obtain ⟨cs,up⟩ := relative_elsewhere cwd elsewhere
    have begins : dots <+: join (dots :: cs) :=
      (dots_join_iff cs dots_name.1 dots_name.2).2 List.prefix_rfl
    have solid : join (dots :: cs) ≠ [] := by
      intro none
      rw [none] at begins
      exact absurd (List.prefix_nil.1 begins) dots_name.1
    dsimp only
    rw [up]
    simp [solid,List.isPrefixOf_iff_prefix.2 begins,h]

theorem ThroughDots.contains {root target : AbsolutePath} (h : ThroughDots root target) : Contains root target := by
  obtain ⟨name,rest,split,-⟩ := h
  exact ⟨name :: rest,split.symm⟩

theorem resolveAllowedWorkspaceUnbounded_iff (fs : FileSystem) (cwd : AbsolutePath)
    (allowedFilesystemRoots : List JsText) (rawPath : JsText) (workspace : AbsolutePath) :
    resolveAllowedWorkspaceUnbounded fs cwd allowedFilesystemRoots rawPath false = some workspace ↔
      ExistingDirectory fs cwd rawPath workspace ∧ ∃ root, AllowedRoot fs cwd allowedFilesystemRoots root ∧
        Contains root workspace ∧ ¬ ThroughDots root workspace := by
  unfold resolveAllowedWorkspaceUnbounded ExistingDirectory AllowedRoot
  cases real : fs.realpath (resolve cwd [rawPath]).text with
  | none => simp
  | some found =>
    dsimp only
    cases directory : fs.isDirectory found with
    | false =>
      simp only [if_true,reduceCtorEq,Option.some.injEq,false_iff,not_and]
      rintro ⟨rfl,yes⟩
      rw [directory] at yes
      cases yes
    | true =>
      have any_root : allowedFilesystemRoots.any (fun rootPath =>
          (fs.realpath (resolve cwd [rootPath]).text).any
            (fun root => isPathWithin cwd root.text found.text)) = true ↔
          ∃ rootPath ∈ allowedFilesystemRoots, ∃ root,
            fs.realpath (resolve cwd [rootPath]).text = some root ∧ Contains root found ∧ ¬ ThroughDots root found := by
        simp only [List.any_eq_true,Option.any_eq_true,isPathWithin_iff]
      rw [if_neg (by simp),if_neg (by simp)]
      constructor
      · intro accepted
        split_ifs at accepted with allowed
        cases accepted
        obtain ⟨rootPath,mem,root,is_real,within⟩ := any_root.1 allowed
        exact ⟨⟨rfl,directory⟩,root,⟨rootPath,mem,is_real⟩,within⟩
      · rintro ⟨⟨same,-⟩,root,⟨rootPath,mem,is_real⟩,within⟩
        cases same
        rw [if_pos (any_root.2 ⟨rootPath,mem,root,is_real,within⟩)]

/-- The guard is the containment of components, and a workspace is accepted if it is in an
allowed root, except behind a name that begins with two dots. -/
theorem isPathWithin_contains_iff (cwd : AbsolutePath) :
    (∀ root target : AbsolutePath,
      ((isPathWithin cwd root.text target.text = true ↔ Contains root target) ↔ ¬ ThroughDots root target)) ∧
    ∀ fs allowedFilesystemRoots rawPath workspace,
      ((resolveAllowedWorkspaceUnbounded fs cwd allowedFilesystemRoots rawPath false = some workspace ↔
          ExistingDirectory fs cwd rawPath workspace ∧
            ∃ root, AllowedRoot fs cwd allowedFilesystemRoots root ∧ Contains root workspace) ↔
        (ExistingDirectory fs cwd rawPath workspace →
          ∀ root, AllowedRoot fs cwd allowedFilesystemRoots root → Contains root workspace →
            ∃ other, AllowedRoot fs cwd allowedFilesystemRoots other ∧ Contains other workspace ∧
              ¬ ThroughDots other workspace)) := by
  constructor
  · intro root target
    rw [isPathWithin_iff]
    have contains : ThroughDots root target → Contains root target := ThroughDots.contains
    tauto
  · intro fs allowedFilesystemRoots rawPath workspace
    rw [resolveAllowedWorkspaceUnbounded_iff]
    constructor
    · intro guard existing root allowed contains
      exact (guard.2 ⟨existing,root,allowed,contains⟩).2
    · intro condition
      constructor
      · rintro ⟨existing,root,allowed,contains,-⟩
        exact ⟨existing,root,allowed,contains⟩
      · rintro ⟨existing,root,allowed,contains⟩
        exact ⟨existing,condition existing root allowed contains⟩

namespace Sample

def root : AbsolutePath := ⟨ofString "/srv",by decide⟩

/-- A directory right below the root whose name begins with two dots. -/
def dotted : AbsolutePath := ⟨ofString "/srv/..cache",by decide⟩

end Sample

/-- The guard turns away a directory in the root. -/
theorem dotted_rejected : components Sample.dotted.text = components Sample.root.text ++ [ofString "..cache"] ∧
    isPathWithin Sample.root Sample.root.text Sample.dotted.text = false := by
  decide

end CodeHarbor.Gateway.Workspaces
