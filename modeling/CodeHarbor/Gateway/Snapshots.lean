import CodeHarbor.Lib.JsonCut
set_option autoImplicit false

namespace CodeHarbor.Gateway.Snapshots
open Lib.Js

/-! A snapshot is written to a temporary file that takes the place of the old one. Any operation
may fail, and the process may end at any of them, a write also in the middle. -/

inductive Fate where
  | succeeds
  | fails
  | crashes
  deriving DecidableEq, Repr

/-- What becomes of a write. One that fails or ends early leaves the file as it was, or the first
bytes of what was to be written. -/
inductive WriteFate where
  | succeeds
  | fails (left : Option Nat)
  | crashes (left : Option Nat)
  deriving DecidableEq, Repr

structure Files where
  file : Option Bytes := none
  temporary : Option Bytes := none
  corrupt : List Bytes := []
  deriving DecidableEq, Repr

inductive Path where
  | file
  | temporary
  deriving DecidableEq, Repr

def Files.set (files : Files) (path : Path) (bytes : Bytes) : Files :=
  match path with
  | .file => { files with file := some bytes }
  | .temporary => { files with temporary := some bytes }

inductive Ending where
  | returned
  | thrown
  | crashed
  deriving DecidableEq, Repr

structure Outcome where
  files : Files
  ending : Ending
  deriving DecidableEq, Repr

namespace Outcome

def andThen (o : Outcome) (next : Files → Outcome) : Outcome :=
  match o.ending with
  | .returned => next o.files
  | _ => o

/-- `try { … } catch { handler }`. -/
def orElse (o : Outcome) (handler : Files → Outcome) : Outcome :=
  match o.ending with
  | .thrown => handler o.files
  | _ => o

end Outcome

def perform (fate : Fate) (effect files : Files) : Outcome :=
  match fate with
  | .succeeds => ⟨effect,.returned⟩
  | .fails => ⟨files,.thrown⟩
  | .crashes => ⟨files,.crashed⟩

/-- `writeFileSync`, which throws before it opens the file when there is nothing to write. -/
def writeFileSync (fate : WriteFate) (path : Path) (data : Option Bytes) (files : Files) : Outcome :=
  match data with
  | none => ⟨files,.thrown⟩
  | some bytes =>
    let cut := fun left : Option Nat => (left.map fun n => files.set path (bytes.take n)).getD files
    match fate with
    | .succeeds => ⟨files.set path bytes,.returned⟩
    | .fails left => ⟨cut left,.thrown⟩
    | .crashes left => ⟨cut left,.crashed⟩

def renameSync (fate : Fate) (files : Files) : Outcome :=
  match files.temporary with
  | none => ⟨files,.thrown⟩
  | some bytes => perform fate { files with file := some bytes, temporary := none } files

/-- `try { rmSync(temporaryPath, { force: true }); } catch { }`. -/
def discard (fate : Fate) (files : Files) : Outcome :=
  (perform fate { files with temporary := none } files).orElse fun files => ⟨files,.returned⟩

/-- The fates of the operations in their order in the source. -/
structure Faults where
  directory : Fate := .succeeds
  write : WriteFate := .succeeds
  rename : Fate := .succeeds
  direct : WriteFate := .succeeds
  remove : Fate := .succeeds
  cleanup : Fate := .succeeds
  deriving DecidableEq, Repr

def serialized (value : Value) : Bytes := encodeUtf8 (Json.stringify 2 value)

/-- `JSON.stringify(value, null, 2)`, which is undefined for undefined. -/
def serialize (value : Value) : Option Bytes := if value.isDefined then some (serialized value) else none

def writeJsonAtomic (faults : Faults) (files : Files) (value : Value) : Outcome :=
  (((perform faults.directory files files).andThen fun files =>
    (writeFileSync faults.write .temporary (serialize value) files).andThen fun files =>
      (renameSync faults.rename files).orElse fun files =>
        (writeFileSync faults.direct .file (serialize value) files).andThen fun files =>
          discard faults.remove files)).orElse fun files => discard faults.cleanup files

/-- `readJson`; `moves` tells whether a corrupt file can be moved away. -/
def readJson (fallback : Value) (moves : Bool) (files : Files) : Value × Files :=
  match files.file with
  | none => (fallback,files)
  | some bytes =>
    let raw := trim (decodeUtf8 bytes)
    if raw = [] then (fallback,files)
    else
      match Json.parse raw with
      | some value => (value,files)
      | none =>
        (fallback,if moves then { files with file := none, corrupt := files.corrupt ++ [bytes] } else files)

/-- The bytes hold a value. -/
def Holds (bytes : Bytes) (value : Value) : Prop := Json.parse (trim (decodeUtf8 bytes)) = some value

/-- Whatever the fallback is, a read gives the one value or the other. -/
def Survives (files : Files) (previous value : Value) : Prop :=
  ∀ fallback moves, (readJson fallback moves files).1 = previous ∨ (readJson fallback moves files).1 = value

/-- How much of the new text stands in the file when the rename fails and the write over the old
file, which then takes its place, is not finished. -/
def Faults.cut (faults : Faults) : Option Nat :=
  if faults.directory = .succeeds ∧ faults.write = .succeeds ∧ faults.rename = .fails then
    match faults.direct with
    | .succeeds => none
    | .fails left => left
    | .crashes left => left
  else none

def Faults.replaces (faults : Faults) : Bool :=
  faults.directory = .succeeds && faults.write = .succeeds &&
    (faults.rename = .succeeds || (faults.rename = .fails && faults.direct = .succeeds))

/-- The bytes that are left are all of them, or the value is a number and they are the digits of
the old or the new one. -/
def Harmless (previous value : Value) (n : Nat) : Prop :=
  (serialized value).length ≤ n ∨ ((∃ x, value = .num x) ∧
    ∃ v, Holds ((serialized value).take n) v ∧ (v = previous ∨ v = value))

theorem discard_file (fate : Fate) (files : Files) : (discard fate files).files.file = files.file := by
  cases fate <;> rfl

theorem orElse_discard_file (o : Outcome) (fate : Fate) :
    (o.orElse fun files => discard fate files).files.file = o.files.file := by
  obtain ⟨files,ending⟩ := o
  cases ending with
  | thrown => exact discard_file fate files
  | _ => rfl

theorem writeJsonAtomic_file (faults : Faults) (files : Files) {value : Value} (defined : value.isDefined = true) :
    (writeJsonAtomic faults files value).files.file =
      match faults.cut with
      | some n => some ((serialized value).take n)
      | none => if faults.replaces then some (serialized value) else files.file := by
  obtain ⟨directory,write,rename,direct,remove,cleanup⟩ := faults
  rw [writeJsonAtomic,orElse_discard_file,serialize,if_pos defined]
  cases directory with
  | fails | crashes => rfl
  | succeeds =>
    cases write with
    | fails left | crashes left => cases left <;> rfl
    | succeeds =>
      cases rename with
      | succeeds | crashes => rfl
      | fails =>
        cases direct with
        | succeeds => exact discard_file remove _
        | fails left | crashes left => cases left <;> rfl

theorem readJson_holds {files : Files} {bytes : Bytes} {v : Value} (file : files.file = some bytes)
    (holds : Holds bytes v) (fallback : Value) (moves : Bool) : (readJson fallback moves files).1 = v := by
  have solid : trim (decodeUtf8 bytes) ≠ [] := by
    intro empty
    rw [Holds,empty] at holds
    cases holds
  rw [Holds] at holds
  simp only [readJson,file]
  rw [if_neg solid,holds]

theorem readJson_fallback {files : Files} {bytes : Bytes} (file : files.file = some bytes)
    (none : Json.parse (trim (decodeUtf8 bytes)) = none) (fallback : Value) (moves : Bool) :
    (readJson fallback moves files).1 = fallback := by
  simp only [readJson,file]
  split_ifs
  · rfl
  · rw [none]
  · rw [none]

theorem survives_iff {files : Files} {bytes : Bytes} {previous value : Value} (file : files.file = some bytes) :
    Survives files previous value ↔ ∃ v, Holds bytes v ∧ (v = previous ∨ v = value) := by
  constructor
  · intro survives
    cases read : Json.parse (trim (decodeUtf8 bytes)) with
    | some v =>
      refine ⟨v,read,?_⟩
      have one := survives .null true
      rwa [readJson_holds file read] at one
    | none =>
      -- of three fallbacks one is neither of the two values
      have any : ∀ fallback, fallback = previous ∨ fallback = value := by
        intro fallback
        have one := survives fallback true
        rwa [readJson_fallback file read] at one
      have h₁ := any .undefined
      have h₂ := any .null
      have h₃ := any (.bool true)
      rcases h₁ with rfl | rfl <;> rcases h₂ with h₂ | h₂ <;> cases h₂ <;>
        rcases h₃ with h₃ | h₃ <;> cases h₃
  · rintro ⟨v,holds,either⟩ fallback moves
    rwa [readJson_holds file holds]

section Written

variable {value : Value}

theorem holds_serialized (json : Json.IsValue value) : Holds (serialized value) (Json.carried value) := by
  have carried := Json.isJson_carried json
  have whole := decodeUtf8_encodeUtf8_append (Json.wellFormed_stringify json 2) []
  rw [List.append_nil,show decodeUtf8 [] = [] from rfl,List.append_nil] at whole
  rw [Holds,serialized,whole,Json.stringify,Json.trim_text carried]
  exact Json.parse_text carried 2

theorem not_holds_take (json : Json.IsValue value) (number : ∀ x, value ≠ .num x) {n : Nat}
    (short : n < (serialized value).length) (v : Value) : ¬ Holds ((serialized value).take n) v := by
  intro holds
  have carriedNumber : ∀ x, Json.carried value ≠ .num x := by
    intro x same
    cases value with
    | num y => exact number y rfl
    | _ => cases same
  have none := Json.parse_trim_take (Json.isJson_carried json) carriedNumber 2 short
  rw [Holds,serialized,Json.stringify,none] at holds
  cases holds

theorem carried_num {x : Rat} (h : value = .num x) : Json.carried value = value := by
  rw [h]
  rfl

end Written

/-- A snapshot survives whatever fails and wherever the process ends, except that the rename
fails and the write over the old file is not finished. -/
theorem writeJsonAtomic_survives_iff {files : Files} {bytes : Bytes} {previous value : Value} (faults : Faults)
    (file : files.file = some bytes) (valid : Holds bytes previous) (json : Json.IsValue value)
    (defined : value.isDefined = true) :
    Survives (writeJsonAtomic faults files value).files previous (Json.carried value) ↔
      ∀ n, faults.cut = some n → Harmless previous value n := by
  have after := writeJsonAtomic_file faults files defined
  cases cut : faults.cut with
  | none =>
    refine ⟨fun _ => nofun,fun _ => ?_⟩
    rw [cut] at after
    dsimp only at after
    split_ifs at after
    · exact (survives_iff after).2 ⟨_,holds_serialized json,.inr rfl⟩
    · exact (survives_iff (after.trans file)).2 ⟨_,valid,.inl rfl⟩
  | some n =>
    rw [cut] at after
    rw [survives_iff after]
    constructor
    · rintro ⟨v,holds,either⟩ m same
      cases same
      rw [Harmless]
      by_contra harmful
      obtain ⟨short,other⟩ := not_or.1 harmful
      by_cases number : ∃ x, value = .num x
      · obtain ⟨x,hx⟩ := number
        rw [carried_num hx] at either
        exact other ⟨⟨x,hx⟩,v,holds,either⟩
      · exact not_holds_take json (fun x same => number ⟨x,same⟩) (not_le.1 short) v holds
    · intro harmless
      rcases harmless n rfl with whole | ⟨⟨x,hx⟩,v,holds,either⟩
      · rw [List.take_of_length_le whole]
        exact ⟨_,holds_serialized json,.inr rfl⟩
      · exact ⟨v,holds,either.imp_right fun h => h.trans (carried_num hx).symm⟩

/-- The process ends after the first byte of the write that follows a failed rename. -/
def cutFaults : Faults := { rename := .fails, direct := .crashes (some 1) }

def oldFiles : Files := { file := some (encodeUtf8 (ofString "[]")) }

theorem holds_oldFiles : Holds (encodeUtf8 (ofString "[]")) (.arr []) := rfl

theorem oldFiles_survive :
    Survives (writeJsonAtomic { rename := .fails } oldFiles (.arr [.null])).files (.arr []) (.arr [.null]) :=
  (writeJsonAtomic_survives_iff { rename := .fails } rfl holds_oldFiles
    (.arr _ (by simpa using Json.IsValue.null)) rfl).2 nofun

theorem writeJsonAtomic_not_survives : ¬ ∀ (faults : Faults) (files : Files) (bytes : Bytes) (previous value : Value),
    files.file = some bytes → Holds bytes previous → Json.IsValue value → value.isDefined = true →
      Survives (writeJsonAtomic faults files value).files previous (Json.carried value) := by
  intro h
  have survives := h cutFaults oldFiles _ (.arr []) (.arr [.null]) rfl rfl (.arr _ (by simpa using Json.IsValue.null)) rfl
  have read : (readJson .null true (writeJsonAtomic cutFaults oldFiles (.arr [.null])).files).1 = .null := rfl
  have one := survives .null true
  rw [read] at one
  rcases one with one | one <;> cases one

end CodeHarbor.Gateway.Snapshots
