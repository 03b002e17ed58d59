import CodeHarbor.Lib.OrdMap
set_option autoImplicit false

namespace CodeHarbor.Lib.Sql

variable {κ ρ α : Type}

/-- `NULLIF(column, '')` on a nullable text column. -/
def nullIfEmpty (column : Option (List α)) : Option (List α) :=
  match column with
  | some [] => none
  | other => other

/-- `COALESCE(first, second)`. -/
def coalesce (first second : Option α) : Option α := first.or second

/-- `COALESCE(column, '')`, what a reader of the column sees. -/
def readText (column : Option (List α)) : List α := column.getD []

/-- `INSERT … ON CONFLICT(key) DO UPDATE SET … WHERE …`, with the number of rows it
affected: the row is inserted when the key is new, and otherwise updated when it meets
the condition. -/
def insertOnConflict [DecidableEq κ] (table : OrdMap κ ρ) (key : κ) (row : ρ) (update : ρ → ρ)
    (condition : ρ → Bool) : OrdMap κ ρ × Nat :=
  match table.get key with
  | none => (table.set key row,1)
  | some stored => if condition stored then (table.set key (update stored),1) else (table,0)

@[simp] theorem readText_none : readText (none : Option (List α)) = [] := rfl

@[simp] theorem readText_some (text : List α) : readText (some text) = text := rfl

theorem readText_nullIfEmpty (column : Option (List α)) :
    readText (nullIfEmpty column) = readText column := by
  cases column with
  | none => rfl
  | some text =>
    cases text with
    | nil => rfl
    | cons x text => rfl

theorem nullIfEmpty_eq_none {column : Option (List α)} :
    nullIfEmpty column = none ↔ readText column = [] := by
  cases column with
  | none => simp [nullIfEmpty]
  | some text => cases text <;> simp [nullIfEmpty]

theorem readText_coalesce (first second : Option (List α)) :
    readText (coalesce (nullIfEmpty first) second) =
      if readText first = [] then readText second else readText first := by
  cases first with
  | none => simp [nullIfEmpty,coalesce]
  | some text =>
    cases text with
    | nil => simp [nullIfEmpty,coalesce]
    | cons x text => simp [nullIfEmpty,coalesce]

section Table

variable [DecidableEq κ] {table : OrdMap κ ρ} {key : κ} {row : ρ} {update : ρ → ρ}
  {condition : ρ → Bool}

theorem insertOnConflict_new (h : table.get key = none) :
    insertOnConflict table key row update condition = (table.set key row,1) := by
  simp [insertOnConflict,h]

theorem insertOnConflict_update {stored : ρ} (h : table.get key = some stored)
    (hc : condition stored = true) :
    insertOnConflict table key row update condition = (table.set key (update stored),1) := by
  simp [insertOnConflict,h,hc]

theorem insertOnConflict_skip {stored : ρ} (h : table.get key = some stored)
    (hc : condition stored = false) :
    insertOnConflict table key row update condition = (table,0) := by
  simp [insertOnConflict,h,hc]

end Table

end CodeHarbor.Lib.Sql
