import CodeHarbor.Lib.JsText
set_option autoImplicit false

namespace CodeHarbor.Lib.Js

/-- A value as `JSON.parse` builds it, and `undefined` for what is absent. A literal beyond
the range of a double reads as an infinity. -/
inductive Value where
  | undefined
  | null
  | bool (b : Bool)
  | num (n : Rat)
  | infinity (negative : Bool)
  | str (s : JsText)
  | arr (items : List Value)
  | obj (members : List (JsText × Value))

namespace Value

instance : Inhabited Value := ⟨undefined⟩

def lit (s : String) : Value := .str (ofString s)

def truthy : Value → Bool
  | undefined => false
  | null => false
  | bool b => b
  | num n => n ≠ 0
  | infinity _ => true
  | str s => s ≠ []
  | arr _ => true
  | obj _ => true

/-- The operator `||`. -/
def or (v w : Value) : Value := if v.truthy then v else w

/-- The operator `??`. -/
def coalesce : Value → Value → Value
  | undefined, w => w
  | null, w => w
  | v, _ => v

/-- The value of a property in a spread: a present one replaces the other. -/
def coalesceUndefined : Value → Value → Value
  | undefined, w => w
  | v, _ => v

/-- The operator `===`. Objects are equal only to themselves, and the values compared here
come from documents that were parsed one by one. (An object that meets itself again counts as
another one: a value has no identity here.) -/
def strictEq : Value → Value → Bool
  | undefined, undefined => true
  | null, null => true
  | bool a, bool b => a = b
  | num m, num n => m = n
  | infinity a, infinity b => a = b
  | str s, str t => s = t
  | _, _ => false

def is (v : Value) (s : String) : Bool := v.strictEq (lit s)

/-- `v?.key`. Primitive values and arrays have none of the keys that are asked for. -/
def get (v : Value) (key : String) : Value :=
  match v with
  | obj members => (members.lookup (ofString key)).getD undefined
  | _ => undefined

/-- `v.key`, which throws on `null` and `undefined`. -/
def read (v : Value) (key : String) : Option Value :=
  match v with
  | undefined => none
  | null => none
  | _ => some (v.get key)

/-- The value when `typeof v === "string"`. -/
def text? : Value → Option JsText
  | str s => some s
  | _ => none

/-- `typeof v === "string" ? v : undefined`. -/
def ifText : Value → Value
  | str s => str s
  | _ => undefined

/-- The elements when `Array.isArray(v)`. -/
def items? : Value → Option (List Value)
  | arr items => some items
  | _ => none

def isDefined : Value → Bool
  | undefined => false
  | _ => true

/-- `typeof v === "object"`. -/
def isObject : Value → Bool
  | null => true
  | arr _ => true
  | obj _ => true
  | _ => false

@[simp] theorem truthy_str (s : JsText) : (str s).truthy = decide (s ≠ []) := rfl

@[simp] theorem truthy_undefined : undefined.truthy = false := rfl

@[simp] theorem truthy_obj (members : List (JsText × Value)) : (obj members).truthy = true := rfl

theorem is_iff {v : Value} {s : String} : v.is s = true ↔ v = lit s := by
  cases v <;> simp [is,strictEq,lit]

theorem strictEq_str {v : Value} {s : JsText} : v.strictEq (.str s) = true ↔ v = .str s := by
  cases v <;> simp [strictEq]

theorem strictEq_comm (v w : Value) : v.strictEq w = w.strictEq v := by
  cases v <;> cases w <;> simp [strictEq,eq_comm]

theorem or_of_truthy {v : Value} (h : v.truthy = true) (w : Value) : v.or w = v := by
  simp [or,h]

theorem or_of_falsy {v : Value} (h : v.truthy = false) (w : Value) : v.or w = w := by
  simp [or,h]

end Value

/-- What the clock and the random digits give at some moment. -/
structure Moment where
  now : JsText
  isoNow : JsText
  random : JsText
  deriving DecidableEq, Repr

/-- The parts of a JavaScript engine that are not spelled out: `JSON.parse`, none when it
throws, and the text that `+`, a template and `join` make of a value other than a string,
none when the coercion throws. -/
structure Engine where
  parseJson : JsText → Option Value
  coerce : Value → Option JsText

structure Runtime extends Engine, Moment

def Engine.at (js : Engine) (moment : Moment) : Runtime := { js with toMoment := moment }

def Runtime.textOf (rt : Runtime) : Value → Option JsText
  | .str s => some s
  | v => rt.coerce v

/-- `[...s]` for a string: one element for each code point. -/
def codePoints : JsText → List Value
  | [] => []
  | [u] => [.str [u]]
  | u :: v :: rest =>
    if isHigh u && isLow v then .str [u,v] :: codePoints rest
    else .str [u] :: codePoints (v :: rest)

/-- `[...v]`, none when the value is not iterable. -/
def Value.spread : Value → Option (List Value)
  | .arr items => some items
  | .str s => some (codePoints s)
  | _ => none

def Runtime.join (rt : Runtime) (separator : JsText) (values : List Value) : Option JsText :=
  (values.mapM rt.textOf).map (List.intercalate separator)

/-- The one key whose assignment an object literal ignores, unless the value is an object. -/
def protoKey : JsText := ofString "__proto__"

def modifyFirst {α : Type} (p : α → Bool) (f : α → α) : List α → List α
  | [] => []
  | x :: xs => if p x then f x :: xs else x :: modifyFirst p f xs

def modifyLast {α : Type} (p : α → Bool) (f : α → α) (xs : List α) : List α :=
  (modifyFirst p f xs.reverse).reverse

end CodeHarbor.Lib.Js
