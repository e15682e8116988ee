import WeldingServer.Library.Double

/-!
# JavaScript values

The values that `JSON.parse` can answer with, and what a script can ask of one: whether it
is truthy, what a property of it is, what its `length` compares to.  `undefined` is `none`.

A string is a list of UTF-16 code units.  What a script asks of an object it asks of the
object's own properties: the names asked for here are on no prototype, or the value found
there is a method.

`Engine` holds the conversions between numbers, texts and values.  It is a parameter: no
result depends on what they answer.
-/

namespace JavaScript

/-! ## Strings -/

/-- A string of JavaScript: UTF-16 code units. -/
abbrev Text := List UInt16

/-- The code units of a character. -/
def units (c : Char) : Text :=
  if c.toNat < 0x10000 then [c.toNat.toUInt16]
  else
    let offset := c.toNat - 0x10000
    [(0xD800 + offset / 0x400).toUInt16, (0xDC00 + offset % 0x400).toUInt16]

/-- A string literal. -/
def text (s : String) : Text := s.toList.flatMap units

/-! ## Values -/

/-- What `JSON.parse` gives. -/
inductive Value where
  | null
  | boolean (b : Bool)
  | number (x : Double)
  | string (s : Text)
  | array (items : List Value)
  | object (fields : List (Text × Value))

/-- What the code of a page throws. -/
inductive Thrown where
  | syntaxError
  | typeError
deriving DecidableEq, Repr

/-- Conversions between numbers, texts and values. -/
structure Engine where
  /-- `JSON.parse(raw)`, or `none` where it throws. -/
  parse : Text → Option Value
  /-- `x.toFixed(digits)` -/
  toFixed : Double → Nat → Text
  /-- `x * y` -/
  times : Double → Double → Double
  /-- `Number(v)`, or `none` where it throws; a NaN is `some none`. -/
  toNumber : Value → Option (Option Double)
  /-- `String(v)`, or `none` where it throws. -/
  toText : Value → Option Text

namespace Value

/-- `if (v)` -/
def truthy : Value → Bool
  | .null => false
  | .boolean b => b
  | .number x => x ≠ .finite 0
  | .string s => s ≠ []
  | .array _ => true
  | .object _ => true

/-- `typeof v === 'number'`, and the number -/
def number? : Option Value → Option Double
  | some (.number x) => some x
  | _ => none

/-- The `length` of an array or a string. -/
def lengthOf (name : Text) (n : Nat) : Option Value :=
  if name = text "length" then some (.number (.finite n)) else none

/-- `v.name` -/
def property (name : Text) : Value → Except Thrown (Option Value)
  | .null => .error .typeError
  | .object fields => .ok (fields.lookup name)
  | .array items => .ok (lengthOf name items.length)
  | .string s => .ok (lengthOf name s.length)
  | _ => .ok none

/-- `v[i]` -/
def element (i : Nat) : Value → Except Thrown (Option Value)
  | .null => .error .typeError
  | .object fields => .ok (fields.lookup (text (toString i)))
  | .array items => .ok items[i]?
  | .string s => .ok (s[i]?.map fun unit => .string [unit])
  | _ => .ok none

/-- The number on which a method of numbers is called. -/
def receiver (v : Option Value) : Except Thrown Double :=
  match number? v with
  | some x => .ok x
  | none => .error .typeError

end Value

namespace Engine

variable (js : Engine)

/-- `v >= n` -/
def atLeast (n : Nat) : Option Value → Except Thrown Bool
  | none => .ok false
  | some (.number x) => .ok (x.atLeast n)
  | some v =>
      match js.toNumber v with
      | some (some x) => .ok (x.atLeast n)
      | some none => .ok false
      | none => .error .typeError

end Engine

end JavaScript
