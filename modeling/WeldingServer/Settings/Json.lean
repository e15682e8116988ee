import Mathlib.Algebra.Group.Int.Defs
import Mathlib.Data.List.AList
import WeldingServer.Library.Double

/-!
# JSON values

Jackson hands a JSON object over as a map.  A number without fraction and exponent is an
`Integer`, `Long` or `BigInteger` in it, whichever it fits first, and any other number is a
`Double`; `null` is the null reference.  A body that Jackson refuses is answered before a
method of a controller is called.

A controller casts the value to the class it wants and takes the number out of it.  Each
function is followed by what its answer says of the number that was posted.
-/

namespace WeldingServer

/-- A value in the body of a request. -/
inductive Json where
  | null
  | boolean (b : Bool)
  | string (s : String)
  /-- A number without fraction and exponent. -/
  | integer (n : Int)
  /-- Any other number, rounded to a double. -/
  | fraction (d : Double)
  | array (items : List Json)
  | object (fields : List (String × Json))

/-- A JSON object. -/
abbrev Body := AList fun _ : String => Json

/-- What a cast or the unboxing of a null reference throws. -/
inductive CastException where
  | classCast
  | nullPointer
deriving DecidableEq, Repr

namespace Json

/-! ## Casts -/

/-- The number fits into an `int`. -/
def FitsInt (n : Int) : Prop := -2 ^ 31 ≤ n ∧ n < 2 ^ 31

instance (n : Int) : Decidable (FitsInt n) := inferInstanceAs (Decidable (_ ∧ _))

/-- `(Integer) value`, unboxed. -/
def castInteger : Json → Except CastException Int32
  | .null => .error .nullPointer
  | .integer n => if FitsInt n then .ok (Int32.ofInt n) else .error .classCast
  | _ => .error .classCast

/-- `((Number) value).doubleValue()` -/
def doubleValue : Json → Except CastException Double
  | .null => .error .nullPointer
  | .integer n => .ok (.ofInt n)
  | .fraction d => .ok d
  | _ => .error .classCast

/-- `((Number) value).intValue()`: of a wide integer the low 32 bits are taken. -/
def intValue : Json → Except CastException Int32
  | .null => .error .nullPointer
  | .integer n => .ok (Int32.ofInt n)
  | .fraction d => .ok d.intValue
  | _ => .error .classCast

/-! ## The number posted -/

/-- The `int` that is the number, if there is one. -/
def toInt32 : Json → Option Int32
  | .integer n => if FitsInt n then some (Int32.ofInt n) else none
  | .fraction (.finite v) =>
      if v.den = 1 ∧ FitsInt v.num then some (Int32.ofInt v.num) else none
  | _ => none

/-- The double that is the number, if there is one. -/
def toDouble : Json → Option Double
  | .integer n => if Double.ofInt n = .finite n then some (.finite n) else none
  | .fraction (.finite v) => some (.finite v)
  | _ => none

variable {j : Json}

theorem toInt_ofInt {n : Int} (h : FitsInt n) : (Int32.ofInt n).toInt = n :=
  Int32.toInt_ofInt_of_le h.1 h.2

theorem fitsInt_toInt (v : Int32) : FitsInt v.toInt := ⟨v.le_toInt, v.toInt_lt⟩

/-! ## Casts and the number posted -/

/-- Only an integer of 32 bits passes the cast. -/
theorem eq_integer_of_castInteger {v : Int32} (h : j.castInteger = .ok v) :
    j = .integer v.toInt := by
  unfold castInteger at h
  split at h
  next => cases h
  next n =>
    split at h
    next hn =>
      obtain rfl := Except.ok.inj h
      rw [toInt_ofInt hn]
    next => cases h
  next => cases h

/-- What passes the cast is the number posted. -/
theorem castInteger_eq_ok {v : Int32} (h : j.castInteger = .ok v) : j.toInt32 = some v := by
  rw [eq_integer_of_castInteger h, toInt32, if_pos (fitsInt_toInt v), Int32.ofInt_toInt]

/-- `doubleValue` gives the number posted, where a double can hold it. -/
theorem eq_of_doubleValue {v w : Double} (h : j.doubleValue = .ok v) (hw : j.toDouble = some w) :
    v = w := by
  unfold toDouble at hw
  split at hw
  next n =>
    split at hw
    next hn =>
      obtain rfl := Option.some.inj hw
      exact (Except.ok.inj h).symm.trans hn
    next => cases hw
  next q =>
    obtain rfl := Option.some.inj hw
    exact (Except.ok.inj h).symm
  next => cases hw

/-- `intValue` gives the number posted, where an `int` can hold it. -/
theorem eq_of_intValue {v w : Int32} (h : j.intValue = .ok v) (hw : j.toInt32 = some w) :
    v = w := by
  unfold toInt32 at hw
  split at hw
  next n =>
    split at hw
    next hn =>
      obtain rfl := Option.some.inj hw
      exact (Except.ok.inj h).symm
    next => cases hw
  next q =>
    split at hw
    next hq =>
      obtain rfl := Option.some.inj hw
      obtain rfl := Except.ok.inj h
      rw [Double.intValue, hq.1]
      refine Int32.toInt_inj.mp ?_
      have hle : q.num ≤ Int32.maxValue.toInt := Int.le_of_lt_add_one hq.2.2
      rw [toInt_ofInt hq.2, Int.ofNat_one, Int.tdiv_one, Int32.toInt_ofIntClamp hq.2.1 hle]
    next => cases hw
  next => cases hw

end Json

end WeldingServer
