import Mathlib.Data.List.TakeWhile
import WeldingServer.Library.Numeral

/-!
# Numbers in texts

A script writes an integer in decimal (`ofInt`) and reads the one that a text begins with
(`parseInt`).  An input field for numbers only ever holds a valid number or nothing
(`isNumber`).  The texts of integers are valid numbers and are read back (`parseInt_ofInt`,
`isNumber_ofInt`).
-/

namespace NumberText

open Nat (ofDigitChars toDigits)

/-! ## Writing -/

/-- `String(n)`, for an integer of at most 21 digits. -/
def ofInt : Int → List Char
  | .ofNat n => toDigits 10 n
  | .negSucc n => '-' :: toDigits 10 (n + 1)

/-! ## Reading -/

/-- White space and ends of lines. -/
def isSpace (c : Char) : Bool :=
  c.toNat ∈ [0x9, 0xA, 0xB, 0xC, 0xD, 0x20, 0xA0, 0x1680, 0x2028, 0x2029, 0x202F, 0x205F, 0x3000,
    0xFEFF] ∨ 0x2000 ≤ c.toNat ∧ c.toNat ≤ 0x200A

/-- The digits up to base 16. -/
def digits : List Char :=
  ['0', '1', '2', '3', '4', '5', '6', '7', '8', '9', 'a', 'b', 'c', 'd', 'e', 'f']

/-- The value of a hexadecimal digit, or 16. -/
def digitValue (c : Char) : Nat := digits.idxOf c.toLower

/-- The number that digits stand for. -/
def value (radix : Nat) (s : List Char) : Nat :=
  s.foldl (fun n c => radix * n + digitValue c) 0

/-- The radix, and the text behind a `0x`. -/
def stripPrefix (s : List Char) : Nat × List Char :=
  match s with
  | c :: x :: rest => if c = '0' ∧ (x = 'x' ∨ x = 'X') then (16, rest) else (10, s)
  | _ => (10, s)

/-- The number at the beginning of a text, if there is one. -/
def parseNat (s : List Char) : Option Nat :=
  let radix := (stripPrefix s).1
  let number := (stripPrefix s).2.takeWhile (digitValue · < radix)
  if number = [] then none else some (value radix number)

/-- `parseInt(s)`, before it is rounded to a double; `none` is `NaN`. -/
def parseInt (s : List Char) : Option Int :=
  match s.dropWhile isSpace with
  | [] => none
  | c :: rest =>
      if c = '-' then (parseNat rest).map fun n => -(n : Int)
      else if c = '+' then (parseNat rest).map fun n => (n : Int)
      else (parseNat (c :: rest)).map fun n => (n : Int)

/-! ## Valid numbers -/

/-- Nothing, or `e` and an integer. -/
def isExponent : List Char → Bool
  | [] => true
  | e :: rest =>
      (e = 'e' || e = 'E') &&
        match rest with
        | [] => false
        | c :: rest =>
            if c = '-' ∨ c = '+' then rest ≠ [] && rest.all Char.isDigit
            else (c :: rest).all Char.isDigit

/-- Digits, a fraction or both, and an exponent. -/
def isUnsigned (s : List Char) : Bool :=
  let whole := s.takeWhile Char.isDigit
  match s.dropWhile Char.isDigit with
  | [] => whole ≠ []
  | c :: rest =>
      if c = '.' then
        rest.takeWhile Char.isDigit ≠ [] && isExponent (rest.dropWhile Char.isDigit)
      else whole ≠ [] && isExponent (c :: rest)

/-- A valid floating-point number, as a number field demands it. -/
def isNumber : List Char → Bool
  | [] => false
  | c :: rest => if c = '-' then isUnsigned rest else isUnsigned (c :: rest)

/-! ## Digits -/

theorem digitValue_of_isDigit {c : Char} (h : c.isDigit = true) :
    digitValue c = c.toNat - '0'.toNat ∧ digitValue c < 10 := by
  have hbounds := Numeral.digit_bounds h
  have hall : ∀ n < 58, '0'.toNat ≤ n →
      digitValue (Char.ofNat n) = n - '0'.toNat ∧ digitValue (Char.ofNat n) < 10 := by decide
  have hlt : c.toNat < 58 := Nat.lt_succ_of_le hbounds.2
  have hc := hall c.toNat hlt hbounds.1
  rwa [Char.ofNat_toNat] at hc

/-- In base 10 the value of a text is that of its decimal digits. -/
theorem value_eq_ofDigitChars {s : List Char} (h : ∀ c ∈ s, c.isDigit = true) :
    value 10 s = ofDigitChars 10 s 0 := by
  have hfold : ∀ n, s.foldl (fun n c => 10 * n + digitValue c) n = ofDigitChars 10 s n := by
    induction s with
    | nil => exact fun n => rfl
    | cons c s ih =>
        obtain ⟨hc, hs⟩ := List.forall_mem_cons.mp h
        intro n
        rw [List.foldl_cons, ih hs, Nat.ofDigitChars_cons, (digitValue_of_isDigit hc).1]
  exact hfold 0

theorem stripPrefix_of_isDigit {s : List Char} (h : ∀ c ∈ s, c.isDigit = true) :
    stripPrefix s = (10, s) := by
  match s with
  | [] => rfl
  | [_] => rfl
  | c :: x :: rest =>
      have hx : x.isDigit = true := h x (List.mem_cons_of_mem _ (List.mem_cons_self ..))
      refine if_neg fun hc => ?_
      rcases hc.2 with rfl | rfl <;> cases hx

/-- A text of digits is read as a whole. -/
theorem parseNat_of_isDigit {s : List Char} (hs : s ≠ []) (h : ∀ c ∈ s, c.isDigit = true) :
    parseNat s = some (ofDigitChars 10 s 0) := by
  have htake : s.takeWhile (digitValue · < 10) = s :=
    List.takeWhile_eq_self_iff.mpr fun c hc => decide_eq_true (digitValue_of_isDigit (h c hc)).2
  rw [parseNat, stripPrefix_of_isDigit h]
  dsimp only
  rw [htake, if_neg hs, value_eq_ofDigitChars h]

theorem isDigit_toDigits {n : Nat} {c : Char} (h : c ∈ toDigits 10 n) : c.isDigit = true :=
  Nat.isDigit_of_mem_toDigits (by decide) (by decide) h

/-- The decimal digits of a number are read as the number. -/
theorem parseNat_toDigits (n : Nat) : parseNat (toDigits 10 n) = some n := by
  rw [parseNat_of_isDigit Nat.toDigits_ne_nil fun _ => isDigit_toDigits,
    Nat.ofDigitChars_ten_toDigits]

/-! ## Integers -/

theorem isSpace_of_isDigit {c : Char} (h : c.isDigit = true) : isSpace c = false := by
  have hbounds := Numeral.digit_bounds h
  have hall : ∀ n < 58, '0'.toNat ≤ n → isSpace (Char.ofNat n) = false := by decide
  have hc := hall c.toNat (Nat.lt_succ_of_le hbounds.2) hbounds.1
  rwa [Char.ofNat_toNat] at hc

/-- An integer that is written is read back. -/
theorem parseInt_ofInt (n : Int) : parseInt (ofInt n) = some n := by
  cases n with
  | ofNat n =>
      cases hd : toDigits 10 n with
      | nil => exact absurd hd Nat.toDigits_ne_nil
      | cons c rest =>
          have hc : c.isDigit = true := isDigit_toDigits (hd ▸ List.mem_cons_self ..)
          have hminus : c ≠ '-' := by
            rintro rfl
            cases hc
          have hplus : c ≠ '+' := by
            rintro rfl
            cases hc
          have hdrop : (c :: rest).dropWhile isSpace = c :: rest :=
            List.dropWhile_cons_of_neg (by simp [isSpace_of_isDigit hc])
          rw [ofInt, hd, parseInt, hdrop]
          dsimp only
          rw [if_neg hminus, if_neg hplus, ← hd, parseNat_toDigits]
          rfl
  | negSucc n =>
      have hdrop : ('-' :: toDigits 10 (n + 1)).dropWhile isSpace = '-' :: toDigits 10 (n + 1) :=
        List.dropWhile_cons_of_neg (by decide)
      rw [ofInt, parseInt, hdrop]
      dsimp only
      rw [if_pos rfl, parseNat_toDigits]
      rfl

theorem isUnsigned_of_isDigit {s : List Char} (hs : s ≠ []) (h : ∀ c ∈ s, c.isDigit = true) :
    isUnsigned s = true := by
  have htake : s.takeWhile Char.isDigit = s := List.takeWhile_eq_self_iff.mpr h
  have hdrop : s.dropWhile Char.isDigit = [] := List.dropWhile_eq_nil_iff.mpr h
  rw [isUnsigned, htake, hdrop]
  exact decide_eq_true hs

/-- The text of an integer is a valid number. -/
theorem isNumber_ofInt (n : Int) : isNumber (ofInt n) = true := by
  cases n with
  | ofNat n =>
      have hunsigned : isUnsigned (toDigits 10 n) = true :=
        isUnsigned_of_isDigit Nat.toDigits_ne_nil fun _ => isDigit_toDigits
      cases hd : toDigits 10 n with
      | nil => exact absurd hd Nat.toDigits_ne_nil
      | cons c rest =>
          have hc : c.isDigit = true := isDigit_toDigits (hd ▸ List.mem_cons_self ..)
          have hminus : c ≠ '-' := by
            rintro rfl
            cases hc
          rw [ofInt, hd, isNumber, if_neg hminus, ← hd]
          exact hunsigned
  | negSucc n =>
      rw [ofInt, isNumber, if_pos rfl]
      exact isUnsigned_of_isDigit Nat.toDigits_ne_nil fun _ => isDigit_toDigits

end NumberText
