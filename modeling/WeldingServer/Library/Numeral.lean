import Mathlib.Algebra.Group.Nat.Defs
import Mathlib.Data.Char
import Mathlib.Data.List.Basic
import Mathlib.Order.Lattice

/-!
# Zero-padded decimal numerals

A numeral is a list of digit characters, most significant first.  `zeroPadded w n`
writes `n` in at least `w` characters, as a `%0wd` conversion does: `w` is a minimum,
and a number with more digits keeps all of them.

Two facts are wanted of such numerals.  Reading one back gives the number
(`ofDigitChars_zeroPadded`), whatever the width.  Comparing two of the same length as
texts compares their numbers (`lt_iff_ofDigitChars_lt`); so on the numbers that fit
into `w` digits the texts are ordered as the numbers are (`zeroPadded_lt_iff`).
-/

namespace Numeral

open Nat (ofDigitChars toDigits)

/-- `n` in decimal, filled up with zeros on the left to at least `w` characters. -/
def zeroPadded (w n : Nat) : List Char := (toDigits 10 n).leftpad w '0'

/-! ## The characters and their number -/

theorem isDigit_of_mem_zeroPadded {w n : Nat} {c : Char} (h : c ∈ zeroPadded w n) :
    c.isDigit = true := by
  rw [zeroPadded, List.leftpad, List.mem_append] at h
  cases h with
  | inl hz =>
      obtain rfl := List.eq_of_mem_replicate hz
      rfl
  | inr hd => exact Nat.isDigit_of_mem_toDigits (by decide) (by decide) hd

theorem zeroPadded_ne_nil (w n : Nat) : zeroPadded w n ≠ [] := by
  intro h
  exact Nat.toDigits_ne_nil (List.append_eq_nil_iff.mp h).2

/-- A padded numeral is longer than its width only if the number has more digits. -/
theorem length_zeroPadded (w n : Nat) :
    (zeroPadded w n).length = max w (toDigits 10 n).length := by
  rw [zeroPadded, List.leftpad, List.length_append, List.length_replicate]
  omega

/-- The padded numeral has exactly `w` characters when `n` has at most `w` digits. -/
theorem length_zeroPadded_eq_iff {w : Nat} (hw : 0 < w) (n : Nat) :
    (zeroPadded w n).length = w ↔ n < 10 ^ w := by
  rw [length_zeroPadded, ← Nat.length_toDigits_le_iff (by decide) hw]
  omega

/-! ## Digit by digit -/

theorem zeroPadded_succ {w : Nat} (hw : 0 < w) (n : Nat) :
    zeroPadded (w + 1) n = zeroPadded w (n / 10) ++ [Nat.digitChar (n % 10)] := by
  by_cases hn : n < 10
  · obtain ⟨w, rfl⟩ := Nat.exists_eq_succ_of_ne_zero hw.ne'
    rw [zeroPadded, zeroPadded, Nat.toDigits_of_lt_base hn, Nat.div_eq_of_lt hn,
      Nat.mod_eq_of_lt hn, Nat.toDigits_zero]
    simp [List.leftpad, List.replicate_succ', List.append_assoc]
  · rw [zeroPadded, zeroPadded, Nat.toDigits_of_base_le (by decide) (Nat.le_of_not_lt hn)]
    simp [List.leftpad, List.append_assoc]

theorem zeroPadded_one {n : Nat} (hn : n < 10) : zeroPadded 1 n = [Nat.digitChar n] := by
  rw [zeroPadded, Nat.toDigits_of_lt_base hn]
  rfl

theorem zeroPadded_two {n : Nat} (hn : n < 100) :
    zeroPadded 2 n = [Nat.digitChar (n / 10), Nat.digitChar (n % 10)] := by
  rw [zeroPadded_succ (by decide), zeroPadded_one (by omega)]
  rfl

/-! ## Reading a numeral back -/

/-- Padding does not change the number a numeral stands for. -/
theorem ofDigitChars_zeroPadded (w n : Nat) : ofDigitChars 10 (zeroPadded w n) 0 = n := by
  rw [zeroPadded, List.leftpad, Nat.ofDigitChars_append, Nat.ofDigitChars_replicate_zero,
    Nat.mul_zero, Nat.ofDigitChars_ten_toDigits]

/-- Two numbers are never padded to the same text. -/
theorem zeroPadded_injective (w : Nat) : Function.Injective (zeroPadded w) := by
  intro m n h
  rw [← ofDigitChars_zeroPadded w m, h, ofDigitChars_zeroPadded]

/-! ## Order of texts and order of numbers -/

theorem digit_bounds {c : Char} (h : c.isDigit = true) :
    '0'.toNat ≤ c.toNat ∧ c.toNat ≤ '0'.toNat + 9 := by
  simp only [Char.isDigit, Bool.and_eq_true, decide_eq_true_eq] at h
  exact h

/-- The first digit counts the power of ten of the digits behind it. -/
theorem ofDigitChars_cons_zero (c : Char) (l : List Char) :
    ofDigitChars 10 (c :: l) 0 =
      10 ^ l.length * (c.toNat - '0'.toNat) + ofDigitChars 10 l 0 := by
  rw [Nat.ofDigitChars_cons, Nat.mul_zero, Nat.zero_add, Nat.ofDigitChars_eq_ofDigitChars_zero]

/-- A numeral stands for less than the power of ten of its length. -/
theorem ofDigitChars_lt_pow (l : List Char) (h : ∀ c ∈ l, c.isDigit = true) :
    ofDigitChars 10 l 0 < 10 ^ l.length := by
  induction l with
  | nil => simp
  | cons c l ih =>
      have hc : c.toNat - '0'.toNat ≤ 9 := by
        have := digit_bounds (h c (List.mem_cons_self ..))
        omega
      have hl := ih fun d hd => h d (List.mem_cons_of_mem _ hd)
      rw [ofDigitChars_cons_zero, List.length_cons, Nat.pow_succ]
      have := Nat.mul_le_mul_left (10 ^ l.length) hc
      omega

/-- A smaller first digit outweighs all digits behind it. -/
theorem ofDigitChars_lt_of_head_lt {a b : Char} {k l : List Char} (hlen : k.length = l.length)
    (hk : ∀ c ∈ k, c.isDigit = true) (ha : '0'.toNat ≤ a.toNat) (h : a.toNat < b.toNat) :
    ofDigitChars 10 (a :: k) 0 < ofDigitChars 10 (b :: l) 0 := by
  have hka := ofDigitChars_lt_pow k hk
  have hstep : 10 ^ l.length * (a.toNat - '0'.toNat + 1) ≤
      10 ^ l.length * (b.toNat - '0'.toNat) :=
    Nat.mul_le_mul_left _ (by omega)
  rw [Nat.mul_succ] at hstep
  rw [ofDigitChars_cons_zero, ofDigitChars_cons_zero, hlen]
  rw [hlen] at hka
  omega

/-- Numerals of one length compare as texts as their numbers do. -/
theorem lt_iff_ofDigitChars_lt :
    ∀ k l : List Char, k.length = l.length →
      (∀ c ∈ k, c.isDigit = true) → (∀ c ∈ l, c.isDigit = true) →
      (k < l ↔ ofDigitChars 10 k 0 < ofDigitChars 10 l 0)
  | [], [], _, _, _ => by simp
  | a :: k, b :: l, hlen, hk, hl => by
      have hlen' : k.length = l.length := Nat.succ.inj hlen
      have hk' : ∀ c ∈ k, c.isDigit = true := fun c hc => hk c (List.mem_cons_of_mem _ hc)
      have hl' : ∀ c ∈ l, c.isDigit = true := fun c hc => hl c (List.mem_cons_of_mem _ hc)
      have ha := (digit_bounds (hk a (List.mem_cons_self ..))).1
      have hb := (digit_bounds (hl b (List.mem_cons_self ..))).1
      rw [List.cons_lt_cons_iff, lt_iff_ofDigitChars_lt k l hlen' hk' hl']
      rcases Nat.lt_trichotomy a.toNat b.toNat with h | h | h
      · have hab : a < b := h
        simp only [hab, true_or, true_iff]
        exact ofDigitChars_lt_of_head_lt hlen' hk' ha h
      · obtain rfl : a = b := Char.toNat_inj.mp h
        rw [ofDigitChars_cons_zero, ofDigitChars_cons_zero, hlen']
        have hirr : ¬ a < a := Nat.lt_irrefl _
        simp only [hirr, false_or, true_and]
        omega
      · have hba : ¬ a < b := fun hab => Nat.lt_asymm h hab
        have hne : a ≠ b := fun he => Nat.lt_irrefl _ (he ▸ h)
        have hlt := ofDigitChars_lt_of_head_lt hlen'.symm hl' hb h
        simp only [hba, hne, false_and, or_self, false_iff, not_lt]
        exact Nat.le_of_lt hlt

/-- On the numbers of at most `w` digits the padded numerals are ordered as the
numbers. -/
theorem zeroPadded_lt_iff {w m n : Nat} (hw : 0 < w) (hm : m < 10 ^ w) (hn : n < 10 ^ w) :
    zeroPadded w m < zeroPadded w n ↔ m < n := by
  rw [lt_iff_ofDigitChars_lt _ _ _ (fun _ => isDigit_of_mem_zeroPadded)
      (fun _ => isDigit_of_mem_zeroPadded), ofDigitChars_zeroPadded, ofDigitChars_zeroPadded]
  rw [(length_zeroPadded_eq_iff hw m).mpr hm, (length_zeroPadded_eq_iff hw n).mpr hn]

end Numeral
