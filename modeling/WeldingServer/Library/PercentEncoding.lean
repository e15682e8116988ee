import Mathlib.Data.Char
import Mathlib.Data.List.Basic

/-!
# Percent-encoding

A text is written in fewer characters: those of a set `keep` stay, and of every other one each
octet of its UTF-8 is written as `%` and two hexadecimal digits.

If `%` is not in the set, what is written stands for the octets of the text
(`decode_encode`), and as no two texts have the same octets (`utf8_injective`), no two are
written in the same way (`encode_injective`).  Nothing is written but the characters of the
set, `%` and hexadecimal digits (`mem_encode`).
-/

namespace PercentEncoding

/-! ## Octets -/

/-- The octets of a text in UTF-8. -/
def utf8 (s : List Char) : List UInt8 := s.flatMap String.utf8EncodeChar

/-- The text with these octets, if they are valid UTF-8. -/
def ofUtf8 (octets : List UInt8) : Option (List Char) :=
  octets.toByteArray.utf8Decode?.map Array.toList

/-- The octets of a text are read back as the text. -/
theorem ofUtf8_utf8 (s : List Char) : ofUtf8 (utf8 s) = some s := by
  have hdecode : (utf8 s).toByteArray.utf8Decode? = some s.toArray := List.utf8Decode?_utf8Encode
  rw [ofUtf8, hdecode]
  rfl

/-- Two texts never have the same octets. -/
theorem utf8_injective : Function.Injective utf8 := by
  intro s s' h
  exact Option.some.inj ((ofUtf8_utf8 s).symm.trans ((congrArg ofUtf8 h).trans (ofUtf8_utf8 s')))

/-! ## Hexadecimal digits -/

/-- The digits of an escape. -/
def hexDigits : List Char :=
  ['0', '1', '2', '3', '4', '5', '6', '7', '8', '9', 'A', 'B', 'C', 'D', 'E', 'F']

/-- The digit of a value below 16. -/
def hexDigit (n : Nat) : Char := hexDigits.getD n '0'

/-- The value of a digit; letters may be small. -/
def hexValue (c : Char) : Option Nat :=
  let n := hexDigits.idxOf c.toUpper
  if n < 16 then some n else none

theorem hexValue_hexDigit {n : Nat} (h : n < 16) : hexValue (hexDigit n) = some n := by
  have hall : ∀ n < 16, hexValue (hexDigit n) = some n := by decide
  exact hall n h

theorem hexDigit_mem (n : Nat) : hexDigit n ∈ hexDigits := by
  rw [hexDigit, List.getD_eq_getElem?_getD]
  cases h : hexDigits[n]? with
  | none => decide
  | some c => exact List.mem_of_getElem? h

/-! ## Writing and reading -/

/-- An octet as `%` and two digits. -/
def escape (octet : UInt8) : List Char :=
  ['%', hexDigit (octet.toNat / 16), hexDigit (octet.toNat % 16)]

/-- A character that is kept, or the escapes of its octets. -/
def encodeChar (keep : Char → Bool) (c : Char) : List Char :=
  if keep c then [c] else (String.utf8EncodeChar c).flatMap escape

/-- The characters one after the other. -/
def encode (keep : Char → Bool) (s : List Char) : List Char := s.flatMap (encodeChar keep)

/-- The octets that a text stands for, or `none` if a `%` comes without two digits. -/
def decode : List Char → Option (List UInt8)
  | [] => some []
  | c :: rest =>
      if c = '%' then
        match rest with
        | high :: low :: rest =>
            match hexValue high, hexValue low with
            | some x, some y => (decode rest).map (UInt8.ofNat (16 * x + y) :: ·)
            | _, _ => none
        | _ => none
      else (decode rest).map (String.utf8EncodeChar c ++ ·)

theorem decode_cons_of_ne {c : Char} (h : c ≠ '%') (rest : List Char) :
    decode (c :: rest) = (decode rest).map (String.utf8EncodeChar c ++ ·) := by
  rcases rest with _ | ⟨high, _ | ⟨low, rest⟩⟩ <;> simp [decode, h]

theorem decode_escape (octet : UInt8) (rest : List Char) :
    decode (escape octet ++ rest) = (decode rest).map (octet :: ·) := by
  have hlt : octet.toNat < 256 := octet.toNat_lt
  have hhigh := hexValue_hexDigit (n := octet.toNat / 16) (by omega)
  have hlow := hexValue_hexDigit (n := octet.toNat % 16) (by omega)
  have hoctet : UInt8.ofNat (16 * (octet.toNat / 16) + octet.toNat % 16) = octet := by
    rw [Nat.div_add_mod]
    exact UInt8.ofNat_toNat
  simp only [escape, List.cons_append, List.nil_append, decode, if_true, hhigh, hlow, hoctet]

theorem decode_flatMap_escape (octets : List UInt8) (rest : List Char) :
    decode (octets.flatMap escape ++ rest) = (decode rest).map (octets ++ ·) := by
  induction octets with
  | nil => simp
  | cons octet octets ih =>
      rw [List.flatMap_cons, List.append_assoc, decode_escape, ih, Option.map_map]
      rfl

/-- Each encoded character is decoded to its octets, if `%` is never kept. -/
theorem decode_encodeChar {keep : Char → Bool} (hkeep : keep '%' = false) (c : Char)
    (rest : List Char) :
    decode (encodeChar keep c ++ rest) = (decode rest).map (String.utf8EncodeChar c ++ ·) := by
  rw [encodeChar]
  split
  next hc =>
    have hne : c ≠ '%' := fun he => Bool.false_ne_true (hkeep.symm.trans (he ▸ hc))
    exact decode_cons_of_ne hne rest
  next => exact decode_flatMap_escape _ _

/-- What is written stands for the octets of the text. -/
theorem decode_encode {keep : Char → Bool} (hkeep : keep '%' = false) (s : List Char) :
    decode (encode keep s) = some (utf8 s) := by
  induction s with
  | nil => rfl
  | cons c s ih =>
      have hcons : encode keep (c :: s) = encodeChar keep c ++ encode keep s := rfl
      rw [hcons, decode_encodeChar hkeep, ih]
      rfl

/-- Two texts are never encoded the same, if `%` is never kept. -/
theorem encode_injective {keep : Char → Bool} (hkeep : keep '%' = false) :
    Function.Injective (encode keep) := by
  intro s s' h
  have hutf8 : some (utf8 s) = some (utf8 s') := by
    rw [← decode_encode hkeep s, h, decode_encode hkeep]
  exact utf8_injective (Option.some.inj hutf8)

/-- The characters that are written. -/
theorem mem_encode {keep : Char → Bool} {s : List Char} {x : Char} (h : x ∈ encode keep s) :
    keep x = true ∨ x = '%' ∨ x ∈ hexDigits := by
  obtain ⟨c, -, hx⟩ := List.mem_flatMap.mp h
  rw [encodeChar] at hx
  split at hx
  next hc =>
    obtain rfl := List.mem_singleton.mp hx
    exact Or.inl hc
  next =>
    obtain ⟨octet, -, hx⟩ := List.mem_flatMap.mp hx
    simp only [escape, List.mem_cons, List.not_mem_nil, or_false] at hx
    rcases hx with rfl | rfl | rfl
    · exact Or.inr (Or.inl rfl)
    · exact Or.inr (Or.inr (hexDigit_mem _))
    · exact Or.inr (Or.inr (hexDigit_mem _))

/-- A text of characters of the set is written as it is. -/
theorem encode_eq_self {keep : Char → Bool} {s : List Char} (h : ∀ c ∈ s, keep c = true) :
    encode keep s = s := by
  induction s with
  | nil => rfl
  | cons c s ih =>
      obtain ⟨hc, hs⟩ := List.forall_mem_cons.mp h
      have hcons : encode keep (c :: s) = encodeChar keep c ++ encode keep s := rfl
      rw [hcons, encodeChar, if_pos hc, ih hs]
      rfl

end PercentEncoding
