import Mathlib.Data.List.Lex
import WeldingServer.Library.Calendar

/-!
# Texts of dates, read back and compared

A date-time is earlier than another one if its fields, from the year to the second, come first
(`LocalDateTime.fields`).  With years of four digits every piece of a pattern has its fixed
width.  Then the text that a pattern makes is read back by it (`parse_format`), and texts of one
pattern compare as the values of its pieces do, in the order of the pattern (`format_lt_iff`).
-/

namespace Calendar

open Numeral
open Nat (ofDigitChars)

/-! ## Values of pieces -/

/-- The number that a piece stands for. -/
def Piece.value (t : LocalDateTime) : Piece → Nat
  | .year => t.date.year
  | .month => t.date.month
  | .day => t.date.day
  | .hour => t.hour
  | .minute => t.minute
  | .second => t.second
  | .literal _ => 0

/-- The fields, from the one that counts most. -/
def LocalDateTime.fields (t : LocalDateTime) : List Nat :=
  [Piece.year, .month, .day, .hour, .minute, .second].map (Piece.value t)

instance : LT LocalDateTime := ⟨fun t t' => t.fields < t'.fields⟩

instance (t t' : LocalDateTime) : Decidable (t < t') :=
  inferInstanceAs (Decidable (t.fields < t'.fields))

theorem LocalDateTime.lt_iff {t t' : LocalDateTime} : t < t' ↔ t.fields < t'.fields := Iff.rfl

variable {t t' : LocalDateTime} {p : Piece} {pattern : List Piece}

/-- The year has four digits. -/
def LocalDateTime.HasFourDigits (t : LocalDateTime) : Prop :=
  1 ≤ t.date.year ∧ t.date.year < 10000

instance (t : LocalDateTime) : Decidable t.HasFourDigits := inferInstanceAs (Decidable (_ ∧ _))

/-- In a year of four digits every piece of the time fits its width. -/
theorem Piece.value_lt (ht : t.HasFourDigits) (p : Piece) : p.value t < 10 ^ p.width := by
  have hlen := (monthLength_bounds t.date.year t.date.month).2
  have hmonth := t.date.month_bounds.2
  have hday := t.date.day_bounds.2
  have hhour := t.hour_lt
  have hminute := t.minute_lt
  have hsecond := t.second_lt
  cases p with
  | year => exact ht.2
  | month => exact Nat.lt_of_le_of_lt hmonth (by decide)
  | day => exact Nat.lt_of_le_of_lt (Nat.le_trans hday hlen) (by decide)
  | hour => exact Nat.lt_trans hhour (by decide)
  | minute => exact Nat.lt_trans hminute (by decide)
  | second => exact Nat.lt_trans hsecond (by decide)
  | literal c => exact Nat.zero_lt_succ _

/-- A field is written in its width. -/
theorem Piece.text_eq (ht : t.HasFourDigits) (hp : ∀ c, p ≠ .literal c) :
    p.text t = zeroPadded p.width (p.value t) := by
  cases p with
  | year => exact if_pos ht.2
  | literal c => exact absurd rfl (hp c)
  | _ => rfl

theorem Piece.length_text_of_fourDigits (ht : t.HasFourDigits) (p : Piece) :
    (p.text t).length = p.width := by
  by_cases hp : p = .year
  · subst hp
    rw [Piece.text_eq ht (by rintro c ⟨⟩)]
    exact (length_zeroPadded_eq_iff (by decide) _).mpr (Piece.value_lt ht .year)
  · exact Piece.length_text hp t

/-- Texts of one pattern have one length. -/
theorem length_format_of_fourDigits (ht : t.HasFourDigits) (ht' : t'.HasFourDigits)
    (pattern : List Piece) : (format pattern t).length = (format pattern t').length := by
  rw [format, format, List.length_flatMap, List.length_flatMap]
  have hlength (p : Piece) : (p.text t).length = (p.text t').length :=
    (Piece.length_text_of_fourDigits ht p).trans (Piece.length_text_of_fourDigits ht' p).symm
  rw [List.map_congr_left fun p _ => hlength p]

/-- A text consists of digits and of the literal characters of its pattern. -/
theorem mem_format (ht : t.HasFourDigits) {c : Char} (hc : c ∈ format pattern t) :
    c.isDigit = true ∨ .literal c ∈ pattern := by
  obtain ⟨p, hp, hc⟩ := List.mem_flatMap.mp hc
  by_cases hliteral : ∃ d, p = .literal d
  · obtain ⟨d, rfl⟩ := hliteral
    exact .inr (List.mem_singleton.mp hc ▸ hp)
  · rw [Piece.text_eq ht (not_exists.mp hliteral)] at hc
    exact .inl (isDigit_of_mem_zeroPadded hc)

/-! ## Reading a text -/

/-- A piece at the start of a text, and the rest of it.  A field has exactly its width, so a
year of more digits, with the sign before it, is not read. -/
def Piece.parse (p : Piece) (text : List Char) : Option (List (Piece × Nat) × List Char) :=
  match p, text with
  | .literal _, [] => none
  | .literal c, d :: rest => if c = d then some ([], rest) else none
  | p, text =>
      let digits := text.take p.width
      if digits.length = p.width ∧ digits.all Char.isDigit then
        some ([(p, ofDigitChars 10 digits 0)], text.drop p.width)
      else none

/-- The fields of a text that is read to its end. -/
def parseFields : List Piece → List Char → Option (List (Piece × Nat))
  | [], [] => some []
  | [], _ :: _ => none
  | p :: pattern, text => do
      let (field, rest) ← p.parse text
      let fields ← parseFields pattern rest
      return field ++ fields

/-- A day that its month does not have is taken for the last one. -/
def LocalDate.smart (year month day : Nat) : Option LocalDate :=
  if h : 1 ≤ year ∧ (1 ≤ month ∧ month ≤ 12) ∧ 1 ≤ day ∧ day ≤ 31 then
    some ⟨year, month, min day (monthLength year month), h.2.1,
      Nat.le_min.mpr ⟨h.2.2.1, (monthLength_bounds year month).1⟩, Nat.min_le_right ..⟩
  else none

/-- 24:00:00 is the beginning of the next day. -/
def LocalDateTime.smart (date : LocalDate) (hour minute second : Nat) : Option LocalDateTime :=
  if hour = 24 ∧ minute = 0 ∧ second = 0 then
    some ⟨date.next, 0, 0, 0, by decide, by decide, by decide⟩
  else if h : hour < 24 ∧ minute < 60 ∧ second < 60 then
    some ⟨date, hour, minute, second, h.1, h.2.1, h.2.2⟩
  else none

/-- `LocalDateTime.parse`: the pieces are read one after the other, and must make a date and a
time that exist. -/
def parse (pattern : List Piece) (text : List Char) : Option LocalDateTime := do
  let fields ← parseFields pattern text
  let date ← LocalDate.smart (← fields.lookup .year) (← fields.lookup .month)
    (← fields.lookup .day)
  LocalDateTime.smart date (← fields.lookup .hour) (← fields.lookup .minute)
    (← fields.lookup .second)

/-- The fields that a piece is read to. -/
def Piece.fields (t : LocalDateTime) : Piece → List (Piece × Nat)
  | .literal _ => []
  | p => [(p, p.value t)]

/-- A piece is read as what it was written for. -/
theorem Piece.parse_text (ht : t.HasFourDigits) (p : Piece) (rest : List Char) :
    p.parse (p.text t ++ rest) = some (p.fields t, rest) := by
  by_cases hp : ∃ c, p = .literal c
  · obtain ⟨c, rfl⟩ := hp
    exact if_pos rfl
  · have hp : ∀ c, p ≠ .literal c := not_exists.mp hp
    have hlength := Piece.length_text_of_fourDigits ht p
    have hdigits : (p.text t).all Char.isDigit = true := by
      rw [Piece.text_eq ht hp, List.all_eq_true]
      exact fun c hc => isDigit_of_mem_zeroPadded hc
    have hvalue : ofDigitChars 10 (p.text t) 0 = p.value t := by
      rw [Piece.text_eq ht hp, ofDigitChars_zeroPadded]
    have hread : p.parse (p.text t ++ rest) = some ([(p, p.value t)], rest) := by
      have htake : (p.text t ++ rest).take p.width = p.text t := List.take_left' hlength
      have hdrop : (p.text t ++ rest).drop p.width = rest := List.drop_left' hlength
      cases p with
      | literal c => exact absurd rfl (hp c)
      | _ =>
          rw [Piece.parse]
          · simp only [htake, hdrop, hlength, hdigits, hvalue, and_self, if_true]
          all_goals nofun
    rw [hread]
    cases p with
    | literal c => exact absurd rfl (hp c)
    | _ => rfl

/-- The pieces read are those written. -/
theorem parseFields_format (ht : t.HasFourDigits) (pattern : List Piece) :
    parseFields pattern (format pattern t) = some (pattern.flatMap (Piece.fields t)) := by
  induction pattern with
  | nil => rfl
  | cons p pattern ih =>
      rw [format_cons, parseFields, Piece.parse_text ht]
      simp only [Option.bind_eq_bind, Option.bind_some, ih]
      rfl

/-- A field is read to its value, as often as it occurs. -/
theorem lookup_fields (hp : ∀ c, p ≠ .literal c) (hmem : p ∈ pattern) :
    (pattern.flatMap (Piece.fields t)).lookup p = some (p.value t) := by
  induction pattern with
  | nil => cases hmem
  | cons q pattern ih =>
      by_cases hq : p = q
      · subst hq
        cases p with
        | literal c => exact absurd rfl (hp c)
        | _ => exact List.lookup_cons_self
      · have htail : p ∈ pattern := (List.mem_cons.mp hmem).resolve_left hq
        rw [List.flatMap_cons]
        cases q with
        | literal c => exact ih htail
        | _ =>
            rw [Piece.fields, List.singleton_append, List.lookup_cons, beq_false_of_ne hq]
            · exact ih htail
            · rintro c ⟨⟩

theorem LocalDate.smart_eq (ht : t.HasFourDigits) :
    LocalDate.smart t.date.year t.date.month t.date.day = some t.date := by
  have hlen := (monthLength_bounds t.date.year t.date.month).2
  have hday := t.date.day_bounds
  rw [LocalDate.smart, dif_pos ⟨ht.1, t.date.month_bounds, hday.1, Nat.le_trans hday.2 hlen⟩]
  simp only [Nat.min_eq_left hday.2]

theorem LocalDateTime.smart_eq (t : LocalDateTime) :
    LocalDateTime.smart t.date t.hour t.minute t.second = some t := by
  have hhour := t.hour_lt
  have hnot : ¬ (t.hour = 24 ∧ t.minute = 0 ∧ t.second = 0) := by omega
  rw [LocalDateTime.smart, if_neg hnot, dif_pos ⟨hhour, t.minute_lt, t.second_lt⟩]

/-- A pattern with all six fields reads its own texts. -/
theorem parse_format (ht : t.HasFourDigits)
    (hall : ∀ f ∈ [.year, .month, .day, .hour, .minute, .second], f ∈ pattern) :
    parse pattern (format pattern t) = some t := by
  have hlookup : ∀ f ∈ [Piece.year, .month, .day, .hour, .minute, .second],
      (pattern.flatMap (Piece.fields t)).lookup f = some (f.value t) := by
    refine fun f hf => lookup_fields (fun c hc => ?_) (hall f hf)
    subst hc
    simp at hf
  simp only [List.forall_mem_cons] at hlookup
  obtain ⟨hyear, hmonth, hday, hhour, hminute, hsecond, -⟩ := hlookup
  simp only [parse, parseFields_format ht, Option.bind_eq_bind, Option.bind_some, hyear, hmonth,
    hday, hhour, hminute, hsecond, Piece.value, LocalDate.smart_eq ht, LocalDateTime.smart_eq]

/-! ## Comparing texts -/

/-- Texts that start with parts of the same length are ordered by these parts first. -/
theorem append_lt_iff_of_length_eq {α : Type} [LinearOrder α] :
    ∀ {a a' b b' : List α}, a.length = a'.length →
      (a ++ b < a' ++ b' ↔ a < a' ∨ a = a' ∧ b < b')
  | [], [], b, b', _ => by simp
  | x :: a, x' :: a', b, b', h => by
      rw [List.cons_append, List.cons_append, List.cons_lt_cons_iff, List.cons_lt_cons_iff,
        append_lt_iff_of_length_eq (Nat.succ.inj h), List.cons.injEq]
      tauto

/-- The texts of a piece are in the order of its values. -/
theorem Piece.text_lt_iff (ht : t.HasFourDigits) (ht' : t'.HasFourDigits) (p : Piece) :
    p.text t < p.text t' ↔ p.value t < p.value t' := by
  by_cases hp : ∃ c, p = .literal c
  · obtain ⟨c, rfl⟩ := hp
    exact iff_of_false (lt_irrefl [c]) (Nat.lt_irrefl 0)
  · have hp : ∀ c, p ≠ .literal c := not_exists.mp hp
    have hwidth : 0 < p.width := by cases p <;> exact Nat.zero_lt_succ _
    rw [Piece.text_eq ht hp, Piece.text_eq ht' hp]
    exact zeroPadded_lt_iff hwidth (Piece.value_lt ht p) (Piece.value_lt ht' p)

theorem Piece.text_eq_iff (ht : t.HasFourDigits) (ht' : t'.HasFourDigits) (p : Piece) :
    p.text t = p.text t' ↔ p.value t = p.value t' := by
  by_cases hp : ∃ c, p = .literal c
  · obtain ⟨c, rfl⟩ := hp
    exact iff_of_true rfl rfl
  · have hp : ∀ c, p ≠ .literal c := not_exists.mp hp
    rw [Piece.text_eq ht hp, Piece.text_eq ht' hp]
    exact (zeroPadded_injective _).eq_iff

/-- The texts of two times are in the order of the values of the pieces. -/
theorem format_lt_iff (ht : t.HasFourDigits) (ht' : t'.HasFourDigits) (pattern : List Piece) :
    format pattern t < format pattern t' ↔
      pattern.map (Piece.value t) < pattern.map (Piece.value t') := by
  induction pattern with
  | nil => exact iff_of_false (lt_irrefl _) (lt_irrefl _)
  | cons p pattern ih =>
      have hlength : (p.text t).length = (p.text t').length :=
        (Piece.length_text_of_fourDigits ht p).trans (Piece.length_text_of_fourDigits ht' p).symm
      rw [format_cons, format_cons, append_lt_iff_of_length_eq hlength, Piece.text_lt_iff ht ht',
        Piece.text_eq_iff ht ht', ih, List.map_cons, List.map_cons, List.cons_lt_cons_iff]

end Calendar
