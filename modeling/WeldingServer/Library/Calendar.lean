import Mathlib.Order.Monotone.Basic
import Mathlib.Logic.Function.Iterate
import WeldingServer.Library.Numeral

/-!
# Dates, times and their texts

A date of the ISO calendar is reached from 1 January 1970 by going to the next day, and a
local date-time from its second by splitting off the day.  Distinct seconds are distinct
date-times (`ofEpochSecond_injective`), because the next day is always later.

A text of a date-time is made by a pattern, a list of fields and literal characters.  All
fields but the year have a fixed width, so a pattern that begins with the year can be read
field by field: equal texts have equal fields (`text_eq_of_format_eq`).
-/

namespace Calendar

open Numeral

/-! ## Dates -/

/-- Every fourth year is a leap year, and of the full centuries every fourth. -/
def isLeapYear (year : Nat) : Bool :=
  year % 4 == 0 && (year % 100 != 0 || year % 400 == 0)

/-- How many days a month of the year has. -/
def monthLength (year month : Nat) : Nat :=
  match month with
  | 2 => if isLeapYear year then 29 else 28
  | 4 | 6 | 9 | 11 => 30
  | _ => 31

theorem monthLength_bounds (year month : Nat) :
    1 ≤ monthLength year month ∧ monthLength year month ≤ 31 := by
  simp only [monthLength]
  split
  · split <;> omega
  all_goals omega

/-- A day of the calendar; the month and the day exist. -/
structure LocalDate where
  year : Nat
  month : Nat
  day : Nat
  month_bounds : 1 ≤ month ∧ month ≤ 12
  day_bounds : 1 ≤ day ∧ day ≤ monthLength year month
deriving DecidableEq, Repr

namespace LocalDate

/-- 1 January 1970 -/
def epoch : LocalDate := ⟨1970, 1, 1, by decide, by decide⟩

/-- The day after `d`. -/
def next (d : LocalDate) : LocalDate :=
  if hd : d.day < monthLength d.year d.month then
    { d with day := d.day + 1, day_bounds := ⟨Nat.le_add_left _ _, hd⟩ }
  else if hm : d.month < 12 then
    ⟨d.year, d.month + 1, 1, ⟨Nat.le_add_left _ _, hm⟩, Nat.le_refl _, (monthLength_bounds _ _).1⟩
  else
    ⟨d.year + 1, 1, 1, by decide, Nat.le_refl _, (monthLength_bounds _ _).1⟩

/-- The date `n` days after 1 January 1970. -/
def ofEpochDay (n : Nat) : LocalDate := next^[n] epoch

/-- The place of a date among all of them, with a gap behind each short month. -/
def rank (d : LocalDate) : Nat := (d.year * 12 + d.month) * 31 + d.day

/-- The next day is later. -/
theorem rank_lt_rank_next (d : LocalDate) : d.rank < d.next.rank := by
  have hday := d.day_bounds.2
  have hlen := (monthLength_bounds d.year d.month).2
  rw [next]
  split
  · exact Nat.lt_succ_self _
  · split
    · show (d.year * 12 + d.month) * 31 + d.day < (d.year * 12 + (d.month + 1)) * 31 + 1
      omega
    · show (d.year * 12 + d.month) * 31 + d.day < ((d.year + 1) * 12 + 1) * 31 + 1
      have hmonth := d.month_bounds.2
      omega

/-- Later day numbers are later days. -/
theorem rank_ofEpochDay_strictMono : StrictMono fun n => (ofEpochDay n).rank := by
  refine strictMono_nat_of_lt_succ fun n => ?_
  rw [ofEpochDay, ofEpochDay, Function.iterate_succ_apply']
  exact rank_lt_rank_next _

/-- Two day numbers are never the same day. -/
theorem ofEpochDay_injective : Function.Injective ofEpochDay := fun _ _ h =>
  rank_ofEpochDay_strictMono.injective (congrArg rank h)

end LocalDate

/-! ## Date-times -/

/-- A day and a time of it, to the second. -/
structure LocalDateTime where
  date : LocalDate
  hour : Nat
  minute : Nat
  second : Nat
  hour_lt : hour < 24
  minute_lt : minute < 60
  second_lt : second < 60
deriving DecidableEq, Repr

/-- The date-time `n` seconds after the beginning of 1970. -/
def LocalDateTime.ofEpochSecond (n : Nat) : LocalDateTime where
  date := .ofEpochDay (n / 86400)
  hour := n % 86400 / 3600
  minute := n % 3600 / 60
  second := n % 60
  hour_lt := by omega
  minute_lt := by omega
  second_lt := by omega

/-- Two seconds are never the same time of the same day. -/
theorem LocalDateTime.ofEpochSecond_injective : Function.Injective ofEpochSecond := by
  intro m n h
  rw [ofEpochSecond, ofEpochSecond, LocalDateTime.mk.injEq] at h
  obtain ⟨hdate, hhour, hminute, hsecond⟩ := h
  have hday := LocalDate.ofEpochDay_injective hdate
  omega

/-! ## Patterns -/

/-- A piece of a pattern: a field in the width its letters ask for, or a character. -/
inductive Piece where
  /-- `yyyy` -/
  | year
  /-- `MM` -/
  | month
  /-- `dd` -/
  | day
  /-- `HH` -/
  | hour
  /-- `mm` -/
  | minute
  /-- `ss` -/
  | second
  | literal (c : Char)
deriving DecidableEq, Repr

/-- Four digits; a year that has more of them is marked by a sign. -/
def yearText (year : Nat) : List Char :=
  if year < 10000 then zeroPadded 4 year else '+' :: zeroPadded 4 year

/-- What a piece of the pattern writes of the time. -/
def Piece.text (t : LocalDateTime) : Piece → List Char
  | .year => yearText t.date.year
  | .month => zeroPadded 2 t.date.month
  | .day => zeroPadded 2 t.date.day
  | .hour => zeroPadded 2 t.hour
  | .minute => zeroPadded 2 t.minute
  | .second => zeroPadded 2 t.second
  | .literal c => [c]

/-- `DateTimeFormatter.format`: the pieces one after the other. -/
def format (pattern : List Piece) (t : LocalDateTime) : List Char :=
  pattern.flatMap (Piece.text t)

@[simp] theorem format_cons (p : Piece) (pattern : List Piece) (t : LocalDateTime) :
    format (p :: pattern) t = p.text t ++ format pattern t := rfl

/-- Two years are never written the same. -/
theorem yearText_injective : Function.Injective yearText := by
  intro m n h
  have hplus : ∀ k l, zeroPadded 4 k ≠ '+' :: zeroPadded 4 l := by
    intro k l he
    have := isDigit_of_mem_zeroPadded (he ▸ List.mem_cons_self .. : '+' ∈ zeroPadded 4 k)
    cases this
  rw [yearText, yearText] at h
  split at h
  · split at h
    · exact zeroPadded_injective 4 h
    · exact absurd h (hplus m n)
  · split at h
    · exact absurd h.symm (hplus n m)
    · exact zeroPadded_injective 4 (List.cons.inj h).2

/-- The number of characters of a piece; a year may have more. -/
def Piece.width : Piece → Nat
  | .year => 4
  | .literal _ => 1
  | _ => 2

theorem Piece.length_text {p : Piece} (hp : p ≠ .year) (t : LocalDateTime) :
    (p.text t).length = p.width := by
  have two : ∀ {n}, n < 60 → (zeroPadded 2 n).length = 2 := fun h =>
    (length_zeroPadded_eq_iff (by decide) _).mpr (Nat.lt_trans h (by decide))
  have hlen := (monthLength_bounds t.date.year t.date.month).2
  have hmonth := t.date.month_bounds.2
  have hday := t.date.day_bounds.2
  have hhour := t.hour_lt
  cases p with
  | year => exact absurd rfl hp
  | month => exact two (by omega)
  | day => exact two (by omega)
  | hour => exact two (by omega)
  | minute => exact two t.minute_lt
  | second => exact two t.second_lt
  | literal c => rfl

/-- Without a year in the pattern, texts that are the same are the same piece by piece. -/
theorem text_eq_of_format_eq_of_fixed {t t' : LocalDateTime} {pattern : List Piece}
    (hfixed : ∀ p ∈ pattern, p ≠ .year) (h : format pattern t = format pattern t') :
    ∀ p ∈ pattern, p.text t = p.text t' := by
  induction pattern with
  | nil => exact List.forall_mem_nil _
  | cons p pattern ih =>
      rw [List.forall_mem_cons] at hfixed ⊢
      rw [format_cons, format_cons] at h
      have hlen : (p.text t).length = (p.text t').length :=
        (Piece.length_text hfixed.1 t).trans (Piece.length_text hfixed.1 t').symm
      obtain ⟨hp, hrest⟩ := List.append_inj h hlen
      exact ⟨hp, ih hfixed.2 hrest⟩

theorem length_format {t t' : LocalDateTime} {pattern : List Piece}
    (hfixed : ∀ p ∈ pattern, p ≠ .year) :
    (format pattern t).length = (format pattern t').length := by
  induction pattern with
  | nil => rfl
  | cons p pattern ih =>
      rw [List.forall_mem_cons] at hfixed
      rw [format_cons, format_cons, List.length_append, List.length_append, ih hfixed.2,
        Piece.length_text hfixed.1, Piece.length_text hfixed.1]

/-- A text is read field by field if only its first piece is a year. -/
theorem text_eq_of_format_eq {t t' : LocalDateTime} {p : Piece} {pattern : List Piece}
    (hfixed : ∀ p ∈ pattern, p ≠ .year) (h : format (p :: pattern) t = format (p :: pattern) t') :
    ∀ q ∈ p :: pattern, q.text t = q.text t' := by
  rw [format_cons, format_cons] at h
  obtain ⟨hp, hrest⟩ := List.append_inj' h (length_format hfixed)
  exact List.forall_mem_cons.mpr ⟨hp, text_eq_of_format_eq_of_fixed hfixed hrest⟩

/-- A pattern with all six fields tells date-times apart. -/
theorem format_injective {p : Piece} {pattern : List Piece} (hfixed : ∀ p ∈ pattern, p ≠ .year)
    (hall : ∀ f ∈ [.year, .month, .day, .hour, .minute, .second], f ∈ p :: pattern) :
    Function.Injective (format (p :: pattern)) := by
  intro t t' h
  have htext : ∀ f ∈ [Piece.year, .month, .day, .hour, .minute, .second],
      f.text t = f.text t' := fun f hf => text_eq_of_format_eq hfixed h f (hall f hf)
  simp only [List.forall_mem_cons, Piece.text] at htext
  obtain ⟨hyear, hmonth, hday, hhour, hminute, hsecond, -⟩ := htext
  obtain ⟨⟨year, month, day, _, _⟩, hour, minute, second, _, _, _⟩ := t
  obtain ⟨⟨year', month', day', _, _⟩, hour', minute', second', _, _, _⟩ := t'
  obtain rfl := yearText_injective hyear
  obtain rfl := zeroPadded_injective 2 hmonth
  obtain rfl := zeroPadded_injective 2 hday
  obtain rfl := zeroPadded_injective 2 hhour
  obtain rfl := zeroPadded_injective 2 hminute
  obtain rfl := zeroPadded_injective 2 hsecond
  rfl

end Calendar
