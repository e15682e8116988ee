import Mathlib.Data.List.Permutation
import WeldingServer.Camera.VideoNames
import WeldingServer.Library.DateText
import WeldingServer.Settings.DetectPool

/-!
# The list of recordings

`videos` lists the files of `videos/` that end in `.mp4`, each with its size and with the date
that `extractTimestamp` reads out of its name, and sorts the entries by name, the last name
first.  The names that `stitchAndClean` gives have the date in them, so that this is the order
of the recordings from the latest to the earliest (`videos_faithful`).

The order of names is that of their characters; Java compares UTF-16 units, which is the same
unless a name has a character beyond the first 65536.  The size is a quotient of doubles that
is exact for a file of less than `2 ^ 53` bytes.
-/

namespace WeldingServer.Dashboard

open Calendar Numeral

/-! ## Sizes and dates -/

/-- `new DecimalFormat("0.0").format(bytes / unit)`, in a locale with the given decimal
separator. -/
def oneDecimal (separator : Char) (bytes unit : Nat) : Name :=
  let tenths := (roundHalfEven ((bytes * 10 : Nat) / (unit : Rat))).toNat
  zeroPadded 1 (tenths / 10) ++ separator :: zeroPadded 1 (tenths % 10)

/-- The size in KB, or in MB from one MB on, with one decimal. -/
def formatSize (separator : Char) (bytes : Nat) : Name :=
  if bytes < 1024 * 1024 then oneDecimal separator bytes 1024 ++ [' ', 'K', 'B']
  else oneDecimal separator bytes (1024 * 1024) ++ [' ', 'M', 'B']

/-- `dd/MM/yyyy HH:mm:ss` -/
def displayPattern : List Piece :=
  [.day, .literal '/', .month, .literal '/', .year, .literal ' ', .hour, .literal ':', .minute,
    .literal ':', .second]

/-- The time in the name of a recording; any other name is taken as it is. -/
def extractTimestamp (filename : Name) : Name :=
  let raw := removeAll mp4Suffix 0 (removeAll videoPrefix 0 filename)
  match parse timestampPattern raw with
  | some t => format displayPattern t
  | none => filename

/-! ## The list -/

/-- What the page learns of a file. -/
structure VideoEntry where
  name : Name
  size : Name
  timestamp : Name
deriving DecidableEq, Repr

/-- `GET /api/videos`, for the files of the directory with their lengths, in the order in which
they are listed; `none` if there is no directory. -/
def videos (separator : Char) : Option (List (Name × Nat)) → List VideoEntry
  | none => []
  | some files =>
      ((files.filter fun f => mp4Suffix.isSuffixOf f.1).map fun f =>
        ⟨f.1, formatSize separator f.2, extractTimestamp f.1⟩).insertionSort
          fun a b => b.name ≤ a.name

/-! ## Names of recordings -/

variable {t t' : LocalDateTime}

/-- The names of recordings are in the order of their times. -/
theorem videoName_lt_iff (ht : t.HasFourDigits) (ht' : t'.HasFourDigits) :
    videoName t < videoName t' ↔ t < t' := by
  have hlength : (format timestampPattern t).length = (format timestampPattern t').length :=
    length_format_of_fourDigits ht ht' _
  have hpre : videoName t < videoName t' ↔
      format timestampPattern t < format timestampPattern t' := by
    rw [videoName, videoName, append_lt_append_iff, append_lt_iff_of_length_eq hlength]
    simp
  rw [hpre, format_lt_iff ht ht', LocalDateTime.lt_iff]
  simp [timestampPattern, LocalDateTime.fields, Piece.value, List.cons_lt_cons_iff]

/-- What stands before the first occurrence stays. -/
theorem removeAll_append {a : Char} {sub cs : Name} (h : a ∉ cs) (rest : Name) :
    removeAll (a :: sub) 0 (cs ++ rest) = cs ++ removeAll (a :: sub) 0 rest := by
  induction cs with
  | nil => rfl
  | cons c cs ih =>
      rw [List.mem_cons, not_or] at h
      have hpre : (a :: sub).isPrefixOf (c :: (cs ++ rest)) = false := by
        rw [List.isPrefixOf_cons_cons, beq_eq_false_iff_ne.mpr h.1, Bool.false_and]
      rw [List.cons_append, removeAll, hpre, if_neg (by decide), ih h.2, List.cons_append]

theorem not_mem_format {c : Char} (ht : t.HasFourDigits) (hdigit : c.isDigit = false)
    (hline : c ≠ '_') : c ∉ format timestampPattern t := by
  intro hc
  rcases mem_format ht hc with h | h
  · cases hdigit.symm.trans h
  · simp [timestampPattern, hline] at h

/-- The two `replace` leave the date. -/
theorem removeAll_videoName (ht : t.HasFourDigits) :
    removeAll mp4Suffix 0 (removeAll videoPrefix 0 (videoName t)) = format timestampPattern t := by
  have hv : 'v' ∉ format timestampPattern t ++ mp4Suffix := by
    rw [List.mem_append, not_or]
    exact ⟨not_mem_format ht rfl (by decide), by decide⟩
  have hpre : removeAll videoPrefix 0 (videoName t) =
      removeAll videoPrefix 0 (format timestampPattern t ++ mp4Suffix) := by
    rw [videoName]
    rfl
  rw [hpre, videoPrefix, removeAll_of_not_mem hv, mp4Suffix,
    removeAll_append (not_mem_format ht rfl (by decide))]
  exact List.append_nil _

/-! ## The date that an entry shows -/

/-- The last two digits of a number. -/
def twoDigits (n : Nat) : Name := [Nat.digitChar (n / 10 % 10), Nat.digitChar (n % 10)]

/-- Day, month and year, and hour, minute and second: two digits for each, four for the year. -/
def dateText (t : LocalDateTime) : Name :=
  twoDigits t.date.day ++ ['/'] ++ twoDigits t.date.month ++ ['/'] ++
    twoDigits (t.date.year / 100) ++ twoDigits t.date.year ++ [' '] ++
    twoDigits t.hour ++ [':'] ++ twoDigits t.minute ++ [':'] ++ twoDigits t.second

theorem zeroPadded_eq_twoDigits {n : Nat} (hn : n < 100) : zeroPadded 2 n = twoDigits n := by
  have hlt : n / 10 < 10 := by omega
  rw [zeroPadded_two hn, twoDigits, Nat.mod_eq_of_lt hlt]

/-- A number below 10000 is padded to its four digits. -/
theorem zeroPadded_eq_fourDigits {n : Nat} (hn : n < 10000) :
    zeroPadded 4 n = twoDigits (n / 100) ++ twoDigits n := by
  rw [zeroPadded_succ (by decide), zeroPadded_succ (by decide),
    zeroPadded_eq_twoDigits (by omega), Nat.div_div_eq_div_mul, List.append_assoc]
  rfl

/-- What `displayPattern` makes of a time, character by character. -/
theorem format_displayPattern (ht : t.HasFourDigits) :
    format displayPattern t = dateText t := by
  have htext : ∀ p : Piece, (∀ c, p ≠ .literal c) → p.width = 2 →
      p.text t = twoDigits (p.value t) := by
    intro p hp hwidth
    have hlt := Piece.value_lt ht p
    rw [hwidth] at hlt
    rw [Piece.text_eq ht hp, hwidth, zeroPadded_eq_twoDigits hlt]
  have hyear : Piece.text t .year = twoDigits (t.date.year / 100) ++ twoDigits t.date.year := by
    rw [Piece.text_eq ht (fun c h => by cases h)]
    exact zeroPadded_eq_fourDigits ht.2
  simp only [format, displayPattern, List.flatMap_cons, List.flatMap_nil, hyear]
  rw [htext .day (fun c h => by cases h) rfl, htext .month (fun c h => by cases h) rfl,
    htext .hour (fun c h => by cases h) rfl, htext .minute (fun c h => by cases h) rfl,
    htext .second (fun c h => by cases h) rfl]
  simp only [dateText, Piece.value, Piece.text, List.append_assoc, List.append_nil]

/-- From the name of a recording its time is read. -/
theorem extractTimestamp_videoName (ht : t.HasFourDigits) :
    extractTimestamp (videoName t) = dateText t := by
  rw [extractTimestamp, removeAll_videoName ht, parse_format ht (by decide)]
  exact format_displayPattern ht

/-! ## The list of all recordings -/

/-- The file of a recording with its length. -/
def recordingFile (v : LocalDateTime × Nat) : Name × Nat := (videoName v.1, v.2)

/-- The entry that a recording is to have. -/
def recordingEntry (separator : Char) (v : LocalDateTime × Nat) : VideoEntry :=
  ⟨videoName v.1, formatSize separator v.2, dateText v.1⟩

theorem endsWith_videoName (t : LocalDateTime) : mp4Suffix.isSuffixOf (videoName t) = true := by
  rw [List.isSuffixOf_iff_suffix, videoName, ← List.append_assoc]
  exact List.suffix_append _ _

/-- Each recording has its entry. -/
theorem entries_eq (separator : Char) {recordings : List (LocalDateTime × Nat)}
    (hyears : ∀ v ∈ recordings, v.1.HasFourDigits) :
    (((recordings.map recordingFile).filter fun f => mp4Suffix.isSuffixOf f.1).map fun f =>
      (⟨f.1, formatSize separator f.2, extractTimestamp f.1⟩ : VideoEntry)) =
      recordings.map (recordingEntry separator) := by
  rw [List.filter_eq_self.mpr, List.map_map]
  · refine List.map_congr_left fun v hv => ?_
    rw [Function.comp, recordingFile, extractTimestamp_videoName (hyears v hv), recordingEntry]
  · intro f hf
    obtain ⟨v, -, rfl⟩ := List.mem_map.mp hf
    exact endsWith_videoName v.1

/-- For recordings of distinct dates, listed in any order, the list has one entry each, from
the latest to the earliest. -/
theorem videos_faithful (separator : Char) {recordings : List (LocalDateTime × Nat)}
    (hyears : ∀ v ∈ recordings, v.1.HasFourDigits) (hdates : (recordings.map Prod.fst).Nodup) :
    ∃ latestFirst : List (LocalDateTime × Nat), latestFirst.Perm recordings ∧
      latestFirst.Pairwise (fun v w => w.1 < v.1) ∧
      videos separator (some (recordings.map recordingFile)) =
        latestFirst.map (recordingEntry separator) := by
  let later (v w : LocalDateTime × Nat) : Prop := videoName w.1 ≤ videoName v.1
  have htotal : Std.Total later := ⟨fun v w => le_total (videoName w.1) (videoName v.1)⟩
  have htrans : IsTrans _ later := ⟨fun _ _ _ h h' => le_trans h' h⟩
  have hperm : (recordings.insertionSort later).Perm recordings := List.perm_insertionSort _ _
  refine ⟨recordings.insertionSort later, hperm, ?_, ?_⟩
  · have hnodup : ((recordings.insertionSort later).map Prod.fst).Nodup :=
      ((hperm.map Prod.fst).nodup_iff).mpr hdates
    refine ((List.pairwise_insertionSort later recordings).and
      (List.pairwise_map.mp hnodup)).imp_of_mem ?_
    intro v w hv hw h
    have hyw := hyears w (hperm.mem_iff.mp hw)
    have hyv := hyears v (hperm.mem_iff.mp hv)
    refine (videoName_lt_iff hyw hyv).mp ?_
    exact lt_of_le_of_ne h.1 fun he => h.2 (videoName_injective he).symm
  · rw [videos, entries_eq separator hyears]
    exact (List.map_insertionSort later (fun a b : VideoEntry => b.name ≤ a.name)
      (recordingEntry separator) recordings fun v _ w _ => Iff.rfl).symm

/-- The end of 2024, and two recordings of one minute. -/
def threeRecordings : List (LocalDateTime × Nat) :=
  [(⟨⟨2025, 3, 2, by decide, by decide⟩, 3, 4, 5, by decide, by decide, by decide⟩, 2048),
    (⟨⟨2024, 12, 31, by decide, by decide⟩, 23, 59, 58, by decide, by decide, by decide⟩, 1536),
    (⟨⟨2025, 3, 2, by decide, by decide⟩, 3, 4, 16, by decide, by decide, by decide⟩, 1024)]

/-- Three recordings, in the order of the directory and in that of the answer. -/
theorem videos_faithful_three :
    videos ',' (some [("video_20250302_030405.mp4".toList, 2048),
        ("video_20241231_235958.mp4".toList, 1536), ("video_20250302_030416.mp4".toList, 1024)]) =
      [⟨"video_20250302_030416.mp4".toList, "1,0 KB".toList, "02/03/2025 03:04:16".toList⟩,
        ⟨"video_20250302_030405.mp4".toList, "2,0 KB".toList, "02/03/2025 03:04:05".toList⟩,
        ⟨"video_20241231_235958.mp4".toList, "1,5 KB".toList, "31/12/2024 23:59:58".toList⟩] := by
  obtain ⟨latestFirst, hperm, hlatest, hvideos⟩ :=
    videos_faithful ',' (show ∀ v ∈ threeRecordings, v.1.HasFourDigits by decide) (by decide)
  -- Of the orders of three recordings only one goes from the latest to the earliest.
  have horder : ∀ l ∈ threeRecordings.permutations', l.Pairwise (fun v w => w.1 < v.1) →
      l.map (recordingEntry ',') =
        [⟨"video_20250302_030416.mp4".toList, "1,0 KB".toList, "02/03/2025 03:04:16".toList⟩,
          ⟨"video_20250302_030405.mp4".toList, "2,0 KB".toList, "02/03/2025 03:04:05".toList⟩,
          ⟨"video_20241231_235958.mp4".toList, "1,5 KB".toList, "31/12/2024 23:59:58".toList⟩] := by
    decide +kernel
  exact hvideos.trans (horder latestFirst (List.mem_permutations'.mpr hperm) hlatest)

end WeldingServer.Dashboard
