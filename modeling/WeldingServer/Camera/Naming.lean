import Mathlib.Data.Int.Notation
import Mathlib.Data.List.Sort
import Mathlib.Order.Lattice
import Mathlib.Data.List.Lex
import WeldingServer.Library.Numeral

/-!
# Names of frame files

A frame is saved under a name made from its number, and four places work on that name.
`handleBinaryMessage` formats it (`framePath`).  `stitchAndClean` and `clearFrames`
filter a directory by a regular expression (`isFrameFile`).  The detector globs the
directory (`frameGlob`), sorts the paths as texts (`sorted`) and reads the number back
(`getFrameNumber`).

`%05d` is a minimum width.  On the numbers below `100000` the four agree; from `100000`
on a name has six digits, and neither the regular expression nor the glob takes it
(`frameNamesAgree_iff`).

Names and paths are lists of characters.  The Python functions are given for `/` as the
separator, and `int()` for the digits of ASCII.
-/

namespace WeldingServer

open Numeral

/-- A name or a path. -/
abbrev Name := List Char

/-- `FRAMES_DIR` -/
def framesDir : Name := ['f', 'r', 'a', 'm', 'e', 's', '/']

/-- What the names of frames start with. -/
def framePrefix : Name := ['f', 'r', 'a', 'm', 'e', '_']

/-- What the names of frames end with. -/
def jpgSuffix : Name := ['.', 'j', 'p', 'g']

/-! ## Java -/

/-- `frame_%05d.jpg` at `n`. -/
def frameName (n : Nat) : Name := framePrefix ++ (zeroPadded 5 n ++ jpgSuffix)

/-- The path `handleBinaryMessage` writes the frame numbered `n` to. -/
def framePath (n : Nat) : Name := framesDir ++ frameName n

/-- `n.matches("frame_\\d{5}\\.jpg")`: the whole name must match. -/
def isFrameFile (name : Name) : Bool :=
  framePrefix.isPrefixOf name &&
    ((name.drop framePrefix.length).take 5).all Char.isDigit &&
    (name.drop framePrefix.length).drop 5 == jpgSuffix

/-! ## Python -/

/-- `fnmatch` for patterns with no special character but `?`, which takes any one
character. -/
def fnmatch : Name → Name → Bool
  | [], [] => true
  | p :: ps, c :: cs => (p == '?' || p == c) && fnmatch ps cs
  | _, _ => false

/-- `FRAMES_DIR + "frame_?????.jpg"` -/
def frameGlob : Name := framesDir ++ (framePrefix ++ (List.replicate 5 '?' ++ jpgSuffix))

/-- `sorted` on a list of texts. -/
def sorted (names : List Name) : List Name := names.insertionSort (· ≤ ·)

/-- `os.path.basename`: what stands behind the last `/`. -/
def basename (path : Name) : Name := (path.reverse.takeWhile (· ≠ '/')).reverse

/-- `os.path.splitext(name)[0]` for a name with no separator.  The last dot starts the
extension, unless only dots stand before it. -/
def splitextRoot (name : Name) : Name :=
  let root := ((name.reverse.dropWhile (· ≠ '.')).drop 1).reverse
  if root.all (· == '.') then name else root

/-- `str.replace(sub, "")`, from left to right; the first argument counts the characters
of an occurrence still to be skipped. -/
def removeAll (sub : Name) : Nat → Name → Name
  | _, [] => []
  | k + 1, _ :: cs => removeAll sub k cs
  | 0, c :: cs =>
      if sub.isPrefixOf (c :: cs) then removeAll sub (sub.length - 1) cs
      else c :: removeAll sub 0 cs

/-- `str.isspace()` for one character: the white space of ASCII and of Unicode. -/
def isSpace (c : Char) : Bool :=
  let n := c.toNat
  (0x09 ≤ n && n ≤ 0x0d) || (0x1c ≤ n && n ≤ 0x20) || n == 0x85 || n == 0xa0 || n == 0x1680 ||
    (0x2000 ≤ n && n ≤ 0x200a) || n == 0x2028 || n == 0x2029 || n == 0x202f || n == 0x205f ||
    n == 0x3000

/-- `str.strip()` -/
def strip (s : Name) : Name := ((s.dropWhile isSpace).reverse.dropWhile isSpace).reverse

/-- The digits of a Python integer literal: groups of digits with single underscores
between them. -/
def pyDigits (s : Name) : Option Nat :=
  let groups := s.splitOn '_'
  if groups.all (fun g => !g.isEmpty && g.all Char.isDigit) then
    some (Nat.ofDigitChars 10 groups.flatten 0)
  else none

/-- `int(s)`; `none` is the `ValueError`. -/
def pyInt (s : Name) : Option Int :=
  match strip s with
  | '-' :: ds => (pyDigits ds).map fun n => -Int.ofNat n
  | '+' :: ds => (pyDigits ds).map Int.ofNat
  | ds => (pyDigits ds).map Int.ofNat

/-- The number in the name of a frame file. -/
def getFrameNumber (filename : Name) : Option Int :=
  pyInt (removeAll framePrefix 0 (splitextRoot (basename filename)))

/-! ## Characters of a numeral -/

theorem ne_of_mem_zeroPadded {w n : Nat} {c d : Char} (hd : d.isDigit = false)
    (hc : c ∈ zeroPadded w n) : c ≠ d := by
  rintro rfl
  rw [isDigit_of_mem_zeroPadded hc] at hd
  cases hd

theorem isSpace_of_isDigit {c : Char} (h : c.isDigit = true) : isSpace c = false := by
  have hbounds := digit_bounds h
  have hlow : 0x30 ≤ c.toNat := hbounds.1
  have hhigh : c.toNat ≤ 0x39 := hbounds.2
  simp only [isSpace, Bool.or_eq_false_iff, Bool.and_eq_false_iff, decide_eq_false_iff_not,
    beq_eq_false_iff_ne]
  omega

/-! ## The regular expression -/

theorem drop_frameName (n : Nat) :
    (frameName n).drop framePrefix.length = zeroPadded 5 n ++ jpgSuffix :=
  List.drop_left' rfl

/-- The regular expression takes the name of `n` exactly when the numeral in it has five
characters. -/
theorem isFrameFile_frameName (n : Nat) :
    isFrameFile (frameName n) = true ↔ n < 100000 := by
  have hpre : framePrefix.isPrefixOf (frameName n) = true := by
    rw [List.isPrefixOf_iff_prefix]
    exact ⟨_, rfl⟩
  have hle : 5 ≤ (zeroPadded 5 n).length := by
    rw [length_zeroPadded]
    exact Nat.le_max_left ..
  have hlen : (zeroPadded 5 n).length = 5 ↔ n < 100000 :=
    length_zeroPadded_eq_iff (w := 5) (by decide) n
  rw [isFrameFile, drop_frameName, hpre, Bool.true_and, Bool.and_eq_true, beq_iff_eq, ← hlen,
    List.drop_append_of_le_length hle, List.take_append_of_le_length hle]
  constructor
  · rintro ⟨-, hdrop⟩
    -- Behind the five digits the suffix leaves no room for a sixth.
    have := congrArg List.length hdrop
    rw [List.length_append, List.length_drop] at this
    omega
  · intro h
    rw [List.take_of_length_le (Nat.le_of_eq h), List.drop_of_length_le (Nat.le_of_eq h)]
    exact ⟨List.all_eq_true.mpr fun _ => isDigit_of_mem_zeroPadded, rfl⟩

/-! ## The glob -/

theorem fnmatch_length : ∀ {ps cs : Name}, fnmatch ps cs = true → ps.length = cs.length
  | [], [], _ => rfl
  | [], _ :: _, h => by simp [fnmatch] at h
  | _ :: _, [], h => by simp [fnmatch] at h
  | _ :: ps, _ :: cs, h => by
      rw [fnmatch, Bool.and_eq_true] at h
      rw [List.length_cons, List.length_cons, fnmatch_length h.2]

/-- A part that the pattern and the name have in common matches. -/
theorem fnmatch_self_append (ps cs l : Name) :
    fnmatch (l ++ ps) (l ++ cs) = fnmatch ps cs := by
  induction l with
  | nil => rfl
  | cons c l ih =>
      rw [List.cons_append, List.cons_append, fnmatch, ih]
      simp

/-- A row of question marks takes any text of its length. -/
theorem fnmatch_replicate_append (ps cs l : Name) :
    fnmatch (List.replicate l.length '?' ++ ps) (l ++ cs) = fnmatch ps cs := by
  induction l with
  | nil => rfl
  | cons c l ih =>
      rw [List.length_cons, List.replicate_succ, List.cons_append, List.cons_append, fnmatch, ih]
      simp

/-- The glob takes the path of `n` exactly when the numeral in it has five characters. -/
theorem fnmatch_framePath (n : Nat) : fnmatch frameGlob (framePath n) = true ↔ n < 100000 := by
  have hlen : (zeroPadded 5 n).length = 5 ↔ n < 100000 :=
    length_zeroPadded_eq_iff (w := 5) (by decide) n
  rw [frameGlob, framePath, frameName, fnmatch_self_append, fnmatch_self_append, ← hlen]
  constructor
  · intro h
    have := fnmatch_length h
    rw [List.length_append, List.length_append, List.length_replicate] at this
    omega
  · intro h
    have hwild := fnmatch_replicate_append jpgSuffix jpgSuffix (zeroPadded 5 n)
    rw [h] at hwild
    rw [hwild]
    decide

/-! ## Reading the number back -/

theorem basename_framePath (n : Nat) : basename (framePath n) = frameName n := by
  have hne : ∀ c ∈ (frameName n).reverse, decide (c ≠ '/') = true := by
    intro c hc
    rw [List.mem_reverse, frameName, List.mem_append, List.mem_append] at hc
    rw [decide_eq_true_eq]
    rcases hc with hc | hc | hc
    · exact fun he => absurd (he ▸ hc) (by decide)
    · exact ne_of_mem_zeroPadded rfl hc
    · exact fun he => absurd (he ▸ hc) (by decide)
  rw [basename, framePath, List.reverse_append, List.takeWhile_append_of_pos hne]
  simp [framesDir]

theorem splitextRoot_frameName (n : Nat) :
    splitextRoot (frameName n) = framePrefix ++ zeroPadded 5 n := by
  simp [splitextRoot, frameName, framePrefix, jpgSuffix]

theorem removeAll_of_not_mem {a : Char} {sub cs : Name} (h : a ∉ cs) :
    removeAll (a :: sub) 0 cs = cs := by
  induction cs with
  | nil => rfl
  | cons c cs ih =>
      rw [List.mem_cons, not_or] at h
      have hpre : (a :: sub).isPrefixOf (c :: cs) = false := by
        rw [List.isPrefixOf_cons_cons, beq_eq_false_iff_ne.mpr h.1, Bool.false_and]
      rw [removeAll, hpre, if_neg (by decide), ih h.2]

theorem removeAll_framePrefix (n : Nat) :
    removeAll framePrefix 0 (framePrefix ++ zeroPadded 5 n) = zeroPadded 5 n := by
  have hno : 'f' ∉ zeroPadded 5 n := fun h => ne_of_mem_zeroPadded rfl h rfl
  rw [show removeAll framePrefix 0 (framePrefix ++ zeroPadded 5 n) =
    removeAll framePrefix 0 (zeroPadded 5 n) by simp [removeAll, framePrefix]]
  exact removeAll_of_not_mem hno

theorem dropWhile_isSpace {s : Name} (h : ∀ c ∈ s, c.isDigit = true) :
    s.dropWhile isSpace = s := by
  cases s with
  | nil => rfl
  | cons c s =>
      rw [List.dropWhile_cons_of_neg]
      rw [isSpace_of_isDigit (h c (List.mem_cons_self ..))]
      decide

theorem pyDigits_zeroPadded (w n : Nat) : pyDigits (zeroPadded w n) = some n := by
  have hno : '_' ∉ zeroPadded w n := fun h => ne_of_mem_zeroPadded rfl h rfl
  have hall : (zeroPadded w n).all Char.isDigit = true :=
    List.all_eq_true.mpr fun _ => isDigit_of_mem_zeroPadded
  rw [pyDigits, List.splitOn_eq_singleton hno]
  simp [hall, zeroPadded_ne_nil, ofDigitChars_zeroPadded]

/-- `int()` reads a padded number as the number. -/
theorem pyInt_zeroPadded (w n : Nat) : pyInt (zeroPadded w n) = some (n : Int) := by
  have hstrip : strip (zeroPadded w n) = zeroPadded w n := by
    rw [strip, dropWhile_isSpace fun _ => isDigit_of_mem_zeroPadded,
      dropWhile_isSpace fun c hc => isDigit_of_mem_zeroPadded (List.mem_reverse.mp hc),
      List.reverse_reverse]
  have hminus : ∀ ds, zeroPadded w n ≠ '-' :: ds := fun ds h =>
    ne_of_mem_zeroPadded (w := w) (n := n) rfl (h ▸ List.mem_cons_self ..) rfl
  have hplus : ∀ ds, zeroPadded w n ≠ '+' :: ds := fun ds h =>
    ne_of_mem_zeroPadded (w := w) (n := n) rfl (h ▸ List.mem_cons_self ..) rfl
  rw [pyInt, hstrip]
  split
  next ds h => exact absurd h (hminus ds)
  next ds h => exact absurd h (hplus ds)
  next => rw [pyDigits_zeroPadded, Option.map_some, Int.ofNat_eq_natCast]

/-- The detector reads back the number `handleBinaryMessage` put into the name, whatever
its width. -/
theorem getFrameNumber_framePath (n : Nat) : getFrameNumber (framePath n) = some (n : Int) := by
  rw [getFrameNumber, basename_framePath, splitextRoot_frameName, removeAll_framePrefix,
    pyInt_zeroPadded]

theorem append_lt_append_iff (k l s : Name) : s ++ k < s ++ l ↔ k < l := by
  induction s with
  | nil => rfl
  | cons c s ih =>
      have hirr : ¬ c < c := Nat.lt_irrefl _
      rw [List.cons_append, List.cons_append, List.cons_lt_cons_iff, ih]
      simp only [hirr, false_or, true_and]

/-- Texts of the same length are ordered as they are with the same part behind them. -/
theorem append_suffix_lt_iff (s : Name) :
    ∀ {k l : Name}, k.length = l.length → (k ++ s < l ++ s ↔ k < l)
  | [], [], _ => by
      simp
  | a :: k, b :: l, h => by
      rw [List.cons_append, List.cons_append, List.cons_lt_cons_iff, List.cons_lt_cons_iff,
        append_suffix_lt_iff s (Nat.succ.inj h)]

/-- Below `100000` the paths are ordered as the numbers. -/
theorem framePath_lt_iff {m n : Nat} (hm : m < 100000) (hn : n < 100000) :
    framePath m < framePath n ↔ m < n := by
  have hlen : (zeroPadded 5 m).length = (zeroPadded 5 n).length := by
    rw [(length_zeroPadded_eq_iff (by decide) m).mpr hm,
      (length_zeroPadded_eq_iff (by decide) n).mpr hn]
  rw [framePath, framePath, frameName, frameName, append_lt_append_iff, append_lt_append_iff,
    append_suffix_lt_iff jpgSuffix hlen, zeroPadded_lt_iff (by decide) hm hn]

/-- `sorted` puts the smaller of two texts first. -/
theorem sorted_pair {k l : Name} (h : k < l) : sorted [l, k] = [k, l] := by
  rw [sorted, List.insertionSort_cons, List.insertionSort_cons, List.insertionSort_nil,
    List.orderedInsert_nil, List.orderedInsert_cons, if_neg (not_le_of_gt h),
    List.orderedInsert_nil]

/-! ## Where the four agree -/

/-- The four users of the names agree on `n`: the regular expression and the glob take its
name, its number is read back, and `sorted` puts the path of a smaller number first. -/
structure FrameNamesAgree (n : Nat) : Prop where
  regex : isFrameFile (frameName n) = true
  glob : fnmatch frameGlob (framePath n) = true
  number : getFrameNumber (framePath n) = some (n : Int)
  order : ∀ m < n, sorted [framePath n, framePath m] = [framePath m, framePath n]

/-- They agree on the numbers of at most five digits and on no others. -/
theorem frameNamesAgree_iff (n : Nat) : FrameNamesAgree n ↔ n < 100000 := by
  constructor
  · intro h
    exact (isFrameFile_frameName n).mp h.regex
  · intro h
    exact
      { regex := (isFrameFile_frameName n).mpr h
        glob := (fnmatch_framePath n).mpr h
        number := getFrameNumber_framePath n
        order := fun m hm => sorted_pair ((framePath_lt_iff (Nat.lt_trans hm h) h).mpr hm) }

/-- The name of frame `100000` has six digits, and the regular expression of
`clearFrames` does not take it. -/
theorem frameNames_disagree : 100000 < 2 ^ 31 ∧ ¬ FrameNamesAgree 100000 := by
  refine ⟨by decide, fun h => ?_⟩
  have hregex := h.regex
  rw [isFrameFile_frameName] at hregex
  exact absurd hregex (by decide)

end WeldingServer
