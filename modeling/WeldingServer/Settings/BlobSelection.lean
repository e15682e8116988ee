import WeldingServer.Library.Argmax
import WeldingServer.Settings.Survival

/-!
# Which blob is reported

`detect_pool` drops the contours that are too small and takes the largest of the others.  The
limit decides whether a pool is reported and never which one: the circle is that of the first
of the largest contours, as if nothing had been dropped.
-/

namespace WeldingServer.Settings

open Argmax

variable {cv : OpenCV} {g : Globals} {frame colorFrame : cv.Image} {contours : List cv.Contour}

/-- `detect_pool` up to `cv2.findContours`, which does not read `MIN_BLOB_AREA`. -/
def contoursOf (cv : OpenCV) (g : Globals) (frame : cv.Image) :
    Except cv.Error (List cv.Contour) := do
  let blurred ← cv.gaussianBlur frame g.blurKernel
  let binary ← cv.threshold blurred g.brightnessThreshold
  let kernel ← cv.ones g.morphKernel
  let opened ← cv.morphOpen binary kernel
  let closed ← cv.morphClose opened kernel
  cv.findContours closed

/-- What `detect_pool` returns for the contour that it has taken, if any. -/
def reportLargest (cv : OpenCV) (colorFrame : cv.Image) :
    Option cv.Contour → PoolResult × Option cv.Image
  | none => (noDetection, some colorFrame)
  | some contour => (reportContour cv colorFrame contour).map id some

/-- With an image, `detectPool` reports the largest of the valid contours. -/
theorem detectPool_eq (cv : OpenCV) (g : Globals) (frame colorFrame : cv.Image) :
    detectPool cv g (some frame) (some colorFrame) =
      (fun contours => reportLargest cv colorFrame
        (largestContour cv (validContours cv g.minBlobArea contours))) <$>
        contoursOf cv g frame := by
  simp only [detectPool, contoursOf, map_bind]
  refine bind_congr fun blurred => bind_congr fun binary => bind_congr fun kernel =>
    bind_congr fun opened => bind_congr fun closed => ?_
  rw [map_eq_pure_bind]
  refine bind_congr fun contours => ?_
  cases largestContour cv (validContours cv g.minBlobArea contours) <;> rfl

/-! ## The filter and the choice -/

/-- A contour that is at least as large as a valid one is valid. -/
theorem validContours_passes {limit : Int} (c c' : cv.Contour)
    (hc : decide (¬ cv.contourArea c < limit) = true) (hle : cv.contourArea c ≤ cv.contourArea c') :
    decide (¬ cv.contourArea c' < limit) = true := by
  simp only [not_lt, decide_eq_true_eq] at hc ⊢
  exact hc.trans hle

/-- The contour taken is that of all contours, if it is not too small itself. -/
theorem largestContour_validContours (limit : Int) (contours : List cv.Contour) :
    largestContour cv (validContours cv limit contours) =
      (largestContour cv contours).filter fun c => ¬ cv.contourArea c < limit :=
  argmax_filter validContours_passes contours

/-- The largest valid contour is the first largest contour, if that one is large enough. -/
theorem largestContour_eq_some_iff {limit : Int} {contours : List cv.Contour} {c : cv.Contour} :
    largestContour cv (validContours cv limit contours) = some c ↔
      FirstMax cv.contourArea contours c ∧ limit ≤ cv.contourArea c := by
  rw [largestContour_validContours, Option.filter_eq_some_iff, largestContour,
    argmax_eq_some_iff_firstMax]
  simp only [not_lt, decide_eq_true_eq]

/-- There is a valid contour only if one of the contours is large enough. -/
theorem exists_largestContour_iff {limit : Int} {contours : List cv.Contour} :
    (∃ c, largestContour cv (validContours cv limit contours) = some c) ↔
      ∃ c ∈ contours, limit ≤ cv.contourArea c := by
  rw [← Option.isSome_iff_exists, ← not_iff_not, Option.not_isSome_iff_eq_none, largestContour,
    List.argmax_eq_none, validContours, List.filter_eq_nil_iff]
  simp

/-- A contour that is taken under a limit is taken under every lower one. -/
theorem largestContour_mono {a b : Int} (hab : a ≤ b) {contours : List cv.Contour}
    {c : cv.Contour} (hc : largestContour cv (validContours cv b contours) = some c) :
    largestContour cv (validContours cv a contours) = some c := by
  obtain ⟨hmax, hb⟩ := largestContour_eq_some_iff.mp hc
  exact largestContour_eq_some_iff.mpr ⟨hmax, (Int.cast_le.mpr hab).trans hb⟩

/-! ## Results -/

theorem poolDetected_reportLargest {colorFrame : cv.Image} {contour : Option cv.Contour} :
    (reportLargest cv colorFrame contour).1.poolDetected = true ↔ ∃ c, contour = some c := by
  cases contour with
  | none => simp [reportLargest, noDetection]
  | some c => simp [reportLargest, reportContour]

/-- The result that `detect_pool` returns with a limit, once the contours are found. -/
def resultWith (cv : OpenCV) (g : Globals) (frame colorFrame : cv.Image) (limit : Int) :
    Except cv.Error (PoolResult × Option cv.Image) :=
  detectPool cv { g with minBlobArea := limit } (some frame) (some colorFrame)

theorem resultWith_of_contours (hf : contoursOf cv g frame = .ok contours) (limit : Int) :
    resultWith cv g frame colorFrame limit =
      .ok (reportLargest cv colorFrame
        (largestContour cv (validContours cv limit contours))) := by
  have hf' : contoursOf cv { g with minBlobArea := limit } frame = .ok contours := hf
  rw [resultWith, detectPool_eq, hf']
  rfl

/-- The result for a contour is its circle, rounded, and the image is drawn with it. -/
theorem reportLargest_some {c : cv.Contour} {cx cy radius : Rat}
    (hc : cv.minEnclosingCircle c = ((cx, cy), radius)) :
    reportLargest cv colorFrame (some c) =
      (⟨true, roundTwo cx, roundTwo cy, roundTwo radius⟩,
        some (cv.circle (cv.circle colorFrame (truncate cx, truncate cy) (truncate radius)
          (0, 255, 0) 2) (truncate cx, truncate cy) 4 (0, 0, 255) (-1))) := by
  simp only [reportLargest, reportContour, hc]
  rfl

/-- With a lower limit `a` and a higher one `b`: a pool is reported if a contour has the area,
with the circle of the first of the largest of all contours, and with `a` as with `b`. -/
theorem detectPool_selects (hf : contoursOf cv g frame = .ok contours) {a b : Int} (hab : a ≤ b) :
    ∃ under under',
      resultWith cv g frame colorFrame a = .ok under ∧
      resultWith cv g frame colorFrame b = .ok under' ∧
      (under.1.poolDetected = true ↔ ∃ c ∈ contours, a ≤ cv.contourArea c) ∧
      (under.1.poolDetected = true → ∃ c cx cy radius, FirstMax cv.contourArea contours c ∧
        cv.minEnclosingCircle c = ((cx, cy), radius) ∧
        under.1 = ⟨true, roundTwo cx, roundTwo cy, roundTwo radius⟩ ∧
        under.2 = some (cv.circle (cv.circle colorFrame (truncate cx, truncate cy)
          (truncate radius) (0, 255, 0) 2) (truncate cx, truncate cy) 4 (0, 0, 255) (-1))) ∧
      (under'.1.poolDetected = true → under = under') := by
  refine ⟨_, _, resultWith_of_contours hf a, resultWith_of_contours hf b,
    poolDetected_reportLargest.trans exists_largestContour_iff, fun h => ?_, fun h => ?_⟩
  · obtain ⟨c, hc⟩ := poolDetected_reportLargest.mp h
    obtain ⟨cx, cy, radius, hcircle⟩ :
        ∃ cx cy radius, cv.minEnclosingCircle c = ((cx, cy), radius) := ⟨_, _, _, rfl⟩
    refine ⟨c, cx, cy, radius, (largestContour_eq_some_iff.mp hc).1, hcircle, ?_, ?_⟩ <;>
      rw [hc, reportLargest_some hcircle]
  · obtain ⟨c, hc⟩ := poolDetected_reportLargest.mp h
    rw [hc, largestContour_mono hab hc]

/-- A computer that finds three blobs in every image, of which the last two are equally
large. -/
def threeBlobs : OpenCV :=
  { smallComputer with
    Contour := Nat
    findContours := fun _ => .ok [0, 1, 2]
    contourArea := fun c => if c = 0 then 800 else 900
    minEnclosingCircle := fun c => ((100 * c + 1 / 3, 240), 137 / 8) }

/-- The three contours. -/
def blobs : List threeBlobs.Contour := ([0, 1, 2] : List Nat)

/-- The blob in the middle is the first of the largest. -/
theorem firstMax_blobs : FirstMax threeBlobs.contourArea blobs (1 : Nat) := by
  refine ⟨([0] : List Nat), ([2] : List Nat), rfl, fun c hc => ?_, fun c hc => ?_⟩ <;>
    obtain rfl := List.mem_singleton.mp hc <;> decide

/-- The pool is that of the blob in the middle under both limits. -/
theorem detectPool_selects_threeBlobs :
    ∃ under under', resultWith threeBlobs {} (1 : Nat) (1 : Nat) 700 = .ok under ∧
      resultWith threeBlobs {} (1 : Nat) (1 : Nat) 850 = .ok under' ∧
      under.1 = ⟨true, 10033 / 100, 240, 1712 / 100⟩ ∧ under' = under := by
  have hf : contoursOf threeBlobs {} (1 : Nat) = .ok blobs := rfl
  obtain ⟨under, under', hunder, hunder', hdetected, hcircle, hsame⟩ :=
    @detectPool_selects threeBlobs {} (1 : Nat) (1 : Nat) blobs hf 700 850 (by decide)
  obtain ⟨again, -, hagain, -, hdetected', -⟩ :=
    @detectPool_selects threeBlobs {} (1 : Nat) (1 : Nat) blobs hf 850 850 (by decide)
  obtain rfl : again = under' := Except.ok.inj (hagain.symm.trans hunder')
  have hmem : (1 : Nat) ∈ blobs := firstMax_blobs.mem
  obtain ⟨c, cx, cy, radius, hmax, hc, hresult, -⟩ :=
    hcircle (hdetected.mpr ⟨(1 : Nat), hmem, by decide⟩)
  -- The first of the largest is one contour.
  obtain rfl : c = (1 : Nat) :=
    Option.some.inj ((argmax_of_firstMax hmax).symm.trans (argmax_of_firstMax firstMax_blobs))
  obtain ⟨hcentre, rfl⟩ := Prod.mk.inj hc
  obtain ⟨rfl, rfl⟩ := Prod.mk.inj hcentre
  refine ⟨under, again, hunder, hunder', hresult.trans (by decide +kernel), ?_⟩
  exact (hsame (hdetected'.mpr ⟨(1 : Nat), hmem, by decide⟩)).symm

end WeldingServer.Settings
