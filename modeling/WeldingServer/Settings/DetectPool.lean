import Mathlib.Data.List.MinMax
import Mathlib.Data.Rat.Floor
import WeldingServer.Camera.State

/-!
# The detection of the weld pool

`detect_pool` blurs a frame, thresholds it, opens and closes the binary image, takes the
largest contour that is not too small and reports the circle around it.  The work on images
is that of OpenCV and NumPy, which are a parameter (`OpenCV`); what is used of them is in
`OpenCV.Documented`.

`DEBUG_MODE` is off.  `imwrite` raises nothing; the image given to it is returned beside
the result.
-/

namespace WeldingServer

/-! ## OpenCV -/

/-- The functions of OpenCV and NumPy that `detect_pool` calls, with the arguments that vary
or come from a setting. -/
structure OpenCV where
  Image : Type
  Kernel : Type
  Contour : Type
  Error : Type
  /-- `cv2.GaussianBlur(image, (size, size), 0)` -/
  gaussianBlur : Image → (size : Int) → Except Error Image
  /-- `cv2.threshold(image, threshold, 255, cv2.THRESH_BINARY)` -/
  threshold : Image → (threshold : Int) → Except Error Image
  /-- `np.ones((size, size), np.uint8)` -/
  ones : (size : Int) → Except Error Kernel
  /-- `cv2.morphologyEx(image, cv2.MORPH_OPEN, kernel)` -/
  morphOpen : Image → Kernel → Except Error Image
  /-- `cv2.morphologyEx(image, cv2.MORPH_CLOSE, kernel)` -/
  morphClose : Image → Kernel → Except Error Image
  /-- `cv2.findContours(image, cv2.RETR_EXTERNAL, cv2.CHAIN_APPROX_SIMPLE)` -/
  findContours : Image → Except Error (List Contour)
  contourArea : Contour → Rat
  /-- The centre and the radius. -/
  minEnclosingCircle : Contour → (Rat × Rat) × Rat
  /-- `cv2.circle(image, centre, radius, color, thickness)` -/
  circle : Image → (centre : Int × Int) → (radius : Int) → (color : Nat × Nat × Nat) →
    (thickness : Int) → Image
  /-- The sizes for which there is memory. -/
  maxBlur : Int
  maxOnes : Int

/-- A Gaussian kernel has an odd positive size, and an array has no negative size.  Beyond
that nothing raises for which there is memory, as there is for the default sizes. -/
structure OpenCV.Documented (cv : OpenCV) : Prop where
  image : Nonempty cv.Image
  gaussianBlur : ∀ image size, (∃ out, cv.gaussianBlur image size = .ok out) ↔
    (size % 2 = 1 ∧ 1 ≤ size) ∧ size ≤ cv.maxBlur
  ones : ∀ size, (∃ kernel, cv.ones size = .ok kernel) ↔ 0 ≤ size ∧ size ≤ cv.maxOnes
  maxBlur : 7 ≤ cv.maxBlur
  maxOnes : 8 ≤ cv.maxOnes
  threshold : ∀ image t, ∃ out, cv.threshold image t = .ok out
  morphOpen : ∀ image kernel, ∃ out, cv.morphOpen image kernel = .ok out
  morphClose : ∀ image kernel, ∃ out, cv.morphClose image kernel = .ok out
  findContours : ∀ image, ∃ contours, cv.findContours image = .ok contours

/-! ## Numbers -/

/-- `int(v)` -/
def truncate (v : Rat) : Int := v.num.tdiv v.den

/-- The nearest integer, and of two nearest ones the even one. -/
def roundHalfEven (v : Rat) : Int :=
  let rest := v - v.floor
  if rest < 1 / 2 ∨ rest = 1 / 2 ∧ v.floor % 2 = 0 then v.floor else v.floor + 1

/-- `round(v, 2)` -/
def roundTwo (v : Rat) : Rat := roundHalfEven (v * 100) / 100

/-! ## `detect_pool` -/

/-- The module-level settings, with their defaults. -/
structure Globals where
  brightnessThreshold : Int := 200
  blurKernel : Int := 7
  morphKernel : Int := 8
  minBlobArea : Int := 700
deriving DecidableEq, Repr

/-- The contours that are not too small. -/
def validContours (cv : OpenCV) (minBlobArea : Int) (contours : List cv.Contour) :
    List cv.Contour :=
  contours.filter fun contour => ¬ cv.contourArea contour < minBlobArea

/-- `max(valid, key=lambda x: x[0])`: the first one of the largest. -/
def largestContour (cv : OpenCV) (valid : List cv.Contour) : Option cv.Contour :=
  valid.argmax cv.contourArea

/-- The result for a contour, and the color frame with its circle. -/
def reportContour (cv : OpenCV) (colorFrame : cv.Image) (contour : cv.Contour) :
    PoolResult × cv.Image :=
  let ((cx, cy), radius) := cv.minEnclosingCircle contour
  let centre := (truncate cx, truncate cy)
  let ring := cv.circle colorFrame centre (truncate radius) (0, 255, 0) 2
  (⟨true, roundTwo cx, roundTwo cy, roundTwo radius⟩, cv.circle ring centre 4 (0, 0, 255) (-1))

/-- `detect_pool` on what the two calls of `imread` give, with the image that it writes to
`annotated/`. -/
def detectPool (cv : OpenCV) (g : Globals) (frame colorFrame : Option cv.Image) :
    Except cv.Error (PoolResult × Option cv.Image) :=
  match frame, colorFrame with
  | some frame, some colorFrame => do
      let blurred ← cv.gaussianBlur frame g.blurKernel
      let binary ← cv.threshold blurred g.brightnessThreshold
      let kernel ← cv.ones g.morphKernel
      let opened ← cv.morphOpen binary kernel
      let closed ← cv.morphClose opened kernel
      let contours ← cv.findContours closed
      match largestContour cv (validContours cv g.minBlobArea contours) with
      | none => return (noDetection, some colorFrame)
      | some contour =>
          let (result, annotated) := reportContour cv colorFrame contour
          return (result, some annotated)
  | _, _ => return (noDetection, none)

variable {cv : OpenCV} {g : Globals}

/-- The two kernels have sizes that OpenCV and NumPy take. -/
def Globals.Takes (cv : OpenCV) (g : Globals) : Prop :=
  ((g.blurKernel % 2 = 1 ∧ 1 ≤ g.blurKernel) ∧ g.blurKernel ≤ cv.maxBlur) ∧
    0 ≤ g.morphKernel ∧ g.morphKernel ≤ cv.maxOnes

theorem detectPool_of_blur_error {frame colorFrame : cv.Image} {e : cv.Error}
    (hb : cv.gaussianBlur frame g.blurKernel = .error e) :
    detectPool cv g (some frame) (some colorFrame) = .error e := by
  rw [detectPool, hb]
  rfl

theorem detectPool_of_ones_error {frame colorFrame blurred binary : cv.Image} {e : cv.Error}
    (hb : cv.gaussianBlur frame g.blurKernel = .ok blurred)
    (ht : cv.threshold blurred g.brightnessThreshold = .ok binary)
    (hk : cv.ones g.morphKernel = .error e) :
    detectPool cv g (some frame) (some colorFrame) = .error e := by
  simp only [detectPool, hb, ht, hk, bind, Except.bind]

/-- On a frame that can be decoded, `detect_pool` returns if and only if the sizes of the
kernels are taken. -/
theorem detectPool_ok_iff (hcv : cv.Documented) (frame colorFrame : cv.Image) :
    (∃ r, detectPool cv g (some frame) (some colorFrame) = .ok r) ↔ g.Takes cv := by
  rw [Globals.Takes, ← hcv.gaussianBlur frame, ← hcv.ones]
  constructor
  · rintro ⟨r, hr⟩
    cases hb : cv.gaussianBlur frame g.blurKernel with
    | error e =>
        rw [detectPool_of_blur_error hb] at hr
        cases hr
    | ok blurred =>
        obtain ⟨binary, ht⟩ := hcv.threshold blurred g.brightnessThreshold
        cases hk : cv.ones g.morphKernel with
        | error e =>
            rw [detectPool_of_ones_error hb ht hk] at hr
            cases hr
        | ok kernel => exact ⟨⟨blurred, rfl⟩, kernel, rfl⟩
  · rintro ⟨⟨blurred, hb⟩, kernel, hk⟩
    obtain ⟨binary, ht⟩ := hcv.threshold blurred g.brightnessThreshold
    obtain ⟨opened, ho⟩ := hcv.morphOpen binary kernel
    obtain ⟨closed, hc⟩ := hcv.morphClose opened kernel
    obtain ⟨contours, hf⟩ := hcv.findContours closed
    simp only [detectPool, hb, ht, hk, ho, hc, hf, bind, Except.bind]
    cases largestContour cv (validContours cv g.minBlobArea contours) with
    | none => exact ⟨_, rfl⟩
    | some contour => exact ⟨_, rfl⟩

/-- A frame that cannot be decoded is skipped. -/
theorem detectPool_of_none (g : Globals) (frame colorFrame : Option cv.Image)
    (h : frame = none ∨ colorFrame = none) :
    detectPool cv g frame colorFrame = .ok (noDetection, none) := by
  rcases h with rfl | rfl
  · rfl
  · cases frame <;> rfl

end WeldingServer
