import Mathlib.Data.Fintype.Prod
import Mathlib.Data.List.ProdSigma
import WeldingServer.Library.Morphology
import WeldingServer.Settings.BlobSelection

/-!
# The mask that contours are looked for in

`detect_pool` thresholds the blurred frame, opens the binary image with a square kernel and
closes it.  `Raster` says what OpenCV documents of this, pixel by pixel: what is beyond the edge
of an image counts for nothing, and the anchor of the kernel is at its centre.

The pixels of a block of the size of the kernel stay white, and what has no such block goes.
But both steps erode and dilate with the kernel as it is, so a kernel with an even size, such as
the default, displaces the mask by a pixel in each (`mask_of_frame`).  A frame without a block
that is bright enough is reported to have no pool (`speck_not_reported`).
-/

namespace WeldingServer.Settings

open Morphology

/-! ## Images -/

/-- A pixel of an image of `w` columns and `h` rows. -/
abbrev Pixel (w h : Nat) := Fin w × Fin h

/-- An image with eight bits a pixel. -/
abbrev Gray (w h : Nat) := Pixel w h → Fin 256

/-- A kernel with its anchor at `a` reaches `b`, in one direction. -/
def Reaches (anchor size a b : Nat) : Prop := a ≤ b + anchor ∧ b + anchor < a + size

/-- The kernel `np.ones((size, size))` with its anchor at `p` covers `q`. -/
def Covers {w h : Nat} (anchor size : Nat) (p q : Pixel w h) : Prop :=
  Reaches anchor size p.1 q.1 ∧ Reaches anchor size p.2 q.2

instance {w h : Nat} (anchor size : Nat) (p q : Pixel w h) : Decidable (Covers anchor size p q) :=
  inferInstanceAs (Decidable ((_ ∧ _) ∧ (_ ∧ _)))

variable {w h : Nat}

/-- All pixels of the image. -/
def pixels (w h : Nat) : List (Pixel w h) := List.finRange w ×ˢ List.finRange h

/-- What the kernel covers of the image. -/
def covered (anchor size : Nat) (p : Pixel w h) : List (Pixel w h) :=
  (pixels w h).filter (Covers anchor size p ·)

/-- The darkest level and the brightest one. -/
def black : Fin 256 := ⟨0, by decide⟩

/-- The level of white. -/
def brightest : Fin 256 := ⟨255, by decide⟩

/-- The lower of two levels. -/
def darker (x y : Fin 256) : Fin 256 := if x.val < y.val then x else y

/-- The higher of two levels. -/
def brighter (x y : Fin 256) : Fin 256 := if x.val < y.val then y else x

/-- `cv2.threshold(f, t, 255, cv2.THRESH_BINARY)` -/
def thresholdBinary (t : Int) (f : Gray w h) : Gray w h := fun p =>
  if t < (f p).val then brightest else black

/-- `cv2.erode`: the least level that the kernel covers. -/
def erode (anchor size : Nat) (f : Gray w h) : Gray w h := fun p =>
  ((covered anchor size p).map f).foldr darker brightest

/-- `cv2.dilate`: the greatest level that the kernel covers. -/
def dilate (anchor size : Nat) (f : Gray w h) : Gray w h := fun p =>
  ((covered anchor size p).map f).foldr brighter black

/-- `cv2.MORPH_OPEN` -/
def morphOpen (anchor size : Nat) (f : Gray w h) : Gray w h :=
  dilate anchor size (erode anchor size f)

/-- `cv2.MORPH_CLOSE` -/
def morphClose (anchor size : Nat) (f : Gray w h) : Gray w h :=
  erode anchor size (dilate anchor size f)

/-- What an image of `w` by `h` pixels and a kernel hold. -/
structure Raster (cv : OpenCV) (w h : Nat) where
  gray : cv.Image → Gray w h
  size : cv.Kernel → Nat
  /-- Where the anchor of a kernel is, in each direction. -/
  anchor : Nat → Nat

/-- The anchor is at the centre; in an even size it is one of the two in the middle. -/
structure Raster.Documented {cv : OpenCV} (R : Raster cv w h) : Prop where
  anchor : ∀ size, 1 ≤ size →
    2 * R.anchor size + 1 = size ∨ 2 * R.anchor size = size ∨ 2 * R.anchor size + 2 = size
  threshold : ∀ {image t out}, cv.threshold image t = .ok out →
    R.gray out = thresholdBinary t (R.gray image)
  ones : ∀ {size kernel}, cv.ones size = .ok kernel → (R.size kernel : Int) = size
  morphOpen : ∀ {image kernel out}, 1 ≤ R.size kernel → cv.morphOpen image kernel = .ok out →
    R.gray out = morphOpen (R.anchor (R.size kernel)) (R.size kernel) (R.gray image)
  morphClose : ∀ {image kernel out}, 1 ≤ R.size kernel → cv.morphClose image kernel = .ok out →
    R.gray out = morphClose (R.anchor (R.size kernel)) (R.size kernel) (R.gray image)
  /-- In a black image there is no contour. -/
  findContours : ∀ {image contours}, cv.findContours image = .ok contours →
    (∀ p, R.gray image p = black) → contours = []

/-- `detect_pool` up to the image in which it looks for contours. -/
def maskOf (cv : OpenCV) (g : Globals) (frame : cv.Image) : Except cv.Error cv.Image := do
  let blurred ← cv.gaussianBlur frame g.blurKernel
  let binary ← cv.threshold blurred g.brightnessThreshold
  let kernel ← cv.ones g.morphKernel
  let opened ← cv.morphOpen binary kernel
  cv.morphClose opened kernel

variable {cv : OpenCV} {g : Globals} {frame colorFrame mask : cv.Image} {R : Raster cv w h}
  {anchor size : Nat} {f f' : Gray w h} {t t' : Int} {p p' q : Pixel w h}

theorem contoursOf_eq (cv : OpenCV) (g : Globals) (frame : cv.Image) :
    contoursOf cv g frame = maskOf cv g frame >>= cv.findContours := by
  simp only [contoursOf, maskOf, bind_assoc]

/-! ## White pixels -/

/-- The pixels that are not black. -/
def white (f : Gray w h) : Set (Pixel w h) := {p | 0 < (f p).val}

/-- Gives each pixel its block, which is what the kernel covers with its anchor there. -/
def blocks (anchor size : Nat) : SetRel (Pixel w h) (Pixel w h) := {x | Covers anchor size x.1 x.2}

/-- The pixels that are brighter than `t`. -/
def bright (t : Int) (f : Gray w h) : Set (Pixel w h) := {p | t < (f p).val}

theorem mem_pixels (q : Pixel w h) : q ∈ pixels w h :=
  List.pair_mem_product.mpr ⟨List.mem_finRange q.1, List.mem_finRange q.2⟩

theorem mem_covered {p q : Pixel w h} : q ∈ covered anchor size p ↔ Covers anchor size p q := by
  rw [covered, List.mem_filter, decide_eq_true_eq]
  exact and_iff_right (mem_pixels q)

/-- The threshold leaves the bright pixels white. -/
theorem white_thresholdBinary (t : Int) (f : Gray w h) :
    white (thresholdBinary t f) = bright t f := by
  ext p
  simp only [white, bright, Set.mem_ofPred_eq, thresholdBinary]
  split
  next h => exact iff_of_true (by decide) h
  next h => exact iff_of_false (by decide) h

theorem darker_pos {x y : Fin 256} : 0 < (darker x y).val ↔ 0 < x.val ∧ 0 < y.val := by
  rw [darker]
  split <;> omega

theorem brighter_pos {x y : Fin 256} : 0 < (brighter x y).val ↔ 0 < x.val ∨ 0 < y.val := by
  rw [brighter]
  split <;> omega

theorem foldr_darker_pos {levels : List (Fin 256)} :
    0 < (levels.foldr darker brightest).val ↔ ∀ x ∈ levels, 0 < x.val := by
  induction levels with
  | nil => exact iff_of_true (by decide) nofun
  | cons x levels ih => rw [List.foldr_cons, darker_pos, ih, List.forall_mem_cons]

theorem foldr_brighter_pos {levels : List (Fin 256)} :
    0 < (levels.foldr brighter black).val ↔ ∃ x ∈ levels, 0 < x.val := by
  induction levels with
  | nil => exact iff_of_false (by decide) (by simp)
  | cons x levels ih => rw [List.foldr_cons, brighter_pos, ih, List.exists_mem_cons_iff]

/-- White after the erosion are the pixels whose block is white. -/
theorem white_erode (anchor size : Nat) (f : Gray w h) :
    white (erode anchor size f) = (blocks anchor size).core (white f) := by
  ext p
  rw [white, Set.mem_ofPred_eq, erode, foldr_darker_pos, List.forall_mem_map]
  simp only [mem_covered]
  rfl

/-- White after the dilation are the pixels whose block meets the white ones. -/
theorem white_dilate (anchor size : Nat) (f : Gray w h) :
    white (dilate anchor size f) = (blocks anchor size).preimage (white f) := by
  ext p
  rw [white, Set.mem_ofPred_eq, dilate, foldr_brighter_pos]
  simp only [List.mem_map, exists_exists_and_eq_and, mem_covered]
  exact exists_congr fun q => and_comm

/-- A pixel is `d` to the right of another one, and `d` below it. -/
def Displaced (d : Int) (p p' : Pixel w h) : Prop :=
  ((p.1 : Nat) : Int) = (p'.1 : Nat) + d ∧ ((p.2 : Nat) : Int) = (p'.2 : Nat) + d

/-- How far the anchor is off the centre, twice. -/
def displacement (anchor size : Nat) : Int := 2 * anchor + 1 - size

/-- The block of a pixel sees what has the displaced pixel in its block. -/
theorem covers_iff_of_displaced (hd : Displaced (displacement anchor size) p p') (q : Pixel w h) :
    Covers anchor size p q ↔ Covers anchor size q p' := by
  obtain ⟨hx, hy⟩ := hd
  simp only [displacement] at hx hy
  simp only [Covers, Reaches]
  omega

theorem covers_self (hanchor : anchor < size) (p : Pixel w h) : Covers anchor size p p := by
  simp only [Covers, Reaches]
  omega

/-- An opened image has the opening of its white pixels, displaced. -/
theorem mem_white_morphOpen (hd : Displaced (displacement anchor size) p p') :
    p ∈ white (morphOpen anchor size f) ↔ p' ∈ opening (blocks anchor size) (white f) := by
  rw [morphOpen, white_dilate, white_erode]
  exact mem_dilated_iff (covers_iff_of_displaced hd)

/-- The close of `cv2` is the closing, displaced. -/
theorem mem_white_morphClose (hd : Displaced (displacement anchor size) p p') :
    p ∈ white (morphClose anchor size f) ↔ p' ∈ closing (blocks anchor size) (white f) := by
  rw [morphClose, white_erode, white_dilate]
  exact mem_eroded_iff (covers_iff_of_displaced hd)

/-! ## The mask -/

theorem exists_of_bind_eq_ok {ε α β : Type} {x : Except ε α} {k : α → Except ε β} {b : β}
    (h : x >>= k = .ok b) : ∃ a, x = .ok a ∧ k a = .ok b := by
  cases x with
  | error e => cases h
  | ok a => exact ⟨a, rfl, h⟩

namespace Raster

/-- Where the anchor of the kernel is that the settings ask for. -/
def centre (R : Raster cv w h) (g : Globals) : Nat := R.anchor g.morphKernel.toNat

/-- The blocks of that kernel. -/
def blocks (R : Raster cv w h) (g : Globals) : SetRel (Pixel w h) (Pixel w h) :=
  Settings.blocks (R.centre g) g.morphKernel.toNat

/-- How far opening and closing displace what they restore. -/
def displacement (R : Raster cv w h) (g : Globals) : Int :=
  Settings.displacement (R.centre g) g.morphKernel.toNat

namespace Documented

/-- The mask is displaced by one pixel for even kernels and not at all for odd ones. -/
theorem displacement_eq (hR : R.Documented) (hk : 1 ≤ g.morphKernel) :
    if g.morphKernel % 2 = 1 then R.displacement g = 0
    else R.displacement g = 1 ∨ R.displacement g = -1 := by
  have hsize : 1 ≤ g.morphKernel.toNat := by omega
  have hanchor := hR.anchor _ hsize
  simp only [Raster.displacement, Settings.displacement, centre]
  split <;> omega

theorem centre_lt (hR : R.Documented) (hk : 1 ≤ g.morphKernel) :
    R.centre g < g.morphKernel.toNat := by
  have hsize : 1 ≤ g.morphKernel.toNat := by omega
  have hanchor := hR.anchor _ hsize
  rw [centre]
  omega

end Documented

end Raster

/-- What `detect_pool` makes of the blurred frame. -/
theorem gray_maskOf (hR : R.Documented) (hk : 1 ≤ g.morphKernel)
    (hmask : maskOf cv g frame = .ok mask) :
    ∃ blurred binary kernel opened, cv.gaussianBlur frame g.blurKernel = .ok blurred ∧
      cv.threshold blurred g.brightnessThreshold = .ok binary ∧
      cv.ones g.morphKernel = .ok kernel ∧ cv.morphOpen binary kernel = .ok opened ∧
      R.gray opened = morphOpen (R.centre g) g.morphKernel.toNat
        (thresholdBinary g.brightnessThreshold (R.gray blurred)) ∧
      R.gray mask = morphClose (R.centre g) g.morphKernel.toNat (R.gray opened) := by
  obtain ⟨blurred, hblurred, hmask⟩ := exists_of_bind_eq_ok hmask
  obtain ⟨binary, hbinary, hmask⟩ := exists_of_bind_eq_ok hmask
  obtain ⟨kernel, hkernel, hmask⟩ := exists_of_bind_eq_ok hmask
  obtain ⟨opened, hopened, hmask⟩ := exists_of_bind_eq_ok hmask
  have hones := hR.ones hkernel
  have hsize : R.size kernel = g.morphKernel.toNat := by omega
  have hpositive : 1 ≤ R.size kernel := by omega
  refine ⟨blurred, binary, kernel, opened, hblurred, hbinary, hkernel, hopened, ?_, ?_⟩
  · rw [hR.morphOpen hpositive hopened, hR.threshold hbinary, hsize]
    rfl
  · rw [hR.morphClose hpositive hmask, hsize]
    rfl

/-- `shown` is `U`, displaced by `d`, as far as both are in the image. -/
def ShowsDisplaced (d : Int) (U shown : Set (Pixel w h)) : Prop :=
  ∀ p p', Displaced d p p' → (p ∈ shown ↔ p' ∈ U)

/-- The opened image has the largest union of blocks that are bright enough, and the mask the
least set that includes it and leaves out a union of blocks.  A kernel with an odd size leaves
both in their place, and one with an even size displaces each by a pixel. -/
theorem mask_of_frame (hR : R.Documented) (hk : 1 ≤ g.morphKernel)
    (hmask : maskOf cv g frame = .ok mask) :
    ∃ blurred binary kernel opened, cv.gaussianBlur frame g.blurKernel = .ok blurred ∧
      cv.threshold blurred g.brightnessThreshold = .ok binary ∧
      cv.ones g.morphKernel = .ok kernel ∧ cv.morphOpen binary kernel = .ok opened ∧
      (∃ U, IsGreatest {U | U ⊆ bright g.brightnessThreshold (R.gray blurred) ∧
          ∃ E, U = (R.blocks g).image E} U ∧
        ShowsDisplaced (R.displacement g) U (white (R.gray opened))) ∧
      (∃ V, IsLeast {V | white (R.gray opened) ⊆ V ∧ ∃ E, Vᶜ = (R.blocks g).image E} V ∧
        ShowsDisplaced (R.displacement g) V (white (R.gray mask))) ∧
      if g.morphKernel % 2 = 1 then R.displacement g = 0
      else R.displacement g = 1 ∨ R.displacement g = -1 := by
  obtain ⟨blurred, binary, kernel, opened, hblurred, hbinary, hkernel, hout, hopened, hclosed⟩ :=
    gray_maskOf hR hk hmask
  refine ⟨blurred, binary, kernel, opened, hblurred, hbinary, hkernel, hout,
    ⟨_, isGreatest_opening _ _, fun p p' hd => ?_⟩, ⟨_, isLeast_closing _ _, fun p p' hd => ?_⟩,
    hR.displacement_eq hk⟩
  · rw [hopened, ← white_thresholdBinary]
    exact mem_white_morphOpen hd
  · rw [hclosed]
    exact mem_white_morphClose hd

/-! ## Specks -/

/-- Every block has a pixel that is not brighter than the threshold. -/
def NoBlock (R : Raster cv w h) (g : Globals) (blurred : cv.Image) : Prop :=
  (R.blocks g).core (bright g.brightnessThreshold (R.gray blurred)) = ∅

theorem exists_maskOf (hcv : cv.Documented) (hg : g.Takes cv) (frame : cv.Image) :
    ∃ mask, maskOf cv g frame = .ok mask := by
  obtain ⟨blurred, hb⟩ := (hcv.gaussianBlur frame g.blurKernel).mpr hg.1
  obtain ⟨binary, ht⟩ := hcv.threshold blurred g.brightnessThreshold
  obtain ⟨kernel, hk⟩ := (hcv.ones g.morphKernel).mpr hg.2
  obtain ⟨opened, ho⟩ := hcv.morphOpen binary kernel
  obtain ⟨closed, hc⟩ := hcv.morphClose opened kernel
  exact ⟨closed, by simp only [maskOf, hb, ht, hk, ho, hc, bind, Except.bind]⟩

theorem black_of_white_eq_empty (hf : white f = ∅) (p : Pixel w h) : f p = black := by
  have hp : ¬ 0 < (f p).val := Set.eq_empty_iff_forall_notMem.mp hf p
  exact Fin.ext (Nat.eq_zero_of_not_pos hp)

/-- Nothing is white after an erosion without a block, nor after the steps that follow. -/
theorem white_morphClose_of_core (hanchor : anchor < size)
    (hnone : (blocks anchor size).core (white f) = ∅) :
    white (morphClose anchor size (morphOpen anchor size f)) = ∅ := by
  have hopened : white (morphOpen anchor size f) = ∅ := by
    rw [morphOpen, white_dilate, white_erode, hnone]
    exact SetRel.preimage_empty_right
  rw [morphClose, white_erode, white_dilate, hopened, SetRel.preimage_empty_right]
  refine Set.eq_empty_iff_forall_notMem.mpr fun p hp => ?_
  exact hp (covers_self hanchor p)

/-- In a black mask no pool is found. -/
theorem detectPool_of_black (hcv : cv.Documented) (hR : R.Documented)
    (hmask : maskOf cv g frame = .ok mask) (hblack : white (R.gray mask) = ∅)
    (colorFrame : cv.Image) :
    detectPool cv g (some frame) (some colorFrame) = .ok (noDetection, some colorFrame) := by
  obtain ⟨contours, hcontours⟩ := hcv.findContours mask
  obtain rfl := hR.findContours hcontours (black_of_white_eq_empty hblack)
  rw [detectPool_eq, contoursOf_eq, hmask]
  change _ <$> cv.findContours mask = _
  rw [hcontours]
  rfl

/-- A frame that has no block that is bright enough is reported to have no pool. -/
theorem speck_not_reported (hcv : cv.Documented) (hR : R.Documented) (hg : g.Takes cv)
    (hk : 1 ≤ g.morphKernel)
    (hnone : ∀ blurred, cv.gaussianBlur frame g.blurKernel = .ok blurred → NoBlock R g blurred) :
    detectPool cv g (some frame) (some colorFrame) = .ok (noDetection, some colorFrame) := by
  obtain ⟨mask, hmask⟩ := exists_maskOf hcv hg frame
  obtain ⟨blurred, -, -, opened, hblurred, -, -, -, hopened, hclosed⟩ := gray_maskOf hR hk hmask
  refine detectPool_of_black hcv hR hmask ?_ colorFrame
  rw [hclosed, hopened]
  refine white_morphClose_of_core (hR.centre_lt hk) ?_
  rw [white_thresholdBinary]
  exact hnone blurred hblurred

/-! ## The threshold -/

theorem white_morphOpen_mono (hwhite : white f ⊆ white f') :
    white (morphOpen anchor size f) ⊆ white (morphOpen anchor size f') := by
  simp only [morphOpen, white_dilate, white_erode]
  exact SetRel.preimage_mono (SetRel.core_mono hwhite)

theorem white_morphClose_mono (hwhite : white f ⊆ white f') :
    white (morphClose anchor size f) ⊆ white (morphClose anchor size f') := by
  simp only [morphClose, white_dilate, white_erode]
  exact SetRel.core_mono (SetRel.preimage_mono hwhite)

/-- A higher threshold makes no pixel of the mask white; if there is none, no pool is found with
it. -/
theorem threshold_raised (hcv : cv.Documented) (hR : R.Documented) (hg : g.Takes cv)
    (hk : 1 ≤ g.morphKernel) (ht : g.brightnessThreshold ≤ t) (frame colorFrame : cv.Image) :
    ∃ mask mask', maskOf cv g frame = .ok mask ∧
      maskOf cv { g with brightnessThreshold := t } frame = .ok mask' ∧
      white (R.gray mask') ⊆ white (R.gray mask) ∧
      (white (R.gray mask) = ∅ →
        detectPool cv { g with brightnessThreshold := t } (some frame) (some colorFrame) =
          .ok (noDetection, some colorFrame)) := by
  obtain ⟨mask, hmask⟩ := exists_maskOf hcv hg frame
  have hg' : ({ g with brightnessThreshold := t } : Globals).Takes cv := hg
  obtain ⟨mask', hmask'⟩ := exists_maskOf hcv hg' frame
  obtain ⟨blurred, -, -, opened, hblurred, -, -, -, hopened, hclosed⟩ := gray_maskOf hR hk hmask
  obtain ⟨blurred', -, -, opened', hblurred', -, -, -, hopened', hclosed'⟩ :=
    gray_maskOf (g := { g with brightnessThreshold := t }) hR hk hmask'
  obtain rfl : blurred' = blurred := Except.ok.inj (hblurred'.symm.trans hblurred)
  have hsubset : white (R.gray mask') ⊆ white (R.gray mask) := by
    rw [hclosed, hclosed', hopened, hopened']
    refine white_morphClose_mono (white_morphOpen_mono ?_)
    rw [white_thresholdBinary, white_thresholdBinary]
    exact fun p hp => ht.trans_lt hp
  refine ⟨mask, mask', hmask, hmask', hsubset, fun hblack => ?_⟩
  exact detectPool_of_black hcv hR hmask' (Set.subset_eq_empty hsubset hblack) colorFrame

/-! ## A computer with small images -/

/-- A computer with images of six by six pixels, on which a blur of one pixel is none. -/
def pixelComputer : OpenCV where
  Image := Gray 6 6
  Kernel := Nat
  Contour := Unit
  Error := Unit
  gaussianBlur image size :=
    if (size % 2 = 1 ∧ 1 ≤ size) ∧ size ≤ 99 then .ok image else .error ()
  threshold image t := .ok (thresholdBinary t image)
  ones size := if 0 ≤ size ∧ size ≤ 99 then .ok size.toNat else .error ()
  morphOpen image size := .ok (morphOpen (size / 2) size image)
  morphClose image size := .ok (morphClose (size / 2) size image)
  findContours image := .ok (if (pixels 6 6).all (image · = black) then [] else [()])
  contourArea _ := 900
  minEnclosingCircle _ := ((3, 3), 1)
  circle image _ _ _ _ := image
  maxBlur := 99
  maxOnes := 99

theorem pixelComputer_documented : pixelComputer.Documented where
  image := ⟨fun _ => black⟩
  gaussianBlur image size := exists_ok_iff _ image ()
  ones size := exists_ok_iff _ size.toNat ()
  maxBlur := by decide
  maxOnes := by decide
  threshold _ _ := ⟨_, rfl⟩
  morphOpen _ _ := ⟨_, rfl⟩
  morphClose _ _ := ⟨_, rfl⟩
  findContours _ := ⟨_, rfl⟩

/-- Its images are their own levels of grey. -/
def pixelRaster : Raster pixelComputer 6 6 where
  gray image := image
  size kernel := kernel
  anchor size := size / 2

theorem pixelRaster_documented : pixelRaster.Documented where
  anchor size _ := by
    change 2 * (size / 2) + 1 = size ∨ 2 * (size / 2) = size ∨ 2 * (size / 2) + 2 = size
    omega
  threshold h := (Except.ok.inj h).symm
  ones {size kernel} h := by
    have hsize : 0 ≤ size ∧ size ≤ 99 := by
      by_contra hnot
      cases (if_neg hnot).symm.trans h
    have hkernel : size.toNat = kernel := Except.ok.inj ((if_pos hsize).symm.trans h)
    exact hkernel ▸ Int.toNat_of_nonneg hsize.1
  morphOpen _ h := (Except.ok.inj h).symm
  morphClose _ h := (Except.ok.inj h).symm
  findContours h hblack := (Except.ok.inj h).symm.trans
    (if_pos (List.all_eq_true.mpr fun p _ => decide_eq_true (hblack p)))

/-- No blur, and a kernel with an even size. -/
def evenKernel : Globals := { blurKernel := 1, morphKernel := 2 }

theorem takes_evenKernel : evenKernel.Takes pixelComputer :=
  ⟨⟨by decide, by decide⟩, by decide, by decide⟩

/-- A square of two by two bright pixels. -/
def spot : Gray 6 6 := fun p =>
  if p.1.val ∈ [1, 2] ∧ p.2.val ∈ [1, 2] then brightest else black

theorem maskOf_spot : maskOf pixelComputer evenKernel spot =
    .ok (morphClose 1 2 (morphOpen 1 2 (thresholdBinary 200 spot))) := rfl

/-- Opening displaces the spot by a pixel, and closing displaces it once more. -/
theorem mask_of_frame_spot : ∃ opened mask : Gray 6 6,
    pixelComputer.morphOpen (thresholdBinary 200 spot) (2 : Nat) = .ok opened ∧
      maskOf pixelComputer evenKernel spot = .ok mask ∧
      (∀ p, 0 < (opened p).val ↔ p.1.val ∈ [2, 3] ∧ p.2.val ∈ [2, 3]) ∧
      (∀ p, 0 < (mask p).val ↔ p.1.val ∈ [3, 4] ∧ p.2.val ∈ [3, 4]) ∧
      (∃ U, ShowsDisplaced 1 U (white opened)) ∧ ∃ V, ShowsDisplaced 1 V (white mask) := by
  obtain ⟨_, _, _, opened, hblurred, hbinary, hkernel, hopened, ⟨U, -, hU⟩, ⟨V, -, hV⟩, -⟩ :=
    mask_of_frame pixelRaster_documented (by decide) maskOf_spot
  obtain rfl := Except.ok.inj hblurred
  obtain rfl := Except.ok.inj hbinary
  obtain rfl := Except.ok.inj hkernel
  obtain rfl := Except.ok.inj hopened
  exact ⟨_, _, rfl, maskOf_spot, by decide +kernel, by decide +kernel, ⟨U, hU⟩, V, hV⟩

/-- A single bright pixel. -/
def speck : Gray 6 6 := fun p => if p.1.val = 2 ∧ p.2.val = 2 then brightest else black

/-- One bright pixel is no pool for a kernel of two. -/
theorem speck_not_reported_pixel :
    detectPool pixelComputer evenKernel (some speck) (some speck) =
      .ok (noDetection, some speck) := by
  refine speck_not_reported pixelComputer_documented pixelRaster_documented takes_evenKernel
    (by decide) fun blurred hblurred => ?_
  obtain rfl : speck = blurred := Except.ok.inj hblurred
  refine Set.eq_empty_iff_forall_notMem.mpr fun q hq => ?_
  have hdark : ∀ q : Pixel 6 6, ∃ p, Covers 1 2 q p ∧ ¬ (200 : Int) < (speck p).val := by
    decide +kernel
  obtain ⟨p, hcovers, hp⟩ := hdark q
  exact hp (hq hcovers)

/-- The threshold is too high for the spot. -/
theorem threshold_raised_spot : ∃ mask : Gray 6 6,
    maskOf pixelComputer { evenKernel with brightnessThreshold := 255 } spot = .ok mask ∧
      ∀ p, 0 < (mask p).val → p.1.val ∈ [3, 4] ∧ p.2.val ∈ [3, 4] := by
  obtain ⟨mask, mask', hmask, hmask', hsubset, -⟩ :=
    threshold_raised pixelComputer_documented pixelRaster_documented takes_evenKernel (by decide)
      (show evenKernel.brightnessThreshold ≤ 255 by decide) spot spot
  obtain rfl := Except.ok.inj (hmask.symm.trans maskOf_spot)
  refine ⟨mask', hmask', fun p hp => ?_⟩
  have hspot : ∀ p, 0 < (morphClose 1 2 (morphOpen 1 2 (thresholdBinary 200 spot)) p).val →
      p.1.val ∈ [3, 4] ∧ p.2.val ∈ [3, 4] := by decide +kernel
  exact hspot p (hsubset hp)

end WeldingServer.Settings
