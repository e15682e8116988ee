import WeldingServer.Camera.State

/-!
# The detector's loop

`main` lists `frames/` over and over.  It compares the highest number listed with
`last_processed` to notice that the server has cleared the directory, and then calls
`detect_pool` on every file listed with a number above `last_processed`, in the order of
the names.  `detect_pool` reads the file, returns at once if `imread` gave nothing, and
else writes an annotated copy under the same name.  After each file `last_processed`
is set to its number, whether or not a copy was written.

A batch is carried along by the `DetectorPoint`.  The steps of the loop are listing the
directory, reading a file, writing the copy and recording the file; other processes may
act between any two of them.  Whether `imread` decodes a file is open, and so are whether
`imwrite` succeeds and what `detect_pool` finds.

The glob sorts by name and the loop thinks in numbers.  On the numbers the glob takes the
two orders are the same, so a listing is the ascending list of these numbers
(`listing_eq`).
-/

namespace WeldingServer

/-! ## Listing `frames/` -/

/-- `sorted(glob.glob(FRAMES_DIR + "frame_?????.jpg"))` -/
def frameFiles (frames : Table Frame) : List Name :=
  sorted ((frames.keys.map framePath).filter (fnmatch frameGlob))

/-- The numbers of the files listed, in the order of the listing. -/
def listing (frames : Table Frame) : List Nat :=
  (frameFiles frames).filterMap fun f => (getFrameNumber f).map Int.toNat

/-- `if highest < last_processed: last_processed = -1` -/
def resetCheck (lastProcessed : Int) (files : List Nat) : Int :=
  match files.getLast? with
  | some highest => if (highest : Int) < lastProcessed then -1 else lastProcessed
  | none => lastProcessed

/-- `[f for f in files if get_frame_number(f) > last_processed]` -/
def newFiles (lastProcessed : Int) (files : List Nat) : List Nat :=
  files.filter fun n => lastProcessed < n

/-- The loop at the next file of its batch. -/
def DetectorPoint.next : List Nat → DetectorPoint
  | [] => .polling
  | file :: rest => .detecting file rest

/-- `detect_pool` after its two `imread`: with no image it returns `no_detection`. -/
def DetectorPoint.ofImage (file : Nat) (rest : List Nat) : Option Frame → DetectorPoint
  | some image => .saving file image rest
  | none => .reporting file noDetection rest

/-- `cv2.imread`: nothing if there is no such file or it cannot be decoded. -/
def readImage (frames : Table Frame) (file : Nat) (decoded : Bool) : Option Frame :=
  if decoded then frames.lookup file else none

namespace State

/-! ## The steps -/

/-- `main` starts, with nothing processed. -/
def startDetector (s : State) : Option State :=
  match s.detector with
  | none => some { s with detector := some ⟨-1, .polling⟩ }
  | some _ => none

/-- The detector's process ends, at any point. -/
def stopDetector (s : State) : Option State :=
  match s.detector with
  | none => none
  | some _ => some { s with detector := none }

/-- The loop lists the directory and forms its batch. -/
def poll (s : State) : Option State :=
  match s.detector with
  | some ⟨last, .polling⟩ =>
      let files := listing s.frames
      let last' := resetCheck last files
      some { s with detector := some ⟨last', .next (newFiles last' files)⟩ }
  | _ => none

/-- The two `imread` of `detect_pool`. -/
def imread (s : State) (decoded : Bool) : Option State :=
  match s.detector with
  | some ⟨last, .detecting file rest⟩ =>
      some { s with
        detector := some ⟨last, .ofImage file rest (readImage s.frames file decoded)⟩ }
  | _ => none

/-- `cv2.imwrite(annotated_path, color_frame)` and the return of `detect_pool`. -/
def imwrite (s : State) (written : Bool) (result : PoolResult) : Option State :=
  match s.detector with
  | some ⟨last, .saving file image rest⟩ =>
      some { s with
        annotated := if written then s.annotated.insert file image else s.annotated
        detector := some ⟨last, .reporting file result rest⟩ }
  | _ => none

/-- `post_result` if this was the last file of the batch, which swallows a failure, and
`last_processed = frame_number`. -/
def report (s : State) : Option State :=
  match s.detector with
  | some ⟨_, .reporting file _ rest⟩ => some { s with detector := some ⟨file, .next rest⟩ }
  | _ => none

end State

/-! ## A listing is in ascending order -/

/-- The paths the glob takes, sorted as texts, are those of the numbers below `100000`,
sorted as numbers. -/
theorem frameFiles_eq (frames : Table Frame) :
    frameFiles frames =
      ((frames.keys.filter (· < 100000)).insertionSort (· ≤ ·)).map framePath := by
  have hfilter : (frames.keys.map framePath).filter (fnmatch frameGlob) =
      (frames.keys.filter (· < 100000)).map framePath := by
    rw [List.filter_map]
    refine congrArg (List.map framePath) (List.filter_congr fun n _ => ?_)
    rw [Function.comp, Bool.eq_iff_iff, fnmatch_framePath, decide_eq_true_eq]
  have hperm : (frameFiles frames).Perm
      (((frames.keys.filter (· < 100000)).insertionSort (· ≤ ·)).map framePath) := by
    rw [frameFiles, hfilter]
    exact (List.perm_insertionSort _ _).trans ((List.perm_insertionSort _ _).map _).symm
  refine List.Perm.eq_of_pairwise' (r := (· ≤ ·)) (List.pairwise_insertionSort _ _) ?_ hperm
  have hmem : ∀ n ∈ (frames.keys.filter (· < 100000)).insertionSort (· ≤ ·), n < 100000 := by
    intro n hn
    rw [List.mem_insertionSort, List.mem_filter, decide_eq_true_eq] at hn
    exact hn.2
  refine List.pairwise_map.mpr ?_
  refine (List.pairwise_insertionSort (· ≤ ·) (frames.keys.filter (· < 100000))).imp_of_mem ?_
  intro m n hm hn hle
  rcases Nat.eq_or_lt_of_le hle with rfl | hlt
  · exact le_refl _
  · exact le_of_lt ((framePath_lt_iff (hmem m hm) (hmem n hn)).mpr hlt)

/-- The listing holds the numbers of five digits in ascending order. -/
theorem listing_eq (frames : Table Frame) :
    listing frames = (frames.keys.filter (· < 100000)).insertionSort (· ≤ ·) := by
  have hread : ∀ n : Nat, (getFrameNumber (framePath n)).map Int.toNat = some n := by
    intro n
    rw [getFrameNumber_framePath, Option.map_some, Int.toNat_natCast]
  rw [listing, frameFiles_eq, List.filterMap_map]
  simp [hread]

theorem mem_listing {frames : Table Frame} {n : Nat} :
    n ∈ listing frames ↔ n ∈ frames ∧ n < 100000 := by
  rw [listing_eq, List.mem_insertionSort, List.mem_filter, decide_eq_true_eq, AList.mem_keys]

/-- A listing is strictly ascending. -/
theorem listing_pairwise (frames : Table Frame) : (listing frames).Pairwise (· < ·) := by
  have hnodup : (listing frames).Nodup := by
    rw [listing_eq, (List.perm_insertionSort _ _).nodup_iff]
    exact frames.keys_nodup.filter _
  have hsorted : (listing frames).Pairwise (· ≤ ·) := by
    rw [listing_eq]
    exact List.pairwise_insertionSort _ _
  exact (hsorted.and hnodup).imp fun h => Nat.lt_of_le_of_ne h.1 h.2

/-! ## What the steps change -/

namespace State

variable {s s' : State}

theorem startDetector_eq_some :
    s.startDetector = some s' ↔ s.detector = none ∧
      s' = { s with detector := some ⟨-1, .polling⟩ } := by
  constructor
  · intro h
    simp only [startDetector] at h
    split at h
    next hd => exact ⟨hd, (Option.some.inj h).symm⟩
    next => cases h
  · rintro ⟨hd, rfl⟩
    simp only [startDetector, hd]

theorem stopDetector_eq_some :
    s.stopDetector = some s' ↔ s.detector ≠ none ∧ s' = { s with detector := none } := by
  constructor
  · intro h
    simp only [stopDetector] at h
    split at h
    next => cases h
    next d hd => exact ⟨by rw [hd]; exact Option.some_ne_none d, (Option.some.inj h).symm⟩
  · rintro ⟨hd, rfl⟩
    obtain ⟨d, hd⟩ := Option.ne_none_iff_exists'.mp hd
    simp only [stopDetector, hd]

theorem poll_eq_some :
    s.poll = some s' ↔ ∃ last, s.detector = some ⟨last, .polling⟩ ∧
      s' = { s with
        detector := some ⟨resetCheck last (listing s.frames),
          .next (newFiles (resetCheck last (listing s.frames)) (listing s.frames))⟩ } := by
  constructor
  · intro h
    simp only [poll] at h
    split at h
    next last hd => exact ⟨last, hd, (Option.some.inj h).symm⟩
    next => cases h
  · rintro ⟨last, hd, rfl⟩
    simp only [poll, hd]

theorem imread_eq_some {decoded : Bool} :
    s.imread decoded = some s' ↔ ∃ last file rest,
      s.detector = some ⟨last, .detecting file rest⟩ ∧
      s' = { s with
        detector := some ⟨last, .ofImage file rest (readImage s.frames file decoded)⟩ } := by
  constructor
  · intro h
    simp only [imread] at h
    split at h
    next last file rest hd => exact ⟨last, file, rest, hd, (Option.some.inj h).symm⟩
    next => cases h
  · rintro ⟨last, file, rest, hd, rfl⟩
    simp only [imread, hd]

theorem imwrite_eq_some {written : Bool} {result : PoolResult} :
    s.imwrite written result = some s' ↔ ∃ last file image rest,
      s.detector = some ⟨last, .saving file image rest⟩ ∧
      s' = { s with
        annotated := if written then s.annotated.insert file image else s.annotated
        detector := some ⟨last, .reporting file result rest⟩ } := by
  constructor
  · intro h
    simp only [imwrite] at h
    split at h
    next last file image rest hd => exact ⟨last, file, image, rest, hd, (Option.some.inj h).symm⟩
    next => cases h
  · rintro ⟨last, file, image, rest, hd, rfl⟩
    simp only [imwrite, hd]

theorem report_eq_some :
    s.report = some s' ↔ ∃ last file result rest,
      s.detector = some ⟨last, .reporting file result rest⟩ ∧
      s' = { s with detector := some ⟨file, .next rest⟩ } := by
  constructor
  · intro h
    simp only [report] at h
    split at h
    next last file result rest hd => exact ⟨last, file, result, rest, hd, (Option.some.inj h).symm⟩
    next => cases h
  · rintro ⟨last, file, result, rest, hd, rfl⟩
    simp only [report, hd]

end State

end WeldingServer
