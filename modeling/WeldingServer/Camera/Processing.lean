import WeldingServer.Camera.Noticing

/-!
# Each frame is processed once

Within a recording the files appear one after the other and stay.  `frames/` is then an
initial segment of the numbers, and so is each listing of it: the highest number listed never
falls below `last_processed`, so that the check for a new recording does not fire, and what a
listing shows above `last_processed` follows it without a gap.

What has been passed to `detect_pool` and what the batch still has to pass make up the
numbers from 0 to the highest one listed, in this order (`Processing`).  Between two batches
the detector has thus passed each number up to `last_processed` once, and posted the result of
the last file of each batch (`processedOnce`).
-/

namespace WeldingServer

open Transition

/-! ## What the loop does -/

/-- The number of the file that is passed to `detect_pool` in the step. -/
def passedNumberBy (s : State) : Action → List Nat
  | .detector (.imread _) => s.copying.toList
  | _ => []

/-- The numbers of the files passed to `detect_pool`. -/
def passedNumbers : History → List Nat := observed passedNumberBy

/-- What `detect_pool` returns in the step, and for which file. -/
def returnedBy (s : State) : Action → List (Nat × PoolResult)
  | .detector (.imread decoded) =>
      (s.copying.filter fun file => (readImage s.frames file decoded).isNone).toList.map
        (·, noDetection)
  | .detector (.imwrite _ result) => s.copying.toList.map (·, result)
  | _ => []

/-- What `process_frame` has returned, with the number of the file. -/
def returned : History → List (Nat × PoolResult) := observed returnedBy

/-- `new_files` of a poll. -/
def State.newFiles (s : State) : List Nat :=
  match s.detector with
  | some d => WeldingServer.newFiles (resetCheck d.lastProcessed (listing s.frames))
      (listing s.frames)
  | none => []

/-- The batch that a poll puts together. -/
def batchBy (s : State) : Action → List (List Nat)
  | .detector .poll => [s.newFiles]
  | _ => []

/-- `new_files` of each poll. -/
def batches : History → List (List Nat) := observed batchBy

/-- `if frame_file == new_files[-1]: post_result(result)` -/
def postedBy (newFiles : List Nat) (s : State) : Action → List (Nat × PoolResult)
  | .detector .report =>
      match s.detector with
      | some ⟨_, .reporting file result _⟩ =>
          if newFiles.getLast? = some file then [(file, result)] else []
      | _ => []
  | _ => []

/-- The results posted, each with its file. -/
def posts : History → List (Nat × PoolResult)
  | [] => []
  | (s, a) :: tr => posts tr ++ postedBy ((batches tr).getLast?.getD []) s a

/-- The highest number listed by the last poll that listed any, or else -1. -/
def highestListed : History → Int
  | [] => -1
  | (s, .detector .poll) :: tr =>
      match (listing s.frames).getLast? with
      | some highest => highest
      | none => highestListed tr
  | _ :: tr => highestListed tr

section

variable (s : State) (a : Action) (tr : History)

theorem passedNumbers_cons :
    passedNumbers ((s, a) :: tr) = passedNumbers tr ++ passedNumberBy s a := rfl

theorem returned_cons : returned ((s, a) :: tr) = returned tr ++ returnedBy s a := rfl

theorem batches_cons : batches ((s, a) :: tr) = batches tr ++ batchBy s a := rfl

theorem posts_cons :
    posts ((s, a) :: tr) = posts tr ++ postedBy ((batches tr).getLast?.getD []) s a := rfl

end

/-! ## The property and what is assumed -/

/-- The step deletes a file from `frames/`. -/
def deletesFrame : Action → Bool
  | .stitch (.deleteRaw _ deleted) => deleted
  | _ => false

/-- Files stay, a file appears when all before it are there, and the loop goes on. -/
def FilesFollow (_ : History) (s : State) (a : Action) : Prop :=
  deletesFrame a = false ∧ a ≠ .detector .stop ∧
    ∀ n ∈ writtenNumber s a, n < 100000 ∧ ∀ m < n, m ∈ s.frames

/-- A poll that finds files does not find the highest number below `last_processed`. -/
def SeesNoReset (_ : History) (s : State) (a : Action) : Prop :=
  a = .detector .poll → ∀ d ∈ s.detector, ∀ highest ∈ (listing s.frames).getLast?,
    ¬ (highest : Int) < d.lastProcessed

instance (tr : History) (s : State) (a : Action) : Decidable (FilesFollow tr s a) :=
  inferInstanceAs (Decidable (_ = _ ∧ a ≠ _ ∧
    ∀ n ∈ writtenNumber s a, n < 100000 ∧ ∀ m < n, m ∈ s.frames))

/-- Each number up to `last` was passed once, in order, and each poll with new files led to
one post, of what `detect_pool` returned for the last of them. -/
structure ProcessedOnce (tr : History) (last : Int) : Prop where
  passed : passedNumbers tr = List.range (last + 1).toNat
  last : last = highestListed tr
  posted : (posts tr).map Prod.fst = (batches tr).filterMap List.getLast?
  results : ∀ p ∈ posts tr, p ∈ returned tr
  returned : (returned tr).map Prod.fst = passedNumbers tr

/-! ## Initial segments -/

/-- `frames/` holds the files `0`, …, `k - 1`. -/
def State.HoldsFirst (s : State) (k : Nat) : Prop :=
  k ≤ 100000 ∧ ∀ n, n ∈ s.frames ↔ n < k

variable {s s' : State} {k : Nat}

/-- The detector lists the numbers that are there in order. -/
theorem State.HoldsFirst.listing_eq (h : s.HoldsFirst k) : listing s.frames = List.range k := by
  refine (listing_pairwise _).eq_of_mem_iff List.pairwise_lt_range fun n => ?_
  rw [mem_listing, h.2, List.mem_range]
  exact ⟨And.left, fun hn => ⟨hn, Nat.lt_of_lt_of_le hn h.1⟩⟩

theorem range_append_cons {l n file : Nat} {rest : List Nat}
    (h : List.range l ++ file :: rest = List.range n) :
    file = l ∧ List.range (l + 1) ++ rest = List.range n := by
  have hlt : l < n := by
    have := congrArg List.length h
    simp only [List.length_append, List.length_range, List.length_cons] at this
    omega
  have hfile : file = l := by
    have hget : (List.range l ++ file :: rest)[l]? = (List.range n)[l]? := by rw [h]
    rw [List.getElem?_append_right (by simp), List.getElem?_range hlt] at hget
    simpa using hget
  subst hfile
  exact ⟨rfl, by rw [List.range_succ, List.append_assoc, List.singleton_append, h]⟩

/-- A listing that reaches up to `n` or further. -/
theorem resetCheck_range {last : Int} {n : Nat} (hlast : last + 1 = n) (hn : n ≤ k) :
    resetCheck last (List.range k) = last := by
  rw [resetCheck, List.getLast?_range]
  by_cases hk : k = 0
  · rw [if_pos hk]
  · rw [if_neg hk]
    exact if_neg (by omega)

/-- The new files are those behind the ones that were processed. -/
theorem range_append_newFiles {last : Int} {n : Nat} (hlast : last + 1 = n) (hn : n ≤ k) :
    List.range n ++ newFiles last (List.range k) = List.range k := by
  have hnew : (newFiles last (List.range k)).Pairwise (· < ·) := List.pairwise_lt_range.filter _
  have hall : (List.range n ++ newFiles last (List.range k)).Pairwise (· < ·) := by
    refine List.pairwise_append.mpr ⟨List.pairwise_lt_range, hnew, fun m hm m' hm' => ?_⟩
    have hlt := (mem_newFiles.mp hm').2
    rw [List.mem_range] at hm
    omega
  refine hall.eq_of_mem_iff List.pairwise_lt_range fun m => ?_
  rw [List.mem_append, mem_newFiles, List.mem_range, List.mem_range]
  omega

/-! ## The invariant -/

/-- The files of the batch for which `detect_pool` has not returned. -/
def DetectorPoint.unreturned : DetectorPoint → List Nat
  | .polling => []
  | .detecting file rest => file :: rest
  | .saving file _ rest => file :: rest
  | .reporting _ _ rest => rest

@[simp] theorem DetectorPoint.unreturned_next :
    ∀ l : List Nat, (DetectorPoint.next l).unreturned = l
  | [] => rfl
  | _ :: _ => rfl

/-- `l` comes after `last_processed`, and `n` after the highest number listed.  The records
lack of the numbers below `n` what the batch has still to pass, to return and to process. -/
structure Processing (tr : History) (s : State) (d : Detector) (l n : Nat) : Prop where
  detector : s.detector = some d
  files : ∃ k, n ≤ k ∧ s.HoldsFirst k
  last : d.lastProcessed + 1 = l
  highest : highestListed tr + 1 = n
  toProcess : List.range l ++ d.point.pending = List.range n
  toPass : passedNumbers tr ++ d.point.unread = List.range n
  toReturn : (returned tr).map Prod.fst ++ d.point.unreturned = List.range n
  toPost : (posts tr).map Prod.fst ++ d.point.pending.getLast?.toList =
    (batches tr).filterMap List.getLast?
  batch : d.point.pending ≠ [] →
    ((batches tr).getLast?.getD []).getLast? = d.point.pending.getLast?
  result : ∀ file result rest, d.point = .reporting file result rest → (file, result) ∈ returned tr
  results : ∀ p ∈ posts tr, p ∈ returned tr

variable {tr : History} {a : Action} {d : Detector} {l n : Nat}

/-- Steps of other processes add files, if anything. -/
theorem Processing.congr (hi : Processing tr s d l n) (ha : ∀ b, a ≠ .detector b)
    (hd : s'.detector = s.detector) (hf : ∃ k, n ≤ k ∧ s'.HoldsFirst k) :
    Processing ((s, a) :: tr) s' d l n := by
  have hsame : passedNumbers ((s, a) :: tr) = passedNumbers tr ∧
      returned ((s, a) :: tr) = returned tr ∧ batches ((s, a) :: tr) = batches tr ∧
      posts ((s, a) :: tr) = posts tr ∧ highestListed ((s, a) :: tr) = highestListed tr := by
    cases a with
    | detector b => exact absurd rfl (ha b)
    | _ => exact ⟨List.append_nil _, List.append_nil _, List.append_nil _, List.append_nil _, rfl⟩
  obtain ⟨hpassed, hreturned, hbatches, hposts, hhighest⟩ := hsame
  exact
    { detector := hd.trans hi.detector
      files := hf
      last := hi.last
      highest := hhighest.symm ▸ hi.highest
      toProcess := hi.toProcess
      toPass := hpassed.symm ▸ hi.toPass
      toReturn := hreturned.symm ▸ hi.toReturn
      toPost := hposts.symm ▸ hbatches.symm ▸ hi.toPost
      batch := hbatches.symm ▸ hi.batch
      result := hreturned.symm ▸ hi.result
      results := hposts.symm ▸ hreturned.symm ▸ hi.results }

/-! ## Steps of the loop -/

theorem highestListed_poll {m : Nat} (hi : highestListed tr + 1 = m) (hm : m ≤ k)
    (hk : s.HoldsFirst k) : highestListed ((s, .detector .poll) :: tr) + 1 = k := by
  rw [highestListed, hk.listing_eq, List.getLast?_range]
  by_cases hzero : k = 0
  · rw [if_pos hzero]
    dsimp only
    omega
  · rw [if_neg hzero]
    dsimp only
    omega

/-- A poll puts the next numbers into a batch. -/
theorem Processing.poll {last : Int} (hi : Processing tr s ⟨last, .polling⟩ l n)
    (h : s.poll = some s') :
    ∃ d' n', Processing ((s, .detector .poll) :: tr) s' d' l n' := by
  obtain ⟨k, hn, hk⟩ := hi.files
  obtain rfl : l = n := by
    have := congrArg List.length hi.toProcess
    simpa [DetectorPoint.pending] using this
  have hcheck : resetCheck last (List.range k) = last := resetCheck_range hi.last hn
  have hall : List.range l ++ newFiles last (List.range k) = List.range k :=
    range_append_newFiles hi.last hn
  have hnew : s.newFiles = newFiles last (List.range k) := by
    rw [State.newFiles, hi.detector, hk.listing_eq]
    exact congrArg (newFiles · _) hcheck
  have hs' : s' = { s with
      detector := some ⟨last, .next (newFiles last (List.range k))⟩ } := by
    obtain ⟨last', hd, rfl⟩ := State.poll_eq_some.mp h
    obtain rfl : last' = last := by simpa using hd.symm.trans hi.detector
    rw [hk.listing_eq, hcheck]
  subst hs'
  have hpassed : passedNumbers ((s, .detector .poll) :: tr) = List.range l :=
    (List.append_nil _).trans ((List.append_nil _).symm.trans hi.toPass)
  have hreturned : returned ((s, .detector .poll) :: tr) = returned tr := List.append_nil _
  have hposts : posts ((s, .detector .poll) :: tr) = posts tr := List.append_nil _
  have hposted : (posts tr).map Prod.fst = (batches tr).filterMap List.getLast? :=
    (List.append_nil _).symm.trans hi.toPost
  have hbatches : batches ((s, .detector .poll) :: tr) =
      batches tr ++ [newFiles last (List.range k)] := by
    rw [batches_cons, batchBy, hnew]
  refine ⟨_, k,
    { detector := rfl
      files := ⟨k, Nat.le_refl k, hk⟩
      last := hi.last
      highest := highestListed_poll hi.highest hn hk
      toProcess := ?_
      toPass := ?_
      toReturn := ?_
      toPost := ?_
      batch := fun _ => ?_
      result := fun file result rest hp => ?_
      results := ?_ }⟩
  · rw [DetectorPoint.pending_next]
    exact hall
  · rw [hpassed, DetectorPoint.unread_next]
    exact hall
  · rw [hreturned, (List.append_nil _).symm.trans hi.toReturn, DetectorPoint.unreturned_next]
    exact hall
  · rw [hposts, hposted, hbatches, DetectorPoint.pending_next, List.filterMap_append]
    cases hlast : (newFiles last (List.range k)).getLast? <;> simp [hlast]
  · rw [hbatches, DetectorPoint.pending_next, List.getLast?_concat]
    rfl
  · dsimp only at hp
    cases hb : newFiles last (List.range k) <;> (rw [hb] at hp; cases hp)
  · rw [hposts, hreturned]
    exact hi.results

/-- A file that cannot be read returns no detection. -/
theorem returnedBy_imread {file : Nat} {decoded : Bool} (h : s.copying = some file) :
    returnedBy s (.detector (.imread decoded)) =
      match readImage s.frames file decoded with
      | none => [(file, noDetection)]
      | some _ => [] := by
  rw [returnedBy, h, Option.filter_some]
  cases readImage s.frames file decoded <;> rfl

/-- The file read is the next one to be returned. -/
theorem Processing.imread {last : Int} {file : Nat} {rest : List Nat} {decoded : Bool}
    (hi : Processing tr s ⟨last, .detecting file rest⟩ l n) (h : s.imread decoded = some s') :
    ∃ d', Processing ((s, .detector (.imread decoded)) :: tr) s' d' l n := by
  have hcopying : s.copying = some file := by rw [State.copying, hi.detector]
  have hs' : s' = { s with
      detector := some ⟨last, .ofImage file rest (readImage s.frames file decoded)⟩ } := by
    obtain ⟨last', file', rest', hd, rfl⟩ := State.imread_eq_some.mp h
    obtain ⟨rfl, hpoint⟩ := Detector.mk.inj (Option.some.inj (hd.symm.trans hi.detector))
    obtain ⟨rfl, rfl⟩ := DetectorPoint.detecting.inj hpoint
    rfl
  subst hs'
  have hpassed : passedNumbers ((s, .detector (.imread decoded)) :: tr) =
      passedNumbers tr ++ [file] := by
    rw [passedNumbers_cons, passedNumberBy, hcopying]
    rfl
  have hbatches : batches ((s, .detector (.imread decoded)) :: tr) = batches tr :=
    List.append_nil _
  have hposts : posts ((s, .detector (.imread decoded)) :: tr) = posts tr := List.append_nil _
  have hpending (image) : (DetectorPoint.ofImage file rest image).pending = file :: rest := by
    cases image with
    | none => rfl
    | some _ => rfl
  refine ⟨_,
    { detector := rfl
      files := hi.files
      last := hi.last
      highest := hi.highest
      toProcess := ?_
      toPass := ?_
      toReturn := ?_
      toPost := ?_
      batch := ?_
      result := fun file' result rest' hp => ?_
      results := fun p hp => ?_ }⟩
  · rw [hpending]
    exact hi.toProcess
  · rw [hpassed, DetectorPoint.unread_ofImage, List.append_assoc]
    exact hi.toPass
  · rw [returned_cons, returnedBy_imread hcopying, List.map_append, List.append_assoc]
    cases readImage s.frames file decoded with
    | none => exact hi.toReturn
    | some image => exact hi.toReturn
  · rw [hposts, hbatches, hpending]
    exact hi.toPost
  · rw [hbatches, hpending]
    exact hi.batch
  · rw [returned_cons, returnedBy_imread hcopying]
    cases hread : readImage s.frames file decoded with
    | none =>
        rw [hread] at hp
        obtain ⟨rfl, rfl, rfl⟩ := DetectorPoint.reporting.inj hp
        exact List.mem_append_right _ (List.mem_singleton_self _)
    | some image =>
        rw [hread] at hp
        cases hp
  · rw [hposts] at hp
    exact List.mem_append_left _ (hi.results p hp)

/-- With the copy the result of its file is returned. -/
theorem Processing.imwrite {last : Int} {file : Nat} {image : Frame} {rest : List Nat}
    {written : Bool} {result : PoolResult}
    (hi : Processing tr s ⟨last, .saving file image rest⟩ l n)
    (h : s.imwrite written result = some s') :
    ∃ d', Processing ((s, .detector (.imwrite written result)) :: tr) s' d' l n := by
  have hcopying : s.copying = some file := by rw [State.copying, hi.detector]
  obtain ⟨hd', hframes⟩ : s'.detector = some ⟨last, .reporting file result rest⟩ ∧
      s'.frames = s.frames := by
    obtain ⟨last', file', image', rest', hd, rfl⟩ := State.imwrite_eq_some.mp h
    obtain ⟨rfl, hpoint⟩ := Detector.mk.inj (Option.some.inj (hd.symm.trans hi.detector))
    obtain ⟨rfl, rfl, rfl⟩ := DetectorPoint.saving.inj hpoint
    exact ⟨rfl, rfl⟩
  have hpassed : passedNumbers ((s, .detector (.imwrite written result)) :: tr) =
      passedNumbers tr := List.append_nil _
  have hreturned : returned ((s, .detector (.imwrite written result)) :: tr) =
      returned tr ++ [(file, result)] := by
    rw [returned_cons, returnedBy, hcopying]
    rfl
  have hbatches : batches ((s, .detector (.imwrite written result)) :: tr) = batches tr :=
    List.append_nil _
  have hposts : posts ((s, .detector (.imwrite written result)) :: tr) = posts tr :=
    List.append_nil _
  refine ⟨_,
    { detector := hd'
      files := ?_
      last := hi.last
      highest := hi.highest
      toProcess := hi.toProcess
      toPass := hpassed.symm ▸ hi.toPass
      toReturn := ?_
      toPost := hposts.symm ▸ hbatches.symm ▸ hi.toPost
      batch := hbatches.symm ▸ hi.batch
      result := fun file' result' rest' hp => ?_
      results := fun p hp => ?_ }⟩
  · obtain ⟨k, hn, hk⟩ := hi.files
    exact ⟨k, hn, hk.1, hframes ▸ hk.2⟩
  · rw [hreturned, List.map_append, List.append_assoc]
    exact hi.toReturn
  · obtain ⟨rfl, rfl, rfl⟩ := DetectorPoint.reporting.inj hp
    rw [hreturned]
    exact List.mem_append_right _ (List.mem_singleton_self _)
  · rw [hposts] at hp
    rw [hreturned]
    exact List.mem_append_left _ (hi.results p hp)

/-- The last file of a batch is the one with none behind it, since all numbers differ. -/
theorem getLast?_eq_some_head_iff {file : Nat} {rest : List Nat} {n : Nat}
    (h : List.range file ++ file :: rest = List.range n) :
    (file :: rest).getLast? = some file ↔ rest = [] := by
  constructor
  · intro hlast
    cases rest with
    | nil => rfl
    | cons m rest =>
        have hnodup : (List.range file ++ file :: m :: rest).Nodup := h ▸ List.nodup_range
        rw [List.getLast?_cons_cons] at hlast
        exact absurd (List.mem_of_getLast? hlast)
          (List.nodup_cons.mp hnodup.of_append_right).1
  · rintro rfl
    rfl

/-- A report ends one file, and posts the result of the last one of a batch. -/
theorem Processing.report {last : Int} {file : Nat} {result : PoolResult} {rest : List Nat}
    (hi : Processing tr s ⟨last, .reporting file result rest⟩ l n) (h : s.report = some s') :
    ∃ d', Processing ((s, .detector .report) :: tr) s' d' (l + 1) n := by
  obtain ⟨rfl, hrest⟩ := range_append_cons hi.toProcess
  have hs' : s' = { s with detector := some ⟨file, .next rest⟩ } := by
    obtain ⟨last', file', result', rest', hd, rfl⟩ := State.report_eq_some.mp h
    obtain ⟨rfl, hpoint⟩ := Detector.mk.inj (Option.some.inj (hd.symm.trans hi.detector))
    obtain ⟨rfl, rfl, rfl⟩ := DetectorPoint.reporting.inj hpoint
    rfl
  subst hs'
  have hpassed : passedNumbers ((s, .detector .report) :: tr) = passedNumbers tr :=
    List.append_nil _
  have hreturned : returned ((s, .detector .report) :: tr) = returned tr := List.append_nil _
  have hbatches : batches ((s, .detector .report) :: tr) = batches tr := List.append_nil _
  have hbatch : ((batches tr).getLast?.getD []).getLast? = (file :: rest).getLast? :=
    hi.batch (List.cons_ne_nil _ _)
  have hposts : posts ((s, .detector .report) :: tr) =
      posts tr ++ if rest = [] then [(file, result)] else [] := by
    rw [posts_cons, postedBy, hi.detector]
    simp only [hbatch, getLast?_eq_some_head_iff hi.toProcess]
  refine ⟨_,
    { detector := rfl
      files := hi.files
      last := rfl
      highest := hi.highest
      toProcess := ?_
      toPass := ?_
      toReturn := ?_
      toPost := ?_
      batch := ?_
      result := fun file' result' rest' hp => ?_
      results := fun p hp => ?_ }⟩
  · rw [DetectorPoint.pending_next]
    exact hrest
  · rw [hpassed, DetectorPoint.unread_next]
    exact hi.toPass
  · rw [hreturned, DetectorPoint.unreturned_next]
    exact hi.toReturn
  · rw [hposts, hbatches, DetectorPoint.pending_next, ← hi.toPost]
    cases rest with
    | nil => simp [DetectorPoint.pending]
    | cons m rest => simp [DetectorPoint.pending]
  · rw [hbatches, DetectorPoint.pending_next]
    intro hne
    rw [hbatch]
    cases rest with
    | nil => exact absurd rfl hne
    | cons m rest => exact List.getLast?_cons_cons
  · dsimp only at hp
    cases rest <;> cases hp
  · rw [hreturned]
    rw [hposts] at hp
    rcases List.mem_append.mp hp with hp | hp
    · exact hi.results p hp
    · split at hp
      · rw [List.mem_singleton.mp hp]
        exact hi.result file result rest rfl
      · cases hp

/-! ## Every run -/

/-- A new file is one of those there, or the next one. -/
theorem State.HoldsFirst.insert {m : Nat} {f : Frame} (hk : s.HoldsFirst k) (hm : m < 100000)
    (hbelow : ∀ j < m, j ∈ s.frames) (hf : s'.frames = s.frames.insert m f) :
    s'.HoldsFirst (max k (m + 1)) := by
  have hle : m ≤ k := by
    by_contra hlt
    exact Nat.lt_irrefl k ((hk.2 k).mp (hbelow k (Nat.lt_of_not_le hlt)))
  refine ⟨Nat.max_le.mpr ⟨hk.1, hm⟩, fun j => ?_⟩
  rw [hf, AList.mem_insert, hk.2]
  omega

theorem Processing.callStep {b : CallAction} (hs : s.Consistent) (hg : FilesFollow tr s (.call b))
    (hi : Processing tr s d l n) (h : callStep s b = some s') :
    Processing ((s, .call b) :: tr) s' d l n := by
  refine hi.congr nofun (callStep_frame h).detector ?_
  obtain ⟨k, hn, hk⟩ := hi.files
  cases callStep_effect hs h with
  | silent pending frameCounter frames => exact ⟨k, hn, hk.1, frames ▸ hk.2⟩
  | numbers c f action before after others frameCounter frames =>
      exact ⟨k, hn, hk.1, frames ▸ hk.2⟩
  | writes c m f written action before after others frameCounter frames =>
      subst action
      cases written with
      | false => exact ⟨k, hn, hk.1, frames ▸ hk.2⟩
      | true =>
          obtain ⟨hm, hbelow⟩ := hg.2.2 m (Option.mem_map_of_mem Prod.fst before)
          exact ⟨_, Nat.le_trans hn (Nat.le_max_left k (m + 1)), hk.insert hm hbelow frames⟩

theorem Processing.stitchStep {b : StitchAction} (hg : FilesFollow tr s (.stitch b))
    (hi : Processing tr s d l n) (h : stitchStep s b = some s') :
    Processing ((s, .stitch b) :: tr) s' d l n := by
  refine hi.congr nofun (stitchStep_frame h).detector ?_
  obtain ⟨k, hn, hk⟩ := hi.files
  cases stitchStep_files h with
  | keeps frames annotated => exact ⟨k, hn, hk.1, frames ▸ hk.2⟩
  | deletesRaw m action =>
      subst action
      cases hg.1
  | deletesAnnotated m action frames annotated => exact ⟨k, hn, hk.1, frames ▸ hk.2⟩

theorem Processing.detectorStep {b : DetectorAction} (hg : FilesFollow tr s (.detector b))
    (hi : Processing tr s d l n) (h : detectorStep s b = some s') :
    ∃ d' l' n', Processing ((s, .detector b) :: tr) s' d' l' n' := by
  cases b with
  | start =>
      obtain ⟨hnone, -⟩ := State.startDetector_eq_some.mp h
      cases hnone.symm.trans hi.detector
  | stop => exact absurd rfl hg.2.1
  | poll =>
      obtain ⟨last, hd, -⟩ := State.poll_eq_some.mp h
      obtain rfl := Option.some.inj (hd.symm.trans hi.detector)
      obtain ⟨d', n', hi'⟩ := hi.poll h
      exact ⟨d', l, n', hi'⟩
  | imread decoded =>
      obtain ⟨last, file, rest, hd, -⟩ := State.imread_eq_some.mp h
      obtain rfl := Option.some.inj (hd.symm.trans hi.detector)
      obtain ⟨d', hi'⟩ := hi.imread h
      exact ⟨d', l, n, hi'⟩
  | imwrite written result =>
      obtain ⟨last, file, image, rest, hd, -⟩ := State.imwrite_eq_some.mp h
      obtain rfl := Option.some.inj (hd.symm.trans hi.detector)
      obtain ⟨d', hi'⟩ := hi.imwrite h
      exact ⟨d', l, n, hi'⟩
  | report =>
      obtain ⟨last, file, result, rest, hd, -⟩ := State.report_eq_some.mp h
      obtain rfl := Option.some.inj (hd.symm.trans hi.detector)
      obtain ⟨d', hi'⟩ := hi.report h
      exact ⟨d', l + 1, n, hi'⟩

/-- Every step leaves what is processed in order. -/
theorem Processing.step (hs : s.Consistent) (hg : FilesFollow tr s a)
    (hi : Processing tr s d l n) (h : step s a = some s') :
    ∃ d' l' n', Processing ((s, a) :: tr) s' d' l' n' := by
  cases a with
  | session b =>
      have hf := sessionStep_frame h
      refine ⟨d, l, n, hi.congr nofun hf.detector ?_⟩
      obtain ⟨k, hn, hk⟩ := hi.files
      exact ⟨k, hn, hk.1, hf.frames ▸ hk.2⟩
  | call b => exact ⟨d, l, n, hi.callStep hs hg h⟩
  | stitch b => exact ⟨d, l, n, hi.stitchStep hg h⟩
  | detector b => exact hi.detectorStep hg h

/-- A detector that starts has processed nothing. -/
theorem Processing.start (hd : s.detector = some ⟨-1, .polling⟩) (hf : s.HoldsFirst k) :
    Processing [] s ⟨-1, .polling⟩ 0 0 where
  detector := hd
  files := ⟨k, Nat.zero_le k, hf⟩
  last := rfl
  highest := rfl
  toProcess := rfl
  toPass := rfl
  toReturn := rfl
  toPost := rfl
  batch h := absurd rfl h
  result _ _ _ h := by cases h
  results _ h := by cases h

/-- In every run the files are processed in order. -/
theorem Processing.run (hs : s.Consistent) (hd : s.detector = some ⟨-1, .polling⟩)
    (hf : s.HoldsFirst k) (hr : Run WeldingServer.step s tr s') (hg : Along FilesFollow tr) :
    ∃ d l n, Processing tr s' d l n :=
  hr.invariant (I := fun tr s => ∃ d l n, Processing tr s d l n) ⟨_, 0, 0, .start hd hf⟩
    (fun hr hg ⟨_, _, _, hi⟩ h => hi.step (hs.run hr) hg.1 h) hg

/-! ## The property -/

theorem Processing.le (hi : Processing tr s d l n) : l ≤ n := by
  have := congrArg List.length hi.toProcess
  simp only [List.length_append, List.length_range] at this
  omega

theorem Processing.seesNoReset (hi : Processing tr s d l n) : SeesNoReset tr s a := by
  intro _ d' hd' highest hhigh hlt
  obtain rfl := Option.some.inj (hi.detector.symm.trans hd')
  obtain ⟨k, hn, hk⟩ := hi.files
  have hle := hi.le
  have hlast := hi.last
  rw [hk.listing_eq, List.getLast?_range] at hhigh
  split at hhigh
  · cases hhigh
  · obtain rfl := Option.some.inj hhigh
    omega

/-- Between batches each file has been processed once. -/
theorem Processing.once {last : Int} (hi : Processing tr s ⟨last, .polling⟩ l n) :
    ProcessedOnce tr last := by
  obtain rfl : l = n := by
    have := congrArg List.length hi.toProcess
    simpa [DetectorPoint.pending] using this
  have hlast : last + 1 = l := hi.last
  have hpassed : passedNumbers tr = List.range l := (List.append_nil _).symm.trans hi.toPass
  have hreturned : (returned tr).map Prod.fst = List.range l :=
    (List.append_nil _).symm.trans hi.toReturn
  refine ⟨?_, ?_, (List.append_nil _).symm.trans hi.toPost, hi.results,
    hreturned.trans hpassed.symm⟩
  · rw [hpassed, hlast, Int.toNat_natCast]
  · have := hi.highest
    omega

/-- A detector has started in a recording.  Then no poll takes it for a new one, and between
two batches each number up to `last_processed` has been processed once. -/
theorem processedOnce {s₀ s₁ : State} {tr₁ : History} (h₀ : s₀.Booted)
    (hr₁ : Run step s₀ tr₁ s₁) (hd : s₁.detector = some ⟨-1, .polling⟩) (hf : s₁.HoldsFirst k)
    (hr : Run step s₁ tr s) (hg : Along FilesFollow tr) :
    Along SeesNoReset tr ∧
      ∀ last, s.detector = some ⟨last, .polling⟩ → ProcessedOnce tr last := by
  have hs := h₀.consistent.run hr₁
  constructor
  · refine hr.along (fun hr hg _ _ => ?_) hg
    obtain ⟨d, l, n, hi⟩ := Processing.run hs hd hf hr hg
    exact hi.seesNoReset
  · intro last hlast
    obtain ⟨d, l, n, hi⟩ := Processing.run hs hd hf hr hg
    obtain rfl := Option.some.inj (hlast.symm.trans hi.detector)
    exact hi.once

theorem processedOnce_threeFrames :
    ∃ tr s, Run step { State.boot 0 ∅ ∅ ∅ 0 with detector := some ⟨-1, .polling⟩ } tr s ∧
      batches tr = [[0], [], [1, 2]] ∧ posts tr = [(0, noDetection), (2, noDetection)] ∧
      ProcessedOnce tr 2 := by
  obtain ⟨tr, s, hr, -, hg, hd, hbatches, hposts⟩ :=
    exists_run_of_exec step { State.boot 0 ∅ ∅ ∅ 0 with detector := some ⟨-1, .polling⟩ }
      ([.session .toggleCamera, .session (.connect 1)] ++ handleMessage 1 0 [1] ++ annotateOne ++
        [.detector .poll] ++ handleMessage 1 1 [2] ++ handleMessage 1 2 [3] ++
        [.detector .poll, .detector (.imread false), .detector .report,
          .detector (.imread true), .detector (.imwrite false noDetection), .detector .report])
      (p := fun tr s => Along FilesFollow tr ∧ s.detector = some ⟨2, .polling⟩ ∧
        batches tr = [[0], [], [1, 2]] ∧ posts tr = [(0, noDetection), (2, noDetection)])
      (by decide)
  have hstart : step (.boot 0 ∅ ∅ ∅ 0) (.detector .start) =
      some { State.boot 0 ∅ ∅ ∅ 0 with detector := some ⟨-1, .polling⟩ } := rfl
  refine ⟨tr, s, hr, hbatches, hposts, ?_⟩
  exact (processedOnce (State.booted_boot_empty 0 ∅ ∅ 0) (.single hstart) rfl
    ⟨Nat.zero_le _, by simp [State.boot]⟩ hr hg).2 2 hd

end WeldingServer
