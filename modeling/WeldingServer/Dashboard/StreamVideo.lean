import WeldingServer.Camera.VideoNames
import WeldingServer.Library.Paths

/-!
# Serving a recording

`streamVideo` refuses a file name with `..` or a separator in it, and serves what `videos/`
followed by the name leads to, if that is a regular file.

What is left of a name that is not refused is at most one segment, and it is not `..`.  So
the file served is directly in `videos/` (`streamVideo_confined`), unless `videos` is a file
itself and the name adds nothing to it.
-/

namespace WeldingServer.Dashboard

open Paths

/-- Names are resolved segment by segment. -/
def posix : Convention Char where
  separator x := x == '/'
  dot := '.'
  lexical := false

/-- Names are resolved before they are looked up. -/
def windows : Convention Char where
  separator x := x == '/' || x == '\\'
  dot := '.'
  lexical := true

/-- The file that `/api/video/{filename}` answers with, and the headers. -/
inductive VideoResponse where
  | badRequest
  | notFound
  | ok (contentDisposition contentType : String) (file : Name)
deriving DecidableEq

/-- `new File(path).isFile()`; a path with a NUL in it is invalid. -/
def isFile (c : Convention Char) (t : FileTree Char) (cwd : List Name) (path : Name) : Bool :=
  '\x00' ∉ path && t.kindAt c cwd path = some .file

/-- `new File(path).exists()` -/
def fileExists (c : Convention Char) (t : FileTree Char) (cwd : List Name) (path : Name) : Bool :=
  '\x00' ∉ path && (t.kindAt c cwd path).isSome

/-- `GET /api/video/{filename}` of a server that runs in the directory `cwd` -/
def streamVideo (c : Convention Char) (t : FileTree Char) (cwd : List Name) (filename : Name) :
    VideoResponse :=
  if ['.', '.'] <:+: filename ∨ ['/'] <:+: filename ∨ ['\\'] <:+: filename then .badRequest
  else
    let file := videosDir ++ filename
    if !fileExists c t cwd file || !isFile c t cwd file then .notFound
    else .ok ("inline; filename=\"" ++ String.ofList filename ++ "\"") "video/mp4" file

/-! ## Where the file is -/

/-- The directory `videos/` has this name. -/
def videosName : Name := ['v', 'i', 'd', 'e', 'o', 's']

variable {c : Convention Char} {t : FileTree Char} {cwd : List Name} {filename : Name}

theorem separator_eq_false (hc : c = posix ∨ c = windows) (hslash : ¬ ['/'] <:+: filename)
    (hbackslash : ¬ ['\\'] <:+: filename) : ∀ x ∈ filename, c.separator x = false := by
  intro x hx
  have hne : x ≠ '/' ∧ x ≠ '\\' := by
    constructor
    · rintro rfl
      exact hslash ((List.singleton_infix_iff _ _).mpr hx)
    · rintro rfl
      exact hbackslash ((List.singleton_infix_iff _ _).mpr hx)
  rcases hc with rfl | rfl
  · exact beq_false_of_ne hne.1
  · exact Bool.or_eq_false_iff.mpr ⟨beq_false_of_ne hne.1, beq_false_of_ne hne.2⟩

theorem segments_file (hc : c = posix ∨ c = windows)
    (hname : ∀ x ∈ filename, c.separator x = false) :
    c.segments (videosDir ++ filename) =
      videosName :: if filename = [] then [] else [filename] := by
  have hslash : c.separator '/' = true := by rcases hc with rfl | rfl <;> rfl
  have hvideos : c.segments videosName = [videosName] := by rcases hc with rfl | rfl <;> decide
  have hsplit : videosDir ++ filename = videosName ++ '/' :: filename := rfl
  rw [hsplit, c.segments_append_separator hslash, hvideos, c.segments_of_name hname]
  rfl

theorem enter_videos (hc : c = posix ∨ c = windows) (cwd : List Name) :
    c.enter cwd videosName = cwd ++ [videosName] := by
  rcases hc with rfl | rfl <;> exact Convention.enter_name _ (by decide) (by decide) cwd

/-- A name that is not refused leads to `videos/` itself or to an entry in it. -/
theorem resolve_file (hc : c = posix ∨ c = windows) (hdots : ¬ ['.', '.'] <:+: filename)
    (hname : ∀ x ∈ filename, c.separator x = false) :
    c.resolve cwd (c.segments (videosDir ++ filename)) =
      if filename = [] ∨ filename = ['.'] then cwd ++ [videosName]
      else cwd ++ [videosName, filename] := by
  have hdot : c.dot = '.' := by rcases hc with rfl | rfl <;> rfl
  rw [segments_file hc hname, Convention.resolve, List.foldl_cons, enter_videos hc]
  by_cases hempty : filename = []
  · rw [if_pos hempty, if_pos (.inl hempty)]
    rfl
  · rw [if_neg hempty, List.foldl_cons, List.foldl_nil]
    by_cases hone : filename = ['.']
    · rw [if_pos (.inr hone), hone, ← hdot, c.enter_dot]
    · have htwo : filename ≠ ['.', '.'] := fun h => hdots (h ▸ List.infix_rfl)
      rw [if_neg (not_or.mpr ⟨hempty, hone⟩), c.enter_name (hdot ▸ hone) (hdot ▸ htwo),
        List.append_assoc]
      rfl

/-- An answer 200 is for a file with the name asked for, directly in the directory `videos/`.
If `videos` is a file itself, a name that adds nothing gets this one. -/
theorem streamVideo_confined (hc : c = posix ∨ c = windows) {disposition type : String}
    {file : Name} (h : streamVideo c t cwd filename = .ok disposition type file) :
    t.kind (c.resolve cwd (c.segments file)) = some .file ∧
      ((t.kind (cwd ++ [videosName]) = some .directory ∧
          c.resolve cwd (c.segments file) = cwd ++ [videosName, filename]) ∨
        (t.kind (cwd ++ [videosName]) = some .file ∧ (filename = [] ∨ filename = ['.']) ∧
          c.resolve cwd (c.segments file) = cwd ++ [videosName])) := by
  rw [streamVideo] at h
  split at h
  next => cases h
  next hrefused =>
    obtain ⟨hdots, hseparators⟩ := not_or.mp hrefused
    obtain ⟨hslash, hbackslash⟩ := not_or.mp hseparators
    dsimp only at h
    split at h
    next => cases h
    next hserved =>
      obtain ⟨-, -, rfl⟩ := VideoResponse.ok.inj h
      have hkind : t.kindAt c cwd (videosDir ++ filename) = some .file := by
        simp only [isFile, Bool.or_eq_true, Bool.not_eq_true', not_or, Bool.not_eq_false,
          Bool.and_eq_true, decide_eq_true_eq] at hserved
        exact hserved.2.2
      have hplace := t.kindAt_eq_some c hkind
      rw [resolve_file hc hdots (separator_eq_false hc hslash hbackslash)] at hplace ⊢
      split at hplace
      next hnothing =>
        rw [if_pos hnothing]
        exact ⟨hplace, .inr ⟨hplace, hnothing, rfl⟩⟩
      next hsome =>
        rw [if_neg hsome]
        refine ⟨hplace, .inl ⟨t.parent _ filename ?_, rfl⟩⟩
        rw [List.append_assoc]
        exact hplace.symm ▸ Option.some_ne_none _

/-- A recording `a.mp4`, on Windows. -/
theorem streamVideo_confined_windows :
    streamVideo windows (.ofFile ["videos".toList, "a.mp4".toList]) [] "a.mp4".toList =
        .ok "inline; filename=\"a.mp4\"" "video/mp4" "videos/a.mp4".toList ∧
      windows.resolve [] (windows.segments "videos/a.mp4".toList) =
        ["videos".toList, "a.mp4".toList] := by
  have hanswer : streamVideo windows (.ofFile ["videos".toList, "a.mp4".toList]) []
      "a.mp4".toList = .ok "inline; filename=\"a.mp4\"" "video/mp4" "videos/a.mp4".toList := by
    decide
  refine ⟨hanswer, ?_⟩
  rcases (streamVideo_confined (.inr rfl) hanswer).2 with ⟨-, hplace⟩ | ⟨-, hname, -⟩
  · exact hplace
  · exact absurd hname (by decide)

/-- `videos` is a regular file, and the name, which a request gives as `%2E`, is a dot. -/
theorem streamVideo_serves_videos :
    ∃ disposition type file,
      streamVideo windows (.ofFile ["videos".toList]) [] ['.'] = .ok disposition type file ∧
      ∀ name, windows.resolve [] (windows.segments file) ≠ ["videos".toList, name] := by
  refine ⟨"inline; filename=\".\"", "video/mp4", "videos/.".toList, by decide, fun name h => ?_⟩
  have hplace : windows.resolve [] (windows.segments "videos/.".toList) = ["videos".toList] := by
    decide
  cases hplace.symm.trans h

end WeldingServer.Dashboard
