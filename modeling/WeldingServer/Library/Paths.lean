import Mathlib.Data.List.Infix

/-!
# Paths and directory trees

A path is a text whose segments stand between separators.  A segment is the name of an entry,
`.` for the directory itself or `..` for its parent; empty segments are passed over.  A place
in a tree is the list of the names on the way from the root to it.

There are two ways from a path to a place.  `resolve` works on the segments alone, and `walk`
also looks whether each place that it leaves is a directory.  Without links the two agree
wherever `walk` arrives (`walk_eq_some`).
-/

namespace Paths

variable {α : Type}

/-- How paths are written.  `lexical` says that they are resolved before anything is looked
up. -/
structure Convention (α : Type) where
  separator : α → Bool
  dot : α
  lexical : Bool

namespace Convention

/-! ## Segments -/

section

variable (c : Convention α)

/-- The names between the separators of a path. -/
def segments (path : List α) : List (List α) :=
  (path.splitOnP c.separator).filter (· ≠ [])

/-- The segments of a path are those before a separator and those behind it. -/
theorem segments_append_separator {separator : α} (h : c.separator separator = true)
    (a b : List α) : c.segments (a ++ separator :: b) = c.segments a ++ c.segments b := by
  rw [segments, List.splitOnP_append_cons _ _ h, List.filter_append, segments, segments]

theorem segments_of_name {name : List α} (h : ∀ x ∈ name, c.separator x = false) :
    c.segments name = if name = [] then [] else [name] := by
  rw [segments, List.splitOnP_eq_singleton h]
  by_cases hname : name = [] <;> simp [hname]

end

/-! ## Places -/

variable [DecidableEq α] (c : Convention α)

/-- The place that a segment leads to. -/
def enter (place : List (List α)) (segment : List α) : List (List α) :=
  if segment = [c.dot] then place
  else if segment = [c.dot, c.dot] then place.dropLast
  else place ++ [segment]

theorem enter_dot (place : List (List α)) : c.enter place [c.dot] = place := if_pos rfl

theorem enter_name {segment : List α} (hdot : segment ≠ [c.dot])
    (hdots : segment ≠ [c.dot, c.dot]) (place : List (List α)) :
    c.enter place segment = place ++ [segment] := by
  rw [enter, if_neg hdot, if_neg hdots]

/-- The place that a path leads to, by its names alone. -/
def resolve (place : List (List α)) (segments : List (List α)) : List (List α) :=
  segments.foldl c.enter place

end Convention

/-! ## Trees -/

/-- What is at a place of the tree. -/
inductive Kind where
  | file
  | directory
deriving DecidableEq, Repr

/-- What there is at each place.  Entries are in directories only. -/
structure FileTree (α : Type) where
  kind : List (List α) → Option Kind
  parent : ∀ place name, kind (place ++ [name]) ≠ none → kind place = some .directory

namespace FileTree

variable [DecidableEq α] (t : FileTree α) (c : Convention α)

/-- The place that is reached through directories. -/
def walk : List (List α) → List (List α) → Option (List (List α))
  | place, [] => some place
  | place, segment :: segments =>
      if t.kind place = some .directory then walk (c.enter place segment) segments else none

/-- A walk through the tree ends where the names lead. -/
theorem walk_eq_some {place place' : List (List α)} {segments : List (List α)}
    (h : t.walk c place segments = some place') : place' = c.resolve place segments := by
  induction segments generalizing place with
  | nil => exact (Option.some.inj h).symm
  | cons segment segments ih =>
      rw [walk] at h
      split at h
      · exact ih h
      · cases h

/-- The place of a path that is relative to the directory `cwd`. -/
def locate (cwd : List (List α)) (path : List α) : Option (List (List α)) :=
  if c.lexical then some (c.resolve cwd (c.segments path)) else t.walk c cwd (c.segments path)

/-- What a path locates is where its segments lead. -/
theorem locate_eq_some {cwd place : List (List α)} {path : List α}
    (h : t.locate c cwd path = some place) : place = c.resolve cwd (c.segments path) := by
  rw [locate] at h
  split at h
  · exact (Option.some.inj h).symm
  · exact t.walk_eq_some c h

/-- What there is at the place of a path. -/
def kindAt (cwd : List (List α)) (path : List α) : Option Kind :=
  (t.locate c cwd path).bind t.kind

/-- The kind of what a path locates is that of the place its segments lead to. -/
theorem kindAt_eq_some {cwd : List (List α)} {path : List α} {k : Kind}
    (h : t.kindAt c cwd path = some k) : t.kind (c.resolve cwd (c.segments path)) = some k := by
  obtain ⟨place, hplace, hk⟩ := Option.bind_eq_some_iff.mp h
  rwa [← t.locate_eq_some c hplace]

/-- The tree of one file, with the directories that lead to it. -/
def ofFile (place : List (List α)) : FileTree α where
  kind p := if p = place then some .file else if p <+: place then some .directory else none
  parent p name h := by
    have hpre : p ++ [name] <+: place := by
      by_contra hnot
      have hne : p ++ [name] ≠ place := fun he => hnot (he ▸ List.prefix_rfl)
      rw [if_neg hne, if_neg hnot] at h
      exact h rfl
    have hne : p ≠ place := by
      rintro rfl
      have hlength := hpre.length_le
      rw [List.length_append, List.length_singleton] at hlength
      omega
    rw [if_neg hne, if_pos ((List.prefix_append p [name]).trans hpre)]

end FileTree

end Paths
