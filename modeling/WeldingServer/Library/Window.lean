import Mathlib.Data.List.Basic

/-!
# Sliding windows

A list that is to hold the latest elements only is appended to, and loses its first element when
it has become too long.  Pushing elements one after the other keeps the latest of all
(`foldl_push`).
-/

namespace Window

variable {α : Type*} {size : Nat}

/-- Append `x`, and drop the first element if there are more than `size`. -/
def push (size : Nat) (l : List α) (x : α) : List α :=
  if (l ++ [x]).length > size then (l ++ [x]).tail else l ++ [x]

/-- The last `size` elements. -/
def latest (size : Nat) (l : List α) : List α := l.drop (l.length - size)

theorem latest_of_length_le {l : List α} (h : l.length ≤ size) : latest size l = l := by
  rw [latest, Nat.sub_eq_zero_of_le h, List.drop_zero]

theorem length_latest {l : List α} (h : size ≤ l.length) : (latest size l).length = size := by
  rw [latest, List.length_drop]
  omega

theorem mem_of_mem_latest {l : List α} {x : α} (h : x ∈ latest size l) : x ∈ l :=
  List.mem_of_mem_drop h

/-- Pushing onto the latest elements gives the latest elements of the longer list. -/
theorem push_latest (size : Nat) (l : List α) (x : α) :
    push size (latest size l) x = latest size (l ++ [x]) := by
  have hlength : (latest size l ++ [x]).length = l.length - (l.length - size) + 1 := by
    rw [latest, List.length_append, List.length_drop, List.length_singleton]
  rw [push, hlength]
  split
  next hfull =>
    have hle : l.length - size ≤ l.length := Nat.sub_le _ _
    rw [latest, latest, ← List.drop_append_of_le_length hle, List.tail_drop, List.length_append,
      List.length_singleton]
    congr 1
    omega
  next hroom =>
    have hshort : l.length + 1 ≤ size := by omega
    rw [latest_of_length_le (Nat.le_of_succ_le hshort), latest_of_length_le]
    rw [List.length_append]
    exact hshort

/-- Pushing keeps the latest elements of all. -/
theorem foldl_push (size : Nat) (l xs : List α) :
    xs.foldl (push size) (latest size l) = latest size (l ++ xs) := by
  induction xs generalizing l with
  | nil => rw [List.foldl_nil, List.append_nil]
  | cons x xs ih =>
      rw [List.foldl_cons, push_latest, ih, List.append_assoc]
      rfl

end Window
