import Mathlib.Data.List.Basic

/-!
# Fields of a record

A field of a record is read and replaced by a pair of functions.  Writing a field does not
show in a field that is apart from it.

After writes to fields that are apart from each other the record is what it was exactly if
each write wrote what was there (`foldl_apply_eq_self_iff`).
-/

namespace Record

/-- A field of a record, with what reads and writes it. -/
structure Field (σ : Type) where
  Value : Type
  get : σ → Value
  set : Value → σ → σ
  get_set : ∀ v s, get (set v s) = v
  set_get : ∀ s, set (get s) s = s

variable {σ : Type}

/-- Writing one of the two fields leaves the other as it is. -/
def Field.Apart (f g : Field σ) : Prop :=
  (∀ v s, f.get (g.set v s) = f.get s) ∧ ∀ v s, g.get (f.set v s) = g.get s

theorem Field.Apart.symm {f g : Field σ} (h : f.Apart g) : g.Apart f := ⟨h.2, h.1⟩

/-- A field with the value that it gets. -/
abbrev Write (σ : Type) := (f : Field σ) × f.Value

/-- The record after the write. -/
def Write.apply (w : Write σ) (s : σ) : σ := w.1.set w.2 s

theorem Write.apply_eq_self {w : Write σ} {s : σ} (h : w.1.get s = w.2) : w.apply s = s := by
  rw [Write.apply, ← h, w.1.set_get]

/-- Writes to other fields do not show. -/
theorem get_foldl_apply {f : Field σ} {ws : List (Write σ)} (h : ∀ w ∈ ws, f.Apart w.1) (s : σ) :
    f.get (ws.foldl (fun s w => w.apply s) s) = f.get s := by
  induction ws generalizing s with
  | nil => rfl
  | cons w ws ih =>
      rw [List.forall_mem_cons] at h
      rw [List.foldl_cons, ih h.2]
      exact h.1.1 w.2 s

/-- Writes to fields that are apart change nothing together only if each of them changes
nothing. -/
theorem foldl_apply_eq_self_iff {ws : List (Write σ)}
    (h : ws.Pairwise fun v w => v.1.Apart w.1) {s : σ} :
    ws.foldl (fun s w => w.apply s) s = s ↔ ∀ w ∈ ws, w.1.get s = w.2 := by
  induction ws with
  | nil => simp
  | cons w ws ih =>
      rw [List.pairwise_cons] at h
      rw [List.foldl_cons, List.forall_mem_cons]
      constructor
      · intro hs
        have hw : w.1.get s = w.2 := by
          -- The later writes leave in the field what the first one wrote.
          have hget := get_foldl_apply h.1 (w.apply s)
          rw [hs] at hget
          exact hget.trans (w.1.get_set w.2 s)
        rw [Write.apply_eq_self hw] at hs
        exact ⟨hw, (ih h.2).mp hs⟩
      · rintro ⟨hw, hws⟩
        rw [Write.apply_eq_self hw]
        exact (ih h.2).mpr hws

end Record
