import Mathlib.Data.List.MinMax

/-!
# The first maximum of a list

`List.argmax` takes, of several elements with the largest value, the one that stands first
(`argmax_eq_some_iff_firstMax`).  A filter that keeps everything from some value on leaves
the choice as it is, unless it drops the element chosen and with it all the others
(`argmax_filter`).
-/

namespace Argmax

variable {α β : Type} [LinearOrder β] {f : α → β} {l : List α} {a : α}

/-- What stands before `a` is smaller, and what stands behind it is not larger. -/
def FirstMax (f : α → β) (l : List α) (a : α) : Prop :=
  ∃ l₁ l₂, l = l₁ ++ a :: l₂ ∧ (∀ b ∈ l₁, f b < f a) ∧ ∀ b ∈ l₂, f b ≤ f a

theorem FirstMax.mem (h : FirstMax f l a) : a ∈ l := by
  obtain ⟨l₁, l₂, rfl, -, -⟩ := h
  exact List.mem_append_right l₁ List.mem_cons_self

theorem FirstMax.le (h : FirstMax f l a) {b : α} (hb : b ∈ l) : f b ≤ f a := by
  obtain ⟨l₁, l₂, rfl, hlt, hle⟩ := h
  rcases List.mem_append.mp hb with hb | hb
  · exact (hlt b hb).le
  · cases hb with
    | head => exact le_rfl
    | tail _ hb => exact hle b hb

theorem FirstMax.singleton (f : α → β) (a : α) : FirstMax f [a] a :=
  ⟨[], [], rfl, by simp, by simp⟩

/-- An element at the end that is not greater leaves the first maximum. -/
theorem FirstMax.concat (h : FirstMax f l a) {b : α} (hb : f b ≤ f a) :
    FirstMax f (l ++ [b]) a := by
  obtain ⟨l₁, l₂, rfl, hlt, hle⟩ := h
  refine ⟨l₁, l₂ ++ [b], by simp, hlt, fun c hc => ?_⟩
  rcases List.mem_append.mp hc with hc | hc
  · exact hle c hc
  · rwa [List.mem_singleton.mp hc]

/-- A greater element at the end is the first maximum. -/
theorem FirstMax.of_concat (h : FirstMax f l a) {b : α} (hb : f a < f b) :
    FirstMax f (l ++ [b]) b :=
  ⟨l, [], rfl, fun _ hc => (h.le hc).trans_lt hb, by simp⟩

theorem firstMax_of_argmax (h : l.argmax f = some a) : FirstMax f l a := by
  induction l using List.reverseRecOn generalizing a with
  | nil => cases h
  | append_singleton l b ih =>
      rw [List.argmax_concat] at h
      cases hl : l.argmax f with
      | none =>
          obtain rfl := List.argmax_eq_none.mp hl
          rw [hl] at h
          obtain rfl := Option.some.inj h
          exact FirstMax.singleton f b
      | some c =>
          rw [hl] at h
          have hc : FirstMax f l c := ih hl
          by_cases hlt : f c < f b
          · obtain rfl := Option.some.inj ((if_pos hlt).symm.trans h)
            exact hc.of_concat hlt
          · obtain rfl := Option.some.inj ((if_neg hlt).symm.trans h)
            exact hc.concat (not_lt.mp hlt)

/-- The elements before `a` and behind it do not change. -/
theorem argmax_of_firstMax (h : FirstMax f l a) : l.argmax f = some a := by
  obtain ⟨l₁, l₂, rfl, hlt, hle⟩ := h
  induction l₂ using List.reverseRecOn with
  | nil =>
      rw [List.argmax_concat]
      cases hl : l₁.argmax f with
      | none => rfl
      | some c => exact if_pos (hlt c (List.argmax_mem hl))
  | append_singleton l₂ b ih =>
      have hb : f b ≤ f a := hle b (by simp)
      rw [← List.cons_append, ← List.append_assoc, List.argmax_concat,
        ih fun c hc => hle c (List.mem_append_left _ hc)]
      exact if_neg (not_lt.mpr hb)

/-- `argmax` finds the first maximum. -/
theorem argmax_eq_some_iff_firstMax : l.argmax f = some a ↔ FirstMax f l a :=
  ⟨firstMax_of_argmax, argmax_of_firstMax⟩

/-- A filter that is passed by everything not smaller than something that passes it. -/
theorem argmax_filter {p : α → Bool} (hp : ∀ a b, p a = true → f a ≤ f b → p b = true)
    (l : List α) : (l.filter p).argmax f = (l.argmax f).filter p := by
  cases hl : l.argmax f with
  | none =>
      obtain rfl := List.argmax_eq_none.mp hl
      rfl
  | some a =>
      have ha := firstMax_of_argmax hl
      cases hpa : p a with
      | true =>
          obtain ⟨l₁, l₂, rfl, hlt, hle⟩ := ha
          rw [Option.filter_some, if_pos hpa]
          refine argmax_of_firstMax ⟨l₁.filter p, l₂.filter p, ?_,
            fun b hb => hlt b (List.mem_of_mem_filter hb),
            fun b hb => hle b (List.mem_of_mem_filter hb)⟩
          rw [List.filter_append, List.filter_cons_of_pos hpa]
      | false =>
          rw [Option.filter_some, if_neg (by simp [hpa]), List.argmax_eq_none,
            List.filter_eq_nil_iff]
          intro b hb hpb
          rw [hp b a hpb (ha.le hb)] at hpa
          cases hpa

end Argmax
