import Mathlib.Data.Rel
import Mathlib.Order.Bounds.Defs
import Mathlib.Order.GaloisConnection.Defs

/-!
# Openings and closings

A relation gives each element a block: those that the element is related to.  Eroding a set
gives the elements whose blocks lie in it (`SetRel.core`), and dilating one gives the union of
the blocks of its elements (`SetRel.image`); the two are a Galois connection.

The opening of a set is the largest union of blocks that it includes.  Its closing is dual: what
the closing leaves out is the largest union of blocks outside the set.

An image processor dilates by the converse relation.  If the blocks are the translates of a set
that is not symmetric, erosion and dilation then displace what they restore (`mem_dilated_iff`,
`mem_eroded_iff`).
-/

namespace Morphology

open scoped SetRel

variable {α : Type*} {block : SetRel α α} {A : Set α} {p p' : α}

/-- The union of all blocks that lie in `A`. -/
def opening (block : SetRel α α) (A : Set α) : Set α := block.image (block.core A)

/-- The elements all of whose blocks meet `A`. -/
def closing (block : SetRel α α) (A : Set α) : Set α := block.inv.core (block.preimage A)

/-! ## Openings -/

theorem opening_subset (block : SetRel α α) (A : Set α) : opening block A ⊆ A :=
  SetRel.image_core_gc.l_u_le A

/-- The opening is the largest union of blocks in the set. -/
theorem isGreatest_opening (block : SetRel α α) (A : Set α) :
    IsGreatest {U | U ⊆ A ∧ ∃ E, U = block.image E} (opening block A) := by
  refine ⟨⟨opening_subset block A, block.core A, rfl⟩, ?_⟩
  rintro U ⟨hU, E, rfl⟩
  exact SetRel.image_core_gc.monotone_l (SetRel.image_subset_iff.mp hU)

/-! ## Closings -/

/-- The complement of a closing is the opening of the complement. -/
theorem compl_closing (block : SetRel α α) (A : Set α) :
    (closing block A)ᶜ = opening block Aᶜ := by
  ext p
  simp only [closing, opening, Set.mem_compl_iff, SetRel.mem_core, SetRel.mem_inv,
    SetRel.mem_preimage, SetRel.mem_image, not_forall, not_exists, not_and, exists_prop]
  constructor
  · rintro ⟨q, hq, hnone⟩
    exact ⟨q, fun r hr hA => hnone r hA hr, hq⟩
  · rintro ⟨q, hnone, hq⟩
    exact ⟨q, hq, fun r hA hr => hnone hr hA⟩

theorem subset_closing (block : SetRel α α) (A : Set α) : A ⊆ closing block A := by
  rw [← Set.compl_subset_compl, compl_closing]
  exact opening_subset block Aᶜ

/-- The closing is the least set that includes `A` and leaves out a union of blocks. -/
theorem isLeast_closing (block : SetRel α α) (A : Set α) :
    IsLeast {V | A ⊆ V ∧ ∃ E, Vᶜ = block.image E} (closing block A) := by
  refine ⟨⟨subset_closing block A, _, compl_closing block A⟩, ?_⟩
  rintro V ⟨hV, E, hE⟩
  have hcompl : Vᶜ ⊆ (closing block A)ᶜ := by
    rw [compl_closing]
    exact (isGreatest_opening block Aᶜ).2 ⟨Set.compl_subset_compl.mpr hV, E, hE⟩
  exact Set.compl_subset_compl.mp hcompl

/-! ## Displacements -/

/-- Dilating an eroded set by the converse relation gives the opening, with `p` in the place of
`p'` if the block of `p` is where the blocks that have `p'` are. -/
theorem mem_dilated_iff (h : ∀ q, p ~[block] q ↔ q ~[block] p') :
    p ∈ block.preimage (block.core A) ↔ p' ∈ opening block A := by
  simp only [opening, SetRel.mem_preimage, SetRel.mem_image, h]

/-- Where the block seen from one point is the block that sees another, the erosion of a
dilation at the first point is the closing at the second. -/
theorem mem_eroded_iff (h : ∀ q, p ~[block] q ↔ q ~[block] p') :
    p ∈ block.core (block.preimage A) ↔ p' ∈ closing block A := by
  simp only [closing, SetRel.mem_core, SetRel.mem_inv, h]

end Morphology
