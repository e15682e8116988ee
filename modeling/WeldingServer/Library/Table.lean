import Mathlib.Data.List.AList
import Mathlib.Data.List.Sort
import Mathlib.Data.List.TakeWhile
import Mathlib.Data.List.Range

/-!
# Tables indexed by numbers

A table is a finite map from numbers, an `AList`: no number occurs twice, by
construction.  Two readings of a table are used besides looking a number up: all
contents in the order of their numbers (`inOrder`), and the *block* of consecutive
numbers that starts at a given one and ends before the first number missing
(`block`).
-/

/-- A finite map from numbers. -/
abbrev Table (β : Type*) := AList (fun _ : ℕ => β)

namespace Table

variable {β : Type*}

/-- The contents in the order of their numbers. -/
def inOrder (t : Table β) : List β :=
  (t.keys.insertionSort (· ≤ ·)).filterMap t.lookup

/-- The consecutive numbers of the table from `k` on, up to the first one missing. -/
def block (t : Table β) (k : ℕ) : List ℕ :=
  (List.range' k t.keys.length).takeWhile (· ∈ t)

/-! ## Looking up -/

theorem mem_of_lookup_eq_some {t : Table β} {n : ℕ} {b : β} (h : t.lookup n = some b) :
    n ∈ t :=
  AList.lookup_isSome.mp (by rw [h]; rfl)

theorem mem_keys_of_lookup_eq_some {t : Table β} {n : ℕ} {b : β} (h : t.lookup n = some b) :
    n ∈ t.keys :=
  AList.mem_keys.mp (mem_of_lookup_eq_some h)

theorem exists_lookup_of_mem {t : Table β} {n : ℕ} (h : n ∈ t) : ∃ b, t.lookup n = some b :=
  Option.isSome_iff_exists.mp (AList.lookup_isSome.mpr h)

/-- An insertion changes the entry of its own number and no other. -/
theorem lookup_insert_eq_some {t : Table β} {n m : ℕ} {b c : β} :
    (t.insert n b).lookup m = some c ↔ m = n ∧ b = c ∨ m ≠ n ∧ t.lookup m = some c := by
  by_cases h : m = n
  · subst h
    simp
  · simp [AList.lookup_insert_ne h, h]

/-- A removal takes the entry of its own number and no other. -/
theorem lookup_erase_eq_some {t : Table β} {n m : ℕ} {c : β} :
    (t.erase n).lookup m = some c ↔ m ≠ n ∧ t.lookup m = some c := by
  by_cases h : m = n
  · subst h
    simp
  · simp [AList.lookup_erase_ne h, h]

/-- Dropping a number leaves the others as they were. -/
theorem lookup_of_lookup_erase {t : Table β} {n m : ℕ} {c : β}
    (h : (t.erase n).lookup m = some c) : t.lookup m = some c :=
  (lookup_erase_eq_some.mp h).2

/-! ## Contents in order -/

theorem mem_inOrder {t : Table β} {n : ℕ} {b : β} (h : t.lookup n = some b) : b ∈ t.inOrder :=
  List.mem_filterMap.mpr
    ⟨n, (List.mem_insertionSort (· ≤ ·)).mpr (mem_keys_of_lookup_eq_some h), h⟩

/-- A table with no number from `k` on is read from `0` to `k - 1`. -/
theorem inOrder_of_mem_lt {t : Table β} {k : ℕ} (h : ∀ n ∈ t, n < k) :
    t.inOrder = (List.range k).filterMap t.lookup := by
  have hperm : (t.keys.insertionSort (· ≤ ·)).Perm ((List.range k).filter (· ∈ t)) := by
    refine (List.perm_insertionSort (· ≤ ·) t.keys).trans ?_
    refine (List.perm_ext_iff_of_nodup t.keys_nodup (List.nodup_range.filter _)).mpr fun n => ?_
    rw [← AList.mem_keys, List.mem_filter, List.mem_range, decide_eq_true_eq]
    exact ⟨fun hn => ⟨h n hn, hn⟩, And.right⟩
  have hsorted : t.keys.insertionSort (· ≤ ·) = (List.range k).filter (· ∈ t) :=
    List.Perm.eq_of_pairwise' (List.pairwise_insertionSort (· ≤ ·) t.keys)
      ((List.pairwise_lt_range.imp Nat.le_of_lt).filter _) hperm
  rw [inOrder, hsorted, List.filterMap_filter]
  refine List.filterMap_congr fun n _ => ?_
  split
  next => rfl
  next hn =>
    rw [decide_eq_true_eq] at hn
    exact (AList.lookup_eq_none.mpr hn).symm

theorem filterMap_range_filter (p : β → Bool) (l : List β) :
    (List.range l.length).filterMap (fun n => l[n]?.filter p) = l.filter p := by
  induction l with
  | nil => rfl
  | cons b l ih =>
      rw [List.length_cons, List.range_succ_eq_map, List.filterMap_cons, List.filterMap_map]
      by_cases hb : p b = true
      · simpa [Function.comp_def, Option.filter_some, hb] using ih
      · simpa [Function.comp_def, Option.filter_some, hb] using ih

/-- A table that files a list by position, without the elements that fail `p`. -/
theorem inOrder_eq_filter {t : Table β} {l : List β} {p : β → Bool}
    (h : ∀ n, t.lookup n = l[n]?.filter p) : t.inOrder = l.filter p := by
  have hlt : ∀ n ∈ t, n < l.length := by
    intro n hn
    obtain ⟨b, hb⟩ := exists_lookup_of_mem hn
    by_contra hge
    rw [h, List.getElem?_eq_none (Nat.le_of_not_lt hge)] at hb
    cases hb
  rw [inOrder_of_mem_lt hlt, ← filterMap_range_filter p l]
  exact List.filterMap_congr fun n _ => h n

/-! ## Blocks -/

/-- The first elements of an interval that meet `p` are the numbers up to which all meet
`p`. -/
theorem mem_takeWhile_range' {p : ℕ → Prop} [DecidablePred p] {n : ℕ} :
    ∀ {len k : ℕ}, n ∈ (List.range' k len).takeWhile (fun m => decide (p m)) ↔
      n < k + len ∧ k ≤ n ∧ ∀ m, k ≤ m → m ≤ n → p m
  | 0, k => by
      simp only [List.range'_zero, List.takeWhile_nil, List.not_mem_nil, false_iff]
      omega
  | len + 1, k => by
      by_cases hk : p k
      · rw [List.range'_succ, List.takeWhile_cons_of_pos (by simpa using hk), List.mem_cons,
          mem_takeWhile_range']
        constructor
        · rintro (rfl | ⟨hlt, hle, hall⟩)
          · exact ⟨by omega, Nat.le_refl _, fun m h h' => Nat.le_antisymm h' h ▸ hk⟩
          · refine ⟨by omega, by omega, fun m h h' => ?_⟩
            rcases Nat.eq_or_lt_of_le h with rfl | h
            · exact hk
            · exact hall m h h'
        · rintro ⟨hlt, hle, hall⟩
          rcases Nat.eq_or_lt_of_le hle with rfl | hle
          · exact Or.inl rfl
          · exact Or.inr ⟨by omega, hle, fun m h h' => hall m (by omega) h'⟩
      · rw [List.range'_succ, List.takeWhile_cons_of_neg (by simpa using hk)]
        simp only [List.not_mem_nil, false_iff]
        rintro ⟨-, hle, hall⟩
        exact hk (hall k (Nat.le_refl _) hle)

/-- An interval inside the table is no longer than the table. -/
theorem length_le_of_interval_subset {t : Table β} {k : ℕ} (len : ℕ)
    (h : ∀ m, k ≤ m → m < k + len → m ∈ t) : len ≤ t.keys.length := by
  have hsub : List.range' k len ⊆ t.keys := by
    intro m hm
    rw [List.mem_range'_1] at hm
    exact AList.mem_keys.mp (h m hm.1 hm.2)
  simpa using (List.subperm_of_subset List.nodup_range' hsub).length_le

/-- The block from `k` holds exactly the numbers up to which none is missing. -/
theorem mem_block_iff {t : Table β} {k n : ℕ} :
    n ∈ t.block k ↔ k ≤ n ∧ ∀ m, k ≤ m → m ≤ n → m ∈ t := by
  rw [block, mem_takeWhile_range']
  constructor
  · exact And.right
  · intro h
    refine ⟨?_, h⟩
    have := length_le_of_interval_subset (t := t) (k := k) (n + 1 - k)
      fun m hm hlt => h.2 m hm (by omega)
    have := h.1
    omega

theorem mem_of_mem_block {t : Table β} {k n : ℕ} (h : n ∈ t.block k) : n ∈ t :=
  have ⟨hle, hall⟩ := mem_block_iff.mp h
  hall n hle (Nat.le_refl _)

/-- In a block a property goes on from one number to the next. -/
theorem block_induction {t : Table β} {k m n : ℕ} {p : ℕ → Prop} (hm : m ∈ t.block k)
    (hn : n ∈ t.block k) (hle : m ≤ n) (hp : p m)
    (h : ∀ i, i ∈ t → i + 1 ∈ t → p i → p (i + 1)) : p n := by
  have hk : k ≤ m := (mem_block_iff.mp hm).1
  have hall := (mem_block_iff.mp hn).2
  induction hle with
  | refl => exact hp
  | @step i hle ih =>
      have hle : m ≤ i := hle
      have hi : i ∈ t := hall i (Nat.le_trans hk hle) (Nat.le_succ i)
      have hi' : i + 1 ∈ t := hall (i + 1) (by omega) (Nat.le_refl _)
      refine h i hi hi' (ih (mem_block_iff.mpr ⟨by omega, fun j hj hji => ?_⟩) fun j hj hji => ?_)
      · exact hall j hj (Nat.le_succ_of_le hji)
      · exact hall j hj (Nat.le_succ_of_le hji)

/-- The block from `0` of a table that files a list by position. -/
theorem block_zero_eq_range {t : Table β} {l : List β} (h : ∀ n, t.lookup n = l[n]?) :
    t.block 0 = List.range l.length := by
  have hmem : ∀ n, n ∈ t ↔ n < l.length := by
    intro n
    rw [← AList.lookup_isSome, h]
    simp
  have hlen : t.keys.length = l.length := by
    have hperm : t.keys.Perm (List.range l.length) := by
      refine (List.perm_ext_iff_of_nodup t.keys_nodup List.nodup_range).mpr fun n => ?_
      rw [← AList.mem_keys, hmem, List.mem_range]
    rw [hperm.length_eq, List.length_range]
  rw [block, hlen, ← List.range_eq_range', List.takeWhile_eq_self_iff]
  intro n hn
  exact decide_eq_true ((hmem n).mpr (List.mem_range.mp hn))

end Table
