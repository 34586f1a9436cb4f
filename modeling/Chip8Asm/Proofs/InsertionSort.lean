import Mathlib
import Chip8Asm.Text.Similarity

/-! Sorting by insertion, for the most part by keys. Elements with the least key come first, in the
order they had. If the others are in order already nothing else moves (`sorted_eq_filter`). -/

namespace Chip8Asm

theorem insertSorted_eq_orderedInsert (le : α → α → Bool) (a : α) (as : List α) :
    insertSorted le a as = as.orderedInsert (fun x y => le x y = true) a := by
  induction as with
  | nil => rfl
  | cons b rest ih => rw [insertSorted, ih, List.orderedInsert_cons]

theorem sorted_eq_insertionSort (le : α → α → Bool) (as : List α) :
    sorted le as = as.insertionSort (fun x y => le x y = true) := by
  induction as with
  | nil => rfl
  | cons a rest ih => rw [sorted, ih, insertSorted_eq_orderedInsert, List.insertionSort_cons]

/-- Sorting by keys that tell all elements apart gives the one list in the order of the keys. -/
theorem sorted_eq_of_perm {key : α → Int} {xs ys : List α} (hperm : xs.Perm ys)
    (hincreasing : ys.Pairwise (key · < key ·)) :
    sorted (fun a b => decide (key a ≤ key b)) xs = ys := by
  simp only [sorted_eq_insertionSort, decide_eq_true_eq]
  have : Std.Total fun a b => key a ≤ key b := ⟨fun a b => le_total (key a) (key b)⟩
  have : IsTrans α fun a b => key a ≤ key b := ⟨fun _ _ _ => le_trans⟩
  have hsort := (List.perm_insertionSort (fun a b => key a ≤ key b) xs).trans hperm
  have hkeys : (ys.map key).Nodup := List.pairwise_map.mpr (hincreasing.imp fun h => h.ne)
  refine List.Perm.eq_of_pairwise ?_ (List.pairwise_insertionSort _ xs)
    (hincreasing.imp fun h => h.le) hsort
  intro a b ha hb hab hba
  exact List.inj_on_of_nodup_map hkeys (hsort.mem_iff.mp ha) hb (le_antisymm hab hba)

theorem sorted_perm (le : α → α → Bool) (as : List α) : (sorted le as).Perm as := by
  rw [sorted_eq_insertionSort]
  exact List.perm_insertionSort _ as

/-- Sorting in a linear order does not depend on the order that the elements had. -/
theorem sorted_congr_of_perm [LinearOrder β] {key : α → β} (hkey : Function.Injective key)
    {le : α → α → Bool} (hle : ∀ a b, le a b = true ↔ key a ≤ key b) {xs ys : List α}
    (h : xs.Perm ys) : sorted le xs = sorted le ys := by
  have : Std.Total fun a b => key a ≤ key b := ⟨fun a b => le_total (key a) (key b)⟩
  have : IsTrans α fun a b => key a ≤ key b := ⟨fun _ _ _ => le_trans⟩
  simp only [sorted_eq_insertionSort, hle]
  apply List.Perm.eq_of_pairwise
  · intro a b _ _ hab hba
    exact hkey (le_antisymm hab hba)
  · exact List.pairwise_insertionSort _ xs
  · exact List.pairwise_insertionSort _ ys
  · exact (List.perm_insertionSort _ xs).trans (h.trans (List.perm_insertionSort _ ys).symm)

theorem insertSorted_map (le : β → β → Bool) (f : α → β) (a : α) (as : List α) :
    insertSorted le (f a) (as.map f) =
      (insertSorted (fun a b => le (f a) (f b)) a as).map f := by
  induction as with
  | nil => rfl
  | cons b rest ih =>
    rw [List.map_cons, insertSorted, insertSorted, ih]
    split <;> rfl

theorem sorted_map (le : β → β → Bool) (f : α → β) (as : List α) :
    sorted le (as.map f) = (sorted (fun a b => le (f a) (f b)) as).map f := by
  induction as with
  | nil => rfl
  | cons a rest ih => rw [List.map_cons, sorted, ih, insertSorted_map, sorted]

section
variable {key : α → Int} {a : α} {as : List α}

theorem insertSorted_of_le (h : ∀ b ∈ as, key a ≤ key b) :
    insertSorted (fun a b => decide (key a ≤ key b)) a as = a :: as := by
  cases as with
  | nil => rfl
  | cons b rest => rw [insertSorted, if_pos (decide_eq_true (h b List.mem_cons_self))]

theorem insertSorted_append_of_lt (h : ∀ b ∈ as, key b < key a) (bs : List α) :
    insertSorted (fun a b => decide (key a ≤ key b)) a (as ++ bs) =
      as ++ insertSorted (fun a b => decide (key a ≤ key b)) a bs := by
  induction as with
  | nil => rfl
  | cons b rest ih =>
    have hb : ¬decide (key a ≤ key b) = true := by simpa using h b List.mem_cons_self
    rw [List.cons_append, insertSorted, if_neg hb,
      ih fun c hc => h c (List.mem_cons_of_mem _ hc), List.cons_append]

theorem sorted_of_pairwise (h : as.Pairwise (key · ≤ key ·)) :
    sorted (fun a b => decide (key a ≤ key b)) as = as := by
  induction h with
  | nil => rfl
  | cons hhead _ ih => rw [sorted, ih, insertSorted_of_le hhead]

theorem sorted_eq_filter {least : Int} (hleast : ∀ a ∈ as, least ≤ key a)
    (hothers : (as.filter (key · ≠ least)).Pairwise (key · ≤ key ·)) :
    sorted (fun a b => decide (key a ≤ key b)) as =
      as.filter (key · = least) ++ as.filter (key · ≠ least) := by
  induction as with
  | nil => rfl
  | cons a rest ih =>
    have hrest : ∀ b ∈ rest, least ≤ key b := fun b hb => hleast b (List.mem_cons_of_mem _ hb)
    by_cases ha : key a = least
    · have hfilter : (a :: rest).filter (key · ≠ least) = rest.filter (key · ≠ least) :=
        List.filter_cons_of_neg (by simpa using ha)
      rw [hfilter] at hothers ⊢
      rw [List.filter_cons_of_pos (by simpa using ha), List.cons_append, ← ih hrest hothers]
      apply insertSorted_of_le
      intro b hb
      rw [ha]
      exact hrest b ((sorted_perm _ rest).mem_iff.mp hb)
    · have hfilter : (a :: rest).filter (key · ≠ least) = a :: rest.filter (key · ≠ least) :=
        List.filter_cons_of_pos (decide_eq_true ha)
      rw [hfilter] at hothers ⊢
      obtain ⟨hhead, hothers⟩ := List.pairwise_cons.mp hothers
      rw [List.filter_cons_of_neg (by simpa using ha), sorted, ih hrest hothers]
      -- the element passes those with the least key, and no other
      rw [insertSorted_append_of_lt, insertSorted_of_le hhead]
      intro b hb
      have hb : key b = least := by simpa using (List.mem_filter.mp hb).2
      rw [hb]
      exact lt_of_le_of_ne (hleast a List.mem_cons_self) (Ne.symm ha)

end

end Chip8Asm
