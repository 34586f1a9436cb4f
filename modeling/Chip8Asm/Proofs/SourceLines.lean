import Chip8Asm.Proofs.UpperCase
import Chip8Asm.SourceLine

/-! The lines of a source. They are in normal form, they are not empty, and their numbers increase.
A line in normal form begins with its first token, so a line that is no directive has a first token
without a colon. -/

namespace Chip8Asm

namespace Text

/-- The pieces between blanks are without blanks. -/
theorem pieces_unblank (cs : List Char) :
    ∀ piece ∈ cs.splitOnP isBlank, ∀ c ∈ piece, isBlank c = false := by
  induction cs with
  | nil => simp [List.splitOnP_nil]
  | cons c cs ih =>
    obtain ⟨first, rest, hpieces⟩ := List.exists_cons_of_ne_nil (List.splitOnP_ne_nil isBlank cs)
    rw [hpieces, List.forall_mem_cons] at ih
    rw [List.splitOnP_cons_eq_if_modifyHead, hpieces]
    cases hc : isBlank c
    · exact List.forall_mem_cons.mpr ⟨List.forall_mem_cons.mpr ⟨hc, ih.1⟩, ih.2⟩
    · exact List.forall_mem_cons.mpr ⟨by simp, List.forall_mem_cons.mpr ih⟩

theorem mem_wordsOf (h : word ∈ wordsOf cs) : word ≠ [] ∧ ∀ c ∈ word, isBlank c = false := by
  obtain ⟨hpiece, hne⟩ := List.mem_filter.mp h
  exact ⟨by simpa using hne, pieces_unblank cs word hpiece⟩

/-- A text that begins without a blank begins with its first word. -/
theorem wordsOf_cons (hc : isBlank c = false) (cs : List Char) :
    ∃ word words, wordsOf (c :: cs) = (c :: word) :: words := by
  obtain ⟨first, rest, hpieces⟩ := List.exists_cons_of_ne_nil (List.splitOnP_ne_nil isBlank cs)
  refine ⟨first, rest.filter (!·.isEmpty), ?_⟩
  simp [wordsOf, List.splitOnP_cons_eq_if_modifyHead, hc, hpieces]

end Text

namespace SourceLine
open Text

variable {line : SourceLine}

theorem exists_intercalate_cons (word : List Char) (words : List (List Char)) :
    ∃ rest, [' '].intercalate (word :: words) = word ++ rest := by
  cases words with
  | nil => exact ⟨[], by simp [List.intercalate]⟩
  | cons next words =>
    exact ⟨_, List.intercalate_cons_cons.trans (List.append_assoc ..)⟩

/-- A normal form does not begin with a blank. -/
theorem isBlank_of_normalizeChars (h : normalizeChars cs = c :: rest) : isBlank c = false := by
  unfold normalizeChars at h
  cases hwords : wordsOf (spaceCommas (uncommented cs)) with
  | nil => simp [hwords, List.intercalate] at h
  | cons word words =>
    obtain ⟨hne, hblank⟩ := mem_wordsOf (hwords ▸ List.mem_cons_self)
    obtain ⟨first, word, rfl⟩ := List.exists_cons_of_ne_nil hne
    obtain ⟨tail, hjoin⟩ := exists_intercalate_cons (first :: word) words
    obtain ⟨image, images, himage⟩ := List.exists_cons_of_ne_nil (upperChar_ne_nil first)
    rw [hwords, hjoin, List.cons_append, upperChars_cons, himage] at h
    obtain ⟨rfl, -⟩ := List.cons.inj h
    have hmem : image ∈ upperChar first := himage ▸ List.mem_cons_self
    cases hc : isBlank image
    · rfl
    · rw [eq_of_isBlank_upper hmem hc, hblank first List.mem_cons_self] at hc
      cases hc

theorem isDirective_iff : line.isDirective = true ↔ line.text.toList.head? = some ':' := beq_iff_eq

/-- The text is a normal form and is not empty. -/
def IsNormal (line : SourceLine) : Prop := line.text ≠ "" ∧ ∃ raw, line.text = normalize raw

theorem IsNormal.tokens (h : IsNormal line) : ∃ c cs tokens,
    line.tokens = String.ofList (c :: cs) :: tokens ∧ line.text.toList.head? = some c := by
  obtain ⟨hne, raw, htext⟩ := h
  have hchars : line.text.toList ≠ [] := by simpa using hne
  obtain ⟨c, rest, hcons⟩ := List.exists_cons_of_ne_nil hchars
  have hnormal : normalizeChars raw.toList = c :: rest := by
    rw [← hcons, htext, normalize, String.toList_ofList]
  obtain ⟨word, words, hwords⟩ := wordsOf_cons (isBlank_of_normalizeChars hnormal) rest
  refine ⟨c, word, words.map String.ofList, ?_, by rw [hcons]; rfl⟩
  rw [SourceLine.tokens, Text.words, hcons, hwords]
  rfl

theorem IsNormal.isDirective_iff_first (h : IsNormal line) (htokens : line.tokens = first :: rest) :
    line.isDirective = true ↔ first.toList.head? = some ':' := by
  obtain ⟨c, cs, others, hothers, hc⟩ := h.tokens
  obtain ⟨rfl, -⟩ := List.cons.inj (htokens.symm.trans hothers)
  rw [isDirective_iff, hc, String.toList_ofList, List.head?_cons]

theorem numbered_cons_of_eq (h : normalize raw = "") (index : Nat) (raws : List String) :
    numbered index (raw :: raws) = numbered (index + 1) raws := by
  rw [numbered, if_pos h]

theorem numbered_cons_of_ne (h : normalize raw ≠ "") (index : Nat) (raws : List String) :
    numbered index (raw :: raws) = ⟨index, normalize raw⟩ :: numbered (index + 1) raws := by
  rw [numbered, if_neg h]

/-- Of the lines of a text the normal forms count alone. -/
theorem numbered_congr {raws others : List String} (h : raws.map normalize = others.map normalize)
    (index : Nat) : numbered index raws = numbered index others := by
  induction raws generalizing others index with
  | nil => rw [List.map_eq_nil_iff.mp h.symm]
  | cons raw raws ih =>
    obtain ⟨other, others, rfl, hhead, hrest⟩ := List.map_eq_cons_iff.mp h.symm
    rw [numbered, numbered, hhead, ih hrest.symm]

theorem mem_numbered {index : Nat} (h : line ∈ numbered index raws) :
    IsNormal line ∧ (index : Int) ≤ line.index := by
  induction raws generalizing index with
  | nil => cases h
  | cons raw raws ih =>
    simp only [numbered] at h
    split at h
    · obtain ⟨hnormal, hindex⟩ := ih h
      exact ⟨hnormal, by omega⟩
    · rename_i hne
      rcases List.mem_cons.mp h with rfl | h
      · exact ⟨⟨hne, raw, rfl⟩, Int.le_refl _⟩
      · obtain ⟨hnormal, hindex⟩ := ih h
        exact ⟨hnormal, by omega⟩

theorem exists_getElem?_of_mem_numbered {index : Nat} (h : line ∈ numbered index raws) :
    ∃ (i : Nat) (raw : String), line.index = (index + i : Nat) ∧ raws[i]? = some raw ∧
      line.text = normalize raw := by
  induction raws generalizing index with
  | nil => cases h
  | cons first raws ih =>
    have hlater : line ∈ numbered (index + 1) raws → ∃ (i : Nat) (raw : String),
        line.index = (index + i : Nat) ∧ (first :: raws)[i]? = some raw ∧
          line.text = normalize raw := by
      intro hmem
      obtain ⟨i, raw, hindex, hraw, htext⟩ := ih hmem
      exact ⟨i + 1, raw, by rw [hindex, Nat.add_right_comm, Nat.add_assoc], hraw, htext⟩
    by_cases hempty : normalize first = ""
    · rw [numbered_cons_of_eq hempty] at h
      exact hlater h
    · rw [numbered_cons_of_ne hempty] at h
      rcases List.mem_cons.mp h with rfl | hmem
      · exact ⟨0, first, rfl, rfl, rfl⟩
      · exact hlater hmem

theorem exists_raw_of_mem_numbered {index : Nat} (h : line ∈ numbered index raws) :
    ∃ raw ∈ raws, line.text = normalize raw := by
  obtain ⟨_, raw, _, hraw, htext⟩ := exists_getElem?_of_mem_numbered h
  exact ⟨raw, List.mem_of_getElem? hraw, htext⟩

theorem numbered_increasing (index : Nat) (raws : List String) :
    (numbered index raws).Pairwise (·.index < ·.index) := by
  induction raws generalizing index with
  | nil => exact .nil
  | cons raw raws ih =>
    simp only [numbered]
    split
    · exact ih (index + 1)
    · refine .cons (fun line hline => ?_) (ih (index + 1))
      have hindex := (mem_numbered hline).2
      change (index : Int) < line.index
      omega

end SourceLine

end Chip8Asm
