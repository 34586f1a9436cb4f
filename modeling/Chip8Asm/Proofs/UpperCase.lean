import Chip8Asm.Text.Blank
import Chip8Asm.Text.Upper

/-! What upper-casing makes of a character. The images that the two tables give to characters above
U+007F are no blanks, and the only characters below U+0080 among them are letters, none of which is
one of the letters that mark the kind of a token. No image has another image (`upperChar_idem`). -/

namespace Chip8Asm
namespace Text

/-- The code points that the tables give. -/
def IsImage (n : Nat) : Prop :=
  (∃ entry ∈ expansions, n ∈ entry.2) ∨
    ∃ run ∈ caseRuns, run.image ≤ n ∧ n ≤ run.image + (run.last - run.first)

theorem mem_upperCode (h : n ∈ upperCode code) : n = code ∨ IsImage n := by
  unfold upperCode at h
  cases hlookup : expansions.lookup code with
  | some image =>
    rw [hlookup] at h
    obtain ⟨before, after, htable, _⟩ := List.lookup_eq_some_iff.mp hlookup
    have hmem : (code, image) ∈ expansions := by simp [htable]
    exact .inr (.inl ⟨_, hmem, h⟩)
  | none =>
    cases hfind : caseRuns.find? (·.covers code) with
    | none => simpa [hlookup, hfind] using Or.inl h
    | some run =>
      have hcovers := List.find?_some hfind
      simp only [CaseRun.covers, Bool.and_eq_true, decide_eq_true_eq] at hcovers
      simp only [hlookup, hfind, List.mem_singleton, CaseRun.apply] at h
      exact .inr (.inr ⟨run, List.mem_of_find?_eq_some hfind, by omega, by omega⟩)

/-- A range of code points of characters, none of them a blank, and below U+0080 only letters other
than `B`, `V` and `X`. -/
def inertRange (first last : Nat) : Bool :=
  (decide (last < 0xD800) || decide (0xDFFF < first) && decide (last < 0x110000)) &&
    blanks.all (fun range => decide (last < range.1) || decide (range.2 < first)) &&
    (decide (0x80 ≤ first) || decide (0x41 ≤ first) && decide (last ≤ 0x5A) &&
      [0x42, 0x56, 0x58].all fun mark => decide (last < mark) || decide (mark < first))

theorem inertRange_mono (h : inertRange first last = true) (hfirst : first ≤ n) (hlast : n ≤ last) :
    inertRange n n = true := by
  simp only [inertRange, Bool.and_eq_true, Bool.or_eq_true, decide_eq_true_eq,
    List.all_eq_true] at h ⊢
  obtain ⟨⟨hvalid, hblank⟩, hascii⟩ := h
  refine ⟨⟨by omega, fun range hrange => ?_⟩, ?_⟩
  · have := hblank range hrange
    omega
  · refine hascii.imp (by omega) fun ⟨hletter, hmarks⟩ => ⟨by omega, fun mark hmark => ?_⟩
    have := hmarks mark hmark
    omega

-- The tables are compared range by range: going through their characters takes minutes.
theorem inertRange_of_isImage (h : IsImage n) : inertRange n n = true := by
  have hexpansions : ∀ entry ∈ expansions, ∀ n ∈ entry.2, inertRange n n = true := by decide +kernel
  have hruns : ∀ run ∈ caseRuns,
      inertRange run.image (run.image + (run.last - run.first)) = true := by decide +kernel
  rcases h with ⟨entry, hentry, hn⟩ | ⟨run, hrun, hfirst, hlast⟩
  · exact hexpansions entry hentry n hn
  · exact inertRange_mono (hruns run hrun) hfirst hlast

theorem toNat_ofNat (h : n.isValidChar) : (Char.ofNat n).toNat = n := by
  rw [Char.ofNat, dif_pos h]
  rfl

theorem forall_ascii {P : Char → Prop} (h : ∀ n < 0x80, P (Char.ofNat n)) (hc : c.toNat < 0x80) :
    P c := by
  simpa using h c.toNat hc

theorem isValidChar_of_mem_upperCode {c : Char} (h : n ∈ upperCode c.toNat) : n.isValidChar := by
  rcases mem_upperCode h with rfl | himage
  · exact c.valid
  · have hinert := inertRange_of_isImage himage
    simp only [inertRange, Bool.and_eq_true, Bool.or_eq_true, decide_eq_true_eq] at hinert
    unfold Nat.isValidChar
    omega

theorem mem_upperChar (h : d ∈ upperChar c) :
    c.toNat < 0x80 ∧ d = c.toUpper ∨
      0x80 ≤ c.toNat ∧ (d = c ∨ inertRange d.toNat d.toNat = true) := by
  unfold upperChar at h
  split at h
  · rename_i hascii
    exact .inl ⟨hascii, List.mem_singleton.mp h⟩
  · rename_i hascii
    obtain ⟨n, hn, rfl⟩ := List.mem_map.mp h
    refine .inr ⟨Nat.not_lt.mp hascii, ?_⟩
    rcases mem_upperCode hn with rfl | himage
    · exact .inl (Char.ofNat_toNat c)
    · right
      rw [toNat_ofNat (isValidChar_of_mem_upperCode hn)]
      exact inertRange_of_isImage himage

theorem upperChar_of_ascii (h : c.toNat < 0x80) : upperChar c = [c.toUpper] := if_pos h

theorem upperChar_ne_nil (c : Char) : upperChar c ≠ [] := by
  have hexpansions : ∀ entry ∈ expansions, entry.2 ≠ [] := by decide
  unfold upperChar
  split
  · exact List.cons_ne_nil _ _
  · rw [ne_eq, List.map_eq_nil_iff, upperCode]
    cases hlookup : expansions.lookup c.toNat with
    | some image =>
      obtain ⟨before, after, htable, _⟩ := List.lookup_eq_some_iff.mp hlookup
      exact hexpansions (c.toNat, image) (by simp [htable])
    | none => cases caseRuns.find? (·.covers c.toNat) <;> exact List.cons_ne_nil _ _

@[simp] theorem upperChars_nil : upperChars [] = [] := rfl

@[simp] theorem upperChars_cons (c : Char) (cs : List Char) :
    upperChars (c :: cs) = upperChar c ++ upperChars cs := rfl

/-- Upper-casing makes no blanks. -/
theorem eq_of_isBlank_upper (h : d ∈ upperChar c) (hd : isBlank d = true) : d = c := by
  rcases mem_upperChar h with ⟨hascii, rfl⟩ | ⟨_, rfl | hinert⟩
  · exact forall_ascii (P := fun c => isBlank c.toUpper = true → c.toUpper = c)
      (by decide) hascii hd
  · rfl
  · simp only [inertRange, Bool.and_eq_true, List.all_eq_true, Bool.or_eq_true,
      decide_eq_true_eq] at hinert
    simp only [isBlank, Ranges.holds, List.any_eq_true, Bool.and_eq_true, decide_eq_true_eq] at hd
    obtain ⟨range, hrange, hbounds⟩ := hd
    have := hinert.1.2 range hrange
    omega

/-- The characters below U+0080 that are the image of such characters only. -/
def IsMark (d : Char) : Prop := d.toNat < 0x80 ∧ inertRange d.toNat d.toNat = false

instance (d : Char) : Decidable (IsMark d) := inferInstanceAs (Decidable (_ ∧ _))

theorem IsMark.of_mem_upperChar (hd : IsMark d) (h : d ∈ upperChar c) :
    c.toNat < 0x80 ∧ c.toUpper = d := by
  rcases mem_upperChar h with ⟨hascii, rfl⟩ | ⟨hwide, rfl | hinert⟩
  · exact ⟨hascii, rfl⟩
  · exact absurd hd.1 (Nat.not_lt.mpr hwide)
  · rw [hd.2] at hinert
    contradiction

/-- A text whose image begins with a mark begins with the mark in either case. -/
theorem IsMark.of_upperChars_eq_cons (hd : IsMark d) (h : upperChars cs = d :: us) :
    ∃ c rest, cs = c :: rest ∧ (c = d ∨ c = d.toLower) ∧ us = upperChars rest := by
  cases cs with
  | nil => cases h
  | cons c rest =>
    obtain ⟨e, es, himage⟩ := List.exists_cons_of_ne_nil (upperChar_ne_nil c)
    rw [upperChars_cons, himage, List.cons_append] at h
    obtain ⟨rfl, rfl⟩ := List.cons.inj h
    obtain ⟨hascii, rfl⟩ := hd.of_mem_upperChar (himage ▸ List.mem_cons_self)
    rw [upperChar_of_ascii hascii] at himage
    obtain ⟨_, rfl⟩ := List.cons.inj himage
    have hcase : c = c.toUpper ∨ c = c.toUpper.toLower :=
      forall_ascii (P := fun c => c = c.toUpper ∨ c = c.toUpper.toLower) (by decide) hascii
    exact ⟨c, rest, rfl, hcase, rfl⟩

/-! ### Images of images -/

def CaseRun.lastImage (run : CaseRun) : Nat := run.image + (run.last - run.first)

/-- No image of the run is a character of the other. They may share a range if each takes every
second character of it. -/
def CaseRun.avoids (run other : CaseRun) : Bool :=
  !other.first.ble run.lastImage || !run.image.ble other.last ||
    other.stride.beq 2 && (run.stride.beq 2 || run.first.beq run.last) &&
      ((run.image + other.first) % 2).beq 1

/-- The images of the run are capital letters, or above U+007F and in neither table. -/
def CaseRun.isFinal (run : CaseRun) : Bool :=
  Nat.ble 0x41 run.image && run.lastImage.ble 0x5A ||
    Nat.ble 0x80 run.image &&
      expansions.all (fun entry => !run.image.ble entry.1 || !entry.1.ble run.lastImage) &&
      caseRuns.all run.avoids

theorem CaseRun.not_covers_of_avoids {run other : CaseRun} (havoids : run.avoids other = true)
    (hcovers : run.covers code = true) : other.covers (run.apply code) = false := by
  simp only [avoids, lastImage, Bool.or_eq_true, Bool.and_eq_true, Bool.not_eq_true',
    Bool.eq_false_iff, ne_eq, Nat.ble_eq, Nat.beq_eq] at havoids
  simp only [covers, Bool.and_eq_true, decide_eq_true_eq, beq_iff_eq] at hcovers
  obtain ⟨⟨hfirst, hlast⟩, hstride⟩ := hcovers
  simp only [covers, Bool.eq_false_iff, ne_eq, Bool.and_eq_true, decide_eq_true_eq, beq_iff_eq]
  unfold apply
  rintro ⟨⟨hstart, hend⟩, hother⟩
  rcases havoids with (hbelow | habove) | ⟨⟨htwo, hstep⟩, hodd⟩
  · omega
  · omega
  · -- the two codes differ by an odd number
    rw [htwo] at hother
    rcases hstep with hstep | hstep
    · rw [hstep] at hstride
      omega
    · omega

/-- The images of a final run stay as they are. -/
theorem CaseRun.upperChar_apply {run : CaseRun} (hfinal : run.isFinal = true)
    (hcovers : run.covers code = true) (hvalid : (run.apply code).isValidChar) :
    upperChar (Char.ofNat (run.apply code)) = [Char.ofNat (run.apply code)] := by
  have hbounds : run.image ≤ run.apply code ∧ run.apply code ≤ run.lastImage := by
    simp only [covers, Bool.and_eq_true, decide_eq_true_eq] at hcovers
    unfold apply lastImage
    omega
  have hcapital : ∀ n < 0x80, 0x41 ≤ n → n ≤ 0x5A → upperChar (Char.ofNat n) = [Char.ofNat n] := by
    decide
  simp only [isFinal, Bool.or_eq_true, Bool.and_eq_true, Nat.ble_eq, List.all_eq_true,
    Bool.not_eq_true', Bool.eq_false_iff, ne_eq] at hfinal
  rcases hfinal with ⟨hfirst, hlast⟩ | ⟨⟨hwide, hexpansions⟩, hruns⟩
  · exact hcapital _ (by omega) (by omega) (by omega)
  · have hlookup : expansions.lookup (run.apply code) = none := by
      refine List.lookup_eq_none_iff.mpr fun entry hentry => ?_
      have := hexpansions entry hentry
      simp only [bne_iff_ne, ne_eq]
      omega
    have hfind : caseRuns.find? (·.covers (run.apply code)) = none := by
      refine List.find?_eq_none.mpr fun other hother => ?_
      simpa using not_covers_of_avoids (hruns other hother) hcovers
    have hascii : ¬(Char.ofNat (run.apply code)).toNat < 0x80 := by
      rw [toNat_ofNat hvalid]
      omega
    rw [upperChar, if_neg hascii, toNat_ofNat hvalid, upperCode, hlookup, hfind]
    rfl

theorem caseRuns_final : ∀ run ∈ caseRuns, run.isFinal = true := by
  have hall : caseRuns.all CaseRun.isFinal = true := by decide +kernel
  exact List.all_eq_true.mp hall

/-- An image of an expansion is taken for a run of its own. -/
theorem expansions_final (hentry : entry ∈ expansions) (hn : n ∈ entry.2) :
    CaseRun.isFinal ⟨n, n, 1, n⟩ = true := by
  have hall : (expansions.flatMap Prod.snd).eraseDups.all
      (fun n => CaseRun.isFinal ⟨n, n, 1, n⟩) = true := by decide +kernel
  refine List.all_eq_true.mp hall n ?_
  exact List.mem_eraseDups.mpr (List.mem_flatMap.mpr ⟨entry, hentry, hn⟩)

/-- Upper-casing keeps what it makes. -/
theorem upperChar_idem (h : d ∈ upperChar c) : upperChar d = [d] := by
  by_cases hascii : c.toNat < 0x80
  · rw [upperChar_of_ascii hascii, List.mem_singleton] at h
    subst h
    exact forall_ascii (P := fun c => upperChar c.toUpper = [c.toUpper]) (by decide) hascii
  · have himage := h
    rw [upperChar, if_neg hascii] at himage
    obtain ⟨n, hn, rfl⟩ := List.mem_map.mp himage
    have hvalid := isValidChar_of_mem_upperCode hn
    unfold upperCode at hn
    cases hlookup : expansions.lookup c.toNat with
    | some image =>
      rw [hlookup] at hn
      obtain ⟨before, after, htable, _⟩ := List.lookup_eq_some_iff.mp hlookup
      have hentry : (c.toNat, image) ∈ expansions := by simp [htable]
      have hcovers : CaseRun.covers ⟨n, n, 1, n⟩ n = true := by simp [CaseRun.covers]
      have happly : CaseRun.apply ⟨n, n, 1, n⟩ n = n := by simp [CaseRun.apply]
      have hidem := CaseRun.upperChar_apply (expansions_final hentry hn) hcovers
      rw [happly] at hidem
      exact hidem hvalid
    | none =>
      rw [hlookup] at hn
      cases hfind : caseRuns.find? (·.covers c.toNat) with
      | some run =>
        rw [hfind] at hn
        obtain rfl := List.mem_singleton.mp hn
        have hrun := caseRuns_final run (List.mem_of_find?_eq_some hfind)
        have hcovers := List.find?_some hfind
        exact CaseRun.upperChar_apply hrun hcovers hvalid
      | none =>
        rw [hfind] at hn
        obtain rfl := List.mem_singleton.mp hn
        rw [Char.ofNat_toNat, upperChar, if_neg hascii, upperCode, hlookup, hfind,
          List.map_singleton, Char.ofNat_toNat]

end Text
end Chip8Asm
