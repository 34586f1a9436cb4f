import Mathlib
import Chip8Asm.Proofs.LiteralGrammar

/-! Numerals at a fixed width. The low digits of a number are those of its residue
(`Text.positional_lowDigits`), and they can be cut from any text of digits for the number
(`Text.Positional.lowDigits_eq`). So a numeral that is normalized to a width keeps the low digits of
its value, whatever its spelling, and a wider normal form ends in the narrower one. -/

namespace Chip8Asm

/-! ### Low digits -/

namespace Text

theorem isDigit_hexDigit (h : d < 16) : IsDigit 16 (hexDigit d) d := by
  have hall : ∀ d < 16, "0123456789ABCDEF".toList[d]? = some (hexDigit d) := by decide
  exact ⟨h, .inl (hall d h)⟩

theorem ascii_of_isDigit (h : IsDigit 16 c d) : c.toNat < 0x80 :=
  ascii_of_isDigitOf (isDigitOf_iff.mpr ⟨d, hexValue?_eq_some_iff.mpr h, h.1⟩)

/-- Digits in either case have the same image in upper case. -/
theorem upperChar_of_isDigit (h : IsDigit 16 c d) : upperChar c = [hexDigit d] := by
  have hvalue := hexValue?_eq_some_iff.mpr h
  refine forall_ascii (P := fun c => ∀ d ∈ hexValue? c, upperChar c = [hexDigit d]) ?_
    (ascii_of_isDigit h) d hvalue
  decide

/-- The low digits of a number have the residue of the number as their value. -/
theorem positional_lowDigits (width n : Nat) :
    Positional 16 (lowDigits width n) (n % 16 ^ width) := by
  induction width generalizing n with
  | zero => exact positional_nil_iff.mpr (Nat.mod_one n)
  | succ width ih =>
    have hdigit : IsDigit 16 (hexDigit (n % 16)) (n % 16) :=
      isDigit_hexDigit (Nat.mod_lt n (by decide))
    have hvalue : n % 16 ^ (width + 1) = n / 16 % 16 ^ width * 16 + n % 16 := by
      rw [pow_succ', Nat.mod_mul]
      ring
    rw [lowDigits_succ]
    exact positional_concat_iff.mpr ⟨_, _, ih (n / 16), hdigit, hvalue⟩

theorem mem_lowDigits : ∀ c ∈ lowDigits width n, c ∈ "0123456789ABCDEF".toList := by
  induction width with
  | zero => exact List.forall_mem_nil _
  | succ width ih =>
    exact List.forall_mem_cons.mpr ⟨hexDigit_mem (Nat.mod_lt _ (by decide)), ih⟩

theorem lowDigits_suffix (n : Nat) (h : width ≤ wider) :
    lowDigits width n <:+ lowDigits wider n := by
  induction h with
  | refl => exact List.suffix_rfl
  | step _ ih => exact ih.trans (List.suffix_cons ..)

theorem lowDigits_eq_rtake (n : Nat) (h : width ≤ wider) :
    lowDigits width n = (lowDigits wider n).rtake width := by
  have hdrop := List.suffix_iff_eq_drop.mp (lowDigits_suffix n h)
  rwa [length_lowDigits width n] at hdrop

/-- The low digits of a number end every text of digits for it that is long enough. -/
theorem Positional.lowDigits_eq (h : Positional 16 cs n) (width : Nat) :
    lowDigits width n = ((upperChars cs).leftpad width '0').rtake width := by
  induction width generalizing cs n with
  | zero => exact (List.rtake_zero _).symm
  | succ width ih =>
    rcases List.eq_nil_or_concat cs with rfl | ⟨high, c, rfl⟩
    · obtain rfl := positional_nil_iff.mp h
      rw [lowDigits_zero]
      simp [List.leftpad, List.rtake]
    · rw [List.concat_eq_append] at h ⊢
      obtain ⟨m, d, hm, hd, rfl⟩ := positional_concat_iff.mp h
      have hquotient : (m * 16 + d) / 16 = m := by have := hd.1; omega
      have hrest : (m * 16 + d) % 16 = d := by have := hd.1; omega
      have hupper : upperChars (high ++ [c]) = upperChars high ++ [hexDigit d] := by
        rw [upperChars_append, upperChars_cons, upperChar_of_isDigit hd, upperChars_nil]
        rfl
      rw [lowDigits_succ, hquotient, hrest, ih hm, hupper, leftpad_snoc, List.rtake_concat_succ]

/-! ### Shortest texts -/

theorem positional_toDigits (hbase : 1 < radix) (hradix : radix ≤ 16) (n : Nat) :
    Positional radix (Nat.toDigits radix n) n := by
  have hdigit : ∀ d < radix, IsDigit radix (Nat.digitChar d) d := by
    have hall : ∀ d < 16, "0123456789abcdef".toList[d]? = some (Nat.digitChar d) := by decide
    exact fun d hd => ⟨hd, .inr (hall d (hd.trans_le hradix))⟩
  induction n using Nat.strong_induction_on with
  | _ n ih =>
    by_cases hsmall : n < radix
    · rw [Nat.toDigits_of_lt_base hsmall]
      exact positional_singleton_iff.mpr (hdigit n hsmall)
    · have hle : radix ≤ n := Nat.not_lt.mp hsmall
      have hless : n / radix < n := Nat.div_lt_self (by omega) hbase
      have hvalue : n = n / radix * radix + n % radix := (Nat.div_add_mod' n radix).symm
      rw [Nat.toDigits_of_base_le hbase hle]
      exact positional_concat_iff.mpr
        ⟨_, _, ih _ hless, hdigit _ (Nat.mod_lt n (by omega)), hvalue⟩

theorem front_toDigits (h : 0 < n) : (Nat.toDigits 10 n).head? ≠ some '0' := by
  have hdigit : ∀ d < 10, 0 < d → Nat.digitChar d ≠ '0' := by decide
  induction n using Nat.strong_induction_on with
  | _ n ih =>
    by_cases hsmall : n < 10
    · rw [Nat.toDigits_of_lt_base hsmall]
      simpa using hdigit n hsmall h
    · have hle : 10 ≤ n := Nat.not_lt.mp hsmall
      have hhigh := ih (n / 10) (by omega) (by omega)
      rw [Nat.toDigits_of_base_le (by decide) hle,
        List.head?_append_of_ne_nil _ Nat.toDigits_ne_nil]
      exact hhigh

end Text

namespace Numeral
open Text

/-- The shortest literals for a number. A decimal one is read up to the digit limit only. -/
def spellings (n : Nat) : List (List Char) :=
  ['0' :: 'x' :: Nat.toDigits 16 n, '0' :: 'b' :: Nat.toDigits 2 n, '$' :: Nat.toDigits 16 n,
    '0' :: Nat.toDigits 8 n] ++
    if (Nat.toDigits 10 n).length ≤ maxDecimalDigits then [Nat.toDigits 10 n] else []

theorem literal_toDigits (h : (Nat.toDigits 10 n).length ≤ maxDecimalDigits) :
    Literal (Nat.toDigits 10 n) n := by
  rcases Nat.eq_zero_or_pos n with rfl | hpos
  · -- zero is written like an octal literal
    exact .octal (positional_nil_iff.mpr rfl)
  · have hvalue := positional_toDigits (by decide) (by decide : 10 ≤ 16) n
    have hfront := front_toDigits hpos
    cases hdigits : Nat.toDigits 10 n with
    | nil => exact (Nat.toDigits_ne_nil hdigits).elim
    | cons c rest =>
      rw [hdigits] at h hvalue hfront
      exact .decimal (by simpa using hfront) (Nat.le_of_succ_le_succ h) hvalue

theorem literal_of_mem_spellings (h : cs ∈ spellings n) : Literal cs n := by
  have hne : ∀ radix, Nat.toDigits radix n ≠ [] := fun _ => Nat.toDigits_ne_nil
  have hhex := positional_toDigits (by decide) (le_refl 16) n
  have hbinary := positional_toDigits (by decide) (by decide : 2 ≤ 16) n
  have hoctal := positional_toDigits (by decide) (by decide : 8 ≤ 16) n
  simp only [spellings, List.cons_append, List.nil_append, List.mem_cons] at h
  rcases h with rfl | rfl | rfl | rfl | h
  · exact .hex (.inl rfl) (hne 16) hhex
  · exact .binary (.inl rfl) (hne 2) hbinary
  · exact .legacy (hne 16) hhex
  · exact .octal hoctal
  · split at h
    · rename_i hshort
      obtain rfl := List.mem_singleton.mp h
      exact literal_toDigits hshort
    · cases h

theorem normalize_of_parse (hwidth : 0 < width) (h : parse token = .ok value) :
    normalize width token = .ok (String.ofList (lowDigits width value)) :=
  (normalize_eq_ok_iff hwidth).mpr ⟨value, parse_eq_ok_iff.mp h, rfl⟩

theorem positional_of_lt (h : value < 16 ^ width) :
    Positional 16 (lowDigits width value) value := by
  have hdigits := positional_lowDigits width value
  rwa [Nat.mod_eq_of_lt h] at hdigits

/-- The low digits of a number that fits are a spelling of it behind a mark of hexadecimal
digits. -/
theorem parse_marked_lowDigits {mark : String}
    (hmark : ∀ cs n, cs ≠ [] → Positional 16 cs n → Literal (mark.toList ++ cs) n)
    (hwidth : 0 < width) (h : value < 16 ^ width) :
    parse (mark ++ String.ofList (lowDigits width value)) = .ok value := by
  have hne : lowDigits width value ≠ [] := by
    apply List.ne_nil_of_length_pos
    rwa [length_lowDigits]
  apply parse_eq_ok_iff_literal.mpr
  rw [String.toList_append, String.toList_ofList]
  exact hmark _ _ hne (positional_of_lt h)

theorem parse_lowDigits (hwidth : 0 < width) (h : value < 16 ^ width) :
    parse ("0X" ++ String.ofList (lowDigits width value)) = .ok value :=
  parse_marked_lowDigits (fun _ _ hne hvalue => .hex (.inr rfl) hne hvalue) hwidth h

/-- Normalizing to a width keeps as many low digits of the value, in upper case: they are the end of
every wider normal form, and of the digits as they are written where these are hexadecimal. All
spellings of a number that fits into the width have the same normal form, which is one more spelling
of it behind a marking. -/
theorem normalize_keeps_low_digits (hwidth : 1 ≤ width) :
    (∀ token value, parse token = .ok value → ∃ text, normalize width token = .ok text ∧
      text.length = width ∧ (∀ c ∈ text.toList, c ∈ "0123456789ABCDEF".toList) ∧
      Positional 16 text.toList (value % 16 ^ width) ∧
      (∀ wider, width ≤ wider → ∃ long, normalize wider token = .ok long ∧
        text.toList = long.toList.rtake width) ∧
      ∀ skip, (Kind.ofToken token).radix? = some (skip, 16) →
        text.toList =
          ((upperChars (token.toList.drop skip)).leftpad width '0').rtake width) ∧
    ∀ value < 16 ^ width, ∃ text,
      (∀ token, Literal token.toList value → normalize width token = .ok text) ∧
      (∀ cs ∈ spellings value, Literal cs value) ∧
      Positional 16 text.toList value ∧ parse ("0X" ++ text) = .ok value := by
  constructor
  · intro token value hparse
    refine ⟨_, normalize_of_parse hwidth hparse, ?_⟩
    rw [String.length_ofList, String.toList_ofList]
    refine ⟨length_lowDigits width value, mem_lowDigits, positional_lowDigits width value, ?_, ?_⟩
    · intro wider hwider
      refine ⟨_, normalize_of_parse (hwidth.trans hwider) hparse, ?_⟩
      rw [String.toList_ofList]
      exact lowDigits_eq_rtake value hwider
    · intro skip hradix
      obtain ⟨hspells, _⟩ := (parse_eq_ok_of_radix hradix).mp hparse
      exact ((spells_iff_positional le_rfl).mp hspells).2.lowDigits_eq width
  · intro value hvalue
    refine ⟨String.ofList (lowDigits width value), fun token htoken => ?_,
      fun cs hcs => literal_of_mem_spellings hcs, ?_, parse_lowDigits hwidth hvalue⟩
    · exact normalize_of_parse hwidth (parse_eq_ok_iff_literal.mpr htoken)
    · rw [String.toList_ofList]
      exact positional_of_lt hvalue

/-- Three digits in either case, cut to two. -/
theorem normalize_keeps_low_byte :
    parse "$1fF" = .ok 0x1FF ∧ (Kind.ofToken "$1fF").radix? = some (1, 16) ∧
      ∃ text, normalize 2 "$1fF" = .ok text ∧ text.length = 2 ∧
        Positional 16 text.toList (0x1FF % 16 ^ 2) ∧
        text.toList = ((upperChars ['1', 'f', 'F']).leftpad 2 '0').rtake 2 := by
  have hparse : parse "$1fF" = .ok 0x1FF := by decide +kernel
  have hradix : (Kind.ofToken "$1fF").radix? = some (1, 16) := by decide +kernel
  obtain ⟨text, hnormal, hlength, _, hvalue, _, hcut⟩ :=
    (normalize_keeps_low_digits (by decide : 1 ≤ 2)).1 "$1fF" 0x1FF hparse
  exact ⟨hparse, hradix, text, hnormal, hlength, hvalue, hcut 1 hradix⟩

end Numeral

end Chip8Asm
