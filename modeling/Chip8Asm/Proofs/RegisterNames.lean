import Mathlib
import Chip8Asm.Proofs.FixedWidth

/-! The names of registers. Reading takes the value of all the digits behind the `V`, however many
there are, and asks that it be below sixteen. This is so if and only if there are zeros before the
last digit (`Text.positional_lt_iff`), so the names of a register can be told by their characters
alone (`Register.IsName`). -/

namespace Chip8Asm

/-! ### Values of one digit -/

namespace Text

theorem IsDigit.eq_zero (h : IsDigit radix c 0) : c = '0' := by
  obtain ⟨_, hplace | hplace⟩ := h
  · exact (Option.some.inj hplace).symm
  · exact (Option.some.inj hplace).symm

theorem positional_zeros_append_iff (hpos : 0 < radix) (hradix : radix ≤ 16) (zeros : Nat) :
    Positional radix (List.replicate zeros '0' ++ cs) n ↔ Positional radix cs n := by
  induction zeros with
  | zero => rfl
  | succ zeros ih =>
    rw [List.replicate_succ, List.cons_append, positional_zero_cons_iff hpos hradix, ih]

/-- Nothing but zeros stands for zero. -/
theorem Positional.eq_replicate (h : Positional radix cs 0) :
    cs = List.replicate cs.length '0' := by
  induction cs using List.reverseRecOn with
  | nil => rfl
  | append_singleton cs c ih =>
    obtain ⟨m, d, hm, hd, hsum⟩ := positional_concat_iff.mp h
    obtain ⟨hproduct, rfl⟩ := Nat.add_eq_zero_iff.mp hsum.symm
    obtain rfl : m = 0 := (Nat.mul_eq_zero.mp hproduct).resolve_right hd.1.ne'
    obtain rfl := hd.eq_zero
    rw [List.length_append, List.length_singleton, List.replicate_succ', ← ih hm]

/-- The texts of digits whose value is below the radix have zeros before their last digit. -/
theorem positional_lt_iff (hradix : radix ≤ 16) (hd : d < radix) :
    cs ≠ [] ∧ Positional radix cs d ↔
      ∃ zeros c, cs = List.replicate zeros '0' ++ [c] ∧ IsDigit radix c d := by
  constructor
  · rintro ⟨hne, h⟩
    obtain ⟨high, c, rfl⟩ := (List.eq_nil_or_concat' cs).resolve_left hne
    obtain ⟨m, e, hm, he, rfl⟩ := positional_concat_iff.mp h
    -- any other digit before the last would count for the radix at least
    have hproduct : m * radix < 1 * radix := by omega
    obtain rfl : m = 0 := Nat.lt_one_iff.mp (Nat.lt_of_mul_lt_mul_right hproduct)
    rw [Nat.zero_mul, Nat.zero_add]
    exact ⟨high.length, c, congrArg (· ++ [c]) hm.eq_replicate, he⟩
  · rintro ⟨zeros, c, rfl, hc⟩
    refine ⟨List.concat_ne_nil _ _, ?_⟩
    rw [positional_zeros_append_iff (Nat.zero_lt_of_lt hd) hradix, positional_singleton_iff]
    exact hc

theorem toUpper_of_isDigit (h : IsDigit 16 c d) : c.toUpper = hexDigit d := by
  have himage := upperChar_of_isDigit h
  rw [upperChar_of_ascii (ascii_of_isDigit h)] at himage
  exact List.head_eq_of_cons_eq himage

theorem hasDigitsOf_iff_isDigit (hradix : radix ≤ 16) :
    hasDigitsOf radix cs = true ↔ cs ≠ [] ∧ ∀ c ∈ cs, ∃ d, IsDigit radix c d := by
  simp only [hasDigitsOf_iff, isDigitOf_iff, isDigit_iff hradix]

end Text

/-! ### Names -/

namespace Register
open Text

/-- A `V` in either case, any number of zeros, and one hexadecimal digit. -/
def IsName (cs : List Char) (last : Char) : Prop :=
  ∃ v zeros, cs = v :: (List.replicate zeros '0' ++ [last]) ∧ (v = 'v' ∨ v = 'V') ∧
    ∃ d, IsDigit 16 last d

/-- A `V` in either case and hexadecimal digits, at least one. -/
def IsNumbered (cs : List Char) : Prop :=
  ∃ v digits, cs = v :: digits ∧ (v = 'v' ∨ v = 'V') ∧ digits ≠ [] ∧
    ∀ c ∈ digits, ∃ d, IsDigit 16 c d

theorem spells_iff_isName :
    Spells cs register ↔ ∃ c, IsName cs c ∧ IsDigit 16 c register.val := by
  have hdigits : ∀ digits, Text.Spells 16 digits register.val ↔
      ∃ zeros c, digits = List.replicate zeros '0' ++ [c] ∧ IsDigit 16 c register.val :=
    fun _ => (spells_iff_positional le_rfl).trans (positional_lt_iff le_rfl register.isLt)
  constructor
  · rintro ⟨v, digits, rfl, hv, hspells⟩
    obtain ⟨zeros, c, rfl, hc⟩ := (hdigits digits).mp hspells
    exact ⟨c, ⟨v, zeros, rfl, hv, _, hc⟩, hc⟩
  · rintro ⟨c, ⟨v, zeros, rfl, hv, _⟩, hc⟩
    exact ⟨v, _, rfl, hv, (hdigits _).mpr ⟨zeros, c, rfl, hc⟩⟩

/-- The digit of the register that is read is the last digit of the name. -/
theorem map_digit_eq_ok_iff :
    (parse token).map digit = .ok s ↔ ∃ c, IsName token.toList c ∧ s = c.toUpper := by
  rw [Encoding.map_eq_ok_iff]
  simp only [parse_eq_ok_iff, spells_iff_isName]
  constructor
  · rintro ⟨register, ⟨c, hname, hc⟩, rfl⟩
    exact ⟨c, hname, (toUpper_of_isDigit hc).symm⟩
  · rintro ⟨c, ⟨v, zeros, hcs, hv, d, hc⟩, rfl⟩
    exact ⟨⟨d, hc.1⟩, ⟨c, ⟨v, zeros, hcs, hv, d, hc⟩, hc⟩, (toUpper_of_isDigit hc).symm⟩

theorem isNumbered_iff : IsNumbered token.toList ↔
    Kind.ofToken token = .register ∧ hasDigitsOf 16 (token.toList.drop 1) = true := by
  rw [ofToken_eq_register_iff, hasDigitsOf_iff_isDigit le_rfl]
  constructor
  · rintro ⟨v, digits, hcs, hv, hdigits⟩
    rw [hcs]
    exact ⟨⟨v, digits, rfl, hv⟩, hdigits⟩
  · rintro ⟨⟨v, digits, hcs, hv⟩, hdigits⟩
    rw [hcs] at hdigits
    exact ⟨v, digits, hcs, hv, hdigits⟩

/-- What is not numbered is refused without a hint. -/
theorem parse_of_not_isNumbered (h : ¬IsNumbered token.toList) :
    parse token = .error ⟨.invalidRegister token, none, none, none⟩ := by
  rw [isNumbered_iff, not_and_or, Bool.not_eq_true] at h
  refine if_pos (h.imp_right fun hdigits => ?_)
  rw [hdigits]
  rfl

theorem parse_of_isNumbered (h : IsNumbered token.toList) :
    parse token = if hlt : valueOf 16 (token.toList.drop 1) < 16 then .ok ⟨_, hlt⟩
      else .error ⟨.invalidRegister token, none, none, some "registers are V0 to VF"⟩ := by
  obtain ⟨hkind, hdigits⟩ := isNumbered_iff.mp h
  refine if_neg (not_or.mpr ⟨not_not.mpr hkind, ?_⟩)
  rw [hdigits]
  exact Bool.false_ne_true

/-- A number without a register is refused with the range of registers. -/
theorem parse_of_no_name (h : IsNumbered token.toList) (hno : ∀ c, ¬IsName token.toList c) :
    parse token =
      .error ⟨.invalidRegister token, none, none, some "registers are V0 to VF"⟩ := by
  rw [parse_of_isNumbered h]
  refine dif_neg fun hlt => ?_
  have hparse : parse token = .ok ⟨_, hlt⟩ := (parse_of_isNumbered h).trans (dif_pos hlt)
  obtain ⟨c, hname, _⟩ := spells_iff_isName.mp (parse_eq_ok_iff.mp hparse)
  exact hno c hname

/-- Reading accepts the names of registers, and gives the last digit in upper case. It refuses every
other token by name, with the range of registers as a hint if and only if the token is numbered. -/
theorem parse_accepts_names_only (token : String) :
    (∀ s, (parse token).map digit = .ok s ↔ ∃ c, IsName token.toList c ∧ s = c.toUpper) ∧
    ∀ d, parse token = .error d ↔
      (∀ c, ¬IsName token.toList c) ∧ d.cause = .invalidRegister token ∧
        d.location = none ∧ d.sourceLine = none ∧
        (IsNumbered token.toList ∧ d.hint = some "registers are V0 to VF" ∨
          ¬IsNumbered token.toList ∧ d.hint = none) := by
  refine ⟨fun s => map_digit_eq_ok_iff, fun d => ⟨fun herror => ?_, ?_⟩⟩
  · have hno : ∀ c, ¬IsName token.toList c := by
      intro c hname
      have hread := map_digit_eq_ok_iff.mpr ⟨c, hname, rfl⟩
      rw [herror] at hread
      cases hread
    by_cases hnumbered : IsNumbered token.toList
    · rw [parse_of_no_name hnumbered hno] at herror
      cases herror
      exact ⟨hno, rfl, rfl, rfl, .inl ⟨hnumbered, rfl⟩⟩
    · rw [parse_of_not_isNumbered hnumbered] at herror
      cases herror
      exact ⟨hno, rfl, rfl, rfl, .inr ⟨hnumbered, rfl⟩⟩
  · obtain ⟨cause, location, sourceLine, hint⟩ := d
    rintro ⟨hno, rfl, rfl, rfl, ⟨hnumbered, rfl⟩ | ⟨hnumbered, rfl⟩⟩
    · exact parse_of_no_name hnumbered hno
    · exact parse_of_not_isNumbered hnumbered

end Register

end Chip8Asm
