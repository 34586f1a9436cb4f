import Mathlib
import Chip8Asm.Proofs.Spelling

/-! Numbers of a fixed width. A numeral that is normalized to a width is written by the low digits
of its value, one for each place. -/

namespace Chip8Asm

namespace Text

/-- The low `width` digits of a number, the highest first. -/
def lowDigits : Nat → Nat → List Char
  | 0, _ => []
  | width + 1, n => hexDigit (n / 16 ^ width % 16) :: lowDigits width n

@[simp] theorem length_lowDigits (width n : Nat) : (lowDigits width n).length = width := by
  induction width with
  | zero => rfl
  | succ width ih => simp [lowDigits, ih]

theorem lowDigits_succ (width n : Nat) :
    lowDigits (width + 1) n = lowDigits width (n / 16) ++ [hexDigit (n % 16)] := by
  induction width with
  | zero => simp [lowDigits]
  | succ width ih =>
    rw [lowDigits, ih, lowDigits, Nat.div_div_eq_div_mul, ← Nat.pow_succ', List.cons_append]

theorem lowDigits_zero (width : Nat) : lowDigits width 0 = List.replicate width '0' := by
  induction width with
  | zero => rfl
  | succ width ih => rw [lowDigits, ih, Nat.zero_div, List.replicate_succ]; rfl

theorem lowDigits_mod (width n : Nat) : lowDigits width (n % 16 ^ width) = lowDigits width n := by
  induction width generalizing n with
  | zero => rfl
  | succ width ih =>
    have hlast : n % 16 ^ (width + 1) % 16 = n % 16 :=
      Nat.mod_mod_of_dvd n (Dvd.intro_left _ (pow_succ 16 width).symm)
    have hrest : n % 16 ^ (width + 1) / 16 = n / 16 % 16 ^ width := by
      rw [pow_succ', Nat.mod_mul_right_div_self]
    rw [lowDigits_succ, lowDigits_succ, hlast, hrest, ih]

theorem hexDigits_of_lt (h : n < 16) : hexDigits n = [hexDigit n] := by
  rw [hexDigits, Nat.toDigits_of_lt_base h]
  rfl

theorem hexDigits_of_le (h : 16 ≤ n) : hexDigits n = hexDigits (n / 16) ++ [hexDigit (n % 16)] := by
  rw [hexDigits, Nat.toDigits_of_base_le (by decide) h, List.map_append]
  rfl

theorem leftpad_snoc (width : Nat) (a c : α) (l : List α) :
    (l ++ [c]).leftpad (width + 1) a = l.leftpad width a ++ [c] := by
  simp [List.leftpad]

/-- A number that fits into the width is padded to its low digits. -/
theorem toList_hexPadded (hw : 0 < width) (hn : n < 16 ^ width) :
    (hexPadded width n).toList = lowDigits width n := by
  rw [hexPadded, String.toList_ofList]
  induction width generalizing n with
  | zero => cases hw
  | succ width ih =>
    rw [lowDigits_succ]
    by_cases hsmall : n < 16
    · rw [hexDigits_of_lt hsmall, ← List.nil_append [hexDigit n], leftpad_snoc,
        Nat.div_eq_of_lt hsmall, Nat.mod_eq_of_lt hsmall, lowDigits_zero]
      simp [List.leftpad]
    · have hwide : 0 < width := by
        rcases width with _ | width
        · exact absurd hn hsmall
        · exact Nat.succ_pos width
      have hquotient : n / 16 < 16 ^ width := by
        rw [pow_succ] at hn
        exact Nat.div_lt_of_lt_mul (by rwa [mul_comm] at hn)
      rw [hexDigits_of_le (Nat.not_lt.mp hsmall), leftpad_snoc, ih hwide hquotient]

theorem hexDigit_mem (h : n < 16) : hexDigit n ∈ "0123456789ABCDEF".toList := by
  have hall : ∀ k < 16, hexDigit k ∈ "0123456789ABCDEF".toList := by decide
  exact hall n h

end Text

namespace Numeral

/-- A numeral normalizes to the low digits of its value. -/
theorem normalize_eq_ok_iff (hw : 0 < width) : normalize width token = .ok s ↔
    ∃ n, Spells token.toList n ∧ s = String.ofList (Text.lowDigits width n) := by
  have hdigits : ∀ n, Text.hexPadded width (n % Nat.pow 16 width) =
      String.ofList (Text.lowDigits width n) := by
    intro n
    have hlt : n % 16 ^ width < 16 ^ width := Nat.mod_lt _ (by positivity)
    rw [← Text.lowDigits_mod, ← Text.toList_hexPadded hw hlt, String.ofList_toList]
    rfl
  simp only [normalize, ← parse_eq_ok_iff, hdigits]
  cases parse token with
  | error fault => simp [Except.map]
  | ok n => simp [Except.map, eq_comm]

end Numeral

end Chip8Asm
