import Mathlib
import Chip8Asm.Proofs.DigitLimit

/-! The grammar of literals. A digit is a character with its place in one of two alphabets, and a
text of digits stands for its positional value (`Text.Positional`). A literal is a marking with
digits of its radix behind it, or digits alone (`Numeral.Literal`). Whatever the image of a token in
upper case may be, reading accepts the literals, stops at decimal literals that are too long, and
refuses all else. -/

namespace Chip8Asm

/-! ### Positional values -/

namespace Text

/-- The character is the digit of the value in a radix of at most sixteen, in either case. -/
def IsDigit (radix : Nat) (c : Char) (d : Nat) : Prop :=
  d < radix ∧
    ("0123456789ABCDEF".toList[d]? = some c ∨ "0123456789abcdef".toList[d]? = some c)

/-- A text of digits, the lowest last, and its positional value. The empty text stands for zero. -/
def Positional (radix : Nat) (cs : List Char) (n : Nat) : Prop :=
  ∃ ds, List.Forall₂ (IsDigit radix) cs.reverse ds ∧ n = Nat.ofDigits radix ds

theorem hexValue?_eq_some_iff : hexValue? c = some d ↔ IsDigit 16 c d := by
  constructor
  · intro h
    have hascii : c.toNat < 0x80 := ascii_of_isDigitOf (isDigitOf_iff.mpr ⟨d, h, d.lt_succ_self⟩)
    refine forall_ascii (P := fun c => ∀ d ∈ hexValue? c, IsDigit 16 c d) ?_ hascii d h
    unfold IsDigit
    decide
  · have hupper : ∀ d < 16, "0123456789ABCDEF".toList[d]?.map hexValue? = some (some d) := by decide
    have hlower : ∀ d < 16, "0123456789abcdef".toList[d]?.map hexValue? = some (some d) := by decide
    intro ⟨hd, hplace⟩
    rcases hplace with hplace | hplace
    · have hvalue := hupper d hd
      rw [hplace] at hvalue
      exact Option.some.inj hvalue
    · have hvalue := hlower d hd
      rw [hplace] at hvalue
      exact Option.some.inj hvalue

theorem isDigit_iff (hradix : radix ≤ 16) :
    IsDigit radix c d ↔ hexValue? c = some d ∧ d < radix := by
  rw [hexValue?_eq_some_iff]
  constructor
  · intro ⟨hd, hplace⟩
    exact ⟨⟨hd.trans_le hradix, hplace⟩, hd⟩
  · intro ⟨⟨_, hplace⟩, hd⟩
    exact ⟨hd, hplace⟩

theorem positional_nil_iff : Positional radix [] n ↔ n = 0 := by
  constructor
  · rintro ⟨ds, hdigits, rfl⟩
    cases hdigits
    rfl
  · rintro rfl
    exact ⟨[], .nil, rfl⟩

theorem positional_concat_iff : Positional radix (cs ++ [c]) n ↔
    ∃ m d, Positional radix cs m ∧ IsDigit radix c d ∧ n = m * radix + d := by
  have hvalue : ∀ d ds, Nat.ofDigits radix (d :: ds) = Nat.ofDigits radix ds * radix + d := by
    intro d ds
    rw [Nat.ofDigits_cons, Nat.mul_comm, Nat.add_comm]
  have hreverse : (cs ++ [c]).reverse = c :: cs.reverse := List.reverse_concat ..
  rw [Positional, hreverse]
  constructor
  · rintro ⟨_, hdigits, rfl⟩
    cases hdigits with
    | @cons _ d _ ds hd hdigits => exact ⟨_, d, ⟨ds, hdigits, rfl⟩, hd, hvalue d ds⟩
  · rintro ⟨_, d, ⟨ds, hdigits, rfl⟩, hd, rfl⟩
    exact ⟨d :: ds, .cons hd hdigits, (hvalue d ds).symm⟩

theorem positional_singleton_iff : Positional radix [c] n ↔ IsDigit radix c n := by
  rw [← List.nil_append [c], positional_concat_iff]
  simp [positional_nil_iff]

/-- A zero at the front counts for nothing. -/
theorem positional_zero_cons_iff (hpos : 0 < radix) (hradix : radix ≤ 16) :
    Positional radix ('0' :: cs) n ↔ Positional radix cs n := by
  induction cs using List.reverseRecOn generalizing n with
  | nil =>
    have hzero : hexValue? '0' = some 0 := rfl
    rw [positional_singleton_iff, positional_nil_iff, isDigit_iff hradix, hzero, Option.some.injEq]
    omega
  | append_singleton cs c ih =>
    rw [← List.cons_append, positional_concat_iff, positional_concat_iff]
    simp only [ih]

/-- Digits of a radix are read with their positional value. -/
theorem spells_iff_positional (hradix : radix ≤ 16) :
    Spells radix cs n ↔ cs ≠ [] ∧ Positional radix cs n := by
  constructor
  · intro h
    induction h with
    | digit hc hd =>
      exact ⟨List.cons_ne_nil _ _, positional_singleton_iff.mpr ((isDigit_iff hradix).mpr ⟨hc, hd⟩)⟩
    | snoc _ hc hd ih =>
      have hdigit := (isDigit_iff hradix).mpr ⟨hc, hd⟩
      exact ⟨List.concat_ne_nil _ _, positional_concat_iff.mpr ⟨_, _, ih.2, hdigit, rfl⟩⟩
  · rintro ⟨hne, h⟩
    induction cs using List.reverseRecOn generalizing n with
    | nil => exact (hne rfl).elim
    | append_singleton cs c ih =>
      obtain ⟨m, d, hm, hd, rfl⟩ := positional_concat_iff.mp h
      obtain ⟨hc, hd⟩ := (isDigit_iff hradix).mp hd
      by_cases hnil : cs = []
      · subst hnil
        obtain rfl := positional_nil_iff.mp hm
        simpa using Spells.digit hc hd
      · exact .snoc (ih hnil hm) hc hd

end Text

/-! ### Literals -/

namespace Numeral
open Text

/-- The literals and their values. -/
inductive Literal : List Char → Nat → Prop
  | hex : x = 'x' ∨ x = 'X' → cs ≠ [] → Positional 16 cs n → Literal ('0' :: x :: cs) n
  | binary : b = 'b' ∨ b = 'B' → cs ≠ [] → Positional 2 cs n → Literal ('0' :: b :: cs) n
  | legacy : cs ≠ [] → Positional 16 cs n → Literal ('$' :: cs) n
  | octal : Positional 8 cs n → Literal ('0' :: cs) n
  | decimal : c ≠ '0' → cs.length ≤ 4299 → Positional 10 (c :: cs) n → Literal (c :: cs) n

/-- A decimal literal but for the number of its digits. -/
def TooLong (cs : List Char) : Prop :=
  ∃ c rest n, cs = c :: rest ∧ c ≠ '0' ∧ 4299 < rest.length ∧ Positional 10 (c :: rest) n

theorem spells_iff_literal : Spells cs n ↔ Literal cs n := by
  constructor
  · intro h
    cases h with
    | hex hx h =>
      obtain ⟨hne, h⟩ := (spells_iff_positional le_rfl).mp h
      exact .hex hx hne h
    | binary hb h =>
      obtain ⟨hne, h⟩ := (spells_iff_positional (by decide)).mp h
      exact .binary hb hne h
    | legacy h =>
      obtain ⟨hne, h⟩ := (spells_iff_positional le_rfl).mp h
      exact .legacy hne h
    | octal h =>
      obtain ⟨-, h⟩ := (spells_iff_positional (by decide)).mp h
      exact .octal ((positional_zero_cons_iff (by decide) (by decide)).mp h)
    | decimal hc h hlength =>
      obtain ⟨-, h⟩ := (spells_iff_positional (by decide)).mp h
      exact .decimal hc (Nat.le_of_succ_le_succ hlength) h
  · intro h
    cases h with
    | hex hx hne h => exact .hex hx ((spells_iff_positional le_rfl).mpr ⟨hne, h⟩)
    | binary hb hne h => exact .binary hb ((spells_iff_positional (by decide)).mpr ⟨hne, h⟩)
    | legacy hne h => exact .legacy ((spells_iff_positional le_rfl).mpr ⟨hne, h⟩)
    | octal h =>
      have h := (positional_zero_cons_iff (by decide) (by decide)).mpr h
      exact .octal ((spells_iff_positional (by decide)).mpr ⟨List.cons_ne_nil _ _, h⟩)
    | decimal hc hlength h =>
      exact .decimal hc ((spells_iff_positional (by decide)).mpr ⟨List.cons_ne_nil _ _, h⟩)
        (Nat.succ_le_succ hlength)

theorem overlong_iff_tooLong : Overlong token ↔ TooLong token.toList := by
  constructor
  · intro ⟨hdigits, hfront, hlong⟩
    obtain ⟨hne, hvalue⟩ := (spells_iff_positional (by decide)).mp (spells_valueOf hdigits)
    obtain ⟨c, rest, hcs⟩ := List.exists_cons_of_ne_nil hne
    rw [← String.length_toList, hcs] at hlong
    rw [hcs] at hfront hvalue
    exact ⟨c, rest, _, hcs, by simpa using hfront, Nat.lt_of_succ_lt_succ hlong, hvalue⟩
  · intro ⟨c, rest, n, hcs, hc, hlong, hvalue⟩
    have hspells : Text.Spells 10 (c :: rest) n :=
      (spells_iff_positional (by decide)).mpr ⟨List.cons_ne_nil c rest, hvalue⟩
    refine ⟨hcs ▸ hspells.hasDigitsOf, ?_, ?_⟩
    · simpa [hcs] using hc
    · rw [← String.length_toList, hcs]
      exact Nat.succ_lt_succ hlong

theorem parse_of_tooLong (h : TooLong token.toList) :
    parse token = .error (.digitLimit token.length) :=
  parse_of_overlong (overlong_iff_tooLong.mpr h)

theorem parse_eq_ok_iff_literal : parse token = .ok n ↔ Literal token.toList n :=
  parse_eq_ok_iff.trans spells_iff_literal

theorem parse_of_no_literal (hlong : ¬TooLong token.toList) (hno : ∀ n, ¬Literal token.toList n) :
    parse token = .error (.ofCause (.invalidNumber token)) := by
  apply parse_of_not_spells
  · rwa [overlong_iff_tooLong]
  · intro n hn
    exact hno n (spells_iff_literal.mp hn)

/-- Reading accepts the literals with their values. It stops at a decimal literal of too many
digits, and refuses every other token by name. -/
theorem parse_accepts_literals_only (token : String) :
    (∀ n, parse token = .ok n ↔ Literal token.toList n) ∧
    ∀ fault, parse token = .error fault ↔
      TooLong token.toList ∧ fault = .digitLimit token.length ∨
      ¬TooLong token.toList ∧ (∀ n, ¬Literal token.toList n) ∧
        fault = .ofCause (.invalidNumber token) := by
  refine ⟨fun n => parse_eq_ok_iff_literal, fun fault => ⟨fun herror => ?_, ?_⟩⟩
  · by_cases hlong : TooLong token.toList
    · exact .inl ⟨hlong, Except.error.inj (herror.symm.trans (parse_of_tooLong hlong))⟩
    · have hno : ∀ n, ¬Literal token.toList n := by
        intro n hn
        rw [parse_eq_ok_iff_literal.mpr hn] at herror
        cases herror
      have hinvalid := parse_of_no_literal hlong hno
      exact .inr ⟨hlong, hno, Except.error.inj (herror.symm.trans hinvalid)⟩
  · rintro (⟨hlong, rfl⟩ | ⟨hlong, hno, rfl⟩)
    · exact parse_of_tooLong hlong
    · exact parse_of_no_literal hlong hno

end Numeral

end Chip8Asm
