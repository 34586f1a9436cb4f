import Mathlib.Data.List.Induction
import Chip8Asm.Numeral
import Chip8Asm.Proofs.UpperCase
import Chip8Asm.Register

/-! The spelling of numerals and registers. `Text.Spells`, `Register.Spells` and `Numeral.Spells`
say which texts stand for a number, whatever reads them; the readers accept exactly these texts. The
kind of a token is read off its image in upper case, yet it depends on its first characters
alone (`Kind.ofToken_eq`). -/

namespace Chip8Asm

/-! ### Digits -/

namespace Text

/-- A text of digits of a radix, at least one, and its positional value. -/
inductive Spells (radix : Nat) : List Char → Nat → Prop
  | digit : hexValue? c = some d → d < radix → Spells radix [c] d
  | snoc : Spells radix cs n → hexValue? c = some d → d < radix →
    Spells radix (cs ++ [c]) (n * radix + d)

theorem isDigitOf_iff : isDigitOf radix c = true ↔ ∃ d, hexValue? c = some d ∧ d < radix := by
  cases h : hexValue? c <;> simp [isDigitOf, h]

theorem hasDigitsOf_iff : hasDigitsOf radix cs = true ↔
    cs ≠ [] ∧ ∀ c ∈ cs, isDigitOf radix c = true := by
  simp [hasDigitsOf]

theorem valueOf_snoc (radix : Nat) (cs : List Char) (c : Char) :
    valueOf radix (cs ++ [c]) = valueOf radix cs * radix + (hexValue? c).getD 0 := by
  simp [valueOf]

theorem Spells.hasDigitsOf (h : Spells radix cs n) : hasDigitsOf radix cs = true := by
  induction h with
  | digit hc hd => exact hasDigitsOf_iff.mpr ⟨by simp, by simpa using isDigitOf_iff.mpr ⟨_, hc, hd⟩⟩
  | snoc _ hc hd ih =>
    have hlast := isDigitOf_iff.mpr ⟨_, hc, hd⟩
    obtain ⟨_, hdigits⟩ := hasDigitsOf_iff.mp ih
    refine hasDigitsOf_iff.mpr ⟨by simp, fun c hmem => ?_⟩
    rcases List.mem_append.mp hmem with hmem | hmem
    · exact hdigits c hmem
    · rwa [List.mem_singleton.mp hmem]

theorem Spells.valueOf_eq (h : Spells radix cs n) : valueOf radix cs = n := by
  induction h with
  | digit hc _ => simp [valueOf, hc]
  | snoc _ hc _ ih => simp [valueOf_snoc, ih, hc]

theorem spells_valueOf (h : hasDigitsOf radix cs = true) : Spells radix cs (valueOf radix cs) := by
  induction cs using List.reverseRecOn with
  | nil => simp [hasDigitsOf] at h
  | append_singleton cs c ih =>
    obtain ⟨_, hdigits⟩ := hasDigitsOf_iff.mp h
    obtain ⟨d, hc, hd⟩ := isDigitOf_iff.mp (hdigits c (by simp))
    rw [valueOf_snoc, hc, Option.getD_some]
    by_cases hnil : cs = []
    · subst hnil
      simpa [valueOf] using Spells.digit hc hd
    · exact .snoc (ih (hasDigitsOf_iff.mpr ⟨hnil, fun e he => hdigits e (by simp [he])⟩)) hc hd

theorem spells_iff : Spells radix cs n ↔ hasDigitsOf radix cs = true ∧ valueOf radix cs = n :=
  ⟨fun h => ⟨h.hasDigitsOf, h.valueOf_eq⟩, fun ⟨h, hn⟩ => hn ▸ spells_valueOf h⟩

theorem hasDigitsOf_mono (hr : radix ≤ radix') (h : hasDigitsOf radix cs = true) :
    hasDigitsOf radix' cs = true := by
  obtain ⟨hne, hdigits⟩ := hasDigitsOf_iff.mp h
  refine hasDigitsOf_iff.mpr ⟨hne, fun c hc => ?_⟩
  obtain ⟨d, hd, hlt⟩ := isDigitOf_iff.mp (hdigits c hc)
  exact isDigitOf_iff.mpr ⟨d, hd, Nat.lt_of_lt_of_le hlt hr⟩

theorem ascii_of_isDigitOf (h : isDigitOf radix c = true) : c.toNat < 0x80 := by
  obtain ⟨d, hd, _⟩ := isDigitOf_iff.mp h
  simp only [hexValue?, Char.le_def, UInt32.le_iff_toNat_le] at hd
  split at hd
  · rename_i hrange
    exact Nat.lt_of_le_of_lt hrange.2 (by decide)
  · split at hd
    · rename_i hrange
      exact Nat.lt_of_le_of_lt hrange.2 (by decide)
    · split at hd
      · rename_i hrange
        exact Nat.lt_of_le_of_lt hrange.2 (by decide)
      · cases hd

/-- Decimal digits are marks that upper-casing keeps. -/
theorem decimal_isMark (h : isDigitOf 10 c = true) : IsMark c ∧ c.toUpper = c :=
  forall_ascii (P := fun c => isDigitOf 10 c = true → IsMark c ∧ c.toUpper = c)
    (by decide) (ascii_of_isDigitOf h) h

theorem isDigitOf_toUpper {c : Char} (hc : c.toNat < 0x80) (h : isDigitOf 10 c.toUpper = true) :
    c.toUpper = c :=
  forall_ascii (P := fun c => isDigitOf 10 c.toUpper = true → c.toUpper = c) (by decide) hc h

theorem upperChars_of_decimal (h : ∀ c ∈ cs, isDigitOf 10 c = true) : upperChars cs = cs := by
  induction cs with
  | nil => rfl
  | cons c cs ih =>
    have hc := h c List.mem_cons_self
    rw [upperChars_cons, upperChar_of_ascii (ascii_of_isDigitOf hc), (decimal_isMark hc).2,
      ih fun e he => h e (List.mem_cons_of_mem _ he)]
    rfl

theorem decimal_of_upperChars (h : ∀ u ∈ upperChars cs, isDigitOf 10 u = true) :
    ∀ c ∈ cs, isDigitOf 10 c = true := by
  intro c hc
  obtain ⟨u, us, himage⟩ := List.exists_cons_of_ne_nil (upperChar_ne_nil c)
  have hmem : u ∈ upperChar c := himage ▸ List.mem_cons_self
  have hu := h u (List.mem_flatMap.mpr ⟨c, hc, hmem⟩)
  obtain ⟨hascii, rfl⟩ := (decimal_isMark hu).1.of_mem_upperChar hmem
  rwa [isDigitOf_toUpper hascii hu] at hu

end Text

/-! ### Kinds -/

namespace Kind
open Text

/-- The kind by the first characters as they are written. -/
def ofPrefix : List Char → Kind
  | '0' :: 'x' :: _ | '0' :: 'X' :: _ => .hex
  | '0' :: 'b' :: _ | '0' :: 'B' :: _ => .binary
  | '$' :: _ => .legacy
  | 'v' :: _ | 'V' :: _ => .register
  | cs => ofDigits cs

theorem ofDigits_upperChars (cs : List Char) : ofDigits (upperChars cs) = ofDigits cs := by
  by_cases h : hasDigitsOf 10 cs = true
  · rw [upperChars_of_decimal (hasDigitsOf_iff.mp h).2]
  · have hupper : ¬hasDigitsOf 10 (upperChars cs) = true := by
      intro hupper
      obtain ⟨hne, hdigits⟩ := hasDigitsOf_iff.mp hupper
      refine h (hasDigitsOf_iff.mpr ⟨?_, decimal_of_upperChars hdigits⟩)
      rintro rfl
      exact hne rfl
    simp [ofDigits, h, hupper]

theorem ofUpper_upperChars (cs : List Char) : ofUpper (upperChars cs) = ofPrefix cs := by
  have hzero : IsMark '0' := by decide
  generalize hupper : upperChars cs = us
  fun_cases ofUpper us with
  | case1 us =>
    obtain ⟨c, rest, rfl, rfl | rfl, hrest⟩ := hzero.of_upperChars_eq_cons hupper <;>
    · obtain ⟨x, rest, rfl, rfl | rfl, _⟩ :=
        IsMark.of_upperChars_eq_cons (d := 'X') (by decide) hrest.symm <;> rfl
  | case2 us =>
    obtain ⟨c, rest, rfl, rfl | rfl, hrest⟩ := hzero.of_upperChars_eq_cons hupper <;>
    · obtain ⟨x, rest, rfl, rfl | rfl, _⟩ :=
        IsMark.of_upperChars_eq_cons (d := 'B') (by decide) hrest.symm <;> rfl
  | case3 us =>
    obtain ⟨c, rest, rfl, rfl | rfl, _⟩ :=
      IsMark.of_upperChars_eq_cons (d := '$') (by decide) hupper <;> rfl
  | case4 us =>
    obtain ⟨c, rest, rfl, rfl | rfl, _⟩ :=
      IsMark.of_upperChars_eq_cons (d := 'V') (by decide) hupper <;> rfl
  | case5 us hhex hbinary hlegacy hregister =>
    rw [← hupper, ofDigits_upperChars]
    fun_cases ofPrefix cs with
    | case1 rest | case2 rest => exact (hhex (upperChars rest) hupper.symm).elim
    | case3 rest | case4 rest => exact (hbinary (upperChars rest) hupper.symm).elim
    | case5 rest => exact (hlegacy (upperChars rest) hupper.symm).elim
    | case6 rest | case7 rest => exact (hregister (upperChars rest) hupper.symm).elim
    | case8 => rfl

/-- Upper-casing gives no token another kind. -/
theorem ofToken_eq (token : String) : ofToken token = ofPrefix token.toList :=
  ofUpper_upperChars _

theorem ofPrefix_cases (cs : List Char) :
    (∃ x rest, cs = '0' :: x :: rest ∧ (x = 'x' ∨ x = 'X') ∧ ofPrefix cs = .hex) ∨
    (∃ b rest, cs = '0' :: b :: rest ∧ (b = 'b' ∨ b = 'B') ∧ ofPrefix cs = .binary) ∨
    (∃ rest, cs = '$' :: rest ∧ ofPrefix cs = .legacy) ∨
    (∃ v rest, cs = v :: rest ∧ (v = 'v' ∨ v = 'V') ∧ ofPrefix cs = .register) ∨
    ofPrefix cs = ofDigits cs := by
  fun_cases ofPrefix cs with
  | case1 rest | case2 rest => exact .inl ⟨_, rest, rfl, by decide, rfl⟩
  | case3 rest | case4 rest => exact .inr (.inl ⟨_, rest, rfl, by decide, rfl⟩)
  | case5 rest => exact .inr (.inr (.inl ⟨rest, rfl, rfl⟩))
  | case6 rest | case7 rest => exact .inr (.inr (.inr (.inl ⟨_, rest, rfl, by decide, rfl⟩)))
  | case8 => exact .inr (.inr (.inr (.inr rfl)))

theorem ofDigits_cases (cs : List Char) :
    hasDigitsOf 8 cs = true ∧ cs.head? = some '0' ∧ ofDigits cs = .octal ∨
    hasDigitsOf 10 cs = true ∧ cs.head? ≠ some '0' ∧ ofDigits cs = .decimal ∨
    (hasDigitsOf 10 cs = true → cs.head? = some '0' ∧ ¬hasDigitsOf 8 cs = true) ∧
      ofDigits cs = .invalid := by
  by_cases hten : hasDigitsOf 10 cs = true
  · by_cases hzero : cs.head? = some '0'
    · by_cases height : hasDigitsOf 8 cs = true
      · exact .inl ⟨height, hzero, by simp [ofDigits, hten, hzero, height]⟩
      · exact .inr (.inr ⟨fun _ => ⟨hzero, height⟩, by simp [ofDigits, hten, hzero, height]⟩)
    · exact .inr (.inl ⟨hten, hzero, by simp [ofDigits, hten, hzero]⟩)
  · exact .inr (.inr ⟨fun h => (hten h).elim, by simp [ofDigits, hten]⟩)

theorem ofDigits_ne_marked (cs : List Char) :
    ofDigits cs ≠ .hex ∧ ofDigits cs ≠ .binary ∧ ofDigits cs ≠ .legacy ∧
      ofDigits cs ≠ .register := by
  rcases ofDigits_cases cs with ⟨_, _, h⟩ | ⟨_, _, h⟩ | ⟨_, h⟩ <;> simp [h]

end Kind

/-! ### Numerals -/

namespace Numeral

/-- The spellings of a number. -/
inductive Spells : List Char → Nat → Prop
  | hex : x = 'x' ∨ x = 'X' → Text.Spells 16 cs n → Spells ('0' :: x :: cs) n
  | binary : b = 'b' ∨ b = 'B' → Text.Spells 2 cs n → Spells ('0' :: b :: cs) n
  | legacy : Text.Spells 16 cs n → Spells ('$' :: cs) n
  | octal : Text.Spells 8 ('0' :: cs) n → Spells ('0' :: cs) n
  | decimal : c ≠ '0' → Text.Spells 10 (c :: cs) n → (c :: cs).length ≤ maxDecimalDigits →
    Spells (c :: cs) n

theorem not_spells_of_mem (hmem : c ∈ cs) (hc : Text.isDigitOf radix c = false) :
    ¬Text.Spells radix cs n := by
  intro h
  have hdigit := (Text.hasDigitsOf_iff.mp h.hasDigitsOf).2 c hmem
  rw [hc] at hdigit
  contradiction

theorem spells_hex_iff (hx : x = 'x' ∨ x = 'X') :
    Spells ('0' :: x :: cs) n ↔ Text.Spells 16 cs n := by
  refine ⟨fun h => ?_, .hex hx⟩
  cases h with
  | hex _ h => exact h
  | binary hb _ => rcases hx with rfl | rfl <;> simp at hb
  | octal h =>
    refine (not_spells_of_mem (.tail _ (.head _)) ?_ h).elim
    rcases hx with rfl | rfl <;> decide
  | decimal hc => exact (hc rfl).elim

theorem spells_binary_iff (hb : b = 'b' ∨ b = 'B') :
    Spells ('0' :: b :: cs) n ↔ Text.Spells 2 cs n := by
  refine ⟨fun h => ?_, .binary hb⟩
  cases h with
  | hex hx _ => rcases hb with rfl | rfl <;> simp at hx
  | binary _ h => exact h
  | octal h =>
    refine (not_spells_of_mem (.tail _ (.head _)) ?_ h).elim
    rcases hb with rfl | rfl <;> decide
  | decimal hc => exact (hc rfl).elim

theorem spells_legacy_iff : Spells ('$' :: cs) n ↔ Text.Spells 16 cs n := by
  refine ⟨fun h => ?_, .legacy⟩
  cases h with
  | legacy h => exact h
  | decimal _ h => exact (not_spells_of_mem (.head _) (by decide) h).elim

theorem not_spells_register (hv : v = 'v' ∨ v = 'V') : ¬Spells (v :: cs) n := by
  intro h
  cases h with
  | hex | binary | legacy | octal => rcases hv with h | h <;> cases h
  | decimal _ h =>
    refine not_spells_of_mem (.head _) ?_ h
    rcases hv with rfl | rfl <;> decide

theorem parse_eq_ok_of_radix (h : (Kind.ofToken token).radix? = some (skip, radix)) :
    parse token = .ok n ↔ Text.Spells radix (token.toList.drop skip) n ∧
      (radix = 10 → (token.toList.drop skip).length ≤ maxDecimalDigits) := by
  rw [parse, h, Text.spells_iff]
  dsimp only
  generalize token.toList.drop skip = digits
  cases hdigits : Text.hasDigitsOf radix digits
  · simp
  · by_cases hlong : radix = 10 ∧ maxDecimalDigits < digits.length
    · simp [hlong]
    · have hshort : radix = 10 → digits.length ≤ maxDecimalDigits :=
        fun hten => Nat.not_lt.mp fun hlt => hlong ⟨hten, hlt⟩
      simpa [hlong] using fun _ => hshort

/-- In a text without a marking, a zero at the front decides between octal and decimal. -/
theorem spells_plain_iff (hplain : Kind.ofPrefix cs = Kind.ofDigits cs) :
    Spells cs n ↔ cs.head? = some '0' ∧ Text.Spells 8 cs n ∨
      cs.head? ≠ some '0' ∧ Text.Spells 10 cs n ∧ cs.length ≤ maxDecimalDigits := by
  obtain ⟨hhex, hbinary, hlegacy, _⟩ := Kind.ofDigits_ne_marked cs
  constructor
  · intro hspells
    cases hspells with
    | hex hx _ => rcases hx with rfl | rfl <;> exact (hhex hplain.symm).elim
    | binary hb _ => rcases hb with rfl | rfl <;> exact (hbinary hplain.symm).elim
    | legacy => exact (hlegacy hplain.symm).elim
    | octal h => exact .inl ⟨rfl, h⟩
    | decimal hc h hlength => exact .inr ⟨by simpa using hc, h, hlength⟩
  · rintro (⟨hhead, h⟩ | ⟨hhead, h, hlength⟩)
    · obtain ⟨rest, rfl⟩ := List.head?_eq_some_iff.mp hhead
      exact .octal h
    · cases cs with
      | nil => simp [Text.spells_iff, Text.hasDigitsOf] at h
      | cons c rest => exact .decimal (by simpa using hhead) h hlength

/-- Reading accepts the spellings of numbers and nothing else. -/
theorem parse_eq_ok_iff : parse token = .ok n ↔ Spells token.toList n := by
  have hkind := Kind.ofToken_eq token
  rcases Kind.ofPrefix_cases token.toList with
    ⟨x, rest, hcs, hx, h⟩ | ⟨b, rest, hcs, hb, h⟩ | ⟨rest, hcs, h⟩ | ⟨v, rest, hcs, hv, h⟩ | h
  · rw [parse_eq_ok_of_radix (by rw [hkind, h]; rfl), hcs, spells_hex_iff hx]
    simp
  · rw [parse_eq_ok_of_radix (by rw [hkind, h]; rfl), hcs, spells_binary_iff hb]
    simp
  · rw [parse_eq_ok_of_radix (by rw [hkind, h]; rfl), hcs, spells_legacy_iff]
    simp
  · rw [parse, hkind, h, hcs]
    simpa [Kind.radix?] using not_spells_register hv
  · rw [spells_plain_iff h]
    rcases Kind.ofDigits_cases token.toList with
      ⟨_, hzero, hd⟩ | ⟨_, hzero, hd⟩ | ⟨hinvalid, hd⟩
    · rw [parse_eq_ok_of_radix (by rw [hkind, h, hd]; rfl)]
      simp [hzero]
    · rw [parse_eq_ok_of_radix (by rw [hkind, h, hd]; rfl)]
      simp [hzero]
    · rw [parse, hkind, h, hd]
      simp only [Kind.radix?, reduceCtorEq, false_iff, not_or, not_and]
      refine ⟨fun hzero hoctal => ?_, fun hzero hdecimal _ => ?_⟩
      · have hten := Text.hasDigitsOf_mono (by decide : 8 ≤ 10) hoctal.hasDigitsOf
        exact (hinvalid hten).2 hoctal.hasDigitsOf
      · exact hzero (hinvalid hdecimal.hasDigitsOf).1

end Numeral

/-! ### Registers -/

namespace Register

/-- The spellings of a register. -/
def Spells (cs : List Char) (register : Register) : Prop :=
  ∃ v digits, cs = v :: digits ∧ (v = 'v' ∨ v = 'V') ∧ Text.Spells 16 digits register.val

theorem ofToken_eq_register_iff : Kind.ofToken token = .register ↔
    ∃ v rest, token.toList = v :: rest ∧ (v = 'v' ∨ v = 'V') := by
  rw [Kind.ofToken_eq]
  constructor
  · intro h
    rcases Kind.ofPrefix_cases token.toList with
      ⟨_, _, _, _, hk⟩ | ⟨_, _, _, _, hk⟩ | ⟨_, _, hk⟩ | ⟨v, rest, hcs, hv, _⟩ | hk
    · simp [hk] at h
    · simp [hk] at h
    · simp [hk] at h
    · exact ⟨v, rest, hcs, hv⟩
    · exact ((Kind.ofDigits_ne_marked _).2.2.2 (hk.symm.trans h)).elim
  · rintro ⟨v, rest, hcs, rfl | rfl⟩ <;> rw [hcs] <;> rfl

/-- Reading accepts the spellings of registers and nothing else. -/
theorem parse_eq_ok_iff : parse token = .ok register ↔ Spells token.toList register := by
  constructor
  · intro h
    simp only [parse] at h
    split at h
    · cases h
    · rename_i hshape
      simp only [ne_eq, Bool.not_eq_eq_eq_not, Bool.not_true, not_or, not_not,
        Bool.not_eq_false] at hshape
      obtain ⟨v, rest, hcs, hv⟩ := ofToken_eq_register_iff.mp hshape.1
      rw [hcs, List.drop_one, List.tail_cons] at hshape h
      split at h
      · obtain rfl := Except.ok.inj h
        exact ⟨v, rest, hcs, hv, Text.spells_valueOf hshape.2⟩
      · cases h
  · rintro ⟨v, digits, hcs, hv, hspells⟩
    have hkind := ofToken_eq_register_iff.mpr ⟨v, digits, hcs, hv⟩
    obtain ⟨hdigits, hvalue⟩ := Text.spells_iff.mp hspells
    simp [parse, hkind, hcs, hdigits, hvalue]

end Register

end Chip8Asm
