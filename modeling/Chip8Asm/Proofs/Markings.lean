import Mathlib
import Chip8Asm.Proofs.LetterCase
import Chip8Asm.Proofs.LiteralGrammar

/-! The markings of tokens. The kind of a token is read off its image in upper case, while its
digits are cut from the token as it is written. The two do not come apart: the kind can be told from
the token as it is written (`Kind.ofMarking`), and the digits are what stands behind its marking. -/

namespace Chip8Asm

namespace Text

/-- Digits of a radix up to ten lie in a row. -/
theorem isDigitOf_iff_between (hradix : radix ≤ 10) (hlast : last.toNat = 47 + radix) :
    isDigitOf radix c = true ↔ '0' ≤ c ∧ c ≤ last := by
  have hzero : '0'.val.toNat = 48 := rfl
  have hnine : '9'.val.toNat = 57 := rfl
  have hupper : 'A'.val.toNat = 65 := rfl
  have hlower : 'a'.val.toNat = 97 := rfl
  have hcode : ∀ c : Char, c.toNat = c.val.toNat := fun _ => rfl
  simp only [isDigitOf_iff, hexValue?, Char.le_def, UInt32.le_iff_toNat_le, hcode] at hlast ⊢
  constructor
  · rintro ⟨d, hvalue, hd⟩
    split_ifs at hvalue <;> cases hvalue <;> omega
  · rintro ⟨hfirst, hc⟩
    rw [if_pos ⟨hfirst, by omega⟩]
    exact ⟨_, rfl, by omega⟩

theorem hasDigitsOf_iff_between (hradix : radix ≤ 10) (hlast : last.toNat = 47 + radix) :
    hasDigitsOf radix cs = true ↔ cs ≠ [] ∧ ∀ c ∈ cs, '0' ≤ c ∧ c ≤ last := by
  simp only [hasDigitsOf_iff, isDigitOf_iff_between hradix hlast]

end Text

namespace Kind
open Text

/-! ### Markings -/

/-- The markings as they may be written, with the kinds that they tell. -/
def markings : List (List Char × Kind) :=
  [(['0', 'x'], .hex), (['0', 'X'], .hex), (['0', 'b'], .binary), (['0', 'B'], .binary),
    (['$'], .legacy), (['v'], .register), (['V'], .register)]

def marking? (cs : List Char) : Option (List Char × Kind) :=
  markings.find? fun marking => marking.1.isPrefixOf cs

/-- The marking at the front of a text, empty if there is none. -/
def marking (cs : List Char) : List Char :=
  match marking? cs with
  | some (mark, _) => mark
  | none => []

/-- The kind of a text without a marking. -/
def ofPlain (cs : List Char) : Kind :=
  if cs ≠ [] ∧ ∀ c ∈ cs, '0' ≤ c ∧ c ≤ '9' then
    if cs.head? = some '0' then if ∀ c ∈ cs, '0' ≤ c ∧ c ≤ '7' then .octal else .invalid
    else .decimal
  else .invalid

/-- The kind of a text by its characters as they are written. -/
def ofMarking (cs : List Char) : Kind :=
  match marking? cs with
  | some (_, kind) => kind
  | none => ofPlain cs

/-- The number of characters in the markings of a kind. -/
def skip : Kind → Nat
  | .hex | .binary => 2
  | .legacy | .register => 1
  | .octal | .decimal | .invalid => 0

theorem mem_of_marking? (h : marking? cs = some m) : m ∈ markings ∧ m.1 <+: cs := by
  have hfront := List.find?_some h
  exact ⟨List.mem_of_find?_eq_some h, List.isPrefixOf_iff_prefix.mp hfront⟩

theorem marking_isPrefix (cs : List Char) : marking cs <+: cs := by
  unfold marking
  cases h : marking? cs with
  | none => exact List.nil_prefix
  | some m => exact (mem_of_marking? h).2

/-! ### The kind as it is written -/

theorem ofPrefix_of_marking? (h : marking? cs = some m) : ofPrefix cs = m.2 := by
  have htable : ∀ m ∈ markings, ∀ rest, ofPrefix (m.1 ++ rest) = m.2 := by
    simp [markings, ofPrefix]
  obtain ⟨hm, rest, rfl⟩ := mem_of_marking? h
  exact htable m hm rest

theorem ofPrefix_of_no_marking (h : marking? cs = none) : ofPrefix cs = ofDigits cs := by
  have hnone : ∀ m ∈ markings, ¬m.1 <+: cs := by
    intro m hm hfront
    exact List.find?_eq_none.mp h m hm (List.isPrefixOf_iff_prefix.mpr hfront)
  simp only [markings, List.forall_mem_cons] at hnone
  obtain ⟨hx, hX, hb, hB, hlegacy, hv, hV, -⟩ := hnone
  fun_cases ofPrefix cs with
  | case1 rest => exact (hx ⟨rest, rfl⟩).elim
  | case2 rest => exact (hX ⟨rest, rfl⟩).elim
  | case3 rest => exact (hb ⟨rest, rfl⟩).elim
  | case4 rest => exact (hB ⟨rest, rfl⟩).elim
  | case5 rest => exact (hlegacy ⟨rest, rfl⟩).elim
  | case6 rest => exact (hv ⟨rest, rfl⟩).elim
  | case7 rest => exact (hV ⟨rest, rfl⟩).elim
  | case8 => rfl

theorem ofPlain_eq (cs : List Char) : ofPlain cs = ofDigits cs := by
  have hten : hasDigitsOf 10 cs = true ↔ cs ≠ [] ∧ ∀ c ∈ cs, '0' ≤ c ∧ c ≤ '9' :=
    hasDigitsOf_iff_between le_rfl rfl
  have height : hasDigitsOf 8 cs = true ↔ cs ≠ [] ∧ ∀ c ∈ cs, '0' ≤ c ∧ c ≤ '7' :=
    hasDigitsOf_iff_between (by decide) rfl
  simp only [ofPlain, ofDigits, hten, height]
  by_cases hne : cs = [] <;> simp [hne]

/-- The kind of a token is told by its characters as they are written. -/
theorem ofToken_eq_ofMarking (token : String) : ofToken token = ofMarking token.toList := by
  rw [ofToken_eq, ofMarking]
  cases h : marking? token.toList with
  | none => exact (ofPrefix_of_no_marking h).trans (ofPlain_eq _).symm
  | some m => exact ofPrefix_of_marking? h

theorem ofMarking_upperChars (cs : List Char) : ofMarking (upperChars cs) = ofMarking cs := by
  have hkind : ∀ cs, ofMarking cs = ofUpper (upperChars cs) := by
    intro cs
    have hlist := ofToken_eq_ofMarking (String.ofList cs)
    rw [ofToken, String.toList_ofList] at hlist
    exact hlist.symm
  rw [hkind, hkind, upperChars_idem]

/-! ### The length of the marking -/

/-- The kind tells how long the marking is. -/
theorem length_marking (cs : List Char) : (marking cs).length = (ofMarking cs).skip := by
  have htable : ∀ m ∈ markings, m.1.length = m.2.skip := by decide
  unfold marking ofMarking
  cases h : marking? cs with
  | some m => exact htable m (mem_of_marking? h).1
  | none =>
    dsimp only
    rw [ofPlain_eq]
    rcases ofDigits_cases cs with ⟨_, _, hkind⟩ | ⟨_, _, hkind⟩ | ⟨_, hkind⟩ <;> rw [hkind] <;> rfl

theorem skip_of_radix? (h : radix? kind = some (n, radix)) : n = kind.skip ∧ radix ≤ 16 := by
  cases kind <;> cases h <;> exact ⟨rfl, by decide⟩

end Kind

/-! ### The digits behind the marking -/

theorem Register.parse_eq_ok_of_kind (h : Kind.ofToken token = .register) :
    parse token = .ok register ↔ Text.Spells 16 (token.toList.drop 1) register.val := by
  obtain ⟨v, digits, hcs, hv⟩ := ofToken_eq_register_iff.mp h
  rw [parse_eq_ok_iff, hcs]
  constructor
  · rintro ⟨_, _, hcons, _, hspells⟩
    obtain ⟨-, rfl⟩ := List.cons.inj hcons
    exact hspells
  · intro hspells
    exact ⟨v, digits, rfl, hv, hspells⟩

namespace Kind
open Text

/-- The kind of a token is told by its characters as they are written, and its marking is as long as
the one in its image. The number of characters that are cut from a numeral or a register is the
length of this marking, so that the digits behind the marking are read, no more and no fewer. -/
theorem digits_are_cut_behind_marking (token : String) :
    ofToken token = ofMarking token.toList ∧
    (marking (upperChars token.toList)).length = (marking token.toList).length ∧
    ∃ digits, token.toList = marking token.toList ++ digits ∧
      (∀ skip radix, (ofToken token).radix? = some (skip, radix) →
        skip = (marking token.toList).length ∧
        ∀ n, Numeral.parse token = .ok n ↔
          digits ≠ [] ∧ Positional radix digits n ∧ (radix = 10 → digits.length ≤ 4300)) ∧
      (ofToken token = .register →
        (marking token.toList).length = 1 ∧
        ∀ register : Register, Register.parse token = .ok register ↔
          digits ≠ [] ∧ Positional 16 digits register.val) := by
  have hkind := ofToken_eq_ofMarking token
  have hlength : (marking token.toList).length = (ofToken token).skip := by
    rw [hkind, length_marking]
  have himage : (marking (upperChars token.toList)).length = (marking token.toList).length := by
    rw [length_marking, length_marking, ofMarking_upperChars]
  have hcut := List.prefix_iff_eq_append.mp (marking_isPrefix token.toList)
  refine ⟨hkind, himage, _, hcut.symm, fun skip radix hradix => ?_, fun hregister => ?_⟩
  · obtain ⟨hskip, hsixteen⟩ := skip_of_radix? hradix
    refine ⟨hskip.trans hlength.symm, fun n => ?_⟩
    rw [Numeral.parse_eq_ok_of_radix hradix, spells_iff_positional hsixteen, hskip, hlength,
      and_assoc]
    rfl
  · rw [hregister] at hlength
    refine ⟨hlength, fun register => ?_⟩
    rw [Register.parse_eq_ok_of_kind hregister, spells_iff_positional le_rfl, hlength]
    rfl

/-- A numeral of three digits and a register, each with a marking in lower case. -/
theorem digits_are_cut_behind_lower_case :
    (ofToken "0b101").radix? = some (2, 2) ∧ (marking "0b101".toList).length = 2 ∧
      ofToken "vF" = .register ∧ (marking "vF".toList).length = 1 := by
  have hradix : (ofToken "0b101").radix? = some (2, 2) := by decide
  have hregister : ofToken "vF" = .register := by decide
  obtain ⟨_, _, _, _, hnumeral, _⟩ := digits_are_cut_behind_marking "0b101"
  obtain ⟨_, _, _, _, _, hname⟩ := digits_are_cut_behind_marking "vF"
  exact ⟨hradix, (hnumeral 2 2 hradix).1.symm, hregister, (hname hregister).1⟩

end Kind

end Chip8Asm
