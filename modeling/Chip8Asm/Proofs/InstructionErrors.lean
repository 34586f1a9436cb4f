import Mathlib
import Chip8Asm.Proofs.DigitLimit

/-! What the encoder complains about in an instruction. It looks at the base of a jump with an
offset, then chooses a form, then reads the operands from left to right. The first of these stages
that fails decides, and in the last one the leftmost operand that does not fit its place
(`Encoding.Complaint`). -/

namespace Chip8Asm

theorem Register.cause_of_parse (h : parse token = .error d) :
    d.cause = .invalidRegister token := by
  simp only [parse] at h
  split at h
  · cases h
    rfl
  · split at h
    · cases h
    · cases h
      rfl

theorem Register.exists_error (hno : ∀ r, ¬Spells token.toList r) :
    ∃ d, parse token = .error d ∧ d.cause = .invalidRegister token := by
  cases hparse : parse token with
  | ok r => exact (hno r (parse_eq_ok_iff.mp hparse)).elim
  | error d => exact ⟨d, rfl, cause_of_parse hparse⟩

namespace Encoding

variable {labels : List Label} {operands : List String}

/-! ### The base of a jump -/

/-- What is wrong with the first operand of a jump with an offset. -/
inductive BadBase (first : String) : Cause → Prop
  | shape : Shape.ofToken first ≠ .register → BadBase first (.illegalOperand "JP" first)
  | other : Register.Spells first.toList r → r ≠ 0 → BadBase first (.illegalOperand "JP" first)
  | malformed : Shape.ofToken first = .register → (∀ r, ¬Register.Spells first.toList r) →
      BadBase first (.invalidRegister first)

/-- If the instruction is a jump with an offset, then nothing is wrong with its base. -/
def GoodBase (mnemonic : String) (operands : List String) : Prop :=
  mnemonic = "JP" → ∀ first second, operands = [first, second] → ∀ cause, ¬BadBase first cause

theorem badBase_of_checkOffset (h : checkOffset "JP" first = .error d) :
    BadBase first d.cause := by
  unfold checkOffset at h
  split at h
  · rename_i hshape
    cases h
    exact .shape hshape
  · rename_i hshape
    cases hparse : Register.parse first with
    | ok r =>
      have hspells := Register.parse_eq_ok_iff.mp hparse
      simp only [hparse] at h
      split at h
      · cases h
      · rename_i hne
        cases h
        exact .other hspells fun hzero => hne (congrArg Fin.val hzero)
    | error d' =>
      simp only [hparse, Except.error.injEq] at h
      subst h
      rw [Register.cause_of_parse hparse]
      apply BadBase.malformed (not_not.mp hshape)
      intro r hr
      rw [Register.parse_eq_ok_iff.mpr hr] at hparse
      cases hparse

theorem BadBase.exists_error (h : BadBase first cause) (second : String) :
    ∃ d, checkJump "JP" [first, second] = .error d ∧ d.cause = cause := by
  have hjump : checkJump "JP" [first, second] = checkOffset "JP" first := by
    rw [checkJump, if_pos rfl]
  rw [hjump]
  cases h with
  | shape hshape => exact ⟨_, if_pos hshape, rfl⟩
  | @other r hspells hne =>
    have hparse : Register.parse first = .ok r := Register.parse_eq_ok_iff.mpr hspells
    have hargument : Argument.Spells first (.register r) := hspells
    have hval : r.val ≠ 0 := fun hval => hne (Fin.ext hval)
    refine ⟨.ofCause (.illegalOperand "JP" first), ?_, rfl⟩
    simp [checkOffset, hargument.shape_eq, Argument.shape, hparse, hval]
  | malformed hshape hno =>
    obtain ⟨d, hparse, hcause⟩ := Register.exists_error hno
    refine ⟨d, ?_, hcause⟩
    simp [checkOffset, hshape, hparse]

theorem badBase_of_checkJump (h : checkJump mnemonic operands = .error d) :
    mnemonic = "JP" ∧ ∃ first second, operands = [first, second] ∧ BadBase first d.cause := by
  unfold checkJump at h
  split at h
  · rename_i first second
    split at h
    · rename_i hjump
      subst hjump
      exact ⟨rfl, first, second, rfl, badBase_of_checkOffset h⟩
    · cases h
  · cases h

theorem checkJump_eq_ok_iff_goodBase :
    checkJump mnemonic operands = .ok () ↔ GoodBase mnemonic operands := by
  refine ⟨fun hok hjp first second hoperands cause hbad => ?_, fun hgood => ?_⟩
  · subst hjp hoperands
    obtain ⟨d, hjump, _⟩ := hbad.exists_error second
    rw [hjump] at hok
    cases hok
  · cases hjump : checkJump mnemonic operands with
    | ok _ => rfl
    | error d =>
      obtain ⟨hjp, first, second, hoperands, hbad⟩ := badBase_of_checkJump hjump
      exact (hgood hjp first second hoperands _ hbad).elim

/-! ### The choice of a form -/

/-- The form is the one that the instruction is read by. -/
def Selects (mnemonic : String) (operands : List String) (form : Form) : Prop :=
  Instruction.lookup? mnemonic (operands.map Shape.ofToken) = some form ∨
    Instruction.lookup? mnemonic (operands.map Shape.ofToken) = none ∧
      Instruction.formsWith mnemonic operands.length = [form]

theorem selectForm_eq_ok_iff_selects : selectForm mnemonic operands = .ok form ↔
    GoodBase mnemonic operands ∧ Selects mnemonic operands form :=
  selectForm_eq_ok_iff.trans (and_congr_left' checkJump_eq_ok_iff_goodBase)

theorem selectForm_error_cases (h : selectForm mnemonic operands = .error d) :
    checkJump mnemonic operands = .error d ∨
      GoodBase mnemonic operands ∧
        Instruction.lookup? mnemonic (operands.map Shape.ofToken) = none ∧
        (Instruction.formsWith mnemonic operands.length).length ≠ 1 ∧
        d.cause = .unknownInstruction mnemonic := by
  unfold selectForm at h
  cases hjump : checkJump mnemonic operands with
  | error d' =>
    rw [hjump] at h
    exact .inl (congrArg Except.error (Except.error.inj h))
  | ok u =>
    cases hlookup : Instruction.lookup? mnemonic (operands.map Shape.ofToken) with
    | some found => simp [hjump, hlookup] at h
    | none =>
      simp only [hjump, hlookup] at h
      split at h
      · cases h
      · rename_i hforms
        cases h
        refine .inr ⟨checkJump_eq_ok_iff_goodBase.mp hjump, rfl, ?_, rfl⟩
        intro hlength
        obtain ⟨form, hform⟩ := List.length_eq_one_iff.mp hlength
        exact hforms form hform

theorem exists_error_of_lookup?_eq_none (hbase : GoodBase mnemonic operands)
    (hlookup : Instruction.lookup? mnemonic (operands.map Shape.ofToken) = none)
    (hforms : (Instruction.formsWith mnemonic operands.length).length ≠ 1) :
    ∃ d, selectForm mnemonic operands = .error d ∧ d.cause = .unknownInstruction mnemonic := by
  cases hselect : selectForm mnemonic operands with
  | ok form =>
    rcases (selectForm_eq_ok_iff_selects.mp hselect).2 with hsome | ⟨_, hform⟩
    · rw [hlookup] at hsome
      cases hsome
    · rw [hform] at hforms
      exact (hforms rfl).elim
  | error d =>
    rcases selectForm_error_cases hselect with hjump | ⟨_, _, _, hcause⟩
    · rw [checkJump_eq_ok_iff_goodBase.mpr hbase] at hjump
      cases hjump
    · exact ⟨d, rfl, hcause⟩

/-! ### Operands in their places -/

/-- A token that may have been meant for the name of a label. -/
def LooksLikeName (token : String) : Prop :=
  Kind.ofToken token = .invalid ∧ ∃ c rest, token.toList = c :: rest ∧ Text.isLetter c = true

theorem looksLikeLabel_iff :
    looksLikeLabel width token = true ↔ width = 3 ∧ LooksLikeName token := by
  have hfront : token.toList.head?.any Text.isLetter = true ↔
      ∃ c rest, token.toList = c :: rest ∧ Text.isLetter c = true := by
    cases token.toList <;> simp
  rw [looksLikeLabel, Bool.and_eq_true, Bool.and_eq_true, hfront, beq_iff_eq, beq_iff_eq, and_assoc]
  rfl

/-- What is wrong with a token in a place of the shape, where an immediate has so many digits. -/
inductive Misfit (labels : List Label) (width : Nat) (token : String) : Shape → Cause → Prop
  | register : (∀ r, ¬Register.Spells token.toList r) →
      Misfit labels width token .register (.invalidRegister token)
  | label : (∀ n, ¬Numeral.Spells token.toList n) → width = 3 → LooksLikeName token →
      Misfit labels width token .immediate
        (.unknownLabel token (Text.similarNames token (labels.map Label.name)))
  | number : (∀ n, ¬Numeral.Spells token.toList n) → ¬(width = 3 ∧ LooksLikeName token) →
      Misfit labels width token .immediate (.invalidNumber token)

theorem Misfit.not_fits (h : Misfit labels width token shape cause) : ¬shape.Fits token := by
  intro hfits
  cases h with
  | register hno | label hno _ _ | number hno _ =>
    obtain ⟨value, hvalue⟩ := hfits
    exact hno value hvalue

theorem Misfit.unique (h : Misfit labels width token shape cause)
    (h' : Misfit labels width token shape cause') : cause = cause' := by
  cases h with
  | register _ =>
    cases h'
    rfl
  | label _ hwidth hname =>
    cases h' with
    | label _ _ _ => rfl
    | number _ hneither => exact (hneither ⟨hwidth, hname⟩).elim
  | number _ hneither =>
    cases h' with
    | label _ hwidth hname => exact (hneither ⟨hwidth, hname⟩).elim
    | number _ _ => rfl

theorem readImmediate_of_invalid
    (h : Numeral.parse token = .error (.ofCause (.invalidNumber token))) :
    readImmediate labels width token =
      .error (.diagnostic (if looksLikeLabel width token then unknownLabel labels token
        else .ofCause (.invalidNumber token))) := by
  have hnormal : Numeral.normalize width token =
      .error (.diagnostic (.ofCause (.invalidNumber token))) := map_eq_error_iff.mpr h
  rw [readImmediate, hnormal]
  dsimp only
  split <;> rfl

theorem exists_misfit {shape : Shape} (hshort : ¬Numeral.Overlong token)
    (hno : ¬shape.Fits token) :
    ∃ d, placeFault? labels width (token, shape) = some (.diagnostic d) ∧
      Misfit labels width token shape d.cause := by
  cases shape with
  | register =>
    have hnone : ∀ r, ¬Register.Spells token.toList r := not_exists.mp hno
    obtain ⟨d, hparse, hcause⟩ := Register.exists_error hnone
    refine ⟨d, by simp only [placeFault?, hparse], ?_⟩
    rw [hcause]
    exact .register hnone
  | immediate =>
    have hnone : ∀ n, ¬Numeral.Spells token.toList n := not_exists.mp hno
    have hparse := Numeral.parse_of_not_spells hshort hnone
    refine ⟨_, by simp only [placeFault?, readImmediate_of_invalid hparse]; rfl, ?_⟩
    by_cases hlabel : looksLikeLabel width token = true
    · obtain ⟨hwidth, hname⟩ := looksLikeLabel_iff.mp hlabel
      rw [if_pos hlabel]
      exact .label hnone hwidth hname
    · rw [if_neg hlabel]
      exact .number hnone (mt looksLikeLabel_iff.mpr hlabel)
  | reserved r => exact (hno trivial).elim

theorem misfit_of_placeFault? {shape : Shape}
    (h : placeFault? labels width (token, shape) = some (.diagnostic d)) :
    Misfit labels width token shape d.cause := by
  have hno : ¬shape.Fits token := by
    intro hfits
    rw [placeFault?_eq_none_iff.mpr hfits] at h
    cases h
  cases shape with
  | register =>
    have hnone : ∀ r, ¬Register.Spells token.toList r := not_exists.mp hno
    obtain ⟨e, hparse, hcause⟩ := Register.exists_error hnone
    simp only [placeFault?, hparse, Option.some.injEq, Fault.diagnostic.injEq] at h
    rw [← h, hcause]
    exact .register hnone
  | immediate =>
    have hshort : ¬Numeral.Overlong token := by
      intro hlong
      rw [placeFault?_of_overlong hlong] at h
      cases h
    obtain ⟨e, hfault, hmisfit⟩ := exists_misfit hshort hno
    rw [hfault] at h
    cases h
    exact hmisfit
  | reserved r => exact (hno trivial).elim

/-! ### Instructions -/

/-- What is wrong with an instruction. -/
inductive Complaint (labels : List Label) (mnemonic : String) (operands : List String) :
    Cause → Prop
  | base : mnemonic = "JP" → operands = [first, second] → BadBase first cause →
      Complaint labels mnemonic operands cause
  | unknown : GoodBase mnemonic operands →
      Instruction.lookup? mnemonic (operands.map Shape.ofToken) = none →
      (Instruction.formsWith mnemonic operands.length).length ≠ 1 →
      Complaint labels mnemonic operands (.unknownInstruction mnemonic)
  | operand : GoodBase mnemonic operands → Selects mnemonic operands form →
      operands.zip form.shapes = before ++ (token, shape) :: after →
      (∀ place ∈ before, place.2.Fits place.1) →
      Misfit labels form.immediateWidth token shape cause →
      Complaint labels mnemonic operands cause

theorem complaint_of_selectForm (h : selectForm mnemonic operands = .error d) :
    Complaint labels mnemonic operands d.cause := by
  rcases selectForm_error_cases h with hjump | ⟨hbase, hlookup, hforms, hcause⟩
  · obtain ⟨hjp, first, second, hoperands, hbad⟩ := badBase_of_checkJump hjump
    exact .base hjp hoperands hbad
  · rw [hcause]
    exact .unknown hbase hlookup hforms

theorem encodeInstruction_of_selectForm_error (h : selectForm mnemonic operands = .error d) :
    encodeInstruction labels (mnemonic :: operands) = .error (.diagnostic d) := by
  rw [encodeInstruction, h]

theorem encodeInstruction_error_iff (h : selectForm mnemonic operands = .ok form) :
    encodeInstruction labels (mnemonic :: operands) = .error fault ↔
      (operands.zip form.shapes).findSome? (placeFault? labels form.immediateWidth) =
        some fault := by
  rw [encodeInstruction, h]
  exact map_eq_error_iff.trans readOperands_error_iff

theorem mem_of_zip_eq {before after : List (String × Shape)}
    (h : operands.zip shapes = before ++ (token, shape) :: after) : token ∈ operands := by
  have hzip : (token, shape) ∈ operands.zip shapes := by simp [h]
  exact (List.of_mem_zip hzip).1

theorem exists_complaint (hshort : ∀ token ∈ operands, ¬Numeral.Overlong token)
    (h : encodeInstruction labels (mnemonic :: operands) = .error fault) :
    ∃ d, fault = .diagnostic d ∧ Complaint labels mnemonic operands d.cause := by
  cases hselect : selectForm mnemonic operands with
  | error d =>
    rw [encodeInstruction_of_selectForm_error hselect] at h
    exact ⟨d, (Except.error.inj h).symm, complaint_of_selectForm hselect⟩
  | ok form =>
    obtain ⟨hbase, hform⟩ := selectForm_eq_ok_iff_selects.mp hselect
    obtain ⟨before, ⟨token, shape⟩, after, hsplit, hplace, hbefore⟩ :=
      List.findSome?_eq_some_iff.mp ((encodeInstruction_error_iff hselect).mp h)
    have hno : ¬shape.Fits token := by
      intro hfits
      rw [placeFault?_eq_none_iff.mpr hfits] at hplace
      cases hplace
    have hmem := mem_of_zip_eq hsplit
    obtain ⟨d, hfault, hmisfit⟩ := exists_misfit (hshort token hmem) hno
    rw [hfault] at hplace
    refine ⟨d, (Option.some.inj hplace).symm, .operand hbase hform hsplit ?_ hmisfit⟩
    intro place hplace
    exact placeFault?_eq_none_iff.mp (hbefore place hplace)

theorem Complaint.exists_error (hshort : ∀ token ∈ operands, ¬Numeral.Overlong token)
    (h : Complaint labels mnemonic operands cause) :
    ∃ d, encodeInstruction labels (mnemonic :: operands) = .error (.diagnostic d) ∧
      d.cause = cause := by
  cases h with
  | @base first second _ hjp hoperands hbad =>
    subst hjp hoperands
    obtain ⟨d, hjump, hcause⟩ := hbad.exists_error second
    have hselect : selectForm "JP" [first, second] = .error d := by rw [selectForm, hjump]
    exact ⟨d, encodeInstruction_of_selectForm_error hselect, hcause⟩
  | unknown hbase hlookup hforms =>
    obtain ⟨d, hselect, hcause⟩ := exists_error_of_lookup?_eq_none hbase hlookup hforms
    exact ⟨d, encodeInstruction_of_selectForm_error hselect, hcause⟩
  | @operand form before token shape after _ hbase hform hsplit hbefore hmisfit =>
    have hselect := selectForm_eq_ok_iff_selects.mpr ⟨hbase, hform⟩
    have hmem := mem_of_zip_eq hsplit
    obtain ⟨d, hfault, hmisfit'⟩ := exists_misfit (hshort token hmem) hmisfit.not_fits
    -- a token has one misfit in its place, so the fault that is found there is this one
    refine ⟨d, (encodeInstruction_error_iff hselect).mpr ?_, hmisfit'.unique hmisfit⟩
    refine List.findSome?_eq_some_iff.mpr ⟨before, (token, shape), after, hsplit, hfault, ?_⟩
    intro place hplace
    exact placeFault?_eq_none_iff.mpr (hbefore place hplace)

/-- A complaint about replaced tokens is one about the form of an instruction, or about a token that
does not fit its place. -/
theorem encodeReplaced_error_cases (h : encodeReplaced labels tokens = .error (.diagnostic d)) :
    (∃ mnemonic operands, tokens = mnemonic :: operands ∧
      selectForm mnemonic operands = .error d) ∨
    ∃ token ∈ tokens, ∃ width shape, Misfit labels width token shape d.cause := by
  have hplaces : ∀ {places : List (String × Shape)} {width}, (∀ place ∈ places, place.1 ∈ tokens) →
      places.findSome? (placeFault? labels width) = some (.diagnostic d) →
      ∃ token ∈ tokens, ∃ width shape, Misfit labels width token shape d.cause := by
    intro places width hmem hfound
    obtain ⟨⟨token, shape⟩, hplace, hfault⟩ := List.exists_of_findSome?_eq_some hfound
    exact ⟨token, hmem _ hplace, width, shape, misfit_of_placeFault? hfault⟩
  cases tokens with
  | nil => cases h
  | cons head rest =>
    by_cases hnumeric : (Kind.ofToken head).isNumeric = true
    · rw [encodeReplaced, if_pos hnumeric, encodeData_error_iff labels] at h
      refine .inr (hplaces (fun place hplace => ?_) h)
      obtain ⟨token, htoken, rfl⟩ := List.mem_map.mp hplace
      exact htoken
    · rw [encodeReplaced, if_neg hnumeric] at h
      cases hselect : selectForm head rest with
      | error e =>
        rw [encodeInstruction_of_selectForm_error hselect] at h
        obtain rfl : e = d := Fault.diagnostic.inj (Except.error.inj h)
        exact .inl ⟨head, rest, rfl, hselect⟩
      | ok form =>
        rw [encodeInstruction_error_iff hselect] at h
        exact .inr (hplaces (fun place hplace => .tail _ (List.of_mem_zip hplace).1) h)

/-- An instruction that is not encoded fails with a diagnostic, and this is the complaint that there
is about the instruction. -/
theorem encodeInstruction_error_is_complaint (labels : List Label) (mnemonic : String)
    (operands : List String)
    (hshort : ∀ token ∈ mnemonic :: operands, ¬Numeral.Overlong token) :
    (∀ fault, encodeInstruction labels (mnemonic :: operands) = .error fault →
      ∃ d, fault = .diagnostic d) ∧
    ∀ cause, (∃ d, encodeInstruction labels (mnemonic :: operands) = .error (.diagnostic d) ∧
      d.cause = cause) ↔ Complaint labels mnemonic operands cause := by
  have hoperands : ∀ token ∈ operands, ¬Numeral.Overlong token :=
    fun token hmem => hshort token (.tail _ hmem)
  refine ⟨fun fault herror => ?_, fun cause => ⟨?_, fun h => h.exists_error hoperands⟩⟩
  · obtain ⟨d, hfault, _⟩ := exists_complaint hoperands herror
    exact ⟨d, hfault⟩
  · intro ⟨d, herror, hcause⟩
    obtain ⟨_, hfault, hcomplaint⟩ := exists_complaint hoperands herror
    cases hfault
    rwa [← hcause]

theorem complaint_about_misspelt_label :
    let labels : List Label := [{ name := "LOOPS" }]
    (∀ token ∈ ["JP", "V0", "LOOP"], ¬Numeral.Overlong token) ∧
      encodeInstruction labels ["JP", "V0", "LOOP"] =
        .error (.ofCause (.unknownLabel "LOOP" ["LOOPS"])) ∧
      Complaint labels "JP" ["V0", "LOOP"] (.unknownLabel "LOOP" ["LOOPS"]) := by
  intro labels
  have hshort : ∀ token ∈ ["JP", "V0", "LOOP"], ¬Numeral.Overlong token := by
    have hdigits : ∀ token ∈ ["JP", "V0", "LOOP"], Text.hasDigitsOf 10 token.toList = false := by
      decide
    intro token hmem hlong
    have hdecimal := hlong.digits
    rw [hdigits token hmem] at hdecimal
    cases hdecimal
  have herror : encodeInstruction labels ["JP", "V0", "LOOP"] =
      .error (.ofCause (.unknownLabel "LOOP" ["LOOPS"])) := by decide +kernel
  have hcomplaint := (encodeInstruction_error_is_complaint labels "JP" ["V0", "LOOP"] hshort).2
  exact ⟨hshort, herror, (hcomplaint _).mp ⟨_, herror, rfl⟩⟩

end Encoding

end Chip8Asm
