import Mathlib
import Chip8Asm.Proofs.AddressOrder
import Chip8Asm.Proofs.Decodability
import Chip8Asm.Proofs.FixedWidth
import Chip8Asm.Proofs.FreshLabel
import Chip8Asm.Proofs.Records

/-! References to labels. The labels of a program have addresses of twelve bits, also the empty ones
behind the last byte, so three digits hold each of them: they read back as the address, and an
instruction with an operand of three digits ends in the digits of the label that its operand
names. -/

namespace Chip8Asm

/-! ### Addresses -/

theorem Program.address_of_label {program : Program} (h : ofSource file policy source = .ok program)
    (hlabel : label ∈ program.labels) :
    ∃ address : Nat, label.address = some (address : Int) ∧ 0x200 ≤ address ∧ address ≤ 0xFFF := by
  have hplaced := isPlaced_ofSource h
  have hmem : label ∈ Layout.inOrder program.labels := Layout.mem_inOrder.mpr hlabel
  have hbase : Layout.defaultBase ≤ Layout.position label :=
    (hplaced.consecutive.mem_bounds
      (fun other hother => hplaced.sizes other (Layout.mem_inOrder.mp hother)) hmem).1
  have hsize := hplaced.sizes label hlabel
  have hlast : ¬Layout.overflows label = true := by
    rw [Layout.overflow?_eq_none_iff.mp (overflow?_ofSource h) label hlabel]
    exact Bool.false_ne_true
  rw [Layout.overflows_iff] at hlast
  unfold Layout.defaultBase at hbase
  refine ⟨(Layout.position label).toNat, ?_, by omega, by omega⟩
  rw [Int.toNat_of_nonneg (by omega)]
  exact hplaced.consecutive.address_eq_position hmem

theorem Text.hexSigned_eq {address : Nat} (h : address < 16 ^ 3) :
    hexSigned 3 (address : Int) = String.ofList (lowDigits 3 address) := by
  rw [← toList_hexPadded (by decide) h, String.ofList_toList]
  rfl

section
variable {label : Label} {address : Nat} (haddress : label.address = some (address : Int))
  (hfits : address < 16 ^ 3)
include haddress hfits

theorem Label.addressHex_eq :
    label.addressHex = .ok (String.ofList (Text.lowDigits 3 address)) := by
  rw [addressHex, requireAddress, haddress, ← Text.hexSigned_eq hfits]
  rfl

theorem Label.hexSigned_position :
    Text.hexSigned 3 (Layout.position label) = String.ofList (Text.lowDigits 3 address) := by
  rw [Layout.position, haddress, Option.getD_some, Text.hexSigned_eq hfits]

theorem Encoding.located_eq (hfind : Label.find? labels name = some label) :
    located labels name = "0X" ++ String.ofList (Text.lowDigits 3 address) := by
  rw [located, hfind]
  exact congrArg ("0X" ++ ·) (Label.hexSigned_position haddress hfits)

end

/-! ### Instructions with an address -/

/-- A template with three places for the immediate has a fixed digit in front of them. -/
theorem Form.template_of_address : ∀ form ∈ Instruction.forms,
    [.n, .n, .n] <:+: form.template → ∃ digit, form.template = [.fixed digit, .n, .n, .n] := by
  decide

theorem Argument.getElem?_of_spells {place : Nat}
    (h : List.Forall₂ Argument.Spells operands arguments)
    (htoken : operands[place]? = some token) :
    ∃ argument, arguments[place]? = some argument ∧ Argument.Spells token argument := by
  induction h generalizing place with
  | nil => cases htoken
  | cons hspells _ ih =>
    cases place with
    | zero => exact ⟨_, rfl, Option.some.inj htoken ▸ hspells⟩
    | succ place => exact ih htoken

namespace Form.Reads
open Text

variable {form : Form} {mnemonic : String} {operands : List String} {arguments : List Argument}
  {place : Nat}

/-- The operand in the place of the immediate is the one whose digits are filled in. -/
theorem value_eq (h : form.Reads mnemonic operands arguments)
    (hshape : form.shapes[place]? = some Shape.immediate) (htoken : operands[place]? = some token)
    (hparse : Numeral.parse token = .ok value) :
    (arguments.filterMap Argument.value?)[0]? = some value := by
  obtain ⟨argument, hargument, hspells⟩ := Argument.getElem?_of_spells h.spells htoken
  rw [h.shapes_eq, List.getElem?_map, hargument] at hshape
  obtain ⟨n, rfl⟩ : ∃ n, argument = .immediate n := by
    cases argument with
    | immediate n => exact ⟨n, rfl⟩
    | register | reserved => cases hshape
  have hn : n = value :=
    Except.ok.inj ((Numeral.parse_eq_ok_iff.mpr hspells).symm.trans hparse)
  have hmem : value ∈ arguments.filterMap Argument.value? :=
    List.mem_filterMap.mpr ⟨_, List.mem_of_getElem? hargument, congrArg some hn⟩
  have hcount : (arguments.filterMap Argument.value?).length ≤ 1 := by
    rw [← Argument.count_immediate, ← h.shapes_eq]
    exact (slots_of_mem form h.mem_forms).2.2.2
  cases hvalues : arguments.filterMap Argument.value? with
  | nil =>
    rw [hvalues] at hmem
    cases hmem
  | cons first rest =>
    rw [hvalues] at hmem hcount
    obtain rfl := List.length_eq_zero_iff.mp (Nat.le_zero.mp (Nat.le_of_succ_le_succ hcount))
    rw [List.mem_singleton.mp hmem]
    rfl

/-- The word of an instruction with an address ends in the digits of the address. -/
theorem encodeInstruction_address (h : form.Reads mnemonic operands arguments)
    (haddress : [.n, .n, .n] <:+: form.template)
    (hvalue : (arguments.filterMap Argument.value?)[0]? = some value) (labels : List Label) :
    ∃ first, Encoding.encodeInstruction labels (mnemonic :: operands) =
      .ok (String.ofList (first :: lowDigits 3 value)) := by
  obtain ⟨digit, htemplate⟩ := template_of_address form h.mem_forms haddress
  refine ⟨hexDigit digit.val, (h.encodeInstruction_eq labels).trans ?_⟩
  rw [Encoding.Operands.fill, Form.immediateWidth, htemplate, Encoding.Operands.ofArguments, hvalue]
  rfl

end Form.Reads

/-! ### Lines -/

namespace Program

/-- The line is an instruction of the form, and has a code. -/
structure EncodesAs (program : Program) (line : SourceLine) (form : Form) (code : String) :
    Prop where
  selects : ∃ mnemonic operands,
    Encoding.substitute program.aliases program.labels (some line.index) line.tokens =
      .ok (mnemonic :: operands) ∧ Encoding.selectForm mnemonic operands = .ok form
  encodes : Encoding.encodeLine program.aliases program.labels line = .ok code

/-- The operand that an instruction of the form takes for its immediate is the name, through the
aliases above the line. -/
def RefersTo (program : Program) (line : SourceLine) (form : Form) (name : String) : Prop :=
  ∃ place token, form.shapes[place]? = some .immediate ∧ line.tokens[place + 1]? = some token ∧
    Alias.Resolves program.aliases line.index token name

variable {program : Program} {line : SourceLine} {form : Form} {code : String} {place : Nat}

theorem EncodesAs.exists_reads (h : ofSource file policy source = .ok program)
    (hline : line ∈ program.lines) (hencodes : EncodesAs program line form code) :
    ∃ mnemonic operands arguments, program.readTokens line = mnemonic :: operands ∧
      form.Reads mnemonic operands arguments ∧
      Encoding.encodeInstruction program.labels (mnemonic :: operands) = .ok code := by
  obtain ⟨⟨mnemonic, operands, hsubstitute, hselect⟩, hcode⟩ := hencodes
  have htokens : program.readTokens line = mnemonic :: operands :=
    Except.ok.inj ((substitute_eq h line).symm.trans hsubstitute)
  -- the head of the line is a mnemonic, so the line is no data
  have hnumeric : ¬(Kind.ofToken mnemonic).isNumeric = true := by
    rw [Instruction.kind_of_isMnemonic (Encoding.isMnemonic_of_selectForm hselect)]
    exact Bool.false_ne_true
  rw [encodeLine_eq h hline, htokens, Encoding.encodeReplaced, if_neg hnumeric] at hcode
  obtain ⟨other, arguments, hreads⟩ := Encoding.exists_reads_of_ok hcode
  obtain rfl : other = form := Except.ok.inj (hreads.selectForm_eq.symm.trans hselect)
  exact ⟨mnemonic, operands, arguments, htokens, hreads, hcode⟩

/-- A name among the tokens of a line is read as the numeral of its address. -/
theorem getElem?_readTokens (h : ofSource file policy source = .ok program)
    (htoken : line.tokens[place]? = some token)
    (hresolves : Alias.Resolves program.aliases line.index token name) :
    (program.readTokens line)[place]? = some (Encoding.located program.labels name) := by
  have hresolve := (Alias.resolves_iff (sound_ofSource h).aliasesIncreasing).mp hresolves
  rw [readTokens, SourceLine.resolved, List.getElem?_map, List.getElem?_map, htoken,
    Option.map_some, Option.map_some, hresolve]

/-- References to labels are never truncated. The address of a label has twelve bits, its three
digits read back as the address and stand for it as data, and a line that is encoded as an
instruction with an address of three digits ends in those of the label to which it refers. -/
theorem label_references_keep_addresses (h : ofSource file policy source = .ok program)
    (hlabel : label ∈ program.labels) :
    ∃ (address : Nat) (digits : String),
      label.address = some (address : Int) ∧ 0x200 ≤ address ∧ address ≤ 0xFFF ∧
      label.addressHex = .ok digits ∧ digits.length = 3 ∧
      (∀ c ∈ digits.toList, c ∈ "0123456789ABCDEF".toList) ∧
      Numeral.parse ("0X" ++ digits) = .ok address ∧
      Encoding.encodeAddress program.labels label.name = .ok ("0" ++ digits) ∧
      ∀ line ∈ program.lines, ∀ form code, program.EncodesAs line form code →
        [.n, .n, .n] <:+: form.template → program.RefersTo line form label.name →
        code.toList.rtake 3 = digits.toList := by
  obtain ⟨address, haddress, hfirst, hlast⟩ := address_of_label h hlabel
  have hfits : address < 16 ^ 3 := Nat.lt_succ_of_le hlast
  have hfind := Label.find?_of_mem (sound_ofSource h).namesDistinct hlabel
  have hhex := Label.addressHex_eq haddress hfits
  have hparse := Numeral.parse_lowDigits (by decide : 0 < 3) hfits
  refine ⟨address, String.ofList (Text.lowDigits 3 address), haddress, hfirst, hlast, hhex, ?_, ?_,
    hparse, ?_, ?_⟩
  · rw [String.length_ofList, Text.length_lowDigits]
  · rw [String.toList_ofList]
    exact Text.mem_lowDigits
  · rw [Encoding.encodeAddress, hfind]
    dsimp only
    rw [hhex]
    rfl
  · intro line hline form code hencodes hwide ⟨place, token, hshape, htoken, hresolves⟩
    obtain ⟨mnemonic, operands, arguments, htokens, hreads, hcode⟩ := hencodes.exists_reads h hline
    have hoperand := getElem?_readTokens h htoken hresolves
    rw [htokens, List.getElem?_cons_succ, Encoding.located_eq haddress hfits hfind] at hoperand
    have hvalue := hreads.value_eq hshape hoperand hparse
    obtain ⟨first, hword⟩ := hreads.encodeInstruction_address hwide hvalue program.labels
    rw [← Except.ok.inj (hword.symm.trans hcode), String.toList_ofList, String.toList_ofList]
    rfl

/-- A jump with an offset, through an alias, to an empty label behind the last byte. -/
theorem jump_to_empty_label_keeps_address :
    let line : SourceLine := ⟨2, "JP V0 THERE"⟩
    let start : Label :=
      { name := "START", address := some 512, size := 2, lines := [line], index := 1 }
    let label : Label := { name := "END", address := some 514, index := 3 }
    let program : Program :=
      { lines := [line], aliases := [⟨"THERE", "END", 0⟩], labels := [start, label] }
    let form : Form := ⟨"JP", [.register, .immediate], [.fixed 11, .n, .n, .n]⟩
    ofSource "" .reject ":alias there end\n: Start\njp v0, there\n: end" = .ok program ∧
      label ∈ program.labels ∧ line ∈ program.lines ∧ program.EncodesAs line form "B202" ∧
      [.n, .n, .n] <:+: form.template ∧ program.RefersTo line form "END" ∧
      ∃ digits, label.addressHex = .ok digits ∧ "B202".toList.rtake 3 = digits.toList := by
  intro line start label program form
  have hprogram : ofSource "" .reject ":alias there end\n: Start\njp v0, there\n: end" =
      .ok program := by decide +kernel
  have hlabel : label ∈ program.labels := .tail _ (.head _)
  have hline : line ∈ program.lines := .head _
  have hencodes : program.EncodesAs line form "B202" :=
    ⟨⟨"JP", ["V0", "0X202"], by decide +kernel, by decide +kernel⟩, by decide +kernel⟩
  have hwide : [.n, .n, .n] <:+: form.template := ⟨[.fixed 11], [], rfl⟩
  have hrefers : program.RefersTo line form "END" := by
    refine ⟨1, "THERE", rfl, by decide +kernel, ?_⟩
    exact .latest (a := ⟨"THERE", "END", 0⟩) (.head _) rfl (by decide) (by decide)
  obtain ⟨_, digits, _, _, _, hhex, _, _, _, _, hcodes⟩ :=
    label_references_keep_addresses hprogram hlabel
  exact ⟨hprogram, hlabel, hline, hencodes, hwide, hrefers, digits, hhex,
    hcodes line hline form "B202" hencodes hwide hrefers⟩

end Program

end Chip8Asm
