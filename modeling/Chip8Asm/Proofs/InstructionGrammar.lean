import Mathlib
import Chip8Asm.Encoding
import Chip8Asm.Proofs.HexDigits

/-! The grammar of instructions. A mnemonic and its operands make an instruction if the table has a
form with the shapes of the operands and each operand spells an argument of its shape
(`Form.Reads`). The word is the template with the digits of the arguments in its slots
(`Form.word?`). The encoder follows this grammar. In particular, the form it takes for want of one
with the right shapes serves for its complaint only. -/

namespace Chip8Asm

/-! ### Arguments -/

/-- What an operand stands for. -/
inductive Argument where
  | register (r : Register)
  | immediate (n : Nat)
  | reserved (r : Reserved)

namespace Argument

@[simp] def shape : Argument → Shape
  | .register _ => .register
  | .immediate _ => .immediate
  | .reserved r => .reserved r

@[simp] def register? : Argument → Option Register
  | .register r => some r
  | _ => none

@[simp] def value? : Argument → Option Nat
  | .immediate n => some n
  | _ => none

def Spells (token : String) : Argument → Prop
  | .register r => Register.Spells token.toList r
  | .immediate n => Numeral.Spells token.toList n
  | .reserved r => token = r.name

end Argument

theorem Reserved.ofToken?_eq_some_iff : Reserved.ofToken? token = some r ↔ token = r.name := by
  constructor
  · intro h
    have hname := List.find?_some h
    exact (beq_iff_eq.mp hname).symm
  · rintro rfl
    cases r <;> decide

theorem Reserved.kind_name (r : Reserved) : Kind.ofToken r.name = .invalid := by
  cases r <;> decide

theorem Numeral.Spells.kind (h : Numeral.Spells token.toList n) :
    (Kind.ofToken token).isNumeric = true := by
  have hparse := Numeral.parse_eq_ok_iff.mpr h
  cases hkind : Kind.ofToken token with
  | register | invalid => simp [Numeral.parse, hkind, Kind.radix?] at hparse
  | _ => rfl

theorem Register.Spells.kind (h : Register.Spells token.toList register) :
    Kind.ofToken token = .register := by
  obtain ⟨v, digits, hcs, hv, _⟩ := h
  exact Register.ofToken_eq_register_iff.mpr ⟨v, digits, hcs, hv⟩

theorem Register.Spells.unique (h : Register.Spells cs r) (h' : Register.Spells cs r') :
    r = r' := by
  obtain ⟨v, digits, rfl, _, hr⟩ := h
  obtain ⟨_, _, hcs, _, hr'⟩ := h'
  obtain ⟨-, rfl⟩ := List.cons.inj hcs
  exact Fin.ext (hr.valueOf_eq.symm.trans hr'.valueOf_eq)

theorem Reserved.ofToken?_eq_none (h : Kind.ofToken token ≠ .invalid) :
    Reserved.ofToken? token = none := by
  cases hr : Reserved.ofToken? token with
  | none => rfl
  | some r =>
    obtain rfl := Reserved.ofToken?_eq_some_iff.mp hr
    exact (h r.kind_name).elim

/-- A token has the shape of the argument that it spells. -/
theorem Argument.Spells.shape_eq (h : Argument.Spells token argument) :
    Shape.ofToken token = argument.shape := by
  cases argument with
  | register r =>
    have hkind : Kind.ofToken token = .register := Register.Spells.kind h
    have hinvalid : Kind.ofToken token ≠ .invalid := by simp [hkind]
    simp [Shape.ofToken, Reserved.ofToken?_eq_none hinvalid, hkind]
  | immediate n =>
    have hnumeric : (Kind.ofToken token).isNumeric = true := Numeral.Spells.kind h
    have hinvalid : Kind.ofToken token ≠ .invalid :=
      fun hk => by simp [hk, Kind.isNumeric] at hnumeric
    have hregister : Kind.ofToken token ≠ .register :=
      fun hk => by simp [hk, Kind.isNumeric] at hnumeric
    simp [Shape.ofToken, Reserved.ofToken?_eq_none hinvalid, hregister]
  | reserved r =>
    have hsome : Reserved.ofToken? token = some r := Reserved.ofToken?_eq_some_iff.mpr h
    simp [Shape.ofToken, hsome]

theorem Shape.ofToken_eq_reserved (h : Shape.ofToken token = .reserved r) : token = r.name := by
  unfold Shape.ofToken at h
  split at h
  · rename_i r' hr
    obtain rfl := Shape.reserved.inj h
    exact Reserved.ofToken?_eq_some_iff.mp hr
  · split at h <;> cases h

/-! ### Words -/

/-- The digit for a slot, with as many slots of the immediate `behind` it. -/
def Slot.digit? (arguments : List Argument) (behind : Nat) : Slot → Option Char
  | .fixed digit => some (Text.hexDigit digit.val)
  | .x => (arguments.filterMap Argument.register?)[0]?.map fun r => Text.hexDigit r.val
  | .y => (arguments.filterMap Argument.register?)[1]?.map fun r => Text.hexDigit r.val
  | .n =>
    (arguments.filterMap Argument.value?)[0]?.map fun n => Text.hexDigit (n / 16 ^ behind % 16)

/-- The digits for the slots, unless an argument is missing. -/
def Slot.digits? (arguments : List Argument) : List Slot → Option (List Char)
  | [] => some []
  | slot :: slots =>
    match slot.digit? arguments (slots.count .n), digits? arguments slots with
    | some digit, some digits => some (digit :: digits)
    | _, _ => none

namespace Form

/-- The word of a form with arguments. -/
def word? (form : Form) (arguments : List Argument) : Option String :=
  (Slot.digits? arguments form.template).map String.ofList

/-- A mnemonic and operands make an instruction of the form with the arguments. -/
structure Reads (form : Form) (mnemonic : String) (operands : List String)
    (arguments : List Argument) : Prop where
  lookup : Instruction.lookup? mnemonic (operands.map Shape.ofToken) = some form
  spells : List.Forall₂ Argument.Spells operands arguments
  /-- Only `V0` takes part in a jump with an offset. -/
  offset : mnemonic = "JP" → operands.length = 2 → arguments.head? = some (.register 0)

/-- The arguments have what the template of a form asks for. -/
structure Complete (form : Form) : Prop where
  length : form.template.length = 4
  first : .x ∈ form.template → 0 < form.shapes.count .register
  second : .y ∈ form.template → 1 < form.shapes.count .register
  immediate : .n ∈ form.template ↔ .immediate ∈ form.shapes

instance (form : Form) : Decidable form.Complete :=
  decidable_of_iff (form.template.length = 4 ∧
    (.x ∈ form.template → 0 < form.shapes.count .register) ∧
    (.y ∈ form.template → 1 < form.shapes.count .register) ∧
    (.n ∈ form.template ↔ .immediate ∈ form.shapes))
    ⟨fun ⟨h₁, h₂, h₃, h₄⟩ => ⟨h₁, h₂, h₃, h₄⟩, fun ⟨h₁, h₂, h₃, h₄⟩ => ⟨h₁, h₂, h₃, h₄⟩⟩

theorem complete_of_mem (h : form ∈ Instruction.forms) : form.Complete := by
  have hall : ∀ form ∈ Instruction.forms, form.Complete := by decide
  exact hall form h

end Form

theorem Instruction.mem_of_lookup? (h : Instruction.lookup? mnemonic shapes = some form) :
    form ∈ Instruction.forms ∧ form.mnemonic = mnemonic ∧ form.shapes = shapes := by
  unfold Instruction.lookup? at h
  have hkey := List.find?_some h
  simp only [Bool.and_eq_true, beq_iff_eq] at hkey
  exact ⟨List.mem_of_find?_eq_some h, hkey⟩

/-- An immediate among the operands has a place in the template. -/
theorem Instruction.immediateWidth_pos (h : Instruction.lookup? mnemonic shapes = some form)
    (himmediate : .immediate ∈ shapes) : 0 < form.immediateWidth := by
  obtain ⟨hmem, -, rfl⟩ := Instruction.mem_of_lookup? h
  exact List.count_pos_iff.mpr ((Form.complete_of_mem hmem).immediate.mpr himmediate)

theorem Argument.count_register (arguments : List Argument) :
    (arguments.map Argument.shape).count .register =
      (arguments.filterMap Argument.register?).length := by
  induction arguments with
  | nil => rfl
  | cons argument arguments ih =>
    cases argument <;> simp [List.filterMap_cons, ih]

theorem Argument.immediate_mem_iff (arguments : List Argument) :
    .immediate ∈ arguments.map Argument.shape ↔
      ∃ n, (arguments.filterMap Argument.value?)[0]? = some n := by
  induction arguments with
  | nil => simp
  | cons argument arguments ih =>
    cases argument <;> simp_all [List.filterMap_cons]

namespace Encoding
open Text

/-- What the operands put into a word, for arguments and a width of the immediate. -/
def Operands.ofArguments (width : Nat) (arguments : List Argument) : Operands where
  registers := arguments.filterMap Argument.register?
  immediate := ((arguments.filterMap Argument.value?)[0]?.map (lowDigits width)).getD []

/-- Filling takes each digit from its place as long as the arguments suffice. -/
theorem digits?_eq_fill (hx : .x ∈ slots → 0 < (arguments.filterMap Argument.register?).length)
    (hy : .y ∈ slots → 1 < (arguments.filterMap Argument.register?).length)
    (hn : .n ∈ slots → (arguments.filterMap Argument.value?)[0]? = some n) :
    Slot.digits? arguments slots =
      some (fill (arguments.filterMap Argument.register?) slots
        (lowDigits (slots.count .n) n)) := by
  induction slots with
  | nil => rfl
  | cons slot slots ih =>
    have ih := ih (fun h => hx (.tail _ h)) (fun h => hy (.tail _ h)) (fun h => hn (.tail _ h))
    cases slot with
    | fixed digit => simp [Slot.digits?, Slot.digit?, ih, fill]
    | x =>
      have hlength := hx List.mem_cons_self
      simp [Slot.digits?, Slot.digit?, ih, fill, Register.digit, List.getElem?_eq_getElem hlength]
    | y =>
      have hlength := hy List.mem_cons_self
      simp [Slot.digits?, Slot.digit?, ih, fill, Register.digit, List.getElem?_eq_getElem hlength]
    | n =>
      have hvalue := hn List.mem_cons_self
      simp [Slot.digits?, Slot.digit?, ih, fill, hvalue, lowDigits]

/-! ### Reading -/

theorem map_eq_ok_iff {f : α → β} {x : Except ε α} :
    x.map f = .ok b ↔ ∃ a, x = .ok a ∧ f a = b := by
  cases x <;> simp [Except.map]

theorem readImmediate_eq_ok_iff :
    readImmediate labels width token = .ok s ↔ Numeral.normalize width token = .ok s := by
  unfold readImmediate
  split
  · rename_i d h
    split <;> simp [h]
  · rfl

/-- Operands are read by their own shapes exactly if they spell arguments. -/
theorem readOperands_eq_ok_iff {operands : List String} {read : Operands}
    (hwidth : .immediate ∈ operands.map Shape.ofToken → 0 < width) :
    readOperands labels width operands (operands.map Shape.ofToken) = .ok read ↔
      ∃ arguments, List.Forall₂ Argument.Spells operands arguments ∧
        read = .ofArguments width arguments := by
  induction operands generalizing read with
  | nil => simp [readOperands, Operands.ofArguments, eq_comm]
  | cons token operands ih =>
    have htail : .immediate ∈ operands.map Shape.ofToken → 0 < width :=
      fun h => hwidth (.tail _ h)
    constructor
    · intro h
      cases hshape : Shape.ofToken token with
      | register =>
        cases hparse : Register.parse token with
        | error d => simp [readOperands, hshape, hparse] at h
        | ok r =>
          simp only [List.map_cons, hshape, readOperands, hparse, map_eq_ok_iff] at h
          obtain ⟨rest, hrest, rfl⟩ := h
          obtain ⟨arguments, hspells, rfl⟩ := (ih htail).mp hrest
          exact ⟨.register r :: arguments, .cons (Register.parse_eq_ok_iff.mp hparse) hspells, rfl⟩
      | immediate =>
        cases hread : readImmediate labels width token with
        | error fault => simp [readOperands, hshape, hread] at h
        | ok digits =>
          simp only [List.map_cons, hshape, readOperands, hread, map_eq_ok_iff] at h
          obtain ⟨rest, hrest, rfl⟩ := h
          obtain ⟨arguments, hspells, rfl⟩ := (ih htail).mp hrest
          have hpositive := hwidth (by simp [hshape])
          obtain ⟨n, hn, rfl⟩ := (Numeral.normalize_eq_ok_iff hpositive).mp
            (readImmediate_eq_ok_iff.mp hread)
          exact ⟨.immediate n :: arguments, .cons hn hspells,
            by simp [Operands.ofArguments, List.filterMap_cons]⟩
      | reserved r =>
        simp only [List.map_cons, hshape, readOperands] at h
        obtain ⟨arguments, hspells, rfl⟩ := (ih htail).mp h
        exact ⟨.reserved r :: arguments, .cons (Shape.ofToken_eq_reserved hshape) hspells, rfl⟩
    · rintro ⟨_, hspells, rfl⟩
      cases hspells with
      | @cons _ argument _ arguments hspells hrest =>
        have hshape := hspells.shape_eq
        have hread := (ih htail).mpr ⟨arguments, hrest, rfl⟩
        cases argument with
        | register r =>
          have hparse : Register.parse token = .ok r := Register.parse_eq_ok_iff.mpr hspells
          simp [readOperands, hshape, hparse, hread, Except.map, Operands.ofArguments,
            List.filterMap_cons]
        | immediate n =>
          have hpositive := hwidth (by simp [hshape])
          have hnormalize : readImmediate labels width token = .ok _ :=
            readImmediate_eq_ok_iff.mpr
              ((Numeral.normalize_eq_ok_iff hpositive).mpr ⟨n, hspells, rfl⟩)
          simp [readOperands, hshape, hnormalize, hread, Except.map, Operands.ofArguments,
            List.filterMap_cons]
        | reserved r =>
          simp [readOperands, hshape, hread, Operands.ofArguments, List.filterMap_cons]

/-! ### Choosing the form -/

theorem exists_spells_of_readImmediate (h : readImmediate labels width token = .ok s) :
    ∃ n, Numeral.Spells token.toList n := by
  obtain ⟨n, hn, _⟩ := map_eq_ok_iff.mp (readImmediate_eq_ok_iff.mp h)
  exact ⟨n, Numeral.parse_eq_ok_iff.mp hn⟩

/-- Operands that can be read by shapes without reserved names have these shapes. -/
theorem map_ofToken_eq_of_readOperands {operands : List String} {shapes : List Shape}
    {read : Operands} (hlength : operands.length = shapes.length)
    (hshapes : ∀ shape ∈ shapes, shape = .register ∨ shape = .immediate)
    (h : readOperands labels width operands shapes = .ok read) :
    operands.map Shape.ofToken = shapes := by
  induction operands generalizing shapes read with
  | nil => exact (List.length_eq_zero_iff.mp hlength.symm).symm
  | cons token operands ih =>
    cases shapes with
    | nil => cases hlength
    | cons shape shapes =>
      have ih := fun read => @ih shapes read (Nat.succ.inj hlength)
        fun s hs => hshapes s (.tail _ hs)
      rcases hshapes shape List.mem_cons_self with rfl | rfl
      · cases hparse : Register.parse token with
        | error d => simp [readOperands, hparse] at h
        | ok r =>
          simp only [readOperands, hparse, map_eq_ok_iff] at h
          obtain ⟨rest, hrest, -⟩ := h
          have hspells : Argument.Spells token (.register r) := Register.parse_eq_ok_iff.mp hparse
          rw [List.map_cons, hspells.shape_eq, ih rest hrest]
          rfl
      · cases hread : readImmediate labels width token with
        | error fault => simp [readOperands, hread] at h
        | ok digits =>
          simp only [readOperands, hread, map_eq_ok_iff] at h
          obtain ⟨rest, hrest, -⟩ := h
          obtain ⟨n, hn⟩ := exists_spells_of_readImmediate hread
          have hspells : Argument.Spells token (.immediate n) := hn
          rw [List.map_cons, hspells.shape_eq, ih rest hrest]
          rfl

theorem lookup?_ne_none (h : form ∈ Instruction.forms) :
    Instruction.lookup? form.mnemonic form.shapes ≠ none := by
  simp only [Instruction.lookup?, ne_eq, List.find?_eq_none, not_forall]
  exact ⟨form, h, by simp⟩

/-- A form that is alone with its number of operands has no reserved names. -/
theorem shapes_of_formsWith (h : Instruction.formsWith mnemonic arity = [form]) :
    form ∈ Instruction.forms ∧ form.mnemonic = mnemonic ∧ form.arity = arity ∧
      ∀ shape ∈ form.shapes, shape = .register ∨ shape = .immediate := by
  have hmem : form ∈ Instruction.formsWith mnemonic arity := by simp [h]
  simp only [Instruction.formsWith, Instruction.formsOf, List.mem_filter, beq_iff_eq] at hmem
  obtain ⟨⟨hform, rfl⟩, rfl⟩ := hmem
  have htable : ∀ form ∈ Instruction.forms,
      Instruction.formsWith form.mnemonic form.arity = [form] →
        ∀ shape ∈ form.shapes, shape = .register ∨ shape = .immediate := by decide
  exact ⟨hform, rfl, rfl, htable form hform h⟩

theorem checkOffset_eq_ok_iff :
    checkOffset mnemonic first = .ok () ↔ Register.Spells first.toList 0 := by
  rw [← Register.parse_eq_ok_iff]
  constructor
  · intro h
    unfold checkOffset at h
    split at h
    · cases h
    · cases hparse : Register.parse first with
      | error d => simp [hparse] at h
      | ok r =>
        have hzero : r.val = 0 := by
          by_contra hne
          simp [hparse, hne] at h
        exact congrArg Except.ok (Fin.ext hzero)
  · intro h
    have hspells : Argument.Spells first (.register 0) := Register.parse_eq_ok_iff.mp h
    simp [checkOffset, hspells.shape_eq, h]

theorem checkJump_eq_ok_iff : checkJump mnemonic operands = .ok () ↔
    (mnemonic = "JP" → operands.length = 2 →
      ∃ first rest, operands = first :: rest ∧ Register.Spells first.toList 0) := by
  unfold checkJump
  split
  · rename_i first second
    by_cases hjump : mnemonic = "JP"
    · simp [hjump, checkOffset_eq_ok_iff]
    · simp [hjump]
  · rename_i hlength
    refine ⟨fun _ _ htwo => ?_, fun _ => rfl⟩
    obtain ⟨first, second, rfl⟩ := List.length_eq_two.mp htwo
    exact (hlength first second rfl).elim

theorem selectForm_eq_ok_iff : selectForm mnemonic operands = .ok form ↔
    checkJump mnemonic operands = .ok () ∧
      (Instruction.lookup? mnemonic (operands.map Shape.ofToken) = some form ∨
        Instruction.lookup? mnemonic (operands.map Shape.ofToken) = none ∧
          Instruction.formsWith mnemonic operands.length = [form]) := by
  unfold selectForm
  cases hjump : checkJump mnemonic operands with
  | error d => simp
  | ok u =>
    cases hlookup : Instruction.lookup? mnemonic (operands.map Shape.ofToken) with
    | some found => simp
    | none =>
      simp only [true_and, reduceCtorEq, false_or]
      split
      · rename_i found hforms
        simp [hforms]
      · rename_i hforms
        simpa using hforms form

end Encoding

/-! ### The grammar and the encoder -/

theorem Argument.map_ofToken_eq (h : List.Forall₂ Argument.Spells operands arguments) :
    operands.map Shape.ofToken = arguments.map Argument.shape := by
  induction h with
  | nil => rfl
  | cons hspells _ ih => rw [List.map_cons, List.map_cons, hspells.shape_eq, ih]

theorem Slot.digits_of_digits? (h : Slot.digits? arguments slots = some digits) :
    digits.length = slots.length ∧ ∀ c ∈ digits, c ∈ "0123456789ABCDEF".toList := by
  induction slots generalizing digits with
  | nil => cases h; exact ⟨rfl, by simp⟩
  | cons slot slots ih =>
    unfold Slot.digits? at h
    split at h
    · rename_i c cs hc hcs
      obtain rfl := Option.some.inj h
      obtain ⟨hlength, hdigits⟩ := ih hcs
      refine ⟨by simp [hlength], List.forall_mem_cons.mpr ⟨?_, hdigits⟩⟩
      cases slot with
      | fixed digit =>
        obtain rfl := Option.some.inj hc
        exact Text.hexDigit_mem digit.isLt
      | x | y =>
        obtain ⟨r, _, rfl⟩ := Option.map_eq_some_iff.mp hc
        exact Text.hexDigit_mem r.isLt
      | n =>
        obtain ⟨n, _, rfl⟩ := Option.map_eq_some_iff.mp hc
        exact Text.hexDigit_mem (Nat.mod_lt _ (by decide))
    · cases h

namespace Form.Reads
open Encoding

variable {form : Form} {mnemonic : String} {operands : List String} {arguments : List Argument}

/-- The arguments of an instruction suffice for the template of its form. -/
theorem word?_eq (h : Form.Reads form mnemonic operands arguments) :
    form.word? arguments =
      some ((Operands.ofArguments form.immediateWidth arguments).fill form) := by
  obtain ⟨hmem, -, hshapes⟩ := Instruction.mem_of_lookup? h.lookup
  rw [Argument.map_ofToken_eq h.spells] at hshapes
  obtain ⟨-, hx, hy, hn⟩ := complete_of_mem hmem
  rw [hshapes, Argument.count_register] at hx hy
  rw [hshapes, Argument.immediate_mem_iff] at hn
  cases hvalue : (arguments.filterMap Argument.value?)[0]? with
  | some n =>
    rw [Form.word?, digits?_eq_fill hx hy fun _ => hvalue]
    simp [Operands.fill, Operands.ofArguments, hvalue, Form.immediateWidth]
  | none =>
    -- without an immediate the template has no place for one
    have hnone : .n ∉ form.template := fun hmem => by simp [hvalue] at hn; exact hn hmem
    have hwidth : form.template.count .n = 0 := List.count_eq_zero.mpr hnone
    rw [Form.word?, digits?_eq_fill (n := 0) hx hy fun hmem => (hnone hmem).elim]
    simp [Operands.fill, Operands.ofArguments, hvalue, hwidth, Text.lowDigits]

theorem length_word (h : Form.Reads form mnemonic operands arguments)
    (hword : form.word? arguments = some word) :
    word.length = 4 ∧ ∀ c ∈ word.toList, c ∈ "0123456789ABCDEF".toList := by
  obtain ⟨digits, hdigits, rfl⟩ := Option.map_eq_some_iff.mp hword
  obtain ⟨hlength, hhex⟩ := Slot.digits_of_digits? hdigits
  obtain ⟨hmem, -, -⟩ := Instruction.mem_of_lookup? h.lookup
  rw [String.length_ofList, hlength, (complete_of_mem hmem).length, String.toList_ofList]
  exact ⟨rfl, hhex⟩

theorem readOperands_eq (h : Form.Reads form mnemonic operands arguments) (labels : List Label) :
    readOperands labels form.immediateWidth operands form.shapes =
      .ok (.ofArguments form.immediateWidth arguments) := by
  obtain ⟨-, -, hshapes⟩ := Instruction.mem_of_lookup? h.lookup
  rw [hshapes]
  exact (readOperands_eq_ok_iff (Instruction.immediateWidth_pos h.lookup)).mpr
    ⟨arguments, h.spells, rfl⟩

theorem selectForm_eq (h : Form.Reads form mnemonic operands arguments) :
    selectForm mnemonic operands = .ok form := by
  refine selectForm_eq_ok_iff.mpr ⟨checkJump_eq_ok_iff.mpr fun hmnemonic hlength => ?_,
    .inl h.lookup⟩
  have hfirst := h.offset hmnemonic hlength
  cases h.spells with
  | nil => cases hlength
  | @cons first argument rest arguments hspells _ =>
    obtain rfl : argument = .register 0 := Option.some.inj hfirst
    exact ⟨first, rest, rfl, hspells⟩

theorem encodeInstruction_eq (h : Form.Reads form mnemonic operands arguments)
    (labels : List Label) : encodeInstruction labels (mnemonic :: operands) =
      .ok ((Operands.ofArguments form.immediateWidth arguments).fill form) := by
  simp only [encodeInstruction, h.selectForm_eq, h.readOperands_eq labels]
  rfl

end Form.Reads

namespace Encoding

/-- The first argument of an instruction that passes the check for jumps is `V0`. -/
theorem head?_eq_of_checkJump (hjump : checkJump mnemonic operands = .ok ())
    (hspells : List.Forall₂ Argument.Spells operands arguments) (hmnemonic : mnemonic = "JP")
    (hlength : operands.length = 2) : arguments.head? = some (.register 0) := by
  obtain ⟨first, rest, rfl, hfirst⟩ := checkJump_eq_ok_iff.mp hjump hmnemonic hlength
  cases hspells with
  | @cons _ argument _ arguments hspells _ =>
    have hzero : Argument.Spells first (.register 0) := hfirst
    have hshape : argument.shape = .register := hspells.shape_eq.symm.trans hzero.shape_eq
    cases argument with
    | register r =>
      have hr : r = 0 := Register.Spells.unique hspells hfirst
      rw [hr]
      rfl
    | immediate | reserved => cases hshape

theorem exists_reads_of_ok (h : encodeInstruction labels (mnemonic :: operands) = .ok word) :
    ∃ form arguments, Form.Reads form mnemonic operands arguments := by
  unfold encodeInstruction at h
  cases hselect : selectForm mnemonic operands with
  | error d => simp [hselect] at h
  | ok form =>
    simp only [hselect, map_eq_ok_iff] at h
    obtain ⟨read, hread, -⟩ := h
    obtain ⟨hjump, hlookup | ⟨hnone, hforms⟩⟩ := selectForm_eq_ok_iff.mp hselect
    · obtain ⟨-, -, hshapes⟩ := Instruction.mem_of_lookup? hlookup
      rw [hshapes] at hread
      obtain ⟨arguments, hspells, -⟩ :=
        (readOperands_eq_ok_iff (Instruction.immediateWidth_pos hlookup)).mp hread
      exact ⟨form, arguments, hlookup, hspells, head?_eq_of_checkJump hjump hspells⟩
    · -- the form was taken for want of another, and reading by its shapes cannot succeed
      obtain ⟨hmem, rfl, hlength, hplain⟩ := shapes_of_formsWith hforms
      rw [map_ofToken_eq_of_readOperands hlength.symm hplain hread] at hnone
      exact (lookup?_ne_none hmem hnone).elim

theorem length_of_encodeInstruction
    (h : encodeInstruction labels (mnemonic :: operands) = .ok word) : word.length = 4 := by
  obtain ⟨form, arguments, hreads⟩ := exists_reads_of_ok h
  obtain rfl := Except.ok.inj ((hreads.encodeInstruction_eq labels).symm.trans h)
  exact (hreads.length_word hreads.word?_eq).1

theorem isMnemonic_of_selectForm (h : selectForm mnemonic operands = .ok form) :
    Instruction.isMnemonic mnemonic = true := by
  have htable : ∀ form ∈ Instruction.forms, Instruction.isMnemonic form.mnemonic = true := by
    decide
  obtain ⟨-, hlookup | ⟨-, hforms⟩⟩ := selectForm_eq_ok_iff.mp h
  · obtain ⟨hmem, rfl, -⟩ := Instruction.mem_of_lookup? hlookup
    exact htable form hmem
  · obtain ⟨hmem, rfl, -⟩ := shapes_of_formsWith hforms
    exact htable form hmem

theorem isMnemonic_of_encodeInstruction
    (h : encodeInstruction labels (mnemonic :: operands) = .ok word) :
    Instruction.isMnemonic mnemonic = true := by
  obtain ⟨form, _, hreads⟩ := exists_reads_of_ok h
  exact isMnemonic_of_selectForm hreads.selectForm_eq

/-- The encoder accepts the instructions of the grammar and nothing else, and gives the word of the
form, which has four digits. -/
theorem encodeInstruction_follows_grammar (labels : List Label) (mnemonic : String)
    (operands : List String) :
    (∀ word, encodeInstruction labels (mnemonic :: operands) = .ok word ↔
      ∃ form arguments, Form.Reads form mnemonic operands arguments ∧
        form.word? arguments = some word) ∧
    (∀ form arguments, Form.Reads form mnemonic operands arguments →
      ∃ word, form.word? arguments = some word ∧ word.length = 4 ∧
        ∀ c ∈ word.toList, c ∈ "0123456789ABCDEF".toList) ∧
    (Instruction.lookup? mnemonic (operands.map Shape.ofToken) = none →
      ∃ fault, encodeInstruction labels (mnemonic :: operands) = .error fault) := by
  refine ⟨fun word => ⟨fun h => ?_, ?_⟩, fun form arguments h => ?_, fun hnone => ?_⟩
  · obtain ⟨form, arguments, hreads⟩ := exists_reads_of_ok h
    refine ⟨form, arguments, hreads, ?_⟩
    rw [hreads.word?_eq, ← Except.ok.inj ((hreads.encodeInstruction_eq labels).symm.trans h)]
  · rintro ⟨form, arguments, hreads, hword⟩
    rw [hreads.encodeInstruction_eq labels, Option.some.inj (hreads.word?_eq.symm.trans hword)]
  · exact ⟨_, h.word?_eq, h.length_word h.word?_eq⟩
  · cases h : encodeInstruction labels (mnemonic :: operands) with
    | error fault => exact ⟨fault, rfl⟩
    | ok word =>
      obtain ⟨form, arguments, hreads⟩ := exists_reads_of_ok h
      rw [hreads.lookup] at hnone
      cases hnone

end Encoding

end Chip8Asm
