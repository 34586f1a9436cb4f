import Mathlib
import Chip8Asm.Proofs.InstructionGrammar

/-! What a word tells about its instruction. Two forms of the table differ in a fixed digit of their
templates, except that the words of `CLS` and `RET` are also words of `SYS`. Within a form each
argument has its slots in the template, except for the register of a jump with an offset, which is
always `V0`. So a word gives away the form, the registers, and the immediate up to its width. -/

namespace Chip8Asm

namespace Text

theorem hexDigit_inj (hm : m < 16) (hn : n < 16) (h : hexDigit m = hexDigit n) : m = n := by
  have hall : ∀ m < 16, ∀ n < 16, hexDigit m = hexDigit n → m = n := by decide
  exact hall m hm n hn h

/-- Numbers with the same low digits have the same digit in the next place and in those below. -/
theorem modEq_succ_iff {width m n : Nat} : m ≡ n [MOD 16 ^ (width + 1)] ↔
    m / 16 ^ width % 16 = n / 16 ^ width % 16 ∧ m ≡ n [MOD 16 ^ width] := by
  have hdigit : ∀ k, k % (16 ^ width * 16) / 16 ^ width = k / 16 ^ width % 16 :=
    fun k => Nat.mod_mul_right_div_self k (16 ^ width) 16
  rw [pow_succ]
  constructor
  · intro h
    refine ⟨?_, h.of_dvd (Dvd.intro _ rfl)⟩
    rw [← hdigit m, ← hdigit n, h]
  · rintro ⟨hnext, hbelow⟩
    unfold Nat.ModEq at hbelow ⊢
    rw [Nat.mod_mul, Nat.mod_mul, hnext, hbelow]

theorem digit_eq_of_modEq {width m n : Nat} (h : m ≡ n [MOD 16 ^ width]) (hplace : place < width) :
    m / 16 ^ place % 16 = n / 16 ^ place % 16 :=
  (modEq_succ_iff.mp (h.of_dvd (pow_dvd_pow 16 hplace))).1

end Text

/-! ### Arguments that agree -/

/-- A word with so many digits for the immediate does not tell the arguments apart. -/
inductive Argument.Agree (width : Nat) : Argument → Argument → Prop
  | register (r : Register) : Agree width (.register r) (.register r)
  | immediate : m ≡ n [MOD 16 ^ width] → Agree width (.immediate m) (.immediate n)
  | reserved (r : Reserved) : Agree width (.reserved r) (.reserved r)

namespace Argument

variable {arguments others : List Argument}

/-- Lists of arguments agree if they have the same shapes and registers, and immediates that the
width does not tell apart. -/
theorem forall₂_agree_iff : List.Forall₂ (Agree width) arguments others ↔
    arguments.map shape = others.map shape ∧
    arguments.filterMap register? = others.filterMap register? ∧
    List.Forall₂ (· ≡ · [MOD 16 ^ width]) (arguments.filterMap value?)
      (others.filterMap value?) := by
  constructor
  · intro h
    induction h with
    | nil => exact ⟨rfl, rfl, .nil⟩
    | cons hagree _ ih =>
      obtain ⟨hshapes, hregisters, hvalues⟩ := ih
      cases hagree with
      | register r => exact ⟨by simp [hshapes], by simp [hregisters], hvalues⟩
      | immediate hvalue => exact ⟨by simp [hshapes], hregisters, .cons hvalue hvalues⟩
      | reserved r => exact ⟨by simp [hshapes], hregisters, hvalues⟩
  · rintro ⟨hshapes, hregisters, hvalues⟩
    induction arguments generalizing others with
    | nil =>
      cases others with
      | nil => exact .nil
      | cons => cases hshapes
    | cons argument arguments ih =>
      cases others with
      | nil => cases hshapes
      | cons other others =>
        obtain ⟨hshape, hrest⟩ := List.cons.inj hshapes
        cases argument with
        | register r =>
          cases other with
          | register s =>
            obtain ⟨rfl, hlater⟩ := List.cons.inj hregisters
            exact .cons (.register r) (ih hrest hlater hvalues)
          | immediate | reserved => cases hshape
        | immediate m =>
          cases other with
          | immediate n =>
            obtain ⟨hvalue, hvalues⟩ := List.forall₂_cons.mp hvalues
            exact .cons (.immediate hvalue) (ih hrest hregisters hvalues)
          | register | reserved => cases hshape
        | reserved r =>
          cases other with
          | reserved s =>
            obtain rfl := Shape.reserved.inj hshape
            exact .cons (.reserved r) (ih hrest hregisters hvalues)
          | register | immediate => cases hshape

end Argument

/-! ### Slots -/

namespace Slot

variable {arguments others : List Argument} {slots : List Slot}

theorem digits?_cons_eq_some_iff : digits? arguments (slot :: slots) = some digits ↔
    ∃ c cs, slot.digit? arguments (slots.count .n) = some c ∧ digits? arguments slots = some cs ∧
      digits = c :: cs := by
  rw [digits?]
  cases slot.digit? arguments (slots.count .n) with
  | none => simp
  | some c =>
    cases digits? arguments slots with
    | none => simp
    | some cs => simp [eq_comm]

theorem register_eq_of_digit {registers others : List Register} {i : Nat}
    (h : registers[i]?.map (fun r => Text.hexDigit r.val) = some c)
    (h' : others[i]?.map (fun r => Text.hexDigit r.val) = some c) : registers[i]? = others[i]? := by
  obtain ⟨r, hr, rfl⟩ := Option.map_eq_some_iff.mp h
  obtain ⟨s, hs, hdigit⟩ := Option.map_eq_some_iff.mp h'
  rw [hr, hs, Fin.ext (Text.hexDigit_inj s.isLt r.isLt hdigit)]

/-- What the slots take of the arguments is the same, up to the width of the immediate. -/
structure Alike (slots : List Slot) (arguments others : List Argument) : Prop where
  first : .x ∈ slots →
    (arguments.filterMap Argument.register?)[0]? = (others.filterMap Argument.register?)[0]?
  second : .y ∈ slots →
    (arguments.filterMap Argument.register?)[1]? = (others.filterMap Argument.register?)[1]?
  value : ∀ a b, (arguments.filterMap Argument.value?)[0]? = some a →
    (others.filterMap Argument.value?)[0]? = some b → a ≡ b [MOD 16 ^ slots.count .n]

/-- Arguments that fill the slots with the same digits are alike. -/
theorem alike_of_digits? (h : digits? arguments slots = some digits)
    (h' : digits? others slots = some digits) : Alike slots arguments others := by
  induction slots generalizing digits with
  | nil => exact ⟨nofun, nofun, fun _ _ _ _ => Nat.modEq_one⟩
  | cons slot slots ih =>
    obtain ⟨c, cs, hslot, hslots, rfl⟩ := digits?_cons_eq_some_iff.mp h
    obtain ⟨_, _, hslot', hslots', hcons⟩ := digits?_cons_eq_some_iff.mp h'
    obtain ⟨rfl, rfl⟩ := List.cons.inj hcons
    obtain ⟨hfirst, hsecond, hvalue⟩ := ih hslots hslots'
    constructor
    · intro hmem
      rcases List.mem_cons.mp hmem with rfl | hmem
      · exact register_eq_of_digit hslot hslot'
      · exact hfirst hmem
    · intro hmem
      rcases List.mem_cons.mp hmem with rfl | hmem
      · exact register_eq_of_digit hslot hslot'
      · exact hsecond hmem
    · intro a b ha hb
      by_cases hn : slot = .n
      · subst hn
        rw [List.count_cons_self]
        refine Text.modEq_succ_iff.mpr ⟨?_, hvalue a b ha hb⟩
        simp only [digit?, ha, hb, Option.map_some, Option.some.injEq] at hslot hslot'
        exact Text.hexDigit_inj (Nat.mod_lt _ (by decide)) (Nat.mod_lt _ (by decide))
          (hslot.trans hslot'.symm)
      · rw [List.count_cons_of_ne hn]
        exact hvalue a b ha hb

/-- Arguments that agree fill slots with the same digits. -/
theorem digits?_congr (h : List.Forall₂ (Argument.Agree width) arguments others)
    (hwidth : slots.count .n ≤ width) : digits? arguments slots = digits? others slots := by
  obtain ⟨-, hregisters, hvalues⟩ := Argument.forall₂_agree_iff.mp h
  induction slots with
  | nil => rfl
  | cons slot slots ih =>
    have hslot : slot.digit? arguments (slots.count .n) = slot.digit? others (slots.count .n) := by
      cases slot with
      | fixed digit => rfl
      | x | y => rw [digit?, digit?, hregisters]
      | n =>
        rw [List.count_cons_self] at hwidth
        rw [digit?, digit?]
        generalize arguments.filterMap Argument.value? = values at hvalues ⊢
        generalize others.filterMap Argument.value? = values' at hvalues ⊢
        cases hvalues with
        | nil => rfl
        | cons hvalue _ =>
          simp only [List.getElem?_cons_zero, Option.map_some, Text.digit_eq_of_modEq hvalue hwidth]
    rw [digits?, digits?, hslot, ih (le_trans (List.count_le_count_cons ..) hwidth)]

/-- No digit stands in both slots. -/
def clash : Slot → Slot → Bool
  | .fixed digit, .fixed other => digit != other
  | _, _ => false

/-- Slots that can be filled with the same digits do not clash. -/
theorem clash_eq_false {slots' : List Slot} (h : digits? arguments slots = some digits)
    (h' : digits? others slots' = some digits) :
    (slots.zip slots').any (fun pair => pair.1.clash pair.2) = false := by
  induction slots generalizing slots' digits with
  | nil => rfl
  | cons slot slots ih =>
    cases slots' with
    | nil => rfl
    | cons slot' slots' =>
      obtain ⟨c, cs, hslot, hslots, rfl⟩ := digits?_cons_eq_some_iff.mp h
      obtain ⟨_, _, hslot', hslots', hcons⟩ := digits?_cons_eq_some_iff.mp h'
      obtain ⟨rfl, rfl⟩ := List.cons.inj hcons
      have hhead : slot.clash slot' = false := by
        cases slot with
        | fixed digit =>
          cases slot' with
          | fixed digit' =>
            have hdigit := (Option.some.inj hslot).trans (Option.some.inj hslot').symm
            simpa [clash] using Fin.ext (Text.hexDigit_inj digit.isLt digit'.isLt hdigit)
          | x | y | n => rfl
        | x | y | n => rfl
      rw [List.zip_cons_cons, List.any_cons, hhead, ih hslots hslots']
      rfl

end Slot

/-! ### The table -/

theorem Argument.count_immediate (arguments : List Argument) :
    (arguments.map Argument.shape).count .immediate =
      (arguments.filterMap Argument.value?).length := by
  induction arguments with
  | nil => rfl
  | cons argument arguments ih =>
    cases argument <;> simp [List.filterMap_cons, ih]

namespace Form

/-- A call of a machine routine has the word of an instruction without operands. -/
def Shadows (form : Form) (arguments : List Argument) (other : Form) : Prop :=
  form.mnemonic = "SYS" ∧ ∃ address, arguments = [.immediate address] ∧
    (other.mnemonic = "CLS" ∧ address % 16 ^ 3 = 0x0E0 ∨
      other.mnemonic = "RET" ∧ address % 16 ^ 3 = 0x0EE)

theorem Shadows.plain (h : Shadows form arguments other) :
    other.mnemonic = "CLS" ∨ other.mnemonic = "RET" := by
  obtain ⟨-, _, -, ⟨hcls, -⟩ | ⟨hret, -⟩⟩ := h
  · exact .inl hcls
  · exact .inr hret

/-- Each register has its slot, but for the one of a jump with an offset, and there is at most one
immediate. -/
theorem slots_of_mem : ∀ form ∈ Instruction.forms,
    (0 < form.shapes.count .register →
      .x ∈ form.template ∨ form.mnemonic = "JP" ∧ form.shapes.length = 2) ∧
    (1 < form.shapes.count .register → .y ∈ form.template) ∧
    form.shapes.count .register ≤ 2 ∧ form.shapes.count .immediate ≤ 1 := by decide

/-- Two forms differ in a fixed digit, unless one of them is `SYS`. -/
theorem clash_of_mem : ∀ form ∈ Instruction.forms, ∀ other ∈ Instruction.forms,
    form = other ∨
    (form.template.zip other.template).any (fun pair => pair.1.clash pair.2) = true ∨
    form.mnemonic = "SYS" ∧ (other.mnemonic = "CLS" ∨ other.mnemonic = "RET") ∨
    other.mnemonic = "SYS" ∧ (form.mnemonic = "CLS" ∨ form.mnemonic = "RET") := by decide +kernel

theorem sys_of_mem : ∀ form ∈ Instruction.forms, form.mnemonic = "SYS" →
    form.shapes = [.immediate] ∧ form.template = [.fixed 0, .n, .n, .n] := by decide

theorem plain_of_mem : ∀ form ∈ Instruction.forms,
    (form.mnemonic = "CLS" →
      form.shapes = [] ∧ form.template = [.fixed 0, .fixed 0, .fixed 14, .fixed 0]) ∧
    (form.mnemonic = "RET" →
      form.shapes = [] ∧ form.template = [.fixed 0, .fixed 0, .fixed 14, .fixed 14]) := by
  decide

theorem word?_eq_some_iff : word? form arguments = some word ↔
    Slot.digits? arguments form.template = some word.toList := by
  rw [word?, Option.map_eq_some_iff]
  constructor
  · rintro ⟨digits, hdigits, rfl⟩
    rw [hdigits, String.toList_ofList]
  · intro h
    exact ⟨word.toList, h, String.ofList_toList⟩

/-- Which call of a machine routine has the word of a form without operands that ends in the
digit. -/
theorem digits?_sys_eq_iff (address : Nat) (digit : Fin 16) :
    Slot.digits? [.immediate address] [.fixed 0, .n, .n, .n] =
      Slot.digits? [] [.fixed 0, .fixed 0, .fixed 14, .fixed digit] ↔
    address % 16 ^ 3 = 0x0E0 + digit.val := by
  have hplain : ∀ digit : Fin 16, Slot.digits? [] [.fixed 0, .fixed 0, .fixed 14, .fixed digit] =
      Slot.digits? [.immediate (0x0E0 + digit.val)] [.fixed 0, .n, .n, .n] := by decide
  have hsmall : (0x0E0 + digit.val) % 16 ^ 3 = 0x0E0 + digit.val := Nat.mod_eq_of_lt (by omega)
  rw [hplain]
  constructor
  · intro h
    have hdigits : Slot.digits? [.immediate (0x0E0 + digit.val)] [.fixed 0, .n, .n, .n] = some _ :=
      rfl
    have halike := Slot.alike_of_digits? (h.trans hdigits) hdigits
    exact Eq.trans (halike.value address (0x0E0 + digit.val) rfl rfl) hsmall
  · intro h
    have hmod : address ≡ 0x0E0 + digit.val [MOD 16 ^ 3] := h.trans hsmall.symm
    exact Slot.digits?_congr (.cons (.immediate hmod) .nil) le_rfl

end Form

/-! ### Instructions of one form, and of two -/

namespace Form.Reads

variable {form other : Form} {mnemonic mnemonic' : String} {operands operands' : List String}
  {arguments arguments' : List Argument}

theorem shapes_eq (h : form.Reads mnemonic operands arguments) :
    form.shapes = arguments.map Argument.shape := by
  obtain ⟨-, -, hshapes⟩ := Instruction.mem_of_lookup? h.lookup
  rw [hshapes, Argument.map_ofToken_eq h.spells]

theorem mem_forms (h : form.Reads mnemonic operands arguments) : form ∈ Instruction.forms :=
  (Instruction.mem_of_lookup? h.lookup).1

/-- The register of a jump with an offset. -/
theorem register_of_jump (h : form.Reads mnemonic operands arguments)
    (hjump : form.mnemonic = "JP") (hlength : form.shapes.length = 2) :
    (arguments.filterMap Argument.register?)[0]? = some 0 := by
  obtain ⟨-, hmnemonic, hshapes⟩ := Instruction.mem_of_lookup? h.lookup
  rw [hshapes, List.length_map] at hlength
  obtain ⟨rest, rfl⟩ := List.head?_eq_some_iff.mp (h.offset (hmnemonic ▸ hjump) hlength)
  rfl

section
variable (h : form.Reads mnemonic operands arguments)
  (h' : form.Reads mnemonic' operands' arguments')
  (halike : Slot.Alike form.template arguments arguments')
include h h' halike

theorem registers_eq :
    arguments.filterMap Argument.register? = arguments'.filterMap Argument.register? := by
  obtain ⟨hfirst, hsecond, hcount, -⟩ := slots_of_mem form h.mem_forms
  have hlength : (arguments.filterMap Argument.register?).length =
      form.shapes.count .register := by rw [h.shapes_eq, Argument.count_register]
  have hlength' : (arguments'.filterMap Argument.register?).length =
      form.shapes.count .register := by rw [h'.shapes_eq, Argument.count_register]
  refine List.ext_getElem? fun i => ?_
  by_cases hi : i < form.shapes.count .register
  · match i with
    | 0 =>
      rcases hfirst hi with hx | ⟨hjump, htwo⟩
      · exact halike.first hx
      · rw [h.register_of_jump hjump htwo, h'.register_of_jump hjump htwo]
    | 1 => exact halike.second (hsecond hi)
    | i + 2 => omega
  · rw [List.getElem?_eq_none (by omega), List.getElem?_eq_none (by omega)]

theorem values_modEq : List.Forall₂ (· ≡ · [MOD 16 ^ form.immediateWidth])
    (arguments.filterMap Argument.value?) (arguments'.filterMap Argument.value?) := by
  obtain ⟨-, -, -, hcount⟩ := slots_of_mem form h.mem_forms
  have hlength := Argument.count_immediate arguments
  have hlength' := Argument.count_immediate arguments'
  rw [← h.shapes_eq] at hlength
  rw [← h'.shapes_eq] at hlength'
  have hvalue := halike.value
  generalize arguments.filterMap Argument.value? = values at hlength hvalue ⊢
  generalize arguments'.filterMap Argument.value? = values' at hlength' hvalue ⊢
  match values, values' with
  | [], [] => exact .nil
  | [a], [b] => exact .cons (hvalue a b rfl rfl) .nil
  | [], _ :: _ | _ :: _, [] | _ :: _ :: _, _ | _, _ :: _ :: _ => simp at hlength hlength'; omega

/-- Arguments of a form that its slots take for the same agree. -/
theorem agree_of_alike :
    List.Forall₂ (Argument.Agree form.immediateWidth) arguments arguments' :=
  Argument.forall₂_agree_iff.mpr ⟨h.shapes_eq.symm.trans h'.shapes_eq,
    registers_eq h h' halike, values_modEq h h' halike⟩

end

theorem word?_eq_iff_shadows (h : form.Reads mnemonic operands arguments)
    (h' : other.Reads mnemonic' operands' arguments') (hsys : form.mnemonic = "SYS")
    (hplain : other.mnemonic = "CLS" ∨ other.mnemonic = "RET") :
    form.word? arguments = other.word? arguments' ↔ form.Shadows arguments other := by
  obtain ⟨hshapes, htemplate⟩ := sys_of_mem form h.mem_forms hsys
  obtain ⟨address, rfl⟩ : ∃ address, arguments = [.immediate address] := by
    rw [h.shapes_eq] at hshapes
    obtain ⟨argument, rfl, hshape⟩ := List.map_eq_singleton_iff.mp hshapes
    cases argument with
    | immediate address => exact ⟨address, rfl⟩
    | register | reserved => cases hshape
  have hnil : other.shapes = [] → arguments' = [] := by
    intro hnone
    rwa [h'.shapes_eq, List.map_eq_nil_iff] at hnone
  have hword : form.word? [.immediate address] = other.word? arguments' ↔
      Slot.digits? [.immediate address] form.template = Slot.digits? arguments' other.template :=
    (Option.map_injective fun _ _ h => String.ofList_inj.mp h).eq_iff
  rw [hword, htemplate]
  obtain ⟨hcls, hret⟩ := plain_of_mem other h'.mem_forms
  rcases hplain with hplain | hplain
  · obtain ⟨hnone, htemplate'⟩ := hcls hplain
    rw [hnil hnone, htemplate', digits?_sys_eq_iff]
    simp [Shadows, hsys, hplain]
  · obtain ⟨hnone, htemplate'⟩ := hret hplain
    rw [hnil hnone, htemplate', digits?_sys_eq_iff]
    simp [Shadows, hsys, hplain]

/-- Two instructions have the same word exactly if they are of one form with arguments that agree,
or if one of them is a call of a machine routine with the word of the other. -/
theorem word?_eq_word?_iff (h : form.Reads mnemonic operands arguments)
    (h' : other.Reads mnemonic' operands' arguments') :
    form.word? arguments = other.word? arguments' ↔
      form = other ∧ List.Forall₂ (Argument.Agree form.immediateWidth) arguments arguments' ∨
      form.Shadows arguments other ∨ other.Shadows arguments' form := by
  constructor
  · intro hword
    have hdigits := word?_eq_some_iff.mp h.word?_eq
    have hdigits' := word?_eq_some_iff.mp (hword ▸ h.word?_eq)
    rcases clash_of_mem form h.mem_forms other h'.mem_forms with
      rfl | hclash | ⟨hsys, hplain⟩ | ⟨hsys, hplain⟩
    · exact .inl ⟨rfl, agree_of_alike h h' (Slot.alike_of_digits? hdigits hdigits')⟩
    · rw [Slot.clash_eq_false hdigits hdigits'] at hclash
      cases hclash
    · exact .inr (.inl ((h.word?_eq_iff_shadows h' hsys hplain).mp hword))
    · exact .inr (.inr ((h'.word?_eq_iff_shadows h hsys hplain).mp hword.symm))
  · rintro (⟨rfl, hagree⟩ | hshadows | hshadows)
    · rw [word?, word?, Slot.digits?_congr hagree le_rfl]
    · exact (h.word?_eq_iff_shadows h' hshadows.1 hshadows.plain).mpr hshadows
    · exact ((h'.word?_eq_iff_shadows h hshadows.1 hshadows.plain).mpr hshadows).symm

end Form.Reads

namespace Encoding

/-- The tokens are an instruction of the form with the arguments. -/
def IsInstruction (tokens : List String) (form : Form) (arguments : List Argument) : Prop :=
  ∃ mnemonic operands, tokens = mnemonic :: operands ∧ selectForm mnemonic operands = .ok form ∧
    form.Reads mnemonic operands arguments

theorem exists_isInstruction (h : encodeInstruction labels tokens = .ok word) :
    ∃ form arguments, IsInstruction tokens form arguments ∧ form.word? arguments = some word := by
  cases tokens with
  | nil => cases h
  | cons mnemonic operands =>
    obtain ⟨form, arguments, hreads⟩ := exists_reads_of_ok h
    refine ⟨form, arguments, ⟨mnemonic, operands, rfl, hreads.selectForm_eq, hreads⟩, ?_⟩
    rw [hreads.word?_eq, Except.ok.inj ((hreads.encodeInstruction_eq labels).symm.trans h)]

theorem IsInstruction.head? (h : IsInstruction tokens form arguments) :
    tokens.head? = some form.mnemonic := by
  obtain ⟨mnemonic, operands, rfl, -, hreads⟩ := h
  rw [(Instruction.mem_of_lookup? hreads.lookup).2.1, List.head?_cons]

/-- Words are uniquely decodable. Two lists of tokens that the encoder accepts have the same word
exactly if it selects the same form for both and their arguments agree one by one, or if one of them
is a `SYS` with the word of the other, which is then `CLS` or `RET`. -/
theorem words_uniquely_decodable (h : encodeInstruction labels tokens = .ok word)
    (h' : encodeInstruction labels' tokens' = .ok word') :
    ∃ form arguments form' arguments',
      IsInstruction tokens form arguments ∧ IsInstruction tokens' form' arguments' ∧
      (word = word' ↔
        form = form' ∧ List.Forall₂ (Argument.Agree form.immediateWidth) arguments arguments' ∨
        form.Shadows arguments form' ∨ form'.Shadows arguments' form) := by
  obtain ⟨form, arguments, htokens, hword⟩ := exists_isInstruction h
  obtain ⟨form', arguments', htokens', hword'⟩ := exists_isInstruction h'
  refine ⟨form, arguments, form', arguments', htokens, htokens', ?_⟩
  obtain ⟨_, _, -, -, hreads⟩ := htokens
  obtain ⟨_, _, -, -, hreads'⟩ := htokens'
  rw [← hreads.word?_eq_word?_iff hreads', hword, hword', Option.some.injEq]

/-- Two jumps with an offset, one to an address of more than three digits. -/
theorem words_of_jumps_with_offset :
    let tokens := ["JP", "V0", "0x1300"]
    let tokens' := ["JP", "v00", "$300"]
    encodeInstruction [] tokens = .ok "B300" ∧ encodeInstruction [] tokens' = .ok "B300" ∧
      ∃ form arguments arguments', IsInstruction tokens form arguments ∧
        IsInstruction tokens' form arguments' ∧
        List.Forall₂ (Argument.Agree form.immediateWidth) arguments arguments' := by
  intro tokens tokens'
  have h : encodeInstruction [] tokens = .ok "B300" := by decide +kernel
  have h' : encodeInstruction [] tokens' = .ok "B300" := by decide +kernel
  obtain ⟨form, arguments, form', arguments', hform, hform', hword⟩ :=
    words_uniquely_decodable h h'
  have hjump : form.mnemonic = "JP" := (Option.some.inj hform.head?).symm
  have hjump' : form'.mnemonic = "JP" := (Option.some.inj hform'.head?).symm
  refine ⟨h, h', form, arguments, arguments', hform, ?_⟩
  rcases hword.mp rfl with ⟨rfl, hagree⟩ | ⟨hsys, -⟩ | ⟨hsys, -⟩
  · exact ⟨hform', hagree⟩
  · exact absurd (hjump.symm.trans hsys) (by decide)
  · exact absurd (hjump'.symm.trans hsys) (by decide)

end Encoding

end Chip8Asm
