import Mathlib
import Chip8Asm.Proofs.InstructionGrammar
import Chip8Asm.Proofs.Scan

/-! The length of the code of a line beside the size that the line was given when it was read. Both
look at the first token through the aliases above the line. The size asks whether it is a mnemonic,
the code first whether it is the name of a label: a label named like an instruction turns the line
into data, which has another length unless it has two tokens. -/

namespace Chip8Asm

/-! ### Aliases above a line -/

/-- What a token stands for at a line: the target of its latest alias above the line, or itself if
it has none there. -/
inductive Alias.Resolves (aliases : List Alias) (index : Int) (token : String) : String → Prop
  | latest : a ∈ aliases → a.source = token → a.index < index →
      (∀ b ∈ aliases, b.source = token → b.index < index → b.index ≤ a.index) →
      Resolves aliases index token a.target
  | self : (∀ a ∈ aliases, a.source = token → index ≤ a.index) →
      Resolves aliases index token token

namespace Alias

variable {aliases : List Alias} {a : Alias} {index : Int} {token first : String}

/-- In the order of declaration the last alias of a token is the latest. -/
theorem latest_of_find? (hsorted : aliases.Pairwise (·.index < ·.index))
    (hfind : aliases.reverse.find? (·.source == token) = some a) :
    a ∈ aliases ∧ a.source = token ∧
      ∀ b ∈ aliases, b.source = token → b = a ∨ b.index < a.index := by
  obtain ⟨hsource, after, before, hsplit, hafter⟩ := List.find?_eq_some_iff_append.mp hfind
  have heq : aliases = before.reverse ++ a :: after.reverse := by
    simpa using congrArg List.reverse hsplit
  refine ⟨by simp [heq], by simpa using hsource, fun b hb hbsource => ?_⟩
  rw [heq, List.mem_append, List.mem_cons] at hb
  rcases hb with hb | hb | hb
  · rw [heq] at hsorted
    exact .inr ((List.pairwise_append.mp hsorted).2.2 b hb a List.mem_cons_self)
  · exact .inl hb
  · have := hafter b (List.mem_reverse.mp hb)
    simp [hbsource] at this

theorem resolves_iff (hsorted : aliases.Pairwise (·.index < ·.index)) :
    Resolves aliases index token first ↔
      resolve (Encoding.activeAliases aliases (some index)) token = first := by
  have hmem : ∀ a, a ∈ Encoding.activeAliases aliases (some index) ↔
      a ∈ aliases ∧ a.index < index := by
    simp [Encoding.activeAliases]
  have hactive : (Encoding.activeAliases aliases (some index)).Pairwise (·.index < ·.index) :=
    hsorted.filter _
  cases hfind : (Encoding.activeAliases aliases (some index)).reverse.find? (·.source == token) with
  | none =>
    have hnone : ∀ a ∈ aliases, a.source = token → index ≤ a.index := by
      intro a ha hsource
      by_contra habove
      have hne := List.find?_eq_none.mp hfind a
        (List.mem_reverse.mpr ((hmem a).mpr ⟨ha, not_le.mp habove⟩))
      simp [hsource] at hne
    rw [resolve, hfind]
    constructor
    · intro h
      cases h with
      | latest ha hsource habove _ => exact absurd (hnone _ ha hsource) (not_le.mpr habove)
      | self _ => rfl
    · rintro rfl
      exact .self hnone
  | some a =>
    obtain ⟨ha, hsource, hlatest⟩ := latest_of_find? hactive hfind
    obtain ⟨ha, habove⟩ := (hmem a).mp ha
    rw [resolve, hfind]
    constructor
    · intro h
      cases h with
      | @latest b hb hbsource hbabove hblatest =>
        rcases hlatest b ((hmem b).mpr ⟨hb, hbabove⟩) hbsource with rfl | hlt
        · rfl
        · exact absurd (hblatest a ha hsource habove) (not_le.mpr hlt)
      | self hnone => exact absurd (hnone a ha hsource) (not_le.mpr habove)
    · rintro rfl
      refine .latest ha hsource habove fun b hb hbsource hbabove => ?_
      rcases hlatest b ((hmem b).mpr ⟨hb, hbabove⟩) hbsource with rfl | hlt
      · exact le_rfl
      · exact hlt.le

end Alias

/-! ### Lengths of codes -/

/-- A mnemonic is no numeral. -/
theorem Instruction.kind_of_isMnemonic (h : isMnemonic token = true) :
    Kind.ofToken token = .invalid := by
  have htable : ∀ name ∈ mnemonics, Kind.ofUpper name.toList = .invalid := by decide
  have hkind := htable _ (List.contains_iff_mem.mp h)
  rwa [Text.upper, String.toList_ofList] at hkind

namespace Encoding

theorem forall₂_of_mapM {f : α → Except ε β} (h : xs.mapM f = .ok ys) :
    List.Forall₂ (fun x y => f x = .ok y) xs ys := by
  induction xs generalizing ys with
  | nil =>
    cases h
    exact .nil
  | cons x xs ih =>
    rw [List.mapM_cons] at h
    cases hx : f x with
    | error e =>
      rw [hx] at h
      cases h
    | ok y =>
      cases hxs : xs.mapM f with
      | error e =>
        rw [hx, hxs] at h
        cases h
      | ok rest =>
        rw [hx, hxs] at h
        cases h
        exact .cons hx (ih hxs)

theorem length_of_encodeData (h : encodeData tokens = .ok code) :
    code.length = 2 * tokens.length := by
  obtain ⟨bytes, hbytes, rfl⟩ := map_eq_ok_iff.mp h
  replace hbytes := forall₂_of_mapM hbytes
  rw [String.length_join]
  clear h
  induction hbytes with
  | nil => rfl
  | cons hbyte _ ih =>
    obtain ⟨n, _, rfl⟩ := (Numeral.normalize_eq_ok_iff Nat.two_pos).mp hbyte
    rw [List.map_cons, List.sum_cons, ih, String.length_ofList, Text.length_lowDigits,
      List.length_cons, Nat.mul_succ, Nat.add_comm]

theorem substituteLabel_cases (h : substituteLabel labels token = .ok replaced) :
    token ∈ labels.map Label.name ∧ Kind.ofToken replaced = .hex ∨
      token ∉ labels.map Label.name ∧ replaced = token := by
  unfold substituteLabel at h
  split at h
  · rename_i label hfind
    obtain ⟨digits, _, rfl⟩ := map_eq_ok_iff.mp h
    refine .inl ⟨?_, ?_⟩
    · have hname : label.name = token := by simpa using List.find?_some hfind
      exact hname ▸ List.mem_map_of_mem (List.mem_of_find?_eq_some hfind)
    · rw [Kind.ofToken_eq, String.toList_append]
      rfl
  · rename_i hfind
    exact .inr ⟨Label.find?_eq_none_iff.mp hfind, (Except.ok.inj h).symm⟩

theorem encodeReplaced_cases (h : encodeReplaced labels (head :: rest) = .ok code) :
    (Kind.ofToken head).isNumeric = true ∧ code.length = 2 * (head :: rest).length ∨
      (Kind.ofToken head).isNumeric = false ∧ Instruction.isMnemonic head = true ∧
        code.length = 4 := by
  simp only [encodeReplaced] at h
  split at h
  · rename_i hnumeric
    exact .inl ⟨hnumeric, length_of_encodeData h⟩
  · rename_i hnumeric
    exact .inr ⟨by simpa using hnumeric, isMnemonic_of_encodeInstruction h,
      length_of_encodeInstruction h⟩

end Encoding

/-! ### Lengths against sizes -/

/-- The first token through the aliases above the line. -/
def SourceLine.first? (aliases : List Alias) (line : SourceLine) : Option String :=
  line.tokens.head?.map (Alias.resolve (Encoding.activeAliases aliases (some line.index)))

theorem SourceLine.bytes_of_first? (h : SourceLine.first? aliases line = some first) :
    line.bytes aliases =
      if Instruction.isMnemonic first then Instruction.size else line.tokens.length := by
  obtain ⟨head, hhead, rfl⟩ := Option.map_eq_some_iff.mp h
  rw [bytes, size?, hhead]
  rfl

/-- A line is data if its first token is the name of a label or a numeral, and else an
instruction. -/
theorem Encoding.encodeLine_cases (hnormal : SourceLine.IsNormal line)
    (hdirective : line.isDirective = false)
    (h : encodeLine aliases labels line = .ok code) :
    ∃ first, line.first? aliases = some first ∧
      (first ∈ labels.map Label.name ∧ code.length = 2 * line.tokens.length ∨
        first ∉ labels.map Label.name ∧ (Kind.ofToken first).isNumeric = true ∧
          Instruction.isMnemonic first = false ∧ code.length = 2 * line.tokens.length ∨
        first ∉ labels.map Label.name ∧ (Kind.ofToken first).isNumeric = false ∧
          Instruction.isMnemonic first = true ∧ code.length = 4) := by
  obtain ⟨c, cs, rest, htokens, _⟩ := hnormal.tokens
  have hname := hnormal.addressName?_eq_none hdirective
  rw [htokens] at hname
  have hfirst : line.first? aliases =
      some (Alias.resolve (activeAliases aliases (some line.index)) (String.ofList (c :: cs))) := by
    simp [SourceLine.first?, htokens]
  refine ⟨_, hfirst, ?_⟩
  rw [encodeLine, htokens, encode, if_neg (by simp), hname] at h
  dsimp only at h
  cases hreplaced :
      substitute aliases labels (some line.index) (String.ofList (c :: cs) :: rest) with
  | error fault =>
    rw [hreplaced] at h
    cases h
  | ok replaced =>
    rw [hreplaced] at h
    dsimp only at h
    rw [htokens]
    cases forall₂_of_mapM hreplaced with
    | @cons _ head _ tail hhead htail =>
      have hlength : (head :: tail).length = (String.ofList (c :: cs) :: rest).length := by
        rw [List.length_cons, List.length_cons, htail.length_eq]
      rcases substituteLabel_cases hhead with ⟨hmem, hhex⟩ | ⟨hmem, rfl⟩
      · rcases encodeReplaced_cases h with ⟨_, hcode⟩ | ⟨hnumeric, _⟩
        · exact .inl ⟨hmem, hlength ▸ hcode⟩
        · rw [hhex] at hnumeric
          cases hnumeric
      · rcases encodeReplaced_cases h with ⟨hnumeric, hcode⟩ | hcode
        · refine .inr (.inl ⟨hmem, hnumeric, ?_, hlength ▸ hcode⟩)
          by_contra hmnemonic
          rw [Instruction.kind_of_isMnemonic (by simpa using hmnemonic)] at hnumeric
          cases hnumeric
        · exact .inr (.inr ⟨hmem, hcode⟩)

namespace Program

variable {program : Program}

/-- The bytes by which the code of a line exceeds its size. A line whose first token is both a
mnemonic and the name of a label has the size of an instruction and one byte of code for each
token. -/
def excess (program : Program) (line : SourceLine) : Int :=
  match line.first? program.aliases with
  | some first =>
    if Instruction.isMnemonic first = true ∧ first ∈ program.labels.map Label.name then
      line.tokens.length - Instruction.size
    else 0
  | none => 0

theorem length_of_encodeLine (h : Sound program rest) (hline : line ∈ program.lines)
    (hcode : Encoding.encodeLine program.aliases program.labels line = .ok code) :
    (code.length : Int) = 2 * (line.bytes program.aliases + program.excess line) := by
  obtain ⟨hnormal, hdirective⟩ := h.linesNormal line hline
  obtain ⟨first, hfirst, hcases⟩ := Encoding.encodeLine_cases hnormal hdirective hcode
  rw [SourceLine.bytes_of_first? hfirst, excess, hfirst]
  rcases hcases with ⟨hmem, hlength⟩ | ⟨_, _, hmnemonic, hlength⟩ | ⟨hmem, _, hmnemonic, hlength⟩
  · by_cases hmnemonic : Instruction.isMnemonic first = true
    · simp [hmem, hmnemonic, hlength]
    · simp [hmnemonic, hlength]
  · simp [hmnemonic, hlength]
  · simp [hmem, hmnemonic, hlength, Instruction.size]

theorem excess_eq_zero_iff (h : SourceLine.first? program.aliases line = some first) :
    program.excess line = 0 ↔
      ¬(Instruction.isMnemonic first = true ∧ first ∈ program.labels.map Label.name ∧
        line.tokens.length ≠ 2) := by
  rw [excess, h, ← and_assoc, not_and, not_not]
  dsimp only
  split
  · rename_i hambiguous
    rw [imp_iff_right hambiguous, Instruction.size]
    omega
  · rename_i hambiguous
    exact iff_of_true rfl fun h => (hambiguous h).elim

end Program

/-- The size given to a line and the length of its code agree, but for the lines that a label named
like their instruction turns into data. -/
theorem Encoding.length_code_eq_twice_size_iff
    (hprogram : Program.ofSource file policy source = .ok program) (hline : line ∈ program.lines)
    (hcode : encodeLine program.aliases program.labels line = .ok code) :
    ∃ head first size, line.tokens.head? = some head ∧
      Alias.Resolves program.aliases line.index head first ∧
      (∀ bytes, .body line bytes ∈
        ({} : Program).statements file policy (SourceLine.ofSource source) ↔ bytes = size) ∧
      code.length =
        (if first ∈ program.labels.map Label.name ∨ (Kind.ofToken first).isNumeric = true then
          2 * line.tokens.length
        else 4) ∧
      (code.length = 2 * size ↔
        ¬(Instruction.isMnemonic first = true ∧ first ∈ program.labels.map Label.name ∧
          line.tokens.length ≠ 2)) := by
  have hsound := Program.sound_ofSource hprogram
  obtain ⟨hnormal, hdirective⟩ := hsound.linesNormal line hline
  obtain ⟨first, hfirst, hcases⟩ := encodeLine_cases hnormal hdirective hcode
  obtain ⟨head, hhead, hresolve⟩ := Option.map_eq_some_iff.mp hfirst
  refine ⟨head, first, line.bytes program.aliases, hhead,
    (Alias.resolves_iff hsound.aliasesIncreasing).mpr hresolve, fun bytes => ?_, ?_, ?_⟩
  · rw [Program.body_mem_statements_iff hprogram, and_iff_right hline]
  · rcases hcases with ⟨hmem, hlength⟩ | ⟨_, hnumeric, _, hlength⟩ | ⟨hmem, hnumeric, _, hlength⟩
    · rw [if_pos (.inl hmem), hlength]
    · rw [if_pos (.inr hnumeric), hlength]
    · rw [if_neg (by simp [hmem, hnumeric]), hlength]
  · rw [← Program.excess_eq_zero_iff hfirst]
    have hlength := Program.length_of_encodeLine hsound hline hcode
    omega

/-- A line of three bytes with the size of an instruction, through an alias of the label. -/
theorem Encoding.length_code_of_aliased_label :
    let line : SourceLine := ⟨3, "X 1 2"⟩
    let labels : List Label := [{ name := "CLS", address := some 512, size := 2, lines := [line] }]
    let program : Program := { lines := [line], aliases := [⟨"X", "CLS", 1⟩], labels }
    let source := ": CLS\n:alias X cls\n; three tokens\nx 1, 2"
    Program.ofSource "" .reject source = .ok program ∧ line ∈ program.lines ∧
      encodeLine program.aliases program.labels line = .ok "000102" ∧
      ∃ head first size, line.tokens.head? = some head ∧
        Alias.Resolves program.aliases line.index head first ∧
        (∀ bytes, .body line bytes ∈
          ({} : Program).statements "" .reject (SourceLine.ofSource source) ↔ bytes = size) ∧
        "000102".length =
          (if first ∈ program.labels.map Label.name ∨ (Kind.ofToken first).isNumeric = true then
            2 * line.tokens.length
          else 4) ∧
        ("000102".length = 2 * size ↔
          ¬(Instruction.isMnemonic first = true ∧ first ∈ program.labels.map Label.name ∧
            line.tokens.length ≠ 2)) := by
  intro line labels program source
  have hprogram : Program.ofSource "" .reject source = .ok program := by decide +kernel
  have hcode : encodeLine program.aliases program.labels line = .ok "000102" := by decide +kernel
  have hline : line ∈ program.lines := List.mem_singleton_self line
  exact ⟨hprogram, hline, hcode, length_code_eq_twice_size_iff hprogram hline hcode⟩

end Chip8Asm
