import Mathlib
import Chip8Asm.Proofs.CodeLength

/-! The encoding of a line of the body depends on the line through its tokens alone, with the
aliases above the line replaced (`SourceLine.resolved`). In a program all labels are placed, so that
the names of labels among these tokens can be replaced as well (`Program.readTokens`). -/

namespace Chip8Asm

/-- The tokens through the aliases that are declared above the line. -/
def SourceLine.resolved (aliases : List Alias) (line : SourceLine) : List String :=
  line.tokens.map (Alias.resolve (Encoding.activeAliases aliases (some line.index)))

namespace Encoding

/-- Encodes tokens through aliases. -/
def encodeResolved (labels : List Label) (tokens : List String) : Except Fault String :=
  match tokens.mapM (substituteLabel labels) with
  | .ok tokens => encodeReplaced labels tokens
  | .error fault => .error fault

/-- The token, or the numeral of the address if it is the name of a label. -/
def located (labels : List Label) (token : String) : String :=
  match Label.find? labels token with
  | some label => "0X" ++ Text.hexSigned 3 (Layout.position label)
  | none => token

theorem encodeLine_eq_encodeResolved {line : SourceLine} (hnormal : line.IsNormal)
    (hdirective : line.isDirective = false) :
    encodeLine aliases labels line = encodeResolved labels (line.resolved aliases) := by
  obtain ⟨_, _, _, htokens, _⟩ := hnormal.tokens
  have hempty : ¬line.tokens.isEmpty = true := by simp [htokens]
  rw [encodeLine, encode, if_neg hempty, hnormal.addressName?_eq_none hdirective, encodeResolved,
    SourceLine.resolved, List.mapM_map]
  rfl

theorem substituteLabel_eq_located (hplaced : ∀ label ∈ labels, label.address ≠ none)
    (token : String) : substituteLabel labels token = .ok (located labels token) := by
  unfold substituteLabel located
  cases hfind : Label.find? labels token with
  | none => rfl
  | some label =>
    have haddress := hplaced label (List.mem_of_find?_eq_some hfind)
    obtain ⟨address, haddress⟩ := Option.ne_none_iff_exists'.mp haddress
    simp only [Label.addressHex, Label.requireAddress, haddress, Layout.position]
    rfl

theorem mapM_substituteLabel (hplaced : ∀ label ∈ labels, label.address ≠ none)
    (tokens : List String) :
    tokens.mapM (substituteLabel labels) = .ok (tokens.map (located labels)) := by
  induction tokens with
  | nil => rfl
  | cons token tokens ih =>
    rw [List.mapM_cons, ih, substituteLabel_eq_located hplaced]
    rfl

theorem encodeResolved_eq_encodeReplaced (hplaced : ∀ label ∈ labels, label.address ≠ none)
    (tokens : List String) :
    encodeResolved labels tokens = encodeReplaced labels (tokens.map (located labels)) := by
  rw [encodeResolved, mapM_substituteLabel hplaced]

end Encoding

namespace Program

variable {program : Program} {line : SourceLine}

/-- The tokens of a line as they are read, with aliases and labels replaced. -/
def readTokens (program : Program) (line : SourceLine) : List String :=
  (line.resolved program.aliases).map (Encoding.located program.labels)

theorem placed_ofSource (h : ofSource file policy source = .ok program) :
    ∀ label ∈ program.labels, label.address ≠ none := by
  intro label hlabel
  rw [(consecutive_ofSource h).address_eq_position (Layout.mem_inOrder.mpr hlabel)]
  exact Option.some_ne_none _

theorem encodeLine_eq (h : ofSource file policy source = .ok program)
    (hline : line ∈ program.lines) :
    Encoding.encodeLine program.aliases program.labels line =
      Encoding.encodeReplaced program.labels (program.readTokens line) := by
  obtain ⟨hnormal, hdirective⟩ := (sound_ofSource h).linesNormal line hline
  rw [Encoding.encodeLine_eq_encodeResolved hnormal hdirective,
    Encoding.encodeResolved_eq_encodeReplaced (placed_ofSource h), readTokens]

theorem substitute_eq (h : ofSource file policy source = .ok program) (line : SourceLine) :
    Encoding.substitute program.aliases program.labels (some line.index) line.tokens =
      .ok (program.readTokens line) := by
  rw [readTokens, SourceLine.resolved, ← Encoding.mapM_substituteLabel (placed_ofSource h),
    List.mapM_map]
  rfl

theorem readTokens_ne_nil (h : ofSource file policy source = .ok program)
    (hline : line ∈ program.lines) : program.readTokens line ≠ [] := by
  obtain ⟨c, cs, rest, htokens, _⟩ := ((sound_ofSource h).linesNormal line hline).1.tokens
  simp [readTokens, SourceLine.resolved, htokens]

end Program

end Chip8Asm
