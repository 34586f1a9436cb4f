import Mathlib
import Chip8Asm.Proofs.DigitLimit
import Chip8Asm.Proofs.FreshLabel
import Chip8Asm.Proofs.LabelTable
import Chip8Asm.Proofs.Records

/-! The names of labels are bound names. A label can be given another name that does not stand in
the source, in its declaration and wherever else its name stands. Reading the two sources line by
line keeps the two programs in step (`Renaming.Renames`): all that differs is the name. Once labels
are replaced by their addresses the lines of the two programs have the same tokens, and then labels
serve for hints only. -/

namespace Chip8Asm

/-- The name has no meaning but the one that a declaration gives it. -/
structure IsOrdinary (name : String) : Prop where
  notEntry : name ≠ Layout.entryName
  notAlias : name ≠ "ALIAS"
  notMnemonic : Instruction.isMnemonic name = false
  notDirective : name.toList.head? ≠ some ':'

/-- A name of labels, and a token to put in its place. -/
structure Renaming where
  old : String
  new : String
  oldOrdinary : IsOrdinary old
  newOrdinary : IsOrdinary new
  newNormal : SourceLine.normalize new = new
  newWord : Text.words new = [new]

namespace Renaming

/-! ### Tokens -/

def token (ρ : Renaming) (token : String) : String := if token = ρ.old then ρ.new else token

/-- The first token of a line may be a name joined to the colon of a directive. -/
def first (ρ : Renaming) (token : String) : String :=
  if token = ":" ++ ρ.old then ":" ++ ρ.new else ρ.token token

def tokens (ρ : Renaming) : List String → List String
  | [] => []
  | first :: rest => ρ.first first :: rest.map ρ.token

def text (ρ : Renaming) (text : String) : String := unwords (ρ.tokens (Text.words text))

/-- The normal forms of the lines are those of the source, renamed. -/
def IsRenaming (ρ : Renaming) (source renamed : String) : Prop :=
  (Text.lines renamed).map SourceLine.normalize =
    ((Text.lines source).map SourceLine.normalize).map ρ.text

instance (ρ : Renaming) : Decidable (ρ.IsRenaming source renamed) :=
  inferInstanceAs (Decidable (_ = _))

/-- The source under the new name. -/
def source (ρ : Renaming) (source : String) : String :=
  Text.unlines (((Text.lines source).map SourceLine.normalize).map ρ.text)

/-- The new name is none of the tokens, and is not joined to the colon of a directive. -/
def Spares (ρ : Renaming) (words : List String) : Prop :=
  ρ.new ∉ words ∧ words.head? ≠ some (":" ++ ρ.new)

instance (ρ : Renaming) (words : List String) : Decidable (ρ.Spares words) :=
  inferInstanceAs (Decidable (_ ∧ _))

variable {ρ : Renaming} {a b : String}

theorem isToken_new (ρ : Renaming) : IsToken ρ.new := by
  have hmem : ρ.new ∈ Text.words (SourceLine.normalize ρ.new) := by
    rw [ρ.newNormal, ρ.newWord]
    exact List.mem_singleton_self _
  exact SourceLine.isToken_of_mem_words hmem

theorem token_old (ρ : Renaming) : ρ.token ρ.old = ρ.new := if_pos rfl

theorem token_of_ne (h : a ≠ ρ.old) : ρ.token a = a := if_neg h

/-- No two tokens become the same unless one is the new name. -/
theorem token_inj (ha : a ≠ ρ.new) (hb : b ≠ ρ.new) : ρ.token a = ρ.token b ↔ a = b := by
  refine ⟨fun h => ?_, congrArg ρ.token⟩
  by_cases haOld : a = ρ.old
  · by_cases hbOld : b = ρ.old
    · rw [haOld, hbOld]
    · rw [haOld, token_old, token_of_ne hbOld] at h
      exact (hb h.symm).elim
  · by_cases hbOld : b = ρ.old
    · rw [hbOld, token_old, token_of_ne haOld] at h
      exact (ha h).elim
    · rwa [token_of_ne haOld, token_of_ne hbOld] at h

/-- What holds of neither name holds of a token under both names or neither. -/
theorem token_congr {P : String → Prop} (hold : ¬P ρ.old) (hnew : ¬P ρ.new) (a : String) :
    P (ρ.token a) ↔ P a := by
  by_cases ha : a = ρ.old
  · rw [ha, token_old]
    exact iff_of_false hnew hold
  · rw [token_of_ne ha]

theorem isMnemonic_token (ρ : Renaming) (a : String) :
    Instruction.isMnemonic (ρ.token a) = Instruction.isMnemonic a := by
  have hold := ρ.oldOrdinary.notMnemonic
  have hnew := ρ.newOrdinary.notMnemonic
  rw [Bool.eq_iff_iff]
  exact token_congr (P := (Instruction.isMnemonic · = true)) (by simp [hold]) (by simp [hnew]) a

theorem token_eq_entryName_iff (ρ : Renaming) (a : String) :
    ρ.token a = Layout.entryName ↔ a = Layout.entryName :=
  token_congr (P := (· = Layout.entryName)) ρ.oldOrdinary.notEntry ρ.newOrdinary.notEntry a

theorem front_token (ρ : Renaming) (a : String) :
    (ρ.token a).toList.head? = some ':' ↔ a.toList.head? = some ':' :=
  token_congr (P := fun a => a.toList.head? = some ':') ρ.oldOrdinary.notDirective
    ρ.newOrdinary.notDirective a

theorem front_first (ρ : Renaming) (a : String) :
    (ρ.first a).toList.head? = some ':' ↔ a.toList.head? = some ':' := by
  unfold first
  split
  · rename_i ha
    rw [ha]
    exact iff_of_true (front_colon _) (front_colon _)
  · exact ρ.front_token a

theorem first_of_front (h : a.toList.head? ≠ some ':') : ρ.first a = ρ.token a := by
  refine if_neg fun ha => h ?_
  rw [ha]
  exact front_colon _

theorem token_of_front (h : a.toList.head? = some ':') : ρ.token a = a := by
  refine token_of_ne fun ha => ρ.oldOrdinary.notDirective ?_
  rw [← ha, h]

/-- The name behind the colon of a directive is renamed as it is elsewhere. -/
theorem first_colon (ρ : Renaming) (name : String) :
    ρ.first (":" ++ name) = ":" ++ ρ.token name := by
  unfold first
  split
  · rename_i h
    rw [colon_inj h, token_old]
  · rename_i h
    rw [token_of_front (front_colon _), token_of_ne fun hname => h (congrArg (":" ++ ·) hname)]

theorem first_aliasDirective (ρ : Renaming) :
    ρ.first Program.aliasDirective = Program.aliasDirective := by
  rw [Program.aliasDirective_eq, first_colon, token_of_ne ρ.oldOrdinary.notAlias.symm]

theorem first_eq_aliasDirective (h : ρ.first a = Program.aliasDirective) :
    a = Program.aliasDirective := by
  unfold first at h
  split at h
  · rw [Program.aliasDirective_eq] at h
    exact (ρ.newOrdinary.notAlias (colon_inj h)).elim
  · have hfront : (ρ.token a).toList.head? = some ':' := by
      rw [h]
      decide
    rwa [token_of_front ((ρ.front_token a).mp hfront)] at h

theorem isToken_token (h : IsToken a) : IsToken (ρ.token a) := by
  unfold token
  split
  · exact ρ.isToken_new
  · exact h

theorem isToken_first (h : IsToken a) : IsToken (ρ.first a) := by
  unfold first
  split
  · obtain ⟨-, hcolon⟩ := IsToken.colon
    constructor
    · simp
    · intro c hc
      rw [String.toList_append] at hc
      exact (List.mem_append.mp hc).elim (hcolon c) (ρ.isToken_new.plain c)
  · exact isToken_token h

theorem isToken_tokens {words : List String} (h : ∀ word ∈ words, IsToken word) :
    ∀ word ∈ ρ.tokens words, IsToken word := by
  cases words with
  | nil => exact h
  | cons first rest =>
    obtain ⟨hfirst, hrest⟩ := List.forall_mem_cons.mp h
    refine List.forall_mem_cons.mpr ⟨isToken_first hfirst, fun word hword => ?_⟩
    obtain ⟨other, hother, rfl⟩ := List.mem_map.mp hword
    exact isToken_token (hrest other hother)

theorem isToken_text (ρ : Renaming) (raw : String) :
    ∀ word ∈ ρ.tokens (Text.words (SourceLine.normalize raw)), IsToken word :=
  isToken_tokens fun _ => SourceLine.isToken_of_mem_words

theorem isRenaming_source (ρ : Renaming) (source : String) :
    ρ.IsRenaming source (ρ.source source) := by
  apply normalize_lines_unlines
  intro text htext
  obtain ⟨normal, hnormal, rfl⟩ := List.mem_map.mp htext
  obtain ⟨raw, -, rfl⟩ := List.mem_map.mp hnormal
  exact ⟨_, ρ.isToken_text raw, rfl⟩

/-! ### Lines -/

def line (ρ : Renaming) (line : SourceLine) : SourceLine := { line with text := ρ.text line.text }

variable {line : SourceLine}

theorem tokens_line (ρ : Renaming) (h : line.IsNormal) : (ρ.line line).tokens = ρ.tokens line.tokens := by
  obtain ⟨-, raw, htext⟩ := h
  have htokens := ρ.isToken_text raw
  rw [← htext] at htokens
  exact words_unwords htokens

theorem isNormal_line (ρ : Renaming) (h : line.IsNormal) : (ρ.line line).IsNormal := by
  obtain ⟨c, cs, rest, htokens, -⟩ := h.tokens
  have hwords := ρ.tokens_line h
  obtain ⟨-, raw, htext⟩ := h
  have hwritten := ρ.isToken_text raw
  rw [← htext] at hwritten
  refine ⟨fun hempty => ?_, unwords _, (normalize_unwords hwritten).symm⟩
  rw [SourceLine.tokens, hempty, htokens] at hwords
  cases hwords

theorem text_ne_empty {text : String} (h : SourceLine.IsNormal ⟨index, text⟩) : ρ.text text ≠ "" :=
  (ρ.isNormal_line h).1

theorem isDirective_line (ρ : Renaming) (h : line.IsNormal) : (ρ.line line).isDirective = line.isDirective := by
  obtain ⟨c, cs, rest, htokens, -⟩ := h.tokens
  have hwords : (ρ.line line).tokens = ρ.first (String.ofList (c :: cs)) :: rest.map ρ.token := by
    rw [ρ.tokens_line h, htokens, tokens]
  rw [Bool.eq_iff_iff, h.isDirective_iff_first htokens,
    (ρ.isNormal_line h).isDirective_iff_first hwords]
  exact ρ.front_first _

/-- The lines of the body do not begin with a colon, so that all their tokens are renamed alike. -/
theorem tokens_line_of_body (ρ : Renaming) (h : line.IsNormal) (hdirective : line.isDirective = false) :
    (ρ.line line).tokens = line.tokens.map ρ.token := by
  obtain ⟨c, cs, rest, htokens, -⟩ := h.tokens
  have hfront : (String.ofList (c :: cs)).toList.head? ≠ some ':' := by
    intro hfront
    rw [(h.isDirective_iff_first htokens).mpr hfront] at hdirective
    cases hdirective
  rw [ρ.tokens_line h, htokens, tokens, first_of_front hfront, List.map_cons]

theorem numbered_renamed {raws others : List String}
    (h : others.map SourceLine.normalize = (raws.map SourceLine.normalize).map ρ.text)
    (index : Nat) :
    SourceLine.numbered index others = (SourceLine.numbered index raws).map ρ.line := by
  induction raws generalizing others index with
  | nil =>
    obtain rfl := List.map_eq_nil_iff.mp h
    rfl
  | cons raw raws ih =>
    obtain ⟨other, others, rfl, hother, hrest⟩ := List.map_eq_cons_iff.mp h
    by_cases hempty : SourceLine.normalize raw = ""
    · have hotherEmpty : SourceLine.normalize other = "" := by
        rw [hother, hempty]
        rfl
      rw [SourceLine.numbered_cons_of_eq hempty, SourceLine.numbered_cons_of_eq hotherEmpty,
        ih hrest]
    · have hnormal : SourceLine.IsNormal ⟨index, SourceLine.normalize raw⟩ := ⟨hempty, raw, rfl⟩
      have hotherNe : SourceLine.normalize other ≠ "" := by
        rw [hother]
        exact text_ne_empty hnormal
      rw [SourceLine.numbered_cons_of_ne hempty, SourceLine.numbered_cons_of_ne hotherNe,
        ih hrest, List.map_cons, hother]
      rfl

/-! ### Aliases and labels -/

def aliased (ρ : Renaming) (a : Alias) : Alias := ⟨ρ.token a.source, ρ.token a.target, a.index⟩

def label (ρ : Renaming) (label : Label) : Label :=
  { label with name := ρ.token label.name, lines := label.lines.map ρ.line }

theorem find?_map_token (key : α → String) {f : α → α} {as : List α}
    (hkey : ∀ a, key (f a) = ρ.token (key a)) (has : ∀ a ∈ as, key a ≠ ρ.new)
    (hname : name ≠ ρ.new) :
    (as.map f).find? (key · == ρ.token name) = (as.find? (key · == name)).map f := by
  induction as with
  | nil => rfl
  | cons a as ih =>
    obtain ⟨ha, has⟩ := List.forall_mem_cons.mp has
    have hsame : (key (f a) == ρ.token name) = (key a == name) := by
      rw [hkey, Bool.eq_iff_iff, beq_iff_eq, beq_iff_eq]
      exact token_inj ha hname
    rw [List.map_cons, List.find?_cons, List.find?_cons, hsame, ih has]
    split <;> rfl

variable {aliases : List Alias} {labels : List Label}

theorem resolve_token (haliases : ∀ a ∈ aliases, a.source ≠ ρ.new) (ha : a ≠ ρ.new) :
    Alias.resolve (aliases.map ρ.aliased) (ρ.token a) = ρ.token (Alias.resolve aliases a) := by
  have hsources : ∀ a ∈ aliases.reverse, a.source ≠ ρ.new :=
    fun a ha => haliases a (List.mem_reverse.mp ha)
  rw [Alias.resolve, Alias.resolve, ← List.map_reverse,
    find?_map_token Alias.source (fun _ => rfl) hsources ha]
  cases aliases.reverse.find? (·.source == a) <;> rfl

theorem resolve_ne_new (haliases : ∀ a ∈ aliases, a.target ≠ ρ.new) (ha : a ≠ ρ.new) :
    Alias.resolve aliases a ≠ ρ.new := by
  unfold Alias.resolve
  split
  · rename_i found hfind
    exact haliases found (List.mem_reverse.mp (List.mem_of_find?_eq_some hfind))
  · exact ha

theorem find?_label (hlabels : ρ.new ∉ labels.map Label.name) (ha : a ≠ ρ.new) :
    Label.find? (labels.map ρ.label) (ρ.token a) = (Label.find? labels a).map ρ.label := by
  refine find?_map_token Label.name (fun _ => rfl) (fun label hlabel hname => hlabels ?_) ha
  rw [← hname]
  exact List.mem_map_of_mem hlabel

/-- Behind the addresses of labels the two names are the same. -/
theorem located_token (hlabels : ρ.new ∉ labels.map Label.name)
    (hdeclared : ρ.old ∈ labels.map Label.name) (ha : a ≠ ρ.new) :
    Encoding.located (labels.map ρ.label) (ρ.token a) = Encoding.located labels a := by
  rw [Encoding.located, Encoding.located, find?_label hlabels ha]
  cases hfind : Label.find? labels a with
  | some found => rfl
  | none =>
    refine token_of_ne ?_
    rintro rfl
    exact Label.find?_eq_none_iff.mp hfind hdeclared

theorem addToLast_label (ρ : Renaming) (line : SourceLine) (size : Int) (labels : List Label) :
    Label.addToLast (ρ.line line) size (labels.map ρ.label) =
      (Label.addToLast line size labels).map ρ.label := by
  cases labels using List.reverseRecOn with
  | nil => rfl
  | append_singleton labels last =>
    rw [List.map_append, List.map_singleton, Label.addToLast_append, Label.addToLast_append,
      List.map_append, List.map_singleton]
    simp [label, Label.addLine]

theorem neutral_label (ρ : Renaming) : Layout.Neutral ρ.label where
  entry label := by
    rw [Layout.isEntry, Layout.isEntry, Bool.eq_iff_iff, beq_iff_eq, beq_iff_eq]
    exact ρ.token_eq_entryName_iff label.name
  size _ := rfl
  address _ _ := rfl

theorem size?_line (h : line.IsNormal) (hdirective : line.isDirective = false)
    (hline : ρ.new ∉ line.tokens) (haliases : ∀ a ∈ aliases, a.source ≠ ρ.new) :
    (ρ.line line).size? (aliases.map ρ.aliased) = line.size? aliases := by
  obtain ⟨c, cs, rest, htokens, -⟩ := h.tokens
  have hfirst : String.ofList (c :: cs) ≠ ρ.new := by
    intro heq
    rw [htokens, heq] at hline
    exact hline List.mem_cons_self
  rw [SourceLine.size?, SourceLine.size?, ρ.tokens_line_of_body h hdirective, htokens,
    List.map_cons, List.head?_cons, List.head?_cons, Option.map_some, Option.map_some,
    resolve_token haliases hfirst, isMnemonic_token, List.length_cons, List.length_cons,
    List.length_map]

theorem resolved_line (h : line.IsNormal) (hdirective : line.isDirective = false)
    (hline : ρ.new ∉ line.tokens) (haliases : ∀ a ∈ aliases, a.source ≠ ρ.new) :
    (ρ.line line).resolved (aliases.map ρ.aliased) = (line.resolved aliases).map ρ.token := by
  have hactive : Encoding.activeAliases (aliases.map ρ.aliased) (some (ρ.line line).index) =
      (Encoding.activeAliases aliases (some line.index)).map ρ.aliased := List.filter_map
  rw [SourceLine.resolved, SourceLine.resolved, hactive, ρ.tokens_line_of_body h hdirective,
    List.map_map, List.map_map]
  refine List.map_congr_left fun token htoken => resolve_token (fun a ha => ?_) ?_
  · exact haliases a (List.mem_of_mem_filter ha)
  · rintro rfl
    exact hline htoken

/-! ### Directives -/

variable {first name : String} {rest : List String}

theorem name_ne_new (hspares : ρ.Spares (first :: rest)) (hfirst : first.toList.head? = some ':')
    (h : Program.labelNames? (first :: rest) = some [name]) : name ≠ ρ.new := by
  rintro rfl
  rcases Program.labelNames?_cases hfirst h with ⟨-, rfl⟩ | ⟨rfl, -, -⟩
  · exact hspares.1 (.tail _ (.head _))
  · exact hspares.2 rfl

theorem labelNames?_tokens (hold : ρ.old ≠ "") (hfirst : first.toList.head? = some ':')
    (h : Program.labelNames? (first :: rest) = some [name]) :
    Program.labelNames? (ρ.tokens (first :: rest)) = some [ρ.token name] := by
  have hcolon : ∀ name, name ≠ "" → ":" ++ name ≠ ":" := fun name hname heq =>
    hname (colon_inj heq)
  rcases Program.labelNames?_cases hfirst h with ⟨rfl, rfl⟩ | ⟨rfl, hne, rfl⟩
  · have hkept : ρ.first ":" = ":" := by
      rw [Renaming.first, if_neg (hcolon _ hold).symm, token_of_front hfirst]
    rw [tokens, hkept]
    rfl
  · have hname : ρ.token name ≠ "" := by
      unfold token
      split
      · exact ρ.isToken_new.nonempty
      · rintro rfl
        exact hne rfl
    rw [tokens, first_colon, Program.labelNames?, if_neg (hcolon _ hname), String.toList_append]
    simp

/-! ### Programs -/

def statement (ρ : Renaming) : Statement → Statement
  | .declareAlias a => .declareAlias (ρ.aliased a)
  | .declareLabel name index => .declareLabel (ρ.token name) index
  | .orphan line => .orphan (ρ.line line)
  | .body line size => .body (ρ.line line) size

/-- The second program is the first under the new name, which the first does not hold. Warnings are
left out: they quote lines. -/
structure Renames (ρ : Renaming) (program counterpart : Program) : Prop where
  aliases : counterpart.aliases = program.aliases.map ρ.aliased
  labels : counterpart.labels = program.labels.map ρ.label
  lines : counterpart.lines = program.lines.map ρ.line
  sources : ∀ a ∈ program.aliases, a.source ≠ ρ.new
  targets : ∀ a ∈ program.aliases, a.target ≠ ρ.new
  names : ρ.new ∉ program.labels.map Label.name
  tokens : ∀ line ∈ program.lines, ρ.new ∉ line.tokens

namespace Renames

variable {program counterpart final : Program} {lines : List SourceLine} {statement : Statement}
  {source target : String}

theorem read (h : ρ.Renames program counterpart) (hold : ρ.old ≠ "") (hline : line.IsNormal)
    (hspares : ρ.Spares line.tokens) (hread : program.read file policy line = .ok statement) :
    counterpart.read file policy (ρ.line line) = .ok (ρ.statement statement) := by
  have hisDirective := ρ.isDirective_line hline
  have hempty : counterpart.labels.isEmpty = program.labels.isEmpty := by
    rw [h.labels, List.isEmpty_map]
  rcases Program.read_cases hread with ⟨source, target, hdirective, htokens, rfl⟩ |
    ⟨name, hdirective, hhead, hnames, hfresh, rfl⟩ | ⟨hdirective, hlabels, rfl, rfl⟩ |
    ⟨hdirective, hlabels, rfl⟩
  · rw [hdirective] at hisDirective
    have hrenamed : (ρ.line line).tokens =
        [Program.aliasDirective, ρ.token source, ρ.token target] := by
      rw [ρ.tokens_line hline, htokens, Renaming.tokens, first_aliasDirective]
      rfl
    exact Program.read_alias hisDirective hrenamed
  · rw [hdirective] at hisDirective
    obtain ⟨c, cs, rest, htokens, -⟩ := hline.tokens
    rw [htokens] at hhead hnames hspares
    have hfirst := (hline.isDirective_iff_first htokens).mp hdirective
    have hrenamed := ρ.tokens_line hline
    rw [htokens] at hrenamed
    have hnotAlias : (ρ.line line).tokens.head? ≠ some Program.aliasDirective := by
      rw [hrenamed]
      exact fun heq => hhead (congrArg some (first_eq_aliasDirective (Option.some.inj heq)))
    refine (Program.read_label_iff hisDirective hnotAlias).mpr ⟨ρ.token name, ?_, ?_, rfl⟩
    · rw [hrenamed]
      exact labelNames?_tokens hold hfirst hnames
    · rw [← Label.find?_eq_none_iff] at hfresh ⊢
      rw [h.labels, find?_label h.names (name_ne_new hspares hfirst hnames), hfresh]
      rfl
  · rw [hdirective] at hisDirective
    rw [hlabels, List.isEmpty_nil] at hempty
    simp only [Program.read, hisDirective, Bool.false_eq_true, if_false, Program.readBody, hempty,
      if_true, Renaming.statement]
  · rw [hdirective] at hisDirective
    have hnonempty : program.labels.isEmpty = false := by simpa using hlabels
    simp only [Program.read, hisDirective, Bool.false_eq_true, if_false, Program.readBody, hempty,
      hnonempty, h.aliases, size?_line hline hdirective hspares.1 h.sources, Renaming.statement]

theorem declareAlias (h : ρ.Renames program counterpart) (hsource : source ≠ ρ.new)
    (htarget : target ≠ ρ.new) (index : Int) :
    ρ.Renames { program with aliases := program.aliases ++ [⟨source, target, index⟩] }
      { counterpart with aliases :=
        counterpart.aliases ++ [ρ.aliased ⟨source, target, index⟩] } :=
  { h with
    aliases := by rw [h.aliases, List.map_append, List.map_singleton]
    sources := List.forall_mem_append.mpr ⟨h.sources, List.forall_mem_singleton.mpr hsource⟩
    targets := List.forall_mem_append.mpr ⟨h.targets, List.forall_mem_singleton.mpr htarget⟩ }

theorem declareLabel (h : ρ.Renames program counterpart) (hname : name ≠ ρ.new) (index : Int) :
    ρ.Renames { program with labels := program.labels ++ [{ name, index }] }
      { counterpart with labels := counterpart.labels ++ [{ name := ρ.token name, index }] } :=
  { h with
    labels := by
      rw [h.labels, List.map_append, List.map_singleton]
      rfl
    names := by
      rw [List.map_append, List.mem_append, not_or, List.map_singleton, List.mem_singleton]
      exact ⟨h.names, hname.symm⟩ }

theorem body (h : ρ.Renames program counterpart) (hline : ρ.new ∉ line.tokens) (size : Int) :
    ρ.Renames
      { program with
        lines := program.lines ++ [line]
        labels := Label.addToLast line size program.labels }
      { counterpart with
        lines := counterpart.lines ++ [ρ.line line]
        labels := Label.addToLast (ρ.line line) size counterpart.labels } :=
  { h with
    labels := by rw [h.labels, addToLast_label]
    lines := by rw [h.lines, List.map_append, List.map_singleton]
    names := by
      rw [Label.addToLast_map fun _ _ _ => rfl]
      exact h.names
    tokens := List.forall_mem_append.mpr ⟨h.tokens, List.forall_mem_singleton.mpr hline⟩ }

theorem record (h : ρ.Renames program counterpart) (hline : line.IsNormal)
    (hspares : ρ.Spares line.tokens) (hread : program.read file policy line = .ok statement) :
    ρ.Renames (program.record file statement)
      (counterpart.record file (ρ.statement statement)) := by
  rcases Program.read_cases hread with ⟨source, target, -, htokens, rfl⟩ |
    ⟨name, hdirective, -, hnames, -, rfl⟩ | ⟨-, -, -, rfl⟩ | ⟨-, -, rfl⟩
  · rw [htokens] at hspares
    refine h.declareAlias ?_ ?_ line.index
    · rintro rfl
      exact hspares.1 (.tail _ (.head _))
    · rintro rfl
      exact hspares.1 (.tail _ (.tail _ (.head _)))
  · obtain ⟨c, cs, rest, htokens, -⟩ := hline.tokens
    have hfirst := (hline.isDirective_iff_first htokens).mp hdirective
    rw [htokens] at hspares hnames
    exact h.declareLabel (name_ne_new hspares hfirst hnames) line.index
  · exact { h with }
  · exact h.body hspares.1 _

theorem scan (h : ρ.Renames program counterpart) (hold : ρ.old ≠ "")
    (hlines : ∀ line ∈ lines, line.IsNormal ∧ ρ.Spares line.tokens)
    (hscan : program.scan file policy lines = .ok final) :
    ∃ renamed, counterpart.scan file policy (lines.map ρ.line) = .ok renamed ∧
      ρ.Renames final renamed := by
  induction lines generalizing program counterpart with
  | nil =>
    obtain rfl := Except.ok.inj hscan
    exact ⟨counterpart, rfl, h⟩
  | cons line rest ih =>
    obtain ⟨⟨hline, hspares⟩, hrest⟩ := List.forall_mem_cons.mp hlines
    rw [Program.scan_cons] at hscan
    obtain ⟨statement, hread, hscan⟩ := bind_eq_ok_iff.mp hscan
    rw [List.map_cons, Program.scan_cons, h.read hold hline hspares hread]
    exact ih (h.record hline hspares hread) hrest hscan

theorem place (h : ρ.Renames program counterpart) (base : Int) :
    ρ.Renames { program with labels := Layout.place base program.labels }
      { counterpart with labels := Layout.place base counterpart.labels } :=
  { h with
    labels := by rw [h.labels, ρ.neutral_label.place_map]
    names := by
      rw [Layout.names_place]
      exact h.names }

theorem overflow?_eq_none (h : ρ.Renames program counterpart)
    (hfits : Layout.overflow? file program.labels = none) :
    Layout.overflow? file counterpart.labels = none := by
  rw [Layout.overflow?_eq_none_iff] at hfits ⊢
  rw [h.labels, List.forall_mem_map]
  intro label hlabel
  rw [ρ.neutral_label.overflows_eq]
  exact hfits label hlabel

/-- Once aliases and labels are replaced, the lines of the two programs have the same tokens. -/
theorem readTokens_line (h : ρ.Renames program counterpart) (hsound : program.Sound [])
    (hdeclared : ρ.old ∈ program.labels.map Label.name) (hline : line ∈ program.lines) :
    counterpart.readTokens (ρ.line line) = program.readTokens line := by
  obtain ⟨hnormal, hdirective⟩ := hsound.linesNormal line hline
  have htokens := h.tokens line hline
  rw [Program.readTokens, Program.readTokens, h.aliases, h.labels,
    resolved_line hnormal hdirective htokens h.sources, List.map_map]
  refine List.map_congr_left fun token htoken => located_token h.names hdeclared ?_
  obtain ⟨word, hword, rfl⟩ := List.mem_map.mp htoken
  refine resolve_ne_new (fun a ha => h.targets a (List.mem_of_mem_filter ha)) ?_
  rintro rfl
  exact htokens hword

end Renames

/-- The renamed source of a program makes the renamed program. -/
theorem exists_renames {source renamed : String} {program : Program}
    (h : Program.ofSource file policy source = .ok program) (hold : ρ.old ≠ "")
    (hfresh : ∀ raw ∈ Text.lines source, ρ.Spares (Text.words (SourceLine.normalize raw)))
    (hrenamed : ρ.IsRenaming source renamed) :
    ∃ counterpart, Program.ofSource file policy renamed = .ok counterpart ∧
      ρ.Renames program counterpart := by
  have hfits := Program.overflow?_ofSource h
  obtain ⟨scanned, hscan, rfl⟩ := Program.exists_scan h
  have hlines : ∀ line ∈ SourceLine.ofSource source, line.IsNormal ∧ ρ.Spares line.tokens := by
    intro line hline
    obtain ⟨raw, hraw, htext⟩ := SourceLine.exists_raw_of_mem_numbered hline
    refine ⟨(SourceLine.mem_numbered hline).1, ?_⟩
    rw [SourceLine.tokens, htext]
    exact hfresh raw hraw
  have hempty : ρ.Renames {} {} := ⟨rfl, rfl, rfl, List.forall_mem_nil _, List.forall_mem_nil _,
    List.not_mem_nil, List.forall_mem_nil _⟩
  obtain ⟨rescanned, hrescan, hrenames⟩ := hempty.scan hold hlines hscan
  have hplaced := hrenames.place Layout.defaultBase
  have hsame : SourceLine.ofSource renamed = (SourceLine.ofSource source).map ρ.line :=
    numbered_renamed hrenamed 0
  rw [← hsame] at hrescan
  exact ⟨_, Program.ofSource_of_scan hrescan (hplaced.overflow?_eq_none hfits), hplaced⟩

end Renaming

/-! ### Assembling -/

/-- Under other labels tokens have the same code, or both times some diagnostic, or the same
fault. -/
theorem Encoding.encodeReplaced_under_labels (labels others : List Label) {tokens : List String}
    (hne : tokens ≠ []) :
    (∃ code, encodeReplaced labels tokens = .ok code ∧ encodeReplaced others tokens = .ok code) ∨
    (∃ d e, encodeReplaced labels tokens = .error (.diagnostic d) ∧
      encodeReplaced others tokens = .error (.diagnostic e)) ∨
    ∃ fault, (∀ d, fault ≠ .diagnostic d) ∧ encodeReplaced labels tokens = .error fault ∧
      encodeReplaced others tokens = .error fault := by
  have hstray : ∀ {labels others fault}, (∀ d, fault ≠ Fault.diagnostic d) →
      encodeReplaced labels tokens = .error fault → encodeReplaced others tokens = .error fault :=
    fun hfault h =>
      (encodeReplaced_fault_iff hne hfault).mpr ((encodeReplaced_fault_iff hne hfault).mp h)
  cases hlabels : encodeReplaced labels tokens with
  | ok code => exact .inl ⟨code, rfl, encodeReplaced_of_ok hlabels others⟩
  | error fault =>
    by_cases hfault : ∃ d, fault = .diagnostic d
    · obtain ⟨d, rfl⟩ := hfault
      cases hothers : encodeReplaced others tokens with
      | ok code =>
        rw [encodeReplaced_of_ok hothers labels] at hlabels
        cases hlabels
      | error other =>
        by_cases hother : ∃ e, other = .diagnostic e
        · obtain ⟨e, rfl⟩ := hother
          exact .inr (.inl ⟨d, e, rfl, rfl⟩)
        · rw [not_exists] at hother
          rw [hstray hother hothers] at hlabels
          exact (hother d (Except.error.inj hlabels)).elim
    · rw [not_exists] at hfault
      exact .inr (.inr ⟨fault, hfault, rfl, hstray hfault hlabels⟩)

/-- The entries are of lines with the same number, and have the same code or none. -/
def Entry.Matches (entry other : Entry) : Prop :=
  entry.line.index = other.line.index ∧ entry.code? = other.code?

theorem Entry.indices_congr {entries others : List Entry}
    (h : List.Forall₂ Matches entries others) :
    (entries.filterMap error?).map (·.1.index) = (others.filterMap error?).map (·.1.index) := by
  induction h with
  | nil => rfl
  | @cons entry other _ _ hentry _ ih =>
    obtain ⟨hindex, hcode⟩ := hentry
    cases entry with
    | encoded line code =>
      cases other with
      | encoded => exact ih
      | failed => cases hcode
    | failed line d =>
      cases other with
      | encoded => cases hcode
      | failed => exact congrArg₂ List.cons hindex ih

namespace Renaming

variable {ρ : Renaming} {program counterpart : Program} {line : SourceLine}
  {source renamed : String}

theorem Renames.inStep (h : ρ.Renames program counterpart)
    (hprogram : Program.ofSource file policy source = .ok program)
    (hcounterpart : Program.ofSource file policy renamed = .ok counterpart)
    (hdeclared : ρ.old ∈ program.labels.map Label.name) (hline : line ∈ program.lines) :
    Run.InStep file program counterpart Entry.Matches line (ρ.line line) := by
  have hother : ρ.line line ∈ counterpart.lines := by
    rw [h.lines]
    exact List.mem_map_of_mem hline
  have hencode := Program.encodeLine_eq hprogram hline
  have hreencode := Program.encodeLine_eq hcounterpart hother
  rw [h.readTokens_line (Program.sound_ofSource hprogram) hdeclared hline] at hreencode
  rcases Encoding.encodeReplaced_under_labels program.labels counterpart.labels
      (Program.readTokens_ne_nil hprogram hline) with
    ⟨code, hcode, hrecode⟩ | ⟨d, e, hd, he⟩ | ⟨fault, hfault, hstop, hrestop⟩
  · exact .encoded (hencode.trans hcode) (hreencode.trans hrecode) ⟨rfl, rfl⟩
  · exact .failed (hencode.trans hd) (hreencode.trans he) ⟨rfl, rfl⟩
  · exact .fault hfault (hencode.trans hstop) (hreencode.trans hrestop)

theorem Renames.symbols (h : ρ.Renames program counterpart) : counterpart.symbols =
    program.symbols.map fun (name, address) => (ρ.token name, address) := by
  rw [Program.symbols, Program.symbols, h.labels, List.map_map, List.map_map]
  rfl

/-- A label that an assembled source declares can be renamed throughout the source, to a token that
does not stand in it. There is such a source, and every one assembles to the same words, with errors
at the same lines, and has the same symbols but for the name. -/
theorem renaming_preserves_assembly {assembly : Assembly} (ρ : Renaming)
    (hrun : (assemble config file source).2 = .ok assembly)
    (hdeclared : ρ.old ∈ assembly.program.labels.map Label.name)
    (hfresh : ∀ raw ∈ Text.lines source, ρ.Spares (Text.words (SourceLine.normalize raw))) :
    ρ.IsRenaming source (ρ.source source) ∧ ∀ renamed, ρ.IsRenaming source renamed →
      ∃ counterpart, (assemble config file renamed).2 = .ok counterpart ∧
        counterpart.words = assembly.words ∧
        counterpart.errors.map (·.1.index) = assembly.errors.map (·.1.index) ∧
        counterpart.program.symbols =
          assembly.program.symbols.map fun (name, address) => (ρ.token name, address) := by
  refine ⟨ρ.isRenaming_source source, fun renamed hrenamed => ?_⟩
  obtain ⟨hprogram, hentries, hstop⟩ := Assembly.exists_run hrun
  have hold : ρ.old ≠ "" := by
    obtain ⟨orphans, htally⟩ := Program.exists_tally hprogram
    obtain ⟨label, hlabel, hname⟩ := List.mem_map.mp hdeclared
    rw [← hname]
    exact htally.name_ne_empty hlabel
  obtain ⟨counterpart, hcounterpart, hrenames⟩ := exists_renames hprogram hold hfresh hrenamed
  have hlines : List.Forall₂ (Run.InStep file assembly.program counterpart Entry.Matches)
      assembly.program.lines counterpart.lines := by
    rw [hrenames.lines]
    refine List.forall₂_map_right_iff.mpr (List.forall₂_same.mpr fun line hline => ?_)
    exact hrenames.inStep hprogram hcounterpart hdeclared hline
  obtain ⟨hmatches, hstops⟩ := Run.forall₂_fresh hlines config
  refine ⟨⟨counterpart, (Run.fresh config file counterpart).entries⟩, ?_, ?_, ?_,
    hrenames.symbols⟩
  · rw [hstops] at hstop
    rw [assemble_of_ok hcounterpart]
    exact Run.result_of_stop hstop
  · rw [Assembly.words, Assembly.words, hentries]
    exact (Entry.words_congr (hmatches.imp fun _ _ h => h.2)).symm
  · rw [Assembly.errors, Assembly.errors, hentries]
    exact (Entry.indices_congr hmatches).symm

/-- A label that has the name of a register, which stands in its declaration, as an operand, as the
target of an alias, as its source and at the front of a line. -/
theorem renaming_label_named_like_register :
    let source := ":v0\njp v0\n:alias go v0\ncall go\njp v0, 3\n:alias v0 7\nv0"
    let renamed := ":loop\njp loop\n:alias go loop\ncall go\njp loop, 3\n:alias loop 7\nloop"
    ∃ assembly, (assemble {} "f" source).2 = .ok assembly ∧
      assembly.program.symbols = [("V0", some 0x200)] ∧
      ∃ counterpart, (assemble {} "f" renamed).2 = .ok counterpart ∧
        counterpart.program.symbols = [("LOOP", some 0x200)] ∧
        counterpart.words = ["1200", "2200", "07"] ∧
        counterpart.errors.map (·.1.index) = [4] := by
  intro source renamed
  let illegal : Diagnostic :=
    ⟨.illegalOperand "JP" "0X200", some ⟨"f", 4⟩, some "JP V0 3",
      some "use V0 for JP with an offset"⟩
  let lines : List SourceLine := [⟨1, "JP V0"⟩, ⟨3, "CALL GO"⟩, ⟨4, "JP V0 3"⟩, ⟨6, "V0"⟩]
  let assembly : Assembly :=
    { program :=
        { lines
          aliases := [⟨"GO", "V0", 2⟩, ⟨"V0", "7", 5⟩]
          labels := [⟨"V0", some 0x200, 7, lines, 0⟩] }
      entries := [.encoded ⟨1, "JP V0"⟩ "1200", .encoded ⟨3, "CALL GO"⟩ "2200",
        .failed ⟨4, "JP V0 3"⟩ illegal, .encoded ⟨6, "V0"⟩ "07"] }
  have hrun : (assemble {} "f" source).2 = .ok assembly := by decide +kernel
  let ρ : Renaming :=
    { old := "V0"
      new := "LOOP"
      oldOrdinary := ⟨by decide, by decide, by decide +kernel, by decide⟩
      newOrdinary := ⟨by decide, by decide, by decide +kernel, by decide⟩
      newNormal := by decide +kernel
      newWord := by decide +kernel }
  have hfresh : ∀ raw ∈ Text.lines source, ρ.Spares (Text.words (SourceLine.normalize raw)) := by
    decide +kernel
  have hrenamed : ρ.IsRenaming source renamed := by decide +kernel
  have hdeclared : ρ.old ∈ assembly.program.labels.map Label.name := List.mem_cons_self
  obtain ⟨counterpart, hcounterpart, hwords, hindices, hsymbols⟩ :=
    (renaming_preserves_assembly ρ hrun hdeclared hfresh).2 renamed hrenamed
  exact ⟨assembly, hrun, rfl, counterpart, hcounterpart, hsymbols, hwords, hindices⟩

end Renaming

end Chip8Asm
