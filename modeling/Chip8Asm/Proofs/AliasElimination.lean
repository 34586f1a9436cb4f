import Mathlib
import Chip8Asm.Proofs.LabelTable
import Chip8Asm.Proofs.NormalForm
import Chip8Asm.Proofs.Stopping

/-! Sources without aliases. The declarations of aliases can be left out of a source if the tokens
below them are replaced (`Expansion.expand`). Reading the two sources line by line keeps the two
programs in step (`Program.Mirrors`): they have the same labels, of the same sizes, and the tokens
of one are those of the other through its aliases. Nothing else counts when lines are encoded. -/

namespace Chip8Asm

/-! ### Expansion -/

namespace Expansion

/-- The token and the target of the alias that a line declares. -/
def declared? (text : String) : Option (String × String) :=
  match Text.words text with
  | [keyword, source, target] =>
    if keyword = Program.aliasDirective then some (source, target) else none
  | _ => none

/-- Replaces a token by a table that has the latest aliases first. -/
def expandToken (table : List (String × String)) (token : String) : String :=
  (table.lookup token).getD token

/-- Replaces the tokens of a line that is no directive. -/
def expandText (table : List (String × String)) (text : String) : String :=
  if text.toList.head? = some ':' then text
  else unwords ((Text.words text).map (expandToken table))

/-- Replaces the tokens of lines by the table and the aliases declared above them. Declarations
leave empty lines. -/
def expandTexts : List (String × String) → List String → List String
  | _, [] => []
  | table, text :: rest =>
    match declared? text with
    | some declared => "" :: expandTexts (declared :: table) rest
    | none => expandText table text :: expandTexts table rest

/-- The normal forms of the lines are those of the source, expanded. -/
def IsExpansion (source expanded : String) : Prop :=
  (Text.lines expanded).map SourceLine.normalize =
    expandTexts [] ((Text.lines source).map SourceLine.normalize)

instance : Decidable (IsExpansion source expanded) := inferInstanceAs (Decidable (_ = _))

/-- The source without aliases. -/
def expand (source : String) : String :=
  Text.unlines (expandTexts [] ((Text.lines source).map SourceLine.normalize))

/-- The sources and targets of aliases, the latest first. -/
def ofAliases (aliases : List Alias) : List (String × String) :=
  aliases.reverse.map fun a => (a.source, a.target)

theorem ofAliases_append (aliases : List Alias) (a : Alias) :
    ofAliases (aliases ++ [a]) = (a.source, a.target) :: ofAliases aliases := by
  rw [ofAliases, List.reverse_append]
  rfl

theorem resolve_eq_expandToken (aliases : List Alias) (token : String) :
    Alias.resolve aliases token = expandToken (ofAliases aliases) token := by
  unfold Alias.resolve expandToken ofAliases
  induction aliases.reverse with
  | nil => rfl
  | cons a rest ih =>
    rw [List.find?_cons, List.map_cons, List.lookup_cons]
    by_cases h : a.source = token
    · simp [h]
    · have hleft : (a.source == token) = false := by simpa using h
      have hright : (token == a.source) = false := by simpa using Ne.symm h
      simp only [hleft, hright]
      exact ih

theorem declared?_eq_some_iff : declared? text = some (source, target) ↔
    Text.words text = [Program.aliasDirective, source, target] := by
  unfold declared?
  split
  · rename_i keyword first second hwords
    rw [hwords]
    split
    · rename_i hkeyword
      simp [hkeyword]
    · rename_i hkeyword
      simp [hkeyword]
  · rename_i hwords
    refine iff_of_false nofun fun h => hwords _ _ _ h

/-- The targets are tokens and begin no directive. -/
def Plain (table : List (String × String)) : Prop :=
  ∀ entry ∈ table, IsToken entry.2 ∧ entry.2.toList.head? ≠ some ':'

theorem expandToken_cases (table : List (String × String)) (token : String) :
    expandToken table token = token ∨ ∃ entry ∈ table, expandToken table token = entry.2 := by
  unfold expandToken
  induction table with
  | nil => exact .inl rfl
  | cons entry rest ih =>
    obtain ⟨source, target⟩ := entry
    rw [List.lookup_cons]
    split
    · exact .inr ⟨(source, target), .head _, rfl⟩
    · exact ih.imp_right fun ⟨other, hother, heq⟩ => ⟨other, .tail _ hother, heq⟩

theorem Plain.nil : Plain [] := fun _ hmem => (List.not_mem_nil hmem).elim

theorem Plain.isToken (h : Plain table) (htoken : IsToken token) :
    IsToken (expandToken table token) := by
  rcases expandToken_cases table token with heq | ⟨entry, hentry, heq⟩
  · rwa [heq]
  · exact heq ▸ (h entry hentry).1

theorem Plain.front (h : Plain table) (htoken : token.toList.head? ≠ some ':') :
    (expandToken table token).toList.head? ≠ some ':' := by
  rcases expandToken_cases table token with heq | ⟨entry, hentry, heq⟩
  · rwa [heq]
  · exact heq ▸ (h entry hentry).2

theorem Plain.isToken_words (h : Plain table) (raw : String) :
    ∀ token ∈ (Text.words (SourceLine.normalize raw)).map (expandToken table), IsToken token := by
  intro token htoken
  obtain ⟨word, hword, rfl⟩ := List.mem_map.mp htoken
  exact h.isToken (SourceLine.isToken_of_mem_words hword)

theorem Plain.cons (h : Plain table)
    (halias : declared? (SourceLine.normalize raw) = some (source, target))
    (htarget : target.toList.head? ≠ some ':') : Plain ((source, target) :: table) := by
  have hwords := declared?_eq_some_iff.mp halias
  have hmem : target ∈ Text.words (SourceLine.normalize raw) := by
    rw [hwords]
    exact .tail _ (.tail _ (.head _))
  exact List.forall_mem_cons.mpr ⟨⟨SourceLine.isToken_of_mem_words hmem, htarget⟩, h⟩

/-- No target of an alias begins with a colon. -/
def NoDirectives (raws : List String) : Prop :=
  ∀ raw ∈ raws, ∀ declared ∈ declared? (SourceLine.normalize raw),
    declared.2.toList.head? ≠ some ':'

instance : Decidable (NoDirectives raws) :=
  inferInstanceAs (Decidable (∀ raw ∈ raws, ∀ declared ∈ declared? (SourceLine.normalize raw),
    declared.2.toList.head? ≠ some ':'))

theorem exists_tokens_of_mem_expandTexts {raws : List String} (h : Plain table)
    (htargets : NoDirectives raws)
    (htext : text ∈ expandTexts table (raws.map SourceLine.normalize)) :
    ∃ tokens, (∀ token ∈ tokens, IsToken token) ∧ text = unwords tokens := by
  induction raws generalizing table with
  | nil => cases htext
  | cons raw raws ih =>
    obtain ⟨hraw, hraws⟩ := List.forall_mem_cons.mp htargets
    rw [List.map_cons, expandTexts] at htext
    split at htext
    · rename_i declared hdeclared
      rcases List.mem_cons.mp htext with hempty | htext
      · exact ⟨[], fun _ hmem => (List.not_mem_nil hmem).elim, hempty⟩
      · exact ih (h.cons hdeclared (hraw _ hdeclared)) hraws htext
    · rcases List.mem_cons.mp htext with hexpanded | htext
      · rw [hexpanded, expandText]
        split
        · exact ⟨_, fun _ => SourceLine.isToken_of_mem_words, SourceLine.normalize_eq_unwords raw⟩
        · exact ⟨_, h.isToken_words raw, rfl⟩
      · exact ih h hraws htext

theorem isExpansion_expand (htargets : NoDirectives (Text.lines source)) :
    IsExpansion source (expand source) :=
  normalize_lines_unlines fun _ => exists_tokens_of_mem_expandTexts Plain.nil htargets

variable {line other : SourceLine}

/-- Replacing the tokens of a line of the body gives a line of the body. -/
theorem expanded_line (h : Plain (ofAliases aliases)) (hline : line.IsNormal)
    (hdirective : line.isDirective = false)
    (hother : other.text = expandText (ofAliases aliases) line.text) :
    other.tokens = line.tokens.map (Alias.resolve aliases) ∧ other.IsNormal ∧
      other.isDirective = false := by
  obtain ⟨c, cs, rest, hfirst, hc⟩ := hline.tokens
  obtain ⟨_, raw, hraw⟩ := hline
  rw [← Bool.not_eq_true, SourceLine.isDirective_iff] at hdirective
  have hresolve : Alias.resolve aliases = expandToken (ofAliases aliases) :=
    funext (resolve_eq_expandToken aliases)
  have htokens := h.isToken_words raw
  rw [← hraw, ← hresolve] at htokens
  rw [expandText, if_neg hdirective, ← hresolve] at hother
  have hwords : other.tokens = line.tokens.map (Alias.resolve aliases) := by
    rw [SourceLine.tokens, hother, words_unwords htokens, SourceLine.tokens]
  have hnormal : other.IsNormal := by
    refine ⟨?_, unwords _, hother.trans (normalize_unwords htokens).symm⟩
    intro hempty
    rw [SourceLine.tokens, hempty, hfirst] at hwords
    cases hwords
  refine ⟨hwords, hnormal, ?_⟩
  -- both lines begin with their first tokens
  obtain ⟨d, ds, others, hothers, hd⟩ := hnormal.tokens
  rw [hothers, hfirst, List.map_cons, hresolve] at hwords
  have hfront : (String.ofList (d :: ds)).toList.head? ≠ some ':' := by
    rw [(List.cons.inj hwords).1]
    refine h.front ?_
    rwa [String.toList_ofList, List.head?_cons, ← hc]
  rw [String.toList_ofList, List.head?_cons, ← hd] at hfront
  rwa [← Bool.not_eq_true, SourceLine.isDirective_iff]

theorem expandText_ne_empty (h : Plain (ofAliases aliases)) (hline : line.IsNormal) :
    expandText (ofAliases aliases) line.text ≠ "" := by
  cases hdirective : line.isDirective with
  | true =>
    rw [expandText, if_pos (SourceLine.isDirective_iff.mp hdirective)]
    exact hline.1
  | false =>
    have hother : SourceLine.text ⟨0, expandText (ofAliases aliases) line.text⟩ =
      expandText (ofAliases aliases) line.text := rfl
    exact (expanded_line h hline hdirective hother).2.1.1

/-- A line that declares an alias is a directive. -/
theorem isDirective_of_declared? (hline : line.IsNormal)
    (h : declared? line.text = some (source, target)) : line.isDirective = true := by
  obtain ⟨c, cs, rest, htokens, hc⟩ := hline.tokens
  have hwords : line.tokens = [Program.aliasDirective, source, target] := declared?_eq_some_iff.mp h
  rw [htokens] at hwords
  have hchars : (String.ofList (c :: cs)).toList = Program.aliasDirective.toList :=
    congrArg String.toList (List.cons.inj hwords).1
  have hcolon : Program.aliasDirective.toList.head? = some ':' := by decide
  rw [← hchars, String.toList_ofList, List.head?_cons] at hcolon
  exact SourceLine.isDirective_iff.mpr (hc.trans hcolon)

end Expansion

/-! ### Outcomes that agree -/

/-- Both are results or both are errors, related in the given way. -/
inductive Agree (D : ε → ε → Prop) (R : α → β → Prop) : Except ε α → Except ε β → Prop
  | ok : R a b → Agree D R (.ok a) (.ok b)
  | error : D d e → Agree D R (.error d) (.error e)

theorem Agree.bind {x : Except ε α} {y : Except ε β} {f : α → Except ε γ} {g : β → Except ε δ}
    (h : Agree D R x y) (hnext : ∀ a b, x = .ok a → R a b → Agree D S (f a) (g b)) :
    Agree D S (x.bind f) (y.bind g) := by
  cases h with
  | ok hab => exact hnext _ _ rfl hab
  | error hde => exact .error hde

/-- The diagnostics say the same of the same line. They may quote the line differently. -/
structure Diagnostic.Alike (d e : Diagnostic) : Prop where
  cause : d.cause = e.cause ∨ ∃ text other, d.cause = .orphanLine text ∧ e.cause = .orphanLine other
  location : d.location = e.location
  hint : d.hint = e.hint

theorem Diagnostic.Alike.refl (d : Diagnostic) : d.Alike d := ⟨.inl rfl, rfl, rfl⟩

/-- The faults are the same, or diagnostics that say the same. -/
inductive Fault.Alike : Fault → Fault → Prop
  | diagnostic : d.Alike e → Alike (.diagnostic d) (.diagnostic e)
  | refl (fault : Fault) : Alike fault fault

/-! ### Reading -/

namespace Program
open Expansion

variable {program expanded : Program} {line other : SourceLine}

/-- A line of the body, and the line with the aliases above it replaced. -/
structure MirrorsLine (aliases : List Alias) (line other : SourceLine) : Prop where
  index : line.index = other.index
  tokens : line.resolved aliases = other.tokens
  normal : other.IsNormal
  directive : other.isDirective = false

/-- The programs have the same labels, and the lines of the second are those of the first with the
aliases replaced. -/
structure Mirrors (program expanded : Program) : Prop where
  plain : Plain (ofAliases program.aliases)
  aliases : expanded.aliases = []
  labels : Label.SameTable program.labels expanded.labels
  lines : List.Forall₂ (MirrorsLine program.aliases) program.lines expanded.lines

theorem read_directive (h : Label.SameTable program.labels expanded.labels)
    (hdirective : line.isDirective = true) :
    program.read file policy line = expanded.read file policy line := by
  have hlabel : readLabel file program line = readLabel file expanded line := by
    unfold readLabel
    split
    · rename_i name _
      rcases h.find?_cases name with ⟨hfirst, hsecond⟩ | ⟨first, second, hfirst, hsecond, hbare⟩
      · rw [hfirst, hsecond]
      · obtain ⟨_, _, _, hindex⟩ := Label.bare_eq_iff.mp hbare
        simp only [hfirst, hsecond, hindex]
    · rfl
  rw [read, read, if_pos hdirective, if_pos hdirective, hlabel]

theorem exists_label_of_read (hdirective : line.isDirective = true)
    (h : declared? line.text = none) (hread : program.read file policy line = .ok statement) :
    ∃ name, statement = .declareLabel name line.index := by
  rcases read_cases hread with ⟨_, _, -, htokens, -⟩ | ⟨name, -, -, -, -, rfl⟩ |
    ⟨hbody, -⟩ | ⟨hbody, -⟩
  · rw [declared?_eq_some_iff.mpr htokens] at h
    cases h
  · exact ⟨name, rfl⟩
  all_goals
    rw [hdirective] at hbody
    cases hbody

namespace Mirrors

theorem declareAlias (h : Mirrors program expanded) (hsound : program.Sound (line :: rest))
    (hplain : Plain ((source, target) :: ofAliases program.aliases)) :
    Mirrors { program with aliases := program.aliases ++ [⟨source, target, line.index⟩] }
      expanded :=
  { h with
    plain := by rwa [ofAliases_append]
    lines := by
      have habove : ∀ above ∈ program.lines, above.index < line.index :=
        fun above habove => hsound.linesAbove above habove line List.mem_cons_self
      refine ((List.forall₂_and_left _ _).mpr ⟨habove, h.lines⟩).imp ?_
      rintro above other ⟨hindex, hline⟩
      refine { hline with tokens := ?_ }
      rw [← hline.tokens, SourceLine.resolved, SourceLine.resolved, Encoding.activeAliases_append]
      intro a ha
      rw [List.mem_singleton.mp ha]
      exact hindex.le }

theorem declareLabel (h : Mirrors program expanded) (label : Label) :
    Mirrors { program with labels := program.labels ++ [label] }
      { expanded with labels := expanded.labels ++ [label] } :=
  { h with labels := h.labels.append_singleton label }

theorem body (h : Mirrors program expanded) (hline : MirrorsLine program.aliases line other)
    (size : Int) :
    Mirrors
      { program with
        lines := program.lines ++ [line]
        labels := Label.addToLast line size program.labels }
      { expanded with
        lines := expanded.lines ++ [other]
        labels := Label.addToLast other size expanded.labels } :=
  { h with
    labels := h.labels.addToLast line other size
    lines := List.rel_append h.lines (.cons hline .nil) }

theorem line_body (h : Mirrors program expanded) (hsound : program.Sound (line :: rest))
    (hdirective : line.isDirective = false) (hindex : line.index = other.index)
    (hother : other.text = expandText (ofAliases program.aliases) line.text) :
    MirrorsLine program.aliases line other ∧
      other.size? expanded.aliases = line.size? program.aliases := by
  obtain ⟨htokens, hnormal, hotherDirective⟩ :=
    expanded_line h.plain (hsound.restNormal line List.mem_cons_self) hdirective hother
  have hactive : Encoding.activeAliases program.aliases (some line.index) = program.aliases :=
    Encoding.activeAliases_of_lt fun a ha => hsound.aliasesAbove a ha line List.mem_cons_self
  constructor
  · refine ⟨hindex, ?_, hnormal, hotherDirective⟩
    rw [SourceLine.resolved, hactive, htokens]
  · rw [SourceLine.size?, SourceLine.size?, htokens, h.aliases, List.head?_map, Option.map_map,
      List.length_map]
    rfl

/-- A line that declares no alias and the line with its tokens replaced make statements that keep
the programs in step, or are both wrong. -/
theorem read (h : Mirrors program expanded) (hsound : program.Sound (line :: rest))
    (file : String) (policy : OrphanPolicy) (hnone : declared? line.text = none)
    (hindex : line.index = other.index)
    (hother : other.text = expandText (ofAliases program.aliases) line.text) :
    Agree Diagnostic.Alike
      (fun statement counterpart =>
        (program.record file statement).aliases = program.aliases ∧
          Mirrors (program.record file statement) (expanded.record file counterpart))
      (program.read file policy line) (expanded.read file policy other) := by
  cases hdirective : line.isDirective with
  | true =>
    rw [expandText, if_pos (SourceLine.isDirective_iff.mp hdirective)] at hother
    obtain rfl : line = other := by
      cases line
      cases other
      exact congrArg₂ SourceLine.mk hindex hother.symm
    rw [← read_directive h.labels hdirective]
    cases hread : program.read file policy line with
    | error d => exact .error (.refl d)
    | ok statement =>
      obtain ⟨name, rfl⟩ := exists_label_of_read hdirective hnone hread
      exact .ok ⟨rfl, h.declareLabel _⟩
  | false =>
    obtain ⟨hline, hsize⟩ := h.line_body hsound hdirective hindex hother
    simp only [Program.read, hdirective, hline.directive, Bool.false_eq_true, if_false, readBody,
      ← h.labels.isEmpty, hsize]
    split
    · cases policy with
      | reject =>
        refine .error ⟨.inr ⟨line.text, other.text, rfl, rfl⟩, ?_, rfl⟩
        simp only [complain, Diagnostic.locate, hindex]
      | discard => exact .ok ⟨rfl, { h with }⟩
    · exact .ok ⟨rfl, h.body hline _⟩

/-- Reading a source and its expansion keeps the programs in step up to the first line that is
wrong, which is the same in both. -/
theorem scan {raws others : List String} (h : Mirrors program expanded)
    (hsound : program.Sound (SourceLine.numbered index raws)) (htargets : NoDirectives raws)
    (hothers : others.map SourceLine.normalize =
      expandTexts (ofAliases program.aliases) (raws.map SourceLine.normalize)) :
    Agree Diagnostic.Alike Mirrors
      (program.scan file policy (SourceLine.numbered index raws))
      (expanded.scan file policy (SourceLine.numbered index others)) := by
  induction raws generalizing others program expanded index with
  | nil =>
    obtain rfl := List.map_eq_nil_iff.mp hothers
    exact .ok h
  | cons raw raws ih =>
    obtain ⟨htarget, htargets⟩ := List.forall_mem_cons.mp htargets
    rw [List.map_cons, expandTexts] at hothers
    cases hdeclared : declared? (SourceLine.normalize raw) with
    | some declared =>
      obtain ⟨source, target⟩ := declared
      rw [hdeclared] at hothers
      obtain ⟨other, others, rfl, hempty, hrest⟩ := List.map_eq_cons_iff.mp hothers
      have hne : SourceLine.normalize raw ≠ "" := by
        intro hnil
        rw [hnil] at hdeclared
        cases hdeclared
      rw [SourceLine.numbered_cons_of_ne hne] at hsound ⊢
      rw [SourceLine.numbered_cons_of_eq hempty]
      have hdirective := isDirective_of_declared?
        (hsound.restNormal _ List.mem_cons_self) hdeclared
      have hread : program.read file policy ⟨index, SourceLine.normalize raw⟩ = _ :=
        read_alias hdirective (declared?_eq_some_iff.mp hdeclared)
      have hplain := h.plain.cons hdeclared (htarget _ hdeclared)
      rw [scan_cons, hread]
      refine ih (h.declareAlias hsound hplain) (hsound.record hread) htargets ?_
      rw [hrest, record, ofAliases_append]
    | none =>
      rw [hdeclared] at hothers
      obtain ⟨other, others, rfl, hother, hrest⟩ := List.map_eq_cons_iff.mp hothers
      by_cases hempty : SourceLine.normalize raw = ""
      · have hotherEmpty : SourceLine.normalize other = "" := by
          rw [hother, hempty]
          rfl
        rw [SourceLine.numbered_cons_of_eq hempty] at hsound ⊢
        rw [SourceLine.numbered_cons_of_eq hotherEmpty]
        exact ih h hsound htargets hrest
      · rw [SourceLine.numbered_cons_of_ne hempty] at hsound ⊢
        have hnormal := hsound.restNormal _ List.mem_cons_self
        have hotherNe : SourceLine.normalize other ≠ "" :=
          fun hnil => expandText_ne_empty h.plain hnormal (hother.symm.trans hnil)
        rw [SourceLine.numbered_cons_of_ne hotherNe]
        have hindex : SourceLine.index ⟨index, SourceLine.normalize raw⟩ =
          SourceLine.index ⟨index, SourceLine.normalize other⟩ := rfl
        rw [scan_cons, scan_cons]
        refine (h.read hsound file policy hdeclared hindex hother).bind ?_
        rintro statement counterpart hread ⟨haliases, hmirrors⟩
        refine ih hmirrors (hsound.record hread) htargets ?_
        rw [hrest, haliases]

theorem place (h : Mirrors program expanded) (file : String) :
    Agree Diagnostic.Alike Mirrors (program.place file) (expanded.place file) := by
  have hplaced := Layout.sameTable_place h.labels Layout.defaultBase
  rw [Program.place, Program.place, ← Layout.overflow?_congr hplaced file]
  split
  · exact .error (.refl _)
  · exact .ok { h with labels := hplaced }

/-- The encoder has the same to say of the lines of the two programs. -/
theorem encodeLine_eq (h : Mirrors program expanded) (hsound : program.Sound []) :
    List.Forall₂
      (fun line other => line.index = other.index ∧
        Encoding.encodeLine program.aliases program.labels line =
          Encoding.encodeLine expanded.aliases expanded.labels other)
      program.lines expanded.lines := by
  refine ((List.forall₂_and_left _ _).mpr ⟨hsound.linesNormal, h.lines⟩).imp ?_
  rintro line other ⟨⟨hnormal, hdirective⟩, hline⟩
  have hresolved : other.resolved expanded.aliases = other.tokens := by
    rw [h.aliases]
    exact List.map_id _
  refine ⟨hline.index, ?_⟩
  rw [Encoding.encodeLine_eq_encodeResolved hnormal hdirective,
    Encoding.encodeLine_eq_encodeResolved hline.normal hline.directive, hresolved, ← hline.tokens,
    Encoding.encodeResolved_congr h.labels]

end Mirrors

theorem ofSource_expansion {expanded : String} (htargets : NoDirectives (Text.lines source))
    (h : IsExpansion source expanded) (file : String) (policy : OrphanPolicy) :
    Agree Diagnostic.Alike Mirrors (ofSource file policy source)
      (ofSource file policy expanded) := by
  have hscan : Agree Diagnostic.Alike Mirrors
      (({} : Program).scan file policy (SourceLine.ofSource source))
      (({} : Program).scan file policy (SourceLine.ofSource expanded)) :=
    Mirrors.scan ⟨Plain.nil, rfl, rfl, .nil⟩ (Sound.ofSource source) htargets h
  rw [ofSource_eq, ofSource_eq]
  exact hscan.bind fun _ _ _ hmirrors => hmirrors.place file

end Program

/-! ### Assembling -/

/-- The entries have the same code, or errors that say the same, for lines of the same number. -/
inductive Entry.Alike : Entry → Entry → Prop
  | encoded {line other : SourceLine} : line.index = other.index →
      Alike (.encoded line code) (.encoded other code)
  | failed {line other : SourceLine} : line.index = other.index → d.Alike e →
      Alike (.failed line d) (.failed other e)

/-- The assemblies have the same words, and errors that say the same of lines of the same number. -/
structure Assembly.Alike (assembly counterpart : Assembly) : Prop where
  words : assembly.words = counterpart.words
  errors : List.Forall₂ (fun error other => error.1.index = other.1.index ∧ error.2.Alike other.2)
    assembly.errors counterpart.errors

namespace Entry

variable {entries others : List Entry}

theorem words_eq (h : List.Forall₂ Alike entries others) :
    entries.filterMap code? = others.filterMap code? := by
  apply words_congr
  refine h.imp fun entry other hentry => ?_
  cases hentry <;> rfl

theorem errors_alike (h : List.Forall₂ Alike entries others) :
    List.Forall₂ (fun error other => error.1.index = other.1.index ∧ error.2.Alike other.2)
      (entries.filterMap error?) (others.filterMap error?) := by
  induction h with
  | nil => exact .nil
  | cons hentry _ ih =>
    cases hentry with
    | encoded => exact ih
    | failed hindex hd => exact .cons ⟨hindex, hd⟩ ih

end Entry

theorem Run.inStep_of_encodeLine_eq {program expanded : Program} {line other : SourceLine}
    (file : String) (hindex : line.index = other.index)
    (h : Encoding.encodeLine program.aliases program.labels line =
      Encoding.encodeLine expanded.aliases expanded.labels other) :
    InStep file program expanded Entry.Alike line other := by
  cases hline : Encoding.encodeLine program.aliases program.labels line with
  | ok code => exact .encoded hline (h.symm.trans hline) (.encoded hindex)
  | error fault =>
    cases fault with
    | diagnostic d =>
      refine .failed hline (h.symm.trans hline) (.failed hindex ⟨.inl rfl, ?_, rfl⟩)
      rw [Diagnostic.locate, Diagnostic.locate, hindex]
    | _ => exact .fault (fun _ => Fault.noConfusion) hline (h.symm.trans hline)

theorem Program.Mirrors.assembly_alike {program expanded : Program} (h : Mirrors program expanded)
    (hsound : program.Sound []) (config : Config) (file : String) :
    Agree Fault.Alike Assembly.Alike ((Run.fresh config file program).result program)
      ((Run.fresh config file expanded).result expanded) := by
  have hlines : List.Forall₂ (Run.InStep file program expanded Entry.Alike) program.lines
      expanded.lines := (h.encodeLine_eq hsound).imp fun line other ⟨hindex, hline⟩ =>
    Run.inStep_of_encodeLine_eq file hindex hline
  obtain ⟨hentries, hstop⟩ := Run.forall₂_fresh hlines config
  unfold Run.result
  rw [← hstop]
  split
  · exact .error (.refl _)
  · exact .ok ⟨Entry.words_eq hentries, Entry.errors_alike hentries⟩

open Expansion

/-- Aliases can be eliminated. A source and its expansion, of which there is one for every source
without a target that begins with a colon, have the same labels with the same sizes and addresses,
or the same error at the same line. They assemble to the same words, with the same errors at the
same lines, or fail in the same way. -/
theorem expansion_preserves_assembly (config : Config) (file : String)
    (htargets : NoDirectives (Text.lines source)) :
    IsExpansion source (expand source) ∧ ∀ expanded, IsExpansion source expanded →
      Agree Diagnostic.Alike
        (fun program counterpart => Label.SameTable program.labels counterpart.labels)
        (Program.ofSource file config.orphans source)
        (Program.ofSource file config.orphans expanded) ∧
      Agree Fault.Alike Assembly.Alike
        (assemble config file source).2 (assemble config file expanded).2 := by
  refine ⟨isExpansion_expand htargets, fun expanded hexpanded => ?_⟩
  have hprograms := Program.ofSource_expansion htargets hexpanded file config.orphans
  have hsound : ∀ program, Program.ofSource file config.orphans source = .ok program →
      program.Sound [] := fun _ => Program.sound_ofSource
  rw [assemble_result, assemble_result]
  generalize Program.ofSource file config.orphans source = left at hprograms hsound ⊢
  generalize Program.ofSource file config.orphans expanded = right at hprograms ⊢
  cases hprograms with
  | error hd => exact ⟨.error hd, .error (.diagnostic hd)⟩
  | ok hmirrors =>
    exact ⟨.ok hmirrors.labels, hmirrors.assembly_alike (hsound _ rfl) config file⟩

/-- An alias that is declared again counts from there on, and one that leads back to it is replaced
once: the last line stays without an instruction. -/
theorem expansion_of_circular_aliases :
    let source := ": A\n:alias go JP\nGO A\n:alias JP go\n:alias go CALL\ngo A\nJP A ; again"
    let expanded := ": A\n\nJP A\n\n\nCALL A\nGO A"
    let lines : List SourceLine := [⟨2, "GO A"⟩, ⟨5, "GO A"⟩, ⟨6, "JP A"⟩]
    let label : Label := { name := "A", address := some 512, size := 6, lines }
    let unknown : Diagnostic := ⟨.unknownInstruction "GO", some ⟨"f", 6⟩, some "JP A", none⟩
    let assembly : Assembly :=
      ⟨{ lines, aliases := [⟨"GO", "JP", 1⟩, ⟨"JP", "GO", 3⟩, ⟨"GO", "CALL", 4⟩],
         labels := [label] },
        [.encoded ⟨2, "GO A"⟩ "1200", .encoded ⟨5, "GO A"⟩ "2200", .failed ⟨6, "JP A"⟩ unknown]⟩
    NoDirectives (Text.lines source) ∧ IsExpansion source expanded ∧
      (assemble {} "f" source).2 = .ok assembly ∧
      ∃ counterpart, (assemble {} "f" expanded).2 = .ok counterpart ∧
        counterpart.words = ["1200", "2200"] ∧ assembly.Alike counterpart := by
  intro source expanded lines label unknown assembly
  have htargets : NoDirectives (Text.lines source) := by decide +kernel
  have hexpanded : IsExpansion source expanded := by decide +kernel
  have hrun : (assemble {} "f" source).2 = .ok assembly := by decide +kernel
  refine ⟨htargets, hexpanded, hrun, ?_⟩
  have hagree := ((expansion_preserves_assembly {} "f" htargets).2 expanded hexpanded).2
  rw [hrun] at hagree
  generalize (assemble {} "f" expanded).2 = result at hagree ⊢
  cases hagree with
  | ok halike => exact ⟨_, rfl, halike.words.symm, halike⟩

end Chip8Asm
