import Mathlib
import Chip8Asm.Proofs.OrphanLines
import Chip8Asm.Proofs.Records

/-! What makes a source unreadable. Whether a line offends is a matter of the line and of those
above it, and is said here by their tokens alone (`Program.Offends`). Along lines that do not offend
a program keeps of them all that decides whether the next one does (`Program.Reflects`), so reading
stops at the first line that offends. Labels are placed only when no line does. -/

namespace Chip8Asm

/-- The line is a directive that declares a label of the name: the name is the one token behind a
colon, or all that is joined to one. -/
def SourceLine.Declares (line : SourceLine) (name : String) : Prop :=
  line.tokens = [":", name] ∨ line.tokens = [":" ++ name] ∧ name ≠ "" ∧ name ≠ "ALIAS"

instance (line : SourceLine) (name : String) : Decidable (line.Declares name) :=
  inferInstanceAs (Decidable (_ ∨ _))

/-- The cause is about a label that has no place in the address space. -/
def Cause.isOverflow : Cause → Bool
  | .addressOverflow .. => true
  | _ => false

namespace Program

/-- What is wrong with a line under the lines above it. -/
inductive Offends (file : String) (policy : OrphanPolicy) (above : List SourceLine)
    (line : SourceLine) : Cause → Prop
  | malformedAlias : line.isDirective = true → line.tokens.head? = some aliasDirective →
      line.tokens.length ≠ 3 → Offends file policy above line
        (.malformedDirective line.text "expected ':ALIAS <name> <replacement>'")
  | malformedLabel : SourceLine.opensLabel line.text = true → (∀ name, ¬line.Declares name) →
      Offends file policy above line (.malformedDirective line.text "expected ': <label>'")
  | redeclared {name : String} {first : SourceLine} : line.Declares name →
      above.find? (·.Declares name) = some first →
      Offends file policy above line (.duplicateLabel name (some ⟨file, first.index⟩))
  | orphan : policy = .reject → line.isDirective = false →
      (∀ earlier ∈ above, SourceLine.opensLabel earlier.text = false) →
      Offends file policy above line (.orphanLine line.text)

/-- None of the lines offends. -/
def Clean (file : String) (policy : OrphanPolicy) (lines : List SourceLine) : Prop :=
  ∀ above line below cause, lines = above ++ line :: below → ¬Offends file policy above line cause

end Program

variable {file : String} {policy : OrphanPolicy} {above below lines : List SourceLine}
  {line : SourceLine} {name other : String} {cause : Cause} {program : Program}

/-! ### Declarations -/

namespace SourceLine

theorem Declares.eq (h : line.Declares name) (hother : line.Declares other) : other = name := by
  rcases h with h | ⟨h, -, -⟩ <;> rcases hother with hother | ⟨hother, -, -⟩ <;>
    rw [h] at hother
  · simpa using hother.symm
  · simp at hother
  · simp at hother
  · exact (colon_inj (List.cons.inj hother).1).symm

theorem IsNormal.declares_iff (hline : line.IsNormal) : line.Declares name ↔
    opensLabel line.text = true ∧ Program.labelNames? line.tokens = some [name] := by
  rw [opensLabel_iff]
  constructor
  · rintro (htokens | ⟨htokens, hempty, halias⟩)
    · rw [hline.isDirective_iff_first htokens, htokens]
      exact ⟨⟨by decide, by simp [Program.aliasDirective]⟩, rfl⟩
    · rw [hline.isDirective_iff_first htokens, htokens]
      refine ⟨⟨front_colon name, fun h => halias (colon_inj (Option.some.inj h))⟩, ?_⟩
      have hcolon : ":" ++ name ≠ ":" := fun h => hempty (colon_inj (b := "") h)
      simp [Program.labelNames?, hcolon]
  · rintro ⟨⟨hdirective, hhead⟩, hnames⟩
    obtain ⟨c, cs, rest, htokens, -⟩ := hline.tokens
    rw [hline.isDirective_iff_first htokens] at hdirective
    rw [htokens] at hhead hnames
    rw [Declares, htokens]
    rcases Program.labelNames?_cases hdirective hnames with ⟨hfirst, hrest⟩ | ⟨hfirst, hne, hrest⟩
    · rw [hfirst, hrest]
      exact .inl rfl
    · rw [hfirst] at hne hhead ⊢
      rw [hrest]
      refine .inr ⟨rfl, ?_, ?_⟩
      · rintro rfl
        exact hne rfl
      · rintro rfl
        exact hhead rfl

end SourceLine

theorem Label.index_find? (labels : List Label) (name : String) :
    (find? labels name).map Label.index =
      ((labels.map fun label => (label.name, label.index)).find? (·.1 == name)).map Prod.snd := by
  rw [List.find?_map, Option.map_map]
  rfl

namespace Program

/-! ### One line -/

/-- What a program that has read the lines keeps of their declarations. -/
structure Reflects (program : Program) (above : List SourceLine) : Prop where
  declared : ∀ name, (Label.find? program.labels name).map Label.index =
    (above.find? (·.Declares name)).map SourceLine.index
  unopened : program.labels = [] ↔
    ∀ earlier ∈ above, SourceLine.opensLabel earlier.text = false

namespace Reflects

/-- A line that offends is refused. -/
theorem read_of_offends (h : Reflects program above) (hline : line.IsNormal)
    (hoffends : Offends file policy above line cause) :
    program.read file policy line = .error (complain file line cause) := by
  cases hoffends with
  | malformedAlias hdirective hhead hlength =>
    rw [read, if_pos hdirective, if_pos hhead]
    unfold readAlias
    split
    · rename_i htokens
      exact (hlength (congrArg List.length htokens)).elim
    · rfl
  | malformedLabel hopens hnone =>
    obtain ⟨hdirective, hhead⟩ := (SourceLine.opensLabel_iff line).mp hopens
    rw [read, if_pos hdirective, if_neg hhead]
    unfold readLabel
    split
    · rename_i name hnames
      exact (hnone name (hline.declares_iff.mpr ⟨hopens, hnames⟩)).elim
    · rfl
  | @redeclared name first hname hfirst =>
    obtain ⟨hopens, hnames⟩ := hline.declares_iff.mp hname
    obtain ⟨hdirective, hhead⟩ := (SourceLine.opensLabel_iff line).mp hopens
    have hlabel := h.declared name
    rw [hfirst, Option.map_some, Option.map_eq_some_iff] at hlabel
    obtain ⟨label, hfind, hindex⟩ := hlabel
    rw [read, if_pos hdirective, if_neg hhead]
    simp only [readLabel, hnames, hfind, hindex]
  | orphan hpolicy hdirective habove =>
    rw [read, if_neg (by simp [hdirective]), hpolicy]
    simp only [readBody, h.unopened.mpr habove, List.isEmpty_nil, if_true]

/-- A line that is refused offends. -/
theorem offends_of_read (h : Reflects program above) (hline : line.IsNormal)
    (hread : program.read file policy line = .error d) :
    ∃ cause, Offends file policy above line cause := by
  unfold read at hread
  split at hread
  · rename_i hdirective
    split at hread
    · rename_i hhead
      refine ⟨_, .malformedAlias hdirective hhead fun hlength => ?_⟩
      obtain ⟨keyword, name, target, htokens⟩ := List.length_eq_three.mp hlength
      simp [readAlias, htokens] at hread
    · rename_i hhead
      have hopens := (SourceLine.opensLabel_iff line).mpr ⟨hdirective, hhead⟩
      unfold readLabel at hread
      split at hread
      · rename_i name hnames
        have hname := hline.declares_iff.mpr ⟨hopens, hnames⟩
        split at hread
        · rename_i label hfind
          have hfirst := h.declared name
          rw [hfind, Option.map_some, eq_comm, Option.map_eq_some_iff] at hfirst
          obtain ⟨first, hfirst, -⟩ := hfirst
          exact ⟨_, .redeclared hname hfirst⟩
        · cases hread
      · rename_i hnames
        refine ⟨_, .malformedLabel hopens fun name hname => ?_⟩
        exact hnames name (hline.declares_iff.mp hname).2
  · rename_i hdirective
    unfold readBody at hread
    split at hread
    · rename_i hempty
      cases policy with
      | reject =>
        exact ⟨_, .orphan rfl (by simpa using hdirective)
          (h.unopened.mp (List.isEmpty_iff.mp hempty))⟩
      | discard => cases hread
    · cases hread

theorem empty : Reflects {} [] where
  declared _ := rfl
  unopened := iff_of_true rfl (List.forall_mem_nil _)

/-- A line that declares no label adds nothing to what is kept. -/
theorem concat_of_not_opensLabel (h : Reflects program above) (hline : line.IsNormal)
    (hopens : SourceLine.opensLabel line.text = false) : Reflects program (above ++ [line]) where
  declared name := by
    have hname : ¬line.Declares name := fun hname => by
      simp [(hline.declares_iff.mp hname).1] at hopens
    rw [h.declared, List.find?_append, List.find?_singleton]
    simp [hname]
  unopened := by
    rw [h.unopened, List.forall_mem_append, List.forall_mem_singleton]
    exact (and_iff_left hopens).symm

theorem declareLabel (h : Reflects program above) (hname : line.Declares name)
    (hopens : SourceLine.opensLabel line.text = true) :
    Reflects { program with labels := program.labels ++ [{ name, index := line.index }] }
      (above ++ [line]) where
  declared other := by
    have hother : line.Declares other ↔ name = other :=
      ⟨fun hother => (hname.eq hother).symm, fun heq => heq ▸ hname⟩
    have hlabel := h.declared other
    simp only [Label.find?, List.find?_append, List.find?_singleton, Option.map_or] at hlabel ⊢
    rw [hlabel]
    by_cases heq : name = other <;> simp [hother, heq]
  unopened := by
    refine iff_of_false (by simp) fun habove => ?_
    simp [habove line (by simp)] at hopens

theorem body (h : Reflects program above) (lines : List SourceLine) (size : Int) :
    Reflects { program with lines, labels := Label.addToLast line size program.labels } above where
  declared name := by
    dsimp only
    rw [← h.declared, Label.index_find?, Label.index_find?, Label.addToLast_map fun _ _ _ => rfl]
  unopened := by
    dsimp only
    rw [← h.unopened, ← List.map_eq_nil_iff (f := Label.name), Label.addToLast_map fun _ _ _ => rfl,
      List.map_eq_nil_iff]

/-- A line that makes a statement is recorded. -/
theorem record (h : Reflects program above) (hline : line.IsNormal)
    (hread : program.read file policy line = .ok statement) :
    Reflects (program.record file statement) (above ++ [line]) := by
  have hopens := SourceLine.opensLabel_iff line
  rcases read_cases hread with ⟨_, _, -, htokens, rfl⟩ | ⟨name, hdirective, hhead, hnames, -, rfl⟩ |
    ⟨hdirective, -, -, rfl⟩ | ⟨hdirective, -, rfl⟩
  · have hreads := h.concat_of_not_opensLabel hline (by simpa [htokens] using hopens)
    exact { hreads with }
  · replace hopens := hopens.mpr ⟨hdirective, hhead⟩
    exact h.declareLabel (hline.declares_iff.mpr ⟨hopens, hnames⟩) hopens
  · have hreads := h.concat_of_not_opensLabel hline (by simpa [hdirective] using hopens)
    exact { hreads with }
  · have hreads := h.concat_of_not_opensLabel hline (by simpa [hdirective] using hopens)
    exact hreads.body _ _

end Reflects

/-! ### All lines -/

theorem clean_nil : Clean file policy [] := by
  intro above line below cause h
  simp at h

theorem Clean.concat (h : Clean file policy lines)
    (hline : ∀ cause, ¬Offends file policy lines line cause) :
    Clean file policy (lines ++ [line]) := by
  intro above other below cause hsplit
  rcases below.eq_nil_or_concat with rfl | ⟨below, last, rfl⟩
  · obtain ⟨rfl, hother⟩ := List.append_inj' hsplit rfl
    exact (List.cons.inj hother).1 ▸ hline cause
  · rw [List.concat_eq_append, ← List.cons_append, ← List.append_assoc] at hsplit
    exact h above other below cause (List.append_inj' hsplit rfl).1

/-- Either no line offends and the lines are read, or reading stops at the first that does. -/
theorem scan_cases (file : String) (policy : OrphanPolicy)
    (hnormal : ∀ line ∈ lines, line.IsNormal) :
    (Clean file policy lines ∧ ∃ program, ({} : Program).scan file policy lines = .ok program ∧
      Reflects program lines) ∨
    ∃ above line below cause, lines = above ++ line :: below ∧ Clean file policy above ∧
      Offends file policy above line cause ∧
      ({} : Program).scan file policy lines = .error (complain file line cause) := by
  induction lines using List.reverseRecOn with
  | nil => exact .inl ⟨clean_nil, {}, rfl, .empty⟩
  | append_singleton lines last ih =>
    obtain ⟨hnormal, hlast⟩ := List.forall_mem_append.mp hnormal
    replace hlast := hlast last (List.mem_singleton_self _)
    rcases ih hnormal with ⟨hclean, program, hscan, hreflects⟩ |
      ⟨above, line, below, cause, rfl, hclean, hoffends, hscan⟩
    · have hscan' : ({} : Program).scan file policy (lines ++ [last]) =
          (program.read file policy last).bind fun statement =>
            .ok (program.record file statement) := by
        rw [scan_append_bind, hscan]
        exact scan_cons file policy program last []
      rw [hscan']
      cases hread : program.read file policy last with
      | ok statement =>
        refine .inl ⟨hclean.concat fun cause hoffends => ?_, _, rfl, hreflects.record hlast hread⟩
        rw [hreflects.read_of_offends hlast hoffends] at hread
        cases hread
      | error d =>
        obtain ⟨cause, hoffends⟩ := hreflects.offends_of_read hlast hread
        rw [hreflects.read_of_offends hlast hoffends] at hread
        refine .inr ⟨lines, last, [], cause, rfl, hclean, hoffends, ?_⟩
        exact congrArg Except.error (Except.error.inj hread).symm
    · refine .inr ⟨above, line, below ++ [last], cause, by simp, hclean, hoffends, ?_⟩
      rw [scan_append_bind, hscan]
      rfl

/-- Whatever follows the first line that offends, its diagnostic is the one to see. -/
theorem scan_of_offends (hnormal : ∀ other ∈ above ++ line :: below, other.IsNormal)
    (hclean : Clean file policy above) (hoffends : Offends file policy above line cause) :
    ({} : Program).scan file policy (above ++ line :: below) =
      .error (complain file line cause) := by
  obtain ⟨habove, hline⟩ := List.forall_mem_append.mp hnormal
  rcases scan_cases file policy habove with ⟨-, program, hscan, hreflects⟩ |
    ⟨before, other, after, cause, hsplit, -, hother, -⟩
  · have hread := hreflects.read_of_offends (hline line List.mem_cons_self) hoffends
    rw [scan_append_bind, hscan]
    refine (scan_cons file policy program line below).trans ?_
    rw [hread]
    rfl
  · exact (hclean before other after cause hsplit hother).elim

/-! ### Whole sources -/

theorem Offends.isOverflow (h : Offends file policy above line cause) :
    cause.isOverflow = false := by
  cases h <;> rfl

theorem isOverflow_of_place (h : program.place file = .error d) : d.cause.isOverflow = true := by
  rw [place] at h
  split at h
  · rename_i hoverflow
    obtain ⟨_, label, _, -, -, -, hd⟩ := Layout.overflow?_eq_some_iff.mp hoverflow
    rw [← Except.error.inj h, hd]
    rfl
  · cases h

/-- A source is refused for the first of its lines that offends, and when no line offends only for a
label that has no place. -/
theorem first_offence_is_reported (file : String) (policy : OrphanPolicy) (source : String) :
    (∀ d, ofSource file policy source = .error d ∧ d.cause.isOverflow = false ↔
      ∃ above line below cause, SourceLine.ofSource source = above ++ line :: below ∧
        Clean file policy above ∧ Offends file policy above line cause ∧
        d = ⟨cause, some ⟨file, line.index⟩, some line.text, cause.hint⟩) ∧
    ((∃ d, ofSource file policy source = .error d ∧ d.cause.isOverflow = false) ↔
      ∃ above line below cause, SourceLine.ofSource source = above ++ line :: below ∧
        Offends file policy above line cause) ∧
    ∀ d, ofSource file policy source = .error d →
      (d.cause.isOverflow = true ↔ Clean file policy (SourceLine.ofSource source)) := by
  have hnormal := (Sound.ofSource source).restNormal
  rw [ofSource_eq]
  rcases scan_cases file policy hnormal with ⟨hclean, program, hscan, -⟩ |
    ⟨above, line, below, cause, hsplit, hclean, hoffends, hscan⟩
  · have hplace : ∀ d, program.place file = .error d → ¬d.cause.isOverflow = false := by
      intro d hd
      rw [isOverflow_of_place hd]
      exact Bool.noConfusion
    rw [hscan]
    refine ⟨fun d => ?_, ?_, fun d hd => iff_of_true (isOverflow_of_place hd) hclean⟩
    · refine iff_of_false (fun ⟨hd, hcause⟩ => hplace d hd hcause) ?_
      intro ⟨above, line, below, cause, hsplit, _, hoffends, _⟩
      exact hclean above line below cause hsplit hoffends
    · refine iff_of_false (fun ⟨d, hd, hcause⟩ => hplace d hd hcause) ?_
      intro ⟨above, line, below, cause, hsplit, hoffends⟩
      exact hclean above line below cause hsplit hoffends
  · have hunclean : ¬Clean file policy (SourceLine.ofSource source) :=
      fun hall => hall above line below cause hsplit hoffends
    refine ⟨fun d => ⟨fun ⟨hd, _⟩ => ?_, ?_⟩, ?_, fun d hd => iff_of_false ?_ hunclean⟩
    · rw [hscan] at hd
      exact ⟨above, line, below, cause, hsplit, hclean, hoffends, (Except.error.inj hd).symm⟩
    · intro ⟨above', line', below', cause', hsplit', hclean', hoffends', hd⟩
      rw [hsplit'] at hnormal ⊢
      rw [scan_of_offends hnormal hclean' hoffends', hd]
      exact ⟨rfl, hoffends'.isOverflow⟩
    · rw [hscan]
      exact iff_of_true ⟨_, rfl, hoffends.isOverflow⟩ ⟨above, line, below, cause, hsplit, hoffends⟩
    · rw [hscan] at hd
      have hcause : d.cause.isOverflow = false :=
        Except.error.inj hd ▸ hoffends.isOverflow
      rw [hcause]
      exact Bool.noConfusion

/-- Of the lines that offend here, the first declares a label again. -/
theorem first_offence_is_redeclaration :
    let source := ": a\ncls ; b\n\n:A\n:alias b\n: b c"
    ∃ d, ofSource "f" .reject source = .error d ∧
      d.cause = .duplicateLabel "A" (some ⟨"f", 0⟩) ∧ d.location = some ⟨"f", 3⟩ ∧
      (∃ above line below cause, SourceLine.ofSource source = above ++ line :: below ∧
        Clean "f" .reject above ∧ Offends "f" .reject above line cause ∧
        d = ⟨cause, some ⟨"f", line.index⟩, some line.text, cause.hint⟩) ∧
      ¬Clean "f" .reject (SourceLine.ofSource source) := by
  intro source
  have hread : ofSource "f" .reject source = .error
      ⟨.duplicateLabel "A" (some ⟨"f", 0⟩), some ⟨"f", 3⟩, some ":A",
        some "'A' was first defined at f:0"⟩ := by
    decide +kernel
  obtain ⟨hfirst, -, hclean⟩ := first_offence_is_reported "f" .reject source
  refine ⟨_, hread, rfl, rfl, (hfirst _).mp ⟨hread, rfl⟩, ?_⟩
  rw [← hclean _ hread]
  exact Bool.noConfusion

end Program

end Chip8Asm
