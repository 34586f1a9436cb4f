import Mathlib
import Chip8Asm.Proofs.BodyLines
import Chip8Asm.Proofs.NormalForm
import Chip8Asm.Proofs.Stopping

/-! The one fault that ends an assembly without a result. Encoding a line reads its tokens from left
to right, each by the shape of its place (`Encoding.places`), and the first that does not fit its
place decides what is wrong with the line. This is a diagnostic in all cases but one: a decimal
numeral beyond the digit limit, where a number should stand (`Encoding.Blocked`). -/

namespace Chip8Asm

/-! ### Overlong numerals -/

namespace Kind
open Text

theorem ofToken_eq_decimal_iff : ofToken token = .decimal ↔
    hasDigitsOf 10 token.toList = true ∧ token.toList.head? ≠ some '0' := by
  have hnot : ∀ {c rest}, token.toList = c :: rest → isDigitOf 10 c = false →
      ¬hasDigitsOf 10 token.toList = true := by
    intro c rest hcs hc hdigits
    have := (hasDigitsOf_iff.mp hdigits).2 c (hcs ▸ List.mem_cons_self)
    rw [hc] at this
    cases this
  rw [ofToken_eq]
  rcases ofPrefix_cases token.toList with
    ⟨x, rest, hcs, _, h⟩ | ⟨b, rest, hcs, _, h⟩ | ⟨rest, hcs, h⟩ | ⟨v, rest, hcs, hv, h⟩ | h
  · rw [h, hcs]
    simp
  · rw [h, hcs]
    simp
  · simp [h, hnot hcs (by decide)]
  · have hdigit : isDigitOf 10 v = false := by rcases hv with rfl | rfl <;> decide
    simp [h, hnot hcs hdigit]
  · rw [h]
    rcases ofDigits_cases token.toList with ⟨_, hzero, hd⟩ | ⟨hten, hzero, hd⟩ | ⟨hinvalid, hd⟩
    · simp [hd, hzero]
    · simp [hd, hten, hzero]
    · simp only [hd, reduceCtorEq, false_iff, not_and, not_not]
      exact fun hten => (hinvalid hten).1

end Kind

namespace Numeral

/-- A decimal numeral of more digits than are read. -/
structure Overlong (token : String) : Prop where
  digits : Text.hasDigitsOf 10 token.toList = true
  front : token.toList.head? ≠ some '0'
  long : maxDecimalDigits < token.length

theorem parse_of_overlong (h : Overlong token) :
    parse token = .error (.digitLimit token.length) := by
  have hkind := Kind.ofToken_eq_decimal_iff.mpr ⟨h.digits, h.front⟩
  simp [parse, hkind, Kind.radix?, h.digits, String.length_toList, h.long]

theorem parse_error_cases (h : parse token = .error fault) :
    fault = .ofCause (.invalidNumber token) ∨
      Overlong token ∧ fault = .digitLimit token.length := by
  unfold parse at h
  split at h
  · exact .inl (Except.error.inj h).symm
  · rename_i skip radix hradix
    dsimp only at h
    split at h
    · exact .inl (Except.error.inj h).symm
    · rename_i hdigits
      split at h
      · rename_i hlong
        obtain ⟨rfl, hlong⟩ := hlong
        -- ten is the radix of decimal numerals only
        have hkind : Kind.ofToken token = .decimal ∧ skip = 0 := by
          cases hkind : Kind.ofToken token <;> simp_all [Kind.radix?]
        obtain ⟨hkind, rfl⟩ := hkind
        obtain ⟨hten, hfront⟩ := Kind.ofToken_eq_decimal_iff.mp hkind
        rw [List.drop_zero, String.length_toList] at hlong h
        exact .inr ⟨⟨hten, hfront, hlong⟩, (Except.error.inj h).symm⟩
      · cases h

theorem parse_of_not_spells (hshort : ¬Overlong token) (hno : ∀ n, ¬Spells token.toList n) :
    parse token = .error (.ofCause (.invalidNumber token)) := by
  cases hparse : parse token with
  | ok n => exact (hno n (parse_eq_ok_iff.mp hparse)).elim
  | error fault =>
    rcases parse_error_cases hparse with hinvalid | ⟨hoverlong, _⟩
    · rw [hinvalid]
    · exact (hshort hoverlong).elim

end Numeral

/-! ### Places -/

/-- The token can be read in a place of the shape. A reserved name is not looked at again once the
form is chosen. -/
def Shape.Fits (token : String) : Shape → Prop
  | .register => ∃ r, Register.Spells token.toList r
  | .immediate => ∃ n, Numeral.Spells token.toList n
  | .reserved _ => True

namespace Encoding

theorem map_eq_error_iff {f : α → β} {x : Except ε α} : x.map f = .error e ↔ x = .error e := by
  cases x <;> simp [Except.map]

/-- The tokens that are read once aliases and labels are replaced, with the shapes of their
places. -/
def places (tokens : List String) : List (String × Shape) :=
  match tokens with
  | [] => []
  | head :: rest =>
    if (Kind.ofToken head).isNumeric then tokens.map (·, .immediate)
    else
      match selectForm head rest with
      | .ok form => rest.zip form.shapes
      | .error _ => []

/-- What is wrong with a token in its place. -/
def placeFault? (labels : List Label) (width : Nat) : String × Shape → Option Fault
  | (token, .register) =>
    match Register.parse token with
    | .ok _ => none
    | .error d => some (.diagnostic d)
  | (token, .immediate) =>
    match readImmediate labels width token with
    | .ok _ => none
    | .error fault => some fault
  | (_, .reserved _) => none

theorem placeFault?_eq_none_iff {place : String × Shape} :
    placeFault? labels width place = none ↔ place.2.Fits place.1 := by
  obtain ⟨token, shape⟩ := place
  cases shape with
  | register =>
    have hspells : ∀ r, Register.parse token = .ok r ↔ Register.Spells token.toList r :=
      fun _ => Register.parse_eq_ok_iff
    simp only [placeFault?, Shape.Fits, ← hspells]
    cases Register.parse token <;> simp
  | immediate =>
    have hspells : ∀ n, Numeral.parse token = .ok n ↔ Numeral.Spells token.toList n :=
      fun _ => Numeral.parse_eq_ok_iff
    simp only [placeFault?, Shape.Fits, ← hspells]
    cases hread : readImmediate labels width token with
    | ok s =>
      obtain ⟨n, hn⟩ := exists_spells_of_readImmediate hread
      exact iff_of_true rfl ⟨n, Numeral.parse_eq_ok_iff.mpr hn⟩
    | error fault =>
      refine iff_of_false (Option.some_ne_none _) fun ⟨n, hn⟩ => ?_
      have hnormal : Numeral.normalize width token = .ok _ := map_eq_ok_iff.mpr ⟨n, hn, rfl⟩
      rw [readImmediate_eq_ok_iff.mpr hnormal] at hread
      cases hread
  | reserved r => exact iff_of_true rfl trivial

theorem placeFault?_of_overlong (h : Numeral.Overlong token) :
    placeFault? labels width (token, .immediate) = some (.digitLimit token.length) := by
  have hnormal : Numeral.normalize width token = .error (.digitLimit token.length) :=
    map_eq_error_iff.mpr (Numeral.parse_of_overlong h)
  simp only [placeFault?, readImmediate, hnormal]

theorem placeFault?_cases {place : String × Shape}
    (h : placeFault? labels width place = some fault) : (∃ d, fault = .diagnostic d) ∨
      place.2 = .immediate ∧ Numeral.Overlong place.1 ∧ fault = .digitLimit place.1.length := by
  obtain ⟨token, shape⟩ := place
  cases shape with
  | register =>
    simp only [placeFault?] at h
    split at h
    · cases h
    · exact .inl ⟨_, (Option.some.inj h).symm⟩
  | immediate =>
    simp only [placeFault?, readImmediate] at h
    cases hnormal : Numeral.normalize width token with
    | ok s => simp [hnormal] at h
    | error cause =>
      rcases Numeral.parse_error_cases (map_eq_error_iff.mp hnormal) with
        rfl | ⟨hoverlong, rfl⟩
      · simp only [hnormal, Fault.ofCause] at h
        split at h
        · rename_i hsplit
          split at hsplit <;> simp at hsplit
        · rename_i hsplit
          split at hsplit
          · exact .inl ⟨_, (Option.some.inj h).symm.trans (Except.error.inj hsplit).symm⟩
          · exact .inl ⟨_, (Option.some.inj h).symm.trans (Except.error.inj hsplit).symm⟩
      · simp only [hnormal] at h
        exact .inr ⟨rfl, hoverlong, (Option.some.inj h).symm⟩
  | reserved r => cases h

/-- The operands are read from left to right up to the first that does not fit. -/
theorem readOperands_error_iff {operands : List String} {shapes : List Shape} {fault : Fault} :
    readOperands labels width operands shapes = .error fault ↔
      (operands.zip shapes).findSome? (placeFault? labels width) = some fault := by
  induction operands generalizing shapes with
  | nil => simp [readOperands]
  | cons token operands ih =>
    cases shapes with
    | nil => simp [readOperands]
    | cons shape shapes =>
      rw [List.zip_cons_cons, List.findSome?_cons]
      cases shape with
      | register =>
        cases hparse : Register.parse token with
        | ok r => simp only [readOperands, placeFault?, hparse, map_eq_error_iff, ih]
        | error d => simp [readOperands, placeFault?, hparse]
      | immediate =>
        cases hread : readImmediate labels width token with
        | ok s => simp only [readOperands, placeFault?, hread, map_eq_error_iff, ih]
        | error cause => simp [readOperands, placeFault?, hread]
      | reserved r => simp only [readOperands, placeFault?, ih]

theorem encodeData_error_iff {tokens : List String} {fault : Fault} (labels : List Label) :
    encodeData tokens = .error fault ↔
      (tokens.map (·, Shape.immediate)).findSome? (placeFault? labels 2) = some fault := by
  have hread : ∀ token, readImmediate labels 2 token = Numeral.normalize 2 token := by
    intro token
    unfold readImmediate
    split
    · rename_i d hnormal
      exact (if_neg (by simp [looksLikeLabel, addressWidth])).trans hnormal.symm
    · rfl
  rw [encodeData, map_eq_error_iff]
  induction tokens with
  | nil => simp [pure, Except.pure]
  | cons token tokens ih =>
    rw [List.mapM_cons, List.map_cons, List.findSome?_cons]
    cases hnormal : Numeral.normalize 2 token with
    | error cause => simp [placeFault?, hread, hnormal, bind, Except.bind]
    | ok byte =>
      simp only [placeFault?, hread, hnormal]
      exact map_eq_error_iff.trans ih

/-- The leftmost token that does not fit its place is a decimal numeral beyond the digit limit. -/
structure Blocked (tokens : List String) (token : String) : Prop where
  overlong : Numeral.Overlong token
  leftmost : ∃ before after, places tokens = before ++ (token, .immediate) :: after ∧
    ∀ place ∈ before, place.2.Fits place.1

theorem exists_width_places (labels : List Label) {tokens : List String} (hne : tokens ≠ []) :
    ∃ width, ∀ fault, (∀ d, fault ≠ .diagnostic d) →
      (encodeReplaced labels tokens = .error fault ↔
        (places tokens).findSome? (placeFault? labels width) = some fault) := by
  obtain ⟨head, rest, rfl⟩ := List.exists_cons_of_ne_nil hne
  by_cases hnumeric : (Kind.ofToken head).isNumeric = true
  · refine ⟨2, fun fault _ => ?_⟩
    rw [encodeReplaced, if_pos hnumeric, places, if_pos hnumeric]
    exact encodeData_error_iff labels
  · rw [encodeReplaced, if_neg hnumeric, places, if_neg hnumeric, encodeInstruction]
    cases hselect : selectForm head rest with
    | error d =>
      refine ⟨0, fun fault hfault => ?_⟩
      simpa using (hfault d).symm
    | ok form =>
      refine ⟨form.immediateWidth, fun fault _ => ?_⟩
      exact map_eq_error_iff.trans readOperands_error_iff

/-- A fault that is no diagnostic comes from a numeral that blocks the line. -/
theorem encodeReplaced_fault_iff {tokens : List String} {fault : Fault} (hne : tokens ≠ [])
    (hfault : ∀ d, fault ≠ .diagnostic d) :
    encodeReplaced labels tokens = .error fault ↔
      ∃ token, Blocked tokens token ∧ fault = .digitLimit token.length := by
  obtain ⟨width, hwidth⟩ := exists_width_places labels hne
  rw [hwidth fault hfault, List.findSome?_eq_some_iff]
  constructor
  · rintro ⟨before, place, after, hsplit, hplace, hbefore⟩
    rcases placeFault?_cases hplace with ⟨d, hd⟩ | ⟨hshape, hoverlong, hlimit⟩
    · exact (hfault d hd).elim
    · obtain ⟨token, shape⟩ := place
      obtain rfl : shape = .immediate := hshape
      refine ⟨token, ⟨hoverlong, before, after, hsplit, fun other hother => ?_⟩, hlimit⟩
      exact placeFault?_eq_none_iff.mp (hbefore other hother)
  · rintro ⟨token, ⟨hoverlong, before, after, hsplit, hbefore⟩, rfl⟩
    refine ⟨before, (token, .immediate), after, hsplit, placeFault?_of_overlong hoverlong, ?_⟩
    intro other hother
    exact placeFault?_eq_none_iff.mpr (hbefore other hother)

end Encoding

/-! ### Runs -/

namespace Program

variable {program : Program} {line : SourceLine} {fault : Fault}

theorem encodeLine_fault_iff (h : ofSource file policy source = .ok program)
    (hline : line ∈ program.lines) (hfault : ∀ d, fault ≠ .diagnostic d) :
    Encoding.encodeLine program.aliases program.labels line = .error fault ↔
      ∃ token, Encoding.Blocked (program.readTokens line) token ∧
        fault = .digitLimit token.length := by
  rw [encodeLine_eq h hline]
  exact Encoding.encodeReplaced_fault_iff (readTokens_ne_nil h hline) hfault

theorem strayFault?_eq_some_iff (h : ofSource file policy source = .ok program)
    (hline : line ∈ program.lines) : program.strayFault? line = some fault ↔
      ∃ token, Encoding.Blocked (program.readTokens line) token ∧
        fault = .digitLimit token.length := by
  constructor
  · intro hstray
    unfold strayFault? at hstray
    split at hstray
    · cases hstray
    · cases hstray
    · rename_i other hdiagnostic hother
      obtain rfl := Option.some.inj hstray
      exact (encodeLine_fault_iff h hline hdiagnostic).mp hother
  · rintro ⟨token, htoken, rfl⟩
    have hencode :=
      (encodeLine_fault_iff h hline fun _ => Fault.noConfusion).mpr ⟨token, htoken, rfl⟩
    simp only [strayFault?, hencode]

theorem strayFault?_eq_none_iff (h : ofSource file policy source = .ok program)
    (hline : line ∈ program.lines) : program.strayFault? line = none ↔
      ∀ token, ¬Encoding.Blocked (program.readTokens line) token := by
  rw [Option.eq_none_iff_forall_ne_some]
  constructor
  · intro hnone token htoken
    exact hnone _ ((strayFault?_eq_some_iff h hline).mpr ⟨token, htoken, rfl⟩)
  · intro hfree fault hfault
    obtain ⟨token, htoken, _⟩ := (strayFault?_eq_some_iff h hline).mp hfault
    exact hfree token htoken

section
variable {taken : List SourceLine} (h : ofSource file policy source = .ok program)
  (htaken : ∀ line ∈ taken, line ∈ program.lines)
include h htaken

theorem findSome?_strayFault?_eq_none_iff : taken.findSome? program.strayFault? = none ↔
    ∀ line ∈ taken, ∀ token, ¬Encoding.Blocked (program.readTokens line) token := by
  rw [List.findSome?_eq_none_iff]
  exact forall₂_congr fun line hline => strayFault?_eq_none_iff h (htaken line hline)

theorem findSome?_strayFault?_eq_some_iff : taken.findSome? program.strayFault? = some fault ↔
    ∃ before line after token, taken = before ++ line :: after ∧
      (∀ other ∈ before, ∀ token, ¬Encoding.Blocked (program.readTokens other) token) ∧
      Encoding.Blocked (program.readTokens line) token ∧ fault = .digitLimit token.length := by
  rw [List.findSome?_eq_some_iff]
  constructor
  · rintro ⟨before, line, after, rfl, hline, hbefore⟩
    have hmem := htaken line (List.mem_append_right _ List.mem_cons_self)
    obtain ⟨token, htoken, rfl⟩ := (strayFault?_eq_some_iff h hmem).mp hline
    refine ⟨before, line, after, token, rfl, fun other hother => ?_, htoken, rfl⟩
    have hotherMem := htaken other (List.mem_append_left _ hother)
    exact (strayFault?_eq_none_iff h hotherMem).mp (hbefore other hother)
  · rintro ⟨before, line, after, token, rfl, hbefore, htoken, rfl⟩
    have hmem := htaken line (List.mem_append_right _ List.mem_cons_self)
    refine ⟨before, line, after, rfl, (strayFault?_eq_some_iff h hmem).mpr ⟨token, htoken, rfl⟩, ?_⟩
    intro other hother
    have hotherMem := htaken other (List.mem_append_left _ hother)
    exact (strayFault?_eq_none_iff h hotherMem).mpr (hbefore other hother)

end

theorem encodeLine_error_cases (h : ofSource file policy source = .ok program)
    (hline : line ∈ program.lines)
    (herror : Encoding.encodeLine program.aliases program.labels line = .error fault) :
    (∃ d, fault = .diagnostic d) ∨
      ∃ token, Encoding.Blocked (program.readTokens line) token ∧
        fault = .digitLimit token.length := by
  by_cases hdiagnostic : ∃ d, fault = .diagnostic d
  · exact .inl hdiagnostic
  · exact .inr ((encodeLine_fault_iff h hline fun d hd => hdiagnostic ⟨d, hd⟩).mp herror)

end Program

namespace Run

theorem result_of_stop {run : Run} (h : ∀ fault, run.stop ≠ .fault fault) :
    run.result program = .ok ⟨program, run.entries⟩ := by
  unfold result
  split
  · rename_i fault hstop
    exact (h fault hstop).elim
  · rfl

end Run

/-! ### A single numeral -/

namespace Program

/-- The program of one label with one token below it. -/
def single (token : String) : Program where
  lines := [⟨1, token⟩]
  labels := [{ name := "A", address := some 512, size := 1, lines := [⟨1, token⟩] }]

variable {token : String}

theorem ofSource_single (htoken : IsToken token) (hkind : Kind.ofToken token = .decimal) :
    ofSource "f" .reject (Text.unlines [": A", token]) = .ok (single token) := by
  have hlines : Text.lines (Text.unlines [": A", token]) = [": A", token] := by
    have hlabel : ∀ c ∈ ": A".toList, Text.isLineBreak c = false := by
      have hall : (": A".toList.all fun c => !Text.isLineBreak c) = true := by decide +kernel
      simpa only [List.all_eq_true, Bool.not_eq_true_eq_eq_false] using hall
    refine Text.lines_unlines (List.forall_mem_cons.mpr ⟨hlabel, ?_⟩)
    exact List.forall_mem_singleton.mpr fun c hc => (htoken.plain c hc).unbroken
  have hsource : SourceLine.ofSource (Text.unlines [": A", token]) =
      [⟨0, ": A"⟩, ⟨1, token⟩] := by
    have hcolon : SourceLine.normalize ": A" = ": A" := by decide +kernel
    simp [SourceLine.ofSource, hlines, SourceLine.numbered, hcolon, htoken.normalize,
      htoken.nonempty]
  have hlabel : ({} : Program).read "f" .reject ⟨0, ": A"⟩ = .ok (.declareLabel "A" 0) := by
    decide +kernel
  have hdirective : SourceLine.isDirective ⟨1, token⟩ = false := by
    obtain ⟨hne, hdigits⟩ := Text.hasDigitsOf_iff.mp (Kind.ofToken_eq_decimal_iff.mp hkind).1
    obtain ⟨c, rest, hcs⟩ := List.exists_cons_of_ne_nil hne
    have hc := hdigits c (hcs ▸ List.mem_cons_self)
    rw [← Bool.not_eq_true, SourceLine.isDirective_iff, hcs, List.head?_cons]
    intro hcolon
    rw [Option.some.inj hcolon] at hc
    cases hc
  have hmnemonic : Instruction.isMnemonic token = false := by
    cases hm : Instruction.isMnemonic token with
    | false => rfl
    | true =>
      rw [Instruction.kind_of_isMnemonic hm] at hkind
      cases hkind
  have hresolve : Alias.resolve [] token = token := rfl
  have hbody : (({} : Program).record "f" (.declareLabel "A" 0)).read "f" .reject ⟨1, token⟩ =
      .ok (.body ⟨1, token⟩ 1) := by
    simp [read, hdirective, readBody, record, SourceLine.size?, SourceLine.tokens, htoken.words,
      hresolve, hmnemonic]
  rw [ofSource, hsource]
  simp only [scan, hlabel, hbody]
  rfl

theorem blocked_single (htoken : IsToken token) (h : Numeral.Overlong token) :
    Encoding.Blocked ((single token).readTokens ⟨1, token⟩) token := by
  have hresolved : SourceLine.resolved (single token).aliases ⟨1, token⟩ = [token] := by
    rw [SourceLine.resolved, SourceLine.tokens, htoken.words, List.map_singleton]
    rfl
  have hname : Label.find? (single token).labels token = none := by
    refine Label.find?_eq_none_iff.mpr fun hmem => ?_
    obtain rfl : token = "A" := List.mem_singleton.mp hmem
    cases h.digits
  have hplaces : Encoding.places [token] = [(token, .immediate)] := by
    rw [Encoding.places, Kind.ofToken_eq_decimal_iff.mpr ⟨h.digits, h.front⟩]
    rfl
  rw [readTokens, hresolved, List.map_singleton, Encoding.located, hname]
  exact ⟨h, [], [], hplaces, fun _ hmem => (List.not_mem_nil hmem).elim⟩

end Program

/-- Ones in any number make a token, and one beyond the digit limit if they are too many. -/
theorem Numeral.overlong_ones (h : maxDecimalDigits < n) :
    IsToken (String.ofList (List.replicate n '1')) ∧
      Overlong (String.ofList (List.replicate n '1')) := by
  have hlength : (String.ofList (List.replicate n '1')).length = n := by
    rw [String.length_ofList, List.length_replicate]
  have hone : ∀ c ∈ List.replicate n '1', c = '1' := fun _ => List.eq_of_mem_replicate
  have hne : List.replicate n '1' ≠ [] := by
    intro hnil
    rw [List.replicate_eq_nil_iff] at hnil
    omega
  refine ⟨⟨?_, ?_⟩, ⟨?_, ?_, by rwa [hlength]⟩⟩
  · simpa using hne
  · intro c hc
    rw [String.toList_ofList] at hc
    rw [hone c hc]
    exact ⟨by decide, by decide, by decide, by decide +kernel⟩
  · rw [String.toList_ofList]
    refine Text.hasDigitsOf_iff.mpr ⟨hne, fun c hc => ?_⟩
    rw [hone c hc]
    decide
  · rw [String.toList_ofList]
    intro hzero
    cases hone '0' (List.mem_of_mem_head? hzero)

/-! ### Assemblies -/

/-- So many failures reach the limit, and it has too many digits to be told. -/
def Config.Overrun (config : Config) (failures : Nat) : Prop :=
  0 < failures ∧ config.maxErrors ≤ failures ∧ 10 ^ maxDecimalDigits ≤ config.maxErrors.natAbs

theorem Config.overruns_iff (config : Config) (warnings : List String) (failures : Nat) :
    ErrorLog.Overruns ⟨config.maxErrors, [], warnings⟩ failures ↔ config.Overrun failures := by
  rw [ErrorLog.Overruns, Overrun, ← Bool.not_eq_true, hasDecimalText_iff, not_lt]
  simp

/-- Once a source has a program, its assembly has a result exactly if none of the lines up to the
quota of failures is blocked and the failures among them do not overrun the log. It then reports on
all these lines. Otherwise it ends with the fault of the first line that is blocked, or with that of
a limit that cannot be told. What can be wrong with a line is a diagnostic in all other cases. -/
theorem assemble_returns_unless_blocked
    (h : Program.ofSource file config.orphans source = .ok program) :
    ∃ taken, UpTo program.fails config.quota program.lines taken ∧
      ((∃ entries, (assemble config file source).2 = .ok ⟨program, entries⟩ ∧
          entries.map Entry.line = taken ∧ ∀ entry ∈ entries, entry.Reports file program) ↔
        (∀ line ∈ taken, ∀ token, ¬Encoding.Blocked (program.readTokens line) token) ∧
          ¬config.Overrun (taken.countP program.fails)) ∧
      (∀ fault, (assemble config file source).2 = .error fault ↔
        (∃ before line after token, taken = before ++ line :: after ∧
          (∀ other ∈ before, ∀ token, ¬Encoding.Blocked (program.readTokens other) token) ∧
          Encoding.Blocked (program.readTokens line) token ∧ fault = .digitLimit token.length) ∨
        (∀ line ∈ taken, ∀ token, ¬Encoding.Blocked (program.readTokens line) token) ∧
          config.Overrun (taken.countP program.fails) ∧ fault = .unwritable) ∧
      ∀ line ∈ program.lines, ∀ fault,
        Encoding.encodeLine program.aliases program.labels line = .error fault →
          (∃ d, fault = .diagnostic d) ∨
            ∃ token, Encoding.Blocked (program.readTokens line) token ∧
              fault = .digitLimit token.length := by
  obtain ⟨taken, htaken, hstop, hentries⟩ := Run.exists_taken_of_encodeLines file config.failFast
    program ⟨config.maxErrors, [], program.warnings⟩ program.lines
  rw [← Run.fresh_eq] at hstop hentries
  rw [ErrorLog.quota_fresh] at htaken
  have hmem : ∀ line ∈ taken, line ∈ program.lines := fun line hline => htaken.sublist.subset hline
  have hfree := Program.findSome?_strayFault?_eq_none_iff h hmem
  have hfault : ∀ fault, (Run.fresh config file program).stop = .fault fault ↔ _ := fun fault => by
    rw [hstop, Config.overruns_iff, hfree, Program.findSome?_strayFault?_eq_some_iff h hmem]
  rw [assemble_of_ok h]
  refine ⟨taken, htaken, ⟨?_, ?_⟩, fun fault => Run.result_eq_error_iff.trans (hfault fault),
    fun line hline fault herror => Program.encodeLine_error_cases h hline herror⟩
  · rintro ⟨entries, hok, _⟩
    have hgoes : ∀ fault, (Run.fresh config file program).stop ≠ .fault fault := by
      intro fault hleft
      rw [Run.result_eq_error_iff.mpr hleft] at hok
      cases hok
    have hunblocked := hfree.mp (Option.eq_none_iff_forall_ne_some.mpr fun fault hsome =>
      hgoes fault ((hstop fault).mpr (.inl hsome)))
    refine ⟨hunblocked, fun hoverrun => ?_⟩
    exact hgoes .unwritable ((hfault _).mpr (.inr ⟨hunblocked, hoverrun, rfl⟩))
  · rintro ⟨hunblocked, hroom⟩
    have hgoes : ∀ fault, (Run.fresh config file program).stop ≠ .fault fault := by
      intro fault hleft
      rcases (hstop fault).mp hleft with hsome | ⟨-, hoverruns, -⟩
      · rw [hfree.mpr hunblocked] at hsome
        cases hsome
      · exact hroom ((config.overruns_iff ..).mp hoverruns)
    refine ⟨_, Run.result_of_stop hgoes, hentries hgoes, ?_⟩
    rw [Run.fresh_eq]
    exact Run.reports_of_encodeLines

/-- A numeral of one digit more than are read, on the only line of a program, leaves it without a
result. -/
theorem assemble_of_overlong_numeral :
    let digits := String.ofList (List.replicate 4301 '1')
    let source := Text.unlines [": A", digits]
    Program.ofSource "f" .reject source = .ok (.single digits) ∧
      Encoding.Blocked ((Program.single digits).readTokens ⟨1, digits⟩) digits ∧
      (assemble {} "f" source).2 = .error (.digitLimit digits.length) := by
  have hlimit : maxDecimalDigits < 4301 := by decide
  -- the text is too long to be evaluated
  generalize 4301 = n at hlimit ⊢
  intro digits source
  obtain ⟨htoken, hoverlong⟩ := Numeral.overlong_ones hlimit
  have hkind := Kind.ofToken_eq_decimal_iff.mpr ⟨hoverlong.digits, hoverlong.front⟩
  have hprogram : Program.ofSource "f" ({} : Config).orphans source = .ok (.single digits) :=
    Program.ofSource_single htoken hkind
  have hblocked := Program.blocked_single htoken hoverlong
  obtain ⟨taken, htaken, _, hfault, _⟩ := assemble_returns_unless_blocked hprogram
  obtain ⟨later, rfl⟩ := htaken.exists_cons
  refine ⟨hprogram, hblocked, (hfault _).mpr (.inl ?_)⟩
  refine ⟨[], ⟨1, digits⟩, later, digits, rfl, ?_, hblocked, rfl⟩
  exact fun _ hmem => (List.not_mem_nil hmem).elim

end Chip8Asm
