import Mathlib
import Chip8Asm.Proofs.InstructionErrors
import Chip8Asm.Proofs.SimilarNames

/-! Complaints about unknown labels. They arise where the address of a label is asked for as data,
and where an address should stand in an instruction. The name in data is looked up as it is. An
operand has been replaced through the aliases and then through the labels, whatever their targets
and names may be: what is left is the name of no label or the numeral of an address
(`Encoding.located_cases`), and a numeral is never taken for a name. -/

namespace Chip8Asm

/-! ### Suggestions -/

theorem Text.similarNames_subperm (name : String) (names : List String) :
    (similarNames name names).Subperm names := by
  rw [similarNames_eq]
  refine (List.take_sublist 3 _).subperm.trans ?_
  exact (sorted_perm _ _).subperm.trans List.filter_sublist.subperm

theorem Text.nodup_similarNames (name : String) (h : names.Nodup) :
    (similarNames name names).Nodup := by
  obtain ⟨kept, hperm, hkept⟩ := similarNames_subperm name names
  exact hperm.nodup_iff.mp (h.sublist hkept)

theorem Text.length_similarNames_le (name : String) (names : List String) :
    (similarNames name names).length ≤ 3 := by
  rw [similarNames_eq]
  exact List.length_take_le 3 _

namespace Encoding

variable {labels : List Label} {operands tokens : List String} {similar : List String}

/-! ### Operands -/

/-- A complaint about one of the tokens, which is no numeral, with the names that are similar to
it. -/
structure Unresolved (labels : List Label) (tokens : List String) (name : String)
    (similar : List String) : Prop where
  mem : name ∈ tokens
  invalid : Kind.ofToken name = .invalid
  similar_eq : similar = Text.similarNames name (labels.map Label.name)

theorem cause_ne_of_selectForm (h : selectForm mnemonic operands = .error d) :
    d.cause ≠ .unknownLabel name similar := by
  rcases selectForm_error_cases h with hjump | ⟨_, _, _, hcause⟩
  · obtain ⟨_, first, second, _, hbad⟩ := badBase_of_checkJump hjump
    intro hcause
    rw [hcause] at hbad
    cases hbad
  · rw [hcause]
    exact Cause.noConfusion

theorem unresolved_of_encodeReplaced
    (h : encodeReplaced labels tokens = .error (.diagnostic d))
    (hcause : d.cause = .unknownLabel name similar) : Unresolved labels tokens name similar := by
  rcases encodeReplaced_error_cases h with ⟨_, _, _, hselect⟩ | ⟨token, hmem, _, _, hmisfit⟩
  · exact (cause_ne_of_selectForm hselect hcause).elim
  · rw [hcause] at hmisfit
    cases hmisfit with
    | label _ _ hname => exact ⟨hmem, hname.1, rfl⟩

/-! ### Replaced tokens -/

/-- What is left of a token is the numeral of an address or the name of no label. -/
theorem located_cases (hplaced : ∀ label ∈ labels, label.address ≠ none) (token : String) :
    Kind.ofToken (located labels token) = .hex ∨
      located labels token ∉ labels.map Label.name := by
  rcases substituteLabel_cases (substituteLabel_eq_located hplaced token) with
    ⟨_, hhex⟩ | ⟨hname, heq⟩
  · exact .inl hhex
  · rw [heq]
    exact .inr hname

theorem substitute_eq_map (hplaced : ∀ label ∈ labels, label.address ≠ none)
    (aliases : List Alias) (index : Option Int) (tokens : List String) :
    substitute aliases labels index tokens = .ok ((tokens.map
      (Alias.resolve (activeAliases aliases index))).map (located labels)) := by
  rw [← mapM_substituteLabel hplaced, List.mapM_map]
  rfl

theorem Unresolved.not_declared (hplaced : ∀ label ∈ labels, label.address ≠ none)
    (h : Unresolved labels (tokens.map (located labels)) name similar) :
    name ∉ labels.map Label.name := by
  obtain ⟨token, _, rfl⟩ := List.mem_map.mp h.mem
  rcases located_cases hplaced token with hhex | hname
  · cases hhex.symm.trans h.invalid
  · exact hname

/-! ### Names as data -/

theorem addressName?_pair (hname : name ≠ "") : addressName? [":", name] = some name := by
  simp [addressName?, Program.labelNames?, Program.aliasDirective, hname]

theorem addressName?_glued (hname : name ≠ "") (halias : ":" ++ name ≠ ":ALIAS") :
    addressName? [":" ++ name] = some name := by
  have hcolon : ":" ++ name ≠ ":" := by simpa using hname
  simp [addressName?, Program.labelNames?, Program.aliasDirective, hname, halias, hcolon]

theorem encode_of_addressName? (h : addressName? tokens = some name) :
    encode aliases labels index tokens = encodeAddress labels name := by
  have hempty : ¬tokens.isEmpty = true := by
    intro hnil
    rw [List.isEmpty_iff.mp hnil] at h
    cases h
  rw [encode, if_neg hempty, h]

theorem encodeAddress_isOk_iff (hplaced : ∀ label ∈ labels, label.address ≠ none) :
    (∃ code, encodeAddress labels name = .ok code) ↔ name ∈ labels.map Label.name := by
  unfold encodeAddress
  cases hfind : Label.find? labels name with
  | none =>
    exact iff_of_false (fun ⟨_, hcode⟩ => nomatch hcode) (Label.find?_eq_none_iff.mp hfind)
  | some label =>
    have hmem := List.mem_of_find?_eq_some hfind
    obtain ⟨address, haddress⟩ := Option.ne_none_iff_exists'.mp (hplaced label hmem)
    have hname : label.name = name := by simpa using List.find?_some hfind
    refine iff_of_true ?_ (hname ▸ List.mem_map_of_mem hmem)
    simp only [Label.addressHex, Label.requireAddress, haddress]
    exact ⟨_, rfl⟩

theorem unknown_of_encodeAddress (hplaced : ∀ label ∈ labels, label.address ≠ none)
    (h : encodeAddress labels name = .error (.diagnostic d)) :
    name ∉ labels.map Label.name ∧ d = unknownLabel labels name := by
  have hundeclared : name ∉ labels.map Label.name := by
    intro hmem
    obtain ⟨code, hcode⟩ := (encodeAddress_isOk_iff hplaced).mpr hmem
    rw [hcode] at h
    cases h
  rw [encodeAddress, Label.find?_eq_none_iff.mpr hundeclared] at h
  cases h
  exact ⟨hundeclared, rfl⟩

theorem encodeReplaced_of_encode (hplaced : ∀ label ∈ labels, label.address ≠ none)
    (haddress : addressName? tokens = none)
    (h : encode aliases labels index tokens = .error (.diagnostic d))
    (hcause : d.cause = .unknownLabel name similar) :
    encodeReplaced labels ((tokens.map (Alias.resolve (activeAliases aliases index))).map
      (located labels)) = .error (.diagnostic d) := by
  unfold encode at h
  split at h
  · cases h
    cases hcause
  · rwa [haddress, substitute_eq_map hplaced] at h

/-- A complaint about an unknown label tells the truth: the name is not declared, and what is
suggested for it are at most three labels, all declared and no two the same. The address of a name
as data, behind a colon or joined to it, is encoded if and only if the name is declared. -/
theorem unknown_label_is_undeclared (hnames : (labels.map Label.name).Nodup)
    (hplaced : ∀ label ∈ labels, label.address ≠ none) (aliases : List Alias)
    (index : Option Int) :
    (∀ tokens d name similar, encode aliases labels index tokens = .error (.diagnostic d) →
      d.cause = .unknownLabel name similar →
      name ∉ labels.map Label.name ∧ similar.length ≤ 3 ∧ similar.Nodup ∧
        ∀ other ∈ similar, other ∈ labels.map Label.name) ∧
    ∀ name, name ≠ "" → ∀ tokens,
      tokens = [":", name] ∨ tokens = [":" ++ name] ∧ ":" ++ name ≠ ":ALIAS" →
      ((∃ code, encode aliases labels index tokens = .ok code) ↔
        name ∈ labels.map Label.name) := by
  refine ⟨fun tokens d name similar herror hcause => ?_, fun name hname tokens htokens => ?_⟩
  · have hreported : name ∉ labels.map Label.name ∧
        similar = Text.similarNames name (labels.map Label.name) := by
      cases haddress : addressName? tokens with
      | some other =>
        rw [encode_of_addressName? haddress] at herror
        obtain ⟨hundeclared, rfl⟩ := unknown_of_encodeAddress hplaced herror
        cases hcause
        exact ⟨hundeclared, rfl⟩
      | none =>
        have hunresolved := unresolved_of_encodeReplaced
          (encodeReplaced_of_encode hplaced haddress herror hcause) hcause
        exact ⟨hunresolved.not_declared hplaced, hunresolved.similar_eq⟩
    obtain ⟨hundeclared, rfl⟩ := hreported
    exact ⟨hundeclared, Text.length_similarNames_le name _, Text.nodup_similarNames name hnames,
      fun other hother => (Text.similarNames_subperm name _).subset hother⟩
  · rw [← encodeAddress_isOk_iff hplaced]
    rcases htokens with rfl | ⟨rfl, halias⟩
    · rw [encode_of_addressName? (addressName?_pair hname)]
    · rw [encode_of_addressName? (addressName?_glued hname halias)]

/-- An alias for a misspelt label, beside a label that is named like the numeral of another. -/
theorem unknown_label_behind_alias :
    let labels : List Label :=
      [{ name := "0X202", address := some 0x200 }, { name := "LOOP", address := some 0x202 }]
    let aliases : List Alias := [⟨"AGAIN", "LOOPS", 0⟩]
    (labels.map Label.name).Nodup ∧ (∀ label ∈ labels, label.address ≠ none) ∧
      encode aliases labels (some 1) ["JP", "AGAIN"] =
        .error (.ofCause (.unknownLabel "LOOPS" ["LOOP"])) ∧
      "LOOPS" ∉ labels.map Label.name ∧ "LOOP" ∈ labels.map Label.name ∧
      ∃ code, encode aliases labels (some 1) [":LOOP"] = .ok code := by
  intro labels aliases
  have hnames : (labels.map Label.name).Nodup := by decide
  have hplaced : ∀ label ∈ labels, label.address ≠ none := by decide
  have herror : encode aliases labels (some 1) ["JP", "AGAIN"] =
      .error (.ofCause (.unknownLabel "LOOPS" ["LOOP"])) := by decide +kernel
  have hloop : "LOOP" ∈ labels.map Label.name := .tail _ (.head _)
  obtain ⟨htruthful, hdata⟩ := unknown_label_is_undeclared hnames hplaced aliases (some 1)
  have hglued := hdata "LOOP" (by decide) [":LOOP"] (.inr ⟨by decide, by decide⟩)
  exact ⟨hnames, hplaced, herror, (htruthful _ _ _ _ herror rfl).1, hloop, hglued.mpr hloop⟩

end Encoding

end Chip8Asm
