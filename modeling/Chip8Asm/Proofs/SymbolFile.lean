import Mathlib
import Chip8Asm.Text.Integer
import Chip8Asm.Proofs.ListingLines
import Chip8Asm.Proofs.ListingOutputs

/-! Symbol files. The name of a label is a token of the source, so no blank stands in it, whatever
else does (`Program.isToken_name`). A line of the file has gaps between its four fields, however
long the name and the size are (`Assembly.Fields.words_symbolLine`), and the numerals in two of them
can be read. -/

namespace Chip8Asm

namespace Text

/-! ### Fields -/

/-- A text that is one word. -/
structure IsWord (s : String) : Prop where
  nonempty : s ≠ ""
  unblank : ∀ c ∈ s.toList, isBlank c = false

theorem IsWord.wordsOf (h : IsWord s) : wordsOf s.toList = [s.toList] := by
  have hword : ∀ word ∈ [s.toList], word ≠ [] ∧ ∀ c ∈ word, isBlank c = false :=
    List.forall_mem_singleton.mpr ⟨by simpa using h.nonempty, h.unblank⟩
  have hwords := wordsOf_intercalate hword
  rwa [List.intercalate_singleton] at hwords

theorem IsWord.words (h : IsWord s) : words s = [s] := by
  rw [Text.words, h.wordsOf, List.map_singleton, String.ofList_toList]

theorem IsWord.words_append (h : IsWord s) {gap : String} (hgap : IsGap gap.toList)
    (rest : String) : Text.words (s ++ (gap ++ rest)) = s :: Text.words rest := by
  rw [Text.words, String.toList_append, String.toList_append, hgap.wordsOf_append, h.wordsOf,
    List.singleton_append, List.map_cons, String.ofList_toList, Text.words]

theorem IsWord.unbroken (h : IsWord s) : Unbroken s :=
  fun c hc => isLineBreak_of_unblank (h.unblank c hc)

theorem isWord_of_all (hne : s ≠ "") (h : s.toList.all (!isBlank ·) = true) : IsWord s := by
  refine ⟨hne, fun c hc => ?_⟩
  simpa using List.all_eq_true.mp h c hc

theorem IsWord.of_subset (h : IsWord t) (hne : s ≠ "") (hmem : s.toList ⊆ t.toList) : IsWord s :=
  ⟨hne, fun c hc => h.unblank c (hmem hc)⟩

theorem spaces_append (m n : Nat) : spaces m ++ spaces n = spaces (m + n) := by
  rw [spaces, spaces, ← String.ofList_append, List.replicate_append_replicate, spaces]

theorem isGap_spaces (h : 0 < n) : IsGap (spaces n).toList := by
  refine ⟨?_, fun c hc => ?_⟩
  · rw [spaces, String.toList_ofList, ne_eq, List.replicate_eq_nil_iff]
    exact h.ne'
  · rw [mem_spaces hc]
    decide

theorem alignRight_eq (width : Nat) (s : String) :
    alignRight width s = spaces (width - s.length) ++ s := by
  rw [alignRight, List.leftpad, String.ofList_append, String.ofList_toList, String.length_toList,
    spaces]

/-! ### Decimal numerals -/

theorem trimMargins_of_unblank (h : ∀ c ∈ cs, isBlank c = false) : trimMargins cs = cs := by
  have hkeep : ∀ ds : List Char, (∀ c ∈ ds, isBlank c = false) → ds.dropWhile isMargin = ds := by
    intro ds hds
    cases ds with
    | nil => rfl
    | cons d ds =>
      rw [List.dropWhile_cons_of_neg]
      simp [isMargin, hds d List.mem_cons_self]
  have hreverse : ∀ c ∈ cs.reverse, isBlank c = false :=
    fun c hc => h c (List.mem_reverse.mp hc)
  rw [trimMargins, hkeep cs h, hkeep cs.reverse hreverse, List.reverse_reverse]

theorem digit_of_mem (h : c ∈ "0123456789".toList) :
    decimalValue? c = some (c.toNat - '0'.toNat) ∧ isBlank c = false ∧ c ∉ ['_', '-', '+'] := by
  have hall : "0123456789".toList.all (fun c => decide (decimalValue? c =
      some (c.toNat - '0'.toNat) ∧ isBlank c = false ∧ c ∉ ['_', '-', '+'])) = true := by decide
  simpa using List.all_eq_true.mp hall c h

theorem decimalValues?_of_digits (hne : cs ≠ []) (h : ∀ c ∈ cs, c ∈ "0123456789".toList) :
    decimalValues? cs = some (cs.map fun c => c.toNat - '0'.toNat) := by
  induction cs with
  | nil => exact (hne rfl).elim
  | cons c cs ih =>
    obtain ⟨hc, hcs⟩ := List.forall_mem_cons.mp h
    have hvalue := (digit_of_mem hc).1
    cases cs with
    | nil => rw [decimalValues?, hvalue]; rfl
    | cons d cs =>
      have hmark := (digit_of_mem (hcs d List.mem_cons_self)).2.2
      rw [decimalValues?]
      · rw [hvalue, ih (List.cons_ne_nil _ _) hcs]
        rfl
      · exact fun hnil => List.cons_ne_nil _ _ hnil
      · intro rest hunderscore
        exact hmark ((List.cons.inj hunderscore).1 ▸ .head _)

theorem natural?_toDigits (h : (Nat.toDigits 10 n).length ≤ maxDigits) :
    natural? maxDigits (Nat.toDigits 10 n) = some n := by
  have hvalue := @Nat.ofDigitChars_ten_toDigits n
  rw [Nat.ofDigitChars_eq_foldl] at hvalue
  rw [natural?, decimalValues?_of_digits Nat.toDigits_ne_nil mem_toDigits]
  simp only [List.length_map, if_pos h, List.foldl_map, Nat.mul_comm _ 10, hvalue]

/-- A natural number is read back from its digits. -/
theorem integer?_natural (h : (Nat.toDigits 10 n).length ≤ maxDigits) :
    integer? maxDigits (toString n) = some (n : Int) := by
  have hdigits : ∀ c ∈ Nat.toDigits 10 n, isBlank c = false ∧ c ∉ ['_', '-', '+'] :=
    fun c hc => (digit_of_mem (mem_toDigits c hc)).2
  rw [integer?, Nat.toString_eq_repr, Nat.toList_repr,
    trimMargins_of_unblank fun c hc => (hdigits c hc).1]
  split
  · rename_i cs hcs
    exact ((hdigits '-' (hcs ▸ .head _)).2 (by decide)).elim
  · rename_i cs hcs
    exact ((hdigits '+' (hcs ▸ .head _)).2 (by decide)).elim
  · rw [natural?_toDigits h]
    rfl

end Text

open Text

/-! ### Labels -/

namespace Program

variable {program : Program}

theorem isToken_name (h : ofSource file policy source = .ok program)
    (hlabel : label ∈ program.labels) : IsToken label.name := by
  obtain ⟨orphans, htally⟩ := exists_tally h
  obtain ⟨line, hline, -, hdirective, -, hnames⟩ :=
    htally.ofLabel (label.name, label.index) (List.mem_map_of_mem hlabel)
  have hnormal := (SourceLine.mem_numbered hline).1
  obtain ⟨c, cs, rest, htokens, -⟩ := hnormal.tokens
  have hfirst := (hnormal.isDirective_iff_first htokens).mp hdirective
  rw [htokens] at hnames
  have htoken : ∀ token ∈ String.ofList (c :: cs) :: rest, IsToken token :=
    fun token hmem => hnormal.isToken (htokens ▸ hmem)
  rcases labelNames?_cases hfirst hnames with ⟨-, hrest⟩ | ⟨hjoined, -, -⟩
  · exact htoken label.name (hrest ▸ .tail _ (.head _))
  · -- the characters of the name are some of the token
    refine ⟨htally.name_ne_empty hlabel, fun d hd => (htoken _ (.head _)).plain d ?_⟩
    rw [hjoined, String.toList_append]
    exact List.mem_append_right _ hd

theorem size_of_label (h : ofSource file policy source = .ok program)
    (hlabel : label ∈ program.labels) :
    ∃ size : Nat, label.size = (size : Int) ∧ size ≤ 0xE00 := by
  obtain ⟨address, haddress, hbase, -⟩ := address_of_label h hlabel
  have hposition : Layout.position label = address := by rw [Layout.position, haddress]; rfl
  have hsize := (isPlaced_ofSource h).sizes label hlabel
  have hlast : ¬Layout.overflows label = true := by
    rw [Layout.overflow?_eq_none_iff.mp (overflow?_ofSource h) label hlabel]
    exact Bool.false_ne_true
  rw [Layout.overflows_iff, hposition] at hlast
  exact ⟨label.size.toNat, (Int.toNat_of_nonneg hsize).symm, by omega⟩

end Program

/-! ### Lines of the file -/

/-- The line has four fields, and the name, the address and the size of the label can be read from
them. -/
def Label.ReadFrom (line : String) (label : Label) : Prop :=
  ∃ (address : Nat) (digits size : String),
    words line = [label.name, "$" ++ digits, size, "bytes"] ∧
    label.address = some (address : Int) ∧ Numeral.parse ("$" ++ digits) = .ok address ∧
    integer? maxDecimalDigits size = some label.size

namespace Assembly

variable {label : Label} {program : Program} {assembly : Assembly}

theorem symbolLine_eq (label : Label) : symbolLine label =
    label.name ++ (spaces (Entry.columnWidth - label.name.length + 1) ++
      (("$" ++ hexSigned 3 (Layout.position label)) ++
        (spaces (2 + (3 - (toString label.size).length)) ++
          (toString label.size ++ (spaces 1 ++ "bytes"))))) := by
  have hdollar : " $" = spaces 1 ++ "$" := by decide
  have hgap : "  " = spaces 2 := by decide
  have hbytes : " bytes" = spaces 1 ++ "bytes" := by decide
  rw [symbolLine, alignLeft_eq, alignRight_eq, hdollar, hgap, hbytes, ← spaces_append 2,
    ← spaces_append (Entry.columnWidth - label.name.length)]
  simp only [String.append_assoc]

/-- The fields of a line are words. -/
structure Fields (label : Label) : Prop where
  name : IsWord label.name
  address : IsWord ("$" ++ hexSigned 3 (Layout.position label))
  size : IsWord (toString label.size)

theorem Fields.words_symbolLine (h : Fields label) : Text.words (symbolLine label) =
    [label.name, "$" ++ hexSigned 3 (Layout.position label), toString label.size, "bytes"] := by
  have hbytes : IsWord "bytes" := isWord_of_all (by decide) (by decide)
  rw [symbolLine_eq, h.name.words_append (isGap_spaces (by omega)),
    h.address.words_append (isGap_spaces (by omega)),
    h.size.words_append (isGap_spaces (by omega)), hbytes.words]

theorem Fields.unbroken_symbolLine (h : Fields label) : Unbroken (symbolLine label) := by
  have hbytes : Unbroken "bytes" := by decide
  rw [symbolLine_eq]
  exact h.name.unbroken.append ((unbroken_spaces _).append (h.address.unbroken.append
    ((unbroken_spaces _).append (h.size.unbroken.append ((unbroken_spaces _).append hbytes)))))

section
variable (h : Program.ofSource file policy source = .ok program) (hlabel : label ∈ program.labels)
include h hlabel

theorem fields_of_label : Fields label := by
  obtain ⟨address, haddress, -, hlast⟩ := Program.address_of_label h hlabel
  obtain ⟨size, hsize, -⟩ := Program.size_of_label h hlabel
  have hname := Program.isToken_name h hlabel
  have hfits : address < 16 ^ 3 := by omega
  refine ⟨⟨hname.nonempty, fun c hc => (hname.plain c hc).unblank⟩, ?_, ?_⟩
  · have hdigits : IsWord "$0123456789ABCDEF" := isWord_of_all (by decide) (by decide)
    rw [Label.hexSigned_position haddress hfits]
    apply hdigits.of_subset
    · simp
    · intro c hc
      rw [String.toList_append] at hc
      rcases List.mem_append.mp hc with hc | hc
      · rw [List.mem_singleton.mp hc]
        decide
      · rw [String.toList_ofList] at hc
        exact .tail _ (mem_lowDigits c hc)
  · have hdigits : IsWord "0123456789" := isWord_of_all (by decide) (by decide)
    have hrepr : toString label.size = size.repr := by
      rw [hsize]
      rfl
    rw [hrepr]
    apply hdigits.of_subset Nat.repr_ne_empty
    intro c hc
    rw [Nat.toList_repr] at hc
    exact mem_toDigits c hc

theorem readFrom_symbolLine : label.ReadFrom (symbolLine label) := by
  obtain ⟨address, haddress, -, hlast⟩ := Program.address_of_label h hlabel
  obtain ⟨size, hsize, hmemory⟩ := Program.size_of_label h hlabel
  have hfits : address < 16 ^ 3 := by omega
  have hshort : (Nat.toDigits 10 size).length ≤ maxDecimalDigits := by
    have hfour : (Nat.toDigits 10 size).length ≤ 4 :=
      (Nat.length_toDigits_le_iff (by decide) (by decide)).mpr (by omega)
    exact hfour.trans (by decide)
  refine ⟨address, String.ofList (lowDigits 3 address), toString label.size, ?_, haddress, ?_, ?_⟩
  · rw [(fields_of_label h hlabel).words_symbolLine, Label.hexSigned_position haddress hfits]
  · exact Numeral.parse_marked_lowDigits (fun _ _ => .legacy) (by decide) hfits
  · rw [hsize]
    exact integer?_natural hshort

end

end Assembly

/-! ### Files -/

theorem Session.write_eq_ok_iff {disk written : Disk} {session : Session} {assembly : Assembly}
    (hassembly : session.assembly = some assembly) :
    session.write disk path text = (written, .ok answer) ↔
      disk.write (Path.normalize path) (encodeUtf8 (text assembly)) = (written, .ok ()) ∧
        text assembly = answer := by
  rw [write_eq hassembly, Disk.writeText_eq]
  cases hwrite : disk.write (Path.normalize path) (encodeUtf8 (text assembly)) with
  | mk final result => cases result <;> simp [Except.mapError, Except.map]

/-- A reply to the request to write the symbols is the text of the file. -/
theorem Session.read_of_writeSymbols {disk written : Disk} {session : Session}
    {assembly : Assembly} (hassembly : session.assembly = some assembly)
    (h : session.handle disk (.writeSymbols path) = (next, written, .ok reply)) :
    reply = .text assembly.symbolFile ∧
      written.read (Path.normalize path) = .ok (encodeUtf8 assembly.symbolFile) := by
  unfold handle at h
  dsimp only at h
  obtain ⟨-, hwritten, hreply⟩ : session = next ∧
      (session.write disk path Assembly.symbolFile).1 = written ∧
      (session.write disk path Assembly.symbolFile).2.map Reply.text = .ok reply := by
    simpa using h
  obtain ⟨text, hanswer, rfl⟩ := Encoding.map_eq_ok_iff.mp hreply
  obtain ⟨hfile, rfl⟩ := (write_eq_ok_iff hassembly).mp (Prod.ext hwritten hanswer)
  have hread := (Disk.read_write_self (congrArg Prod.snd hfile)).1
  rw [hfile] at hread
  exact ⟨rfl, hread⟩

namespace Assembly

variable {assembly : Assembly}

theorem lines_symbolFile (h : (assemble config file source).2 = .ok assembly)
    (hlabels : assembly.program.labels ≠ []) :
    Text.lines assembly.symbolFile = assembly.program.layout.map symbolLine := by
  have hperm : assembly.program.layout.Perm assembly.program.labels := sorted_perm _ _
  have hne : assembly.program.layout.map symbolLine ≠ [] := by
    rw [ne_eq, List.map_eq_nil_iff]
    intro hnil
    exact hlabels (List.nil_perm.mp (hnil ▸ hperm))
  rw [symbolFile, intercalate_append_newline hne]
  apply lines_unlines
  intro line hline
  obtain ⟨label, hlabel, rfl⟩ := List.mem_map.mp hline
  exact (fields_of_label (exists_run h).1 (hperm.mem_iff.mp hlabel)).unbroken_symbolLine

/-- A symbol file can be read back. It has one line for each label, in the order of addresses, with
four fields, from which the name, the address and the size of the label are read. -/
theorem symbol_file_reads_back (h : (assemble config file source).2 = .ok assembly)
    (hlabels : assembly.program.labels ≠ []) {session : Session} {disk written : Disk}
    (hsession : session.assembly = some assembly)
    (hwrite : session.handle disk (.writeSymbols path) = (next, written, .ok reply)) :
    ∃ text, reply = .text text ∧ written.read (Path.normalize path) = .ok (encodeUtf8 text) ∧
      assembly.program.layout.Perm assembly.program.labels ∧
      List.Forall₂ Label.ReadFrom (Text.lines text) assembly.program.layout := by
  have hprogram := (exists_run h).1
  have hperm : assembly.program.layout.Perm assembly.program.labels := sorted_perm _ _
  obtain ⟨hreply, hread⟩ := Session.read_of_writeSymbols hsession hwrite
  refine ⟨assembly.symbolFile, hreply, hread, hperm, ?_⟩
  rw [lines_symbolFile h hlabels, List.forall₂_map_left_iff, List.forall₂_same]
  intro label hlabel
  exact readFrom_symbolLine hprogram (hperm.mem_iff.mp hlabel)

/-- A label that is named like the numeral of its address, and one whose name does not fit into the
column. -/
theorem symbol_file_of_long_name :
    let source := ": $200\ncls\n:abcdefghijklmnopqrstuvwxyz-straße\n0x12"
    let name := "ABCDEFGHIJKLMNOPQRSTUVWXYZ-STRASSE"
    let first : Label := { name := "$200", address := some 0x200, size := 2, lines := [⟨1, "CLS"⟩] }
    let second : Label :=
      { name, address := some 0x202, size := 1, lines := [⟨3, "0X12"⟩], index := 2 }
    let assembly : Assembly :=
      ⟨{ lines := [⟨1, "CLS"⟩, ⟨3, "0X12"⟩], labels := [first, second] },
        [.encoded ⟨1, "CLS"⟩ "00E0", .encoded ⟨3, "0X12"⟩ "12"]⟩
    let session : Session := ⟨{}, .empty 100, some assembly⟩
    let disk : Disk := {}
    let text := "$200                           $200    2 bytes\n" ++
      "ABCDEFGHIJKLMNOPQRSTUVWXYZ-STRASSE $202    1 bytes\n"
    let written := disk.put ⟨["s"]⟩ (.file (encodeUtf8 text))
    (assemble {} "f" source).2 = .ok assembly ∧ assembly.program.labels ≠ [] ∧
      session.assembly = some assembly ∧
      session.handle disk (.writeSymbols "s") = (session, written, .ok (.text text)) ∧
      List.Forall₂ Label.ReadFrom (Text.lines text) [first, second] := by
  intro source name first second assembly session disk text written
  have hrun : (assemble {} "f" source).2 = .ok assembly := by decide +kernel
  have hlabels : assembly.program.labels ≠ [] := List.cons_ne_nil _ _
  have hwrite : session.handle disk (.writeSymbols "s") =
      (session, written, .ok (.text text)) := by decide +kernel
  obtain ⟨_, hreply, -, -, hread⟩ := symbol_file_reads_back hrun hlabels rfl hwrite
  cases hreply
  exact ⟨hrun, hlabels, rfl, hwrite, hread⟩

end Assembly

end Chip8Asm
