import Mathlib
import Chip8Asm.Disk
import Chip8Asm.Proofs.ExitStatus

/-! The two ways out for a listing. On the output stream each line of it ends in a line feed, and
styling sequences are left out off a terminal (`Text.unstyle_eq_self_iff`); in its file the lines
are set off by line feeds, with one more behind the last. The file is written first, and stays as it
is unless the labels go to the same place (`Disk.read_write_elsewhere`). -/

namespace Chip8Asm

/-! ### Styling -/

namespace Text

/-- A styling sequence stands in the text. -/
def Styled (s : String) : Prop :=
  ∃ before parameters c after,
    s.toList = before ++ '\x1b' :: '[' :: (parameters ++ c :: after) ∧
      (∀ p ∈ parameters, isStyleParameter p = true) ∧ c.isAlpha = true

theorem isStyleParameter_of_isAlpha (h : Char.isAlpha c = true) : isStyleParameter c = false := by
  have hsemicolon : c ≠ ';' := fun heq => by simp [heq] at h
  have hquestion : c ≠ '?' := fun heq => by simp [heq] at h
  have hdigit : c.isDigit = false := by
    simp only [Char.isAlpha, Char.isUpper, Char.isLower, Bool.or_eq_true, Bool.and_eq_true,
      decide_eq_true_eq, ge_iff_le, UInt32.le_iff_toNat_le] at h
    simp only [Char.isDigit, Bool.and_eq_false_iff, decide_eq_false_iff_not, ge_iff_le,
      UInt32.le_iff_toNat_le]
    have hnine : '9'.val.toNat < 'A'.val.toNat ∧ '9'.val.toNat < 'a'.val.toNat := by decide
    omega
  simp [isStyleParameter, hsemicolon, hquestion, hdigit]

/-- Where the parameters end, a letter closes the sequence. -/
theorem styleLength?_isSome_iff : (styleLength? cs).isSome = true ↔
    ∃ parameters c after, cs = '[' :: (parameters ++ c :: after) ∧
      (∀ p ∈ parameters, isStyleParameter p = true) ∧ c.isAlpha = true := by
  unfold styleLength?
  constructor
  · intro h
    split at h
    · rename_i cs
      split at h
      · rename_i c rest hdrop
        split at h
        · rename_i hc
          refine ⟨cs.takeWhile isStyleParameter, c, rest, ?_, ?_, hc⟩
          · rw [← hdrop, List.takeWhile_append_dropWhile]
          · exact fun p hp => List.mem_takeWhile_imp hp
        · cases h
      · cases h
    · cases h
  · rintro ⟨parameters, c, after, rfl, hparameters, hc⟩
    have hdrop : (parameters ++ c :: after).dropWhile isStyleParameter = c :: after := by
      rw [List.dropWhile_append_of_pos hparameters,
        List.dropWhile_cons_of_neg (by simp [isStyleParameter_of_isAlpha hc])]
    simp [hdrop, hc]

theorem unstyleFrom_sublist (skip : Nat) (cs : List Char) :
    (unstyleFrom skip cs).Sublist cs := by
  induction cs generalizing skip with
  | nil => rw [unstyleFrom]
  | cons c cs ih =>
    cases skip with
    | succ skip => exact (ih skip).cons c
    | zero =>
      rw [unstyleFrom]
      split
      · split
        · exact (ih _).cons c
        · exact (ih 0).cons_cons c
      · exact (ih 0).cons_cons c

theorem length_unstyle_le (s : String) : (unstyle s).length ≤ s.length := by
  rw [unstyle, String.length_ofList, ← String.length_toList]
  exact (unstyleFrom_sublist 0 s.toList).length_le

theorem unstyle_eq_of_length (h : (unstyle s).length = s.length) : unstyle s = s := by
  rw [unstyle, String.length_ofList, ← String.length_toList] at h
  rw [unstyle, (unstyleFrom_sublist 0 s.toList).eq_of_length h, String.ofList_toList]

/-- Text is left as it is where no styling sequence begins. -/
theorem unstyleFrom_eq_self_iff : unstyleFrom 0 cs = cs ↔
    ∀ before after, cs = before ++ '\x1b' :: after → styleLength? after = none := by
  induction cs with
  | nil => simp [unstyleFrom]
  | cons c cs ih =>
    have hcons : (∀ before after, c :: cs = before ++ '\x1b' :: after → styleLength? after = none) ↔
        (c = '\x1b' → styleLength? cs = none) ∧ unstyleFrom 0 cs = cs := by
      rw [ih]
      constructor
      · intro h
        refine ⟨fun hc => h [] cs (congrArg (· :: cs) hc), fun before after hcs => ?_⟩
        exact h (c :: before) after (congrArg (c :: ·) hcs)
      · intro ⟨hfirst, hrest⟩ before after heq
        cases before with
        | nil => exact (List.cons.inj heq).2 ▸ hfirst (List.cons.inj heq).1
        | cons _ before => exact hrest before after (List.cons.inj heq).2
    rw [hcons, unstyleFrom]
    split
    · rename_i hc
      split
      · rename_i length hlength
        refine iff_of_false (fun heq => ?_) (by simp [hc, hlength])
        have hle := (unstyleFrom_sublist length cs).length_le
        rw [heq, List.length_cons] at hle
        omega
      · rename_i hlength
        simp [hlength]
    · rename_i hc
      simp [hc]

theorem unstyle_eq_self_iff : unstyle s = s ↔ ¬Styled s := by
  rw [unstyle, ← String.toList_inj, String.toList_ofList, unstyleFrom_eq_self_iff]
  constructor
  · rintro h ⟨before, parameters, c, after, hs, hparameters, hc⟩
    have hsome := styleLength?_isSome_iff.mpr ⟨parameters, c, after, rfl, hparameters, hc⟩
    simp [h before _ hs] at hsome
  · intro h before after hs
    by_contra hsome
    obtain ⟨parameters, c, rest, rfl, hparameters, hc⟩ :=
      styleLength?_isSome_iff.mp (Option.isSome_iff_ne_none.mpr hsome)
    exact h ⟨before, parameters, c, rest, hs, hparameters, hc⟩

/-! ### Lines -/

theorem encodeUtf8_inj : encodeUtf8 a = encodeUtf8 b ↔ a = b := by
  refine ⟨fun h => ?_, congrArg encodeUtf8⟩
  have hdata : a.toByteArray.data = b.toByteArray.data := Array.toList_inj.mp h
  exact String.toByteArray_inj.mp (ByteArray.ext hdata)

/-- Lines that are set off by line feeds and closed by one are lines that each end in one. -/
theorem intercalate_append_newline {lines : List String} (h : lines ≠ []) :
    "\n".intercalate lines ++ "\n" = String.join (lines.map (· ++ "\n")) := by
  induction lines with
  | nil => exact (h rfl).elim
  | cons line rest ih =>
    cases rest with
    | nil => simp
    | cons next rest =>
      rw [String.intercalate_cons_cons, List.map_cons, String.join_cons, ← ih (by simp)]
      simp only [String.append_assoc]

theorem length_join_unstyle_le (lines : List String) :
    (String.join (lines.map fun line => unstyle line ++ "\n")).length ≤
      (String.join (lines.map (· ++ "\n"))).length := by
  induction lines with
  | nil => simp
  | cons line rest ih =>
    simp only [List.map_cons, String.join_cons, String.length_append]
    have hline := length_unstyle_le line
    omega

theorem join_unstyle_eq_iff {lines : List String} :
    String.join (lines.map (· ++ "\n")) = String.join (lines.map fun line => unstyle line ++ "\n") ↔
      ∀ line ∈ lines, ¬Styled line := by
  induction lines with
  | nil => simp
  | cons line rest ih =>
    rw [List.forall_mem_cons, ← unstyle_eq_self_iff, ← ih]
    simp only [List.map_cons, String.join_cons]
    constructor
    · intro h
      have hlength := congrArg String.length h
      simp only [String.length_append] at hlength
      have hrest := length_join_unstyle_le rest
      have hle := length_unstyle_le line
      have hline := unstyle_eq_of_length (s := line) (by omega)
      rw [hline] at h
      exact ⟨hline, (String.append_right_inj _).mp h⟩
    · intro ⟨hline, hrest⟩
      rw [hline, hrest]

end Text

/-! ### Files -/

namespace Disk

variable {disk final : Disk} {place other target : Place} {bytes : List UInt8}

theorem lookup_filter (nodes : List (Place × Node)) (h : other ≠ place) :
    (nodes.filter (·.1 ≠ place)).lookup other = nodes.lookup other := by
  induction nodes with
  | nil => rfl
  | cons first rest ih =>
    obtain ⟨spot, node⟩ := first
    by_cases hfirst : spot = place
    · rw [List.filter_cons_of_neg (by simpa using hfirst), ih, List.lookup_cons,
        beq_false_of_ne (hfirst ▸ h)]
    · rw [List.filter_cons_of_pos (by simpa using hfirst), List.lookup_cons, List.lookup_cons, ih]

theorem node?_put_self (h : disk.node? place ≠ some .directory) (node : Node) :
    (disk.put place node).node? place = some node := by
  have habove : ¬place.names.isPrefixOf disk.current.names = true := fun habove => h (if_pos habove)
  rw [node?, put, if_neg habove, List.lookup_cons_self]

theorem node?_put_of_ne (h : other ≠ place) (node : Node) :
    (disk.put place node).node? other = disk.node? other := by
  rw [node?, node?, put, List.lookup_cons, beq_false_of_ne h]
  simp only [lookup_filter _ h]

theorem directory_of_step (h : disk.step place name = .ok target) :
    disk.node? place = some .directory := by
  unfold step at h
  split at h
  · cases h
  · cases h
  · cases h
  · assumption

/-- No way leads on from a file, and none did before it was put there. -/
theorem step_put (hfile : disk.node? place ≠ some .directory) :
    (disk.put place (.file bytes)).step other name = .ok target ↔
      disk.step other name = .ok target := by
  constructor
  · intro h
    have hother : other ≠ place := by
      rintro rfl
      have hnode := directory_of_step h
      rw [node?_put_self hfile] at hnode
      cases hnode
    rwa [step, node?_put_of_ne hother] at h
  · intro h
    have hother : other ≠ place := by
      rintro rfl
      exact hfile (directory_of_step h)
    rwa [step, node?_put_of_ne hother]

theorem walk_cons (disk : Disk) (place : Place) (name : String) (names : List String) :
    disk.walk place (name :: names) = (disk.step place name).bind (disk.walk · names) := by
  rw [walk]
  cases disk.step place name <;> rfl

theorem walk_put (hfile : disk.node? place ≠ some .directory) {names : List String} :
    (disk.put place (.file bytes)).walk other names = .ok target ↔
      disk.walk other names = .ok target := by
  induction names generalizing other with
  | nil => exact Iff.rfl
  | cons name names ih =>
    rw [walk_cons, walk_cons, bind_eq_ok_iff, bind_eq_ok_iff]
    exact exists_congr fun next => and_congr (step_put hfile) ih

/-- A new file changes no way that leads somewhere. -/
theorem resolve_put (hfile : disk.node? place ≠ some .directory) :
    (disk.put place (.file bytes)).resolve path = .ok target ↔ disk.resolve path = .ok target := by
  unfold resolve
  split
  · rfl
  split
  · rfl
  split
  · rfl
  exact walk_put hfile

/-- What a write can come to: a new file, or no change at all. -/
theorem write_cases (disk : Disk) (path : String) (bytes : List UInt8) :
    (∃ place, disk.resolve path = .ok place ∧ disk.node? place ≠ some .directory ∧
      disk.write path bytes = (disk.put place (.file bytes), .ok ())) ∨
    ∃ error, disk.write path bytes = (disk, .error error) := by
  unfold write
  cases hplace : disk.resolve path with
  | error reason => exact .inr ⟨_, rfl⟩
  | ok place =>
    cases hnode : disk.node? place with
    | none => exact .inl ⟨place, rfl, by simp [hnode], by simp only [hnode]⟩
    | some node =>
      cases node with
      | file old => exact .inl ⟨place, rfl, by simp [hnode], by simp only [hnode]⟩
      | directory => exact .inr ⟨⟨.isDirectory, path⟩, by simp only [hnode]⟩
      | barred reason => exact .inr ⟨⟨reason, path⟩, by simp only [hnode]⟩

theorem read_eq_ok_iff : disk.read path = .ok bytes ↔
    ∃ place, disk.resolve path = .ok place ∧ disk.node? place = some (.file bytes) := by
  unfold read find
  cases disk.resolve path with
  | error reason => simp
  | ok place =>
    cases hnode : disk.node? place with
    | none => simp [hnode]
    | some node => cases node <;> simp [hnode]

theorem writeText_eq (disk : Disk) (path text : String) : FileSystem.writeText disk path text =
    ((disk.write path (Text.encodeUtf8 text)).1,
      (disk.write path (Text.encodeUtf8 text)).2.mapError .file) := rfl

/-- What is written can be read, and every way that led somewhere still does. -/
theorem read_write_self (h : (disk.write path bytes).2 = .ok ()) :
    (disk.write path bytes).1.read path = .ok bytes ∧ ∀ other place,
      (disk.write path bytes).1.resolve other = .ok place ↔ disk.resolve other = .ok place := by
  obtain ⟨place, hplace, hfile, hwrite⟩ | ⟨error, hwrite⟩ := disk.write_cases path bytes
  · rw [hwrite]
    refine ⟨read_eq_ok_iff.mpr ⟨place, ?_, node?_put_self hfile _⟩, fun _ _ => resolve_put hfile⟩
    exact (resolve_put hfile).mpr hplace
  · rw [hwrite] at h
    cases h

/-- A file is left alone by what is written elsewhere, and by what is not written at all. -/
theorem read_write_elsewhere (hread : disk.read path = .ok bytes)
    (h : disk.resolve goal ≠ disk.resolve path) (text : List UInt8) :
    (disk.write goal text).1.read path = .ok bytes := by
  obtain ⟨place, hplace, hnode⟩ := read_eq_ok_iff.mp hread
  obtain ⟨other, hother, hfile, hwrite⟩ | ⟨error, hwrite⟩ := disk.write_cases goal text
  · have hne : place ≠ other := by
      rintro rfl
      exact h (hother.trans hplace.symm)
    rw [hwrite]
    refine read_eq_ok_iff.mpr ⟨place, (resolve_put hfile).mpr hplace, ?_⟩
    rw [node?_put_of_ne hne, hnode]
  · rwa [hwrite]

end Disk

/-! ### Two runs -/

namespace CommandLine

variable {screen : Screen} {invocation : Invocation} {assembly : Assembly} {disk : Disk}

/-- The listing stays in its file, whatever becomes of the labels, unless they go to the same
place. -/
theorem read_listing {path : String} (houtput : invocation.output = some path)
    (hwritable : (disk.write (Path.normalize path)
      (Text.encodeUtf8 assembly.listingFile)).2 = .ok ())
    (hsymbols : ∀ target, invocation.symbols = some target →
      disk.resolve (Path.normalize target) ≠ disk.resolve (Path.normalize path)) :
    (invocation.writeFiles assembly disk).1.read (Path.normalize path) =
      .ok (Text.encodeUtf8 assembly.listingFile) := by
  obtain ⟨hread, hresolve⟩ := Disk.read_write_self hwritable
  have hlisting : FileSystem.writeTo disk invocation.output assembly.listingFile =
      ((disk.write (Path.normalize path) (Text.encodeUtf8 assembly.listingFile)).1, .ok ()) := by
    rw [houtput, FileSystem.writeTo, Disk.writeText_eq, hwritable, Except.mapError]
  rw [Invocation.writeFiles, hlisting]
  generalize (disk.write (Path.normalize path) (Text.encodeUtf8 assembly.listingFile)).1 = listed
    at hread hresolve
  cases htarget : invocation.symbols with
  | none => exact hread
  | some target =>
    dsimp only [FileSystem.writeTo]
    rw [Disk.writeText_eq]
    refine Disk.read_write_elsewhere hread (fun hsame => ?_) (Text.encodeUtf8 assembly.symbolFile)
    obtain ⟨place, hplace, -⟩ := Disk.read_eq_ok_iff.mp hread
    rw [hplace, hresolve] at hsame
    exact hsymbols target htarget (hsame.trans ((hresolve _ _).mp hplace).symm)

/-- The listing as it is shown has a line feed behind each line. -/
theorem listingFile_eq_join_iff {terminal : Bool} : assembly.listingFile =
      String.join (assembly.entries.map fun entry =>
        (if terminal then entry.render else Text.unstyle entry.render) ++ "\n") ↔
    assembly.entries ≠ [] ∧
      (terminal = true ∨ ∀ entry ∈ assembly.entries, ¬Text.Styled entry.render) := by
  rw [Assembly.listingFile, Assembly.listing]
  cases hentries : assembly.entries with
  | nil => cases terminal <;> exact iff_of_false (by decide) (fun h => h.1 rfl)
  | cons entry entries =>
    rw [Text.intercalate_append_newline (by simp), and_iff_right (List.cons_ne_nil _ _)]
    cases terminal with
    | true => simp [Function.comp_def]
    | false =>
      have hlines : ((entry :: entries).map fun entry => Text.unstyle entry.render ++ "\n") =
          ((entry :: entries).map Entry.render).map fun line => Text.unstyle line ++ "\n" := by
        rw [List.map_map, Function.comp_def]
      simp only [Bool.false_eq_true, if_false, false_or]
      rw [hlines, Text.join_unstyle_eq_iff, List.forall_mem_map]

theorem Screen.out_lines (outIsTerminal errIsTerminal : Bool) (text : String) :
    (Screen.lines outIsTerminal errIsTerminal).out text =
      (if outIsTerminal then text else Text.unstyle text) ++ "\n" := rfl

/-- Two runs that differ only in where the listing goes, to the output stream or to a file, give the
same text if and only if there is a line to list, and the stream is a terminal or no line has a
styling sequence in it. Without a line the file has an empty line, and the output stream nothing. -/
theorem listings_agree_iff {path : String} {terminal : Bool}
    (hscreen : ∀ text, screen.out text = (if terminal then text else Text.unstyle text) ++ "\n")
    (hanswer : invocation.answer disk = .ok assembly)
    (hwritable : (disk.write (Path.normalize path)
      (Text.encodeUtf8 assembly.listingFile)).2 = .ok ())
    (hsymbols : ∀ target, invocation.symbols = some target →
      disk.resolve (Path.normalize target) ≠ disk.resolve (Path.normalize path)) :
    let shown := assembleInput screen { invocation with output := none } disk
    let written := assembleInput screen { invocation with output := some path } disk
    written.files.read (Path.normalize path) = .ok (Text.encodeUtf8 assembly.listingFile) ∧
      (Text.encodeUtf8 assembly.listingFile = Text.encodeUtf8 shown.console.out ↔
        assembly.entries ≠ [] ∧
          (terminal = true ∨ ∀ entry ∈ assembly.entries, ¬Text.Styled entry.render)) := by
  have hsame (output : Option String) :
      Invocation.answer { invocation with output } disk = .ok assembly := hanswer
  obtain ⟨-, -, hwritten⟩ := assembleInput_of_ok screen (hsame (some path))
  obtain ⟨-, hshown, -⟩ := assembleInput_of_ok screen (hsame none)
  dsimp only
  refine ⟨?_, ?_⟩
  · rw [hwritten]
    exact read_listing rfl hwritable hsymbols
  · rw [hshown, Text.encodeUtf8_inj, ← listingFile_eq_join_iff]
    simp only [Invocation.shown, hscreen]

/-- The listing of an empty source, with its labels in another file. -/
theorem listings_differ_without_lines :
    let disk : Disk := { nodes := [(⟨["tmp", "a"]⟩, .file [])], current := ⟨["tmp"]⟩ }
    let run (output : Option String) :=
      assembleInput (.lines false false) ⟨"a", output, some "c", false, {}⟩ disk
    (run (some "/tmp/b")).files.read "/tmp/b" = .ok (Text.encodeUtf8 "\n") ∧
      Text.encodeUtf8 "\n" ≠ Text.encodeUtf8 (run none).console.out := by
  intro disk
  have hanswer : Invocation.answer ⟨"a", none, some "c", false, {}⟩ disk = .ok ⟨{}, []⟩ := by
    decide +kernel
  have hfile : Assembly.listingFile ⟨{}, []⟩ = "\n" := by decide +kernel
  have hpath : Path.normalize "/tmp/b" = "/tmp/b" := by decide +kernel
  have hwritable : (disk.write (Path.normalize "/tmp/b")
      (Text.encodeUtf8 (Assembly.listingFile ⟨{}, []⟩))).2 = .ok () := by
    decide +kernel
  have hsymbols : ∀ target, some "c" = some target →
      disk.resolve (Path.normalize target) ≠ disk.resolve (Path.normalize "/tmp/b") := by
    rintro target ⟨⟩
    decide +kernel
  have hlistings := listings_agree_iff (Screen.out_lines false false) hanswer hwritable hsymbols
  rw [hfile, hpath] at hlistings
  exact ⟨hlistings.1, fun h => (hlistings.2.mp h).1 rfl⟩

end CommandLine

end Chip8Asm
