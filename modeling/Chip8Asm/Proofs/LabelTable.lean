import Mathlib
import Chip8Asm.Proofs.BodyLines

/-! Tables of labels up to the lines of the labels. Neither the placement of labels nor the encoder
looks at these lines: all that they depend on is the table of bare labels. -/

namespace Chip8Asm

namespace Label

/-- The label without its lines. -/
def bare (label : Label) : Label := { label with lines := [] }

/-- The tables differ in the lines of the labels at most. -/
def SameTable (labels others : List Label) : Prop := labels.map bare = others.map bare

variable {labels others : List Label}

theorem find?_map_bare (labels : List Label) (name : String) :
    find? (labels.map bare) name = (find? labels name).map bare := List.find?_map ..

theorem bare_eq_iff {label other : Label} : label.bare = other.bare ↔
    label.name = other.name ∧ label.address = other.address ∧ label.size = other.size ∧
      label.index = other.index := by
  simp only [bare, mk.injEq, true_and]

theorem bare_addLine {label first : Label} (h : label.bare = first.bare)
    (line other : SourceLine) (size : Int) :
    (label.addLine line size).bare = (first.addLine other size).bare := by
  obtain ⟨hname, haddress, hsize, hindex⟩ := bare_eq_iff.mp h
  exact bare_eq_iff.mpr ⟨hname, haddress, congrArg (· + size) hsize, hindex⟩

namespace SameTable

theorem names (h : SameTable labels others) : labels.map name = others.map name := by
  have hnames := congrArg (List.map name) h
  rwa [List.map_map, List.map_map] at hnames

theorem isEmpty (h : SameTable labels others) : labels.isEmpty = others.isEmpty := by
  have hempty := congrArg List.isEmpty h
  rwa [List.isEmpty_map, List.isEmpty_map] at hempty

theorem find?_cases (h : SameTable labels others) (name : String) :
    find? labels name = none ∧ find? others name = none ∨
      ∃ label other, find? labels name = some label ∧ find? others name = some other ∧
        label.bare = other.bare := by
  have hfind : (find? labels name).map bare = (find? others name).map bare := by
    rw [← find?_map_bare, ← find?_map_bare, h]
  cases hlabel : find? labels name with
  | none =>
    rw [hlabel] at hfind
    exact .inl ⟨rfl, Option.map_eq_none_iff.mp hfind.symm⟩
  | some label =>
    rw [hlabel] at hfind
    obtain ⟨other, hother, hbare⟩ := Option.map_eq_some_iff.mp hfind.symm
    exact .inr ⟨label, other, rfl, hother, hbare.symm⟩

theorem append_singleton (h : SameTable labels others) (label : Label) :
    SameTable (labels ++ [label]) (others ++ [label]) := by
  rw [SameTable, List.map_append, List.map_append, h]

theorem addToLast (h : SameTable labels others) (line other : SourceLine) (size : Int) :
    SameTable (addToLast line size labels) (addToLast other size others) := by
  induction labels generalizing others with
  | nil =>
    obtain rfl := List.map_eq_nil_iff.mp h.symm
    rfl
  | cons label labels ih =>
    cases others with
    | nil => cases h
    | cons first others =>
      obtain ⟨hhead, htail⟩ := List.cons.inj h
      cases labels with
      | nil =>
        obtain rfl := List.map_eq_nil_iff.mp htail.symm
        exact congrArg (fun label => [label]) (bare_addLine hhead line other size)
      | cons second labels =>
        cases others with
        | nil => cases htail
        | cons third others =>
          exact congrArg₂ List.cons hhead (ih htail)

end SameTable

end Label

/-! ### Placement -/

namespace Layout
open Label

variable {f : Label → Label}

/-- The function leaves alone what labels are placed by, and leaves them their addresses. -/
structure Neutral (f : Label → Label) : Prop where
  entry : ∀ label, isEntry (f label) = isEntry label
  size : ∀ label, (f label).size = label.size
  address : ∀ label address, f { label with address } = { f label with address }

namespace Neutral

theorem entrySize_map (h : Neutral f) (labels : List Label) :
    entrySize (labels.map f) = entrySize labels := by
  have hentry : isEntry ∘ f = isEntry := funext h.entry
  rw [entrySize, entrySize, List.find?_map, hentry]
  cases labels.find? isEntry with
  | none => rfl
  | some entry => exact h.size entry

theorem placeFrom_map (h : Neutral f) (base cursor : Int) (labels : List Label) :
    placeFrom base cursor (labels.map f) = (placeFrom base cursor labels).map f := by
  induction labels generalizing cursor with
  | nil => rfl
  | cons label rest ih =>
    rw [List.map_cons, placeFrom, placeFrom, h.entry]
    split
    · rw [List.map_cons, h.address label (some base), ih]
    · rw [List.map_cons, h.address label (some cursor), ← h.size label, ih]

theorem place_map (h : Neutral f) (base : Int) (labels : List Label) :
    place base (labels.map f) = (place base labels).map f := by
  rw [place, place, h.placeFrom_map, h.entrySize_map]

theorem overflows_eq (h : Neutral f) (label : Label) : overflows (f label) = overflows label := by
  have hlabel : f label = { f label with address := label.address } := h.address ..
  have haddress : (f label).address = label.address := by rw [hlabel]
  rw [overflows, overflows, lastAddress, lastAddress, position, position, h.size, haddress]

end Neutral

theorem neutral_bare : Neutral bare := ⟨fun _ => rfl, fun _ => rfl, fun _ _ => rfl⟩

theorem overflow?_map_bare (file : String) (labels : List Label) :
    overflow? file (labels.map bare) = overflow? file labels := by
  have hfind : (labels.map bare).find? overflows = (labels.find? overflows).map bare :=
    List.find?_map ..
  rw [overflow?, overflow?, hfind, Option.map_map]
  rfl

theorem sameTable_place (h : SameTable labels others) (base : Int) :
    SameTable (place base labels) (place base others) := by
  rw [SameTable, ← neutral_bare.place_map, ← neutral_bare.place_map, h]

theorem overflow?_congr (h : SameTable labels others) (file : String) :
    overflow? file labels = overflow? file others := by
  rw [← overflow?_map_bare, h, overflow?_map_bare]

end Layout

/-! ### Encoding -/

namespace Encoding
open Label

theorem unknownLabel_congr (h : labels.map name = others.map name) :
    unknownLabel labels = unknownLabel others := by
  funext token
  rw [unknownLabel, unknownLabel, h]

theorem readImmediate_congr (h : unknownLabel labels = unknownLabel others) (width : Nat)
    (token : String) : readImmediate labels width token = readImmediate others width token := by
  rw [readImmediate, readImmediate, h]

theorem readOperands_congr (h : unknownLabel labels = unknownLabel others) (width : Nat)
    (operands : List String) (shapes : List Shape) :
    readOperands labels width operands shapes = readOperands others width operands shapes := by
  induction operands generalizing shapes with
  | nil => simp only [readOperands]
  | cons token operands ih =>
    cases shapes with
    | nil => simp only [readOperands]
    | cons shape shapes =>
      cases shape <;> simp only [readOperands, readImmediate_congr h, ih]

theorem encodeReplaced_congr (h : unknownLabel labels = unknownLabel others)
    (tokens : List String) : encodeReplaced labels tokens = encodeReplaced others tokens := by
  cases tokens with
  | nil => rfl
  | cons head rest =>
    simp only [encodeReplaced, encodeInstruction, readOperands_congr h]

variable {f : Label → Label}

theorem substituteLabel_map (hname : ∀ label, (f label).name = label.name)
    (haddress : ∀ label, (f label).address = label.address) (labels : List Label) :
    substituteLabel (labels.map f) = substituteLabel labels := by
  funext token
  have hfind : find? (labels.map f) token = (find? labels token).map f := by
    rw [find?, find?, List.find?_map]
    simp only [Function.comp_def, hname]
  unfold substituteLabel
  rw [hfind]
  cases find? labels token with
  | none => rfl
  | some label => simp only [Option.map_some, addressHex, requireAddress, hname, haddress]

/-- Of a table the encoder sees names and addresses only. -/
theorem encodeResolved_map (hname : ∀ label, (f label).name = label.name)
    (haddress : ∀ label, (f label).address = label.address) (labels : List Label) :
    encodeResolved (labels.map f) = encodeResolved labels := by
  have hunknown : unknownLabel (labels.map f) = unknownLabel labels := by
    refine unknownLabel_congr ?_
    rw [List.map_map]
    exact List.map_congr_left fun label _ => hname label
  funext tokens
  rw [encodeResolved, encodeResolved, substituteLabel_map hname haddress]
  simp only [encodeReplaced_congr hunknown]

theorem encodeResolved_congr (h : SameTable labels others) :
    encodeResolved labels = encodeResolved others := by
  have hbare : ∀ labels, encodeResolved (labels.map bare) = encodeResolved labels :=
    encodeResolved_map (fun _ => rfl) (fun _ => rfl)
  rw [← hbare labels, h, hbare]

end Encoding

end Chip8Asm
