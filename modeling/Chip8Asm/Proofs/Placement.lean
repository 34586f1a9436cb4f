import Mathlib
import Chip8Asm.Layout

/-! The placement of labels. In placement order, the entry first and then the others as declared,
the labels stand one after the other from the base on (`consecutive_inOrder`). Their ranges are
therefore disjoint and cover what lies between the base and the end. Whether a label overflows is
a question about the end alone, but for empty labels at the first address beyond memory. -/

namespace Chip8Asm

/-! ### Numbers in decimal -/

/-- A number is written in decimal if it lies below the power of ten with as many zeros as there may
be digits. -/
theorem hasDecimalText_iff {n : Int} :
    hasDecimalText n = true ↔ n.natAbs < 10 ^ maxDecimalDigits := by
  rw [hasDecimalText, decide_eq_true_iff]
  exact Nat.length_toDigits_le_iff (by decide) (by decide)

theorem Fault.raise_overflow (file name : String) (address size index : Int) :
    raise { Diagnostic.ofCause (.addressOverflow name address size) with
        location := some ⟨file, index⟩ } =
      if size.natAbs < 10 ^ maxDecimalDigits ∧ index.natAbs < 10 ^ maxDecimalDigits then
        .diagnostic { Diagnostic.ofCause (.addressOverflow name address size) with
          location := some ⟨file, index⟩ }
      else .unwritable := by
  have hdecimals : (Diagnostic.decimals { Diagnostic.ofCause (.addressOverflow name address size)
      with location := some ⟨file, index⟩ }).all hasDecimalText = true ↔
        size.natAbs < 10 ^ maxDecimalDigits ∧ index.natAbs < 10 ^ maxDecimalDigits := by
    rw [← hasDecimalText_iff, ← hasDecimalText_iff]
    simp [Diagnostic.decimals, Diagnostic.ofCause, Cause.decimals]
  simp only [Fault.raise, hdecimals]

namespace Layout

/-! ### Sizes -/

@[simp] theorem totalSize_nil : totalSize [] = 0 := rfl

@[simp] theorem totalSize_cons (label : Label) (rest : List Label) :
    totalSize (label :: rest) = label.size + totalSize rest := rfl

@[simp] theorem totalSize_append (xs ys : List Label) :
    totalSize (xs ++ ys) = totalSize xs + totalSize ys := by
  induction xs with
  | nil => simp
  | cons label rest ih => simp [ih, Int.add_assoc]

theorem totalSize_nonneg {labels : List Label} (h : ∀ label ∈ labels, 0 ≤ label.size) :
    0 ≤ totalSize labels := by
  induction labels with
  | nil => simp
  | cons label rest ih =>
    have hhead := h label List.mem_cons_self
    have htail := ih fun other hother => h other (List.mem_cons_of_mem _ hother)
    simp only [totalSize_cons]
    omega

theorem totalSize_eq_zero {labels : List Label} (h : ∀ label ∈ labels, label.size = 0) :
    totalSize labels = 0 := by
  induction labels with
  | nil => rfl
  | cons label rest ih =>
    obtain ⟨hhead, hrest⟩ := List.forall_mem_cons.mp h
    rw [totalSize_cons, hhead, ih hrest, Int.add_zero]

/-- The labels in placement order. -/
def inOrder (labels : List Label) : List Label :=
  labels.filter isEntry ++ labels.filter (!isEntry ·)

theorem inOrder_perm (labels : List Label) : (inOrder labels).Perm labels :=
  List.filter_append_perm _ _

theorem mem_inOrder {labels : List Label} {label : Label} :
    label ∈ inOrder labels ↔ label ∈ labels := (inOrder_perm labels).mem_iff

theorem totalSize_perm {xs ys : List Label} (h : xs.Perm ys) : totalSize xs = totalSize ys := by
  induction h with
  | nil => rfl
  | cons label _ ih => simp [ih]
  | swap a b rest => simp only [totalSize_cons]; omega
  | trans _ _ ih₁ ih₂ => exact ih₁.trans ih₂

theorem totalSize_inOrder (labels : List Label) : totalSize (inOrder labels) = totalSize labels :=
  totalSize_perm (inOrder_perm labels)

/-! ### The walk over the labels -/

theorem cursorAfter_eq (cursor : Int) (labels : List Label) :
    cursorAfter cursor labels = cursor + totalSize (labels.filter (!isEntry ·)) := by
  induction labels generalizing cursor with
  | nil => simp [cursorAfter]
  | cons label rest ih =>
    cases h : isEntry label
    · simp [cursorAfter, h, ih, Int.add_assoc]
    · simp [cursorAfter, h, ih]

theorem placeFrom_append (base cursor : Int) (xs ys : List Label) :
    placeFrom base cursor (xs ++ ys) =
      placeFrom base cursor xs ++ placeFrom base (cursorAfter cursor xs) ys := by
  induction xs generalizing cursor with
  | nil => rfl
  | cons label rest ih =>
    simp only [List.cons_append, placeFrom, cursorAfter]
    split <;> simp [ih]

theorem placeFrom_length (base cursor : Int) (labels : List Label) :
    (placeFrom base cursor labels).length = labels.length := by
  induction labels generalizing cursor with
  | nil => rfl
  | cons label rest ih =>
    simp only [placeFrom]
    split <;> simp [ih]

/-- Placing changes addresses only. -/
theorem placeFrom_map {f : Label → β} (hf : ∀ label address, f { label with address } = f label)
    (base cursor : Int) (labels : List Label) :
    (placeFrom base cursor labels).map f = labels.map f := by
  induction labels generalizing cursor with
  | nil => rfl
  | cons label rest ih =>
    simp only [placeFrom]
    split <;> simp [ih, hf]

theorem place_map {f : Label → β} (hf : ∀ label address, f { label with address } = f label)
    (base : Int) (labels : List Label) : (place base labels).map f = labels.map f :=
  placeFrom_map hf ..

theorem totalSize_place (base : Int) (labels : List Label) :
    totalSize (place base labels) = totalSize labels := by
  have h : ∀ xs : List Label, totalSize xs = (xs.map Label.size).foldr (· + ·) 0 := by
    intro xs; simp only [totalSize, List.foldr_map]
  rw [h, h, place_map fun _ _ => rfl]

/-! ### Consecutive labels -/

/-- The labels stand one after the other from the cursor on. -/
def Consecutive : Int → List Label → Prop
  | _, [] => True
  | cursor, label :: rest =>
    label.address = some cursor ∧ Consecutive (cursor + label.size) rest

theorem consecutive_append {cursor : Int} {xs ys : List Label} :
    Consecutive cursor (xs ++ ys) ↔
      Consecutive cursor xs ∧ Consecutive (cursor + totalSize xs) ys := by
  induction xs generalizing cursor with
  | nil => simp [Consecutive]
  | cons label rest ih => simp [Consecutive, ih, and_assoc, Int.add_assoc]

theorem Consecutive.address_eq {before after : List Label}
    (h : Consecutive cursor (before ++ label :: after)) :
    label.address = some (cursor + totalSize before) := (consecutive_append.mp h).2.1

theorem consecutive_others (base cursor : Int) (labels : List Label) :
    Consecutive cursor ((placeFrom base cursor labels).filter (!isEntry ·)) := by
  induction labels generalizing cursor with
  | nil => trivial
  | cons label rest ih =>
    cases h : isEntry label
    · have h' : isEntry { label with address := some cursor } = false := h
      simp [placeFrom, h, h', Consecutive, ih]
    · have h' : isEntry { label with address := some base } = true := h
      simp [placeFrom, h, h', ih]

/-- A table with distinct names has one entry or none. -/
theorem filter_isEntry {labels : List Label} (hnames : (labels.map Label.name).Nodup) :
    labels.filter isEntry = (labels.find? isEntry).toList := by
  induction labels with
  | nil => rfl
  | cons label rest ih =>
    rw [List.map_cons, List.nodup_cons] at hnames
    cases h : isEntry label
    · simp [h, ih hnames.2]
    · -- no label of the rest has the name of the entry too
      have hrest : rest.filter isEntry = [] := by
        refine List.filter_eq_nil_iff.mpr fun other hother hentry => hnames.1 ?_
        have hname : other.name = label.name :=
          (beq_iff_eq.mp hentry).trans (beq_iff_eq.mp h).symm
        exact hname ▸ List.mem_map_of_mem hother
      simp [h, hrest]

theorem totalSize_entries {labels : List Label} (hnames : (labels.map Label.name).Nodup) :
    totalSize (labels.filter isEntry) = entrySize labels := by
  rw [filter_isEntry hnames, entrySize]
  cases labels.find? isEntry <;> simp

theorem totalSize_eq {labels : List Label} (hnames : (labels.map Label.name).Nodup) :
    totalSize labels = entrySize labels + totalSize (labels.filter (!isEntry ·)) := by
  rw [← totalSize_inOrder, inOrder, totalSize_append, totalSize_entries hnames]

theorem endAddress_eq {labels : List Label} (hnames : (labels.map Label.name).Nodup)
    (base : Int) : endAddress base labels = base + totalSize labels := by
  rw [endAddress, cursorAfter_eq, totalSize_eq hnames, Int.add_assoc]

theorem names_place (base : Int) (labels : List Label) :
    (place base labels).map Label.name = labels.map Label.name := place_map (fun _ _ => rfl) ..

theorem entrySize_placeFrom (base cursor : Int) (labels : List Label) :
    entrySize (placeFrom base cursor labels) = entrySize labels := by
  induction labels generalizing cursor with
  | nil => rfl
  | cons label rest ih =>
    cases h : isEntry label
    · have h' : isEntry { label with address := some cursor } = false := h
      simpa [placeFrom, entrySize, h, h'] using ih (cursor + label.size)
    · have h' : isEntry { label with address := some base } = true := h
      simp [placeFrom, entrySize, h, h']

theorem address_of_isEntry {labels : List Label} (h : label ∈ placeFrom base cursor labels)
    (hentry : isEntry label = true) : label.address = some base := by
  induction labels generalizing cursor with
  | nil => cases h
  | cons other rest ih =>
    simp only [placeFrom] at h
    split at h
    · rcases List.mem_cons.mp h with rfl | h
      · rfl
      · exact ih h
    · rename_i hother
      rcases List.mem_cons.mp h with rfl | h
      · exact absurd hentry hother
      · exact ih h

/-- The labels of a table with distinct names follow each other from the base on. -/
theorem consecutive_inOrder {labels : List Label} (hnames : (labels.map Label.name).Nodup)
    (base : Int) : Consecutive base (inOrder (place base labels)) := by
  have hplaced : ((place base labels).map Label.name).Nodup := by rwa [names_place]
  refine consecutive_append.mpr ⟨?_, ?_⟩
  · rw [filter_isEntry hplaced]
    cases hfind : (place base labels).find? isEntry with
    | none => trivial
    | some entry =>
      have haddress : entry.address = some base :=
        address_of_isEntry (List.mem_of_find?_eq_some hfind) (List.find?_some hfind)
      exact ⟨haddress, trivial⟩
  · rw [totalSize_entries hplaced, place, entrySize_placeFrom]
    exact consecutive_others ..

/-! ### Ranges -/

/-- The addresses that a placed label takes. -/
def range (label : Label) : Set Int := Set.Ico (position label) (position label + label.size)

theorem Consecutive.address_eq_position {labels : List Label} (h : Consecutive cursor labels)
    (hmem : label ∈ labels) : label.address = some (position label) := by
  obtain ⟨before, after, rfl⟩ := List.append_of_mem hmem
  rw [position, h.address_eq]
  rfl

theorem Consecutive.mem_bounds {labels : List Label} (h : Consecutive cursor labels)
    (hsizes : ∀ label ∈ labels, 0 ≤ label.size) (hmem : label ∈ labels) :
    cursor ≤ position label ∧ position label + label.size ≤ cursor + totalSize labels := by
  obtain ⟨before, after, rfl⟩ := List.append_of_mem hmem
  have hposition : position label = cursor + totalSize before := by
    rw [position, h.address_eq]; rfl
  have hbefore : 0 ≤ totalSize before :=
    totalSize_nonneg fun other hother => hsizes other (List.mem_append_left _ hother)
  have hafter : 0 ≤ totalSize after :=
    totalSize_nonneg fun other hother =>
      hsizes other (List.mem_append_right _ (List.mem_cons_of_mem _ hother))
  simp only [totalSize_append, totalSize_cons]
  omega

theorem Consecutive.pairwise_disjoint {labels : List Label} (h : Consecutive cursor labels)
    (hsizes : ∀ label ∈ labels, 0 ≤ label.size) :
    labels.Pairwise fun a b => Disjoint (range a) (range b) := by
  induction labels generalizing cursor with
  | nil => exact .nil
  | cons label rest ih =>
    have hrest : ∀ other ∈ rest, 0 ≤ other.size :=
      fun other hother => hsizes other (List.mem_cons_of_mem _ hother)
    refine .cons (fun other hother => ?_) (ih h.2 hrest)
    have hposition : position label = cursor := by rw [position, h.1]; rfl
    have hother := (h.2.mem_bounds hrest hother).1
    refine Set.disjoint_left.mpr fun address hleft hright => ?_
    simp only [range, Set.mem_Ico] at hleft hright
    omega

theorem Consecutive.mem_range_iff {labels : List Label} (h : Consecutive cursor labels)
    (hsizes : ∀ label ∈ labels, 0 ≤ label.size) (address : Int) :
    (∃ label ∈ labels, address ∈ range label) ↔
      cursor ≤ address ∧ address < cursor + totalSize labels := by
  induction labels generalizing cursor with
  | nil => simp
  | cons label rest ih =>
    have hrest : ∀ other ∈ rest, 0 ≤ other.size :=
      fun other hother => hsizes other (List.mem_cons_of_mem _ hother)
    have hposition : position label = cursor := by rw [position, h.1]; rfl
    have hhead := hsizes label List.mem_cons_self
    have htail := totalSize_nonneg hrest
    simp only [List.mem_cons, exists_eq_or_imp, ih h.2 hrest, totalSize_cons]
    simp only [range, Set.mem_Ico, hposition]
    omega

/-! ### The table as a whole -/

theorem getElem?_place (base : Int) (before after : List Label) (label : Label) :
    (place base (before ++ label :: after))[before.length]? =
      some { label with address := some (if label.name = entryName then base else
        base + entrySize (before ++ label :: after) +
          totalSize (before.filter (!isEntry ·))) } := by
  rw [place, placeFrom_append, List.getElem?_append_right (by rw [placeFrom_length]),
    placeFrom_length, Nat.sub_self, cursorAfter_eq, placeFrom]
  by_cases h : label.name = entryName <;> simp [isEntry, h]

theorem mem_place_size_nonneg {labels : List Label} (hsizes : ∀ label ∈ labels, 0 ≤ label.size)
    (base : Int) : ∀ label ∈ place base labels, 0 ≤ label.size := by
  intro label hlabel
  have hsize : label.size ∈ labels.map Label.size := by
    rw [← place_map (f := Label.size) (fun _ _ => rfl) base labels]
    exact List.mem_map_of_mem hlabel
  obtain ⟨other, hother, heq⟩ := List.mem_map.mp hsize
  exact heq ▸ hsizes other hother

theorem overflows_iff : overflows label = true ↔
    label.size = 0 ∧ 0x1000 ≤ position label ∨
      label.size ≠ 0 ∧ 0x1000 < position label + label.size := by
  by_cases h : label.size = 0
  · simp [overflows, lastAddress, h, maxAddress, Int.lt_iff_add_one_le]
  · simp [overflows, lastAddress, h, maxAddress]
    omega

section
variable {labels : List Label} (hnames : (labels.map Label.name).Nodup)
  (hsizes : ∀ label ∈ labels, 0 ≤ label.size)
include hnames hsizes

theorem place_bounds (hmem : label ∈ place base labels) :
    base ≤ position label ∧ position label + label.size ≤ base + totalSize labels := by
  have h := (consecutive_inOrder hnames base).mem_bounds
    (fun other hother => mem_place_size_nonneg hsizes base other (mem_inOrder.mp hother))
    (mem_inOrder.mpr hmem)
  rwa [totalSize_inOrder, totalSize_place] at h

theorem place_pairwise_disjoint (base : Int) :
    (place base labels).Pairwise fun a b => Disjoint (range a) (range b) := by
  refine ((inOrder_perm _).pairwise_iff fun h => h.symm).mp ?_
  exact (consecutive_inOrder hnames base).pairwise_disjoint
    fun other hother => mem_place_size_nonneg hsizes base other (mem_inOrder.mp hother)

theorem mem_range_place_iff (base address : Int) :
    (∃ label ∈ place base labels, address ∈ range label) ↔
      base ≤ address ∧ address < base + totalSize labels := by
  have h := (consecutive_inOrder hnames base).mem_range_iff
    (fun other hother => mem_place_size_nonneg hsizes base other (mem_inOrder.mp hother)) address
  simpa only [mem_inOrder, totalSize_inOrder, totalSize_place] using h

theorem iUnion_range_place (base : Int) :
    (⋃ label ∈ place base labels, range label) = Set.Ico base (base + totalSize labels) := by
  ext address
  simpa only [Set.mem_iUnion, exists_prop, Set.mem_Ico] using
    mem_range_place_iff hnames hsizes base address

/-- Some label overflows if the end lies beyond memory, or if it lies just behind memory and an
empty label stands there. -/
theorem exists_overflows_iff (hbase : base ≤ maxAddress) :
    (∃ label ∈ place base labels, overflows label = true) ↔
      0x1000 < base + totalSize labels ∨ base + totalSize labels = 0x1000 ∧
        ∃ label ∈ place base labels, label.size = 0 ∧ label.address = some 0x1000 := by
  constructor
  · rintro ⟨label, hlabel, hoverflows⟩
    have hbounds := place_bounds hnames hsizes hlabel
    have haddress : label.address = some (position label) :=
      (consecutive_inOrder hnames base).address_eq_position (mem_inOrder.mpr hlabel)
    rcases overflows_iff.mp hoverflows with ⟨hzero, hposition⟩ | ⟨_, hlast⟩
    · by_cases hend : 0x1000 < base + totalSize labels
      · exact .inl hend
      · refine .inr ⟨by omega, label, hlabel, hzero, ?_⟩
        rw [haddress, show position label = 0x1000 by omega]
    · exact .inl (by omega)
  · rintro (hend | ⟨_, label, hlabel, hzero, haddress⟩)
    · -- the first address beyond memory belongs to a label, which is then not empty
      have hstart : base ≤ 0x1000 := hbase.trans (by decide)
      obtain ⟨label, hlabel, hcovers⟩ :=
        (mem_range_place_iff hnames hsizes base 0x1000).mpr ⟨hstart, hend⟩
      simp only [range, Set.mem_Ico] at hcovers
      exact ⟨label, hlabel, overflows_iff.mpr (.inr ⟨by omega, hcovers.2⟩)⟩
    · have hposition : position label = 0x1000 := by rw [position, haddress]; rfl
      exact ⟨label, hlabel, overflows_iff.mpr (.inl ⟨hzero, hposition.ge⟩)⟩

end

theorem overflow?_eq_some_iff : overflow? file placed = some d ↔
    ∃ before label after, placed = before ++ label :: after ∧
      (∀ other ∈ before, lastAddress other ≤ maxAddress) ∧ maxAddress < lastAddress label ∧
      d = { Diagnostic.ofCause (.addressOverflow label.name (position label) label.size) with
        location := some ⟨file, label.index⟩ } := by
  simp only [overflow?, Option.map_eq_some_iff, List.find?_eq_some_iff_append, overflows,
    decide_eq_true_eq, Bool.not_eq_true', decide_eq_false_iff_not, Int.not_lt]
  constructor
  · rintro ⟨label, ⟨hlast, before, after, hplaced, hbefore⟩, rfl⟩
    exact ⟨before, label, after, hplaced, hbefore, hlast, rfl⟩
  · rintro ⟨before, label, after, hplaced, hbefore, hlast, rfl⟩
    exact ⟨label, ⟨hlast, before, after, hplaced, hbefore⟩, rfl⟩

theorem overflow?_eq_none_iff : overflow? file placed = none ↔
    ∀ label ∈ placed, overflows label = false := by
  rw [overflow?, Option.map_eq_none_iff, List.find?_eq_none]
  simp only [Bool.not_eq_true]

theorem overflow?_isSome_iff (file : String) : (∃ d, overflow? file placed = some d) ↔
    ∃ label ∈ placed, overflows label = true := by
  simp [overflow?, ← Option.isSome_iff_exists]

theorem answer_eq_error_iff (h : assign file base labels = (placed, answer)) (fault : Fault) :
    answer = .error fault ↔ ∃ d, overflow? file placed = some d ∧ fault = .raise d := by
  obtain ⟨rfl, rfl⟩ := Prod.mk.inj h
  cases overflow? file (place base labels) with
  | none => simp
  | some d => simpa using eq_comm

/-- What assigning addresses does to a table with distinct names and to its memory: where each
label comes to stand, that the ranges of the labels are disjoint and fill the memory from the base
to the end, when a label overflows, which one is reported, and what the answer is otherwise. The
report shows the size and the line of the label in decimal, and there is none if one of them has
more digits than are written. -/
theorem assign_partitions_memory {file : String} {base : Int} {labels placed : List Label}
    {answer : Except Fault Int} (hnames : (labels.map Label.name).Nodup)
    (hsizes : ∀ label ∈ labels, 0 ≤ label.size) (hbase : base ≤ maxAddress)
    (h : assign file base labels = (placed, answer)) :
    placed.length = labels.length ∧
    (∀ before label after, labels = before ++ label :: after →
      placed[before.length]? = some { label with address := some (
        if label.name = entryName then base
        else base + entrySize labels + totalSize (before.filter (!isEntry ·))) }) ∧
    (placed.Pairwise fun a b => Disjoint (range a) (range b)) ∧
    (⋃ label ∈ placed, range label) = Set.Ico base (base + totalSize labels) ∧
    ((∃ fault, answer = .error fault) ↔ 0x1000 < base + totalSize labels ∨
      base + totalSize labels = 0x1000 ∧
        ∃ label ∈ placed, label.size = 0 ∧ label.address = some 0x1000) ∧
    (∀ fault, answer = .error fault ↔ ∃ before label after, placed = before ++ label :: after ∧
      (∀ other ∈ before, lastAddress other ≤ maxAddress) ∧ maxAddress < lastAddress label ∧
      fault =
        if label.size.natAbs < 10 ^ maxDecimalDigits ∧ label.index.natAbs < 10 ^ maxDecimalDigits
        then .diagnostic
          { Diagnostic.ofCause (.addressOverflow label.name (position label) label.size) with
            location := some ⟨file, label.index⟩ }
        else .unwritable) ∧
    ∀ after, answer = .ok after → after = base + totalSize labels := by
  have herror := answer_eq_error_iff h
  obtain ⟨rfl, rfl⟩ := Prod.mk.inj h
  refine ⟨placeFrom_length .., ?_, place_pairwise_disjoint hnames hsizes base,
    iUnion_range_place hnames hsizes base, ?_, fun fault => (herror fault).trans ?_, ?_⟩
  · rintro before label after rfl
    exact getElem?_place base before after label
  · rw [← exists_overflows_iff hnames hsizes hbase, ← overflow?_isSome_iff file]
    simp [herror]
  · constructor
    · rintro ⟨d, hoverflow, rfl⟩
      obtain ⟨before, label, after, hplaced, hbefore, hlast, rfl⟩ :=
        overflow?_eq_some_iff.mp hoverflow
      refine ⟨before, label, after, hplaced, hbefore, hlast, ?_⟩
      rw [Fault.raise_overflow]
    · rintro ⟨before, label, after, hplaced, hbefore, hlast, hfault⟩
      refine ⟨_, overflow?_eq_some_iff.mpr ⟨before, label, after, hplaced, hbefore, hlast, rfl⟩, ?_⟩
      rw [Fault.raise_overflow, hfault]
  · intro after hafter
    cases hoverflow : overflow? file (place base labels) with
    | some d => simp [hoverflow] at hafter
    | none =>
      simp only [hoverflow, Except.ok.injEq] at hafter
      rw [← hafter, endAddress_eq hnames]

/-- The least size with one digit more than are written leaves the overflow of its label without a
report. -/
theorem assign_of_overlong_size :
    let labels : List Label := [{ name := "A", size := 10 ^ maxDecimalDigits }]
    (labels.map Label.name).Nodup ∧ (∀ label ∈ labels, 0 ≤ label.size) ∧ defaultBase ≤ maxAddress ∧
      (assign "m" defaultBase labels).2 = .error .unwritable := by
  have hlong : ¬(10 ^ maxDecimalDigits : Int).natAbs < 10 ^ maxDecimalDigits := by
    simp [Int.natAbs_pow]
  have hlarge : (0x1000 : Int) ≤ 10 ^ maxDecimalDigits := by
    calc (0x1000 : Int) ≤ 10 ^ 4 := by decide
      _ ≤ 10 ^ maxDecimalDigits := pow_le_pow_right₀ (by decide) (by decide)
  -- the number is too long to be evaluated
  generalize (10 ^ maxDecimalDigits : Int) = size at hlong hlarge ⊢
  intro labels
  have hnames : (labels.map Label.name).Nodup := List.nodup_singleton _
  have hsizes : ∀ label ∈ labels, 0 ≤ label.size :=
    List.forall_mem_singleton.mpr ((by decide : (0 : Int) ≤ 0x1000).trans hlarge)
  have hbase : defaultBase ≤ maxAddress := by decide
  have hassign : assign "m" defaultBase labels = (_, _) := rfl
  obtain ⟨_, _, _, _, _, herror, _⟩ := assign_partitions_memory hnames hsizes hbase hassign
  have hbeyond : maxAddress < lastAddress { name := "A", address := some defaultBase, size } := by
    simp only [lastAddress, position, Option.getD_some, maxAddress, defaultBase]
    split <;> omega
  refine ⟨hnames, hsizes, hbase, (herror _).mpr ⟨[], _, [], rfl, ?_, hbeyond, ?_⟩⟩
  · exact fun _ hmem => (List.not_mem_nil hmem).elim
  · rw [if_neg fun h => hlong h.1]

end Layout
end Chip8Asm
