import Mathlib
import Chip8Asm.Proofs.InsertionSort
import Chip8Asm.Proofs.Scan

/-! Placement order and the order of addresses. Labels are placed one after the other, but sorting
them by their addresses does not find the order of placement again: labels at one address keep the
order of declaration. Since only the entry is placed ahead of labels that are declared before it,
this matters for an empty entry alone, which shares its address with the label placed next. -/

namespace Chip8Asm
namespace Layout

variable {labels before after : List Label} {entry label : Label} {base cursor : Int}

/-- Goes along the labels, from the end of each to the next, as long as each of them stands where
the one before it ends. -/
def walk? : Int → List Label → Option Int
  | cursor, [] => some cursor
  | cursor, label :: rest =>
    match label.endAddress with
    | .ok next => if label.address = some cursor then walk? next rest else none
    | .error _ => none

theorem walk?_eq_some_iff {last : Int} : walk? cursor labels = some last ↔
    Consecutive cursor labels ∧ last = cursor + totalSize labels := by
  induction labels generalizing cursor with
  | nil => simp [walk?, Consecutive, eq_comm]
  | cons label rest ih =>
    cases haddress : label.address with
    | none =>
      have hend : label.endAddress = .error (.unplaced label.name) := by
        rw [Label.endAddress, Label.requireAddress, haddress]
        rfl
      simp [walk?, hend, Consecutive, haddress]
    | some address =>
      have hend : label.endAddress = .ok (address + label.size) := by
        rw [Label.endAddress, Label.requireAddress, haddress]
        rfl
      by_cases heq : address = cursor
      · simp [walk?, hend, Consecutive, haddress, heq, ih, Int.add_assoc]
      · simp [walk?, hend, Consecutive, haddress, heq]

theorem Consecutive.pairwise_position (h : Consecutive cursor labels)
    (hsizes : ∀ label ∈ labels, 0 ≤ label.size) :
    labels.Pairwise (position · ≤ position ·) := by
  induction labels generalizing cursor with
  | nil => exact .nil
  | cons label rest ih =>
    have hrest : ∀ other ∈ rest, 0 ≤ other.size :=
      fun other hother => hsizes other (List.mem_cons_of_mem _ hother)
    refine .cons (fun other hother => ?_) (ih h.2 hrest)
    have hposition : position label = cursor := by rw [position, h.1]; rfl
    have hsize := hsizes label List.mem_cons_self
    have hother := (h.2.mem_bounds hrest hother).1
    omega

/-- If no label at the cursor takes room then none does: behind empty labels the next one stands at
the cursor as well. -/
theorem Consecutive.sizes_eq_zero (h : Consecutive cursor labels)
    (hsizes : ∀ label ∈ labels, 0 ≤ label.size)
    (htotal : totalSize (labels.filter (position · = cursor)) = 0) :
    ∀ label ∈ labels, label.size = 0 := by
  induction labels with
  | nil => exact fun _ h => nomatch h
  | cons label rest ih =>
    have hrest : ∀ other ∈ rest, 0 ≤ other.size :=
      fun other hother => hsizes other (List.mem_cons_of_mem _ hother)
    have hposition : position label = cursor := by rw [position, h.1]; rfl
    have hothers : 0 ≤ totalSize (rest.filter (position · = cursor)) :=
      totalSize_nonneg fun other hother => hrest other (List.mem_filter.mp hother).1
    have hhead := hsizes label List.mem_cons_self
    rw [List.filter_cons_of_pos (by simpa using hposition), totalSize_cons] at htotal
    have hsize : label.size = 0 := by omega
    have htail := h.2
    rw [hsize, Int.add_zero] at htail
    exact List.forall_mem_cons.mpr ⟨hsize, ih htail hrest (by omega)⟩

/-! ### The entry among the labels -/

/-- A table of labels with addresses from the base on. -/
structure IsPlaced (base : Int) (labels : List Label) : Prop where
  names : (labels.map Label.name).Nodup
  sizes : ∀ label ∈ labels, 0 ≤ label.size
  consecutive : Consecutive base (inOrder labels)

/-- Such a table around its entry. -/
structure HasEntry (base : Int) (before : List Label) (entry : Label) (after : List Label) : Prop
    extends IsPlaced base (before ++ entry :: after) where
  isEntry : isEntry entry = true
  others : ∀ other ∈ before ++ after, Layout.isEntry other = false
  address : entry.address = some base
  above : Consecutive (base + entry.size) before
  below : Consecutive (base + entry.size + totalSize before) after

theorem inOrder_of_no_entry (h : ∀ label ∈ labels, isEntry label = false) :
    inOrder labels = labels := by
  have hentries : labels.filter isEntry = [] :=
    List.filter_eq_nil_iff.mpr fun label hlabel => by simp [h label hlabel]
  have hothers : labels.filter (!isEntry ·) = labels :=
    List.filter_eq_self.mpr fun label hlabel => by simp [h label hlabel]
  rw [inOrder, hentries, hothers, List.nil_append]

theorem inOrder_of_entry (hentry : isEntry entry = true)
    (hothers : ∀ other ∈ before ++ after, isEntry other = false) :
    inOrder (before ++ entry :: after) = entry :: (before ++ after) := by
  have hrest := inOrder_of_no_entry hothers
  simp only [inOrder, List.filter_append] at hrest ⊢
  have hentries : before.filter isEntry = [] ∧ after.filter isEntry = [] := by
    simp only [List.filter_eq_nil_iff]
    exact ⟨fun other hother => by simp [hothers other (List.mem_append_left _ hother)],
      fun other hother => by simp [hothers other (List.mem_append_right _ hother)]⟩
  rw [hentries.1, hentries.2, List.nil_append, List.nil_append] at hrest
  rw [List.filter_cons_of_pos hentry, List.filter_cons_of_neg (by simp [hentry]), hentries.1,
    hentries.2, hrest]
  rfl

theorem IsPlaced.cases (h : IsPlaced base labels) :
    (∀ label ∈ labels, isEntry label = false) ∨
      ∃ before entry after, labels = before ++ entry :: after ∧
        HasEntry base before entry after := by
  by_cases hnone : ∀ label ∈ labels, isEntry label = false
  · exact .inl hnone
  · right
    simp only [not_forall, Bool.not_eq_false] at hnone
    obtain ⟨entry, hmem, hentry⟩ := hnone
    obtain ⟨before, after, rfl⟩ := List.append_of_mem hmem
    have hothers : ∀ other ∈ before ++ after, isEntry other = false := by
      intro other hother
      by_contra hother'
      rw [Bool.not_eq_false] at hother'
      have hname : other.name = entry.name :=
        (beq_iff_eq.mp hother').trans (beq_iff_eq.mp hentry).symm
      have hnames : ((entry :: (before ++ after)).map Label.name).Nodup :=
        (List.perm_middle.map Label.name).nodup_iff.mp h.names
      rw [List.map_cons, List.nodup_cons] at hnames
      exact hnames.1 (hname ▸ List.mem_map_of_mem hother)
    have hplaced := h.consecutive
    rw [inOrder_of_entry hentry hothers] at hplaced
    obtain ⟨hbefore, hafter⟩ := consecutive_append.mp hplaced.2
    exact ⟨before, entry, after, rfl, h, hentry, hothers, hplaced.1, hbefore, hafter⟩

theorem HasEntry.eq_entry (h : HasEntry base before entry after)
    (hlabel : label ∈ before ++ entry :: after) (hname : Layout.isEntry label = true) :
    label = entry := by
  rcases List.mem_cons.mp (List.perm_middle.mem_iff.mp hlabel) with rfl | hother
  · rfl
  · rw [h.others label hother] at hname
    cases hname

theorem Consecutive.byAddress_eq (h : Consecutive base labels)
    (hsizes : ∀ label ∈ labels, 0 ≤ label.size) : byAddress labels = labels :=
  sorted_of_pairwise (h.pairwise_position hsizes)

theorem IsPlaced.position_entry (h : IsPlaced base labels) (hlabel : label ∈ labels)
    (hentry : isEntry label = true) : position label = base := by
  rcases h.cases with hnone | ⟨before, entry, after, rfl, hplaced⟩
  · rw [hnone label hlabel] at hentry
    cases hentry
  · rw [hplaced.eq_entry hlabel hentry, position, hplaced.address]
    rfl

/-- In the order of addresses the labels at the base come first, and all others as declared. -/
theorem IsPlaced.byAddress_eq (h : IsPlaced base labels) : byAddress labels =
    labels.filter (position · = base) ++ labels.filter (position · ≠ base) := by
  have hsizes : ∀ label ∈ inOrder labels, 0 ≤ label.size :=
    fun label hlabel => h.sizes label (mem_inOrder.mp hlabel)
  apply sorted_eq_filter
  · intro label hlabel
    exact (h.consecutive.mem_bounds hsizes (mem_inOrder.mpr hlabel)).1
  · have hfilter : labels.filter (position · ≠ base) =
        (labels.filter (!isEntry ·)).filter (position · ≠ base) := by
      rw [List.filter_filter]
      refine List.filter_congr fun label hlabel => ?_
      cases hentry : isEntry label
      · simp
      · simp [h.position_entry hlabel hentry]
    rw [hfilter]
    exact (List.pairwise_append.mp (h.consecutive.pairwise_position hsizes)).2.1.filter _

namespace HasEntry

variable (h : HasEntry base before entry after)
include h

theorem position_eq : position entry = base :=
  h.position_entry (List.mem_append_right _ List.mem_cons_self) h.isEntry

/-- Labels at the base that are declared before the entry come before it. -/
theorem byAddress_eq_append : ∃ rest, byAddress (before ++ entry :: after) =
    before.filter (position · = base) ++ entry :: rest := by
  rw [h.byAddress_eq, List.filter_append,
    List.filter_cons_of_pos (by simpa using h.position_eq), List.append_assoc]
  exact ⟨_, rfl⟩

theorem consecutive_of_empty (hempty : entry.size = 0)
    (hbefore : ∀ label ∈ before, label.size = 0) :
    Consecutive base (before ++ entry :: after) := by
  have htotal := totalSize_eq_zero hbefore
  have habove := h.above
  have hbelow := h.below
  rw [hempty, Int.add_zero] at habove hbelow
  rw [htotal] at hbelow
  refine consecutive_append.mpr ⟨habove, ?_⟩
  rw [htotal, Int.add_zero]
  exact ⟨h.address, by rwa [hempty]⟩

/-- If the entry takes room no other label stands at the base. -/
theorem byAddress_of_nonempty (hsize : entry.size ≠ 0) :
    byAddress (before ++ entry :: after) = inOrder (before ++ entry :: after) := by
  have hpos : 0 < entry.size :=
    lt_of_le_of_ne (h.sizes entry (List.mem_append_right _ List.mem_cons_self)) hsize.symm
  have hiff : ∀ label ∈ before ++ entry :: after,
      position label = base ↔ Layout.isEntry label = true := by
    intro label hlabel
    refine ⟨fun hposition => ?_, h.position_entry hlabel⟩
    rcases List.mem_cons.mp (List.perm_middle.mem_iff.mp hlabel) with rfl | hother
    · exact h.isEntry
    · have hrest : Consecutive (base + entry.size) (before ++ after) :=
        consecutive_append.mpr ⟨h.above, h.below⟩
      have hbounds := (hrest.mem_bounds (fun other hother =>
        h.sizes other (List.perm_middle.mem_iff.mpr (List.mem_cons_of_mem _ hother))) hother).1
      omega
  rw [h.byAddress_eq, inOrder]
  congr 1
  · exact List.filter_congr fun label hlabel => by simp [hiff label hlabel]
  · exact List.filter_congr fun label hlabel => by simp [hiff label hlabel]

theorem consecutive_byAddress_iff : Consecutive base (byAddress (before ++ entry :: after)) ↔
    (entry.size = 0 → ∀ label ∈ before, label.size = 0) := by
  constructor
  · intro hconsecutive hempty
    obtain ⟨rest, hrest⟩ := h.byAddress_eq_append
    rw [hrest] at hconsecutive
    have haddress := h.address.symm.trans hconsecutive.address_eq
    rw [Option.some.injEq] at haddress
    have habove := h.above
    rw [hempty, Int.add_zero] at habove
    apply habove.sizes_eq_zero
    · exact fun label hlabel => h.sizes label (List.mem_append_left _ hlabel)
    · omega
  · intro hbefore
    by_cases hempty : entry.size = 0
    · have hconsecutive := h.consecutive_of_empty hempty (hbefore hempty)
      rwa [hconsecutive.byAddress_eq h.sizes]
    · rw [h.byAddress_of_nonempty hempty]
      exact h.consecutive

theorem byAddress_eq_inOrder (hbefore : entry.size = 0 → before = []) :
    byAddress (before ++ entry :: after) = inOrder (before ++ entry :: after) := by
  by_cases hempty : entry.size = 0
  · obtain rfl := hbefore hempty
    have hconsecutive := h.consecutive_of_empty hempty fun _ h => nomatch h
    rw [hconsecutive.byAddress_eq h.sizes, inOrder_of_entry h.isEntry h.others]
    rfl
  · exact h.byAddress_of_nonempty hempty

theorem head?_byAddress_iff : (byAddress (before ++ entry :: after)).head? = some entry ↔
    (entry.size = 0 → before = []) := by
  constructor
  · intro hhead hempty
    cases before with
    | nil => rfl
    | cons first others =>
      -- the label placed behind an empty entry stands at the base too, and it is declared first
      have hposition : position first = base := by
        rw [position, h.above.1, hempty, Int.add_zero]
        rfl
      obtain ⟨rest, hrest⟩ := h.byAddress_eq_append
      rw [hrest, List.filter_cons_of_pos (by simpa using hposition)] at hhead
      obtain rfl : first = entry := Option.some.inj hhead
      have hother := h.others first List.mem_cons_self
      rw [h.isEntry] at hother
      cases hother
  · intro hbefore
    rw [h.byAddress_eq_inOrder hbefore, inOrder_of_entry h.isEntry h.others]
    rfl

end HasEntry

/-! ### Whole tables -/

/-- The entry is declared, and it is empty. -/
def HasEmptyEntry (labels : List Label) : Prop :=
  ∃ entry ∈ labels, isEntry entry = true ∧ entry.size = 0

/-- The labels that are declared before the entry. -/
def beforeEntry (labels : List Label) : List Label := labels.takeWhile (!isEntry ·)

theorem HasEntry.hasEmptyEntry_iff (h : HasEntry base before entry after) :
    HasEmptyEntry (before ++ entry :: after) ↔ entry.size = 0 := by
  constructor
  · rintro ⟨label, hlabel, hentry, hempty⟩
    rwa [h.eq_entry hlabel hentry] at hempty
  · exact fun hempty => ⟨entry, List.mem_append_right _ List.mem_cons_self, h.isEntry, hempty⟩

theorem HasEntry.beforeEntry_eq (h : HasEntry base before entry after) :
    beforeEntry (before ++ entry :: after) = before := by
  rw [beforeEntry, List.takeWhile_append_of_pos,
    List.takeWhile_cons_of_neg (by simp [h.isEntry]), List.append_nil]
  intro other hother
  simp [h.others other (List.mem_append_left _ hother)]

theorem not_hasEmptyEntry (h : ∀ label ∈ labels, isEntry label = false) :
    ¬HasEmptyEntry labels := by
  rintro ⟨label, hlabel, hentry, -⟩
  rw [h label hlabel] at hentry
  cases hentry

namespace IsPlaced

theorem byAddress_of_no_entry (h : IsPlaced base labels)
    (hnone : ∀ label ∈ labels, isEntry label = false) : byAddress labels = labels := by
  have hconsecutive := h.consecutive
  rw [inOrder_of_no_entry hnone] at hconsecutive
  exact hconsecutive.byAddress_eq h.sizes

theorem consecutive_byAddress_iff (h : IsPlaced base labels) :
    Consecutive base (byAddress labels) ↔
      (HasEmptyEntry labels → ∀ label ∈ beforeEntry labels, label.size = 0) := by
  rcases h.cases with hnone | ⟨before, entry, after, rfl, hentry⟩
  · refine iff_of_true ?_ fun hempty => (not_hasEmptyEntry hnone hempty).elim
    have hconsecutive := h.consecutive
    rwa [inOrder_of_no_entry hnone, ← h.byAddress_of_no_entry hnone] at hconsecutive
  · rw [hentry.hasEmptyEntry_iff, hentry.beforeEntry_eq]
    exact hentry.consecutive_byAddress_iff

theorem head?_byAddress_iff (h : IsPlaced base labels) :
    (∀ entry ∈ labels, isEntry entry = true → (byAddress labels).head? = some entry) ↔
      (HasEmptyEntry labels → beforeEntry labels = []) := by
  rcases h.cases with hnone | ⟨before, entry, after, rfl, hentry⟩
  · refine iff_of_true (fun label hlabel hentry => ?_) fun hempty =>
      (not_hasEmptyEntry hnone hempty).elim
    rw [hnone label hlabel] at hentry
    cases hentry
  · rw [hentry.hasEmptyEntry_iff, hentry.beforeEntry_eq, ← hentry.head?_byAddress_iff]
    constructor
    · intro hfirst
      exact hfirst entry (List.mem_append_right _ List.mem_cons_self) hentry.isEntry
    · intro hfirst label hlabel hname
      rw [hentry.eq_entry hlabel hname, hfirst]

theorem byAddress_eq_inOrder (h : IsPlaced base labels)
    (hbefore : HasEmptyEntry labels → beforeEntry labels = []) :
    byAddress labels = inOrder labels := by
  rcases h.cases with hnone | ⟨before, entry, after, rfl, hentry⟩
  · rw [h.byAddress_of_no_entry hnone, inOrder_of_no_entry hnone]
  · rw [hentry.hasEmptyEntry_iff, hentry.beforeEntry_eq] at hbefore
    exact hentry.byAddress_eq_inOrder hbefore

theorem head?_inOrder (h : IsPlaced base labels) (hmem : entry ∈ labels)
    (hentry : isEntry entry = true) : (inOrder labels).head? = some entry := by
  have hfilter := filter_isEntry h.names
  have hmem : entry ∈ labels.filter isEntry := List.mem_filter.mpr ⟨hmem, hentry⟩
  rw [hfilter, Option.mem_toList] at hmem
  rw [inOrder, hfilter, hmem]
  rfl

end IsPlaced

end Layout

namespace Program

variable {program : Program}

theorem isPlaced_ofSource (h : ofSource file policy source = .ok program) :
    Layout.IsPlaced Layout.defaultBase program.labels where
  names := (sound_ofSource h).namesDistinct
  sizes label hlabel := by
    rw [(sound_ofSource h).sizeOfLabel label hlabel]
    exact Int.natCast_nonneg _
  consecutive := consecutive_ofSource h

/-- The order of addresses is the order of placement, with the entry in front, unless the entry is
empty and declared behind another label. The labels still follow each other in it if those that are
declared before an empty entry are empty as well. -/
theorem layout_walks_in_order_iff (h : ofSource file policy source = .ok program) :
    (Layout.walk? Layout.defaultBase program.layout = some (Layout.defaultBase + program.size) ∧
        (∀ entry ∈ program.labels, entry.name = Layout.entryName →
          program.layout.head? = some entry) ↔
      (Layout.HasEmptyEntry program.labels → Layout.beforeEntry program.labels = [])) ∧
    (Layout.walk? Layout.defaultBase program.layout = some (Layout.defaultBase + program.size) ↔
      (Layout.HasEmptyEntry program.labels →
        ∀ label ∈ Layout.beforeEntry program.labels, label.size = 0)) ∧
    (program.layout = Layout.inOrder program.labels ↔
      (Layout.HasEmptyEntry program.labels → Layout.beforeEntry program.labels = [])) ∧
    program.layout = program.labels.filter (Layout.position · = Layout.defaultBase) ++
      program.labels.filter (Layout.position · ≠ Layout.defaultBase) := by
  have hplaced := isPlaced_ofSource h
  have hwalk : Layout.walk? Layout.defaultBase program.layout =
      some (Layout.defaultBase + program.size) ↔
        (Layout.HasEmptyEntry program.labels →
          ∀ label ∈ Layout.beforeEntry program.labels, label.size = 0) := by
    have hsize : program.size = Layout.totalSize program.layout :=
      (Layout.totalSize_perm (sorted_perm _ program.labels)).symm
    rw [Layout.walk?_eq_some_iff, hsize, and_iff_left rfl]
    exact hplaced.consecutive_byAddress_iff
  have hfirst : (∀ entry ∈ program.labels, entry.name = Layout.entryName →
      program.layout.head? = some entry) ↔
        (Layout.HasEmptyEntry program.labels → Layout.beforeEntry program.labels = []) := by
    rw [← hplaced.head?_byAddress_iff]
    simp only [Layout.isEntry, beq_iff_eq]
    rfl
  refine ⟨?_, hwalk, ⟨fun horder => ?_, hplaced.byAddress_eq_inOrder⟩, hplaced.byAddress_eq⟩
  · rw [hwalk, hfirst, and_iff_right_iff_imp]
    intro hbefore hempty label hlabel
    rw [hbefore hempty] at hlabel
    cases hlabel
  · rw [← hfirst]
    intro entry hentry hname
    rw [horder]
    exact hplaced.head?_inOrder hentry (beq_iff_eq.mpr hname)

/-- An empty entry behind a label that takes room: both stand at the base, the entry in the second
place. -/
theorem layout_of_empty_entry_declared_last :
    let program : Program :=
      { lines := [⟨1, "CLS"⟩]
        labels := [
          { name := "A", address := some 0x200, size := 2, lines := [⟨1, "CLS"⟩] },
          { name := "START", address := some 0x200, index := 2 }] }
    ofSource "f" .reject ": A\nCLS\n: START" = .ok program ∧
      program.layout.map Label.name = ["A", "START"] ∧
      ¬(Layout.walk? Layout.defaultBase program.layout =
          some (Layout.defaultBase + program.size) ∧
        (∀ entry ∈ program.labels, entry.name = Layout.entryName →
          program.layout.head? = some entry)) := by
  intro program
  have h : ofSource "f" .reject ": A\nCLS\n: START" = .ok program := by decide +kernel
  refine ⟨h, rfl, fun hwalk => ?_⟩
  have hempty : Layout.HasEmptyEntry program.labels :=
    ⟨_, List.mem_cons_of_mem _ List.mem_cons_self, rfl, rfl⟩
  cases (layout_walks_in_order_iff h).1.mp hwalk hempty

end Program

end Chip8Asm
