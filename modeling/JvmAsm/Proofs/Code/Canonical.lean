/-
Shows that code whose labels are numbered by position is in canonical form, whatever the positions
have been taken from.
-/
import JvmAsm.Proofs.Code.Labels
import JvmAsm.Proofs.Code.Renaming

namespace JvmAsm

open List UInt16

variable {pos : Nat} {label : Label}

section Repetitions

lemma eraseReps_loop (first : Nat) (rest kept : List Nat)
    (increasing : (first :: rest).Pairwise (· ≤ ·)) :
    ∃ more, eraseRepsBy.loop (fun a b => a == b) first rest kept = kept.reverse ++ more ∧
      more.Pairwise (· < ·) ∧ ∀ number, number ∈ more ↔ number ∈ first :: rest := by
  induction rest generalizing first kept with
  | nil => exact ⟨[first], by simp [eraseRepsBy.loop], by simp, by simp⟩
  | cons second rest ih =>
    rw [pairwise_cons] at increasing
    rw [eraseRepsBy.loop]
    cases same : first == second with
    | true =>
      obtain rfl := eq_of_beq same
      obtain ⟨more, equal, pairwise, mem⟩ := ih first kept increasing.2
      exact ⟨more, equal, pairwise, by simp [mem]⟩
    | false =>
      obtain ⟨more, equal, pairwise, mem⟩ := ih second (first :: kept) increasing.2
      refine ⟨first :: more, by simp [equal], ?_, by simp [mem]⟩
      refine pairwise_cons.mpr ⟨fun number member => ?_, pairwise⟩
      have le : first ≤ number := increasing.1 number ((mem number).mp member)
      have least : second ≤ number := by
        rcases mem_cons.mp ((mem number).mp member) with rfl | later
        · exact le_rfl
        · exact (pairwise_cons.mp increasing.2).1 number later
      have below : first ≤ second := increasing.1 second mem_cons_self
      have differ : first ≠ second := by simpa using same
      omega

lemma eraseReps_increasing {numbers : List Nat} (increasing : numbers.Pairwise (· ≤ ·)) :
    numbers.eraseReps.Pairwise (· < ·) ∧ ∀ number, number ∈ numbers.eraseReps ↔ number ∈ numbers := by
  cases numbers with
  | nil => exact ⟨.nil, by simp [eraseReps, eraseRepsBy]⟩
  | cons first rest =>
    obtain ⟨more, equal, pairwise, mem⟩ := eraseReps_loop first rest [] increasing
    rw [reverse_nil, nil_append] at equal
    rw [eraseReps, eraseRepsBy, equal]
    exact ⟨pairwise, mem⟩

lemma pairwise_mergeSort (numbers : List Nat) : numbers.mergeSort.Pairwise (· ≤ ·) := by
  have sorted : (numbers.mergeSort fun a b => decide (a ≤ b)).Pairwise fun a b =>
      decide (a ≤ b) = true :=
    List.pairwise_mergeSort (by simpa using fun a b c => le_trans)
      (by simpa using le_total) numbers
  simpa using sorted

/-- Numbers that are the same up to their order are sorted in the same way. -/
lemma mergeSort_of_perm {numbers others : List Nat} (perm : numbers.Perm others) :
    numbers.mergeSort = others.mergeSort :=
  Perm.eq_of_pairwise (fun _ _ _ _ => le_antisymm) (pairwise_mergeSort _)
    (pairwise_mergeSort _)
    ((mergeSort_perm _ _).trans (perm.trans (mergeSort_perm _ _).symm))

end Repetitions

namespace Code

variable {code : Code} {positions : Std.HashMap Label Nat}

section Bindings

/-- The positions of the labels that are bound are in increasing order. -/
lemma bindings_increasing (code : Code) : (code.bindings.map Prod.snd).Pairwise (· < ·) := by
  have indices : (code.instructions.zipIdx).Pairwise fun a b => a.2 < b.2 := by
    have range : (range' 0 code.instructions.length).Pairwise (· < ·) :=
      pairwise_lt_range'
    rwa [← zipIdx_map_snd 0 code.instructions, pairwise_map] at range
  rw [bindings, map_append, pairwise_append]
  refine ⟨?_, by cases code.lastLabel <;> simp, ?_⟩
  · rw [map_filterMap, pairwise_filterMap]
    refine indices.imp ?_
    simp
    omega
  · simp only [mem_map, mem_filterMap, Prod.exists, mem_zipIdx_iff_getElem?]
    rintro _ ⟨label, pos, ⟨entry, index, got, bound⟩, rfl⟩ _ ⟨last, stop, member, rfl⟩
    obtain ⟨_, _, equal⟩ := Option.map_eq_some_iff.mp bound
    obtain ⟨_, _, final⟩ := Option.map_eq_some_iff.mp (Option.mem_toList.mp member)
    obtain ⟨_, rfl⟩ := Prod.mk.inj equal
    obtain ⟨_, rfl⟩ := Prod.mk.inj final
    exact (List.getElem?_eq_some_iff.mp got).1

/-- No label is bound twice if it is bound to one position only. -/
lemma bindsOnce_of_unique (unique : ∀ label pos pos', (label, pos) ∈ code.bindings →
    (label, pos') ∈ code.bindings → pos = pos') : code.BindsOnce := by
  rw [BindsOnce, Nodup, pairwise_map]
  have increasing := code.bindings_increasing
  rw [pairwise_map] at increasing
  refine increasing.imp_of_mem fun {first second} member member' below same => ?_
  have equal := unique first.1 first.2 second.2 member (by rw [same]; exact member')
  omega

end Bindings

lemma mem_usedPositions :
    pos ∈ code.usedPositions positions ↔
      ∃ label ∈ code.references, positions[label]? = some pos := by
  rw [usedPositions, (eraseReps_increasing (pairwise_mergeSort _)).2,
    (mergeSort_perm _ _).mem_iff, mem_filterMap]

lemma usedPositions_increasing : (code.usedPositions positions).Pairwise (· < ·) :=
  (eraseReps_increasing (pairwise_mergeSort _)).1

lemma usedPositions_length : (code.usedPositions positions).length ≤ 0x10000 := by
  have found : ∀ pos ∈ code.usedPositions positions,
      ∃ id : Nat, id < 0x10000 ∧ positions[Label.mk (UInt16.ofNat id)]? = some pos := by
    intro pos member
    obtain ⟨label, _, known⟩ := mem_usedPositions.mp member
    exact ⟨label.id.toNat, UInt16.toNat_lt _, by rwa [UInt16.ofNat_toNat]⟩
  choose! id below known using found
  have distinct : ((code.usedPositions positions).map id).Nodup := by
    refine Nodup.map_on (fun first member second member' same => ?_)
      (usedPositions_increasing.imp ne_of_lt)
    have here := known first member
    rw [same, known second member'] at here
    exact (Option.some.inj here).symm
  have inside : (code.usedPositions positions).map id ⊆ range 0x10000 := by
    intro number member
    obtain ⟨pos, used, rfl⟩ := mem_map.mp member
    exact mem_range.mpr (below pos used)
  simpa using (distinct.subperm inside).length_le

/-- Positions are labelled by how many of the used ones come before. -/
lemma labelsOf_iff {used : List Nat} (increasing : used.Pairwise (· < ·)) :
    (labelsOf used)[pos]? = some label ↔
      ∃ index, used[index]? = some pos ∧ label = ⟨ofNat index⟩ := by
  have pairs : labelsOf used = insertAll ∅
      (used.zipIdx.map fun pair => (pair.1, ⟨ofNat pair.2⟩)) := by
    rw [labelsOf, insertAll, foldl_map]
  have keys : ((used.zipIdx.map fun pair => (pair.1, Label.mk (ofNat pair.2))).map
      Prod.fst).Nodup := by
    rw [map_map]
    change (used.zipIdx.map Prod.fst).Nodup
    rw [zipIdx_map_fst]
    exact increasing.imp ne_of_lt
  have member : (pos, label) ∈ (used.zipIdx.map fun pair =>
      (pair.1, Label.mk (ofNat pair.2))) ↔
        ∃ index, used[index]? = some pos ∧ label = ⟨ofNat index⟩ := by
    simp only [mem_map, Prod.exists, mem_zipIdx_iff_getElem?, Prod.mk.injEq]
    constructor
    · rintro ⟨_, index, got, rfl, rfl⟩
      exact ⟨index, got, rfl⟩
    · rintro ⟨index, got, rfl⟩
      exact ⟨pos, index, got, rfl, rfl⟩
  rw [pairs, ← member]
  constructor
  · intro found
    exact (mem_of_insertAll found).resolve_right (by simp)
  · exact insertAll_of_mem keys

/-- Two positions have different labels, as long as there are labels for all of them. -/
lemma labelsOf_injective {used : List Nat} (increasing : used.Pairwise (· < ·))
    (few : used.length ≤ 0x10000) {pos' : Nat}
    (found : (labelsOf used)[pos]? = some label)
    (found' : (labelsOf used)[pos']? = some label) : pos = pos' := by
  obtain ⟨index, got, rfl⟩ := (labelsOf_iff increasing).mp found
  obtain ⟨index', got', same⟩ := (labelsOf_iff increasing).mp found'
  have inside := (List.getElem?_eq_some_iff.mp got).1
  have inside' := (List.getElem?_eq_some_iff.mp got').1
  have equal : index = index' := by
    have ids := congrArg toNat (Label.mk.inj same)
    rwa [toNat_ofNat_of_lt' (show index < 65536 by omega),
      toNat_ofNat_of_lt' (show index' < 65536 by omega)] at ids
  rw [equal, got'] at got
  exact (Option.some.inj got).symm

lemma labelsOf_used (used : pos ∈ code.usedPositions positions) :
    ∃ label, (labelsOf (code.usedPositions positions))[pos]? = some label := by
  obtain ⟨index, got⟩ := mem_iff_getElem?.mp used
  exact ⟨_, (labelsOf_iff usedPositions_increasing).mpr ⟨index, got, rfl⟩⟩

section Numbering

/-- What a label becomes when the labels are numbered by the given positions. -/
def numbered (code : Code) (positions : Std.HashMap Label Nat) (label : Label) : Label :=
  (positions[label]?.bind fun pos =>
    (labelsOf (code.usedPositions positions))[pos]?).getD label

/-- Sorts the line numbers by their labels. -/
def sortLines (code : Code) : Code :=
  { code with lineNumbers := code.lineNumbers.mergeSort fun a b => a.1.id ≤ b.1.id }

def labelAt (code : Code) (positions : Std.HashMap Label Nat) (pos : Nat) : Option Label :=
  (labelsOf (code.usedPositions positions))[pos]?

lemma renumberedBy_eq (code : Code) (positions : Std.HashMap Label Nat) :
    code.renumberedBy positions =
      ((code.mapReferences (code.numbered positions)).bindBy (code.labelAt positions)).sortLines :=
  rfl

lemma numbered_eq (uses : label ∈ code.references) (stands : positions[label]? = some pos) :
    code.labelAt positions pos = some (code.numbered positions label) := by
  obtain ⟨found, known⟩ := labelsOf_used (mem_usedPositions.mpr ⟨label, uses, stands⟩)
  rw [labelAt, numbered, stands, Option.bind_some, known, Option.getD_some]

lemma numbered_le_iff {other : Label} {pos' : Nat} (uses : label ∈ code.references)
    (uses' : other ∈ code.references) (stands : positions[label]? = some pos)
    (stands' : positions[other]? = some pos') :
    (code.numbered positions label).id ≤ (code.numbered positions other).id ↔
      pos ≤ pos' := by
  have increasing : (code.usedPositions positions).Pairwise (· < ·) := usedPositions_increasing
  have few := @usedPositions_length code positions
  obtain ⟨index, got, same⟩ := (labelsOf_iff increasing).mp (numbered_eq uses stands)
  obtain ⟨index', got', same'⟩ := (labelsOf_iff increasing).mp (numbered_eq uses' stands')
  obtain ⟨inside, rfl⟩ := List.getElem?_eq_some_iff.mp got
  obtain ⟨inside', rfl⟩ := List.getElem?_eq_some_iff.mp got'
  rw [same, same', le_iff_toNat_le, toNat_ofNat_of_lt' (show index < 65536 by omega),
    toNat_ofNat_of_lt' (show index' < 65536 by omega)]
  exact (increasing.sortedLT.strictMono_get.le_iff_le (a := ⟨index, inside⟩)
    (b := ⟨index', inside'⟩)).symm

def standing (positions : Std.HashMap Label Nat) (label : Label) : Nat := positions[label]?.getD 0

/-- The line numbers are put in the order of the positions. -/
def sortedBy (code : Code) (pos : Label → Nat) : Code :=
  { code with lineNumbers := code.lineNumbers.mergeSort fun a b => pos a.1 ≤ pos b.1 }

/-- What is left of code without its labels. -/
def shape (code : Code) : Code := (code.mapReferences fun _ => ⟨0⟩).bindBy fun _ => none

/--
The code in which every label that is used is replaced by its position, and none is bound: what is
left without the labels, and the positions in the order in which the labels are looked at. The line
numbers are sorted by their positions, and those with the same position keep their order.
-/
def placement (code : Code) (pos : Label → Nat) : Code × List Nat :=
  ((code.sortedBy pos).shape, (code.sortedBy pos).references.map pos)

lemma line_mem_references {line : Label × UInt16} (member : line ∈ code.lineNumbers) :
    line.1 ∈ code.references := by
  simp only [references, mem_append, mem_map]
  exact .inl (.inl (.inl (.inr ⟨line, member, rfl⟩)))

section Sorting

variable {place : Label → Nat}

lemma sortedBy_perm : (code.sortedBy place).references.Perm code.references := by
  simp only [references, sortedBy]
  refine Perm.append_right _ (Perm.append_right _ (Perm.append_right _
    (Perm.append_left _ ?_)))
  exact (mergeSort_perm _ _).map _

lemma sortedBy_sortedBy : (code.sortedBy place).sortedBy place = code.sortedBy place := by
  have sorted : (code.lineNumbers.mergeSort fun a b => decide (place a.1 ≤ place b.1)).Pairwise
      fun a b => decide (place a.1 ≤ place b.1) = true :=
    List.pairwise_mergeSort (by simpa using fun a b c => le_trans)
      (by simpa using fun a (_ : UInt16) b => le_total (place a) (place b)) _
  simp only [sortedBy, List.mergeSort_of_pairwise sorted]

/-- Labels keep their places if they are renamed and bound in another way. -/
lemma placement_mapReferences (rename : Label → Label) (labels : Nat → Option Label)
    {place' : Label → Nat} (same : ∀ label ∈ code.references, place' (rename label) = place label) :
    ((code.mapReferences rename).bindBy labels).placement place' = code.placement place := by
  have sorted : ((code.mapReferences rename).bindBy labels).sortedBy place' =
      ((code.sortedBy place).mapReferences rename).bindBy labels := by
    refine congrArg (fun lineNumbers : List (Label × UInt16) =>
      { (code.mapReferences rename).bindBy labels with lineNumbers }) (map_mergeSort ?_).symm
    intro line member line' member'
    rw [same _ (line_mem_references member), same _ (line_mem_references member')]
  rw [placement, sorted, references_bindBy, references_mapReferences, map_map]
  refine Prod.ext ?_ (map_congr_left fun label uses => same label (sortedBy_perm.mem_iff.mp uses))
  rw [shape, mapReferences_bindBy, bindBy_bindBy, mapReferences_mapReferences]
  rfl

end Sorting

lemma renumberedBy_sorted (bound : code.IsBound positions) :
    code.renumberedBy positions = ((code.sortedBy (standing positions)).mapReferences
      (code.numbered positions)).bindBy (code.labelAt positions) := by
  refine congrArg (fun lineNumbers : List (Label × UInt16) =>
    { (code.mapReferences (code.numbered positions)).bindBy (code.labelAt positions) with
      lineNumbers }) (map_mergeSort fun line member line' member' => ?_).symm
  have uses := line_mem_references member
  have uses' := line_mem_references member'
  obtain ⟨pos, stands⟩ := bound _ uses
  obtain ⟨pos', stands'⟩ := bound _ uses'
  rw [standing, standing, stands, stands']
  exact decide_eq_decide.mpr (numbered_le_iff uses uses' stands stands').symm

lemma usedPositions_eq (bound : code.IsBound positions) :
    code.usedPositions positions = (code.placement (standing positions)).2.mergeSort.eraseReps := by
  have found : code.references.filterMap (fun label => positions[label]?) =
      code.references.map (standing positions) := by
    rw [← filterMap_eq_map]
    refine filterMap_congr fun label uses => ?_
    obtain ⟨pos, stands⟩ := bound label uses
    simp [standing, stands]
  rw [usedPositions, found, placement, mergeSort_of_perm (sortedBy_perm.map _)]

/-- Only where the labels stand matters, and not which labels they are. -/
lemma renumberedBy_of_placement {other : Code} {positions' : Std.HashMap Label Nat}
    (bound : code.IsBound positions) (bound' : other.IsBound positions')
    (same : code.placement (standing positions) = other.placement (standing positions')) :
    code.renumberedBy positions = other.renumberedBy positions' := by
  have labels : code.labelAt positions = other.labelAt positions' := by
    unfold labelAt
    rw [usedPositions_eq bound, usedPositions_eq bound', same]
  have names {code : Code} {positions : Std.HashMap Label Nat} (bound : code.IsBound positions) :
      (code.sortedBy (standing positions)).references.map (code.numbered positions) =
        (code.placement (standing positions)).2.map
          fun pos => (code.labelAt positions pos).getD ⟨0⟩ := by
    rw [placement, map_map]
    refine map_congr_left fun label uses => ?_
    have uses := sortedBy_perm.mem_iff.mp uses
    obtain ⟨pos, stands⟩ := bound label uses
    simp [standing, stands, numbered_eq uses stands]
  rw [renumberedBy_sorted bound, renumberedBy_sorted bound', labels]
  refine bindBy_eq_of_shape (congrArg Prod.fst same) ?_
  rw [names bound, names bound', same, labels]

lemma renumberedBy_congr {rename : Label → Label} {other : Std.HashMap Label Nat}
    {labels : Nat → Option Label}
    (bound : ∀ label ∈ code.references, ∃ pos, positions[label]? = some pos ∧
      other[rename label]? = some pos) :
    ((code.mapReferences rename).bindBy labels).renumberedBy other =
      code.renumberedBy positions := by
  refine renumberedBy_of_placement ?_ (fun label uses => (bound label uses).imp fun _ => And.left)
    (placement_mapReferences rename labels fun label uses => ?_)
  · rw [IsBound, references_bindBy, references_mapReferences, forall_mem_map]
    exact fun label uses => (bound label uses).imp fun _ => And.right
  · obtain ⟨pos, stands, stands'⟩ := bound label uses
    rw [standing, standing, stands, stands']

/-- Code whose labels are numbered by the positions that they are bound to. -/
structure IsCanonical (code : Code) : Prop where
  once : code.BindsOnce
  bound : code.IsBound code.positions
  numbered : code.renumberedBy code.positions = code

lemma IsCanonical.canonical_eq (canonical : code.IsCanonical) :
    code.canonical = .ok code := by
  rw [Code.canonical, unboundLabel?_eq_none.mpr canonical.bound]
  exact congrArg _ canonical.numbered

lemma mem_bindings_bindBy {labels : Nat → Option Label} {label : Label} {pos : Nat} :
    (label, pos) ∈ (code.bindBy labels).bindings ↔
      labels pos = some label ∧ pos ≤ code.instructions.length := by
  rw [mem_bindings]
  simp only [bindBy, getElem?_map, getElem?_zipIdx, length_map, length_zipIdx,
    Option.map_map, Option.map_eq_some_iff, zero_add]
  constructor
  · rintro (⟨_, ⟨entry, got, rfl⟩, bound⟩ | ⟨bound, rfl⟩)
    · exact ⟨bound, le_of_lt (List.getElem?_eq_some_iff.mp got).1⟩
    · exact ⟨bound, le_rfl⟩
  · rintro ⟨bound, inside⟩
    rcases lt_or_eq_of_le inside with below | rfl
    · exact .inl ⟨_, ⟨code.instructions[pos], getElem?_eq_getElem below, rfl⟩, bound⟩
    · exact .inr ⟨bound, rfl⟩

lemma mapReferences_id (code : Code) : code.mapReferences id = code := by
  have targets (instruction : Instruction) : instruction.mapTargets id = instruction := by
    cases instruction <;> simp [Instruction.mapTargets]
  have labels (target : CodeTarget) : target.mapLabels id = target := by
    cases target <;> simp [CodeTarget.mapLabels]
  cases code
  simp [mapReferences, targets, labels]

/-- Labels that are each bound to one position, where they are used, can be numbered. -/
lemma canonicalize_bindBy {rename : Label → Label} {labels : Nat → Option Label}
    (bound : ∀ label ∈ code.references, ∃ pos, positions[label]? = some pos ∧
      pos ≤ code.instructions.length ∧ labels pos = some (rename label))
    (once : ∀ {pos pos' label}, labels pos = some label → labels pos' = some label → pos = pos') :
    ((code.mapReferences rename).bindBy labels).canonicalize =
      .ok (code.renumberedBy positions) := by
  have places : ((code.mapReferences rename).bindBy labels).BindsOnce :=
    bindsOnce_of_unique fun _ _ _ member member' =>
      once (mem_bindings_bindBy.mp member).1 (mem_bindings_bindBy.mp member').1
  have stands : ∀ label ∈ code.references, ∃ pos, positions[label]? = some pos ∧
      ((code.mapReferences rename).bindBy labels).positions[rename label]? = some pos := by
    intro label uses
    obtain ⟨pos, stands, inside, labelled⟩ := bound label uses
    refine ⟨pos, stands, places.positions_iff.mpr (mem_bindings_bindBy.mpr ⟨labelled, ?_⟩)⟩
    simpa [mapReferences] using inside
  have all : ((code.mapReferences rename).bindBy labels).unboundLabel? = none := by
    rw [unboundLabel?_eq_none, IsBound, references_bindBy, references_mapReferences, forall_mem_map]
    exact fun label uses => (stands label uses).imp fun _ => And.right
  rw [canonicalize, canonical, all]
  dsimp only
  rw [if_neg (not_lt.mpr usedPositions_length), renumberedBy_congr stands]

lemma mem_bindings_renumberedBy :
    (label, pos) ∈ (code.renumberedBy positions).bindings ↔
      code.labelAt positions pos = some label ∧ pos ≤ code.instructions.length := by
  have places := @mem_bindings_bindBy (code.mapReferences (code.numbered positions))
    (code.labelAt positions) label pos
  rwa [show (code.mapReferences (code.numbered positions)).instructions.length =
    code.instructions.length from length_map _] at places

lemma renumberedBy_bindsOnce : (code.renumberedBy positions).BindsOnce :=
  bindsOnce_of_unique fun _ _ _ member member' =>
    labelsOf_injective usedPositions_increasing usedPositions_length
      (mem_bindings_renumberedBy.mp member).1 (mem_bindings_renumberedBy.mp member').1

/-- A label that has been numbered stands where it has stood before. -/
lemma positions_renumberedBy (uses : label ∈ code.references)
    (found : positions[label]? = some pos) (below : pos ≤ code.instructions.length) :
    (code.renumberedBy positions).positions[code.numbered positions label]? = some pos :=
  renumberedBy_bindsOnce.positions_iff.mpr
    (mem_bindings_renumberedBy.mpr ⟨numbered_eq uses found, below⟩)

section Inside

variable (inside : ∀ label ∈ code.references,
  ∃ pos, positions[label]? = some pos ∧ pos ≤ code.instructions.length)
include inside

lemma references_renumberedBy : (code.renumberedBy positions).references =
    (code.sortedBy (standing positions)).references.map (code.numbered positions) := by
  rw [renumberedBy_sorted fun label uses => (inside label uses).imp fun _ => And.left,
    references_bindBy, references_mapReferences]

lemma placement_renumberedBy :
    (code.renumberedBy positions).placement (code.renumberedBy positions).positionOf =
      code.placement (standing positions) := by
  have bound : code.IsBound positions := fun label uses => (inside label uses).imp fun _ => And.left
  have places := placement_mapReferences (code.numbered positions) (code.labelAt positions)
    (show ∀ label ∈ (code.sortedBy (standing positions)).references,
      (code.renumberedBy positions).positionOf (code.numbered positions label) =
        standing positions label from fun label uses => by
      have uses := sortedBy_perm.mem_iff.mp uses
      obtain ⟨pos, stands, below⟩ := inside label uses
      rw [positionOf, positions_renumberedBy uses stands below, standing, stands])
  rw [← renumberedBy_sorted bound] at places
  rw [places, placement, sortedBy_sortedBy]
  rfl

lemma renumberedBy_isCanonical : (code.renumberedBy positions).IsCanonical := by
  have bound : (code.renumberedBy positions).IsBound (code.renumberedBy positions).positions := by
    rw [IsBound, references_renumberedBy inside, forall_mem_map]
    intro label uses
    have uses := sortedBy_perm.mem_iff.mp uses
    obtain ⟨pos, found, below⟩ := inside label uses
    exact ⟨pos, positions_renumberedBy uses found below⟩
  exact ⟨renumberedBy_bindsOnce, bound, renumberedBy_of_placement bound
    (fun label uses => (inside label uses).imp fun _ => And.left) (placement_renumberedBy inside)⟩

end Inside

end Numbering

end Code

end JvmAsm
