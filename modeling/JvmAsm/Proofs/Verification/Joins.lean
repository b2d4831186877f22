/- Shows that merging is a join. -/
import JvmAsm.Proofs.Verification.FrameOrder

namespace JvmAsm

open List ClassName Option SuperClasses

variable {x : ArrayType} {first second : List VerificationType}

open Hierarchy (rootOnly rootOnly_isLawful rootOnly_below)

variable {hier : Hierarchy} {good : ObjectName → Prop}

def ClassName.IsOf (good : ObjectName → Prop) (name : ClassName) : Prop :=
  ∀ base, name.element = .object base → good base

namespace Hierarchy

/-- What has to be known of a hierarchy so that merging good classes gives the least class above. -/
structure IsJoin (hier : Hierarchy) (good : ObjectName → Prop) : Prop where
  lawful : hier.IsLawful
  root : good .root
  least : ∀ a b, good a → good b → a ≠ b → ∃ merged, good merged ∧
    hier.mergeObjects (.object a) (.object b) = .ok (.object merged) ∧
      ∀ c, hier.Below (.object a) c → hier.Below (.object b) c → hier.Below (.object merged) c
  antisymm : ∀ a b, hier.Below (.object a) (.object b) → hier.Below (.object b) (.object a) → a = b

variable {a b c : ClassName}

/-- A larger class has no more dimensions. -/
lemma Below.dimensions (below : hier.Below a b) : b.dimensions ≤ a.dimensions := by
  induction below with
  | refl => exact le_rfl
  | root => exact Nat.zero_le _
  | object => exact le_rfl
  | array left right _ ih =>
    have left := ArrayType.component_dimensions left
    have right := ArrayType.component_dimensions right
    simp only [ClassName.dimensions]
    omega

lemma Below.antisymm (join : hier.IsJoin good) (below : hier.Below a b)
    (above : hier.Below b a) : a = b := by
  induction below with
  | refl => rfl
  | root => exact above.eq_root rfl
  | object proper merged =>
    exact congrArg ClassName.object (join.antisymm _ _ (.object proper merged) above)
  | array left right _ ih =>
    cases above with
    | refl => rfl
    | array left' right' components =>
      obtain rfl := some.inj (right.symm.trans left')
      obtain rfl := some.inj (left.symm.trans right')
      obtain rfl := ih components
      exact Except.ok.inj ((arrayClass_component left).symm.trans
        (arrayClass_component right))

lemma Below.eq_root_of_mixed {name : ObjectName}
    (first : hier.Below (.array x) c) (second : hier.Below (.object name) c) :
    c = .root := by
  cases first with
  | root => rfl
  | refl | array => cases second

/-- Different arrays that are not both arrays of classes have nothing but the root above them. -/
lemma Below.eq_root_of_flat {y : ArrayType} (apart : x ≠ y)
    (flat : ∀ d e, x.component.className? = some d → y.component.className? = some e → False)
    (first : hier.Below (.array x) c) (second : hier.Below (.array y) c) : c = .root := by
  cases first with
  | root => rfl
  | refl =>
    cases second with
    | refl => exact absurd rfl apart
    | array left right => exact (flat _ _ right left).elim
  | array left right =>
    cases second with
    | refl => exact (flat _ _ left right).elim
    | array left' => exact (flat _ _ left left').elim

lemma Below.component {component : ClassName}
    (below : hier.Below (.array x) c) (left : x.component.className? = some component) :
    c = .root ∨ ∃ z d, c = .array z ∧ z.component.className? = some d ∧
      hier.Below component d := by
  cases below with
  | refl => exact .inr ⟨x, component, rfl, left, .refl _⟩
  | root => exact .inl rfl
  | array left' right components =>
    obtain rfl := some.inj (left.symm.trans left')
    exact .inr ⟨_, _, rfl, right, components⟩

lemma arrayClass_of_dimensions {name : ClassName} (small : name.dimensions < 255) :
    ∃ array, name.arrayClass = .ok array := by
  cases name with
  | object name => exact ⟨_, rfl⟩
  | array type =>
    have bounded : type.dimensions + 1 ≤ 255 := small
    simp [arrayClass, arrayOf?, fieldType, FieldType.arrayOf?, bounded]

structure IsLeast (hier : Hierarchy) (good : ObjectName → Prop) (a b merged : ClassName) :
    Prop where
  isOf : merged.IsOf good
  least : ∀ c, hier.Below a c → hier.Below b c → hier.Below merged c

lemma IsLeast.array (join : hier.IsJoin good) {y : ArrayType} {merged : ClassName}
    (left : x.component.className? = some a) (right : y.component.className? = some b)
    (made : hier.mergeClasses a b = .ok merged) (isLeast : hier.IsLeast good a b merged) :
    ∃ array, merged.arrayClass = .ok array ∧
      hier.IsLeast good (.array x) (.array y) array := by
  have fewer := (join.lawful.above made).1.dimensions
  have component := ArrayType.component_dimensions left
  have bounded := x.bounded
  obtain ⟨array, found⟩ := arrayClass_of_dimensions (show merged.dimensions < 255 by omega)
  obtain ⟨type, rfl, whole⟩ := arrayClass_ok found
  refine ⟨_, found, ?_, fun c first second => ?_⟩
  · rw [ClassName.IsOf, element, ← (ArrayType.component_parts whole).2]
    exact isLeast.isOf
  · rcases first.component left with rfl | ⟨z, d, rfl, part, components⟩
    · exact .root _
    · rcases second.component right with same | ⟨z', d', same, part', components'⟩
      · cases same
      · cases same
        obtain rfl := some.inj (part.symm.trans part')
        exact .array whole part (isLeast.least d components components')

lemma mergeClasses_least (join : hier.IsJoin good) (fine : a.IsOf good)
    (fine' : b.IsOf good) :
    ∃ merged, hier.mergeClasses a b = .ok merged ∧ hier.IsLeast good a b merged := by
  generalize depth : a.dimensions = count
  induction count using Nat.strongRecOn generalizing a b with
  | ind count ih =>
    have root (only : ∀ c, hier.Below a c → hier.Below b c → c = .root) :
        ∃ merged, (.ok .root : Except Failure ClassName) = .ok merged ∧
          hier.IsLeast good a b merged :=
      ⟨.root, rfl, fun base same => ElementType.object.inj same ▸ join.root,
        fun c first second => only c first second ▸ .refl _⟩
    rw [mergeClasses_eq]
    split_ifs with same rooted
    · exact ⟨a, rfl, fine, fun c first _ => first⟩
    · exact root fun c first second => rooted.elim first.eq_root second.eq_root
    · cases a with
      | object a =>
        cases b with
        | object b =>
          obtain ⟨merged, known, made, least⟩ := join.least a b (fine a rfl) (fine' b rfl)
            (same ∘ congrArg object)
          exact ⟨_, made, fun _ same => ElementType.object.inj same ▸ known, least⟩
        | array y => exact root fun c first second => second.eq_root_of_mixed first
      | array x =>
        cases b with
        | object b => exact root fun c first second => first.eq_root_of_mixed second
        | array y =>
          have apart : x ≠ y := same ∘ congrArg array
          dsimp only
          split
          · next component component' left right =>
            have parts := ArrayType.component_parts left
            have parts' := ArrayType.component_parts right
            obtain ⟨merged, made, isLeast⟩ := ih component.dimensions
              (by rw [← depth, dimensions]; omega)
              (fun base same => fine base (parts.2.symm.trans same))
              (fun base same => fine' base (parts'.2.symm.trans same)) rfl
            obtain ⟨array, found, isLeast⟩ := isLeast.array join left right made
            exact ⟨array, ok_bind_iff.mpr ⟨merged, made, found⟩, isLeast⟩
          · next none =>
            exact root fun c first second => first.eq_root_of_flat apart none second

lemma rootOnly_isJoin : rootOnly.IsJoin fun _ => True where
  lawful := rootOnly_isLawful
  root := trivial
  least a b _ _ apart := by
    refine ⟨.root, trivial, rfl, fun c first second => ?_⟩
    rcases rootOnly_below first with rfl | rfl | ⟨_, _, _, _, same, _⟩
    · rcases rootOnly_below second with same | same | ⟨_, _, _, _, same, _⟩
      · exact absurd (object.inj same).symm apart
      · rw [same]
        exact .refl _
      · cases same
    · exact .refl _
    · cases same
  antisymm a b below above := by
    rcases rootOnly_below below with same | rooted | ⟨_, _, _, _, same, _⟩
    · exact object.inj same
    · rw [rooted] at above
      exact object.inj ((above.eq_root rfl).trans rooted.symm)
    · cases same

end Hierarchy

namespace SuperClasses

variable {known : SuperClasses}

/-- The super classes of the class end with the root. -/
def IsRooted (known : SuperClasses) (name : ObjectName) : Prop :=
  Relation.ReflTransGen known.Extends (.object name) .root

/-- The first common super class that is found is below all others. -/
lemma common_least {a b merged above : ClassName}
    (found : known.common a b = some merged)
    (first : Relation.ReflTransGen known.Extends a above)
    (second : Relation.ReflTransGen known.Extends b above) :
    Relation.ReflTransGen known.Extends merged above := by
  obtain ⟨_, before, after, parts, others⟩ := find?_eq_some_iff_append.mp found
  have ordered := known.chain_pairwise b
  rw [parts, pairwise_append, pairwise_cons] at ordered
  have mem := mem_chain_iff.mpr second
  rw [parts, mem_append, mem_cons] at mem
  rcases mem with earlier | rfl | later
  · have missed := others above earlier
    rw [Bool.not_eq_true', ← Bool.not_eq_true, contains_iff_mem] at missed
    exact absurd (mem_chain_iff.mpr first) missed
  · exact .refl
  · exact (ordered.2.1.1 above later).to_reflTransGen

lemma IsTree.isJoin (tree : known.IsTree) : known.hierarchy.IsJoin known.IsRooted where
  lawful := tree.isLawful
  root := .refl
  least a b rooted rooted' _ := by
    obtain ⟨merged, found⟩ : ∃ merged, known.common (.object a) (.object b) = some merged := by
      rw [← isSome_iff_exists, common, find?_isSome]
      exact ⟨.root, mem_chain_iff.mpr rooted', contains_iff_mem.mpr (mem_chain_iff.mpr rooted)⟩
    have made := mergeObjects_ok.mpr found
    have above := (tree.isLawful.joins a b merged made).1
    cases merged with
    | array type => cases above
    | object name =>
      refine ⟨name, common_least found rooted rooted', made, fun c first second => ?_⟩
      cases c with
      | array type => cases first
      | object c =>
        rw [below_iff tree] at first second ⊢
        rcases first with same | first
        · exact .inl same
        · exact second.imp id (common_least found first)
  antisymm a b below above := by
    rcases (below_iff tree).mp below with rfl | down
    · exact object.inj (above.eq_root rfl)
    · rcases (below_iff tree).mp above with rfl | up
      · exact (object.inj (below.eq_root rfl)).symm
      · rcases Relation.reflTransGen_iff_eq_or_transGen.mp down with same | down
        · exact (object.inj same).symm
        · exact absurd (down.trans_left up) (tree.acyclic _)

end SuperClasses

namespace VerificationType

variable {a b c : VerificationType}

def IsOf (good : ObjectName → Prop) (type : VerificationType) : Prop :=
  ∀ name, type = .object name → name.IsOf good

lemma Fits.antisymm (join : hier.IsJoin good) (fits : Fits hier a b)
    (fits' : Fits hier b a) : a = b := by
  cases fits with
  | refl => rfl
  | null => cases fits'
  | object below =>
    cases fits' with
    | refl => rfl
    | object above => rw [below.antisymm join above]

lemma FitsLocal.antisymm (join : hier.IsJoin good) (fits : FitsLocal hier a b)
    (fits' : FitsLocal hier b a) : a = b := by
  rcases fits with rfl | fits
  · rcases fits' with rfl | fits'
    · rfl
    · cases fits'
      rfl
  · rcases fits' with rfl | fits'
    · cases fits
      rfl
    · exact fits.antisymm join fits'

lemma mergeOperand_least (join : hier.IsJoin good) (fine : a.IsOf good) (fine' : b.IsOf good)
    (first : Fits hier a c) (second : Fits hier b c) :
    ∃ merged, mergeOperand hier a b = .ok merged ∧ merged.IsOf good ∧
      Fits hier merged c := by
  rcases objects_or_kinds a b with ⟨x, y, rfl, rfl⟩ | other
  · obtain ⟨name, made, isOf, least⟩ :=
      Hierarchy.mergeClasses_least join (fine x rfl) (fine' y rfl)
    refine ⟨.object name, mergeOperand_objects.mpr ⟨name, made, rfl⟩, ?_, ?_⟩
    · rintro _ ⟨⟩
      exact isOf
    · have below {z : ClassName} (fits : Fits hier (.object z) c) :
          ∃ w, c = .object w ∧ hier.Below z w := by
        cases fits with
        | refl => exact ⟨z, rfl, .refl z⟩
        | object below => exact ⟨_, rfl, below⟩
      obtain ⟨w, rfl, larger⟩ := below first
      obtain ⟨_, same, larger'⟩ := below second
      cases same
      exact .object (least w larger larger')
  · rw [mergeOperand_kinds other]
    cases first with
    | refl =>
      rw [mergeKinds?_absorbed second other]
      exact ⟨a, rfl, fine, .refl a⟩
    | null name =>
      cases second with
      | refl => exact ⟨.object name, rfl, fine', .refl _⟩
      | null => exact ⟨.null, rfl, fine, .null name⟩
      | object below => exact ⟨_, rfl, fine', .object below⟩
    | object below =>
      cases second with
      | null => exact ⟨_, rfl, fine, .object below⟩
      | refl | object => exact absurd ⟨rfl, rfl⟩ (other _ _)

lemma mergeKinds?_eq {merged : VerificationType} (found : mergeKinds? a b = some merged) :
    merged = a ∨ merged = b := by
  unfold mergeKinds? at found
  split at found
  · exact .inl (some.inj found).symm
  · split at found
    · exact .inr (some.inj found).symm
    · exact .inl (some.inj found).symm
    · cases found

lemma mergeLocal_least (join : hier.IsJoin good) (fine : a.IsOf good)
    (fine' : b.IsOf good) :
    ∃ merged, mergeLocal hier a b = .ok merged ∧ merged.IsOf good ∧
      ∀ c, FitsLocal hier a c → FitsLocal hier b c → FitsLocal hier merged c := by
  have least {merged : VerificationType} (made : mergeLocal hier a b = .ok merged)
      (c : VerificationType) (first : FitsLocal hier a c) (second : FitsLocal hier b c) :
      FitsLocal hier merged c := by
    rcases first with unused | first
    · exact .inl unused
    · rcases second with unused | second
      · exact .inl unused
      · obtain ⟨merged', made', _, fits⟩ := mergeOperand_least join fine fine' first second
        obtain rfl := Except.ok.inj (made.symm.trans (mergeLocal_of_operand made'))
        exact .inr fits
  rcases objects_or_kinds a b with ⟨x, y, rfl, rfl⟩ | other
  · obtain ⟨name, made, isOf, _⟩ := Hierarchy.mergeClasses_least join (fine x rfl) (fine' y rfl)
    have made := mergeLocal_objects.mpr ⟨name, made, rfl⟩
    refine ⟨_, made, ?_, least made⟩
    rintro _ ⟨⟩
    exact isOf
  · have made := @mergeLocal_kinds hier _ _ other
    refine ⟨_, made, ?_, least made⟩
    cases found : mergeKinds? a b with
    | none => rintro _ ⟨⟩
    | some merged =>
      rcases mergeKinds?_eq found with rfl | rfl
      · exact fine
      · exact fine'

end VerificationType

namespace Frame

open VerificationType

structure IsOf (good : ObjectName → Prop) (frame : Frame) : Prop where
  locals : ∀ index, (localAt frame.locals index).IsOf good
  stack : ∀ type ∈ frame.stack, type.IsOf good

lemma IsOf.any (frame : Frame) : frame.IsOf fun _ => True :=
  ⟨fun _ _ _ _ _ => trivial, fun _ _ _ _ _ _ => trivial⟩

lemma Below.antisymm (join : hier.IsJoin good) {lower upper : Frame}
    (below : Below hier lower upper) (above : Below hier upper lower)
    (canonical : lower.IsCanonical) (canonical' : upper.IsCanonical) : lower = upper := by
  have locals := locals_ext canonical.paired canonical.trimmed canonical'.paired canonical'.trimmed
    fun index => (below.locals index).antisymm join (above.locals index)
  have stack : lower.stack = upper.stack := by
    obtain ⟨size, each⟩ := forall₂_iff_get.mp below.stack
    obtain ⟨_, each'⟩ := forall₂_iff_get.mp above.stack
    exact ext_getElem size fun index inside inside' =>
      (each index inside inside').antisymm join (each' index inside' inside)
  cases lower
  cases upper
  exact Frame.mk.injEq .. ▸ ⟨locals, stack⟩

lemma mergeStacks_least (join : hier.IsJoin good) {upper : List VerificationType}
    (fine : ∀ type ∈ first, type.IsOf good) (fine' : ∀ type ∈ second, type.IsOf good)
    (below : Forall₂ (Fits hier) first upper)
    (below' : Forall₂ (Fits hier) second upper) :
    ∃ merged, mergeStacks hier first second = .ok merged ∧
      (∀ type ∈ merged, type.IsOf good) ∧ Forall₂ (Fits hier) merged upper := by
  obtain ⟨merged, each, isOf, fits⟩ : ∃ merged, Forall₂ (fun pair type =>
      mergeOperand hier pair.1 pair.2 = .ok type) (first.zip second) merged ∧
      (∀ type ∈ merged, type.IsOf good) ∧ Forall₂ (Fits hier) merged upper := by
    induction below generalizing second with
    | nil =>
      cases below'
      exact ⟨[], .nil, by simp, .nil⟩
    | cons fits _ ih =>
      cases below' with
      | cons fits' rest =>
        rw [forall_mem_cons] at fine fine'
        obtain ⟨type, made, isOf, least⟩ := mergeOperand_least join fine.1 fine'.1 fits fits'
        obtain ⟨merged, each, isOf', leasts⟩ := ih fine.2 fine'.2 rest
        exact ⟨type :: merged, .cons made each, forall_mem_cons.mpr ⟨isOf, isOf'⟩,
          .cons least leasts⟩
  refine ⟨merged, ok_bind_iff.mpr ⟨merged.reverse, ?_, ?_⟩, isOf, fits⟩
  · exact ok_mapM_iff.mpr (forall₂_reverse_iff.mpr each)
  · rw [reverse_reverse]
    rfl

lemma mergeLocals_least (join : hier.IsJoin good)
    (fine : ∀ index, (localAt first index).IsOf good)
    (fine' : ∀ index, (localAt second index).IsOf good) :
    ∃ merged, mergeLocals hier first second = .ok merged ∧
      ∀ index, (localAt merged index).IsOf good ∧ ∀ c, FitsLocal hier (localAt first index) c →
        FitsLocal hier (localAt second index) c →
          FitsLocal hier (localAt merged index) c := by
  choose merged made known using fun index => mergeLocal_least join (fine index) (fine' index)
  have whole (index : Nat) :
      localAt ((range (max first.length second.length)).map merged) index = merged index := by
    by_cases inside : index < max first.length second.length
    · simp [localAt, inside]
    · have made := made index
      rw [localAt_of_length_le (by omega), mergeLocal_top] at made
      rw [localAt_of_length_le (by simpa using inside)]
      exact Except.ok.inj made
  refine ⟨_, mergeLocals_ok.mpr ⟨?_, fun index => (whole index).symm ▸ made index⟩,
    fun index => (whole index).symm ▸ known index⟩
  rw [length_map, length_range]

/-- Wide values that are merged keep their second halves. -/
lemma mergeLocals_paired {hier : Hierarchy} {merged : List VerificationType}
    (paired : IsPaired first) (paired' : IsPaired second)
    (made : mergeLocals hier first second = .ok merged) : IsPaired merged := by
  obtain ⟨size, each⟩ := mergeLocals_ok.mp made
  refine isPaired_iff.mpr fun index wide => ?_
  have used : localAt merged index ≠ .top := by
    intro unused
    rw [unused] at wide
    cases wide
  have operands := (mergeLocal_ok (each index)).resolve_left used
  have exactly := (mergeOperand_cases operands).resolve_left (by
    rintro ⟨_, _, _, _, _, same, _⟩
    rw [same] at wide
    cases wide)
  have plain : (localAt merged index).isReference = false := by
    revert wide
    cases localAt merged index <;> simp [VerificationType.isWide, VerificationType.isReference]
  obtain ⟨fits, fits'⟩ : Fits hier (localAt first index) (localAt merged index) ∧
      Fits hier (localAt second index) (localAt merged index) := mergeKinds?_fits exactly
  rw [← fits.eq_of_not_reference plain] at wide
  obtain ⟨inside, next⟩ := isPaired_iff.mp paired index wide
  rw [fits.eq_of_not_reference plain, ← fits'.eq_of_not_reference plain] at wide
  obtain ⟨inside', next'⟩ := isPaired_iff.mp paired' index wide
  have after := each (index + 1)
  rw [next, next', mergeLocal_top] at after
  exact ⟨by omega, (Except.ok.inj after).symm⟩

lemma merge_least (join : hier.IsJoin good) {first second upper : Frame}
    (paired : IsPaired first.locals) (paired' : IsPaired second.locals) (fine : first.IsOf good)
    (fine' : second.IsOf good) (below : Below hier first upper)
    (below' : Below hier second upper) :
    ∃ merged, merge hier first second = .ok merged ∧ merged.IsOf good ∧
      Below hier merged upper := by
  obtain ⟨stack, made, operands, fits⟩ :=
    mergeStacks_least join fine.stack fine'.stack below.stack below'.stack
  obtain ⟨locals, found, least⟩ := mergeLocals_least join fine.locals fine'.locals
  have whole := (mergeLocals_paired paired paired' found).dropHalves_eq
  refine ⟨trim ⟨dropHalves locals, stack⟩, merge_ok.mpr ⟨?_, stack, locals, made, found, rfl⟩,
    ⟨fun index => ?_, operands⟩, ?_⟩
  · exact below.stack.length_eq.trans below'.stack.length_eq.symm
  · rw [whole, trim, localAt_trimLocals]
    exact (least index).1
  · rw [whole]
    exact below_trim.mpr
      ⟨fun index => (least index).2 _ (below.locals index) (below'.locals index), fits⟩

/-- The frame is one that can be found for an instruction, and all its classes are good. -/
structure IsSound (good : ObjectName → Prop) (frame : Frame) : Prop extends
  IsCanonical frame, IsOf good frame

structure IsJoinOf (hier : Hierarchy) (good : ObjectName → Prop) (frames : List Frame)
    (result : Except Failure Frame) : Prop where
  above : ∀ joined, result = .ok joined → joined.IsSound good ∧
    ∀ frame ∈ frames, Below hier frame joined
  least : ∀ upper, (∀ frame ∈ frames, Below hier frame upper) →
    ∃ joined, result = .ok joined ∧ Below hier joined upper

namespace IsJoinOf

variable {frames frames' : List Frame} {result result' : Except Failure Frame}

lemma single {frame : Frame} (sound : frame.IsSound good) :
    IsJoinOf hier good [frame] (.ok frame) where
  above joined same := by
    cases same
    exact ⟨sound, forall_mem_singleton.mpr (.refl _)⟩
  least upper above := ⟨frame, rfl, above frame mem_cons_self⟩

lemma merge (join : hier.IsJoin good) (first : IsJoinOf hier good frames result)
    (second : IsJoinOf hier good frames' result') :
    IsJoinOf hier good (frames ++ frames')
      (do Frame.merge hier (← result) (← result')) where
  above joined made := by
    obtain ⟨left, found, made⟩ := ok_parts made
    obtain ⟨right, found', made⟩ := ok_parts made
    obtain ⟨sound, larger⟩ := first.above left found
    obtain ⟨sound', larger'⟩ := second.above right found'
    obtain ⟨above, above'⟩ := merge_above join.lawful made
    obtain ⟨merged, made', isOf, _⟩ := merge_least join sound.paired sound'.paired sound.toIsOf
      sound'.toIsOf above above'
    obtain rfl := Except.ok.inj (made.symm.trans made')
    refine ⟨⟨merge_isCanonical made, isOf⟩, forall_mem_append.mpr ⟨?_, ?_⟩⟩
    · exact fun frame mem => (larger frame mem).trans join.lawful above
    · exact fun frame mem => (larger' frame mem).trans join.lawful above'
  least upper above := by
    rw [forall_mem_append] at above
    obtain ⟨left, found, below⟩ := first.least upper above.1
    obtain ⟨right, found', below'⟩ := second.least upper above.2
    have sound := (first.above left found).1
    have sound' := (second.above right found').1
    obtain ⟨merged, made, _, least⟩ := merge_least join sound.paired sound'.paired sound.toIsOf
      sound'.toIsOf below below'
    exact ⟨merged, ok_bind_iff.mpr ⟨left, found, ok_bind_iff.mpr ⟨right, found', made⟩⟩, least⟩

lemma unique (join : hier.IsJoin good) (first : IsJoinOf hier good frames result)
    (second : IsJoinOf hier good frames' result')
    (same : ∀ frame, frame ∈ frames ↔ frame ∈ frames') : result.toOption = result'.toOption := by
  have joined {frame : Frame} (found : result = .ok frame) : result' = .ok frame := by
    obtain ⟨sound, above⟩ := first.above frame found
    obtain ⟨other, found', below⟩ :=
      second.least frame fun frame mem => above frame ((same frame).mpr mem)
    obtain ⟨sound', above'⟩ := second.above other found'
    obtain ⟨again, found'', below'⟩ :=
      first.least other fun frame mem => above' frame ((same frame).mp mem)
    obtain rfl := Except.ok.inj (found.symm.trans found'')
    rw [found', below.antisymm join below' sound'.toIsCanonical sound.toIsCanonical]
  cases found : result with
  | ok frame => rw [joined found]
  | error failure =>
    cases found' : result' with
    | error failure' => rfl
    | ok frame =>
      obtain ⟨_, above⟩ := second.above frame found'
      obtain ⟨other, impossible, _⟩ :=
        first.least frame fun frame mem => above frame ((same frame).mp mem)
      rw [found] at impossible
      cases impossible

end IsJoinOf

/-- Merging is a join on the frames with good classes, where failures count as one result. -/
structure MergesAsJoin (hier : Hierarchy) (good : ObjectName → Prop) : Prop where
  closed : ∀ first second merged, IsSound good first → IsSound good second →
    merge hier first second = .ok merged → IsSound good merged
  idempotent : ∀ frame, IsSound good frame → merge hier frame frame = .ok frame
  commutative : ∀ first second, IsSound good first → IsSound good second →
    (merge hier first second).toOption = (merge hier second first).toOption
  associative : ∀ first second third, IsSound good first → IsSound good second →
    IsSound good third → (do merge hier (← merge hier first second) third).toOption =
        (do merge hier first (← merge hier second third)).toOption

lemma mergesAsJoin_of_isJoin (join : hier.IsJoin good) : MergesAsJoin hier good where
  closed _ _ merged sound sound' made :=
    (((IsJoinOf.single sound).merge join (.single sound')).above merged made).1
  idempotent frame sound := (Below.refl frame).absorbed sound.toIsCanonical
  commutative _ _ sound sound' :=
    ((IsJoinOf.single sound).merge join (.single sound')).unique join
      ((IsJoinOf.single sound').merge join (.single sound)) (by simp [or_comm])
  associative _ _ _ sound sound' sound'' :=
    (((IsJoinOf.single sound).merge join (.single sound')).merge join (.single sound'')).unique join
      ((IsJoinOf.single sound).merge join ((IsJoinOf.single sound').merge join (.single sound'')))
      (by simp)

/--
Merging is a join where the root is taken for the common super class of any two classes, and where
super classes form a tree, for the classes that are below its root.
-/
theorem merge_isJoin {known : SuperClasses} (tree : known.IsTree) :
    MergesAsJoin rootOnly (fun _ => True) ∧ MergesAsJoin known.hierarchy known.IsRooted :=
  ⟨mergesAsJoin_of_isJoin Hierarchy.rootOnly_isJoin, mergesAsJoin_of_isJoin tree.isJoin⟩

end Frame

namespace SuperClasses

/-- Two classes right below the root. -/
def siblings : SuperClasses :=
  (insert {} (.object .string) .root).insert (.object .throwable) .root

lemma siblings_extends {name super : ClassName} :
    siblings.Extends name super ↔
      (name = .object .string ∨ name = .object .throwable) ∧ super = .root := by
  rw [Extends, siblings, insert, insert, Std.HashMap.getElem?_insert, Std.HashMap.getElem?_insert]
  constructor
  · intro found
    split_ifs at found with last first
    · exact ⟨.inr (eq_of_beq last).symm, (some.inj found).symm⟩
    · exact ⟨.inl (eq_of_beq first).symm, (some.inj found).symm⟩
    · simp at found
  · rintro ⟨rfl | rfl, rfl⟩
    · rw [if_neg (by decide), if_pos (beq_self_eq_true _)]
    · rw [if_pos (beq_self_eq_true _)]

lemma siblings_isTree : siblings.IsTree := by
  have rooted (super : ClassName) : ¬siblings.Extends .root super := by
    rw [siblings_extends]
    rintro ⟨same | same, _⟩ <;> exact absurd same (by decide)
  refine ⟨fun name circle => ?_, fun name super found => ?_, rooted⟩
  · obtain ⟨super, found, back⟩ := Relation.TransGen.head'_iff.mp circle
    obtain ⟨_, rfl⟩ := siblings_extends.mp found
    rcases back.cases_head with rfl | ⟨_, found, _⟩
    · exact rooted _ found
    · exact rooted _ found
  · obtain ⟨rfl | rfl, rfl⟩ := siblings_extends.mp found <;> exact ⟨rfl, rfl⟩

lemma siblings_isSound {name : ObjectName} (below : name = .string ∨ name = .throwable) :
    Frame.IsSound siblings.IsRooted ⟨[.long, .top], [.ofClass name]⟩ where
  paired
    | 0, _, _, _ => rfl
    | 1, _, rfl, wide => nomatch wide
  trimmed := rfl
  locals
    | 0, _, same | 1, _, same | _ + 2, _, same => nomatch same
  stack := by
    intro type mem other same base equal
    obtain rfl := mem_singleton.mp mem
    cases same
    cases equal
    exact .single (siblings_extends.mpr ⟨below.imp (congrArg _) (congrArg _), rfl⟩)

end SuperClasses

/-- Two classes that are on the stack are merged, beside a local variable that takes two slots. -/
theorem Frame.merge_isJoin_siblings :
    (merge SuperClasses.siblings.hierarchy ⟨[.long, .top], [.ofClass .string]⟩
      ⟨[.long, .top], [.ofClass .throwable]⟩).toOption =
    (merge SuperClasses.siblings.hierarchy ⟨[.long, .top], [.ofClass .throwable]⟩
      ⟨[.long, .top], [.ofClass .string]⟩).toOption :=
  (merge_isJoin siblings_isTree).2.commutative _ _
    (siblings_isSound (.inl rfl)) (siblings_isSound (.inr rfl))

end JvmAsm
