/- Follows the super classes of classes where a class may be above itself. -/
import JvmAsm.Proofs.Verification.Ranks

namespace JvmAsm

open List ClassName

namespace SuperClasses

variable {known : SuperClasses} {name last : ClassName} {before : List ClassName} {fuel depth : Nat}

lemma chainFrom_nodup (distinct : (last :: before).Nodup) :
    (known.chainFrom last before fuel).Nodup := by
  induction fuel generalizing last before with
  | zero => exact nodup_reverse.mpr distinct
  | succ fuel ih =>
    unfold chainFrom
    split
    · exact nodup_reverse.mpr distinct
    · split
      · exact nodup_reverse.mpr distinct
      · next fresh => exact ih (nodup_cons.mpr ⟨fresh, distinct⟩)

lemma chainFrom_length (known : SuperClasses) (last : ClassName) (before : List ClassName)
    (fuel : Nat) : (known.chainFrom last before fuel).length ≤ before.length + 1 + fuel := by
  induction fuel generalizing last before with
  | zero => simp [chainFrom]
  | succ fuel ih =>
    unfold chainFrom
    split
    · simp only [length_reverse, length_cons]
      omega
    · split
      · simp only [length_reverse, length_cons]
        omega
      · next super _ _ =>
        have := ih super (last :: before)
        rw [length_cons] at this
        omega

lemma chainFrom_prefix (known : SuperClasses) (last : ClassName) (before : List ClassName)
    (fuel : Nat) : ∃ rest, known.chainFrom last before fuel = (last :: before).reverse ++ rest := by
  induction fuel generalizing last before with
  | zero => exact ⟨[], by simp [chainFrom]⟩
  | succ fuel ih =>
    unfold chainFrom
    split
    · exact ⟨[], by simp⟩
    · next super _ =>
      split
      · exact ⟨[], by simp⟩
      · obtain ⟨rest, same⟩ := ih super (last :: before)
        exact ⟨super :: rest, by rw [same]; simp⟩

lemma chain_nodup (known : SuperClasses) (name : ClassName) : (known.chain name).Nodup :=
  chainFrom_nodup (nodup_singleton name)

lemma chain_length (known : SuperClasses) (name : ClassName) :
    (known.chain name).length ≤ known.table.size + 1 := by
  have bound := known.chainFrom_length name [] known.table.size
  rw [length_nil] at bound
  unfold chain
  omega

/-- A class that is above another one is their common super class if it is merged into that one. -/
lemma common_of_above {above : ClassName}
    (reaches : Relation.ReflTransGen known.Extends name above) :
    known.common name above = some above := by
  obtain ⟨rest, parts⟩ := chainFrom_prefix known above [] known.table.size
  have first : known.chain above = above :: rest := parts
  rw [common, first, find?_cons_of_pos]
  exact contains_iff_mem.mpr (mem_chain_iff.mpr reaches)

/-- No two different classes are above each other, unless one of them is the root or an array. -/
def IsLoopFree (known : SuperClasses) : Prop :=
  ∀ a b : ObjectName, a ≠ .root → b ≠ .root →
    Relation.ReflTransGen known.Extends (.object a) (.object b) →
      Relation.ReflTransGen known.Extends (.object b) (.object a) → a = b

/-- The number of classes above a class. -/
def heightOf (known : SuperClasses) (name : ClassName) : Nat := (known.chain name).length - 1

lemma heightOf_le (known : SuperClasses) (name : ClassName) :
    known.heightOf name ≤ known.table.size := by
  have := known.chain_length name
  unfold heightOf
  omega

lemma heightOf_pos {above : ClassName} (reaches : Relation.ReflTransGen known.Extends name above)
    (other : name ≠ above) : 0 < known.heightOf name := by
  have both : [name, above] ⊆ known.chain name := by
    intro found mem
    rcases mem_pair.mp mem with rfl | rfl
    · exact mem_chain_iff.mpr .refl
    · exact mem_chain_iff.mpr reaches
  have bound := (subperm_of_subset (by simpa using other) both).length_le
  rw [length_cons, length_singleton] at bound
  unfold heightOf
  omega

/-- There are fewer classes above a class that is above another one. -/
lemma IsLoopFree.heightOf_lt (free : known.IsLoopFree) {a b : ObjectName} (proper : a ≠ .root)
    (proper' : b ≠ .root) (other : a ≠ b)
    (reaches : Relation.ReflTransGen known.Extends (.object a) (.object b)) :
    known.heightOf (.object b) < known.heightOf (.object a) := by
  have apart : object a ∉ known.chain (.object b) := fun back =>
    other (free a b proper proper' reaches (mem_chain_iff.mp back))
  have inside : object a :: known.chain (.object b) ⊆ known.chain (.object a) := by
    intro name mem
    rcases mem_cons.mp mem with rfl | later
    · exact mem_chain_iff.mpr .refl
    · exact mem_chain_iff.mpr (reaches.trans (mem_chain_iff.mp later))
  have bound := (subperm_of_subset (nodup_cons.mpr ⟨apart, known.chain_nodup _⟩)
    inside).length_le
  have some : known.chain (.object b) ≠ [] := ne_nil_of_mem (mem_chain_iff.mpr .refl)
  have := length_pos_iff.mpr some
  rw [length_cons] at bound
  unfold heightOf
  omega

/--
How many times arrays of an element can be merged with others. Such an array can become one of more
dimensions, because an array may be above a class, and arrays of the root only lose dimensions.
-/
def elementRank (known : SuperClasses) (dimensions : Nat) : ElementType → Nat
  | .primitive _ => 256
  | .object name =>
    if name = .root then dimensions
    else 256 + (255 - dimensions) * known.table.size + known.heightOf (.object name)

/-- How many times arrays of a class with so many more dimensions can be merged with others. -/
def rankWithin (known : SuperClasses) (depth : Nat) : ClassName → Nat
  | .object name => known.elementRank depth (.object name)
  | .array type => known.elementRank (depth + type.dimensions) type.element

lemma rankWithin_eq (depth : Nat) (name : ClassName) :
    known.rankWithin depth name = known.elementRank (depth + name.dimensions) name.element := by
  cases name <;> rfl

lemma rankWithin_component {type : ArrayType} {component : ClassName}
    (found : type.component.className? = some component) (depth : Nat) :
    known.rankWithin depth (.array type) = known.rankWithin (depth + 1) component := by
  obtain ⟨fewer, same⟩ := ArrayType.component_parts found
  rw [rankWithin_eq _ component, same, rankWithin]
  congr 1
  omega

/-- Every class but the root has a larger rank than the root. -/
lemma rankWithin_root (shallow : depth ≤ 255) (proper : name ≠ .root) :
    known.rankWithin depth .root < known.rankWithin depth name := by
  have root : known.rankWithin depth .root = depth := by
    simp [rankWithin, root, elementRank]
  rw [root]
  cases name with
  | object name =>
    have other : name ≠ .root := fun same => proper (congrArg object same)
    simp only [rankWithin, elementRank, if_neg other]
    omega
  | array type =>
    have := type.positive
    simp only [rankWithin]
    unfold elementRank
    split
    · omega
    · split <;> omega

/-- The common super class of a class with another one has a smaller rank. -/
lemma IsLoopFree.rankWithin_common (free : known.IsLoopFree) {a : ObjectName}
    {b merged : ClassName} (proper : a ≠ .root) (found : known.common (.object a) b = some merged)
    (shallow : depth + merged.dimensions ≤ 255) :
    object a = merged ∨
      known.rankWithin depth merged < known.rankWithin depth (.object a) := by
  by_cases same : object a = merged
  · exact .inl same
  · right
    have reaches := reaches_of_common found
    have positive := heightOf_pos reaches same
    simp only [rankWithin]
    rw [elementRank, if_neg proper]
    cases merged with
    | object name =>
      by_cases rooted : name = .root
      · simp only [elementRank, if_pos rooted]
        simp only [dimensions] at shallow
        omega
      · have less := free.heightOf_lt proper rooted
          (fun equal => same (congrArg object equal)) reaches
        simp only [elementRank, if_neg rooted]
        omega
    | array type =>
      have dimensions := type.positive
      simp only [ClassName.dimensions] at shallow
      -- What follows the dimensions is made up for by one dimension.
      have more : (255 - (depth + type.dimensions)) * known.table.size + known.table.size ≤
          (255 - depth) * known.table.size := by
        rw [← Nat.succ_mul]
        exact Nat.mul_le_mul_right _ (by omega)
      dsimp only
      unfold elementRank
      split
      · omega
      · next name _ =>
        have := known.heightOf_le (.object name)
        split <;> omega

/-- A class that is merged with another one stays as it is or gets a smaller rank. -/
lemma rankWithin_merged {hier : Hierarchy}
    (objects : ∀ {a : ObjectName} {b merged : ClassName} {depth : Nat}, a ≠ .root →
      hier.mergeObjects (.object a) b = .ok merged → depth + merged.dimensions ≤ 255 →
        object a = merged ∨ known.rankWithin depth merged < known.rankWithin depth (.object a))
    {a b merged : ClassName} (made : hier.mergeClasses a b = .ok merged)
    (shallow : depth + merged.dimensions ≤ 255) :
    a = merged ∨ known.rankWithin depth merged < known.rankWithin depth a := by
  generalize size : a.dimensions = count
  induction count using Nat.strongRecOn generalizing a b merged depth with
  | ind count ih =>
    have rooted (result : (.ok .root : Except Failure ClassName) = .ok merged) :
        a = merged ∨ known.rankWithin depth merged < known.rankWithin depth a := by
      cases result
      by_cases same : a = .root
      · exact .inl same
      · exact .inr (rankWithin_root (by omega) same)
    rw [Hierarchy.mergeClasses_eq] at made
    split at made
    · exact .inl (Except.ok.inj made)
    · split at made
      · exact rooted made
      · next proper =>
        rw [not_or] at proper
        split at made
        · next x y =>
          split at made
          · next component component' left right =>
            obtain ⟨joined, found, made⟩ := ok_parts made
            obtain ⟨type, rfl, whole⟩ := arrayClass_ok made
            have fewer := ArrayType.component_dimensions left
            have joinedFewer := ArrayType.component_dimensions whole
            rw [rankWithin_component left, rankWithin_component whole]
            simp only [dimensions] at size shallow
            have inside : depth + 1 + joined.dimensions ≤ 255 := by omega
            rcases ih component.dimensions (by omega) found inside rfl with rfl | smaller
            · exact .inl (Except.ok.inj ((arrayClass_component left).symm.trans made))
            · exact .inr smaller
          · exact rooted made
        · exact objects (fun same => proper.1 (congrArg object same)) made shallow
        · exact rooted made

lemma rankWithin_le (known : SuperClasses) (name : ClassName) :
    known.rankWithin 0 name ≤ 256 * known.table.size + 256 := by
  have element {dimensions : Nat} (bounded : dimensions ≤ 255) (type : ElementType) :
      known.elementRank dimensions type ≤ 256 * known.table.size + 256 := by
    unfold elementRank
    split
    · omega
    · next name =>
      have := known.heightOf_le (.object name)
      have : (255 - dimensions) * known.table.size ≤ 255 * known.table.size :=
        Nat.mul_le_mul_right _ (by omega)
      split <;> omega
  rw [rankWithin_eq, zero_add]
  exact element name.dimensions_le _

lemma isRanked_of_objects {hier : Hierarchy}
    (objects : ∀ {a : ObjectName} {b merged : ClassName} {depth : Nat}, a ≠ .root →
      hier.mergeObjects (.object a) b = .ok merged → depth + merged.dimensions ≤ 255 →
        object a = merged ∨ known.rankWithin depth merged < known.rankWithin depth (.object a)) :
    hier.IsRanked
      (VerificationType.rankBy (known.rankWithin 0) (256 * known.table.size + 256))
      (256 * known.table.size + 258) :=
  Hierarchy.isRanked_of_classes known.rankWithin_le fun {_ _ merged} made =>
    rankWithin_merged objects made (by
      have := merged.dimensions_le
      omega)

/-- Types can be ranked unless two different classes are above each other. -/
lemma IsLoopFree.isRanked (free : known.IsLoopFree) :
    known.hierarchy.IsRanked
      (VerificationType.rankBy (known.rankWithin 0) (256 * known.table.size + 256))
      (256 * known.table.size + 258) :=
  isRanked_of_objects fun proper made => free.rankWithin_common proper (mergeObjects_ok.mp made)

/-- Types can be ranked if the root is taken for the common super class of any two classes. -/
lemma rootOnly_isRanked :
    Hierarchy.rootOnly.IsRanked (VerificationType.rankBy (rankWithin {} 0) 256) 258 := by
  refine @isRanked_of_objects {} _ fun proper made shallow => .inr ?_
  cases made
  exact rankWithin_root shallow fun same => proper (object.inj same)

end SuperClasses

end JvmAsm
