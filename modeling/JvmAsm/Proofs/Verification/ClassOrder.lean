/-
Orders classes by what merging does to them: a class is below another one if merging it into the
other one changes nothing.
-/
import JvmAsm.Proofs.Result
import JvmAsm.Verification.Merge

namespace JvmAsm

open List ClassName

variable {a b merged : ClassName}
variable {name : ClassName}

section Components

variable {type : ArrayType}

/-- What is left of a class that is an array of arrays. -/
def ClassName.element : ClassName → ElementType
  | .object name => .object name
  | .array type => type.element

/-- A component has one dimension less, and the same elements. -/
lemma ArrayType.component_parts (component : type.component.className? = some name) :
    name.dimensions + 1 = type.dimensions ∧ name.element = type.element := by
  have positive := type.positive
  unfold ArrayType.component at component
  split at component
  · cases component
    simp only [ClassName.dimensions, ClassName.element, and_true]
    omega
  · cases element : type.element with
    | primitive kind => rw [element] at component; cases component
    | object base =>
      rw [element] at component
      cases component
      simp only [ClassName.dimensions, ClassName.element, and_true]
      omega

lemma ArrayType.component_dimensions (component : type.component.className? = some name) :
    name.dimensions + 1 = type.dimensions :=
  (component_parts component).1

lemma ClassName.dimensions_le (name : ClassName) : name.dimensions ≤ 255 := by
  cases name with
  | object name => exact Nat.zero_le _
  | array type => exact type.bounded

/-- A class is the component of the arrays of the class, unless there are none. -/
lemma ClassName.arrayClass_ok {array : ClassName} (made : name.arrayClass = .ok array) :
    ∃ type, array = .array type ∧ type.component.className? = some name := by
  cases name with
  | object base =>
    cases made
    exact ⟨_, rfl, rfl⟩
  | array type =>
    unfold arrayClass arrayOf? fieldType FieldType.arrayOf? at made
    dsimp only at made
    split at made
    · next found same =>
      split at same
      · cases same
        cases made
        refine ⟨_, rfl, ?_⟩
        simp [ArrayType.component, type.positive, FieldType.className?]
      · cases same
    · contradiction

lemma ClassName.arrayClass_component (component : type.component.className? = some name) :
    name.arrayClass = .ok (.array type) := by
  obtain ⟨dimensions, element, positive, bounded⟩ := type
  unfold ArrayType.component at component
  split at component
  · next more =>
    cases component
    have whole : dimensions - 1 + 1 = dimensions := by omega
    simp [arrayClass, arrayOf?, fieldType, FieldType.arrayOf?, whole, bounded]
  · next single =>
    obtain rfl : dimensions = 1 := by simp at single; omega
    cases element with
    | primitive kind => cases component
    | object base =>
      cases component
      rfl

end Components

namespace Hierarchy

variable {hier : Hierarchy}

/-- The merged class of two classes, by whether they are arrays. -/
lemma mergeClasses_eq (hier : Hierarchy) (a b : ClassName) :
    hier.mergeClasses a b =
      if a = b then .ok a
      else if a = .root ∨ b = .root then .ok .root
      else
        match a, b with
        | .array x, .array y =>
          match x.component.className?, y.component.className? with
          | some component, some component' => do
            (← hier.mergeClasses component component').arrayClass
          | _, _ => .ok .root
        | .object _, .object _ => hier.mergeObjects a b
        | _, _ => .ok .root := by
  cases a with
  | object name =>
    cases b with
    | object other => rfl
    | array type => rfl
  | array type =>
    obtain ⟨count, whole⟩ := Nat.exists_eq_succ_of_ne_zero (ne_of_gt type.positive)
    have fuel : (array type).dimensions = count + 1 := whole
    rw [mergeClasses, fuel]
    cases b with
    | object other => rfl
    | array other =>
      cases left : type.component.className? with
      | none => simp only [mergeWithin, left]
      | some component =>
        have fewer : component.dimensions = count := by
          have := ArrayType.component_dimensions left
          omega
        cases right : other.component.className? with
        | none => simp only [mergeWithin, left, right]
        | some component' => simp only [mergeWithin, left, right, mergeClasses, fewer]

/-- A class is below another one if merging it into the other one gives the other one. -/
inductive Below (hier : Hierarchy) : ClassName → ClassName → Prop where
  | refl (name : ClassName) : Below hier name name
  | root (name : ClassName) : Below hier name .root
  | object {a b : ObjectName} (proper : a ≠ .root)
      (merged : hier.mergeObjects (.object b) (.object a) = .ok (.object b)) :
      Below hier (.object a) (.object b)
  | array {x y : ArrayType} {a b : ClassName} (left : x.component.className? = some a)
      (right : y.component.className? = some b) (components : Below hier a b) :
      Below hier (.array x) (.array y)

lemma mergeClasses_self (name : ClassName) : hier.mergeClasses name name = .ok name := by
  rw [mergeClasses_eq, if_pos rfl]

lemma below_of_absorbed (absorbed : hier.mergeClasses b a = .ok b) :
    hier.Below a b := by
  generalize depth : b.dimensions = count
  induction count using Nat.strongRecOn generalizing a b with
  | ind count ih =>
    rw [mergeClasses_eq] at absorbed
    split at absorbed
    · next same =>
      rw [same]
      exact .refl a
    · split at absorbed
      · cases absorbed
        exact .root a
      · next proper =>
        rw [not_or] at proper
        split at absorbed
        · next y x _ =>
          split at absorbed
          · next component component' right left =>
            obtain ⟨merged, found, made⟩ := ok_parts absorbed
            obtain ⟨type, same, component⟩ := arrayClass_ok made
            cases same
            obtain rfl := Option.some.inj (right.symm.trans component)
            have fewer := ArrayType.component_dimensions right
            refine .array left right (ih _ ?_ found rfl)
            rw [← depth]
            exact Nat.lt_of_succ_le (le_of_eq fewer)
          · cases absorbed
        · exact .object (fun same => proper.2 (congrArg object same)) absorbed
        · cases absorbed
          exact absurd rfl proper.1

lemma Below.absorbed (below : hier.Below a b) :
    hier.mergeClasses b a = .ok b := by
  induction below with
  | refl name => exact mergeClasses_self name
  | root name =>
    rw [mergeClasses_eq]
    split
    · rfl
    · rw [if_pos (.inl rfl)]
  | @object a b proper merged =>
    rw [mergeClasses_eq]
    split
    · rfl
    · split
      · next rooted =>
        rcases rooted with same | same
        · exact congrArg Except.ok same.symm
        · exact absurd (object.inj same) proper
      · exact merged
  | @array x y a b left right components ih =>
    rw [mergeClasses_eq]
    split
    · rfl
    · rw [if_neg (by simp [ClassName.root])]
      dsimp only
      rw [right, left]
      dsimp only
      rw [ih]
      exact arrayClass_component right

lemma Below.eq_root {first : ClassName} (below : hier.Below first name)
    (start : first = .root) : name = .root := by
  cases below with
  | refl => exact start
  | root => rfl
  | object proper => exact absurd (object.inj start) proper
  | array => cases start

/--
What has to be known of a hierarchy so that merging classes makes them larger: a common super class
is above both classes and no array, and being above can be chained.
-/
structure IsLawful (hier : Hierarchy) : Prop where
  joins : ∀ (a b : ObjectName) (merged : ClassName),
    hier.mergeObjects (.object a) (.object b) = .ok merged →
      hier.Below (.object a) merged ∧ hier.Below (.object b) merged
  chains : ∀ a b c : ObjectName, hier.Below (.object a) (.object b) →
    hier.Below (.object b) (.object c) → hier.Below (.object a) (.object c)

lemma Below.trans (lawful : hier.IsLawful) {c : ClassName}
    (first : hier.Below a b) (second : hier.Below b c) : hier.Below a c := by
  induction first generalizing c with
  | refl name => exact second
  | root name =>
    obtain rfl := second.eq_root rfl
    exact .root name
  | @object a b proper merged =>
    cases c with
    | object name => exact lawful.chains a b name (.object proper merged) second
    | array type => cases second
  | @array x y a b left right components ih =>
    cases second with
    | refl => exact .array left right components
    | root => exact .root _
    | array left' right' components' =>
      obtain rfl := Option.some.inj (right.symm.trans left')
      exact .array left right' (ih components')

lemma IsLawful.above (lawful : hier.IsLawful)
    (made : hier.mergeClasses a b = .ok merged) :
    hier.Below a merged ∧ hier.Below b merged := by
  generalize depth : a.dimensions = count
  induction count using Nat.strongRecOn generalizing a b merged with
  | ind count ih =>
    rw [mergeClasses_eq] at made
    split at made
    · next same =>
      cases made
      exact ⟨.refl a, same ▸ .refl a⟩
    · split at made
      · cases made
        exact ⟨.root a, .root b⟩
      · split at made
        · next x y _ =>
          split at made
          · next component component' left right =>
            obtain ⟨joined, found, made⟩ := ok_parts made
            obtain ⟨type, rfl, component⟩ := arrayClass_ok made
            have fewer := ArrayType.component_dimensions left
            obtain ⟨first, second⟩ := ih _ (by
              rw [← depth]
              exact Nat.lt_of_succ_le (le_of_eq fewer)) found rfl
            exact ⟨.array left component first, .array right component second⟩
          · cases made
            exact ⟨.root _, .root _⟩
        · exact lawful.joins _ _ _ made
        · cases made
          exact ⟨.root _, .root _⟩

/-- Nothing is merged if nothing is known. -/
lemma unknown_isLawful : unknown.IsLawful where
  joins a b merged made := by cases made
  chains a b c first second := by
    cases first with
    | refl => exact second
    | root =>
      rw [show object c = .root from second.eq_root rfl]
      exact .root _
    | object _ merged => cases merged

lemma rootOnly_below (below : rootOnly.Below a b) :
    a = b ∨ b = .root ∨ ∃ x y c d, a = .array x ∧ b = .array y ∧
      x.component.className? = some c ∧ y.component.className? = some d ∧ rootOnly.Below c d := by
  cases below with
  | refl => exact .inl rfl
  | root => exact .inr (.inl rfl)
  | object _ merged => exact .inr (.inl (Except.ok.inj merged).symm)
  | array left right components => exact .inr (.inr ⟨_, _, _, _, rfl, rfl, left, right, components⟩)

/-- The root is above all classes. -/
lemma rootOnly_isLawful : rootOnly.IsLawful where
  joins a b merged made := by
    obtain rfl := Except.ok.inj made
    exact ⟨.root _, .root _⟩
  chains a b c first second := by
    rcases rootOnly_below second with same | same | ⟨_, _, _, _, impossible, _⟩
    · rwa [← same]
    · rw [same]
      exact .root _
    · cases impossible

end Hierarchy

namespace SuperClasses

variable {above : ClassName}

/-- The second class is the super class of the first one. -/
def Extends (known : SuperClasses) (name super : ClassName) : Prop :=
  known.table[name]? = some super

/-- No class is above itself, arrays are not mentioned, and nothing is above the root. -/
structure IsTree (known : SuperClasses) : Prop where
  acyclic : ∀ name, ¬Relation.TransGen known.Extends name name
  plain : ∀ name super, known.Extends name super → name.isArray = false ∧ super.isArray = false
  rooted : ∀ super, ¬known.Extends .root super

variable {known : SuperClasses} {name last : ClassName} {before : List ClassName} {fuel : Nat}

structure HasPassed (known : SuperClasses) (last : ClassName) (before : List ClassName) : Prop where
  distinct : (last :: before).Nodup
  next : ∀ name ∈ before, ∃ super ∈ last :: before, known.Extends name super

lemma HasPassed.step {super : ClassName} (passed : known.HasPassed last before)
    (found : known.table[last]? = some super) (fresh : super ∉ last :: before) :
    known.HasPassed super (last :: before) where
  distinct := nodup_cons.mpr ⟨fresh, passed.distinct⟩
  next name mem := by
    rcases mem_cons.mp mem with rfl | earlier
    · exact ⟨super, mem_cons_self, found⟩
    · obtain ⟨above, met, extended⟩ := passed.next name earlier
      exact ⟨above, mem_cons_of_mem _ met, extended⟩

lemma Extends.mem_keys {super : ClassName} (extended : known.Extends name super) :
    name ∈ known.table.keys := by
  have found : known.table[name]? = some super := extended
  rw [Std.HashMap.mem_keys, ← Std.HashMap.contains_iff_mem,
    Std.HashMap.contains_eq_isSome_getElem?, found]
  rfl

/-- Nothing is above the last class if as many classes have been passed as are known. -/
lemma HasPassed.ends (passed : known.HasPassed last before)
    (enough : known.table.size ≤ before.length) (super : ClassName) :
    ¬known.Extends last super := by
  intro extended
  have keys : ∀ name ∈ last :: before, name ∈ known.table.keys := by
    intro name mem
    rcases mem_cons.mp mem with rfl | earlier
    · exact extended.mem_keys
    · obtain ⟨_, _, extended⟩ := passed.next name earlier
      exact extended.mem_keys
  have bound := (subperm_of_subset passed.distinct keys).length_le
  rw [Std.HashMap.length_keys, length_cons] at bound
  omega

/-- The classes that are met have been passed, or are above the last one that has been passed. -/
lemma mem_chainFrom (mem : name ∈ known.chainFrom last before fuel) :
    name ∈ before ∨ Relation.ReflTransGen known.Extends last name := by
  have stays {last : ClassName} {before : List ClassName}
      (mem : name ∈ (last :: before).reverse) :
      name ∈ before ∨ Relation.ReflTransGen known.Extends last name := by
    rw [mem_reverse, mem_cons] at mem
    rcases mem with rfl | earlier
    · exact .inr .refl
    · exact .inl earlier
  induction fuel generalizing last before with
  | zero => exact stays mem
  | succ fuel ih =>
    unfold chainFrom at mem
    split at mem
    · exact stays mem
    · next super found =>
      split at mem
      · exact stays mem
      · rcases ih mem with earlier | above
        · exact stays (mem_reverse.mpr earlier)
        · exact .inr (.head found above)

/-- A chain holds what has been passed, and with each class the one above it. -/
lemma chainFrom_closed (passed : known.HasPassed last before)
    (enough : known.table.size ≤ fuel + before.length) :
    (∀ name ∈ last :: before, name ∈ known.chainFrom last before fuel) ∧
      ∀ name ∈ known.chainFrom last before fuel, ∀ super, known.Extends name super →
        super ∈ known.chainFrom last before fuel := by
  have ends {last : ClassName} {before : List ClassName} (passed : known.HasPassed last before)
      (met : ∀ super, known.Extends last super → super ∈ last :: before) :
      (∀ name ∈ last :: before, name ∈ (last :: before).reverse) ∧
        ∀ name ∈ (last :: before).reverse, ∀ super, known.Extends name super →
          super ∈ (last :: before).reverse := by
    simp only [mem_reverse]
    refine ⟨fun name mem => mem, fun name mem super extended => ?_⟩
    rcases mem_cons.mp mem with rfl | earlier
    · exact met super extended
    · obtain ⟨above, held, extended'⟩ := passed.next name earlier
      obtain rfl : above = super := Option.some.inj (extended'.symm.trans extended)
      exact held
  induction fuel generalizing last before with
  | zero =>
    exact ends passed fun super extended => absurd extended (passed.ends (by omega) super)
  | succ fuel ih =>
    unfold chainFrom
    split
    · next none =>
      exact ends passed fun super extended => nomatch none.symm.trans extended
    · next super found =>
      split
      · next repeated =>
        refine ends passed fun above extended => ?_
        obtain rfl : super = above := Option.some.inj (found.symm.trans extended)
        exact repeated
      · next fresh =>
        obtain ⟨kept, closed⟩ := ih (passed.step found fresh) (by
          rw [length_cons]
          omega)
        exact ⟨fun name mem => kept name (mem_cons_of_mem _ mem), closed⟩

/-- A chain holds exactly the classes above a class, also if some of them are above themselves. -/
lemma mem_chain_iff :
    above ∈ known.chain name ↔ Relation.ReflTransGen known.Extends name above := by
  constructor
  · intro mem
    exact (mem_chainFrom mem).resolve_left (not_mem_nil)
  · intro reaches
    have passed : known.HasPassed name [] := ⟨by simp, by simp⟩
    obtain ⟨kept, closed⟩ := chainFrom_closed passed le_rfl
    induction reaches with
    | refl => exact kept name mem_cons_self
    | tail _ extended ih => exact closed _ ih _ extended

/-- Each class of a chain is above those before it. -/
lemma chainFrom_pairwise (ordered : (last :: before).reverse.Pairwise (Relation.TransGen known.Extends)) :
    (known.chainFrom last before fuel).Pairwise (Relation.TransGen known.Extends) := by
  induction fuel generalizing last before with
  | zero => exact ordered
  | succ fuel ih =>
    unfold chainFrom
    split
    · exact ordered
    · next super found =>
      split
      · exact ordered
      · refine ih ?_
        rw [pairwise_reverse, pairwise_cons] at ordered ⊢
        refine ⟨fun name mem => ?_, pairwise_cons.mpr ordered⟩
        rcases mem_cons.mp mem with rfl | earlier
        · exact .single found
        · exact (ordered.1 name earlier).tail found

lemma chain_pairwise (known : SuperClasses) (name : ClassName) :
    (known.chain name).Pairwise (Relation.TransGen known.Extends) :=
  chainFrom_pairwise (pairwise_singleton _ _)

/-- A common super class is above the first class. -/
lemma reaches_of_common (found : known.common a b = some merged) :
    Relation.ReflTransGen known.Extends a merged := by
  have inside := find?_some found
  rw [contains_iff_mem] at inside
  exact mem_chain_iff.mp inside

lemma common_eq_self (tree : known.IsTree) :
    known.common above name = some above ↔ Relation.ReflTransGen known.Extends name above := by
  rw [← mem_chain_iff]
  constructor
  · intro found
    exact mem_of_find?_eq_some found
  · intro mem
    obtain ⟨before, after, parts⟩ := append_of_mem mem
    have ordered := known.chain_pairwise name
    rw [parts, pairwise_append] at ordered
    rw [common, find?_eq_some_iff_append]
    refine ⟨?_, before, after, parts, fun other earlier => ?_⟩
    · rw [contains_iff_mem]
      exact mem_chain_iff.mpr .refl
    · have leads := ordered.2.2 other earlier above mem_cons_self
      rw [Bool.not_eq_true', ← Bool.not_eq_true, contains_iff_mem]
      intro back
      exact tree.acyclic other (leads.trans_left (mem_chain_iff.mp back))

lemma IsTree.isArray_eq (tree : known.IsTree)
    (reaches : Relation.ReflTransGen known.Extends name above) (plain : name.isArray = false) :
    above.isArray = false := by
  induction reaches with
  | refl => exact plain
  | tail _ step _ => exact (tree.plain _ _ step).2

lemma mergeObjects_ok :
    known.hierarchy.mergeObjects a b = .ok merged ↔ known.common a b = some merged := by
  have asked : known.hierarchy.common a b = .ok (known.common a b) := rfl
  rw [Hierarchy.mergeObjects, asked]
  cases known.common a b with
  | none => simp [bind, Except.bind, throw, throwThe, MonadExceptOf.throw]
  | some found => simp [bind, Except.bind, pure, Except.pure]

lemma below_iff (tree : known.IsTree) {a b : ObjectName} :
    known.hierarchy.Below (.object a) (.object b) ↔
      b = .root ∨ Relation.ReflTransGen known.Extends (.object a) (.object b) := by
  constructor
  · intro below
    cases below with
    | refl => exact .inr .refl
    | root => exact .inl rfl
    | object proper merged => exact .inr ((common_eq_self tree).mp (mergeObjects_ok.mp merged))
  · rintro (rfl | reaches)
    · exact .root _
    · by_cases proper : a = .root
      · subst proper
        rcases reaches.cases_head with same | ⟨super, found, _⟩
        · rw [← same]
          exact .refl _
        · exact absurd found (tree.rooted super)
      · exact .object proper (mergeObjects_ok.mpr ((common_eq_self tree).mpr reaches))

/-- Super classes that form a tree can be trusted. -/
lemma IsTree.isLawful (tree : known.IsTree) : known.hierarchy.IsLawful where
  joins a b merged made := by
    have found := mergeObjects_ok.mp made
    have second := mem_chain_iff.mp (mem_of_find?_eq_some found)
    have first := reaches_of_common found
    cases merged with
    | object name => exact ⟨(below_iff tree).mpr (.inr first), (below_iff tree).mpr (.inr second)⟩
    | array type => cases tree.isArray_eq first rfl
  chains a b c first second := by
    rw [below_iff tree] at first second ⊢
    rcases second with rfl | second
    · exact .inl rfl
    · rcases first with rfl | first
      · rcases second.cases_head with same | ⟨super, found, _⟩
        · exact .inl (object.inj same).symm
        · exact absurd found (tree.rooted super)
      · exact .inr (first.trans second)

end SuperClasses

end JvmAsm
