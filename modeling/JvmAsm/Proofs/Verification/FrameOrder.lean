/- Orders frames by what merging does to them. -/
import JvmAsm.Proofs.Verification.ClassOrder

namespace JvmAsm

open List Option

variable {lower upper : Frame} {old new : List VerificationType}
variable {hier : Hierarchy}
variable {locals : List VerificationType} {merged a b : VerificationType}

namespace VerificationType

/-- A type fits where another one is expected on the stack. -/
inductive Fits (hier : Hierarchy) : VerificationType → VerificationType → Prop where
  | refl (type : VerificationType) : Fits hier type type
  | null (name : ClassName) : Fits hier .null (.object name)
  | object {a b : ClassName} (below : hier.Below a b) : Fits hier (.object a) (.object b)

/-- Every type fits where a local variable is not used. -/
def FitsLocal (hier : Hierarchy) (type expected : VerificationType) : Prop :=
  expected = .top ∨ Fits hier type expected

lemma Fits.trans (lawful : hier.IsLawful) {c : VerificationType}
    (first : Fits hier a b) (second : Fits hier b c) : Fits hier a c := by
  cases first with
  | refl => exact second
  | null name =>
    cases second with
    | refl => exact .null name
    | object => exact .null _
  | object below =>
    cases second with
    | refl => exact .object below
    | object below' => exact .object (below.trans lawful below')

lemma Fits.eq_of_not_reference (fits : Fits hier a b) (plain : b.isReference = false) :
    a = b := by
  cases fits with
  | refl => rfl
  | null => cases plain
  | object => cases plain

lemma Fits.isReference_eq (fits : Fits hier a b) : a.isReference = b.isReference := by
  cases fits <;> rfl

/-- A type that both types are merged to, where they are not both objects. -/
lemma mergeKinds?_fits {a b merged : VerificationType} (found : mergeKinds? a b = some merged) :
    Fits hier a merged ∧ Fits hier b merged := by
  unfold mergeKinds? at found
  split at found
  · next same =>
    cases found
    exact ⟨.refl a, same ▸ .refl a⟩
  · split at found
    · cases found
      exact ⟨.null _, .refl _⟩
    · cases found
      exact ⟨.refl _, .null _⟩
    · cases found

lemma mergeKinds?_absorbed (fits : Fits hier a b)
    (other : ∀ x y, ¬(b = .object x ∧ a = .object y)) : mergeKinds? b a = some b := by
  cases fits with
  | refl => simp [mergeKinds?]
  | null name => simp [mergeKinds?]
  | object => exact absurd ⟨rfl, rfl⟩ (other _ _)

/-- Types that are not both objects are merged by their kinds. -/
lemma mergeOperand_kinds (other : ∀ x y, ¬(a = .object x ∧ b = .object y)) :
    mergeOperand hier a b =
      match mergeKinds? a b with
      | some merged => .ok merged
      | none => .error (.ofCause (.verification (.unmergeable a b))) := by
  unfold mergeOperand
  split
  · exact absurd ⟨rfl, rfl⟩ (other _ _)
  · rfl

lemma mergeLocal_kinds (other : ∀ x y, ¬(a = .object x ∧ b = .object y)) :
    mergeLocal hier a b = .ok ((mergeKinds? a b).getD .top) := by
  unfold mergeLocal
  split
  · exact absurd ⟨rfl, rfl⟩ (other _ _)
  · rfl

/-- Two types are both objects, or else they are merged by their kinds. -/
lemma objects_or_kinds (a b : VerificationType) :
    (∃ x y, a = .object x ∧ b = .object y) ∨ ∀ x y, ¬(a = .object x ∧ b = .object y) := by
  by_cases both : ∃ x y, a = .object x ∧ b = .object y
  · exact .inl both
  · exact .inr fun x y found => both ⟨x, y, found⟩

lemma mergeOperand_objects {x y : ClassName} :
    mergeOperand hier (.object x) (.object y) = .ok merged ↔
      ∃ name, hier.mergeClasses x y = .ok name ∧ merged = .object name := by
  refine ok_bind_iff.trans (exists_congr fun name => and_congr_right fun _ => ?_)
  exact ⟨fun same => (Except.ok.inj same).symm, fun same => congrArg Except.ok same.symm⟩

lemma mergeLocal_objects {x y : ClassName} :
    mergeLocal hier (.object x) (.object y) = .ok merged ↔
      ∃ name, hier.mergeClasses x y = .ok name ∧ merged = .object name :=
  mergeOperand_objects

lemma mergeOperand_cases (made : mergeOperand hier a b = .ok merged) :
    (∃ x y name, a = .object x ∧ b = .object y ∧ merged = .object name ∧
      hier.mergeClasses x y = .ok name) ∨ mergeKinds? a b = some merged := by
  rcases objects_or_kinds a b with ⟨x, y, rfl, rfl⟩ | other
  · obtain ⟨name, found, rfl⟩ := mergeOperand_objects.mp made
    exact .inl ⟨x, y, name, rfl, rfl, rfl, found⟩
  · rw [mergeOperand_kinds other] at made
    split at made
    · next found =>
      cases made
      exact .inr found
    · contradiction

lemma mergeOperand_absorbed : mergeOperand hier b a = .ok b ↔ Fits hier a b := by
  constructor
  · intro absorbed
    rcases mergeOperand_cases absorbed with ⟨x, y, name, rfl, rfl, same, merged⟩ | found
    · cases same
      exact .object (Hierarchy.below_of_absorbed merged)
    · exact (mergeKinds?_fits found).2
  · intro fits
    rcases objects_or_kinds b a with ⟨x, y, rfl, rfl⟩ | other
    · cases fits with
      | refl => exact mergeOperand_objects.mpr ⟨x, Hierarchy.mergeClasses_self x, rfl⟩
      | object below => exact mergeOperand_objects.mpr ⟨x, below.absorbed, rfl⟩
    · rw [mergeOperand_kinds other, mergeKinds?_absorbed fits other]

lemma mergeOperand_above (lawful : hier.IsLawful)
    (made : mergeOperand hier a b = .ok merged) :
    Fits hier a merged ∧ Fits hier b merged := by
  rcases mergeOperand_cases made with ⟨x, y, name, rfl, rfl, rfl, found⟩ | found
  · obtain ⟨first, second⟩ := lawful.above found
    exact ⟨.object first, .object second⟩
  · exact mergeKinds?_fits found

/-- Local variables are merged like operands, if that is possible. -/
lemma mergeLocal_of_operand (made : mergeOperand hier a b = .ok merged) :
    mergeLocal hier a b = .ok merged := by
  rcases objects_or_kinds a b with ⟨x, y, rfl, rfl⟩ | other
  · exact made
  · rw [mergeOperand_kinds other] at made
    rw [mergeLocal_kinds other]
    split at made
    · next found =>
      cases made
      rw [found]
      rfl
    · contradiction

lemma mergeLocal_ok (made : mergeLocal hier a b = .ok merged) :
    merged = .top ∨ mergeOperand hier a b = .ok merged := by
  rcases objects_or_kinds a b with ⟨x, y, rfl, rfl⟩ | other
  · exact .inr made
  · rw [mergeLocal_kinds other] at made
    rw [mergeOperand_kinds other]
    cases found : mergeKinds? a b with
    | none =>
      rw [found] at made
      exact .inl (Except.ok.inj made).symm
    | some kind =>
      rw [found] at made
      exact .inr made

lemma mergeLocal_top (type : VerificationType) : mergeLocal hier .top type = .ok .top := by
  rw [mergeLocal_kinds (by simp)]
  cases type <;> rfl

lemma mergeLocal_absorbed : mergeLocal hier b a = .ok b ↔ FitsLocal hier a b := by
  constructor
  · intro absorbed
    rcases mergeLocal_ok absorbed with unused | absorbed
    · exact .inl unused
    · exact .inr (mergeOperand_absorbed.mp absorbed)
  · rintro (rfl | fits)
    · exact mergeLocal_top a
    · exact mergeLocal_of_operand (mergeOperand_absorbed.mpr fits)

end VerificationType

open VerificationType

namespace Frame

variable {related : VerificationType → VerificationType → Prop}

/-- The type of a local variable, which is top if the variable is not there. -/
def localAt (locals : List VerificationType) (index : Nat) : VerificationType :=
  locals[index]?.getD .top

/-- A frame is below another one if merging it into the other one gives the other one. -/
structure Below (hier : Hierarchy) (lower upper : Frame) : Prop where
  locals : ∀ index, FitsLocal hier (localAt lower.locals index) (localAt upper.locals index)
  stack : Forall₂ (Fits hier) lower.stack upper.stack

structure Relates (related : VerificationType → VerificationType → Prop) (lower upper : Frame) :
    Prop where
  locals : ∀ index, localAt upper.locals index = .top ∨
    related (localAt lower.locals index) (localAt upper.locals index)
  stack : Forall₂ related lower.stack upper.stack

lemma Relates.trans (compose : ∀ {a b c}, related a b → related b c → related a c)
    (unused : ∀ {type}, related .top type → type = .top) {a b c : Frame}
    (first : Relates related a b) (second : Relates related b c) : Relates related a c where
  locals index := by
    rcases second.locals index with top | upper
    · exact .inl top
    · rcases first.locals index with top | lower
      · rw [top] at upper
        exact .inl (unused upper)
      · exact .inr (compose lower upper)
  stack := by
    obtain ⟨_, below⟩ := first
    obtain ⟨_, above⟩ := second
    generalize a.stack = lower, b.stack = middle, c.stack = upper at below above
    induction below generalizing upper with
    | nil =>
      cases above
      exact .nil
    | cons fits _ ih =>
      cases above with
      | cons fits' rest => exact .cons (compose fits fits') (ih _ rest)

lemma Relates.below (relates : Relates (Fits hier) lower upper) :
    Below hier lower upper :=
  ⟨relates.locals, relates.stack⟩

lemma Below.relates (below : Below hier lower upper) :
    Relates (Fits hier) lower upper :=
  ⟨below.locals, below.stack⟩

lemma Below.refl (frame : Frame) : Below hier frame frame :=
  ⟨fun _ => .inr (.refl _), forall₂_same.mpr fun type _ => .refl type⟩

lemma Below.trans (lawful : hier.IsLawful) {a b c : Frame} (first : Below hier a b)
    (second : Below hier b c) : Below hier a c :=
  (Relates.trans (fun lower upper => lower.trans lawful upper) (fun | .refl _ => rfl)
    first.relates second.relates).below

section Locals

/-- Both local variables of a long or double are there, and the second one is not used. -/
def IsPaired (locals : List VerificationType) : Prop :=
  ∀ index type, locals[index]? = some type → type.isWide = true → locals[index + 1]? = some .top

/-- The last local variable is needed. -/
def IsTrimmed (locals : List VerificationType) : Prop := isSpare locals.reverse = false

lemma dropSpare_parts (reversed : List VerificationType) :
    isSpare (dropSpare reversed) = false ∧
      ∃ count, reversed = replicate count .top ++ dropSpare reversed := by
  induction reversed with
  | nil => exact ⟨rfl, 0, rfl⟩
  | cons last before ih =>
    unfold dropSpare
    split
    · next spare =>
      obtain ⟨needed, count, parts⟩ := ih
      have unused : last = .top := by
        cases last <;> first | rfl | (cases before <;> cases spare)
      refine ⟨needed, count + 1, ?_⟩
      rw [unused, replicate_succ, cons_append, ← parts]
    · next needed => exact ⟨by simpa using needed, 0, rfl⟩

/-- What is left out from local variables has the type top. -/
lemma trimLocals_parts (locals : List VerificationType) :
    IsTrimmed (trimLocals locals) ∧
      ∃ count, locals = trimLocals locals ++ replicate count .top := by
  obtain ⟨needed, count, parts⟩ := dropSpare_parts locals.reverse
  refine ⟨by rwa [IsTrimmed, trimLocals, reverse_reverse], count, ?_⟩
  have reversed := congrArg reverse parts
  rwa [reverse_append, reverse_reverse, reverse_replicate] at reversed

lemma localAt_append_top (locals : List VerificationType) (count index : Nat) :
    localAt (locals ++ replicate count .top) index = localAt locals index := by
  unfold localAt
  rw [getElem?_append]
  split
  · rfl
  · next outside =>
    rw [getElem?_eq_none (Nat.le_of_not_lt outside), getElem?_replicate]
    split <;> rfl

@[simp] lemma localAt_trimLocals (locals : List VerificationType) (index : Nat) :
    localAt (trimLocals locals) index = localAt locals index := by
  obtain ⟨_, count, parts⟩ := trimLocals_parts locals
  conv_rhs => rw [parts]
  exact (localAt_append_top _ count index).symm

lemma localAt_pad (locals : List VerificationType) (count index : Nat) :
    localAt (padLocals count locals) index = localAt locals index :=
  localAt_append_top _ _ _

lemma localAt_eq_wide {index : Nat} (wide : (localAt locals index).isWide = true) :
    locals[index]? = some (localAt locals index) := by
  unfold localAt at wide ⊢
  cases found : locals[index]? with
  | none => rw [found] at wide; cases wide
  | some type => rfl

lemma isPaired_iff :
    IsPaired locals ↔ ∀ index, (localAt locals index).isWide = true →
      index + 1 < locals.length ∧ localAt locals (index + 1) = .top := by
  constructor
  · intro paired index wide
    have next := paired index _ (localAt_eq_wide wide) wide
    exact ⟨(List.getElem?_eq_some_iff.mp next).1, by rw [localAt, next]; rfl⟩
  · intro paired index type found wide
    have here : localAt locals index = type := by rw [localAt, found]; rfl
    obtain ⟨inside, next⟩ := paired index (by rwa [here])
    rw [localAt, getElem?_eq_getElem inside] at next
    rw [getElem?_eq_getElem inside]
    exact congrArg some next

/-- Local variables that are in pairs are still so without the spare ones. -/
lemma IsPaired.trim (paired : IsPaired locals) : IsPaired (trimLocals locals) := by
  intro index type found wide
  obtain ⟨needed, count, parts⟩ := trimLocals_parts locals
  have inside := (List.getElem?_eq_some_iff.mp found).1
  have whole : locals[index]? = some type := by
    rw [parts, List.getElem?_append_left inside, found]
  have next := paired index type whole wide
  rw [parts, List.getElem?_append] at next
  split at next
  · exact next
  · next outside =>
    -- The wide value would be the last one, and then what follows it would not be spare.
    exfalso
    have last : index + 1 = (trimLocals locals).length := by omega
    have count' : count ≠ 0 := by
      rintro rfl
      simp at next
    obtain ⟨more, rfl⟩ := Nat.exists_eq_succ_of_ne_zero count'
    have kept := dropSpare_parts locals.reverse
    have reversed : locals.reverse =
        List.replicate (more + 1) .top ++ (trimLocals locals).reverse := by
      conv_lhs => rw [parts]
      rw [List.reverse_append, List.reverse_replicate]
    have head : (trimLocals locals).reverse.head? = some type := by
      rw [List.head?_reverse, List.getLast?_eq_getElem?, ← last]
      simpa using found
    obtain ⟨rest, shape⟩ : ∃ rest, (trimLocals locals).reverse = type :: rest := by
      cases shape : (trimLocals locals).reverse with
      | nil => rw [shape] at head; cases head
      | cons first rest =>
        rw [shape] at head
        cases head
        exact ⟨rest, rfl⟩
    have stays (spare : Nat) : dropSpare (List.replicate (spare + 1) .top ++ type :: rest) =
        .top :: type :: rest := by
      induction spare with
      | zero => simp [dropSpare, isSpare, wide]
      | succ spare ih =>
        rw [List.replicate_succ, List.cons_append, dropSpare, if_pos, ih]
        rw [List.replicate_succ]
        rfl
    have trimmed : (trimLocals locals).reverse = dropSpare locals.reverse := by
      rw [trimLocals, List.reverse_reverse]
    rw [reversed, shape, stays more] at trimmed
    simp at trimmed

/-- Local variables without spare ones are what is left of them after some have been added. -/
lemma trimLocals_append (paired : IsPaired locals) (trimmed : IsTrimmed locals) (count : Nat) :
    trimLocals (locals ++ replicate count .top) = locals := by
  have narrow : ∀ last before, locals.reverse = last :: before → last.isWide = false := by
    intro last before parts
    by_contra wide
    rw [Bool.not_eq_false] at wide
    have found : locals[locals.length - 1]? = some last := by
      rw [← getLast?_eq_getElem?, ← head?_reverse, parts]
      rfl
    have next := paired _ _ found wide
    have bound := (List.getElem?_eq_some_iff.mp next).1
    omega
  rw [trimLocals, reverse_append, reverse_replicate]
  suffices dropSpare (replicate count .top ++ locals.reverse) = locals.reverse by
    rw [this, reverse_reverse]
  unfold IsTrimmed at trimmed
  generalize locals.reverse = reversed at trimmed narrow
  induction count with
  | zero =>
    rw [replicate_zero, nil_append]
    cases reversed with
    | nil => rfl
    | cons last before => rw [dropSpare, if_neg (by simp [trimmed])]
  | succ count ih =>
    rw [replicate_succ, cons_append, dropSpare, if_pos, ih]
    cases count with
    | zero =>
      cases reversed with
      | nil => rfl
      | cons last before => simp [isSpare, narrow last before rfl]
    | succ count => rfl

lemma dropHalves_getElem? (locals : List VerificationType) (index : Nat) :
    (dropHalves locals)[index]? = locals[index]?.map fun type =>
      if type.isWide && locals[index + 1]? != some .top then .top else type := by
  have next : (locals.tail.map some ++ [none])[index]? =
      if index < locals.length then some (locals[index + 1]?) else
        (locals.tail.map some ++ [none])[index]? := by
    split
    · next inside =>
      rw [getElem?_append]
      split
      · next below =>
        simp only [length_map, length_tail] at below
        simp [getElem?_eq_getElem (show index + 1 < locals.length by omega)]
      · next above =>
        simp only [length_map, length_tail] at above ⊢
        rw [show index - (locals.length - 1) = 0 by omega,
          getElem?_eq_none (show locals.length ≤ index + 1 by omega)]
        rfl
    · rfl
  rw [dropHalves, getElem?_zipWith]
  cases found : locals[index]? with
  | none => rfl
  | some type =>
    rw [next, if_pos (List.getElem?_eq_some_iff.mp found).1]
    rfl

lemma dropHalves_paired (locals : List VerificationType) : IsPaired (dropHalves locals) := by
  intro index type found wide
  rw [dropHalves_getElem?, map_eq_some_iff] at found
  obtain ⟨original, _, same⟩ := found
  split at same
  · rw [← same] at wide
    cases wide
  · next kept =>
    subst same
    have next : locals[index + 1]? = some .top := by simpa [wide] using kept
    rw [dropHalves_getElem?, next]
    rfl

lemma IsPaired.dropHalves_eq (paired : IsPaired locals) : dropHalves locals = locals := by
  apply ext_getElem?
  intro index
  rw [dropHalves_getElem?]
  cases found : locals[index]? with
  | none => rfl
  | some type =>
    rw [map_some, if_neg]
    intro lost
    rw [Bool.and_eq_true] at lost
    rw [paired index type found lost.1] at lost
    simp at lost

lemma localAt_dropHalves (locals : List VerificationType) (index : Nat) :
    localAt (dropHalves locals) index = .top ∨
      localAt (dropHalves locals) index = localAt locals index := by
  unfold localAt
  rw [dropHalves_getElem?]
  cases locals[index]? with
  | none => exact .inl rfl
  | some type =>
    rw [map_some, getD_some, getD_some]
    split
    · exact .inl rfl
    · exact .inr rfl

lemma localAt_of_length_le {index : Nat} (short : locals.length ≤ index) :
    localAt locals index = .top := by
  rw [localAt, getElem?_eq_none short, getD_none]

/-- Local variables that are needed are told apart by their types. -/
lemma locals_ext {locals' : List VerificationType} (paired : IsPaired locals)
    (trimmed : IsTrimmed locals) (paired' : IsPaired locals') (trimmed' : IsTrimmed locals')
    (same : ∀ index, localAt locals index = localAt locals' index) : locals = locals' := by
  have shorter {first second : List VerificationType} (paired : IsPaired first)
      (trimmed : IsTrimmed first) (paired' : IsPaired second) (trimmed' : IsTrimmed second)
      (same : ∀ index, localAt first index = localAt second index)
      (short : first.length ≤ second.length) : first = second := by
    have whole : second = first ++ replicate (second.length - first.length) .top := by
      have size : second.length =
          (first ++ replicate (second.length - first.length) VerificationType.top).length := by
        rw [length_append, length_replicate]
        omega
      refine ext_getElem size fun index inside inside' => ?_
      have here := same index
      rw [← localAt_append_top first (second.length - first.length)] at here
      rw [localAt, localAt, getElem?_eq_getElem inside, getElem?_eq_getElem inside'] at here
      exact here.symm
    have kept := trimLocals_append paired trimmed (second.length - first.length)
    have kept' := trimLocals_append paired' trimmed' 0
    rw [← whole] at kept
    rw [replicate_zero, append_nil] at kept'
    exact kept.symm.trans kept'
  rcases le_total locals.length locals'.length with short | short
  · exact shorter paired trimmed paired' trimmed' same short
  · exact (shorter paired' trimmed' paired trimmed (fun index => (same index).symm) short).symm

end Locals

/-- The local variables are those that the frames of instructions have. -/
structure IsCanonical (frame : Frame) : Prop where
  paired : IsPaired frame.locals
  trimmed : IsTrimmed frame.locals

lemma trim_isCanonical {frame : Frame} (paired : IsPaired frame.locals) :
    frame.trim.IsCanonical :=
  ⟨paired.trim, (trimLocals_parts frame.locals).1⟩

lemma below_trim :
    Below hier lower.trim upper ↔ Below hier lower upper := by
  constructor
  · rintro ⟨locals, stack⟩
    exact ⟨fun index => by simpa [trim] using locals index, stack⟩
  · rintro ⟨locals, stack⟩
    exact ⟨fun index => by simpa [trim] using locals index, stack⟩

section Merge

lemma mergeStacks_ok {merged : List VerificationType} (deep : old.length = new.length) :
    mergeStacks hier old new = .ok merged ↔
      merged.length = old.length ∧ ∀ (index : Nat) (a b type : VerificationType),
        old[index]? = some a → new[index]? = some b → merged[index]? = some type →
          mergeOperand hier a b = .ok type := by
  unfold mergeStacks
  rw [ok_bind_iff]
  simp only [ok_mapM_iff]
  have step (found : List VerificationType) : (pure found.reverse : Except Failure _) = .ok merged ↔
      found = merged.reverse := by
    change Except.ok found.reverse = Except.ok merged ↔ _
    rw [Except.ok.injEq, List.reverse_eq_iff]
  simp only [step, exists_eq_right]
  rw [List.forall₂_reverse_iff, List.forall₂_iff_get]
  simp only [List.length_zip, deep, Nat.min_self, List.get_eq_getElem, List.getElem_zip]
  constructor
  · rintro ⟨size, each⟩
    refine ⟨size.symm, fun index a b type first second third => ?_⟩
    obtain ⟨inside, rfl⟩ := List.getElem?_eq_some_iff.mp first
    obtain ⟨inside', rfl⟩ := List.getElem?_eq_some_iff.mp second
    obtain ⟨inside'', rfl⟩ := List.getElem?_eq_some_iff.mp third
    exact each index inside' inside''
  · rintro ⟨size, each⟩
    refine ⟨size.symm, fun index inside inside' => ?_⟩
    exact each index _ _ _ (List.getElem?_eq_getElem (deep ▸ inside))
      (List.getElem?_eq_getElem inside) (List.getElem?_eq_getElem inside')

lemma mergeStacks_relates (each : ∀ {a b merged}, mergeOperand hier a b = .ok merged →
      related a merged ∧ related b merged) {merged : List VerificationType}
    (deep : old.length = new.length) (made : mergeStacks hier old new = .ok merged) :
    Forall₂ related old merged ∧ Forall₂ related new merged := by
  obtain ⟨size, merges⟩ := (mergeStacks_ok deep).mp made
  have above (index : Nat) (inside : index < old.length) (inside' : index < merged.length) :=
    each (merges index _ _ _ (getElem?_eq_getElem inside)
      (getElem?_eq_getElem (deep ▸ inside)) (getElem?_eq_getElem inside'))
  constructor
  · exact forall₂_iff_get.mpr ⟨size.symm, fun index inside inside' =>
      (above index inside inside').1⟩
  · exact forall₂_iff_get.mpr ⟨deep.symm.trans size.symm, fun index inside inside' =>
      (above index (deep ▸ inside) inside').2⟩

lemma mergeStacks_absorbed {lower upper : List VerificationType}
    (deep : upper.length = lower.length) :
    mergeStacks hier upper lower = .ok upper ↔
      List.Forall₂ (Fits hier) lower upper := by
  rw [mergeStacks_ok deep, List.forall₂_iff_get]
  constructor
  · rintro ⟨_, each⟩
    refine ⟨deep.symm, fun index inside inside' => mergeOperand_absorbed.mp ?_⟩
    exact each index _ _ _ (List.getElem?_eq_getElem inside') (List.getElem?_eq_getElem inside)
      (List.getElem?_eq_getElem inside')
  · rintro ⟨_, each⟩
    refine ⟨rfl, fun index a b type first second third => ?_⟩
    obtain ⟨inside, rfl⟩ := List.getElem?_eq_some_iff.mp first
    obtain ⟨inside', rfl⟩ := List.getElem?_eq_some_iff.mp second
    obtain rfl := some.inj (first.symm.trans third)
    exact mergeOperand_absorbed.mpr (each index inside' inside)

lemma padLocals_length (count : Nat) (locals : List VerificationType) :
    (padLocals count locals).length = max locals.length count := by
  simp only [padLocals, length_append, length_replicate]
  omega

lemma mergeLocals_ok {merged : List VerificationType} :
    mergeLocals hier old new = .ok merged ↔ merged.length = max old.length new.length ∧
        ∀ index, mergeLocal hier (localAt old index) (localAt new index) =
          .ok (localAt merged index) := by
  have left := padLocals_length new.length old
  have right := padLocals_length old.length new
  rw [Nat.max_comm] at right
  rw [mergeLocals, ok_mapM_iff, forall₂_iff_get]
  simp only [length_zip, left, right, Nat.min_self, get_eq_getElem, getElem_zip]
  have padded {index : Nat} {locals : List VerificationType} (inside : index < locals.length) :
      locals[index] = localAt locals index := by
    rw [localAt, getElem?_eq_getElem inside, getD_some]
  constructor
  · rintro ⟨size, each⟩
    refine ⟨size.symm, fun index => ?_⟩
    by_cases inside : index < max old.length new.length
    · have here := each index inside (size ▸ inside)
      rw [padded, padded, padded] at here
      rwa [localAt_pad, localAt_pad] at here
    · have outside {locals : List VerificationType} (short : locals.length ≤ index) :
          localAt locals index = .top := by
        rw [localAt, getElem?_eq_none short, getD_none]
      rw [outside (by omega), outside (by omega), outside (by omega)]
      exact mergeLocal_top _
  · rintro ⟨size, each⟩
    refine ⟨size.symm, fun index inside inside' => ?_⟩
    have here := each index
    rw [← localAt_pad old new.length, ← localAt_pad new old.length] at here
    rwa [padded, padded, padded]

/-- The parts of merging two frames. -/
lemma merge_ok {old new merged : Frame} :
    merge hier old new = .ok merged ↔ old.stack.length = new.stack.length ∧ ∃ stack locals,
        mergeStacks hier old.stack new.stack = .ok stack ∧
          mergeLocals hier old.locals new.locals = .ok locals ∧
            merged = trim ⟨dropHalves locals, stack⟩ := by
  unfold merge
  split
  · next deep =>
    constructor
    · intro failed
      cases failed
    · rintro ⟨same, _⟩
      exact absurd same deep
  · next deep =>
    rw [not_not] at deep
    simp only [ok_bind_iff, deep, true_and]
    refine ⟨?_, ?_⟩
    · rintro ⟨stack, first, locals, second, made⟩
      cases made
      exact ⟨stack, locals, first, second, rfl⟩
    · rintro ⟨stack, locals, first, second, rfl⟩
      exact ⟨stack, first, locals, second, rfl⟩

lemma merge_isCanonical {old new merged : Frame} (made : merge hier old new = .ok merged) :
    merged.IsCanonical := by
  obtain ⟨_, stack, locals, _, _, rfl⟩ := merge_ok.mp made
  exact trim_isCanonical (dropHalves_paired locals)

/-- What holds between types and what they are merged to holds between frames. -/
lemma merge_relates (each : ∀ {a b merged}, mergeOperand hier a b = .ok merged →
      related a merged ∧ related b merged) {old new merged : Frame}
    (made : merge hier old new = .ok merged) :
    Relates related old merged ∧ Relates related new merged := by
  obtain ⟨deep, stack, locals, operands, found, rfl⟩ := merge_ok.mp made
  obtain ⟨first, second⟩ := mergeStacks_relates each deep operands
  have above (index : Nat) : localAt (trimLocals (dropHalves locals)) index = .top ∨
      related (localAt old.locals index) (localAt (trimLocals (dropHalves locals)) index) ∧
        related (localAt new.locals index) (localAt (trimLocals (dropHalves locals)) index) := by
    rw [localAt_trimLocals]
    rcases localAt_dropHalves locals index with unused | same
    · exact .inl unused
    · rw [same]
      exact (mergeLocal_ok ((mergeLocals_ok.mp found).2 index)).imp_right each
  exact ⟨⟨fun index => (above index).imp_right And.left, first⟩,
    ⟨fun index => (above index).imp_right And.right, second⟩⟩

/-- Merging makes frames larger. -/
lemma merge_above (lawful : hier.IsLawful) {old new merged : Frame}
    (made : merge hier old new = .ok merged) :
    Below hier old merged ∧ Below hier new merged :=
  (merge_relates (mergeOperand_above lawful) made).imp Relates.below Relates.below

/-- A frame that another one can be merged into without being changed is above it. -/
lemma below_of_absorbed
    (absorbed : merge hier upper lower = .ok upper) : Below hier lower upper := by
  obtain ⟨deep, stack, locals, operands, found, same⟩ := merge_ok.mp absorbed
  have stackSame : stack = upper.stack := (congrArg Frame.stack same).symm
  have localsSame : upper.locals = trimLocals (dropHalves locals) := congrArg Frame.locals same
  rw [stackSame] at operands
  refine ⟨fun index => ?_, (mergeStacks_absorbed deep).mp operands⟩
  have here := (mergeLocals_ok.mp found).2 index
  have whole : localAt upper.locals index = localAt (dropHalves locals) index := by
    rw [localsSame, localAt_trimLocals]
  rcases localAt_dropHalves locals index with unused | kept
  · exact .inl (whole.trans unused)
  · rw [← kept, ← whole] at here
    exact mergeLocal_absorbed.mp here

lemma Below.absorbed (below : Below hier lower upper)
    (canonical : upper.IsCanonical) : merge hier upper lower = .ok upper := by
  have deep := below.stack.length_eq.symm
  refine merge_ok.mpr ⟨deep, upper.stack, padLocals lower.locals.length upper.locals,
    (mergeStacks_absorbed deep).mpr below.stack, mergeLocals_ok.mpr ⟨?_, fun index => ?_⟩, ?_⟩
  · exact padLocals_length _ _
  · rw [localAt_pad]
    exact mergeLocal_absorbed.mpr (below.locals index)
  · have paired : IsPaired (padLocals lower.locals.length upper.locals) := by
      intro index type found wide
      have here : upper.locals[index]? = some type := by
        have same := localAt_pad upper.locals lower.locals.length index
        rw [localAt, found, getD_some] at same
        rw [same] at wide ⊢
        exact localAt_eq_wide wide
      have next := canonical.paired index type here wide
      rw [padLocals, List.getElem?_append_left (List.getElem?_eq_some_iff.mp next).1, next]
    rw [trim, paired.dropHalves_eq]
    dsimp only
    rw [padLocals, trimLocals_append canonical.paired canonical.trimmed]

end Merge

end Frame

end JvmAsm
