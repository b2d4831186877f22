/-
Says what every instruction does to frames: how it changes the local variables, how many operands it
adds, and that it works with a frame if it works with a larger one.
-/
import JvmAsm.Proofs.Verification.Steps

namespace JvmAsm

open VerificationType List FrameStep

variable {hier : Hierarchy} {suits : VerificationType → VerificationType → Prop}
variable {locals : List VerificationType} {instruction : Instruction}

namespace Frame

section Locals

lemma localAt_set {index : Nat} (inside : index < locals.length) (type : VerificationType)
    (other : Nat) :
    localAt (locals.set index type) other = if other = index then type else localAt locals other := by
  unfold localAt
  rw [getElem?_set]
  by_cases same : index = other
  · rw [if_pos same, if_pos inside, if_pos same.symm]
    rfl
  · rw [if_neg same, if_neg (Ne.symm same)]

lemma breakWide_length (index : Nat) (locals : List VerificationType) :
    (breakWide index locals).length = locals.length := by
  unfold breakWide
  split
  · rfl
  · split
    · exact length_set
    · rfl

lemma localAt_breakWide {index : Nat} (inside : index ≤ locals.length) (other : Nat) :
    localAt (breakWide index locals) other =
      if other + 1 = index ∧ (localAt locals other).isWide = true then .top
      else localAt locals other := by
  unfold breakWide
  split
  · simp
  · next before =>
    change localAt (if (localAt locals before).isWide = true then _ else _) other = _
    by_cases same : other = before
    · subst same
      split
      · next wide => rw [localAt_set (by omega), if_pos rfl, if_pos ⟨rfl, wide⟩]
      · next narrow => rw [if_neg fun both => narrow both.2]
    · have apart : ¬(other + 1 = before + 1 ∧ (localAt locals other).isWide = true) :=
        fun both => same (Nat.succ.inj both.1)
      rw [if_neg apart]
      split
      · rw [localAt_set (by omega), if_neg same]
      · rfl

lemma storeLocal_length (index : Nat) (type : VerificationType) (locals : List VerificationType) :
    (storeLocal index type locals).length = max locals.length (index + type.size) := by
  unfold storeLocal
  dsimp only
  rw [length_set]
  split
  · rw [length_set, breakWide_length, padLocals_length]
  · rw [breakWide_length, padLocals_length]

/-- The local variables after one of them has been written. -/
lemma localAt_storeLocal (index : Nat) (type : VerificationType) (locals : List VerificationType)
    (other : Nat) :
    localAt (storeLocal index type locals) other =
      if other = index then type
      else if other = index + 1 ∧ type.isWide = true then .top
      else if other + 1 = index ∧ (localAt locals other).isWide = true then .top
      else localAt locals other := by
  have size : (padLocals (index + type.size) locals).length =
      max locals.length (index + type.size) := padLocals_length _ _
  have sizePositive : 0 < type.size := by unfold VerificationType.size; split <;> omega
  have broken : localAt (breakWide index (padLocals (index + type.size) locals)) other =
      if other + 1 = index ∧ (localAt locals other).isWide = true then .top
      else localAt locals other := by
    rw [localAt_breakWide (by omega), localAt_pad]
  unfold storeLocal
  dsimp only
  cases wide : type.isWide with
  | false =>
    rw [if_neg (by simp), localAt_set (by rw [breakWide_length]; omega), broken]
    simp
  | true =>
    have two : type.size = 2 := by rw [VerificationType.size, wide]; rfl
    rw [if_pos rfl, localAt_set (by rw [length_set, breakWide_length]; omega),
      localAt_set (by rw [breakWide_length]; omega), broken]
    simp

lemma IsPaired.storeLocal (paired : IsPaired locals) (index : Nat) (type : VerificationType) :
    IsPaired (storeLocal index type locals) := by
  rw [isPaired_iff] at paired ⊢
  intro other wide
  rw [storeLocal_length]
  rw [localAt_storeLocal] at wide ⊢
  split at wide
  · next same =>
    subst same
    have two : type.size = 2 := by rw [VerificationType.size, wide]; rfl
    exact ⟨by omega, by rw [if_neg (by omega), if_pos ⟨rfl, wide⟩]⟩
  · split at wide
    · cases wide
    · split at wide
      · cases wide
      · next outside _ kept =>
        obtain ⟨inside, next⟩ := paired other wide
        refine ⟨by omega, ?_⟩
        rw [if_neg fun same => kept ⟨same, wide⟩, next]
        split
        · rfl
        · exact ite_self _

lemma Relates.storeLocal [Compatible suits] {low high : Frame} (below : Relates suits low high)
    (index : Nat) {type type' : VerificationType} (fits : suits type type') :
    Relates suits ⟨storeLocal index type low.locals, low.stack⟩
      ⟨storeLocal index type' high.locals, high.stack⟩ := by
  refine ⟨fun other => ?_, below.stack⟩
  rw [localAt_storeLocal, localAt_storeLocal, Compatible.isWide_eq fits]
  have here := below.locals other
  split
  · exact .inr fits
  · split
    · exact .inl rfl
    · by_cases before : other + 1 = index
      · by_cases wide : (localAt high.locals other).isWide = true
        · rw [if_pos (show _ ∧ _ from ⟨before, wide⟩)]
          exact .inl rfl
        · rw [if_neg fun both : _ ∧ (localAt high.locals other).isWide = true => wide both.2]
          rcases here with unused | here
          · exact .inl unused
          · rw [← Compatible.isWide_eq here] at wide
            rw [if_neg fun both : _ ∧ (localAt low.locals other).isWide = true => wide both.2]
            exact .inr here
      · rw [if_neg fun both => before both.1, if_neg fun both => before both.1]
        exact here

end Locals

section Replace

/-- What a type becomes when a constructor has been called. -/
def constructed (old : VerificationType) (name : ClassName) (type : VerificationType) :
    VerificationType :=
  if type = old then .object name else type

variable {old : VerificationType}

lemma constructed_isWide (fresh : IsFresh old) (name : ClassName) (type : VerificationType) :
    (constructed old name type).isWide = type.isWide := by
  unfold constructed
  split
  · next same =>
    cases fresh <;> (rw [same]; rfl)
  · rfl

lemma constructed_eq_top (fresh : IsFresh old) (name : ClassName) :
    constructed old name .top = .top := by
  cases fresh <;> rfl

lemma localAt_map {change : VerificationType → VerificationType} (top : change .top = .top)
    (locals : List VerificationType) (index : Nat) :
    localAt (locals.map change) index = change (localAt locals index) := by
  unfold localAt
  rw [getElem?_map]
  cases locals[index]? with
  | none => exact top.symm
  | some type => rfl

lemma IsPaired.constructed (paired : IsPaired locals) (fresh : IsFresh old) (name : ClassName) :
    IsPaired (locals.map (constructed old name)) := by
  rw [isPaired_iff] at paired ⊢
  intro index wide
  have top := constructed_eq_top fresh name
  rw [localAt_map top, constructed_isWide fresh] at wide
  obtain ⟨inside, next⟩ := paired index wide
  rw [localAt_map top, next, length_map]
  exact ⟨inside, top⟩

lemma constructed_fits [Compatible suits] (fresh : IsFresh old) (name : ClassName)
    {type type' : VerificationType} (fits : suits type type') :
    suits (constructed old name type) (constructed old name type') := by
  by_cases same : type = old ∨ type' = old
  · have fresh : IsFresh type ∨ IsFresh type' := by rcases same with rfl | rfl <;> simp [fresh]
    obtain rfl := Compatible.eq_of_fresh fits fresh
    rw [constructed, if_pos (or_self_iff.mp same)]
    apply Compatible.plain <;> rintro ⟨⟩
  · rw [not_or] at same
    rwa [constructed, constructed, if_neg same.1, if_neg same.2]

lemma Relates.constructed [Compatible suits] {low high : Frame} (below : Relates suits low high)
    (fresh : IsFresh old) (name : ClassName) :
    Relates suits (replace old (.object name) low) (replace old (.object name) high) := by
  constructor
  · intro index
    change localAt (high.locals.map (Frame.constructed old name)) index = .top ∨
      suits (localAt (low.locals.map (Frame.constructed old name)) index)
        (localAt (high.locals.map (Frame.constructed old name)) index)
    have top := constructed_eq_top fresh name
    rw [localAt_map top, localAt_map top]
    rcases below.locals index with unused | fits
    · exact .inl (unused ▸ top)
    · exact .inr (constructed_fits fresh name fits)
  · change Forall₂ _ (low.stack.map (Frame.constructed old name))
      (high.stack.map (Frame.constructed old name))
    rw [forall₂_map_left_iff, forall₂_map_right_iff]
    exact below.stack.imp fun _ _ fits => constructed_fits fresh name fits

end Replace

end Frame

namespace VerificationType

lemma component_array (type : ArrayType) :
    component (.object (.array type)) =
      match type.component.className? with
      | some name => .ok (.object name)
      | none => .error (.ofCause (.verification (.notReferenceArray (.object (.array type))))) := by
  unfold component
  dsimp only
  cases type.component with
  | array inner => rfl
  | element element =>
    cases element with
    | primitive kind => rfl
    | object name => rfl

lemma Fits.component {array array' element' : VerificationType}
    (fits : Fits hier array array') (found : array'.component = .ok element') :
    ∃ element, array.component = .ok element ∧ Fits hier element element' := by
  cases fits with
  | refl => exact ⟨element', found, .refl _⟩
  | null name =>
    refine ⟨.null, rfl, ?_⟩
    cases name with
    | object base => cases found
    | array type =>
      rw [component_array] at found
      split at found
      · cases found
        exact .null _
      · cases found
  | object below =>
    cases below with
    | refl => exact ⟨element', found, .refl _⟩
    | root => cases found
    | object => cases found
    | @array x y a b left right components =>
      rw [component_array, right] at found
      cases found
      exact ⟨.object a, by rw [component_array, left], .object components⟩

end VerificationType

instance : Compatible (Fits hier) where
  plain _ _ := .refl _
  isReference_eq fits := fits.isReference_eq
  eq_of_not_reference fits plain := fits.eq_of_not_reference plain
  eq_of_fresh fits fresh := by
    rcases fresh with fresh | fresh <;> cases fresh <;> cases fits <;> rfl
  component fits found := fits.component found

namespace FrameStep.Simulates

variable {lost fixed : Prop} [Compatible suits]

instance (pair : {pair : VerificationType × VerificationType // suits pair.1 pair.2}) :
    Simulates suits lost fixed 0 suits (liftM pair.1.1.component) (liftM pair.1.2.component) := by
  refine lift (fun _ found => Compatible.component pair.2 found) fun failed => ?_
  unfold component at failed
  dsimp only at failed
  split at failed
  · cases failed
  · split at failed <;> cases failed
  · cases failed

instance {kind : ValueKind} {returned : Option FieldType} :
    Simulates suits lost fixed 0 anyhow (returnValue kind returned) (returnValue kind returned) := by
  cases returned with
  | none => exact fail nofun
  | some declared =>
    have : Simulates suits lost fixed 0 anyhow (@FrameStep.fail PUnit (.wrongReturn declared))
      (@FrameStep.fail PUnit (.wrongReturn declared)) := fail nofun
    unfold returnValue
    exact infer

end FrameStep.Simulates

section Groups

variable {lost fixed : Prop} [Compatible suits]

instance SimpleOp.execute_works {returned : Option FieldType} {op : SimpleOp} :
    Simulates suits lost fixed 2 anyhow (op.execute returned) (op.execute returned) := by
  cases op
  case returnVoid =>
    cases returned with
    | none => exact (Simulates.pure trivial).weaken (by decide)
    | some => exact Simulates.fail nofun
  all_goals
    simp only [execute, compute, arrayLoad, arrayStore, duplicate2, duplicateBelow2,
      duplicate2Below1, duplicate2Below2]
    exact Simulates.infer

instance {condition : Condition} :
    Simulates suits lost fixed 0 anyhow condition.popOperands condition.popOperands := by
  cases condition
  all_goals
    simp only [Condition.popOperands]
    exact Simulates.infer

instance {type : FieldType} {op : FieldOp} :
    Simulates suits lost fixed 1 anyhow (op.execute type) (op.execute type) := by
  cases op
  all_goals
    simp only [FieldOp.execute, pushField]
    exact Simulates.infer

end Groups

namespace CodeContext

variable {context : CodeContext} {index : Nat} [Compatible suits] {lost fixed : Prop}

instance invoke_works {method : MethodRef} :
    Simulates suits lost fixed 1 suits (invoke method) (invoke method) := by
  have (pair : {pair : VerificationType × VerificationType // suits pair.1 pair.2}) :
      Simulates suits lost fixed 0 suits (pure pair.1.1) (pure pair.1.2) := .pure pair.2
  unfold invoke
  exact Simulates.infer

lemma initialized_ok {called : MethodRef} {old created : VerificationType}
    (found : context.initialized called old = .ok created) :
    Frame.IsFresh old ∧ ∃ name, created = .object name := by
  unfold initialized at found
  split at found
  · cases found
    exact ⟨.this, _, rfl⟩
  · split at found
    · cases found
      exact ⟨.created _, _, rfl⟩
    · cases found
  · cases found

inductive Changes (locals : List VerificationType) : Instruction → List VerificationType → Prop where
  | nothing (instruction : Instruction) : Changes locals instruction locals
  | store (kind : ValueKind) (variableIndex : UInt16) (type : VerificationType)
      (size : type.size = kind.size) :
      Changes locals (.store kind variableIndex)
        (Frame.storeLocal variableIndex.toNat type locals)
  | construct (method : MethodRef) (onInterface : Bool) (old : VerificationType) (name : ClassName)
      (fresh : Frame.IsFresh old) :
      Changes locals (.invokeSpecial method onInterface)
        (locals.map (Frame.constructed old name))

lemma store_ok {kind : ValueKind} {variableIndex : UInt16} {before after : Frame}
    (ran : context.execute index (.store kind variableIndex) before = .ok ((), after)) :
    ∃ type, type.size = kind.size ∧ type ≠ .top ∧
      after.locals = Frame.storeLocal variableIndex.toNat type before.locals := by
  have stored {type : VerificationType} {between : Frame} (popped : Pops before type between)
      (ran : store variableIndex type between = .ok ((), after)) (size : type.size = kind.size)
      (used : type ≠ .top) :
      ∃ type, type.size = kind.size ∧ type ≠ .top ∧
        after.locals = Frame.storeLocal variableIndex.toNat type before.locals := by
    obtain rfl := FrameStep.store_ok.mp ran
    exact ⟨type, size, used, by rw [popped.2]⟩
  cases kind
  case reference =>
    obtain ⟨type, between, popped, ran⟩ := bind_ok.mp ran
    obtain ⟨reference, popped⟩ := popReference_ok.mp popped
    apply stored popped ran
    · cases type <;> first | rfl | cases reference
    · rintro rfl
      cases reference
  all_goals
    obtain ⟨_, between, popped, ran⟩ := bind_ok.mp ran
    exact stored (popExact_ok.mp popped) ran rfl (by decide)

lemma invokeSpecial_ok {method : MethodRef} {onInterface : Bool} {before after : Frame}
    (ran : context.execute index (.invokeSpecial method onInterface) before = .ok ((), after)) :
    Changes before.locals (.invokeSpecial method onInterface) after.locals := by
  obtain ⟨receiver, between, invoked, ran⟩ := bind_ok.mp ran
  obtain ⟨-, kept, -⟩ := (@invoke_works (Fits .rootOnly) _ True True method).does
    (Frame.Below.refl _).relates invoked
  split at ran
  · obtain ⟨created, same, lifted, ran⟩ := bind_ok.mp ran
    obtain ⟨found, rfl⟩ := lift_ok.mp lifted
    obtain ⟨fresh, name, rfl⟩ := initialized_ok found
    cases ran
    rw [← kept trivial]
    exact .construct method onInterface receiver name fresh
  · obtain ⟨_, rfl⟩ := pure_ok.mp ran
    rw [kept trivial]
    exact .nothing _

/-- Long and double local variables stay in pairs. -/
lemma Changes.paired {locals' : List VerificationType}
    (changes : Changes locals instruction locals') (paired : Frame.IsPaired locals) :
    Frame.IsPaired locals' := by
  cases changes with
  | nothing => exact paired
  | store kind variableIndex type => exact paired.storeLocal _ type
  | construct method onInterface old name fresh => exact paired.constructed fresh name

instance store_works {type type' : VerificationType} {variableIndex : UInt16}
    [fits : Fact (suits type type')] :
    Simulates suits lost False 0 anyhow (store variableIndex type) (store variableIndex type') where
  does below ran := by
    obtain rfl := FrameStep.store_ok.mp ran
    exact ⟨⟨(), _, FrameStep.store_ok.mpr rfl, trivial, below.storeLocal _ fits.out⟩, nofun,
      by simp⟩
  fails _ failed := nomatch failed

lemma invokeSpecial_works {method : MethodRef} {onInterface : Bool}
    (origin : ∀ type index, suits type (.uninitialized index) →
      (∀ name, context.instructions[index]? ≠ some (.type .new name)) → lost) :
    Simulates suits lost False 2 anyhow (context.execute index (.invokeSpecial method onInterface))
      (context.execute index (.invokeSpecial method onInterface)) := by
  have (pair : {pair : VerificationType × VerificationType // suits pair.1 pair.2}) :
      Simulates suits lost False 0 anyhow
        (do modify (Frame.replace pair.1.1 (← context.initialized method pair.1.1)))
        (do modify (Frame.replace pair.1.2 (← context.initialized method pair.1.2))) := by
    obtain ⟨⟨receiver, receiver'⟩, fits⟩ := pair
    constructor
    · intro low high value high' below ran
      obtain ⟨created, same, lifted, ran⟩ := bind_ok.mp ran
      obtain ⟨found, rfl⟩ := lift_ok.mp lifted
      obtain ⟨fresh, name, rfl⟩ := initialized_ok found
      -- Only the same object can stand where an object has not been initialized.
      obtain rfl : receiver = receiver' := Compatible.eq_of_fresh fits (.inr fresh)
      cases ran
      refine ⟨⟨(), _, bind_ok.mpr ⟨_, low, lift_ok.mpr ⟨found, rfl⟩, rfl⟩, trivial,
        below.constructed fresh name⟩, nofun, ?_⟩
      simp [Frame.replace]
    · intro low high below failed
      obtain failed | ⟨_, _, _, failed⟩ := bind_error.mp failed
      · cases receiver' with
        | uninitialized created =>
          refine origin receiver created fits fun name got => ?_
          simp only [initialized, got] at failed
          cases failed
        | _ => cases failed
      · cases failed
  simp only [execute]
  exact Simulates.infer

/-- Whether the instruction leaves the local variables as they are. -/
def keepsLocals : Instruction → Prop
  | .store .. | .invokeSpecial .. => False
  | _ => True

lemma execute_works (instruction : Instruction) (created : ∀ name, instruction = .type .new name →
      suits (.uninitialized index) (.uninitialized index))
    (origin : ∀ type index, suits type (.uninitialized index) →
      (∀ name, context.instructions[index]? ≠ some (.type .new name)) → lost) :
    Simulates suits lost (keepsLocals instruction) 2 anyhow (context.execute index instruction)
      (context.execute index instruction) := by
  cases instruction
  case invokeSpecial method onInterface => exact invokeSpecial_works origin
  case jsr | ret => exact Simulates.fail nofun
  case load kind variableIndex =>
    cases kind
    all_goals
      simp only [execute, ValueKind.exactType?]
      exact Simulates.infer
  case store kind variableIndex =>
    cases kind
    all_goals
      simp only [execute, ValueKind.exactType?, keepsLocals]
      exact Simulates.infer
  case type op name =>
    have : Simulates suits lost True 0 Eq (liftM name.arrayClass) (liftM name.arrayClass) :=
      .lift (fun _ found => ⟨_, found, rfl⟩) fun failed => by
        unfold ClassName.arrayClass at failed
        split at failed <;> cases failed
    cases op
    case new =>
      have := Fact.mk (created name rfl)
      simp only [execute]
      exact Simulates.infer
    all_goals
      simp only [execute, keepsLocals]
      exact Simulates.infer
  case newMultiArray name dimensions =>
    have : Fact (∀ type ∈ replicate dimensions.toNat .int, IsExact type) :=
      ⟨fun type mem => eq_of_mem_replicate mem ▸ inferInstance⟩
    simp only [execute]
    exact Simulates.infer
  all_goals
    simp only [execute]
    exact Simulates.infer

/-- What an instruction that succeeds does to the sizes of a frame. -/
lemma execute_ok {before after : Frame}
    (ran : context.execute index instruction before = .ok ((), after)) :
    Changes before.locals instruction after.locals ∧
      after.stack.length ≤ before.stack.length + 2 := by
  have works : Simulates (Fits .rootOnly) True _ _ _ _ _ := @execute_works _ context index _ _
    instruction (fun _ _ => .refl _) fun _ _ _ _ => trivial
  obtain ⟨-, kept, stack⟩ := works.does (Frame.Below.refl _).relates ran
  refine ⟨?_, by omega⟩
  cases instruction with
  | store kind variableIndex =>
    obtain ⟨type, size, _, locals⟩ := store_ok ran
    rw [locals]
    exact .store kind variableIndex type size
  | invokeSpecial method onInterface => exact invokeSpecial_ok ran
  | _ =>
    rw [kept trivial]
    exact .nothing _

end CodeContext

end JvmAsm
