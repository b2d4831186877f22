/- Says what the steps do that the effects of instructions are made of. -/
import JvmAsm.Proofs.Verification.FrameOrder

namespace JvmAsm

open VerificationType List

variable {index : UInt16} {value : Unit} {types : List VerificationType} {type' : VerificationType}
variable {cause : VerificationCause}

/-- The types of objects whose constructors have not been called. -/
inductive Frame.IsFresh : VerificationType → Prop where
  | this : IsFresh .uninitializedThis
  | created (index : Nat) : IsFresh (.uninitialized index)

lemma Frame.not_isFresh_ofFieldType (type : FieldType) : ¬IsFresh (ofFieldType type) := by
  rcases type with (kind | name) | inner
  · cases kind <;> exact nofun
  · exact nofun
  · exact nofun

lemma VerificationType.ofFieldType_ne_top (type : FieldType) : ofFieldType type ≠ .top := by
  rcases type with (kind | name) | inner
  · cases kind <;> exact nofun
  · exact nofun
  · exact nofun

namespace FrameStep

variable {α β γ δ : Type}

section Results

variable {frame after : Frame} {type : VerificationType}

lemma bind_ok {step : FrameStep α} {next : α → FrameStep β} {value : β} :
    (step >>= next) frame = .ok (value, after) ↔
      ∃ found between, step frame = .ok (found, between) ∧
        next found between = .ok (value, after) := by
  have steps : (step >>= next) frame = .ok (value, after) ↔
      ∃ found, step frame = .ok found ∧ next found.1 found.2 = .ok (value, after) := ok_bind_iff
  rw [steps]
  constructor
  · rintro ⟨⟨found, between⟩, first, second⟩
    exact ⟨found, between, first, second⟩
  · rintro ⟨found, between, first, second⟩
    exact ⟨⟨found, between⟩, first, second⟩

lemma pure_ok {value found : α} :
    (pure value : FrameStep α) frame = .ok (found, after) ↔ value = found ∧ frame = after := by
  change Except.ok (value, frame) = _ ↔ _
  rw [Except.ok.injEq, Prod.mk.injEq]

lemma fail_not_ok {value : α} : (fail cause : FrameStep α) frame ≠ .ok (value, after) := nofun

lemma push_ok :
    push type frame = .ok (value, after) ↔ ⟨frame.locals, type :: frame.stack⟩ = after := by
  change Except.ok (_, _) = _ ↔ _
  rw [Except.ok.injEq, Prod.mk.injEq]
  exact and_iff_right rfl

/-- The first operand has been taken from the stack. -/
def Pops (frame : Frame) (type : VerificationType) (after : Frame) : Prop :=
  frame.stack = type :: after.stack ∧ frame.locals = after.locals

lemma pop_ok : pop frame = .ok (type, after) ↔ Pops frame type after := by
  obtain ⟨locals, stack⟩ := frame
  obtain ⟨locals', stack'⟩ := after
  cases stack with
  | nil =>
    constructor
    · intro failed
      cases failed
    · rintro ⟨impossible, _⟩
      cases impossible
  | cons first rest =>
    constructor
    · intro popped
      cases popped
      exact ⟨rfl, rfl⟩
    · rintro ⟨operands, locals⟩
      cases operands
      cases locals
      rfl

/-- A step whose value is looked at before something is made of it. -/
lemma guard_ok {step : FrameStep α} {refused : α → Prop} [DecidablePred refused]
    {cause : α → VerificationCause} {make : α → β} {value : β} :
    (do
      let got ← step
      if refused got then fail (cause got)
      return make got) frame = .ok (value, after) ↔
      ∃ got, step frame = .ok (got, after) ∧ ¬refused got ∧ make got = value := by
  rw [bind_ok]
  constructor
  · rintro ⟨got, between, ran, checked⟩
    dsimp only at checked
    split at checked
    · cases checked
    · next accepted =>
      obtain ⟨rfl, rfl⟩ := pure_ok.mp checked
      exact ⟨got, ran, accepted, rfl⟩
  · rintro ⟨got, ran, accepted, rfl⟩
    refine ⟨got, after, ran, ?_⟩
    dsimp only
    rw [if_neg accepted]
    rfl

lemma popExact_ok : popExact type frame = .ok (value, after) ↔ Pops frame type after := by
  refine guard_ok.trans ?_
  simp [pop_ok]

lemma popReference_ok :
    popReference frame = .ok (type, after) ↔ type.isReference = true ∧ Pops frame type after := by
  refine guard_ok.trans ?_
  simp [pop_ok, and_comm]

lemma popSingle_ok :
    popSingle frame = .ok (type, after) ↔
      (type.isWide || type = .top) = false ∧ Pops frame type after := by
  refine guard_ok.trans ?_
  simp [pop_ok, and_comm]

lemma localType_ok :
    localType index frame = .ok (type, after) ↔
      frame.locals[index.toNat]? = some type ∧ frame = after := by
  unfold localType
  rw [bind_ok]
  constructor
  · rintro ⟨found, between, got, looked⟩
    cases got
    cases present : frame.locals[index.toNat]? with
    | none =>
      rw [present] at looked
      cases looked
    | some found =>
      rw [present] at looked
      obtain ⟨rfl, rfl⟩ := pure_ok.mp looked
      exact ⟨rfl, rfl⟩
  · rintro ⟨present, rfl⟩
    refine ⟨frame, frame, rfl, ?_⟩
    rw [present]
    rfl

lemma checkLocal_ok :
    checkLocal index type frame = .ok (value, after) ↔
      frame.locals[index.toNat]? = some type ∧ frame = after := by
  refine guard_ok.trans ?_
  simp [localType_ok]

lemma referenceLocal_ok :
    referenceLocal index frame = .ok (type, after) ↔
      type.isReference = true ∧ frame.locals[index.toNat]? = some type ∧ frame = after := by
  refine guard_ok.trans ?_
  simp [localType_ok, and_comm]

lemma store_ok :
    store index type frame = .ok (value, after) ↔
      ⟨Frame.storeLocal index.toNat type frame.locals, frame.stack⟩ = after := by
  change Except.ok (_, _) = _ ↔ _
  rw [Except.ok.injEq, Prod.mk.injEq]
  exact and_iff_right rfl

lemma lift_ok {result : Except Failure α} {value : α} :
    (liftM result : FrameStep α) frame = .ok (value, after) ↔ result = .ok value ∧ frame = after := by
  cases result with
  | error failure =>
    constructor
    · intro failed
      cases failed
    · rintro ⟨failed, _⟩
      cases failed
  | ok found =>
    change Except.ok (found, frame) = _ ↔ _
    rw [Except.ok.injEq, Prod.mk.injEq, Except.ok.injEq]

/-- The failure of a step that does not know which instruction has created an object. -/
abbrev notCreated : Failure := .ofCause (.verification .notCreated)

lemma pop_quiet : pop frame ≠ .error notCreated := by
  obtain ⟨locals, _ | _⟩ := frame <;> nofun

lemma bind_error {step : FrameStep α} {next : α → FrameStep β} {failure : Failure} :
    (step >>= next) frame = .error failure ↔ step frame = .error failure ∨
      ∃ found between, step frame = .ok (found, between) ∧ next found between = .error failure := by
  refine (@error_bind_iff _ _ _ (step frame) _ _).trans (or_congr_right ⟨?_, ?_⟩)
  · rintro ⟨⟨found, between⟩, ran, failed⟩
    exact ⟨found, between, ran, failed⟩
  · rintro ⟨found, between, ran, failed⟩
    exact ⟨(found, between), ran, failed⟩

lemma localType_quiet : localType index frame ≠ .error notCreated := by
  intro failed
  obtain failed | ⟨found, _, _, failed⟩ := bind_error.mp failed
  · cases failed
  · cases present : found.locals[index.toNat]? <;> (rw [present] at failed; cases failed)

lemma guard_quiet {step : FrameStep α} {refused : α → Prop} [DecidablePred refused]
    {cause : α → VerificationCause} {make : α → β} (quiet : step frame ≠ .error notCreated)
    (other : ∀ got, cause got ≠ .notCreated) :
    (do
      let got ← step
      if refused got then fail (cause got)
      return make got) frame ≠ .error notCreated := by
  intro failed
  obtain failed | ⟨got, _, -, failed⟩ := bind_error.mp failed
  · exact quiet failed
  · have other := other got
    generalize cause got = found at failed other
    dsimp only at failed
    split at failed <;> cases failed
    exact other rfl

end Results

section Simulation

variable {type : VerificationType} {suits : VerificationType → VerificationType → Prop}

/--
Where a value of the second type can be used, one of the first type can. The types that objects have
before their constructors are called suit only themselves, and neither they nor top have to.
-/
class Compatible (suits : VerificationType → VerificationType → Prop) : Prop where
  plain : ∀ {type}, ¬Frame.IsFresh type → type ≠ .top → suits type type
  isReference_eq : ∀ {type type'}, suits type type' → type.isReference = type'.isReference
  eq_of_not_reference : ∀ {type type'}, suits type type' → type'.isReference = false → type = type'
  eq_of_fresh : ∀ {type type'}, suits type type' → Frame.IsFresh type ∨ Frame.IsFresh type' →
    type = type'
  component : ∀ {array array' element'}, suits array array' → array'.component = .ok element' →
    ∃ element, array.component = .ok element ∧ suits element element'

/-- Types suit only themselves, and those do for which something holds. -/
lemma Compatible.ofPlain {holds : VerificationType → Prop}
    (plain : ∀ {type}, ¬Frame.IsFresh type → type ≠ .top → holds type) :
    Compatible fun a b => a = b ∧ holds b where
  plain fresh other := ⟨rfl, plain fresh other⟩
  isReference_eq fits := fits.1 ▸ rfl
  eq_of_not_reference fits _ := fits.1
  eq_of_fresh fits _ := fits.1
  component {array array' element'} fits found := by
    refine ⟨element', fits.1 ▸ found, rfl, ?_⟩
    unfold VerificationType.component at found
    dsimp only at found
    split at found
    · cases found
      exact plain nofun nofun
    · split at found
      · cases found
      · cases found
        exact plain (Frame.not_isFresh_ofFieldType _) (ofFieldType_ne_top _)
    · cases found

section Compatible

variable [Compatible suits] (fits : suits type type')
include fits

lemma Compatible.isWide_eq : type.isWide = type'.isWide := by
  have narrow {type : VerificationType} (reference : type.isReference = true) :
      type.isWide = false := by
    cases type <;> first | rfl | cases reference
  cases reference : type'.isReference with
  | false => rw [eq_of_not_reference fits reference]
  | true => rw [narrow reference, narrow ((isReference_eq fits).trans reference)]

lemma Compatible.eq_top_iff : type = .top ↔ type' = .top := by
  constructor
  · rintro rfl
    exact (eq_of_not_reference fits (isReference_eq fits).symm).symm
  · rintro rfl
    exact eq_of_not_reference fits rfl

end Compatible

/-- The type is one of those that have their own instructions, and not a reference. -/
class IsExact (type : VerificationType) : Prop where
  isReference : type.isReference = false
  used : type ≠ .top

instance : IsExact .int := ⟨rfl, nofun⟩

instance : IsExact .long := ⟨rfl, nofun⟩

instance : IsExact .float := ⟨rfl, nofun⟩

instance : IsExact .double := ⟨rfl, nofun⟩

/-- Nothing is said of the values that are given. -/
def anyhow (_ : α) (_ : β) : Prop := True

/--
The first step does with a smaller frame what the second one does with a larger frame, and so many
operands are added at most. Where it is asked for, the local variables stay as they are. It is known
which instructions have created objects, unless these are lost.
-/
class Simulates (suits : VerificationType → VerificationType → Prop) (lost fixed : Prop)
    (growth : outParam Int) (related : outParam (α → β → Prop)) (lower : FrameStep α)
    (upper : FrameStep β) : Prop where
  does : ∀ {low high value high'}, Frame.Relates suits low high → upper high = .ok (value, high') →
    (∃ found low', lower low = .ok (found, low') ∧ related found value ∧
      Frame.Relates suits low' high') ∧
    (fixed → high'.locals = high.locals) ∧ (high'.stack.length : Int) ≤ high.stack.length + growth
  fails : ∀ {low high}, Frame.Relates suits low high → upper high = .error notCreated → lost

variable {related : α → β → Prop} {lower lower' : FrameStep α} {upper upper' : FrameStep β}
variable {lost fixed : Prop} {growth growth' : Int}

namespace Simulates

lemma weaken (simulates : Simulates suits lost fixed growth related lower upper)
    (less : growth ≤ growth') : Simulates suits lost fixed growth' related lower upper where
  does below ran := by
    obtain ⟨does, locals, stack⟩ := simulates.does below ran
    exact ⟨does, locals, by omega⟩
  fails := simulates.fails

lemma infer [simulates : Simulates suits lost fixed growth related lower upper]
    (less : growth ≤ growth' := by decide) :
    Simulates suits lost fixed growth' related lower upper :=
  simulates.weaken less

lemma pure {value : α} {value' : β} (holds : related value value') :
    Simulates suits lost fixed 0 related (Pure.pure value) (Pure.pure value') where
  does {low high found high'} below ran := by
    obtain ⟨rfl, rfl⟩ := pure_ok.mp ran
    exact ⟨⟨value, low, rfl, holds, below⟩, fun _ => rfl, by omega⟩
  fails _ failed := nomatch failed

instance : Simulates suits lost fixed 0 anyhow (Pure.pure () : FrameStep Unit) (Pure.pure ()) :=
  pure trivial

lemma fail (other : cause ≠ .notCreated) :
    Simulates suits lost fixed growth related lower (FrameStep.fail cause : FrameStep β) where
  does _ ran := absurd ran fail_not_ok
  fails _ failed := by
    cases failed
    exact absurd rfl other

instance bind {related' : γ → δ → Prop} {next : α → FrameStep γ} {next' : β → FrameStep δ}
    [first : Simulates suits lost fixed growth related lower upper]
    [second : ∀ pair : {pair : α × β // related pair.1 pair.2},
      Simulates suits lost fixed growth' related' (next pair.1.1) (next' pair.1.2)] :
    Simulates suits lost fixed (growth + growth') related' (lower >>= next) (upper >>= next') where
  does below ran := by
    obtain ⟨found', between', ran, rest⟩ := bind_ok.mp ran
    obtain ⟨⟨found, between, ran, holds, below⟩, locals, stack⟩ := first.does below ran
    obtain ⟨⟨result, low', rest, holds, below⟩, locals', stack'⟩ :=
      (second ⟨(found, found'), holds⟩).does below rest
    exact ⟨⟨result, low', bind_ok.mpr ⟨found, between, ran, rest⟩, holds, below⟩,
      fun asked => (locals' asked).trans (locals asked), by omega⟩
  fails below failed := by
    obtain failed | ⟨found', between', ran, failed⟩ := bind_error.mp failed
    · exact first.fails below failed
    · obtain ⟨⟨found, between, _, holds, below⟩, -⟩ := first.does below ran
      exact (second ⟨(found, found'), holds⟩).fails below failed

instance [Simulates suits lost fixed growth related lower upper] :
    Simulates suits lost fixed (growth + 0) anyhow (discard lower) (discard upper) :=
  inferInstanceAs (Simulates _ _ _ _ _ (lower >>= fun _ => Pure.pure ())
    (upper >>= fun _ => Pure.pure ()))

/-- Both steps make the same choice. -/
instance ite {condition condition' : Prop} [Decidable condition] [Decidable condition']
    [same : Fact (condition ↔ condition')]
    [first : Simulates suits lost fixed growth related lower upper]
    [second : Simulates suits lost fixed growth' related lower' upper'] :
    Simulates suits lost fixed (max growth growth') related (if condition then lower else lower')
      (if condition' then upper else upper') := by
  by_cases holds : condition'
  · rw [if_pos holds, if_pos (same.out.mpr holds)]
    exact first.weaken (Int.le_max_left ..)
  · rw [if_neg holds, if_neg (same.out.not.mpr holds)]
    exact second.weaken (Int.le_max_right ..)

lemma lift {result : Except Failure α} {result' : Except Failure β}
    (implies : ∀ value', result' = .ok value' → ∃ value, result = .ok value ∧ related value value')
    (quiet : result' = .error notCreated → lost) :
    Simulates suits lost fixed 0 related (liftM result) (liftM result') where
  does {low high value high'} below ran := by
    obtain ⟨found', rfl⟩ := lift_ok.mp ran
    obtain ⟨found, given, holds⟩ := implies _ found'
    exact ⟨⟨found, low, lift_ok.mpr ⟨given, rfl⟩, holds, below⟩, fun _ => rfl, by omega⟩
  fails _ failed := by
    cases result' <;> cases failed
    exact quiet rfl

instance push [fits : Fact (suits type type')] :
    Simulates suits lost fixed 1 anyhow (push type) (push type') where
  does below ran := by
    obtain rfl := push_ok.mp ran
    exact ⟨⟨(), _, push_ok.mpr rfl, trivial, below.locals, .cons fits.out below.stack⟩,
      fun _ => rfl, by simp⟩
  fails _ failed := nomatch failed

instance : Simulates suits lost fixed 0 anyhow (pushAll []) (pushAll []) := pure trivial

instance {types types' : List VerificationType} [Fact (suits type type')]
    [Simulates suits lost fixed growth anyhow (pushAll types) (pushAll types')] :
    Simulates suits lost fixed (1 + growth) anyhow (pushAll (type :: types))
      (pushAll (type' :: types')) :=
  inferInstanceAs (Simulates _ _ _ _ _ (FrameStep.push type >>= fun _ => pushAll types)
    (FrameStep.push type' >>= fun _ => pushAll types'))

lemma forM {step : γ → FrameStep PUnit} {xs : List γ}
    (each : ∀ value ∈ xs, Simulates suits lost fixed 0 anyhow (step value) (step value)) :
    Simulates suits lost fixed 0 anyhow (xs.forM step) (xs.forM step) := by
  induction xs with
  | nil => exact pure trivial
  | cons value rest ih =>
    have first := each value mem_cons_self
    have later := ih fun later mem => each later (mem_cons_of_mem _ mem)
    have both : Simulates suits lost fixed (0 + 0) anyhow (step value >>= fun _ => rest.forM step)
      (step value >>= fun _ => rest.forM step) := inferInstance
    exact both

end Simulates

/-- What is popped from a smaller frame fits where what is popped from a larger one does. -/
lemma Pops.below {low high high' : Frame} (below : Frame.Relates suits low high)
    (popped : Pops high type' high') :
    ∃ type low', Pops low type low' ∧ suits type type' ∧ Frame.Relates suits low' high' := by
  have operands := below.stack
  rw [popped.1] at operands
  obtain ⟨type, rest, fits, restFits, parts⟩ := forall₂_cons_right_iff.mp operands
  refine ⟨type, ⟨low.locals, rest⟩, ⟨parts, rfl⟩, fits, fun index => ?_, restFits⟩
  rw [← popped.2]
  exact below.locals index

lemma Pops.moves {frame after : Frame} (popped : Pops frame type after) :
    (fixed → after.locals = frame.locals) ∧
      (after.stack.length : Int) ≤ frame.stack.length + -1 := by
  refine ⟨fun _ => popped.2.symm, ?_⟩
  rw [popped.1, length_cons]
  omega

namespace Simulates

/-- What can be popped from a larger frame can be popped from a smaller one. -/
lemma of_pops {accepts : VerificationType → Prop} {step : FrameStep VerificationType}
    (pops : ∀ {frame type after},
      step frame = .ok (type, after) ↔ accepts type ∧ Pops frame type after)
    (smaller : ∀ {type type'}, suits type type' → accepts type' → accepts type)
    (quiet : ∀ {frame}, step frame ≠ .error notCreated) :
    Simulates suits lost fixed (-1) suits step step where
  does below ran := by
    obtain ⟨accepted, popped'⟩ := pops.mp ran
    obtain ⟨type, low', popped, fits, below⟩ := popped'.below below
    exact ⟨⟨type, low', pops.mpr ⟨smaller fits accepted, popped⟩, fits, below⟩, popped'.moves⟩
  fails _ failed := absurd failed quiet

instance : Simulates suits lost fixed (-1) suits pop pop :=
  of_pops (by simp [pop_ok]) (fun _ _ => trivial) pop_quiet

/-- A value can be used where another one is. -/
instance (pair : {pair : VerificationType × VerificationType // suits pair.1 pair.2}) :
    Fact (suits pair.1.1 pair.1.2) := ⟨pair.2⟩

instance {condition : Prop} : Fact (condition ↔ condition) := ⟨Iff.rfl⟩

variable [Compatible suits]

instance (pair : {pair : VerificationType × VerificationType // suits pair.1 pair.2}) :
    Fact (pair.1.1.isWide = true ↔ pair.1.2.isWide = true) :=
  ⟨by rw [Compatible.isWide_eq pair.2]⟩

instance (pair : {pair : VerificationType × VerificationType // suits pair.1 pair.2}) :
    Fact ((!pair.1.1.isWide) = true ↔ (!pair.1.2.isWide) = true) :=
  ⟨by rw [Compatible.isWide_eq pair.2]⟩

instance [exact : IsExact type] : Fact (suits type type) :=
  ⟨Compatible.plain (fun fresh => by cases fresh <;> cases exact.isReference) exact.used⟩

instance : Fact (suits .null .null) := ⟨Compatible.plain nofun nofun⟩

instance {name : ClassName} : Fact (suits (.object name) (.object name)) :=
  ⟨Compatible.plain nofun nofun⟩

instance (pair : {pair : ClassName × ClassName // pair.1 = pair.2}) :
    Fact (suits (.object pair.1.1) (.object pair.1.2)) :=
  ⟨pair.2 ▸ Compatible.plain nofun nofun⟩

instance {type : FieldType} : Fact (suits (ofFieldType type) (ofFieldType type)) :=
  ⟨Compatible.plain (Frame.not_isFresh_ofFieldType type) (ofFieldType_ne_top type)⟩

instance {value : Loadable} : Fact (suits (ofLoadable value) (ofLoadable value)) where
  out := by
    cases value
    case dynamic name type handle arguments =>
      exact Compatible.plain (Frame.not_isFresh_ofFieldType type) (ofFieldType_ne_top type)
    all_goals exact Compatible.plain nofun nofun

instance : Simulates suits lost fixed (-1) suits popReference popReference :=
  of_pops popReference_ok
    (fun fits reference => (Compatible.isReference_eq fits).trans reference)
    (guard_quiet pop_quiet nofun)

instance : Simulates suits lost fixed (-1) suits popSingle popSingle := by
  refine of_pops popSingle_ok (fun fits single => ?_) (guard_quiet pop_quiet nofun)
  simpa [Compatible.isWide_eq fits, Compatible.eq_top_iff fits] using single

instance [exact : IsExact type] :
    Simulates suits lost fixed (-1) anyhow (popExact type) (popExact type) where
  does below ran := by
    have popped' := popExact_ok.mp ran
    obtain ⟨found, low', popped, fits, below⟩ := popped'.below below
    obtain rfl := Compatible.eq_of_not_reference fits exact.isReference
    exact ⟨⟨(), low', popExact_ok.mpr popped, trivial, below⟩, popped'.moves⟩
  fails _ failed := absurd failed (guard_quiet pop_quiet nofun)

instance {types : List VerificationType} [exact : Fact (∀ type ∈ types, IsExact type)] :
    Simulates suits lost fixed 0 anyhow (popAll types) (popAll types) :=
  forM fun type mem =>
    have := exact.out type mem
    infer

instance : Fact (∀ type ∈ [], IsExact type) := ⟨nofun⟩

instance {types : List VerificationType} [first : IsExact type]
    [rest : Fact (∀ type ∈ types, IsExact type)] : Fact (∀ other ∈ type :: types, IsExact other) :=
  ⟨forall_mem_cons.mpr ⟨first, rest.out⟩⟩

instance {type : FieldType} : Simulates suits lost fixed 0 anyhow (popField type) (popField type) := by
  unfold popField
  rcases type with (kind | name) | inner
  · cases kind <;> (dsimp only [ofFieldType, ofPrimitive]; exact infer)
  all_goals
    dsimp only [ofFieldType, ofClass]
    exact infer

instance {descriptor : MethodDescriptor} :
    Simulates suits lost fixed 0 anyhow (popArguments descriptor) (popArguments descriptor) :=
  forM fun _ _ => inferInstance

instance {descriptor : MethodDescriptor} :
    Simulates suits lost fixed 1 anyhow (pushResult descriptor) (pushResult descriptor) := by
  unfold pushResult pushField
  split <;> exact infer

end Simulates

variable [Compatible suits]

lemma below_local {low high : Frame} (below : Frame.Relates suits low high) {index : Nat}
    (present : high.locals[index]? = some type') (used : type' ≠ .top) :
    ∃ type, low.locals[index]? = some type ∧ suits type type' := by
  have fits := below.locals index
  rw [show Frame.localAt high.locals index = type' by rw [Frame.localAt, present]; rfl] at fits
  have fits := fits.resolve_left used
  cases found : low.locals[index]? with
  | some type =>
    rw [Frame.localAt, found] at fits
    exact ⟨type, rfl, fits⟩
  | none =>
    rw [Frame.localAt, found] at fits
    exact absurd ((Compatible.eq_top_iff fits).mp rfl) used

instance [exact : IsExact type] :
    Simulates suits lost fixed 0 anyhow (checkLocal index type) (checkLocal index type) where
  does {low high _ high'} below ran := by
    obtain ⟨present, rfl⟩ := checkLocal_ok.mp ran
    obtain ⟨found, present', fits⟩ := below_local below present exact.used
    obtain rfl := Compatible.eq_of_not_reference fits exact.isReference
    exact ⟨⟨(), low, checkLocal_ok.mpr ⟨present', rfl⟩, trivial, below⟩, fun _ => rfl, by omega⟩
  fails _ failed := absurd failed (guard_quiet localType_quiet nofun)

instance : Simulates suits lost fixed 0 suits (referenceLocal index) (referenceLocal index) where
  does {low high type' high'} below ran := by
    obtain ⟨reference, present, rfl⟩ := referenceLocal_ok.mp ran
    obtain ⟨type, present', fits⟩ := below_local below present fun unused => by
      rw [unused] at reference
      cases reference
    exact ⟨⟨type, low, referenceLocal_ok.mpr
      ⟨(Compatible.isReference_eq fits).trans reference, present', rfl⟩, fits, below⟩,
      fun _ => rfl, by omega⟩
  fails _ failed := absurd failed (guard_quiet localType_quiet nofun)

end Simulation

end FrameStep

end JvmAsm
