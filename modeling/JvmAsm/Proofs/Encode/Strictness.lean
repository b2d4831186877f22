/-
Shows that classes that are encoded without any knowledge of super classes are encoded in the same
way whatever is known: a search for frames that succeeds has never asked for a super class, so that
it takes the same steps with every hierarchy.
-/
import JvmAsm.Proofs.RoundTrip.Binary

namespace JvmAsm

open List Encode

variable {α β γ : Type}

section Merging

variable (hier : Hierarchy)

/-- No two classes have a common super class if nothing is known. -/
lemma Hierarchy.mergeObjects_unknown (a b : ClassName) :
    Entails (Hierarchy.unknown.mergeObjects a b) (hier.mergeObjects a b) :=
  Entails.failure

lemma Hierarchy.mergeWithin_unknown (a b : ClassName) (dimensions : Nat) :
    Entails (Hierarchy.unknown.mergeWithin a b dimensions)
      (hier.mergeWithin a b dimensions) := by
  induction dimensions generalizing a b with
  | zero => exact .ite (.refl _) (.ite (.refl _) (.ite (.refl _) (mergeObjects_unknown _ _ _)))
  | succ dimensions ih =>
    refine .ite (.refl _) (.ite (.refl _) ?_)
    cases a with
    | object name =>
      cases b with
      | object name' => exact mergeObjects_unknown _ _ _
      | array type => exact .refl _
    | array type =>
      cases b with
      | object name => exact .refl _
      | array type' =>
        dsimp only
        cases type.component.className? with
        | none => exact .refl _
        | some component =>
          cases type'.component.className? with
          | none => exact .refl _
          | some component' => exact (ih component component').bind fun _ => .refl _

lemma VerificationType.mergeLocal_unknown (a b : VerificationType) :
    Entails (mergeLocal .unknown a b) (mergeLocal hier a b) := by
  unfold mergeLocal
  split
  · exact (Hierarchy.mergeWithin_unknown hier _ _ _).bind fun _ => .refl _
  · exact .refl _

lemma VerificationType.mergeOperand_unknown (a b : VerificationType) :
    Entails (mergeOperand .unknown a b) (mergeOperand hier a b) := by
  unfold mergeOperand
  split
  · exact (Hierarchy.mergeWithin_unknown hier _ _ _).bind fun _ => .refl _
  · exact .refl _

lemma Frame.merge_unknown (old new : Frame) :
    Entails (merge .unknown old new) (merge hier old new) := by
  unfold merge
  refine .ite .failure ?_
  refine Entails.bind ?_ fun stack => Entails.bind ?_ fun locals => .refl _
  · exact Entails.bind (.mapM (fun pair => VerificationType.mergeOperand_unknown hier _ _) _)
      fun _ => .refl _
  · exact .mapM (fun pair => VerificationType.mergeLocal_unknown hier _ _) _

end Merging

namespace FlowProblem

variable (flow : FlowProblem)

/-- The same code, without any knowledge of super classes. -/
def strict : FlowProblem := { flow with hierarchy := .unknown }

lemma mergeInto_strict (target : Nat) (frame : Frame) (state : FlowState) :
    Entails (flow.strict.mergeInto target frame state)
      (flow.mergeInto target frame state) := by
  intro next merged
  unfold mergeInto at merged ⊢
  dsimp only at merged ⊢
  split at merged
  · exact merged
  · next old _ =>
    split at merged
    · next found =>
      cases merged
      rw [Frame.merge_unknown flow.hierarchy old _ _ found]
    · contradiction

/-- Where execution may go on does not depend on super classes. -/
lemma visitWith_strict (index : Nat) (instruction : Instruction) (before : Frame)
    (state : FlowState) :
    Entails (flow.strict.visitWith index instruction before state)
      (flow.visitWith index instruction before state) := by
  refine Entails.bind (.refl _) fun ran => .foldlM (fun state outgoing => ?_) _ _
  obtain ⟨target, frame⟩ := outgoing
  exact Entails.bind (.refl target) fun target => flow.mergeInto_strict target frame state

lemma visit_strict (index : Nat) (state : FlowState) :
    Entails (flow.strict.visit index state) (flow.visit index state) := by
  have same : flow.strict.instructions = flow.instructions := rfl
  unfold visit
  rw [same]
  cases flow.instructions[index]? with
  | none => exact .refl _
  | some instruction =>
    cases (state.frames[index]?).join with
    | none => exact .refl _
    | some before =>
      intro next visited
      dsimp only at visited ⊢
      split at visited
      · next found => rwa [flow.visitWith_strict index instruction before state _ found]
      · contradiction

/-- A search that succeeds takes the same steps with other knowledge and more fuel. -/
lemma run_strict {fuel more : Nat} (enough : fuel ≤ more) (state : FlowState) :
    Entails (flow.strict.run fuel state) (flow.run more state) := by
  induction fuel generalizing more state with
  | zero => exact .failure
  | succ fuel ih =>
    obtain ⟨more, rfl⟩ : ∃ least, more = least + 1 := ⟨more - 1, by omega⟩
    unfold run
    split
    · exact .refl _
    · exact (flow.visit_strict _ _).bind fun next => ih (by omega) next

/-- A search is given up the later the more is known. -/
lemma budget_strict (entry : Frame) : flow.strict.budget entry ≤ flow.budget entry := by
  have height : flow.strict.typeHeight ≤ flow.typeHeight :=
    Nat.mul_le_mul_left 256 (Nat.add_le_add_right (Nat.zero_le _) 2)
  exact Nat.succ_le_succ (Nat.mul_le_mul_left _ (Nat.succ_le_succ
    (Nat.mul_le_mul_right _ height)))

lemma search_strict (entry : Frame) :
    Entails (flow.strict.run (flow.strict.budget entry) (flow.strict.start entry))
      (flow.run (flow.budget entry) (flow.start entry)) :=
  flow.run_strict (flow.budget_strict entry) _

end FlowProblem

lemma computeFrames_unknown (hier : Hierarchy) (owner : ClassName) (method : Method) :
    Entails (computeFrames .unknown owner method) (computeFrames hier owner method) := by
  unfold computeFrames
  split
  · refine Entails.bind (.refl _) fun _ => .ite .failure ?_
    unfold FlowProblem.ofMethod
    rw [bind_assoc, bind_assoc]
    refine Entails.bind (.refl _) fun coverage => ?_
    rw [pure_bind, pure_bind]
    exact Entails.bind (Entails.mapError (FlowProblem.search_strict ⟨_, hier, _, coverage⟩ _))
      fun state => .refl _
  · exact .failure

namespace Encode

/-- The second encoder gives what the first one gives, and leaves the same state. -/
def EntailsRun (first second : Encoder α) : Prop :=
  ∀ state value state', first state = .ok value state' → second state = .ok value state'

namespace EntailsRun

variable {first second : Encoder α}

lemma refl (encoder : Encoder α) : EntailsRun encoder encoder := fun _ _ _ ran => ran

lemma bind {next next' : α → Encoder β} (starts : EntailsRun first second)
    (goesOn : ∀ value, EntailsRun (next value) (next' value)) :
    EntailsRun (first >>= next) (second >>= next') := by
  intro state result state' ran
  obtain ⟨value, between, found, ran⟩ := ran_parts ran
  exact ran_bind (starts _ _ _ found) (goesOn value _ _ _ ran)

lemma ite {condition : Prop} [Decidable condition] {other other' : Encoder α}
    (holds : EntailsRun first second) (fails : EntailsRun other other') :
    EntailsRun (if condition then first else other) (if condition then second else other') := by
  split
  · exact holds
  · exact fails

lemma ofResult {result result' : Except Failure α} (entails : Entails result result') :
    EntailsRun (ofResult result) (ofResult result') := by
  intro state value state' ran
  cases result with
  | error failure => contradiction
  | ok found => rwa [entails found rfl]

lemma within (cause : EncodingCause) (entails : EntailsRun first second) :
    EntailsRun (within cause first) (within cause second) := by
  intro state value state' ran
  unfold Encode.within at ran ⊢
  split at ran
  · next found => rwa [entails _ _ _ found]
  · contradiction

lemma mapM {encoder : β → Encoder α} {encoder' : γ → Encoder α} {xs : List β}
    {xs' : List γ}
    (all : Forall₂ (fun value value' => EntailsRun (encoder value) (encoder' value')) xs
      xs') : EntailsRun (xs.mapM encoder) (xs'.mapM encoder') := by
  induction all with
  | nil => exact refl _
  | cons first _ ih =>
    rw [mapM_cons, mapM_cons]
    exact first.bind fun _ => ih.bind fun _ => refl _

end EntailsRun

variable (options : EncodeOptions)

lemma analyzeCode_unknown (owner : ClassFile) (method : Method) (code : Code) :
    EntailsRun (analyzeCode { options with hierarchy := .unknown } owner method code)
      (analyzeCode options owner method code) := by
  have found : Entails (findings { options with hierarchy := .unknown } owner method code)
      (findings options owner method code) :=
    .ite (.refl _) (.ite ((computeFrames_unknown _ _ _).bind fun _ => .refl _) (.refl _))
  rw [analyzeCode_eq, analyzeCode_eq]
  exact .ite (.bind (.refl _) fun _ => .ofResult found) (.ofResult found)

lemma analyze_unknown (owner : ClassFile) (method : Method) :
    EntailsRun (analyze { options with hierarchy := .unknown } owner method)
      (analyze options owner method) := by
  unfold analyze
  split
  · exact .refl _
  · exact .within _ (analyzeCode_unknown options owner method _)

lemma classBytes_unknown (value : ClassFile) :
    EntailsRun (classBytes { options with hierarchy := .unknown } value)
      (classBytes options value) := by
  unfold classBytes
  have analyzed {rest : List Analysis → Encoder (List UInt8)} :=
    (EntailsRun.mapM (forall₂_same.mpr fun method (_ : method ∈ value.methods) =>
      analyze_unknown options value method)).bind fun analyses => EntailsRun.refl (rest analyses)
  exact .ite (.refl _) (.ite (.bind (.refl _) fun _ => analyzed) analyzed)

end Encode

/--
A class that is encoded although nothing is known of super classes is encoded as the same bytes with
every hierarchy, whatever it answers and whether it fails.
-/
theorem encode_of_unknown {options : EncodeOptions} {value : ClassFile} {bytes : List UInt8}
    (strict : encode { options with hierarchy := .unknown } value = .ok bytes)
    (hier : Hierarchy) : encode { options with hierarchy := hier } value = .ok bytes := by
  unfold encode encodeWithWarnings at strict ⊢
  split at strict
  · next found =>
    rwa [classBytes_unknown { options with hierarchy := hier } value _ _ _ found]
  · contradiction

/-- A hierarchy that fails whenever it is asked is not asked for a method that returns at once. -/
theorem encode_of_unknown_idle :
    encode { hierarchy := .unknown } (.idle none) = .ok idleBytes ∧
      encode { hierarchy := ⟨fun _ _ => .error (.ofKind .encoding), 0⟩ } (.idle none) = .ok idleBytes :=
  have strict : encode { hierarchy := .unknown } (.idle none) = .ok idleBytes := by cbv
  ⟨strict, @encode_of_unknown {} _ _ strict _⟩

end JvmAsm
