/-
Says what lowering does: resolving the instructions of bytecode gives the instructions that have
been lowered, with the positions of their labels.
-/
import JvmAsm.Bytecode.Lower
import JvmAsm.Proofs.Bytecode.Forms
import JvmAsm.Proofs.Bytecode.Layout
import JvmAsm.Proofs.Code.Labels
import JvmAsm.Proofs.Pool.Loadable

namespace JvmAsm

open List Instruction PoolBuilder

/-- How deep the dynamic constants of an instruction are nested, a call site being one of them. -/
def Instruction.dynamicDepth : Instruction → Nat
  | .constant value => value.depth
  | .invokeDynamic site => 1 + Loadable.depthAll site.arguments
  | _ => 0

/-- Whether execution never goes on to the next instruction. -/
def Op.endsFlow {τ : Type} : Op τ → Bool
  | .simple op => op.endsFlow
  | .goto _ | .ret _ | .tableSwitch .. | .lookupSwitch .. => true
  | _ => false

/-- Whether the instruction has a narrow and a wide form. -/
def Instruction.isJump : Instruction → Bool
  | .branch .. | .goto _ | .jsr _ => true
  | _ => false

@[simp] lemma Op.endsFlow_map {τ σ : Type} (f : τ → σ) (op : Op τ) :
    (op.map f).endsFlow = op.endsFlow := by
  cases op <;> rfl

namespace Bytecode

/-- An instruction of bytecode goes where the instruction goes that it stands for. -/
structure IsLowered (pos : Label → Nat) (instruction : Instruction) (op : Op Nat) : Prop where
  targets : op.targets = instruction.targets.map pos
  shaped : op.IsShaped
  endsFlow : op.endsFlow = instruction.endsFlow
  jump : op.jump?.isSome = instruction.isJump
  branch : ∀ condition target, op = .branch condition target →
    ∃ label, instruction = .branch condition label ∧ target = pos label

lemma lower_gives (instruction : Instruction) :
    Gives (lower instruction) fun op =>
      ∀ pos, IsLowered pos instruction (op.map pos) := by
  have interned {α : Type} {action : PoolM α} {make : α → Op Label}
      (lowered : ∀ value pos, IsLowered pos instruction ((make value).map pos)) :
      Gives (action >>= fun value => pure (make value)) fun op =>
        ∀ pos, IsLowered pos instruction (op.map pos) :=
    (Gives.anything action).bind fun value _ => .pure (lowered value)
  cases instruction with
  | simple | pushByte | pushShort | load | store | increment | goto | jsr | ret
  | newPrimitiveArray => exact .pure fun _ => ⟨rfl, trivial, rfl, rfl, nofun⟩
  | branch condition target =>
    refine .pure fun _ => ⟨rfl, trivial, rfl, rfl, ?_⟩
    rintro _ _ ⟨⟩
    exact ⟨target, rfl, rfl⟩
  | constant | field | invokeVirtual | invokeSpecial | invokeStatic | invokeDynamic | type =>
    exact interned fun _ _ => ⟨rfl, trivial, rfl, rfl, nofun⟩
  | invokeInterface method =>
    refine .after fun index => ?_
    split
    · exact .pure fun _ => ⟨rfl, trivial, rfl, rfl, nofun⟩
    · exact .throw
  | newMultiArray name dimensions =>
    rw [lower]
    split
    · exact Gives.refusal
    · exact interned fun _ _ => ⟨rfl, trivial, rfl, rfl, nofun⟩
  | tableSwitch default low high targets =>
    rw [lower]
    split
    · exact Gives.refusal
    · next ordered =>
      dsimp only
      split
      · exact Gives.refusal
      · next count =>
        refine .pure fun pos => ⟨rfl, ⟨ordered, ?_⟩, rfl, rfl, nofun⟩
        rw [length_map]
        exact not_not.mp count
  | lookupSwitch default pairs =>
    rw [lower]
    split
    · exact Gives.refusal
    · refine .pure fun pos => ⟨?_, trivial, rfl, rfl, nofun⟩
      simp [Op.map, Op.targets, targets]

structure Lowers (pool : PoolBuilder) (pos : Label → Nat) (instruction : Instruction)
    (op : Op Nat) : Prop extends IsLowered pos instruction op where
  resolves : ∀ (f : Nat → UInt16) ⦃table : PoolTable⦄ ⦃boots : PoolTable.Bootstrap⦄,
    table.Agrees boots pool → resolve table boots (op.map f) =
      .ok (instruction.mapTargets fun label => labelOf (f (pos label)))

/-- Keys that increase are accepted when they are read. -/
lemma unsortedKeys?_of_increasing {pairs : List (Int32 × Label)} (f : Label → UInt16)
    (increasing : areIncreasing pairs = true) :
    unsortedKeys? (pairs.map fun pair => (pair.1, f pair.2)) = none := by
  induction pairs with
  | nil => rfl
  | cons first rest ih =>
    cases rest with
    | nil => rfl
    | cons second rest =>
      rw [areIncreasing, Bool.and_eq_true, decide_eq_true_eq] at increasing
      rw [map_cons, map_cons, unsortedKeys?, if_neg (Int32.not_le.mpr increasing.1)]
      exact ih increasing.2

section Lower

variable {before : PoolBuilder → Prop}

/-- What is lowered resolves to the instruction, with labels for what its labels become. -/
def Resolves (pool : PoolBuilder) (instruction : Instruction) (op : Op Label) : Prop :=
  ∀ (f : Label → UInt16) ⦃table : PoolTable⦄ ⦃boots : PoolTable.Bootstrap⦄,
    table.Agrees boots pool → resolve table boots (op.map f) =
      .ok (instruction.mapTargets fun label => labelOf (f label))

lemma lower_resolves (instruction : Instruction) :
    Yields before (lower instruction) fun op pool =>
      instruction.dynamicDepth ≤ PoolTable.maxDynamicDepth + 1 → Resolves pool instruction op := by
  have interned {action : PoolM UInt16} {make : UInt16 → Op Label}
      {after : UInt16 → PoolBuilder → Prop} (yields : Yields before action after)
      (resolves : ∀ index pool, after index pool →
        instruction.dynamicDepth ≤ PoolTable.maxDynamicDepth + 1 →
          Resolves pool instruction (make index)) :
      Yields before (do return make (← action)) fun op pool =>
        instruction.dynamicDepth ≤ PoolTable.maxDynamicDepth + 1 → Resolves pool instruction op :=
    yields.bind fun index => .pure fun pool known => resolves index pool known.2
  cases instruction with
  | simple | pushByte | pushShort | load | store | increment | ret | branch | goto | jsr =>
    exact .pure fun _ _ _ _ _ _ _ => rfl
  | newPrimitiveArray element =>
    refine .pure fun _ _ _ _ _ _ _ => ?_
    simp [Op.map, resolve, mapTargets]
  | constant value =>
    exact interned (loadable_yields value) fun _ _ known nested _ _ _ agrees =>
      ok_bind_iff.mpr ⟨value, known.2 _ nested agrees, rfl⟩
  | invokeDynamic site =>
    refine interned (invokeDynamic_yields site) fun _ _ known nested _ _ _ agrees =>
      ok_bind_iff.mpr ⟨site, known ?_ agrees, rfl⟩
    simp only [dynamicDepth] at nested
    omega
  | field op field =>
    exact interned (fieldRef_yields field) fun _ _ known _ _ _ _ agrees =>
      ok_bind_iff.mpr ⟨field, known.2 _ agrees.has, rfl⟩
  | invokeVirtual method =>
    exact interned (methodRef_yields method false) fun _ _ known _ _ _ _ agrees =>
      ok_bind_iff.mpr ⟨method, known.methodRef.2 _ agrees.has, rfl⟩
  | invokeSpecial method onInterface | invokeStatic method onInterface =>
    exact interned (methodRef_yields method onInterface) fun _ _ known _ _ _ _ agrees =>
      ok_bind_iff.mpr ⟨(method, onInterface), known.2 _ agrees.has, rfl⟩
  | invokeInterface method =>
    refine (methodRef_yields method true).bind fun index => ?_
    split
    · next count counted =>
      refine .pure fun pool known _ f table boots agrees => ok_bind_iff.mpr
        ⟨method, known.2.interfaceMethodRef.2 table agrees.has, ok_bind_iff.mpr ⟨count, counted, ?_⟩⟩
      simp [mapTargets]
    · exact .throw
  | type op name =>
    exact interned (className_yields name) fun _ _ known _ _ _ _ agrees =>
      ok_bind_iff.mpr ⟨name, known.1.2 _ agrees.has, rfl⟩
  | newMultiArray name dimensions =>
    rw [lower]
    refine .refusing (fun _ _ _ => by rintro ⟨⟩) fun some => ?_
    refine interned (className_yields name) fun _ _ known _ _ table _ agrees =>
      ok_bind_iff.mpr ⟨name, known.1.2 table agrees.has, ?_⟩
    simp [some, mapTargets]
  | tableSwitch default low high targets =>
    rw [lower]
    refine .refusing (fun _ _ _ => by rintro ⟨⟩) fun _ =>
      .refusing (fun _ _ _ => by rintro ⟨⟩) fun _ => .pure fun _ _ _ _ _ _ _ => ?_
    simp [Op.map, resolve, mapTargets]
  | lookupSwitch default pairs =>
    rw [lower]
    refine .refusing (fun _ _ _ => by rintro ⟨⟩) fun sorted =>
      .pure fun _ _ _ f _ _ _ => ?_
    have keys := unsortedKeys?_of_increasing f (by simpa using sorted)
    simp [Op.map, resolve, mapTargets, Function.comp_def, keys]

/-- What is lowered is known, if its constants are not nested too deep. -/
lemma lower_yields (instruction : Instruction) :
    Yields before (lower instruction) fun op pool =>
      instruction.dynamicDepth ≤ PoolTable.maxDynamicDepth + 1 →
        ∀ pos, Lowers pool pos instruction (op.map pos) := by
  have resolves : Yields before _ _ := lower_resolves instruction
  refine (resolves.and (resolves.ofRun (lower_gives instruction))).weaken ?_
  rintro op pool _ ⟨resolves, lowered⟩ nested pos
  refine ⟨lowered pos, fun f table boots agrees => ?_⟩
  rw [Op.map_map]
  exact resolves nested _ agrees

/-- The labels that are bound once an entry has been looked at. -/
def bindLabel (bound : Std.HashMap Label Nat) (entry : Entry) (index : Nat) :
    Std.HashMap Label Nat :=
  match entry.label with
  | some label => bound.insert label index
  | none => bound

lemma lowerFrom_cons (positions bound : Std.HashMap Label Nat) (entry : Entry) (rest : List Entry)
    (found : Array (Op Nat)) (pool : PoolBuilder) :
    lowerFrom positions (entry :: rest) bound found pool =
      match lower entry.instruction pool with
      | .ok op pool =>
        let bound := bindLabel bound entry found.size
        lowerFrom positions rest bound (found.push (op.map (targetIndex bound positions))) pool
      | .error failure pool =>
        .ok (found.toList, some (atInstruction found.size entry.instruction failure)) pool := rfl

/-- Simple instructions are lowered as they are. -/
lemma lowerFrom_simple (positions bound : Std.HashMap Label Nat) (op : SimpleOp) (count : Nat)
    (rest : List Entry) (found : Array (Op Nat)) (pool : PoolBuilder) :
    lowerFrom positions (replicate count ⟨none, .simple op⟩ ++ rest) bound found pool =
      lowerFrom positions rest bound (found ++ Array.replicate count (.simple op)) pool := by
  induction count generalizing found with
  | zero => simp
  | succ count ih =>
    have next : lowerFrom positions (replicate (count + 1) ⟨none, .simple op⟩ ++ rest) bound
        found pool = lowerFrom positions (replicate count ⟨none, .simple op⟩ ++ rest) bound
          (found.push (.simple op)) pool := rfl
    rw [next, ih, Array.replicate_succ', Array.push_eq_append, Array.append_assoc]

lemma bindLabel_cases {bound : Std.HashMap Label Nat} {entry : Entry} {index pos : Nat}
    {label : Label} (found : (bindLabel bound entry index)[label]? = some pos) :
    (entry.label = some label ∧ pos = index) ∨ bound[label]? = some pos := by
  unfold bindLabel at found
  split at found
  · next here labelled =>
    rw [Std.HashMap.getElem?_insert] at found
    split at found
    · next equal =>
      obtain rfl := eq_of_beq equal
      exact .inl ⟨labelled, (Option.some.inj found).symm⟩
    · exact .inr found
  · exact .inr found

/--
All instructions are lowered if none fails. The labels that are bound so far have to be where they
are in the end.
-/
lemma lowerFrom_ok {positions bound : Std.HashMap Label Nat} {entries : List Entry}
    {found : Array (Op Nat)} {pool pool' : PoolBuilder} {ops : List (Op Nat)}
    (same : ∀ (label : Label) (index : Nat), bound[label]? = some index →
      positions[label]? = some index)
    (stands : ∀ (index : Nat) (entry : Entry) (label : Label), entries[index]? = some entry →
      entry.label = some label → positions[label]? = some (found.size + index))
    (ran : lowerFrom positions entries bound found pool = .ok (ops, none) pool') :
    ∃ lowered, entries.mapM (fun entry => lower entry.instruction) pool = .ok lowered pool' ∧
      ops = found.toList ++ lowered.map (Op.map fun label => positions[label]?.getD 0) := by
  induction entries generalizing bound found pool with
  | nil =>
    cases ran
    exact ⟨[], rfl, (append_nil _).symm⟩
  | cons entry rest ih =>
    rw [lowerFrom_cons] at ran
    generalize grown : bindLabel bound entry found.size = bound' at ran
    have same' : ∀ (label : Label) (index : Nat), bound'[label]? = some index →
        positions[label]? = some index := by
      intro label index got
      rw [← grown] at got
      rcases bindLabel_cases got with ⟨labelled, rfl⟩ | before
      · exact stands 0 entry label rfl labelled
      · exact same label index before
    have target : targetIndex bound' positions = fun label => positions[label]?.getD 0 := by
      funext label
      rw [targetIndex]
      cases got : bound'[label]? with
      | none => rfl
      | some index => rw [same' label index got]; rfl
    split at ran
    · next op between lowered =>
      obtain ⟨more, mapped, rfl⟩ := ih same' (fun index entry label got labelled => by
        rw [stands (index + 1) entry label got labelled, Array.size_push]
        congr 1
        omega) ran
      refine ⟨op :: more, ?_, by simp [target]⟩
      rw [mapM_cons]
      exact ran_bind lowered (ran_bind mapped rfl)
    · cases ran

lemma lowerAll_ok {code : Code} {pool pool' : PoolBuilder} {ops : List (Op Nat)}
    (once : code.BindsOnce) (ran : lowerAll code pool = .ok (ops, none) pool') :
    ∃ lowered, code.instructions.mapM (fun entry => lower entry.instruction) pool =
        .ok lowered pool' ∧ ops = lowered.map (Op.map code.positionOf) := by
  refine lowerFrom_ok (by simp) (fun index entry label got bound => ?_) ran
  rw [once.positions_iff, Code.mem_bindings, size_toArray, length_nil, zero_add]
  exact .inl ⟨entry, got, bound⟩

end Lower

end Bytecode

end JvmAsm
