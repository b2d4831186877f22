/- Reads back the instructions of code that has been laid out. -/
import JvmAsm.Proofs.Decode.Code

namespace JvmAsm

open Binary Decode Code
open List hiding Cursor.at

variable {index : Nat} {body : List UInt8} {version : Version} {label : Label} {op : Op Nat}

namespace Bytecode

/-- The label that stands for the instruction at a position. -/
def positionLabel (pos : Nat) : Label := labelOf (UInt16.ofNat pos)

def readInstructions (table : PoolTable) (boots : PoolTable.Bootstrap)
    (bytecode : List UInt8) : Except Failure (List Instruction) := do
  let placed ← ops bytecode 0
  let positions := startPositions placed bytecode.length
  let references := placed.flatMap fun placed => placed.op.targets.map labelOf
  if let some offset := misplacedOffset? positions references then
    throw (.ofCause (.binary (.insideInstruction offset)))
  placed.mapM fun placed => do
    let instruction ← resolve table boots placed.op
    return instruction.mapTargets fun label => positionLabel (positions[label]?.getD 0)

/-- The position of an instruction, if some of those before it have become two. -/
def positionAfter (splits : Nat → Bool) (index : Nat) : Nat :=
  index + (List.range index).countP splits

lemma positionAfter_succ (splits : Nat → Bool) (index : Nat) :
    positionAfter splits (index + 1) =
      positionAfter splits index + if splits index then 2 else 1 := by
  rw [positionAfter, positionAfter, range_succ, countP_append, countP_singleton]
  split <;> omega

end Bytecode

namespace Code

open Bytecode

/--
What the instruction at an index becomes if some instructions become two: the opposite branch to
the instruction that follows it, and a jump to its target.
-/
def readBackAt (code : Code) (splits : Nat → Bool) (instruction : Instruction) (index : Nat) :
    List Instruction :=
  let label (index : Nat) : Label := positionLabel (positionAfter splits index)
  match instruction, splits index with
  | .branch condition target, true =>
    [.branch condition.negate (label (index + 1)), .goto (label (code.positionOf target))]
  | instruction, _ => [instruction.mapTargets fun target => label (code.positionOf target)]

/-- The instructions of code, of which the given ones are conditional branches that become two. -/
def readBack (code : Code) (splits : Nat → Bool) : List Instruction :=
  code.instructions.zipIdx.flatMap fun (entry, index) =>
    code.readBackAt splits entry.instruction index

end Code

namespace Bytecode

namespace Layout

variable {layout : Layout} {ops : List (Op Nat)}

/-- Whether the instruction at an index is written as two instructions. -/
def splits (layout : Layout) (ops : List (Op Nat)) (index : Nat) : Bool :=
  (ops[index]?.map fun op => layout.isInverted op index).getD false

end Layout

end Bytecode

namespace Encode

open Bytecode

variable {code : Code} {written : Written}

/-- Reads the bytecode out of the body of code. -/
def bytecodeReader : ByteReader (List UInt8) := do
  ByteReader.skip 4
  ByteReader.bytes (← ByteReader.u32).toNat

def bytecodeOf (body : List UInt8) : List UInt8 :=
  match bytecodeReader (Cursor.at body 0) with
  | .ok found _ => found
  | .error _ _ => []

/-- Whether an instruction of code is written as a branch over a jump. -/
def isWrittenInverted (code : Code) (state : State) (index : Nat) : Bool :=
  match layOut code state with
  | .ok (ops, layout) _ => layout.splits ops index
  | .error _ _ => false

lemma bytecodeOf_eq {stack locals : UInt16} {pool : PoolBuilder}
    (isBody : IsBody written stack locals body pool) : bytecodeOf body = written.bytecode := by
  obtain ⟨handlers, tables, rfl, -, -⟩ := isBody.parts
  have small : written.bytecode.length < 4294967296 := by
    have stop : written.layout.stop ≤ 0xffff := isBody.found.stop_le
    rw [Written.bytecode_length isBody.found]
    omega
  have contents := Reads.bytes written.bytecode
  rw [← UInt32.toNat_ofNat_of_lt' small] at contents
  have reads : Reads bytecodeReader ((bytes16 stack ++ bytes16 locals) ++
      (bytes32 (UInt32.ofNat written.bytecode.length) ++ written.bytecode)) written.bytecode :=
    (Reads.skip (bytes16 stack ++ bytes16 locals)).bind ((Reads.u32 _).bind contents)
  rw [bytecodeOf, reads 0 (Cursor.at _ 0) (handlers ++ tables) rfl (by simp [Cursor.at])]

lemma checkCode_keeps {state state' : State}
    (checked : checkCode version code state = .ok () state') : state' = state := by
  obtain ⟨_, between, labels, checked⟩ := ran_bind_iff.mp checked
  obtain ⟨-, rfl⟩ := ofResult_ok labels
  split at checked
  · obtain ⟨_, _, failed, _⟩ := ran_parts checked
    contradiction
  · split at checked
    · split at checked
      · contradiction
      · exact (ran_pure_iff.mp checked).2.symm
    · exact (ran_pure_iff.mp checked).2.symm

/-- The parts of writing the body of code. -/
lemma codeBody_ok {analysis : Analysis} {state state' : State} (once : code.BindsOnce)
    (nested : code.IsNested) (wf : state.pool.WellFormed)
    (written : codeBody version code analysis state = .ok body state') :
    ∃ ops layout between stack locals, layOut code state = .ok (ops, layout) between ∧
      IsBody (.placed code analysis ops layout) stack locals body state'.pool := by
  rw [codeBody_eq] at written
  obtain ⟨_, first, checked, rest⟩ := ran_parts written
  obtain ⟨⟨ops, layout⟩, second, laidOut, last⟩ := ran_parts rest
  obtain rfl := checkCode_keeps checked
  have checks : Yields (fun _ => True) (checkCode version code) _ := checkCode_yields version code
  obtain ⟨_, grown, known⟩ := checks _ _ _ wf (fun _ _ => trivial) checked
  have lays : Yields (fun _ => True) (layOut code) _ := layOut_yields once
  obtain ⟨wf', grown', known'⟩ := lays _ _ _ wf (fun _ _ => trivial) laidOut
  have settled := (known' _ (.refl _) nested).found
  have writes : Yields _ (writeBody _ analysis) _ := @writeBody_yields (fun _ => True) analysis
    (.placed code analysis ops layout) (Layout.ofOps_found settled) rfl
  obtain ⟨_, _, after⟩ := writes _ _ _ wf' (fun later more =>
    ⟨⟨trivial, known later (grown'.trans more)⟩, known' later more nested⟩) last
  obtain ⟨locals, isBody, -⟩ := after _ (.refl _)
  exact ⟨ops, layout, second, _, locals, laidOut, isBody⟩

/-- Where an instruction is found if nothing is replaced. -/
lemma Written.IsWhole.positionRead_eq_positionAfter (whole : written.IsWhole)
    (inside : index ≤ written.ops.length) :
    written.positionRead index = positionAfter (written.layout.splits written.ops) index := by
  induction index with
  | zero => rfl
  | succ index ih =>
    rw [whole.positionRead_succ inside, positionAfter_succ, ih (by omega), Layout.splits,
      List.getElem?_eq_getElem inside]
    rfl

namespace IsBody

variable {written : Written} {stack locals : UInt16} {pool : PoolBuilder} {table : PoolTable}
  {boots : PoolTable.Bootstrap} (isBody : IsBody written stack locals body pool)
  (whole : written.IsWhole)
include isBody whole

/-- The instructions that are read where nothing has been replaced. -/
lemma readInstructions_whole (laid : written.IsLaid) (agrees : table.Agrees boots pool) :
    readInstructions table boots written.bytecode =
      .ok (written.code.readBack (written.layout.splits written.ops)) := by
  let name (label : Label) : Label := positionLabel (written.readPositions[label]?.getD 0)
  have named {index : Nat} (inside : index ≤ written.ops.length) : name (written.labelAt index) =
      positionLabel (positionAfter (written.layout.splits written.ops) index) := by
    simp only [name, laid.readPositions_labelAt inside, Option.getD_some,
      whole.positionRead_eq_positionAfter inside]
  have reads (label : Label) : name (written.readAs label) = positionLabel
      (positionAfter (written.layout.splits written.ops) (written.code.positionOf label)) := by
    have place := isBody.position_le label
    rw [Written.readAs, Written.offset]
    rw [isBody.positions] at place ⊢
    exact named place
  have back : written.readInstructions.map (Instruction.mapTargets name) =
      written.code.readBack (written.layout.splits written.ops) := by
    rw [Written.readInstructions, Written.instructionsFrom, map_flatMap]
    refine flatMap_zip_zipIdx (fun entry op index =>
      (written.instructionsAt entry.instruction op index).map (Instruction.mapTargets name))
      (fun entry => written.code.readBackAt _ entry.instruction) isBody.count
      fun index entry op stands got => ?_
    have inside := (List.getElem?_eq_some_iff.mp got).1
    have split : written.layout.splits written.ops index = written.layout.isInverted op index := by
      rw [Layout.splits, got]
      rfl
    unfold Written.instructionsAt readBackAt
    rw [if_pos (whole.kept index inside), split]
    generalize written.layout.isInverted op index = inverted
    cases entry.instruction with
    | branch condition target =>
      cases inverted <;>
        simp only [map_cons, map_nil, Instruction.mapTargets, named inside, reads]
    | _ =>
      simp only [map_singleton, Instruction.mapTargets_mapTargets, Function.comp_def, reads]
  have divided : ops written.bytecode 0 = .ok written.readOps := laid.ops_bytecode 0
  have stands : misplacedOffset? (startPositions written.readOps written.layout.stop)
      _ = none := misplacedOffset?_eq_none laid.targets_stand
  rw [readInstructions, divided, Written.bytecode_length isBody.found]
  simp only [bind, Except.bind, stands]
  rw [← back]
  refine ok_mapM_iff.mpr (forall₂_map_right_iff.mpr ?_)
  refine (Written.readOps_resolve isBody.positions isBody.laidOut.lowers agrees).imp ?_
  intro placed instruction resolved
  rw [resolved]
  rfl

end IsBody

lemma codeBody_plain {analysis : Analysis} {state state' : State} (once : code.BindsOnce)
    (bound : ∀ entry ∈ code.instructions, ∀ label ∈ entry.instruction.targets,
      ∃ target ∈ code.instructions, target.label = some label) (nested : code.IsNested)
    (wf : state.pool.WellFormed)
    (written : codeBody version code analysis state = .ok body state')
    (withoutFrames : analysis.writesFrames = false) :
    ∃ written stack locals, written.code = code ∧ IsBody written stack locals body state'.pool ∧
      written.IsWhole ∧ written.IsNamed ∧
      isWrittenInverted code state = written.layout.splits written.ops := by
  obtain ⟨ops, layout, between, stack, locals, laidOut, isBody⟩ :=
    codeBody_ok once nested wf written
  have complete : analysis.IsComplete ops.length := by
    intro table writes
    rw [withoutFrames] at writes
    contradiction
  refine ⟨.placed code analysis ops layout, stack, locals, rfl, isBody, complete.isWhole rfl,
    isBody.isNamed fun entry listed label uses => ?_, ?_⟩
  · obtain ⟨target, mem, here⟩ := bound entry listed label uses
    obtain ⟨index, got⟩ := mem_iff_getElem?.mp mem
    exact ⟨index, once.positions_iff.mpr (mem_bindings.mpr (.inl ⟨target, got, here⟩)),
      isBody.count ▸ (List.getElem?_eq_some_iff.mp got).1⟩
  · funext index
    rw [isWrittenInverted, laidOut]
    rfl

/-- A branch over a jump at the end of the code cannot be read back. -/
lemma readInstructions_fails (whole : written.IsWhole) (named : written.IsNamed)
    (inverted : written.layout.splits written.ops index = true)
    (last : written.ops.length ≤ index + 1) (table : PoolTable) (boots : PoolTable.Bootstrap) :
    ∃ failure, readInstructions table boots written.bytecode = .error failure := by
  rw [Layout.splits] at inverted
  cases got : written.ops[index]? with
  | none =>
    rw [got] at inverted
    cases inverted
  | some op =>
    have inside := (List.getElem?_eq_some_iff.mp got).1
    rw [got] at inverted
    obtain ⟨failure, fails⟩ := named.ops_fails got (whole.kept index inside) inverted
      (le_antisymm last inside) 0
    exact ⟨failure, by rw [readInstructions, fails]; rfl⟩

/--
Code is read back with all its targets, except that a branch over a jump is found where a
conditional branch has been too far away from its target. Only at the end of the code such a branch
has nothing to branch to.
-/
theorem readInstructions_codeBody {version : Version} {code : Code} {analysis : Analysis}
    {state state' : State} {body : List UInt8} {table : PoolTable} {boots : PoolTable.Bootstrap}
    (once : code.BindsOnce)
    (bound : ∀ entry ∈ code.instructions, ∀ label ∈ entry.instruction.targets,
      ∃ target ∈ code.instructions, target.label = some label)
    (nested : code.IsNested) (wf : state.pool.WellFormed)
    (written : codeBody version code analysis state = .ok body state')
    (withoutFrames : analysis.writesFrames = false)
    (agrees : table.Agrees boots state'.pool) :
    readInstructions table boots (bytecodeOf body) =
        .ok (code.readBack (isWrittenInverted code state)) ↔
      ∀ index, isWrittenInverted code state index = true → index + 1 < code.instructions.length := by
  obtain ⟨placed, stack, locals, rfl, isBody, whole, named, splits⟩ :=
    codeBody_plain once bound nested wf written withoutFrames
  rw [bytecodeOf_eq isBody, splits]
  constructor
  · intro read index inverted
    by_contra last
    rw [isBody.count] at last
    obtain ⟨failure, fails⟩ := readInstructions_fails whole named inverted (Nat.le_of_not_lt last)
      table boots
    rw [fails] at read
    contradiction
  · intro plain
    refine isBody.readInstructions_whole whole ⟨named, fun index op got _ inverted => ?_⟩ agrees
    exact isBody.count ▸ plain index (by rw [Layout.splits, got]; exact inverted)

end Encode

section JumpingBack

open Bytecode Encode

/-- Jumps back over many instructions, and then returns some times. -/
def Code.jumpingBack (count returns : Nat) : Code where
  maxStack := some 1
  maxLocals := some 0
  instructions := ⟨some ⟨0⟩, .simple .nop⟩ :: (replicate count ⟨none, .simple .nop⟩ ++
    ⟨none, .branch .eq ⟨0⟩⟩ :: replicate returns ⟨none, .simple .returnVoid⟩)

variable (count returns : Nat)

lemma Code.mem_jumpingBack {pos : Nat} :
    (label, pos) ∈ (jumpingBack count returns).bindings ↔ label = ⟨0⟩ ∧ pos = 0 := by
  rw [mem_bindings]
  constructor
  · rintro (⟨entry, got, labelled⟩ | ⟨⟨⟩, _⟩)
    cases pos with
    | zero =>
      cases got
      exact ⟨(Option.some.inj labelled).symm, rfl⟩
    | succ pos =>
      have unlabelled : entry.label = none := by
        have mem := mem_of_getElem? (show (_ : List Entry)[pos]? = some entry from got)
        simp only [mem_append, mem_cons, mem_replicate] at mem
        rcases mem with ⟨_, rfl⟩ | rfl | ⟨_, rfl⟩ <;> rfl
      rw [unlabelled] at labelled
      cases labelled
  · rintro ⟨rfl, rfl⟩
    exact .inl ⟨_, rfl, rfl⟩

lemma Code.jumpingBack_length :
    (jumpingBack count returns).instructions.length = count + 2 + returns := by
  simp [jumpingBack]
  omega

lemma Code.jumpingBack_bindsOnce : (jumpingBack count returns).BindsOnce :=
  bindsOnce_of_unique fun _ _ _ first second => by
    rw [((mem_jumpingBack count returns).mp first).2, ((mem_jumpingBack count returns).mp second).2]

lemma Code.mem_jumpingBack_instructions {entry : Entry}
    (mem : entry ∈ (jumpingBack count returns).instructions) :
    (∃ op, entry.instruction = .simple op) ∨ entry.instruction = .branch .eq ⟨0⟩ := by
  simp only [jumpingBack, mem_append, mem_cons, mem_replicate] at mem
  rcases mem with rfl | ⟨_, rfl⟩ | rfl | ⟨_, rfl⟩
  · exact .inl ⟨_, rfl⟩
  · exact .inl ⟨_, rfl⟩
  · exact .inr rfl
  · exact .inl ⟨_, rfl⟩

lemma Code.jumpingBack_target {entry : Entry}
    (mem : entry ∈ (jumpingBack count returns).instructions)
    (listed : label ∈ entry.instruction.targets) : label = ⟨0⟩ := by
  rcases mem_jumpingBack_instructions count returns mem with ⟨_, same⟩ | same
  · rw [same] at listed
    cases listed
  · rw [same] at listed
    exact mem_singleton.mp listed

/-- The instructions, with the position that is jumped to. -/
def Op.jumpingBack : List (Op Nat) :=
  .simple .nop :: (replicate count (.simple .nop) ++
    .branch .eq 0 :: replicate returns (.simple .returnVoid))

lemma lowerAll_jumpingBack (pool : PoolBuilder) :
    lowerAll (.jumpingBack count returns) pool = .ok (Op.jumpingBack count returns, none) pool := by
  have first : lowerAll (.jumpingBack count returns) pool =
      lowerFrom (jumpingBack count returns).positions
        (replicate count ⟨none, .simple .nop⟩ ++
          ⟨none, .branch .eq ⟨0⟩⟩ :: replicate returns ⟨none, .simple .returnVoid⟩)
        ((∅ : Std.HashMap Label Nat).insert ⟨0⟩ 0) #[.simple .nop] pool := rfl
  have target : targetIndex ((∅ : Std.HashMap Label Nat).insert ⟨0⟩ 0)
      (jumpingBack count returns).positions ⟨0⟩ = 0 := by
    simp [targetIndex]
  have last := lowerFrom_simple (jumpingBack count returns).positions
    ((∅ : Std.HashMap Label Nat).insert ⟨0⟩ 0) .returnVoid returns []
  rw [append_nil] at last
  rw [first, lowerFrom_simple, lowerFrom_cons]
  simp only [lower, pure, EStateM.pure, Op.map, bindLabel, target]
  rw [last]
  simp [lowerFrom, Op.jumpingBack, pure, EStateM.pure]

lemma Op.jumpingBack_eq : Op.jumpingBack count returns = replicate (count + 1) (.simple .nop) ++
    ([.branch .eq 0] ++ replicate returns (.simple .returnVoid)) := rfl

lemma Op.jumpingBack_branch :
    (Op.jumpingBack count returns)[count + 1]? = some (.branch .eq 0) := by
  rw [jumpingBack_eq, List.getElem?_append_right (by simp)]
  simp

lemma Op.jumpingBack_other (got : (Op.jumpingBack count returns)[index]? = some op)
    (other : index ≠ count + 1) : op.isBranch = false := by
  have simple {length place : Nat} {simple : SimpleOp}
      (found : (replicate length (.simple simple : Op Nat))[place]? = some op) :
      op.isBranch = false := by
    rw [(mem_replicate.mp (mem_of_getElem? found)).2]
    rfl
  rw [jumpingBack_eq, List.getElem?_append] at got
  split at got
  · exact simple got
  · next beyond =>
    rw [length_replicate] at beyond got
    rw [List.getElem?_append_right (by rw [length_singleton]; omega)] at got
    exact simple got

lemma Op.mem_jumpingBack (mem : op ∈ Op.jumpingBack count returns) :
    (∃ simple, op = .simple simple) ∨ op = .branch .eq 0 := by
  simp only [jumpingBack_eq, mem_append, mem_singleton, mem_replicate] at mem
  rcases mem with ⟨_, rfl⟩ | rfl | ⟨_, rfl⟩
  · exact .inl ⟨_, rfl⟩
  · exact .inr rfl
  · exact .inl ⟨_, rfl⟩

variable {count returns}

lemma Bytecode.ofOps_jumpingBack (room : count + returns + 20 ≤ maxOffset) :
    ∃ layout, Layout.ofOps (Op.jumpingBack count returns) = .ok layout := by
  refine Layout.ofOps_of_back ?_ fun index op target got jumps => ?_
  · generalize Layout.noneRequested (Op.jumpingBack count returns).length = requested
    have small (op : SimpleOp) (length : Nat) :
        ∀ one ∈ replicate length (Op.simple op : Op Nat), ∀ offset isWide,
          one.size offset isWide ≤ 1 := by
      intro one mem offset isWide
      rw [(mem_replicate.mp mem).2]
      exact le_refl 1
    obtain ⟨first, placed, less⟩ := @Layout.foldlM_of_room requested {} _ 1
      (small .nop (count + 1)) (by simp [branchSize]; omega)
    rw [length_replicate] at less
    obtain ⟨second, branched, less'⟩ := @Layout.foldlM_of_room requested first [.branch .eq 0] 8
      (by simp [Op.size, branchSize, wideBranchSize]) (by simp [branchSize] at less ⊢; omega)
    obtain ⟨last, returned, less''⟩ := @Layout.foldlM_of_room requested second _ 1
      (small .returnVoid returns) (by simp [branchSize] at less less' ⊢; omega)
    refine ⟨last, ?_, by simp at less less' less'' ⊢; omega⟩
    rw [Layout.place, Op.jumpingBack_eq, foldlM_append, placed]
    change List.foldlM _ first _ = _
    rw [foldlM_append, branched]
    exact returned
  · rcases Op.mem_jumpingBack count returns (mem_of_getElem? got) with ⟨_, rfl⟩ | rfl
    · cases jumps
    · cases jumps
      exact Nat.zero_le _

/-- The branch stands where all instructions before it end. -/
lemma Bytecode.isWide_jumpingBack (far : 32768 ≤ count) {layout : Layout}
    (found : layout.IsFound (Op.jumpingBack count returns)) : layout.isWide (count + 1) = true := by
  obtain ⟨requested, places⟩ := found.places
  have offsets : ∀ index ≤ count + 1, layout.offset index = index := by
    intro index inside
    induction index with
    | zero => exact places.start
    | succ index ih =>
      have got : (Op.jumpingBack count returns)[index]? = some (.simple .nop) := by
        rw [Op.jumpingBack_eq, List.getElem?_append_left (by rw [length_replicate]; omega),
          List.getElem?_replicate, if_pos (by omega)]
      rw [places.next index _ got, ih (by omega)]
      rfl
  rw [places.form _ _ (Op.jumpingBack_branch count returns)]
  change (if 0 < count + 1 then _ else _) = _
  rw [if_pos (Nat.succ_pos _), offsets _ le_rfl, offsets 0 (Nat.zero_le _)]
  rw [isNear, decide_eq_false (show ¬count + 1 ≤ 0 + 0x8000 by omega), Bool.false_and]
  rfl

lemma Encode.layOut_jumpingBack (room : count + returns + 20 ≤ maxOffset) (state : State) :
    ∃ layout, layout.IsFound (Op.jumpingBack count returns) ∧
      layOut (.jumpingBack count returns) state =
        .ok (Op.jumpingBack count returns, layout) state := by
  obtain ⟨layout, found⟩ := ofOps_jumpingBack room
  refine ⟨layout, Layout.ofOps_found found, ran_bind_iff.mpr ⟨(Op.jumpingBack count returns, none),
    state, ?_, ran_bind_iff.mpr ⟨layout, state, ?_, rfl⟩⟩⟩
  · rw [onPool, lowerAll_jumpingBack]
  · rw [found]
    rfl

lemma Encode.codeBody_jumpingBack (room : count + returns + 20 ≤ maxOffset) (state : State) :
    ∃ body, codeBody .standard (.jumpingBack count returns) {} state = .ok body state := by
  obtain ⟨layout, _, laidOut⟩ := @layOut_jumpingBack count returns room state
  have labels : (jumpingBack count returns).checkLabels = .ok () := by
    refine (jumpingBack_bindsOnce count returns).checkLabels_ok.mpr fun label used => ?_
    have only : label = ⟨0⟩ := by
      have listed : label ∈ (jumpingBack count returns).instructions.flatMap
          fun entry => entry.instruction.targets := by
        simpa [references, jumpingBack] using used
      obtain ⟨entry, mem, listed⟩ := mem_flatMap.mp listed
      exact jumpingBack_target count returns mem listed
    exact ⟨0, (mem_jumpingBack count returns).mpr ⟨only, rfl⟩⟩
  have plain : subroutine? (.jumpingBack count returns) = none := by
    rw [subroutine?, List.findIdx?_eq_none_iff]
    intro entry mem
    rcases mem_jumpingBack_instructions count returns mem with ⟨_, same⟩ | same
    · rw [same]
      rfl
    · rw [same]
      rfl
  have checked : checkCode .standard (.jumpingBack count returns) state = .ok () state := by
    refine ran_bind_iff.mpr ⟨(), state, by rw [labels]; rfl, ?_⟩
    rw [plain]
    rfl
  rw [codeBody_eq]
  exact ⟨_, ran_bind_iff.mpr ⟨(), state, checked, ran_bind_iff.mpr ⟨_, state, laidOut, rfl⟩⟩⟩

lemma Code.jumpingBack_bound : ∀ entry ∈ (jumpingBack count returns).instructions,
    ∀ label ∈ entry.instruction.targets,
      ∃ target ∈ (jumpingBack count returns).instructions, target.label = some label := by
  intro entry mem label listed
  rw [jumpingBack_target count returns mem listed]
  exact ⟨_, mem_cons_self, rfl⟩

lemma Code.jumpingBack_isNested : (jumpingBack count returns).IsNested := by
  intro entry mem
  rcases mem_jumpingBack_instructions count returns mem with ⟨_, same⟩ | same
  · rw [same]
    exact Nat.zero_le _
  · rw [same]
    exact Nat.zero_le _

/-- Only the jump back is written as a branch over a jump. -/
lemma Encode.isWrittenInverted_jumpingBack (room : count + returns + 20 ≤ maxOffset)
    (far : 32768 ≤ count) (state : State) (index : Nat) :
    isWrittenInverted (.jumpingBack count returns) state index = true ↔ index = count + 1 := by
  obtain ⟨layout, found, laidOut⟩ := @layOut_jumpingBack count returns room state
  rw [isWrittenInverted, laidOut]
  dsimp only
  rw [Layout.splits]
  constructor
  · intro inverted
    by_contra other
    cases got : (Op.jumpingBack count returns)[index]? with
    | none =>
      rw [got] at inverted
      cases inverted
    | some op =>
      rw [got, Option.map_some, Option.getD_some, Layout.isInverted,
        Op.jumpingBack_other count returns got other] at inverted
      cases inverted
  · rintro rfl
    rw [Op.jumpingBack_branch]
    exact isWide_jumpingBack far found

/-- A jump back that is too far for a short branch is read as a branch over a jump. -/
theorem readInstructions_jumpingBack : ∃ body,
    codeBody .standard (.jumpingBack 32768 1) {} {} = .ok body {} ∧
      readInstructions ⟨#[]⟩ none (bytecodeOf body) =
        .ok ((Code.jumpingBack 32768 1).readBack (isWrittenInverted (.jumpingBack 32768 1) {})) := by
  have room : 32768 + 1 + 20 ≤ maxOffset := by decide
  obtain ⟨body, written⟩ := @codeBody_jumpingBack 32768 1 room {}
  have reads := readInstructions_codeBody (jumpingBack_bindsOnce 32768 1)
    jumpingBack_bound jumpingBack_isNested PoolBuilder.empty_wellFormed written rfl
    (PoolTable.agrees_empty ⟨#[]⟩ none)
  refine ⟨body, written, reads.mpr fun index inverted => ?_⟩
  rw [(isWrittenInverted_jumpingBack room le_rfl {} index).mp inverted]
  rw [jumpingBack_length]
  exact Nat.lt_succ_self _

/-- At the end of the code such a jump is written, but it cannot be read back. -/
theorem not_readInstructions_jumpingBack :
    (Code.jumpingBack 32768 0).BindsOnce ∧
    (∀ entry ∈ (Code.jumpingBack 32768 0).instructions, ∀ label ∈ entry.instruction.targets,
      ∃ target ∈ (Code.jumpingBack 32768 0).instructions, target.label = some label) ∧
    (Code.jumpingBack 32768 0).IsNested ∧
    ∃ body, codeBody .standard (.jumpingBack 32768 0) {} {} = .ok body {} ∧
      ∃ failure, readInstructions ⟨#[]⟩ none (bytecodeOf body) = .error failure := by
  have room : 32768 + 0 + 20 ≤ maxOffset := by decide
  obtain ⟨body, written⟩ := @codeBody_jumpingBack 32768 0 room {}
  obtain ⟨placed, stack, locals, code, isBody, whole, named, splits⟩ := codeBody_plain
    (jumpingBack_bindsOnce 32768 0) jumpingBack_bound jumpingBack_isNested
    PoolBuilder.empty_wellFormed written rfl
  refine ⟨jumpingBack_bindsOnce 32768 0, jumpingBack_bound, jumpingBack_isNested, body, written, ?_⟩
  have inverted := (@isWrittenInverted_jumpingBack 32768 0 room le_rfl {} _).mpr rfl
  rw [splits] at inverted
  rw [bytecodeOf_eq isBody]
  refine readInstructions_fails whole named inverted ?_ ⟨#[]⟩ none
  rw [← isBody.count, code, jumpingBack_length]

end JumpingBack

end JvmAsm
