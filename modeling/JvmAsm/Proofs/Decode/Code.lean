/-
Reads back the body of code: the offsets that are read stand for the instructions whose labels have
been written.
-/
import JvmAsm.Proofs.Decode.Positions
import JvmAsm.Proofs.Encode.Replacement

namespace JvmAsm

open Binary Bytecode List Decode UInt16 Code CodeTables Layout LocalVariable

variable {label : Label} {instruction : Instruction}

namespace Decode

/-- Code is read from its bytes if its parts are, and if all offsets are those of instructions. -/
lemma readCode_encodes {pool : PoolBuilder} {stack locals : UInt16}
    {bytecode handlers tables : List UInt8} {placed : List (Placed (Op UInt16))}
    {found : List ExceptionHandler} {read : CodeTables} {instructions : List Instruction}
    (filled : bytecode ≠ []) (small : bytecode.length ≤ 0xffff)
    (divided : ∀ codeStart, ops bytecode codeStart = .ok placed)
    (handled : pool.Encodes (fun table _ =>
      ByteReader.list16 (exceptionHandler table bytecode.length)) handlers found)
    (tabled : pool.Encodes (fun table _ =>
      attributes table (step table bytecode.length found.length) {}) tables read)
    (stands : ∀ label ∈ placed.flatMap (fun placed => placed.op.targets.map labelOf) ++
      (read.code found).references,
      ∃ pos, (startPositions placed bytecode.length)[label]? = some pos)
    (resolves : ∀ ⦃table : PoolTable⦄ ⦃boots : PoolTable.Bootstrap⦄,
      table.Agrees boots pool → Forall₂ (fun placed instruction =>
        resolve table boots placed.op = .ok instruction) placed instructions)
    (classStart : Nat) :
    pool.Encodes (fun table boots => readCode table boots classStart)
      (bytes16 stack ++ (bytes16 locals ++ (bytes32 (UInt32.ofNat bytecode.length) ++
        (bytecode ++ (handlers ++ tables)))))
      (({ read.code found with
        maxStack := stack
        maxLocals := locals
        instructions := instructions.map fun instruction => ⟨none, instruction⟩ } :
          Code).renumberedBy (startPositions placed bytecode.length)) := by
  intro table boots agrees offset
  dsimp only
  rw [readCode_eq]
  have length : (UInt32.ofNat bytecode.length).toNat = bytecode.length :=
    UInt32.toNat_ofNat_of_lt' (show _ < 4294967296 by omega)
  refine (Reads.u16 stack offset).bind ((Reads.u16 locals _).bind ((Reads.u32 _ _).bind ?_))
  rw [length, if_neg (by simpa using ⟨filled, small⟩)]
  refine (ReadsAt.offset _).bind ((Reads.bytes bytecode _).bind ?_)
  rw [← nil_append (handlers ++ tables)]
  refine (Reads.ofResult (divided _) _).bind ((handled agrees _).bind
    ((tabled agrees _).bind_pure ?_))
  dsimp only
  rw [misplacedOffset?_eq_none stands]
  exact (Reads.ofResult (resolveAll_ok_iff.mpr (resolves agrees)) _).bind_pure (ReadsAt.pure _ _)

end Decode

namespace Encode

/-- What replaces other code is read as. -/
def fillerInstructions (size : Nat) (isLast : Bool) : List Instruction :=
  if isLast then replicate (size - 1) (.simple .nop) ++ [.simple .athrow]
  else replicate size (.simple .nop)

namespace Written

variable {written : Written} {index : Nat} {op : Op Nat}

def readOps (written : Written) : List (Placed (Op UInt16)) :=
  (written.formsFrom 0 written.ops).map (Placed.mapTargets ofNat)

/-- The position of an instruction among those that are read. -/
def positionRead (written : Written) (index : Nat) : Nat :=
  (written.formsFrom 0 (written.ops.take index)).length

def readPositions (written : Written) : Std.HashMap Label Nat :=
  startPositions written.readOps written.layout.stop

/-- What is read where an instruction has been written: a wide branch becomes two. -/
def instructionsAt (written : Written) (instruction : Instruction) (op : Op Nat) (index : Nat) :
    List Instruction :=
  if written.isKept index then
    match instruction, written.layout.isInverted op index with
    | .branch condition target, true =>
      [.branch condition.negate (written.labelAt (index + 1)), .goto (written.readAs target)]
    | instruction, _ => [instruction.mapTargets written.readAs]
  else fillerInstructions (op.size (written.layout.offset index) (written.layout.isWide index))
    (written.endsReplaced index)

def instructionsFrom (written : Written) (index : Nat) (entries : List Entry)
    (ops : List (Op Nat)) : List Instruction :=
  ((entries.zip ops).zipIdx index).flatMap fun ((entry, op), index) =>
    written.instructionsAt entry.instruction op index

def readInstructions (written : Written) : List Instruction :=
  written.instructionsFrom 0 written.code.instructions written.ops

/-- The code that is read where some has been written, with the labels that are read. -/
def readLabelled (written : Written) (stack locals : UInt16) : Code :=
  { written.readTables.code written.readHandlers with
    maxStack := stack
    maxLocals := locals
    instructions := written.readInstructions.map fun instruction => ⟨none, instruction⟩ }

/-- The code that is read where some has been written. -/
def readCode (written : Written) (stack locals : UInt16) : Code :=
  (written.readLabelled stack locals).renumberedBy written.readPositions

lemma instructionsAt_plain (kept : written.isKept index = true)
    (plain : written.layout.isInverted op index = false) :
    written.instructionsAt instruction op index = [instruction.mapTargets written.readAs] := by
  unfold instructionsAt
  rw [if_pos kept, plain]
  cases instruction <;> rfl

/-- Where an instruction starts in what is read, or where the instructions end. -/
lemma boundaries_readOps (found : written.layout.IsFound written.ops)
    (inside : index ≤ written.ops.length) :
    (boundaries written.readOps written.layout.stop)[written.positionRead index]? =
      some (written.layout.offset index) := by
  have offsets : boundaries written.readOps written.layout.stop =
      (written.formsFrom 0 (written.ops.take index)).map Placed.offset ++
        ((written.formsFrom index (written.ops.drop index)).map Placed.offset ++
          [written.layout.stop]) := by
    have parts := written.formsFrom_append 0 (written.ops.take index) (written.ops.drop index)
    rw [take_append_drop, length_take, min_eq_left inside, zero_add] at parts
    rw [boundaries, readOps, parts, map_map, ← append_assoc, ← map_append]
    rfl
  rw [offsets, positionRead, getElem?_append_right (by simp), length_map, Nat.sub_self]
  rcases lt_or_eq_of_le inside with below | rfl
  · rw [drop_eq_getElem_cons below, formsFrom_cons, map_append, append_assoc, ← head?_eq_getElem?]
    have head := written.formsAt_head written.ops[index] index
    rw [← head?_map] at head
    rw [head?_append, head]
    rfl
  · obtain ⟨requested, places⟩ := found.places
    rw [drop_length, places.stop_eq]
    rfl

/-- Different instructions are read with different labels. -/
lemma labelAt_injective (found : written.layout.IsFound written.ops) {other : Nat}
    (inside : index ≤ written.ops.length) (inside' : other ≤ written.ops.length)
    (same : written.labelAt index = written.labelAt other) : index = other := by
  have offsets := congrArg toNat (Label.mk.inj same)
  rw [offsetAt_toNat found, offsetAt_toNat found] at offsets
  have below := offset_lt_iff found inside inside'
  have above := offset_lt_iff found inside' inside
  omega

/-- Different labels are read as different labels, and the local variables are told apart. -/
lemma locals_merge (canonical : written.code.IsCanonical)
    (found : written.layout.IsFound written.ops)
    (positions : written.positions = written.code.positions)
    (count : written.code.instructions.length = written.ops.length)
    (separate : CodeTables.IsSeparate written.code.localVariables) :
    (written.readTables.localVariableTypes.foldl addSignature
        written.readTables.localVariables).toList =
      (written.code.localVariables.filter (·.type.isSome) ++
        written.code.localVariables.filter (!·.type.isSome)).map
          (mapLabels written.readAs) := by
  have injective {label other : Label} (uses : label ∈ written.code.references)
      (uses' : other ∈ written.code.references)
      (same : written.readAs label = written.readAs other) : label = other := by
    obtain ⟨pos, stands⟩ := canonical.bound label uses
    obtain ⟨pos', stands'⟩ := canonical.bound other uses'
    rw [readAs, readAs, Written.offset, Written.offset, positions, stands, stands'] at same
    obtain rfl := labelAt_injective found (count ▸ position_le stands)
      (count ▸ position_le stands') same
    exact canonical.once.label_unique stands stands'
  rw [readTables, foldl_toArray]
  refine merge_separate separate fun entry mem other mem' => ?_
  have uses := range_mem_references mem
  have uses' := range_mem_references mem'
  exact key_of_mapLabels (injective uses.1 uses'.1) (injective uses.2 uses'.2)

/-- The label of an instruction has the position of the instruction among those that are read. -/
lemma IsLaid.readPositions_labelAt (laid : written.IsLaid) (inside : index ≤ written.ops.length) :
    written.readPositions[written.labelAt index]? = some (written.positionRead index) := by
  have increasing := ops_increasing (laid.ops_bytecode 0)
  rw [bytecode_length laid.found] at increasing
  exact startPositions_get increasing laid.found.stop_le (boundaries_readOps laid.found inside)

lemma IsLaid.labelAt_stands (laid : written.IsLaid) (index : Nat) :
    ∃ pos, written.readPositions[written.labelAt index]? = some pos := by
  rcases le_total index written.ops.length with inside | outside
  · exact ⟨_, laid.readPositions_labelAt inside⟩
  · obtain ⟨requested, places⟩ := laid.found.places
    have last : written.layout.offset index = written.layout.offset written.ops.length := by
      rw [places.stop_eq, Layout.offset,
        Array.getElem?_eq_none (by rw [places.offsetsSize]; exact outside)]
      rfl
    rw [labelAt, last]
    exact ⟨_, laid.readPositions_labelAt le_rfl⟩

lemma IsLaid.targets_stand (laid : written.IsLaid) :
    ∀ label ∈ written.readOps.flatMap (fun placed => placed.op.targets.map labelOf),
      ∃ pos, written.readPositions[label]? = some pos := by
  intro label mem
  simp only [readOps, flatMap_map, mem_flatMap, mem_map, Placed.mapTargets, Op.targets_map] at mem
  obtain ⟨placed, found, _, ⟨target, jumps, rfl⟩, rfl⟩ := mem
  obtain ⟨index, op, got, listed⟩ := mem_formsFrom.mp found
  unfold formsAt at listed
  split at listed
  · next kept =>
    obtain ⟨goal, _, rfl⟩ := forms_targets (List.getElem?_eq_some_iff.mp got).1
      (laid.inside index op got kept) listed jumps
    exact laid.labelAt_stands goal
  · rw [fillerForms_plain listed] at jumps
    cases jumps

lemma IsLaid.tables_stand (laid : written.IsLaid) :
    ∀ label ∈ (written.readTables.code written.readHandlers).references,
      ∃ pos, written.readPositions[label]? = some pos := by
  have stands (label : Label) : ∃ pos,
      written.readPositions[written.readAs label]? = some pos := laid.labelAt_stands _
  have ranges := @CodeTables.foldl_ranges (fun range =>
    (∃ pos, written.readPositions[range.start]? = some pos) ∧
      ∃ pos, written.readPositions[range.stop]? = some pos)
    written.readTables.localVariables.toList written.readTables.localVariableTypes.toList
    (fun entry mem => by
      obtain ⟨original, _, rfl⟩ := mem_map.mp mem
      exact ⟨stands _, stands _⟩)
    (fun entry mem => by
      obtain ⟨original, _, rfl⟩ := mem_map.mp mem
      exact ⟨stands _, stands _⟩)
  rw [← CodeTables.foldl_addSignature, Array.foldl_toList] at ranges
  have notes (notes : List (AnnotatedType CodeTarget)) : ∀ note ∈ written.readNotes notes,
      ∀ label ∈ note.target.labels, ∃ pos, written.readPositions[label]? = some pos := by
    intro note mem label names
    obtain ⟨original, _, rfl⟩ := mem_map.mp mem
    change label ∈ (written.readTarget original.target).labels at names
    unfold readTarget at names
    split at names
    · cases names
    · rw [CodeTarget.labels_mapLabels] at names
      obtain ⟨name, _, rfl⟩ := mem_map.mp names
      exact stands name
  intro label mem
  simp only [references, CodeTables.code, flatMap_nil, nil_append,
    mem_append, mem_flatMap, mem_map] at mem
  rcases mem with (((⟨handler, listed, names⟩ | ⟨line, listed, rfl⟩) | ⟨entry, listed, names⟩) |
    ⟨note, listed, names⟩) | ⟨note, listed, names⟩
  · obtain ⟨original, _, runs⟩ := mem_flatMap.mp listed
    obtain ⟨run, _, rfl⟩ := mem_map.mp runs
    simp only [mem_cons, not_mem_nil, or_false] at names
    rcases names with rfl | rfl | rfl
    · exact laid.labelAt_stands _
    · exact laid.labelAt_stands _
    · exact stands _
  · simp only [readTables, mem_map] at listed
    obtain ⟨original, _, rfl⟩ := listed
    exact stands _
  · obtain ⟨start, stop⟩ := ranges entry listed
    simp only [mem_cons, not_mem_nil, or_false] at names
    rcases names with rfl | rfl
    · exact start
    · exact stop
  · exact notes _ note listed label names
  · exact notes _ note listed label names

lemma fillerForms_resolve (table : PoolTable) (boots : PoolTable.Bootstrap)
    (offset size : Nat) (isLast : Bool) :
    Forall₂ (fun placed instruction => resolve table boots placed.op = .ok instruction)
      ((fillerForms offset size isLast).map (Placed.mapTargets ofNat))
      (fillerInstructions size isLast) := by
  have nothing (offset count : Nat) : Forall₂
      (fun placed instruction => resolve table boots placed.op = .ok instruction)
      ((nops offset count).map (Placed.mapTargets ofNat))
      (replicate count (.simple .nop)) := by
    induction count generalizing offset with
    | zero => exact .nil
    | succ count ih => exact .cons rfl (ih (offset + 1))
  unfold fillerForms fillerInstructions
  split
  · rw [map_append]
    exact rel_append (nothing _ _) (.cons rfl .nil)
  · exact nothing _ _

variable {pool : PoolBuilder} {table : PoolTable} {boots : PoolTable.Bootstrap}

lemma formsAt_resolve (positions : written.positions = written.code.positions)
    (lowers : Lowers pool written.code.positionOf instruction op)
    (agrees : table.Agrees boots pool) :
    Forall₂ (fun placed instruction => resolve table boots placed.op = .ok instruction)
      ((written.formsAt op index).map (Placed.mapTargets ofNat))
      (written.instructionsAt instruction op index) := by
  have names (label : Label) : labelOf (ofNat
      (written.layout.offset (written.code.positionOf label))) = written.readAs label := by
    rw [readAs, Written.offset, positions]
    rfl
  cases kept : written.isKept index with
  | true =>
    rw [formsAt, if_pos kept]
    cases inverted : written.layout.isInverted op index with
    | true =>
      obtain ⟨wide, condition, target, rfl⟩ := inverted_branch inverted
      obtain ⟨label, rfl, rfl⟩ := lowers.branch condition target rfl
      unfold instructionsAt
      rw [if_pos kept, inverted, forms_inverted wide]
      refine .cons rfl (.cons ?_ .nil)
      rw [← names]
      rfl
    | false =>
      rw [instructionsAt_plain kept inverted, forms_plain inverted]
      refine .cons ?_ .nil
      have resolved := lowers.resolves (fun goal => ofNat (written.layout.offset goal))
        agrees
      simp only [Placed.mapTargets, Op.map_map]
      rw [resolved]
      simp only [names]
  | false =>
    unfold formsAt instructionsAt
    rw [if_neg (ne_true_of_eq_false kept), if_neg (ne_true_of_eq_false kept)]
    exact fillerForms_resolve table boots _ _ _

lemma readOps_resolve (positions : written.positions = written.code.positions)
    (lowers : Forall₂ (fun entry op => Lowers pool written.code.positionOf entry.instruction op)
      written.code.instructions written.ops) (agrees : table.Agrees boots pool) :
    Forall₂ (fun placed instruction => resolve table boots placed.op = .ok instruction)
      written.readOps written.readInstructions := by
  have loop : ∀ (index : Nat) (entries : List Entry) (ops : List (Op Nat)),
      Forall₂ (fun entry op => Lowers pool written.code.positionOf entry.instruction op)
        entries ops →
      Forall₂ (fun placed instruction => resolve table boots placed.op = .ok instruction)
        ((written.formsFrom index ops).map (Placed.mapTargets ofNat))
        (written.instructionsFrom index entries ops) := by
    intro index entries ops lowers
    induction lowers generalizing index with
    | nil => exact .nil
    | cons first _ ih =>
      rw [formsFrom_cons, map_append, instructionsFrom, zip_cons_cons, zipIdx_cons, flatMap_cons]
      exact rel_append (formsAt_resolve positions first agrees) (ih (index + 1))
  exact loop 0 _ _ lowers

end Written

namespace IsBody

variable {written : Written} {stack locals : UInt16} {body : List UInt8} {pool : PoolBuilder}
  (isBody : IsBody written stack locals body pool)
include isBody

lemma found : written.layout.IsFound written.ops := ofOps_found isBody.laidOut.found

lemma count : written.code.instructions.length = written.ops.length :=
  isBody.laidOut.lowers.length_eq

lemma shaped : ∀ op ∈ written.ops, op.IsShaped := by
  intro op mem
  obtain ⟨entry, _, lowers⟩ := forall₂_mem_right isBody.laidOut.lowers mem
  exact lowers.shaped

lemma position_le (label : Label) :
    written.positions[label]?.getD 0 ≤ written.ops.length := by
  rw [isBody.positions]
  cases stands : written.code.positions[label]? with
  | none => exact Nat.zero_le _
  | some pos => exact isBody.count ▸ Code.position_le stands

lemma bytecode_ne_nil : written.bytecode ≠ [] := by
  have positive : 0 < written.ops.length := by
    rw [← isBody.count, length_pos_iff]
    exact isBody.starts
  obtain ⟨requested, places⟩ := isBody.found.places
  have first := places.offset_lt positive le_rfl
  rw [places.stop_eq, ← Written.bytecode_length isBody.found] at first
  exact length_pos_iff.mp (Nat.zero_lt_of_lt first)

lemma readCode_encodes (laid : written.IsLaid)
    (handles : ∀ handler ∈ written.code.handlers, written.CanHandle handler)
    (reads : written.CanReadTables) (classStart : Nat) :
    pool.Encodes (fun table boots => readCode table boots classStart) body
      (written.readCode stack locals) := by
  obtain ⟨handlers, tables, rfl, handled, read⟩ := isBody.parts
  have length := Written.bytecode_length isBody.found
  have handled := handled handles
  have read := read reads
  rw [Written.readCode, Written.readPositions]
  simp only [← length] at handled read ⊢
  refine readCode_encodes isBody.bytecode_ne_nil (length ▸ isBody.found.stop_le)
    laid.ops_bytecode handled read ?_ (fun table boots agrees =>
      Written.readOps_resolve isBody.positions isBody.laidOut.lowers agrees) classStart
  rw [forall_mem_append, length]
  exact ⟨laid.targets_stand, laid.tables_stand⟩

end IsBody

section Whole

variable {written : Written} {index : Nat}

/-- What is made of instructions does not need those they have become. -/
lemma flatMap_zip_zipIdx {β : Type} {entries : List Entry} {ops : List (Op Nat)}
    (f : Entry → Op Nat → Nat → List β) (g : Entry → Nat → List β)
    (count : entries.length = ops.length)
    (same : ∀ index entry op, entries[index]? = some entry → ops[index]? = some op →
      f entry op index = g entry index) :
    ((entries.zip ops).zipIdx.flatMap fun ((entry, op), index) => f entry op index) =
      entries.zipIdx.flatMap fun (entry, index) => g entry index := by
  rw [flatMap_def, flatMap_def]
  congr 1
  refine ext_getElem (by simp [count]) fun index inside _ => ?_
  have bound : index < entries.length := by simp at inside; omega
  simpa using same index _ _ (getElem?_eq_getElem bound)
    (getElem?_eq_getElem (count ▸ bound))

namespace Written.IsWhole

variable (whole : written.IsWhole) (narrow : ∀ index, written.layout.isWide index = false)
include whole

lemma runs_eq (handler : ExceptionHandler) : written.runs handler =
    [(written.positions[handler.start]?.getD 0, written.positions[handler.stop]?.getD 0)] := by
  rw [runs, whole.replaces]
  rfl

lemma readHandlers_eq : written.readHandlers = written.code.handlers.map fun handler =>
    { handler with
      start := written.readAs handler.start, stop := written.readAs handler.stop,
      handler := written.readAs handler.handler } := by
  simp only [readHandlers, whole.runs_eq, map_singleton]
  exact map_eq_flatMap.symm

/-- Each handler has its own entry. -/
lemma firstRun?_eq (inside : index < written.code.handlers.length) :
    written.firstRun? index = some index := by
  have count : ∀ handlers : List ExceptionHandler,
      ((handlers.map written.runs).map length).sum = handlers.length := by
    intro handlers
    induction handlers with
    | nil => rfl
    | cons handler rest ih =>
      rw [map_cons, map_cons, sum_cons, ih, whole.runs_eq, length_singleton, length_cons, add_comm]
  rw [firstRun?, firstOf, getElem?_map, getElem?_eq_getElem inside, Option.map_some, whole.runs_eq]
  dsimp only
  rw [← map_take, length_flatten, count, length_take, min_eq_left (le_of_lt inside)]

lemma positionRead_succ (inside : index < written.ops.length) :
    written.positionRead (index + 1) = written.positionRead index +
      if written.layout.isInverted written.ops[index] index then 2 else 1 := by
  rw [positionRead, take_add_one, getElem?_eq_getElem inside, formsFrom_append,
    length_append, ← positionRead, length_take, min_eq_left (by omega)]
  simp [formsFrom, formsAt, whole.kept index inside, forms_length]

lemma readNotes_eq {notes : List (AnnotatedType CodeTarget)}
    (handled : ∀ note ∈ notes, note.target.IsHandled written.code.handlers.length) :
    written.readNotes notes =
      notes.map (AnnotatedType.withTarget (CodeTarget.mapLabels written.readAs)) := by
  have each : ∀ note ∈ notes, written.keepsTarget note.target = true ∧
      written.readTarget note.target = note.target.mapLabels written.readAs := by
    intro note mem
    have handled := handled note mem
    cases target : note.target with
    | exceptionParameter handler =>
      rw [target] at handled
      rw [keepsTarget, readTarget, whole.firstRun?_eq handled, Option.getD_some, UInt16.ofNat_toNat]
      exact ⟨rfl, rfl⟩
    | _ => exact ⟨rfl, rfl⟩
  rw [readNotes, keptNotes, filter_eq_self.mpr fun note mem => (each note mem).1]
  refine map_congr_left fun note mem => ?_
  rw [AnnotatedType.withTarget, (each note mem).2]
  rfl

include narrow

omit whole in
lemma isInverted_eq (op : Op Nat) (index : Nat) : written.layout.isInverted op index = false := by
  rw [Layout.isInverted, narrow, Bool.and_false]

/-- All instructions are read where they have been. -/
lemma positionRead_eq (inside : index ≤ written.ops.length) :
    written.positionRead index = index := by
  induction index with
  | zero => rfl
  | succ index ih =>
    rw [whole.positionRead_succ inside, isInverted_eq narrow, ih (by omega)]
    rfl

lemma readInstructions_eq (count : written.code.instructions.length = written.ops.length) :
    written.readInstructions =
      written.code.instructions.map fun entry => entry.instruction.mapTargets written.readAs := by
  calc written.readInstructions
      = written.code.instructions.zipIdx.flatMap
          fun (entry, _) => [entry.instruction.mapTargets written.readAs] :=
        flatMap_zip_zipIdx (fun entry => written.instructionsAt entry.instruction)
          (fun entry _ => [entry.instruction.mapTargets written.readAs]) count
          fun index entry op _ got =>
            instructionsAt_plain (whole.kept index (List.getElem?_eq_some_iff.mp got).1)
              (isInverted_eq narrow op index)
    _ = (written.code.instructions.zipIdx.map Prod.fst).map
          fun entry => entry.instruction.mapTargets written.readAs := by
        rw [map_map, map_eq_flatMap]
        rfl
    _ = _ := by rw [zipIdx_map_fst]

end Written.IsWhole

lemma Written.canReadTables (shallow : ∀ note ∈ written.code.notes, note.note.IsShallow)
    (others : ∀ kept ∈ written.code.attributes, kept.name ∉ names)
    (inside : ∀ label ∈ written.code.tableStarts, written.IsInside label) :
    written.CanReadTables := by
  have variableStart {entry : LocalVariable} (mem : entry ∈ written.code.localVariables)
      (isWritten : entry.isWritten = true) : written.IsInside entry.range.start := by
    refine inside _ (mem_append_left _ (mem_append_right _ (mem_map.mpr ?_)))
    exact ⟨entry, mem_filter.mpr ⟨mem, isWritten⟩, rfl⟩
  have notes {note : AnnotatedType CodeTarget} (mem : note ∈ written.code.notes)
      (kept : written.keepsTarget note.target = true) :
      AnnotatedType.IsGood written.CanRead note := by
    have starts {label : Label} (listed : label ∈ note.target.starts) : written.IsInside label :=
      inside _ (mem_append_right _ (mem_flatMap.mpr ⟨note, mem, listed⟩))
    refine ⟨?_, shallow note mem⟩
    obtain ⟨target, path, body⟩ := note
    rcases target with ⟨isResource, table⟩ | handler | ⟨target, label⟩ | ⟨target, label, argument⟩
    · exact fun entry mem => starts (mem_map_of_mem mem)
    · exact kept
    · exact starts mem_cons_self
    · exact starts mem_cons_self
  refine ⟨fun line mem => inside _ ?_, fun entry mem typed => variableStart mem ?_,
    fun entry mem signed => variableStart mem ?_, fun note mem => ?_, fun note mem => ?_,
    others⟩
  · exact mem_append_left _ (mem_append_left _ (mem_map_of_mem mem))
  · rw [isWritten, typed, Bool.true_or]
  · rw [isWritten, signed, Bool.or_true]
  · obtain ⟨listed, kept⟩ := mem_filter.mp mem
    exact notes (mem_append_left _ listed) kept
  · obtain ⟨listed, kept⟩ := mem_filter.mp mem
    exact notes (mem_append_right _ listed) kept

namespace IsBody

variable {stack locals : UInt16} {body : List UInt8} {pool : PoolBuilder}
  (isBody : IsBody written stack locals body pool)
include isBody

lemma isInside (canonical : written.code.IsCanonical)
    (starts : label ∈ written.code.startReferences) (other : written.code.lastLabel ≠ some label) :
    written.IsInside label := by
  obtain ⟨pos, stands⟩ := isBody.bound label (startReferences_subset starts)
  refine ⟨pos, by rw [isBody.positions]; exact stands, ?_⟩
  exact isBody.count ▸ canonical.position_lt stands other

/-- Code names only instructions if it does not jump to its end. -/
lemma isNamed (jumps : ∀ entry ∈ written.code.instructions,
    ∀ label ∈ entry.instruction.targets, written.IsInside label) : written.IsNamed where
  found := isBody.found
  shaped := isBody.shaped
  inside index op got _ target goes := by
    obtain ⟨entry, listed, lowers⟩ :=
      forall₂_mem_right isBody.laidOut.lowers (mem_of_getElem? got)
    rw [lowers.targets] at goes
    obtain ⟨label, uses, rfl⟩ := mem_map.mp goes
    obtain ⟨pos, stands, inside⟩ := jumps entry listed label uses
    rw [isBody.positions] at stands
    rwa [positionOf, stands]

section Readable

variable (readable : written.code.IsReadable)
include readable

lemma canHandle : ∀ handler ∈ written.code.handlers, written.CanHandle handler := by
  intro handler mem
  have starts : handler.handler ∈ written.code.startReferences :=
    jumpTargets_subset (mem_append_right _ (mem_map_of_mem mem))
  exact ⟨isBody.position_le _, isBody.position_le _,
    isBody.isInside readable.canonical starts (readable.starts _ starts)⟩

lemma canReadAll : written.CanReadTables :=
  Written.canReadTables readable.shallow readable.others fun label starts =>
    have starts := tableStarts_subset starts
    isBody.isInside readable.canonical starts (readable.starts label starts)

lemma isLaid (narrow : ∀ index, written.layout.isWide index = false) : written.IsLaid where
  toIsNamed := isBody.isNamed fun entry listed label uses =>
    have starts := jumpTargets_subset
      (mem_append_left _ (mem_flatMap.mpr ⟨entry, listed, uses⟩))
    isBody.isInside readable.canonical starts (readable.starts label starts)
  goesOn index op _ _ inverted := by
    rw [Written.IsWhole.isInverted_eq narrow] at inverted
    cases inverted

end Readable

lemma position_readAs (laid : written.IsLaid) {pos : Nat}
    (stands : written.code.positions[label]? = some pos) :
    written.readPositions[written.readAs label]? = some (written.positionRead pos) := by
  rw [Written.readAs, Written.offset, isBody.positions, stands]
  exact laid.readPositions_labelAt (isBody.count ▸ Code.position_le stands)

lemma locals_merge (readable : written.code.IsReadable) :
    (written.readTables.localVariableTypes.foldl addSignature
      written.readTables.localVariables).toList =
      written.code.localVariables.map (mapLabels written.readAs) := by
  obtain ⟨typed, untyped, equal, merged⟩ := readable.merged
  rw [Written.locals_merge readable.canonical isBody.found isBody.positions isBody.count
    (equal ▸ merged.isSeparate), equal, merged.filter_eq]

lemma readCode_eq (readable : written.code.IsReadable) (whole : written.IsWhole)
    (narrow : ∀ index, written.layout.isWide index = false) :
    written.readCode stack locals =
      { written.code with maxStack := some stack, maxLocals := some locals } := by
  let sized : Code := { written.code with maxStack := some stack, maxLocals := some locals }
  have labelled : written.readLabelled stack locals =
      (sized.mapReferences written.readAs).bindBy fun _ => none := by
    rw [Written.readLabelled, code, isBody.locals_merge readable,
      whole.readHandlers_eq, whole.readInstructions_eq narrow isBody.count, Written.readTables,
      whole.readNotes_eq fun note mem => readable.handled note (mem_append_left _ mem),
      whole.readNotes_eq fun note mem => readable.handled note (mem_append_right _ mem)]
    have entries : (written.code.instructions.map fun entry =>
        entry.instruction.mapTargets written.readAs).map (fun instruction => ⟨none, instruction⟩) =
        ((sized.mapReferences written.readAs).bindBy fun _ => none).instructions := by
      refine ext_getElem? fun index => ?_
      simp [sized, bindBy, mapReferences, Function.comp_def]
    rw [entries]
    rfl
  have numbered : ((sized.mapReferences written.readAs).bindBy fun _ => none).renumberedBy
      written.readPositions = sized.renumberedBy written.code.positions :=
    Code.renumberedBy_congr fun label uses => by
      obtain ⟨pos, stands⟩ := isBody.bound label uses
      have inside := isBody.count ▸ Code.position_le stands
      have read := isBody.position_readAs (isBody.isLaid readable narrow) stands
      rw [whole.positionRead_eq narrow inside] at read
      exact ⟨pos, stands, read⟩
  rw [Written.readCode, labelled, numbered]
  exact congrArg (fun code : Code => { code with maxStack := some stack, maxLocals := some locals })
    readable.canonical.numbered

end IsBody

end Whole

end Encode

end JvmAsm
