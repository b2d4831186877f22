/- Reads back the body of the code of a method. -/
import JvmAsm.Proofs.Code.Readable
import JvmAsm.Proofs.Encode.Code
import JvmAsm.Proofs.Verification.ControlFlow

namespace JvmAsm

open Binary List Decode LocalVariable

variable {before : PoolBuilder → Prop}
variable {options : EncodeOptions} {owner : ClassFile} {method : Method}

namespace Decode.CodeTables

/-- Keeps an attribute as it is. -/
def push (tables : CodeTables) (kept : RawAttribute) : CodeTables :=
  { tables with raw := tables.raw.push kept }

@[simp] lemma foldl_push (raws : List RawAttribute) (tables : CodeTables) :
    raws.foldl push tables = { tables with raw := tables.raw ++ raws } := by
  induction raws generalizing tables with
  | nil => simp
  | cons kept rest ih => simp [ih, push]

lemma step_raw {table : PoolTable} {tables : CodeTables} {name : String} (other : name ∉ names)
    (codeLength handlerCount length : Nat) :
    tables.step table codeLength handlerCount name length = do
      return tables.push (← Decode.raw name length) := by
  unfold step
  split
  all_goals first | rfl | simp [names] at other

end Decode.CodeTables

namespace Encode

open Bytecode

variable {version : Version} {code : Code} {analysis : Analysis}

lemma checkCode_yields (version : Version) (code : Code) :
    Yields before (checkCode version code) fun _ _ =>
      code.IsBound code.positions ∧ code.instructions ≠ [] := by
  have labels : Yields before (ofResult code.checkLabels) fun _ _ =>
      code.IsBound code.positions :=
    ofResult_yields fun _ checked _ _ => Code.checkLabels_iff.mp checked
  refine labels.bind fun _ => .refusing (fun _ _ _ => by rintro ⟨⟩) fun some => ?_
  have holds : ∀ pool, before pool ∧ code.IsBound code.positions →
      code.IsBound code.positions ∧ code.instructions ≠ [] :=
    fun pool known => ⟨known.2, by simpa using some⟩
  split
  · split
    · exact fail_yields
    · exact .pure holds
  · exact .pure holds

namespace Written

variable {written : Written}

structure CanReadTables (written : Written) : Prop where
  lines : ∀ line ∈ written.code.lineNumbers, written.IsInside line.1
  types : ∀ entry ∈ written.code.localVariables, entry.type.isSome = true →
    written.IsInside entry.range.start
  signatures : ∀ entry ∈ written.code.localVariables, entry.signature.isSome = true →
    written.IsInside entry.range.start
  visible : ∀ note ∈ written.keptNotes written.code.typeAnnotations.visible,
    AnnotatedType.IsGood written.CanRead note
  invisible : ∀ note ∈ written.keptNotes written.code.typeAnnotations.invisible,
    AnnotatedType.IsGood written.CanRead note
  others : ∀ kept ∈ written.code.attributes, kept.name ∉ CodeTables.names

def readTables (written : Written) : CodeTables where
  lineNumbers := (written.code.lineNumbers.map fun line => (written.readAs line.1, line.2)).toArray
  localVariables := ((written.code.localVariables.filterMap typed?).map
    (mapLabels written.readAs)).toArray
  localVariableTypes := ((written.code.localVariables.filterMap signed?).map
    (mapLabels written.readAs)).toArray
  visible := (written.readNotes written.code.typeAnnotations.visible).toArray
  invisible := (written.readNotes written.code.typeAnnotations.invisible).toArray
  raw := written.code.attributes.toArray

lemma tables_yields (found : written.layout.IsFound written.ops) {firsts : Array (Option Nat)}
    (names : written.NamesFirst firsts) (entry : List StackMap.Item)
    (frames : List StackMap.MapFrame) :
    Yields before
      (attributeTable .codeAttributes [stackMapTable entry frames, lineNumbers written,
        localVariableTable written "LocalVariableTable" fun entry => entry.type.map FieldType.text,
        localVariableTable written "LocalVariableTypeTable" LocalVariable.signature,
        typeAnnotations (keepHandled firsts) (codeTarget written firsts)
          written.code.typeAnnotations,
        rawAttributes written.code.attributes])
      fun bytes pool => written.CanReadTables → pool.Encodes (fun table _ =>
        attributes table
          (CodeTables.step table written.layout.stop written.readHandlers.length) {}) bytes
        written.readTables := by
  refine (attributeTable_yields (.cons (stackMapTable_yields entry frames)
    (.cons (lineNumbers_yields found) (.cons (localTypes_yields found)
      (.cons (localSignatures_yields found)
        (.cons (codeAnnotations_yields found names _)
        (.cons (rawAttributes_yields (· ∉ CodeTables.names)
          fun _ other _ _ _ length => CodeTables.step_raw other _ _ length)
          .nil))))))).weaken ?_
  rintro bytes pool _ ⟨attributes, fits, rfl, affects⟩ reads
  have read := affects_reads affects fits (fun _ => trivial) {} ⟨trivial, reads.lines, reads.types,
    reads.signatures, ⟨reads.visible, reads.invisible, trivial⟩, reads.others, trivial⟩
  refine (congrArg (PoolBuilder.Encodes pool _ _) ?_).mp read
  simp [readTables]

end Written

/-- The bytes of code, up to what is read of its handlers and tables. -/
structure IsBody (written : Written) (stack locals : UInt16) (body : List UInt8)
    (pool : PoolBuilder) : Prop where
  laidOut : IsLaidOut written.code written.ops written.layout pool
  positions : written.positions = written.code.positions
  bound : written.code.IsBound written.code.positions
  starts : written.code.instructions ≠ []
  parts : ∃ handlers tables, body = bytes16 stack ++ (bytes16 locals ++
      (bytes32 (UInt32.ofNat written.bytecode.length) ++
        (written.bytecode ++ (handlers ++ tables)))) ∧
    ((∀ handler ∈ written.code.handlers, written.CanHandle handler) →
      pool.Encodes (fun table _ =>
        ByteReader.list16 (exceptionHandler table written.layout.stop)) handlers
        written.readHandlers) ∧
    (written.CanReadTables → pool.Encodes (fun table _ =>
      attributes table
        (CodeTables.step table written.layout.stop written.readHandlers.length) {}) tables
      written.readTables)

/-- Whether frames are written with code. -/
def writesFrames (options : EncodeOptions) (version : Version) (code : Code) : Bool :=
  options.computeFrames && version.hasFrames &&
    !(code.instructions.any (fun entry => entry.instruction.isSubroutine) &&
      version.allowsSubroutines)

/-- What is known about the code of a method is what has been found for it. -/
structure Analysis.IsOf (options : EncodeOptions) (owner : ClassFile) (method : Method)
    (code : Code) (analysis : Analysis) : Prop where
  writes : analysis.writesFrames = Encode.writesFrames options owner.version code
  computed : ∀ table, analysis.computed = some table →
    computeFrames options.hierarchy owner.name method = .ok table
  known : analysis.writesFrames = true → analysis.computed.isSome = true

/-- What is found out about code, whatever has been written before. -/
def findings (options : EncodeOptions) (owner : ClassFile) (method : Method) (code : Code) :
    Except Failure Analysis := do
  let writes := writesFrames options owner.version code
  let needsSizes := code.maxStack.isNone || code.maxLocals.isNone
  if needsSizes && !options.computeMaxs then
    throw (.ofCause (.encoding (.noMaximums method.title)))
  if writes || needsSizes then
    return ⟨some (← computeFrames options.hierarchy owner.name method), writes⟩
  return ⟨none, writes⟩

lemma analyzeCode_eq (options : EncodeOptions) (owner : ClassFile) (method : Method)
    (code : Code) :
    analyzeCode options owner method code = (do
      if options.computeFrames && owner.version.hasFrames &&
          code.instructions.any (fun entry => entry.instruction.isSubroutine) &&
          owner.version.allowsSubroutines then
        warn (.usesSubroutines method.title owner.name)
      ofResult (findings options owner method code)) := by
  have same : (options.computeFrames && owner.version.hasFrames &&
      !(options.computeFrames && owner.version.hasFrames &&
        code.instructions.any (fun entry => entry.instruction.isSubroutine) &&
          owner.version.allowsSubroutines)) = writesFrames options owner.version code := by
    rw [writesFrames]
    cases options.computeFrames && owner.version.hasFrames with
    | true => rfl
    | false => rfl
  unfold analyzeCode findings
  dsimp only
  rw [same]
  generalize writesFrames options owner.version code = writes
  generalize (code.maxStack.isNone || code.maxLocals.isNone) = needs
  cases needs && !options.computeMaxs with
  | true => split <;> rfl
  | false =>
    cases writes || needs with
    | false => split <;> rfl
    | true => cases computeFrames options.hierarchy owner.name method <;> split <;> rfl

lemma analyzeCode_gives (options : EncodeOptions) (owner : ClassFile) (method : Method)
    (code : Code) :
    Gives (analyzeCode options owner method code) fun analysis =>
      findings options owner method code = .ok analysis := by
  have last : Gives (ofResult (findings options owner method code)) fun analysis =>
      findings options owner method code = .ok analysis := fun _ _ _ ran => (ofResult_ok ran).1
  rw [analyzeCode_eq]
  split
  · exact .after fun _ => last
  · exact last

lemma findings_isOf (found : findings options owner method code = .ok analysis) :
    analysis.IsOf options owner method code := by
  unfold findings at found
  dsimp only at found
  split at found
  · contradiction
  · split at found
    · obtain ⟨table, computed, found⟩ := ok_parts found
      cases found
      refine ⟨rfl, ?_, fun _ => rfl⟩
      rintro _ ⟨⟩
      exact computed
    · next neither =>
      cases found
      refine ⟨rfl, nofun, fun writes => ?_⟩
      dsimp only at writes
      rw [writes, Bool.true_or] at neither
      contradiction

lemma analyze_isOf {state state' : State} (given : method.code = some code)
    (ran : analyze options owner method state = .ok analysis state') :
    analysis.IsOf options owner method code := by
  rw [analyze, given] at ran
  exact findings_isOf (analyzeCode_gives options owner method code _ _ _ (within_ok ran))

/-- Nothing has to be found out about code if frames are not asked for and its sizes are given. -/
lemma analyze_given (off : options.computeFrames = false)
    (given : ∀ code, method.code = some code →
      code.maxStack.isSome = true ∧ code.maxLocals.isSome = true) :
    analyze options owner method = pure {} := by
  unfold analyze
  split
  · rfl
  · next code found =>
    obtain ⟨stack, locals⟩ := given code found
    simp only [analyzeCode, off, Option.isNone_eq_false_iff.mpr stack,
      Option.isNone_eq_false_iff.mpr locals, Bool.false_and, Bool.or_self, Bool.false_eq_true,
      if_false]
    rfl

/-- All instructions are reached in the frames that are written. -/
def Analysis.IsComplete (analysis : Analysis) (count : Nat) : Prop :=
  ∀ table, analysis.writesFrames = true → analysis.computed = some table →
    table.hasUnreachable = false ∧ table.frames.size = count

/-- The number of local variables that is written does not depend on the pool. -/
lemma maxLocals_ok {locals : UInt16} {state state' : State}
    (ran : maxLocals code analysis state = .ok locals state') (other : State) :
    maxLocals code analysis other = .ok locals other := by
  unfold maxLocals at ran ⊢
  cases given : code.maxLocals with
  | some size =>
    rw [given] at ran
    cases ran
    rfl
  | none =>
    rw [given] at ran
    dsimp only at ran ⊢
    split at ran
    · next writes =>
      cases ran
      rw [if_pos writes]
      rfl
    · next without =>
      split at ran
      · contradiction
      · next fits =>
        cases ran
        rw [if_neg without, if_neg fits]
        rfl

lemma maxLocals_eq {locals size : UInt16}
    (written : ∀ state, maxLocals code analysis state = .ok locals state)
    (given : code.maxLocals = some size) : locals = size := by
  have ran := written {}
  rw [maxLocals, given] at ran
  cases ran
  rfl

lemma maxLocals_yields (code : Code) (analysis : Analysis) :
    Yields before (maxLocals code analysis) fun locals _ =>
      ∀ state, maxLocals code analysis state = .ok locals state := by
  intro state locals state' wf _ ran
  have same := ran.symm.trans (maxLocals_ok ran state)
  cases same
  exact ⟨wf, .refl _, fun _ _ => maxLocals_ok ran⟩

lemma writtenFrames_yields (written : Written) :
    Yields before (writtenFrames written) fun _ _ => True := by
  unfold writtenFrames
  split
  · exact .pure fun _ _ => trivial
  · exact (ofResult_yields fun _ _ _ _ => trivial).bind fun _ =>
      (ofResult_yields fun _ _ _ _ => trivial).bind fun _ => .pure fun _ _ => trivial

/-- Nothing of the code is replaced. -/
structure Written.IsWhole (written : Written) : Prop where
  replaces : written.hasReplaced = false
  kept : ∀ index < written.ops.length, written.isKept index = true

/-- No code is replaced if all instructions are reached. -/
lemma Analysis.IsComplete.isWhole {written : Written}
    (complete : analysis.IsComplete written.ops.length)
    (frames : written.frames = if analysis.writesFrames then analysis.computed else none) :
    written.IsWhole := by
  cases found : written.frames with
  | none => exact ⟨by rw [Written.hasReplaced, found], fun _ _ => by rw [Written.isKept, found]⟩
  | some table =>
    rw [found] at frames
    split at frames
    · next writes =>
      obtain ⟨reached, size⟩ := complete table writes frames.symm
      refine ⟨by rw [Written.hasReplaced, found]; exact reached, fun index inside => ?_⟩
      have got : index < table.frames.size := by omega
      rw [FrameTable.hasUnreachable, Array.any_eq_false] at reached
      have here := reached index got
      rw [Written.isKept, found]
      dsimp only
      rw [FrameTable.isReachable, FrameTable.frame?, Array.getElem?_eq_getElem got,
        Option.join_some]
      simpa [Option.isSome_iff_ne_none] using here
    · cases frames

/-- All instructions are written as they are if all of them are reached. -/
lemma Written.IsWhole.bytecode_eq {written : Written} (whole : written.IsWhole) :
    written.bytecode = (written.layout.bytes written.ops).flatten := by
  refine congrArg flatten ((map_congr_left ?_).trans (zipIdx_map_fst 0 _))
  rintro ⟨bytes, index⟩ mem
  have inside := snd_lt_of_mem_zipIdx mem
  rw [Layout.bytes, length_map, length_zipIdx, add_zero] at inside
  dsimp only
  rw [if_pos (whole.kept index inside)]

/-- Writes code whose instructions have found their places. -/
def writeBody (written : Written) (analysis : Analysis) : Encoder (List UInt8) := do
  let (entry, frames) ← writtenFrames written
  let locals ← maxLocals written.code analysis
  let bytecode := written.bytecode
  let entryLists ← written.code.handlers.mapM (handlerEntries written)
  let handlers ← list16 (.tooMany .handlers) entryLists.flatten fun entry => return entry.bytes
  let firsts := firstEntries entryLists
  let tables ← attributeTable .codeAttributes [stackMapTable entry frames, lineNumbers written,
    localVariableTable written "LocalVariableTable" fun entry => entry.type.map FieldType.text,
    localVariableTable written "LocalVariableTypeTable" LocalVariable.signature,
    typeAnnotations (keepHandled firsts) (codeTarget written firsts) written.code.typeAnnotations,
    rawAttributes written.code.attributes]
  return bytes16 (maxStack written analysis) ++ bytes16 locals ++
    bytes32 (UInt32.ofNat bytecode.length) ++ bytecode ++ handlers ++ tables

/-- Code whose instructions have found the given places. -/
def Written.placed (code : Code) (analysis : Analysis) (ops : List (Op Nat)) (layout : Layout) :
    Written :=
  ⟨code, ops, layout, code.positions, if analysis.writesFrames then analysis.computed else none⟩

lemma codeBody_eq (version : Version) (code : Code) (analysis : Analysis) :
    codeBody version code analysis = (do
      checkCode version code
      let (ops, layout) ← layOut code
      writeBody (.placed code analysis ops layout) analysis) := rfl

lemma writeBody_yields (written : Written) (found : written.layout.IsFound written.ops)
    (positions : written.positions = written.code.positions) :
    Yields (fun pool => (before pool ∧
        written.code.IsBound written.code.positions ∧ written.code.instructions ≠ []) ∧
        IsLaidOut written.code written.ops written.layout pool) (writeBody written analysis)
      fun body pool => ∃ locals, IsBody written (maxStack written analysis) locals body pool ∧
        ∀ state, maxLocals written.code analysis state = .ok locals state := by
  refine (writtenFrames_yields written).bind fun ⟨entry, mapped⟩ =>
    (maxLocals_yields written.code analysis).bind fun locals =>
      (Yields.mapM fun handler _ => handlerEntries_yields written handler).bind fun lists =>
        (handlerTable_yields found).bind fun handlers => Yields.assuming
          (fun _ known => known.1.2.namesFirst known.2.1) fun names =>
            (Written.tables_yields found names entry mapped).bind fun tables => .pure ?_
  rintro pool ⟨⟨⟨⟨⟨⟨⟨_, bound, starts⟩, laidOut⟩, _⟩, known⟩, _⟩, _, handled⟩, reads⟩
  refine ⟨locals, ⟨laidOut, positions, bound, starts, handlers, tables, ?_, handled, reads⟩, known⟩
  simp only [append_assoc]

/-- The body of code is read back as far as the code can be read. -/
lemma codeBody_yields (once : code.BindsOnce)
    (nested : ∀ entry ∈ code.instructions,
      entry.instruction.dynamicDepth ≤ PoolTable.maxDynamicDepth + 1) :
    Yields before (codeBody version code analysis) fun body pool => ∃ ops layout locals,
      (∃ state state', layOut code state = .ok (ops, layout) state') ∧
        IsBody (.placed code analysis ops layout)
          (maxStack (.placed code analysis ops layout) analysis) locals body pool ∧
        ∀ state, maxLocals code analysis state = .ok locals state := by
  have lays {before : PoolBuilder → Prop} : Yields before (layOut code) fun result pool =>
      IsLaidOut code result.1 result.2 pool ∧
        ∃ state state', layOut code state = .ok result state' :=
    ((layOut_yields once).weaken fun _ _ _ known => known nested).and
      ((layOut_yields once).ofRun fun state _ state' ran => ⟨state, state', ran⟩)
  rw [codeBody_eq]
  refine (checkCode_yields version code).bind fun _ => lays.bind fun ⟨ops, layout⟩ =>
    Yields.assuming (fun _ known => known.2.1.found) fun settled =>
      Yields.assuming (fun _ known => known.2.2) fun ran => ?_
  refine (writeBody_yields (.placed code analysis ops layout) (Layout.ofOps_found settled)
    rfl).strengthen (fun _ known => ⟨known.1, known.2.1⟩) |>.weaken ?_
  rintro body pool _ ⟨locals, known⟩
  exact ⟨ops, layout, locals, ran, known⟩

end Encode

end JvmAsm
