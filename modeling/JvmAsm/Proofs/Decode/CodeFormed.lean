/- Says what holds for all code that is read: it can be written and read again. -/
import JvmAsm.Proofs.Decode.Ops
import JvmAsm.Proofs.Decode.Positions

namespace JvmAsm

open Binary ByteReader Bytecode List

variable {length : Nat} {label : Label} {handlers : List ExceptionHandler}

section Constants

variable {table : PoolTable} {boots : PoolTable.Bootstrap}

namespace PoolTable

lemma allOf_depth {get : UInt16 → Result Loadable} {bound : Nat}
    (each : ∀ index value, get index = .ok value → value.depth ≤ bound) {indices : List UInt16}
    {found : Array Loadable} (start : ∀ value ∈ found, value.depth ≤ bound)
    {values : List Loadable} (got : allOf get indices found = .ok values) :
    Loadable.depthAll values ≤ bound := by
  induction indices generalizing found with
  | nil =>
    cases got
    exact Loadable.depthAll_le_iff.mpr (by simpa using start)
  | cons index rest ih =>
    obtain ⟨value, first, got⟩ := ok_parts got
    exact ih (forall_mem_push start (each index value first)) got

/-- Constants are nested at most as deep as the fuel. -/
lemma loadableWithin_depth {fuel : Nat} {index : UInt16} {value : Loadable}
    (found : table.loadableWithin boots fuel index = .ok value) : value.depth ≤ fuel := by
  have flat {β : Type} {result : Result β} {make : β → Loadable} {value : Loadable} {bound : Nat}
      (zero : ∀ part, (make part).depth = 0)
      (made : (do return make (← result)) = Except.ok value) : value.depth ≤ bound := by
    obtain ⟨part, _, made⟩ := ok_parts made
    cases made
    exact zero part ▸ Nat.zero_le _
  induction fuel generalizing index value with
  | zero =>
    unfold loadableWithin at found
    obtain ⟨entry, _, found⟩ := ok_parts (ok_mapError_iff.mp found)
    cases entry with
    | integer | float | long | double => cases found; exact le_refl 0
    | className | string | methodHandle | methodType => exact flat (fun _ => rfl) found
    | _ => contradiction
  | succ fuel ih =>
    unfold loadableWithin at found
    obtain ⟨entry, _, found⟩ := ok_parts (ok_mapError_iff.mp found)
    cases entry with
    | integer | float | long | double => cases found; exact Nat.zero_le _
    | className | string | methodHandle | methodType => exact flat (fun _ => rfl) found
    | dynamic =>
      obtain ⟨_, _, found⟩ := ok_parts found
      obtain ⟨method, _, found⟩ := ok_parts found
      obtain ⟨arguments, got, found⟩ := ok_parts found
      cases found
      have deep := allOf_depth (fun _ _ => ih) (by simp) (ok_mapError_iff.mp got)
      rw [Loadable.depth]
      omega
    | _ => contradiction

lemma callSite_depth {index : UInt16} {site : CallSite}
    (found : table.callSite boots index = .ok site) :
    Loadable.depthAll site.arguments ≤ maxDynamicDepth := by
  obtain ⟨entry, _, found⟩ := ok_parts (ok_mapError_iff.mp found)
  cases entry with
  | invokeDynamic =>
    obtain ⟨_, _, found⟩ := ok_parts found
    obtain ⟨method, _, found⟩ := ok_parts found
    obtain ⟨arguments, got, found⟩ := ok_parts found
    cases found
    exact allOf_depth (fun _ _ => loadableWithin_depth) (by simp) (ok_mapError_iff.mp got)
  | _ => contradiction

end PoolTable

structure Bytecode.IsResolved (op : Op UInt16) (instruction : Instruction) : Prop where
  sized : op.IsSized → instruction.IsSized
  nested : instruction.dynamicDepth ≤ PoolTable.maxDynamicDepth + 1

lemma Bytecode.resolve_isResolved {op : Op UInt16} {instruction : Instruction}
    (resolved : resolve table boots op = .ok instruction) : IsResolved op instruction := by
  cases op with
  | simple | pushByte | pushShort | load | store | increment | branch | goto | jsr | ret =>
    cases resolved
    exact ⟨fun _ => trivial, Nat.zero_le _⟩
  | tableSwitch default low high targets =>
    cases resolved
    refine ⟨fun sized => ?_, Nat.zero_le _⟩
    rw [Instruction.IsSized, length_map]
    exact (sized _ _ _ _ rfl).2
  | lookupSwitch default pairs =>
    simp only [resolve] at resolved
    split at resolved
    · contradiction
    · cases resolved
      exact ⟨fun _ => trivial, Nat.zero_le _⟩
  | constant =>
    obtain ⟨value, found, resolved⟩ := ok_parts resolved
    cases resolved
    exact ⟨fun _ => trivial, PoolTable.loadableWithin_depth found⟩
  | invokeDynamic =>
    obtain ⟨site, found, resolved⟩ := ok_parts resolved
    cases resolved
    have deep := PoolTable.callSite_depth found
    exact ⟨fun _ => trivial, by rw [Instruction.dynamicDepth]; omega⟩
  | field | invokeVirtual | type | invokeSpecial | invokeStatic =>
    obtain ⟨_, _, resolved⟩ := ok_parts resolved
    cases resolved
    exact ⟨fun _ => trivial, Nat.zero_le _⟩
  | invokeInterface =>
    obtain ⟨_, _, resolved⟩ := ok_parts resolved
    obtain ⟨_, _, resolved⟩ := ok_parts resolved
    dsimp only at resolved
    split at resolved
    · contradiction
    · cases resolved
      exact ⟨fun _ => trivial, Nat.zero_le _⟩
  | newPrimitiveArray =>
    simp only [resolve] at resolved
    split at resolved
    · cases resolved
      exact ⟨fun _ => trivial, Nat.zero_le _⟩
    · contradiction
  | newMultiArray =>
    obtain ⟨_, _, resolved⟩ := ok_parts resolved
    dsimp only at resolved
    split at resolved
    · contradiction
    · cases resolved
      exact ⟨fun _ => trivial, Nat.zero_le _⟩

end Constants

lemma Instruction.dynamicDepth_mapTargets (instruction : Instruction) (rename : Label → Label) :
    (instruction.mapTargets rename).dynamicDepth = instruction.dynamicDepth := by
  cases instruction <;> rfl

namespace Code

variable {code : Code} {positions : Std.HashMap Label Nat}

lemma mem_startReferences_renumberedBy
    (mem : label ∈ (code.renumberedBy positions).startReferences) :
    ∃ original ∈ code.startReferences, code.numbered positions original = label := by
  rwa [renumberedBy_eq, mem_startReferences_sortLines, startReferences_bindBy,
    startReferences_mapReferences, mem_map] at mem

/-- Labels on different positions get different numbers. -/
lemma position_of_numbered {pos pos' : Nat} (uses : label ∈ code.references)
    (stands : positions[label]? = some pos)
    (found : code.labelAt positions pos' = some (code.numbered positions label)) :
    pos = pos' :=
  labelsOf_injective usedPositions_increasing usedPositions_length (numbered_eq uses stands) found

lemma renumberedBy_isReadable
    (inside : ∀ label ∈ code.references, ∃ pos, positions[label]? = some pos)
    (separate : ∀ (label other : Label) (pos : Nat), positions[label]? = some pos →
      positions[other]? = some pos → label = other)
    (starts : ∀ label ∈ code.startReferences, ∀ pos, positions[label]? = some pos →
      pos < code.instructions.length)
    (nested : code.IsNested) (shallow : ∀ note ∈ code.notes, note.note.IsShallow)
    (merged : ∃ typed untyped, code.localVariables = typed ++ untyped ∧
      Decode.CodeTables.IsMerged typed untyped)
    (others : ∀ kept ∈ code.attributes, kept.name ∉ Decode.CodeTables.names)
    (formed : (code.renumberedBy positions).IsFormed) :
    (code.renumberedBy positions).IsReadable where
  canonical := formed.canonical
  handled := formed.handled
  others := others
  nested := by
    intro entry mem
    obtain ⟨⟨_, index⟩, indexed, rfl⟩ := mem_map.mp mem
    obtain ⟨original, present, rfl⟩ := mem_map.mp (fst_mem_of_mem_zipIdx indexed)
    rw [Instruction.dynamicDepth_mapTargets]
    exact nested original present
  starts := by
    intro label mem last
    obtain ⟨original, uses, rfl⟩ := mem_startReferences_renumberedBy mem
    obtain ⟨pos, stands⟩ := inside original (startReferences_subset uses)
    have below := starts original uses pos stands
    have same := position_of_numbered (startReferences_subset uses) stands last
    simp only [mapReferences, length_map] at same
    omega
  shallow := by
    simp only [renumberedBy_eq, Code.notes, sortLines, bindBy, mapReferences, ← map_append,
      forall_mem_map]
    exact shallow
  merged := by
    obtain ⟨typed, untyped, equal, merged⟩ := merged
    have injective {label other : Label} (uses : label ∈ code.references)
        (uses' : other ∈ code.references)
        (same : code.numbered positions label = code.numbered positions other) : label = other := by
      obtain ⟨pos, stands⟩ := inside label uses
      obtain ⟨pos', stands'⟩ := inside other uses'
      have equal := position_of_numbered uses stands (same ▸ numbered_eq uses' stands')
      exact separate label other pos stands (equal ▸ stands')
    have uses : ∀ entry ∈ typed ++ untyped, entry.range.start ∈ code.references ∧
        entry.range.stop ∈ code.references :=
      fun entry mem => range_mem_references (equal ▸ mem)
    refine ⟨_, _, ?_, merged.mapLabels fun entry mem other mem' =>
      LocalVariable.key_of_mapLabels (injective (uses entry mem).1 (uses other mem').1)
        (injective (uses entry mem).2 (uses other mem').2)⟩
    rw [← map_append, ← equal]
    rfl

end Code

namespace Decode

variable {table : PoolTable}

lemma labelInside_lt {offset : UInt16} (found : labelInside length offset = .ok label) :
    label.id.toNat < length := by
  unfold labelInside at found
  cases inside : insideCode length offset.toNat with
  | error failure =>
    rw [inside] at found
    contradiction
  | ok target =>
    rw [inside] at found
    cases found
    exact insideCode_lt inside

lemma readLabel_gives : Gives (readLabel length) fun label => label.id.toNat < length :=
  .after fun _ => readResult_gives fun _ found => labelInside_lt found

lemma readRange_gives : Gives (readRange length) fun range => range.start.id.toNat < length := by
  refine .after fun start => .after fun size =>
    readResult_gives fun range found => ?_
  unfold labelRange at found
  dsimp only at found
  split at found
  · contradiction
  · obtain ⟨label, inside, found⟩ := ok_parts found
    obtain ⟨stop, _, found⟩ := ok_parts found
    cases found
    exact labelInside_lt inside

lemma exceptionHandler_gives :
    Gives (exceptionHandler table length) fun handler => handler.handler.id.toNat < length := by
  refine .after fun start => .after fun stop => ?_
  split
  · exact Gives.refusal
  · exact .after fun _ => .after fun _ =>
      readLabel_gives.bind fun _ inside => .after fun _ => .pure inside

/-- What holds for the target of an annotation that is read. -/
structure IsTarget (length handlerCount : Nat) (target : CodeTarget) : Prop where
  handled : target.IsHandled handlerCount
  starts : ∀ label ∈ target.starts, label.id.toNat < length

lemma codeTarget_gives (handlerCount : Nat) :
    Gives (codeTarget length handlerCount) (IsTarget length handlerCount) := by
  refine .after fun code => ?_
  split
  · have entry : Gives (do
        let range ← readRange length
        return (range, ← u16)) fun entry => entry.1.start.id.toNat < length :=
      readRange_gives.bind fun _ inside => .after fun _ => .pure inside
    refine (list16_gives entry).bind fun entries inside => .pure ⟨trivial, ?_⟩
    rw [CodeTarget.starts, forall_mem_map]
    exact inside
  · split
    · refine .after fun index => ?_
      split
      · exact Gives.refusal
      · next handled => exact .pure ⟨Nat.lt_of_not_le handled, by simp [CodeTarget.starts]⟩
    · split
      · exact readLabel_gives.bind fun _ inside => .pure ⟨trivial, by simpa [CodeTarget.starts]⟩
      · split
        · exact readLabel_gives.bind fun _ inside => .after fun _ =>
            .pure ⟨trivial, by simpa [CodeTarget.starts]⟩
        · exact .throw

namespace CodeTables

/-- What holds for the attributes of code that are read. -/
structure IsSound (length handlerCount : Nat) (tables : CodeTables) : Prop where
  lines : ∀ line ∈ tables.lineNumbers, line.1.id.toNat < length
  typed : ∀ entry ∈ tables.localVariables,
    entry.range.start.id.toNat < length ∧ entry.type.isSome = true ∧ entry.signature = none
  signed : ∀ entry ∈ tables.localVariableTypes,
    entry.range.start.id.toNat < length ∧ entry.type = none ∧ entry.signature.isSome = true
  visible : ∀ note ∈ tables.visible, AnnotatedType.IsGood (IsTarget length handlerCount) note
  invisible : ∀ note ∈ tables.invisible, AnnotatedType.IsGood (IsTarget length handlerCount) note
  others : ∀ kept ∈ tables.raw, kept.name ∉ names

variable {handlerCount : Nat} {tables : CodeTables}

section

variable (sound : tables.IsSound length handlerCount)
include sound

lemma step_isSound (name : String) (size : Nat) :
    Gives (step table length handlerCount tables name size) (IsSound length handlerCount) := by
  have line : Gives (lineNumber length) fun line => line.1.id.toNat < length :=
    readLabel_gives.bind fun _ inside => .after fun _ => .pure inside
  have entry : Gives (localVariable table length) fun entry =>
      entry.range.start.id.toNat < length ∧ entry.type.isSome = true ∧ entry.signature = none :=
    readRange_gives.bind fun _ inside => .after fun _ =>
      .after fun _ => .after fun _ =>
        .pure ⟨inside, rfl, rfl⟩
  have signed : Gives (localVariableType table length) fun entry =>
      entry.range.start.id.toNat < length ∧ entry.type = none ∧ entry.signature.isSome = true :=
    readRange_gives.bind fun _ inside => .after fun _ =>
      .after fun _ => .after fun _ =>
        .pure ⟨inside, rfl, rfl⟩
  have notes : Gives (annotatedTypes table (codeTarget length handlerCount)) fun notes =>
      ∀ note ∈ notes, AnnotatedType.IsGood (IsTarget length handlerCount) note :=
    annotatedTypes_gives (codeTarget_gives handlerCount)
  unfold step
  split
  · exact .after fun _ => .pure sound
  · exact (contents_gives _ _ (list16_gives line)).bind fun _ found => .pure
      { sound with lines := forall_mem_appendList sound.lines found }
  · exact (contents_gives _ _ (list16_gives entry)).bind fun _ found => .pure
      { sound with typed := forall_mem_appendList sound.typed found }
  · exact (contents_gives _ _ (list16_gives signed)).bind fun _ found => .pure
      { sound with signed := forall_mem_appendList sound.signed found }
  · exact (contents_gives _ _ notes).bind fun _ found => .pure
      { sound with visible := forall_mem_appendList sound.visible found }
  · exact (contents_gives _ _ notes).bind fun _ found => .pure
      { sound with invisible := forall_mem_appendList sound.invisible found }
  · refine (raw_gives name size).bind fun kept same => .pure
      { sound with others := forall_mem_push sound.others ?_ }
    simpa [names, same] using ⟨‹_›, ‹_›, ‹_›, ‹_›, ‹_›, ‹_›⟩

/-- The local variables of code that is read, which can be taken apart again. -/
lemma IsSound.merged (handlers : List ExceptionHandler) :
    ∃ typed untyped, (tables.code handlers).localVariables = typed ++ untyped ∧
      IsMerged typed untyped := by
  have typed : ∀ entry ∈ tables.localVariables.toList, entry.type.isSome = true ∧
      entry.signature = none := fun entry mem => (sound.typed entry (Array.mem_def.mpr mem)).2
  have start : IsMerged tables.localVariables.toList [] := by
    refine ⟨fun entry mem => (typed entry mem).1, by simp, ?_, by simp⟩
    refine pairwise_of_forall_mem_list fun entry _ later mem _ has => ?_
    rw [(typed later mem).2] at has
    contradiction
  have merged := @foldl_isMerged _ _ tables.localVariableTypes.toList start
    fun entry mem => (sound.signed entry (Array.mem_def.mpr mem)).2
  rwa [append_nil, ← foldl_addSignature, Array.foldl_toList] at merged

lemma IsSound.starts (handled : ∀ handler ∈ handlers, handler.handler.id.toNat < length) :
    ∀ label ∈ (tables.code handlers).startReferences, label.id.toNat < length := by
  have ranges := @foldl_ranges (fun range => range.start.id.toNat < length)
    tables.localVariables.toList tables.localVariableTypes.toList
    (fun entry mem => (sound.typed entry (Array.mem_def.mpr mem)).1)
    (fun entry mem => (sound.signed entry (Array.mem_def.mpr mem)).1)
  rw [← foldl_addSignature, Array.foldl_toList] at ranges
  simp only [Code.startReferences, code, Code.notes, flatMap_nil, nil_append,
    forall_mem_append, forall_mem_map, flatMap_append, mem_flatMap]
  refine ⟨⟨⟨handled, fun line mem => sound.lines line (Array.mem_def.mpr mem)⟩, ranges⟩, ?_, ?_⟩
  · rintro label ⟨note, mem, starts⟩
    exact (sound.visible note (Array.mem_def.mpr mem)).1.starts label starts
  · rintro label ⟨note, mem, starts⟩
    exact (sound.invisible note (Array.mem_def.mpr mem)).1.starts label starts

lemma IsSound.notes (handlers : List ExceptionHandler) :
    ∀ note ∈ (tables.code handlers).notes, AnnotatedType.IsGood (IsTarget length handlerCount) note := by
  rw [Code.notes, forall_mem_append]
  exact ⟨fun note mem => sound.visible note (Array.mem_def.mpr mem),
    fun note mem => sound.invisible note (Array.mem_def.mpr mem)⟩

end

end CodeTables

section Positions

variable {α : Type} {placed : List (Placed α)} {label : Label} {index : Nat}
  (found : (startPositions placed length)[label]? = some index)
include found

lemma startPositions_le : index ≤ placed.length := by
  obtain ⟨offset, present, _⟩ := startPositions_offset found
  have below := (List.getElem?_eq_some_iff.mp present).1
  rw [boundaries, List.length_append, List.length_map, List.length_singleton] at below
  omega

lemma startPositions_lt (fits : length ≤ 0xffff) (inside : label.id.toNat < length) :
    index < placed.length := by
  refine Nat.lt_of_le_of_ne (startPositions_le found) ?_
  rintro rfl
  obtain ⟨offset, present, rfl⟩ := startPositions_offset found
  obtain rfl : length = offset := by simpa [boundaries] using present
  rw [labelOf, UInt16.toNat_ofNat_of_lt' (show length < 65536 by omega)] at inside
  omega

lemma startPositions_separate {other : Label}
    (found' : (startPositions placed length)[other]? = some index) : label = other := by
  obtain ⟨offset, present, rfl⟩ := startPositions_offset found
  obtain ⟨offset', present', rfl⟩ := startPositions_offset found'
  rw [Option.some.inj (present.symm.trans present')]

end Positions

end Decode

/-- What holds for code that is read from bytes. -/
structure Code.IsRead (code : Code) : Prop where
  readable : code.IsReadable
  formed : code.IsFormed
  maxStack : code.maxStack.isSome = true
  maxLocals : code.maxLocals.isSome = true

namespace Decode

variable {table : PoolTable} {boots : PoolTable.Bootstrap}
variable {placed : List (Placed (Op UInt16))} {instructions : List Entry}

lemma renumbered_isRead {tables : CodeTables} {maxStack maxLocals : UInt16}
    (fits : length ≤ 0xffff) (divided : Totals (Placed.IsRead length) length placed)
    (handled : ∀ handler ∈ handlers, handler.handler.id.toNat < length)
    (sound : tables.IsSound length handlers.length)
    (standing : ∀ label ∈ placed.flatMap (fun placed => placed.op.targets.map labelOf) ++
      (tables.code handlers).references,
      ∃ pos, (startPositions placed length)[label]? = some pos)
    (resolved : Forall₂ (fun placed entry =>
      resolve table boots placed.op = .ok entry.instruction) placed instructions) :
    ((tables.labelled handlers maxStack maxLocals instructions).renumberedBy
      (startPositions placed length)).IsRead := by
  have targets := targets_of_resolved resolved
  have stands : ∀ label ∈ (tables.labelled handlers maxStack maxLocals instructions).references,
      ∃ pos, (startPositions placed length)[label]? = some pos := by
    rw [← targets] at standing
    simpa [Code.references, CodeTables.labelled, CodeTables.code] using standing
  have starts : ∀ label ∈
      (tables.labelled handlers maxStack maxLocals instructions).startReferences, label.id.toNat < length := by
    have jumps : ∀ label ∈ instructions.flatMap (fun entry => entry.instruction.targets),
        label.id.toNat < length := by
      rw [targets]
      simp only [mem_flatMap, mem_map]
      rintro _ ⟨entry, mem, target, uses, rfl⟩
      exact divided.forall_mem (fun _ _ op => op.inside) entry mem target uses
    have others := sound.starts handled
    simp only [Code.startReferences, CodeTables.labelled, CodeTables.code, flatMap_nil,
      nil_append, forall_mem_append] at others ⊢
    exact ⟨⟨⟨⟨jumps, others.1.1.1⟩, others.1.1.2⟩, others.1.2⟩, others.2⟩
  have formed : ((tables.labelled handlers maxStack maxLocals instructions).renumberedBy
      (startPositions placed length)).IsFormed := by
    refine Code.renumberedBy_isFormed (fun label uses => ?_)
      (fun note mem => (sound.notes handlers note mem).1.handled) (fun entry mem => ?_)
    · obtain ⟨pos, stands⟩ := stands label uses
      exact ⟨pos, stands, resolved.length_eq ▸ startPositions_le stands⟩
    · obtain ⟨original, present, related⟩ := forall₂_mem_right resolved mem
      exact (resolve_isResolved related).sized (divided.forall_mem (fun _ _ op => op.sized) original present)
  refine ⟨Code.renumberedBy_isReadable stands (fun _ _ _ found => startPositions_separate found)
    (fun label uses pos found => ?_) (fun entry mem => ?_)
    (fun note mem => (sound.notes handlers note mem).2) (sound.merged handlers)
    (fun kept mem => sound.others kept (Array.mem_def.mpr mem)) formed, formed, rfl, rfl⟩
  · exact resolved.length_eq ▸ startPositions_lt found fits (starts label uses)
  · obtain ⟨original, present, related⟩ := forall₂_mem_right resolved mem
    exact (resolve_isResolved related).nested

lemma readCode_gives (table : PoolTable) (boots : PoolTable.Bootstrap) (classStart : Nat) :
    Gives (readCode table boots classStart) Code.IsRead := by
  rw [readCode_eq]
  refine .after fun maxStack => .after fun maxLocals =>
    .after fun length => ?_
  dsimp only
  generalize length.toNat = length
  split
  · exact Gives.refusal
  · next fits =>
    have small : length ≤ 0xffff := by simp at fits; omega
    refine .after fun here => (bytes_gives length).bind fun bytecode size =>
      (readResult_gives fun placed divided => ops_totals divided).bind fun placed divided =>
      (list16_gives exceptionHandler_gives).bind fun handlers handled =>
      (attributes_gives (CodeTables.IsSound length handlers.length) ⟨by simp, by simp, by simp,
        by simp, by simp, by simp⟩ fun _ name size sound => CodeTables.step_isSound sound name
          size).bind fun tables sound => ?_
    rw [size] at divided
    split
    · exact Gives.refusal
    · next standing =>
      exact (readResult_gives fun instructions => resolveAll_ok_iff.mp).bind
        fun instructions resolved => .pure (renumbered_isRead small divided handled sound
          (position_of_misplacedOffset? (Option.eq_none_iff_forall_ne_some.mpr standing))
          (forall₂_map_right_iff.mpr resolved))

end Decode

end JvmAsm
