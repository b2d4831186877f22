/-
Says which classes are read again from the bytes that they are encoded as, however they are encoded:
those in which every label that has to stand on an instruction does so where it is written.
-/
import JvmAsm.Proofs.Encode.ExceptionTable
import JvmAsm.Proofs.RoundTrip.Binary

namespace JvmAsm

open List Encode Code

variable {method : Method}

namespace Code

/-- Code in which nothing is nested too deep and no attribute has a name with a meaning. -/
structure IsBounded (code : Code) : Prop where
  nested : code.IsNested
  shallow : ∀ note ∈ code.notes, note.note.IsShallow
  others : ∀ kept ∈ code.attributes, kept.name ∉ Decode.CodeTables.names

/--
Code that can be read where it is written. Tables do not start at its end, and execution does not
go on there; where frames are written, that has been checked of all that is reached.
-/
structure IsAccepted (options : EncodeOptions) (version : Version) (code : Code) : Prop where
  bounded : code.IsBounded
  tables : ∀ label ∈ code.tableStarts, code.lastLabel ≠ some label
  jumps : writesFrames options version code = false →
    ∀ label ∈ code.jumpTargets, code.lastLabel ≠ some label

end Code

/-- Where frames are found, all handlers stand on instructions. -/
lemma computeFrames_handlers {hier : Hierarchy} {owner : ClassName} {code : Code}
    {table : FrameTable} (given : method.code = some code) (once : code.BindsOnce)
    (found : computeFrames hier owner method = .ok table) {handler : ExceptionHandler}
    (listed : handler ∈ code.handlers) :
    ∃ pos, code.positions[handler.handler]? = some pos ∧
      pos < code.instructions.length := by
  obtain ⟨flow, state, made, _⟩ := computeFrames_ok given found
  obtain ⟨describes, _, _⟩ := FlowProblem.ofMethod_describes once made
  obtain ⟨place, got⟩ := mem_iff_getElem?.mp listed
  obtain ⟨covered, _, covers⟩ := forall₂_getElem? (ok_mapM_iff.mp describes.coverage) got
  obtain ⟨bound, inside, _⟩ := (ExceptionHandler.coverage_ok once).mp covers
  exact ⟨_, once.positions_iff.mpr bound, inside⟩

namespace Encode

open Bytecode

/--
The last instruction of code is a conditional branch that is written as a branch over a jump, in
code that is a part of the given bytes.
-/
def EndsInverted (code : Code) (bytes : List UInt8) : Prop :=
  ∃ state ops layout state', layOut code state = .ok (ops, layout) state' ∧
    (layout.bytes ops).flatten <:+: bytes ∧ ¬layout.EndsPlain ops

namespace IsBody

variable {code : Code} {analysis : Analysis} {ops : List (Op Nat)} {layout : Layout}
  {stack locals : UInt16} {body bytes : List UInt8} {pool : PoolBuilder}

lemma bytecode_isInfix {written : Written} (isBody : IsBody written stack locals body pool) :
    written.bytecode <:+: body := by
  obtain ⟨handlers, tables, rfl, _⟩ := isBody.parts
  exact (prefix_append _ _).isInfix.trans
    (infix_append_of_infix_right (infix_append_of_infix_right
      (suffix_append _ (written.bytecode ++ (handlers ++ tables))).isInfix))

variable (isBody : IsBody (.placed code analysis ops layout) stack locals body pool)
include isBody

lemma isLaid_of_frames {hier : Hierarchy} {owner : ClassName} {table : FrameTable}
    {state state' : State} (given : method.code = some code) (once : code.BindsOnce)
    (ran : layOut code state = .ok (ops, layout) state') (writes : analysis.writesFrames = true)
    (known : analysis.computed = some table)
    (found : computeFrames hier owner method = .ok table) :
    (Written.placed code analysis ops layout).IsLaid := by
  have framed : (Written.placed code analysis ops layout).IsFramed table := by
    refine ⟨?_, computeFrames_follows given once found, (layOut_lowered once ran).1, isBody.found, rfl,
      fun label uses => ?_⟩
    · rw [Written.placed, if_pos writes, known]
    · obtain ⟨pos, stands⟩ := isBody.bound label uses
      exact ⟨pos, once.positions_iff.mp stands⟩
  exact framed.isLaid

end IsBody

lemma isReadWith_accepted {options : EncodeOptions} {owner : ClassFile} {analysis : Analysis}
    {state state' : State} {bytes : List UInt8}
    (ran : analyze options owner method state = .ok analysis state')
    (canonical : ∀ code, method.code = some code → code.IsCanonical)
    (accepted : ∀ code, method.code = some code → code.IsAccepted options owner.version)
    (plain : ∀ code, method.code = some code →
      writesFrames options owner.version code = false → ¬EndsInverted code bytes) :
    IsReadWith (fun _ _ => True) (fun pair => pair.2 <:+: bytes) owner.version analysis 0
      method where
  missing _ := trivial
  given code given before := by
    have canonical := canonical code given
    have accepted := accepted code given
    have isOf := analyze_isOf given ran
    refine (codeBody_yields canonical.once accepted.bounded.nested).weaken ?_
    rintro body pool _ ⟨ops, layout, locals, ⟨first, last, laidOut⟩, isBody, -⟩
    let written : Written := .placed code analysis ops layout
    refine ⟨written.readCode (maxStack written analysis) locals, trivial, fun inside => ?_⟩
    have reads : written.CanReadTables := Written.canReadTables accepted.bounded.shallow accepted.bounded.others
      fun label starts => isBody.isInside canonical (tableStarts_subset starts)
        (accepted.tables label starts)
    have bound (label : Label) := isBody.position_le label
    -- With frames, the search for them has looked at all jumps that are reached and all handlers.
    cases writes : analysis.writesFrames with
    | true =>
      obtain ⟨table, known⟩ := Option.isSome_iff_exists.mp (isOf.known writes)
      have found := isOf.computed table known
      refine isBody.readCode_encodes
        (isBody.isLaid_of_frames given canonical.once laidOut writes known found)
        (fun handler listed => ⟨bound _, bound _, ?_⟩) reads 0
      obtain ⟨pos, stands, less⟩ := computeFrames_handlers given canonical.once found listed
      exact ⟨pos, stands, isBody.count ▸ less⟩
    | false =>
      have without := isOf.writes.symm.trans writes
      have whole : (Written.placed code analysis ops layout).IsWhole :=
        Analysis.IsComplete.isWhole (fun _ wrote => absurd wrote (ne_true_of_eq_false writes)) rfl
      have jumps {label : Label} (jumped : label ∈ code.jumpTargets) : written.IsInside label :=
        isBody.isInside canonical (jumpTargets_subset jumped)
          (accepted.jumps without label jumped)
      have ends : layout.EndsPlain ops := by
        by_contra inverted
        refine plain code given without ⟨first, ops, layout, last, laidOut, ?_, inverted⟩
        have part := isBody.bytecode_isInfix.trans inside
        rwa [whole.bytecode_eq] at part
      refine isBody.readCode_encodes ⟨isBody.isNamed fun entry listed label targets => ?_,
        fun index op got _ => ends index op got⟩
        (fun handler listed => ⟨bound _, bound _, ?_⟩) reads 0
      · exact jumps (mem_append_left _ (mem_flatMap.mpr ⟨entry, listed, targets⟩))
      · exact jumps (mem_append_right _ (mem_map_of_mem listed))

end Encode

/-- Whatever is assembled from text is read again, if its labels stand on instructions. -/
theorem decode_accepts_encode {text : String} {value : ClassFile} {options : EncodeOptions}
    {bytes : List UInt8} (parsed : Text.parse text = .ok value)
    (accepted : value.IsReadable (Code.IsAccepted options value.version))
    (encoded : encode options value = .ok bytes)
    (plain : ∀ method ∈ value.methods, ∀ code, method.code = some code →
      Encode.writesFrames options value.version code = false → ¬Encode.EndsInverted code bytes) :
    ∃ methods, decode bytes = .ok { value with methods } := by
  have formed := Text.parse_isFormed parsed
  have areRead : AreReadWith (fun _ _ => True) (fun pair => pair.2 <:+: bytes) options
      value := fun method mem analysis state state' ran =>
    isReadWith_accepted ran
      (fun code given => ((formed.methods method mem).code code given).canonical)
      (accepted.methods method mem).code (plain method mem)
  obtain ⟨methods, pairs, -, -, inside, decodes⟩ := decode_of_encode accepted areRead encoded
  exact ⟨methods, decodes inside⟩

/-- The class with a method that returns at once is read again. -/
theorem decode_accepts_encode_idleText :
    Text.parse idleText = .ok (.idle none) ∧ encode {} (.idle none) = .ok idleBytes ∧
      ∃ methods, decode idleBytes = .ok { ClassFile.idle none with methods } := by
  refine ⟨parse_idleText, encode_idle, decode_accepts_encode parse_idleText ?_ encode_idle ?_⟩
  · refine (ClassFile.idle_isPlain none).imp fun method mem code given isPlain => ?_
    cases mem_singleton.mp mem
    cases given
    exact ⟨⟨isPlain.nested, isPlain.shallow, isPlain.others⟩, by simp [idle],
      by simp [idle]⟩
  · intro method mem code given without
    cases mem_singleton.mp mem
    cases given
    cases without

section LateLine

open Binary Encode Text

/-- Returns at once, and has a line that starts behind the instruction that returns. -/
def Code.lateLine : Code :=
  { idle none with lastLabel := some ⟨0⟩, lineNumbers := [(⟨0⟩, 1)] }

def lateLineText : String :=
  "class A \x7b\n\tstatic f()V \x7b\n\t\tRETURN\n\t\tL0\n\t\tLINENUMBER 1 L0\n\t\x7d\n\x7d\n"

def lateLineBytes : List UInt8 :=
  [0xca, 0xfe, 0xba, 0xbe, 0, 0, 0, 52, 0, 7, 1, 0, 1, 65, 7, 0, 1, 1, 0, 1, 102, 1, 0, 3, 40, 41,
    86, 1, 0, 15, 76, 105, 110, 101, 78, 117, 109, 98, 101, 114, 84, 97, 98, 108, 101, 1, 0, 4, 67,
    111, 100, 101, 0, 0, 0, 2, 0, 0, 0, 0, 0, 0, 0, 1, 0, 8, 0, 3, 0, 4, 0, 1, 0, 6, 0, 0, 0, 25,
    0, 0, 0, 0, 0, 0, 0, 1, 0xb1, 0, 0, 0, 1, 0, 5, 0, 0, 0, 6, 0, 1, 0, 1, 0, 1, 0, 0]

lemma parse_lateLineText : Text.parse lateLineText = .ok (.single .lateLine) :=
  @parse_of_opening _ [⟨4, [⟨.word "L0", 3⟩], 5⟩,
    ⟨5, [⟨.word "LINENUMBER", 3⟩, ⟨.word "1", 14⟩, ⟨.word "L0", 16⟩], 18⟩,
    ⟨6, [⟨.mark .closeBrace, 2⟩], 3⟩, ⟨7, [⟨.mark .closeBrace, 1⟩], 2⟩] _ (by cbv) (by cbv)

lemma Code.lateLine_isBounded : lateLine.IsBounded :=
  ⟨by simp [Code.IsNested, lateLine, idle, Instruction.dynamicDepth],
    by simp [notes, lateLine, idle], by simp [lateLine, idle]⟩

/-- What has been assembled is not always read again. -/
theorem decode_rejects_lateLine :
    Text.parse lateLineText = .ok (.single .lateLine) ∧
      (ClassFile.single .lateLine).IsReadable Code.IsBounded ∧
      encode {} (.single .lateLine) = .ok lateLineBytes ∧
      (decode lateLineBytes).isOk = false :=
  ⟨parse_lateLineText, ClassFile.single_isReadable lateLine_isBounded, by cbv, by decide +kernel⟩

end LateLine

end JvmAsm
