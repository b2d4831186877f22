/- Finds the instructions that come in groups by their opcodes. -/
import JvmAsm.Instruction.Basic
import Mathlib

namespace JvmAsm

open List

/-- A value is found by its key if no two values have the same key. -/
lemma find?_key {α β : Type} [DecidableEq β] {key : α → β} {values : List α} {value : α}
    (distinct : (values.map key).Nodup) (mem : value ∈ values) :
    values.find? (fun other => key other == key value) = some value := by
  induction values with
  | nil => cases mem
  | cons first rest ih =>
    rw [map_cons, nodup_cons] at distinct
    rcases mem_cons.mp mem with rfl | later
    · simp
    · have different : key first ≠ key value := fun same =>
        distinct.1 (same ▸ mem_map_of_mem later)
      rw [find?_cons_of_neg (by simpa using different), ih distinct.2 later]

lemma nodup_of_increasing {opcodes : List UInt8}
    (increasing : (opcodes.map UInt8.toNat).IsChain (· < ·)) : opcodes.Nodup :=
  Nodup.of_map _ (isChain_iff_pairwise.mp increasing).nodup

lemma SimpleOp.mem_all (op : SimpleOp) : op ∈ SimpleOp.all := by
  have found : SimpleOp.all[op.ctorIdx]? = some op := by cases op <;> rfl
  exact mem_of_getElem? found

@[simp] lemma SimpleOp.ofOpcode?_opcode (op : SimpleOp) :
    SimpleOp.ofOpcode? op.opcode = some op :=
  find?_key (nodup_of_increasing (by decide +kernel)) op.mem_all

@[simp] lemma Condition.ofOpcode?_opcode (condition : Condition) :
    Condition.ofOpcode? condition.opcode = some condition := by
  cases condition <;> rfl

@[simp] lemma FieldOp.ofOpcode?_opcode (op : FieldOp) : FieldOp.ofOpcode? op.opcode = some op := by
  cases op <;> rfl

@[simp] lemma TypeOp.ofOpcode?_opcode (op : TypeOp) : TypeOp.ofOpcode? op.opcode = some op := by
  cases op <;> rfl

@[simp] lemma Primitive.ofArrayCode?_arrayCode (element : Primitive) :
    Primitive.ofArrayCode? element.arrayCode = some element := by
  cases element <;> rfl

/-- The opcodes between which those of the simple instructions lie. -/
def SimpleOp.isInGroup (opcode : UInt8) : Bool :=
  opcode ≤ 0x0f || (0x2e ≤ opcode && opcode ≤ 0x35) || (0x4f ≤ opcode && opcode ≤ 0x83) ||
    (0x85 ≤ opcode && opcode ≤ 0x98) || (0xac ≤ opcode && opcode ≤ 0xb1) ||
    (0xbe ≤ opcode && opcode ≤ 0xbf) || (0xc2 ≤ opcode && opcode ≤ 0xc3)

lemma SimpleOp.isInGroup_opcode (op : SimpleOp) : SimpleOp.isInGroup op.opcode = true := by
  have checked : ∀ op ∈ SimpleOp.all, SimpleOp.isInGroup op.opcode = true := by decide +kernel
  exact checked op op.mem_all

lemma SimpleOp.ofOpcode?_eq_none {opcode : UInt8}
    (outside : SimpleOp.isInGroup opcode = false) : SimpleOp.ofOpcode? opcode = none := by
  rw [SimpleOp.ofOpcode?, find?_eq_none]
  intro op _ same
  rw [← eq_of_beq same, SimpleOp.isInGroup_opcode] at outside
  contradiction

end JvmAsm
