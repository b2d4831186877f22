/- Reads single instructions back from the bytes that are written for them. -/
import JvmAsm.Bytecode.Decode
import JvmAsm.Bytecode.Layout
import JvmAsm.Proofs.Binary
import JvmAsm.Proofs.Opcode

namespace JvmAsm

open Binary ByteReader List UInt16

variable {reader : ByteReader (Op UInt16)} {operands : List UInt8}

namespace Bytecode

section Operands

lemma operand8_reads (value : UInt8) : Reads operand8 [value] value := (Reads.u8 value).within _

lemma operand16_reads (value : UInt16) : Reads operand16 (bytes16 value) value := by
  change Reads _ ([byteAt 1 value.toNat] ++ [byteAt 0 value.toNat]) value
  refine (operand8_reads _).bind ((operand8_reads _).bind_pure ?_)
  rw [bytes16_value]
  exact Reads.pure _

variable {length offset target : Nat}

lemma insideCode_eq (inside : target < length) :
    insideCode length target = .ok (ofNat target) := by
  rw [insideCode, if_pos inside]

/-- A distance that fits into two bytes leads to the target. -/
lemma target16_reads (near : isNear offset target = true) (fits : target < 0x10000) :
    Reads (target16 offset) (distance16 offset target) (ofNat target) := by
  simp only [isNear, Bool.and_eq_true, decide_eq_true_eq] at near
  have distance : (Int16.ofInt (target - offset)).toInt = (target - offset : Int) :=
    Int16.toInt_ofInt_of_le (by omega) (by omega)
  refine ((Reads.i16 _).within _).bind_pure ?_
  rw [distance, show (offset : Int) + (target - offset) = target by omega]
  rw [if_neg (by simp; omega)]
  exact Reads.pure _

lemma target32_reads (start : offset < 0x10000) (fits : target < 0x10000) :
    Reads (target32 offset) (distance32 offset target) (ofNat target) := by
  have distance : (Int32.ofInt (target - offset)).toInt = (target - offset : Int) :=
    Int32.toInt_ofInt_of_le (by omega) (by omega)
  refine ((Reads.i32 _).within _).bind_pure ?_
  rw [distance, show (offset : Int) + (target - offset) = target by omega]
  rw [if_neg (by omega), if_neg (by omega)]
  exact Reads.pure _

lemma created_reads {reader : ByteReader UInt16} {bytes : List UInt8}
    (read : Reads reader bytes (ofNat target)) (inside : target < length)
    (fits : length ≤ 0x10000) : Reads (created length reader) bytes (ofNat target) := by
  refine read.bind_pure (Reads.ofResult ?_)
  rw [toNat_ofNat_of_lt' (show target < 65536 by omega), insideCode_eq inside]

lemma shortTarget_reads (near : isNear offset target = true) (inside : target < length)
    (fits : length ≤ 0x10000) :
    Reads (created length (target16 offset)) (distance16 offset target) (ofNat target) :=
  created_reads (target16_reads near (by omega)) inside fits

/-- A jump out of the code is refused. -/
lemma shortTarget_fails (near : isNear offset target = true) (outside : length ≤ target)
    (fits : target < 0x10000) (start : Nat) :
    FailsAt start (created length (target16 offset)) (distance16 offset target) := by
  rw [← append_nil (distance16 offset target)]
  have refused : insideCode length (ofNat target).toNat =
      .error (.ofCause (.binary (.outOfCode target length))) := by
    rw [toNat_ofNat_of_lt' (show target < 65536 by omega), insideCode, if_neg (not_lt.mpr outside)]
  exact (target16_reads near fits _).bind_fails (FailsAt.ofResult refused)

lemma longTarget_reads (start : offset < 0x10000) (inside : target < length)
    (fits : length ≤ 0x10000) :
    Reads (created length (target32 offset)) (distance32 offset target) (ofNat target) :=
  created_reads (target32_reads start (by omega)) inside fits

lemma padding_reads (offset : Nat) :
    ReadsAt offset padding (replicate (paddingAfter offset) 0) () := by
  have each : Forall₂ (Reads operand8) (replicate (paddingAfter offset) [0])
      (replicate (paddingAfter offset) 0) := by
    induction paddingAfter offset with
    | zero => exact .nil
    | succ count ih => exact .cons (operand8_reads 0) ih
  have zeros := (Reads.many each).discard offset
  rw [length_replicate] at zeros
  have flat : (replicate (paddingAfter offset) [(0 : UInt8)]).flatten =
      replicate (paddingAfter offset) 0 := by simp
  rw [flat] at zeros
  exact (ReadsAt.offset offset).bind zeros

end Operands

section Groups

variable {length start : Nat} {opcode : UInt8}

lemma groupedOp?_simple (op : SimpleOp) :
    groupedOp? (created length) start op.opcode = some (return .simple op) := by
  simp [groupedOp?]

lemma groupedOp?_branch (condition : Condition) :
    groupedOp? (created length) start condition.opcode =
      some (return .branch condition (← created length (target16 start))) := by
  have outside : SimpleOp.isInGroup condition.opcode = false := by cases condition <;> rfl
  simp [groupedOp?, SimpleOp.ofOpcode?_eq_none outside]

lemma groupedOp?_field (op : FieldOp) :
    groupedOp? (created length) start op.opcode = some (return .field op (← operand16)) := by
  have outside : SimpleOp.isInGroup op.opcode = false := by cases op <;> rfl
  have noCondition : Condition.ofOpcode? op.opcode = none := by cases op <;> rfl
  simp [groupedOp?, SimpleOp.ofOpcode?_eq_none outside, noCondition]

lemma groupedOp?_type (op : TypeOp) :
    groupedOp? (created length) start op.opcode = some (return .type op (← operand16)) := by
  have outside : SimpleOp.isInGroup op.opcode = false := by cases op <;> rfl
  have noCondition : Condition.ofOpcode? op.opcode = none := by cases op <;> rfl
  have noField : FieldOp.ofOpcode? op.opcode = none := by cases op <;> rfl
  simp [groupedOp?, SimpleOp.ofOpcode?_eq_none outside, noCondition, noField]

/-- Opcodes below those of the conditions belong to simple instructions or to local variables. -/
lemma groupedOp?_local (outside : SimpleOp.isInGroup opcode = false) (small : opcode < 0x99) :
    groupedOp? (created length) start opcode = localOp? opcode := by
  have absent {other : UInt8} (large : 0x99 ≤ other) : (other == opcode) = false := by
    rw [beq_eq_false_iff_ne]
    rintro rfl
    exact absurd small (UInt8.not_lt.mpr large)
  have noCondition : Condition.ofOpcode? opcode = none :=
    find?_eq_none.mpr fun condition _ => by
      rw [absent (by cases condition <;> decide)]
      decide
  have noField : FieldOp.ofOpcode? opcode = none :=
    find?_eq_none.mpr fun op _ => by
      rw [absent (by cases op <;> decide)]
      decide
  have noType : TypeOp.ofOpcode? opcode = none :=
    find?_eq_none.mpr fun op _ => by
      rw [absent (by cases op <;> decide)]
      decide
  simp [groupedOp?, SimpleOp.ofOpcode?_eq_none outside, noCondition, noField, noType]

/-- The opcodes that belong to no group. -/
def singleOpcodes : List UInt8 :=
  [0x10, 0x11, 0x12, 0x13, 0x14, 0x84, 0xa7, 0xa8, 0xa9, 0xaa, 0xab, 0xb6, 0xb7, 0xb8, 0xb9, 0xba,
    0xbc, 0xc4, 0xc5, 0xc8, 0xc9]

lemma groupedOp?_single (mem : opcode ∈ singleOpcodes) :
    groupedOp? (created length) start opcode = none := by
  have checked : ∀ opcode ∈ singleOpcodes, SimpleOp.isInGroup opcode = false ∧
      Condition.ofOpcode? opcode = none ∧ FieldOp.ofOpcode? opcode = none ∧
      TypeOp.ofOpcode? opcode = none ∧ (localOp? opcode).isNone = true := by decide +kernel
  obtain ⟨outside, noCondition, noField, noType, noLocal⟩ := checked opcode mem
  simp [groupedOp?, SimpleOp.ofOpcode?_eq_none outside, noCondition, noField, noType,
    Option.isNone_iff_eq_none.mp noLocal]

end Groups

section Instructions

variable {length offset : Nat} {value : Op UInt16}
variable {opcode : UInt8}

lemma op_reads (read : ReadsAt (offset + 1) (opOf (created length) offset opcode) operands value) :
    ReadsAt offset (op (created length)) (opcode :: operands) value :=
  (ReadsAt.offset offset).bind ((Reads.u8 opcode _).bind read)

lemma op_reads_grouped (group : groupedOp? (created length) offset opcode = some reader)
    (read : Reads reader operands value) :
    ReadsAt offset (op (created length)) (opcode :: operands) value := by
  apply op_reads
  rw [opOf, group]
  exact read _

lemma op_fails_grouped (group : groupedOp? (created length) offset opcode = some reader)
    (fails : FailsAt (offset + 1) reader operands) :
    FailsAt offset (op (created length)) (opcode :: operands) := by
  refine (ReadsAt.offset offset).bind_fails ((Reads.u8 opcode _).bind_fails ?_)
  rw [opOf, group]
  exact fails

lemma op_reads_single (mem : opcode ∈ singleOpcodes)
    (read : ReadsAt (offset + 1) (singleOp (created length) offset opcode) operands value) :
    ReadsAt offset (op (created length)) (opcode :: operands) value := by
  apply op_reads
  rw [opOf, groupedOp?_single mem]
  exact read

lemma toUInt8_toUInt16 {index : UInt16} (small : index ≤ 0xff) : index.toUInt8.toUInt16 = index := by
  apply UInt16.toNat_inj.mp
  rw [UInt8.toNat_toUInt16, UInt16.toNat_toUInt8]
  have bound : index.toNat ≤ 255 := le_iff_toNat_le.mp small
  omega

lemma index_cases {index : UInt16} (small : index < 4) :
    index = 0 ∨ index = 1 ∨ index = 2 ∨ index = 3 := by
  have bound : index.toNat < 4 := UInt16.lt_iff_toNat_lt.mp small
  simp only [← UInt16.toNat_inj, UInt16.reduceToNat]
  omega

lemma localOp?_range (found : localOp? opcode = some reader) :
    (0x15 ≤ opcode.toNat ∧ opcode.toNat ≤ 0x2d) ∨ (0x36 ≤ opcode.toNat ∧ opcode.toNat ≤ 0x4e) := by
  simp only [localOp?, UInt8.le_iff_toNat_le, UInt8.reduceToNat, Bool.and_eq_true,
    decide_eq_true_eq] at found
  split at found
  · omega
  · split at found
    · omega
    · split at found
      · omega
      · split at found
        · omega
        · contradiction

lemma groupedOp?_of_local (found : localOp? opcode = some reader) :
    groupedOp? (created length) offset opcode = some reader := by
  have range := localOp?_range found
  rw [groupedOp?_local _ _, found]
  · simp only [SimpleOp.isInGroup, UInt8.le_iff_toNat_le, UInt8.reduceToNat, Bool.or_eq_false_iff,
      Bool.and_eq_false_iff, decide_eq_false_iff_not]
    omega
  · simp only [UInt8.lt_iff_toNat_lt, UInt8.reduceToNat]
    omega

/-- An index of a local variable is read in each of its three forms. -/
lemma localBytes_reads {shortOpcode : UInt8} {build : ValueKind → UInt16 → Op UInt16}
    (short : ∀ kind index, index < 4 →
      localOp? (shortOpcode + kind.rank * 4 + index.toUInt8) = some (return build kind index))
    (plain : ∀ kind, localOp? (opcode + kind.rank) =
      some (do return build kind (← operand8).toUInt16))
    (long : ∀ kind index, Reads wide ((opcode + kind.rank) :: bytes16 index) (build kind index))
    (kind : ValueKind) (index : UInt16) :
    ReadsAt offset (op (created length)) (localBytes opcode shortOpcode kind index) (build kind index) := by
  unfold localBytes
  split
  · next small =>
    exact op_reads_grouped (groupedOp?_of_local (short kind index small)) (Reads.pure _)
  · split
    · next small =>
      refine op_reads_grouped (groupedOp?_of_local (plain kind)) ?_
      refine (operand8_reads _).bind_pure ?_
      rw [toUInt8_toUInt16 small]
      exact Reads.pure _
    · exact op_reads_single (by decide) (long kind index _)

lemma load_reads (kind : ValueKind) (index : UInt16) :
    ReadsAt offset (op (created length)) (localBytes 0x15 0x1a kind index) (.load kind index) := by
  apply localBytes_reads
  · intro kind index small
    rcases index_cases small with rfl | rfl | rfl | rfl <;> cases kind <;> rfl
  · intro kind
    cases kind <;> rfl
  · intro kind index
    cases kind <;> exact (Reads.u8 _).bind ((operand16_reads index).made _)

lemma store_reads (kind : ValueKind) (index : UInt16) :
    ReadsAt offset (op (created length)) (localBytes 0x36 0x3b kind index) (.store kind index) := by
  apply localBytes_reads
  · intro kind index small
    rcases index_cases small with rfl | rfl | rfl | rfl <;> cases kind <;> rfl
  · intro kind
    cases kind <;> rfl
  · intro kind index
    cases kind <;> exact (Reads.u8 _).bind ((operand16_reads index).made _)

lemma longTargets_reads (start : offset < 0x10000) (fits : length ≤ 0x10000) {targets : List Nat}
    (inside : ∀ target ∈ targets, target < length) :
    Reads (many targets.length (created length (target32 offset))) (targets.flatMap (distance32 offset))
      (targets.map ofNat) := by
  have each : Forall₂ (Reads (created length (target32 offset))) (targets.map (distance32 offset))
      (targets.map ofNat) := by
    rw [forall₂_map_left_iff, forall₂_map_right_iff, forall₂_same]
    exact fun target mem => longTarget_reads start (inside target mem) fits
  have read := Reads.many each
  rwa [length_map, ← flatMap_def] at read

lemma tableSwitch_reads (start : offset < 0x10000) (fits : length ≤ 0x10000) {default : Nat}
    {low high : Int32} {targets : List Nat} (ordered : ¬high < low)
    (count : (targets.length : Int) = high.toInt - low.toInt + 1)
    (inside : ∀ target ∈ default :: targets, target < length) :
    ReadsAt (offset + 1) (tableSwitch (created length) offset)
      (replicate (paddingAfter (offset + 1)) 0 ++ distance32 offset default ++
        bytes32 low.toUInt32 ++ bytes32 high.toUInt32 ++ targets.flatMap (distance32 offset))
      (.tableSwitch (ofNat default) low high (targets.map ofNat)) := by
  simp only [append_assoc]
  refine (padding_reads _).bind ?_
  refine Reads.bind (longTarget_reads start (inside _ mem_cons_self) fits) ?_ _
  have size : tableSize low high = pure targets.length := by
    rw [tableSize, if_neg ordered, ← count, Int.toNat_natCast]
  refine (Reads.i32 low).bind ((Reads.i32 high).bind ?_)
  rw [size, pure_bind]
  exact (longTargets_reads start fits fun target mem =>
    inside target (mem_cons_of_mem _ mem)).made _

lemma lookupSwitch_reads (start : offset < 0x10000) (fits : length ≤ 0x10000) {default : Nat}
    {pairs : List (Int32 × Nat)} (count : pairs.length < 0x80000000)
    (inside : ∀ target ∈ default :: pairs.map Prod.snd, target < length) :
    ReadsAt (offset + 1) (lookupSwitch (created length) offset)
      (replicate (paddingAfter (offset + 1)) 0 ++ distance32 offset default ++
        bytes32 (UInt32.ofNat pairs.length) ++
        pairs.flatMap fun pair => bytes32 pair.1.toUInt32 ++ distance32 offset pair.2)
      (.lookupSwitch (ofNat default) (pairs.map fun pair => (pair.1, ofNat pair.2))) := by
  have each : Forall₂ (Reads do return (← i32, ← created length (target32 offset)))
      (pairs.map fun pair => bytes32 pair.1.toUInt32 ++ distance32 offset pair.2)
      (pairs.map fun pair => (pair.1, ofNat pair.2)) := by
    rw [forall₂_map_left_iff, forall₂_map_right_iff, forall₂_same]
    intro pair mem
    refine (Reads.i32 pair.1).bind ((longTarget_reads start (inside _ ?_) fits).made _)
    exact mem_cons_of_mem _ (mem_map_of_mem mem)
  have read := Reads.many each
  rw [length_map, ← flatMap_def] at read
  have number : (UInt32.ofNat pairs.length).toInt32.toInt = pairs.length :=
    Int32.toInt_ofNat_of_lt count
  have counted : Reads pairCount (bytes32 (UInt32.ofNat pairs.length)) pairs.length := by
    refine (Reads.i32 (UInt32.ofNat pairs.length).toInt32).bind_pure ?_
    rw [if_neg (by rw [Int32.lt_iff_toInt_lt, number]; simp), number, Int.toNat_natCast]
    exact Reads.pure _
  simp only [append_assoc]
  refine (padding_reads _).bind ?_
  refine Reads.bind (longTarget_reads start (inside _ mem_cons_self) fits) ?_ _
  exact counted.bind (read.made _)

lemma increment_reads (index : UInt16) (amount : Int16) :
    ReadsAt offset (op (created length))
      (if isShortIncrement index amount then [0x84, index.toUInt8, amount.toInt8.toUInt8]
        else 0xc4 :: 0x84 :: (bytes16 index ++ bytes16 amount.toUInt16))
      (.increment index amount) := by
  split
  · next small =>
    simp only [isShortIncrement, Bool.and_eq_true, decide_eq_true_eq] at small
    have same : amount.toInt8.toInt16 = amount := by
      apply Int16.toInt_inj.mp
      have low := Int16.le_iff_toInt_le.mp small.1.2
      have high := Int16.le_iff_toInt_le.mp small.2
      rw [Int8.toInt_toInt16, Int16.toInt_toInt8]
      exact Int.bmod_eq_of_le low (Int.lt_add_one_of_le high)
    refine op_reads_single (by decide) (ReadsAt.bind (operand8_reads _ _)
      (Reads.bind_pure (operand8_reads _) ?_ _))
    rw [toUInt8_toUInt16 small.1.1, Int8.toInt8_toUInt8, same]
    exact Reads.pure _
  · refine op_reads_single (by decide) (Reads.bind (Reads.u8 _) ?_ _)
    exact (operand16_reads _).bind ((operand16_reads _).made _)

lemma ret_reads (index : UInt16) :
    ReadsAt offset (op (created length))
      (if index ≤ 0xff then [0xa9, index.toUInt8] else 0xc4 :: 0xa9 :: bytes16 index)
      (.ret index) := by
  split
  · next small =>
    refine op_reads_single (by decide) (Reads.bind_pure (operand8_reads _) ?_ _)
    rw [toUInt8_toUInt16 small]
    exact Reads.pure _
  · refine op_reads_single (by decide) (Reads.bind (Reads.u8 _) ?_ _)
    exact (operand16_reads _).made _

lemma constant_reads (isDouble : Bool) (index : UInt16) :
    ReadsAt offset (op (created length))
      (if isDouble then 0x14 :: bytes16 index
        else if index ≤ 0xff then [0x12, index.toUInt8] else 0x13 :: bytes16 index)
      (.constant isDouble index) := by
  cases isDouble with
  | true => exact op_reads_single (by decide) ((operand16_reads index).made (Op.constant true) _)
  | false =>
    rw [if_neg Bool.false_ne_true]
    split
    · next small =>
      refine op_reads_single (by decide) (Reads.bind_pure (operand8_reads _) ?_ _)
      rw [toUInt8_toUInt16 small]
      exact Reads.pure _
    · exact op_reads_single (by decide) ((operand16_reads index).made (Op.constant false) _)

end Instructions

end Bytecode

namespace Op

open Bytecode

/-- The number of targets of a table is the one that its bounds tell. -/
def IsShaped {τ : Type} : Op τ → Prop
  | .tableSwitch _ low high targets =>
    ¬high < low ∧ (targets.length : Int) = high.toInt - low.toInt + 1
  | _ => True

lemma IsShaped.map {τ σ : Type} {f : τ → σ} {op : Op τ} (shaped : op.IsShaped) :
    (op.map f).IsShaped := by
  cases op with
  | tableSwitch default low high targets =>
    refine ⟨shaped.1, ?_⟩
    rw [length_map]
    exact shaped.2
  | _ => trivial

variable {length offset : Nat}

def Reaches (offset : Nat) (isWide : Bool) (op : Op Nat) : Prop :=
  ∀ target, op.jump? = some target → isWide = false → isNear offset target = true

lemma bytes_reads (op : Op Nat) (isWide : Bool) (start : offset < 0x10000)
    (fits : length ≤ 0x10000) (small : op.size offset isWide ≤ 0x10000) (shaped : op.IsShaped)
    (inside : ∀ target ∈ op.targets, target < length)
    (reaches : op.Reaches offset isWide) (plain : (op.isBranch && isWide) = false) :
    ReadsAt offset (Bytecode.op (created length)) (op.bytes offset isWide) (op.map ofNat) := by
  cases op with
  | simple op => exact op_reads_grouped (groupedOp?_simple op) (Reads.pure _)
  | pushByte value =>
    exact op_reads_single (by decide)
      ((operand8_reads _).made (fun byte => Op.pushByte byte.toInt8) _)
  | pushShort value =>
    exact op_reads_single (by decide)
      ((operand16_reads _).made (fun word => Op.pushShort word.toInt16) _)
  | constant isDouble index => exact constant_reads isDouble index
  | load kind index => exact load_reads kind index
  | store kind index => exact store_reads kind index
  | increment index amount => exact increment_reads index amount
  | branch condition target =>
    obtain rfl : isWide = false := by simpa [isBranch] using plain
    refine op_reads_grouped (groupedOp?_branch condition) ?_
    exact (shortTarget_reads (reaches target rfl rfl) (inside target (by simp [targets]))
      fits).made _
  | goto target =>
    have within := inside target (by simp [targets])
    cases isWide with
    | false =>
      exact op_reads_single (by decide)
        ((shortTarget_reads (reaches target rfl rfl) within fits).made Op.goto _)
    | true =>
      exact op_reads_single (by decide)
        ((longTarget_reads start within fits).made Op.goto _)
  | jsr target =>
    have within := inside target (by simp [targets])
    cases isWide with
    | false =>
      exact op_reads_single (by decide)
        ((shortTarget_reads (reaches target rfl rfl) within fits).made Op.jsr _)
    | true =>
      exact op_reads_single (by decide)
        ((longTarget_reads start within fits).made Op.jsr _)
  | ret index => exact ret_reads index
  | tableSwitch default low high targets =>
    exact op_reads_single (by decide) (tableSwitch_reads start fits shaped.1 shaped.2 inside)
  | lookupSwitch default pairs =>
    have count : pairs.length < 0x80000000 := by
      simp only [size] at small
      omega
    exact op_reads_single (by decide) (lookupSwitch_reads start fits count inside)
  | field op index => exact op_reads_grouped (groupedOp?_field op) ((operand16_reads index).made (Op.field op))
  | invokeVirtual index =>
    exact op_reads_single (by decide) ((operand16_reads index).made Op.invokeVirtual _)
  | invokeSpecial index =>
    exact op_reads_single (by decide) ((operand16_reads index).made Op.invokeSpecial _)
  | invokeStatic index => exact op_reads_single (by decide) ((operand16_reads index).made Op.invokeStatic _)
  | invokeInterface index count =>
    refine op_reads_single (by decide) (Reads.bind (operand16_reads _) ?_ _)
    change Reads _ ([count] ++ [0]) _
    exact (operand8_reads _).bind ((operand8_reads 0).discard.made _)
  | invokeDynamic index =>
    refine op_reads_single (by decide) (Reads.bind (operand16_reads _) ?_ _)
    exact (operand16_reads 0).discard.made _
  | type op index => exact op_reads_grouped (groupedOp?_type op) ((operand16_reads index).made (Op.type op))
  | newPrimitiveArray code =>
    exact op_reads_single (by decide) ((operand8_reads code).made Op.newPrimitiveArray _)
  | newMultiArray index dimensions =>
    refine op_reads_single (by decide) (Reads.bind (operand16_reads _) ?_ _)
    exact (operand8_reads _).made _

end Op

end JvmAsm
