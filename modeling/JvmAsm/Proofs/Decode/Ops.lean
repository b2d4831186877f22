/-
Says what holds for all instructions that are read from bytecode: their targets are inside the code,
and nothing but an index or the padding of a switch can make them longer.
-/
import JvmAsm.Proofs.Decode.Spending

namespace JvmAsm

open Binary ByteReader Bytecode Op

/-- The size of an instruction with narrow jumps, whatever its place and its indices are. -/
def Op.longest {τ : Type} : Op τ → Nat
  | .simple _ => 1
  | .pushByte _ | .newPrimitiveArray _ => 2
  | .load _ index | .store _ index => localSize index
  | .increment index amount => if isShortIncrement index amount then 3 else 6
  | .ret index => if index ≤ 0xff then 2 else 4
  | .tableSwitch _ _ _ targets => 16 + 4 * targets.length
  | .lookupSwitch _ pairs => 12 + 8 * pairs.length
  | .invokeInterface .. | .invokeDynamic _ => 5
  | .newMultiArray .. => 4
  | _ => 3

lemma localSize_le (index : UInt16) : localSize index ≤ 4 := by
  unfold localSize
  split
  · decide
  · split <;> decide

/-- A table has a target for each of its keys. -/
def Op.IsSized (op : Op UInt16) : Prop :=
  ∀ default low high targets, op = .tableSwitch default low high targets →
    low ≤ high ∧ high.toInt - low.toInt + 1 = targets.length

/-- What holds for an instruction that is read from some bytes of code of the given length. -/
structure Op.IsRead (length cost : Nat) (op : Op UInt16) : Prop where
  longest : op.longest ≤ 2 * cost
  inside : ∀ target ∈ op.targets, target.toNat < length
  sized : op.IsSized

lemma Op.isRead_of_none {op : Op UInt16} {length cost : Nat} (longest : op.longest ≤ 2 * cost)
    (none : op.targets = []) : op.IsRead length cost := by
  refine ⟨longest, by simp [none], ?_⟩
  rintro _ _ _ _ rfl
  simp [targets] at none

namespace Bytecode

variable {α : Type} {length start width : Nat} {reader : ByteReader (Op UInt16)}

lemma insideCode_lt {offset : Nat} {target : UInt16}
    (found : insideCode length offset = .ok target) : target.toNat < length := by
  unfold insideCode at found
  split at found
  · next inside =>
    cases found
    rw [UInt16.toNat_ofNat']
    exact Nat.lt_of_le_of_lt (Nat.mod_le _ _) inside
  · contradiction

lemma operand8_spends : Spends operand8 fun cost _ => cost = 1 := u8_spends.within _

lemma operand16_spends : Spends operand16 fun cost _ => cost = 2 :=
  operand8_spends.bind fun _ _ one => operand8_spends.bind fun _ _ one' => .pure (by omega)

lemma target16_spends : Spends (target16 start) fun cost _ => cost = 2 := by
  refine (i16_spends.within _).bind fun _ distance two => ?_
  dsimp only
  split
  · exact .refusal
  · exact .pure two

lemma target32_spends : Spends (target32 start) fun cost _ => cost = 4 := by
  refine (i32_spends.within _).bind fun _ distance four => ?_
  dsimp only
  split
  · exact .refusal
  · split
    · exact .refusal
    · exact .pure four

lemma created_spends {reader : ByteReader UInt16} (spends : Spends reader fun cost _ => cost = width) :
    Spends (created length reader) fun cost target => cost = width ∧ target.toNat < length :=
  spends.bind fun _ _ spent => .ofResult fun _ found => ⟨spent, insideCode_lt found⟩

lemma padding_spends : Spends padding fun _ _ => True :=
  offset_spends.bind fun _ _ _ => (many_spends operand8_spends _).bind fun _ _ _ => .pure trivial

lemma longTarget_spends : Spends (created length (target32 start)) fun cost target =>
    cost = 4 ∧ target.toNat < length := created_spends target32_spends

lemma tableSize_spends {low high : Int32} : Spends (tableSize low high) fun cost size =>
    cost = 0 ∧ low ≤ high ∧ high.toInt - low.toInt + 1 = size := by
  unfold tableSize
  split
  · exact .refusal
  · next ordered =>
    have below := Int32.le_iff_toInt_le.mp (Int32.not_lt.mp ordered)
    exact .pure ⟨rfl, Int32.not_lt.mp ordered, by omega⟩

lemma pairCount_spends : Spends pairCount fun cost _ => cost = 4 :=
  i32_spends.bind fun _ count four => by
    split
    · exact .refusal
    · exact .pure four

lemma tableSwitch_spends :
    Spends (tableSwitch (created length) start) fun cost op => op.IsRead length (1 + cost) := by
  refine padding_spends.bind fun _ _ _ => longTarget_spends.bind fun _ default first =>
    i32_spends.bind fun _ low four => i32_spends.bind fun _ high four' =>
    tableSize_spends.bind fun _ size sized =>
    (many_spends longTarget_spends _).bind fun cost targets known => .pure ⟨?_, ?_, ?_⟩
  · have paid := known.2.length_le 4 fun _ _ target => le_of_eq target.1.symm
    simp only [Op.longest]
    omega
  · simpa [Op.targets] using ⟨first.2, known.2.forall_mem fun _ _ target => target.2⟩
  · rintro _ _ _ _ ⟨⟩
    exact ⟨sized.2.1, known.1 ▸ sized.2.2⟩

lemma lookupSwitch_spends :
    Spends (lookupSwitch (created length) start) fun cost op => op.IsRead length (1 + cost) := by
  have pair : Spends (do
      let key ← i32
      return (key, ← created length (target32 start))) fun cost pair =>
        cost = 8 ∧ pair.2.toNat < length :=
    i32_spends.bind fun _ _ four => longTarget_spends.bind fun _ _ target =>
      .pure ⟨by omega, target.2⟩
  refine padding_spends.bind fun _ _ _ => longTarget_spends.bind fun _ default first =>
    pairCount_spends.bind fun _ count four =>
    (many_spends pair _).bind fun cost pairs known => .pure ⟨?_, ?_, ?_⟩
  · have paid := known.2.length_le 8 fun _ _ pair => le_of_eq pair.1.symm
    simp only [longest]
    omega
  · have inside := known.2.forall_mem fun _ _ pair => pair.2
    simpa [targets] using ⟨first.2, fun target key mem => inside (key, target) mem⟩
  · rintro _ _ _ _ ⟨⟩

/-- An instruction with operands of a fixed size. -/
lemma operand_spends {reader : ByteReader α} {make : α → Op UInt16} {before : Nat}
    (spends : Spends reader fun cost _ => cost = width)
    (short : ∀ value, (make value).longest ≤ 2 * (before + width))
    (none : ∀ value, (make value).targets = []) :
    Spends (do return make (← reader)) fun cost op => op.IsRead length (before + cost) := by
  refine spends.bind fun _ value spent => .pure ?_
  subst spent
  exact isRead_of_none (short value) (none value)

/-- An instruction that jumps. -/
lemma jump_spends {reader : ByteReader UInt16} {make : UInt16 → Op UInt16}
    (spends : Spends reader fun cost target => cost = width ∧ target.toNat < length)
    (short : ∀ target, (make target).longest ≤ 2 * (1 + width))
    (only : ∀ target, (make target).targets = [target])
    (other : ∀ target default low high targets,
      make target ≠ .tableSwitch default low high targets) :
    Spends (do return make (← reader)) fun cost op => op.IsRead length (1 + cost) := by
  refine spends.bind fun _ target known => .pure ?_
  obtain ⟨rfl, inside⟩ := known
  exact ⟨short target, by simpa [only] using inside,
    fun _ _ _ _ same => absurd same (other _ _ _ _ _)⟩

lemma wide_spends : Spends wide fun cost op => op.IsRead length (1 + cost) := by
  refine u8_spends.bind fun _ opcode one => ?_
  rw [one]
  simp only [← add_assoc]
  split_ifs
  · split
    · exact operand_spends operand16_spends
        (fun index => le_trans (localSize_le index) (by decide)) (fun _ => rfl)
    · exact .throw
  · split
    · exact operand_spends operand16_spends
        (fun index => le_trans (localSize_le index) (by decide)) (fun _ => rfl)
    · exact .throw
  · exact operand_spends operand16_spends (fun index => by simp only [longest]; split <;> decide)
      (fun _ => rfl)
  · refine operand16_spends.bind fun _ index two => operand16_spends.bind fun _ amount two' =>
      .pure (isRead_of_none ?_ rfl)
    simp only [longest]
    split <;> omega
  · exact .throw

lemma localOp?_spends {opcode : UInt8} (found : localOp? opcode = some reader) :
    Spends reader fun cost op => op.IsRead length (1 + cost) := by
  have small (value : UInt8) : localSize (value % 4).toUInt16 ≤ 2 := by
    have bound : (value % 4).toUInt16.toNat ≤ 0xff := by
      rw [UInt8.toNat_toUInt16]
      exact Nat.le_of_lt_succ (UInt8.toNat_lt _)
    unfold localSize
    split
    · decide
    · rw [if_pos (UInt16.le_iff_toNat_le.mpr bound)]
  unfold localOp? at found
  split_ifs at found
  all_goals obtain ⟨kind, _, rfl⟩ := Option.map_eq_some_iff.mp found
  · exact operand_spends operand8_spends (fun index => localSize_le _) (fun _ => rfl)
  · exact .pure (isRead_of_none (small _) rfl)
  · exact operand_spends operand8_spends (fun index => localSize_le _) (fun _ => rfl)
  · exact .pure (isRead_of_none (small _) rfl)

lemma groupedOp?_spends {opcode : UInt8} (found : groupedOp? (created length) start opcode = some reader) :
    Spends reader fun cost op => op.IsRead length (1 + cost) := by
  unfold groupedOp? at found
  split at found
  · cases found
    exact .pure (isRead_of_none (by simp [longest]) rfl)
  · split at found
    · cases found
      exact jump_spends (created_spends target16_spends) (by simp [longest]) (fun _ => rfl) (by simp)
    · split at found
      · cases found
        exact operand_spends operand16_spends (by simp [longest]) (fun _ => rfl)
      · split at found
        · cases found
          exact operand_spends operand16_spends (by simp [longest]) (fun _ => rfl)
        · exact localOp?_spends found

lemma singleOp_spends (opcode : UInt8) :
    Spends (singleOp (created length) start opcode) fun cost op => op.IsRead length (1 + cost) := by
  unfold singleOp
  split
  case h_6 =>
    refine operand8_spends.bind fun _ index one => operand8_spends.bind fun _ amount one' =>
      .pure (isRead_of_none ?_ rfl)
    simp only [longest]
    split <;> omega
  case h_7 | h_8 =>
    exact jump_spends (created_spends target16_spends) (by simp [longest]) (fun _ => rfl) (by simp)
  case h_9 =>
    exact operand_spends operand8_spends (fun _ => by simp only [longest]; split <;> decide)
      (fun _ => rfl)
  case h_10 => exact tableSwitch_spends
  case h_11 => exact lookupSwitch_spends
  case h_15 =>
    exact operand16_spends.bind fun _ index two => operand8_spends.bind fun _ count one =>
      operand8_spends.discard.bind fun _ _ unused => .pure (isRead_of_none (by
        obtain ⟨_, one'⟩ := unused; simp only [longest]; omega) rfl)
  case h_16 =>
    exact operand16_spends.bind fun _ index two => operand16_spends.discard.bind
      fun _ _ unused => .pure (isRead_of_none (by
        obtain ⟨_, two'⟩ := unused; simp only [longest]; omega) rfl)
  case h_18 => exact wide_spends
  case h_19 =>
    exact operand16_spends.bind fun _ index two => operand8_spends.bind fun _ _ one =>
      .pure (isRead_of_none (by simp only [longest]; omega) rfl)
  case h_20 | h_21 =>
    exact jump_spends longTarget_spends (by simp [longest]) (fun _ => rfl) (by simp)
  case h_22 => exact .throw
  case h_1 | h_3 | h_17 =>
    exact operand_spends operand8_spends (by simp [longest]) (fun _ => rfl)
  all_goals exact operand_spends operand16_spends (by simp [longest]) (fun _ => rfl)

lemma op_spends : Spends (op (created length)) (Op.IsRead length) := by
  refine offset_spends.bind fun _ start none => u8_spends.bind fun _ opcode one => ?_
  rw [none, one]
  simp only [zero_add]
  unfold opOf
  cases found : groupedOp? (created length) start opcode with
  | some reader => exact groupedOp?_spends found
  | none => exact singleOp_spends opcode

variable {codeStart total : Nat} {bytecode : List UInt8}
variable {found : Array (Placed (Op UInt16))} {placed : List (Placed (Op UInt16))}

/-- What holds for an instruction with its place. -/
def Placed.IsRead (length cost : Nat) (entry : Placed (Op UInt16)) : Prop :=
  entry.op.IsRead length cost

lemma ops_totals (divided : ops bytecode codeStart = .ok placed) :
    Totals (Placed.IsRead bytecode.length) bytecode.length placed := by
  have loop {offset : Nat} {rest : List _} (follows : Follows bytecode offset rest) :
      Totals (Placed.IsRead bytecode.length) (bytecode.length - offset) rest := by
    induction follows with
    | done => exact Totals.nil.mono (Nat.zero_le _)
    | @step offset count value rest ran _ _ _ ih =>
      obtain ⟨cost, _, ahead, fine⟩ := op_spends _ _ _ ran
      have read : Placed.IsRead bytecode.length cost ⟨offset, value⟩ := fine
      simp only [Cursor.at] at ahead
      exact (Totals.cons read ih).mono (by omega)
  exact loop (ops_follows divided)

end Bytecode

end JvmAsm
