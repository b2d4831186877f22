/-
Compares the two passes over bytecode: the first one, which finds the targets of instructions by
their opcodes, keeps part of what the second one reads.
-/
import JvmAsm.Proofs.Bytecode.Division

namespace JvmAsm.Bytecode

open Binary ByteReader PoolTable Decode
open List hiding Cursor.at

section Scanning

variable {length start : Nat} {opcode : UInt8} {reader : ByteReader (Op UInt16)}

lemma discard_eq {α : Type} (reader : ByteReader α) :
    discard reader = (fun _ => ()) <$> reader := rfl

lemma operands_of_simple : ∀ opcode : UInt8, SimpleOp.ofOpcode? opcode ≠ none →
    Operands.of opcode = .bytes 0 := by decide +kernel

lemma operands_of_branch : ∀ opcode : UInt8, Condition.ofOpcode? opcode ≠ none →
    Operands.of opcode = .shortTarget := by decide +kernel

lemma operands_of_member : ∀ opcode : UInt8,
    FieldOp.ofOpcode? opcode ≠ none ∨ TypeOp.ofOpcode? opcode ≠ none →
      Operands.of opcode = .bytes 2 := by decide +kernel

lemma operands_of_local : ∀ opcode : UInt8,
    ((0x15 ≤ opcode && opcode ≤ 0x19) = true → Operands.of opcode = .bytes 1) ∧
    ((0x1a ≤ opcode && opcode ≤ 0x2d) = true → Operands.of opcode = .bytes 0) ∧
    ((0x36 ≤ opcode && opcode ≤ 0x3a) = true → Operands.of opcode = .bytes 1) ∧
    ((0x3b ≤ opcode && opcode ≤ 0x4e) = true → Operands.of opcode = .bytes 0) := by
  decide +kernel

lemma scanOf_grouped (found : groupedOp? (created length) start opcode = some reader) :
    scanOf length start opcode = do return (← reader).targets := by
  unfold groupedOp? at found
  split at found
  · next op known =>
    cases found
    rw [scanOf, operands_of_simple _ (by simp [known])]
    rfl
  · split at found
    · next op known =>
      cases found
      rw [scanOf, operands_of_branch _ (by simp [known])]
      simp [Op.targets]
    · split at found
      · next op known =>
        cases found
        rw [scanOf, operands_of_member _ (by simp [known])]
        simp [Op.targets, discard_eq, many, manyFrom, operand16]
      · split at found
        · next op known =>
          cases found
          rw [scanOf, operands_of_member _ (by simp [known])]
          simp [Op.targets, discard_eq, many, manyFrom, operand16]
        · obtain ⟨load, shortLoad, store, shortStore⟩ := operands_of_local opcode
          unfold localOp? at found
          split_ifs at found with isLoad isShortLoad isStore isShortStore
          all_goals obtain ⟨kind, -, rfl⟩ := Option.map_eq_some_iff.mp found
          · rw [scanOf, load isLoad]
            simp [Op.targets, discard_eq, many, manyFrom]
          · rw [scanOf, shortLoad isShortLoad]
            rfl
          · rw [scanOf, store isStore]
            simp [Op.targets, discard_eq, many, manyFrom]
          · rw [scanOf, shortStore isShortStore]
            rfl

lemma wideSize_of_local : ∀ opcode : UInt8,
    ((0x15 ≤ opcode && opcode ≤ 0x19) = true → wideSize? opcode = some 2 ∧
      ∃ kind, ValueKind.ofRank? (opcode - 0x15) = some kind) ∧
    ((0x36 ≤ opcode && opcode ≤ 0x3a) = true → wideSize? opcode = some 2 ∧
      ∃ kind, ValueKind.ofRank? (opcode - 0x36) = some kind) ∧
    (¬(0x15 ≤ opcode && opcode ≤ 0x19) = true → ¬(0x36 ≤ opcode && opcode ≤ 0x3a) = true →
      ¬(opcode == 0xa9) = true → ¬(opcode == 0x84) = true → wideSize? opcode = none) := by
  simp only [← Option.isSome_iff_exists]
  decide +kernel

lemma scanOf_wide : scanOf length start 0xc4 = do return (← wide).targets := by
  rw [scanOf, show Operands.of 0xc4 = .wide from rfl, wide, bind_assoc]
  refine bind_congr fun opcode => ?_
  obtain ⟨load, store, other⟩ := wideSize_of_local opcode
  split_ifs with isLoad isStore isRet isIncrement
  · obtain ⟨size, kind, known⟩ := load isLoad
    simp [size, known, Op.targets, discard_eq, many, manyFrom, operand16]
  · obtain ⟨size, kind, known⟩ := store isStore
    simp [size, known, Op.targets, discard_eq, many, manyFrom, operand16]
  · obtain rfl := eq_of_beq isRet
    simp [wideSize?, isIn, Op.targets, discard_eq, many, manyFrom, operand16]
  · obtain rfl := eq_of_beq isIncrement
    simp [wideSize?, isIn, Op.targets, discard_eq, many, manyFrom, operand16]
  · rw [other isLoad isStore isRet isIncrement]
    rfl

lemma many_map {α β : Type} (f : α → β) (reader : ByteReader α) (count : Nat) :
    many count (f <$> reader) = List.map f <$> many count reader := by
  have loop (count : Nat) (found : Array α) :
      manyFrom (f <$> reader) count (found.map f) = List.map f <$> manyFrom reader count found := by
    induction count generalizing found with
    | zero => simp [manyFrom]
    | succ count ih => simp [manyFrom, ← ih]
  simpa [many] using loop count #[]

lemma scanOf_tableSwitch :
    scanOf length start 0xaa = do return (← tableSwitch (created length) start).targets := by
  rw [scanOf, show Operands.of 0xaa = .tableSwitch from rfl, tableSwitch]
  simp [Op.targets]

lemma scanOf_lookupSwitch :
    scanOf length start 0xab = do return (← lookupSwitch (created length) start).targets := by
  have pair : (do
      discard i32
      created length (target32 start)) = Prod.snd <$> (do
        let key ← i32
        return (key, ← created length (target32 start))) := by
    simp [discard_eq]
  rw [scanOf, show Operands.of 0xab = .lookupSwitch from rfl, lookupSwitch, pair]
  simp only [many_map]
  simp [Op.targets]

lemma operands_of_other : ∀ opcode : UInt8, (groupedOp? id 0 opcode).isNone = true →
    opcode ∉ [0x10, 0x11, 0x12, 0x13, 0x14, 0x84, 0xa7, 0xa8, 0xa9, 0xaa, 0xab, 0xb6, 0xb7, 0xb8,
      0xb9, 0xba, 0xbc, 0xc4, 0xc5, 0xc8, 0xc9] → Operands.of opcode = .unknown := by
  decide +kernel

lemma groupedOp?_isNone :
    (groupedOp? (created length) start opcode).isNone = (groupedOp? id 0 opcode).isNone := by
  unfold groupedOp?
  split <;> [rfl; split <;> [rfl; rfl]]

lemma scanOf_single (none : groupedOp? (created length) start opcode = none) :
    scanOf length start opcode = do return (← singleOp (created length) start opcode).targets := by
  unfold singleOp
  split
  case h_10 => exact scanOf_tableSwitch
  case h_11 => exact scanOf_lookupSwitch
  case h_18 => exact scanOf_wide
  case h_22 =>
    have other : Operands.of opcode = .unknown := by
      refine operands_of_other opcode (by rw [← groupedOp?_isNone, none]; rfl) ?_
      simp only [mem_cons, not_mem_nil]
      tauto
    rw [scanOf, other]
    rfl
  all_goals simp [scanOf, Operands.of, isIn, Op.targets, discard_eq, many, manyFrom, operand16]

lemma scan_eq (length : Nat) : scan length = do return (← op (created length)).targets := by
  unfold scan op
  rw [bind_assoc]
  refine bind_congr fun start => ?_
  rw [bind_assoc]
  refine bind_congr fun opcode => ?_
  unfold opOf
  cases found : groupedOp? (created length) start opcode with
  | none => exact scanOf_single found
  | some reader => exact scanOf_grouped found

/-- Where instructions start does not depend on what is kept of them. -/
lemma walk_map (f : α → β) (reader : ByteReader α) (code : List UInt8) (codeStart : Nat) :
    walk (do return f (← reader)) code codeStart =
      (walk reader code codeStart).map (List.map fun placed => ⟨placed.offset, f placed.op⟩) := by
  have loop (fuel : Nat) (found : Array (Placed α)) (cursor : Cursor) :
      walkFrom (do return f (← reader)) code.length codeStart fuel
        (found.map fun placed => ⟨placed.offset, f placed.op⟩) cursor =
        (walkFrom reader code.length codeStart fuel found cursor).map
          (List.map fun placed => ⟨placed.offset, f placed.op⟩) := by
    induction fuel generalizing found cursor with
    | zero => simp [walkFrom, Except.map]
    | succ fuel ih =>
      rw [walkFrom, walkFrom]
      split
      · cases ran : reader cursor with
        | ok value next =>
          have rest := ih (found.push ⟨cursor.offset, value⟩) next
          rw [Array.map_push] at rest
          rw [ran_bind ran rfl]
          exact rest
        | error failure stopped =>
          rw [failed_bind ran]
          rfl
      · simp [Except.map]
  simpa [walk] using loop code.length #[] (Cursor.at code 0)

end Scanning

section Rereading

variable {labels : Std.HashSet Label} {length start : Nat} {opcode : UInt8}
variable {reader reader' : ByteReader (Op UInt16)} {cursor next : Cursor}

/-- Both readers read the same instruction, if its targets have labels. -/
def Rereads (labels : Std.HashSet Label) (reader reader' : ByteReader (Op UInt16)) : Prop :=
  ∀ cursor op next, reader cursor = .ok op next → (∀ target ∈ op.targets, labelOf target ∈ labels) →
    reader' cursor = .ok op next

lemma Rereads.refl (reader : ByteReader (Op UInt16)) : Rereads labels reader reader :=
  fun _ _ _ ran _ => ran

lemma known_of_created {reader : ByteReader UInt16} {target : UInt16}
    (ran : created length reader cursor = .ok target next) (labelled : labelOf target ∈ labels) :
    known labels reader cursor = .ok target next := by
  obtain ⟨offset, between, ran, inside⟩ := ran_parts ran
  refine ran_bind ran ?_
  unfold insideCode at inside
  split at inside <;> cases inside
  rw [UInt16.ofNat_toNat] at labelled ⊢
  simp [labelled]
  rfl

/-- An instruction with a single target. -/
lemma Rereads.jump {reader : ByteReader UInt16} {make : UInt16 → Op UInt16}
    (only : ∀ target, (make target).targets = [target]) :
    Rereads labels (do return make (← created length reader))
      (do return make (← known labels reader)) := by
  intro cursor op next ran labelled
  obtain ⟨target, _, ran, ⟨⟩⟩ := ran_parts ran
  exact ran_bind (known_of_created ran (labelled _ (by simp [only]))) rfl

lemma many_reread {α : Type} {p : α → Prop} {reader reader' : ByteReader α} {count : Nat}
    {xs : List α}
    (each : ∀ {cursor value next}, p value → reader cursor = .ok value next →
      reader' cursor = .ok value next)
    (ran : many count reader cursor = .ok xs next) (all : ∀ value ∈ xs, p value) :
    many count reader' cursor = .ok xs next := by
  have loop (count : Nat) (found : Array α) (cursor : Cursor)
      (ran : manyFrom reader count found cursor = .ok xs next) :
      manyFrom reader' count found cursor = .ok xs next ∧ found.toList <+: xs := by
    induction count generalizing found cursor with
    | zero =>
      cases ran
      exact ⟨rfl, prefix_rfl⟩
    | succ count ih =>
      obtain ⟨value, between, first, ran⟩ := ran_parts ran
      obtain ⟨rest, before⟩ := ih _ _ ran
      rw [Array.toList_push] at before
      exact ⟨ran_bind (each (all value (before.mem (by simp))) first) rest,
        (prefix_append _ _).trans before⟩
  exact (loop count #[] cursor ran).1

lemma tableSwitch_rereads :
    Rereads labels (tableSwitch (created length) start) (tableSwitch (known labels) start) := by
  intro cursor op next ran labelled
  obtain ⟨_, _, padded, ran⟩ := ran_parts ran
  obtain ⟨default, _, first, ran⟩ := ran_parts ran
  obtain ⟨low, _, second, ran⟩ := ran_parts ran
  obtain ⟨high, _, third, ran⟩ := ran_parts ran
  obtain ⟨count, _, sized, ran⟩ := ran_parts ran
  obtain ⟨targets, _, rest, ⟨⟩⟩ := ran_parts ran
  obtain ⟨here, others⟩ := forall_mem_cons.mp labelled
  exact ran_bind padded <| ran_bind (known_of_created first here) <| ran_bind second <|
    ran_bind third <| ran_bind sized <|
    ran_bind (many_reread (fun known ran => known_of_created ran known) rest others) rfl

lemma lookupSwitch_rereads :
    Rereads labels (lookupSwitch (created length) start) (lookupSwitch (known labels) start) := by
  intro cursor op next ran labelled
  obtain ⟨_, _, padded, ran⟩ := ran_parts ran
  obtain ⟨default, _, first, ran⟩ := ran_parts ran
  obtain ⟨count, _, sized, ran⟩ := ran_parts ran
  obtain ⟨pairs, _, rest, ⟨⟩⟩ := ran_parts ran
  obtain ⟨here, others⟩ := forall_mem_cons.mp labelled
  refine ran_bind padded <| ran_bind (known_of_created first here) <| ran_bind sized <|
    ran_bind (many_reread (fun known ran => ?_) rest
      fun pair mem => others _ (mem_map_of_mem mem)) rfl
  obtain ⟨key, _, first, ran⟩ := ran_parts ran
  obtain ⟨target, _, second, ⟨⟩⟩ := ran_parts ran
  exact ran_bind first (ran_bind (known_of_created second known) rfl)

lemma opOf_rereads :
    Rereads labels (opOf (created length) start opcode) (opOf (known labels) start opcode) := by
  unfold opOf groupedOp?
  split
  · exact .refl _
  · split
    · exact .jump fun _ => rfl
    · split
      · exact .refl _
      · split
        · exact .refl _
        · cases localOp? opcode with
          | some reader => exact .refl _
          | none =>
            change Rereads labels (singleOp _ start opcode) (singleOp _ start opcode)
            unfold singleOp
            split
            case h_7 | h_8 | h_20 | h_21 => exact .jump fun _ => rfl
            case h_10 => exact tableSwitch_rereads
            case h_11 => exact lookupSwitch_rereads
            all_goals exact .refl _

lemma op_rereads : Rereads labels (op (created length)) (op (known labels)) := by
  intro cursor op next ran labelled
  obtain ⟨start, _, place, ran⟩ := ran_parts ran
  obtain ⟨opcode, _, first, ran⟩ := ran_parts ran
  exact ran_bind place (ran_bind first (opOf_rereads _ _ _ ran labelled))

variable {table : PoolTable} {boots : Bootstrap} {op : Op UInt16}

/-- The second pass reads what the first one has accepted, unless a constant is not there. -/
lemma readInstruction_of_op (ran : Bytecode.op (created length) cursor = .ok op next)
    (labelled : ∀ target ∈ op.targets, labelOf target ∈ labels) :
    readInstruction table boots labels cursor = ofResult (resolve table boots op) next :=
  ran_bind (op_rereads _ _ _ ran labelled) rfl

/-- The instructions that are read in the second pass, or the first failure of one of them. -/
def resolveAll (table : PoolTable) (boots : Bootstrap) (codeStart : Nat)
    (placed : List (Placed (Op UInt16))) : Except Failure (List Instruction) :=
  placed.mapM fun placed => (resolve table boots placed.op).mapError fun failure =>
    (failure.within (.binary (.atOffset placed.offset))).orKind
      (.malformedClass (codeStart + placed.offset))

variable {code : List UInt8} {codeStart : Nat} {placed : List (Placed (Op UInt16))}

lemma resolveAll_ok_iff {instructions : List Instruction} :
    resolveAll table boots codeStart placed = .ok instructions ↔
      Forall₂ (fun placed instruction =>
        resolve table boots placed.op = .ok instruction) placed instructions := by
  simp only [resolveAll, ok_mapM_iff, ok_mapError_iff]

/-- Puts instructions at the places of others. -/
def replaced (placed : List (Placed (Op UInt16))) (instructions : List Instruction) :
    List (Placed Instruction) :=
  zipWith (fun placed instruction => ⟨placed.offset, instruction⟩) placed instructions

/-- The second pass reads the instructions that the first one has accepted, at the same places. -/
lemma walk_reread (divided : ops code codeStart = .ok placed)
    (labelled : ∀ entry ∈ placed, ∀ target ∈ entry.op.targets, labelOf target ∈ labels) :
    walk (readInstruction table boots labels) code codeStart =
      (resolveAll table boots codeStart placed).map (replaced placed) := by
  have loop {offset : Nat} {placed : List (Placed (Op UInt16))} (follows : Follows code offset placed)
      (labelled : ∀ entry ∈ placed, ∀ target ∈ entry.op.targets, labelOf target ∈ labels) (fuel : Nat) (room : code.length ≤ offset + fuel)
      (found : Array (Placed Instruction)) :
      walkFrom (readInstruction table boots labels) code.length codeStart fuel found
          (Cursor.at code offset) =
        (resolveAll table boots codeStart placed).map
          fun instructions => found.toList ++ replaced placed instructions := by
    induction follows generalizing fuel found with
    | done => cases fuel <;> simp [walkFrom, resolveAll, Cursor.at, Except.map, replaced]
    | @step offset count value rest ran some within follows ih =>
      obtain ⟨here, others⟩ := forall_mem_cons.mp labelled
      obtain ⟨fuel, rfl⟩ : ∃ less, fuel = less + 1 := ⟨fuel - 1, by omega⟩
      rw [walkFrom, if_pos (by simp [Cursor.at]; omega), readInstruction_of_op ran here, resolveAll,
        mapM_cons]
      cases resolve table boots value with
      | ok instruction =>
        refine (ih others fuel (by omega) (found.push ⟨offset, instruction⟩)).trans ?_
        cases more : resolveAll table boots codeStart rest with
        | ok read => simp [resolveAll] at more; simp [more, Except.map, replaced]
        | error failure => simp [resolveAll] at more; simp [more, Except.map]
      | error failure => rfl
  rw [walk, loop (ops_follows divided) labelled code.length (by omega) #[]]
  cases resolveAll table boots codeStart placed with
  | ok read => simp [Except.map]
  | error failure => rfl

end Rereading

end JvmAsm.Bytecode
