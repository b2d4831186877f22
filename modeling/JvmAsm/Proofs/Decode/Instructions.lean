/- Reads the instructions that the first pass over bytecode has found, one after the other. -/
import JvmAsm.Proofs.Decode.Ops
import JvmAsm.Proofs.Decode.Positions

namespace JvmAsm.Bytecode

open Binary PoolTable Decode

variable {table : PoolTable} {boots : Bootstrap} {code : List UInt8} {codeStart offset : Nat}
variable {placed : List (Placed (Op UInt16))} {entry : Placed (Op UInt16)} {index : Nat}
variable {op : Op UInt16} {failure : Failure}

/-- Where the second pass over code is after so many instructions, unless it has failed. -/
def offsetAfter (table : PoolTable) (boots : Bootstrap) (labels : Std.HashSet Label)
    (code : List UInt8) : Nat → Option Nat
  | 0 => some 0
  | count + 1 =>
    (offsetAfter table boots labels code count).bind fun offset =>
      match readInstruction table boots labels (Cursor.at code offset) with
      | .ok _ next => some next.offset
      | .error _ _ => none

/-- The entry of the pool that the instruction names is not there, or is not the right one. -/
def RefusesEntry (table : PoolTable) (boots : Bootstrap) (failure : Failure) :
    Op UInt16 → Prop
  | .constant _ index => table.loadable boots index = .error failure
  | .field _ index => table.fieldRef index = .error failure
  | .invokeVirtual index => table.methodRef index = .error failure
  | .invokeSpecial index | .invokeStatic index => table.anyMethodRef index = .error failure
  | .invokeInterface index _ => table.interfaceMethodRef index = .error failure
  | .invokeDynamic index => table.callSite boots index = .error failure
  | .type _ index | .newMultiArray index _ => table.className index = .error failure
  | _ => False

/-- An operand other than an index into the pool is not one that the instruction can have. -/
def RefusesOperand (table : PoolTable) : Op UInt16 → Prop
  | .newPrimitiveArray code => Primitive.ofArrayCode? code = none
  | .invokeInterface index count => ∃ method, table.interfaceMethodRef index = .ok method ∧
      count.toNat ≠ method.descriptor.argumentSize.toNat
  | .newMultiArray _ dimensions => dimensions = 0
  | .lookupSwitch _ pairs => ¬pairs.Pairwise fun first second => first.1 < second.1
  | _ => False

/--
The second pass reads the instruction at a place, with the given targets and up to where the next
one starts, unless a constant of the pool is not there or an operand has no meaning.
-/
def ReadsAt (table : PoolTable) (bootstrap : Bootstrap) (labels : Std.HashSet Label)
    (code : List UInt8) (entry : Placed (List UInt16)) (stop : Option Nat) : Prop :=
  (∃ instruction next,
    readInstruction table bootstrap labels (Cursor.at code entry.offset) = .ok instruction next ∧
      instruction.targets = entry.op.map labelOf ∧ stop = some next.offset) ∨
  ∃ op next failure stopped,
    Bytecode.op (known labels) (Cursor.at code entry.offset) = .ok op next ∧
      readInstruction table bootstrap labels (Cursor.at code entry.offset) = .error failure stopped ∧
      (RefusesEntry table bootstrap failure op ∨ RefusesOperand table op)

lemma unsortedKeys?_eq_none {pairs : List (Int32 × UInt16)}
    (sorted : pairs.Pairwise fun first second => first.1 < second.1) :
    unsortedKeys? pairs = none := by
  induction pairs with
  | nil => rfl
  | cons first rest ih =>
    obtain ⟨before, sorted⟩ := List.pairwise_cons.mp sorted
    cases rest with
    | nil => rfl
    | cons second rest =>
      rw [unsortedKeys?, if_neg (Int32.not_le.mpr (before second List.mem_cons_self)), ih sorted]

/-- There are no other reasons why an instruction cannot be resolved. -/
lemma resolve_refuses (refused : resolve table boots op = .error failure) :
    RefusesEntry table boots failure op ∨ RefusesOperand table op := by
  have entry {α : Type} {result : Result α} {make : α → Instruction}
      (refused : (do return make (← result)) = Except.error failure) : result = .error failure :=
    (error_bind_iff.mp refused).resolve_right fun ⟨_, _, ended⟩ => nomatch ended
  cases op with
  | constant | field | invokeVirtual | invokeSpecial | invokeStatic | invokeDynamic | type =>
    exact .inl (entry refused)
  | invokeInterface index count =>
    rcases error_bind_iff.mp refused with refused | ⟨method, found, refused⟩
    · exact .inl refused
    · refine .inr ⟨method, found, fun same => ?_⟩
      have small : method.descriptor.argumentSize.toNat ≤ 0xff := same ▸ Nat.le_of_lt_succ count.toNat_lt
      have counted : argumentCount method.descriptor = .ok count := by
        rw [argumentCount, if_pos small, ← same, UInt8.ofNat_toNat]
      rw [counted] at refused
      simp at refused
  | newPrimitiveArray code =>
    refine .inr ?_
    cases found : Primitive.ofArrayCode? code with
    | none => exact found
    | some element => simp [resolve, found] at refused
  | newMultiArray index dimensions =>
    rcases error_bind_iff.mp refused with refused | ⟨name, found, refused⟩
    · exact .inl refused
    · refine .inr ?_
      by_contra some
      simp [RefusesOperand] at some
      simp [some] at refused
  | lookupSwitch default pairs =>
    refine .inr fun sorted => ?_
    rw [resolve, unsortedKeys?_eq_none sorted] at refused
    cases refused
  | _ => cases refused

lemma Follows.head (follows : Follows code offset placed) :
    (boundaries placed code.length)[0]? = some offset := by
  cases follows <;> rfl

/-- Each instruction is read where it stands, and the next one starts where it ends. -/
lemma Follows.get (follows : Follows code offset placed) (got : placed[index]? = some entry) :
    ∃ stop, (boundaries placed code.length)[index + 1]? = some stop ∧
      Bytecode.op (created code.length) (Cursor.at code entry.offset) = .ok entry.op (Cursor.at code stop) := by
  induction follows generalizing index with
  | done => cases got
  | @step offset count value rest ran _ _ follows ih =>
    cases index with
    | zero =>
      cases got
      exact ⟨offset + count, follows.head, ran⟩
    | succ index => exact ih got

/-- The first pass keeps the places and the targets of the instructions. -/
lemma scan_ok {scanned : List (Placed (List UInt16))}
    (found : walk (scan code.length) code codeStart = .ok scanned) :
    ∃ placed, ops code codeStart = .ok placed ∧
      scanned = placed.map fun placed => ⟨placed.offset, placed.op.targets⟩ := by
  rw [scan_eq, walk_map, ← ops] at found
  cases divided : ops code codeStart with
  | ok placed =>
    rw [divided] at found
    cases found
    exact ⟨placed, rfl, rfl⟩
  | error failure =>
    rw [divided] at found
    cases found

/--
The second pass over code reads the instructions one after the other at the places that the first
pass has found, up to the end of the code, with the labels of the targets that the first pass has
found. If one cannot be read, it is because of a constant of the pool or a meaningless operand.
-/
theorem readInstruction_agrees (table : PoolTable) (boots : Bootstrap) {code : List UInt8}
    {codeStart : Nat} {scanned : List (Placed (List UInt16))} {labels : Std.HashSet Label}
    (found : walk (scan code.length) code codeStart = .ok scanned)
    (created : ∀ entry ∈ scanned, ∀ target ∈ entry.op, labelOf target ∈ labels) :
    ((boundaries scanned code.length)[0]? = some 0 ∧
      (boundaries scanned code.length).Pairwise (· < ·)) ∧
    (∀ count offset, count ≤ scanned.length →
      offsetAfter table boots labels code count = some offset →
      (boundaries scanned code.length)[count]? = some offset) ∧
    ∀ index entry, scanned[index]? = some entry →
      (∀ target ∈ entry.op, target.toNat < code.length) ∧
      ReadsAt table boots labels code entry (boundaries scanned code.length)[index + 1]? := by
  obtain ⟨placed, divided, rfl⟩ := scan_ok found
  have follows := ops_follows divided
  have places : boundaries (placed.map fun placed => (⟨placed.offset, placed.op.targets⟩ :
      Placed (List UInt16))) code.length = boundaries placed code.length := by
    simp [boundaries, Function.comp_def]
  have labelled : ∀ entry ∈ placed, ∀ target ∈ entry.op.targets, labelOf target ∈ labels := by
    simpa using created
  rw [places]
  have step (index : Nat) (entry : Placed (Op UInt16)) (got : placed[index]? = some entry) :
      ReadsAt table boots labels code ⟨entry.offset, entry.op.targets⟩
        (boundaries placed code.length)[index + 1]? := by
    obtain ⟨stop, ends, ran⟩ := follows.get got
    have known := labelled entry (List.mem_of_getElem? got)
    have reread := @readInstruction_of_op _ _ _ _ table boots _ ran known
    cases resolved : resolve table boots entry.op with
    | ok instruction =>
      rw [resolved] at reread
      exact .inl ⟨instruction, _, reread, resolve_targets resolved, ends⟩
    | error failure =>
      rw [resolved] at reread
      exact .inr ⟨entry.op, _, failure, _, op_rereads _ _ _ ran known, reread,
        resolve_refuses resolved⟩
  refine ⟨⟨follows.head, follows.increasing.1⟩, fun count => ?_, fun index entry got => ?_⟩
  · induction count with
    | zero => rintro offset _ ⟨⟩; exact follows.head
    | succ count ih =>
      intro offset inside reached
      obtain ⟨start, before, reached⟩ := Option.bind_eq_some_iff.mp reached
      have here := ih start (by omega) before
      rw [List.length_map] at inside
      rw [boundaries, List.getElem?_append_left (by rw [List.length_map]; omega),
        List.getElem?_map] at here
      obtain ⟨entry, got, rfl⟩ := Option.map_eq_some_iff.mp here
      rcases step count entry got with ⟨_, next, ran, _, ends⟩ | ⟨_, _, _, _, _, ran, _⟩
      · rw [ran] at reached
        cases reached
        exact ends
      · rw [ran] at reached
        cases reached
  · rw [List.getElem?_map] at got
    obtain ⟨entry, there, rfl⟩ := Option.map_eq_some_iff.mp got
    obtain ⟨stop, _, ran⟩ := follows.get there
    obtain ⟨_, _, _, read⟩ := op_spends _ _ _ ran
    exact ⟨read.inside, step index entry there⟩

/-- A jump to a switch, whose targets are all the switch itself. -/
def jumpToSwitch : List UInt8 := [0xa7, 0, 3, 0xaa, 0, 0, 0, 0, 0, 0, 0, 0, 0, 0, 0, 0, 0, 0, 0, 0]

/-- The targets of the jump and of the switch all have the same label. -/
theorem readInstruction_agrees_switch : ∃ scanned,
    walk (scan jumpToSwitch.length) jumpToSwitch 0 = .ok scanned ∧
      scanned.length = 2 ∧ (boundaries scanned jumpToSwitch.length).Pairwise (· < ·) := by
  have found : walk (scan jumpToSwitch.length) jumpToSwitch 0 =
      .ok [⟨0, [3]⟩, ⟨3, [3, 3]⟩] := by cbv
  exact ⟨_, found, rfl, (@readInstruction_agrees ⟨#[]⟩ none jumpToSwitch 0 _ (.ofList [labelOf 3])
    found (by simp)).1.2⟩

end JvmAsm.Bytecode
