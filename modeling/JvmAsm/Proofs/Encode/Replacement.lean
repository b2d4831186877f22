/- Divides code as it is written into instructions. -/
import JvmAsm.Proofs.Encode.CodeBody
import JvmAsm.Proofs.Verification.Required

namespace JvmAsm

open List UInt16

namespace Encode

open Binary Bytecode

variable {placed : Placed (Op Nat)}

section Filler

/-- Instructions that do nothing, of which the first stands at an offset. -/
def nops (offset count : Nat) : List (Placed (Op Nat)) :=
  (range' offset count).map fun place => ⟨place, .simple .nop⟩

/-- The instructions of the code that replaces other code. -/
def fillerForms (offset size : Nat) (isLast : Bool) : List (Placed (Op Nat)) :=
  if isLast then nops offset (size - 1) ++ [⟨offset + (size - 1), .simple .athrow⟩]
  else nops offset size

lemma simple_reads (length offset : Nat) (op : SimpleOp) :
    ReadsAt offset (Bytecode.op (created length)) [op.opcode] (.simple op) :=
  op_reads_grouped (groupedOp?_simple op) (Reads.pure _)

lemma nops_divides (length offset count : Nat) :
    Divides length offset (replicate count SimpleOp.nop.opcode)
      ((nops offset count).map (Placed.mapTargets ofNat)) := by
  induction count generalizing offset with
  | zero => exact .done _
  | succ count ih =>
    exact .step (simple_reads length offset .nop) (cons_ne_nil _ _) (ih (offset + 1))

lemma filler_length {size : Nat} (positive : 0 < size) (isLast : Bool) :
    (Written.filler size isLast).length = size := by
  cases isLast with
  | false => exact length_replicate
  | true =>
    rw [Written.filler, if_pos rfl, length_append, length_replicate, length_singleton]
    omega

lemma filler_divides (length offset size : Nat) (isLast : Bool) :
    Divides length offset (Written.filler size isLast)
      ((fillerForms offset size isLast).map (Placed.mapTargets ofNat)) := by
  cases isLast with
  | false => exact nops_divides length offset size
  | true =>
    rw [Written.filler, if_pos rfl, fillerForms, if_pos rfl, map_append]
    refine (nops_divides length offset (size - 1)).append ?_
    rw [length_replicate]
    exact .step (simple_reads length _ .athrow) (cons_ne_nil _ _) (.done _)

lemma nops_plain {offset count : Nat} (mem : placed ∈ nops offset count) :
    placed.op = .simple .nop := by
  obtain ⟨place, _, rfl⟩ := mem_map.mp mem
  rfl

lemma fillerForms_plain {offset size : Nat} {isLast : Bool}
    (mem : placed ∈ fillerForms offset size isLast) : placed.op.targets = [] := by
  unfold fillerForms at mem
  split at mem
  · rcases mem_append.mp mem with early | last
    · rw [nops_plain early]
      rfl
    · rw [mem_singleton.mp last]
      rfl
  · rw [nops_plain mem]
    rfl

end Filler

namespace Written

variable {written : Written} {table : FrameTable} {index : Nat} {op : Op Nat}

/-- Whether the code that replaces other code ends at an instruction. -/
def endsReplaced (written : Written) (index : Nat) : Bool :=
  index + 1 == written.ops.length || written.isKept (index + 1)

def bytesAt (written : Written) (op : Op Nat) (index : Nat) : List UInt8 :=
  let bytes := (op.map written.layout.offset).bytes (written.layout.offset index)
    (written.layout.isWide index)
  if written.isKept index then bytes else filler bytes.length (written.endsReplaced index)

/-- The instructions that are found where one has been placed. -/
def formsAt (written : Written) (op : Op Nat) (index : Nat) : List (Placed (Op Nat)) :=
  if written.isKept index then written.layout.forms op index
  else fillerForms (written.layout.offset index)
    (op.size (written.layout.offset index) (written.layout.isWide index))
    (written.endsReplaced index)

def bytesFrom (written : Written) (index : Nat) (ops : List (Op Nat)) : List UInt8 :=
  (ops.zipIdx index).flatMap fun (op, index) => written.bytesAt op index

def formsFrom (written : Written) (index : Nat) (ops : List (Op Nat)) : List (Placed (Op Nat)) :=
  (ops.zipIdx index).flatMap fun (op, index) => written.formsAt op index

lemma bytesFrom_cons (written : Written) (index : Nat) (op : Op Nat) (rest : List (Op Nat)) :
    written.bytesFrom index (op :: rest) =
      written.bytesAt op index ++ written.bytesFrom (index + 1) rest := by
  simp [bytesFrom]

lemma bytesFrom_append (written : Written) (index : Nat) (first second : List (Op Nat)) :
    written.bytesFrom index (first ++ second) =
      written.bytesFrom index first ++ written.bytesFrom (index + first.length) second := by
  simp [bytesFrom, zipIdx_append]

lemma formsFrom_cons (written : Written) (index : Nat) (op : Op Nat) (rest : List (Op Nat)) :
    written.formsFrom index (op :: rest) =
      written.formsAt op index ++ written.formsFrom (index + 1) rest := by
  simp [formsFrom]

lemma formsFrom_append (written : Written) (index : Nat) (first second : List (Op Nat)) :
    written.formsFrom index (first ++ second) =
      written.formsFrom index first ++ written.formsFrom (index + first.length) second := by
  simp [formsFrom, zipIdx_append]

lemma mem_formsFrom :
    placed ∈ written.formsFrom 0 written.ops ↔
      ∃ (index : Nat) (op : Op Nat), written.ops[index]? = some op ∧
        placed ∈ written.formsAt op index := by
  simp only [formsFrom, mem_flatMap, Prod.exists, mem_zipIdx_iff_getElem?]
  exact exists_comm

lemma formsAt_head (written : Written) (op : Op Nat) (index : Nat) :
    (written.formsAt op index).head?.map Placed.offset = some (written.layout.offset index) := by
  unfold formsAt
  split
  · exact Layout.forms_head op index
  · obtain ⟨size, positive⟩ := Nat.exists_eq_succ_of_ne_zero
      (ne_of_gt (op.size_pos (written.layout.offset index) (written.layout.isWide index)))
    rw [positive, fillerForms]
    split
    · cases size with
      | zero => rfl
      | succ size => rfl
    · rfl

lemma bytecode_eq_bytesFrom (written : Written) :
    written.bytecode = written.bytesFrom 0 written.ops := by
  rw [bytecode, bytesFrom, flatMap]
  congr 1
  refine ext_getElem? fun index => ?_
  simp only [Layout.bytes, getElem?_map, getElem?_zipIdx, zero_add]
  cases written.ops[index]? with
  | none => rfl
  | some op => rfl

lemma bytesAt_length (written : Written) (op : Op Nat) (index : Nat) :
    (written.bytesAt op index).length =
      op.size (written.layout.offset index) (written.layout.isWide index) := by
  have size : ((op.map written.layout.offset).bytes (written.layout.offset index)
      (written.layout.isWide index)).length =
        op.size (written.layout.offset index) (written.layout.isWide index) := by
    rw [Op.bytes_length, Op.size_map]
  unfold bytesAt
  dsimp only
  split
  · exact size
  · rw [filler_length (by rw [size]; exact Op.size_pos _ _ _), size]

section

variable (found : written.layout.IsFound written.ops)
include found

lemma offset_next (got : written.ops[index]? = some op) :
    written.layout.offset (index + 1) = written.layout.offset index +
        op.size (written.layout.offset index) (written.layout.isWide index) := by
  obtain ⟨requested, places⟩ := found.places
  exact places.next index op got

/-- What is written for the first instructions ends where the next one starts. -/
lemma bytesFrom_length (inside : index ≤ written.ops.length) :
    (written.bytesFrom 0 (written.ops.take index)).length = written.layout.offset index := by
  induction index with
  | zero =>
    obtain ⟨requested, places⟩ := found.places
    rw [places.start]
    rfl
  | succ index ih =>
    have got := getElem?_eq_getElem (Nat.lt_of_succ_le inside)
    rw [take_add_one, bytesFrom_append, length_append, ih (by omega), got,
      length_take, min_eq_left (by omega), offset_next found got]
    simp [bytesFrom, bytesAt_length]

lemma bytecode_length :
    written.bytecode.length = written.layout.stop := by
  obtain ⟨requested, places⟩ := found.places
  have whole := bytesFrom_length found le_rfl
  rwa [take_length, ← bytecode_eq_bytesFrom, places.stop_eq] at whole

end

lemma bytecode_parts (got : written.ops[index]? = some op) :
    written.bytecode = written.bytesFrom 0 (written.ops.take index) ++
      (written.bytesAt op index ++ written.bytesFrom (index + 1) (written.ops.drop (index + 1))) := by
  obtain ⟨inside, rfl⟩ := List.getElem?_eq_some_iff.mp got
  rw [bytecode_eq_bytesFrom, ← bytesFrom_cons, ← List.drop_eq_getElem_cons inside]
  have whole := written.bytesFrom_append 0 (written.ops.take index) (written.ops.drop index)
  rwa [List.take_append_drop, List.length_take, min_eq_left (le_of_lt inside), zero_add] at whole

/-- What is written where an instruction has been placed. -/
lemma bytecode_slice (found : written.layout.IsFound written.ops)
    (got : written.ops[index]? = some op) :
    (written.bytecode.drop (written.layout.offset index)).take
      (written.layout.offset (index + 1) - written.layout.offset index) =
        written.bytesAt op index := by
  have inside := (List.getElem?_eq_some_iff.mp got).1
  rw [bytecode_parts got, List.drop_left' (bytesFrom_length found (le_of_lt inside)),
    offset_next found got, Nat.add_sub_cancel_left,
    List.take_left' (written.bytesAt_length op index)]

/-- Code that has been placed, of which what is kept names only instructions. -/
structure IsNamed (written : Written) : Prop where
  found : written.layout.IsFound written.ops
  shaped : ∀ op ∈ written.ops, op.IsShaped
  inside : ∀ (index : Nat) (op : Op Nat), written.ops[index]? = some op →
    written.isKept index = true → ∀ target ∈ op.targets, target < written.ops.length

namespace IsNamed

lemma bytesAt_divides (named : written.IsNamed) (got : written.ops[index]? = some op)
    (goesOn : written.isKept index = true → written.layout.isInverted op index = true →
      index + 1 < written.ops.length) :
    Divides written.layout.stop (written.layout.offset index) (written.bytesAt op index)
      ((written.formsAt op index).map (Placed.mapTargets ofNat)) := by
  unfold bytesAt formsAt
  dsimp only
  split
  · next kept =>
    exact Layout.forms_divides named.found got (named.shaped op (mem_of_getElem? got))
      (named.inside index op got kept) (goesOn kept)
  · rw [Op.bytes_length, Op.size_map]
    exact filler_divides _ _ _ _

lemma take_divides (named : written.IsNamed) {count : Nat} (inside : count ≤ written.ops.length)
    (goesOn : ∀ index < count, ∀ op, written.ops[index]? = some op → written.isKept index = true →
      written.layout.isInverted op index = true → index + 1 < written.ops.length) :
    Divides written.layout.stop 0 (written.bytesFrom 0 (written.ops.take count))
      ((written.formsFrom 0 (written.ops.take count)).map (Placed.mapTargets ofNat)) := by
  induction count with
  | zero => exact .done 0
  | succ count ih =>
    have got := getElem?_eq_getElem (Nat.lt_of_succ_le inside)
    have length : (written.ops.take count).length = count := by simp; omega
    have next := named.bytesAt_divides got (goesOn count (Nat.lt_succ_self _) _ got)
    rw [← bytesFrom_length named.found (show count ≤ _ by omega),
      ← zero_add (List.length _)] at next
    rw [take_add_one, got, bytesFrom_append, formsFrom_append, map_append, length]
    have both := (ih (by omega) fun index before => goesOn index (Nat.lt_succ_of_lt before)).append next
    simpa [bytesFrom, formsFrom] using both

/-- A branch at the end that is written as two instructions has no next one to branch to. -/
lemma ops_fails (named : written.IsNamed) (got : written.ops[index]? = some op)
    (kept : written.isKept index = true) (inverted : written.layout.isInverted op index = true)
    (last : written.ops.length = index + 1) (codeStart : Nat) :
    ∃ failure, Bytecode.ops written.bytecode codeStart = .error failure := by
  obtain ⟨requested, places⟩ := named.found.places
  obtain ⟨wide, condition, target, rfl⟩ := Layout.inverted_branch inverted
  have next : written.layout.offset index + wideBranchSize = written.layout.stop := by
    rw [← places.stop_eq, last, places.next index _ got, wide]
    rfl
  -- All instructions before the last one are found, and the last one is not.
  have divides := named.take_divides (show index ≤ _ by omega) (by omega)
  have code := bytecode_parts got
  rw [bytesAt, if_pos kept, wide, Op.map, Layout.inverted_bytes, next, ← last, drop_length,
    append_assoc] at code
  rw [← bytecode_length named.found] at divides
  refine Bytecode.ops_fails divides code (cons_ne_nil _ _) ?_
  rw [bytesFrom_length named.found (by omega), bytecode_length named.found]
  have near : isNear (written.layout.offset index) written.layout.stop = true := by
    simp only [isNear, Bool.and_eq_true, decide_eq_true_eq, ← next]
    simp only [wideBranchSize]
    omega
  have fails := op_fails_grouped (groupedOp?_branch condition.negate)
    (shortTarget_fails near le_rfl
      (Nat.lt_succ_of_le named.found.stop_le) (written.layout.offset index + 1)).bind
  intro cursor rest stands equal
  exact fails cursor _ stands (equal.trans (append_assoc _ _ _))

end IsNamed

/-- Code that can be divided: no branch that becomes two instructions is kept at its end. -/
structure IsLaid (written : Written) : Prop extends IsNamed written where
  goesOn : ∀ (index : Nat) (op : Op Nat), written.ops[index]? = some op →
    written.isKept index = true → written.layout.isInverted op index = true →
      index + 1 < written.ops.length

namespace IsLaid

lemma bytecode_divides (laid : written.IsLaid) :
    Divides written.bytecode.length 0 written.bytecode
      ((written.formsFrom 0 written.ops).map (Placed.mapTargets ofNat)) := by
  have divides := laid.take_divides le_rfl fun index _ => laid.goesOn index
  rwa [take_length, ← bytecode_eq_bytesFrom, ← bytecode_length laid.found] at divides

lemma ops_bytecode (laid : written.IsLaid) (codeStart : Nat) :
    Bytecode.ops written.bytecode codeStart =
      .ok ((written.formsFrom 0 written.ops).map (Placed.mapTargets ofNat)) :=
  ops_divides laid.bytecode_divides

end IsLaid

/-- Code that has been placed, with the frames that have been found for it. -/
structure IsFramed (written : Written) (table : FrameTable) : Prop where
  frames : written.frames = some table
  follows : table.Follows written.code
  lowered : Forall₂ (fun entry op =>
    IsLowered written.code.positionOf entry.instruction op) written.code.instructions written.ops
  found : written.layout.IsFound written.ops
  positions : written.positions = written.code.positions
  bound : ∀ label ∈ written.code.references, ∃ pos, (label, pos) ∈ written.code.bindings

namespace IsFramed

section

variable (framed : written.IsFramed table)
include framed

lemma isKept_iff :
    written.isKept index = true ↔ written.code.Reaches index := by
  rw [← framed.follows.reaches, isKept, framed.frames]

lemma lt_of_reaches (reached : written.code.Reaches index) :
    index < written.ops.length :=
  framed.lowered.length_eq ▸ framed.follows.lt_of_reaches reached

lemma offset_inj {first second : Nat}
    (inside : first ≤ written.ops.length) (inside' : second ≤ written.ops.length)
    (same : written.layout.offset first = written.layout.offset second) : first = second := by
  have below := offset_lt_iff framed.found inside inside'
  have above := offset_lt_iff framed.found inside' inside
  omega

lemma entry_of_op (got : written.ops[index]? = some op) :
    ∃ entry, written.code.instructions[index]? = some entry ∧
      IsLowered written.code.positionOf entry.instruction op :=
  forall₂_getElem? framed.lowered.flip got

lemma op_of_reaches (reached : written.code.Reaches index) :
    ∃ op, written.ops[index]? = some op :=
  ⟨_, getElem?_eq_getElem (framed.lt_of_reaches reached)⟩

section

variable (got : written.ops[index]? = some op)
include got

/-- What is jumped to from instructions that are reached needs a frame. -/
lemma target_needsFrame (reached : written.code.Reaches index) {target : Nat}
    (jumps : target ∈ op.targets) : written.code.NeedsFrame target := by
  obtain ⟨entry, stands, lowered⟩ := framed.entry_of_op got
  rw [lowered.targets, mem_map] at jumps
  obtain ⟨label, listed, rfl⟩ := jumps
  have used : label ∈ written.code.references := by
    simp only [Code.references, append_assoc]
    exact mem_append_left _
      (mem_flatMap.mpr ⟨entry, mem_of_getElem? stands, listed⟩)
  obtain ⟨pos, bound⟩ := framed.bound label used
  have same : written.code.positionOf label = pos := by
    rw [Code.positionOf, framed.follows.once.positions_iff.mpr bound, Option.getD_some]
  exact .target reached stands listed (same ▸ bound)

/-- Execution goes on with an instruction that is reached. -/
lemma next_reached (reached : written.code.Reaches index) (goes : op.endsFlow = false) :
    written.code.Reaches (index + 1) := by
  obtain ⟨entry, stands, lowered⟩ := framed.entry_of_op got
  exact .continues reached (.next stands (lowered.endsFlow ▸ goes))

lemma after_needsFrame (reached : written.code.Reaches index)
    (ends : op.endsFlow = true) (next : written.code.Reaches (index + 1)) :
    written.code.NeedsFrame (index + 1) := by
  obtain ⟨entry, stands, lowered⟩ := framed.entry_of_op got
  exact .after reached stands (lowered.endsFlow ▸ ends) rfl next

end

lemma isLaid : written.IsLaid where
  found := framed.found
  shaped op mem := by
    obtain ⟨entry, _, lowered⟩ := forall₂_mem_right framed.lowered mem
    exact lowered.shaped
  inside index op got kept target jumps := framed.lt_of_reaches
    (framed.target_needsFrame got (framed.isKept_iff.mp kept) jumps).reaches
  goesOn index op got kept inverted := by
    obtain ⟨_, condition, target, rfl⟩ := Layout.inverted_branch inverted
    exact framed.lt_of_reaches (framed.next_reached got (framed.isKept_iff.mp kept) rfl)

lemma bytecode_slice (got : written.ops[index]? = some op) :
    (written.bytecode.drop (written.layout.offset index)).take
      (written.layout.offset (index + 1) - written.layout.offset index) =
        written.bytesAt op index := Written.bytecode_slice framed.found got

lemma ops_bytecode :
    Bytecode.ops written.bytecode 0 =
      .ok ((written.formsFrom 0 written.ops).map (Placed.mapTargets ofNat)) :=
  framed.isLaid.ops_bytecode 0

end

end IsFramed

end Written

end Encode

end JvmAsm
