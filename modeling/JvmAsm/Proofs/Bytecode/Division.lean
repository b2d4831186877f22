/-
Divides code that has been laid out: the instructions that are found are those that have been
placed, except that a conditional branch in its wide form is found as two.
-/
import JvmAsm.Proofs.Bytecode.Forms
import JvmAsm.Proofs.Bytecode.Layout
import JvmAsm.Proofs.Decode.Refusal

namespace JvmAsm

open Op
open List hiding Cursor.at map

variable {bytes more : List UInt8}

namespace Bytecode

open Binary ByteReader

variable {placed : List (Placed (Op UInt16))}

/-- The bytes of code from an offset on are those of the given instructions. -/
inductive Divides (length : Nat) : Nat → List UInt8 → List (Placed (Op UInt16)) → Prop where
  | done (offset : Nat) : Divides length offset [] []
  | step {offset : Nat} {bytes more : List UInt8} {value : Op UInt16}
      {rest : List (Placed (Op UInt16))} (read : ReadsAt offset (op (created length)) bytes value)
      (some : bytes ≠ []) (divides : Divides length (offset + bytes.length) more rest) :
      Divides length offset (bytes ++ more) (⟨offset, value⟩ :: rest)

variable {length codeStart : Nat}

lemma Divides.append {offset : Nat}
    {first second : List (Placed (Op UInt16))} (divides : Divides length offset bytes first)
    (after : Divides length (offset + bytes.length) more second) :
    Divides length offset (bytes ++ more) (first ++ second) := by
  induction divides with
  | done offset => simpa using after
  | step read some _ ih =>
    rw [append_assoc, cons_append]
    refine .step read some (ih ?_)
    rwa [length_append, ← add_assoc] at after

/-- The instructions before some place of the code are found before those from there on. -/
lemma walkFrom_divides {cursor : Cursor}
    (divides : Divides length cursor.offset bytes placed) (rest : cursor.rest = bytes ++ more)
    (inside : cursor.offset + bytes.length ≤ length) (codeStart fuel : Nat)
    (found : Array (Placed (Op UInt16))) :
    walkFrom (op (created length)) length codeStart (placed.length + fuel) found cursor =
      walkFrom (op (created length)) length codeStart fuel (found ++ placed) (cursor.skip bytes.length) := by
  generalize start : cursor.offset = offset at divides
  induction divides generalizing cursor found with
  | done offset => simp
  | @step offset bytes more' value placed read some _ ih =>
    have positive := length_pos_iff.mpr some
    rw [append_assoc] at rest
    rw [length_append] at inside
    rw [length_cons, show placed.length + 1 + fuel = placed.length + fuel + 1 by omega,
      walkFrom, if_pos (by omega), read cursor _ start rest]
    dsimp only
    have next : (cursor.skip bytes.length).rest = more' ++ more := by simp [rest]
    rw [ih next (by rw [Cursor.skip_offset]; omega) _ (by rw [Cursor.skip_offset, start]),
      Cursor.skip_skip, length_append, start]
    congr 1

lemma walkFrom_end {cursor : Cursor} (outside : length ≤ cursor.offset) (fuel : Nat)
    (found : Array (Placed (Op UInt16))) :
    walkFrom (op (created length)) length codeStart fuel found cursor = .ok found.toList := by
  cases fuel with
  | zero => rfl
  | succ fuel => rw [walkFrom, if_neg (not_lt.mpr outside)]

lemma Divides.count {offset : Nat}
    (divides : Divides length offset bytes placed) : placed.length ≤ bytes.length := by
  induction divides with
  | done offset => simp
  | step _ some _ ih =>
    have positive := length_pos_iff.mpr some
    rw [length_cons, length_append]
    omega

lemma ops_divides {code : List UInt8} (divides : Divides code.length 0 code placed) :
    ops code codeStart = .ok placed := by
  have rest : (Cursor.at code 0).rest = code ++ [] := by simp [Cursor.at]
  have found := walkFrom_divides divides rest (by simp [Cursor.at]) codeStart
    (code.length - placed.length) #[]
  rw [Nat.add_sub_cancel' divides.count] at found
  rw [ops, walk, found, walkFrom_end (by simp [Cursor.at, Cursor.skip])]
  simp

/-- An instruction that cannot be read ends the division. -/
lemma ops_fails {code : List UInt8} (divides : Divides code.length 0 bytes placed)
    (equal : code = bytes ++ more) (some : more ≠ [])
    (fails : FailsAt bytes.length (op (created code.length)) more) :
    ∃ failure, ops code codeStart = .error failure := by
  have rest : (Cursor.at code 0).rest = bytes ++ more := by simp [Cursor.at, equal]
  have length : code.length = bytes.length + more.length := by rw [equal, length_append]
  have positive := length_pos_iff.mpr some
  have count := divides.count
  have found := walkFrom_divides divides rest (by simp [Cursor.at, length]) codeStart
    (code.length - placed.length - 1 + 1) #[]
  rw [show placed.length + (code.length - placed.length - 1 + 1) = code.length by omega] at found
  obtain ⟨failure, stopped, failed⟩ := fails ((Cursor.at code 0).skip bytes.length) []
    (by simp [Cursor.at]) (by simp [rest])
  rw [ops, walk, found, walkFrom, if_pos (by simp [Cursor.at, length]; omega), failed]
  exact ⟨_, rfl⟩

section Reading

variable {code : List UInt8} {offset : Nat}

/-- Instructions that are read one after the other up to the end of the code. -/
inductive Follows (code : List UInt8) : Nat → List (Placed (Op UInt16)) → Prop
  | done : Follows code code.length []
  | step {offset count : Nat} {value : Op UInt16} {rest : List (Placed (Op UInt16))} :
    op (created code.length) (Cursor.at code offset) = .ok value (Cursor.at code (offset + count)) →
    0 < count → offset + count ≤ code.length → Follows code (offset + count) rest →
    Follows code offset (⟨offset, value⟩ :: rest)

/-- An instruction takes some of the bytes that are left. -/
lemma op_goes {value : Op UInt16} {next : Cursor} (inside : offset ≤ code.length)
    (ran : op (created length) (Cursor.at code offset) = .ok value next) :
    ∃ count, 0 < count ∧ offset + count ≤ code.length ∧ next = Cursor.at code (offset + count) := by
  obtain ⟨_, _, ⟨⟩, ran⟩ := ran_parts ran
  obtain ⟨opcode, between, first, ran⟩ := ran_parts ran
  unfold u8 u8As at first
  split at first <;> cases first
  next there =>
  obtain ⟨count, few, rfl⟩ := (inferInstance : (opOf _ _ opcode).Walks).goes _ _ _ ran
  have left := congrArg List.length there
  simp [Cursor.at] at left few
  refine ⟨1 + count, by omega, by omega, ?_⟩
  rw [Cursor.skip_skip, Cursor.skip, Cursor.at, Cursor.at, drop_drop]

lemma walkFrom_follows {fuel : Nat} {found : Array (Placed (Op UInt16))}
    (room : code.length ≤ offset + fuel) (inside : offset ≤ code.length)
    (divided : walkFrom (op (created code.length)) code.length codeStart fuel found (Cursor.at code offset) = .ok placed) :
    ∃ rest, placed = found.toList ++ rest ∧ Follows code offset rest := by
  induction fuel generalizing found offset with
  | zero =>
    cases divided
    obtain rfl : offset = code.length := by omega
    exact ⟨[], by simp, .done⟩
  | succ fuel ih =>
    unfold walkFrom at divided
    split_ifs at divided with early
    · split at divided
      · next value next ran =>
        obtain ⟨count, some, within, rfl⟩ := op_goes inside ran
        obtain ⟨rest, rfl, follows⟩ := ih (by omega) within divided
        exact ⟨_, by simp [Cursor.at], .step ran some within follows⟩
      · contradiction
    · cases divided
      obtain rfl : offset = code.length := le_antisymm inside (Nat.le_of_not_lt early)
      exact ⟨[], by simp, .done⟩

/-- The instructions that code is divided into stand one after the other. -/
lemma ops_follows (divided : ops code codeStart = .ok placed) : Follows code 0 placed := by
  obtain ⟨rest, rfl, follows⟩ := walkFrom_follows (by simp) (Nat.zero_le _) divided
  exact follows

end Reading

/-- Changes the targets of an instruction at its place. -/
def Placed.mapTargets {τ σ : Type} (f : τ → σ) (placed : Placed (Op τ)) : Placed (Op σ) :=
  ⟨placed.offset, placed.op.map f⟩

namespace Layout

variable {layout : Layout} {index : Nat}

/-- Whether an instruction is a conditional branch that is written as two instructions. -/
def isInverted (layout : Layout) (op : Op Nat) (index : Nat) : Bool :=
  op.isBranch && layout.isWide index

/--
The instructions that are found where one has been placed, with offsets for targets. A conditional
branch in its wide form is the opposite branch to the next instruction and a jump to its target.
-/
def forms (layout : Layout) (op : Op Nat) (index : Nat) : List (Placed (Op Nat)) :=
  match op, layout.isWide index with
  | .branch condition target, true =>
    [⟨layout.offset index, .branch condition.negate (layout.offset (index + 1))⟩,
      ⟨layout.offset index + branchSize, .goto (layout.offset target)⟩]
  | op, _ => [⟨layout.offset index, op.map layout.offset⟩]

lemma forms_plain {op : Op Nat} (plain : layout.isInverted op index = false) :
    layout.forms op index = [⟨layout.offset index, op.map layout.offset⟩] := by
  unfold forms
  split
  · next wide => simp [isInverted, isBranch, wide] at plain
  · rfl

lemma forms_inverted (wide : layout.isWide index = true) (condition : Condition) (target : Nat) :
    layout.forms (.branch condition target) index =
      [⟨layout.offset index, .branch condition.negate (layout.offset (index + 1))⟩,
        ⟨layout.offset index + branchSize, .goto (layout.offset target)⟩] := by
  simp [forms, wide]

lemma inverted_branch {op : Op Nat} (inverted : layout.isInverted op index = true) :
    layout.isWide index = true ∧ ∃ condition target, op = .branch condition target := by
  simp only [isInverted, Bool.and_eq_true] at inverted
  obtain ⟨branch, wide⟩ := inverted
  cases op with
  | branch condition target => exact ⟨wide, condition, target, rfl⟩
  | _ => simp [isBranch] at branch

variable {layout : Layout} {ops : List (Op Nat)} {index : Nat} {op : Op Nat}

lemma forms_length (op : Op Nat) (index : Nat) :
    (layout.forms op index).length = if layout.isInverted op index then 2 else 1 := by
  cases inverted : layout.isInverted op index with
  | true =>
    obtain ⟨wide, condition, target, rfl⟩ := inverted_branch inverted
    rw [forms_inverted wide]
    rfl
  | false =>
    rw [forms_plain inverted]
    rfl

lemma forms_head (op : Op Nat) (index : Nat) :
    (layout.forms op index).head?.map Placed.offset = some (layout.offset index) := by
  cases inverted : layout.isInverted op index with
  | true =>
    obtain ⟨wide, condition, target, rfl⟩ := inverted_branch inverted
    rw [forms_inverted wide]
    rfl
  | false =>
    rw [forms_plain inverted]
    rfl

/-- All targets of what is found are offsets of instructions or of the end. -/
lemma forms_targets (below : index < ops.length)
    (inside : ∀ target ∈ op.targets, target < ops.length) {placed : Placed (Op Nat)}
    (mem : placed ∈ layout.forms op index) {target : Nat} (jumps : target ∈ placed.op.targets) :
    ∃ goal ≤ ops.length, target = layout.offset goal := by
  cases inverted : layout.isInverted op index with
  | true =>
    obtain ⟨wide, condition, goal, rfl⟩ := inverted_branch inverted
    rw [forms_inverted wide] at mem
    simp only [mem_cons, not_mem_nil, or_false] at mem
    rcases mem with rfl | rfl
    · exact ⟨index + 1, below, by simpa [targets] using jumps⟩
    · exact ⟨goal, le_of_lt (inside goal (by simp [targets])),
        by simpa [targets] using jumps⟩
  | false =>
    rw [forms_plain inverted, mem_singleton] at mem
    rw [mem, targets_map, mem_map] at jumps
    obtain ⟨goal, uses, rfl⟩ := jumps
    exact ⟨goal, le_of_lt (inside goal uses), rfl⟩

/-- A conditional branch in its wide form has the bytes of the two instructions. -/
lemma inverted_bytes (condition : Condition) (offset target : Nat) :
    (branch condition target).bytes offset true =
      (branch condition.negate (offset + wideBranchSize)).bytes offset false ++
        (goto target).bytes (offset + branchSize) true := by
  have distance : distance16 offset (offset + wideBranchSize) =
      bytes16 (UInt16.ofNat wideBranchSize) := by
    rw [distance16, Int.natCast_add, Int.add_comm, Int.add_sub_cancel]
    rfl
  simp [Op.bytes, distance]

/-- The instructions that are found where one has been placed have its bytes. -/
lemma forms_divides (found : layout.IsFound ops) (got : ops[index]? = some op)
    (shaped : op.IsShaped) (inside : ∀ target ∈ op.targets, target < ops.length)
    (goesOn : layout.isInverted op index = true → index + 1 < ops.length) :
    Divides layout.stop (layout.offset index)
      ((op.map layout.offset).bytes (layout.offset index) (layout.isWide index))
      ((layout.forms op index).map (Placed.mapTargets UInt16.ofNat)) := by
  obtain ⟨requested, places⟩ := found.places
  have within : index < ops.length := (List.getElem?_eq_some_iff.mp got).1
  have start := places.bounded index within
  have fits : layout.stop ≤ 0x10000 := Nat.le_succ_of_le found.stop_le
  have bound {target : Nat} (small : target < ops.length) : layout.offset target < layout.stop := by
    rw [← places.stop_eq]
    exact places.offset_lt small le_rfl
  cases inverted : layout.isInverted op index with
  | true =>
    obtain ⟨wide, condition, target, rfl⟩ := inverted_branch inverted
    have next : layout.offset (index + 1) = layout.offset index + wideBranchSize := by
      rw [places.next index _ got, wide]
      rfl
    have room := places.room index _ got rfl wide
    have near : isNear (layout.offset index) (layout.offset index + wideBranchSize) = true := by
      simp only [isNear, Bool.and_eq_true, decide_eq_true_eq]
      simp only [wideBranchSize]
      omega
    have opposite := bytes_reads
      (.branch condition.negate (layout.offset index + wideBranchSize)) false
      (Nat.lt_succ_of_le start) fits (show 3 ≤ 0x10000 by decide) trivial
      (by simpa [targets, ← next] using bound (goesOn inverted))
      (by rintro _ ⟨⟩ _; exact near) rfl
    have jump := bytes_reads (.goto (layout.offset target)) true (Nat.lt_succ_of_le room) fits
      (show 5 ≤ 0x10000 by decide) trivial
      (by simpa [targets] using bound (inside target (by simp [targets])))
      (by rintro _ _ ⟨⟩) rfl
    rw [wide, map, inverted_bytes, forms_inverted wide, next]
    refine .step opposite (cons_ne_nil _ _) ?_
    have last := Divides.step jump (cons_ne_nil _ _) (.done _)
    rwa [append_nil] at last
  | false =>
    rw [forms_plain inverted]
    have small : (op.map layout.offset).size (layout.offset index) (layout.isWide index) ≤
        0x10000 := by
      have next := places.next index op got
      have last := places.offset_le_stop (index + 1)
      rw [size_map]
      omega
    have read := bytes_reads (op.map layout.offset) (layout.isWide index)
      (Nat.lt_succ_of_le start) fits small shaped.map ?_ ?_ (by simpa [isInverted] using inverted)
    · have some : (op.map layout.offset).bytes (layout.offset index) (layout.isWide index) ≠ [] := by
        rw [← length_pos_iff, bytes_length]
        exact size_pos _ _ _
      have divides := Divides.step read some (.done _)
      rwa [append_nil] at divides
    · simp only [targets_map, mem_map]
      rintro _ ⟨target, mem, rfl⟩
      exact bound (inside target mem)
    · intro target jumps narrow
      rw [jump?_map] at jumps
      obtain ⟨goal, leads, rfl⟩ := Option.map_eq_some_iff.mp jumps
      exact found.isNear got leads narrow

/-- No branch that is written as two instructions stands at the end of the code. -/
def EndsPlain (layout : Layout) (ops : List (Op Nat)) : Prop :=
  ∀ index op, ops[index]? = some op → layout.isInverted op index = true → index + 1 < ops.length

end Layout

end Bytecode

end JvmAsm
