/-
Follows the attempts to place the instructions of code. Each attempt that is given up requests one
more jump to be wide, so there is at most one more of them than there are jumps. The bytes of an
attempt have gaps for the distances of jumps ahead, which are filled in afterwards.
-/
import JvmAsm.Proofs.Bytecode.Layout
import JvmAsm.Proofs.Bytecode.Lowering
import JvmAsm.Proofs.Pool.History

namespace JvmAsm

open List Binary

section Repetition

variable {α β : Type}

/-- What an action has added to a pool is not added again, and the action gives the same again. -/
class PoolBuilder.Repeats (action : PoolM α) : Prop where
  again : ∀ pool value later, pool.Comprises .all → action pool = .ok value later →
    later.Comprises .all ∧ pool.Extends later ∧ Settled action later value

namespace PoolBuilder.Repeats

variable {action other : PoolM α}

instance (value : α) : Repeats (pure value) where
  again pool found later sound ran := by
    cases ran
    exact ⟨sound, .refl _, fun _ _ _ => rfl⟩

instance (failure : Failure) : Repeats (throw failure : PoolM α) where
  again _ _ _ _ ran := nomatch ran

instance steps {next : α → PoolM β} [first : Repeats action] [second : ∀ value, Repeats (next value)] :
    Repeats (action >>= next) where
  again pool value later sound ran := by
    obtain ⟨found, between, ran, rest⟩ := ran_parts ran
    obtain ⟨sound, grown, settled⟩ := first.again _ _ _ sound ran
    obtain ⟨sound', grown', settled'⟩ := (second found).again _ _ _ sound rest
    exact ⟨sound', grown.trans grown',
      .bind (fun last more => settled last (grown'.trans more)) settled'⟩

instance {condition : Prop} [Decidable condition] [Repeats action] [Repeats other] :
    Repeats (if condition then action else other) := by
  split <;> infer_instance

instance (constant : Constant) : Repeats (intern constant) where
  again pool index later sound ran := by
    obtain ⟨sound', stores⟩ := stores_of_called sound ran []
    obtain ⟨-, grown⟩ := foldl_called sound [constant]
    rw [foldl_cons, foldl_nil, called_of_ok ran] at grown
    exact ⟨sound', grown, stores.settled⟩

instance (value : Loadable) : Repeats (loadable value) := by
  have same : intern value.constant = loadable value := by
    cases value <;> simp [intern, loadable, Loadable.constant, dynamic]
  rw [← same]
  infer_instance

instance (field : FieldRef) : Repeats (fieldRef field) :=
  inferInstanceAs (Repeats (intern (.fieldRef field)))

instance (method : MethodRef) (onInterface : Bool) : Repeats (methodRef method onInterface) := by
  rw [← intern_ofMethod]
  infer_instance

instance (site : CallSite) : Repeats (invokeDynamic site) :=
  inferInstanceAs (Repeats (intern (.invokeDynamic site)))

instance (name : ClassName) : Repeats (className name) :=
  inferInstanceAs (Repeats (intern (.className name)))

end PoolBuilder.Repeats

namespace Bytecode

open PoolBuilder

instance (cause : EncodingCause) : Repeats (unencodable cause : PoolM α) :=
  inferInstanceAs (Repeats (throw _))

end Bytecode

end Repetition

section Filling

namespace Op

open Bytecode

inductive Piece where
  | plain (bytes : List UInt8)
  /-- The distance from an offset to the instruction of an index. -/
  | distance (origin : Nat) (isWide : Bool) (target : Nat)

open Piece

/-- The bytes of a piece, given the offsets of instructions. -/
def Piece.bytes (offset : Nat → Nat) : Piece → List UInt8
  | plain bytes => bytes
  | distance origin isWide target =>
    if isWide then distance32 origin (offset target) else distance16 origin (offset target)

def pieces (offset : Nat) (isWide : Bool) : Op Nat → List Piece
  | .branch condition target =>
    if isWide then
      [plain (condition.negate.opcode :: (bytes16 (UInt16.ofNat wideBranchSize) ++ [0xc8])),
        distance (offset + branchSize) true target]
    else [plain [condition.opcode], distance offset false target]
  | .goto target => [plain [if isWide then 0xc8 else 0xa7], distance offset isWide target]
  | .jsr target => [plain [if isWide then 0xc9 else 0xa8], distance offset isWide target]
  | .tableSwitch default low high targets =>
    plain (0xaa :: replicate (paddingAfter (offset + 1)) 0) :: distance offset true default ::
      plain (bytes32 low.toUInt32 ++ bytes32 high.toUInt32) :: targets.map (distance offset true)
  | .lookupSwitch default pairs =>
    plain (0xab :: replicate (paddingAfter (offset + 1)) 0) :: distance offset true default ::
      plain (bytes32 (UInt32.ofNat pairs.length)) ::
        pairs.flatMap fun pair => [plain (bytes32 pair.1.toUInt32), distance offset true pair.2]
  | op => [plain (op.bytes offset isWide)]

end Op

namespace Bytecode.Layout

/-- The pieces of the instructions from an index on, each with the index of its instruction. -/
def pieces (layout : Layout) (first : Nat) (ops : List (Op Nat)) : List (Nat × Op.Piece) :=
  (ops.zipIdx first).flatMap fun (op, index) =>
    (op.pieces (layout.offset index) (layout.isWide index)).map (index, ·)

def overwrite (pos : Nat) (value bytes : List UInt8) : Option (List UInt8) :=
  if pos + value.length ≤ bytes.length then
    some (bytes.take pos ++ value ++ bytes.drop (pos + value.length))
  else none

/-- Whether a distance does not fit into its two bytes. -/
def isCut (layout : Layout) : Op.Piece → Bool
  | .distance origin false target => !isNear origin (layout.offset target)
  | _ => false

/-- Fills the gaps in, up to the first one that is too small, whose instruction is given. -/
def fill (layout : Layout) :
    List (Nat × Nat × Op.Piece) → List UInt8 → Option (Except Nat (List UInt8))
  | [], bytes => some (.ok bytes)
  | (pos, index, piece) :: rest, bytes =>
    if layout.isCut piece then some (.error index)
    else (overwrite pos (piece.bytes layout.offset) bytes).bind (fill layout rest)

end Bytecode.Layout

end Filling

section Widening

namespace Bytecode.Layout

variable {ops : List (Op Nat)} {requested : Array Bool} {layout : Layout} {index count : Nat}

/-- The number of instructions that have a narrow and a wide form. -/
def jumps (ops : List (Op Nat)) : Nat := ops.countP fun op => op.jump?.isSome

end Bytecode.Layout

open Bytecode PoolBuilder

end Widening

end JvmAsm
