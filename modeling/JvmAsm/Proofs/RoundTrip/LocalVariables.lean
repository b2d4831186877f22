/- Reads back the local variables of code. -/
import JvmAsm.Proofs.Decode.Code

namespace JvmAsm

open Binary List Decode

namespace Encode

def localTables (written : Written) : Encoder (List UInt8) :=
  attributeTable .codeAttributes [
    localVariableTable written "LocalVariableTable" fun entry => entry.type.map FieldType.text,
    localVariableTable written "LocalVariableTypeTable" LocalVariable.signature]

variable {written : Written}

lemma localTables_yields {before : PoolBuilder → Prop}
    (found : written.layout.IsFound written.ops) :
    Yields before (localTables written) fun bytes pool =>
      (∀ entry ∈ written.code.localVariables, written.IsInside entry.range.start) →
      pool.Encodes (fun table _ => attributes table
        (CodeTables.step table written.layout.stop written.readHandlers.length) {}) bytes
        { localVariables := written.readTables.localVariables,
          localVariableTypes := written.readTables.localVariableTypes } := by
  refine (attributeTable_yields (.cons (localTypes_yields found)
    (.cons (localSignatures_yields found) .nil))).weaken ?_
  rintro bytes pool _ ⟨attributes, fits, rfl, affects⟩ inside
  have read := affects_reads affects fits (fun _ => trivial) {}
    ⟨fun entry mem _ => inside entry mem, fun entry mem _ => inside entry mem, trivial⟩
  refine (congrArg (PoolBuilder.Encodes pool _ _) ?_).mp read
  simp [Written.readTables]

/--
No local variable is lost or changed if each has a type or a signature and, of those with the same
range, name and index, the earlier ones have all that the later ones have.
-/
theorem localVariables_reread {code : Code} {analysis : Analysis} {ops : List (Op Nat)}
    {layout : Bytecode.Layout} {state between state' : State} {bytes : List UInt8}
    (canonical : code.IsCanonical) (laidOut : layOut code state = .ok (ops, layout) between)
    (wf : between.pool.WellFormed)
    (written : localTables (.placed code analysis ops layout) between = .ok bytes state')
    (starts : ∀ entry ∈ code.localVariables, code.lastLabel ≠ some entry.range.start)
    (separate : CodeTables.IsSeparate code.localVariables) :
    ∃ tables : CodeTables,
      state'.pool.Encodes (fun table _ => attributes table (CodeTables.step table layout.stop
        (Written.placed code analysis ops layout).readHandlers.length) {}) bytes tables ∧
      (tables.code []).localVariables.Perm (code.localVariables.map (LocalVariable.mapLabels
        fun label => (Written.placed code analysis ops layout).labelAt (code.positionOf label))) ∧
      ∀ index other, index ≤ code.instructions.length → other ≤ code.instructions.length →
        (Written.placed code analysis ops layout).labelAt index =
          (Written.placed code analysis ops layout).labelAt other → index = other := by
  obtain ⟨lowered, found⟩ := layOut_lowered canonical.once laidOut
  have count := lowered.length_eq
  have yields : Yields (fun _ => True) _ _ := @localTables_yields
    (.placed code analysis ops layout) _ found
  obtain ⟨-, -, reads⟩ := yields _ _ _ wf (fun _ _ => trivial) written
  have inside : ∀ entry ∈ code.localVariables,
      (Written.placed code analysis ops layout).IsInside entry.range.start := by
    intro entry mem
    obtain ⟨pos, stands⟩ := canonical.bound _ (Code.range_mem_references mem).1
    exact ⟨pos, stands, count ▸ canonical.position_lt stands (starts entry mem)⟩
  refine ⟨_, reads _ (.refl _) inside, ?_, fun index other inside inside' =>
    Written.labelAt_injective found (count ▸ inside) (count ▸ inside')⟩
  have merged := @Written.locals_merge (.placed code analysis ops layout) canonical found rfl count
    separate
  rw [CodeTables.code, merged]
  exact (filter_append_perm _ _).map _

end Encode

section OneLocal

/-- Returns at once, and has a local variable. -/
def Code.oneLocal (type : Option FieldType) : Code where
  instructions := [⟨some ⟨0⟩, .simple .returnVoid⟩]
  localVariables := [⟨⟨⟨0⟩, ⟨0⟩⟩, "x", type, none, 0⟩]

lemma Code.oneLocal_isCanonical (type : Option FieldType) : (oneLocal type).IsCanonical where
  once := nodup_singleton _
  bound label mem := by
    have used : (oneLocal type).references = [⟨0⟩, ⟨0⟩] := rfl
    obtain rfl : label = ⟨0⟩ := by simpa [used] using mem
    exact ⟨0, Std.HashMap.getElem?_insert_self⟩
  numbered := by cbv

namespace Encode

def Written.oneLocal (type : Option FieldType) : Written :=
  .placed (.oneLocal type) {} [.simple .returnVoid] ⟨#[0], #[false], 1⟩

/-- A local variable with a type is read again. -/
theorem localVariables_reread_oneLocal : ∃ bytes state',
    localTables (.oneLocal (some (.element (.primitive .int)))) {} = .ok bytes state' ∧
    ∃ tables : CodeTables, state'.pool.Encodes (fun table _ => attributes table
        (CodeTables.step table 1 0) {}) bytes tables ∧
      (tables.code []).localVariables.length = 1 := by
  obtain ⟨_, _, written⟩ := exists_ran (by cbv :
    ((localTables (.oneLocal (some (.element (.primitive .int))))).run' {}).isSome = true)
  obtain ⟨tables, reads, kept, -⟩ := localVariables_reread (Code.oneLocal_isCanonical _)
    (rfl : layOut (.oneLocal (some (.element (.primitive .int)))) {} = _)
    PoolBuilder.empty_wellFormed written (by decide)
    ⟨by simp [Code.oneLocal], pairwise_singleton _ _⟩
  exact ⟨_, _, written, tables, reads, kept.length_eq⟩

/-- A local variable of which neither the type nor the signature is known is lost. -/
theorem not_localVariables_reread_oneLocal :
    (Code.oneLocal none).IsCanonical ∧ localTables (.oneLocal none) {} = .ok [0, 0] {} ∧
      ∀ table, ∃ tables : CodeTables, attributes table (CodeTables.step table 1 0) {}
          (Cursor.at [0, 0] 0) = .ok tables (Cursor.at [0, 0] 2) ∧
        ¬(tables.code []).localVariables.length = (Code.oneLocal none).localVariables.length :=
  ⟨Code.oneLocal_isCanonical none, rfl, fun _ => ⟨{}, rfl, nofun⟩⟩

end Encode

end OneLocal

end JvmAsm
