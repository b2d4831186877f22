/-
Shows that tables agree with the pools that they have been read from: whatever calls have been made
before a pool is written, the table gives each constant at the index of the constant.
-/
import JvmAsm.Proofs.Pool.History
import JvmAsm.Proofs.Pool.Reading

namespace JvmAsm

open Binary PoolBuilder

namespace PoolTable

def bootstrapMethods (table : PoolTable) (pool : PoolBuilder) : Result (List BootstrapMethod) :=
  pool.bootstrapMethods.toList.mapM fun entry => do
    return ⟨← table.methodHandle entry.handle, entry.arguments⟩

/-- The getters for constants of its kind give the constant at the index. -/
def Finds (table : PoolTable) (boots : Bootstrap) (index : UInt16) : Constant → Prop
  | .utf8 value => table.javaString index = .ok value
  | .integer value => table.integer index = .ok value
  | .float value => table.float index = .ok value
  | .long value => table.long index = .ok value
  | .double value => table.double index = .ok value
  | .className name => table.className index = .ok name
  | .string value => table.string index = .ok value
  | .fieldRef field => table.fieldRef index = .ok field
  | .methodRef method =>
    table.methodRef index = .ok method ∧ table.anyMethodRef index = .ok (method, false)
  | .interfaceMethodRef method =>
    table.interfaceMethodRef index = .ok method ∧ table.anyMethodRef index = .ok (method, true)
  | .nameAndType name descriptor =>
    table.nameAndType table.text table.text index = .ok (name, descriptor)
  | .methodHandle handle => table.methodHandle index = .ok handle
  | .methodType descriptor => table.methodType index = .ok descriptor
  | .dynamic name type handle values => Loadable.depthAll values ≤ maxDynamicDepth →
    table.loadable boots index = .ok (.dynamic name type handle values)
  | .invokeDynamic site => Loadable.depthAll site.arguments ≤ maxDynamicDepth →
    table.callSite boots index = .ok site

variable {table : PoolTable} {boots : Bootstrap} {pool : PoolBuilder} {index : UInt16}

lemma Has.bootstrapMethods (has : table.Has pool) (wf : pool.WellFormed) :
    ∃ methods, table.bootstrapMethods pool = .ok methods ∧
      table.Agrees (some methods.toArray) pool := by
  obtain ⟨methods, mapped⟩ : ∃ methods, table.bootstrapMethods pool = .ok methods := by
    refine exists_ok_mapM fun entry mem => ?_
    obtain ⟨handle, names⟩ := wf.handles entry mem
    exact ⟨⟨handle, entry.arguments⟩, ok_bind_iff.mpr ⟨handle, names table has, rfl⟩⟩
  refine ⟨methods, mapped, has, fun index entry found => ?_⟩
  obtain ⟨method, got, made⟩ := forall₂_getElem? (ok_mapM_iff.mp mapped) found
  obtain ⟨handle, handled, made⟩ := ok_parts made
  cases made
  exact ⟨methods.toArray, _, rfl, by simpa using got, handled, rfl⟩

lemma Agrees.loadable {value : Loadable} (agrees : table.Agrees boots pool)
    (wf : pool.WellFormed) (stores : pool.Stores index value.constant)
    (nested : value.depth ≤ maxDynamicDepth + 1) : table.loadable boots index = .ok value := by
  have yields : Yields (fun _ => True) (intern value.constant) _ :=
    intern_constant value ▸ loadable_yields value
  exact (stores.yielded wf yields).2 _ nested agrees

lemma Agrees.finds {constant : Constant} (agrees : table.Agrees boots pool)
    (wf : pool.WellFormed) (stores : pool.Stores index constant) :
    table.Finds boots index constant := by
  have has := agrees.has
  cases constant with
  | utf8 value => exact (stores.yielded wf (javaUtf8_yields value)).2 table has
  | integer value => exact (stores.yielded wf (integer_yields value)).2 table has
  | float value => exact (stores.yielded wf (float_yields value)).2 table has
  | long value => exact (stores.yielded wf (long_yields value)).2 table has
  | double value => exact (stores.yielded wf (double_yields value)).2 table has
  | className name => exact (stores.yielded wf (className_refers name)).2 table has
  | string value => exact (stores.yielded wf (string_yields value)).1.2 table has
  | fieldRef field => exact (stores.yielded wf (fieldRef_yields field)).2 table has
  | methodRef method =>
    have refers := stores.yielded wf (methodRef_yields method false)
    exact ⟨refers.methodRef.2 table has, refers.2 table has⟩
  | interfaceMethodRef method =>
    have refers := stores.yielded wf (methodRef_yields method true)
    exact ⟨refers.interfaceMethodRef.2 table has, refers.2 table has⟩
  | nameAndType name descriptor =>
    obtain ⟨_, _, holds, named, described⟩ :=
      stores.yielded wf (nameAndType_yields name descriptor)
    simp [Finds, nameAndType, gettingEntry, has.entry holds, named.2 table has,
      described.2 table has]
  | methodHandle handle => exact stores.namesHandle wf table has
  | methodType descriptor =>
    exact (stores.yielded wf (methodType_yields descriptor)).1.2 table has
  | dynamic name type handle values =>
    intro nested
    have deep : (Loadable.dynamic name type handle values).depth ≤ maxDynamicDepth + 1 := by
      rw [Loadable.depth]
      omega
    exact agrees.loadable wf stores deep
  | invokeDynamic site =>
    intro nested
    exact stores.yielded wf (invokeDynamic_yields site) nested agrees

/--
Whatever calls have been made, a pool that can be written is read back from exactly its bytes. With
its bootstrap methods, the table gives each constant at the index that a call has given for it.
-/
theorem read_ofCalls {constants : List Constant} {bytes : List UInt8}
    (written : (ofCalls constants).bytes = .ok bytes) :
    ∃ (table : PoolTable) (methods : List BootstrapMethod), Reads PoolTable.read bytes table ∧
      table.bootstrapMethods (ofCalls constants) = .ok methods ∧
      ∀ (earlier more : List Constant) (constant : Constant) (index : UInt16) (pool : PoolBuilder),
        constants = earlier ++ constant :: more → intern constant (ofCalls earlier) = .ok index pool →
          table.Finds (some methods.toArray) index constant ∧
            ∀ value : Loadable, constant = value.constant → value.depth ≤ maxDynamicDepth + 1 →
              table.loadable (some methods.toArray) index = .ok value := by
  have wf := (foldl_called (empty_comprises .all) constants).1.toWellFormed
  obtain ⟨methods, resolved, agrees⟩ :=
    (ofEntries_has (ofCalls constants)).bootstrapMethods wf
  refine ⟨_, methods, read_reads wf written, resolved, ?_⟩
  rintro earlier more constant index pool rfl ran
  have stores : (ofCalls (earlier ++ constant :: more)).Stores index constant := by
    rw [ofCalls, List.foldl_append, List.foldl_cons]
    change (more.foldl called ((ofCalls earlier).called constant)).Stores index constant
    rw [called_of_ok ran]
    exact (stores_of_called (foldl_called (empty_comprises .all) earlier).1 ran more).2
  refine ⟨agrees.finds wf stores, ?_⟩
  rintro value rfl nested
  exact agrees.loadable wf stores nested

/-- After a number, which takes two indices, a string is found where it has been put. -/
theorem read_ofCalls_longAndString : ∃ bytes pool table,
    (ofCalls [.long 5, .string ⟨[]⟩]).bytes = .ok bytes ∧
      intern (.string ⟨[]⟩) (ofCalls [.long 5]) = .ok 4 pool ∧ Reads PoolTable.read bytes table ∧
      table.string 4 = .ok ⟨[]⟩ ∧ table.loadable (some #[]) 4 = .ok (.string ⟨[]⟩) := by
  have ran : (intern (.string ⟨[]⟩)).run' (ofCalls [.long 5]) = some 4 := by cbv
  obtain ⟨pool, interned⟩ := ran_of_run' ran
  have written : (ofCalls [.long 5, .string ⟨[]⟩]).bytes =
      .ok [0, 5, 5, 0, 0, 0, 0, 0, 0, 0, 5, 1, 0, 0, 8, 0, 3] := by
    cbv
  obtain ⟨table, methods, reads, resolved, each⟩ := read_ofCalls written
  obtain ⟨found, loads⟩ := each [.long 5] [] _ 4 _ rfl interned
  have none : (ofCalls [.long 5, .string ⟨[]⟩]).bootstrapMethods = #[] := by cbv
  rw [PoolTable.bootstrapMethods, none] at resolved
  cases resolved
  exact ⟨_, _, table, written, interned, reads, found, loads (.string ⟨[]⟩) rfl (by decide)⟩

end PoolTable

end JvmAsm
