/- Says what interning gives for the constants that code loads. -/
import JvmAsm.Proofs.Pool.Interning

namespace JvmAsm

open PoolTable

mutual

/-- How deep the dynamic constants of a constant are nested. -/
def Loadable.depth : Loadable → Nat
  | .dynamic _ _ _ arguments => 1 + Loadable.depthAll arguments
  | _ => 0

/-- How deep the dynamic constants of some constants are nested. -/
def Loadable.depthAll : List Loadable → Nat
  | [] => 0
  | value :: rest => max value.depth (Loadable.depthAll rest)

end

lemma Loadable.depthAll_le_iff {xs : List Loadable} {bound : Nat} :
    Loadable.depthAll xs ≤ bound ↔ ∀ value ∈ xs, value.depth ≤ bound := by
  induction xs with
  | nil => simp [Loadable.depthAll]
  | cons value rest ih => rw [Loadable.depthAll, Nat.max_le, ih, List.forall_mem_cons]

structure PoolTable.Agrees (table : PoolTable) (boots : PoolTable.Bootstrap)
    (pool : PoolBuilder) : Prop where
  has : table.Has pool
  found : ∀ (index : Nat) (entry : BootstrapEntry),
    pool.bootstrapMethods.toList[index]? = some entry →
      ∃ (methods : Array BootstrapMethod) (method : BootstrapMethod), boots = some methods ∧
        methods[index]? = some method ∧ table.methodHandle entry.handle = .ok method.handle ∧
        method.arguments = entry.arguments

/-- Nothing is asked of a table if the pool is empty. -/
lemma PoolTable.agrees_empty (table : PoolTable) (boots : PoolTable.Bootstrap) :
    table.Agrees boots {} where
  has := fun index entry holds => absurd holds (PoolBuilder.empty_holds index entry)
  found := by simp

namespace PoolBuilder

/-- Every table and bootstrap methods of the pool give the constant at the index. -/
def Resolves {α : Type} (pool : PoolBuilder)
    (get : PoolTable → PoolTable.Bootstrap → UInt16 → Except Failure α) (index : UInt16)
    (value : α) : Prop :=
  ∀ ⦃table : PoolTable⦄ ⦃boots⦄, table.Agrees boots pool → get table boots index = .ok value

/-- The arguments of a bootstrap method are given one after the other. -/
def ResolvesAll (pool : PoolBuilder) (indices : List UInt16) (xs : List Loadable) : Prop :=
  ∀ fuel, Loadable.depthAll xs ≤ fuel →
    ∀ ⦃table : PoolTable⦄ ⦃boots : PoolTable.Bootstrap⦄, table.Agrees boots pool →
    ∀ found, allOf (table.loadableWithin boots fuel) indices found = .ok (found.toList ++ xs)

lemma bootstrapMethod_found {pool : PoolBuilder} {table : PoolTable}
    {boots : PoolTable.Bootstrap} {index : UInt16} {entry : BootstrapEntry} {handle : Handle}
    (agrees : table.Agrees boots pool)
    (holds : pool.bootstrapMethods.toList[index.toNat]? = some entry)
    (named : pool.NamesHandle entry.handle handle) :
    bootstrapMethod boots index = .ok ⟨handle, entry.arguments⟩ := by
  obtain ⟨methods, method, rfl, found, handled, arguments⟩ := agrees.found _ _ holds
  rw [named table agrees.has] at handled
  rw [bootstrapMethod, found, Except.ok.inj handled, ← arguments]

/-- A constant whose entry is not dynamic is given whatever the fuel is. -/
lemma Holds.resolves {pool : PoolBuilder} {index : UInt16} {entry : PoolEntry} {value : Loadable}
    (holds : pool.Holds index.toNat entry)
    (given : ∀ (table : PoolTable) (boots : PoolTable.Bootstrap) (fuel : Nat), table.Has pool →
      table.entry index = .ok entry → table.loadableWithin boots fuel index = .ok value) :
    index ≠ 0 ∧ ∀ fuel, value.depth ≤ fuel →
      pool.Resolves (fun table boots => table.loadableWithin boots fuel) index value :=
  ⟨holds.ne_zero, fun fuel _ table boots agrees =>
    given table boots fuel agrees.has (agrees.has.entry holds)⟩

section Interning

variable {before : PoolBuilder → Prop}

mutual

/-- The index of a constant resolves to it, if the fuel is enough for its nesting. -/
lemma loadable_yields {before : PoolBuilder → Prop} (value : Loadable) :
    Yields before (loadable value) fun index pool => index ≠ 0 ∧ ∀ fuel, value.depth ≤ fuel →
      pool.Resolves (fun table boots => table.loadableWithin boots fuel) index value := by
  match value with
  | .integer value | .float value | .long value | .double value =>
    refine (put_yields _).weaken fun index pool _ holds =>
      Holds.resolves holds fun table boots fuel _ found => ?_
    unfold loadableWithin
    rw [found]
    rfl
  | .className name =>
    refine (className_yields name).weaken ?_
    rintro index pool _ ⟨refers, _, holds⟩
    refine Holds.resolves holds fun table boots fuel has found => ?_
    unfold loadableWithin
    simp [found, refers.2 table has, gettingEntry]
  | .string value =>
    refine (string_yields value).weaken ?_
    rintro index pool _ ⟨refers, _, holds⟩
    refine Holds.resolves holds fun table boots fuel has found => ?_
    unfold loadableWithin
    simp [found, refers.2 table has, gettingEntry]
  | .methodHandle handle =>
    refine (methodHandle_yields handle).weaken ?_
    rintro index pool _ ⟨refers, _, _, holds⟩
    refine Holds.resolves holds fun table boots fuel has found => ?_
    unfold loadableWithin
    simp [found, refers.2 table has, gettingEntry]
  | .methodType descriptor =>
    refine (methodType_yields descriptor).weaken ?_
    rintro index pool _ ⟨refers, _, holds⟩
    refine Holds.resolves holds fun table boots fuel has found => ?_
    unfold loadableWithin
    simp [found, refers.2 table has, gettingEntry]
  | .dynamic name type handle xs =>
    rw [loadable]
    refine (nameAndType_yields name.text type.text).bind fun pair =>
      (arguments_yields #[] xs).bind fun indices => (methodHandle_yields handle).bind
        fun handleIndex => (putBootstrap_yields handle ⟨handleIndex, indices⟩ ?_).bind
          fun method => (put_yields _).weaken ?_
    · rintro pool ⟨_, named, _⟩
      exact named.2
    · rintro index pool
        ⟨⟨⟨⟨_, _, _, paired, named, typed⟩, rest, rfl, resolves⟩, handled, _⟩, held⟩ holds
      refine ⟨holds.ne_zero, fun fuel deep table boots agrees => ?_⟩
      obtain ⟨fuel, rfl⟩ : ∃ n, fuel = n + 1 :=
        ⟨fuel - 1, by simp only [Loadable.depth] at deep; omega⟩
      have room : Loadable.depthAll xs ≤ fuel := by
        simp only [Loadable.depth] at deep
        omega
      change table.loadableWithin boots (fuel + 1) index = _
      unfold loadableWithin
      simp [agrees.has.entry holds, (paired.fieldNameAndType named typed).2 table agrees.has,
        bootstrapMethod_found agrees held handled.2, resolves fuel room agrees #[],
        gettingEntry]

/-- The indices of some constants resolve to them. -/
lemma arguments_yields {before : PoolBuilder → Prop} (found : Array UInt16)
    (xs : List Loadable) :
    Yields before (arguments found xs) fun indices pool =>
      ∃ rest, indices = found.toList ++ rest ∧ pool.ResolvesAll rest xs := by
  match xs with
  | [] =>
    rw [arguments]
    refine .pure fun pool _ => ⟨[], (List.append_nil _).symm, fun fuel _ table boots _ _ => ?_⟩
    simp [allOf]
  | value :: rest =>
    rw [arguments]
    refine (loadable_yields value).bind fun index =>
      (arguments_yields (found.push index) rest).weaken ?_
    rintro indices pool ⟨_, _, resolves⟩ ⟨more, rfl, resolvesAll⟩
    refine ⟨index :: more, by simp, fun fuel deep table boots agrees taken => ?_⟩
    simp only [Loadable.depthAll, Nat.max_le] at deep
    have head : table.loadableWithin boots fuel index = .ok value :=
      resolves fuel deep.1 agrees
    have tail := resolvesAll fuel deep.2 agrees (taken.push value)
    rw [allOf, head]
    simpa [bind, Except.bind] using tail

end

lemma invokeDynamic_yields (site : CallSite) :
    Yields before (invokeDynamic site) fun index pool =>
      Loadable.depthAll site.arguments ≤ maxDynamicDepth →
        pool.Resolves (fun table boots => table.callSite boots) index site := by
  unfold invokeDynamic
  refine (nameAndType_yields site.name.text site.descriptor.text).bind fun pair =>
    (arguments_yields #[] site.arguments).bind fun indices =>
      (methodHandle_yields site.handle).bind fun handleIndex =>
        (putBootstrap_yields site.handle ⟨handleIndex, indices⟩ ?_).bind fun method =>
          (put_yields _).weaken ?_
  · rintro pool ⟨_, named, _⟩
    exact named.2
  · rintro index pool
      ⟨⟨⟨⟨_, _, _, paired, named, described⟩, rest, rfl, resolves⟩, handled, _⟩, held⟩ holds
    intro deep table boots agrees
    simp [callSite, agrees.has.entry holds,
      (paired.methodNameAndType named described).2 table agrees.has,
      bootstrapMethod_found agrees held handled.2, resolves _ deep agrees #[],
      gettingEntry]

lemma constantValue_yields (value : ConstantValue) :
    Yields before (constantValue value) fun index pool =>
      pool.Refers PoolTable.constantValue index value := by
  cases value with
  | integer | float | long | double =>
    refine (put_yields _).weaken fun index pool _ holds =>
      Holds.refers holds fun table _ found => ?_
    rw [PoolTable.constantValue, found]
    rfl
  | string value =>
    refine (string_yields value).weaken ?_
    rintro index pool _ ⟨refers, _, holds⟩
    refine Holds.refers holds fun table has found => ?_
    simp [PoolTable.constantValue, PoolTable.gettingEntry, found, refers.2 table has]

end Interning

end PoolBuilder

end JvmAsm
