/-
Says how constant pools grow: entries keep their indices for good, so that what a pool says once is
said by every pool that it grows into.
-/
import JvmAsm.Pool.Builder
import JvmAsm.Pool.Table
import Mathlib

namespace JvmAsm

open List PoolEntry

variable {pool later : PoolBuilder} {index : Nat} {table : PoolTable}

/-- The number of indices that some entries take. -/
def PoolEntry.totalSize (entries : List PoolEntry) : Nat := (entries.map size).sum

@[simp] lemma PoolEntry.totalSize_nil : totalSize [] = 0 := rfl

@[simp] lemma PoolEntry.totalSize_cons (entry : PoolEntry) (entries : List PoolEntry) :
    totalSize (entry :: entries) = entry.size + totalSize entries := by
  simp [totalSize]

@[simp] lemma PoolEntry.totalSize_append (first second : List PoolEntry) :
    totalSize (first ++ second) =
      totalSize first + totalSize second := by
  simp [totalSize]

lemma PoolEntry.size_cases (entry : PoolEntry) : entry.size = 1 ∨ entry.size = 2 := by
  cases entry <;> simp [size]

namespace PoolBuilder

/-- The pool has the entry at the given index, which is one past what the entries before it take. -/
def Holds (pool : PoolBuilder) (index : Nat) (entry : PoolEntry) : Prop :=
  ∃ before after, pool.entries.toList = before ++ entry :: after ∧ index = 1 + totalSize before

/-- The second pool has grown out of the first. -/
structure Extends (pool later : PoolBuilder) : Prop where
  entries : pool.entries.toList <+: later.entries.toList
  bootstrapMethods : pool.bootstrapMethods.toList <+: later.bootstrapMethods.toList

lemma Extends.refl (pool : PoolBuilder) : pool.Extends pool :=
  ⟨prefix_refl _, prefix_refl _⟩

lemma Extends.trans {first second third : PoolBuilder} (early : first.Extends second)
    (late : second.Extends third) : first.Extends third :=
  ⟨early.entries.trans late.entries, early.bootstrapMethods.trans late.bootstrapMethods⟩

lemma Holds.mono {later : PoolBuilder} {entry : PoolEntry} (holds : pool.Holds index entry)
    (grown : pool.Extends later) : later.Holds index entry := by
  obtain ⟨before, after, entries, rfl⟩ := holds
  obtain ⟨more, grown⟩ := grown.entries
  exact ⟨before, after ++ more, by rw [← grown, entries]; simp, rfl⟩

lemma Extends.bootstrapMethod {method : BootstrapEntry} (grown : pool.Extends later)
    (held : pool.bootstrapMethods.toList[index]? = some method) :
    later.bootstrapMethods.toList[index]? = some method := by
  obtain ⟨more, equal⟩ := grown.bootstrapMethods
  rw [← equal, List.getElem?_append_left (List.getElem?_eq_some_iff.mp held).1, held]

lemma Holds.positive {entry : PoolEntry} (holds : pool.Holds index entry) : 0 < index := by
  obtain ⟨before, _, _, rfl⟩ := holds
  omega

end PoolBuilder

def PoolTable.Has (table : PoolTable) (pool : PoolBuilder) : Prop :=
  ∀ index entry, pool.Holds index entry → table.entries[index]? = some (some entry)

lemma PoolTable.Has.mono {later : PoolBuilder} (has : table.Has later)
    (grown : pool.Extends later) : table.Has pool :=
  fun index entry holds => has index entry (holds.mono grown)

lemma PoolTable.Has.entry {index : UInt16} {entry : PoolEntry} (has : table.Has pool)
    (holds : pool.Holds index.toNat entry) :
    table.entry index = .ok entry := by
  rw [PoolTable.entry, has _ _ holds]

namespace PoolBuilder

def NamesHandle (pool : PoolBuilder) (index : UInt16) (handle : Handle) : Prop :=
  ∀ table : PoolTable, table.Has pool → table.methodHandle index = .ok handle

lemma NamesHandle.mono {index : UInt16} {handle : Handle} (names : pool.NamesHandle index handle)
    (grown : pool.Extends later) :
    later.NamesHandle index handle :=
  fun table has => names table (has.mono grown)

/-- The lookup maps of the pool agree with its entries and its bootstrap methods. -/
structure WellFormed (pool : PoolBuilder) : Prop where
  count : pool.count = 1 + totalSize pool.entries.toList
  bounded : pool.count ≤ 0xffff
  indices : ∀ (entry : PoolEntry) (index : UInt16),
    pool.indices[entry]? = some index ↔ pool.Holds index.toNat entry
  bootstrapIndices : ∀ (entry : BootstrapEntry) (index : UInt16),
    pool.bootstrapIndices[entry]? = some index ↔
      pool.bootstrapMethods.toList[index.toNat]? = some entry
  bootstrapBounded : pool.bootstrapMethods.size ≤ 0x10000
  handles : ∀ entry ∈ pool.bootstrapMethods.toList, ∃ handle, pool.NamesHandle entry.handle handle

lemma empty_holds (index : Nat) (entry : PoolEntry) : ¬({} : PoolBuilder).Holds index entry := by
  rintro ⟨before, after, entries, _⟩
  simp at entries

lemma empty_wellFormed : ({} : PoolBuilder).WellFormed where
  count := rfl
  bounded := by decide
  indices entry index := by simp [empty_holds]
  bootstrapIndices entry index := by simp
  bootstrapBounded := by simp
  handles := by simp

lemma WellFormed.index_lt (wf : pool.WellFormed) {entry : PoolEntry}
    (holds : pool.Holds index entry) : index < pool.count := by
  obtain ⟨before, after, entries, rfl⟩ := holds
  have positive := entry.size_cases
  rw [wf.count, entries, totalSize_append, totalSize_cons]
  omega

/-- The pool after a new entry has been added at the next index. -/
def pushed (pool : PoolBuilder) (entry : PoolEntry) : PoolBuilder :=
  { pool with
    entries := pool.entries.push entry
    indices := pool.indices.insert entry (UInt16.ofNat pool.count)
    count := pool.count + entry.size }

lemma pushed_extends (pool : PoolBuilder) (entry : PoolEntry) :
    pool.Extends (pool.pushed entry) :=
  ⟨by simp [pushed], prefix_refl _⟩

/-- A new entry stands at the next index, and the entries before it where they were. -/
lemma pushed_holds (wf : pool.WellFormed) (entry : PoolEntry) (index : Nat)
    (other : PoolEntry) :
    (pool.pushed entry).Holds index other ↔
      pool.Holds index other ∨ (other = entry ∧ index = pool.count) := by
  constructor
  · rintro ⟨before, after, entries, rfl⟩
    simp only [pushed, Array.toList_push] at entries
    rcases eq_nil_or_concat after with rfl | ⟨init, last, rfl⟩
    · obtain ⟨same, last⟩ := append_inj' entries rfl
      rw [wf.count, same]
      exact .inr ⟨(cons.inj last).1.symm, rfl⟩
    · refine .inl ⟨before, init, ?_, rfl⟩
      rw [concat_eq_append, ← cons_append, ← append_assoc] at entries
      exact (append_inj' entries rfl).1
  · rintro (holds | ⟨rfl, rfl⟩)
    · exact holds.mono (pool.pushed_extends entry)
    · exact ⟨pool.entries.toList, [], by simp [pushed], wf.count⟩

lemma pushed_wellFormed (wf : pool.WellFormed) (entry : PoolEntry)
    (new : pool.indices[entry]? = none) (room : pool.count + entry.size ≤ 0xffff) :
    (pool.pushed entry).WellFormed where
  count := by simp [pushed, wf.count, add_assoc]
  bounded := room
  indices other index := by
    have positive := entry.size_cases
    have next : (UInt16.ofNat pool.count).toNat = pool.count :=
      UInt16.toNat_ofNat_of_lt' (show pool.count < 0x10000 by omega)
    rw [pushed_holds wf]
    change (pool.indices.insert entry (UInt16.ofNat pool.count))[other]? = some index ↔ _
    rw [Std.HashMap.getElem?_insert, ← wf.indices]
    split
    · next same =>
      obtain rfl := eq_of_beq same
      rw [new]
      simp only [Option.some.injEq, reduceCtorEq, true_and, false_or]
      rw [← UInt16.toNat_inj, next]
      exact eq_comm
    · next different =>
      have distinct : other ≠ entry := fun same => different (by simp [same])
      simp [distinct]
  bootstrapIndices := wf.bootstrapIndices
  bootstrapBounded := wf.bootstrapBounded
  handles method mem := by
    obtain ⟨handle, names⟩ := wf.handles method mem
    exact ⟨handle, names.mono (pool.pushed_extends entry)⟩

/-- The pool after a new bootstrap method has been added. -/
def pushedBootstrap (pool : PoolBuilder) (entry : BootstrapEntry) : PoolBuilder :=
  { pool with
    bootstrapMethods := pool.bootstrapMethods.push entry
    bootstrapIndices :=
      pool.bootstrapIndices.insert entry (UInt16.ofNat pool.bootstrapMethods.size) }

lemma pushedBootstrap_extends (pool : PoolBuilder) (entry : BootstrapEntry) :
    pool.Extends (pool.pushedBootstrap entry) :=
  ⟨prefix_refl _, by simp [pushedBootstrap]⟩

lemma pushedBootstrap_wellFormed (wf : pool.WellFormed) (entry : BootstrapEntry)
    (new : pool.bootstrapIndices[entry]? = none) (room : pool.bootstrapMethods.size ≤ 0xffff)
    {handle : Handle} (names : pool.NamesHandle entry.handle handle) :
    (pool.pushedBootstrap entry).WellFormed where
  count := wf.count
  bounded := wf.bounded
  indices := wf.indices
  bootstrapIndices other index := by
    have next : (UInt16.ofNat pool.bootstrapMethods.size).toNat = pool.bootstrapMethods.size :=
      UInt16.toNat_ofNat_of_lt' (show pool.bootstrapMethods.size < 0x10000 by omega)
    change (pool.bootstrapIndices.insert entry _)[other]? = some index ↔
      (pool.bootstrapMethods.push entry).toList[index.toNat]? = some other
    rw [Std.HashMap.getElem?_insert, Array.toList_push, getElem?_append]
    split
    · next same =>
      obtain rfl := eq_of_beq same
      have absent : pool.bootstrapMethods.toList[index.toNat]? ≠ some entry := by
        rw [ne_eq, ← wf.bootstrapIndices, new]
        simp
      simp only [Option.some.injEq, ← UInt16.toNat_inj, next, Array.length_toList]
      constructor
      · rintro equal
        simp [← equal]
      · split
        · exact fun found => absurd found absent
        · next outside =>
          intro found
          have inside := List.getElem?_eq_some_iff.mp found
          simp at inside
          omega
    · next different =>
      have distinct : entry ≠ other := fun same => different (by simp [same])
      rw [wf.bootstrapIndices]
      split
      · rfl
      · next outside =>
        rw [getElem?_eq_none (by omega)]
        simp only [reduceCtorEq, false_iff]
        intro found
        have inside := List.getElem?_eq_some_iff.mp found
        simp at inside
        exact distinct inside.2
  bootstrapBounded := by simp [pushedBootstrap]; omega
  handles method mem := by
    simp only [pushedBootstrap, Array.toList_push, mem_append, mem_singleton] at mem
    rcases mem with mem | rfl
    · obtain ⟨found, names⟩ := wf.handles method mem
      exact ⟨found, names.mono (pool.pushedBootstrap_extends entry)⟩
    · exact ⟨handle, names.mono (pool.pushedBootstrap_extends _)⟩

end PoolBuilder

end JvmAsm
