/- Says when constants find room in a pool. -/
import JvmAsm.Proofs.Pool.History

namespace JvmAsm

open List

/--
Some constants with all that they refer to. They are few enough for a pool to hold them all and one
more, and their bytes can be written.
-/
structure Supply where
  constants : List Constant
  room : 2 * (constants.length + 1) < 0xffff
  closed : ∀ constant ∈ constants, ∀ part ∈ constant.parts, part ∈ constants
  strings : ∀ value, .utf8 value ∈ constants → value.toBytes.length ≤ 0xffff
  arguments : ∀ method ∈ constants.filterMap Constant.bootstrap?, method.2.length ≤ 0xffff

def Supply.vocabulary (supply : Supply) : PoolBuilder.Vocabulary :=
  ⟨(· ∈ supply.constants), supply.closed⟩

/-- A list is not longer than one in which each of its elements has a partner of its own. -/
lemma length_le_of_partners {α β : Type} {xs : List α} {others : List β}
    (related : α → β → Prop) (distinct : xs.Nodup)
    (partners : ∀ value ∈ xs, ∃ other ∈ others, related value other)
    (unique : ∀ value value' other, related value other → related value' other → value = value') :
    xs.length ≤ others.length := by
  choose partner listed partnered using partners
  have once : (xs.pmap partner fun _ => id).Nodup :=
    distinct.pmap fun value here value' there same =>
      unique value value' _ (partnered value here) (same ▸ partnered value' there)
  have inside : xs.pmap partner (fun _ => id) ⊆ others := by
    intro other mem
    obtain ⟨value, here, rfl⟩ := mem_pmap.mp mem
    exact listed value here
  simpa using (subperm_of_subset once inside).length_le

namespace PoolBuilder

variable {α β : Type} {supply : Supply} {pool : PoolBuilder} {constant : Constant}

/-- Everything in the pool stands for a constant of the supply. -/
abbrev Within (supply : Supply) (pool : PoolBuilder) : Prop := pool.Comprises supply.vocabulary

lemma empty_within (supply : Supply) : ({} : PoolBuilder).Within supply := empty_comprises _

lemma Stores.index_eq {index index' : UInt16} (wf : pool.WellFormed)
    (stores : pool.Stores index constant) (stores' : pool.Stores index' constant) :
    index = index' := by
  have same := stores.settled pool (.refl pool) wf
  rw [stores'.settled pool (.refl pool) wf] at same
  cases same
  rfl

lemma StoresMethod.method_eq {method method' : BootstrapEntry} {key : Handle × List Loadable}
    (wf : pool.WellFormed) (stores : pool.StoresMethod method key)
    (stores' : pool.StoresMethod method' key) : method = method' :=
  congrArg₂ BootstrapEntry.mk (stores.1.index_eq wf stores'.1)
    (left_unique_forall₂' (fun _ _ _ part part' => part.index_eq wf part') stores.2
      stores'.2)

namespace Within

section

variable (within : pool.Within supply)
include within

lemma entries_le :
    pool.entries.toList.length ≤ supply.constants.length := by
  refine length_le_of_partners (fun entry constant => ∃ index : UInt16,
    pool.Holds index.toNat entry ∧ pool.Stores index constant) within.distinct ?_ ?_
  · intro entry mem
    obtain ⟨index, found⟩ := within.mem_entries mem
    have holds := (within.indices entry index).mp found
    obtain ⟨constant, listed, stores⟩ := within.entries index entry holds
    exact ⟨constant, listed, index, holds, stores⟩
  · rintro entry entry' constant ⟨index, holds, stores⟩ ⟨index', holds', stores'⟩
    obtain rfl := stores.index_eq within.toWellFormed stores'
    exact holds.entry_eq holds'

lemma bootstrapMethods_le :
    pool.bootstrapMethods.toList.length ≤ supply.constants.length := by
  refine length_le_of_partners (fun method constant => ∃ key, constant.bootstrap? = some key ∧
    pool.StoresMethod method key) within.distinctMethods ?_ ?_
  · intro method mem
    obtain ⟨constant, key, listed, named, stores⟩ := within.bootstraps method mem
    exact ⟨constant, listed, key, named, stores⟩
  · rintro method method' constant ⟨key, named, stores⟩ ⟨key', named', stores'⟩
    rw [named] at named'
    cases named'
    exact stores.method_eq within.toWellFormed stores'

lemma not_isFull : ¬pool.IsFull := by
  have small (entries : List PoolEntry) : PoolEntry.totalSize entries ≤ 2 * entries.length := by
    induction entries with
    | nil => exact le_refl 0
    | cons entry rest ih =>
      have wide := entry.size_cases
      rw [PoolEntry.totalSize_cons, length_cons]
      omega
  have taken := small pool.entries.toList
  have few := within.entries_le
  have few' := within.bootstrapMethods_le
  have room := supply.room
  have count := within.count
  rw [Array.length_toList] at few'
  rintro (full | full) <;> omega

/-- The bytes of a pool whose strings are those of the supply can be written. -/
lemma bytes_ok : ∃ bytes, pool.bytes = .ok bytes := by
  have each : ∀ entry ∈ pool.entries.toList, ∃ bytes, entry.bytes = .ok bytes := by
    intro entry mem
    cases entry with
    | utf8 value =>
      obtain ⟨index, found⟩ := within.mem_entries mem
      have holds := (within.indices _ index).mp found
      obtain ⟨constant, listed, stores⟩ := within.entries index _ holds
      obtain ⟨entry, _, holds', forms, -⟩ := stores.parts
      obtain rfl := holds.entry_eq holds'
      cases forms
      exact ⟨_, by rw [PoolEntry.bytes, Binary.size16, if_pos (supply.strings value listed)]; rfl⟩
    | _ => exact ⟨_, rfl⟩
  obtain ⟨found, mapped⟩ := exists_ok_mapM each
  exact ⟨_, by rw [PoolBuilder.bytes, mapped]; rfl⟩

lemma arguments_le {method : BootstrapEntry}
    (mem : method ∈ pool.bootstrapMethods) : method.arguments.length ≤ 0xffff := by
  obtain ⟨constant, key, listed, named, -, given⟩ :=
    within.bootstraps method (Array.mem_def.mp mem)
  rw [given.length_eq, length_map]
  exact supply.arguments key (mem_filterMap.mpr ⟨constant, listed, named⟩)

end

end Within

/-- The action finds room for all that it adds. The value that it gives is good. -/
def Manages (supply : Supply) (action : PoolM α) (good : α → Prop) : Prop :=
  ∀ pool, pool.Within supply → ∃ value later, action pool = .ok value later ∧
    later.Within supply ∧ good value

namespace Manages

variable {good : α → Prop} {better : β → Prop}

lemma pure {value : α} (holds : good value) : Manages supply (Pure.pure value) good :=
  fun pool within => ⟨value, pool, rfl, within, holds⟩

lemma bind {action : PoolM α} {next : α → PoolM β} (first : Manages supply action good)
    (second : ∀ value, good value → Manages supply (next value) better) :
    Manages supply (action >>= next) better := by
  intro pool within
  obtain ⟨value, between, ran, within, holds⟩ := first pool within
  obtain ⟨result, last, ran', within, holds'⟩ := second value holds between within
  exact ⟨result, last, ran_bind ran ran', within, holds'⟩

end Manages

/-- The action finds room for the constant that it adds. -/
def Adds (supply : Supply) (action : PoolM UInt16) : Prop := Manages supply action fun _ => True

lemma intern_adds (listed : constant ∈ supply.constants) : Adds supply (intern constant) := by
  intro pool within
  obtain ⟨within', -, -, full⟩ :=
    @intern_keeps supply.vocabulary _ constant listed pool within fun _ _ => trivial
  unfold leaves at within'
  cases ran : intern constant pool with
  | ok index later =>
    rw [ran] at within'
    exact ⟨index, later, rfl, within', trivial⟩
  | error failure later =>
    rw [ran] at within'
    exact absurd (full failure later ran) (Within.not_isFull within')

lemma loadable_adds {value : Loadable} (listed : value.constant ∈ supply.constants) :
    Adds supply (loadable value) :=
  intern_constant value ▸ intern_adds listed

lemma methodRef_adds {method : MethodRef} {onInterface : Bool}
    (listed : .ofMethod method onInterface ∈ supply.constants) :
    Adds supply (methodRef method onInterface) :=
  intern_ofMethod method onInterface ▸ intern_adds listed

lemma optional_adds {intern : α → PoolM UInt16} {value? : Option α}
    (adds : ∀ value, value? = some value → Adds supply (intern value)) :
    Adds supply (optional intern value?) := by
  cases value? with
  | none => exact .pure trivial
  | some value => exact adds value rfl

end PoolBuilder

end JvmAsm
