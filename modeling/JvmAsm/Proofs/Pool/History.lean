/-
Follows pools through any calls that intern constants, whether these succeed or fail: what a call
has added before it failed stays in the pool.
-/
import JvmAsm.Proofs.Pool.Storing

namespace JvmAsm

open Binary List UInt16

variable {handle : Handle} {method : BootstrapEntry} {xs : List Loadable}

/-- Whether an entry is of a kind that is asked for. -/
def Binary.EntryKind.accepts : EntryKind → PoolEntry → Bool
  | .utf8, .utf8 _ => true
  | .integer, .integer _ => true
  | .float, .float _ => true
  | .long, .long _ => true
  | .double, .double _ => true
  | .className, .className _ => true
  | .string, .string _ => true
  | .fieldRef, .fieldRef .. => true
  | .methodRef, .methodRef .. => true
  | .interfaceMethodRef, .interfaceMethodRef .. => true
  | .anyMethodRef, .methodRef .. => true
  | .anyMethodRef, .interfaceMethodRef .. => true
  | .nameAndType, .nameAndType .. => true
  | .methodHandle, .methodHandle .. => true
  | .methodType, .methodType _ => true
  | .dynamic, .dynamic .. => true
  | .invokeDynamic, .invokeDynamic .. => true
  | _, _ => false

namespace PoolEntry

def handledKind (code : UInt8) : EntryKind :=
  if code ≤ 4 then .fieldRef
  else if code = 6 ∨ code = 7 then .anyMethodRef
  else if code = 9 then .interfaceMethodRef
  else .methodRef

/-- The indices in an entry, each with the kind of entry that has to stand there. -/
def references : PoolEntry → List (EntryKind × UInt16)
  | .className text | .string text | .methodType text | .moduleName text | .packageName text =>
    [(.utf8, text)]
  | .fieldRef owner pair | .methodRef owner pair | .interfaceMethodRef owner pair =>
    [(.className, owner), (.nameAndType, pair)]
  | .nameAndType name descriptor => [(.utf8, name), (.utf8, descriptor)]
  | .methodHandle code reference => [(handledKind code, reference)]
  | .dynamic _ pair | .invokeDynamic _ pair => [(.nameAndType, pair)]
  | _ => []

/-- The index of the bootstrap method in an entry. -/
def method? : PoolEntry → Option UInt16
  | .dynamic method _ | .invokeDynamic method _ => some method
  | _ => none

/-- Whether code can load what the entry stands for, and a bootstrap method be given it. -/
def isLoadable : PoolEntry → Bool
  | .integer _ | .float _ | .long _ | .double _ | .className _ | .string _ | .methodHandle ..
  | .methodType _ | .dynamic .. => true
  | _ => false

end PoolEntry

def Constant.kind : Constant → EntryKind
  | .utf8 _ => .utf8
  | .integer _ => .integer
  | .float _ => .float
  | .long _ => .long
  | .double _ => .double
  | .className _ => .className
  | .string _ => .string
  | .fieldRef _ => .fieldRef
  | .methodRef _ => .methodRef
  | .interfaceMethodRef _ => .interfaceMethodRef
  | .nameAndType .. => .nameAndType
  | .methodHandle _ => .methodHandle
  | .methodType _ => .methodType
  | .dynamic .. => .dynamic
  | .invokeDynamic _ => .invokeDynamic

namespace PoolBuilder

variable {α β : Type} {pool later : PoolBuilder} {kind : EntryKind} {index : UInt16}
  {constant : Constant} {indices : List UInt16} {entry : PoolEntry}

def Links (pool : PoolBuilder) (kind : EntryKind) (index : UInt16) : Prop :=
  ∃ target, pool.Holds index.toNat target ∧ kind.accepts target = true

lemma Links.mono (links : pool.Links kind index) (grown : pool.Extends later) :
    later.Links kind index := by
  obtain ⟨target, holds, accepted⟩ := links
  exact ⟨target, holds.mono grown, accepted⟩

/-- The index leads to an entry that can be loaded. -/
def LeadsToLoadable (pool : PoolBuilder) (index : UInt16) : Prop :=
  ∃ target, pool.Holds index.toNat target ∧ target.isLoadable = true

lemma LeadsToLoadable.mono (leads : pool.LeadsToLoadable index) (grown : pool.Extends later) :
    later.LeadsToLoadable index := by
  obtain ⟨target, holds, loadable⟩ := leads
  exact ⟨target, holds.mono grown, loadable⟩

/--
The lookup maps of the pool agree with its entries and its bootstrap methods, of which none is there
twice, and all indices in them lead to what has been there before.
-/
structure IsSound (pool : PoolBuilder) : Prop extends pool.WellFormed where
  distinct : pool.entries.toList.Nodup
  references : ∀ index entry, pool.Holds index entry → ∀ reference ∈ entry.references,
    reference.2.toNat < index ∧ pool.Links reference.1 reference.2
  methods : ∀ index entry, pool.Holds index entry → ∀ method, entry.method? = some method →
    method.toNat < pool.bootstrapMethods.size
  distinctMethods : pool.bootstrapMethods.toList.Nodup
  handled : ∀ method ∈ pool.bootstrapMethods.toList, pool.Links .methodHandle method.handle
  arguments : ∀ method ∈ pool.bootstrapMethods.toList, ∀ argument ∈ method.arguments,
    pool.LeadsToLoadable argument

lemma empty_isSound : ({} : PoolBuilder).IsSound where
  toWellFormed := empty_wellFormed
  distinct := by simp
  references index entry holds := absurd holds (empty_holds index entry)
  methods index entry holds := absurd holds (empty_holds index entry)
  distinctMethods := by simp
  handled := by simp
  arguments := by simp

lemma Stores.links (stores : pool.Stores index constant) : pool.Links constant.kind index := by
  obtain ⟨entry, indices, holds, forms, -⟩ := stores.parts
  exact ⟨entry, holds, by cases forms <;> rfl⟩

lemma Stores.leadsToLoadable {value : Loadable} (stores : pool.Stores index value.constant) :
    pool.LeadsToLoadable index := by
  obtain ⟨entry, indices, holds, forms, -⟩ := stores.parts
  refine ⟨entry, holds, ?_⟩
  cases value <;> cases forms <;> rfl

lemma Links.anyMethodRef {method : MethodRef} {onInterface : Bool}
    (links : pool.Links (Constant.ofMethod method onInterface).kind index) :
    pool.Links .anyMethodRef index := by
  obtain ⟨target, holds, accepted⟩ := links
  refine ⟨target, holds, ?_⟩
  cases onInterface <;> cases target <;> first | rfl | contradiction

lemma Links.handled {kind : MethodHandleKind} {method : MethodRef}
    (links : pool.Links (Constant.ofMethod method kind.onInterface).kind index) :
    pool.Links (PoolEntry.handledKind kind.code) index := by
  cases kind with
  | virtual => exact links
  | static => exact links.anyMethodRef
  | special => exact links.anyMethodRef
  | constructor => exact links
  | interface => exact links

/-- The indices in an entry lead to entries of the right kinds if they stand for its parts. -/
lemma Forms.links (forms : pool.Forms constant indices entry)
    (parts : Forall₂ pool.Stores indices constant.parts) :
    ∀ reference ∈ entry.references, pool.Links reference.1 reference.2 := by
  cases forms with
  | className | string | methodType =>
    obtain _ | ⟨first, _⟩ := parts
    exact forall_mem_singleton.mpr first.links
  | fieldRef | methodRef | interfaceMethodRef | nameAndType =>
    obtain _ | ⟨first, _ | ⟨second, _⟩⟩ := parts
    exact forall_mem_cons.mpr ⟨first.links, forall_mem_singleton.mpr second.links⟩
  | methodHandle handle code reference coded =>
    subst coded
    cases handle with
    | field kind field =>
      obtain _ | ⟨first, _⟩ := parts
      refine forall_mem_singleton.mpr ?_
      cases kind <;> exact first.links
    | method kind method =>
      obtain _ | ⟨first, _⟩ := parts
      exact forall_mem_singleton.mpr first.links.handled
  | dynamic | invokeDynamic =>
    obtain _ | ⟨first, _⟩ := parts
    exact forall_mem_singleton.mpr first.links
  | _ => exact fun _ mem => absurd mem not_mem_nil

lemma Forms.method_lt (forms : pool.Forms constant indices entry) {method : UInt16}
    (named : entry.method? = some method) : method.toNat < pool.bootstrapMethods.size := by
  cases forms with
  | dynamic name type handle xs method' pair handleIndex indices held =>
    cases named
    simpa using (List.getElem?_eq_some_iff.mp held).1
  | invokeDynamic site method' pair handleIndex indices held =>
    cases named
    simpa using (List.getElem?_eq_some_iff.mp held).1
  | _ => cases named

lemma WellFormed.mem_entries (wf : pool.WellFormed) (mem : entry ∈ pool.entries.toList) :
    ∃ index, pool.indices[entry]? = some index := by
  obtain ⟨before, after, split⟩ := append_of_mem mem
  have holds : pool.Holds (1 + PoolEntry.totalSize before) entry := ⟨before, after, split, rfl⟩
  have small : 1 + PoolEntry.totalSize before < 0x10000 :=
    lt_of_lt_of_le (wf.index_lt holds) (Nat.le_succ_of_le wf.bounded)
  refine ⟨ofNat (1 + PoolEntry.totalSize before), (wf.indices entry _).mpr ?_⟩
  rwa [toNat_ofNat_of_lt' small]

lemma WellFormed.mem_bootstrapMethods (wf : pool.WellFormed)
    (mem : method ∈ pool.bootstrapMethods.toList) :
    ∃ index, pool.bootstrapIndices[method]? = some index := by
  obtain ⟨place, found⟩ := List.mem_iff_getElem?.mp mem
  have bounded := wf.bootstrapBounded
  have inside := (List.getElem?_eq_some_iff.mp found).1
  rw [Array.length_toList] at inside
  have small : place < 0x10000 := by omega
  refine ⟨ofNat place, (wf.bootstrapIndices method _).mpr ?_⟩
  rwa [toNat_ofNat_of_lt' small]

/-- A new entry refers to entries that stand before it. -/
lemma pushed_isSound (sound : pool.IsSound) (new : pool.indices[entry]? = none)
    (room : pool.count + entry.size ≤ 0xffff)
    (links : ∀ reference ∈ entry.references, pool.Links reference.1 reference.2)
    (methods : ∀ method, entry.method? = some method →
      method.toNat < pool.bootstrapMethods.size) : (pool.pushed entry).IsSound where
  toWellFormed := pushed_wellFormed sound.toWellFormed entry new room
  distinct := by
    have absent : entry ∉ pool.entries.toList := by
      intro mem
      obtain ⟨index, found⟩ := sound.mem_entries mem
      rw [new] at found
      cases found
    rw [pushed, Array.toList_push, ← concat_eq_append]
    exact sound.distinct.concat absent
  references index other holds reference mem := by
    have grown := pool.pushed_extends entry
    rcases (pushed_holds sound.toWellFormed entry index other).mp holds with old | ⟨rfl, rfl⟩
    · obtain ⟨earlier, links⟩ := sound.references index other old reference mem
      exact ⟨earlier, links.mono grown⟩
    · obtain ⟨target, got, accepted⟩ := links reference mem
      exact ⟨sound.index_lt got, target, got.mono grown, accepted⟩
  methods index other holds method named := by
    rcases (pushed_holds sound.toWellFormed entry index other).mp holds with old | ⟨rfl, rfl⟩
    · exact sound.methods index other old method named
    · exact methods method named
  distinctMethods := sound.distinctMethods
  handled method mem := (sound.handled method mem).mono (pool.pushed_extends entry)
  arguments method mem argument given :=
    (sound.arguments method mem argument given).mono (pool.pushed_extends entry)

/-- A new bootstrap method is given what has been added before. -/
lemma pushedBootstrap_isSound (sound : pool.IsSound)
    (new : pool.bootstrapIndices[method]? = none) (room : pool.bootstrapMethods.size ≤ 0xffff)
    (names : pool.NamesHandle method.handle handle)
    (handled : pool.Links .methodHandle method.handle)
    (arguments : ∀ argument ∈ method.arguments, pool.LeadsToLoadable argument) :
    (pool.pushedBootstrap method).IsSound where
  toWellFormed := pushedBootstrap_wellFormed sound.toWellFormed method new room names
  distinct := sound.distinct
  references index entry holds reference mem := by
    obtain ⟨earlier, links⟩ := sound.references index entry holds reference mem
    exact ⟨earlier, links⟩
  methods index entry holds other named := by
    have inside := sound.methods index entry holds other named
    rw [pushedBootstrap, Array.size_push]
    omega
  distinctMethods := by
    have absent : method ∉ pool.bootstrapMethods.toList := by
      intro mem
      obtain ⟨index, found⟩ := sound.mem_bootstrapMethods mem
      rw [new] at found
      cases found
    rw [pushedBootstrap, Array.toList_push, ← concat_eq_append]
    exact sound.distinctMethods.concat absent
  handled other mem := by
    rw [pushedBootstrap, Array.toList_push, mem_append, mem_singleton] at mem
    rcases mem with old | rfl
    · exact sound.handled other old
    · exact handled
  arguments other mem := by
    rw [pushedBootstrap, Array.toList_push, mem_append, mem_singleton] at mem
    rcases mem with old | rfl
    · exact sound.arguments other old
    · exact arguments

/-- Constants with all that they refer to. -/
structure Vocabulary where
  Lists : Constant → Prop
  closed : ∀ constant, Lists constant → ∀ part ∈ constant.parts, Lists part

/-- All constants there are. -/
def Vocabulary.all : Vocabulary := ⟨fun _ => True, fun _ _ _ _ => trivial⟩

/-- The bootstrap method is that of the handle and the values. -/
def StoresMethod (pool : PoolBuilder) (method : BootstrapEntry) (key : Handle × List Loadable) :
    Prop :=
  pool.Stores method.handle (.methodHandle key.1) ∧
    Forall₂ pool.Stores method.arguments (key.2.map Loadable.constant)

lemma StoresMethod.mono {key : Handle × List Loadable} (stores : pool.StoresMethod method key)
    (grown : pool.Extends later) : later.StoresMethod method key :=
  ⟨stores.1.mono grown, stores.2.imp fun _ _ part => part.mono grown⟩

structure Comprises (words : Vocabulary) (pool : PoolBuilder) : Prop extends pool.IsSound where
  entries : ∀ (index : UInt16) entry, pool.Holds index.toNat entry →
    ∃ constant, words.Lists constant ∧ pool.Stores index constant
  bootstraps : ∀ method ∈ pool.bootstrapMethods.toList, ∃ constant key,
    words.Lists constant ∧ constant.bootstrap? = some key ∧ pool.StoresMethod method key

lemma empty_comprises (words : Vocabulary) : ({} : PoolBuilder).Comprises words where
  toIsSound := empty_isSound
  entries index entry holds := absurd holds (empty_holds _ entry)
  bootstraps := by simp

variable {words : Vocabulary} {before : PoolBuilder → Prop}

lemma pushed_comprises (comprises : pool.Comprises words)
    (new : pool.indices[entry]? = none) (room : pool.count + entry.size ≤ 0xffff)
    (listed : words.Lists constant) (forms : pool.Forms constant indices entry)
    (parts : Forall₂ pool.Stores indices constant.parts) :
    (pool.pushed entry).Comprises words where
  toIsSound := pushed_isSound comprises.toIsSound new room (forms.links parts)
    fun _ => forms.method_lt
  entries index other holds := by
    have grown := pool.pushed_extends entry
    rcases (pushed_holds comprises.toWellFormed entry _ other).mp holds with old | ⟨rfl, _⟩
    · obtain ⟨constant, listed, stores⟩ := comprises.entries index other old
      exact ⟨constant, listed, stores.mono grown⟩
    · exact ⟨constant, listed, .of_parts holds (forms.mono grown)
        (parts.imp fun _ _ part => part.mono grown)⟩
  bootstraps method mem := by
    obtain ⟨constant, key, listed, named, stores⟩ := comprises.bootstraps method mem
    exact ⟨constant, key, listed, named, stores.mono (pool.pushed_extends entry)⟩

/-- The pool may have no room for one more entry or one more bootstrap method. -/
def IsFull (pool : PoolBuilder) : Prop :=
  0xffff < pool.count + 2 ∨ 0xffff < pool.bootstrapMethods.size

/-- The pool that an action leaves, whether it succeeds or fails. -/
def leaves (action : PoolM α) (pool : PoolBuilder) : PoolBuilder :=
  match action pool with
  | .ok _ later => later
  | .error _ later => later

/--
An action lets sound pools grow into sound pools, whether it succeeds or fails, and fails only if
the pool is full. What is known before it, and after it if it succeeds, holds for all pools that the
pool grows into.
-/
structure Keeps.From (words : Vocabulary) (action : PoolM α)
    (after : α → PoolBuilder → Prop) (pool : PoolBuilder) : Prop where
  comprises : (leaves action pool).Comprises words
  grown : pool.Extends (leaves action pool)
  gives : ∀ value later, action pool = .ok value later → ∀ last, later.Extends last → after value last
  full : ∀ failure later, action pool = .error failure later → later.IsFull

def Keeps (words : Vocabulary) (before : PoolBuilder → Prop) (action : PoolM α)
    (after : α → PoolBuilder → Prop) : Prop :=
  ∀ pool, pool.Comprises words → (∀ later, pool.Extends later → before later) →
    Keeps.From words action after pool

namespace Keeps

variable {action : PoolM α} {after : α → PoolBuilder → Prop}

lemma From.of_ok {value : α} (ran : action pool = .ok value later)
    (comprises : later.Comprises words) (grown : pool.Extends later)
    (gives : ∀ last, later.Extends last → after value last) :
    From words action after pool where
  comprises := by rwa [leaves, ran]
  grown := by rwa [leaves, ran]
  gives := by
    rintro _ _ same
    cases ran.symm.trans same
    exact gives
  full := by
    intro failure last failed
    rw [ran] at failed
    cases failed

lemma From.of_error {failure : Failure} (ran : action pool = .error failure later)
    (comprises : later.Comprises words) (grown : pool.Extends later) (full : later.IsFull) :
    From words action after pool where
  comprises := by rwa [leaves, ran]
  grown := by rwa [leaves, ran]
  gives := by
    intro value last same
    rw [ran] at same
    cases same
  full := by
    rintro _ _ failed
    cases ran.symm.trans failed
    exact full

lemma pure {value : α} (holds : ∀ pool, before pool → after value pool) :
    Keeps words before (Pure.pure value) after :=
  fun pool comprises known => .of_ok rfl comprises (.refl pool) fun last grown =>
    holds last (known last grown)

lemma bind {next : α → PoolM β} {last : β → PoolBuilder → Prop}
    (first : Keeps words before action after)
    (second : ∀ value, Keeps words (fun pool => before pool ∧ after value pool) (next value)
      last) : Keeps words before (action >>= next) last := by
  intro pool comprises known
  obtain ⟨comprises', grown, gives, full⟩ := first pool comprises known
  cases ran : action pool with
  | error failure between =>
    simp only [leaves, ran] at comprises' grown
    exact .of_error (failed_bind ran) comprises' grown (full failure between ran)
  | ok value between =>
    have same : (action >>= next) pool = next value between := ran_bind ran rfl
    simp only [leaves, ran] at comprises' grown
    obtain ⟨comprises'', grown', gives', full'⟩ := second value between comprises'
      fun later more => ⟨known later (grown.trans more), gives value between ran later more⟩
    simp only [leaves] at comprises'' grown'
    rw [← same] at comprises'' grown' gives' full'
    exact ⟨comprises'', grown.trans grown', gives', full'⟩

lemma weaken {after' : α → PoolBuilder → Prop} (keeps : Keeps words before action after')
    (implies : ∀ value pool, before pool → after' value pool → after value pool) :
    Keeps words before action after := by
  intro pool comprises known
  obtain ⟨comprises', grown, gives, full⟩ := keeps pool comprises known
  refine ⟨comprises', grown, fun value later ran last more =>
    implies value last ?_ (gives _ _ ran _ more), full⟩
  simp only [leaves, ran] at grown
  exact known last (grown.trans more)

end Keeps

/-- Once its parts are there, a constant is given an entry. -/
lemma put_keeps (listed : words.Lists constant)
    (formed : ∀ pool, before pool → ∃ indices,
      pool.Forms constant indices entry ∧ Forall₂ pool.Stores indices constant.parts) :
    Keeps words before (put entry) fun index pool => pool.Stores index constant := by
  intro pool comprises known
  obtain ⟨indices, forms, parts⟩ := formed pool (known pool (.refl pool))
  have size := entry.size_cases
  have stores {index : UInt16} {later : PoolBuilder} (grown : pool.Extends later)
      (holds : later.Holds index.toNat entry) (last : PoolBuilder) (more : later.Extends last) :
      last.Stores index constant := by
    obtain ⟨indices, forms, parts⟩ := formed last (known last (grown.trans more))
    exact .of_parts (holds.mono more) forms parts
  cases got : pool.indices[entry]? with
  | some index =>
    refine .of_ok (by rw [put, got]) comprises (.refl pool) ?_
    exact stores (.refl pool) ((comprises.indices entry index).mp got)
  | none =>
    by_cases room : pool.count + entry.size ≤ 0xffff
    · have next : (ofNat pool.count).toNat = pool.count :=
        toNat_ofNat_of_lt' (show pool.count < 0x10000 by omega)
      have ran : put entry pool = .ok (ofNat pool.count) (pool.pushed entry) := by
        rw [put, got, if_pos room]
        rfl
      exact .of_ok ran (pushed_comprises comprises got room listed forms parts)
        (pool.pushed_extends entry) (stores (pool.pushed_extends entry)
          ((pushed_holds comprises.toWellFormed entry _ entry).mpr (.inr ⟨rfl, next⟩)))
    · refine .of_error (by rw [put, got, if_neg room]) comprises (.refl pool) (.inl ?_)
      omega

lemma Stores.yielded {after : UInt16 → PoolBuilder → Prop} (stores : pool.Stores index constant)
    (wf : pool.WellFormed) (yields : Yields (fun _ => True) (intern constant) after) :
    after index pool :=
  (yields pool index pool wf (fun _ _ => trivial)
    (stores.settled pool (.refl pool) wf)).2.2 pool (.refl pool)

/-- A table gives the handle that an index stands for. -/
lemma Stores.namesHandle (wf : pool.WellFormed)
    (stores : pool.Stores index (.methodHandle handle)) : pool.NamesHandle index handle :=
  (stores.yielded wf (methodHandle_yields handle)).1.2

lemma pushedBootstrap_comprises {key : Handle × List Loadable}
    (comprises : pool.Comprises words) (new : pool.bootstrapIndices[method]? = none)
    (room : pool.bootstrapMethods.size ≤ 0xffff) (listed : words.Lists constant)
    (named : constant.bootstrap? = some key) (stores : pool.StoresMethod method key) :
    (pool.pushedBootstrap method).Comprises words where
  toIsSound := by
    refine pushedBootstrap_isSound comprises.toIsSound new room
      (stores.1.namesHandle comprises.toWellFormed) stores.1.links fun argument mem => ?_
    obtain ⟨value, -, given⟩ :=
      forall₂_mem_right (forall₂_map_right_iff.mp stores.2).flip mem
    exact given.leadsToLoadable
  entries index entry holds := by
    obtain ⟨constant, listed, stores⟩ := comprises.entries index entry holds
    exact ⟨constant, listed, stores.mono (pool.pushedBootstrap_extends method)⟩
  bootstraps other mem := by
    have grown := pool.pushedBootstrap_extends method
    rw [pushedBootstrap, Array.toList_push, mem_append, mem_singleton] at mem
    rcases mem with old | rfl
    · obtain ⟨constant, key, listed, named, stores⟩ := comprises.bootstraps other old
      exact ⟨constant, key, listed, named, stores.mono grown⟩
    · exact ⟨constant, key, listed, named, stores.mono grown⟩

/-- The bootstrap method of a handle and some arguments that are there is added. -/
lemma putBootstrap_keeps (listed : words.Lists constant)
    (named : constant.bootstrap? = some (handle, xs))
    (stores : ∀ pool, before pool → pool.StoresMethod method (handle, xs)) :
    Keeps words before (putBootstrap handle method) fun index pool =>
      pool.bootstrapMethods.toList[index.toNat]? = some method := by
  intro pool comprises known
  cases got : pool.bootstrapIndices[method]? with
  | some index =>
    refine .of_ok (by rw [putBootstrap, got]) comprises (.refl pool) fun last more => ?_
    exact more.bootstrapMethod ((comprises.bootstrapIndices method index).mp got)
  | none =>
    by_cases room : pool.bootstrapMethods.size ≤ 0xffff
    · have ran : putBootstrap handle method pool =
          .ok (ofNat pool.bootstrapMethods.size) (pool.pushedBootstrap method) := by
        rw [putBootstrap, got, if_pos room]
        rfl
      have next : (ofNat pool.bootstrapMethods.size).toNat = pool.bootstrapMethods.size :=
        toNat_ofNat_of_lt' (show pool.bootstrapMethods.size < 0x10000 by omega)
      refine .of_ok ran (pushedBootstrap_comprises comprises got room listed named
        (stores pool (known pool (.refl pool)))) (pool.pushedBootstrap_extends method)
        fun last more => more.bootstrapMethod ?_
      rw [next]
      simp [pushedBootstrap]
    · refine .of_error (by rw [putBootstrap, got, if_neg room]) comprises (.refl pool)
        (.inr ?_)
      omega

section Interning

lemma javaUtf8_keeps {value : JavaString} (listed : words.Lists (.utf8 value)) :
    Keeps words before (javaUtf8 value) fun index pool => pool.Stores index (.utf8 value) :=
  put_keeps listed fun _ _ => ⟨_, .utf8 value, .nil⟩

lemma text_keeps {value : JavaString} {make : UInt16 → PoolEntry}
    (listed : words.Lists constant) (parts : constant.parts = [.utf8 value])
    (forms : ∀ pool : PoolBuilder, ∀ text, pool.Forms constant [text] (make text)) :
    Keeps words before (do put (make (← javaUtf8 value))) fun index pool =>
      pool.Stores index constant := by
  have referred := words.closed _ listed
  rw [parts, forall_mem_singleton] at referred
  exact (javaUtf8_keeps referred).bind fun text => put_keeps listed fun pool known =>
    ⟨_, forms pool text, parts ▸ .cons known.2 .nil⟩

lemma className_keeps {name : ClassName} (listed : words.Lists (.className name)) :
    Keeps words before (className name) fun index pool =>
      pool.Stores index (.className name) :=
  text_keeps listed rfl fun _ => .className name

lemma nameAndType_keeps {name descriptor : String}
    (listed : words.Lists (.nameAndType name descriptor)) :
    Keeps words before (nameAndType name descriptor) fun index pool =>
      pool.Stores index (.nameAndType name descriptor) := by
  have referred := words.closed _ listed
  exact (javaUtf8_keeps (referred _ (.head _))).bind fun first =>
    (javaUtf8_keeps (referred _ (.tail _ (.head _)))).bind fun second =>
      put_keeps listed fun _ known =>
        ⟨_, .nameAndType name descriptor first second, .cons known.1.2 (.cons known.2 .nil)⟩

lemma member_keeps {owner : ClassName} {name descriptor : String}
    {make : UInt16 → UInt16 → PoolEntry} (listed : words.Lists constant)
    (parts : constant.parts = [.className owner, .nameAndType name descriptor])
    (forms : ∀ pool : PoolBuilder, ∀ first second,
      pool.Forms constant [first, second] (make first second)) :
    Keeps words before (do
      let index ← className owner
      put (make index (← nameAndType name descriptor))) fun index pool =>
      pool.Stores index constant := by
  have referred := words.closed _ listed
  rw [parts] at referred
  exact (className_keeps (referred _ (.head _))).bind fun first =>
    (nameAndType_keeps (referred _ (.tail _ (.head _)))).bind fun second =>
      put_keeps listed fun pool known =>
        ⟨_, forms pool first second, parts ▸ .cons known.1.2 (.cons known.2 .nil)⟩

lemma fieldRef_keeps {field : FieldRef} (listed : words.Lists (.fieldRef field)) :
    Keeps words before (fieldRef field) fun index pool =>
      pool.Stores index (.fieldRef field) :=
  member_keeps listed rfl fun _ => .fieldRef field

lemma methodRef_keeps {method : MethodRef} {onInterface : Bool}
    (listed : words.Lists (.ofMethod method onInterface)) :
    Keeps words before (methodRef method onInterface) fun index pool =>
      pool.Stores index (.ofMethod method onInterface) := by
  cases onInterface with
  | false => exact member_keeps listed rfl fun _ => .methodRef method
  | true => exact member_keeps listed rfl fun _ => .interfaceMethodRef method

lemma methodHandle_keeps {handle : Handle} (listed : words.Lists (.methodHandle handle)) :
    Keeps words before (methodHandle handle) fun index pool =>
      pool.Stores index (.methodHandle handle) := by
  have referred := words.closed _ listed
  cases handle with
  | field kind field =>
    exact (fieldRef_keeps (referred _ (.head _))).bind fun reference =>
      put_keeps listed fun _ known => ⟨_, .methodHandle _ _ reference rfl, .cons known.2 .nil⟩
  | method kind method =>
    exact (methodRef_keeps (referred _ (.head _))).bind fun reference =>
      put_keeps listed fun _ known => ⟨_, .methodHandle _ _ reference rfl, .cons known.2 .nil⟩

lemma dynamic_keeps {name descriptor : String} {make : UInt16 → UInt16 → PoolEntry}
    (listed : words.Lists constant) (named : constant.bootstrap? = some (handle, xs))
    (parts : constant.parts = .nameAndType name descriptor :: .methodHandle handle ::
      xs.map Loadable.constant)
    (form : intern constant = do
      let pair ← nameAndType name descriptor
      let method ← bootstrapOf (handle, xs)
      put (make method pair))
    (forms : ∀ (pool : PoolBuilder) method pair index indices,
      pool.bootstrapMethods.toList[toNat method]? = some ⟨index, indices⟩ →
        pool.Forms constant (pair :: index :: indices) (make method pair))
    (given : ∀ before, (∀ value ∈ xs, words.Lists value.constant) →
      Keeps words before (PoolBuilder.arguments #[] xs) fun indices pool =>
        Forall₂ pool.Stores indices (xs.map Loadable.constant)) :
    Keeps words before (intern constant) fun index pool => pool.Stores index constant := by
  have referred := words.closed _ listed
  rw [parts, forall_mem_cons, forall_mem_cons, forall_mem_map] at referred
  have bootstrapped {before : PoolBuilder → Prop} :
      Keeps words before (bootstrapOf (handle, xs)) fun method pool => ∃ entry,
        pool.bootstrapMethods.toList[method.toNat]? = some entry ∧
          pool.StoresMethod entry (handle, xs) :=
    (given _ referred.2.2).bind fun indices => (methodHandle_keeps referred.2.1).bind fun index =>
      (putBootstrap_keeps listed named fun _ known => ⟨known.2, known.1.2⟩).weaken
        fun method pool known held => ⟨_, held, known.2, known.1.2⟩
  rw [form]
  refine (nameAndType_keeps referred.1).bind fun pair => bootstrapped.bind fun method =>
    put_keeps listed ?_
  rintro pool ⟨⟨-, paired⟩, ⟨index, indices⟩, held, handled, given⟩
  exact ⟨_, forms pool method pair index indices held, parts ▸ .cons paired (.cons handled given)⟩

mutual

lemma loadable_keeps {before : PoolBuilder → Prop} {value : Loadable}
    (listed : words.Lists value.constant) :
    Keeps words before (loadable value) fun index pool =>
      pool.Stores index value.constant := by
  match value with
  | .integer value => exact put_keeps listed fun _ _ => ⟨_, .integer value, .nil⟩
  | .float ⟨bits⟩ => exact put_keeps listed fun _ _ => ⟨_, .float bits, .nil⟩
  | .long value => exact put_keeps listed fun _ _ => ⟨_, .long value, .nil⟩
  | .double ⟨bits⟩ => exact put_keeps listed fun _ _ => ⟨_, .double bits, .nil⟩
  | .className name => exact className_keeps listed
  | .string value => exact text_keeps listed rfl fun _ => .string value
  | .methodHandle handle => exact methodHandle_keeps listed
  | .methodType descriptor => exact text_keeps listed rfl fun _ => .methodType descriptor
  | .dynamic name type handle xs =>
    exact dynamic_keeps listed rfl rfl (intern_dynamic name type handle xs)
      (fun _ => .dynamic name type handle xs) fun before listed => by
        simpa using arguments_keeps #[] listed

lemma arguments_keeps {before : PoolBuilder → Prop} (found : Array UInt16)
    {xs : List Loadable} (listed : ∀ value ∈ xs, words.Lists value.constant) :
    Keeps words before (PoolBuilder.arguments found xs) fun indices pool => ∃ rest,
      indices = found.toList ++ rest ∧
        Forall₂ pool.Stores rest (xs.map Loadable.constant) := by
  match xs with
  | [] =>
    rw [PoolBuilder.arguments]
    exact .pure fun _ _ => ⟨[], (append_nil _).symm, .nil⟩
  | value :: rest =>
    obtain ⟨first, others⟩ := forall_mem_cons.mp listed
    rw [PoolBuilder.arguments]
    refine (loadable_keeps first).bind fun index =>
      (arguments_keeps (found.push index) others).weaken ?_
    rintro indices pool ⟨-, stores⟩ ⟨more, rfl, given⟩
    exact ⟨index :: more, by simp, .cons stores given⟩

end

lemma intern_keeps {constant : Constant} (listed : words.Lists constant) :
    Keeps words before (intern constant) fun index pool => pool.Stores index constant := by
  match constant with
  | .utf8 value => exact javaUtf8_keeps listed
  | .integer value => exact @loadable_keeps _ _ (.integer value) listed
  | .float value => exact @loadable_keeps _ _ (.float value) listed
  | .long value => exact @loadable_keeps _ _ (.long value) listed
  | .double value => exact @loadable_keeps _ _ (.double value) listed
  | .className name => exact className_keeps listed
  | .string value => exact @loadable_keeps _ _ (.string value) listed
  | .fieldRef field => exact fieldRef_keeps listed
  | .methodRef method => exact @methodRef_keeps _ _ method false listed
  | .interfaceMethodRef method => exact @methodRef_keeps _ _ method true listed
  | .nameAndType name descriptor => exact nameAndType_keeps listed
  | .methodHandle handle => exact methodHandle_keeps listed
  | .methodType descriptor => exact @loadable_keeps _ _ (.methodType descriptor) listed
  | .dynamic name type handle xs =>
    exact @loadable_keeps _ _ (.dynamic name type handle xs) listed
  | .invokeDynamic site =>
    exact dynamic_keeps listed rfl rfl (intern_invokeDynamic site) (fun _ => .invokeDynamic site)
      fun before listed => by simpa using arguments_keeps #[] listed

end Interning

/-- The pool after a call for a constant, for which it may have had no room. -/
def called (pool : PoolBuilder) (constant : Constant) : PoolBuilder := leaves (intern constant) pool

/-- The pool that calls for some constants lead to, one after the other. -/
def ofCalls (constants : List Constant) : PoolBuilder := constants.foldl called {}

lemma called_of_ok (ran : intern constant pool = .ok index later) :
    pool.called constant = later := by
  rw [called, leaves, ran]

lemma foldl_called (sound : pool.Comprises .all) (constants : List Constant) :
    (constants.foldl called pool).Comprises .all ∧ pool.Extends (constants.foldl called pool) := by
  induction constants generalizing pool with
  | nil => exact ⟨sound, .refl pool⟩
  | cons constant rest ih =>
    obtain ⟨sound', grown, -, -⟩ := @intern_keeps .all _ constant trivial pool sound fun _ _ => trivial
    obtain ⟨sound'', grown'⟩ := ih sound'
    exact ⟨sound'', grown.trans grown'⟩

lemma stores_of_called (sound : pool.Comprises .all) (ran : intern constant pool = .ok index later)
    (more : List Constant) :
    (more.foldl called later).Comprises .all ∧ (more.foldl called later).Stores index constant := by
  obtain ⟨sound', -, gives, -⟩ := @intern_keeps .all _ constant trivial pool sound fun _ _ => trivial
  change (pool.called constant).Comprises .all at sound'
  rw [called_of_ok ran] at sound'
  obtain ⟨sound'', grown⟩ := foldl_called sound' more
  exact ⟨sound'', gives index later ran _ grown⟩

/--
Whatever calls have been made, successful or not, the pool is sound, and the entry at an index that
a call has given is the one that was there after that call.
-/
theorem ofCalls_isSound (constants : List Constant) :
    (ofCalls constants).IsSound ∧
      ∀ (earlier more : List Constant) (constant : Constant) (index : UInt16) (pool : PoolBuilder),
        constants = earlier ++ constant :: more → intern constant (ofCalls earlier) = .ok index pool →
          ∃ entry, pool.Holds index.toNat entry ∧ (ofCalls constants).Holds index.toNat entry := by
  refine ⟨(foldl_called (empty_comprises .all) constants).1.toIsSound, ?_⟩
  rintro earlier more constant index pool rfl ran
  have sound := (foldl_called (empty_comprises .all) earlier).1
  obtain ⟨sound', stores⟩ := stores_of_called sound ran []
  obtain ⟨entry, -, holds, -⟩ := stores.parts
  refine ⟨entry, holds, ?_⟩
  rw [ofCalls, foldl_append, foldl_cons]
  change (more.foldl called ((ofCalls earlier).called constant)).Holds index.toNat entry
  rw [called_of_ok ran]
  exact holds.mono (foldl_called sound' more).2

/-- A number keeps its two indices when another one is added. -/
theorem ofCalls_isSound_longs : ∃ pool, intern (.long 5) (ofCalls []) = .ok 1 pool ∧
    ∃ entry, pool.Holds 1 entry ∧ (ofCalls [.long 5, .long 6]).Holds 1 entry := by
  have ran : (intern (.long 5)).run' (ofCalls []) = some 1 := by cbv
  obtain ⟨pool, ran⟩ := ran_of_run' ran
  exact ⟨_, ran, (ofCalls_isSound [.long 5, .long 6]).2 [] [.long 6] (.long 5) 1 _ rfl ran⟩

/--
A constant that has been interned is interned again without changing the pool, whatever calls have
been made in between, and no other constant is given its index.
-/
theorem intern_eq_iff {earlier : List Constant} {constant : Constant} {index : UInt16}
    {pool : PoolBuilder} (interned : intern constant (ofCalls earlier) = .ok index pool)
    (between : List Constant) :
    intern constant (between.foldl called pool) = .ok index (between.foldl called pool) ∧
      ∀ (other : Constant) (index' : UInt16) (last : PoolBuilder),
        intern other (between.foldl called pool) = .ok index' last →
          (index = index' ↔ constant = other) := by
  obtain ⟨sound, stores⟩ :=
    stores_of_called (foldl_called (empty_comprises .all) earlier).1 interned between
  have again : intern constant (between.foldl called pool) =
      .ok index (between.foldl called pool) :=
    stores.settled _ (.refl _) sound.toWellFormed
  refine ⟨again, fun other index' last ran => ⟨?_, ?_⟩⟩
  · rintro rfl
    obtain ⟨-, grown, gives, -⟩ := @intern_keeps .all _ other trivial _ sound fun _ _ => trivial
    change (between.foldl called pool).Extends ((between.foldl called pool).called other) at grown
    rw [called_of_ok ran] at grown
    exact (stores.mono grown).constant_eq (gives index last ran last (.refl last))
  · rintro rfl
    rw [again] at ran
    cases ran
    rfl

/-- After a string and a number, the string has its index still, and another number a new one. -/
theorem intern_eq_iff_string : ∃ pool between last,
    intern (.string ⟨[]⟩) (ofCalls []) = .ok 2 pool ∧ [.long 5].foldl called pool = between ∧
      intern (.double ⟨5⟩) between = .ok 5 last ∧ intern (.string ⟨[]⟩) between = .ok 2 between ∧
        ((2 : UInt16) = 5 ↔ Constant.string ⟨[]⟩ = .double ⟨5⟩) := by
  have first : (intern (.string ⟨[]⟩)).run' (ofCalls []) = some 2 := by cbv
  obtain ⟨pool, interned⟩ := ran_of_run' first
  obtain rfl : ofCalls [.string ⟨[]⟩] = pool := called_of_ok interned
  have second : (intern (.double ⟨5⟩)).run' ([.long 5].foldl called (ofCalls [.string ⟨[]⟩])) =
      some 5 := by
    cbv
  obtain ⟨last, other⟩ := ran_of_run' second
  obtain ⟨again, only⟩ := intern_eq_iff interned [.long 5]
  exact ⟨_, _, last, interned, rfl, other, again, only _ _ _ other⟩

end PoolBuilder

end JvmAsm
