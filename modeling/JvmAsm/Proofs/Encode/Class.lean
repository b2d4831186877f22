/-
Reads back classes: the bytes that a class is encoded as are decoded as that class, with the sizes
of the code of its methods filled in.
-/
import JvmAsm.Proofs.Encode.Method
import JvmAsm.Proofs.Pool.Reading

namespace JvmAsm

open Binary List Decode

variable {before : PoolBuilder → Prop}
variable {methods : List BootstrapMethod} {entries : List BootstrapEntry} {pool : PoolBuilder}

namespace Decode.ClassDraft

/-- The names of the attributes that classes have and not all declarations. -/
def names : List String :=
  ["Deprecated", "Synthetic", "InnerClasses", "EnclosingMethod", "SourceFile", "NestHost",
    "NestMembers", "Record", "BootstrapMethods"]

@[simp] def marksPart : Part ClassDraft Marks where
  get := marks
  set draft marks := { draft with marks }

@[simp] def sharedPart : Part ClassDraft (Shared ClassTarget) where
  get := shared
  set draft shared := { draft with shared }

@[simp] def innerClassesPart : Part ClassDraft (Option (List InnerClass)) where
  get := innerClasses
  set draft innerClasses := { draft with innerClasses }

@[simp] def enclosingPart : Part ClassDraft (Option EnclosingMethod) where
  get := enclosingMethod
  set draft enclosingMethod := { draft with enclosingMethod }

@[simp] def sourceFilePart : Part ClassDraft (Option String) where
  get := sourceFile
  set draft sourceFile := { draft with sourceFile }

@[simp] def nestHostPart : Part ClassDraft (Option ClassName) where
  get := nestHost
  set draft nestHost := { draft with nestHost }

@[simp] def nestMembersPart : Part ClassDraft (Option (List ClassName)) where
  get := nestMembers
  set draft nestMembers := { draft with nestMembers }

@[simp] def componentsPart : Part ClassDraft (Option (List RecordComponent)) where
  get := recordComponents
  set draft recordComponents := { draft with recordComponents }

@[simp] def bootstrapPart : Part ClassDraft (Option (List BootstrapMethod)) where
  get := bootstrapMethods
  set draft bootstrapMethods := { draft with bootstrapMethods }

end Decode.ClassDraft

/-- What has to be known of a class so that it is read back, if the code of its methods is. -/
structure ClassFile.IsReadable (isReadable : Code → Prop) (value : ClassFile) : Prop where
  version : Version.oldestMajor ≤ value.version.major
  fields : ∀ field ∈ value.fields, field.IsReadable
  methods : ∀ method ∈ value.methods, method.IsReadable isReadable
  components : ∀ components, value.recordComponents = some components →
    ∀ component ∈ components, component.IsReadable
  shallow : AreShallow (notesOf value.annotations value.typeAnnotations)
  others : ∀ kept ∈ value.attributes, kept.name ∉ ClassDraft.names ∧ kept.name ∉ Shared.names

/-- The class with the sizes of the code of its methods filled in. -/
def ClassFile.IsFilled (value filled : ClassFile) : Prop :=
  ∃ methods, Forall₂ Method.IsFilled value.methods methods ∧ filled = { value with methods }

namespace Encode

open Decode (ClassDraft Shared)
open Decode.Shared

/-- Reads an attribute of a class. -/
abbrev classStep (table : PoolTable) (_ : PoolTable.Bootstrap) (draft : ClassDraft) (name : String)
    (length : Nat) : ByteReader ClassDraft :=
  draft.step table name length

lemma class_readsShared : ReadsShared Decode.classTarget Outline.classTarget ClassDraft.names
    classStep ClassDraft.sharedPart where
  distinct := by decide
  via name other table boots draft length := by
    unfold classStep ClassDraft.step
    split
    all_goals first | rfl | simp [ClassDraft.names] at other

lemma innerClass_yields (inner : InnerClass) :
    Yields before (innerClass inner) fun bytes pool =>
      pool.Encodes (fun table _ => Decode.innerClass table) bytes inner := by
  refine (className_yields inner.inner).bind fun innerIndex =>
    (optional_yields PoolBuilder.className_refers).bind fun outerIndex =>
      (optional_yields PoolBuilder.utf8_yields).bind fun nameIndex => .pure ?_
  rintro pool ⟨⟨⟨_, inside⟩, outside⟩, named⟩ table boots agrees
  rw [append_assoc, append_assoc]
  exact (inside agrees).bind ((outside agrees).bind
    ((named agrees).bind ((Reads.u16 _).made _)))

lemma enclosingMethod_yields (enclosing : EnclosingMethod) :
    Yields before (enclosingMethod enclosing) fun bytes pool =>
      pool.Encodes (fun table _ => Decode.enclosingMethod table) bytes enclosing := by
  refine (className_yields enclosing.owner).bind fun owner =>
    (optional_yields PoolBuilder.methodNameAndType_yields).bind fun method => .pure ?_
  rintro pool ⟨⟨_, owned⟩, enclosed⟩ table boots agrees
  exact (owned agrees).bind
    ((enclosed agrees).made _)

def bootstrapMethod (entry : BootstrapEntry) : Encoder (List UInt8) := do
  let arguments ← list16 (.tooMany .bootstrapArguments) entry.arguments fun argument =>
    return bytes16 argument
  return bytes16 entry.handle ++ arguments

/-- A bootstrap method is read back with its handle. -/
lemma bootstrapMethod_yields (entry : BootstrapEntry) :
    Yields before (bootstrapMethod entry)
      fun bytes pool => ∀ handle, pool.NamesHandle entry.handle handle →
        pool.Encodes (fun table _ => Decode.bootstrapMethod table) bytes
          ⟨handle, entry.arguments⟩ := by
  have each : ∀ argument ∈ entry.arguments,
      Yields before (pure (bytes16 argument) : Encoder (List UInt8)) fun bytes pool =>
        pool.Encodes (fun _ _ => ByteReader.u16) bytes argument :=
    fun argument _ => .pure fun _ _ _ _ _ => Reads.u16 argument
  refine (plainList16_yields each).bind fun arguments => .pure ?_
  rintro pool ⟨_, encodes⟩ handle named table boots agrees
  exact ((Reads.u16 _).bind_pure (Reads.ofResult (named table agrees.has))).bind
    ((encodes agrees).made _)

/-- The bootstrap methods that are read where those of the pool have been written. -/
def IsBootstrap (entries : List BootstrapEntry) (methods : List BootstrapMethod)
    (pool : PoolBuilder) : Prop :=
  Forall₂ (fun entry method => pool.NamesHandle entry.handle method.handle ∧
    method.arguments = entry.arguments) entries methods

lemma bootstrap_exists (wf : pool.WellFormed) :
    ∃ methods, IsBootstrap pool.bootstrapMethods.toList methods pool := by
  have handles := wf.handles
  generalize pool.bootstrapMethods.toList = entries at handles ⊢
  induction entries with
  | nil => exact ⟨[], .nil⟩
  | cons entry rest ih =>
    rw [forall_mem_cons] at handles
    obtain ⟨handle, named⟩ := handles.1
    obtain ⟨methods, all⟩ := ih handles.2
    exact ⟨⟨handle, entry.arguments⟩ :: methods, .cons ⟨named, rfl⟩ all⟩

lemma IsBootstrap.mono {later : PoolBuilder} (isBootstrap : IsBootstrap entries methods pool)
    (grown : pool.Extends later) : IsBootstrap entries methods later :=
  isBootstrap.imp fun _ _ known => ⟨known.1.mono grown, known.2⟩

lemma IsBootstrap.agrees (isBootstrap : IsBootstrap pool.bootstrapMethods.toList methods pool)
    {table : PoolTable} (has : table.Has pool) :
    table.Agrees ((given methods).map toArray) pool := by
  refine ⟨has, fun index entry found => ?_⟩
  obtain ⟨method, got, named, arguments⟩ := forall₂_getElem? isBootstrap found
  have some : methods ≠ [] := by
    rintro rfl
    cases got
  exact ⟨methods.toArray, method, by rw [given_of_ne some]; rfl, by simpa using got,
    named table has, arguments⟩

def AgreesBefore (before : PoolBuilder → Prop) (methods : List BootstrapMethod)
    (pool : PoolBuilder) : Prop :=
  ∃ earlier, before earlier ∧
    ∀ table : PoolTable, table.Has pool → table.Agrees ((given methods).map toArray) earlier

/-- The entries of a list of bootstrap methods are read back with their handles. -/
lemma bootstrapList_yields (named : ∀ pool, before pool → IsBootstrap entries methods pool) :
    Yields before (list16 (.tooMany .bootstrapMethods) entries bootstrapMethod)
      fun bytes pool =>
        pool.Encodes (fun table _ => ByteReader.list16 (Decode.bootstrapMethod table)) bytes
          methods := by
  refine (list16_chunks fun entry _ => bootstrapMethod_yields entry).weaken ?_
  rintro bytes pool known ⟨chunks, fits, rfl, encodes⟩ table boots agrees
  have isBootstrap := named pool known
  rw [isBootstrap.length_eq] at fits ⊢
  refine Reads.list16 ?_ fits
  clear named fits
  induction isBootstrap generalizing chunks with
  | nil =>
    cases encodes
    exact .nil
  | @cons entry method _ _ here _ ih =>
    obtain ⟨named, arguments⟩ := here
    cases encodes with
    | cons first rest =>
      refine .cons ?_ (ih _ rest)
      have read := first method.handle named agrees
      rwa [← arguments] at read

/-- The bootstrap methods of the pool are read back as those of the constants that use them. -/
lemma bootstrapMethods_yields :
    Yields before bootstrapMethods fun found pool =>
      ∃ methods, AgreesBefore before methods pool ∧ pool.Affects classStep (fun _ => True)
          (.fill ClassDraft.bootstrapPart (given methods) True) found := by
  intro state found state' wf known ran
  obtain ⟨methods, isBootstrap⟩ := bootstrap_exists wf
  change IsBootstrap state.pool.bootstrapMethods.toList methods state.pool at isBootstrap
  have same : bootstrapMethods state = attributeOfList state.pool.bootstrapMethods.toList
    (fun entries => namedAfter "BootstrapMethods"
      (list16 (.tooMany .bootstrapMethods) entries bootstrapMethod)) state := rfl
  rw [same] at ran
  have attributed : Yields (fun pool => IsBootstrap state.pool.bootstrapMethods.toList methods pool)
      (attributeOfList state.pool.bootstrapMethods.toList fun entries =>
        namedAfter "BootstrapMethods"
          (list16 (.tooMany .bootstrapMethods) entries bootstrapMethod))
      fun found pool => pool.Affects classStep (fun _ => True)
        (.fill ClassDraft.bootstrapPart (given methods) True) found := by
    refine attributeOfList_yields (fun some => ?_) ?_
    · refine (namedAfter_yields (bootstrapList_yields fun _ known => known)).weaken ?_
      rintro bytes pool isBootstrap ⟨contents, encodes, named⟩
      have written : methods ≠ [] := by
        rintro rfl
        exact some (forall₂_nil_right_iff.mp isBootstrap)
      rw [given_of_ne written]
      exact fill_affects (fun _ _ _ _ => rfl) (fun _ => encodes) named
    · intro none draft applies
      rw [none] at isBootstrap
      obtain rfl := forall₂_nil_left_iff.mp isBootstrap
      exact fill_none applies
  obtain ⟨wf', grown, affects⟩ := attributed state found state' wf
    (fun later grown => isBootstrap.mono grown) ran
  refine ⟨wf', grown, fun later more => ⟨methods, ⟨state.pool, ?_, ?_⟩, affects later more⟩⟩
  · exact known _ (.refl _)
  · exact fun table has => isBootstrap.agrees (has.mono (grown.trans more))

/-- What is read of the attributes of a class. -/
def classDraft (value : ClassFile) (methods : List BootstrapMethod) : ClassDraft where
  marks := ⟨value.isDeprecated, value.isSynthetic⟩
  shared := {
    signature := value.signature
    visible := given value.annotations.visible
    invisible := given value.annotations.invisible
    visibleTypes := given value.typeAnnotations.visible
    invisibleTypes := given value.typeAnnotations.invisible
    raw := value.attributes.toArray }
  innerClasses := given value.innerClasses
  enclosingMethod := value.enclosingMethod
  sourceFile := value.sourceFile
  nestHost := value.nestHost
  nestMembers := given value.nestMembers
  recordComponents := value.recordComponents
  bootstrapMethods := given methods

lemma recordComponents_yields {known : Code → Prop} {value : ClassFile}
    (readable : value.IsReadable known) :
    ∀ components, value.recordComponents = some components → Yields before
        (list16 (.tooMany .recordComponents) components fun component =>
          within (.inRecordComponent component.name) (recordComponent component))
        fun bytes pool =>
          pool.Encodes (fun table _ => ByteReader.list16 (Decode.recordComponent table)) bytes
            components :=
  fun components given => plainList16_yields fun component mem => within_yields
    (recordComponent_yields (readable.components components given component mem))

lemma classAttributes_yields {known : Code → Prop} {value : ClassFile}
    (readable : value.IsReadable known) :
    Yields before (classAttributes value) fun bytes pool =>
      ∃ methods, AgreesBefore before methods pool ∧
        pool.Encodes (fun table _ => attributes table (ClassDraft.step table) {}) bytes
          (classDraft value methods) := by
  have shared := class_readsShared
  refine (attributeTable_choosing
    (.cons (marks_yields ClassDraft.marksPart value.isDeprecated value.isSynthetic
      (fun _ _ _ _ => rfl) fun _ _ _ _ => rfl)
    (.cons (plainOfList_yields ClassDraft.innerClassesPart
      (namedAfter_yields (plainList16_yields fun inner _ => innerClass_yields inner))
      fun _ _ _ _ => rfl)
    (.cons (plainOf_yields ClassDraft.enclosingPart
      (fun enclosing _ => namedBefore_yields (enclosingMethod_yields enclosing))
      fun _ _ _ _ => rfl)
    (.cons (shared.signature_yields value.signature)
    (.cons (plainOf_yields ClassDraft.sourceFilePart
      (fun file _ => namedBefore_yields (utf8_yields file)) fun _ _ _ _ => rfl)
    (.cons (plainOf_yields ClassDraft.nestHostPart
      (fun host _ => namedBefore_yields (className_yields host))
      fun _ _ _ _ => rfl)
    (.cons (plainOfList_yields ClassDraft.nestMembersPart
      (namedAfter_yields (plainList16_yields fun name _ => className_yields name))
      fun _ _ _ _ => rfl)
    (.cons (shared.annotations_yields value.annotations)
    (.cons (shared.typeAnnotations_yields value.typeAnnotations classTarget_yields)
    (.cons (plainOf_yields ClassDraft.componentsPart
      (fun components given =>
        namedAfter_yields (recordComponents_yields readable components given))
      fun _ _ _ _ => rfl)
    .nil))))))))))
    bootstrapMethods_yields
    (.cons (shared.raws_yields value.attributes) .nil)).weaken ?_
  rintro bytes pool _ ⟨methods, agreesBefore, found, fits, rfl, affects⟩
  obtain ⟨⟨visible, invisible⟩, visibleTypes, invisibleTypes⟩ := readable.shallow.parts
  have read := affects_reads affects fits (fun _ => trivial) {} ⟨⟨trivial, trivial, trivial⟩,
    ⟨rfl, trivial⟩, ⟨rfl, trivial⟩, ⟨rfl, trivial⟩, ⟨rfl, trivial⟩, ⟨rfl, trivial⟩,
    ⟨rfl, trivial⟩, ⟨⟨rfl, visible⟩, ⟨rfl, invisible⟩, trivial⟩,
    ⟨⟨rfl, visibleTypes⟩, ⟨rfl, invisibleTypes⟩, trivial⟩, ⟨rfl, trivial⟩, ⟨rfl, trivial⟩,
    readable.others, trivial⟩
  refine ⟨methods, agreesBefore, (congrArg (PoolBuilder.Encodes pool _ _) ?_).mp read⟩
  simp [classDraft]

end Encode

end JvmAsm
