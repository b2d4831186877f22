/- Reads back the methods of a class. -/
import JvmAsm.Proofs.Encode.Members

namespace JvmAsm

open Binary List Decode

variable {before : PoolBuilder → Prop}

/-- The code with the sizes of the stack and of the local variables, which are kept if given. -/
def Code.IsFilled (code filled : Code) : Prop :=
  ∃ stack locals, filled = { code with maxStack := some stack, maxLocals := some locals } ∧
    (∀ given, code.maxStack = some given → stack = given) ∧
    ∀ given, code.maxLocals = some given → locals = given

def Method.IsFilled (method filled : Method) : Prop :=
  ∃ code, Option.Rel Code.IsFilled method.code code ∧ filled = { method with code }

namespace Decode.MethodDraft

/-- The names of the attributes that methods have and not all declarations. -/
def names : List String :=
  ["Deprecated", "Synthetic", "Code", "Exceptions", "RuntimeVisibleParameterAnnotations",
    "RuntimeInvisibleParameterAnnotations", "AnnotationDefault", "MethodParameters"]

@[simp] def marksPart : Part MethodDraft Marks where
  get := marks
  set draft marks := { draft with marks }

@[simp] def sharedPart : Part MethodDraft (Shared MethodTarget) where
  get := shared
  set draft shared := { draft with shared }

@[simp] def codePart : Part MethodDraft (Option Code) where
  get := code
  set draft code := { draft with code }

@[simp] def exceptionsPart : Part MethodDraft (Option (List ClassName)) where
  get := exceptions
  set draft exceptions := { draft with exceptions }

@[simp] def visibleParametersPart : Part MethodDraft (Option (List (List Annotation))) where
  get := visibleParameters
  set draft visibleParameters := { draft with visibleParameters }

@[simp] def invisibleParametersPart : Part MethodDraft (Option (List (List Annotation))) where
  get := invisibleParameters
  set draft invisibleParameters := { draft with invisibleParameters }

@[simp] def defaultPart : Part MethodDraft (Option ElementValue) where
  get := annotationDefault
  set draft annotationDefault := { draft with annotationDefault }

@[simp] def parametersPart : Part MethodDraft (Option (List MethodParameter)) where
  get := parameters
  set draft parameters := { draft with parameters }

end Decode.MethodDraft

/-- The annotations of parameters can be read back. -/
def AreShallowLists (lists? : Option (List (List Annotation))) : Prop :=
  ∀ lists, lists? = some lists → ∀ notes ∈ lists, AreShallow notes

/-- What has to be known of a method so that it is read back, if its code is. -/
structure Method.IsReadable (isReadable : Code → Prop) (method : Method) : Prop where
  code : ∀ code, method.code = some code → isReadable code
  shallow : AreShallow (notesOf method.annotations method.typeAnnotations)
  visible : AreShallowLists method.parameterAnnotations.visible
  invisible : AreShallowLists method.parameterAnnotations.invisible
  default : ∀ value, method.annotationDefault = some value → value.depth ≤ maxElementDepth
  others : ∀ kept ∈ method.attributes, kept.name ∉ MethodDraft.names ∧ kept.name ∉ Shared.names

namespace Encode

open Bytecode
open Decode (MethodDraft Shared)
open Decode.Shared

/-- Reads an attribute of a method in a class that starts at the given offset. -/
abbrev methodStep (classStart : Nat) (method : Method) (table : PoolTable)
    (boots : PoolTable.Bootstrap) (draft : MethodDraft) (name : String) (length : Nat) :
    ByteReader MethodDraft :=
  draft.step table boots classStart method.name method.descriptor name length

lemma method_readsShared (classStart : Nat) (method : Method) :
    ReadsShared Decode.methodTarget Outline.methodTarget MethodDraft.names
      (methodStep classStart method) MethodDraft.sharedPart where
  distinct := by decide
  via name other table boots draft length := by
    unfold methodStep MethodDraft.step
    split
    all_goals first | rfl | simp [MethodDraft.names] at other

def IsShort (attributed : String × List UInt8) : Prop :=
  ∀ length, codeLength? attributed = some length → length ≤ Layout.maxNear

variable {method : Method} {classStart : Nat}

/--
The code of a method is read as one of those that it may be read as, if the bytes of the attribute
are allowed.
-/
structure IsReadWith (reads : Method → Option Code → Prop) (allowed : String × List UInt8 → Prop)
    (version : Version) (analysis : Analysis) (classStart : Nat) (method : Method) : Prop where
  missing : method.code = none → reads method none
  given : ∀ code, method.code = some code → ∀ before : PoolBuilder → Prop,
    Yields before (codeBody version code analysis) fun body pool =>
      ∃ found, reads method (some found) ∧ (allowed ("Code", body) →
        pool.Encodes (fun table boots => readCode table boots classStart) body found)

variable {reads : Method → Option Code → Prop} {allowed : String × List UInt8 → Prop}
  {version : Version} {analysis : Analysis}

lemma IsBody.codeLength_eq {written : Written} {stack locals : UInt16} {body : List UInt8}
    {pool : PoolBuilder} (isBody : IsBody written stack locals body pool) :
    codeLength body = written.layout.stop := by
  obtain ⟨handlers, tables, rfl, _⟩ := isBody.parts
  have stop := isBody.found.stop_le
  simp only [maxOffset] at stop
  rw [JvmAsm.codeLength_eq, Written.bytecode_length isBody.found,
    UInt32.toNat_ofNat_of_lt' (show _ < 4294967296 by omega)]

/-- The code with the sizes of the stack and of the local variables that are written with it. -/
def IsSizedBy (analysis : Analysis) (code sized : Code) : Prop :=
  ∃ locals, (∀ state, maxLocals code analysis state = .ok locals state) ∧
    sized = { code with
      maxStack := some ((code.maxStack.or (analysis.computed.map FrameTable.maxStack)).getD 0)
      maxLocals := some locals }

lemma IsSizedBy.isFilled {code sized : Code} (sizes : IsSizedBy analysis code sized) :
    code.IsFilled sized := by
  obtain ⟨locals, written, rfl⟩ := sizes
  exact ⟨_, locals, rfl, fun given known => by simp [known], fun _ => maxLocals_eq written⟩

lemma isReadWith_sized (readable : ∀ code, method.code = some code → code.IsReadable)
    (complete : ∀ code, method.code = some code → analysis.IsComplete code.instructions.length)
    (sized : ∀ code, Option.Rel (IsSizedBy analysis) method.code code → reads method code) :
    IsReadWith reads IsShort version analysis classStart method where
  missing none := sized _ (by rw [none]; exact .none)
  given code given before := by
    have readsCode := readable code given
    have complete := complete code given
    refine (codeBody_yields readsCode.canonical.once readsCode.nested).weaken ?_
    rintro body pool _ ⟨ops, layout, locals, -, isBody, written⟩
    have whole : (Written.placed code analysis ops layout).IsWhole :=
      Analysis.IsComplete.isWhole (isBody.count ▸ complete) rfl
    rw [given] at sized
    refine ⟨_, sized _ (.some ⟨locals, written, rfl⟩), fun short => ?_⟩
    have small : layout.stop ≤ Layout.maxNear := by
      have short := short _ rfl
      rwa [isBody.codeLength_eq] at short
    have narrow := Layout.ofOps_narrow isBody.laidOut.found small
    have read := isBody.readCode_encodes (isBody.isLaid readsCode narrow)
      (isBody.canHandle readsCode) (isBody.canReadAll readsCode) classStart
    rwa [isBody.readCode_eq readsCode whole narrow, maxStack, whole.replaces,
      if_neg Bool.false_ne_true] at read

lemma methodCode_yields (isRead : IsReadWith reads allowed version analysis classStart method) :
    Yields before
      (attributeOf method.code fun code =>
        namedAfter "Code" (within .inCode (codeBody version code analysis)))
      fun found pool => ∃ code, reads method code ∧
        pool.Affects (methodStep classStart method) allowed
          (.fill MethodDraft.codePart code True) found := by
  cases given : method.code with
  | none =>
    exact .pure fun _ _ =>
      ⟨none, isRead.missing given, none_affects fun _ applies => fill_none applies⟩
  | some code =>
    refine (namedAfter_yields (within_yields (isRead.given code given before))).bind
      fun bytes => .pure ?_
    rintro pool ⟨_, contents, ⟨found, reads, encodes⟩, named⟩
    refine ⟨some found, reads, ?_⟩
    refine single_affects named fun table boots agrees allows draft applies => ?_
    have empty : draft.code = none := applies.1
    refine ((contents_reads "Code" (encodes allows agrees)).within
      _).bind_pure ?_
    rw [empty]
    exact (Reads.pure _).made _

lemma methodParameters_yields (parameters : List MethodParameter) :
    Yields before (methodParameters parameters) fun bytes pool =>
      pool.Encodes (fun table _ => ByteReader.list8 (methodParameter table)) bytes
        parameters := by
  have each : ∀ parameter ∈ parameters, Yields before
        (do return (← index (PoolBuilder.optional PoolBuilder.utf8 parameter.name)) ++
          bytes16 parameter.flags.bits)
        fun bytes pool => True →
          pool.Encodes (fun table _ => methodParameter table) bytes (id parameter) := by
    intro parameter _
    refine (optional_yields PoolBuilder.utf8_yields).bind fun name => .pure ?_
    rintro pool ⟨_, named⟩ _ table boots agrees
    exact (named agrees).bind ((Reads.u16 _).made _)
  refine (list8_yields each).weaken fun bytes pool _ encodes => ?_
  have whole := encodes fun _ _ => trivial
  rwa [map_id] at whole

lemma annotationLists_yields {name : String} (lists : List (List Annotation)) :
    Yields before
      (namedAfter name (list8 (.tooMany .annotatedParameters) lists annotationList))
      fun bytes pool => ∃ contents, (AreShallowLists (some lists) →
        pool.Encodes (fun table _ => ByteReader.list8 (Decode.annotationList table)) contents
          lists) ∧ pool.IsAttribute (name, contents) bytes := by
  have each : ∀ notes ∈ lists, Yields before (annotationList notes) fun bytes pool =>
      AreShallow notes →
        pool.Encodes (fun table _ => Decode.annotationList table) bytes (id notes) :=
    fun notes _ => annotationList_yields notes
  refine (namedAfter_yields (list8_yields each)).weaken ?_
  rintro bytes pool _ ⟨contents, encodes, named⟩
  rw [map_id] at encodes
  exact ⟨contents, fun shallow => encodes (shallow lists rfl), named⟩

lemma parameterAnnotations_yields (notes : ParameterAnnotations) :
    Causes before (methodStep classStart method) allowed (parameterAnnotations notes) (.chain [
      .fill MethodDraft.visibleParametersPart notes.visible (AreShallowLists notes.visible),
      .fill MethodDraft.invisibleParametersPart notes.invisible
        (AreShallowLists notes.invisible)]) :=
  both_yields
    (fillOf_yields (fun lists given => given ▸ annotationLists_yields lists) fun _ _ _ _ => rfl)
    (fillOf_yields (fun lists given => given ▸ annotationLists_yields lists) fun _ _ _ _ => rfl)

lemma annotationDefault_yields (default : Option ElementValue) :
    Causes before (methodStep classStart method) allowed
      (attributeOf default fun value => namedAfter "AnnotationDefault" (elementValue value))
      (.fill MethodDraft.defaultPart default
        (∀ value, default = some value → value.depth ≤ maxElementDepth)) := by
  have written : ∀ value, default = some value →
      Yields before (namedAfter "AnnotationDefault" (elementValue value)) fun bytes pool =>
        ∃ contents, ((∀ value, default = some value → value.depth ≤ maxElementDepth) →
          pool.Encodes (fun table _ => Decode.elementValue table) contents value) ∧
          pool.IsAttribute ("AnnotationDefault", contents) bytes := by
    intro value given
    refine (namedAfter_yields (elementValue_yields value)).weaken ?_
    rintro bytes pool _ ⟨contents, encodes, named⟩
    exact ⟨contents, fun shallow => encodes _ (Nat.lt_succ_of_le (shallow value given)), named⟩
  exact fillOf_yields written fun _ _ _ _ => rfl

def IsReadAs (reads : Method → Option Code → Prop) (method read : Method) : Prop :=
  ∃ code, reads method code ∧ read = { method with code }

/--
A method that has been written: what is read if all of its attributes are allowed, which are parts
of its bytes and have the lengths of its code.
-/
def IsWritten (reads : Method → Option Code → Prop) (allowed : String × List UInt8 → Prop)
    (classStart : Nat) (method : Method) (bytes : List UInt8) (pool : PoolBuilder) : Prop :=
  ∃ (read : Method) (pairs : List (String × List UInt8)), IsReadAs reads method read ∧
    pool.Encodes (fun table _ => methodLengths table) bytes (pairs.filterMap codeLength?) ∧
    (∀ pair ∈ pairs, pair.2 <:+: bytes) ∧
    ((∀ pair ∈ pairs, allowed pair) →
      pool.Encodes (fun table boots => readMethod table boots classStart) bytes
        read) ∧
    Reads skipMember bytes ()

lemma methodBytes_yields {known : Code → Prop} (readable : method.IsReadable known)
    (isRead : IsReadWith reads allowed version analysis classStart method) :
    Yields before (methodBytes version method analysis) (IsWritten reads allowed classStart method) := by
  have shared := method_readsShared classStart method
  refine ((text_yields PoolBuilder.Refers.methodName).and (utf8_size _)).bind fun name =>
    ((text_yields PoolBuilder.Refers.methodDescriptor).and (utf8_size _)).bind fun type =>
      (attributeTable_choosing
        (.cons (marks_yields MethodDraft.marksPart method.isDeprecated method.isSynthetic
          (fun _ _ _ _ => rfl) fun _ _ _ _ => rfl) .nil)
        (methodCode_yields isRead)
        (.cons (plainOfList_yields MethodDraft.exceptionsPart
          (namedAfter_yields (plainList16_yields fun name _ => className_yields name))
          fun _ _ _ _ => rfl)
        (.cons (shared.signature_yields method.signature)
        (.cons (shared.annotations_yields method.annotations)
        (.cons (shared.typeAnnotations_yields method.typeAnnotations methodTarget_yields)
        (.cons (parameterAnnotations_yields method.parameterAnnotations)
        (.cons (annotationDefault_yields method.annotationDefault)
        (.cons (plainOf_yields MethodDraft.parametersPart
          (fun parameters _ => namedAfter_yields (methodParameters_yields parameters))
          fun _ _ _ _ => rfl)
        (.cons (shared.raws_yields method.attributes) .nil))))))))).bind fun attributes => .pure ?_
  rintro pool ⟨⟨⟨_, named, nameSize⟩, typed, typeSize⟩, code, readsCode, found, fits, rfl, affects⟩
  obtain ⟨⟨visible, invisible⟩, visibleTypes, invisibleTypes⟩ := readable.shallow.parts
  obtain ⟨pairs, attributed, affects⟩ := affects
  refine ⟨_, pairs, ⟨code, readsCode, rfl⟩, ?_, fun pair mem => ?_, ?_, ?_⟩
  · intro table boots agrees
    have head := Reads.skip (bytes16 method.access.bits ++ name ++ type)
    rw [length_append, length_append, bytes16_length, nameSize, typeSize] at head
    exact head.bind (lengths_reads agrees.has attributed fits)
  · refine (contents_isInfix attributed mem).trans ?_
    rw [← append_assoc]
    exact (suffix_append _ _).isInfix
  · intro allows table boots agrees
    have read := attributes_reads agrees.has attributed fits
      (affects agrees allows {} ⟨⟨trivial, trivial, trivial⟩, ⟨rfl, trivial⟩,
        ⟨rfl, trivial⟩, ⟨rfl, trivial⟩, ⟨⟨rfl, visible⟩, ⟨rfl, invisible⟩, trivial⟩,
        ⟨⟨rfl, visibleTypes⟩, ⟨rfl, invisibleTypes⟩, trivial⟩,
        ⟨⟨rfl, readable.visible⟩, ⟨rfl, readable.invisible⟩, trivial⟩, ⟨rfl, readable.default⟩,
        ⟨rfl, trivial⟩, readable.others, trivial⟩)
    rw [append_assoc, append_assoc]
    refine (Reads.u16 _).bind ((named agrees).bind
      ((typed agrees).bind (read.bind_pure ?_)))
    refine (congrArg (Reads · [] _) (congrArg pure ?_)).mpr (Reads.pure _)
    simp [Shared.annotations, Shared.typeAnnotations]
  · exact skipMember_reads method.access.bits nameSize typeSize attributed fits

end Encode

end JvmAsm
