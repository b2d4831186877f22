/- Reads back annotations and annotations on types from their bytes. -/
import JvmAsm.Encode.Annotation
import JvmAsm.Proofs.Encode.Basic

namespace JvmAsm

open Binary List Decode PoolBuilder

mutual

/-- How deep a value of an annotation is nested. -/
def ElementValue.depth : ElementValue → Nat
  | .nested _ elements => ElementValue.depthOfElements elements
  | .array xs => ElementValue.depthOfValues xs
  | _ => 0

/-- One more than the depth of the deepest of the elements. -/
def ElementValue.depthOfElements : List (String × ElementValue) → Nat
  | [] => 0
  | (_, value) :: rest => max (value.depth + 1) (ElementValue.depthOfElements rest)

/-- One more than the depth of the deepest of the values. -/
def ElementValue.depthOfValues : List ElementValue → Nat
  | [] => 0
  | value :: rest => max (value.depth + 1) (ElementValue.depthOfValues rest)

end

/-- The values of an annotation are not nested too deep to be read. -/
def Annotation.IsShallow (note : Annotation) : Prop :=
  ∀ element ∈ note.elements, element.2.depth ≤ maxElementDepth

lemma ElementValue.depthOfElements_le {elements : List (String × ElementValue)} {bound : Nat} :
    depthOfElements elements ≤ bound ↔ ∀ element ∈ elements, element.2.depth < bound := by
  induction elements with
  | nil => simp [depthOfElements]
  | cons element rest ih =>
    rw [depthOfElements, Nat.max_le, ih, forall_mem_cons]
    rfl

lemma ElementValue.depthOfValues_le {xs : List ElementValue} {bound : Nat} :
    depthOfValues xs ≤ bound ↔ ∀ value ∈ xs, value.depth < bound := by
  induction xs with
  | nil => simp [depthOfValues]
  | cons value rest ih =>
    rw [depthOfValues, Nat.max_le, ih, forall_mem_cons]
    rfl

def AnnotatedType.withTarget {τ υ : Type} (target : τ → υ) (note : AnnotatedType τ) : AnnotatedType υ :=
  ⟨target note.target, note.path, note.note⟩

def AnnotatedType.IsGood {τ : Type} (good : τ → Prop) (note : AnnotatedType τ) : Prop :=
  good note.target ∧ note.note.IsShallow

namespace Encode

variable {before : PoolBuilder → Prop} {value : ElementValue}

lemma tagged_yields {α : Type} (reader : Nat → PoolTable → ByteReader α) {tag : Char}
    {encoder : Encoder (List UInt8)} {found : α}
    (yields : Yields before encoder fun bytes pool => ∀ fuel, value.depth ≤ fuel →
      pool.Encodes (fun table _ => reader fuel table) bytes found)
    (read : ∀ fuel table bytes, Reads (reader fuel table) bytes found →
      Reads (elementValueWithin table (fuel + 1)) (UInt8.ofNat tag.toNat :: bytes) value) :
    Yields before (tagged tag encoder) fun bytes pool => ∀ fuel, value.depth < fuel →
      pool.Encodes (fun table _ => elementValueWithin table fuel) bytes value := by
  refine yields.bind fun bytes => .pure ?_
  rintro pool ⟨_, encodes⟩ fuel deep table boots agrees
  obtain ⟨fuel, rfl⟩ : ∃ n, fuel = n + 1 := ⟨fuel - 1, by omega⟩
  exact read fuel table bytes (encodes fuel (by omega) agrees)

lemma constant_yields {α : Type} {tag : Char} {action : PoolM UInt16} {found : α}
    {get : PoolTable → UInt16 → Except Failure α}
    (yields : Yields before action fun index pool => pool.Refers get index found)
    (read : ∀ fuel table bytes, Reads (entry (get table)) bytes found →
      Reads (elementValueWithin table (fuel + 1)) (UInt8.ofNat tag.toNat :: bytes) value) :
    Yields before (tagged tag (index action)) fun bytes pool => ∀ fuel, value.depth < fuel →
      pool.Encodes (fun table _ => elementValueWithin table fuel) bytes value :=
  tagged_yields (fun _ table => entry (get table))
    ((index_yields yields).weaken fun _ _ _ encodes _ _ => encodes) read

section Lists

variable {α : Type}

/-- A loop that keeps what has been encoded so far encodes one value after the other. -/
lemma loop_eq {loop : Array (List UInt8) → List α → Encoder (List UInt8)}
    {encoder : α → Encoder (List UInt8)}
    (ends : ∀ written, loop written [] = pure written.toList.flatten)
    (steps : ∀ written value rest, loop written (value :: rest) = do
      loop (written.push (← encoder value)) rest) (written : Array (List UInt8)) (xs : List α) :
    loop written xs = do return written.toList.flatten ++ (← each xs encoder) := by
  induction xs generalizing written with
  | nil => simp [ends, each]
  | cons value rest ih => simp [steps, ih, each]

/-- An element of an annotation is its name and its value. -/
def element (pair : String × ElementValue) : Encoder (List UInt8) := do
  let nameIndex ← utf8 pair.1
  return nameIndex ++ (← elementValue pair.2)

lemma elements_eq (type : FieldType) (pairs : List (String × ElementValue)) :
    (do
      let typeIndex ← utf8 type.text
      let count ← within (.tooMany .elements) (ofResult (size16 pairs.length))
      return typeIndex ++ count ++ (← elementsFrom #[] pairs)) = do
        let typeIndex ← utf8 type.text
        return typeIndex ++ (← list16 (.tooMany .elements) pairs element) := by
  rw [@loop_eq _ elementsFrom element (fun _ => by rw [elementsFrom])
    fun _ _ _ => by rw [elementsFrom, element]; simp]
  simp [list16]

lemma array_eq (xs : List ElementValue) :
    (do
      let count ← within (.tooMany .arrayElements) (ofResult (size16 xs.length))
      return count ++ (← valuesFrom #[] xs)) =
        list16 (.tooMany .arrayElements) xs elementValue := by
  rw [@loop_eq _ valuesFrom elementValue (fun _ => by rw [valuesFrom])
    fun _ _ _ => by rw [valuesFrom]]
  simp [list16]

/-- A list is read back with any fuel that is enough for each of its values. -/
lemma nestedList_yields {depth : α → Nat} {reader : Nat → PoolTable → ByteReader α}
    {encoder : α → Encoder (List UInt8)} {cause : EncodingCause} {xs : List α}
    (all : ∀ value ∈ xs, Yields before (encoder value) fun bytes pool =>
      ∀ fuel, depth value < fuel → pool.Encodes (fun table _ => reader fuel table) bytes value) :
    Yields before (list16 cause xs encoder) fun bytes pool =>
      ∀ fuel, (∀ value ∈ xs, depth value < fuel) →
        pool.Encodes (fun table _ => ByteReader.list16 (reader fuel table)) bytes xs := by
  refine (list16_chunks all).weaken ?_
  rintro bytes pool _ ⟨chunks, fits, rfl, each⟩ fuel deep table boots agrees
  have reads := @chunks_read _ _ _ id _ _ _ _ (each.imp fun _ _ encodes => encodes fuel) deep _ _
    agrees
  rw [map_id] at reads
  exact Reads.list16 reads fits

/-- A type and the elements of an annotation, of which something is made. -/
lemma elements_yields {type : FieldType} {pairs : List (String × ElementValue)}
    (make : FieldType → List (String × ElementValue) → α)
    (all : ∀ pair ∈ pairs, Yields before (elementValue pair.2) fun bytes pool =>
      ∀ fuel, pair.2.depth < fuel →
        pool.Encodes (fun table _ => elementValueWithin table fuel) bytes pair.2) :
    Yields before (do
        let typeIndex ← utf8 type.text
        return typeIndex ++ (← list16 (.tooMany .elements) pairs element))
      fun bytes pool => ∀ fuel, (∀ pair ∈ pairs, pair.2.depth < fuel) →
        pool.Encodes (fun table _ => do
          let type ← entry table.fieldType
          return make type (← elements table (elementValueWithin table fuel))) bytes
            (make type pairs) := by
  have each : ∀ pair ∈ pairs, Yields before (element pair) fun bytes pool =>
      ∀ fuel, pair.2.depth < fuel → pool.Encodes (fun table _ => do
        let name ← entry table.text
        return (name, ← elementValueWithin table fuel)) bytes pair := by
    refine fun pair mem => (utf8_yields pair.1).bind fun nameBytes =>
      ((all pair mem).strengthen fun _ known => known.1).bind fun bytes => .pure ?_
    rintro pool ⟨⟨_, named⟩, encodes⟩ fuel deep table boots agrees
    exact (named agrees).bind
      ((encodes fuel deep agrees).made _)
  refine (fieldType_yields type).bind fun typeBytes =>
    ((nestedList_yields each).strengthen fun _ known => known.1).bind fun bytes => .pure ?_
  rintro pool ⟨⟨_, typed⟩, encodes⟩ fuel deep table boots agrees
  exact (typed agrees).bind
    ((encodes fuel deep agrees).made _)

end Lists

/-- A value of an annotation is read back, if it is not nested too deep. -/
lemma elementValue_yields {before : PoolBuilder → Prop} (value : ElementValue) :
    Yields before (elementValue value) fun bytes pool => ∀ fuel, value.depth < fuel →
      pool.Encodes (fun table _ => elementValueWithin table fuel) bytes value := by
  match value with
  | .byte value =>
    refine constant_yields (integer_yields _) fun fuel table bytes read => ?_
    have back := read.made fun found => ElementValue.byte found.toInt8
    rw [Int8.toInt8_toInt32] at back
    exact (Reads.u8 _).bind back
  | .char value =>
    refine constant_yields (integer_yields _) fun fuel table bytes read => ?_
    have back := read.made fun found => ElementValue.char found.toUInt32.toUInt16
    rw [UInt32.toUInt32_toInt32, UInt16.toUInt16_toUInt32] at back
    exact (Reads.u8 _).bind back
  | .double value =>
    exact constant_yields (double_yields _) fun fuel table bytes read =>
      (Reads.u8 _).bind (read.made ElementValue.double)
  | .float value =>
    exact constant_yields (float_yields _) fun fuel table bytes read =>
      (Reads.u8 _).bind (read.made ElementValue.float)
  | .int value =>
    exact constant_yields (integer_yields _) fun fuel table bytes read =>
      (Reads.u8 _).bind (read.made ElementValue.int)
  | .long value =>
    exact constant_yields (long_yields _) fun fuel table bytes read =>
      (Reads.u8 _).bind (read.made ElementValue.long)
  | .short value =>
    refine constant_yields (integer_yields _) fun fuel table bytes read => ?_
    have back := read.made fun found => ElementValue.short found.toInt16
    rw [Int16.toInt16_toInt32] at back
    exact (Reads.u8 _).bind back
  | .boolean value =>
    refine constant_yields (integer_yields _) fun fuel table bytes read => ?_
    have back := read.made fun found => ElementValue.boolean (found != 0)
    cases value <;> exact (Reads.u8 _).bind back
  | .string value =>
    exact constant_yields (javaUtf8_yields _) fun fuel table bytes read =>
      (Reads.u8 _).bind (read.made ElementValue.string)
  | .classLiteral type =>
    refine constant_yields (PoolBuilder.utf8_yields _) fun fuel table bytes read =>
      (Reads.u8 _).bind (read.bind_pure (Reads.ofResult ?_))
    rw [classLiteral, returnedText, String.toList_ofList, returnedOfChars?_chars]
  | .enumConstant type name =>
    refine tagged_yields (fun _ table => do
        let type ← entry table.fieldType
        return ElementValue.enumConstant type (← entry table.text)) ?_
      fun fuel table bytes read => (Reads.u8 _).bind read
    refine (fieldType_yields type).bind fun typeBytes => (utf8_yields name).bind fun nameBytes =>
      .pure ?_
    rintro pool ⟨⟨_, typed⟩, named⟩ fuel _ table boots agrees
    exact (typed agrees).bind
      ((named agrees).made _)
  | .nested type pairs =>
    rw [elementValue, elements_eq]
    exact tagged_yields _ ((elements_yields ElementValue.nested fun (_, value) _ =>
      elementValue_yields value).weaken fun _ _ _ encodes fuel deep =>
        encodes fuel (ElementValue.depthOfElements_le.mp deep))
      fun fuel table bytes read => (Reads.u8 _).bind read
  | .array xs =>
    rw [elementValue, array_eq]
    exact tagged_yields _ ((nestedList_yields fun value _ => elementValue_yields value).weaken
      fun _ _ _ encodes fuel deep => encodes fuel (ElementValue.depthOfValues_le.mp deep))
      fun fuel table bytes read => (Reads.u8 _).bind (read.made ElementValue.array)
decreasing_by
  · have small := sizeOf_lt_of_mem ‹_ ∈ pairs›
    simp only [Prod.mk.sizeOf_spec, ElementValue.nested.sizeOf_spec] at small ⊢
    omega
  · decreasing_tactic

lemma annotationBody_yields (note : Annotation) :
    Yields before (annotationBody note) fun bytes pool => note.IsShallow →
      pool.Encodes (fun table _ => Decode.annotationBody table) bytes note := by
  rw [annotationBody, elements_eq]
  refine (elements_yields Annotation.mk fun pair _ => elementValue_yields pair.2).weaken
    fun _ _ _ encodes shallow => encodes _ fun pair mem => ?_
  exact Nat.lt_succ_of_le (shallow pair mem)

lemma annotationList_yields (notes : List Annotation) :
    Yields before (annotationList notes) fun bytes pool => (∀ note ∈ notes, note.IsShallow) →
      pool.Encodes (fun table _ => Decode.annotationList table) bytes notes := by
  have each : ∀ note ∈ notes, Yields before (annotationBody note) fun bytes pool =>
      note.IsShallow → pool.Encodes (fun table _ => Decode.annotationBody table) bytes (id note) :=
    fun note _ => annotationBody_yields note
  refine (list16_yields each).weaken fun bytes pool _ encodes shallow => ?_
  have whole := encodes shallow
  rwa [map_id] at whole

section TypeAnnotations

variable {τ υ : Type}

lemma pathStep_reads (step : PathStep) : Reads Decode.pathStep (pathStep step) step := by
  cases step <;> exact (Reads.u8 _).bind ((Reads.u8 _).bind_pure (Reads.pure _))

lemma typePath_yields (path : TypePath) :
    Yields before (typePath path) fun bytes pool =>
      pool.Encodes (fun _ _ => ByteReader.list8 Decode.pathStep) bytes path := by
  have each : ∀ step ∈ path, Yields before (do return pathStep step : Encoder (List UInt8))
      fun bytes pool => True → pool.Encodes (fun _ _ => Decode.pathStep) bytes (id step) :=
    fun step _ => .pure fun _ _ _ _ _ _ => pathStep_reads step
  refine (list8_yields each).weaken fun bytes pool _ encodes => ?_
  have whole := encodes fun _ _ => trivial
  rwa [map_id] at whole

variable {encoder : τ → Encoder (List UInt8)} {reader : ByteReader υ}

/-- Annotations on types are read back, with the targets as they are read. -/
lemma annotatedTypeList_yields (good : τ → Prop) (results : τ → υ) {cause : EncodingCause}
    {notes : List (AnnotatedType τ)}
    (targets : ∀ note ∈ notes, Yields before (encoder note.target) fun bytes pool =>
      good note.target → pool.Encodes (fun _ _ => reader) bytes (results note.target)) :
    Yields before (list16 cause notes (annotatedType encoder)) fun bytes pool =>
      (∀ note ∈ notes, AnnotatedType.IsGood good note) →
        pool.Encodes (fun table _ => Decode.annotatedTypes table reader) bytes
          (notes.map (AnnotatedType.withTarget results)) := by
  refine list16_yields fun note mem => ?_
  refine (targets note mem).bind fun targetBytes => (typePath_yields note.path).bind fun path =>
    (annotationBody_yields note.note).bind fun body => .pure ?_
  rintro pool ⟨⟨⟨_, target⟩, path⟩, body⟩ good table boots agrees
  rw [append_assoc]
  exact (target good.1 agrees).bind ((path agrees).bind
    ((body good.2 agrees).made _))

end TypeAnnotations

end Encode

end JvmAsm
