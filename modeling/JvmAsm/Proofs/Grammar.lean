/- Says which texts are descriptors. -/
import JvmAsm.Proofs.Descriptor

namespace JvmAsm

open List Option

/-- None of the characters divides or ends a name. -/
def ArePlain (chars : List Char) : Prop := ∀ c ∈ chars, c ∉ ['.', ';', '[', '/']

/-- The names of classes that are no arrays: parts with slashes between them. -/
inductive IsObjectText : List Char → Prop
  | last {part : List Char} (filled : part ≠ []) (plain : ArePlain part) : IsObjectText part
  | parts {part rest : List Char} (filled : part ≠ []) (plain : ArePlain part)
      (more : IsObjectText rest) : IsObjectText (part ++ '/' :: rest)

/-- The descriptors of types with the given number of dimensions. -/
inductive IsFieldText : Nat → List Char → Prop
  | primitive (letter : Char) (known : letter ∈ ['B', 'C', 'D', 'F', 'I', 'J', 'S', 'Z']) :
      IsFieldText 0 [letter]
  | object {chars : List Char} (named : IsObjectText chars) :
      IsFieldText 0 ('L' :: (chars ++ [';']))
  | array {dimensions : Nat} {chars : List Char} (component : IsFieldText dimensions chars) :
      IsFieldText (dimensions + 1) ('[' :: chars)

def IsFieldDescriptor (chars : List Char) : Prop := ∃ dimensions ≤ 255, IsFieldText dimensions chars

def IsMethodDescriptor (chars : List Char) : Prop :=
  ∃ (parameters : List (List Char)) (returned : List Char),
    (∀ parameter ∈ parameters, IsFieldDescriptor parameter) ∧
    (returned = ['V'] ∨ IsFieldDescriptor returned) ∧
    chars = '(' :: (parameters.flatten ++ ')' :: returned)

variable {chars part rest : List Char}

namespace Name

lemma isPlain_iff {c : Char} : isPlain c = true ↔ c ∉ ['.', ';', '[', '/'] := by
  simp [isPlain, and_assoc]

/-- A part has been started once it has a character. -/
lemma isObjectFrom_append (plain : ArePlain part) (started : Bool) :
    isObjectFrom started (part ++ rest) = isObjectFrom (started || !part.isEmpty) rest := by
  induction part generalizing started with
  | nil => simp
  | cons c part ih =>
    obtain ⟨first, plain⟩ := forall_mem_cons.mp plain
    have slash : (c == '/') = false := by simp_all
    rw [cons_append, isObjectFrom, slash, isPlain_iff.mpr first]
    simp [ih plain]

lemma isObject_iff : isObject chars = true ↔ IsObjectText chars := by
  constructor
  · -- What has been read of a part stands before the rest.
    have parts (part : List Char) (plain : ArePlain part)
        (valid : isObjectFrom (!part.isEmpty) chars = true) : IsObjectText (part ++ chars) := by
      induction chars generalizing part with
      | nil => simpa using IsObjectText.last (by simpa [isObjectFrom] using valid) plain
      | cons c chars ih =>
        rw [isObjectFrom] at valid
        split at valid
        · next slash =>
          obtain rfl := beq_iff_eq.mp slash
          rw [Bool.and_eq_true] at valid
          exact .parts (by simpa using valid.1) plain (ih [] (forall_mem_nil _) valid.2)
        · rw [Bool.and_eq_true] at valid
          have filled : (part ++ [c]).isEmpty = false := by simp
          rw [← singleton_append, ← append_assoc]
          refine ih _ (forall_mem_append.mpr ⟨plain, ?_⟩) (filled ▸ valid.2)
          simpa using isPlain_iff.mp valid.1
    exact parts [] (forall_mem_nil _)
  · intro named
    unfold isObject
    induction named with
    | last filled plain =>
      have valid : isObjectFrom false (_ ++ []) = _ := isObjectFrom_append plain false
      rw [append_nil] at valid
      simpa [valid, isObjectFrom] using filled
    | parts filled plain _ ih =>
      rw [isObjectFrom_append plain, isObjectFrom]
      simpa [ih] using filled

end Name

lemma ElementType.isFieldText (element : ElementType) : IsFieldText 0 element.chars := by
  cases element with
  | primitive kind => cases kind <;> exact .primitive _ (by decide)
  | object name => exact .object (Name.isObject_iff.mp name.valid)

lemma FieldType.isFieldDescriptor (type : FieldType) : IsFieldDescriptor type.chars := by
  cases type with
  | element element => exact ⟨0, Nat.zero_le _, element.isFieldText⟩
  | array type =>
    refine ⟨type.dimensions, type.bounded, ?_⟩
    rw [chars, ArrayType.chars]
    induction type.dimensions with
    | zero => exact type.element.isFieldText
    | succ dimensions ih => exact .array ih

lemma IsFieldText.written {dimensions : Nat} (field : IsFieldText dimensions chars) :
    ∃ element : ElementType, chars = replicate dimensions '[' ++ element.chars := by
  induction field with
  | primitive letter known =>
    obtain ⟨kind, found⟩ : ∃ kind, Primitive.ofLetter? letter = some kind := by
      simp only [mem_cons, not_mem_nil, or_false] at known
      rcases known with rfl | rfl | rfl | rfl | rfl | rfl | rfl | rfl <;> exact ⟨_, rfl⟩
    exact ⟨.primitive kind, by simp [ElementType.chars, Primitive.letter_of_ofLetter? found]⟩
  | @object chars named =>
    refine ⟨.object ⟨String.ofList chars, ?_⟩, by simp [ElementType.chars]⟩
    rw [String.toList_ofList]
    exact Name.isObject_iff.mpr named
  | array _ ih =>
    obtain ⟨element, rfl⟩ := ih
    exact ⟨element, by rw [replicate_succ, cons_append]⟩

lemma isFieldDescriptor_iff :
    IsFieldDescriptor chars ↔ ∃ type : FieldType, type.chars = chars := by
  constructor
  · rintro ⟨dimensions, bounded, field⟩
    obtain ⟨element, rfl⟩ := field.written
    rcases Nat.eq_zero_or_pos dimensions with rfl | positive
    · exact ⟨.element element, rfl⟩
    · exact ⟨.array ⟨dimensions, element, positive, bounded⟩, rfl⟩
  · rintro ⟨type, rfl⟩
    exact type.isFieldDescriptor

lemma isMethodDescriptor_iff :
    IsMethodDescriptor chars ↔ ∃ descriptor : MethodDescriptor, descriptor.chars = chars := by
  constructor
  · rintro ⟨parameters, returned, each, last, rfl⟩
    obtain ⟨types, rfl⟩ : ∃ types : List FieldType, types.map FieldType.chars = parameters := by
      induction parameters with
      | nil => exact ⟨[], rfl⟩
      | cons parameter parameters ih =>
        obtain ⟨first, others⟩ := forall_mem_cons.mp each
        obtain ⟨type, rfl⟩ := isFieldDescriptor_iff.mp first
        obtain ⟨types, rfl⟩ := ih others
        exact ⟨type :: types, rfl⟩
    rw [← flatMap_def]
    rcases last with rfl | field
    · exact ⟨⟨types, none⟩, rfl⟩
    · obtain ⟨type, rfl⟩ := isFieldDescriptor_iff.mp field
      exact ⟨⟨types, some type⟩, rfl⟩
  · rintro ⟨⟨parameters, returned⟩, rfl⟩
    refine ⟨parameters.map FieldType.chars, returnedChars returned, ?_, ?_, ?_⟩
    · simpa using fun type _ => type.isFieldDescriptor
    · cases returned with
      | none => exact .inl rfl
      | some type => exact .inr type.isFieldDescriptor
    · rw [MethodDescriptor.chars, flatMap_def]

lemma ClassName.component_arrayOf? (name : ClassName)
    (bounded : ∀ type, name = .array type → type.dimensions ≠ 255) :
    ∃ type, name.arrayOf? = some (.array type) ∧ type.component.className? = some name := by
  cases name with
  | object name => exact ⟨_, rfl, rfl⟩
  | array type =>
    have fewer : type.dimensions + 1 ≤ 255 := by
      have := type.bounded
      have := bounded type rfl
      omega
    refine ⟨⟨type.dimensions + 1, type.element, Nat.succ_pos _, fewer⟩, ?_, ?_⟩
    · simp [arrayOf?, fieldType, FieldType.arrayOf?, fewer]
    · simp [ArrayType.component, type.positive, FieldType.className?]

/--
A text is read as a descriptor if and only if it follows the grammar, and what is read is written as
that text. What is written is read back, and arrays have the components they are made of.
-/
theorem descriptors_follow_grammar (text : String) :
    ((FieldType.ofString? text).isSome ↔ IsFieldDescriptor text.toList) ∧
    ((MethodDescriptor.ofString? text).isSome ↔ IsMethodDescriptor text.toList) ∧
    (∀ type, FieldType.ofString? text = some type → type.text = text) ∧
    (∀ descriptor, MethodDescriptor.ofString? text = some descriptor → descriptor.text = text) ∧
    (∀ type : FieldType, FieldType.ofString? type.text = some type) ∧
    (∀ descriptor : MethodDescriptor,
      MethodDescriptor.ofString? descriptor.text = some descriptor) ∧
    ∀ name : ClassName, (∀ type, name = .array type → type.dimensions ≠ 255) →
      ∃ type, name.arrayOf? = some (.array type) ∧ type.component.className? = some name := by
  refine ⟨?_, ?_, fun _ => FieldType.text_of_ofString?, fun _ => MethodDescriptor.text_of_ofString?,
    FieldType.ofString?_text, MethodDescriptor.ofString?_text, ClassName.component_arrayOf?⟩
  · rw [isFieldDescriptor_iff, isSome_iff_exists]
    refine exists_congr fun type => ⟨FieldType.chars_of_ofChars?, fun same => ?_⟩
    rw [FieldType.ofString?, ← same, FieldType.ofChars?_chars]
  · rw [isMethodDescriptor_iff, isSome_iff_exists]
    refine exists_congr fun descriptor => ⟨fun found => ?_, fun same => ?_⟩
    · rw [← MethodDescriptor.text_of_ofString? found, MethodDescriptor.text, String.toList_ofList]
    · rw [← String.ofList_toList (s := text), ← same]
      exact descriptor.ofString?_text

/-- The root is the component of its arrays. -/
theorem descriptors_follow_grammar_root :
    (∀ type, ClassName.root = .array type → type.dimensions ≠ 255) ∧
    ∃ type, ClassName.root.arrayOf? = some (.array type) ∧ type.component.className? = some .root :=
  ⟨nofun, (descriptors_follow_grammar "").2.2.2.2.2.2 .root nofun⟩

end JvmAsm
