/-
Shows that names and descriptors are read back from their texts, and that each of them is read from
its own text only.
-/
import JvmAsm.Descriptor.Text
import Mathlib

namespace JvmAsm

open List FieldType Option ClassName

variable {text : String} {chars : List Char} {type : FieldType}

@[simp] lemma UnqualifiedName.ofString?_text (name : UnqualifiedName) :
    UnqualifiedName.ofString? name.text = some name := by
  simp [UnqualifiedName.ofString?, name.valid]

@[simp] lemma MethodName.ofString?_text (name : MethodName) :
    MethodName.ofString? name.text = some name := by
  simp [MethodName.ofString?, name.valid]

@[simp] lemma ObjectName.ofString?_text (name : ObjectName) :
    ObjectName.ofString? name.text = some name := by
  simp [ObjectName.ofString?, name.valid]

lemma Name.plain_of_isObjectFrom {started : Bool}
    (valid : Name.isObjectFrom started chars = true) :
    ∀ c ∈ chars, c = '/' ∨ Name.isPlain c = true := by
  induction chars generalizing started with
  | nil => simp
  | cons c rest ih =>
    rw [Name.isObjectFrom] at valid
    split at valid
    · rw [Bool.and_eq_true] at valid
      exact forall_mem_cons.mpr ⟨.inl (by simp_all), ih valid.2⟩
    · rw [Bool.and_eq_true] at valid
      exact forall_mem_cons.mpr ⟨.inr valid.1, ih valid.2⟩

lemma ObjectName.plain (name : ObjectName) :
    ∀ c ∈ name.text.toList, c = '/' ∨ Name.isPlain c = true :=
  Name.plain_of_isObjectFrom name.valid

lemma ObjectName.ne_semicolon (name : ObjectName) : ∀ c ∈ name.text.toList, (c != ';') = true := by
  intro c mem
  rcases name.plain c mem with rfl | plain
  · rfl
  · simp_all [Name.isPlain]

/-- An object name does not start like the descriptor of an array. -/
lemma ObjectName.head_ne_bracket (name : ObjectName) :
    (name.text.toList.head? == some '[') = false := by
  cases equal : name.text.toList with
  | nil => rfl
  | cons c rest =>
    rcases name.plain c (by simp [equal]) with rfl | plain
    · rfl
    · simp_all [Name.isPlain]

lemma takeWhile_append_of_all {α : Type} {p : α → Bool} {list : List α} {last : α}
    (all : ∀ a ∈ list, p a = true) (stops : p last = false) (rest : List α) :
    (list ++ last :: rest).takeWhile p = list := by
  rw [takeWhile_append_of_pos all, takeWhile_cons_of_neg (by simp [stops]), append_nil]

lemma dropWhile_append_of_all {α : Type} {p : α → Bool} {list : List α} {last : α}
    (all : ∀ a ∈ list, p a = true) (stops : p last = false) (rest : List α) :
    (list ++ last :: rest).dropWhile p = last :: rest := by
  rw [dropWhile_append_of_pos all, dropWhile_cons_of_neg (by simp [stops])]

lemma ElementType.read?_chars (element : ElementType) (rest : List Char) :
    ElementType.read? (element.chars ++ rest) = some (element, rest) := by
  cases element with
  | primitive kind => cases kind <;> rfl
  | object name =>
    simp only [ElementType.chars, cons_append, append_assoc, nil_append, ElementType.read?]
    rw [dropWhile_append_of_all name.ne_semicolon (by rfl),
      takeWhile_append_of_all name.ne_semicolon (by rfl), String.ofList_toList]
    simp

/-- An element type starts with a letter. -/
lemma ElementType.chars_cons (element : ElementType) :
    ∃ c tail, element.chars = c :: tail ∧ (c == '[') = false ∧ c ≠ ')' := by
  cases element with
  | primitive kind => cases kind <;> exact ⟨_, _, rfl, rfl, by decide⟩
  | object name => exact ⟨'L', _, rfl, rfl, by decide⟩

@[simp] lemma FieldType.ofDimensions?_array (type : ArrayType) :
    ofDimensions? type.dimensions type.element = some (.array type) := by
  simp [ofDimensions?, type.positive, type.bounded]

/-- A type is read back from its descriptor, whatever follows it. -/
lemma FieldType.read?_chars (type : FieldType) (rest : List Char) :
    read? (type.chars ++ rest) = some (type, rest) := by
  cases type with
  | element element =>
    obtain ⟨c, tail, chars, stops, _⟩ := element.chars_cons
    have whole := element.read?_chars rest
    rw [chars, cons_append] at whole
    rw [FieldType.chars, chars, FieldType.read?, cons_append,
      dropWhile_cons_of_neg (by simp [stops]), takeWhile_cons_of_neg (by simp [stops]),
      whole]
    rfl
  | array type =>
    obtain ⟨c, tail, chars, stops, _⟩ := type.element.chars_cons
    have brackets : ∀ a ∈ replicate type.dimensions '[', (a == '[') = true := by
      simp_all [mem_replicate]
    have whole := type.element.read?_chars rest
    rw [chars, cons_append] at whole
    rw [FieldType.chars, ArrayType.chars, chars, FieldType.read?, append_assoc,
      cons_append, dropWhile_append_of_all brackets stops,
      takeWhile_append_of_all brackets stops, whole, length_replicate]
    simp

@[simp] lemma FieldType.ofChars?_chars (type : FieldType) :
    ofChars? type.chars = some type := by
  have read := type.read?_chars []
  rw [append_nil] at read
  rw [ofChars?, read]

@[simp] lemma FieldType.ofString?_text (type : FieldType) :
    ofString? type.text = some type := by
  simp [ofString?, text]

/-- A type starts neither like the end of the parameters nor like the letter of nothing. -/
lemma FieldType.chars_cons (type : FieldType) :
    ∃ c tail, type.chars = c :: tail ∧ c ≠ ')' ∧ c ≠ 'V' := by
  cases type with
  | element element =>
    cases element with
    | primitive kind => cases kind <;> exact ⟨_, _, rfl, by decide, by decide⟩
    | object name => exact ⟨'L', _, rfl, by decide, by decide⟩
  | array type =>
    obtain ⟨n, dimensions⟩ := Nat.exists_eq_succ_of_ne_zero (ne_of_gt type.positive)
    refine ⟨'[', replicate n '[' ++ type.element.chars, ?_, by decide, by decide⟩
    rw [chars, ArrayType.chars, dimensions, replicate_succ, cons_append]

@[simp] lemma returnedOfChars?_chars (type : Option FieldType) :
    returnedOfChars? (returnedChars type) = some type := by
  cases type with
  | none => rfl
  | some type =>
    obtain ⟨c, tail, chars, _, letter⟩ := type.chars_cons
    have read := type.ofChars?_chars
    rw [chars] at read
    rw [returnedChars, chars, returnedOfChars?, read]
    · rfl
    · rintro equal
      exact letter (cons.inj equal).1

/-- The parameters of a descriptor are read back up to the closing parenthesis. -/
lemma MethodDescriptor.parametersFrom?_chars (found parameters : List FieldType)
    (rest : List Char) :
    MethodDescriptor.parametersFrom? found (parameters.flatMap FieldType.chars ++ ')' :: rest) =
      some (found.reverse ++ parameters, rest) := by
  induction parameters generalizing found with
  | nil =>
    rw [MethodDescriptor.parametersFrom?.eq_def]
    simp
  | cons type parameters ih =>
    obtain ⟨c, tail, chars, close, _⟩ := type.chars_cons
    have read := type.read?_chars (parameters.flatMap FieldType.chars ++ ')' :: rest)
    rw [flatMap_cons, append_assoc]
    rw [chars, cons_append] at read ⊢
    rw [MethodDescriptor.parametersFrom?]
    · split
      · next type' rest' read' =>
        rw [read] at read'
        cases read'
        rw [ih]
        simp
      · simp_all
    · intro after equal
      exact close (cons.inj equal).1

@[simp] lemma MethodDescriptor.ofString?_text (descriptor : MethodDescriptor) :
    MethodDescriptor.ofString? descriptor.text = some descriptor := by
  simp only [MethodDescriptor.ofString?, MethodDescriptor.text, String.toList_ofList,
    MethodDescriptor.chars, MethodDescriptor.ofChars?, MethodDescriptor.parametersFrom?_chars,
    bind_eq_bind, bind_some, returnedOfChars?_chars]
  rfl

@[simp] lemma ClassName.ofString?_text (name : ClassName) :
    ofString? name.text = some name := by
  cases name with
  | object name =>
    simp [ofString?, text, name.head_ne_bracket]
  | array type =>
    have read := (FieldType.array type).ofChars?_chars
    rw [FieldType.chars] at read
    obtain ⟨n, dimensions⟩ := Nat.exists_eq_succ_of_ne_zero (ne_of_gt type.positive)
    have head : (type.chars.head? == some '[') = true := by
      simp [ArrayType.chars, dimensions, replicate_succ]
    simp [ofString?, text, FieldType.ofString?, head, read]

section Texts

variable {rest : List Char}

lemma UnqualifiedName.text_of_ofString? {name : UnqualifiedName}
    (found : UnqualifiedName.ofString? text = some name) : name.text = text := by
  simp only [UnqualifiedName.ofString?, dite_none_right_eq_some] at found
  obtain ⟨_, ⟨⟩⟩ := found
  rfl

lemma MethodName.text_of_ofString? {name : MethodName}
    (found : MethodName.ofString? text = some name) : name.text = text := by
  simp only [MethodName.ofString?, dite_none_right_eq_some] at found
  obtain ⟨_, ⟨⟩⟩ := found
  rfl

lemma ObjectName.text_of_ofString? {name : ObjectName}
    (found : ObjectName.ofString? text = some name) : name.text = text := by
  simp only [ObjectName.ofString?, dite_none_right_eq_some] at found
  obtain ⟨_, ⟨⟩⟩ := found
  rfl

lemma Primitive.letter_of_ofLetter? {c : Char} {kind : Primitive}
    (found : Primitive.ofLetter? c = some kind) : kind.letter = c := by
  unfold Primitive.ofLetter? at found
  split at found <;> cases found <;> rfl

/-- A type that is read at the front of a text is written there. -/
lemma ElementType.chars_of_read? {element : ElementType}
    (found : ElementType.read? chars = some (element, rest)) : chars = element.chars ++ rest := by
  unfold ElementType.read? at found
  split at found
  · contradiction
  · next tail =>
    split at found
    · next last after dropped =>
      obtain ⟨name, named, same⟩ := map_eq_some_iff.mp found
      cases same
      have last : last = ';' := by
        have stops := head?_dropWhile_not (· != ';') tail
        simpa [dropped] using stops
      have parts := takeWhile_append_dropWhile (p := (· != ';')) (l := tail)
      rw [dropped, last] at parts
      rw [ElementType.chars, ObjectName.text_of_ofString? named, String.toList_ofList]
      simp [parts]
    · contradiction
  · obtain ⟨kind, named, same⟩ := map_eq_some_iff.mp found
    cases same
    rw [ElementType.chars, Primitive.letter_of_ofLetter? named]
    rfl

lemma FieldType.chars_of_read? (found : read? chars = some (type, rest)) :
    chars = type.chars ++ rest := by
  simp only [read?, bind_eq_bind, bind_eq_some_iff] at found
  obtain ⟨⟨base, after⟩, read, type', sized, same⟩ := found
  cases same
  have element := ElementType.chars_of_read? read
  have parts := takeWhile_append_dropWhile (p := (· == '[')) (l := chars)
  have brackets : chars.takeWhile (· == '[') = replicate (chars.takeWhile (· == '[')).length '[' :=
    eq_replicate_of_mem fun c mem => by
      simpa using all_eq_true.mp all_takeWhile c mem
  rw [element, brackets] at parts
  unfold ofDimensions? at sized
  split at sized
  · split at sized
    · cases sized
      rw [FieldType.chars, ArrayType.chars, append_assoc, parts]
    · contradiction
  · next none =>
    cases sized
    rw [Nat.eq_zero_of_not_pos none, replicate_zero, nil_append] at parts
    rw [FieldType.chars, parts]

lemma FieldType.chars_of_ofChars? (found : ofChars? chars = some type) :
    type.chars = chars := by
  unfold ofChars? at found
  split at found
  · next read =>
    cases found
    rw [chars_of_read? read, append_nil]
  · contradiction

lemma FieldType.text_of_ofString? (found : ofString? text = some type) :
    type.text = text := by
  rw [FieldType.text, FieldType.chars_of_ofChars? found, String.ofList_toList]

lemma returnedChars_of_returnedOfChars? {type : Option FieldType}
    (found : returnedOfChars? chars = some type) : returnedChars type = chars := by
  unfold returnedOfChars? at found
  split at found
  · cases found
    rfl
  · obtain ⟨type, read, same⟩ := map_eq_some_iff.mp found
    cases same
    exact chars_of_ofChars? read

lemma MethodDescriptor.chars_of_parametersFrom? {found parameters : List FieldType}
    (read : MethodDescriptor.parametersFrom? found chars = some (parameters, rest)) :
    found.reverse.flatMap FieldType.chars ++ chars =
      parameters.flatMap FieldType.chars ++ ')' :: rest := by
  fun_induction MethodDescriptor.parametersFrom? found chars with
  | case1 found rest =>
    cases read
    rfl
  | case2 found chars _ type after first ih =>
    rw [← ih read, FieldType.chars_of_read? first]
    simp
  | case3 => contradiction

lemma MethodDescriptor.text_of_ofString? {descriptor : MethodDescriptor}
    (found : MethodDescriptor.ofString? text = some descriptor) : descriptor.text = text := by
  have chars : descriptor.chars = text.toList := by
    unfold MethodDescriptor.ofString? MethodDescriptor.ofChars? at found
    split at found
    · next rest opened =>
      simp only [bind_eq_bind, bind_eq_some_iff] at found
      obtain ⟨⟨parameters, after⟩, read, returned, last, same⟩ := found
      cases same
      have parts := MethodDescriptor.chars_of_parametersFrom? read
      rw [reverse_nil, flatMap_nil, nil_append] at parts
      rw [MethodDescriptor.chars, returnedChars_of_returnedOfChars? last, opened, parts]
    · contradiction
  rw [MethodDescriptor.text, chars, String.ofList_toList]

lemma ClassName.text_of_ofString? {name : ClassName}
    (found : ofString? text = some name) : name.text = text := by
  unfold ofString? at found
  split at found
  · split at found
    · next type read =>
      cases found
      exact FieldType.text_of_ofString? read
    · contradiction
  · obtain ⟨name, read, same⟩ := map_eq_some_iff.mp found
    cases same
    exact ObjectName.text_of_ofString? read

end Texts

end JvmAsm
