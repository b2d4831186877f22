import JvmAsm.Descriptor.Basic

namespace JvmAsm

namespace ElementType

def chars : ElementType → List Char
  | .primitive kind => [kind.letter]
  | .object name => 'L' :: (name.text.toList ++ [';'])

def read? : List Char → Option (ElementType × List Char)
  | [] => none
  | 'L' :: rest =>
    match rest.dropWhile (· != ';') with
    | _ :: after =>
      (ObjectName.ofString? (String.ofList (rest.takeWhile (· != ';')))).map fun name =>
        (.object name, after)
    | [] => none
  | letter :: rest => (Primitive.ofLetter? letter).map fun kind => (.primitive kind, rest)

end ElementType

def ArrayType.chars (type : ArrayType) : List Char :=
  List.replicate type.dimensions '[' ++ type.element.chars

namespace FieldType

def chars : FieldType → List Char
  | .element base => base.chars
  | .array type => type.chars

def text (type : FieldType) : String := String.ofList type.chars

def ofDimensions? (dimensions : Nat) (base : ElementType) : Option FieldType :=
  if positive : 0 < dimensions then
    if bounded : dimensions ≤ 255 then some (.array ⟨dimensions, base, positive, bounded⟩) else none
  else some (.element base)

def read? (chars : List Char) : Option (FieldType × List Char) := do
  let (base, rest) ← ElementType.read? (chars.dropWhile (· == '['))
  let type ← ofDimensions? (chars.takeWhile (· == '[')).length base
  return (type, rest)

def ofChars? (chars : List Char) : Option FieldType :=
  match read? chars with
  | some (type, []) => some type
  | _ => none

def ofString? (text : String) : Option FieldType := ofChars? text.toList

end FieldType

/-- The descriptor of what a method returns, where the letter of nothing is `V`. -/
def returnedChars : Option FieldType → List Char
  | none => ['V']
  | some type => type.chars

def returnedText (type : Option FieldType) : String := String.ofList (returnedChars type)

def returnedOfChars? : List Char → Option (Option FieldType)
  | ['V'] => some none
  | chars => (FieldType.ofChars? chars).map some

theorem length_dropWhile_le {α : Type} (p : α → Bool) (list : List α) :
    (list.dropWhile p).length ≤ list.length :=
  (List.dropWhile_sublist p).length_le

theorem ElementType.length_lt_of_read? {chars rest : List Char} {element : ElementType}
    (found : ElementType.read? chars = some (element, rest)) : rest.length < chars.length := by
  fun_cases ElementType.read? chars with
  | case1 => simp [ElementType.read?] at found
  | case2 tail c after dropped =>
    have := length_dropWhile_le (· != ';') tail
    simp only [ElementType.read?, dropped, Option.map_eq_some_iff, Prod.mk.injEq] at found
    obtain ⟨_, _, _, rfl⟩ := found
    rw [dropped] at this
    simp at this ⊢
    omega
  | case3 tail dropped => simp [ElementType.read?, dropped] at found
  | case4 letter tail different =>
    unfold ElementType.read? at found
    split at found
    · contradiction
    · simp_all
    · rename_i equal
      obtain ⟨rfl, rfl⟩ := List.cons.inj equal
      obtain ⟨_, _, same⟩ := Option.map_eq_some_iff.1 found
      cases same
      simp

theorem FieldType.length_lt_of_read? {chars rest : List Char} {type : FieldType}
    (found : FieldType.read? chars = some (type, rest)) : rest.length < chars.length := by
  simp only [FieldType.read?, Option.bind_eq_bind, Option.bind_eq_some_iff] at found
  obtain ⟨⟨element, after⟩, read, type', _, equal⟩ := found
  have := ElementType.length_lt_of_read? read
  have := length_dropWhile_le (· == '[') chars
  cases equal
  dsimp only
  omega

namespace MethodDescriptor

def chars (descriptor : MethodDescriptor) : List Char :=
  '(' :: (descriptor.parameters.flatMap FieldType.chars ++ ')' :: returnedChars descriptor.returned)

def text (descriptor : MethodDescriptor) : String := String.ofList descriptor.chars

/-- Reads types up to the closing parenthesis; those found so far are kept in reverse. -/
def parametersFrom? (found : List FieldType) (chars : List Char) :
    Option (List FieldType × List Char) :=
  match chars with
  | ')' :: rest => some (found.reverse, rest)
  | chars =>
    match _read : FieldType.read? chars with
    | some (type, rest) => parametersFrom? (type :: found) rest
    | none => none
termination_by chars.length
decreasing_by exact FieldType.length_lt_of_read? _read

def ofChars? : List Char → Option MethodDescriptor
  | '(' :: rest => do
    let (parameters, after) ← parametersFrom? [] rest
    let returned ← returnedOfChars? after
    return ⟨parameters, returned⟩
  | _ => none

def ofString? (text : String) : Option MethodDescriptor := ofChars? text.toList

end MethodDescriptor

namespace ClassName

/-- An array class is named by its descriptor. -/
def chars : ClassName → List Char
  | .object name => name.text.toList
  | .array type => type.chars

def text : ClassName → String
  | .object name => name.text
  | .array type => String.ofList type.chars

def ofString? (text : String) : Option ClassName :=
  if text.toList.head? == some '[' then
    match FieldType.ofString? text with
    | some (.array type) => some (.array type)
    | _ => none
  else (ObjectName.ofString? text).map .object

instance : Hashable ClassName where
  hash name := hash name.text

end ClassName

end JvmAsm
