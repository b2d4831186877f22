import JvmAsm.Text.Lines

namespace JvmAsm.Text

open Number

abbrev LineReader := EStateM Failure (List Located)

namespace LineReader

variable {α : Type}

def fail (cause : TextCause) : LineReader α := throw (.ofCause (.text cause))

def ofResult : Except Failure α → LineReader α
  | .ok value => pure value
  | .error failure => throw failure

def peek? : LineReader (Option Token) := do
  return (← get).head?.map Located.token

def peekWord? : LineReader (Option String) := do
  match ← peek? with
  | some (.word text) => return some text
  | _ => return none

def advance : LineReader Unit := modify List.tail

def isAtEnd : LineReader Bool := do
  return (← get).isEmpty

/-- Takes a word that the function accepts. -/
def parsed (f : String → Except Failure α) : LineReader α := do
  match ← peek? with
  | some (.word text) =>
    let value ← ofResult (f text)
    advance
    return value
  | got => fail (.expected .word got)

def word : LineReader String := parsed .ok

def plainText (string : JavaString) : Except Failure String :=
  match string.text? with
  | some text => .ok text
  | none => .error (.ofCause (.text (.loneSurrogates string)))

/-- Takes a word or a string that the function accepts. -/
def named (f : String → Except Failure α) : LineReader α := do
  match ← peek? with
  | some (.word text) =>
    let value ← ofResult (f text)
    advance
    return value
  | some (.string string) =>
    let text ← ofResult (plainText string)
    let value ← ofResult (f text)
    advance
    return value
  | got => fail (.expected .name got)

/-- Takes a word or a string as it is. -/
def name : LineReader String := named .ok

def isName : LineReader Bool := do
  match ← peek? with
  | some (.word _) | some (.string _) => return true
  | _ => return false

def string : LineReader JavaString := do
  match ← peek? with
  | some (.string string) =>
    advance
    return string
  | got => fail (.expected .string got)

/-- Takes a string in which no surrogate stands alone. -/
def plainString : LineReader String := do
  match ← peek? with
  | some (.string string) =>
    let text ← ofResult (plainText string)
    advance
    return text
  | got => fail (.expected .string got)

def expectWord (text : String) : LineReader Unit := do
  let got ← peek?
  if got = some (.word text) then advance else fail (.expected (.exactly text) got)

def expectMark (mark : Mark) : LineReader Unit := do
  let got ← peek?
  if got = some (.mark mark) then advance else fail (.expected (.exactly mark.char.toString) got)

/-- Takes the token if it is the next one. -/
def eat (token : Token) : LineReader Bool := do
  let found := (← peek?) = some token
  if found then
    advance
  return found

def eatWord (text : String) : LineReader Bool := eat (.word text)

def eatMark (mark : Mark) : LineReader Bool := eat (.mark mark)

section Lists

variable {m : Type → Type} [Monad m] [MonadLiftT LineReader m]

/-- The elements of a list that has some; every turn takes a token at least. -/
@[specialize]
def listFrom (element : m α) : Nat → Array α → m (List α)
  | 0, _ => liftM (fail (.expected (.exactly Mark.comma.char.toString) none) : LineReader (List α))
  | fuel + 1, found => do
    let value ← element
    let found := found.push value
    if ← eatMark .closeBrace then return found.toList
    expectMark .comma
    listFrom element fuel found

/--
A list between braces with commas between its elements. It has no more elements than there are
tokens, which are no more than the limit.
-/
@[specialize]
def bracedWithin (limit : Nat) (element : m α) : m (List α) := do
  expectMark .openBrace
  if ← eatMark .closeBrace then return []
  listFrom element (limit + 1) #[]

@[specialize]
def braced (element : m α) : m (List α) := do
  let tokens ← liftM (get : LineReader (List Located))
  bracedWithin tokens.length element

end Lists

/-- Takes elements as long as names follow; every turn takes a token. -/
def namesFrom (element : LineReader α) : Nat → Array α → LineReader (List α)
  | 0, found => return found.toList
  | fuel + 1, found => do
    if ← isName then
      let value ← element
      namesFrom element fuel (found.push value)
    else return found.toList

def names (element : LineReader α) : LineReader (List α) := do
  namesFrom element (← get).length #[]

/-- Takes a number with the given reader of digits. -/
def number (read : String → Except IntegerFault α) : LineReader α :=
  parsed fun text => (read text).mapError fun fault =>
    (Failure.ofCause (.text (.number fault))).within (.text (.invalidNumber text))

def checked (kind : NameKind) (read? : String → Option α) (text : String) : Except Failure α :=
  match read? text with
  | some value => .ok value
  | none => .error (.ofCause (.text (.invalidName kind text)))

def className : LineReader ClassName := named (checked .className ClassName.ofString?)

def fieldName : LineReader UnqualifiedName := named (checked .fieldName UnqualifiedName.ofString?)

def methodName : LineReader MethodName := named (checked .methodName MethodName.ofString?)

def fieldType : LineReader FieldType := named (checked .fieldDescriptor FieldType.ofString?)

def methodDescriptor : LineReader MethodDescriptor :=
  named (checked .methodDescriptor MethodDescriptor.ofString?)

end LineReader

/-- The column of the first of the tokens that are left. -/
def Line.columnOf (line : Line) (rest : List Located) : Nat :=
  (rest.head?.map Located.column).getD line.endColumn

/-- Reads a whole line. A failure without a kind is a syntax error at the token it stopped at. -/
def Line.read {α : Type} (line : Line) (reader : LineReader α) : Except Failure α :=
  match reader.run line.tokens with
  | .ok value [] => .ok value
  | .ok _ (rest@(first :: _)) =>
    .error ((Failure.ofCause (.text (.leftOver first.token))).withKind
      (.syntaxError line.number (line.columnOf rest)))
  | .error failure rest =>
    .error (failure.orKind (.syntaxError line.number (line.columnOf rest)))

end JvmAsm.Text
