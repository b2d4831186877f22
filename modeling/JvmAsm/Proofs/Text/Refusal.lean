/-
Says how the parts of a line are refused: without a kind, and with the tokens left from the one that
is at fault.
-/
import JvmAsm.Proofs.Text.LineReader
import JvmAsm.Text.Parse

namespace JvmAsm.Text

open Number LineReader

variable {α β : Type} {kind : NameKind} {read? : String → Option α} {text : String}

section Words

variable {result : Except α β}

instance : Plain (checked kind read? text) := by
  unfold checked
  split <;> infer_instance

instance {string : JavaString} : Plain (plainText string) := by
  unfold plainText
  split <;> infer_instance

instance : Plain (splitMember text) := by
  unfold splitMember
  dsimp only
  split <;> infer_instance

instance {change : α → Cause} :
    Plain (result.mapError fun fault => .ofCause (change fault)) := by
  cases result with
  | ok value => exact inferInstanceAs (Plain (.ok value))
  | error fault => exact .error

instance {change : α → Cause} {cause : Cause} :
    Plain (result.mapError fun fault => (Failure.ofCause (change fault)).within cause) := by
  cases result with
  | ok value => exact inferInstanceAs (Plain (.ok value))
  | error fault => exact .error

instance {cause : α → TextCause} : Plain (Literal.invalid text cause result) :=
  inferInstanceAs (Plain (result.mapError _))

instance {format : FloatFormat} {digits : String} : Plain (Literal.readBits text format digits) :=
  .steps

instance {format : FloatFormat} {body : String} : Plain (Literal.readDecimal text format body) :=
  inferInstanceAs (Plain (Literal.invalid ..))

instance : Plain (Literal.read text) := by
  unfold Literal.read
  dsimp only
  split <;> infer_instance

instance : Plain (classLiteral text) := by
  unfold classLiteral
  split <;> infer_instance

instance {low : Int32} {count : Nat} : Plain (tableEnd low count) := by
  unfold tableEnd
  dsimp only
  repeat' split
  all_goals first | infer_instance | exact .error

instance {type : FieldType} {value : ConstantValue} : Plain (fitting type value) := by
  unfold fitting
  infer_instance

instance : Plain (joinedMethodName text) := by
  unfold joinedMethodName
  infer_instance

end Words

section Readers

variable {reader : LineReader α} {f : String → Except Failure α} [∀ text, Plain (f text)]
variable {fuel limit : Nat}

instance {cause : TextCause} : Advances (fail cause : LineReader α) := .throw rfl

instance {result : Except Failure α} [plain : Plain result] : Advances (ofResult result) := by
  cases result with
  | ok value => exact inferInstanceAs (Advances (pure value))
  | error failure => exact .throw (plain.kinds failure rfl)

instance : Advances (get : LineReader (List Located)) := ⟨fun tokens => ⟨Conduct.refl tokens, trivial⟩⟩

instance : Advances advance := ⟨fun tokens => ⟨List.tail_suffix tokens, trivial⟩⟩

instance {next : LineReader β} [Advances reader] [Advances next] : Advances (reader *> next) := by
  rw [seqRight_eq_bind]
  infer_instance

instance : Advances peek? := .steps

instance : Advances peekWord? := .after fun token => by split <;> infer_instance

instance : Advances isAtEnd := .steps

instance : Advances (parsed f) := .after fun token => by split <;> infer_instance

instance : Advances word := inferInstanceAs (Advances (parsed _))

instance : Advances (named f) := .after fun token => by split <;> infer_instance

instance : Advances name := inferInstanceAs (Advances (named _))

instance : Advances isName := .after fun token => by split <;> infer_instance

instance : Advances string := .after fun token => by split <;> infer_instance

instance : Advances plainString := .after fun token => by split <;> infer_instance

instance : Advances (expectWord text) := .steps

instance {mark : Mark} : Advances (expectMark mark) := .steps

instance {token : Token} : Advances (eat token) := .steps

instance : Advances (eatWord text) := inferInstanceAs (Advances (eat _))

instance {mark : Mark} : Advances (eatMark mark) := inferInstanceAs (Advances (eat _))

instance [Advances reader] : Advances (liftM reader : LineReader α) := inferInstanceAs (Advances reader)

instance [Advances reader] {found : Array α} : Advances (listFrom reader fuel found) := by
  induction fuel generalizing found with
  | zero => exact inferInstanceAs (Advances (liftM _))
  | succ fuel ih => exact .steps

instance [Advances reader] : Advances (bracedWithin limit reader) := .steps

instance [Advances reader] : Advances (braced reader) := .steps

instance [Advances reader] {found : Array α} : Advances (namesFrom reader fuel found) := by
  induction fuel generalizing found with
  | zero => exact inferInstanceAs (Advances (pure _))
  | succ fuel ih => exact .steps

instance [Advances reader] : Advances (names reader) := .steps

instance {read : String → Except IntegerFault α} : Advances (number read) :=
  inferInstanceAs (Advances (parsed _))

instance : Advances className := inferInstanceAs (Advances (named _))

instance : Advances fieldName := inferInstanceAs (Advances (named _))

instance : Advances methodName := inferInstanceAs (Advances (named _))

instance : Advances fieldType := inferInstanceAs (Advances (named _))

instance : Advances methodDescriptor := inferInstanceAs (Advances (named _))

instance : Advances (member kind read?) := inferInstanceAs (Advances (named _))

instance : Advances fieldRef := .steps

instance : Advances methodRef := .steps

instance : Advances onInterface := inferInstanceAs (Advances (eatWord _))

instance : Advances handle := .after fun _ => .after fun kind => by
  repeat' split
  all_goals infer_instance

instance : Advances isQuotedClass := .after fun tokens => by split <;> infer_instance

instance : Advances (loadableWithin limit fuel) := by
  induction fuel with
  | zero => exact inferInstanceAs (Advances (fail _))
  | succ fuel ih =>
    refine .after fun token => ?_
    repeat' split
    all_goals infer_instance

instance : Advances loadable := .steps

instance : Advances arguments := .steps

instance : Advances annotationType := .after fun found => by
  split
  · infer_instance
  · have plain (text : String) : Plain (match text.toList with
      | '@' :: rest => checked .fieldDescriptor FieldType.ofString? (String.ofList rest)
      | _ => .error (.ofCause (.text (.annotationMissing text)))) := by
      split <;> infer_instance
    infer_instance

instance {value : LineReader ElementValue} [Advances value] : Advances (namedElement value) :=
  .steps

instance : Advances (elementValueWithin limit fuel) := by
  induction fuel with
  | zero => exact inferInstanceAs (Advances (fail _))
  | succ fuel ih =>
    refine .after fun token => ?_
    repeat' split
    all_goals infer_instance

instance : Advances elementValue := .steps

instance : Advances readAnnotation := .steps

instance : Advances rawAttribute := .after fun name => .after fun hex => by
  dsimp only
  repeat' split
  all_goals infer_instance

instance {kind : FlagKind} {flags : Flags kind} : Advances (flagsFrom fuel flags) := by
  induction fuel generalizing flags with
  | zero => exact inferInstanceAs (Advances (pure _))
  | succ fuel ih =>
    refine .after fun token => ?_
    repeat' split
    all_goals infer_instance

instance {kind : FlagKind} : Advances (flags : LineReader (Flags kind)) := .steps

instance : Advances typePath := .steps

instance : Advances memberTarget := .steps

instance {what : Once} {given : Option β} {reader : LineReader β} [Advances reader] :
    Advances (Directives.once what given reader) := .steps

instance : Advances Directives.methodParameter := .steps

variable {directives : Directives} {visible : Bool} {line : Nat}

instance : Advances (directives.parameterAnnotation visible) := .after fun index => by
  split <;> infer_instance

instance : Advances (directives.plainAnnotation visible) := .steps

instance : Advances (directives.directive line) := .after fun invisible => .after fun text => by
  split <;> infer_instance

instance {version : Version} : Advances (classHeader version) :=
  .after fun access => .after fun _ => .after fun name => .after fun extending => by
    dsimp only
    split <;> infer_instance

instance {type : FieldType} : Advances (constantValue type) := .after fun token => by
  split <;> infer_instance

instance : Advances fieldHeader := .steps

instance : Advances methodHeader := .after fun access => .after fun token => by
  split <;> infer_instance

instance : Advances enclosingMethod := .steps

instance : Advances innerClass := .after fun inner => .after fun hasOuter => by
  dsimp only
  split <;> infer_instance

instance : Advances recordComponent := .steps

instance : Advances versionLine := .steps

end Readers

end JvmAsm.Text
