import JvmAsm.Failure.Basic

namespace JvmAsm.Text

def endsWord : List Char → Bool
  | [] => true
  | c :: rest =>
    isBlank c || c == '"' || (Mark.ofChar? c).isSome || (c == '/' && rest.head? == some '/')

def takeWord (taken : List Char) : List Char → List Char × List Char
  | [] => (taken.reverse, [])
  | c :: rest =>
    if endsWord (c :: rest) then (taken.reverse, c :: rest) else takeWord (c :: taken) rest

/-- Takes the contents of a string up to the closing quote; what is taken is kept in reverse. -/
def takeString (taken : List Char) : List Char → Option (List Char × List Char)
  | [] => none
  | '"' :: rest => some (taken.reverse, rest)
  | '\\' :: c :: rest => takeString (c :: '\\' :: taken) rest
  | c :: rest => takeString (c :: taken) rest

theorem length_takeWord (taken chars : List Char) :
    (takeWord taken chars).2.length ≤ chars.length := by
  induction chars generalizing taken with
  | nil => simp [takeWord]
  | cons c rest inductionHypothesis =>
    unfold takeWord
    split
    · simp
    · exact Nat.le_trans (inductionHypothesis _) (Nat.le_succ _)

theorem length_takeString {taken chars contents after : List Char}
    (found : takeString taken chars = some (contents, after)) : after.length < chars.length := by
  fun_induction takeString taken chars with
  | case1 => simp at found
  | case2 =>
    cases found
    simp
  | case3 taken c rest inductionHypothesis =>
    have := inductionHypothesis found
    simp
    omega
  | case4 taken c rest _ _ inductionHypothesis =>
    have := inductionHypothesis found
    simp
    omega

/-- A fault in a line, with the column of the token that has it. -/
abbrev TokenFault := Nat × TextCause

def tokensFrom (column : Nat) (found : List Located) (chars : List Char) :
    Except TokenFault (List Located) :=
  match chars with
  | [] => .ok found.reverse
  | c :: rest =>
    if isBlank c then tokensFrom (column + 1) found rest
    else if c == '/' && rest.head? == some '/' then .ok found.reverse
    else
      match Mark.ofChar? c with
      | some mark => tokensFrom (column + 1) (⟨.mark mark, column⟩ :: found) rest
      | none =>
        if c == '"' then
          match _taken : takeString [] rest with
          | none => .error (column, .openString)
          | some (contents, after) =>
            match JavaString.unescape contents with
            | .error fault => .error (column, .escape fault)
            | .ok value =>
              tokensFrom (column + contents.length + 2) (⟨.string value, column⟩ :: found) after
        else
          let word := takeWord [c] rest
          let token := ⟨.word (String.ofList word.1), column⟩
          tokensFrom (column + word.1.length) (token :: found) word.2
termination_by chars.length
decreasing_by
  all_goals simp
  · have := length_takeString _taken
    omega
  · have := length_takeWord [c] rest
    omega

def tokens (chars : List Char) : Except TokenFault (List Located) := tokensFrom 1 [] chars

/-- Divides a text; the lines found so far and the characters of the current one are in reverse. -/
def linesFrom (found : List (List Char)) (current : List Char) : List Char → List (List Char)
  | [] => (if current.isEmpty then found else current.reverse :: found).reverse
  | '\n' :: rest =>
    let line := match current with
      | '\r' :: before => before
      | current => current
    linesFrom (line.reverse :: found) [] rest
  | c :: rest => linesFrom found (c :: current) rest

/--
The lines of a text. A line ends with a line feed, before which a carriage return is dropped, and
the last line may end without one.
-/
def lines (text : List Char) : List (List Char) := linesFrom [] [] text

def tokenLines (lines : List (List Char)) : Except Failure (List Line) := do
  let found ← lines.zipIdx.mapM fun (chars, index) =>
    match tokens chars with
    | .ok tokens => .ok ⟨index + 1, tokens, chars.length + 1⟩
    | .error (column, cause) =>
      .error ((Failure.ofCause (.text cause)).withKind (.syntaxError (index + 1) column))
  return found.filter fun line => !line.tokens.isEmpty

end JvmAsm.Text
