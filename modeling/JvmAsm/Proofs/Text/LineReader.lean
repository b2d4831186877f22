/- Says what the readers of tokens do with the tokens of a line. -/
import JvmAsm.Proofs.Text.Lines

namespace JvmAsm.Text

open LineReader

variable {α : Type}
variable {reader : LineReader α} {good : α → Prop} {value : α} {f : String → Except Failure α}
variable {line : Line}

lemma parsed_word (f : String → Except Failure α) (text : String) (column : Nat)
    (rest : List Located) :
    parsed f (⟨.word text, column⟩ :: rest) =
      match f text with
      | .ok value => .ok value rest
      | .error failure => .error failure (⟨.word text, column⟩ :: rest) := by
  change EStateM.bind (LineReader.ofResult (f text)) _ _ = _
  cases f text with
  | ok value => rfl
  | error failure => rfl

/-- A word that is accepted has been the next token. -/
lemma parsed_inversion {tokens rest : List Located} (ran : parsed f tokens = .ok value rest) :
    ∃ text column, tokens = ⟨.word text, column⟩ :: rest ∧ f text = .ok value := by
  match tokens with
  | [] => cases ran
  | ⟨.string _, _⟩ :: _ => cases ran
  | ⟨.mark _, _⟩ :: _ => cases ran
  | ⟨.word text, column⟩ :: after =>
    rw [parsed_word] at ran
    split at ran
    · next found =>
      cases ran
      exact ⟨text, column, rfl, found⟩
    · contradiction

lemma parsed_gives (holds : ∀ text value, f text = .ok value → good value) :
    Gives (parsed f) good := by
  intro tokens value rest ran
  obtain ⟨text, _, _, found⟩ := parsed_inversion ran
  exact holds text value found

lemma ofResult_gives {result : Except Failure α}
    (holds : ∀ value, result = .ok value → good value) :
    Gives (LineReader.ofResult result) good := by
  cases result with
  | ok value => exact .pure (holds value rfl)
  | error failure => exact .throw

/-- A reader takes tokens from the left, and its failures have no kind yet. -/
instance : Conduct (List Located) where
  Reaches tokens rest := rest <:+ tokens
  refl := List.suffix_refl
  trans first second := second.trans first
  Permits failure := failure.kinds = []
  plain := id

/-- Whatever a reader does with the tokens of a line, its failure has a place on the line. -/
lemma Line.IsOf.ends {source : List (List Char)} (isOf : Line.IsOf source line)
    (meets : Meets line.tokens good (reader line.tokens)) :
    Ends source good (line.read reader) := by
  unfold Line.read
  rw [EStateM.run]
  cases ran : reader line.tokens with
  | ok value rest =>
    rw [ran] at meets
    cases rest with
    | nil => exact meets.2
    | cons first rest => exact .syntaxError rfl (isOf.place _ meets.1)
  | error failure rest =>
    rw [ran] at meets
    exact .syntaxError (Failure.kinds_orKind meets.1 _) (isOf.place _ meets.2)

lemma Line.IsOf.read {source : List (List Char)} (isOf : Line.IsOf source line)
    [Advances reader] (gives : Gives reader good) : Ends source good (line.read reader) :=
  isOf.ends (Advances.meets_of_ok fun _ _ ran => gives _ _ _ ran)

end JvmAsm.Text
