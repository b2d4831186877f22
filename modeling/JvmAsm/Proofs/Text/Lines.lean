/- Finds failures in a text. -/
import JvmAsm.Proofs.Failure
import JvmAsm.Text.CodeLines

namespace JvmAsm.Text

open List

variable {α β : Type} {source : List (List Char)} {line column : Nat} {chars : List Char}

/-- The place is on a line of the text or right after the line, or at the start of a further line. -/
def IsPlace (source : List (List Char)) (line column : Nat) : Prop :=
  1 ≤ line ∧ line ≤ source.length + 1 ∧ 1 ≤ column ∧ column ≤ (source[line - 1]?.getD []).length + 1

lemma IsPlace.start (place : IsPlace source line column) : IsPlace source line 1 :=
  ⟨place.1, place.2.1, le_refl 1, Nat.le_add_left ..⟩

lemma isPlace_of_line {index : Nat} (got : source[index]? = some chars)
    (positive : 1 ≤ column) (inside : column ≤ chars.length + 1) :
    IsPlace source (index + 1) column := by
  have below := (List.getElem?_eq_some_iff.mp got).1
  refine ⟨Nat.le_add_left .., by omega, positive, ?_⟩
  rwa [Nat.add_sub_cancel, got]

/-- The word appears in a line of the text. -/
def Appears (source : List (List Char)) (word : String) : Prop :=
  ∃ chars ∈ source, word.toList <:+: chars

inductive IsLocated (source : List (List Char)) (failure : Failure) : Prop
  | syntaxError {line column : Nat} (kinds : failure.kinds = [.syntaxError line column])
    (place : IsPlace source line column)
  | unresolvedLabel {label : String} (kinds : failure.kinds = [.unresolvedLabel label])
    (named : isLabelName label = true) (appears : Appears source label)

/-- The result is good, or else a failure that is found in the text. -/
def Ends (source : List (List Char)) (good : α → Prop) : Except Failure α → Prop
  | .ok value => good value
  | .error failure => IsLocated source failure

namespace Ends

variable {good : α → Prop} {better : β → Prop} {result : Except Failure α} {xs : List α}

lemma bind {next : α → Except Failure β} (first : Ends source good result)
    (second : ∀ value, good value → Ends source better (next value)) :
    Ends source better (result >>= next) := by
  cases result with
  | ok value => exact second value first
  | error failure => exact first

lemma mapM {step : α → Except Failure β} (relation : α → β → Prop)
    (each : ∀ value ∈ xs, Ends source (relation value) (step value)) :
    Ends source (Forall₂ relation xs) (xs.mapM step) := by
  induction xs with
  | nil => exact Forall₂.nil
  | cons value xs ih =>
    rw [mapM_cons]
    refine (each value mem_cons_self).bind fun result holds => ?_
    refine (ih fun other member => each other (mem_cons_of_mem _ member)).bind ?_
    exact fun results all => Forall₂.cons holds all

lemma foldlM {step : β → α → Except Failure β} {start : β}
    (each : ∀ state, better state → ∀ value ∈ xs, Ends source better (step state value))
    (holds : better start) : Ends source better (xs.foldlM step start) := by
  induction xs generalizing start with
  | nil => exact holds
  | cons value xs ih =>
    rw [foldlM_cons]
    refine (each start holds value mem_cons_self).bind fun next kept => ih ?_ kept
    exact fun state held other member => each state held other (mem_cons_of_mem _ member)

end Ends

lemma takeWord_append (taken chars : List Char) :
    (takeWord taken chars).1 ++ (takeWord taken chars).2 = taken.reverse ++ chars := by
  induction chars generalizing taken with
  | nil => simp [takeWord]
  | cons c rest ih =>
    unfold takeWord
    split
    · rfl
    · simp [ih]

lemma takeString_append {taken contents after : List Char}
    (found : takeString taken chars = some (contents, after)) :
    contents ++ '"' :: after = taken.reverse ++ chars := by
  fun_induction takeString taken chars with
  | case1 => cases found
  | case2 =>
    cases found
    rfl
  | case3 taken c rest ih => simpa using ih found
  | case4 taken c rest _ _ ih => simpa using ih found

/-- The token starts in the line, and if it is a word, the word appears there. -/
def Located.IsIn (chars : List Char) (located : Located) : Prop :=
  1 ≤ located.column ∧ located.column ≤ chars.length ∧
    ∀ word, located.token = .word word → word.toList <:+: chars

/-- The column counts the characters before the rest of the line. -/
lemma tokensFrom_isIn {whole : List Char} {found : List Located} (rest : chars <:+ whole)
    (counted : column + chars.length = whole.length + 1)
    (known : ∀ located ∈ found, located.IsIn whole) :
    match tokensFrom column found chars with
    | .ok tokens => ∀ located ∈ tokens, located.IsIn whole
    | .error (place, _) => 1 ≤ place ∧ place ≤ whole.length := by
  have start {column : Nat} {c : Char} {chars : List Char} (rest : c :: chars <:+ whole)
      (counted : column + (c :: chars).length = whole.length + 1) :
      1 ≤ column ∧ column ≤ whole.length := by
    have short := rest.length_le
    rw [length_cons] at counted short
    omega
  fun_induction tokensFrom column found chars with
  | case1 => simpa using known
  | case2 column found c chars _ ih =>
    refine ih ((suffix_cons c chars).trans rest) ?_ known
    rw [← counted, length_cons, add_assoc, add_comm 1]
  | case3 => simpa using known
  | case4 column found c chars _ _ sign _ ih =>
    obtain ⟨positive, inside⟩ := start rest counted
    refine ih ((suffix_cons c chars).trans rest) ?_
      (forall_mem_cons.mpr ⟨⟨positive, inside, nofun⟩, known⟩)
    rw [← counted, length_cons, add_assoc, add_comm 1]
  | case5 => exact start rest counted
  | case6 => exact start rest counted
  | case7 column found c chars _ _ _ _ contents after taken value _ ih =>
    obtain ⟨positive, inside⟩ := start rest counted
    obtain rfl : contents ++ '"' :: after = chars := takeString_append taken
    refine ih (.trans ⟨c :: contents ++ ['"'], by simp⟩ rest) ?_
      (forall_mem_cons.mpr ⟨⟨positive, inside, nofun⟩, known⟩)
    simp only [length_cons, length_append] at counted
    omega
  | case8 column found c chars _ _ _ _ word token ih =>
    obtain ⟨positive, inside⟩ := start rest counted
    have divided : word.1 ++ word.2 = c :: chars := takeWord_append [c] chars
    rw [← divided] at rest counted
    refine ih ((suffix_append ..).trans rest) ?_
      (forall_mem_cons.mpr ⟨⟨positive, inside, ?_⟩, known⟩)
    · rw [← counted, length_append, add_assoc]
    · rintro _ ⟨⟩
      rw [String.toList_ofList]
      exact (prefix_append ..).isInfix.trans rest.isInfix

lemma tokens_isIn (chars : List Char) :
    match tokens chars with
    | .ok tokens => ∀ located ∈ tokens, located.IsIn chars
    | .error (place, _) => 1 ≤ place ∧ place ≤ chars.length :=
  tokensFrom_isIn (suffix_refl chars) (add_comm ..) (by simp)

structure Line.IsOf (source : List (List Char)) (line : Line) : Prop where
  place : ∀ rest, rest <:+ line.tokens → IsPlace source line.number (line.columnOf rest)
  appears : ∀ word column, ⟨.word word, column⟩ ∈ line.tokens → Appears source word

lemma Line.isOf_of_tokens {index : Nat} {tokens : List Located}
    (got : source[index]? = some chars) (isIn : ∀ located ∈ tokens, located.IsIn chars) :
    Line.IsOf source ⟨index + 1, tokens, chars.length + 1⟩ where
  place rest suffix := by
    cases rest with
    | nil => exact isPlace_of_line got (Nat.le_add_left ..) le_rfl
    | cons first rest =>
      obtain ⟨positive, inside, -⟩ := isIn first (suffix.subset mem_cons_self)
      exact isPlace_of_line got positive (Nat.le_succ_of_le inside)
  appears word column member :=
    ⟨chars, mem_of_getElem? got, (isIn _ member).2.2 word rfl⟩

lemma tokenLines_ends (source : List (List Char)) :
    Ends source (fun found => ∀ line ∈ found, Line.IsOf source line) (tokenLines source) := by
  refine (Ends.mapM (fun _ => Line.IsOf source) fun ⟨chars, index⟩ member => ?_).bind ?_
  · intro found all line member
    obtain ⟨_, _, isOf⟩ := forall₂_mem_right all (mem_of_mem_filter member)
    exact isOf
  · have got := mem_zipIdx_iff_getElem?.mp member
    have isIn := tokens_isIn chars
    dsimp only
    split
    · next found =>
      rw [found] at isIn
      exact Line.isOf_of_tokens got isIn
    · next failed =>
      rw [failed] at isIn
      exact .syntaxError rfl (isPlace_of_line got isIn.1 (Nat.le_succ_of_le isIn.2))

end JvmAsm.Text
