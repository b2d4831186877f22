/- Divides written names and strings into tokens. -/
import JvmAsm.Proofs.JavaString
import JvmAsm.Text.LineReader
import JvmAsm.Text.Piece

namespace JvmAsm

open List

variable {chars rest taken : List Char}

namespace Text

/-- The last digit of a number that is padded with zeros. -/
lemma hexPadded_succ {width : Nat} (positive : 0 < width) (n : Nat) :
    (hexPadded (width + 1) n).toList = (hexPadded width (n / 16)).toList ++ [(n % 16).digitChar] := by
  simp only [hexPadded, String.toList_ofList]
  by_cases small : n < 16
  · obtain ⟨width, rfl⟩ := Nat.exists_eq_add_one.mpr positive
    rw [Nat.toDigits_eq_if (by decide), if_pos small, Nat.div_eq_of_lt small, Nat.mod_eq_of_lt small]
    simp [Nat.toDigits_zero, replicate_succ']
  · have digits : Nat.toDigits 16 n = Nat.toDigits 16 (n / 16) ++ [(n % 16).digitChar] := by
      rw [Nat.toDigits_eq_if (by decide), if_neg small]
    rw [digits, length_append, length_singleton, Nat.add_sub_add_right, append_assoc]

lemma hexPadded_four {n : Nat} (small : n < 0x10000) :
    (hexPadded 4 n).toList = [(n / 16 / 16 / 16).digitChar, (n / 16 / 16 % 16).digitChar,
      (n / 16 % 16).digitChar, (n % 16).digitChar] := by
  rw [hexPadded_succ (by decide), hexPadded_succ (by decide), hexPadded_succ (by decide), hexPadded,
    Nat.toDigits_eq_if (by decide), if_pos (by omega), String.toList_ofList]
  rfl

lemma forall_hexPadded {n : Nat} {holds : Char → Prop} (small : n < 0x10000)
    (digits : ∀ digit < 16, holds digit.digitChar) : ∀ c ∈ (hexPadded 4 n).toList, holds c := by
  simp only [hexPadded_four small, forall_mem_cons]
  exact ⟨digits _ (by omega), digits _ (by omega), digits _ (by omega), digits _ (by omega), nofun⟩

end Text

namespace JavaString

open Text

lemma unescapeFrom_unitEscape (found : List UInt16) {n : Nat} (small : n < 0x10000) :
    unescapeFrom found (unitEscape n ++ rest) = unescapeFrom (UInt16.ofNat n :: found) rest := by
  have digit : ∀ digit < 16, Number.digit? 16 digit.digitChar = some digit := by decide
  have unit : hexUnit? (n / 16 / 16 / 16).digitChar (n / 16 / 16 % 16).digitChar
      (n / 16 % 16).digitChar (n % 16).digitChar = some (UInt16.ofNat n) := by
    rw [hexUnit?, digit _ (by omega), digit _ (by omega), digit _ (by omega), digit _ (by omega)]
    exact congrArg (fun n => some (UInt16.ofNat n)) (by omega)
  rw [unitEscape, hexPadded_four small]
  simp only [cons_append, nil_append]
  rw [unescapeFrom, unit]

/-- A piece is written by four digits, by a letter or by itself. -/
lemma escapePiece_cases (piece : Piece) :
    (∃ n < 0x10000, escapePiece piece = unitEscape n ∧ piece.units = [UInt16.ofNat n]) ∨
    (∃ letter unit, escapePiece piece = ['\\', letter] ∧ simpleEscape? letter = some unit ∧
      isControl letter = false ∧ piece.units = [unit]) ∨
    ∃ c, escapePiece piece = [c] ∧ c ≠ '"' ∧ c ≠ '\\' ∧ isControl c = false ∧
      piece.units = unitsOf c := by
  cases piece with
  | lone unit => exact .inl ⟨unit.toNat, unit.toNat_lt, rfl, by rw [UInt16.ofNat_toNat]; rfl⟩
  | char c =>
    by_cases simple : c ∈ ['"', '\\', '\n', '\t', '\r', '\x08', '\x0c'] <;>
      simp only [mem_cons, not_mem_nil, or_false, not_or] at simple
    · refine .inr (.inl ?_)
      rcases simple with rfl | rfl | rfl | rfl | rfl | rfl | rfl <;>
        exact ⟨_, _, rfl, rfl, by decide, rfl⟩
    · by_cases control : isControl c = true
      · have small : c.toNat < 0x10000 := by
          simp only [isControl, Bool.or_eq_true, Bool.and_eq_true, decide_eq_true_eq] at control
          omega
        exact .inl ⟨c.toNat, small, by simp [escapePiece, simple, control],
          by simp [Piece.units, unitsOf, small]⟩
      · exact .inr (.inr ⟨c, by simp [escapePiece, simple, control], simple.1, simple.2.1,
          by simpa using control, rfl⟩)

lemma unescapeFrom_escapePiece (found : List UInt16) (piece : Piece) :
    unescapeFrom found (escapePiece piece ++ rest) =
      unescapeFrom (piece.units.reverse ++ found) rest := by
  obtain ⟨n, small, written, units⟩ | ⟨letter, unit, written, simple, -, units⟩ |
    ⟨c, written, -, plain, -, units⟩ := escapePiece_cases piece
  · rw [written, units, unescapeFrom_unitEscape found small]
    rfl
  · have other : letter ≠ 'u' := by
      rintro rfl
      cases simple
    rw [written, units, cons_append, singleton_append, unescapeFrom, simple]
    · rfl
    all_goals simp_all
  · rw [written, units, singleton_append, unescapeFrom]
    all_goals simp_all

lemma unescape_escape (string : JavaString) : unescape string.escape.toList = .ok string := by
  have all (found : List UInt16) (pieces : List Piece) :
      unescapeFrom found (pieces.flatMap escapePiece) =
        .ok (found.reverse ++ pieces.flatMap Piece.units) := by
    induction pieces generalizing found with
    | nil => simp [unescapeFrom]
    | cons piece pieces ih =>
      rw [flatMap_cons, unescapeFrom_escapePiece, ih]
      simp
  rw [unescape, escape, String.toList_ofList, all, pieces, flatMap_piecesFrom]
  rfl

/-- Escapes keep quotes inside of a string, and control characters out of it. -/
lemma escapePiece_plain (piece : Piece) :
    (∀ c ∈ escapePiece piece, isControl c = false) ∧ takeString taken (escapePiece piece ++ rest) =
        takeString ((escapePiece piece).reverse ++ taken) rest := by
  have plain {c : Char} (quote : c ≠ '"') (slash : c ≠ '\\') (taken rest : List Char) :
      takeString taken (c :: rest) = takeString (c :: taken) rest := by
    rw [takeString] <;> simp_all
  obtain ⟨n, small, written, -⟩ | ⟨letter, _, written, -, other, -⟩ |
    ⟨c, written, quote, slash, other, -⟩ := escapePiece_cases piece
  · have digits := @forall_hexPadded n
      (fun c => isControl c = false ∧ c ≠ '"' ∧ c ≠ '\\') small (by decide)
    rw [written, unitEscape]
    refine ⟨?_, ?_⟩
    · simp only [forall_mem_cons]
      exact ⟨by decide, by decide, fun c member => (digits c member).1⟩
    · rw [cons_append, cons_append, takeString]
      generalize (hexPadded 4 n).toList = word at digits
      have all (taken : List Char) : takeString taken (word ++ rest) =
          takeString (word.reverse ++ taken) rest := by
        induction word generalizing taken with
        | nil => rfl
        | cons c word ih =>
          obtain ⟨first, digits⟩ := forall_mem_cons.mp digits
          rw [cons_append, plain first.2.1 first.2.2, ih digits]
          simp
      rw [all]
      simp
  · rw [written]
    exact ⟨by simpa using ⟨by decide, other⟩, rfl⟩
  · rw [written]
    exact ⟨by simpa using other, plain quote slash _ _⟩

lemma takeString_escape (string : JavaString) :
    takeString [] (string.escape.toList ++ '"' :: rest) = some (string.escape.toList, rest) := by
  have all (taken : List Char) (pieces : List Piece) :
      takeString taken (pieces.flatMap escapePiece ++ '"' :: rest) =
        some (taken.reverse ++ pieces.flatMap escapePiece, rest) := by
    induction pieces generalizing taken with
    | nil => simp [takeString]
    | cons piece pieces ih =>
      rw [flatMap_cons, append_assoc, (escapePiece_plain piece).2, ih]
      simp
  rw [escape, String.toList_ofList, all]
  rfl

end JavaString

namespace Text

lemma tokens_string (value : JavaString) :
    tokens (Token.string value).text.toList = .ok [⟨.string value, 1⟩] := by
  have text : (Token.string value).text.toList = '"' :: (value.escape.toList ++ ['"']) := by
    simp [Token.text]
  have unmarked : Mark.ofChar? '"' = none := by decide
  rw [text, tokens, tokensFrom, if_neg (by decide), if_neg (by simp), unmarked]
  simp only [beq_self_eq_true, if_true]
  split
  · next missing => cases (JavaString.takeString_escape value).symm.trans missing
  · next contents after taken =>
    cases (JavaString.takeString_escape value).symm.trans taken
    rw [JavaString.unescape_escape]
    simp [tokensFrom]

/-- A line is one word if nothing in it ends a word. -/
lemma takeWord_eq (inner : ∀ rest, rest <:+ chars → rest ≠ [] → endsWord rest = false) :
    takeWord taken chars = (taken.reverse ++ chars, []) := by
  induction chars generalizing taken with
  | nil => simp [takeWord]
  | cons c chars ih =>
    rw [takeWord, if_neg (by simp [inner _ (suffix_refl _)]), ih fun rest suffix =>
      inner rest (suffix.trans (suffix_cons _ _))]
    simp

lemma endsWord_of_plain (plain : hasComment chars = false)
    (inner : ∀ c ∈ chars, isBlank c = false ∧ c ≠ '"' ∧ Mark.ofChar? c = none) :
    ∀ rest, rest <:+ chars → rest ≠ [] → endsWord rest = false := by
  induction chars with
  | nil => simp +contextual
  | cons c chars ih =>
    obtain ⟨first, inner⟩ := forall_mem_cons.mp inner
    intro rest suffix filled
    rcases suffix_cons_iff.mp suffix with rfl | later
    · rw [endsWord, first.1, first.2.2]
      rw [hasComment.eq_def] at plain
      cases chars <;> grind
    · refine ih ?_ inner rest later filled
      rw [hasComment.eq_def] at plain
      split at plain <;> simp_all

lemma tokens_word {text : String} (plain : needsQuotes text = false) :
    tokens text.toList = .ok [⟨.word text, 1⟩] ∧ ∀ c ∈ text.toList, isControl c = false := by
  simp only [needsQuotes, Bool.or_eq_false_iff] at plain
  obtain ⟨⟨⟨⟨filled, -⟩, -⟩, comment⟩, inner⟩ := plain
  simp only [any_eq_false, Bool.or_eq_true, not_or, Bool.not_eq_true, beq_iff_eq,
    Option.isSome_eq_false_iff, Option.isNone_iff_eq_none] at inner
  have ends := endsWord_of_plain comment fun c member =>
    ⟨(inner c member).1.1.1, (inner c member).1.2, (inner c member).2⟩
  refine ⟨?_, fun c member => (inner c member).1.1.2⟩
  cases written : text.toList with
  | nil => simp [written] at filled
  | cons c chars =>
    rw [written] at ends inner
    have here := ends _ (suffix_refl _) (cons_ne_nil c chars)
    rw [endsWord, Bool.or_eq_false_iff] at here
    obtain ⟨⟨⟨blank, -⟩, quote⟩, unmarked⟩ := inner c mem_cons_self
    rw [tokens, tokensFrom, blank, here.2, unmarked]
    simp only [beq_false_of_ne quote, Bool.false_eq_true, if_false]
    rw [takeWord_eq fun rest suffix => ends rest (suffix.trans (suffix_cons c chars))]
    simp [tokensFrom, ← written]

lemma isControl_string {value : JavaString} :
    ∀ c ∈ (Token.string value).text.toList, isControl c = false := by
  have escaped : ∀ c ∈ value.escape.toList, isControl c = false := by
    rw [JavaString.escape, String.toList_ofList]
    intro c member
    obtain ⟨piece, -, member⟩ := mem_flatMap.mp member
    exact (@JavaString.escapePiece_plain [] [] piece).1 c member
  have quote : isControl '"' = false := by decide
  simpa [Token.text, quote, or_imp, forall_and] using escaped

/--
A name and a string are written without a line break and as one token. From that token the name is
read back, and the token of a string holds the string.
-/
theorem tokens_of_written :
    (∀ text : String, ('\n' ∉ (nameToken text).text.toList ∧ '\r' ∉ (nameToken text).text.toList) ∧
      ∃ located, tokens (nameToken text).text.toList = .ok [located] ∧
        LineReader.name [located] = .ok text []) ∧
    ∀ value : JavaString,
      ('\n' ∉ (Token.string value).text.toList ∧ '\r' ∉ (Token.string value).text.toList) ∧
        tokens (Token.string value).text.toList = .ok [⟨.string value, 1⟩] := by
  have oneLine {chars : List Char} (plain : ∀ c ∈ chars, isControl c = false) :
      '\n' ∉ chars ∧ '\r' ∉ chars :=
    ⟨fun member => absurd (plain _ member) (by decide), fun member =>
      absurd (plain _ member) (by decide)⟩
  refine ⟨fun text => ?_, fun value => ⟨oneLine isControl_string, tokens_string value⟩⟩
  rw [nameToken]
  split
  · refine ⟨oneLine isControl_string, _, tokens_string _, ?_⟩
    change EStateM.bind (LineReader.ofResult (LineReader.plainText (.ofString text))) _ _ = _
    rw [LineReader.plainText, JavaString.text?_ofString]
    rfl
  · next plain =>
    obtain ⟨divided, inner⟩ := tokens_word (Bool.eq_false_iff.mpr plain)
    exact ⟨oneLine inner, _, divided, rfl⟩

end Text

end JvmAsm
