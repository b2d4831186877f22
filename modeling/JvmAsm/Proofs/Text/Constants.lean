/- Reads class constants back from the tokens they are written as. -/
import JvmAsm.Proofs.Descriptor
import JvmAsm.Proofs.JavaString
import JvmAsm.Proofs.Text.LineReader
import JvmAsm.Text.Operand
import JvmAsm.Text.Piece

namespace JvmAsm.Text

open LineReader

/-- The tokens that a constant is written as, in some columns of a line. -/
def constantTokens (constant : Loadable) (columns : Nat → Nat) : List Located :=
  (Pieces.loadable #[] constant).toList.mapIdx fun index piece => ⟨piece.token, columns index⟩

lemma classConstant?_append (text : String) : classConstant? (text ++ ".class") = some text := by
  simp [classConstant?, String.toList_append]

lemma loadable_classWord (name : ClassName) (column : Nat) (rest : List Located) :
    loadable (⟨.word (name.text ++ ".class"), column⟩ :: rest) = .ok (.className name) rest ↔
      name.text.toList.head? ≠ some '(' := by
  have ends : (name.text ++ ".class").toList.getLast? = some 's' := by simp
  have other {text : String} (differs : text.toList.getLast? ≠ some 's') :
      ¬(name.text ++ ".class" == text) = true := fun same => differs (beq_iff_eq.mp same ▸ ends)
  have starts : ((name.text ++ ".class").toList.head? == some '(') = true ↔
      name.text.toList.head? = some '(' := by
    rw [String.toList_append, beq_iff_eq]
    cases name.text.toList with
    | nil => decide
    | cons => rfl
  change (ite _ _ (ite _ _ (ite _ _ (ite _ _ _))) : LineReader _) _ = _ ↔ _
  rw [if_neg (other (by decide)), if_neg (other (by decide)), if_neg (other (by decide))]
  -- Whether the word starts with a parenthesis is looked at before its end is.
  by_cases opens : name.text.toList.head? = some '('
  · rw [if_pos (starts.mpr opens)]
    refine iff_of_false (fun ran => ?_) (not_not.mpr opens)
    obtain ⟨_, _, _, given⟩ := ran_parts ran
    cases given
  · rw [if_neg (mt starts.mp opens), classConstant?_append]
    refine iff_of_true (ran_bind ?_ rfl) opens
    rw [parsed_word, checked, ClassName.ofString?_text]

/-- A class constant is read back, unless its name starts with a parenthesis and is not quoted. -/
theorem loadable_className_iff (name : ClassName) (columns : Nat → Nat) (rest : List Located) :
    loadable (constantTokens (.className name) columns ++ rest) = .ok (.className name) rest ↔
      (name.text.toList.head? = some '(' → needsQuotes name.text = true) := by
  by_cases quoted : needsQuotes name.text = true
  · refine iff_of_true ?_ fun _ => quoted
    have read (after : List Located) :
        className (⟨stringToken name.text, columns 0⟩ :: after) = .ok name after := by
      change EStateM.bind (ofResult (plainText (.ofString name.text))) _ _ = _
      rw [plainText, JavaString.text?_ofString]
      change EStateM.bind (ofResult (checked _ _ name.text)) _ _ = _
      rw [checked, ClassName.ofString?_text]
      rfl
    rw [constantTokens, Pieces.loadable, if_pos quoted]
    change (className >>= _ : LineReader Loadable) _ = _
    exact ran_bind (read _) rfl
  · rw [constantTokens, Pieces.loadable, if_neg quoted]
    exact (loadable_classWord name _ rest).trans (by simp [quoted])

theorem not_loadable_reread :
    ¬∀ (constant : Loadable) (located : List Located),
      tokens (WrittenLine.text ⟨0, Pieces.loadable #[] constant⟩).toList = .ok located →
        loadable located = .ok constant [] := by
  intro reread
  let name : ClassName := .object ⟨"(x", by decide +kernel⟩
  have ran := reread (.className name) [⟨.word (name.text ++ ".class"), 1⟩] (by cbv)
  exact (loadable_classWord name 1 []).mp ran (by decide +kernel)

end JvmAsm.Text
