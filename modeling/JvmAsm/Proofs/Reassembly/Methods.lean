/- Shows that methods can be written again, unless their code may not use subroutines. -/
import JvmAsm.Proofs.Reassembly.Code
import JvmAsm.Proofs.Reassembly.Declarations

namespace JvmAsm

open Binary Encode Encode PoolBuilder

variable {table : PoolTable} {boots : PoolTable.Bootstrap} {supply : Supply}

/-- Whether a version allows all instructions of the code. -/
def Version.allows (version : Version) (code : Code) : Bool :=
  version.allowsSubroutines || (subroutine? code).isNone

namespace Encode

/-- The attributes of a method that other declarations do not have, as far as they have been read. -/
def ownMethodEncoders (version : Version) (draft : Decode.MethodDraft) : List AttributeEncoder := [
  attributeOf (draft.code.filter version.allows) fun code =>
    namedAfter "Code" (within .inCode (codeBody version code {})),
  attributeOfList (draft.exceptions.getD []) fun exceptions =>
    namedAfter "Exceptions" (list16 (.tooMany .exceptions) exceptions className),
  attributeOf draft.visibleParameters fun lists =>
    namedAfter "RuntimeVisibleParameterAnnotations"
      (list8 (.tooMany .annotatedParameters) lists annotationList),
  attributeOf draft.invisibleParameters fun lists =>
    namedAfter "RuntimeInvisibleParameterAnnotations"
      (list8 (.tooMany .annotatedParameters) lists annotationList),
  attributeOf draft.annotationDefault fun value =>
    namedAfter "AnnotationDefault" (elementValue value),
  attributeOf draft.parameters fun parameters =>
    namedAfter "MethodParameters" (methodParameters parameters)]

/-- The attributes of a method, as far as they have been read. -/
def methodEncoders (version : Version) (draft : Decode.MethodDraft) : List AttributeEncoder :=
  markEncoders draft.marks ++ ownMethodEncoders version draft ++
    sharedEncoders methodTarget draft.shared

/-- The attributes of a method are written in another order. -/
lemma methodAttributes_fits {total : Nat}
    {marked code thrown noted default parameters signed shared typed raw : AttributeEncoder}
    (totals : Totals (FitsAttributes supply) total
      [marked, code, thrown, noted, default, parameters, signed, shared, typed, raw]) :
    Totals (FitsAttributes supply) total
      [marked, code, thrown, signed, shared, typed, noted, default, parameters, raw] :=
  totals.perm ((List.perm_append_comm_assoc [noted, default, parameters] [signed, shared, typed]
    [raw]).append_left [marked, code, thrown])

end Encode

lemma Decode.methodTarget_spends :
    Spends Decode.methodTarget fun cost target =>
      Fits supply cost (Encode.methodTarget target) := by
  refine u8_spends.bind fun _ code one => ?_
  rw [one]
  split
  · exact u8_spends.bind fun _ _ one' => .pure fun _ => .pure (by simp [one'])
  · exact u8_spends.bind fun _ _ one' => u8_spends.bind fun _ _ one'' => .pure fun _ =>
      .pure (by simp [one', one''])
  · exact .pure fun _ => .pure (by simp)
  · exact .pure fun _ => .pure (by simp)
  · exact u8_spends.bind fun _ _ one' => .pure fun _ => .pure (by simp [one'])
  · exact u16_spends.bind fun _ _ two => .pure fun _ => .pure (by simp [two])
  · exact .throw

section Reading

variable (covers : table.constants boots ⊆ supply.constants)
include covers

namespace Decode

lemma classNames_spends :
    Spends (ByteReader.list16 (entry table.className)) fun cost names =>
      ∀ cause, Fits supply cost (list16 cause names className) := by
  refine (list16_spends (entry_spends _)).weaken fun cost names counted cause => ?_
  refine list16_fits counted fun cost name _ known => ?_
  obtain ⟨two, _, found⟩ := known
  exact index_fits (intern_adds (className_covered covers found)) (by omega)

lemma parameterAnnotations_spends :
    Spends (ByteReader.list8 (annotationList table)) fun cost lists =>
      Fits supply cost (list8 (.tooMany .annotatedParameters) lists
        Encode.annotationList) :=
  (list8_spends (annotationList_spends covers)).weaken fun _ _ counted =>
    list8_fits counted fun _ _ _ fits => fits

lemma optionalText_adds {text? : Option String}
    (known : ∀ text, text? = some text → ∃ index, table.text index = .ok text) :
    PoolBuilder.Adds supply (optional utf8 text?) := by
  refine optional_adds fun text same => ?_
  obtain ⟨_, found⟩ := known text same
  exact intern_adds (text_covered covers found)

lemma methodParameters_spends :
    Spends (ByteReader.list8 (methodParameter table)) fun cost parameters =>
      Fits supply cost (methodParameters parameters) := by
  have each : Spends (methodParameter table) fun cost parameter => cost = 4 ∧
      ∀ text, parameter.name = some text → ∃ index, table.text index = .ok text :=
    (optionalEntry_spends _).bind fun _ name known => u16_spends.bind fun _ flags two =>
      .pure ⟨by omega, known.2⟩
  refine (list8_spends each).weaken fun cost parameters counted => ?_
  refine list8_fits counted fun cost parameter _ known _ => ?_
  refine (Succeeds.index (optionalText_adds covers known.2)).bind fun bytes two => .pure ?_
  simp only [List.length_append, bytes16_length]
  omega

lemma MethodDraft.step_spends {draft : MethodDraft} {version : Version} {classStart spent : Nat}
    (fits : Totals (FitsAttributes supply) spent (methodEncoders version draft))
    (methodName : MethodName) (descriptor : MethodDescriptor) (name : String) (length : Nat)
    (listed : .ofText name ∈ supply.constants) :
    Spends (draft.step table boots classStart methodName descriptor name length)
      fun cost draft => Totals (FitsAttributes supply) (spent + (cost + 6))
        (methodEncoders version draft) := by
  unfold step
  split
  · exact mark_fits fits 0 listed
  · exact mark_fits fits 1 listed
  · refine ((contents_spends (readCode_spends covers classStart)).within _).bind
      fun cost code written => only_spends.bind fun none found same => .pure ?_
    obtain ⟨rfl, rfl⟩ := same
    refine FitsAttributes.replace fits 2 (.ofOption (by omega) fun code' kept => ?_)
    obtain ⟨rfl, allowed⟩ : code = code' ∧ version.allows code' = true := by
      simpa using Option.filter_eq_some_iff.mp kept
    exact namedAfter_fits listed
      ((written version (by simpa [Version.allows] using allowed)).within _)
  · exact once_fits fits 3 (classNames_spends covers) fun _ _ written =>
      .ofList (by omega) fun _ => namedAfter_fits listed (written _)
  · exact once_fits fits 4 (parameterAnnotations_spends covers) fun _ _ written =>
      .one (namedAfter_fits listed written) (by omega)
  · exact once_fits fits 5 (parameterAnnotations_spends covers) fun _ _ written =>
      .one (namedAfter_fits listed written) (by omega)
  · exact once_fits fits 6 (elementValue_spends covers) fun _ _ written =>
      .one (namedAfter_fits listed written) (by omega)
  · exact once_fits fits 7 (methodParameters_spends covers) fun _ _ written =>
      .one (namedAfter_fits listed written) (by omega)
  · obtain ⟨first, second, own, shared, most⟩ := fits.of_append
    refine (Shared.step_spends covers shared methodTarget_spends name length listed).bind
      fun cost shared fits => .pure ?_
    exact (own.append fits).mono (by omega)

/-- A method that is read can be written again, if its code is allowed. -/
lemma readMethod_spends (version : Version) (classStart : Nat) :
    Spends (readMethod table boots classStart) fun cost method =>
      (∀ code, method.code = some code → version.allows code = true) →
        Fits supply cost (methodBytes version method {}) := by
  refine u16_spends.bind fun _ access two => (entry_spends _).bind fun _ name named =>
    (entry_spends _).bind fun _ descriptor typed => ?_
  refine (attributes_spends (fun spent draft => Totals (FitsAttributes supply) spent
    (methodEncoders version draft)) (FitsAttributes.absent 14)
    fun spent draft key length fits known => ?_).bind fun cost draft known =>
      .pure fun allowed few => ?_
  · obtain ⟨_, read⟩ := known
    exact MethodDraft.step_spends covers fits name descriptor key length (text_covered covers read)
  · obtain ⟨spent, paid, totals⟩ := known
    obtain ⟨two', _, named⟩ := named
    obtain ⟨two'', _, typed⟩ := typed
    have whole : draft.code.filter version.allows = draft.code := by
      cases equal : draft.code with
      | none => rfl
      | some code => exact Option.filter_some_pos (allowed code equal)
    obtain ⟨first, later, own, shared, most⟩ := totals.of_append
    obtain ⟨cost, rest, marked, own, most'⟩ := (marks_fits own).of_cons
    obtain ⟨codeCost, rest', coded, own, most''⟩ := own.of_cons
    obtain ⟨thrownCost, rest'', thrown, own, most₃⟩ := own.of_cons
    have noted : Totals (FitsAttributes supply) rest''
        (parameterAnnotations ⟨draft.visibleParameters, draft.invisibleParameters⟩ :: _) :=
      own.pair fun _ _ => FitsAttributes.both
    have attributes := methodAttributes_fits
      (.cons marked (.cons coded (.cons thrown (noted.append (shared_fits shared)))))
    rw [whole] at attributes
    refine (Succeeds.utf8 (text_covered covers (PoolTable.methodName_text named))).bind
      fun nameIndex length => (Succeeds.utf8 (text_covered covers
        (PoolTable.methodDescriptor_text typed))).bind fun typeIndex length' =>
          (attributeTable_fits attributes (by omega)).bind fun bytes short => .pure ?_
    simp only [List.length_append, bytes16_length]
    omega

end Decode

end Reading

end JvmAsm
