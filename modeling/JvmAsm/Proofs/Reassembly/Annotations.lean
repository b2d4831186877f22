/-
Shows that annotations that have been read can be written again, in no more space than twice that of
the bytes they have been read from.
-/
import JvmAsm.Proofs.Encode.Fitting
import JvmAsm.Proofs.Pool.TableSupply

namespace JvmAsm

open Binary Encode List Decode PoolTable

variable {τ : Type} {table : PoolTable} {boots : PoolTable.Bootstrap} {supply : Supply}
variable {fine : Nat → τ → Prop}

lemma PoolTable.own_listed {constant : Constant} (own : constant ∈ ownConstants) :
    constant ∈ table.constants boots :=
  mem_append_left _ own

namespace Encode

variable {cost : Nat} {elements : List (String × ElementValue)}

lemma tagged_fits {tag : Char} {cost : Nat} {encoder : Encoder (List UInt8)}
    (fits : Fits supply cost encoder) : Fits supply (1 + cost) (tagged tag encoder) := by
  intro few
  refine (fits (by omega)).bind fun bytes short => .pure ?_
  rw [length_cons]
  omega

lemma elements_fits {type : FieldType} (listed : .ofText type.text ∈ supply.constants)
    (counted : Counted 2 0xffff (fun cost pair => Fits supply cost (element pair)) cost elements) :
    Fits supply (2 + cost) (do
      let typeIndex ← utf8 type.text
      return typeIndex ++ (← list16 (.tooMany .elements) elements element)) := by
  intro small
  refine (Succeeds.utf8 listed).bind fun typeIndex two => Succeeds.bind
    (list16_fits counted (fun _ _ _ fits => fits) (by omega)) fun bytes short => .pure ?_
  rw [length_append]
  omega

/-- What holds for an annotation on a type, given what holds for its target. -/
def FitsType (supply : Supply) (fine : Nat → τ → Prop) (cost : Nat) (note : AnnotatedType τ) :
    Prop :=
  0 < cost ∧ ∃ targetCost, fine targetCost note.target ∧
    ∀ target : Encoder (List UInt8), Fits supply targetCost target →
      Fits supply cost (annotatedType (fun _ => target) note)

lemma annotatedTypes_fits {notes : List (AnnotatedType τ)} {name : String}
    {target : τ → Encoder (List UInt8)} (listed : .ofText name ∈ supply.constants)
    (counted : Counted 2 0xffff (FitsType supply fine) cost notes)
    (fits : ∀ cost, ∀ note ∈ notes, fine cost note.target → Fits supply cost (target note.target)) :
    FitsAttributes supply (cost + 6) (annotatedTypes name target notes) := by
  refine .ofList (by omega) fun _ => namedAfter_fits listed (list16_fits counted ?_)
  rintro cost note mem ⟨_, targetCost, fine, whole⟩
  exact whole _ (fits targetCost note mem fine)

end Encode

lemma Decode.pathStep_spends : Spends pathStep fun cost _ => cost = 2 := by
  have plain (index : UInt8) (named : PlainStep) (step : PathStep) :
      Spends (plainStep index named step) fun cost _ => cost = 0 := by
    unfold plainStep
    split
    · exact .refusal
    · exact .pure rfl
  refine u8_spends.bind fun _ kind one => u8_spends.bind fun _ index one' => ?_
  rw [one, one']
  suffices Spends _ fun cost (_ : PathStep) => cost = 0 from
    this.weaken fun cost _ none => by omega
  split
  · exact plain _ _ _
  · exact plain _ _ _
  · exact plain _ _ _
  · exact .pure rfl
  · exact .throw

/-- A value with one constant is written as it has been read. -/
lemma Decode.elementConstant_spends {α : Type} {get : UInt16 → Except Failure α}
    {make : α → ElementValue} {tag : Char} {constant : α → Constant}
    (listed : ∀ index found, get index = .ok found → constant found ∈ supply.constants)
    (form : ∀ found, Encode.elementValue (make found) =
      tagged tag (index (PoolBuilder.intern (constant found))) := by
        intro; rw [Encode.elementValue]; rfl) :
    Spends (do return make (← entry get)) fun cost value =>
      Fits supply (1 + cost) (Encode.elementValue value) := by
  refine (entry_spends get).bind fun _ found known => .pure ?_
  obtain ⟨two, _, got⟩ := known
  rw [form]
  exact tagged_fits (index_fits (PoolBuilder.intern_adds (listed _ found got)) (by omega))

section Reading

variable (covers : table.constants boots ⊆ supply.constants) {index : UInt16}

include covers

lemma text_covered {text : String} (found : table.text index = .ok text) :
    .ofText text ∈ supply.constants :=
  covers (text_listed found)

lemma fieldType_covered {type : FieldType} (found : table.fieldType index = .ok type) :
    .ofText type.text ∈ supply.constants :=
  text_covered covers (fieldType_text found)

lemma className_covered {name : ClassName} (found : table.className index = .ok name) :
    .className name ∈ supply.constants :=
  covers (className_listed found)

namespace Decode

lemma elements_spends {value : ByteReader ElementValue}
    (spends : Spends value fun cost value => Fits supply cost (Encode.elementValue value)) :
    Spends (elements table value)
      (Counted 2 0xffff fun cost pair => Fits supply cost (element pair)) := by
  refine list16_spends ((entry_spends _).bind fun _ name named => spends.bind fun cost value fits =>
    .pure fun few => ?_)
  obtain ⟨two, _, found⟩ := named
  refine (Succeeds.utf8 (text_covered covers found)).bind fun nameIndex two' =>
    (fits (by omega)).bind fun contents short => .pure ?_
  rw [length_append]
  omega

lemma elementValueWithin_spends (fuel : Nat) :
    Spends (elementValueWithin table fuel) fun cost value =>
      Fits supply cost (Encode.elementValue value) := by
  induction fuel with
  | zero => exact .throw
  | succ fuel ih =>
    refine u8_spends.bind fun _ tag one => ?_
    rw [one]
    have integers {index : UInt16} {value : Int32} (found : table.integer index = .ok value) :=
      @integer_listed table boots index value found
    split
    case h_1 => exact elementConstant_spends fun _ _ found => covers ((integers found).2 _ (.head _))
    case h_2 =>
      exact elementConstant_spends fun _ _ found => covers ((integers found).2 _ (.tail _ (.head _)))
    case h_3 => exact elementConstant_spends fun _ _ found => covers (double_listed found)
    case h_4 => exact elementConstant_spends fun _ _ found => covers (float_listed found)
    case h_5 => exact elementConstant_spends fun _ _ found => covers (integers found).1
    case h_6 => exact elementConstant_spends fun _ _ found => covers (long_listed found)
    case h_7 =>
      exact elementConstant_spends fun _ _ found =>
        covers ((integers found).2 _ (.tail _ (.tail _ (.head _))))
    case h_8 =>
      have own (value : Int32) :
          .integer (if value != 0 then 1 else 0) ∈ supply.constants := by
        refine covers (own_listed ?_)
        split <;> simp [ownConstants]
      exact elementConstant_spends fun _ value _ => own value
    case h_9 => exact elementConstant_spends fun _ _ found => covers (javaString_listed found)
    case h_10 =>
      refine (entry_spends _).bind fun _ type typed => (entry_spends _).bind
        fun _ name named => .pure ?_
      obtain ⟨two, _, typed⟩ := typed
      obtain ⟨two', _, named⟩ := named
      rw [Encode.elementValue]
      refine tagged_fits fun few => (Succeeds.utf8 (fieldType_covered covers typed)).bind
        fun typeIndex length => (Succeeds.utf8 (text_covered covers named)).bind
          fun nameIndex length' => .pure ?_
      rw [length_append]
      omega
    case h_11 =>
      refine (entry_spends _).bind fun _ text known => .ofResult fun value found => ?_
      obtain ⟨two, _, read⟩ := known
      unfold classLiteral at found
      split at found
      · next type returned =>
        cases found
        rw [Encode.elementValue]
        refine tagged_fits (index_fits (@PoolBuilder.intern_adds _ (.ofText _) ?_) (by omega))
        rw [returnedText, returnedChars_of_returnedOfChars? returned, String.ofList_toList]
        exact text_covered covers read
      · contradiction
    case h_12 =>
      refine (entry_spends _).bind fun _ type typed => (elements_spends covers ih).bind
        fun cost elements counted => .pure ?_
      obtain ⟨two, _, typed⟩ := typed
      rw [Encode.elementValue, elements_eq, two]
      exact tagged_fits (elements_fits (fieldType_covered covers typed) counted)
    case h_13 =>
      refine (list16_spends ih).bind fun cost values counted => .pure ?_
      rw [Encode.elementValue, array_eq]
      exact tagged_fits (list16_fits counted fun _ _ _ fits => fits)
    case h_14 => exact .throw

lemma elementValue_spends :
    Spends (elementValue table) fun cost value => Fits supply cost (Encode.elementValue value) :=
  elementValueWithin_spends covers _

lemma annotationBody_spends :
    Spends (annotationBody table) fun cost note => Fits supply cost (Encode.annotationBody note) := by
  refine (entry_spends _).bind fun _ type typed => (elements_spends covers
    (elementValue_spends covers)).bind fun cost elements counted => .pure ?_
  obtain ⟨two, _, typed⟩ := typed
  rw [two, Encode.annotationBody, elements_eq]
  exact elements_fits (fieldType_covered covers typed) counted

lemma annotationList_spends :
    Spends (annotationList table) fun cost notes =>
      Fits supply cost (Encode.annotationList notes) :=
  (list16_spends (annotationBody_spends covers)).weaken fun _ _ counted =>
    list16_fits counted fun _ _ _ fits => fits

lemma annotatedTypes_spends {target : ByteReader τ} (spends : Spends target fine) :
    Spends (annotatedTypes table target) (Counted 2 0xffff (FitsType supply fine)) := by
  refine list16_spends (spends.bind fun targetCost target good =>
    (list8_spends pathStep_spends).bind fun pathCost path counted =>
      (annotationBody_spends covers).bind fun cost note fits => .pure ?_)
  refine ⟨by have := counted.totals; omega, targetCost, good, fun encoder fits' few => ?_⟩
  have pathFits : Fits supply pathCost (Encode.typePath path) :=
    list8_fits counted fun cost step _ two _ => .pure (by cases step <;> simp [Encode.pathStep, two])
  refine (fits' (by omega)).bind fun targetBytes short => (pathFits (by omega)).bind
    fun pathBytes short' => (fits (by omega)).bind fun body short'' => .pure ?_
  simp only [length_append]
  omega

end Decode

end Reading

end JvmAsm
