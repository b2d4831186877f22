/-
Follows the labels of a method body while its lines are read: each label that a line mentions has a
name, and each name has to be bound when the body ends.
-/
import JvmAsm.Proofs.Formed
import JvmAsm.Proofs.Text.Refusal

namespace JvmAsm.Text

open Number LineReader List

variable {α β : Type} {source : List (List Char)} {known : List Label}
variable {draft : CodeDraft} {more : β → List Label}

namespace LabelNames

structure IsListed (source : List (List Char)) (names : LabelNames) : Prop where
  listed : ∀ (text : String) (label : Label), names.labels[text]? = some label → text ∈ names.names
  appear : ∀ text ∈ names.names, isLabelName text = true ∧ Appears source text

def Knows (names : LabelNames) (label : Label) : Prop :=
  ∃ text : String, names.labels[text]? = some label

instance {names : LabelNames} {text : String} : Plain (names.label text) := by
  unfold LabelNames.label
  repeat' split
  all_goals first | infer_instance | exact .error

lemma label_learns {names names' : LabelNames} {text : String} {label : Label}
    (found : names.label text = .ok (label, names')) (listed : names.IsListed source)
    (appears : Appears source text) : names'.IsListed source ∧
      (∀ other, names.Knows other → names'.Knows other) ∧ names'.Knows label := by
  unfold LabelNames.label at found
  split at found
  · contradiction
  · next named =>
    split at found
    · next known =>
      cases found
      exact ⟨listed, fun _ => id, text, known⟩
    · next new =>
      split at found
      · contradiction
      · cases found
        refine ⟨⟨fun other label known => ?_, fun other member => ?_⟩, fun other known => ?_,
          text, by simp⟩
        · rw [Std.HashMap.getElem?_insert] at known
          split at known
          · next same => simp [← eq_of_beq same]
          · exact Array.mem_push_of_mem _ (listed.listed other label known)
        · rcases Array.mem_push.mp member with early | rfl
          · exact listed.appear other early
          · exact ⟨by simpa using named, appears⟩
        · obtain ⟨name, here⟩ := known
          refine ⟨name, ?_⟩
          rw [Std.HashMap.getElem?_insert, if_neg, here]
          intro same
          rw [eq_of_beq same, here] at new
          cases new

end LabelNames

/--
If the known labels have names before the line is read, they and the labels of what has been read
have names after it, and what has been read is good.
-/
def Learns (source : List (List Char)) (known : List Label) (reader : CodeReader α)
    (labels : α → List Label) (good : α → Prop) : Prop :=
  ∀ names tokens, (∀ word column, ⟨.word word, column⟩ ∈ tokens → Appears source word) →
    names.IsListed source → (∀ label ∈ known, names.Knows label) →
      Meets tokens (fun (value, names') => names'.IsListed source ∧
        (∀ label, names.Knows label → names'.Knows label) ∧
          (∀ label ∈ labels value, names'.Knows label) ∧ good value) (reader names tokens)

namespace Learns

variable {reader : CodeReader α} {labels : α → List Label} {good : α → Prop}

lemma pure {value : α} (subset : ∀ label ∈ labels value, label ∈ known) (holds : good value) :
    Learns source known (Pure.pure value) labels good :=
  fun _ tokens _ listed knows => ⟨Conduct.refl tokens, listed, fun _ => id,
    fun label member => knows label (subset label member), holds⟩

lemma bind {next : α → CodeReader β} {better : β → Prop}
    (first : Learns source known reader labels good)
    (second : ∀ value, good value → Learns source (known ++ labels value) (next value) more better) :
    Learns source known (reader >>= next) more better := by
  intro names tokens appear listed knows
  change Meets tokens _ ((reader names >>= fun found => next found.1 found.2) tokens)
  refine (first names tokens appear listed knows).bind ?_
  rintro ⟨value, names'⟩ rest suffix ⟨listed', kept, learned, fine⟩
  refine (second value fine names' rest
    (fun word column member => appear word column (suffix.subset member)) listed' ?_).weaken ?_
  · intro label member
    rcases mem_append.mp member with early | late
    · exact kept label (knows label early)
    · exact learned label late
  · rintro ⟨result, names''⟩ ⟨listed'', kept', learned', fine'⟩
    exact ⟨listed'', fun label here => kept' label (kept label here), learned', fine'⟩

/-- A reader that does not look at labels learns none. -/
lemma lift {reader : LineReader α} [Advances reader] (gives : Gives reader good) :
    Learns source known (liftM reader : CodeReader α) (fun _ => []) good := by
  intro names tokens _ listed _
  refine (Advances.meets_of_ok fun value rest ran => gives _ _ _ ran).bind ?_
  exact fun value rest _ fine => ⟨Conduct.refl rest, listed, fun _ => id, by simp, fine⟩

lemma plain {reader : LineReader α} [Advances reader] :
    Learns source known (liftM reader : CodeReader α) (fun _ => []) fun _ => True :=
  lift (Gives.anything reader)

/-- What follows something without labels learns them all. -/
lemma after {reader : LineReader α} [Advances reader] {next : α → CodeReader β}
    {better : β → Prop} (learns : ∀ value, Learns source known (next value) more better) :
    Learns source known ((liftM reader : CodeReader α) >>= next) more better :=
  plain.bind fun value _ => by simpa using learns value

lemma parsed {f : String → Except Failure α} (plains : ∀ text, Plain (f text)) :
    Learns source known (liftM (LineReader.parsed f) : CodeReader α) (fun _ => []) fun _ => True :=
  plain

/-- What may be missing has no labels. -/
lemma optional {isAbsent : Bool} {reader : LineReader α} [Advances reader]
    {next : Option α → CodeReader β} {better : β → Prop}
    (learns : ∀ value, Learns source known (next value) more better) :
    Learns source known
      (if isAbsent then do
        let value ← Pure.pure none
        next value
      else do
        let value ← some <$> (liftM reader : CodeReader α)
        next value) more better := by
  split
  · exact learns none
  · rw [map_eq_pure_bind, bind_assoc]
    refine .after fun value => ?_
    rw [pure_bind]
    exact learns (some value)

lemma fail {cause : TextCause} : Learns source known (liftM (LineReader.fail cause : LineReader α))
    labels good :=
  fun _ tokens _ _ _ => ⟨rfl, Conduct.refl tokens⟩

end Learns

lemma label_eq (names : LabelNames) : label names = parsed names.label := by
  funext tokens
  change EStateM.bind (EStateM.bind (parsed names.label) _) _ tokens = _
  cases ran : parsed names.label tokens with
  | ok pair rest =>
    simp only [EStateM.bind, ran]
    rfl
  | error failure rest => simp only [EStateM.bind, ran]

lemma label_learns : Learns source known label (fun label => [label]) fun _ => True := by
  intro names tokens appear listed knows
  rw [label_eq]
  refine Advances.meets_of_ok fun ⟨value, names'⟩ rest ran => ?_
  obtain ⟨text, column, rfl, found⟩ := parsed_inversion ran
  obtain ⟨listed', kept, knows'⟩ :=
    LabelNames.label_learns found listed (appear text column mem_cons_self)
  exact ⟨listed', kept, by simpa using knows', trivial⟩

lemma labelRange_learns :
    Learns source known labelRange (fun range => [range.start, range.stop]) fun _ => True :=
  label_learns.bind fun start _ => label_learns.bind fun stop _ =>
    .pure (by simp) trivial

section Lists

variable {element : CodeReader α} {labels : α → List Label} {good : α → Prop}

lemma listFrom_learns (each : ∀ known, Learns source known element labels good) (fuel : Nat)
    (found : Array α) (goods : ∀ value ∈ found, good value)
    (knows : ∀ label ∈ found.toList.flatMap labels, label ∈ known) :
    Learns source known (listFrom element fuel found) (fun xs => xs.flatMap labels)
      fun xs => ∀ value ∈ xs, good value := by
  induction fuel generalizing found known with
  | zero => exact Learns.fail
  | succ fuel ih =>
    refine (each known).bind fun value fine =>
      .after fun closed => ?_
    have goods' : ∀ next ∈ found.push value, good next := by
      intro next member
      rcases Array.mem_push.mp member with early | rfl
      · exact goods next early
      · exact fine
    have knows' : ∀ label ∈ (found.push value).toList.flatMap labels,
        label ∈ known ++ labels value := by
      intro label member
      rw [Array.toList_push, flatMap_append, flatMap_singleton, mem_append] at member
      exact mem_append.mpr (member.imp_left (knows label))
    split
    · exact .pure (by simpa using knows') (by simpa using goods')
    · refine .after fun _ => ih _ goods' fun label member => ?_
      simpa using knows' label member

lemma braced_learns (each : ∀ known, Learns source known element labels good) :
    Learns source known (braced element) (fun xs => xs.flatMap labels)
      fun xs => ∀ value ∈ xs, good value := by
  refine .after fun tokens =>
    .after fun _ => .after fun closed => ?_
  split
  · exact .pure (by simp) (by simp)
  · exact listFrom_learns each _ _ (by simp) (by simp)

end Lists

lemma codeTarget_learns :
    Learns source known codeTarget CodeTarget.labels fun _ => True := by
  refine .after fun text => ?_
  split
  · have entry (known : List Label) :
        Learns source known (do
            let range ← labelRange
            return (range, ← number readUInt16))
          (fun entry => [entry.1.start, entry.1.stop]) fun _ => True :=
      labelRange_learns.bind fun range _ => .after fun index => .pure (by simp) trivial
    exact (braced_learns entry).bind fun table _ =>
      .pure (fun label member => mem_append_right _ member) trivial
  · split
    · exact .after fun index =>
        .pure (by simp [CodeTarget.labels]) trivial
    · split
      · exact label_learns.bind fun label _ => .pure (by simp [CodeTarget.labels]) trivial
      · split
        · exact label_learns.bind fun label _ => .after fun index =>
            .pure (by simp [CodeTarget.labels]) trivial
        · exact Learns.fail

lemma tableEnd_sized {low high : Int32} {count : Nat} (found : tableEnd low count = .ok high) :
    high.toInt - low.toInt + 1 = count := by
  unfold tableEnd at found
  dsimp only at found
  split at found
  · contradiction
  · split at found
    · contradiction
    · cases found
      rw [Int32.toInt_ofInt_of_le (by omega) (by omega)]
      omega

lemma operands_learns (op : OperandOp) :
    Learns source known (operands op) Instruction.targets Instruction.IsSized := by
  cases op with
  | branch | goto | jsr =>
    exact label_learns.bind fun label _ => .pure (by simp [Instruction.targets]) trivial
  | tableSwitch =>
    refine .after fun low => (braced_learns fun _ => label_learns).bind fun targets _ =>
      .after fun _ => label_learns.bind fun default _ =>
        (Learns.lift (ofResult_gives fun _ found => tableEnd_sized found)).bind
          fun high sized => .pure (by simp +contextual [Instruction.targets]) sized
  | lookupSwitch =>
    have pair (known : List Label) :
        Learns source known (do
            let key ← number readInt32
            expectMark .colon
            return (key, ← label))
          (fun pair => [pair.2]) fun _ => True :=
      .after fun key => .after fun _ => label_learns.bind
        fun label _ => .pure (by simp) trivial
    refine (braced_learns pair).bind fun pairs _ => .after fun _ =>
      label_learns.bind fun default _ => .pure ?_ trivial
    intro label member
    rw [← map_eq_flatMap]
    rcases mem_cons.mp member with rfl | listed
    · simp
    · simp only [mem_append]
      exact .inl (.inr listed)
  | pushByte | pushShort | constant | load | store | ret | field | invokeVirtual
  | invokeInterface | type =>
    exact .after fun _ => .pure (by simp [Instruction.targets]) trivial
  | newPrimitiveArray =>
    refine (Learns.parsed fun text => ?_).bind fun element _ => .pure ?_ trivial
    · split <;> infer_instance
    · simp [Instruction.targets]
  | increment | invokeSpecial | invokeStatic | newMultiArray =>
    exact .after fun _ => .after fun _ =>
      .pure (by simp [Instruction.targets]) trivial
  | invokeDynamic =>
    exact .after fun _ => .after fun _ =>
      .after fun _ => .after fun _ => .pure (by simp [Instruction.targets]) trivial

lemma instruction_learns :
    Learns source known instruction Instruction.targets Instruction.IsSized := by
  refine (Learns.parsed fun text => ?_).bind fun op _ => ?_
  · split <;> infer_instance
  · cases op with
    | inl op => exact .pure (by simp [Instruction.targets]) trivial
    | inr op => exact operands_learns op

namespace CodeItem

def labels : CodeItem → List Label
  | .binding label _ => [label]
  | .lineNumber label _ => [label]
  | .localVariable entry => [entry.range.start, entry.range.stop]
  | .handler entry => [entry.start, entry.stop, entry.handler]
  | .typeNote _ note => note.target.labels
  | .instruction found => found.targets
  | _ => []

/-- An instruction on the line has its operands. -/
def IsSized : CodeItem → Prop
  | .instruction found => found.IsSized
  | _ => True

end CodeItem

lemma limit_learns (what : Once) (given : Option UInt16) :
    Learns source known (limit what given) (fun _ => []) fun _ => True := by
  refine .after fun _ => .after fun _ => .after fun value => ?_
  split
  · exact .after fun _ => .pure (by simp) trivial
  · exact .pure (by simp) trivial

lemma codeItem_learns (draft : CodeDraft) :
    Learns source known (codeItem draft) CodeItem.labels CodeItem.IsSized := by
  refine .after fun tokens => .after fun text? => ?_
  cases text? with
  | none => exact Learns.fail
  | some text =>
    dsimp only
    split
    · refine label_learns.bind fun label _ => ?_
      split
      · exact .after fun _ => .pure (by simp [CodeItem.labels]) trivial
      · exact .pure (by simp [CodeItem.labels]) trivial
    · split
      · exact .after fun _ => .after fun line => label_learns.bind
          fun label _ => .pure (by simp [CodeItem.labels]) trivial
      · exact .after fun _ => .after fun name =>
          .after fun untyped => .optional fun type =>
            labelRange_learns.bind fun range _ => .after fun index =>
              .after fun ended => .optional fun signature =>
                .pure (by simp [CodeItem.labels]) trivial
      · exact .after fun _ => labelRange_learns.bind fun range _ =>
          label_learns.bind fun label _ => .after fun any =>
            .optional fun caught => .pure (by simp [CodeItem.labels]) trivial
      · exact (limit_learns _ _).bind fun _ _ =>
          .pure (by simp [CodeItem.labels]) trivial
      · exact (limit_learns _ _).bind fun _ _ =>
          .pure (by simp [CodeItem.labels]) trivial
      · exact .after fun _ => .after fun _ =>
          .pure (by simp [CodeItem.labels]) trivial
      · exact .after fun _ => .after fun _ =>
          codeTarget_learns.bind fun target _ => .after fun _ =>
            .after fun _ => .pure (by simp +contextual [CodeItem.labels]) trivial
      · exact instruction_learns.bind fun found sized =>
          .pure (by simp +contextual [CodeItem.labels]) sized

namespace CodeDraft

/-- What holds for the lines that have been read: labels have names and stand inside the code. -/
structure IsSound (source : List (List Char)) (draft : CodeDraft) : Prop where
  listed : draft.labels.IsListed source
  known : ∀ label ∈ draft.code.references, draft.labels.Knows label
  inside : ∀ (label : Label) (pos : Nat), draft.positions[label]? = some pos →
    pos ≤ draft.instructions.size
  sized : ∀ instruction ∈ draft.instructions, instruction.IsSized

lemma empty_isSound : ({} : CodeDraft).IsSound source where
  listed := by constructor <;> simp
  known label uses := by simp [code, Code.references] at uses
  inside label pos stands := by simp at stands
  sized instruction member := by simp at member

/-- A line adds the labels that it mentions. -/
lemma references_add (draft : CodeDraft) (item : CodeItem) {label : Label}
    (uses : label ∈ (draft.add item).code.references) :
    label ∈ draft.code.references ∨ label ∈ item.labels := by
  simp only [Code.references, code, mem_append, flatMap_map] at uses ⊢
  cases item with
  | typeNote visible note =>
    cases visible with
    | true =>
      simp only [add, Array.toList_push, flatMap_append, mem_append, flatMap_singleton] at uses
      simp only [CodeItem.labels]
      tauto
    | false =>
      simp only [add, Array.toList_push, flatMap_append, mem_append, flatMap_singleton] at uses
      simp only [CodeItem.labels]
      tauto
  | binding | maxStack | maxLocals | raw => exact .inl uses
  | lineNumber | localVariable | handler | instruction =>
    simp only [add, Array.toList_push, map_append, map_cons, map_nil,
      flatMap_append, mem_append, flatMap_singleton, mem_singleton] at uses
    simp only [CodeItem.labels, mem_singleton]
    tauto

lemma add_isSound {item : CodeItem} (sound : draft.IsSound source)
    (known : ∀ label ∈ item.labels, draft.labels.Knows label) (sized : item.IsSized) :
    (draft.add item).IsSound source := by
  have labels : (draft.add item).labels = draft.labels := by
    cases item with
    | typeNote visible => cases visible <;> rfl
    | _ => rfl
  refine ⟨labels ▸ sound.listed, fun label uses => ?_, ?_, ?_⟩
  · rw [labels]
    exact (references_add draft item uses).elim (sound.known label) (known label)
  · intro label pos stands
    cases item with
    | binding bound name =>
      simp only [add, Std.HashMap.getElem?_insert] at stands ⊢
      split at stands
      · exact le_of_eq (Option.some.inj stands).symm
      · exact sound.inside label pos stands
    | instruction found =>
      have inside := sound.inside label pos stands
      simp only [add, Array.size_push]
      omega
    | typeNote visible => cases visible <;> exact sound.inside label pos stands
    | _ => exact sound.inside label pos stands
  · intro instruction member
    cases item with
    | instruction found =>
      rcases Array.mem_push.mp member with early | rfl
      · exact sound.sized instruction early
      · exact sized
    | typeNote visible => cases visible <;> exact sound.sized instruction member
    | _ => exact sound.sized instruction member

lemma addLine_ends {line : Line} (isOf : line.IsOf source) (sound : draft.IsSound source) :
    Ends source (IsSound source) (draft.addLine line) := by
  refine (isOf.ends (@codeItem_learns source [] _ _ _ isOf.appears sound.listed (by simp))).bind ?_
  rintro ⟨item, labels⟩ ⟨listed, kept, known, sized⟩
  refine add_isSound ⟨listed, fun label uses => ?_, sound.inside, sound.sized⟩ known sized
  exact kept label (sound.known label uses)

lemma bound_of_unboundName? (sound : draft.IsSound source) (none : draft.unboundName? = none)
    {label : Label} (knows : draft.labels.Knows label) :
    ∃ pos, draft.positions[label]? = some pos := by
  obtain ⟨text, found⟩ := knows
  have listed := sound.listed.listed text label found
  rw [unboundName?, find?_eq_none] at none
  have bound := none text listed.val
  rw [found] at bound
  rw [Bool.not_eq_true, Bool.not_eq_false', Std.HashMap.contains_eq_isSome_getElem?] at bound
  exact Option.isSome_iff_exists.mp bound

lemma mem_placed {label : Label} {pos : Nat} : (pos, label) ∈ draft.placed ↔
    ∃ name ∈ draft.labels.names, draft.labels.labels[name]? = some label ∧
      draft.positions[label]? = some pos := by
  simp [placed, mem_filterMap, Option.bind_eq_some_iff]

/-- There are enough numbers for the labels, and each is bound where it has been placed. -/
lemma canonicalize_bound (sound : draft.IsSound source)
    (bound : ∀ label ∈ draft.code.references, ∃ pos,
      draft.positions[label]? = some pos ∧ pos ≤ draft.code.instructions.length) :
    draft.bound.canonicalize = .ok (draft.code.renumberedBy draft.positions) := by
  have stood {label : Label} {pos : Nat}
      (found : (insertAll (∅ : Std.HashMap Nat Label) draft.placed)[pos]? = some label) :
      draft.positions[label]? = some pos := by
    have listed : (pos, label) ∈ draft.placed := by simpa using mem_of_insertAll found
    obtain ⟨_, _, _, stands⟩ := mem_placed.mp listed
    exact stands
  refine Code.canonicalize_bindBy (fun label uses => ?_) fun here there =>
    Option.some.inj ((stood here).symm.trans (stood there))
  obtain ⟨pos, stands, inside⟩ := bound label uses
  obtain ⟨name, named⟩ := sound.known label uses
  have listed := mem_placed.mpr ⟨name, sound.listed.listed name label named, named, stands⟩
  obtain ⟨first, found⟩ := exists_insertAll (mem_map_of_mem (f := Prod.fst) listed)
  refine ⟨pos, stands, inside, ?_⟩
  change (insertAll ∅ draft.placed)[pos]? = some ((draft.positions[label]?.bind fun pos =>
    (insertAll ∅ draft.placed)[pos]?).getD label)
  rw [stands, Option.bind_some, found, Option.getD_some]

/-- The code of a whole body is formed, unless a label in it is not bound. -/
lemma finish_ends {line : Nat} (sound : draft.IsSound source) (place : IsPlace source line 1) :
    Ends source Code.IsFormed (draft.finish line) := by
  unfold finish
  split
  · next name unbound =>
    obtain ⟨named, appears⟩ :=
      sound.listed.appear name (Array.mem_toList_iff.mp (mem_of_find?_eq_some unbound))
    exact .unresolvedLabel rfl named appears
  · next none =>
    split
    · exact .syntaxError rfl place
    · next noStray =>
      have bound (label : Label) (uses : label ∈ draft.code.references) : ∃ pos,
          draft.positions[label]? = some pos ∧ pos ≤ draft.code.instructions.length := by
        obtain ⟨pos, stands⟩ := bound_of_unboundName? sound none (sound.known label uses)
        refine ⟨pos, stands, ?_⟩
        simpa [CodeDraft.code] using sound.inside label pos stands
      rw [canonicalize_bound sound bound]
      refine Code.renumberedBy_isFormed bound ?_ ?_
      · intro note member
        rw [strayHandler?, findSome?_eq_none_iff] at noStray
        have here := noStray note member
        unfold CodeTarget.IsHandled
        split
        · next handler target =>
          rw [target] at here
          simpa [CodeDraft.code] using here
        · trivial
      · simpa [CodeDraft.code] using sound.sized

end CodeDraft

end JvmAsm.Text
