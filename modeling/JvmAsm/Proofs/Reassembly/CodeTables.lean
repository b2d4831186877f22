/-
Shows that the tables of code that have been read can be written again, wherever the labels stand,
as long as their order stays the same.
-/
import JvmAsm.Proofs.Decode.CodeFormed
import JvmAsm.Proofs.Reassembly.Annotations

namespace JvmAsm

open Binary Encode List Decode FieldType

variable {α β : Type} {table : PoolTable} {boots : PoolTable.Bootstrap} {supply : Supply}
variable {firsts : Array (Option Nat)} {name : String}

/-- The labels of a range have been read from offsets that do not decrease. -/
def LabelRange.IsForward (range : LabelRange) : Prop := range.start.id ≤ range.stop.id

namespace Encode

section Order

variable {written : Written} {rename : Label → Label} {labels : List Label}

/-- Labels that get other names are written in the order in which they have been read. -/
def Written.Orders (written : Written) (rename : Label → Label) (labels : List Label) : Prop :=
  ∀ first ∈ labels, ∀ second ∈ labels, first.id < second.id →
    written.offset (rename first) < written.offset (rename second)

lemma Written.Orders.le (orders : written.Orders rename labels) {first second : Label}
    (uses : first ∈ labels) (uses' : second ∈ labels) (before : first.id ≤ second.id) :
    written.offset (rename first) ≤ written.offset (rename second) := by
  rcases UInt16.lt_or_eq_of_le before with less | same
  · exact le_of_lt (orders first uses second uses' less)
  · rw [show first = second from congrArg Label.mk same]

lemma Written.Orders.subset (orders : written.Orders rename labels) {others : List Label}
    (fewer : others ⊆ labels) : written.Orders rename others :=
  fun first uses second uses' => orders first (fewer uses) second (fewer uses')

lemma range_succeeds {range : LabelRange}
    (ordered : written.offset range.start ≤ written.offset range.stop) :
    Succeeds supply (written.range range) fun bytes => bytes.length = 4 := by
  unfold Written.range
  dsimp only
  rw [if_neg (not_lt.mpr ordered)]
  exact .pure rfl

end Order

section Tables

variable {good : Nat → α → Prop} {better : Nat → β → Prop} {name : String} {cost : Nat}
  {xs : List α}

/-- What holds for a table whose entries come from attributes of the given name. -/
def Tabled (supply : Supply) (name : String) (good : Nat → α → Prop) (cost : Nat)
    (xs : List α) : Prop :=
  xs = [] ∨ .ofText name ∈ supply.constants ∧ ∃ total, total + 8 ≤ cost ∧ Totals good total xs

namespace Tabled

section

variable (tabled : Tabled supply name good cost xs)
include tabled

lemma append {more : Nat} {rest : List α} (listed : .ofText name ∈ supply.constants) (counted : Counted 2 0xffff good more rest) :
    Tabled supply name good (cost + (more + 6)) (xs ++ rest) := by
  obtain ⟨_, second, paid', totals'⟩ := counted
  rcases tabled with rfl | ⟨_, first, paid, totals⟩
  · exact .inr ⟨listed, second, by omega, totals'⟩
  · exact .inr ⟨listed, first + second, by omega, totals.append totals'⟩

/-- Entries that stand for others cost as much. -/
lemma onto {others : List β} (none : xs = [] → others = [])
    (totals : ∀ total, Totals good total xs → Totals better total others) :
    Tabled supply name better cost others := by
  rcases tabled with empty | ⟨listed, total, paid, known⟩
  · exact .inl (none empty)
  · exact .inr ⟨listed, total, paid, totals total known⟩

lemma fits {cause : EncodingCause} {encoder : α → Encoder (List UInt8)}
    (costly : ∀ cost value, good cost value → 1 ≤ cost)
    (each : ∀ cost, ∀ value ∈ xs, good cost value → Fits supply cost (encoder value)) :
    FitsAttributes supply cost (attributeOfList xs fun xs =>
      namedAfter name (list16 cause xs encoder)) := by
  rcases tabled with rfl | ⟨listed, total, paid, totals⟩
  · exact .none
  · intro few
    have count := totals.length_le 1 costly
    simp only [maxSpent] at few
    have counted : Counted 2 0xffff good (total + 2) xs :=
      ⟨by omega, total, le_rfl, totals⟩
    refine (FitsAttributes.ofList (by omega) fun _ => ?_) few
    exact (namedAfter_fits listed (list16_fits counted each)).mono (by omega)

end

end Tabled

end Tables

section Targets

/-- What holds for a target in code that takes some bytes, wherever the labels stand. -/
def FitsTarget (supply : Supply) (cost : Nat) (target : CodeTarget) : Prop :=
  ∀ (written : Written) (firsts : Array (Option Nat)) (rename : Label → Label),
    written.Orders rename target.labels →
    (∀ handler, target = .exceptionParameter handler →
      (firsts[handler.toNat]?.join).isSome = true) →
    Fits supply cost (codeTarget written firsts (target.mapLabels rename))

lemma variables_fits {entries : List (LabelRange × UInt16)} {isResource : Bool} {cost : Nat}
    {written : Written} {rename : Label → Label}
    (counted : Counted 2 0xffff (fun cost entry => cost = 6 ∧ entry.1.IsForward) cost entries)
    (orders : written.Orders rename (CodeTarget.variables isResource entries).labels) :
    Fits supply (1 + cost)
      (codeTarget written firsts ((CodeTarget.variables isResource entries).mapLabels rename)) := by
  have renamed : Counted 2 0xffff (fun cost (entry : LabelRange × UInt16) => cost = 6 ∧
      written.offset entry.1.start ≤ written.offset entry.1.stop) cost
      (entries.map fun entry => (⟨rename entry.1.start, rename entry.1.stop⟩, entry.2)) := by
    obtain ⟨few, total, paid, totals⟩ := counted
    refine ⟨by rwa [length_map], total, paid, (totals.imp fun cost entry mem known => ?_).map⟩
    have uses : entry.1.start ∈ (CodeTarget.variables isResource entries).labels ∧
        entry.1.stop ∈ (CodeTarget.variables isResource entries).labels :=
      ⟨mem_flatMap.mpr ⟨entry, mem, by simp⟩, mem_flatMap.mpr ⟨entry, mem, by simp⟩⟩
    exact ⟨known.1, orders.le uses.1 uses.2 known.2⟩
  intro few
  refine Succeeds.bind (list16_fits renamed (fun cost entry _ known _ => ?_) (by omega))
    fun bytes short => .pure ?_
  · exact (range_succeeds known.2).bind fun bytes four => .pure (by simp [four, known.1])
  · rw [length_cons]
    omega

end Targets

section Notes

variable {written : Written} {firsts : Array (Option Nat)} {notes : List (AnnotatedType CodeTarget)}

/-- The handlers that annotations name have entries. -/
def AllHandled (firsts : Array (Option Nat)) (notes : List (AnnotatedType CodeTarget)) : Prop :=
  ∀ note ∈ notes, ∀ handler, note.target = .exceptionParameter handler →
    (firsts[handler.toNat]?.join).isSome = true

lemma filterM_succeeds {keep : α → Encoder Bool} {xs : List α}
    (each : ∀ value ∈ xs, Succeeds supply (keep value) fun isKept => isKept = true) :
    Succeeds supply (xs.filterM keep) fun kept => kept = xs := by
  have loop (found : List α) : Succeeds supply (filterAuxM keep xs found)
      fun kept => kept = xs.reverse ++ found := by
    induction xs generalizing found with
    | nil => exact .pure rfl
    | cons value rest ih =>
      rw [forall_mem_cons] at each
      rw [reverse_cons, append_assoc]
      refine each.1.bind fun isKept kept => ?_
      rw [kept]
      exact ih each.2 (value :: found)
  refine (loop []).bind fun kept same => .pure ?_
  rw [same, append_nil, reverse_reverse]

lemma keepHandled_succeeds (handled : AllHandled firsts notes) :
    Succeeds supply (keepHandled firsts notes) fun kept => kept = notes := by
  refine filterM_succeeds fun note mem => ?_
  split
  · next handler target =>
    rw [handled note mem handler target]
    exact .pure rfl
  · exact .pure rfl

lemma codeNotes_fits {cost : Nat} (handled : AllHandled firsts notes)
    (tabled : Tabled supply name (FitsType supply fun cost target =>
      Fits supply cost (codeTarget written firsts target)) cost notes) :
    FitsAttributes supply cost (do
      annotatedTypes name (codeTarget written firsts) (← keepHandled firsts notes)) := by
  intro few
  refine (keepHandled_succeeds handled).bind fun kept same => ?_
  rw [same]
  refine tabled.fits (fun _ _ fine => fine.1) (fun cost note _ fine => ?_) few
  obtain ⟨_, targetCost, fits, whole⟩ := fine
  exact whole _ fits

end Notes

section Variables

/-- What holds for an entry of one of the tables of local variables, given its text. -/
structure FitsVariable (supply : Supply) (ordered : LabelRange → Prop)
    (known : LocalVariable → Option String) (cost : Nat) (entry : LocalVariable) : Prop where
  paid : cost = 10
  range : ordered entry.range
  named : .ofText entry.name ∈ supply.constants
  texts : ∀ text, known entry = some text → .ofText text ∈ supply.constants

variable {written : Written} {name : String} {known : LocalVariable → Option String} {cost : Nat}

lemma localVariableTable_fits {strip : LocalVariable → LocalVariable}
    (keeps : ∀ entry, (strip entry).key = entry.key ∧ known (strip entry) = known entry)
    (tabled : Tabled supply name
      (FitsVariable supply (fun range => written.offset range.start ≤ written.offset range.stop)
        known) cost (written.code.localVariables.filterMap fun entry =>
          (known entry).map fun _ => strip entry)) :
    FitsAttributes supply cost (localVariableTable written name known) := by
  have form : (written.code.localVariables.filterMap fun entry =>
      (known entry).map fun _ => strip entry) =
      (written.code.localVariables.filterMap fun entry =>
        (known entry).map fun text => (entry, text)).map fun pair => strip pair.1 := by
    simp only [map_filterMap, Option.map_map]
    rfl
  rw [form] at tabled
  refine (tabled.onto map_eq_nil_iff.mp fun _ totals => totals.of_map).fits
    (fun cost _ fine => by have := fine.paid; omega) fun cost pair mem fine few => ?_
  obtain ⟨entry, text⟩ := pair
  obtain ⟨_, _, told⟩ := mem_filterMap.mp mem
  obtain ⟨_, told, same⟩ := Option.map_eq_some_iff.mp told
  cases same
  obtain ⟨paid, range, named, texts⟩ := fine
  obtain ⟨same, same'⟩ := keeps entry
  simp only [LocalVariable.key, Prod.mk.injEq] at same
  dsimp only at range named
  rw [same.1] at range
  rw [same.2.1] at named
  refine (range_succeeds range).bind fun rangeBytes four => (Succeeds.utf8 named).bind
    fun nameIndex two => (Succeeds.utf8 (texts text (same'.trans told))).bind
      fun textIndex two' => .pure ?_
  simp only [length_append, bytes16_length]
  omega

end Variables

/-- What is known of the tables of code, each of which has been read from some bytes. -/
def tableParts (supply : Supply) (tables : CodeTables) : List (Nat → Prop) := [
  fun cost => Tabled supply "LineNumberTable" (fun cost _ => cost = 4) cost
    tables.lineNumbers.toList,
  fun cost => Tabled supply "LocalVariableTable"
    (FitsVariable supply LabelRange.IsForward fun entry => entry.type.map text) cost
    tables.localVariables.toList,
  fun cost => Tabled supply "LocalVariableTypeTable"
    (FitsVariable supply LabelRange.IsForward LocalVariable.signature) cost
    tables.localVariableTypes.toList,
  fun cost => Tabled supply "RuntimeVisibleTypeAnnotations"
    (FitsType supply (FitsTarget supply)) cost tables.visible.toList,
  fun cost => Tabled supply "RuntimeInvisibleTypeAnnotations"
    (FitsType supply (FitsTarget supply)) cost tables.invisible.toList,
  fun cost => FitsAttributes supply cost (rawAttributes tables.raw.toList)]

end Encode

namespace Decode

lemma readLabel_spends (length : Nat) : Spends (readLabel length) fun cost _ => cost = 2 :=
  u16_spends.bind fun _ _ two => .ofResult fun _ _ => two

lemma labelInside_id {length : Nat} {offset : UInt16} {label : Label}
    (found : labelInside length offset = .ok label) : label.id = offset := by
  unfold labelInside Bytecode.insideCode at found
  split at found
  · cases found
    exact UInt16.ofNat_toNat
  · contradiction

lemma labelUpTo_id {length : Nat} {offset : UInt16} {label : Label}
    (found : labelUpTo length offset = .ok label) : label.id = offset := by
  unfold labelUpTo at found
  dsimp only at found
  split at found
  · cases found
    rfl
  · exact labelInside_id found

lemma readRange_spends (length : Nat) :
    Spends (readRange length) fun cost range => cost = 4 ∧ range.IsForward := by
  refine u16_spends.bind fun _ start two => u16_spends.bind fun _ size two' =>
    .ofResult fun range found => ⟨by omega, ?_⟩
  unfold labelRange at found
  dsimp only at found
  split at found
  · contradiction
  · next fits =>
    obtain ⟨first, inside, found⟩ := ok_parts found
    obtain ⟨last, inside', found⟩ := ok_parts found
    cases found
    rw [LabelRange.IsForward, labelInside_id inside, labelUpTo_id inside',
      UInt16.le_iff_toNat_le, UInt16.toNat_add]
    omega

lemma codeTarget_spends (length handlerCount : Nat) :
    Spends (codeTarget length handlerCount) (FitsTarget supply) := by
  refine u8_spends.bind fun _ code one => ?_
  rw [one]
  split
  · have entry : Spends (do
        let range ← readRange length
        return (range, ← ByteReader.u16)) fun cost entry => cost = 6 ∧ entry.1.IsForward :=
      (readRange_spends length).bind fun _ range four => u16_spends.bind fun _ _ two =>
        .pure ⟨by omega, four.2⟩
    refine (list16_spends entry).bind fun cost entries counted => .pure ?_
    exact fun written firsts rename orders _ => variables_fits counted orders
  · split
    · refine u16_spends.bind fun _ index two => ?_
      split
      · exact .refusal
      · refine .pure fun written firsts rename _ handled few => ?_
        obtain ⟨first, got⟩ := Option.isSome_iff_exists.mp (handled index rfl)
        rw [CodeTarget.mapLabels, Encode.codeTarget, got]
        exact .pure (by simp [two])
    · split
      · exact (readLabel_spends length).bind fun _ label two => .pure
          fun _ _ _ _ _ _ => .pure (by simp [Written.label, two])
      · split
        · exact (readLabel_spends length).bind fun _ label two => u8_spends.bind
            fun _ argument one => .pure fun _ _ _ _ _ _ => .pure (by
              simp [Written.label, two, one])
        · exact .throw

section Reading

variable (covers : table.constants boots ⊆ supply.constants)
include covers

lemma localVariable_spends (length : Nat) :
    Spends (localVariable table length) (FitsVariable supply LabelRange.IsForward
      fun entry => entry.type.map text) := by
  refine (readRange_spends length).bind fun _ range four => (entry_spends _).bind
    fun _ name named => (entry_spends _).bind fun _ type typed => u16_spends.bind
      fun _ index two => .pure ?_
  obtain ⟨two', _, named⟩ := named
  obtain ⟨two'', _, typed⟩ := typed
  refine ⟨by omega, four.2, text_covered covers named, ?_⟩
  rintro _ ⟨⟩
  exact fieldType_covered covers typed

lemma localVariableType_spends (length : Nat) :
    Spends (localVariableType table length) (FitsVariable supply LabelRange.IsForward
      LocalVariable.signature) := by
  refine (readRange_spends length).bind fun _ range four => (entry_spends _).bind
    fun _ name named => (entry_spends _).bind fun _ signature signed => u16_spends.bind
      fun _ index two => .pure ?_
  obtain ⟨two', _, named⟩ := named
  obtain ⟨two'', _, signed⟩ := signed
  refine ⟨by omega, four.2, text_covered covers named, ?_⟩
  rintro _ ⟨⟩
  exact text_covered covers signed

lemma CodeTables.step_spends {tables : CodeTables} {spent length handlerCount : Nat}
    (fits : Totals (fun cost part => part cost) spent (tableParts supply tables)) (name : String)
    (size : Nat) (listed : .ofText name ∈ supply.constants) :
    Spends (step table length handlerCount tables name size) fun cost tables =>
      Totals (fun cost part => part cost) (spent + (cost + 6)) (tableParts supply tables) := by
  have line : Spends (lineNumber length) fun cost _ => cost = 4 :=
    (readLabel_spends length).bind fun _ _ two => u16_spends.bind fun _ _ two' => .pure (by omega)
  have notes : Spends (annotatedTypes table (codeTarget length handlerCount))
      (Counted 2 0xffff (FitsType supply (FitsTarget supply))) :=
    annotatedTypes_spends covers (codeTarget_spends length handlerCount)
  have extend {α : Type} {reader : ByteReader (List α)} {good : Nat → α → Prop} {xs : List α}
      {make : List α → CodeTables} (index : Nat) (spends : Spends reader (Counted 2 0xffff good))
      (got : (tableParts supply tables)[index]? = some fun cost => Tabled supply name good cost xs)
      (sets : ∀ found, tableParts supply (make found) = (tableParts supply tables).set index
        fun cost => Tabled supply name good cost (xs ++ found)) :
      Spends (do return make (← contents name size reader)) fun cost tables =>
        Totals (fun cost part => part cost) (spent + (cost + 6)) (tableParts supply tables) :=
    (contents_spends spends).bind fun _ found counted => .pure (by
      rw [sets]
      exact fits.set got fun before known => Tabled.append known listed counted)
  unfold step
  split
  · exact (skip_spends size).bind fun _ _ _ => .pure (fits.mono (by omega))
  · exact extend 0 (list16_spends line) rfl (by simp [tableParts])
  · exact extend 1 (list16_spends (localVariable_spends covers length)) rfl (by simp [tableParts])
  · exact extend 2 (list16_spends (localVariableType_spends covers length)) rfl
      (by simp [tableParts])
  · exact extend 3 notes rfl (by simp [tableParts])
  · exact extend 4 notes rfl (by simp [tableParts])
  · refine (raw_spends name size).bind fun cost kept known => .pure ?_
    obtain ⟨same, length⟩ := known
    rw [← same] at listed
    have pushed : Totals (fun cost part => part cost) (spent + (kept.bytes.length + 6))
        ((tableParts supply tables).set 5 fun cost =>
          FitsAttributes supply cost (rawAttributes (tables.raw.toList ++ [kept]))) :=
      fits.set rfl fun before known => FitsAttributes.pushRaw known listed
    rw [length] at pushed
    simpa [tableParts] using pushed

end Reading

end Decode

namespace Encode

open LocalVariable

variable {written : Written} {code : Code} {rename : Label → Label} {cost : Nat}

lemma renamedVariables {known : LocalVariable → Option String}
    {part : LocalVariable → Option LocalVariable} {entries : List LocalVariable}
    (orders : written.Orders rename code.references)
    (tabled : Tabled supply name (FitsVariable supply LabelRange.IsForward known) cost entries)
    (parts : (code.localVariables.filterMap part).Perm entries)
    (ranges : ∀ entry kept, part entry = some kept → kept.range = entry.range)
    (texts : ∀ entry, known (entry.mapLabels rename) = known entry) :
    Tabled supply name (FitsVariable supply
      (fun range => written.offset range.start ≤ written.offset range.stop) known) cost
      ((code.localVariables.filterMap part).map (mapLabels rename)) := by
  refine tabled.onto (fun empty => ?_) fun total totals => ?_
  · rw [empty] at parts
    rw [parts.eq_nil, map_nil]
  · refine ((totals.perm parts.symm).imp fun cost entry mem fits => ?_).map
    obtain ⟨original, got, same⟩ := mem_filterMap.mp mem
    have uses := Code.range_mem_references got
    rw [← ranges original entry same] at uses
    exact ⟨fits.paid, orders.le uses.1 uses.2 fits.range, fits.named, fun text told =>
      fits.texts text ((texts entry).symm.trans told)⟩

/-- The annotations in code that has been read, with their new labels. -/
lemma renamedNotes {notes : List (AnnotatedType CodeTarget)}
    (orders : written.Orders rename code.references)
    (tabled : Tabled supply name (FitsType supply (FitsTarget supply)) cost notes)
    (got : ∀ note ∈ notes, note.target.labels ⊆ code.references)
    (handled : AllHandled firsts notes) :
    Tabled supply name (FitsType supply fun cost target =>
        Fits supply cost (codeTarget written firsts target)) cost
      (notes.map fun note => { note with target := note.target.mapLabels rename }) := by
  refine tabled.onto (fun empty => by rw [empty, map_nil]) fun total totals =>
    (totals.imp fun cost note mem fits => ?_).map
  obtain ⟨paid, targetCost, fine, whole⟩ := fits
  exact ⟨paid, targetCost, fine written firsts rename (orders.subset (got note mem))
    (handled note mem), whole⟩

section Writing

variable {tables : CodeTables} {handlers : List ExceptionHandler} {length : Nat}

lemma lineNumbers_fits {lines : List (Label × UInt16)} {positions : Std.HashMap Label Nat}
    (tabled : Tabled supply "LineNumberTable" (fun cost _ => cost = 4) cost lines)
    (same : code.lineNumbers = lines) (renamed : written.code = code.renumberedBy positions) :
    FitsAttributes supply cost (lineNumbers written) := by
  have sorted : written.code.lineNumbers.Perm
      (lines.map fun entry => (code.numbered positions entry.1, entry.2)) := by
    rw [renamed, ← same]
    exact mergeSort_perm _ _
  have moved : Tabled supply "LineNumberTable" (fun cost _ => cost = 4) cost
      written.code.lineNumbers := by
    refine tabled.onto (fun empty => by simpa [empty] using sorted) fun total totals => ?_
    have mapped := @Totals.map _ _ (fun cost _ => cost = 4) _ _
      (fun entry => (code.numbered positions entry.1, entry.2)) totals
    exact mapped.perm sorted.symm
  refine moved.fits (fun _ _ four => by omega) fun cost line _ four few => .pure ?_
  rw [four, length_append, Written.label, bytes16_length, bytes16_length]
  decide

section

variable (sound : tables.IsSound length handlers.length)
include sound

lemma typedVariables_fits (orders : written.Orders rename code.references)
    (tabled : Tabled supply "LocalVariableTable" (FitsVariable supply LabelRange.IsForward
      fun entry => entry.type.map text) cost tables.localVariables.toList)
    (same : code.localVariables = (tables.code handlers).localVariables)
    (renamed : written.code.localVariables = code.localVariables.map (mapLabels rename)) :
    FitsAttributes supply cost (localVariableTable written "LocalVariableTable" fun entry =>
      entry.type.map text) := by
  have own : tables.localVariables.toList.filterMap typed? = tables.localVariables.toList := by
    have whole : ∀ entry ∈ tables.localVariables.toList, entry.typed? = some entry := by
      intro entry mem
      obtain ⟨_, has, missing⟩ := sound.typed entry (Array.mem_def.mpr mem)
      obtain ⟨type, known⟩ := Option.isSome_iff_exists.mp has
      rw [typed?, known, Option.map_some, ← missing, ← known]
    rw [filterMap_congr whole, filterMap_some]
  have parts : code.localVariables.filterMap typed? = tables.localVariables.toList := by
    rw [same, CodeTables.code, ← Array.foldl_toList, CodeTables.foldl_addSignature,
      CodeTables.filterMap_typed?_foldl fun entry mem =>
        (sound.signed entry (Array.mem_def.mpr mem)).2.1, own]
  have moved := renamedVariables orders tabled (.of_eq parts) (fun entry kept told => by
    obtain ⟨_, _, rfl⟩ := Option.map_eq_some_iff.mp told
    rfl) fun _ => rfl
  refine @localVariableTable_fits _ _ _ _ _ (fun entry => { entry with signature := none })
    (fun _ => ⟨rfl, rfl⟩) ?_
  rw [← filterMap_typed?, ← renamed] at moved
  simp only [Option.map_map]
  exact moved

lemma signedVariables_fits (orders : written.Orders rename code.references)
    (tabled : Tabled supply "LocalVariableTypeTable" (FitsVariable supply LabelRange.IsForward
      LocalVariable.signature) cost tables.localVariableTypes.toList)
    (same : code.localVariables = (tables.code handlers).localVariables)
    (renamed : written.code.localVariables = code.localVariables.map (mapLabels rename)) :
    FitsAttributes supply cost (localVariableTable written "LocalVariableTypeTable"
      LocalVariable.signature) := by
  have none : tables.localVariables.toList.filterMap signed? = [] := by
    rw [filterMap_eq_nil_iff]
    intro entry mem
    rw [signed?, (sound.typed entry (Array.mem_def.mpr mem)).2.2, Option.map_none]
  have parts : (code.localVariables.filterMap signed?).Perm tables.localVariableTypes.toList := by
    have given := @CodeTables.filterMap_signed?_foldl tables.localVariables.toList
      tables.localVariableTypes.toList fun entry mem =>
        (sound.signed entry (Array.mem_def.mpr mem)).2
    rw [none, nil_append, ← CodeTables.foldl_addSignature, Array.foldl_toList] at given
    rw [same]
    exact given
  have moved := renamedVariables orders tabled parts (fun entry kept told => by
    obtain ⟨_, _, rfl⟩ := Option.map_eq_some_iff.mp told
    rfl) fun _ => rfl
  refine @localVariableTable_fits _ _ _ _ _ (fun entry => { entry with type := .none })
    (fun _ => ⟨rfl, rfl⟩) ?_
  rwa [← filterMap_signed?, ← renamed] at moved

/-- The tables of code can be written again if the labels keep their order. -/
lemma codeTables_fits {maxStack maxLocals : UInt16} {instructions : List Entry}
    {positions : Std.HashMap Label Nat} {total : Nat}
    (parts : Totals (fun cost part => part cost) total (tableParts supply tables))
    (read : tables.labelled handlers maxStack maxLocals instructions = code)
    (same : written.code = code.renumberedBy positions)
    (orders : written.Orders (code.numbered positions) code.references)
    (handled : ∀ index < handlers.length, (firsts[index]?.join).isSome = true) :
    Totals (FitsAttributes supply) total [lineNumbers written,
      localVariableTable written "LocalVariableTable" fun entry => entry.type.map text,
      localVariableTable written "LocalVariableTypeTable" LocalVariable.signature,
      typeAnnotations (keepHandled firsts) (codeTarget written firsts) written.code.typeAnnotations,
      rawAttributes written.code.attributes] := by
  have names {note : AnnotatedType CodeTarget} (got : note ∈ code.notes) {handler : UInt16}
      (target : note.target = .exceptionParameter handler) :
      (firsts[handler.toNat]?.join).isSome = true := by
    rw [← read] at got
    have exists' := (sound.notes handlers note got).1.handled
    rw [target] at exists'
    exact handled _ exists'
  have noted {name : String} {notes : List (AnnotatedType CodeTarget)}
      (listed : notes ⊆ code.notes) (cost : Nat)
      (tabled : Tabled supply name (FitsType supply (FitsTarget supply)) cost notes) :
      FitsAttributes supply cost (do
        let kept ← keepHandled firsts (notes.map fun note =>
          { note with target := note.target.mapLabels (code.numbered positions) })
        annotatedTypes name (codeTarget written firsts) kept) := by
    have own : AllHandled firsts notes := fun note mem _ => names (listed mem)
    refine codeNotes_fits ?_ (renamedNotes orders tabled (fun note mem =>
      Code.labels_subset_references (listed mem)) own)
    simp only [AllHandled, forall_mem_map]
    intro note mem handler target
    refine own note mem handler ?_
    cases here : note.target <;> simp_all [CodeTarget.mapLabels]
  subst read
  have whole := parts.onto (.cons (fun _ tabled => lineNumbers_fits tabled rfl same)
    (.cons (fun _ tabled => typedVariables_fits sound orders tabled rfl (by rw [same]; rfl))
      (.cons (fun _ tabled => signedVariables_fits sound orders tabled rfl (by rw [same]; rfl))
        (.cons (noted (subset_append_left _ _)) (.cons (noted (subset_append_right _ _))
          (.cons (fun _ fits => fits) .nil))))))
  have kept : written.code.attributes = tables.raw.toList := by
    rw [same]
    rfl
  rw [kept]
  obtain ⟨front, back, own, rest, most⟩ := @Totals.of_append _ _ _ [_, _, _] _ whole
  refine (own.append (rest.pair fun cost more first second => ?_)).mono most
  have both := first.both second
  simp only [bind_assoc] at both
  rw [typeAnnotations, same]
  exact both

end

end Writing

end Encode

end JvmAsm
