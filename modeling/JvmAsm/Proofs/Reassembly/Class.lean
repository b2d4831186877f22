/- Shows which classes that have been read can be written again. -/
import JvmAsm.Proofs.Reassembly.Methods
import JvmAsm.Proofs.RoundTrip.Binary

namespace JvmAsm

open Binary Encode ByteReader Decode PoolBuilder
open List hiding Cursor.at

variable {table : PoolTable} {boots : PoolTable.Bootstrap} {supply : Supply}
variable {version : Version} {encoder : Encoder α} {next : α → Encoder β} {value : ClassFile}

def ClassFile.IsAllowed (value : ClassFile) : Prop :=
  ∀ method ∈ value.methods, ∀ code, method.code = some code → value.version.allows code = true

namespace Encode

section Attributes

/-- The attributes of a class that other declarations do not have, as far as they have been read. -/
def ownClassEncoders (draft : ClassDraft) : List AttributeEncoder := [
  attributeOfList (draft.innerClasses.getD []) fun inner =>
    namedAfter "InnerClasses" (list16 (.tooMany .innerClasses) inner innerClass),
  attributeOf draft.enclosingMethod fun enclosing =>
    namedBefore "EnclosingMethod" (enclosingMethod enclosing),
  attributeOf draft.sourceFile fun file => namedBefore "SourceFile" (utf8 file),
  attributeOf draft.nestHost fun host => namedBefore "NestHost" (className host),
  attributeOfList (draft.nestMembers.getD []) fun members =>
    namedAfter "NestMembers" (list16 (.tooMany .nestMembers) members className),
  attributeOf draft.recordComponents fun components =>
    namedAfter "Record" <| list16 (.tooMany .recordComponents) components fun component =>
      within (.inRecordComponent component.name) (recordComponent component)]

/-- The attributes of a class, as far as they have been read. -/
def classEncoders (draft : ClassDraft) : List AttributeEncoder :=
  markEncoders draft.marks ++ ownClassEncoders draft ++ sharedEncoders classTarget draft.shared

/-- The attributes can be written, and there are not too many of them. -/
def Counts (supply : Supply) (cost : Nat) (encoder : AttributeEncoder) : Prop :=
  cost ≤ maxSpent → Succeeds supply encoder fun found => found.length ≤ cost

lemma FitsAttributes.counts {cost : Nat} {encoder : AttributeEncoder}
    (fits : FitsAttributes supply cost encoder) : Counts supply cost encoder :=
  fun few => (fits few).weaken fun _ short => short.1

lemma attributeTable_counts {listing : Listing} {encoders : List AttributeEncoder} {total : Nat}
    (totals : Totals (Counts supply) total encoders) (few : total ≤ maxSpent) :
    Succeeds supply (attributeTable listing encoders) fun _ => True := by
  suffices mapped : Succeeds supply (encoders.mapM id) fun found =>
      found.flatten.length ≤ total by
    simp only [maxSpent] at few
    exact mapped.bind fun found short => (Succeeds.count16 _ (by omega)).bind fun _ _ =>
      .pure trivial
  induction encoders generalizing total with
  | nil => exact .pure (Nat.zero_le _)
  | cons first rest ih =>
    obtain ⟨cost, later, counts, others, most⟩ := totals.of_cons
    rw [mapM_cons]
    refine (counts (by omega)).bind fun bytes short => (ih others (by omega)).bind
      fun found short' => .pure ?_
    rw [flatten_cons, length_append]
    omega

lemma Fits.succeeds {cost : Nat} {encoder : Encoder (List UInt8)}
    (fits : Fits supply cost encoder) (few : cost ≤ maxSpent) :
    Succeeds supply encoder fun _ => True :=
  (fits few).weaken fun _ _ => trivial

lemma Succeeds.get : Succeeds supply (MonadState.get : Encoder State) fun state =>
    state.pool.Within supply :=
  fun state within => ⟨state, state, rfl, within, within⟩

/-- A list whose elements are short is short if it has few elements. -/
lemma Succeeds.list16 {α : Type} {cause : EncodingCause} {xs : List α}
    {encoder : α → Encoder (List UInt8)} {most : Nat} (few : xs.length ≤ 0xffff)
    (each : ∀ value ∈ xs, Succeeds supply (encoder value) fun bytes => bytes.length ≤ most) :
    Succeeds supply (Encode.list16 cause xs encoder) fun bytes =>
      bytes.length ≤ 2 + xs.length * most := by
  refine (Succeeds.count16 cause few).bind fun count two => ((Succeeds.mapM each).bind
    fun found known => .pure ?_ : Succeeds supply _ fun bytes =>
      bytes.length ≤ xs.length * most).bind fun bytes short => .pure ?_
  · have sum := sum_le_card_nsmul (found.map List.length) most (by simpa using known.2)
    simpa [length_flatten, known.1] using sum
  · rw [length_append]
    omega

lemma bootstrapMethods_counts (listed : .ofText "BootstrapMethods" ∈ supply.constants) :
    Counts supply 1 bootstrapMethods := by
  refine fun _ => Succeeds.get.bind fun state within => ?_
  have count : state.pool.bootstrapMethods.toList.length < 0x8000 := by
    have fewer := PoolBuilder.Within.bootstrapMethods_le within
    have room := supply.room
    omega
  have each : ∀ method ∈ state.pool.bootstrapMethods.toList,
      Succeeds supply (do
        let arguments ← list16 (.tooMany .bootstrapArguments) method.arguments fun argument =>
          return bytes16 argument
        return bytes16 method.handle ++ arguments) fun bytes => bytes.length ≤ 4 + 2 * 0xffff := by
    intro method mem
    have few := PoolBuilder.Within.arguments_le within (Array.mem_def.mpr mem)
    refine (Succeeds.list16 few fun argument _ => .pure (Nat.le_refl 2)).bind
      fun bytes short => .pure ?_
    rw [length_append, bytes16_length]
    omega
  generalize state.pool.bootstrapMethods.toList = methods at count each
  cases methods with
  | nil => exact .pure (Nat.zero_le _)
  | cons first rest =>
    have most := Nat.mul_le_mul_right (4 + 2 * 0xffff) (Nat.le_of_lt_succ count)
    suffices named : Succeeds supply (namedAfter "BootstrapMethods" _) fun _ => True from
      named.bind fun _ _ => .pure le_rfl
    exact (Succeeds.list16 (by omega) each).bind fun contents short =>
      (Succeeds.utf8 listed).bind fun _ _ => (Succeeds.count32 _ (by omega)).bind fun _ _ =>
        .pure trivial

lemma classAttributes_succeeds {total : Nat} {listing : Listing}
    {marked inner outer file host members components signed noted typed raw : AttributeEncoder}
    (totals : Totals (FitsAttributes supply) total
      [marked, inner, outer, file, host, members, components, signed, noted, typed, raw])
    (few : total < maxSpent) (listed : .ofText "BootstrapMethods" ∈ supply.constants) :
    Succeeds supply (attributeTable listing [marked, inner, outer, signed, file, host, members,
      noted, typed, components, bootstrapMethods, raw]) fun _ => True := by
  have counts := totals.imp fun _ _ _ fits => FitsAttributes.counts fits
  have moved := (counts.append (.cons (bootstrapMethods_counts listed) .nil)).perm
    (show List.Perm _ [marked, inner, outer, signed, file, host, members, noted, typed, components,
      bootstrapMethods, raw] from
      (((perm_append_comm_assoc [file, host, members, components] [signed] _).trans
        ((perm_append_comm_assoc [components] [noted, typed] _).append_left
          [signed, file, host, members])).append_left [marked, inner, outer]).trans
        ((List.Perm.swap bootstrapMethods raw []).append_left [marked, inner, outer, signed, file,
          host, members, noted, typed, components]))
  exact attributeTable_counts moved few

end Attributes

/-- Methods whose code is allowed are written without an analysis. -/
lemma methodList_fits {version : Version} {cause : EncodingCause} {named : Method → EncodingCause}
    {methods : List Method} {cost : Nat}
    (counted : Counted 2 0xffff (fun cost method =>
      (∀ code, method.code = some code → version.allows code = true) →
        Fits supply cost (methodBytes version method {})) cost methods)
    (allowed : ∀ method ∈ methods, ∀ code, method.code = some code → version.allows code = true) :
    Fits supply cost (list16 cause (methods.zip (methods.map fun _ => {}))
      fun (method, analysis) => within (named method) (methodBytes version method analysis)) := by
  have paired : methods.zip (methods.map fun _ => ({} : Analysis)) =
      methods.map fun method => (method, {}) := by
    rw [List.zip, zipWith_map_right, zipWith_self]
  have same (encoder : Method × Analysis → Encoder (List UInt8)) :
      list16 cause (methods.map fun method => (method, {})) encoder =
        list16 cause methods fun method => encoder (method, {}) := by
    simp only [list16, each, length_map, mapM_map]
    rfl
  rw [paired, same]
  exact list16_fits counted fun _ method mem fits => (fits (allowed method mem)).within _

/-- All that follows the constant pool can be written if each part can. -/
lemma afterPool_succeeds {analyses : List Analysis}
    (named : .className value.name ∈ supply.constants)
    (above : PoolBuilder.Adds supply (PoolBuilder.optional PoolBuilder.className value.superClass))
    (implemented : ∀ cause, Succeeds supply (list16 cause value.interfaces className) fun _ => True)
    (held : ∀ cause, Succeeds supply (list16 cause value.fields fun field =>
      within (.inField field.name value.name) (fieldBytes field)) fun _ => True)
    (declared : ∀ cause, Succeeds supply (list16 cause (value.methods.zip analyses)
      fun (method, analysis) => within (.inMethod method.title value.name)
        (methodBytes value.version method analysis)) fun _ => True)
    (attributes : Succeeds supply (classAttributes value) fun _ => True) :
    Succeeds supply (afterPool value analyses) fun _ => True :=
  (Succeeds.className named).bind fun _ _ => (Succeeds.index above).bind fun _ _ =>
    (implemented _).bind fun _ _ => (held _).bind fun _ _ => (declared _).bind fun _ _ =>
      attributes.bind fun _ _ => .pure trivial

end Encode

lemma Decode.classTarget_spends :
    Spends classTarget fun cost target => Fits supply cost (Encode.classTarget target) := by
  refine u8_spends.bind fun _ code one => ?_
  rw [one]
  split
  · exact u8_spends.bind fun _ _ one' => .pure fun _ => .pure (by simp [one'])
  · refine u16_spends.bind fun _ index two => .pure fun _ => ?_
    split
    · exact .pure (by simp [two])
    · next other =>
      rw [Encode.classTarget, if_neg other]
      exact .pure (by simp [two])
  · exact u8_spends.bind fun _ _ one' => u8_spends.bind fun _ _ one'' => .pure fun _ =>
      .pure (by simp [one', one''])
  · exact .throw

section Reading

variable (covers : table.constants boots ⊆ supply.constants)
include covers

namespace Decode

lemma optionalClass_adds {name? : Option ClassName}
    (known : ∀ name, name? = some name → ∃ index, table.className index = .ok name) :
    PoolBuilder.Adds supply (optional className name?) := by
  refine optional_adds fun name same => ?_
  obtain ⟨_, found⟩ := known name same
  exact intern_adds (className_covered covers found)

lemma innerClass_spends :
    Spends (innerClass table) fun cost inner => Fits supply cost (Encode.innerClass inner) := by
  refine (entry_spends _).bind fun _ inner named => (optionalEntry_spends _).bind
    fun _ outer owned => (optionalEntry_spends _).bind fun _ name called => u16_spends.bind
      fun _ flags two => .pure fun _ => ?_
  obtain ⟨two', _, found⟩ := named
  refine (Succeeds.className (className_covered covers found)).bind fun first length =>
    (Succeeds.index (optionalClass_adds covers owned.2)).bind fun second length' =>
      (Succeeds.index (optionalText_adds covers called.2)).bind fun third length'' => .pure ?_
  simp only [length_append, bytes16_length]
  omega

lemma enclosingMethod_spends :
    Spends (enclosingMethod table) fun cost enclosing =>
      Fits supply cost (Encode.enclosingMethod enclosing) := by
  refine (entry_spends _).bind fun _ owner named => (optionalEntry_spends _).bind
    fun _ method known => .pure fun _ => ?_
  obtain ⟨two, _, found⟩ := named
  refine (Succeeds.className (className_covered covers found)).bind fun first length =>
    (Succeeds.index (optional_adds fun method same => ?_)).bind
      fun second length' => .pure ?_
  · obtain ⟨_, found⟩ := known.2 method same
    exact intern_adds (covers (PoolTable.methodNameAndType_listed found))
  · rw [length_append]
    omega

lemma ClassDraft.step_spends {draft : ClassDraft} {spent : Nat}
    (fits : Totals (FitsAttributes supply) spent (classEncoders draft)) (name : String)
    (length : Nat) (listed : .ofText name ∈ supply.constants) :
    Spends (draft.step table name length) fun cost draft =>
      Totals (FitsAttributes supply) (spent + (cost + 6)) (classEncoders draft) := by
  unfold step
  split
  · exact mark_fits fits 0 listed
  · exact mark_fits fits 1 listed
  · exact once_fits fits 2 (list16_spends (innerClass_spends covers)) fun _ _ counted =>
      .ofList (by omega) fun _ =>
        namedAfter_fits listed (list16_fits counted fun _ _ _ fits => fits)
  · exact once_fits fits 3 (enclosingMethod_spends covers) fun _ _ written =>
      .one (namedBefore_fits listed written) (by omega)
  · exact once_fits fits 4 (entry_spends _) fun _ _ found => by
      obtain ⟨two, _, read⟩ := found
      exact .one (namedBefore_fits listed
        (index_fits (intern_adds (text_covered covers read)) (by omega))) (by omega)
  · exact once_fits fits 5 (entry_spends _) fun _ _ found => by
      obtain ⟨two, _, read⟩ := found
      exact .one (namedBefore_fits listed
        (index_fits (intern_adds (className_covered covers read)) (by omega))) (by omega)
  · exact once_fits fits 6 (classNames_spends covers) fun _ _ written =>
      .ofList (by omega) fun _ => namedAfter_fits listed (written _)
  · exact once_fits fits 7 (list16_spends (recordComponent_spends covers)) fun _ _ counted =>
      .one (namedAfter_fits listed (list16_fits counted fun _ _ _ fits => fits.within _)) (by omega)
  · have methods : Spends (bootstrapMethod table) fun _ _ => True :=
      (entry_spends _).bind fun _ _ _ => (list16_spends u16_spends).bind fun _ _ _ => .pure trivial
    exact (once_spends (list16_spends methods)).bind fun _ _ _ => .pure (fits.mono (by omega))
  · obtain ⟨first, second, own, shared, most⟩ := fits.of_append
    refine (Shared.step_spends covers shared classTarget_spends name length listed).bind
      fun cost shared fits => .pure ?_
    exact (own.append fits).mono (by omega)

end Decode

end Reading

namespace Decode

lemma ClassDraft.step_isGot {draft : ClassDraft}
    (got : PoolTable.Bootstrap.IsGot table (draft.bootstrapMethods.map List.toArray))
    (name : String) (length : Nat) :
    Gives (draft.step table name length) fun draft =>
      PoolTable.Bootstrap.IsGot table (draft.bootstrapMethods.map List.toArray) := by
  unfold step
  split
  case h_9 =>
    have handle : Gives (entry table.methodHandle) fun handle =>
        ∃ index, table.methodHandle index = .ok handle := by
      intro cursor handle next ran
      obtain ⟨_, _, _, found⟩ := entry_spends _ _ _ _ ran
      exact found.2
    have arguments : Gives (list16 u16) fun indices =>
        indices.length ≤ 0xffff := by
      intro cursor indices next ran
      obtain ⟨_, _, _, counted⟩ := list16_spends u16_spends _ _ _ ran
      exact counted.few
    have method : Gives (bootstrapMethod table) fun method =>
        (∃ index, table.methodHandle index = .ok method.handle) ∧
          method.arguments.length ≤ 0xffff :=
      handle.bind fun _ found => arguments.bind fun _ few => .pure ⟨found, few⟩
    refine (once_gives (list16_gives method)).bind fun methods found => .pure ?_
    rintro _ same method mem
    obtain ⟨list, rfl, rfl⟩ := Option.map_eq_some_iff.mp same
    exact found list rfl method (by simpa using mem)
  all_goals exact .after fun _ => .pure got

lemma skipMembers_spends : Spends skipMembers fun _ _ => True := by
  have single : Spends (do
      discard u16
      skip (← u32).toNat) fun _ _ => True :=
    u16_spends.discard.bind fun _ _ _ => u32_spends.bind fun _ length _ => skip_spends _
  have attributes : Spends skipAttributes fun _ _ => True :=
    (list16_spends single).discard.weaken fun _ _ _ => trivial
  have mem : Spends (do
      skip 6
      skipAttributes) fun _ _ => True := (skip_spends 6).bind fun _ _ _ => attributes
  exact (list16_spends mem).discard.weaken fun _ _ _ => trivial

/-- What follows the constant pool can be written again, if the code of all methods is allowed. -/
lemma afterPool_writable {classStart : Nat} {cursor next : Cursor}
    (ran : afterPool classStart version table cursor = .ok value next)
    (few : cursor.rest.length ≤ maxSpent) (small : table.IsSmall) :
    value.version = version ∧ (value.IsAllowed → ∃ supply, Succeeds supply
      (Encode.afterPool value (value.methods.map fun _ => {})) fun _ => True) := by
  obtain ⟨access, cursor₁, taken, ran⟩ := ran_parts ran
  obtain ⟨name, cursor₂, named, ran⟩ := ran_parts ran
  obtain ⟨superClass, cursor₃, above, ran⟩ := ran_parts ran
  obtain ⟨interfaces, membersStart, implemented, ran⟩ := ran_parts ran
  obtain ⟨_, _, ⟨⟩, ran⟩ := ran_parts ran
  obtain ⟨_, cursor₄, skipped, ran⟩ := ran_parts ran
  obtain ⟨_, cursor₅, skipped', ran⟩ := ran_parts ran
  obtain ⟨draft, classEnd, given, ran⟩ := ran_parts ran
  obtain ⟨_, _, ⟨⟩, ran⟩ := ran_parts ran
  obtain ⟨_, _, ⟨⟩, ran⟩ := ran_parts ran
  obtain ⟨⟨fields, methods⟩, _, belong, ran⟩ := ran_parts ran
  obtain ⟨_, _, ⟨⟩, ⟨⟩⟩ := ran_parts ran
  obtain ⟨_, cursor₆, held, belong⟩ := ran_parts belong
  obtain ⟨_, _, declared, ⟨⟩⟩ := ran_parts belong
  have got := attributes_gives (fun draft => PoolTable.Bootstrap.IsGot table
    (draft.bootstrapMethods.map List.toArray)) (by simp [PoolTable.Bootstrap.IsGot])
    (fun _ key length got => ClassDraft.step_isGot got key length) _ _ _ given
  have covers : table.constants _ ⊆ (PoolTable.supply small got).constants := List.Subset.refl _
  refine ⟨rfl, fun allowed => ⟨PoolTable.supply small got, ?_⟩⟩
  generalize PoolTable.supply small got = supply at covers
  obtain ⟨_, left, _⟩ := u16_spends _ _ _ taken
  obtain ⟨_, left', _, _, _, found⟩ := entry_spends _ _ _ _ named
  obtain ⟨_, left'', _, _, known⟩ := optionalEntry_spends _ _ _ _ above
  obtain ⟨_, left₃, _, written⟩ := classNames_spends covers _ _ _ implemented
  obtain ⟨_, left₄, _⟩ := skipMembers_spends _ _ _ skipped
  obtain ⟨_, left₅, _⟩ := skipMembers_spends _ _ _ skipped'
  obtain ⟨_, left₆, _, spent, paid, totals⟩ := attributes_spends
    (fun spent draft => Totals (FitsAttributes supply) spent (classEncoders draft))
    (FitsAttributes.absent 14) (fun _ _ key length fits ⟨_, read⟩ =>
      ClassDraft.step_spends covers fits key length (text_covered covers read)) _ _ _ given
  obtain ⟨first, later, own, shared, most⟩ := totals.of_append
  obtain ⟨_, left₇, _, fields⟩ := list16_spends ((readField_spends covers).within _) _ _ _ held
  obtain ⟨_, left₈, _, methods⟩ := list16_spends
    ((readMethod_spends covers version classStart).within _) _ _ _ declared
  refine Encode.afterPool_succeeds (className_covered covers found)
    (optionalClass_adds covers known) (fun _ => (written _).succeeds (by omega))
    (fun _ => (list16_fits fields fun _ _ _ fits => fits.within _).succeeds (by omega))
    (fun cause => (@methodList_fits _ _ cause (fun method => .inMethod method.title name) _ _ methods
      allowed).succeeds (by omega))
    (classAttributes_succeeds ((marks_fits own).append (shared_fits shared)) (by omega)
      (covers (PoolTable.own_listed ?_)))
  simp [PoolTable.ownConstants]

lemma classBody_writable {cursor next : Cursor} (ran : classBody cursor = .ok value next)
    (few : cursor.rest.length ≤ maxSpent) :
    value.version.major ≤ Version.latest.major ∧ (value.IsAllowed → ∃ supply, Succeeds supply
      (Encode.afterPool value (value.methods.map fun _ => {})) fun _ => True) := by
  rw [classBody_eq] at ran
  obtain ⟨_, cursor₁, started, ran⟩ := ran_parts ran
  obtain ⟨_, cursor₂, found, ran⟩ := ran_parts ran
  obtain ⟨_, left, _⟩ := offset_spends _ _ _ started
  obtain ⟨_, left', _⟩ := u32_spends _ _ _ found
  split at ran
  · contradiction
  · obtain ⟨minor, cursor₃, found, ran⟩ := ran_parts ran
    obtain ⟨major, cursor₄, found', ran⟩ := ran_parts ran
    obtain ⟨_, left₂, _⟩ := u16_spends _ _ _ found
    obtain ⟨_, left₃, _⟩ := u16_spends _ _ _ found'
    split at ran
    · contradiction
    · next supported =>
      obtain ⟨table, cursor₅, read, ran⟩ := ran_parts ran
      obtain ⟨_, left₄, _, small⟩ := PoolTable.read_spends _ _ _ read
      obtain ⟨same, writable⟩ := afterPool_writable ran (by omega)
        (small (by simp only [maxSpent] at few; omega))
      refine ⟨?_, writable⟩
      rw [same]
      simp only [Bool.or_eq_true, decide_eq_true_eq, not_or, UInt16.not_lt] at supported
      exact supported.1

end Decode

namespace Encode

variable {options : EncodeOptions} {value : ClassFile}

lemma classBytes_succeeds (off : options.computeFrames = false) (given : value.GivesSizes)
    (supported : Version.latest.isBefore value.version = false)
    (written : Succeeds supply (afterPool value (value.methods.map fun _ => {})) fun _ => True) :
    Succeeds supply (classBytes options value) fun _ => True := by
  unfold classBytes
  rw [supported, if_neg (by decide)]
  have analyses : Succeeds supply (value.methods.mapM (analyze options value)) fun analyses =>
      analyses.length = value.methods.length ∧ ∀ analysis ∈ analyses, analysis = {} := by
    refine Succeeds.mapM fun method mem => ?_
    rw [analyze_given off (given method mem)]
    exact .pure rfl
  have rest : Succeeds supply (do
      let analyses ← value.methods.mapM (analyze options value)
      let body ← afterPool value analyses
      let pool ← ofResult (← get).pool.bytes
      return bytes32 magic ++ bytes16 value.version.minor ++ bytes16 value.version.major ++ pool ++
        body) fun _ => True := by
    refine analyses.bind fun analyses known => ?_
    have empty : analyses = value.methods.map fun _ => {} := by
      rw [map_const', eq_replicate_iff]
      exact known
    rw [empty]
    refine written.bind fun body _ => Succeeds.get.bind fun state within => ?_
    obtain ⟨bytes, made⟩ := within.bytes_ok
    exact (Succeeds.ofResult made trivial).bind fun _ (_ : True) => .pure trivial
  dsimp only
  split
  · exact (Succeeds.warn _).bind fun _ _ => rest
  · exact rest

section Requirements

variable {α β : Type} {holds : Prop}

lemma first_gives (gives : Gives encoder fun _ => holds) :
    Gives (encoder >>= next) fun _ => holds :=
  gives.bind fun _ known => (Gives.anything _).weaken fun _ _ => known

lemma later_gives (gives : ∀ value, Gives (next value) fun _ => holds) :
    Gives (encoder >>= next) fun _ => holds :=
  .after fun value => gives value

lemma mapM_gives {step : α → Encoder β} {xs : List α} {value : α} (mem : value ∈ xs)
    (gives : Gives (step value) fun _ => holds) : Gives (xs.mapM step) fun _ => holds := by
  intro state results state' ran
  obtain ⟨_, _, _, _, stepped⟩ := forall₂_mem_right (ran_mapM ran).flip mem
  exact gives _ _ _ stepped

lemma within_requires {cause : EncodingCause} (gives : Gives encoder fun _ => holds) :
    Gives (within cause encoder) fun _ => holds :=
  fun _ _ _ ran => gives _ _ _ (within_ok ran)

lemma checkCode_gives (version : Version) (code : Code) :
    Gives (checkCode version code) fun _ => version.allows code = true := by
  unfold checkCode Version.allows
  cases version.allowsSubroutines with
  | true => exact (Gives.anything _).weaken fun _ _ => rfl
  | false =>
    refine later_gives fun _ => ?_
    cases code.instructions.isEmpty with
    | true => exact Gives.refusal
    | false =>
      cases subroutine? code with
      | none => exact .pure rfl
      | some index => exact .throw

lemma methodBytes_gives {method : Method} {code : Code} {analysis : Analysis}
    (given : method.code = some code) :
    Gives (methodBytes version method analysis) fun _ => version.allows code = true := by
  refine later_gives fun _ => later_gives fun _ => first_gives (first_gives
    (mapM_gives (mem_cons_of_mem _ mem_cons_self) ?_))
  rw [given]
  exact first_gives (first_gives (within_requires (first_gives (checkCode_gives version code))))

/-- A class that has been written is not too new, and its code is allowed. -/
lemma classBytes_gives :
    Gives (classBytes options value) fun _ =>
      Version.latest.isBefore value.version = false ∧ value.IsAllowed := by
  unfold classBytes
  cases Version.latest.isBefore value.version with
  | true => exact Gives.refusal
  | false =>
    suffices rest : Gives (do
        let analyses ← value.methods.mapM (analyze options value)
        let body ← afterPool value analyses
        let pool ← ofResult (← get).pool.bytes
        return bytes32 magic ++ bytes16 value.version.minor ++ bytes16 value.version.major ++
          pool ++ body) fun _ => value.IsAllowed by
      dsimp only
      rw [if_neg (by decide)]
      split
      · exact later_gives fun _ => rest.weaken fun _ allowed => ⟨rfl, allowed⟩
      · exact rest.weaken fun _ allowed => ⟨rfl, allowed⟩
    intro state bytes state' ran method mem code given
    obtain ⟨analyses, between, analyzed, ran⟩ := ran_parts ran
    obtain ⟨index, found⟩ := List.getElem?_of_mem mem
    obtain ⟨analysis, found', _⟩ := forall₂_getElem? (ran_mapM analyzed) found
    have paired : (method, analysis) ∈ value.methods.zip analyses :=
      mem_of_getElem? (List.getElem?_zip_eq_some.mpr ⟨found, found'⟩)
    have written : Gives (afterPool value analyses) fun _ =>
        value.version.allows code = true :=
      later_gives fun _ => later_gives fun _ => later_gives fun _ => later_gives fun _ =>
        first_gives (later_gives fun _ => first_gives (first_gives (mapM_gives paired
          (within_requires (methodBytes_gives given)))))
    exact first_gives written _ _ _ ran

end Requirements

lemma encode_ok_iff {bytes : List UInt8} :
    encode options value = .ok bytes ↔ ∃ state, classBytes options value {} = .ok bytes state := by
  unfold encode encodeWithWarnings
  split
  · next found => simp [found]
  · next found => simp [found]

end Encode

lemma Version.isBefore_latest (old : version.major ≤ latest.major) :
    latest.isBefore version = false ↔ (version.major = latest.major → version.minor = 0) := by
  simp only [isBefore, compare, Ord.compare, compareOfLessAndEq, if_neg (UInt16.not_lt.mpr old)]
  by_cases same : version.major = latest.major
  · rw [same, if_pos rfl]
    by_cases first : version.minor = 0
    · simp [first, latest]
    · have later : 0 < version.minor := UInt16.pos_iff_ne_zero.mpr first
      simp [first, latest, later]
  · simp [same, Ne.symm same]

lemma Version.allows_iff {code : Code} :
    version.allows code = true ↔ version.allowsSubroutines = true ∨
      ∀ entry ∈ code.instructions, entry.instruction.isSubroutine = false := by
  simp [allows, subroutine?]

lemma ClassFile.isAllowed_iff :
    value.IsAllowed ↔ value.version.allowsSubroutines = true ∨
      ∀ method ∈ value.methods, ∀ code, method.code = some code →
        ∀ entry ∈ code.instructions, entry.instruction.isSubroutine = false := by
  unfold IsAllowed
  simp only [Version.allows_iff]
  by_cases allowed : value.version.allowsSubroutines = true
  · simp [allowed]
  · simp [allowed]

lemma decode_writable {bytes : List UInt8} (decoded : decode bytes = .ok value)
    (few : bytes.length ≤ maxSpent) :
    value.version.major ≤ Version.latest.major ∧ (value.IsAllowed → ∃ supply, Succeeds supply
      (Encode.afterPool value (value.methods.map fun _ => {})) fun _ => True) := by
  obtain ⟨⟨found, next⟩, ran, decoded⟩ := ok_parts decoded
  dsimp only at decoded
  split at decoded
  · contradiction
  · cases decoded
    unfold readClass at ran
    split at ran
    · next body =>
      cases ran
      exact classBody_writable body (by simpa [Cursor.at] using few)
    · contradiction

/--
A class that is read from at most 8192 bytes can be written again without frames, unless its
version is one that only the reader accepts or its code uses subroutines that only the reader
accepts.
-/
theorem encode_decoded_iff {bytes : List UInt8} {value : ClassFile} {options : EncodeOptions}
    (small : bytes.length ≤ 8192) (decoded : decode bytes = .ok value)
    (off : options.computeFrames = false) :
    (∃ again, encode options value = .ok again) ↔
      (value.version.major = Version.latest.major → value.version.minor = 0) ∧
        (value.version.allowsSubroutines = true ∨
          ∀ method ∈ value.methods, ∀ code, method.code = some code →
            ∀ entry ∈ code.instructions, entry.instruction.isSubroutine = false) := by
  obtain ⟨old, writable⟩ := decode_writable decoded small
  rw [← Version.isBefore_latest old, ← ClassFile.isAllowed_iff]
  constructor
  · rintro ⟨again, encoded⟩
    obtain ⟨_, ran⟩ := encode_ok_iff.mp encoded
    exact classBytes_gives _ _ _ ran
  · rintro ⟨supported, allowed⟩
    have given : value.GivesSizes := by
      intro method mem code found
      have isRead := ((decode_isRead decoded).1.methods method mem).code code found
      exact ⟨isRead.maxStack, isRead.maxLocals⟩
    obtain ⟨supply, written⟩ := writable allowed
    obtain ⟨again, _, ran, _⟩ := classBytes_succeeds off given supported written {}
      (empty_within supply)
    exact ⟨again, encode_ok_iff.mpr ⟨_, ran⟩⟩

/-- The class with a method that returns at once can be written again. -/
theorem encode_decoded_iff_idleBytes :
    idleBytes.length ≤ 8192 ∧ decode idleBytes = .ok (.idle (some 0)) ∧
      ∃ again, encode { computeFrames := false } (.idle (some 0)) = .ok again :=
  ⟨by decide, decode_idleBytes, (encode_decoded_iff (by decide) decode_idleBytes rfl).mpr
    ⟨by decide, .inr (by decide)⟩⟩

/-- A class without members, of a version that is newer than the latest one by its minor number. -/
def ClassFile.newer : ClassFile where
  version := ⟨67, 1⟩
  access := ⟨0⟩
  name := .object ⟨"A", Eq.refl true⟩
  superClass := none
  interfaces := []

def newerBytes : List UInt8 :=
  [0xca, 0xfe, 0xba, 0xbe, 0, 1, 0, 67, 0, 3, 1, 0, 1, 65, 7, 0, 1, 0, 0, 0, 2, 0, 0, 0, 0, 0, 0,
    0, 0, 0, 0]

/-- The reader compares the major number only, and the writer both. -/
theorem not_encode_newerBytes :
    decode newerBytes = .ok .newer ∧
      ∀ options, ∃ failure, encode options .newer = .error failure := by
  refine ⟨by cbv, fun options => ⟨_, rfl⟩⟩

end JvmAsm
