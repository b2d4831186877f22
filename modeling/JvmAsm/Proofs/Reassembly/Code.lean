/-
Shows that code that has been read can be written again, unless it enters or leaves subroutines
where they are not allowed.
-/
import JvmAsm.Proofs.Reassembly.CodeTables
import JvmAsm.Proofs.Reassembly.Instructions

namespace JvmAsm

open Binary Bytecode Encode List Decode Code

variable {table : PoolTable} {boots : PoolTable.Bootstrap} {supply : Supply}

namespace Encode

variable {α β : Type}

lemma Succeeds.mapM {encoder : α → Encoder β} {good : β → Prop} {xs : List α}
    (each : ∀ value ∈ xs, Succeeds supply (encoder value) good) :
    Succeeds supply (xs.mapM encoder) fun results =>
      results.length = xs.length ∧ ∀ result ∈ results, good result := by
  induction xs with
  | nil => exact .pure ⟨rfl, by simp⟩
  | cons value rest ih =>
    rw [forall_mem_cons] at each
    rw [mapM_cons]
    exact each.1.bind fun _ first => (ih each.2).bind fun _ others => .pure
      ⟨congrArg (· + 1) others.1, forall_mem_cons.mpr ⟨first, others.2⟩⟩

section Handlers

variable {written : Written} {handlers : List ExceptionHandler} {cost : Nat}

/-- What holds for a handler that takes some bytes. -/
structure FitsHandler (supply : Supply) (ordered : Label → Label → Prop) (cost : Nat)
    (handler : ExceptionHandler) : Prop where
  paid : cost = 8
  range : ordered handler.start handler.stop
  caught : ∀ name, handler.caught = some name → .className name ∈ supply.constants

lemma handlerEntries_succeeds {handler : ExceptionHandler} (whole : written.hasReplaced = false)
    (fits : FitsHandler supply (fun start stop => written.offset start < written.offset stop) cost
      handler) :
    Succeeds supply (handlerEntries written handler) fun entries => entries.length = 1 := by
  unfold handlerEntries
  dsimp only
  rw [if_neg (not_le.mpr fits.range), whole]
  refine (Succeeds.onPool (PoolBuilder.optional_adds fun name caught =>
    PoolBuilder.intern_adds (fits.caught name caught))).bind fun _ _ => .pure rfl

lemma handlerLists_succeeds {total : Nat} (whole : written.hasReplaced = false)
    (totals : Totals (FitsHandler supply fun start stop =>
      written.offset start < written.offset stop) total handlers) :
    Succeeds supply (handlers.mapM (handlerEntries written)) fun lists =>
      lists.length = handlers.length ∧ ∀ entries ∈ lists, entries.length = 1 := by
  obtain ⟨costs, each, _⟩ := totals
  refine Succeeds.mapM fun handler mem => ?_
  obtain ⟨cost, _, fits⟩ := forall₂_mem_right each mem
  exact handlerEntries_succeeds whole fits

/-- One entry stands for each handler. -/
lemma length_flatten_of_single {lists : List (List α)}
    (single : ∀ entries ∈ lists, entries.length = 1) : lists.flatten.length = lists.length := by
  rw [length_flatten, map_congr_left single, map_const', sum_replicate_nat, Nat.mul_one]

lemma firstEntries_of_single {lists : List (List HandlerEntry)}
    (single : ∀ entries ∈ lists, entries.length = 1) {index : Nat} (inside : index < lists.length) :
    ((firstEntries lists)[index]?.join).isSome = true := by
  have one := single lists[index] (getElem_mem inside)
  rw [firstEntries_join, firstOf, getElem?_eq_getElem inside]
  split
  · rfl
  · next other =>
    obtain ⟨entry, same⟩ := length_eq_one_iff.mp one
    exact absurd (congrArg some same) (other entry [])

/-- The table of handlers is written in the space that it has been read from. -/
lemma handlerTable_fits {entries : List HandlerEntry}
    (counted : Counted 2 0xffff (FitsHandler supply fun start stop =>
      written.offset start < written.offset stop) cost handlers)
    (same : entries.length = handlers.length) :
    Fits supply cost (list16 (.tooMany .handlers) entries fun entry => return entry.bytes) := by
  obtain ⟨few, total, paid, totals⟩ := counted
  have enough := totals.length_le 8 fun _ _ fits => le_of_eq fits.paid.symm
  have entriesCounted : Counted 2 0xffff (fun cost _ => cost = 8) cost entries :=
    ⟨by omega, total, paid, replicate entries.length 8, forall₂_iff_get.mpr (by simp), by
      rw [sum_replicate_nat]
      omega⟩
  refine list16_fits entriesCounted fun cost entry _ eight few => .pure ?_
  have size : entry.bytes.length = 8 := rfl
  omega

end Handlers

section Bodies

/-- What holds for code that has been read, before its labels are numbered. -/
structure FitsCode (supply : Supply) (placed : List (Placed (Op UInt16)))
    (length handlerCost tableCost : Nat) (original : Code) : Prop where
  fits : length ≤ 0xffff
  increasing : (boundaries placed length).Pairwise (· < ·)
  count : placed.length = original.instructions.length
  filled : original.instructions ≠ []
  standing : ∀ label ∈ original.references, ∃ pos, (startPositions placed length)[label]? = some pos
  lowered : Totals (fun cost entry => ∀ (rename : Label → Label) (label : Option Label),
    Entry.IsLowerable supply cost ⟨label, entry.instruction.mapTargets rename⟩) length
    original.instructions
  handlers : Counted 2 0xffff (FitsHandler supply fun start stop => start.id < stop.id) handlerCost
    original.handlers
  tables : ∃ (tables : CodeTables) (maxStack maxLocals : UInt16),
    tables.IsSound length original.handlers.length ∧
      Totals (fun cost part => part cost) tableCost (tableParts supply tables) ∧
        tables.labelled original.handlers maxStack maxLocals original.instructions = original

variable {original : Code} {placed : List (Placed (Op UInt16))} {written : Written}
  {length handlerCost tableCost : Nat}

/-- Numbered labels are written in the order in which they have been read. -/
lemma FitsCode.orders (known : FitsCode supply placed length handlerCost tableCost original)
    (same : written.code = original.renumberedBy (startPositions placed length))
    (stands : written.positions = written.code.positions)
    (placement : Placement written.code length written.ops written.layout) :
    written.Orders (original.numbered (startPositions placed length))
      original.references := by
  have count : written.ops.length = original.instructions.length := by
    rw [placement.length, same]
    simp [renumberedBy, bindBy, mapReferences]
  have offset {label : Label} {pos : Nat} (uses : label ∈ original.references)
      (found : (startPositions placed length)[label]? = some pos) :
      pos ≤ written.ops.length ∧
        written.offset (original.numbered (startPositions placed length) label) =
          written.layout.offset pos := by
    have inside := startPositions_le found
    rw [known.count] at inside
    rw [Written.offset, stands, same, positions_renumberedBy uses found inside, count]
    exact ⟨inside, rfl⟩
  intro first uses second uses' before
  obtain ⟨pos, found⟩ := known.standing first uses
  obtain ⟨pos', found'⟩ := known.standing second uses'
  obtain ⟨inside, moved⟩ := offset uses found
  obtain ⟨inside', moved'⟩ := offset uses' found'
  rw [moved, moved', Written.offset_lt_iff (Layout.ofOps_found placement.found) inside inside']
  exact startPositions_lt_of_id known.increasing known.fits found found' before

/-- The checks of code pass, unless it enters or leaves subroutines where they are not allowed. -/
lemma FitsCode.checked (known : FitsCode supply placed length handlerCost tableCost original)
    {version : Version} {code : Code}
    (same : code = original.renumberedBy (startPositions placed length))
    (allowed : version.allowsSubroutines = true ∨ subroutine? code = none) :
    Succeeds supply (checkCode version code) fun _ => True := by
  have canonical : code.IsCanonical := by
    rw [same]
    refine renumberedBy_isCanonical fun label uses => ?_
    obtain ⟨pos, found⟩ := known.standing label uses
    exact ⟨pos, found, known.count ▸ startPositions_le found⟩
  have labels : code.checkLabels = .ok () := by
    refine canonical.once.checkLabels_ok.mpr fun label uses => ?_
    obtain ⟨pos, found⟩ := canonical.bound label uses
    exact ⟨pos, canonical.once.positions_iff.mp found⟩
  have filled : code.instructions.isEmpty = false := by
    rw [same]
    simpa [renumberedBy, bindBy, mapReferences] using known.filled
  unfold checkCode
  rw [labels, filled]
  rcases allowed with allowed | none
  · rw [allowed]
    exact .pure trivial
  · rw [none]
    split <;> exact .pure trivial

lemma FitsCode.entries (known : FitsCode supply placed length handlerCost tableCost original)
    (positions : Std.HashMap Label Nat) :
    Totals (Entry.IsLowerable supply) length (original.renumberedBy positions).instructions := by
  refine known.lowered.onto (forall₂_iff_get.mpr ⟨?_, fun index inside inside' => ?_⟩)
  · simp [renumberedBy, bindBy, mapReferences]
  · intro cost lowerable
    simpa [renumberedBy, bindBy, mapReferences] using lowerable _ _

/-- The handlers keep their order if the labels do. -/
lemma FitsCode.handled (known : FitsCode supply placed length handlerCost tableCost original)
    {rename : Label → Label} (orders : written.Orders rename original.references)
    (same : written.code.handlers = original.handlers.map fun handler => { handler with
      start := rename handler.start
      stop := rename handler.stop
      handler := rename handler.handler }) :
    Counted 2 0xffff (FitsHandler supply fun start stop =>
      written.offset start < written.offset stop) handlerCost written.code.handlers := by
  obtain ⟨few, total, paid, totals⟩ := known.handlers
  rw [same]
  refine ⟨by rwa [length_map], total, paid, (totals.imp fun cost handler mem fits => ?_).map⟩
  have uses : handler.start ∈ original.references ∧ handler.stop ∈ original.references := by
    simp only [references, mem_append, mem_flatMap]
    exact ⟨.inl (.inl (.inl (.inl (.inr ⟨handler, mem, by simp⟩)))),
      .inl (.inl (.inl (.inl (.inr ⟨handler, mem, by simp⟩))))⟩
  exact ⟨fits.paid, orders _ uses.1 _ uses.2 fits.range, fits.caught⟩

/-- Code that has been read can be written again. -/
lemma codeBody_fits (known : FitsCode supply placed length handlerCost tableCost original)
    {version : Version} {code : Code}
    (same : code = original.renumberedBy (startPositions placed length))
    (allowed : version.allowsSubroutines = true ∨ subroutine? code = none) :
    Fits supply (8 + length + handlerCost + (tableCost + 2)) (codeBody version code {}) := by
  intro few
  simp only [maxSpent] at few
  have entries := known.entries (startPositions placed length)
  rw [← same] at entries
  refine (known.checked same allowed).bind fun _ _ =>
    (layOut_succeeds entries (by simp only [maxSpent]; omega)).bind fun found placement => ?_
  obtain ⟨ops, layout⟩ := found
  dsimp only at placement ⊢
  generalize making : (⟨code, ops, layout, code.positions,
    if ({} : Analysis).writesFrames then ({} : Analysis).computed else none⟩ : Written) = written
  have written_code : written.code = code := by rw [← making]
  have whole : written.hasReplaced = false := by rw [← making]; rfl
  have orders := @FitsCode.orders _ _ _ written _ _ _ known (written_code.trans same)
    (by rw [← making]) (by rw [← making]; exact placement)
  have handled := @FitsCode.handled _ _ _ written _ _ _ known _ orders
    (by rw [written_code, same]; rfl)
  have short : written.bytecode.length ≤ 2 * length := by
    rw [Written.bytecode_length (by rw [← making]; exact Layout.ofOps_found placement.found), ← making]
    exact placement.stop
  obtain ⟨tables, maxStack, maxLocals, sound, parts, read⟩ := known.tables
  have noFrames : Succeeds supply (writtenFrames written) fun found => found = ([], []) := by
    rw [← making]
    exact .pure rfl
  have locals : Succeeds supply (Encode.maxLocals code {}) fun _ => True := by
    rw [Encode.maxLocals, same, ← read]
    exact .pure trivial
  refine noFrames.bind fun _ empty => locals.bind fun locals _ => ?_
  subst empty
  rw [← written_code]
  obtain ⟨_, _, handlerTotals⟩ := handled.totals
  refine (handlerLists_succeeds whole handlerTotals).bind fun lists single => ?_
  have count : lists.flatten.length = written.code.handlers.length := by
    rw [length_flatten_of_single single.2, single.1]
  refine Succeeds.bind (handlerTable_fits handled count (by simp only [maxSpent]; omega))
    fun handlers shortHandlers => ?_
  have firsts : ∀ index < original.handlers.length, ((firstEntries lists)[index]?.join).isSome := by
    intro index inside
    refine firstEntries_of_single single.2 ?_
    rw [single.1, written_code, same]
    simpa [renumberedBy, bindBy, mapReferences] using inside
  have attributes := codeTables_fits sound parts read (written_code.trans same) orders firsts
  have all := Totals.cons (FitsAttributes.none : FitsAttributes supply 0 _) attributes
  refine Succeeds.bind (attributeTable_fits all (by simp only [maxSpent]; omega))
    fun attributes shortAttributes => .pure ?_
  simp only [length_append, bytes16_length, bytes32_length]
  omega

end Bodies

end Encode

/-- Tables that have not been read yet cost nothing. -/
lemma Encode.tableParts_empty :
    Totals (fun cost part => part cost) 0 (tableParts supply {}) :=
  ⟨replicate 6 0, .cons (.inl rfl) (.cons (.inl rfl) (.cons (.inl rfl) (.cons (.inl rfl)
    (.cons (.inl rfl) (.cons FitsAttributes.none .nil))))), le_refl 0⟩

namespace Decode

section Reading

variable (covers : table.constants boots ⊆ supply.constants)
include covers

lemma exceptionHandler_spends (length : Nat) :
    Spends (exceptionHandler table length) (FitsHandler supply fun start stop =>
      start.id < stop.id) := by
  refine u16_spends.bind fun _ start two => u16_spends.bind fun _ stop two' => ?_
  split
  · exact .refusal
  · next filled =>
    have first : Spends (ByteReader.ofResult (labelInside length start)) fun cost label =>
        cost = 0 ∧ label.id = start := .ofResult fun _ found => ⟨rfl, labelInside_id found⟩
    have second : Spends (ByteReader.ofResult (labelUpTo length stop)) fun cost label =>
        cost = 0 ∧ label.id = stop := .ofResult fun _ found => ⟨rfl, labelUpTo_id found⟩
    refine first.bind fun _ startLabel starts => second.bind fun _ stopLabel stops =>
      (readLabel_spends length).bind fun _ handler two'' => (optionalEntry_spends _).bind
        fun _ caught known => .pure ⟨by omega, ?_, fun name same => ?_⟩
    · rw [starts.2, stops.2]
      exact UInt16.not_le.mp filled
    · obtain ⟨index, found⟩ := known.2 name same
      exact className_covered covers found

/-- What is known of instructions and tables that have been read, before labels are numbered. -/
lemma labelled_fits {bytecode : List UInt8} {codeStart handlerCost spent : Nat}
    {placed : List (Placed (Op UInt16))} {maxStack maxLocals : UInt16} {instructions : List Entry}
    {handlers : List ExceptionHandler} {tables : CodeTables}
    (bounds : 0 < bytecode.length ∧ bytecode.length ≤ 0xffff)
    (divided : ops bytecode codeStart = .ok placed)
    (resolved : Forall₂ (fun placed entry =>
      resolve table boots placed.op = .ok entry.instruction) placed instructions)
    (counted : Counted 2 0xffff (FitsHandler supply fun start stop => start.id < stop.id)
      handlerCost handlers)
    (sound : tables.IsSound bytecode.length handlers.length)
    (parts : Totals (fun cost part => part cost) spent (tableParts supply tables))
    (standing : ∀ label ∈ placed.flatMap (fun placed => placed.op.targets.map labelOf) ++
      (tables.code handlers).references,
      ∃ pos, (startPositions placed bytecode.length)[label]? = some pos) :
    FitsCode supply placed bytecode.length handlerCost spent
      (tables.labelled handlers maxStack maxLocals instructions) where
  fits := bounds.2
  increasing := ops_increasing divided
  count := resolved.length_eq
  filled := by
    rintro empty
    cases resolved with
    | nil => exact ops_ne_nil divided bounds.1 rfl
    | cons => cases empty
  standing := by
    rw [← targets_of_resolved resolved] at standing
    simpa [references, CodeTables.labelled, CodeTables.code] using standing
  lowered := (ops_totals divided).onto <| resolved.imp fun _ _ resolved _ short rename _ =>
    lower_manages covers resolved short rename
  handlers := counted
  tables := ⟨tables, maxStack, maxLocals, sound, parts, rfl⟩

/-- Code that is read can be written again, unless it may not use subroutines. -/
lemma readCode_spends (classStart : Nat) :
    Spends (readCode table boots classStart) fun cost code => ∀ version : Version,
      version.allowsSubroutines = true ∨ subroutine? code = none →
        Fits supply cost (codeBody version code {}) := by
  rw [readCode_eq]
  refine u16_spends.bind fun _ maxStack two => u16_spends.bind fun _ maxLocals two' =>
    u32_spends.bind fun _ length four => ?_
  dsimp only
  generalize length.toNat = length
  split
  · exact .refusal
  · next fits =>
    have bounds : 0 < length ∧ length ≤ 0xffff := by simp at fits; omega
    have divide (bytecode : List UInt8) (codeStart : Nat) :
        Spends (ByteReader.ofResult (ops bytecode codeStart)) fun cost placed =>
          cost = 0 ∧ ops bytecode codeStart = .ok placed := .ofResult fun _ found => ⟨rfl, found⟩
    refine offset_spends.bind fun _ here none => (bytes_spends length).bind
      fun _ bytecode taken => (divide bytecode _).bind fun _ placed divided =>
        (list16_spends (exceptionHandler_spends covers length)).bind fun handlerCost handlers
          counted => ?_
    refine (attributes_spends (fun spent tables => Totals (fun cost part => part cost) spent
      (tableParts supply tables) ∧ tables.IsSound length handlers.length)
      ⟨tableParts_empty, by simp, by simp, by simp, by simp, by simp, by simp⟩
      fun spent tables name size known listed => ?_).bind fun tableCost tables known => ?_
    · obtain ⟨_, read⟩ := listed
      exact (CodeTables.step_spends covers known.1 name size (text_covered covers read)).and
        (CodeTables.step_isSound known.2 name size)
    · obtain ⟨spent, paid, parts, sound⟩ := known
      split
      · exact .refusal
      · next standing =>
        have standing := position_of_misplacedOffset?
          (Option.eq_none_iff_forall_ne_some.mpr standing)
        have resolves (start : Nat) : Spends (ByteReader.ofResult (resolveAll table boots start
            placed)) fun cost instructions => cost = 0 ∧ Forall₂ (fun placed instruction =>
              resolve table boots placed.op = .ok instruction) placed instructions :=
          .ofResult fun _ found => ⟨rfl, resolveAll_ok_iff.mp found⟩
        refine (resolves _).bind fun cost instructions known => .pure fun version allowed => ?_
        obtain ⟨rfl, size⟩ := taken
        subst size
        exact (codeBody_fits (@labelled_fits _ _ _ covers _ _ _ _ _ maxStack maxLocals _ _ _ bounds
          divided.2 (forall₂_map_right_iff.mpr known.2) counted sound parts standing) rfl allowed).mono (by omega)

end Reading

end Decode

end JvmAsm
