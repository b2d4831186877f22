/-
Finds the places of instructions and of labels in code that is read, and reads the code in a single
pass, in which labels are numbered by their offsets.
-/
import JvmAsm.Proofs.Code.Canonical
import JvmAsm.Proofs.Decode.Passes

namespace JvmAsm

open Binary ByteReader Bytecode Code List Decode PoolTable UInt16

variable {label : Label} {positions : Std.HashMap Label Nat} {length : Nat}
variable {instruction : Instruction} {references : List Label}

namespace Decode

variable {α : Type} {placed : List (Placed α)} {index : Nat}

/-- The offsets where instructions start, and the one of the end. -/
def boundaries (placed : List (Placed α)) (length : Nat) : List Nat :=
  placed.map Placed.offset ++ [length]

lemma startPositions_eq (placed : List (Placed α)) (length : Nat) :
    startPositions placed length = insertAll ∅
      ((boundaries placed length).zipIdx.map fun pair => (labelOf (ofNat pair.1), pair.2)) := by
  rw [startPositions, insertAll, boundaries, zipIdx_append, map_append, foldl_append,
    foldl_map, zipIdx_map, foldl_map]
  simp [foldl_map]

lemma mem_boundaries :
    (label, index) ∈ (boundaries placed length).zipIdx.map
        (fun pair => (labelOf (ofNat pair.1), pair.2)) ↔
      ∃ offset, (boundaries placed length)[index]? = some offset ∧
        label = labelOf (ofNat offset) := by
  simp only [mem_map, Prod.exists, mem_zipIdx_iff_getElem?, Prod.mk.injEq]
  constructor
  · rintro ⟨offset, _, got, rfl, rfl⟩
    exact ⟨offset, got, rfl⟩
  · rintro ⟨offset, got, rfl⟩
    exact ⟨offset, index, got, rfl, rfl⟩

lemma startPositions_offset (found : (startPositions placed length)[label]? = some index) :
    ∃ offset, (boundaries placed length)[index]? = some offset ∧
      label = labelOf (ofNat offset) := by
  rw [startPositions_eq] at found
  exact mem_boundaries.mp ((mem_of_insertAll found).resolve_right (by simp))

section

variable (increasing : (boundaries placed length).Pairwise (· < ·))
include increasing

lemma boundaries_le :
    ∀ offset ∈ boundaries placed length, offset ≤ length := by
  intro offset mem
  rcases mem_append.mp mem with early | last
  · exact le_of_lt ((pairwise_append.mp increasing).2.2 offset early length (by simp))
  · exact le_of_eq (mem_singleton.mp last)

/-- Every offset where an instruction starts has the position of the instruction. -/
lemma startPositions_get {offset : Nat} (fits : length ≤ 0xffff) (got : (boundaries placed length)[index]? = some offset) :
    (startPositions placed length)[labelOf (ofNat offset)]? = some index := by
  rw [startPositions_eq]
  refine insertAll_of_mem ?_ (mem_boundaries.mpr ⟨offset, got, rfl⟩)
  rw [map_map]
  change ((boundaries placed length).zipIdx.map
    ((fun offset => labelOf (ofNat offset)) ∘ Prod.fst)).Nodup
  rw [← map_map, zipIdx_map_fst]
  refine Nodup.map_on (fun first mem second mem' same => ?_)
    (increasing.imp ne_of_lt)
  have ids := congrArg toNat (Label.mk.inj same)
  have below := boundaries_le increasing first mem
  have below' := boundaries_le increasing second mem'
  rwa [toNat_ofNat_of_lt' (show first < 65536 by omega),
    toNat_ofNat_of_lt' (show second < 65536 by omega)] at ids

/-- Labels have their positions in the order of their offsets. -/
lemma startPositions_lt_of_id {later : Nat} {other : Label}
    (fits : length ≤ 0xffff)
    (found : (startPositions placed length)[label]? = some index)
    (found' : (startPositions placed length)[other]? = some later) (before : label.id < other.id) :
    index < later := by
  obtain ⟨offset, got, rfl⟩ := startPositions_offset found
  obtain ⟨offset', got', rfl⟩ := startPositions_offset found'
  obtain ⟨inside, rfl⟩ := List.getElem?_eq_some_iff.mp got
  obtain ⟨inside', rfl⟩ := List.getElem?_eq_some_iff.mp got'
  have below := boundaries_le increasing _ (List.getElem_mem inside)
  have below' := boundaries_le increasing _ (List.getElem_mem inside')
  rw [labelOf, labelOf, lt_iff_toNat_lt,
    toNat_ofNat_of_lt' (Nat.lt_succ_of_le (le_trans below fits)),
    toNat_ofNat_of_lt' (Nat.lt_succ_of_le (le_trans below' fits))] at before
  by_contra late
  rcases lt_or_eq_of_le (Nat.le_of_not_lt late) with less | rfl
  · have := List.pairwise_iff_getElem.mp increasing _ _ inside' inside less
    omega
  · omega

end

/-- No offset is misplaced if all labels stand on instructions or at the end. -/
lemma misplacedOffset?_eq_none
    (placed : ∀ label ∈ references, ∃ pos, positions[label]? = some pos) :
    misplacedOffset? positions references = none := by
  unfold misplacedOffset?
  induction references with
  | nil => rfl
  | cons label rest ih =>
    rw [forall_mem_cons] at placed
    obtain ⟨pos, stands⟩ := placed.1
    have here : positions.contains label = true := by
      rw [Std.HashMap.contains_eq_isSome_getElem?, stands]
      rfl
    rw [foldl_cons, if_pos here]
    exact ih placed.2

/-- An offset that is found once stays found. -/
lemma misplaced_stays (rest : List Label) (least : Nat) : ¬rest.foldl (fun least label =>
      if positions.contains label then least
      else some (match least with
        | some offset => min offset label.id.toNat
        | none => label.id.toNat)) (some least) = none := by
  induction rest generalizing least with
  | nil => simp
  | cons label rest ih =>
    rw [foldl_cons]
    split <;> exact ih _

lemma position_of_misplacedOffset? (placed : misplacedOffset? positions references = none) :
    ∀ label ∈ references, ∃ pos, positions[label]? = some pos := by
  unfold misplacedOffset? at placed
  induction references with
  | nil => simp
  | cons label rest ih =>
    rw [foldl_cons] at placed
    split at placed
    · next here =>
      rw [Std.HashMap.contains_eq_isSome_getElem?] at here
      exact forall_mem_cons.mpr ⟨Option.isSome_iff_exists.mp here, ih placed⟩
    · exact absurd placed (misplaced_stays rest _)

end Decode

namespace Bytecode

variable {code : List UInt8} {codeStart offset : Nat} {placed : List (Placed (Op UInt16))}

/-- The places of instructions, and the one where they end, increase. -/
lemma Follows.increasing (follows : Follows code offset placed) :
    (boundaries placed code.length).Pairwise (· < ·) ∧
      ∀ place ∈ boundaries placed code.length, offset ≤ place := by
  induction follows with
  | done => simp [boundaries]
  | @step offset count value rest _ some _ _ ih =>
    have whole : boundaries (⟨offset, value⟩ :: rest) code.length =
        offset :: boundaries rest code.length := rfl
    rw [whole, pairwise_cons, forall_mem_cons]
    refine ⟨⟨fun later mem => ?_, ih.1⟩, le_rfl, fun later mem => ?_⟩
    · exact lt_of_lt_of_le (by omega) (ih.2 later mem)
    · exact le_trans (by omega) (ih.2 later mem)

lemma ops_increasing (divided : ops code codeStart = .ok placed) :
    (boundaries placed code.length).Pairwise (· < ·) :=
  (ops_follows divided).increasing.1

end Bytecode

namespace Decode

variable {table : PoolTable} {boots : Bootstrap}

lemma resolve_targets {op : Op UInt16} (resolved : resolve table boots op = .ok instruction) :
    instruction.targets = op.targets.map labelOf := by
  cases op with
  | lookupSwitch default pairs =>
    simp only [resolve] at resolved
    split at resolved
    · contradiction
    · cases resolved
      simp [Instruction.targets, Op.targets]
  | constant | field | invokeVirtual | type | invokeSpecial | invokeStatic | invokeDynamic =>
    obtain ⟨_, _, ⟨⟩⟩ := ok_parts resolved
    rfl
  | invokeInterface =>
    obtain ⟨_, _, resolved⟩ := ok_parts resolved
    obtain ⟨_, _, resolved⟩ := ok_parts resolved
    dsimp only at resolved
    split at resolved <;> cases resolved
    rfl
  | newPrimitiveArray =>
    simp only [resolve] at resolved
    split at resolved <;> cases resolved
    rfl
  | newMultiArray =>
    obtain ⟨_, _, resolved⟩ := ok_parts resolved
    dsimp only at resolved
    split at resolved <;> cases resolved
    rfl
  | _ =>
    cases resolved
    rfl

variable {placed : List (Placed (Op UInt16))} {instructions : List Entry}

/-- Instructions have the targets that they have been read with. -/
lemma targets_of_resolved (resolved : Forall₂ (fun placed entry =>
      resolve table boots placed.op = .ok entry.instruction) placed instructions) :
    instructions.flatMap (fun entry => entry.instruction.targets) =
      placed.flatMap fun placed => placed.op.targets.map labelOf := by
  induction resolved with
  | nil => rfl
  | cons first _ ih => rw [flatMap_cons, flatMap_cons, ih, resolve_targets first]

/-- The code that is read, before its labels are numbered. -/
def CodeTables.labelled (tables : CodeTables) (handlers : List ExceptionHandler)
    (maxStack maxLocals : UInt16) (instructions : List Entry) : Code :=
  { tables.code handlers with
    maxStack := some maxStack, maxLocals := some maxLocals, instructions }

/-- Reads code in a single pass. -/
def readDirectly (table : PoolTable) (boots : PoolTable.Bootstrap) (classStart : Nat) :
    ByteReader Code := do
  let maxStack ← u16
  let maxLocals ← u16
  let length ← u32
  let length := length.toNat
  if length == 0 || 0xffff < length then fail (.codeLength length)
  let codeStart := (← offset) - classStart
  let bytecode ← bytes length
  let ops ← ofResult (ops bytecode codeStart)
  let handlers ← list16 (exceptionHandler table length)
  let tables ← attributes table (CodeTables.step table length handlers.length) {}
  let code := tables.code handlers
  let positions := startPositions ops length
  let references := ops.flatMap (fun placed => placed.op.targets.map labelOf) ++ code.references
  if let some offset := misplacedOffset? positions references then
    throw ((Failure.ofCause (.binary (.insideInstruction offset))).withKind
      (.malformedClass codeStart))
  let instructions ← ofResult (resolveAll table boots codeStart ops)
  return (tables.labelled handlers maxStack maxLocals
    (instructions.map fun instruction => ⟨none, instruction⟩)).renumberedBy positions

variable {code : List UInt8} {codeStart : Nat}

/-- The labels that have been created are bound to the instructions at their offsets. -/
lemma canonicalize_read {tables : CodeTables} {handlers : List ExceptionHandler}
    {maxStack maxLocals : UInt16} {instructions : List Instruction} {created : Std.HashSet Label}
    (fits : code.length ≤ 0xffff) (divided : ops code codeStart = .ok placed)
    (resolved : resolveAll table boots codeStart placed = .ok instructions)
    (uses : ∀ label ∈ placed.flatMap (fun placed => placed.op.targets.map labelOf) ++
      (tables.code handlers).references, label ∈ created ∧
        ∃ pos, (startPositions placed code.length)[label]? = some pos) :
    ({ tables.code handlers with
      maxStack := some maxStack
      maxLocals := some maxLocals
      instructions := (replaced placed instructions).map fun placed =>
        ⟨labelFor created (ofNat placed.offset), placed.op⟩
      lastLabel := labelFor created (ofNat code.length) } : Code).canonicalize =
      .ok ((tables.labelled handlers maxStack maxLocals
        (instructions.map fun instruction => ⟨none, instruction⟩)).renumberedBy
          (startPositions placed code.length)) := by
  have resolved := resolveAll_ok_iff.mp resolved
  have count := resolved.length_eq
  have increasing := ops_increasing divided
  let labels (index : Nat) : Option Label :=
    (boundaries placed code.length)[index]?.bind fun offset => labelFor created (ofNat offset)
  let read := tables.labelled handlers maxStack maxLocals
    (instructions.map fun instruction => ⟨none, instruction⟩)
  have entries : ((replaced placed instructions).map fun placed =>
      (⟨labelFor created (ofNat placed.offset), placed.op⟩ : Entry)) =
      (read.bindBy labels).instructions := by
    refine ext_getElem (by simp [replaced, bindBy, read, CodeTables.labelled, count])
      fun index low _ => ?_
    have inside : index < placed.length := by simp [replaced] at low; omega
    have got : (boundaries placed code.length)[index]? = some placed[index].offset := by
      simp [boundaries, List.getElem?_append_left, inside]
    simp [replaced, bindBy, read, CodeTables.labelled, labels, got]
  have last : labelFor created (ofNat code.length) = (read.bindBy labels).lastLabel := by
    simp [bindBy, labels, boundaries, read, CodeTables.labelled, ← count]
  suffices bound : ((read.mapReferences id).bindBy labels).canonicalize =
      .ok (read.renumberedBy (startPositions placed code.length)) by
    rw [mapReferences_id] at bound
    rw [entries, last]
    exact bound
  have found {index : Nat} {label : Label} (labelled : labels index = some label) :
      (startPositions placed code.length)[label]? = some index := by
    obtain ⟨offset, got, known⟩ := Option.bind_eq_some_iff.mp labelled
    unfold labelFor at known
    split at known <;> cases known
    exact startPositions_get increasing fits got
  refine canonicalize_bindBy (fun label used => ?_) fun here there =>
    Option.some.inj ((found here).symm.trans (found there))
  obtain ⟨known, pos, stands⟩ : label ∈ created ∧
      ∃ pos, (startPositions placed code.length)[label]? = some pos := by
    have targets : (instructions.map fun instruction => (⟨none, instruction⟩ : Entry)).flatMap
        (fun entry => entry.instruction.targets) =
        placed.flatMap fun placed => placed.op.targets.map labelOf :=
      targets_of_resolved (forall₂_map_right_iff.mpr resolved)
    refine uses label ?_
    rw [← targets]
    simpa [read, CodeTables.labelled, Code.references, CodeTables.code] using used
  obtain ⟨offset, got, rfl⟩ := startPositions_offset stands
  have inside := (List.getElem?_eq_some_iff.mp got).1
  refine ⟨pos, stands, ?_, ?_⟩
  · simp [boundaries] at inside
    simp [read, CodeTables.labelled]
    omega
  · simp [labels, got, labelFor, known]

/-- What is done with bytes may depend on how many there are. -/
lemma bytes_bind_congr {α : Type} {count : Nat} {next next' : List UInt8 → ByteReader α}
    (same : ∀ bytecode : List UInt8, bytecode.length = count → next bytecode = next' bytecode) :
    (bytes count >>= next) = bytes count >>= next' := by
  funext cursor
  cases ran : bytes count cursor with
  | error failure stopped => rw [failed_bind ran, failed_bind ran]
  | ok bytecode rest =>
    have size : bytecode.length = count := by
      unfold bytes at ran
      dsimp only at ran
      split at ran <;> cases ran
      exact eq_of_beq ‹_›
    rw [ran_bind ran rfl, ran_bind ran rfl, same bytecode size]

lemma mem_foldl_insert {labels : List Label} {label : Label} {found : Std.HashSet Label} :
    label ∈ labels.foldl .insert found ↔ label ∈ labels ∨ label ∈ found := by
  induction labels generalizing found with
  | nil => simp
  | cons first rest ih =>
    rw [foldl_cons, ih, Std.HashSet.mem_insert, mem_cons, beq_iff_eq]
    tauto

/-- The two passes and the numbering of the labels give what is read in a single pass. -/
theorem readCode_eq (table : PoolTable) (boots : Bootstrap) (classStart : Nat) :
    readCode table boots classStart = readDirectly table boots classStart := by
  refine bind_congr fun maxStack => bind_congr fun maxLocals => bind_congr fun length => ?_
  dsimp only
  generalize length.toNat = length
  split
  · rfl
  · next fits =>
    have fits : length ≤ 0xffff := by simp at fits; omega
    refine bind_congr fun here => bytes_bind_congr fun bytecode size => ?_
    subst size
    rw [scan_eq, walk_map, ← ops]
    cases divided : ops bytecode (here - classStart) with
    | error failure => rfl
    | ok placed =>
      simp only [Except.map, ofResult, pure_bind]
      refine bind_congr fun handlers => bind_congr fun tables => ?_
      have references : ((placed.map fun placed => (⟨placed.offset, placed.op.targets⟩ :
          Placed (List UInt16))).flatMap fun placed => placed.op.map labelOf) =
          placed.flatMap fun placed => placed.op.targets.map labelOf := flatMap_map ..
      have starts : startPositions (placed.map fun placed => (⟨placed.offset, placed.op.targets⟩ :
          Placed (List UInt16))) bytecode.length = startPositions placed bytecode.length := by
        simp [startPositions_eq, boundaries, Function.comp_def]
      rw [references, starts]
      generalize uses : _ ++ (tables.code handlers).references = references
      cases misplaced : misplacedOffset? (startPositions placed bytecode.length) references with
      | some offset => rfl
      | none =>
        have created {label : Label} (used : label ∈ references) :
            label ∈ references.foldl .insert (∅ : Std.HashSet Label) := mem_foldl_insert.mpr (.inl used)
        have labelled : ∀ entry ∈ placed, ∀ target ∈ entry.op.targets,
            labelOf target ∈ references.foldl .insert (∅ : Std.HashSet Label) := by
          intro entry mem target uses'
          rw [← uses] at created ⊢
          exact created (mem_append_left _ (mem_flatMap.mpr ⟨entry, mem, mem_map_of_mem uses'⟩))
        dsimp only
        rw [walk_reread divided labelled]
        cases resolved : resolveAll table boots (here - classStart) placed with
        | error failure => rfl
        | ok instructions =>
          exact congrArg ofResult
            (canonicalize_read fits divided resolved fun label used =>
              ⟨created (uses ▸ used), position_of_misplacedOffset? misplaced label (uses ▸ used)⟩)

end Decode

end JvmAsm
