/-
Reads back the code of methods: the labels stand for offsets, and every table that names them is
read as it has been written.
-/
import JvmAsm.Encode.Code
import JvmAsm.Proofs.Bytecode.Division
import JvmAsm.Proofs.Bytecode.Lowering
import JvmAsm.Proofs.Code.LocalVariables
import JvmAsm.Proofs.Encode.Annotation
import JvmAsm.Proofs.Encode.Attributes
import JvmAsm.Proofs.Encode.StackMap

namespace JvmAsm

open Binary List ByteReader Decode UInt16 CodeTables

variable {before : PoolBuilder → Prop}
variable {firsts : Array (Option Nat)} {lists : List (List HandlerEntry)} {pool : PoolBuilder}
variable {run : Nat × Nat} {handlers : List ExceptionHandler} {α : Type}
variable {handler : ExceptionHandler}

namespace Encode

open Bytecode

section Layout

variable {code : Code}

structure IsLaidOut (code : Code) (ops : List (Op Nat)) (layout : Layout) (pool : PoolBuilder) :
    Prop where
  lowers : Forall₂ (fun entry op => Lowers pool code.positionOf entry.instruction op)
    code.instructions ops
  found : Layout.ofOps ops = .ok layout

lemma layOut_ok (once : code.BindsOnce) {pool : PoolBuilder} {warnings : Array Warning}
    {ops : List (Op Nat)} {layout : Layout} {state : State}
    (ran : layOut code ⟨pool, warnings⟩ = .ok (ops, layout) state) :
    ∃ lowered pool', state = ⟨pool', warnings⟩ ∧
      code.instructions.mapM (fun entry => lower entry.instruction) pool = .ok lowered pool' ∧
      ops = lowered.map (Op.map code.positionOf) ∧ Layout.ofOps ops = .ok layout := by
  obtain ⟨⟨ops', failure?⟩, between, first, rest⟩ := ran_parts ran
  rw [onPool] at first
  cases all : lowerAll code pool with
  | error failure pool' => rw [all] at first; cases first
  | ok value pool' =>
    rw [all] at first
    cases first
    cases failure? with
    | some failure =>
      obtain ⟨_, _, _, failed⟩ := ran_parts rest
      cases failed
    | none =>
      obtain ⟨_, _, placed, same⟩ := ran_parts rest
      obtain ⟨found, rfl⟩ := ofResult_ok placed
      obtain ⟨equal, rfl⟩ := ran_pure_iff.mp same
      obtain ⟨rfl, rfl⟩ := Prod.mk.inj equal
      obtain ⟨lowered, mapped, rfl⟩ := lowerAll_ok once all
      exact ⟨lowered, pool', rfl, mapped, rfl, ok_mapError_iff.mp found⟩

lemma layOut_yields (once : code.BindsOnce) : Yields before (layOut code) fun result pool =>
    (∀ entry ∈ code.instructions, entry.instruction.dynamicDepth ≤ PoolTable.maxDynamicDepth + 1) →
    IsLaidOut code result.1 result.2 pool := by
  rintro ⟨pool, warnings⟩ ⟨ops, layout⟩ state' wf known ran
  obtain ⟨lowered, pool', rfl, mapped, rfl, found⟩ := layOut_ok once ran
  have yields : Yields before _ _ :=
    Yields.mapM fun entry (_ : entry ∈ code.instructions) => lower_yields entry.instruction
  obtain ⟨wf', grown, later⟩ := yields pool _ _ wf known mapped
  refine ⟨wf', grown, fun pool more nested => ⟨forall₂_map_right_iff.mpr ?_, found⟩⟩
  refine ((forall₂_and_left _ _).mpr ⟨nested, later pool more⟩).imp ?_
  exact fun _ _ known => known.2 known.1 _

/-- The instructions of code that has been laid out, and their places. -/
lemma layOut_lowered (once : code.BindsOnce) {state state' : State} {ops : List (Op Nat)}
    {layout : Layout} (ran : layOut code state = .ok (ops, layout) state') :
    Forall₂ (fun entry op => IsLowered code.positionOf entry.instruction op)
      code.instructions ops ∧ layout.IsFound ops := by
  obtain ⟨lowered, _, _, mapped, rfl, found⟩ := layOut_ok once ran
  refine ⟨forall₂_map_right_iff.mpr ((ran_mapM mapped).imp ?_), Layout.ofOps_found found⟩
  rintro entry op ⟨_, _, ran⟩
  exact lower_gives entry.instruction _ _ _ ran _

end Layout

namespace Written

variable {written : Written}

/-- The label stands on an instruction. -/
def IsInside (written : Written) (label : Label) : Prop :=
  ∃ pos, written.positions[label]? = some pos ∧ pos < written.ops.length

/-- The label that is read where a label has been written. -/
def readAs (written : Written) (label : Label) : Label :=
  labelOf (ofNat (written.offset label))

/-- The label that is read where the instruction at a position has been named. -/
def labelAt (written : Written) (pos : Nat) : Label :=
  labelOf (ofNat (written.layout.offset pos))

section

variable (found : written.layout.IsFound written.ops)
include found

lemma offsetAt_toNat (pos : Nat) :
    (ofNat (written.layout.offset pos)).toNat = written.layout.offset pos := by
  obtain ⟨requested, places⟩ := found.places
  exact toNat_ofNat_of_lt'
    (Nat.lt_succ_of_le (le_trans (places.offset_le_stop pos) found.stop_le))

lemma labelInside_labelAt {pos : Nat}
    (inside : pos < written.ops.length) :
    labelInside written.layout.stop (ofNat (written.layout.offset pos)) =
      .ok (written.labelAt pos) := by
  obtain ⟨requested, places⟩ := found.places
  have below := places.offset_lt inside le_rfl
  rw [places.stop_eq] at below
  rw [labelInside, insideCode, offsetAt_toNat found, if_pos below]
  rfl

lemma labelUpTo_labelAt (pos : Nat) :
    labelUpTo written.layout.stop (ofNat (written.layout.offset pos)) =
      .ok (written.labelAt pos) := by
  obtain ⟨requested, places⟩ := found.places
  rw [labelUpTo, insideCode, offsetAt_toNat found]
  dsimp only
  rcases lt_or_eq_of_le (places.offset_le_stop pos) with below | last
  · rw [if_pos below, if_neg (ne_of_lt below)]
    rfl
  · rw [if_pos last]
    rfl

lemma offset_le (label : Label) :
    written.offset label ≤ written.layout.stop := by
  obtain ⟨requested, places⟩ := found.places
  exact places.offset_le_stop _

lemma offset_toNat (label : Label) :
    (ofNat (written.offset label)).toNat = written.offset label :=
  offsetAt_toNat found _

lemma labelInside_readAs {label : Label}
    (inside : written.IsInside label) :
    labelInside written.layout.stop (ofNat (written.offset label)) =
      .ok (written.readAs label) := by
  obtain ⟨pos, stands, below⟩ := inside
  rw [readAs, Written.offset, stands]
  exact labelInside_labelAt found below

lemma labelUpTo_readAs (label : Label) :
    labelUpTo written.layout.stop (ofNat (written.offset label)) = .ok (written.readAs label) :=
  labelUpTo_labelAt found _

lemma label_reads {label : Label}
    (inside : written.IsInside label) :
    Reads (readLabel written.layout.stop) (written.label label) (written.readAs label) :=
  (Reads.u16 _).bind_pure (Reads.ofResult (labelInside_readAs found inside))

lemma range_yields (range : LabelRange) :
    Yields before (written.range range) fun bytes pool => written.IsInside range.start →
      pool.Encodes (fun _ _ => readRange written.layout.stop) bytes
        ⟨written.readAs range.start, written.readAs range.stop⟩ := by
  refine .refusing (fun _ _ _ => by rintro ⟨⟩) fun ordered => .pure ?_
  intro pool _ inside table boots agrees
  refine (Reads.u16 _).bind ((Reads.u16 _).bind_pure (Reads.ofResult ?_))
  have start := offset_toNat found range.start
  have stop := offset_toNat found range.stop
  have bound := le_trans (offset_le found range.stop) found.stop_le
  simp only [maxOffset] at bound
  have size : (ofNat (written.offset range.stop - written.offset range.start)).toNat =
      written.offset range.stop - written.offset range.start :=
    toNat_ofNat_of_lt' (show _ < 65536 by omega)
  have sum : ofNat (written.offset range.start) +
      ofNat (written.offset range.stop - written.offset range.start) =
        ofNat (written.offset range.stop) := by
    rw [← ofNat_add]
    congr 1
    omega
  rw [labelRange, start, size, if_neg (by omega), labelInside_readAs found inside, sum,
    labelUpTo_readAs found]
  rfl

end

end Written

section Handlers

/-- The first of the elements of a list in the concatenation, unless the list is empty. -/
def firstOf {α : Type} (lists : List (List α)) (index : Nat) : Option Nat :=
  match lists[index]? with
  | some (_ :: _) => some (lists.take index).flatten.length
  | _ => none

lemma firstOf_congr {β : Type} {lists : List (List α)} {others : List (List β)}
    (same : lists.map length = others.map length) (index : Nat) :
    firstOf lists index = firstOf others index := by
  have here : (lists[index]?).map length = (others[index]?).map length := by
    rw [← getElem?_map, same, getElem?_map]
  have before : (lists.take index).flatten.length = (others.take index).flatten.length := by
    rw [length_flatten, length_flatten, map_take, same, map_take]
  unfold firstOf
  rw [before]
  rcases found : lists[index]? with _ | _ | ⟨_, _⟩ <;>
    rcases found' : others[index]? with _ | _ | ⟨_, _⟩ <;> simp_all

lemma firstOf_lt {lists : List (List α)} {index first : Nat}
    (found : firstOf lists index = some first) : first < lists.flatten.length := by
  unfold firstOf at found
  split at found
  · next got =>
    cases found
    obtain ⟨inside, here⟩ := List.getElem?_eq_some_iff.mp got
    have parts := congrArg (fun lists => (List.flatten lists).length)
      (List.take_append_drop index lists)
    rw [List.drop_eq_getElem_cons inside, here] at parts
    simp only [List.flatten_append, List.flatten_cons, List.length_append, List.length_cons]
      at parts
    omega
  · cases found

lemma firstEntries_loop (lists : List (List HandlerEntry)) (firsts : Array (Option Nat))
    (count : Nat) : (lists.foldl (fun (firsts, count) entries =>
        (firsts.push (if entries.isEmpty then none else some count), count + entries.length))
        (firsts, count)).1 = firsts ++ lists.mapIdx fun index entries =>
          if entries.isEmpty then none else some (count + (lists.take index).flatten.length) := by
  induction lists generalizing firsts count with
  | nil => simp
  | cons entries rest ih =>
    rw [foldl_cons, ih, mapIdx_cons]
    simp [add_assoc]

lemma firstEntries_join (lists : List (List HandlerEntry)) (index : Nat) :
    (firstEntries lists)[index]?.join = firstOf lists index := by
  rw [firstEntries, firstEntries_loop, firstOf]
  cases got : lists[index]? with
  | none => simp [got]
  | some entries =>
    cases entries with
    | nil => simp [got]
    | cons entry rest => simp [got]

namespace Written

variable {written : Written} {index : Nat}

lemma keptRuns_none (count index : Nat) :
    written.keptRuns (count + 1) index none =
      written.keptRuns count (index + 1) (if written.isKept index then some index else none) := by
  cases kept : written.isKept index with
  | true => simp [keptRuns, kept]
  | false => simp [keptRuns, kept]

lemma keptRuns_some (count index start : Nat) :
    written.keptRuns (count + 1) index (some start) =
      if written.isKept index then written.keptRuns count (index + 1) (some start)
      else (start, index) :: written.keptRuns count (index + 1) none := by
  cases kept : written.isKept index with
  | true => simp [keptRuns, kept]
  | false => simp [keptRuns, kept]

lemma keptRuns_bounds {started : Option Nat} (before : ∀ start ∈ started, start < index)
    (count : Nat) (mem : run ∈ written.keptRuns count index started) :
    run.1 < run.2 ∧ run.2 ≤ index + count := by
  induction count generalizing index started with
  | zero =>
    cases started with
    | none => simp [keptRuns] at mem
    | some start =>
      rw [keptRuns, mem_singleton] at mem
      subst mem
      exact ⟨before start rfl, le_rfl⟩
  | succ count ih =>
    have next {started : Option Nat} (before : ∀ start ∈ started, start < index + 1)
        (mem : run ∈ written.keptRuns count (index + 1) started) :
        run.1 < run.2 ∧ run.2 ≤ index + (count + 1) := by
      have bounds := ih before mem
      omega
    cases started with
    | none =>
      rw [keptRuns_none] at mem
      exact next (by grind) mem
    | some start =>
      have less := before start rfl
      rw [keptRuns_some] at mem
      split at mem
      · exact next (by grind) mem
      · rcases mem_cons.mp mem with rfl | later
        · exact ⟨less, by omega⟩
        · exact next (by simp) later

/-- The parts of the range of a handler that are written, as positions of instructions. -/
def runs (written : Written) (handler : ExceptionHandler) : List (Nat × Nat) :=
  let first := written.positions[handler.start]?.getD 0
  let last := written.positions[handler.stop]?.getD 0
  if written.hasReplaced then written.keptRuns (last - first) first none else [(first, last)]

/-- The entry that is written for a part of the range of a handler. -/
def entryOf (written : Written) (handler : ExceptionHandler) (caught : UInt16) (run : Nat × Nat) :
    HandlerEntry :=
  ⟨written.layout.offset run.1, written.layout.offset run.2, written.offset handler.handler, caught⟩

/-- The handler that is read where a part of the range of one has been written. -/
def readRun (written : Written) (handler : ExceptionHandler) (run : Nat × Nat) : ExceptionHandler :=
  ⟨written.labelAt run.1, written.labelAt run.2, written.readAs handler.handler, handler.caught⟩

def readHandlers (written : Written) : List ExceptionHandler :=
  written.code.handlers.flatMap fun handler => (written.runs handler).map (written.readRun handler)

/-- The first of the handlers that are read for a handler of the code, unless there are none. -/
def firstRun? (written : Written) (index : Nat) : Option Nat :=
  firstOf (written.code.handlers.map written.runs) index

lemma readHandlers_length (written : Written) :
    written.readHandlers.length = ((written.code.handlers.map written.runs).map length).sum := by
  simp [readHandlers, length_flatMap, Function.comp_def]

lemma firstRun?_lt {first : Nat} (found : written.firstRun? index = some first) :
    first < written.readHandlers.length := by
  rw [readHandlers_length, ← length_flatten]
  exact firstOf_lt found

/-- The labels of a handler are bound, and it stands on an instruction. -/
structure CanHandle (written : Written) (handler : ExceptionHandler) : Prop where
  start : written.positions[handler.start]?.getD 0 ≤ written.ops.length
  stop : written.positions[handler.stop]?.getD 0 ≤ written.ops.length
  inside : written.IsInside handler.handler

section

variable (found : written.layout.IsFound written.ops)
include found

lemma offset_lt_iff {first second : Nat}
    (inside : first ≤ written.ops.length) (inside' : second ≤ written.ops.length) :
    written.layout.offset first < written.layout.offset second ↔ first < second := by
  obtain ⟨requested, places⟩ := found.places
  refine ⟨fun less => ?_, fun less => places.offset_lt less inside'⟩
  by_contra more
  exact Nat.not_le_of_lt less (places.offset_mono (Nat.le_of_not_lt more) inside)

lemma runs_bounds (handles : written.CanHandle handler)
    (less : written.offset handler.start < written.offset handler.stop)
    (mem : run ∈ written.runs handler) : run.1 < run.2 ∧ run.2 ≤ written.ops.length := by
  have ordered := (offset_lt_iff found handles.start handles.stop).mp less
  have last := handles.stop
  unfold runs at mem
  dsimp only at mem
  split at mem
  · have bounds := keptRuns_bounds (by simp) _ mem
    omega
  · rw [mem_singleton.mp mem]
    exact ⟨ordered, last⟩

lemma entryOf_reads {table : PoolTable}
    {caught : UInt16} (less : run.1 < run.2) (last : run.2 ≤ written.ops.length)
    (inside : written.IsInside handler.handler)
    (catches : Reads (optionalEntry table.className) (bytes16 caught) handler.caught) :
    Reads (exceptionHandler table written.layout.stop)
      (written.entryOf handler caught run).bytes (written.readRun handler run) := by
  obtain ⟨requested, places⟩ := found.places
  have some : ¬ofNat (written.layout.offset run.2) ≤
      ofNat (written.layout.offset run.1) := by
    rw [le_iff_toNat_le, offsetAt_toNat found, offsetAt_toNat found, not_le]
    exact places.offset_lt less last
  rw [HandlerEntry.bytes, append_assoc, append_assoc]
  refine (Reads.u16 _).bind ((Reads.u16 _).bind ?_)
  rw [entryOf, if_neg some, ← nil_append (bytes16 _ ++ _)]
  refine (Reads.ofResult (labelInside_labelAt found (lt_of_lt_of_le less last))).bind ?_
  rw [← nil_append (bytes16 _ ++ _)]
  exact (Reads.ofResult (labelUpTo_labelAt found _)).bind
    ((label_reads found inside).bind (catches.made _))

end

end Written

variable {written : Written}

/-- The entries are those of the parts of the range of a handler, and name what it catches. -/
def Handles (written : Written) (handler : ExceptionHandler) (entries : List HandlerEntry)
    (pool : PoolBuilder) : Prop :=
  written.offset handler.start < written.offset handler.stop ∧
    ∃ caught, entries = (written.runs handler).map (written.entryOf handler caught) ∧
      pool.Encodes (fun table _ => optionalEntry table.className) (bytes16 caught)
        handler.caught

lemma handlerEntries_eq (written : Written) (handler : ExceptionHandler) :
    handlerEntries written handler = (do
      if written.offset handler.stop ≤ written.offset handler.start then
        fail (.emptyRange handler.start handler.stop)
      let caught ← onPool (PoolBuilder.optional PoolBuilder.className handler.caught)
      return (written.runs handler).map (written.entryOf handler caught)) := by
  unfold handlerEntries Written.runs
  cases written.hasReplaced with
  | true => rfl
  | false => rfl

lemma handlerEntries_yields (written : Written) (handler : ExceptionHandler) :
    Yields before (handlerEntries written handler) (Handles written handler) := by
  rw [handlerEntries_eq]
  refine .refusing (fun _ _ _ => by rintro ⟨⟩) fun ordered => ?_
  refine (optionalIndex_yields fun name => (PoolBuilder.className_yields name).weaken
    fun _ _ _ known => known.1).bind fun caught => .pure ?_
  exact fun pool known => ⟨Nat.lt_of_not_le ordered, caught, rfl, known.2⟩

/-- The entries of all handlers, in their order. -/
def HandlesAll (written : Written) (handlers : List ExceptionHandler)
    (lists : List (List HandlerEntry)) (pool : PoolBuilder) : Prop :=
  Forall₂ (fun handler entries => Handles written handler entries pool) handlers lists

/-- The entries of handlers are read as handlers for the parts of their ranges. -/
lemma HandlesAll.reads (handled : HandlesAll written handlers lists pool)
    (found : written.layout.IsFound written.ops)
    (handles : ∀ handler ∈ handlers, written.CanHandle handler) {table : PoolTable}
    {boots : PoolTable.Bootstrap} (agrees : table.Agrees boots pool) :
    Forall₂ (Reads (exceptionHandler table written.layout.stop))
      (lists.flatten.map HandlerEntry.bytes)
      (handlers.flatMap fun handler => (written.runs handler).map (written.readRun handler)) := by
  induction handled with
  | nil => exact .nil
  | @cons handler entries handlers lists first _ ih =>
    obtain ⟨less, caught, rfl, catches⟩ := first
    rw [forall_mem_cons] at handles
    rw [flatten_cons, map_append, flatMap_cons, map_map]
    refine rel_append ?_ (ih handles.2)
    rw [forall₂_map_left_iff, forall₂_map_right_iff, forall₂_same]
    intro run mem
    obtain ⟨some, last⟩ := Written.runs_bounds found handles.1 less mem
    exact Written.entryOf_reads found some last handles.1.inside
      (catches agrees)

lemma HandlesAll.lengths (handled : HandlesAll written handlers lists pool) :
    lists.map length = (handlers.map written.runs).map length := by
  induction handled with
  | nil => rfl
  | cons first _ ih =>
    obtain ⟨_, _, rfl, _⟩ := first
    simp only [map_cons, length_map, ih]

lemma handlerTable_yields (found : written.layout.IsFound written.ops) :
    Yields (fun pool => before pool ∧ HandlesAll written written.code.handlers lists pool)
      (list16 (.tooMany .handlers) lists.flatten fun entry => return entry.bytes)
      fun bytes pool => written.readHandlers.length ≤ 0xffff ∧
        ((∀ handler ∈ written.code.handlers, written.CanHandle handler) →
          pool.Encodes (fun table _ =>
            ByteReader.list16 (exceptionHandler table written.layout.stop)) bytes
            written.readHandlers) := by
  have each : ∀ entry ∈ lists.flatten, Yields
      (fun pool => before pool ∧ HandlesAll written written.code.handlers lists pool)
      (return entry.bytes : Encoder (List UInt8)) fun chunk _ => chunk = entry.bytes :=
    fun entry _ => .pure fun _ _ => rfl
  refine (list16_chunks each).weaken ?_
  rintro bytes pool ⟨_, handled⟩ ⟨chunks, fits, rfl, equal⟩
  have count : lists.flatten.length = written.readHandlers.length := by
    rw [length_flatten, handled.lengths, Written.readHandlers_length]
  obtain rfl : lists.flatten.map HandlerEntry.bytes = chunks := by
    rw [← forall₂_eq_eq_eq, forall₂_map_left_iff]
    exact equal.imp fun _ _ same => same.symm
  rw [count] at fits ⊢
  exact ⟨fits, fun handles table boots agrees =>
    Reads.list16 (handled.reads found handles agrees) fits⟩

/-- What annotations name as the first entries of handlers, of which there are not too many. -/
structure Written.NamesFirst (written : Written) (firsts : Array (Option Nat)) : Prop where
  first : ∀ index : Nat, firsts[index]?.join = written.firstRun? index
  fits : written.readHandlers.length ≤ 0xffff

lemma HandlesAll.namesFirst (handled : HandlesAll written written.code.handlers lists pool)
    (fits : written.readHandlers.length ≤ 0xffff) : written.NamesFirst (firstEntries lists) where
  first index := by
    rw [firstEntries_join]
    exact firstOf_congr handled.lengths index
  fits := fits

namespace Written

def keepsTarget (written : Written) : CodeTarget → Bool
  | .exceptionParameter handler => (written.firstRun? handler.toNat).isSome
  | _ => true

/-- The target that is read where one has been written. -/
def readTarget (written : Written) : CodeTarget → CodeTarget
  | .exceptionParameter handler =>
    .exceptionParameter (ofNat ((written.firstRun? handler.toNat).getD 0))
  | target => target.mapLabels written.readAs

def keptNotes (written : Written) (notes : List (AnnotatedType CodeTarget)) :
    List (AnnotatedType CodeTarget) :=
  notes.filter fun note => written.keepsTarget note.target

/-- The annotations that are read where some have been written. -/
def readNotes (written : Written) (notes : List (AnnotatedType CodeTarget)) :
    List (AnnotatedType CodeTarget) :=
  (written.keptNotes notes).map (AnnotatedType.withTarget written.readTarget)

end Written

/-- Values are kept as a condition says if it says what each step does. -/
lemma filterM_gives {keep : α → Encoder Bool} {isKept : α → Bool} {xs : List α}
    (each : ∀ value ∈ xs, Gives (keep value) fun answer => answer = isKept value) :
    Gives (xs.filterM keep) fun kept => kept = xs.filter isKept := by
  have loop : ∀ found : List α, Gives (filterAuxM keep xs found) fun result =>
      result = (xs.filter isKept).reverse ++ found := by
    induction xs with
    | nil => exact fun found => .pure rfl
    | cons value rest ih =>
      intro found
      refine (each value mem_cons_self).bind fun answer same =>
        (ih (fun value mem => each value (mem_cons_of_mem _ mem)) _).weaken ?_
      rintro result rfl
      subst same
      cases known : isKept value with
      | true => simp [known]
      | false => simp [known]
  refine (loop []).bind fun result same => .pure ?_
  rw [same, append_nil, reverse_reverse]

/-- The annotations that are kept are those whose handlers have entries. -/
lemma keepHandled_gives {isKept : AnnotatedType CodeTarget → Bool}
    (handled : ∀ note handler, note.target = .exceptionParameter handler →
      isKept note = (firsts[handler.toNat]?.join).isSome)
    (others : ∀ note, (∀ handler, note.target ≠ .exceptionParameter handler) → isKept note = true)
    (notes : List (AnnotatedType CodeTarget)) :
    Gives (keepHandled firsts notes) fun kept => kept = notes.filter isKept := by
  refine filterM_gives fun note _ => ?_
  split
  · next handler target =>
    rw [handled note handler target]
    cases (firsts[handler.toNat]?.join).isSome with
    | true => exact .pure rfl
    | false => exact .after fun _ => .pure rfl
  · next other => exact .pure (others note other).symm

lemma filterM_yields {keep : α → Encoder Bool}
    (each : ∀ value, Yields before (keep value) fun _ _ => True) (xs : List α) :
    Yields before (xs.filterM keep) fun _ _ => True := by
  have loop : ∀ found : List α, Yields before (filterAuxM keep xs found) fun _ _ => True := by
    induction xs with
    | nil => exact fun found => .pure fun _ _ => trivial
    | cons value rest ih =>
      exact fun found => (each value).bind fun _ =>
        (ih _).strengthen fun _ known => known.1
  exact (loop []).bind fun _ => .pure fun _ _ => trivial

lemma keepHandled_yields (names : written.NamesFirst firsts)
    (notes : List (AnnotatedType CodeTarget)) :
    Yields before (keepHandled firsts notes) fun kept _ => kept = written.keptNotes notes := by
  have runs : Yields before (keepHandled firsts notes) fun _ _ => True := by
    refine filterM_yields (fun note => ?_) notes
    split
    · split
      · exact .pure fun _ _ => trivial
      · exact (warn_yields _).bind fun _ => .pure fun _ _ => trivial
    · exact .pure fun _ _ => trivial
  refine runs.ofRun (keepHandled_gives (fun note handler target => ?_) (fun note other => ?_) notes)
  · rw [target, Written.keepsTarget, names.first]
  · unfold Written.keepsTarget
    split
    · next handler target => exact absurd target (other handler)
    · rfl

end Handlers

section Tables

variable {written : Written}

/-- The effect of attributes whose values are added to those read before. -/
@[simp] def appendEffect {σ α : Type} (part : Part σ (Array α)) (xs : List α) (good : Prop) : Effect σ :=
  ⟨fun _ => good, fun state => part.set state (part.get state ++ xs)⟩

/-- An attribute for a list adds what is read from it, unless the list is empty. -/
lemma appendOfList_yields {σ β : Type} {part : Part σ (Array β)} {name : String} {good : Prop}
    {step : PoolTable → PoolTable.Bootstrap → σ → String → Nat → ByteReader σ}
    {allowed : String × List UInt8 → Prop}
    {reader : PoolTable → PoolTable.Bootstrap → ByteReader (List β)} {xs : List α}
    {results : List β} {encoder : List α → Encoder (List UInt8)}
    (written : Yields before (encoder xs) fun bytes pool =>
      ∃ contents, (good → pool.Encodes reader contents results) ∧
        pool.IsAttribute (name, contents) bytes)
    (steps : ∀ table boots state length, step table boots state name length = do
      let found ← contents name length (reader table boots)
      return part.set state (part.get state ++ found)) (empty : xs = [] → good → results = []) :
    Causes before step allowed (attributeOfList xs encoder)
      (appendEffect part results good) := by
  refine attributeOfList_yields (fun _ => ?_) ?_
  · refine written.weaken ?_
    rintro bytes pool _ ⟨contents, encodes, named⟩
    refine single_affects named fun table boots agrees _ state applies => ?_
    rw [steps]
    exact (contents_reads name (encodes applies agrees)).made _
  · intro none state applies
    change part.set state (part.get state ++ results) = state
    rw [empty none applies, Array.appendList_nil, part.set_get]

open Decode (CodeTables)

/-- Reads an attribute of the code that has been written. -/
abbrev codeStep (written : Written) (table : PoolTable) (_ : PoolTable.Bootstrap)
    (tables : CodeTables) (name : String) (size : Nat) : ByteReader CodeTables :=
  tables.step table written.layout.stop written.readHandlers.length name size

abbrev CausesCode (before : PoolBuilder → Prop) (written : Written) (encoder : AttributeEncoder)
    (effect : Effect CodeTables) : Prop :=
  Causes before (codeStep written) (fun _ => True) encoder effect

@[simp] def linesPart : Part CodeTables (Array (Label × UInt16)) where
  get := CodeTables.lineNumbers
  set tables lineNumbers := { tables with lineNumbers }

@[simp] def localsPart : Part CodeTables (Array LocalVariable) where
  get := localVariables
  set tables localVariables := { tables with localVariables }

@[simp] def localTypesPart : Part CodeTables (Array LocalVariable) where
  get := localVariableTypes
  set tables localVariableTypes := { tables with localVariableTypes }

@[simp] def visibleNotesPart : Part CodeTables (Array (AnnotatedType CodeTarget)) where
  get := visible
  set tables visible := { tables with visible }

@[simp] def invisibleNotesPart : Part CodeTables (Array (AnnotatedType CodeTarget)) where
  get := invisible
  set tables invisible := { tables with invisible }

lemma lineNumbers_yields (found : written.layout.IsFound written.ops) :
    CausesCode before written (lineNumbers written) (appendEffect linesPart
      (written.code.lineNumbers.map fun line => (written.readAs line.1, line.2))
      (∀ line ∈ written.code.lineNumbers, written.IsInside line.1)) := by
  refine appendOfList_yields (namedAfter_yields (list16_yields fun line _ => ?_))
    (fun _ _ _ _ => rfl) (by rintro empty _; rw [empty]; rfl)
  exact .pure fun pool _ inside table boots agrees =>
    (Written.label_reads found inside).bind ((Reads.u16 _).made _)

lemma localEntry_yields {γ : Type} {get : PoolTable → UInt16 → Except Failure γ}
    (found : written.layout.IsFound written.ops) (entry : LocalVariable) (value : γ) (text : String)
    (make : LabelRange → String → γ → UInt16 → LocalVariable)
    (accepts : ∀ {pool : PoolBuilder} {index : UInt16}, pool.Refers PoolTable.text index text →
      pool.Refers get index value) :
    Yields before (do
        let range ← written.range entry.range
        let nameIndex ← utf8 entry.name
        let textIndex ← utf8 text
        return range ++ nameIndex ++ textIndex ++ bytes16 entry.index)
      fun bytes pool => written.IsInside entry.range.start →
        pool.Encodes (fun table _ => do
          let range ← readRange written.layout.stop
          let name ← Decode.entry table.text
          let value ← Decode.entry (get table)
          return make range name value (← u16)) bytes
          (make ⟨written.readAs entry.range.start, written.readAs entry.range.stop⟩ entry.name value
            entry.index) := by
  refine (Written.range_yields found entry.range).bind fun range =>
    (utf8_yields entry.name).bind fun name => (text_yields accepts).bind fun textBytes =>
      .pure ?_
  rintro pool ⟨⟨⟨_, ranges⟩, names⟩, xs⟩ inside table boots agrees
  rw [append_assoc, append_assoc]
  exact (ranges inside agrees).bind ((names agrees).bind
    ((xs agrees).bind ((Reads.u16 _).made _)))

lemma localVariableTable_yields {name : String} {known : LocalVariable → Option String}
    {part : Part CodeTables (Array LocalVariable)} {reader : PoolTable → ByteReader LocalVariable}
    (strip : LocalVariable → LocalVariable)
    (entries : ∀ entry text, known entry = some text →
      Yields before (do
          let range ← written.range entry.range
          let nameIndex ← utf8 entry.name
          let textIndex ← utf8 text
          return range ++ nameIndex ++ textIndex ++ bytes16 entry.index)
        fun bytes pool => written.IsInside entry.range.start →
          pool.Encodes (fun table _ => reader table) bytes
            ((strip entry).mapLabels written.readAs))
    (steps : ∀ table boots tables length,
      codeStep written table boots tables name length = do
        let found ← contents name length (ByteReader.list16 (reader table))
        return part.set tables (part.get tables ++ found)) :
    CausesCode before written (localVariableTable written name known) (appendEffect part
      ((written.code.localVariables.filterMap fun entry =>
        (known entry).map fun _ => strip entry).map (LocalVariable.mapLabels written.readAs))
      (∀ entry ∈ written.code.localVariables, (known entry).isSome = true →
        written.IsInside entry.range.start)) := by
  have pairs : ∀ pair ∈ written.code.localVariables.filterMap fun entry =>
      (known entry).map fun text => (entry, text),
      pair.1 ∈ written.code.localVariables ∧ known pair.1 = some pair.2 := by
    intro pair mem
    obtain ⟨entry, got, equal⟩ := mem_filterMap.mp mem
    obtain ⟨text, found, rfl⟩ := Option.map_eq_some_iff.mp equal
    exact ⟨got, found⟩
  have results : (written.code.localVariables.filterMap fun entry =>
      (known entry).map fun _ => strip entry).map (LocalVariable.mapLabels written.readAs) =
      (written.code.localVariables.filterMap fun entry =>
        (known entry).map fun text => (entry, text)).map
          fun pair => (strip pair.1).mapLabels written.readAs := by
    simp only [map_filterMap, Option.map_map, Function.comp_def]
  rw [results, localVariableTable]
  refine appendOfList_yields (namedAfter_yields ?_) steps ?_
  · exact (list16_yields fun pair mem => entries pair.1 pair.2 (pairs pair mem).2).weaken
      fun _ _ _ encodes inside => encodes fun pair mem =>
        inside pair.1 (pairs pair mem).1 (by rw [(pairs pair mem).2]; rfl)
  · rintro empty _
    rw [empty]
    rfl

open LocalVariable in
lemma localTypes_yields (found : written.layout.IsFound written.ops) :
    CausesCode before written
      (localVariableTable written "LocalVariableTable" fun entry => entry.type.map FieldType.text)
      (appendEffect localsPart
        ((written.code.localVariables.filterMap typed?).map (mapLabels written.readAs))
        (∀ entry ∈ written.code.localVariables, entry.type.isSome = true →
          written.IsInside entry.range.start)) := by
  have same : typed? = fun entry => (entry.type.map FieldType.text).map fun _ =>
      { entry with signature := none } := by
    funext entry
    rw [Option.map_map]
    rfl
  simp only [same, ← Option.isSome_map (f := FieldType.text)]
  refine localVariableTable_yields (fun entry => { entry with signature := none }) ?_
    fun _ _ _ _ => rfl
  intro entry text known
  obtain ⟨type, typed, rfl⟩ := Option.map_eq_some_iff.mp known
  have yields : Yields before _ _ := localEntry_yields found entry type type.text
    (fun range name type index => ⟨range, name, some type, none, index⟩)
    PoolBuilder.Refers.fieldType
  rw [← typed] at yields
  exact yields

open LocalVariable in
lemma localSignatures_yields (found : written.layout.IsFound written.ops) :
    CausesCode before written
      (localVariableTable written "LocalVariableTypeTable" LocalVariable.signature)
      (appendEffect localTypesPart
        ((written.code.localVariables.filterMap signed?).map (mapLabels written.readAs))
        (∀ entry ∈ written.code.localVariables, entry.signature.isSome = true →
          written.IsInside entry.range.start)) := by
  refine localVariableTable_yields (fun entry => { entry with type := none }) ?_
    fun _ _ _ _ => rfl
  intro entry text known
  have yields : Yields before _ _ := localEntry_yields found entry text text
    (fun range name text index => ⟨range, name, none, some text, index⟩) fun refers => refers
  rw [← known] at yields
  exact yields

/-- The target of an annotation names only what is read. -/
def Written.CanRead (written : Written) : CodeTarget → Prop
  | .variables _ table => ∀ entry ∈ table, written.IsInside entry.1.start
  | .exceptionParameter handler => written.keepsTarget (.exceptionParameter handler) = true
  | .instruction _ label => written.IsInside label
  | .argument _ label _ => written.IsInside label

lemma codeTarget_yields (found : written.layout.IsFound written.ops)
    (names : written.NamesFirst firsts) (target : CodeTarget) :
    Yields before (codeTarget written firsts target) fun bytes pool =>
      written.CanRead target →
        pool.Encodes (fun _ _ =>
          Decode.codeTarget written.layout.stop written.readHandlers.length) bytes
          (written.readTarget target) := by
  rcases target with ⟨isResource, table⟩ | handler | ⟨target, label⟩ | ⟨target, label, argument⟩
  · have entries : ∀ entry ∈ table, Yields before
        (do return (← written.range entry.1) ++ bytes16 entry.2 : Encoder (List UInt8))
        fun bytes pool => written.IsInside entry.1.start → pool.Encodes (fun _ _ => do
          let range ← Decode.readRange written.layout.stop
          return (range, ← u16)) bytes
            (⟨written.readAs entry.1.start, written.readAs entry.1.stop⟩, entry.2) :=
      fun entry _ => (Written.range_yields found entry.1).bind fun range => .pure
        fun pool known inside table boots agrees =>
          (known.2 inside agrees).bind
            ((Reads.u16 _).made _)
    refine (list16_yields entries).bind fun bytes => .pure ?_
    intro pool known inside pooled boots agrees
    have read := known.2 inside agrees
    cases isResource <;> exact (Reads.u8 _).bind (read.made _)
  · rw [codeTarget, names.first]
    split
    · next entry first =>
      have inside := Written.firstRun?_lt first
      have small : (ofNat entry).toNat = entry :=
        toNat_ofNat_of_lt' (lt_of_lt_of_le inside (Nat.le_succ_of_le names.fits))
      refine .pure fun pool _ _ table boots agrees => ?_
      rw [Written.readTarget, first, Option.getD_some]
      refine (Reads.u8 _).bind ((Reads.u16 _).bind_pure ?_)
      rw [small, if_neg (not_le.mpr inside)]
      exact Reads.pure _
    · exact fail_yields
  · refine .pure fun pool _ inside table boots agrees => ?_
    have read := Written.label_reads found inside
    cases target <;> exact (Reads.u8 _).bind (read.made _)
  · refine .pure fun pool _ inside table boots agrees => ?_
    have read := Written.label_reads found inside
    cases target <;>
      exact (Reads.u8 _).bind (read.bind ((Reads.u8 argument).made _))

lemma codeNotes_yields (name : String)
    (part : Part CodeTables (Array (AnnotatedType CodeTarget)))
    (found : written.layout.IsFound written.ops) (names : written.NamesFirst firsts)
    (notes : List (AnnotatedType CodeTarget)) (steps : ∀ table boots tables length,
      codeStep written table boots tables name length = do
        let found ← Decode.contents name length (Decode.annotatedTypes table
          (Decode.codeTarget written.layout.stop written.readHandlers.length))
        return part.set tables (part.get tables ++ found)) :
    CausesCode before written
      (do annotatedTypes name (codeTarget written firsts) (← keepHandled firsts notes))
      (appendEffect part (written.readNotes notes)
        (∀ note ∈ written.keptNotes notes, AnnotatedType.IsGood written.CanRead note)) := by
  refine (keepHandled_yields names notes).bind fun kept =>
    Yields.assuming (fun _ known => known.2) fun keeps => ?_
  subst keeps
  refine appendOfList_yields (namedAfter_yields (annotatedTypeList_yields written.CanRead
    written.readTarget fun note _ => codeTarget_yields found names note.target)) steps
    (fun empty _ => ?_)
  rw [Written.readNotes, empty]
  rfl

lemma codeAnnotations_yields (found : written.layout.IsFound written.ops)
    (names : written.NamesFirst firsts) (notes : TypeAnnotations CodeTarget) :
    CausesCode before written
      (typeAnnotations (keepHandled firsts) (codeTarget written firsts) notes) (.chain [
        appendEffect visibleNotesPart (written.readNotes notes.visible)
          (∀ note ∈ written.keptNotes notes.visible, AnnotatedType.IsGood written.CanRead note),
        appendEffect invisibleNotesPart (written.readNotes notes.invisible)
          (∀ note ∈ written.keptNotes notes.invisible,
            AnnotatedType.IsGood written.CanRead note)]) := by
  have both : CausesCode before written _ _ := both_yields
    (codeNotes_yields "RuntimeVisibleTypeAnnotations" visibleNotesPart found names
      notes.visible fun _ _ _ _ => rfl)
    (codeNotes_yields "RuntimeInvisibleTypeAnnotations" invisibleNotesPart found names
      notes.invisible fun _ _ _ _ => rfl)
  simp only [bind_assoc] at both
  exact both

end Tables

section Frames

open StackMap

/-- Frames are skipped when they are read. -/
lemma stackMapTable_yields {written : Written} (entry : List Item)
    (frames : List MapFrame) :
    CausesCode before written (stackMapTable entry frames) ⟨fun _ => True, id⟩ := by
  have table : Yields before (onPool (tableBytes entry frames)) fun _ _ => True :=
    onPool_yields ((table_yields entry frames).weaken fun _ _ _ _ => trivial)
  refine attributeOfList_yields (fun _ => ?_) fun _ _ _ => rfl
  refine (namedAfter_yields table).weaken ?_
  rintro bytes pool _ ⟨contents, _, named⟩
  exact single_affects named fun table boots agrees _ tables _ =>
    (Reads.skip contents).made _

end Frames

end Encode

end JvmAsm
