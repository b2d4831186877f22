/- Says which part of the code the entries of the exception table cover. -/
import JvmAsm.Proofs.RoundTrip.Bytecode

namespace JvmAsm

open List

namespace Code

/-- An instruction lies in the range of a handler. -/
def IsInRange (code : Code) (handler : ExceptionHandler) (index : Nat) : Prop :=
  ∃ start stop, (handler.start, start) ∈ code.bindings ∧ (handler.stop, stop) ∈ code.bindings ∧
    start ≤ index ∧ index < stop

lemma le_of_mem_bindings {code : Code} {label : Label} {pos : Nat}
    (bound : (label, pos) ∈ code.bindings) : pos ≤ code.instructions.length := by
  rcases mem_bindings.mp bound with ⟨_, got, _⟩ | ⟨_, rfl⟩
  · exact le_of_lt (List.getElem?_eq_some_iff.mp got).1
  · exact le_rfl

end Code

namespace Encode

open Binary Bytecode

namespace Written

variable {written : Written} {table : FrameTable} {index : Nat}

/-- The runs are made of the instructions that are kept, those of the run under way included. -/
lemma mem_keptRuns {started : Option Nat} (before : ∀ start ∈ started, start ≤ index)
    (count place : Nat) :
    (∃ run ∈ written.keptRuns count index started, run.1 ≤ place ∧ place < run.2) ↔
      (∃ start ∈ started, start ≤ place ∧ place < index) ∨
        index ≤ place ∧ place < index + count ∧ written.isKept place = true := by
  induction count generalizing index started with
  | zero =>
    cases started with
    | none => simp [keptRuns]; omega
    | some start => simp [keptRuns]; omega
  | succ count ih =>
    cases started with
    | none =>
      rw [keptRuns_none, ih (by grind)]
      grind
    | some start =>
      have less := before start rfl
      rw [keptRuns_some]
      split
      · rw [ih (by grind)]
        simp only [Option.mem_def, Option.some.injEq, exists_eq_left']
        grind
      · rw [exists_mem_cons_iff, ih (by simp)]
        simp only [Option.mem_def, Option.some.injEq, exists_eq_left', reduceCtorEq, false_and,
          exists_false, false_or]
        grind

namespace IsFramed

lemma hasReplaced_iff (framed : written.IsFramed table) :
    written.hasReplaced = true ↔ ∃ index < written.ops.length, ¬written.code.Reaches index := by
  have count : table.frames.size = written.ops.length :=
    framed.follows.size.trans framed.lowered.length_eq
  rw [hasReplaced, framed.frames]
  dsimp only
  rw [FrameTable.hasUnreachable, Array.any_eq_true, ← count]
  refine exists_congr fun index => ?_
  rw [← exists_prop]
  refine exists_congr fun inside => ?_
  rw [← framed.follows.reaches, FrameTable.isReachable, FrameTable.frame?,
    Array.getElem?_eq_getElem inside, Option.join_some]
  simp

lemma position_eq (framed : written.IsFramed table) {label : Label} {pos : Nat}
    (bound : (label, pos) ∈ written.code.bindings) :
    written.positions[label]?.getD 0 = pos := by
  rw [framed.positions, framed.follows.once.positions_iff.mpr bound, Option.getD_some]

lemma position_le (framed : written.IsFramed table) (label : Label) :
    written.positions[label]?.getD 0 ≤ written.ops.length := by
  rw [← framed.lowered.length_eq]
  cases stands : written.positions[label]? with
  | none => exact Nat.zero_le _
  | some pos =>
    rw [framed.positions, framed.follows.once.positions_iff] at stands
    exact Code.le_of_mem_bindings stands

lemma isInRange_iff (framed : written.IsFramed table) {handler : ExceptionHandler}
    (listed : handler ∈ written.code.handlers) :
    written.code.IsInRange handler index ↔ written.positions[handler.start]?.getD 0 ≤ index ∧
      index < written.positions[handler.stop]?.getD 0 := by
  have used {label : Label} (one : label ∈ [handler.start, handler.stop, handler.handler]) :
      label ∈ written.code.references := by
    simp only [Code.references, append_assoc]
    exact mem_append_right _ (mem_append_left _ (mem_flatMap.mpr ⟨handler, listed, one⟩))
  obtain ⟨start, first⟩ := framed.bound handler.start (used (by simp))
  obtain ⟨stop, last⟩ := framed.bound handler.stop (used (by simp))
  rw [framed.position_eq first, framed.position_eq last]
  refine ⟨?_, fun inside => ⟨start, stop, first, last, inside⟩⟩
  rintro ⟨start', stop', first', last', inside⟩
  rw [framed.follows.once.position_unique first first',
    framed.follows.once.position_unique last last']
  exact inside

end IsFramed

/-- The entries name what a handler catches, in every table that has the pool. -/
def NamesCaught (pool : PoolBuilder) (handler : ExceptionHandler) (entries : List HandlerEntry) :
    Prop :=
  ∀ entry ∈ entries, pool.Encodes (fun table _ => Decode.optionalEntry table.className)
    (bytes16 entry.caught) handler.caught

/-- The entries that are written for a handler cover what is reached of its range. -/
structure IsHandledBy (written : Written) (handler : ExceptionHandler)
    (entries : List HandlerEntry) : Prop where
  target : ∀ entry ∈ entries, entry.handler = written.offset handler.handler
  covers : ∀ index < written.ops.length, ∀ place, written.layout.offset index ≤ place →
    place < written.layout.offset (index + 1) →
      ((∃ entry ∈ entries, entry.start ≤ place ∧ place < entry.stop) ↔
        written.code.IsInRange handler index ∧ written.code.Reaches index)
  starts : ∀ entry ∈ entries, ∃ index < written.ops.length,
    entry.start = written.layout.offset index ∧ entry.start < entry.stop ∧
      entry.stop ≤ written.layout.stop

/-- Parts of the code that have the instructions that are reached are written as entries. -/
lemma IsFramed.isHandledBy (framed : written.IsFramed table) {handler : ExceptionHandler}
    {runs : List (Nat × Nat)} {caught : UInt16}
    (bounds : ∀ run ∈ runs, run.1 < run.2 ∧ run.2 ≤ written.ops.length)
    (inside : ∀ index < written.ops.length, (∃ run ∈ runs, run.1 ≤ index ∧ index < run.2) ↔
      written.code.IsInRange handler index ∧ written.code.Reaches index) :
    written.IsHandledBy handler (runs.map fun run =>
      ⟨written.layout.offset run.1, written.layout.offset run.2, written.offset handler.handler,
        caught⟩) where
  target := by
    simp only [mem_map]
    rintro _ ⟨run, _, rfl⟩
    rfl
  covers := by
    intro index below place above ahead
    obtain ⟨requested, places⟩ := framed.found.places
    -- A place in an instruction lies before another one if the instruction does.
    have before {other : Nat} (known : other ≤ written.ops.length) :
        place < written.layout.offset other ↔ index < other := by
      refine ⟨fun less => ?_, fun less => lt_of_lt_of_le ahead (places.offset_mono less known)⟩
      by_contra more
      have back := places.offset_mono (Nat.le_of_not_lt more) (le_of_lt below)
      omega
    rw [← inside index below]
    simp only [mem_map, exists_exists_and_eq_and]
    refine exists_congr fun run => and_congr_right fun mem => ?_
    obtain ⟨less, last⟩ := bounds run mem
    rw [before last, ← not_lt, before (by omega), not_lt]
  starts := by
    simp only [mem_map]
    rintro _ ⟨run, mem, rfl⟩
    obtain ⟨less, last⟩ := bounds run mem
    obtain ⟨requested, places⟩ := framed.found.places
    exact ⟨run.1, by omega, rfl, places.offset_lt less last, places.offset_le_stop _⟩

lemma IsFramed.handlerEntries_ok (framed : written.IsFramed table) {handler : ExceptionHandler}
    (listed : handler ∈ written.code.handlers) {entries : List HandlerEntry} {state state' : State}
    (ran : handlerEntries written handler state = .ok entries state') :
    written.IsHandledBy handler entries := by
  have range := fun index => @isInRange_iff written table index framed handler listed
  have last := framed.position_le handler.stop
  unfold handlerEntries at ran
  dsimp only at ran
  split at ran
  · obtain ⟨_, _, failed, _⟩ := ran_parts ran
    cases failed
  · next ordered =>
    have less : written.positions[handler.start]?.getD 0 < written.positions[handler.stop]?.getD 0 :=
      (offset_lt_iff framed.found (framed.position_le _) last).mp (Nat.lt_of_not_le ordered)
    obtain ⟨caught, _, _, ran⟩ := ran_parts ran
    split at ran
    · obtain ⟨rfl, -⟩ := ran_pure_iff.mp ran
      refine framed.isHandledBy (fun run mem => ?_) fun index inside => ?_
      · have bounds := keptRuns_bounds (by simp) _ mem
        omega
      · rw [mem_keptRuns (by simp), range, framed.isKept_iff, Nat.add_sub_cancel' (le_of_lt less)]
        simp [and_assoc]
    · next whole =>
      obtain ⟨rfl, -⟩ := ran_pure_iff.mp ran
      have all : ∀ index < written.ops.length, written.code.Reaches index := by
        intro index inside
        by_contra dead
        exact whole (framed.hasReplaced_iff.mpr ⟨index, inside, dead⟩)
      refine @IsFramed.isHandledBy written table framed handler
        [(written.positions[handler.start]?.getD 0, written.positions[handler.stop]?.getD 0)]
        caught (fun run mem => ?_) fun index inside => ?_
      · rw [mem_singleton.mp mem]
        exact ⟨less, last⟩
      · rw [range, and_iff_left (all index inside)]
        simp

end Written

end Encode

end JvmAsm
