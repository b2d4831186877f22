/-
Shows that the frames that are written with code are those that verification looks for in its bytes.
-/
import JvmAsm.Proofs.Encode.Assembly

namespace JvmAsm

open Bytecode Encode List

namespace StackMap

/--
Frames stand only where instructions start, and wherever the code can be entered other than from
the instruction before.
-/
structure Covers (frames : List MapFrame) (placed : List (Placed (Op UInt16)))
    (entries : List HandlerEntry) : Prop where
  increasing : (frames.map MapFrame.offset).Pairwise (· < ·)
  starts : ∀ frame ∈ frames, ∃ found ∈ placed, found.offset = frame.offset
  targets : ∀ found ∈ placed, ∀ target ∈ found.op.targets,
    ∃ frame ∈ frames, frame.offset = target.toNat
  handlers : ∀ entry ∈ entries, ∃ frame ∈ frames, frame.offset = entry.handler
  after : placed.IsChain fun first second => first.op.endsFlow = true →
    ∃ frame ∈ frames, frame.offset = second.offset

end StackMap

namespace Encode

open StackMap

namespace Written

variable {written : Written} {table : FrameTable} {frames : List MapFrame} {index : Nat}

section

variable (framed : written.IsFramed table)
include framed

lemma IsFramed.frames_increasing (mapped : written.mapFrames table = .ok frames) :
    (frames.map MapFrame.offset).Pairwise (· < ·) := by
  obtain ⟨requested, places⟩ := framed.found.places
  have offsets : frames.map MapFrame.offset =
      ((List.range written.ops.length).filter (written.isListed table)).map written.layout.offset := by
    rw [← forall₂_eq_eq_eq, forall₂_map_left_iff, forall₂_map_right_iff]
    exact (mapFrames_ok mapped).flip.imp fun _ _ isFrame => isFrame.offset_eq
  rw [offsets, pairwise_map]
  refine (Pairwise.and_mem.mp ((pairwise_lt_range).filter _)).imp ?_
  rintro first second ⟨_, mem, less⟩
  have inside := mem_range.mp (mem_filter.mp mem).1
  exact places.offset_lt less (le_of_lt inside)

lemma IsFramed.lists_handler {handler : ExceptionHandler}
    (listed : handler ∈ written.code.handlers) {entries : List HandlerEntry}
    (handled : written.IsHandledBy handler entries) {entry : HandlerEntry}
    (mem : entry ∈ entries) :
    ∃ goal, written.Lists table goal ∧ entry.handler = written.layout.offset goal := by
  have used : handler.handler ∈ written.code.references := by
    simp only [Code.references, append_assoc]
    exact mem_append_right _
      (mem_append_left _ (mem_flatMap.mpr ⟨handler, listed, by simp⟩))
  obtain ⟨goal, bound⟩ := framed.bound _ used
  -- What the entry starts with is reached, so the handler is as well.
  obtain ⟨index, inside, start, less, _⟩ := handled.starts entry mem
  obtain ⟨requested, places⟩ := framed.found.places
  obtain ⟨range, reached⟩ := (handled.covers index inside entry.start (le_of_eq start.symm)
    (start ▸ places.offset_lt (Nat.lt_succ_self index) inside)).mp
      ⟨entry, mem, le_rfl, less⟩
  have caught : written.code.Catches index handler goal := ⟨listed, range, bound⟩
  refine ⟨goal, framed.lists_of_needsFrame (.handler listed bound (.catches reached caught)), ?_⟩
  rw [handled.target entry mem, Written.offset, framed.position_eq bound]

lemma IsFramed.frame_computed (mapped : written.mapFrames table = .ok frames) {frame : Frame}
    (found : table.frame? index = some frame) {other : MapFrame} (mem : other ∈ frames)
    (same : other.offset = written.layout.offset index) :
    localItems written.layout.offset frame.locals = .ok other.locals ∧
      other.stack = stackItems written.layout.offset frame.stack := by
  obtain ⟨place, lists, isFrame⟩ := lists_of_frame mapped mem
  have reached : written.code.Reaches index := by
    rw [← framed.follows.reaches, FrameTable.isReachable, found]
    rfl
  obtain rfl : place = index := framed.offset_inj (le_of_lt lists.1)
    (le_of_lt (framed.lt_of_reaches reached)) (isFrame.offset_eq.symm.trans same)
  cases isFrame with
  | reached found' maps =>
    obtain rfl := Option.some.inj (found.symm.trans found')
    exact (mapFrame_ok maps).2
  | dead none =>
    rw [found] at none
    contradiction

lemma IsFramed.offset_toNat (index : Nat) :
    (UInt16.ofNat (written.layout.offset index)).toNat = written.layout.offset index := by
  obtain ⟨requested, places⟩ := framed.found.places
  have small : written.layout.stop ≤ 0xffff := framed.found.stop_le
  have inside := places.offset_le_stop index
  exact UInt16.toNat_ofNat_of_lt' (show written.layout.offset index < 65536 by omega)

end

/-- An instruction is found where each one has been placed. -/
lemma exists_form (inside : index < written.ops.length) :
    ∃ found ∈ (written.formsFrom 0 written.ops).map (Placed.mapTargets UInt16.ofNat),
      found.offset = written.layout.offset index := by
  obtain ⟨found, head, stands⟩ :=
    Option.map_eq_some_iff.mp (formsAt_head written written.ops[index] index)
  exact ⟨_, mem_map_of_mem (mem_formsFrom.mpr
    ⟨index, _, getElem?_eq_getElem inside, mem_of_head? head⟩), stands⟩

/-- The frames cover the instructions that are found in the bytes of the code. -/
lemma IsFramed.covers (framed : written.IsFramed table)
    (mapped : written.mapFrames table = .ok frames) {entries : List HandlerEntry}
    (handled : ∀ entry ∈ entries, ∃ goal, written.Lists table goal ∧
      entry.handler = written.layout.offset goal) :
    StackMap.Covers frames
      ((written.formsFrom 0 written.ops).map (Placed.mapTargets UInt16.ofNat)) entries where
  increasing := framed.frames_increasing mapped
  starts := by
    intro frame mem
    obtain ⟨index, lists, isFrame⟩ := lists_of_frame mapped mem
    obtain ⟨found, got, stands⟩ := exists_form lists.1
    exact ⟨found, got, stands.trans isFrame.offset_eq.symm⟩
  targets := by
    intro _ mapped' target jumps
    obtain ⟨found, placed, rfl⟩ := mem_map.mp mapped'
    obtain ⟨index, op, got, mem⟩ := mem_formsFrom.mp placed
    rw [Placed.mapTargets, Op.targets_map, mem_map] at jumps
    obtain ⟨offset, jumps, rfl⟩ := jumps
    obtain ⟨goal, lists, rfl⟩ := framed.formsAt_targets got mem jumps
    rw [framed.offset_toNat]
    exact lists.exists_frame mapped
  handlers := by
    intro entry mem
    obtain ⟨goal, lists, same⟩ := handled entry mem
    rw [same]
    exact lists.exists_frame mapped
  after := by
    rw [isChain_map]
    have chain := @formsFrom_isChain written table framed [] written.ops rfl
    refine chain.imp fun first second listed ends => ?_
    rw [Placed.mapTargets, Op.endsFlow_map] at ends
    obtain ⟨goal, lists, same⟩ := listed ends
    rw [Placed.mapTargets, same]
    exact lists.exists_frame mapped

end Written

/--
Code that is written with frames has a frame wherever verification expects one in its bytes, and
each frame of an instruction that is reached is the one that has been computed, with the offsets
that the instructions have.
-/
theorem codeBody_covers {options : EncodeOptions} {owner : ClassFile} {method : Method}
    {code : Code} {analysis : Analysis} {before after state state' : State} {body : List UInt8}
    (given : method.code = some code) (once : code.BindsOnce)
    (analyzed : analyze options owner method before = .ok analysis after)
    (writes : analysis.writesFrames = true)
    (written : codeBody owner.version code analysis state = .ok body state') :
    ∃ (table : FrameTable) (assembly : Assembly) (placed : List (Placed (Op UInt16))),
      computeFrames options.hierarchy owner.name method = .ok table ∧
      assembly.Makes code analysis state body state' ∧
      Bytecode.ops (bytecodeOf body) 0 = .ok placed ∧
      StackMap.Covers assembly.frames placed (handlersOf body) ∧
      ∀ index frame, table.frame? index = some frame →
        (∃ found ∈ placed, found.offset = assembly.written.layout.offset index) ∧
        ∀ mapped ∈ assembly.frames, mapped.offset = assembly.written.layout.offset index →
          localItems assembly.written.layout.offset frame.locals = .ok mapped.locals ∧
            mapped.stack = stackItems assembly.written.layout.offset frame.stack := by
  obtain ⟨table, computed, known⟩ := analyze_ok given analyzed writes
  obtain ⟨labels, assembly, makes⟩ := codeBody_assembled once written
  obtain ⟨_, framed⟩ :=
    makes.isFramed labels (computeFrames_follows given once computed) known writes
  have mapped := makes.frames_eq framed.frames
  obtain ⟨bytecode, handlers⟩ := makes.reads_body framed
  rw [bytecode, handlers]
  refine ⟨table, assembly, _, computed, makes, framed.ops_bytecode, framed.covers mapped ?_,
    fun index frame found => ⟨?_, fun other mem same => framed.frame_computed mapped found mem same⟩⟩
  · intro entry mem
    obtain ⟨entries, listed, mem⟩ := mem_flatten.mp mem
    obtain ⟨handler, _, uses, handled⟩ := forall₂_mem_right (makes.isHandledBy framed) listed
    exact framed.lists_handler uses handled mem
  · have reached : assembly.written.code.Reaches index := by
      rw [← framed.follows.reaches, FrameTable.isReachable, found]
      rfl
    exact Written.exists_form (framed.lt_of_reaches reached)

/-- The frames of code with a jump, handlers and a part that is never reached cover its bytes. -/
theorem codeBody_covers_deadEnd : ∃ (body : List UInt8) (state' : State) (assembly : Assembly)
    (placed : List (Placed (Op UInt16))),
      codeBody .standard .deadEnd ⟨some .deadEnd, true⟩ {} = .ok body state' ∧
      assembly.Makes .deadEnd ⟨some .deadEnd, true⟩ {} body state' ∧
      Bytecode.ops (bytecodeOf body) 0 = .ok placed ∧
      StackMap.Covers assembly.frames placed (handlersOf body) := by
  obtain ⟨body, state', written⟩ := codeBody_deadEnd
  obtain ⟨_, assembly, placed, _, makes, found, covers, _⟩ :=
    @codeBody_covers {} .deadEnd .deadEnd .deadEnd ⟨some .deadEnd, true⟩ {} {} {} state' body rfl
      Code.deadEnd_bindsOnce analyze_deadEnd rfl written
  exact ⟨body, state', assembly, placed, written, makes, found, covers⟩

end Encode

end JvmAsm
