/-
Says what becomes of code that is never reached when it is written with frames, and of the handlers
and annotations that refer to it.
-/
import JvmAsm.Proofs.Encode.Assembly

namespace JvmAsm

open List

/-- A part of the code that is never reached, between instructions that are. -/
structure Code.IsDeadRun (code : Code) (first last : Nat) : Prop where
  some : first < last
  inside : last ≤ code.instructions.length
  dead : ∀ index, first ≤ index → index < last → ¬code.Reaches index
  before : ∀ previous, first = previous + 1 → code.Reaches previous
  after : last < code.instructions.length → code.Reaches last

namespace Encode

open Binary Bytecode

/-- The bytes from an offset up to another one. -/
def slice (bytes : List UInt8) (start stop : Nat) : List UInt8 :=
  (bytes.drop start).take (stop - start)

lemma slice_append (bytes : List UInt8) {start middle stop : Nat} (first : start ≤ middle)
    (second : middle ≤ stop) :
    slice bytes start stop = slice bytes start middle ++ slice bytes middle stop := by
  have parts := @take_add _ (bytes.drop start) (middle - start) (stop - middle)
  rw [drop_drop, Nat.add_sub_cancel' first,
    show middle - start + (stop - middle) = stop - start by omega] at parts
  exact parts

namespace Written

variable {written : Written} {table : FrameTable} {index : Nat} {op : Op Nat}
  {frames : List StackMap.MapFrame}

/-- Where code that is never reached goes on, it is replaced by code that does nothing. -/
lemma IsFramed.bytesAt_dead (framed : written.IsFramed table)
    (dead : ¬written.code.Reaches index) :
    written.bytesAt op index = filler
      (op.size (written.layout.offset index) (written.layout.isWide index))
      (written.endsReplaced index) := by
  rw [bytesAt, if_neg fun kept => dead (framed.isKept_iff.mp kept), Op.bytes_length, Op.size_map]

/-- Code that is never reached is replaced as a whole. -/
lemma IsFramed.slice_dead (framed : written.IsFramed table) {first last : Nat}
    (run : written.code.IsDeadRun first last) :
    slice written.bytecode (written.layout.offset first) (written.layout.offset last) =
      replicate (written.layout.offset last - written.layout.offset first - 1)
        SimpleOp.nop.opcode ++ [SimpleOp.athrow.opcode] := by
  obtain ⟨requested, places⟩ := framed.found.places
  have count := framed.lowered.length_eq
  obtain ⟨some, inside, dead, -, after⟩ := run
  rw [count] at inside after
  obtain ⟨length, rfl⟩ := Nat.exists_eq_add_of_lt some
  -- All but the last instruction become instructions that do nothing.
  induction length generalizing first with
  | zero =>
    have got := getElem?_eq_getElem (show first < written.ops.length by omega)
    have ends : written.endsReplaced first = true := by
      rw [endsReplaced, Bool.or_eq_true, beq_iff_eq]
      rcases lt_or_eq_of_le inside with below | same
      · exact .inr (framed.isKept_iff.mpr (after below))
      · exact .inl same
    rw [slice, add_zero, framed.bytecode_slice got,
      framed.bytesAt_dead (dead first le_rfl (by omega)), ends, filler, if_pos rfl,
      offset_next framed.found got, Nat.add_sub_cancel_left]
  | succ length ih =>
    have got := getElem?_eq_getElem (show first < written.ops.length by omega)
    have goesOn : written.endsReplaced first = false := by
      rw [endsReplaced, Bool.or_eq_false_iff, beq_eq_false_iff_ne, ← Bool.not_eq_true,
        framed.isKept_iff]
      exact ⟨by omega, dead (first + 1) (by omega) (by omega)⟩
    have rest := @ih (first + 1) (by omega) (by omega)
      (fun index above below => dead index (by omega) (by omega)) (fun below => by
        rw [show first + 1 + length + 1 = first + (length + 1) + 1 by omega] at below ⊢
        exact after below)
    rw [show first + 1 + length + 1 = first + (length + 1) + 1 by omega] at rest
    have step := places.offset_lt (Nat.lt_succ_self first)
      (show first + 1 ≤ written.ops.length by omega)
    have more := places.offset_lt (show first + 1 < first + (length + 1) + 1 by omega) inside
    rw [slice_append _ (le_of_lt step) (le_of_lt more), rest, slice,
      framed.bytecode_slice got, framed.bytesAt_dead (dead first le_rfl (by omega)),
      goesOn, filler, if_neg Bool.false_ne_true, ← append_assoc, replicate_append_replicate]
    congr 2
    have size := offset_next framed.found got
    omega

/-- A frame with an exception on the stack stands where code starts that is never reached. -/
lemma IsFramed.deadFrame_mem (framed : written.IsFramed table)
    (mapped : written.mapFrames table = .ok frames) {first last : Nat}
    (run : written.code.IsDeadRun first last) : written.deadFrame first ∈ frames := by
  have dead := run.dead first le_rfl run.some
  have inside : first < written.ops.length :=
    framed.lowered.length_eq ▸ lt_of_lt_of_le run.some run.inside
  obtain ⟨_, listed⟩ := framed.lists_dead inside dead run.before
  obtain ⟨frame, mem, isFrame⟩ := forall₂_mem_right (mapFrames_ok mapped).flip
    (mem_filter.mpr ⟨mem_range.mpr inside, listed⟩)
  cases isFrame with
  | reached found _ =>
    refine absurd ((framed.follows.reaches first).mp ?_) dead
    rw [FrameTable.isReachable, found]
    rfl
  | dead _ => exact mem

end Written

section Annotations

variable {lists : List (List HandlerEntry)} {state state' : State} {written : Written}

/--
An annotation on the parameter of a handler names the first entry that is written for the handler,
and it is left out if there is none.
-/
def renumber (lists : List (List HandlerEntry)) (note : AnnotatedType CodeTarget) :
    Option (AnnotatedType CodeTarget) :=
  match note.target with
  | .exceptionParameter handler =>
    match lists[handler.toNat]? with
    | some (_ :: _) =>
      let first := (lists.take handler.toNat).flatten.length
      some { note with target := .exceptionParameter (UInt16.ofNat first) }
    | _ => none
  | _ => some note

/-- The target of an annotation, where exception parameters name entries of the exception table. -/
def entryTarget (written : Written) : CodeTarget → Encoder (List UInt8)
  | .exceptionParameter entry => return 0x42 :: bytes16 entry
  | target => codeTarget written #[] target

/-- The annotations that are kept are those that can be given an entry. -/
lemma keepHandled_ok {notes kept : List (AnnotatedType CodeTarget)}
    (ran : keepHandled (firstEntries lists) notes state = .ok kept state') :
    kept = notes.filter fun note => (renumber lists note).isSome := by
  refine keepHandled_gives (fun note handler target => ?_) (fun note other => ?_) notes _ _ _ ran
  · rw [firstEntries_join, renumber, target, firstOf]
    dsimp only
    rcases lists[handler.toNat]? with _ | _ | ⟨_, _⟩ <;> rfl
  · unfold renumber
    split
    · next handler target => exact absurd target (other handler)
    · rfl

/-- An annotation is written with the entry that it is given. -/
lemma annotatedType_renumber {note renumbered : AnnotatedType CodeTarget}
    (gives : renumber lists note = some renumbered) :
    annotatedType (codeTarget written (firstEntries lists)) note =
      annotatedType (entryTarget written) renumbered := by
  obtain ⟨target, path, annotation⟩ := note
  unfold renumber at gives
  split at gives
  · next handler same =>
    cases same
    split at gives
    · next got =>
      cases gives
      simp only [annotatedType, codeTarget, entryTarget, firstEntries_join, firstOf, got]
    · cases gives
  · next other =>
    cases gives
    cases target with
    | exceptionParameter handler => exact absurd rfl (other handler)
    | _ => rfl

lemma annotatedTypes_congr {τ σ : Type} {target : τ → Encoder (List UInt8)}
    {target' : σ → Encoder (List UInt8)} {notes : List (AnnotatedType τ)}
    {notes' : List (AnnotatedType σ)} (name : String)
    (same : Forall₂ (fun note note' => annotatedType target note = annotatedType target' note')
      notes notes') : annotatedTypes name target notes = annotatedTypes name target' notes' := by
  have mapped : notes.mapM (annotatedType target) = notes'.mapM (annotatedType target') := by
    induction same with
    | nil => rfl
    | cons first _ ih => rw [mapM_cons, mapM_cons, first, ih]
  have empty : notes.isEmpty = notes'.isEmpty := by
    cases same with
    | nil => rfl
    | cons _ _ => rfl
  simp only [annotatedTypes, attributeOfList, list16, each, mapped, same.length_eq, empty]

lemma annotatedTypes_renumber {notes : List (AnnotatedType CodeTarget)} (name : String) :
    annotatedTypes name (codeTarget written (firstEntries lists))
        (notes.filter fun note => (renumber lists note).isSome) =
      annotatedTypes name (entryTarget written) (notes.filterMap (renumber lists)) := by
  refine annotatedTypes_congr name ?_
  induction notes with
  | nil => exact .nil
  | cons note rest ih =>
    cases gives : renumber lists note with
    | none => simpa [gives] using ih
    | some renumbered =>
      rw [filter_cons_of_pos (by rw [gives]; rfl), filterMap_cons_some gives]
      exact .cons (annotatedType_renumber gives) ih

structure WritesNotes (written : Written) (lists : List (List HandlerEntry))
    (notes : TypeAnnotations CodeTarget) (attributes : List (List UInt8)) : Prop where
  parts : ∃ visible invisible, attributes = visible ++ invisible ∧
    (∃ before after, annotatedTypes "RuntimeVisibleTypeAnnotations" (entryTarget written)
      (notes.visible.filterMap (renumber lists)) before = .ok visible after) ∧
    ∃ before after, annotatedTypes "RuntimeInvisibleTypeAnnotations" (entryTarget written)
      (notes.invisible.filterMap (renumber lists)) before = .ok invisible after

lemma typeAnnotations_ok {notes : TypeAnnotations CodeTarget} {attributes : List (List UInt8)}
    (ran : typeAnnotations (keepHandled (firstEntries lists))
      (codeTarget written (firstEntries lists)) notes state = .ok attributes state') :
    WritesNotes written lists notes attributes := by
  obtain ⟨keptVisible, _, keeps, ran⟩ := ran_parts ran
  obtain ⟨visible, _, first, ran⟩ := ran_parts ran
  obtain ⟨keptInvisible, _, keeps', ran⟩ := ran_parts ran
  obtain ⟨invisible, _, second, ran⟩ := ran_parts ran
  obtain ⟨rfl, -⟩ := ran_pure_iff.mp ran
  rw [keepHandled_ok keeps, annotatedTypes_renumber] at first
  rw [keepHandled_ok keeps', annotatedTypes_renumber] at second
  exact ⟨visible, invisible, rfl, ⟨_, _, first⟩, _, _, second⟩

end Annotations

lemma one_le_max (size : UInt16) : 1 ≤ max size 1 := by
  change 1 ≤ if size ≤ 1 then 1 else size
  split
  · exact UInt16.le_refl 1
  · next more => exact UInt16.le_of_lt (UInt16.not_le.mp more)

/--
Code that has been written without the parts of it that are never reached: the other instructions
have the bytes that they have been placed with, and of the handlers and annotations only what
concerns other instructions is left. The entries of a handler name what it catches in the pool.
-/
structure Assembly.Replaces (assembly : Assembly) (code : Code) (body : List UInt8)
    (pool : PoolBuilder) : Prop where
  kept : ∀ (index : Nat) (bytes : List UInt8), code.Reaches index →
    (assembly.written.layout.bytes assembly.written.ops)[index]? = some bytes →
      slice (bytecodeOf body) (assembly.written.layout.offset index)
        (assembly.written.layout.offset (index + 1)) = bytes
  replaced : ∀ first last, code.IsDeadRun first last →
    slice (bytecodeOf body) (assembly.written.layout.offset first)
      (assembly.written.layout.offset last) = replicate (assembly.written.layout.offset last -
          assembly.written.layout.offset first - 1) SimpleOp.nop.opcode ++
            [SimpleOp.athrow.opcode] ∧
      ⟨assembly.written.layout.offset first, [], [.object .throwable]⟩ ∈ assembly.frames
  entries : handlersOf body = assembly.lists.flatten
  handlers : Forall₂ assembly.written.IsHandledBy code.handlers assembly.lists
  caught : Forall₂ (Written.NamesCaught pool) code.handlers assembly.lists
  notes : WritesNotes assembly.written assembly.lists code.typeAnnotations assembly.notes
  stack : (∃ index < code.instructions.length, ¬code.Reaches index) → 1 ≤ stackOf body

/-- Code that is written with frames is written without what is never reached. -/
theorem codeBody_replaces {options : EncodeOptions} {owner : ClassFile} {method : Method}
    {code : Code} {analysis : Analysis} {before after state state' : State} {body : List UInt8}
    (given : method.code = some code) (once : code.BindsOnce)
    (analyzed : analyze options owner method before = .ok analysis after)
    (writes : analysis.writesFrames = true) (wf : state.pool.WellFormed)
    (written : codeBody owner.version code analysis state = .ok body state') :
    ∃ assembly : Assembly, assembly.Makes code analysis state body state' ∧
      assembly.Replaces code body state'.pool := by
  obtain ⟨table, computed, known⟩ := analyze_ok given analyzed writes
  obtain ⟨labels, assembly, makes⟩ := codeBody_assembled once written
  obtain ⟨same, framed⟩ :=
    makes.isFramed labels (computeFrames_follows given once computed) known writes
  obtain ⟨bytecode, handlers⟩ := makes.reads_body framed
  subst same
  refine ⟨assembly, makes, ?_, ?_, handlers, ?_, makes.namesCaught wf, ?_, ?_⟩
  · intro index bytes reached found
    obtain ⟨op, got⟩ := framed.op_of_reaches reached
    rw [bytecode, slice, framed.bytecode_slice got, Written.bytesAt,
      if_pos (framed.isKept_iff.mpr reached)]
    rw [Layout.bytes, getElem?_map, getElem?_zipIdx, got] at found
    simpa using found
  · intro first last run
    rw [bytecode]
    exact ⟨framed.slice_dead run, framed.deadFrame_mem (makes.frames_eq framed.frames) run⟩
  · exact (makes.isHandledBy framed).imp fun _ _ known => known.2
  · obtain ⟨_, _, ran⟩ := makes.notes
    exact typeAnnotations_ok ran
  · intro dead
    rw [framed.lowered.length_eq] at dead
    rw [makes.stackOf_eq, makes.stack, maxStack, if_pos (framed.hasReplaced_iff.mpr dead)]
    exact one_le_max _

/-- The code that is jumped over is replaced, and one of the handlers is left, in two parts. -/
theorem codeBody_replaces_deadEnd : ∃ (body : List UInt8) (state' : State) (assembly : Assembly),
    codeBody .standard .deadEnd ⟨some .deadEnd, true⟩ {} = .ok body state' ∧
      assembly.Makes .deadEnd ⟨some .deadEnd, true⟩ {} body state' ∧
      assembly.Replaces .deadEnd body state'.pool := by
  obtain ⟨body, state', written⟩ := codeBody_deadEnd
  obtain ⟨assembly, makes, replaces⟩ :=
    @codeBody_replaces {} .deadEnd .deadEnd .deadEnd ⟨some .deadEnd, true⟩ {} {} {} state' body rfl
      Code.deadEnd_bindsOnce analyze_deadEnd rfl PoolBuilder.empty_wellFormed written
  exact ⟨body, state', assembly, written, makes, replaces⟩

end Encode

end JvmAsm
