/-
Takes the body of code apart into what it has been put together from, and says where the parts stand
in its bytes.
-/
import JvmAsm.Proofs.Encode.ExceptionTable
import JvmAsm.Proofs.Encode.FrameList

namespace JvmAsm

open UInt16
open List hiding Cursor.at

namespace Encode

open Binary Bytecode

section Runs

variable {α : Type} {state state' : State}

/-- The number of some values is written before them. -/
lemma list16_ok {cause : EncodingCause} {xs : List α} {encoder : α → Encoder (List UInt8)}
    {bytes : List UInt8} (ran : list16 cause xs encoder state = .ok bytes state') :
    xs.length ≤ 0xffff ∧ ∃ chunks, xs.mapM encoder state = .ok chunks state' ∧
      bytes = bytes16 (ofNat xs.length) ++ chunks.flatten := by
  obtain ⟨count, between, counted, ran⟩ := ran_parts ran
  obtain ⟨sized, rfl⟩ := ofResult_ok (within_ok counted)
  obtain ⟨fits, rfl⟩ := size16_ok sized
  obtain ⟨contents, _, encoded, ran⟩ := ran_parts ran
  obtain ⟨chunks, _, mapped, encoded⟩ := ran_parts encoded
  obtain ⟨rfl, rfl⟩ := ran_pure_iff.mp encoded
  obtain ⟨rfl, rfl⟩ := ran_pure_iff.mp ran
  exact ⟨fits, chunks, mapped, rfl⟩

lemma list16_pure {cause : EncodingCause} {xs : List α} {bytesOf : α → List UInt8}
    {bytes : List UInt8}
    (ran : list16 cause xs (fun value => return bytesOf value) state = .ok bytes state') :
    xs.length ≤ 0xffff ∧
      bytes = bytes16 (ofNat xs.length) ++ (xs.map bytesOf).flatten := by
  obtain ⟨fits, chunks, mapped, rfl⟩ := list16_ok ran
  rw [mapM_pure] at mapped
  obtain ⟨rfl, -⟩ := ran_pure_iff.mp mapped
  exact ⟨fits, rfl⟩

lemma mapM_id_cons {encoder : Encoder α} {rest : List (Encoder α)} {results : List α}
    (ran : (encoder :: rest).mapM id state = .ok results state') :
    ∃ first more between, encoder state = .ok first between ∧
      rest.mapM id between = .ok more state' ∧ results = first :: more := by
  rw [mapM_cons] at ran
  obtain ⟨first, between, encoded, ran⟩ := ran_parts ran
  obtain ⟨more, _, mapped, ran⟩ := ran_parts ran
  obtain ⟨rfl, rfl⟩ := ran_pure_iff.mp ran
  exact ⟨first, more, between, encoded, mapped, rfl⟩

end Runs

section Reading

/-- Reads an entry of the exception table as it is. -/
def entryReader : ByteReader HandlerEntry := do
  let start ← ByteReader.u16
  let stop ← ByteReader.u16
  let handler ← ByteReader.u16
  let caught ← ByteReader.u16
  return ⟨start.toNat, stop.toNat, handler.toNat, caught⟩

/-- Reads the exception table out of the body of code. -/
def handlersReader : ByteReader (List HandlerEntry) := do
  let _ ← bytecodeReader
  ByteReader.list16 entryReader

/-- The exception table in the body of code. -/
def handlersOf (body : List UInt8) : List HandlerEntry :=
  match handlersReader (Cursor.at body 0) with
  | .ok found _ => found
  | .error _ _ => []

/-- The size of the stack in the body of code. -/
def stackOf (body : List UInt8) : UInt16 :=
  match ByteReader.u16 (Cursor.at body 0) with
  | .ok found _ => found
  | .error _ _ => 0

/-- An entry has only offsets that fit into two bytes. -/
structure HandlerEntry.Fits (entry : HandlerEntry) : Prop where
  start : entry.start < 0x10000
  stop : entry.stop < 0x10000
  handler : entry.handler < 0x10000

lemma HandlerEntry.Fits.reads {entry : HandlerEntry} (fits : entry.Fits) :
    Reads entryReader entry.bytes entry := by
  have read : Reads entryReader entry.bytes
      ⟨(ofNat entry.start).toNat, (ofNat entry.stop).toNat,
        (ofNat entry.handler).toNat, entry.caught⟩ := by
    rw [HandlerEntry.bytes, append_assoc, append_assoc]
    exact (Reads.u16 _).bind ((Reads.u16 _).bind ((Reads.u16 _).bind
      ((Reads.u16 _).made _)))
  rwa [toNat_ofNat_of_lt' fits.start, toNat_ofNat_of_lt' fits.stop,
    toNat_ofNat_of_lt' fits.handler] at read

end Reading

/-- What the body of code is put together from. -/
structure Assembly where
  written : Written
  entry : List StackMap.Item
  frames : List StackMap.MapFrame
  lists : List (List HandlerEntry)
  stack : UInt16
  locals : UInt16
  stackMap : List (List UInt8)
  tables : List (List UInt8)
  notes : List (List UInt8)
  others : List (List UInt8)

namespace Assembly

def handlers (assembly : Assembly) : List UInt8 :=
  bytes16 (ofNat assembly.lists.flatten.length) ++
    (assembly.lists.flatten.map HandlerEntry.bytes).flatten

def attributes (assembly : Assembly) : List UInt8 :=
  let found := assembly.stackMap ++ assembly.tables ++ assembly.notes ++ assembly.others
  bytes16 (ofNat found.length) ++ found.flatten

def bytes (assembly : Assembly) : List UInt8 :=
  bytes16 assembly.stack ++ (bytes16 assembly.locals ++
    (bytes32 (UInt32.ofNat assembly.written.bytecode.length) ++
      (assembly.written.bytecode ++ (assembly.handlers ++ assembly.attributes))))

/-- The parts of the body of code are those that have been found for it. -/
structure Makes (assembly : Assembly) (code : Code) (analysis : Analysis) (state : State)
    (body : List UInt8) (state' : State) : Prop where
  body : body = assembly.bytes
  placed : ∃ ops layout state', layOut code state = .ok (ops, layout) state' ∧
    assembly.written = .placed code analysis ops layout
  frames : ∃ before after, writtenFrames assembly.written before =
    .ok (assembly.entry, assembly.frames) after
  lists : Forall₂ (fun handler entries => ∃ before after,
    handlerEntries assembly.written handler before = .ok entries after) code.handlers assembly.lists
  handled : state.pool.WellFormed →
    HandlesAll assembly.written code.handlers assembly.lists state'.pool
  fits : assembly.lists.flatten.length ≤ 0xffff
  stack : assembly.stack = maxStack assembly.written analysis
  stackMap : ∃ before after, stackMapTable assembly.entry assembly.frames before =
    .ok assembly.stackMap after
  notes : ∃ before after, typeAnnotations (keepHandled (firstEntries assembly.lists))
    (codeTarget assembly.written (firstEntries assembly.lists)) code.typeAnnotations before =
      .ok assembly.notes after

end Assembly

variable {version : Version} {code : Code} {analysis : Analysis} {state state' : State}
  {body : List UInt8}

/-- The body of code has been put together from its parts. -/
lemma codeBody_assembled (once : code.BindsOnce)
    (ran : codeBody version code analysis state = .ok body state') :
    code.checkLabels = .ok () ∧
      ∃ assembly : Assembly, assembly.Makes code analysis state body state' := by
  rw [codeBody_eq] at ran
  obtain ⟨_, _, checked, rest⟩ := ran_parts ran
  obtain ⟨⟨ops, layout⟩, _, laidOut, ran⟩ := ran_parts rest
  rw [checkCode_keeps checked] at laidOut
  obtain ⟨_, _, labels, _⟩ := ran_parts checked
  refine ⟨(ofResult_ok labels).1, ?_⟩
  obtain ⟨⟨entry, frames⟩, _, framed, ran⟩ := ran_parts ran
  obtain ⟨locals, _, sized, ran⟩ := ran_parts ran
  obtain ⟨lists, _, mapped, ran⟩ := ran_parts ran
  obtain ⟨handlers, _, listed, ran⟩ := ran_parts ran
  obtain ⟨tables, final, attributes, ran⟩ := ran_parts ran
  obtain ⟨rfl, rfl⟩ := ran_pure_iff.mp ran
  -- The pool only grows while the handlers and what follows them are written.
  have handled (wf : state.pool.WellFormed) :
      HandlesAll (.placed code analysis ops layout) code.handlers lists final.pool := by
    have found := (layOut_lowered once laidOut).2
    obtain ⟨wf, -⟩ := (layOut_yields once).ran wf laidOut
    obtain ⟨wf, -⟩ := (writtenFrames_yields _).ran wf framed
    obtain ⟨wf, -⟩ := (maxLocals_yields _ _).ran wf sized
    obtain ⟨wf, -, handled⟩ := (Yields.mapM fun handler _ =>
      handlerEntries_yields (.placed code analysis ops layout) handler).ran wf mapped
    obtain ⟨wf, grown, counted⟩ := handlerTable_yields found _ _ _ wf
      (fun later more => ⟨trivial, handled later more⟩) listed
    have names := HandlesAll.namesFirst (handled _ grown) (counted _ (.refl _)).1
    obtain ⟨-, grown', -⟩ :=
      (Written.tables_yields found names entry frames).ran wf attributes
    exact handled _ (grown.trans grown')
  obtain ⟨fits, rfl⟩ := list16_pure listed
  obtain ⟨found, _, each, attributes⟩ := ran_parts attributes
  obtain ⟨count, _, counted, attributes⟩ := ran_parts attributes
  obtain ⟨sized, rfl⟩ := ofResult_ok (within_ok counted)
  obtain ⟨-, rfl⟩ := size16_ok sized
  obtain ⟨rfl, -⟩ := ran_pure_iff.mp attributes
  obtain ⟨stackMap, _, _, first, fromLines, rfl⟩ := mapM_id_cons each
  obtain ⟨lines, _, _, _, fromTypes, rfl⟩ := mapM_id_cons fromLines
  obtain ⟨types, _, _, _, fromSignatures, rfl⟩ := mapM_id_cons fromTypes
  obtain ⟨signatures, _, _, _, fromNotes, rfl⟩ := mapM_id_cons fromSignatures
  obtain ⟨notes, _, _, noted, fromOthers, rfl⟩ := mapM_id_cons fromNotes
  obtain ⟨others, _, _, _, last, rfl⟩ := mapM_id_cons fromOthers
  obtain ⟨rfl, -⟩ := ran_pure_iff.mp last
  refine ⟨⟨.placed code analysis ops layout, entry, frames, lists,
    maxStack (.placed code analysis ops layout) analysis, locals, stackMap,
    lines ++ types ++ signatures, notes, others⟩, ?_, ⟨ops, layout, _, laidOut, rfl⟩,
    ⟨_, _, framed⟩, ran_mapM mapped, handled, fits, rfl, ⟨_, _, first⟩, ⟨_, _, noted⟩⟩
  simp [Assembly.bytes, Assembly.handlers, Assembly.attributes]

namespace Assembly.Makes

variable {assembly : Assembly} {table : FrameTable}

lemma isFramed (makes : assembly.Makes code analysis state body state')
    (labels : code.checkLabels = .ok ()) (follows : table.Follows code)
    (computed : analysis.computed = some table) (writes : analysis.writesFrames = true) :
    assembly.written.code = code ∧ assembly.written.IsFramed table := by
  obtain ⟨ops, layout, _, laidOut, same⟩ := makes.placed
  obtain ⟨lowered, found⟩ := layOut_lowered follows.once laidOut
  rw [same]
  refine ⟨rfl, ?_, follows, lowered, found, rfl, follows.once.checkLabels_ok.mp labels⟩
  change (if analysis.writesFrames then analysis.computed else none) = some table
  rw [if_pos writes, computed]

variable (makes : assembly.Makes code analysis state body state')
  (framed : assembly.written.IsFramed table)

include makes in
lemma frames_eq (frames : assembly.written.frames = some table) :
    assembly.written.mapFrames table = .ok assembly.frames := by
  obtain ⟨_, _, ran⟩ := makes.frames
  rw [writtenFrames, frames] at ran
  obtain ⟨frames, _, mapped, ran⟩ := ran_parts ran
  obtain ⟨entry, _, _, ran⟩ := ran_parts ran
  obtain ⟨same, -⟩ := ran_pure_iff.mp ran
  rw [(ofResult_ok mapped).1, (Prod.mk.inj same).2]

include makes in
lemma stackOf_eq : stackOf body = assembly.stack := by
  rw [stackOf, makes.body, Assembly.bytes, Reads.u16 _ 0 (Cursor.at _ 0) _ rfl rfl]

include makes framed

lemma isHandledBy : Forall₂ (fun handler entries =>
    handler ∈ assembly.written.code.handlers ∧ assembly.written.IsHandledBy handler entries)
      code.handlers assembly.lists := by
  obtain ⟨_, _, _, _, same⟩ := makes.placed
  have whole : assembly.written.code = code := by rw [same]; rfl
  refine ((forall₂_and_left _ _).mpr ⟨fun handler listed => listed, makes.lists⟩).imp ?_
  rintro handler entries ⟨listed, _, _, ran⟩
  rw [← whole] at listed
  exact ⟨listed, framed.handlerEntries_ok listed ran⟩

omit framed in
/-- The entries of a handler name what it catches, in the pool that has been written in the end. -/
lemma namesCaught (wf : state.pool.WellFormed) :
    Forall₂ (Written.NamesCaught state'.pool) code.handlers assembly.lists := by
  refine (makes.handled wf).imp ?_
  rintro handler entries ⟨_, caught, rfl, known⟩ entry mem
  obtain ⟨run, _, rfl⟩ := mem_map.mp mem
  exact known

lemma entry_fits {entry : HandlerEntry} (mem : entry ∈ assembly.lists.flatten) :
    entry.Fits := by
  obtain ⟨entries, listed, mem⟩ := mem_flatten.mp mem
  obtain ⟨handler, _, _, handled⟩ := forall₂_mem_right (makes.isHandledBy framed) listed
  obtain ⟨requested, places⟩ := framed.found.places
  have small : assembly.written.layout.stop ≤ 0xffff := framed.found.stop_le
  obtain ⟨index, _, _, less, last⟩ := handled.starts entry mem
  have target : entry.handler ≤ assembly.written.layout.stop := by
    rw [handled.target entry mem]
    exact places.offset_le_stop _
  exact ⟨by omega, by omega, by omega⟩

/-- The bytecode and the exception table are read out of the body as they have been written. -/
lemma reads_body : bytecodeOf body = assembly.written.bytecode ∧
    handlersOf body = assembly.lists.flatten := by
  have small : assembly.written.bytecode.length < 0x100000000 := by
    have stop : assembly.written.layout.stop ≤ 0xffff := framed.found.stop_le
    rw [Written.bytecode_length framed.found]
    omega
  have contents := Reads.bytes assembly.written.bytecode
  rw [← UInt32.toNat_ofNat_of_lt' small] at contents
  have bytecode : Reads bytecodeReader ((bytes16 assembly.stack ++ bytes16 assembly.locals) ++
      (bytes32 (UInt32.ofNat assembly.written.bytecode.length) ++ assembly.written.bytecode))
      assembly.written.bytecode :=
    (Reads.skip (bytes16 assembly.stack ++ bytes16 assembly.locals)).bind
      ((Reads.u32 _).bind contents)
  have entries : Forall₂ (Reads entryReader)
      (assembly.lists.flatten.map HandlerEntry.bytes) assembly.lists.flatten := by
    rw [forall₂_map_left_iff, forall₂_same]
    exact fun entry mem => (makes.entry_fits framed mem).reads
  have both : Reads handlersReader _ _ := bytecode.bind (Reads.list16 entries makes.fits)
  rw [bytecodeOf, handlersOf, makes.body,
    bytecode 0 (Cursor.at _ 0) (assembly.handlers ++ assembly.attributes) rfl
      (by simp [Cursor.at, Assembly.bytes]),
    both 0 (Cursor.at _ 0) assembly.attributes rfl
      (by simp [Cursor.at, Assembly.bytes, Assembly.handlers])]
  exact ⟨rfl, rfl⟩

end Assembly.Makes

section Analysis

variable {options : EncodeOptions} {owner : ClassFile} {method : Method}

/-- Frames are written only if they have been computed. -/
lemma analyze_ok (given : method.code = some code)
    (ran : analyze options owner method state = .ok analysis state')
    (writes : analysis.writesFrames = true) :
    ∃ table, computeFrames options.hierarchy owner.name method = .ok table ∧
      analysis.computed = some table := by
  have isOf := analyze_isOf given ran
  obtain ⟨table, found⟩ := Option.isSome_iff_exists.mp (isOf.known writes)
  exact ⟨table, isOf.computed table found, found⟩

end Analysis

end Encode

section DeadEnd

open Binary Encode

def ClassName.failure : ClassName := .object ⟨"E", Eq.refl true⟩

/--
Jumps over code that is never reached. One handler is for that code only, and the other one for all
of the code before it.
-/
def Code.deadEnd : Code where
  instructions := [⟨some ⟨0⟩, .simple .nop⟩, ⟨none, .goto ⟨2⟩⟩, ⟨some ⟨1⟩, .simple .nop⟩,
    ⟨none, .simple .returnVoid⟩, ⟨some ⟨2⟩, .simple .returnVoid⟩, ⟨some ⟨3⟩, .simple .athrow⟩]
  handlers := [⟨⟨1⟩, ⟨2⟩, ⟨3⟩, none⟩, ⟨⟨0⟩, ⟨3⟩, ⟨3⟩, some .failure⟩]
  typeAnnotations := ⟨[0, 1].map fun index =>
    ⟨.exceptionParameter index, [], ⟨.element (.primitive .int), []⟩⟩, []⟩

lemma Code.deadEnd_bindsOnce : Code.deadEnd.BindsOnce := by
  unfold BindsOnce
  decide

def Method.deadEnd : Method where
  access := ⟨8⟩
  name := ⟨"run", by decide +kernel⟩
  descriptor := ⟨[], none⟩
  code := some .deadEnd

def FrameTable.deadEnd : FrameTable where
  entry := ⟨[], []⟩
  frames := #[some ⟨[], []⟩, some ⟨[], []⟩, none, none, some ⟨[], []⟩, some ⟨[], [.object .failure]⟩]
  required := [4, 5]
  maxStack := 1
  maxLocals := 0

def ClassFile.deadEnd : ClassFile where
  version := .standard
  access := ⟨0⟩
  name := .root
  superClass := none
  interfaces := []
  methods := [.deadEnd]

lemma Encode.analyze_deadEnd :
    analyze {} .deadEnd .deadEnd {} = .ok ⟨some .deadEnd, true⟩ {} := by
  cbv

lemma Encode.codeBody_deadEnd : ∃ body state',
    codeBody .standard .deadEnd ⟨some .deadEnd, true⟩ {} = .ok body state' :=
  exists_ran (by cbv)

end DeadEnd

end JvmAsm
