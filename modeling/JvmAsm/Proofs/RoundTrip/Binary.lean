/-
Holds the round trips through class files: what has been assembled from text, or read from a class
file, is read again from the bytes that it is encoded as.
-/
import JvmAsm.Proofs.Decode.ClassFormed
import JvmAsm.Proofs.Text.Parsed

namespace JvmAsm

open List Encode Code

/--
Code that class files can hold as it is: no label at its end is used where an instruction has to
stand, and its local variables can be told apart and have types.
-/
structure Code.IsPlain (code : Code) : Prop where
  nested : code.IsNested
  starts : ∀ label ∈ code.startReferences, code.lastLabel ≠ some label
  shallow : ∀ note ∈ code.notes, note.note.IsShallow
  typed : ∀ entry ∈ code.localVariables, entry.type.isSome = true
  distinct : (code.localVariables.map LocalVariable.key).Nodup
  others : ∀ kept ∈ code.attributes, kept.name ∉ Decode.CodeTables.names

lemma Code.IsPlain.isReadable {code : Code} (plain : code.IsPlain) (formed : code.IsFormed) :
    code.IsReadable where
  canonical := formed.canonical
  nested := plain.nested
  starts := plain.starts
  handled := formed.handled
  shallow := plain.shallow
  merged := ⟨code.localVariables, [], (append_nil _).symm,
    Decode.CodeTables.isMerged_of_unique plain.typed plain.distinct⟩
  others := plain.others

lemma ClassFile.IsReadable.imp {known better : Code → Prop} {value : ClassFile}
    (readable : value.IsReadable known)
    (implies : ∀ method ∈ value.methods, ∀ code, method.code = some code → known code → better code) :
    value.IsReadable better :=
  { readable with
    methods := fun method mem =>
      { readable.methods method mem with
        code := fun code given =>
          implies method mem code given ((readable.methods method mem).code code given) } }

def ClassFile.GivesSizes (value : ClassFile) : Prop :=
  ∀ method ∈ value.methods, ∀ code, method.code = some code →
    code.maxStack.isSome = true ∧ code.maxLocals.isSome = true

lemma Encode.reachesAll_of_given {options : EncodeOptions} {value : ClassFile}
    (off : options.computeFrames = false) (given : value.GivesSizes) :
    ReachesAll options value := by
  intro method mem state analysis state' ran table computed
  rw [analyze_given off (given method mem)] at ran
  cases ran
  contradiction

lemma Code.IsFilled.eq_of_given {code filled : Code} (fills : code.IsFilled filled)
    (stack : code.maxStack.isSome = true) (locals : code.maxLocals.isSome = true) :
    filled = code := by
  obtain ⟨maxStack, given⟩ := Option.isSome_iff_exists.mp stack
  obtain ⟨maxLocals, given'⟩ := Option.isSome_iff_exists.mp locals
  obtain ⟨_, _, rfl, same, same'⟩ := fills
  rw [same _ given, same' _ given', ← given, ← given']

lemma ClassFile.IsFilled.eq_of_given {value filled : ClassFile} (fills : value.IsFilled filled)
    (given : value.GivesSizes) : filled = value := by
  obtain ⟨methods, each, rfl⟩ := fills
  have same : value.methods = methods := by
    rw [← forall₂_eq_eq_eq]
    refine ((forall₂_and_left _ _).mpr ⟨given, each⟩).imp ?_
    rintro method _ ⟨sizes, code, fills, rfl⟩
    cases found : method.code with
    | none =>
      rw [found] at fills
      cases fills
      rw [← found]
    | some original =>
      rw [found] at fills
      obtain ⟨stack, locals⟩ := sizes original found
      cases fills with
      | some fills => rw [fills.eq_of_given stack locals, ← found]
  rw [← same]

section Idle

open Binary Encode Text

/-- Returns at once. -/
def Code.idle (size : Option UInt16) : Code where
  maxStack := size
  maxLocals := size
  instructions := [⟨none, .simple .returnVoid⟩]

def Method.idle (size : Option UInt16) : Method where
  access := ⟨8⟩
  name := ⟨"f", by decide +kernel⟩
  descriptor := ⟨[], none⟩
  code := some (.idle size)

def ClassFile.idle (size : Option UInt16) : ClassFile where
  version := .standard
  access := ⟨0⟩
  name := .object ⟨"A", Eq.refl true⟩
  superClass := none
  interfaces := []
  methods := [.idle size]

def idleText : String := "class A \x7b\n\tstatic f()V \x7b\n\t\tRETURN\n\t\x7d\n\x7d\n"

def idleBytes : List UInt8 :=
  [0xca, 0xfe, 0xba, 0xbe, 0, 0, 0, 52, 0, 6, 1, 0, 1, 65, 7, 0, 1, 1, 0, 1, 102, 1, 0, 3, 40, 41,
    86, 1, 0, 4, 67, 111, 100, 101, 0, 0, 0, 2, 0, 0, 0, 0, 0, 0, 0, 1, 0, 8, 0, 3, 0, 4, 0, 1, 0,
    5, 0, 0, 0, 13, 0, 0, 0, 0, 0, 0, 0, 1, 0xb1, 0, 0, 0, 0, 0, 0]

def FrameTable.idle : FrameTable := ⟨⟨[], []⟩, #[some ⟨[], []⟩], [], 0, 0⟩

namespace Single

/-- The first lines of a class, up to its method. -/
def opening : List Line :=
  [⟨1, [⟨.word "class", 1⟩, ⟨.word "A", 7⟩, ⟨.mark .openBrace, 9⟩], 10⟩,
    ⟨2, [⟨.word "static", 2⟩, ⟨.word "f()V", 9⟩, ⟨.mark .openBrace, 14⟩], 15⟩]

/-- The class while the code of its method is read. -/
def begun (code : CodeDraft) : Text.Part :=
  .code { declared := { ClassFile.idle none with methods := [] } }
    { Method.idle none with code := none } code

lemma foldlM_opening : opening.foldlM nextPart (.header none none {}) = .ok (begun {}) := by
  cbv

lemma nextPart_return : nextPart (begun {}) ⟨3, [⟨.word "RETURN", 3⟩], 9⟩ =
    .ok (begun { instructions := #[.simple .returnVoid] }) := by
  cbv

end Single

lemma parse_of_opening {text : String} {rest : List Line} {value : ClassFile}
    (divided : tokenLines (lines text.toList) =
      .ok (Single.opening ++ ⟨3, [⟨.word "RETURN", 3⟩], 9⟩ :: rest))
    (read : rest.foldlM nextPart (Single.begun { instructions := #[.simple .returnVoid] }) =
      .ok (.finished value)) : Text.parse text = .ok value := by
  refine ok_bind_iff.mpr ⟨_, divided, ok_bind_iff.mpr ⟨.finished value, ?_, rfl⟩⟩
  rw [foldlM_append, Single.foldlM_opening]
  exact ok_bind_iff.mpr ⟨_, rfl, ok_bind_iff.mpr ⟨_, Single.nextPart_return, read⟩⟩

lemma parse_idleText : Text.parse idleText = .ok (.idle none) :=
  @parse_of_opening _ [⟨4, [⟨.mark .closeBrace, 2⟩], 3⟩, ⟨5, [⟨.mark .closeBrace, 1⟩], 2⟩] _
    (by cbv) (by cbv)

lemma encode_idle : encode {} (.idle none) = .ok idleBytes := by
  cbv

lemma Encode.analyze_idle (state : State) :
    analyze {} (.idle none) (.idle none) state = .ok ⟨some .idle, true⟩ state := by
  cbv

lemma Encode.reachesAll_idle : ReachesAll {} (.idle none) := by
  intro method mem state analysis state' ran table computed
  cases mem_singleton.mp mem
  rw [analyze_idle] at ran
  cases ran
  cases computed
  decide +kernel

lemma codeLengths_idleBytes : ∀ length ∈ codeLengths idleBytes, length ≤ 32767 := by
  decide +kernel

/-- A static method without parameters and without a result. -/
def Method.single (code : Code) : Method where
  access := ⟨8⟩
  name := ⟨"f", by decide +kernel⟩
  descriptor := ⟨[], none⟩
  code := some code

def ClassFile.single (code : Code) : ClassFile where
  version := .standard
  access := ⟨0⟩
  name := .object ⟨"A", Eq.refl true⟩
  superClass := none
  interfaces := []
  methods := [.single code]

/-- Nothing but the code of a class with a single method can keep it from being read. -/
lemma ClassFile.single_isReadable {known : Code → Prop} {code : Code} (holds : known code) :
    (ClassFile.single code).IsReadable known where
  version := (by decide : Version.oldestMajor ≤ Version.standard.major)
  fields := by simp [ClassFile.single]
  methods := by
    intro method mem
    cases mem_singleton.mp mem
    refine ⟨?_, by simp [AreShallow, notesOf, Method.single],
      by simp [AreShallowLists, Method.single], by simp [AreShallowLists, Method.single],
      by simp [Method.single], by simp [Method.single]⟩
    rintro _ ⟨⟩
    exact holds
  components := by simp [ClassFile.single]
  shallow := by simp [AreShallow, notesOf, ClassFile.single]
  others := by simp [ClassFile.single]

lemma ClassFile.idle_isPlain (size : Option UInt16) :
    (ClassFile.idle size).IsReadable Code.IsPlain :=
  ClassFile.single_isReadable
    ⟨by simp [Code.IsNested, Code.idle, Instruction.dynamicDepth],
      by simp [Code.startReferences, Code.notes, Code.idle, Instruction.targets],
      by simp [Code.notes, Code.idle], by simp [Code.idle], by simp [Code.idle],
      by simp [Code.idle]⟩

/-- The sizes are known from the analysis, so the class is read with them. -/
lemma decode_idleBytes : decode idleBytes = .ok (.idle (some 0)) := by
  cbv

end Idle

/--
What is assembled from text is read again from its bytes, with the sizes of the stack and of the
local variables filled in.
-/
theorem decode_encode_of_parse {text : String} {value : ClassFile} {bytes : List UInt8}
    (parsed : Text.parse text = .ok value) (plain : value.IsReadable Code.IsPlain)
    (encoded : encode {} value = .ok bytes)
    (short : ∀ length ∈ codeLengths bytes, length ≤ 32767)
    (reached : Encode.ReachesAll {} value) :
    ∃ filled, value.IsFilled filled ∧ decode bytes = .ok filled := by
  have formed := Text.parse_isFormed parsed
  have readable : value.IsReadable Code.IsReadable :=
    plain.imp fun method mem code given isPlain =>
      isPlain.isReadable ((formed.methods method mem).code code given)
  exact decode_encode readable reached encoded short

/-- A class with a method that returns at once, from its text to its bytes and back. -/
theorem decode_encode_of_parse_idleText :
    Text.parse idleText = .ok (.idle none) ∧ encode {} (.idle none) = .ok idleBytes ∧
      ∃ filled, (ClassFile.idle none).IsFilled filled ∧ decode idleBytes = .ok filled :=
  ⟨parse_idleText, encode_idle, decode_encode_of_parse parse_idleText
    (ClassFile.idle_isPlain none) encode_idle codeLengths_idleBytes reachesAll_idle⟩

/-- What is read from bytes is read again from the bytes that it is encoded as. -/
theorem decode_encode_of_decode {bytes again : List UInt8} {value : ClassFile}
    {options : EncodeOptions} (decoded : decode bytes = .ok value)
    (off : options.computeFrames = false) (encoded : encode options value = .ok again)
    (short : ∀ length ∈ codeLengths again, length ≤ 32767) : decode again = .ok value := by
  obtain ⟨readable, -⟩ := decode_isRead decoded
  have given : value.GivesSizes := by
    intro method mem code found
    have isRead := (readable.methods method mem).code code found
    exact ⟨isRead.maxStack, isRead.maxLocals⟩
  obtain ⟨filled, fills, result⟩ := decode_encode
    (readable.imp fun _ _ _ _ isRead => isRead.readable) (reachesAll_of_given off given)
    encoded short
  rw [result, fills.eq_of_given given]

/-- The class with a method that returns at once is encoded as the bytes that it is read from. -/
theorem decode_encode_of_decode_idleBytes :
    encode { computeFrames := false } (.idle (some 0)) = .ok idleBytes ∧
      decode idleBytes = .ok (.idle (some 0)) :=
  have encoded : encode { computeFrames := false } (.idle (some 0)) = .ok idleBytes := by cbv
  ⟨encoded, decode_encode_of_decode decode_idleBytes rfl encoded codeLengths_idleBytes⟩

/-- Returns, so that the constant after it is never reached. -/
def Code.deadConstant : Code where
  instructions := [⟨none, .simple .returnVoid⟩, ⟨none, .constant (.string ⟨[120]⟩)⟩]

def deadConstantText : String :=
  "class A \x7b\n\tstatic f()V \x7b\n\t\tRETURN\n\t\tLDC \"x\"\n\t\x7d\n\x7d\n"

lemma parse_deadConstantText : Text.parse deadConstantText = .ok (.single .deadConstant) :=
  @parse_of_opening _ [⟨4, [⟨.word "LDC", 3⟩, ⟨.string ⟨[120]⟩, 7⟩], 10⟩,
    ⟨5, [⟨.mark .closeBrace, 2⟩], 3⟩, ⟨6, [⟨.mark .closeBrace, 1⟩], 2⟩] _ (by cbv) (by cbv)

def deadConstantBytes : List UInt8 :=
  [0xca, 0xfe, 0xba, 0xbe, 0, 0, 0, 52, 0, 11, 1, 0, 1, 65, 7, 0, 1, 1, 0, 1, 102, 1, 0, 3, 40, 41,
    86, 1, 0, 1, 120, 8, 0, 5, 1, 0, 19, 106, 97, 118, 97, 47, 108, 97, 110, 103, 47, 84, 104, 114,
    111, 119, 97, 98, 108, 101, 7, 0, 7, 1, 0, 13, 83, 116, 97, 99, 107, 77, 97, 112, 84, 97, 98,
    108, 101, 1, 0, 4, 67, 111, 100, 101, 0, 0, 0, 2, 0, 0, 0, 0, 0, 0, 0, 1, 0, 8, 0, 3, 0, 4, 0,
    1, 0, 10, 0, 0, 0, 27, 0, 1, 0, 0, 0, 0, 0, 3, 0xb1, 0, 0xbf, 0, 0, 0, 1, 0, 9, 0, 0, 0, 6, 0,
    1, 65, 7, 0, 8, 0, 0]

/-- What is written for the code whose constant is never reached. -/
def Code.deadThrow : Code where
  maxStack := some 1
  maxLocals := some 0
  instructions := [⟨none, .simple .returnVoid⟩, ⟨none, .simple .nop⟩, ⟨none, .simple .athrow⟩]

/-- The constant of replaced code stays in the pool, from which it is gone after it is read again. -/
theorem not_encode_reread_deadConstant :
    Text.parse deadConstantText = .ok (.single .deadConstant) ∧
      encode {} (.single .deadConstant) = .ok deadConstantBytes ∧
      decode deadConstantBytes = .ok (.single .deadThrow) ∧
      encode {} (.single .deadThrow) ≠ .ok deadConstantBytes := by
  refine ⟨parse_deadConstantText, by cbv, by set_option maxRecDepth 1000 in cbv, fun same => ?_⟩
  have short : (encode {} (.single .deadThrow)).map List.length = .ok 130 := by cbv
  rw [same] at short
  exact absurd (Except.ok.inj short : deadConstantBytes.length = 130) (by decide +kernel)

end JvmAsm
