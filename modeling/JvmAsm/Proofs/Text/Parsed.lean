/- Says what holds for all classes that are read from texts. -/
import JvmAsm.Proofs.Text.Labels

namespace JvmAsm.Text

open Number LineReader List Option

variable {source : List (List Char)}

lemma Line.IsOf.start {line : Line} (isOf : line.IsOf source) : IsPlace source line.number 1 :=
  (isOf.place [] nil_suffix).start

namespace Directives

/-- What holds for the directives that have been read. -/
structure IsSound (source : List (List Char)) (directives : Directives) : Prop where
  visible : ∀ lists, directives.visibleParameters = some lists → lists.size ≤ 0xff
  invisible : ∀ lists, directives.invisibleParameters = some lists → lists.size ≤ 0xff
  types : ∀ pending ∈ directives.typeAnnotations,
    pending.note.target ≠ .implements 0xffff ∧ IsPlace source pending.line 1
  line : ∀ number, directives.line = some number → IsPlace source number 1
  methodLine : ∀ number, directives.methodLine = some number → IsPlace source number 1

lemma empty_isSound : ({} : Directives).IsSound source := by
  constructor <;> simp

end Directives

/-- Interfaces are counted up to the index that stands for the superclass. -/
lemma memberTarget_gives : Gives memberTarget fun target => target ≠ .implements 0xffff := by
  refine .after fun text => ?_
  split_ifs
  · exact .after fun _ => .pure (by simp)
  · exact .after fun _ => .after fun _ => .pure (by simp)
  · exact .pure (by simp)
  · refine .after fun index => ?_
    split
    · exact Gives.refusal
    · next other => exact .pure (by simpa using other)
  · exact .pure (by simp)
  · exact .pure (by simp)
  · exact .pure (by simp)
  · exact .after fun _ => .pure (by simp)
  · exact .after fun _ => .pure (by simp)
  · exact .throw

namespace Directives

variable {directives : Directives} {number : Nat}

lemma IsSound.setParameterLists (sound : directives.IsSound source) (visible : Bool)
    {lists : Array (Array Annotation)} (small : lists.size ≤ 0xff) :
    (directives.setParameterLists visible lists).IsSound source := by
  cases visible with
  | true => exact { sound with visible := fun _ given => some.inj given ▸ small }
  | false => exact { sound with invisible := fun _ given => some.inj given ▸ small }

lemma IsSound.parameterLists (sound : directives.IsSound source) {visible : Bool}
    {lists : Array (Array Annotation)} (given : directives.parameterLists visible = some lists) :
    lists.size ≤ 0xff := by
  cases visible with
  | true => exact sound.visible lists given
  | false => exact sound.invisible lists given

lemma isPlace_or {given : Option Nat} (here : IsPlace source number 1)
    (places : ∀ number, given = some number → IsPlace source number 1) :
    ∀ other, given.or (some number) = some other → IsPlace source other 1 := by
  intro other found
  rcases or_eq_some_iff.mp found with early | ⟨-, same⟩
  · exact places other early
  · exact some.inj same ▸ here

section

variable (sound : directives.IsSound source)
include sound

lemma IsSound.forMethods (here : IsPlace source number 1) :
    (directives.forMethods number).IsSound source :=
  { sound with methodLine := isPlace_or here sound.methodLine }

lemma parameterAnnotation_gives (visible : Bool) :
    Gives (directives.parameterAnnotation visible) (IsSound source) := by
  refine .after fun index => ?_
  split
  · exact .throw
  · next lists given =>
    split
    · refine .after fun note => .pure (sound.setParameterLists visible ?_)
      rw [Array.size_modify]
      exact sound.parameterLists given
    · exact .throw

lemma plainAnnotation_gives (visible : Bool) :
    Gives (directives.plainAnnotation visible) (IsSound source) := by
  refine .after fun note => .pure ?_
  cases visible with
  | true => exact { sound with }
  | false => exact { sound with }

lemma directive_gives (here : IsPlace source number 1) :
    Gives (directives.directive number) (IsSound source) := by
  refine .after fun isInvisible => .after fun text? => ?_
  split
  · exact .after fun _ => .after fun _ => .pure { sound with }
  · exact .after fun _ => .pure { sound with }
  · exact .after fun _ => .pure { sound with }
  · exact .after fun _ => .after fun _ => .pure { sound with }
  · refine .after fun _ => memberTarget_gives.bind fun target fine => .after fun path =>
      .after fun note => .pure { sound with types := fun pending member => ?_ }
    rcases Array.mem_push.mp member with early | rfl
    · exact sound.types pending early
    · exact ⟨fine, here⟩
  · refine .after fun _ => .after fun count => .pure ((sound.setParameterLists _ ?_).forMethods here)
    rw [Array.size_replicate]
    exact Nat.le_of_lt_succ count.toNat_lt
  · exact .after fun _ => (parameterAnnotation_gives sound _).bind fun next fine =>
      .pure (fine.forMethods here)
  · exact .after fun _ => .after fun _ => .pure (IsSound.forMethods { sound with } here)
  · exact .after fun _ => .after fun _ => .pure (IsSound.forMethods { sound with } here)
  · exact plainAnnotation_gives sound _

end

lemma addLine_ends {line : Line} (isOf : line.IsOf source) (sound : directives.IsSound source) :
    Ends source (fun next => next.IsSound source ∧ next.line.isSome = true)
      (directives.addLine line) :=
  (isOf.read (directive_gives sound isOf.start)).bind fun found fine =>
    ⟨{ fine with line := isPlace_or isOf.start fine.line }, by simp⟩

lemma noMethodDirectives_ends (sound : directives.IsSound source) (place : Place) :
    Ends source (fun _ => True) (directives.noMethodDirectives place) := by
  unfold noMethodDirectives
  split
  · next number given => exact .syntaxError rfl (sound.methodLine number given)
  · trivial

lemma fitTypeAnnotations_ends {τ : Type} (sound : directives.IsSound source)
    (fit? : MemberTarget → Option τ) (place : Place) :
    Ends source (fun types => ∀ note ∈ types.visible ++ types.invisible,
        ∃ pending ∈ directives.typeAnnotations, fit? pending.note.target = some note.target)
      (directives.fitTypeAnnotations fit? place) := by
  refine (Ends.mapM (fun pending entry => fit? pending.note.target = some entry.2.target)
    fun pending member => ?_).bind fun entries all note member => ?_
  · split
    · next fits => exact fits
    · exact .syntaxError rfl (sound.types pending (by simpa using member)).2
  · obtain ⟨entry, got, rfl⟩ : ∃ entry ∈ entries, entry.2 = note := by
      rcases mem_append.mp member with seen | unseen
      · obtain ⟨entry, kept, same⟩ := mem_map.mp seen
        exact ⟨entry, mem_of_mem_filter kept, same⟩
      · obtain ⟨entry, kept, same⟩ := mem_map.mp unseen
        exact ⟨entry, mem_of_mem_filter kept, same⟩
    obtain ⟨pending, given, fits⟩ := forall₂_mem_right all got
    exact ⟨pending, by simpa using given, fits⟩

lemma MemberTarget.eq_of_forClass? {target : MemberTarget} {index : UInt16}
    (fits : target.forClass? = some (.implements index)) : target = .implements index := by
  cases target <;> cases fits
  rfl

section

variable (sound : directives.IsSound source)
include sound

lemma applyClass_ends {declared : ClassFile} :
    Ends source (fun applied => ∀ note ∈ applied.typeAnnotations.visible ++
        applied.typeAnnotations.invisible, note.target ≠ .implements 0xffff)
      (directives.applyClass declared) := by
  refine (noMethodDirectives_ends sound _).bind fun _ _ =>
    (fitTypeAnnotations_ends sound _ _).bind fun types fitted note member same => ?_
  obtain ⟨pending, got, fits⟩ := fitted note member
  rw [same] at fits
  exact (sound.types pending got).1 (MemberTarget.eq_of_forClass? fits)

lemma applyField_ends {declared : Field} (formed : declared.IsFormed) : Ends source Field.IsFormed (directives.applyField declared) :=
  (noMethodDirectives_ends sound _).bind fun _ _ =>
    (fitTypeAnnotations_ends sound _ _).bind fun _ _ => formed

lemma applyMethod_ends {declared : Method} (formed : declared.IsFormed) : Ends source Method.IsFormed (directives.applyMethod declared) := by
  refine (fitTypeAnnotations_ends sound _ _).bind fun _ _ =>
    ⟨formed.code, fun lists given => ?_, fun lists given => ?_⟩
  · obtain ⟨found, known, rfl⟩ := map_eq_some_iff.mp given
    simpa using sound.visible found known
  · obtain ⟨found, known, rfl⟩ := map_eq_some_iff.mp given
    simpa using sound.invisible found known

/-- Flags need a line on which they are given. -/
lemma applyRecordComponent_ends {declared : RecordComponent} (flagged : (directives.isDeprecated || directives.isSynthetic) = true →
      directives.line.isSome = true) :
    Ends source (fun _ => True) (directives.applyRecordComponent declared) := by
  refine (noMethodDirectives_ends sound _).bind fun _ _ => ?_
  dsimp only
  split
  · next given =>
    obtain ⟨number, found⟩ := isSome_iff_exists.mp (flagged given)
    rw [found]
    exact .syntaxError rfl (sound.line number found)
  · exact (fitTypeAnnotations_ends sound _ _).bind fun _ _ => trivial

end

end Directives

lemma constantValue_gives (type : FieldType) :
    Gives (constantValue type) fun value => value.fits type = true := by
  have fitting_ok {value found : ConstantValue} (fits : fitting type value = .ok found) :
      found.fits type = true := by
    unfold fitting at fits
    split at fits
    · next holds =>
      cases fits
      exact holds
    · contradiction
  refine .after fun token => ?_
  split
  · exact (ofResult_gives fun _ found => fitting_ok found).bind fun value fits =>
      .after fun _ => .pure fits
  · refine parsed_gives fun text value found => ?_
    obtain ⟨_, _, fits⟩ := ok_parts found
    exact fitting_ok fits

lemma fieldHeader_gives : Gives fieldHeader Field.IsFormed := by
  refine .after fun access => .after fun type =>
    .after fun name => .after fun given => ?_
  split
  · refine (constantValue_gives type).map.bind fun value made => .pure ?_
    obtain ⟨found, fits, rfl⟩ := made
    rintro _ ⟨⟩
    exact fits
  · exact .pure fun _ none => nomatch none

lemma methodHeader_gives : Gives methodHeader fun found => found.1.IsFormed := by
  have rest (access : Flags .methods) (pair : MethodName × MethodDescriptor) :
      Gives (do
          let exceptions ← if ← eatWord "throws" then names className else pure []
          let hasCode ← eatMark .openBrace
          return ({ access, name := pair.1, descriptor := pair.2, exceptions : Method }, hasCode))
        fun found => found.1.IsFormed := by
    refine .after fun throws => ?_
    have formed (exceptions : List ClassName) :
        Method.IsFormed { access, name := pair.1, descriptor := pair.2, exceptions } := by
      constructor <;> rintro _ ⟨⟩
    split
    · exact .after fun exceptions => .after fun _ =>
        .pure (formed exceptions)
    · exact .after fun exceptions => .after fun _ =>
        .pure (formed exceptions)
  refine .after fun access => .after fun token => ?_
  split
  · exact .after fun _ => .after fun _ =>
      .after fun pair => rest access pair
  · exact .after fun pair => rest access pair

/-- What holds for the class as far as its lines have been read. -/
structure ClassDraft.IsSound (draft : ClassDraft) : Prop where
  fields : ∀ field ∈ draft.fields, field.IsFormed
  methods : ∀ method ∈ draft.methods, method.IsFormed
  targets : ∀ note ∈ draft.declared.typeAnnotations.visible ++
    draft.declared.typeAnnotations.invisible, note.target ≠ .implements 0xffff

/-- What holds for the lines that have been read. -/
def Part.IsSound (source : List (List Char)) : Part → Prop
  | .header _ _ directives => directives.IsSound source
  | .body draft directives => draft.IsSound ∧ directives.IsSound source
  | .record draft _ directives => draft.IsSound ∧ directives.IsSound source ∧
    ((directives.isDeprecated || directives.isSynthetic) = true → directives.line.isSome = true)
  | .code draft method lines => draft.IsSound ∧ method.IsFormed ∧ lines.IsSound source
  | .finished result => result.IsFormed

variable {draft : ClassDraft} {directives : Directives} {line : Line}

lemma headerLine_ends {version : Option Version} {file : Option String} (isOf : line.IsOf source)
    (sound : directives.IsSound source) :
    Ends source (Part.IsSound source) (headerLine version file directives line) := by
  unfold headerLine
  split
  · exact (Directives.addLine_ends isOf sound).bind fun _ added => added.1
  · split
    · exact (isOf.read (.anything _)).bind fun _ _ => sound
    · exact (isOf.read (.anything _)).bind fun _ _ => sound
    · exact (isOf.read (.anything _)).bind fun _ _ => (Directives.applyClass_ends sound).bind
        fun _ targets => ⟨⟨by simp, by simp, targets⟩, Directives.empty_isSound⟩

lemma ClassDraft.IsSound.addMethod {method : Method} (sound : draft.IsSound)
    (formed : method.IsFormed) : IsSound { draft with methods := draft.methods.push method } where
  fields := sound.fields
  methods other member := by
    rcases Array.mem_push.mp member with early | rfl
    · exact sound.methods other early
    · exact formed
  targets := sound.targets

lemma memberLine_ends (isOf : line.IsOf source) (sound : draft.IsSound)
    (directed : directives.IsSound source) :
    Ends source (Part.IsSound source) (memberLine draft directives line) := by
  unfold memberLine
  split
  · refine (isOf.read methodHeader_gives).bind fun ⟨header, hasCode⟩ declared =>
      (Directives.applyMethod_ends directed declared).bind fun method formed => ?_
    cases hasCode with
    | true => exact ⟨sound, formed, CodeDraft.empty_isSound⟩
    | false => exact ⟨sound.addMethod formed, Directives.empty_isSound⟩
  · refine (isOf.read fieldHeader_gives).bind fun header declared =>
      (Directives.applyField_ends directed declared).bind fun field formed =>
        ⟨⟨fun other member => ?_, sound.methods, sound.targets⟩, Directives.empty_isSound⟩
    rcases Array.mem_push.mp member with early | rfl
    · exact sound.fields other early
    · exact formed

lemma ClassDraft.IsSound.finish (sound : draft.IsSound) : draft.finish.IsFormed where
  fields := by simpa [ClassDraft.finish] using sound.fields
  methods := by simpa [ClassDraft.finish] using sound.methods
  targets := sound.targets

lemma noneLeft_ends (sound : directives.IsSound source) (inRecord : Bool) :
    Ends source (fun _ => True) (noneLeft directives inRecord) := by
  unfold noneLeft
  split
  · next number given => exact .syntaxError rfl (sound.line number given)
  · trivial

lemma bodyLine_ends (isOf : line.IsOf source) (sound : draft.IsSound)
    (directed : directives.IsSound source) :
    Ends source (Part.IsSound source) (bodyLine draft directives line) := by
  unfold bodyLine
  split
  · exact (noneLeft_ends directed _).bind fun _ _ => sound.finish
  · split
    · exact (Directives.addLine_ends isOf directed).bind fun _ added => ⟨sound, added.1⟩
    · split
      · refine (noneLeft_ends directed _).bind fun _ _ => ?_
        dsimp only
        split
        · exact .syntaxError rfl (isOf.place _ (suffix_refl _))
        · exact ⟨sound, Directives.empty_isSound, by simp⟩
      · exact (isOf.read (.anything _)).bind fun _ _ => ⟨{ sound with }, directed⟩
      · exact (isOf.read (.anything _)).bind fun _ _ => ⟨{ sound with }, directed⟩
      · exact (isOf.read (.anything _)).bind fun _ _ => ⟨{ sound with }, directed⟩
      · exact (isOf.read (.anything _)).bind fun _ _ => ⟨{ sound with }, directed⟩
      · exact memberLine_ends isOf sound directed

lemma recordLine_ends {components : Array RecordComponent} (isOf : line.IsOf source)
    (sound : draft.IsSound) (directed : directives.IsSound source)
    (flagged : (directives.isDeprecated || directives.isSynthetic) = true →
      directives.line.isSome = true) :
    Ends source (Part.IsSound source) (recordLine draft components directives line) := by
  unfold recordLine
  split
  · exact (noneLeft_ends directed _).bind fun _ _ => ⟨{ sound with }, Directives.empty_isSound⟩
  · split
    · exact (Directives.addLine_ends isOf directed).bind fun _ added =>
        ⟨sound, added.1, fun _ => added.2⟩
    · exact (isOf.read (.anything _)).bind fun _ _ =>
        (Directives.applyRecordComponent_ends directed flagged).bind fun _ _ =>
          ⟨sound, Directives.empty_isSound, by simp⟩

lemma codeLine_ends {method : Method} {code : CodeDraft} (isOf : line.IsOf source)
    (sound : draft.IsSound) (formed : method.IsFormed) (sounds : code.IsSound source) :
    Ends source (Part.IsSound source) (codeLine draft method code line) := by
  unfold codeLine
  split
  · refine (CodeDraft.finish_ends sounds isOf.start).bind fun code finished =>
      ⟨sound.addMethod ⟨?_, formed.visible, formed.invisible⟩, Directives.empty_isSound⟩
    rintro _ ⟨⟩
    exact finished
  · exact (CodeDraft.addLine_ends isOf sounds).bind fun _ added => ⟨sound, formed, added⟩

lemma nextPart_ends {before : Part} (isOf : line.IsOf source) (sound : before.IsSound source) :
    Ends source (Part.IsSound source) (nextPart before line) := by
  cases before with
  | header version file directives => exact headerLine_ends isOf sound
  | body draft directives => exact bodyLine_ends isOf sound.1 sound.2
  | record draft components directives => exact recordLine_ends isOf sound.1 sound.2.1 sound.2.2
  | code draft method lines => exact codeLine_ends isOf sound.1 sound.2.1 sound.2.2
  | finished result =>
    rw [nextPart]
    exact isOf.read Gives.throw

lemma parse_ends (text : String) :
    Ends (lines text.toList) ClassFile.IsFormed (parse text) := by
  have start : Part.IsSound (lines text.toList) (.header none none {}) := Directives.empty_isSound
  refine (tokenLines_ends _).bind fun found isOf => (Ends.foldlM (fun part sound line member =>
    nextPart_ends (isOf line member) sound) start).bind fun part sound => ?_
  have last : IsPlace (lines text.toList) ((lines text.toList).length + 1) 1 := by
    simp [IsPlace]
  cases part with
  | finished result => exact sound
  | _ => exact .syntaxError rfl last

lemma parse_isFormed {text : String} {value : ClassFile} (parsed : parse text = .ok value) :
    value.IsFormed := by
  have ends := parse_ends text
  rwa [parsed] at ends

/--
A text is read, or else the failure has one kind: an error at a place of the text, or a label that
appears in the text and is not bound. Code that is read is in canonical form, for which there are
enough numbers of labels.
-/
theorem parse_ok_or_located (text : String) :
    (∃ value, parse text = .ok value ∧ ∀ method ∈ value.methods, ∀ code, method.code = some code →
        code.canonical = .ok code ∧ (code.usedPositions code.positions).length ≤ 0x10000) ∨
      ∃ failure, parse text = .error failure ∧ IsLocated (lines text.toList) failure := by
  have ends := parse_ends text
  cases parsed : parse text with
  | ok value =>
    rw [parsed] at ends
    refine .inl ⟨value, rfl, fun method member code given => ?_⟩
    have formed := (ends.methods method member).code code given
    exact ⟨formed.canonical.canonical_eq, Code.usedPositions_length⟩
  | error failure =>
    rw [parsed] at ends
    exact .inr ⟨failure, rfl, ends⟩

end JvmAsm.Text
