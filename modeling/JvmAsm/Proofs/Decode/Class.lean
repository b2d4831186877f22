/- Decodes what classes have been encoded as. -/
import JvmAsm.Proofs.Encode.Class

namespace JvmAsm

open Binary ByteReader Decode PoolTable
open List hiding get Cursor.at

variable {value : ClassFile} {options : EncodeOptions} {bytes : List UInt8} {known : Code → Prop}
variable {table : PoolTable} {chunks : List (List UInt8)}
variable {before : PoolBuilder → Prop}

section Reading

variable {α β γ : Type}

lemma Reads.afterwards {skipping skippingMore : ByteReader Unit} {reader : ByteReader α}
    {again : α → ByteReader β} {finish : α → Cursor → β → ByteReader γ}
    {front middle back : List UInt8} {value : α} {result : β} {final : γ} {offset : Nat}
    (skips : Reads skipping front ()) (skipsMore : Reads skippingMore middle ())
    (reads : Reads reader back value) (revisits : Reads (again value) (front ++ middle) result)
    (finishes : ∀ stop cursor, finish value stop result cursor = .ok final stop) :
    ReadsAt offset (do
      let start ← get
      skipping
      skippingMore
      let value ← reader
      let stop ← get
      set start
      let result ← again value
      finish value stop result) (front ++ (middle ++ back)) final := by
  intro cursor rest stands equal
  have first := skips _ cursor (middle ++ (back ++ rest)) rfl (by simp [equal])
  have second := skipsMore _ (cursor.skip front.length) (back ++ rest) rfl (by simp [equal])
  have third := reads _ ((cursor.skip front.length).skip middle.length) rest rfl (by simp [equal])
  have fourth := revisits _ cursor (back ++ rest) rfl (by simp [equal])
  simp only [bind, EStateM.bind, get, getThe, MonadStateOf.get, EStateM.get, MonadStateOf.set,
    EStateM.set, first, second, third, fourth, finishes]
  simp [add_assoc]

end Reading

namespace Decode

/-- What follows the constant pool. -/
def afterPool (classStart : Nat) (version : Version) (table : PoolTable) :
    ByteReader ClassFile := do
  let access ← u16
  let name ← entry table.className
  let superClass ← optionalEntry table.className
  let interfaces ← list16 (entry table.className)
  let membersStart ← get
  skipMembers
  skipMembers
  let draft ← attributes table (ClassDraft.step table) {}
  let classEnd ← get
  set membersStart
  let (fields, methods) ←
    members table (draft.bootstrapMethods.map List.toArray) classStart name
  set classEnd
  return {
    version
    access := ⟨access⟩
    name
    superClass
    interfaces
    fields
    methods
    isDeprecated := draft.marks.isDeprecated
    isSynthetic := draft.marks.isSynthetic
    innerClasses := draft.innerClasses.getD []
    enclosingMethod := draft.enclosingMethod
    signature := draft.shared.signature
    sourceFile := draft.sourceFile
    nestHost := draft.nestHost
    nestMembers := draft.nestMembers.getD []
    recordComponents := draft.recordComponents
    annotations := draft.shared.annotations
    typeAnnotations := draft.shared.typeAnnotations
    attributes := draft.shared.raw.toList }

lemma classBody_eq : classBody = (do
    let classStart ← offset
    let found ← u32
    if found != magic then fail (.wrongMagic found)
    let minor ← u16
    let major ← u16
    if Version.latest.major < major || major < Version.oldestMajor then
      fail (.unsupportedVersion ⟨major, minor⟩)
    let table ← read
    afterPool classStart ⟨major, minor⟩ table) := rfl

/-- The lengths of the code of all methods, which follow the fields. -/
def lengthsAfterPool (table : PoolTable) : ByteReader (List Nat) := do
  skip 6
  skip (2 * (← u16).toNat)
  skipMembers
  return (← list16 (methodLengths table)).flatten

end Decode

/-- The lengths of the code of all methods of a class file. -/
def codeLengths (bytes : List UInt8) : List Nat :=
  match (do
      skip 8
      lengthsAfterPool (← read) : ByteReader (List Nat)) (Cursor.at bytes 0) with
  | .ok lengths _ => lengths
  | .error _ _ => []

namespace Encode

/-- Members whose bytes are skipped one by one are skipped together. -/
lemma skipMembers_reads {α : Type} {members : List α} (fits : members.length ≤ 0xffff)
    (each : Forall₂ (fun chunk _ => Reads skipMember chunk ()) chunks members) :
    Reads skipMembers (bytes16 (UInt16.ofNat members.length) ++ chunks.flatten) () := by
  have all : Forall₂ (Reads skipMember) chunks (members.map fun _ => ()) := by
    rwa [forall₂_map_right_iff]
  have read := Reads.list16 all (by rwa [length_map])
  rw [length_map] at read
  exact read.discard

variable {reads : Method → Option Code → Prop} {allowed : String × List UInt8 → Prop}

/-- Methods are read one after the other, and so are the lengths of their code. -/
lemma methods_written {pool : PoolBuilder} {methods : List Method}
    (all : Forall₂ (fun method chunk => IsWritten reads allowed 0 method chunk pool)
      methods chunks) {boots : PoolTable.Bootstrap} (agrees : table.Agrees boots pool) :
    ∃ (found : List Method) (pairs : List (List (String × List UInt8))),
      Forall₂ (IsReadAs reads) methods found ∧
      Forall₂ (Reads (methodLengths table)) chunks
        (pairs.map (List.filterMap codeLength?)) ∧
      (∀ pair ∈ pairs.flatten, pair.2 <:+: chunks.flatten) ∧
      ((∀ pair ∈ pairs.flatten, allowed pair) →
        Forall₂ (Reads (readMethod table boots 0)) chunks found) ∧
      Forall₂ (fun chunk _ => Reads skipMember chunk ()) chunks methods := by
  induction all with
  | nil => exact ⟨[], [], .nil, .nil, by simp, fun _ => .nil, .nil⟩
  | cons first _ ih =>
    obtain ⟨read, here, isRead, measured, inside, reads, skipped⟩ := first
    obtain ⟨found, pairs, areRead, measuredAll, insideAll, readAll, skippedAll⟩ := ih
    refine ⟨read :: found, here :: pairs, .cons isRead areRead,
      .cons (measured agrees) measuredAll, ?_, fun allows => ?_,
      .cons skipped skippedAll⟩
    · rw [flatten_cons, flatten_cons, forall_mem_append]
      exact ⟨fun pair mem => (inside pair mem).trans (prefix_append _ _).isInfix,
        fun pair mem => (insideAll pair mem).trans (suffix_append _ _).isInfix⟩
    · rw [flatten_cons, forall_mem_append] at allows
      exact .cons (reads allows.1 agrees) (readAll allows.2)

/-- The parts of a class after the constant pool are read as those of the class. -/
lemma tail_reads {entries : List BootstrapMethod}
    {name superClass interfaces fields methods attributes : List UInt8} {filled : List Method}
    (named : Reads (Decode.entry table.className) name value.name)
    (above : Reads (Decode.optionalEntry table.className) superClass value.superClass)
    (listed : Reads (ByteReader.list16 (Decode.entry table.className)) interfaces value.interfaces)
    (skipsFields : Reads Decode.skipMembers fields ())
    (skipsMethods : Reads Decode.skipMembers methods ())
    (attributed : Reads (Decode.attributes table (Decode.ClassDraft.step table) {}) attributes
      (classDraft value entries))
    (readsFields : Reads (ByteReader.list16 (ByteReader.within (.inField value.name)
      (Decode.readField table))) fields value.fields)
    (readsMethods : Reads (ByteReader.list16 (ByteReader.within (.inMethod value.name)
      (Decode.readMethod table ((given entries).map List.toArray) 0))) methods filled) :
    Reads (Decode.afterPool 0 value.version table)
      (bytes16 value.access.bits ++ name ++ superClass ++ interfaces ++ fields ++ methods ++
        attributes) { value with methods := filled } := by
  have members : Reads (Decode.members table ((given entries).map List.toArray) 0 value.name)
      (fields ++ methods) (value.fields, filled) :=
    readsFields.bind (readsMethods.made _)
  simp only [append_assoc]
  refine (Reads.u16 _).bind (named.bind (above.bind (listed.bind fun offset => ?_)))
  refine Reads.afterwards skipsFields skipsMethods attributed members fun stop cursor => ?_
  change EStateM.Result.ok _ stop = _
  simp [classDraft, Decode.Shared.annotations, Decode.Shared.typeAnnotations]

lemma lengthsAfterPool_reads {access : UInt16} {interfaces : List ClassName}
    {name superClass fields methods : List UInt8} {lengths : List (List Nat)}
    (nameSize : name.length = 2) (superSize : superClass.length = 2)
    (count : interfaces.length ≤ 0xffff)
    (sizes : Forall₂ (fun _ chunk => chunk.length = 2) interfaces chunks)
    (skips : Reads skipMembers fields ())
    (measured : Reads (ByteReader.list16 (methodLengths table)) methods lengths) :
    Reads (lengthsAfterPool table)
      (bytes16 access ++ name ++ superClass ++
        (bytes16 (UInt16.ofNat interfaces.length) ++ chunks.flatten) ++ fields ++ methods)
      lengths.flatten := by
  have head := Reads.skip (bytes16 access ++ name ++ superClass)
  rw [length_append, length_append, bytes16_length, nameSize, superSize] at head
  have listing : chunks.flatten.length = 2 * interfaces.length := by
    clear count
    induction sizes with
    | nil => rfl
    | cons first _ ih =>
      rw [flatten_cons, length_append, first, ih, length_cons]
      omega
  have skipped := Reads.skip chunks.flatten
  rw [listing] at skipped
  rw [append_assoc, append_assoc]
  refine head.bind ?_
  rw [append_assoc]
  refine (Reads.u16 _).bind ?_
  rw [UInt16.toNat_ofNat_of_lt' (Nat.lt_succ_of_le count)]
  exact skipped.bind (skips.bind (measured.made _))

/--
What follows the constant pool is read with every table of the pool, if the attributes of all
methods are allowed.
-/
def IsTail (reads : Method → Option Code → Prop) (allowed : String × List UInt8 → Prop)
    (value : ClassFile) (bytes : List UInt8) (pool : PoolBuilder) : Prop :=
  ∀ ⦃table : PoolTable⦄ ⦃boots : PoolTable.Bootstrap⦄, table.Agrees boots pool →
    ∃ (methods : List Method) (pairs : List (String × List UInt8)),
      Forall₂ (IsReadAs reads) value.methods methods ∧
      (∃ front back, bytes = front ++ back ∧
        Reads (lengthsAfterPool table) front (pairs.filterMap codeLength?)) ∧
      (∀ pair ∈ pairs, pair.2 <:+: bytes) ∧
      ((∀ pair ∈ pairs, allowed pair) →
        Reads (Decode.afterPool 0 value.version table) bytes { value with methods })

lemma afterPool_yields {analyses : List Analysis} (readable : value.IsReadable known)
    (isRead : Forall₂ (fun method analysis =>
      IsReadWith reads allowed value.version analysis 0 method) value.methods analyses) :
    Yields before (afterPool value analyses) (IsTail reads allowed value) := by
  obtain ⟨count, areRead⟩ := forall₂_iff_zip.mp isRead
  have titles : (value.methods.zip analyses).map Prod.fst = value.methods :=
    map_fst_zip (le_of_eq count)
  refine ((className_yields value.name).and (className_size value.name)).bind fun name =>
    ((optional_yields PoolBuilder.className_refers).and
      (optional_size PoolBuilder.className_refers)).bind fun superClass =>
      ((plainList16_yields fun name _ => className_yields name).and
        (list16_chunks fun name _ => className_size name)).bind fun interfaces =>
        (list16_chunks fun field mem =>
          within_yields (fieldBytes_yields (readable.fields field mem))).bind fun fields =>
          (list16_chunks fun pair mem => within_yields (methodBytes_yields
            (readable.methods pair.1 (of_mem_zip mem).1) (areRead mem))).bind
            fun methods => (classAttributes_yields readable).bind fun attributes => .pure ?_
  rintro pool ⟨_, entries, ⟨earlier, ⟨⟨⟨⟨⟨_, named, nameSize⟩, above, aboveSize⟩, listed,
    interfaceChunks, interfaceCount, rfl, interfaceSizes⟩, fieldChunks, fieldCount, rfl, allFields⟩,
    methodChunks, methodCount, rfl, allMethods⟩, agreesEarlier⟩, attributed⟩ table boots agrees
  have allMethods : Forall₂ (fun method chunk => IsWritten reads allowed 0 method chunk earlier)
      ((value.methods.zip analyses).map Prod.fst) methodChunks := by
    rwa [forall₂_map_left_iff]
  rw [titles] at allMethods
  rw [← length_map Prod.fst, titles] at methodCount ⊢
  have agreesEarlier := agreesEarlier table agrees.has
  obtain ⟨found, pairs, areRead, measured, inside, readAll, skipped⟩ :=
    methods_written allMethods agreesEarlier
  have foundCount : value.methods.length = found.length := areRead.length_eq
  have lengthsCount : value.methods.length = (pairs.map (List.filterMap codeLength?)).length :=
    allMethods.length_eq.trans measured.length_eq
  have skipsFields := skipMembers_reads fieldCount (allFields.flip.imp fun _ _ known => known.2)
  refine ⟨found, pairs.flatten, areRead, ⟨_, attributes, rfl, ?_⟩, fun pair mem => ?_,
    fun allows => ?_⟩
  · rw [filterMap_flatten]
    refine lengthsAfterPool_reads nameSize aboveSize interfaceCount interfaceSizes skipsFields ?_
    rw [lengthsCount] at methodCount ⊢
    exact Reads.list16 measured methodCount
  · refine (inside pair mem).trans (List.IsInfix.trans ?_ (prefix_append _ _).isInfix)
    exact ((suffix_append _ _).trans (suffix_append _ _)).isInfix
  · refine tail_reads (named agreesEarlier) (above agreesEarlier)
      (listed agreesEarlier) skipsFields (skipMembers_reads methodCount skipped)
      (attributed agrees)
      (Reads.list16 (allFields.flip.imp fun _ _ known =>
        (known.1 agreesEarlier).within _) fieldCount) ?_
    rw [foundCount] at methodCount ⊢
    exact Reads.list16 ((readAll allows).imp fun _ _ read => read.within _) methodCount

/-- What is known about the methods of a class has been found for them. -/
lemma analyses_yields (options : EncodeOptions) (owner : ClassFile) :
    Yields before (owner.methods.mapM (analyze options owner)) fun analyses _ =>
      Forall₂ (fun method analysis => ∃ state state',
        analyze options owner method state = .ok analysis state') owner.methods analyses := by
  have runs : ∀ method ∈ owner.methods, Yields before (analyze options owner method)
      fun _ _ => True := by
    intro method _
    unfold analyze
    split
    · exact .pure fun _ _ => trivial
    · refine within_yields ?_
      rw [analyzeCode_eq]
      split
      · exact (warn_yields _).bind fun _ => ofResult_yields fun _ _ _ _ => trivial
      · exact ofResult_yields fun _ _ _ _ => trivial
  exact Yields.mapM fun method mem =>
    (runs method mem).ofRun fun state _ state' ran => ⟨state, state', ran⟩

/-- The pool is written as it is at the end. -/
lemma poolBytes_yields (finish : List UInt8 → List UInt8) :
    Yields before (do
        let pool ← ofResult (← get).pool.bytes
        return finish pool)
      fun bytes _ => ∃ (pool : PoolBuilder) (poolBytes : List UInt8), before pool ∧
        pool.WellFormed ∧ pool.bytes = .ok poolBytes ∧ bytes = finish poolBytes := by
  intro state bytes state' wf known ran
  obtain ⟨_, _, got, ran⟩ := ran_parts ran
  cases got
  obtain ⟨poolBytes, _, result, ran⟩ := ran_parts ran
  obtain ⟨written, rfl⟩ := ofResult_ok result
  obtain ⟨rfl, rfl⟩ := ran_pure_iff.mp ran
  exact ⟨wf, .refl _, fun _ _ =>
    ⟨state.pool, poolBytes, known _ (.refl _), wf, written, rfl⟩⟩

def IsClass (reads : Method → Option Code → Prop) (allowed : String × List UInt8 → Prop)
    (value : ClassFile) (bytes : List UInt8) : Prop :=
  ∃ (pool : PoolBuilder) (poolBytes body : List UInt8), pool.WellFormed ∧
    pool.bytes = .ok poolBytes ∧ IsTail reads allowed value body pool ∧
    ¬Version.latest.isBefore value.version ∧
    bytes = bytes32 magic ++ bytes16 value.version.minor ++ bytes16 value.version.major ++
      poolBytes ++ body

def AreReadWith (reads : Method → Option Code → Prop) (allowed : String × List UInt8 → Prop)
    (options : EncodeOptions) (value : ClassFile) : Prop :=
  ∀ method ∈ value.methods, ∀ analysis state state',
    analyze options value method state = .ok analysis state' →
      IsReadWith reads allowed value.version analysis 0 method

lemma classBytes_yields (readable : value.IsReadable known)
    (areRead : AreReadWith reads allowed options value) :
    Yields before (classBytes options value) fun bytes _ => IsClass reads allowed value bytes := by
  have rest {before : PoolBuilder → Prop} (supported : ¬Version.latest.isBefore value.version) :
      Yields before
        (do
          let analyses ← value.methods.mapM (analyze options value)
          let body ← afterPool value analyses
          let pool ← ofResult (← get).pool.bytes
          return bytes32 magic ++ bytes16 value.version.minor ++ bytes16 value.version.major ++
            pool ++ body)
        fun bytes _ => IsClass reads allowed value bytes := by
    refine (analyses_yields options value).bind fun analyses => Yields.assuming
      (fun _ known => known.2) fun found => ?_
    have isRead := ((forall₂_and_left _ _).mpr ⟨areRead, found⟩).imp
      fun method analysis ⟨areRead, state, state', ran⟩ => areRead analysis state state' ran
    refine (afterPool_yields readable isRead).bind fun body => ?_
    refine (poolBytes_yields fun pool => _ ++ pool ++ body).weaken ?_
    rintro bytes _ _ ⟨pool, poolBytes, ⟨_, isTail⟩, wf, written, rfl⟩
    exact ⟨pool, poolBytes, body, wf, written, isTail, supported, rfl⟩
  refine .refusing (fun _ _ _ => by rintro ⟨⟩) fun supported => ?_
  split
  · exact (warn_yields _).bind fun _ => rest supported
  · exact rest supported

end Encode

lemma Version.major_le {version : Version} (supported : ¬latest.isBefore version) :
    version.major ≤ latest.major := by
  by_contra newer
  have less : Ord.compare latest.major version.major = .lt :=
    compareOfLessAndEq_eq_lt.mpr (UInt16.not_le.mp newer)
  exact supported (by simp [isBefore, compare, less])

namespace Encode

/-- A class that has been encoded consists of its parts. -/
lemma isClass_of_encode (readable : value.IsReadable known)
    (areRead : AreReadWith reads allowed options value)
    (encoded : encode options value = .ok bytes) : IsClass reads allowed value bytes := by
  unfold encode encodeWithWarnings at encoded
  split at encoded
  · next found =>
    cases encoded
    have yields : Yields (fun _ => True) _ _ := classBytes_yields readable areRead
    exact (yields _ _ _ PoolBuilder.empty_wellFormed (fun _ _ => trivial) found).2.2 _ (.refl _)
  · contradiction

lemma table_agrees {pool : PoolBuilder} (wf : pool.WellFormed) :
    ∃ boots, (ofEntries pool.entries.toList).Agrees boots pool := by
  obtain ⟨methods, isBootstrap⟩ := bootstrap_exists wf
  exact ⟨_, isBootstrap.agrees (ofEntries_has pool)⟩

end Encode

/-- The lengths of the code of a class are those that are read behind its constant pool. -/
lemma codeLengths_eq {header poolBytes front back : List UInt8} {lengths : List Nat}
    (size : header.length = 8) (pooled : Reads read poolBytes table)
    (measured : Reads (lengthsAfterPool table) front lengths) :
    codeLengths (header ++ (poolBytes ++ (front ++ back))) = lengths := by
  have whole : Reads (do
      skip 8
      lengthsAfterPool (← read)) (header ++ (poolBytes ++ front)) lengths := by
    rw [← size]
    exact (Reads.skip header).bind (pooled.bind measured)
  rw [codeLengths, whole 0 _ back rfl (by simp [Cursor.at])]

lemma decode_of_reads (read : ReadsAt 0 classBody bytes value) :
    decode bytes = .ok value := by
  have body := read (Cursor.at bytes 0) [] rfl (by simp [Cursor.at])
  have start : (Cursor.at bytes 0).offset = 0 := rfl
  simp [decode, readClass, body, start]

/--
What a class has been encoded as is decoded as the class, with the code that is read. The bytes of
the attributes of the methods, which have to be allowed, are parts of the bytes of the class.
-/
lemma decode_of_encode {reads : Method → Option Code → Prop}
    {allowed : String × List UInt8 → Prop} (readable : value.IsReadable known)
    (areRead : Encode.AreReadWith reads allowed options value)
    (encoded : encode options value = .ok bytes) :
    ∃ (methods : List Method) (pairs : List (String × List UInt8)),
      Forall₂ (Encode.IsReadAs reads) value.methods methods ∧
      codeLengths bytes = pairs.filterMap codeLength? ∧ (∀ pair ∈ pairs, pair.2 <:+: bytes) ∧
      ((∀ pair ∈ pairs, allowed pair) → decode bytes = .ok { value with methods }) := by
  obtain ⟨pool, poolBytes, body, wf, written, isTail, supported, rfl⟩ :=
    Encode.isClass_of_encode readable areRead encoded
  obtain ⟨boots, agrees⟩ := Encode.table_agrees wf
  have pooled := read_reads wf written
  obtain ⟨methods, pairs, areRead, ⟨front, back, rfl, measured⟩, inside, read⟩ :=
    isTail agrees
  refine ⟨methods, pairs, areRead, ?_, fun pair mem =>
    (inside pair mem).trans (suffix_append _ _).isInfix, fun allows => decode_of_reads ?_⟩
  · rw [append_assoc, codeLengths_eq rfl pooled measured]
  · simp only [append_assoc] at read ⊢
    have newest := Version.major_le supported
    have oldest := readable.version
    rw [classBody_eq, ← nil_append (bytes32 _ ++ _)]
    refine (ReadsAt.offset 0).bind ((Reads.u32 _ _).bind ?_)
    rw [if_neg (by simp [Encode.magic, magic])]
    refine (Reads.u16 _ _).bind ((Reads.u16 _ _).bind ?_)
    rw [if_neg (by simpa using ⟨newest, oldest⟩)]
    exact (pooled _).bind (read allows _)

/-- Wherever the frames of a method are computed, all of its instructions are reached. -/
def Encode.ReachesAll (options : EncodeOptions) (owner : ClassFile) : Prop :=
  ∀ method ∈ owner.methods, ∀ state analysis state',
    analyze options owner method state = .ok analysis state' →
      ∀ table, analysis.computed = some table → table.hasUnreachable = false

/-- The code of a method with the sizes that are written with it. -/
def Encode.IsSized (options : EncodeOptions) (owner : ClassFile) (method : Method)
    (code : Option Code) : Prop :=
  ∃ analysis state state', analyze options owner method state = .ok analysis state' ∧
    Option.Rel (IsSizedBy analysis) method.code code

/-- What a class has been encoded as is decoded as the class, with the sizes that are written. -/
lemma decode_sized (readable : value.IsReadable Code.IsReadable)
    (reached : Encode.ReachesAll options value) (encoded : encode options value = .ok bytes)
    (short : ∀ length ∈ codeLengths bytes, length ≤ Bytecode.Layout.maxNear) :
    ∃ methods, Forall₂ (Encode.IsReadAs (Encode.IsSized options value)) value.methods methods ∧
      decode bytes = .ok { value with methods } := by
  have areRead : Encode.AreReadWith (Encode.IsSized options value) Encode.IsShort options value := by
    intro method mem analysis state state' ran
    exact Encode.isReadWith_sized (readable.methods method mem).code
      (fun code given table _ computed => ⟨reached method mem state analysis state' ran table
        computed, computeFrames_size given ((Encode.analyze_isOf given ran).computed table computed)⟩)
      fun code sized => ⟨analysis, state, state', ran, sized⟩
  obtain ⟨methods, pairs, areSized, lengths, -, decodes⟩ := decode_of_encode readable areRead encoded
  refine ⟨methods, areSized, decodes fun pair mem length found => ?_⟩
  rw [lengths] at short
  exact short length (mem_filterMap.mpr ⟨pair, mem, found⟩)

lemma decode_encode (readable : value.IsReadable Code.IsReadable)
    (reached : Encode.ReachesAll options value) (encoded : encode options value = .ok bytes)
    (short : ∀ length ∈ codeLengths bytes, length ≤ Bytecode.Layout.maxNear) :
    ∃ filled, value.IsFilled filled ∧ decode bytes = .ok filled := by
  obtain ⟨methods, areSized, decoded⟩ := decode_sized readable reached encoded short
  refine ⟨_, ⟨methods, areSized.imp ?_, rfl⟩, decoded⟩
  rintro method _ ⟨code, ⟨analysis, _, _, _, sized⟩, rfl⟩
  refine ⟨code, ?_, rfl⟩
  generalize method.code = given at sized ⊢
  cases sized with
  | some sizes => exact .some sizes.isFilled
  | none => exact .none

end JvmAsm
