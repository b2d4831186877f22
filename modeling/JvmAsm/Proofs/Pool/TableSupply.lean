/- Lists the constants that can be got out of a table. -/
import JvmAsm.Proofs.Decode.Spending
import JvmAsm.Proofs.Pool.Capacity

namespace JvmAsm

open Binary List Constant PoolTable PoolEntry

variable {constant : Constant} {descriptor : MethodDescriptor} {method : MethodRef}
variable {value : Loadable} {entry : PoolEntry} {entries : Array (Option PoolEntry)} {fuel : Nat}
variable {α : Type} {read? : String → Option α} {name : UnqualifiedName} {found : Array Loadable}
variable {xs : List Loadable}

namespace PoolTable

/-- The constant that is made of a result, if there is one. -/
def made {α : Type} (make : α → Constant) : Result α → List Constant
  | .ok value => [make value]
  | .error _ => []

/-- The narrow numbers that can be taken from an integer. -/
def narrowed (value : Int32) : List Constant :=
  [.integer value.toInt8.toInt32, .integer value.toUInt32.toUInt16.toUInt32.toInt32,
    .integer value.toInt16.toInt32]

/-- The constants that are got at an index, given the entry there. -/
def constantsOf (table : PoolTable) (boots : Bootstrap) (index : UInt16) :
    PoolEntry → List Constant
  | .utf8 value => [.utf8 value]
  | .integer value => .integer value :: narrowed value
  | .float bits => [.float ⟨bits⟩]
  | .long value => [.long value]
  | .double bits => [.double ⟨bits⟩]
  | .className _ => made .className (table.className index)
  | .string _ => made .string (table.string index)
  | .fieldRef .. => made .fieldRef (table.fieldRef index)
  | .methodRef .. | .interfaceMethodRef .. =>
    made (fun found => .ofMethod found.1 found.2) (table.anyMethodRef index)
  | .nameAndType .. =>
    made (fun found => .nameAndType found.1 found.2) (table.nameAndType table.text table.text index)
  | .methodHandle .. => made .methodHandle (table.methodHandle index)
  | .methodType _ => made .methodType (table.methodType index)
  | .dynamic .. => made Loadable.constant (table.loadable boots index)
  | .invokeDynamic .. => made .invokeDynamic (table.callSite boots index)
  | .moduleName _ | .packageName _ => []

def constantsAt (table : PoolTable) (boots : Bootstrap) (index : UInt16) : List Constant :=
  match table.entry index with
  | .ok entry => table.constantsOf boots index entry
  | .error _ => []

/-- The constants that are written although no index refers to them. -/
def ownConstants : List Constant := [.integer 0, .integer 1, .ofText "BootstrapMethods"]

/-- All constants that can be got out of the table. -/
def constants (table : PoolTable) (boots : Bootstrap) : List Constant :=
  ownConstants ++ (range table.entries.size).flatMap fun index =>
    table.constantsAt boots (UInt16.ofNat index)

variable {table : PoolTable} {boots : Bootstrap} {index : UInt16}

lemma mem_constants (present : table.entry index = .ok entry)
    (mem : constant ∈ table.constantsOf boots index entry) :
    constant ∈ table.constants boots := by
  refine mem_append_right _ (mem_flatMap.mpr ⟨index.toNat, ?_, by
    rwa [UInt16.ofNat_toNat, constantsAt, present]⟩)
  rw [mem_range]
  by_contra outside
  rw [PoolTable.entry, Array.getElem?_eq_none (by omega)] at present
  contradiction

lemma mem_made {make : α → Constant} {result : Result α} :
    constant ∈ made make result ↔ ∃ value, result = .ok value ∧ constant = make value := by
  cases result with
  | ok value => simp [made]
  | error failure => simp [made]

section Texts

lemma javaString_listed {value : JavaString} (found : table.javaString index = .ok value) :
    .utf8 value ∈ table.constants boots := by
  obtain ⟨entry, present, found⟩ := ok_parts found
  cases entry with
  | utf8 string =>
    cases found
    exact mem_constants present (by simp [constantsOf])
  | _ => contradiction

lemma text_listed {text : String} (found : table.text index = .ok text) :
    .ofText text ∈ table.constants boots := by
  obtain ⟨string, read, found⟩ := ok_parts (ok_mapError_iff.mp found)
  split at found
  · next known =>
    cases found
    rw [ofText, JavaString.ofString_of_text? known]
    exact javaString_listed read
  · contradiction

lemma checked_ok {kind : NameKind} {text : String} {value : α}
    (found : checked kind read? text = .ok value) : read? text = some value := by
  unfold checked at found
  split at found
  · next read =>
    cases found
    exact read
  · contradiction

/-- What is read from a text is written with the same text. -/
lemma checkedText {kind : NameKind} {write : α → String} {value : α}
    (inverse : ∀ text value, read? text = some value → write value = text)
    (found : (do checked kind read? (← table.text index)) = .ok value) :
    table.text index = .ok (write value) := by
  obtain ⟨text, read, found⟩ := ok_parts found
  rw [inverse _ _ (checked_ok found), read]

lemma fieldType_text {type : FieldType} (found : table.fieldType index = .ok type) :
    table.text index = .ok type.text :=
  checkedText (fun _ _ => FieldType.text_of_ofString?) found

lemma methodDescriptor_text (found : table.methodDescriptor index = .ok descriptor) :
    table.text index = .ok descriptor.text :=
  checkedText (fun _ _ => MethodDescriptor.text_of_ofString?) found

lemma fieldName_text (found : table.fieldName index = .ok name) :
    table.text index = .ok name.text :=
  checkedText (fun _ _ => UnqualifiedName.text_of_ofString?) found

lemma methodName_text {name : MethodName} (found : table.methodName index = .ok name) :
    table.text index = .ok name.text :=
  checkedText (fun _ _ => MethodName.text_of_ofString?) found

lemma recordName_text (found : table.recordName index = .ok name) :
    table.text index = .ok name.text :=
  checkedText (fun _ _ => UnqualifiedName.text_of_ofString?) found

end Texts

section Members

variable {name : UInt16 → Result α} {onInterface : Bool}

lemma className_entry {name : ClassName} (found : table.className index = .ok name) :
    ∃ text, table.entry index = .ok (.className text) ∧ table.text text = .ok name.text := by
  obtain ⟨entry, present, found⟩ := ok_parts (ok_mapError_iff.mp found)
  cases entry with
  | className text => exact ⟨text, present, checkedText (fun _ _ => ClassName.text_of_ofString?) found⟩
  | _ => contradiction

lemma className_listed {name : ClassName} (found : table.className index = .ok name) :
    .className name ∈ table.constants boots := by
  obtain ⟨text, present, _⟩ := className_entry found
  exact mem_constants present (by simp [constantsOf, found, made])

lemma string_listed {value : JavaString} (found : table.string index = .ok value) :
    .string value ∈ table.constants boots := by
  obtain ⟨entry, present, read⟩ := ok_parts found
  cases entry with
  | string text => exact mem_constants present (by simp [constantsOf, found, made])
  | _ => contradiction

lemma nameAndType_entry {β : Type} {descriptor : UInt16 → Result β} {value : α × β}
    (found : table.nameAndType name descriptor index = .ok value) :
    ∃ nameIndex descriptorIndex, table.entry index = .ok (.nameAndType nameIndex descriptorIndex) ∧
        name nameIndex = .ok value.1 ∧ descriptor descriptorIndex = .ok value.2 := by
  obtain ⟨entry, present, found⟩ := ok_parts (ok_mapError_iff.mp found)
  cases entry with
  | nameAndType nameIndex descriptorIndex =>
    obtain ⟨first, named, found⟩ := ok_parts found
    obtain ⟨second, described, found⟩ := ok_parts found
    cases found
    exact ⟨_, _, present, named, described⟩
  | _ => contradiction

lemma nameAndType_texts {β : Type} {descriptor : UInt16 → Result β} {nameText : α → String}
    {descriptorText : β → String} {value : α × β}
    (names : ∀ index value, name index = .ok value → table.text index = .ok (nameText value))
    (descriptors : ∀ index value, descriptor index = .ok value →
      table.text index = .ok (descriptorText value))
    (found : table.nameAndType name descriptor index = .ok value) :
    table.nameAndType table.text table.text index =
      .ok (nameText value.1, descriptorText value.2) := by
  obtain ⟨_, _, present, named, described⟩ := nameAndType_entry found
  simp [nameAndType, gettingEntry, present, names _ _ named, descriptors _ _ described]

lemma nameAndType_listed {value : String × String}
    (found : table.nameAndType table.text table.text index = .ok value) :
    .nameAndType value.1 value.2 ∈ table.constants boots := by
  obtain ⟨_, _, present, _⟩ := nameAndType_entry found
  exact mem_constants present (by simp [constantsOf, found, made])

lemma fieldNameAndType_listed {value : UnqualifiedName × FieldType}
    (found : table.fieldNameAndType index = .ok value) :
    .nameAndType value.1.text value.2.text ∈ table.constants boots :=
  nameAndType_listed (nameAndType_texts (fun _ _ => fieldName_text) (fun _ _ => fieldType_text) found)

lemma methodNameAndType_listed {value : MethodName × MethodDescriptor}
    (found : table.methodNameAndType index = .ok value) :
    .nameAndType value.1.text value.2.text ∈ table.constants boots :=
  nameAndType_listed (nameAndType_texts (fun _ _ => methodName_text)
    (fun _ _ => methodDescriptor_text) found)

lemma fieldRef_entry {field : FieldRef} (found : table.fieldRef index = .ok field) :
    ∃ owner pair, table.entry index = .ok (.fieldRef owner pair) ∧
      table.className owner = .ok field.owner ∧
      table.fieldNameAndType pair = .ok (field.name, field.type) := by
  obtain ⟨entry, present, found⟩ := ok_parts (ok_mapError_iff.mp found)
  cases entry with
  | fieldRef owner pair =>
    obtain ⟨name, owned, found⟩ := ok_parts found
    obtain ⟨value, paired, found⟩ := ok_parts found
    cases found
    exact ⟨_, _, present, owned, paired⟩
  | _ => contradiction

lemma fieldRef_listed {field : FieldRef} (found : table.fieldRef index = .ok field) :
    .fieldRef field ∈ table.constants boots := by
  obtain ⟨_, _, present, _⟩ := fieldRef_entry found
  exact mem_constants present (by simp [constantsOf, found, made])

lemma anyMethodRef_entry (found : table.anyMethodRef index = .ok (method, onInterface)) :
    ∃ owner pair, table.entry index = .ok (if onInterface then .interfaceMethodRef owner pair else
        .methodRef owner pair) ∧
      table.className owner = .ok method.owner ∧
      table.methodNameAndType pair = .ok (method.name, method.descriptor) := by
  obtain ⟨entry, present, found⟩ := ok_parts (ok_mapError_iff.mp found)
  cases entry with
  | methodRef owner pair | interfaceMethodRef owner pair =>
    obtain ⟨name, owned, found⟩ := ok_parts found
    obtain ⟨value, paired, found⟩ := ok_parts found
    cases found
    exact ⟨_, _, present, owned, paired⟩
  | _ => contradiction

lemma anyMethodRef_listed (found : table.anyMethodRef index = .ok (method, onInterface)) :
    .ofMethod method onInterface ∈ table.constants boots := by
  obtain ⟨_, _, present, _⟩ := anyMethodRef_entry found
  cases onInterface <;> exact mem_constants present (by simp [constantsOf, found, made])

lemma methodRef_any (found : table.methodRef index = .ok method) :
    table.anyMethodRef index = .ok (method, false) := by
  obtain ⟨⟨found', onInterface⟩, any, found⟩ := ok_parts found
  cases onInterface with
  | true => contradiction
  | false =>
    cases found
    exact any

lemma interfaceMethodRef_any (found : table.interfaceMethodRef index = .ok method) :
    table.anyMethodRef index = .ok (method, true) := by
  obtain ⟨⟨found', onInterface⟩, any, found⟩ := ok_parts found
  cases onInterface with
  | false => contradiction
  | true =>
    cases found
    exact any

end Members

section Loadables

variable {indices : List UInt16}

lemma integer_listed {value : Int32} (found : table.integer index = .ok value) :
    .integer value ∈ table.constants boots ∧
      ∀ narrow ∈ narrowed value, narrow ∈ table.constants boots := by
  obtain ⟨entry, present, found⟩ := ok_parts found
  cases entry with
  | integer value =>
    cases found
    exact ⟨mem_constants present mem_cons_self, fun narrow mem =>
      mem_constants present (mem_cons_of_mem _ mem)⟩
  | _ => contradiction

lemma float_listed {value : Single} (found : table.float index = .ok value) :
    .float value ∈ table.constants boots := by
  obtain ⟨entry, present, found⟩ := ok_parts found
  cases entry with
  | float bits =>
    cases found
    exact mem_constants present mem_cons_self
  | _ => contradiction

lemma long_listed {value : Int64} (found : table.long index = .ok value) :
    .long value ∈ table.constants boots := by
  obtain ⟨entry, present, found⟩ := ok_parts found
  cases entry with
  | long value =>
    cases found
    exact mem_constants present mem_cons_self
  | _ => contradiction

lemma double_listed {value : Double} (found : table.double index = .ok value) :
    .double value ∈ table.constants boots := by
  obtain ⟨entry, present, found⟩ := ok_parts found
  cases entry with
  | double bits =>
    cases found
    exact mem_constants present mem_cons_self
  | _ => contradiction

lemma methodHandle_entry {handle : Handle} (found : table.methodHandle index = .ok handle) :
    ∃ kind reference, table.entry index = .ok (.methodHandle kind reference) ∧
      match handle with
      | .field _ field => table.fieldRef reference = .ok field
      | .method kind method => table.anyMethodRef reference = .ok (method, kind.onInterface) := by
  obtain ⟨entry, present, found⟩ := ok_parts (ok_mapError_iff.mp found)
  cases entry with
  | methodHandle kind reference =>
    refine ⟨kind, reference, present, ?_⟩
    dsimp only at found
    split at found
    case h_10 => contradiction
    case h_5 | h_8 =>
      obtain ⟨method, got, found⟩ := ok_parts found
      cases found
      exact methodRef_any got
    case h_6 | h_7 =>
      obtain ⟨⟨method, onInterface⟩, got, found⟩ := ok_parts found
      cases found
      exact got
    case h_9 =>
      obtain ⟨method, got, found⟩ := ok_parts found
      cases found
      exact interfaceMethodRef_any got
    all_goals
      obtain ⟨field, got, found⟩ := ok_parts found
      cases found
      exact got
  | _ => contradiction

lemma methodHandle_listed {handle : Handle} (found : table.methodHandle index = .ok handle) :
    .methodHandle handle ∈ table.constants boots := by
  obtain ⟨_, _, present, _⟩ := methodHandle_entry found
  exact mem_constants present (by simp [constantsOf, found, made])

lemma methodType_entry (found : table.methodType index = .ok descriptor) :
    ∃ text, table.entry index = .ok (.methodType text) ∧
      table.text text = .ok descriptor.text := by
  obtain ⟨entry, present, found⟩ := ok_parts found
  cases entry with
  | methodType text => exact ⟨text, present, methodDescriptor_text found⟩
  | _ => contradiction

lemma methodType_listed (found : table.methodType index = .ok descriptor) :
    .methodType descriptor ∈ table.constants boots := by
  obtain ⟨_, present, _⟩ := methodType_entry found
  exact mem_constants present (by simp [constantsOf, found, made])

lemma allOf_ok {get : UInt16 → Result Loadable} (got : allOf get indices found = .ok xs) :
    ∃ more, xs = found.toList ++ more ∧
      Forall₂ (fun index value => get index = .ok value) indices more := by
  induction indices generalizing found with
  | nil =>
    cases got
    exact ⟨[], by simp, .nil⟩
  | cons index rest ih =>
    obtain ⟨value, first, got⟩ := ok_parts got
    obtain ⟨more, equal, others⟩ := ih got
    exact ⟨value :: more, by simp [equal], .cons first others⟩

lemma allOf_mono {get get' : UInt16 → Result Loadable}
    (implies : ∀ index value, get index = .ok value → get' index = .ok value)
    (got : allOf get indices found = .ok xs) :
    allOf get' indices found = .ok xs := by
  induction indices generalizing found with
  | nil => exact got
  | cons index rest ih =>
    obtain ⟨value, first, got⟩ := ok_parts got
    exact ok_bind_iff.mpr ⟨value, implies index value first, ih got⟩

/-- What holds for a dynamic constant that is got at an index. -/
lemma loadableWithin_dynamic {method pair : UInt16}
    (present : table.entry index = .ok (.dynamic method pair)) :
    table.loadableWithin boots (fuel + 1) index = .ok value ↔
      ∃ name type found arguments, table.fieldNameAndType pair = .ok (name, type) ∧
        bootstrapMethod boots method = .ok found ∧
        allOf (table.loadableWithin boots fuel) found.arguments #[] = .ok arguments ∧
        value = .dynamic name type found.handle arguments := by
  rw [loadableWithin, gettingEntry, ok_mapError_iff, ok_bind_iff]
  constructor
  · rintro ⟨entry, same, found⟩
    rw [present] at same
    cases same
    obtain ⟨⟨name, type⟩, paired, found⟩ := ok_parts found
    obtain ⟨method, given, found⟩ := ok_parts found
    obtain ⟨arguments, got, found⟩ := ok_parts found
    cases found
    exact ⟨name, type, method, arguments, paired, given, ok_mapError_iff.mp got, rfl⟩
  · rintro ⟨name, type, method, arguments, paired, given, got, rfl⟩
    exact ⟨_, present, ok_bind_iff.mpr ⟨_, paired, ok_bind_iff.mpr ⟨_, given, ok_bind_iff.mpr
      ⟨_, ok_mapError_iff.mpr got, rfl⟩⟩⟩⟩

/-- More fuel gives the same constants. -/
lemma loadableWithin_mono {more : Nat} (less : fuel ≤ more)
    (found : table.loadableWithin boots fuel index = .ok value) :
    table.loadableWithin boots more index = .ok value := by
  induction fuel generalizing more index value with
  | zero =>
    rw [loadableWithin] at found ⊢
    obtain ⟨entry, present, found⟩ := ok_parts (ok_mapError_iff.mp found)
    refine ok_mapError_iff.mpr (ok_bind_iff.mpr ⟨entry, present, ?_⟩)
    cases entry with
    | dynamic => contradiction
    | _ => exact found
  | succ fuel ih =>
    obtain ⟨more, rfl⟩ := Nat.exists_eq_succ_of_ne_zero (show more ≠ 0 by omega)
    obtain ⟨entry, present, _⟩ := ok_parts (ok_mapError_iff.mp
      (loadableWithin.eq_def .. ▸ found))
    by_cases dynamic : ∃ method pair, entry = .dynamic method pair
    · obtain ⟨method, pair, rfl⟩ := dynamic
      obtain ⟨name, type, method, arguments, paired, given, got, equal⟩ :=
        (loadableWithin_dynamic present).mp found
      exact (loadableWithin_dynamic present).mpr ⟨name, type, method, arguments, paired, given,
        allOf_mono (fun _ _ => ih (by omega)) got, equal⟩
    · rw [loadableWithin] at found ⊢
      obtain ⟨_, same, found⟩ := ok_parts (ok_mapError_iff.mp found)
      rw [present] at same
      cases same
      refine ok_mapError_iff.mpr (ok_bind_iff.mpr ⟨entry, present, ?_⟩)
      cases entry with
      | dynamic method pair => exact absurd ⟨method, pair, rfl⟩ dynamic
      | _ => exact found

lemma loadableWithin_listed (most : fuel ≤ maxDynamicDepth + 1)
    (found : table.loadableWithin boots fuel index = .ok value) :
    value.constant ∈ table.constants boots := by
  have whole : table.loadable boots index = .ok value := loadableWithin_mono most found
  rw [loadableWithin] at found
  obtain ⟨entry, present, found⟩ := ok_parts (ok_mapError_iff.mp found)
  cases entry with
  | integer | float | long | double =>
    cases found
    exact mem_constants present mem_cons_self
  | className =>
    obtain ⟨name, got, found⟩ := ok_parts found
    cases found
    exact className_listed got
  | string =>
    obtain ⟨value, got, found⟩ := ok_parts found
    cases found
    exact string_listed got
  | methodHandle =>
    obtain ⟨handle, got, found⟩ := ok_parts found
    cases found
    exact methodHandle_listed got
  | methodType =>
    obtain ⟨descriptor, got, found⟩ := ok_parts found
    cases found
    exact methodType_listed got
  | dynamic => exact mem_constants present (by simp [constantsOf, whole, made])
  | _ => contradiction

lemma loadable_listed (found : table.loadable boots index = .ok value) :
    value.constant ∈ table.constants boots :=
  loadableWithin_listed le_rfl found

lemma callSite_entry {site : CallSite} (found : table.callSite boots index = .ok site) :
    ∃ method pair found, table.entry index = .ok (.invokeDynamic method pair) ∧
      table.methodNameAndType pair = .ok (site.name, site.descriptor) ∧
      bootstrapMethod boots method = .ok found ∧ found.handle = site.handle ∧
      allOf (table.loadableWithin boots maxDynamicDepth) found.arguments #[] =
        .ok site.arguments := by
  obtain ⟨entry, present, found⟩ := ok_parts (ok_mapError_iff.mp found)
  cases entry with
  | invokeDynamic =>
    obtain ⟨_, paired, found⟩ := ok_parts found
    obtain ⟨method, given, found⟩ := ok_parts found
    obtain ⟨arguments, got, found⟩ := ok_parts found
    cases found
    exact ⟨_, _, method, present, paired, given, rfl, ok_mapError_iff.mp got⟩
  | _ => contradiction

lemma callSite_listed {site : CallSite} (found : table.callSite boots index = .ok site) :
    .invokeDynamic site ∈ table.constants boots := by
  obtain ⟨_, _, _, present, _⟩ := callSite_entry found
  exact mem_constants present (by simp [constantsOf, found, made])

end Loadables

section Supply

/-- What holds for the bootstrap methods that are read with a table. -/
def Bootstrap.IsGot (table : PoolTable) (boots : Bootstrap) : Prop :=
  ∀ methods, boots = some methods → ∀ method ∈ methods,
    (∃ index, table.methodHandle index = .ok method.handle) ∧ method.arguments.length ≤ 0xffff

lemma bootstrapMethod_mem {method : BootstrapMethod}
    (found : bootstrapMethod boots index = .ok method) :
    ∃ methods, boots = some methods ∧ method ∈ methods := by
  unfold bootstrapMethod at found
  split at found
  · contradiction
  · next methods =>
    split at found
    · next present =>
      cases found
      exact ⟨methods, rfl, Array.mem_of_getElem? present⟩
    · contradiction

lemma constants_cases (mem : constant ∈ table.constants boots) :
    constant ∈ ownConstants ∨ ∃ index entry, table.entry index = .ok entry ∧
      constant ∈ table.constantsOf boots index entry := by
  rcases mem_append.mp mem with own | got
  · exact .inl own
  · obtain ⟨number, _, got⟩ := mem_flatMap.mp got
    unfold constantsAt at got
    split at got
    · next entry present => exact .inr ⟨_, entry, present, got⟩
    · exact absurd got not_mem_nil

lemma dynamic_closed (got : boots.IsGot table) (most : fuel ≤ maxDynamicDepth + 1)
    {method : UInt16} {found : BootstrapMethod} {arguments : List Loadable}
    (given : bootstrapMethod boots method = .ok found)
    (each : allOf (table.loadableWithin boots fuel) found.arguments #[] = .ok arguments) :
    (∀ part ∈ .methodHandle found.handle :: arguments.map Loadable.constant,
      part ∈ table.constants boots) ∧ arguments.length ≤ 0xffff := by
  obtain ⟨methods, equal, mem⟩ := bootstrapMethod_mem given
  obtain ⟨⟨_, handled⟩, few⟩ := got methods equal found mem
  obtain ⟨_, rfl, all⟩ := allOf_ok each
  refine ⟨?_, by simpa [← all.length_eq] using few⟩
  rw [forall_mem_cons, forall_mem_map]
  refine ⟨methodHandle_listed handled, fun value mem => ?_⟩
  obtain ⟨index, _, related⟩ := forall₂_mem_right all mem
  exact loadableWithin_listed most related

/-- How many indices a table that has been read from a small file can have. -/
def maxIndices : Nat := 0x1000

/-- A table has few entries, and its strings are short. -/
structure IsSmall (table : PoolTable) : Prop where
  size : table.entries.size ≤ maxIndices
  strings : ∀ index value, table.entry index = .ok (.utf8 value) → value.toBytes.length ≤ 0xffff

lemma length_constantsOf_le (entry : PoolEntry) :
    (table.constantsOf boots index entry).length ≤ 4 := by
  have one {α : Type} (make : α → Constant) (result : Result α) :
      (made make result).length ≤ 4 := by
    cases result with
    | ok value => exact Nat.le_of_ble_eq_true rfl
    | error failure => exact Nat.zero_le 4
  cases entry with
  | utf8 | integer | float | long | double | moduleName | packageName =>
    exact Nat.le_of_ble_eq_true rfl
  | _ => exact one _ _

lemma length_constants_le :
    (table.constants boots).length ≤ 3 + 4 * table.entries.size := by
  have each (index : Nat) : (table.constantsAt boots (UInt16.ofNat index)).length ≤ 4 := by
    unfold constantsAt
    split
    · exact length_constantsOf_le _
    · exact Nat.zero_le 4
  have all (indices : List Nat) : (indices.flatMap fun index =>
      table.constantsAt boots (UInt16.ofNat index)).length ≤ 4 * indices.length := by
    induction indices with
    | nil => exact le_refl 0
    | cons index rest ih =>
      have few := each index
      rw [flatMap_cons, length_append, length_cons]
      omega
  have few := all (range table.entries.size)
  rw [length_range] at few
  rw [constants, length_append]
  exact Nat.add_le_add le_rfl few

/-- What a constant of the table refers to is one as well, and none of them is too long. -/
lemma constants_fit (small : table.IsSmall) (got : boots.IsGot table)
    (mem : constant ∈ table.constants boots) :
    (∀ part ∈ constant.parts, part ∈ table.constants boots) ∧
      (∀ value, constant = .utf8 value → value.toBytes.length ≤ 0xffff) ∧
      ∀ method, constant.bootstrap? = some method → method.2.length ≤ 0xffff := by
  rcases constants_cases mem with own | ⟨index, entry, present, among⟩
  · have short : (JavaString.ofString "BootstrapMethods").toBytes.length ≤ 0xffff := by
      decide +kernel
    simp only [ownConstants, mem_cons, not_mem_nil, or_false] at own
    rcases own with rfl | rfl | rfl <;> simp [parts, bootstrap?, ofText, short]
  cases entry with
  | utf8 =>
    obtain rfl := mem_singleton.mp among
    simp [parts, bootstrap?, small.strings index _ present]
  | float | long | double =>
    obtain rfl := mem_singleton.mp among
    simp [parts, bootstrap?]
  | integer =>
    simp only [constantsOf, narrowed, mem_cons, not_mem_nil, or_false] at among
    rcases among with rfl | rfl | rfl | rfl <;> simp [parts, bootstrap?]
  | className =>
    obtain ⟨name, found, rfl⟩ := mem_made.mp among
    obtain ⟨_, _, read⟩ := className_entry found
    simp [parts, bootstrap?, text_listed read]
  | string =>
    obtain ⟨value, found, rfl⟩ := mem_made.mp among
    obtain ⟨_, same, read⟩ := ok_parts found
    cases present.symm.trans same
    simp [parts, bootstrap?, javaString_listed read]
  | fieldRef =>
    obtain ⟨field, found, rfl⟩ := mem_made.mp among
    obtain ⟨_, _, _, owned, paired⟩ := fieldRef_entry found
    simp [parts, bootstrap?, className_listed owned, fieldNameAndType_listed paired]
  | methodRef | interfaceMethodRef =>
    obtain ⟨⟨method, onInterface⟩, found, rfl⟩ := mem_made.mp among
    obtain ⟨_, _, _, owned, paired⟩ := anyMethodRef_entry found
    cases onInterface <;>
      simp [parts, bootstrap?, ofMethod, className_listed owned, methodNameAndType_listed paired]
  | nameAndType =>
    obtain ⟨value, found, rfl⟩ := mem_made.mp among
    obtain ⟨_, _, _, named, described⟩ := nameAndType_entry found
    simp [parts, bootstrap?, text_listed named, text_listed described]
  | methodHandle =>
    obtain ⟨handle, found, rfl⟩ := mem_made.mp among
    obtain ⟨_, _, _, referred⟩ := methodHandle_entry found
    cases handle with
    | field => simp [parts, bootstrap?, fieldRef_listed referred]
    | method => simp [parts, bootstrap?, anyMethodRef_listed referred]
  | methodType =>
    obtain ⟨descriptor, found, rfl⟩ := mem_made.mp among
    obtain ⟨_, _, read⟩ := methodType_entry found
    simp [parts, bootstrap?, text_listed read]
  | dynamic =>
    obtain ⟨value, found, rfl⟩ := mem_made.mp among
    obtain ⟨name, type, method, arguments, paired, given, each, rfl⟩ :=
      (loadableWithin_dynamic present).mp found
    obtain ⟨listed, few⟩ := dynamic_closed got (by omega) given each
    refine ⟨forall_mem_cons.mpr ⟨fieldNameAndType_listed paired, listed⟩, by rintro _ ⟨⟩, ?_⟩
    rintro _ ⟨⟩
    exact few
  | invokeDynamic =>
    obtain ⟨site, found, rfl⟩ := mem_made.mp among
    obtain ⟨_, _, method, _, paired, given, same, each⟩ := callSite_entry found
    obtain ⟨listed, few⟩ := dynamic_closed got (by omega) given each
    refine ⟨forall_mem_cons.mpr ⟨methodNameAndType_listed paired, same ▸ listed⟩, by rintro _ ⟨⟩, ?_⟩
    rintro _ ⟨⟩
    exact few
  | moduleName | packageName => exact absurd among not_mem_nil

def supply (small : table.IsSmall) (got : boots.IsGot table) : Supply where
  constants := table.constants boots
  room := by
    have few := @length_constants_le table boots
    have size := small.size
    simp only [maxIndices] at size
    omega
  closed := fun _ mem => (constants_fit small got mem).1
  strings := fun _ mem => (constants_fit small got mem).2.1 _ rfl
  arguments := by
    intro method mem
    obtain ⟨constant, listed, named⟩ := mem_filterMap.mp mem
    exact (constants_fit small got listed).2.2 method named

end Supply

end PoolTable

section Reading

open ByteReader

structure PoolEntry.IsRead (cost : Nat) (entry : PoolEntry) : Prop where
  size : 3 * entry.size ≤ cost
  strings : ∀ value, entry = .utf8 value → value.toBytes.length ≤ 3 * cost

lemma PoolEntry.isRead_of_ne {cost : Nat} (size : 3 * entry.size ≤ cost)
    (other : ∀ value, entry ≠ .utf8 value) : entry.IsRead cost :=
  ⟨size, fun value same => absurd same (other value)⟩

lemma readUtf8_spends (index : Nat) :
    Spends (readUtf8 index) fun cost entry => entry.IsRead (cost + 1) := by
  refine u16_spends.bind fun _ length two => (bytes_spends _).bind fun cost contents found => ?_
  split
  · next string read =>
    refine .pure ⟨by simp [size]; omega, ?_⟩
    rintro _ ⟨⟩
    have units := JavaString.length_units_of_ofBytes read
    have bytes := string.length_toBytes_le
    omega
  · exact .throw

lemma readPair_spends {make : UInt16 → UInt16 → PoolEntry}
    (size : ∀ first second, (make first second).size = 1)
    (other : ∀ first second value, make first second ≠ .utf8 value) :
    Spends (readPair make) fun cost entry => entry.IsRead (cost + 1) :=
  u16_spends.bind fun _ first two => u16_spends.bind fun _ second two' =>
    .pure (isRead_of_ne (by rw [size]; omega) (other first second))

lemma PoolEntry.read_spends (index : Nat) :
    Spends (read index) fun cost entry => entry.IsRead cost := by
  have single {α : Type} {reader : ByteReader α} {make : α → PoolEntry} {width : Nat}
      (spends : Spends reader fun cost _ => cost = width)
      (size : ∀ value, 3 * (make value).size ≤ width + 1)
      (other : ∀ value string, make value ≠ .utf8 string) :
      Spends (do return make (← reader)) fun cost entry => entry.IsRead (cost + 1) :=
    spends.bind fun _ value spent => .pure (isRead_of_ne (by have := size value; omega)
      (other value))
  refine u8_spends.bind fun _ tag one => ?_
  rw [one]
  suffices Spends _ fun cost (entry : PoolEntry) => entry.IsRead (cost + 1) from
    this.weaken fun cost entry known => by rwa [add_comm]
  split
  case h_1 => exact readUtf8_spends index
  case h_2 => exact single i32_spends (by simp [size]) (by simp)
  case h_3 => exact single u32_spends (by simp [size]) (by simp)
  case h_4 => exact single i64_spends (by simp [size]) (by simp)
  case h_5 => exact single fixed_spends (by simp [size]) (by simp)
  case h_12 =>
    exact u8_spends.bind fun _ kind one => u16_spends.bind fun _ reference two =>
      .pure (isRead_of_ne (by simp [size]; omega) (by simp))
  case h_6 | h_7 | h_13 | h_16 | h_17 => exact single u16_spends (by simp [size]) (by simp)
  case h_18 => exact .throw
  all_goals exact readPair_spends (fun _ _ => rfl) (by simp)

namespace PoolTable

/-- What holds for the entries that have been read so far. -/
structure AreRead (spent : Nat) (entries : Array (Option PoolEntry)) : Prop where
  size : 3 * entries.size ≤ spent + 3
  strings : ∀ value, some (.utf8 value) ∈ entries → value.toBytes.length ≤ 3 * spent

lemma AreRead.push {spent cost : Nat} (read : AreRead spent entries) (fine : entry.IsRead cost) :
    AreRead (spent + cost)
      (if entry.size == 2 then (entries.push (some entry)).push none
        else entries.push (some entry)) := by
  have size := read.size
  have wide := entry.size_cases
  have small := fine.size
  have strings (value : JavaString) (mem : some (.utf8 value) ∈ entries.push (some entry)) :
      value.toBytes.length ≤ 3 * (spent + cost) := by
    rcases Array.mem_push.mp mem with old | same
    · have := read.strings value old
      omega
    · have := fine.strings value (Option.some.inj same).symm
      omega
  split
  · next two =>
    rw [beq_iff_eq] at two
    refine ⟨by simp only [Array.size_push]; omega, fun value mem => strings value ?_⟩
    simpa using mem
  · refine ⟨by simp only [Array.size_push]; omega, strings⟩

lemma readFrom_spends (count fuel : Nat) {spent : Nat} (read : AreRead spent entries) :
    Spends (readFrom count fuel entries) fun cost entries => AreRead (spent + cost) entries := by
  induction fuel generalizing spent entries with
  | zero => exact .pure read
  | succ fuel ih =>
    unfold readFrom
    split
    · refine (read_spends _).bind fun cost entry fine => ?_
      exact (ih (read.push fine)).weaken fun more entries known => by rwa [← add_assoc]
    · exact .pure read

lemma read_spends : Spends read fun cost table => cost ≤ 0x2000 → table.IsSmall := by
  have start : AreRead 0 #[none] := ⟨by simp, by simp⟩
  refine u16_spends.bind fun _ count two => (readFrom_spends _ _ start).bind
    fun cost entries read => ?_
  dsimp only
  split
  · exact .refusal
  · refine .pure fun few => ⟨?_, fun index value present => ?_⟩
    · have := read.size
      simp only [maxIndices]
      omega
    · unfold entry at present
      split at present
      · next found =>
        cases present
        have := read.strings value (Array.mem_of_getElem? found)
        omega
      · contradiction

end PoolTable

end Reading

end JvmAsm
