/-
Says which constant the entries of a pool stand for at an index: the entry there has the form of the
constant, and the indices in it stand for the parts of the constant.
-/
import JvmAsm.Proofs.Pool.Loadable

namespace JvmAsm

open List Constant

variable {handle : Handle}

/-- A constant that code loads, as one of all constants. -/
def Loadable.constant : Loadable → Constant
  | .integer value => .integer value
  | .float value => .float value
  | .long value => .long value
  | .double value => .double value
  | .className name => .className name
  | .string value => .string value
  | .methodHandle handle => .methodHandle handle
  | .methodType descriptor => .methodType descriptor
  | .dynamic name type handle xs => .dynamic name type handle xs

def Constant.ofMethod (method : MethodRef) (onInterface : Bool) : Constant :=
  if onInterface then .interfaceMethodRef method else .methodRef method

def Constant.ofText (text : String) : Constant := .utf8 (.ofString text)

def Constant.parts : Constant → List Constant
  | .className name => [.ofText name.text]
  | .string value => [.utf8 value]
  | .fieldRef field => [.className field.owner, .nameAndType field.name.text field.type.text]
  | .methodRef method | .interfaceMethodRef method =>
    [.className method.owner, .nameAndType method.name.text method.descriptor.text]
  | .nameAndType name descriptor => [.ofText name, .ofText descriptor]
  | .methodHandle (.field _ field) => [.fieldRef field]
  | .methodHandle (.method kind method) => [.ofMethod method kind.onInterface]
  | .methodType descriptor => [.ofText descriptor.text]
  | .dynamic name type handle xs =>
    .nameAndType name.text type.text :: .methodHandle handle :: xs.map Loadable.constant
  | .invokeDynamic site =>
    .nameAndType site.name.text site.descriptor.text :: .methodHandle site.handle ::
      site.arguments.map Loadable.constant
  | _ => []

def Constant.bootstrap? : Constant → Option (Handle × List Loadable)
  | .dynamic _ _ handle xs => some (handle, xs)
  | .invokeDynamic site => some (site.handle, site.arguments)
  | _ => none

/-- What can be read back from its text has a text of its own. -/
lemma injective_of_read {α β : Type} {write : α → β} {read? : β → Option α}
    (reads : ∀ value, read? (write value) = some value) : Function.Injective write := by
  intro value value' same
  have read := congrArg read? same
  rwa [reads, reads, Option.some.injEq] at read

lemma Constant.ofText_injective : Function.Injective ofText :=
  fun _ _ same => injective_of_read JavaString.text?_ofString (utf8.inj same)

lemma ClassName.text_injective : Function.Injective ClassName.text :=
  injective_of_read ofString?_text

lemma UnqualifiedName.text_injective : Function.Injective UnqualifiedName.text :=
  injective_of_read ofString?_text

lemma MethodName.text_injective : Function.Injective MethodName.text :=
  injective_of_read ofString?_text

lemma FieldType.text_injective : Function.Injective FieldType.text :=
  injective_of_read ofString?_text

lemma MethodDescriptor.text_injective : Function.Injective MethodDescriptor.text :=
  injective_of_read ofString?_text

/-- The number by which an entry tells how a handle gets to its member. -/
def Handle.code : Handle → UInt8
  | .field kind _ => kind.code
  | .method kind _ => kind.code

lemma Loadable.constant_injective : Function.Injective Loadable.constant := by
  intro value value' same
  cases value <;> cases value' <;> simp_all [Loadable.constant]

lemma FieldHandleKind.code_injective {kind kind' : FieldHandleKind}
    (same : kind.code = kind'.code) : kind = kind' := by
  revert same
  cases kind <;> cases kind' <;> decide

/-- Kinds with the same code differ only in whether the method is one of an interface. -/
lemma MethodHandleKind.eq_of_code {kind kind' : MethodHandleKind}
    (code : kind.code = kind'.code) (owner : kind.onInterface = kind'.onInterface) :
    kind = kind' := by
  cases kind <;> cases kind' <;> simp_all [MethodHandleKind.code, onInterface]

lemma Constant.ofMethod_injective {method method' : MethodRef} {onInterface onInterface' : Bool}
    (same : ofMethod method onInterface = .ofMethod method' onInterface') :
    method = method' ∧ onInterface = onInterface' := by
  cases onInterface <;> cases onInterface' <;> simp_all [ofMethod]

lemma FieldRef.eq_of_parts {field field' : FieldRef}
    (same : (fieldRef field).parts = (fieldRef field').parts) :
    field = field' := by
  obtain ⟨owner, name, type⟩ := field
  simp only [parts, cons.injEq, className.injEq, nameAndType.injEq] at same
  obtain ⟨rfl, ⟨named, typed⟩, -⟩ := same
  rw [UnqualifiedName.text_injective named, FieldType.text_injective typed]

lemma MethodRef.eq_of_parts {method method' : MethodRef}
    (same : (methodRef method).parts = (methodRef method').parts) :
    method = method' := by
  obtain ⟨owner, name, descriptor⟩ := method
  simp only [parts, cons.injEq, className.injEq, nameAndType.injEq] at same
  obtain ⟨rfl, ⟨named, described⟩, -⟩ := same
  rw [MethodName.text_injective named, MethodDescriptor.text_injective described]

/-- Handles with the same code that refer to the same member are the same. -/
lemma Handle.eq_of_parts {handle' : Handle} (code : handle.code = handle'.code)
    (parts : (methodHandle handle).parts = (methodHandle handle').parts) :
    handle = handle' := by
  cases handle with
  | field kind field =>
    cases handle' with
    | field kind' field' =>
      obtain rfl := FieldHandleKind.code_injective code
      exact congrArg _ (fieldRef.inj (singleton_inj.mp parts))
    | method kind' method' =>
      have part := singleton_inj.mp parts
      unfold ofMethod at part
      split at part <;> contradiction
  | method kind method =>
    cases handle' with
    | field kind' field' =>
      have part := singleton_inj.mp parts
      unfold ofMethod at part
      split at part <;> contradiction
    | method kind' method' =>
      obtain ⟨rfl, owner⟩ := ofMethod_injective (singleton_inj.mp parts)
      rw [MethodHandleKind.eq_of_code code owner]

namespace PoolBuilder

variable {α β : Type} {pool : PoolBuilder}

/-- The action adds nothing to the pool, nor to any pool that it grows into. -/
def Settled (action : PoolM α) (pool : PoolBuilder) (value : α) : Prop :=
  ∀ later, pool.Extends later → later.WellFormed → action later = .ok value later

lemma Settled.bind {action : PoolM α} {next : α → PoolM β} {value : α} {result : β}
    (first : Settled action pool value) (second : Settled (next value) pool result) :
    Settled (action >>= next) pool result :=
  fun later grown wf => ran_bind_iff.mpr
    ⟨value, later, first later grown wf, second later grown wf⟩

def bootstrapOf (key : Handle × List Loadable) : PoolM UInt16 := do
  let indices ← arguments #[] key.2
  putBootstrap key.1 ⟨← methodHandle key.1, indices⟩

lemma intern_ofMethod (method : MethodRef) (onInterface : Bool) :
    intern (.ofMethod method onInterface) = methodRef method onInterface := by
  cases onInterface <;> rfl

lemma intern_dynamic (name : UnqualifiedName) (type : FieldType) (handle : Handle)
    (xs : List Loadable) :
    intern (.dynamic name type handle xs) = (do
      let pair ← nameAndType name.text type.text
      let method ← bootstrapOf (handle, xs)
      put (.dynamic method pair)) := by
  change loadable _ = _
  rw [loadable]
  simp only [bootstrapOf, bind_assoc]

lemma intern_invokeDynamic (site : CallSite) :
    intern (.invokeDynamic site) = (do
      let pair ← nameAndType site.name.text site.descriptor.text
      let method ← bootstrapOf (site.handle, site.arguments)
      put (.invokeDynamic method pair)) := by
  simp only [intern, invokeDynamic, bootstrapOf, bind_assoc]

lemma settled_put {entry : PoolEntry} {index : UInt16} (holds : pool.Holds index.toNat entry) :
    Settled (put entry) pool index := by
  intro later grown wf
  rw [put, (wf.indices entry index).mpr (holds.mono grown)]

lemma settled_putBootstrap {entry : BootstrapEntry} {index : UInt16}
    (holds : pool.bootstrapMethods.toList[index.toNat]? = some entry) :
    Settled (putBootstrap handle entry) pool index := by
  intro later grown wf
  rw [putBootstrap, (wf.bootstrapIndices entry index).mpr (grown.bootstrapMethod holds)]

/-- The entry of a constant, given the indices of the parts of the constant. -/
inductive Forms (pool : PoolBuilder) : Constant → List UInt16 → PoolEntry → Prop
  | utf8 (value : JavaString) : Forms pool (.utf8 value) [] (.utf8 value)
  | integer (value : Int32) : Forms pool (.integer value) [] (.integer value)
  | float (bits : UInt32) : Forms pool (.float ⟨bits⟩) [] (.float bits)
  | long (value : Int64) : Forms pool (.long value) [] (.long value)
  | double (bits : UInt64) : Forms pool (.double ⟨bits⟩) [] (.double bits)
  | className (name : ClassName) (text : UInt16) :
    Forms pool (.className name) [text] (.className text)
  | string (value : JavaString) (text : UInt16) : Forms pool (.string value) [text] (.string text)
  | fieldRef (field : FieldRef) (owner pair : UInt16) :
    Forms pool (.fieldRef field) [owner, pair] (.fieldRef owner pair)
  | methodRef (method : MethodRef) (owner pair : UInt16) :
    Forms pool (.methodRef method) [owner, pair] (.methodRef owner pair)
  | interfaceMethodRef (method : MethodRef) (owner pair : UInt16) :
    Forms pool (.interfaceMethodRef method) [owner, pair] (.interfaceMethodRef owner pair)
  | nameAndType (name descriptor : String) (nameIndex descriptorIndex : UInt16) :
    Forms pool (.nameAndType name descriptor) [nameIndex, descriptorIndex]
      (.nameAndType nameIndex descriptorIndex)
  | methodHandle (handle : Handle) (code : UInt8) (reference : UInt16) (same : code = handle.code) :
    Forms pool (.methodHandle handle) [reference] (.methodHandle code reference)
  | methodType (descriptor : MethodDescriptor) (text : UInt16) :
    Forms pool (.methodType descriptor) [text] (.methodType text)
  | dynamic (name : UnqualifiedName) (type : FieldType) (handle : Handle) (xs : List Loadable)
    (method pair index : UInt16) (indices : List UInt16)
    (held : pool.bootstrapMethods.toList[method.toNat]? = some ⟨index, indices⟩) :
    Forms pool (.dynamic name type handle xs) (pair :: index :: indices) (.dynamic method pair)
  | invokeDynamic (site : CallSite) (method pair index : UInt16) (indices : List UInt16)
    (held : pool.bootstrapMethods.toList[method.toNat]? = some ⟨index, indices⟩) :
    Forms pool (.invokeDynamic site) (pair :: index :: indices) (.invokeDynamic method pair)

inductive Stores (pool : PoolBuilder) : UInt16 → Constant → Prop
  | mk {index : UInt16} {constant : Constant} {indices : List UInt16} {entry : PoolEntry}
    (holds : pool.Holds index.toNat entry) (forms : pool.Forms constant indices entry)
    (length : indices.length = constant.parts.length)
    (parts : ∀ (place : Nat) (index : UInt16) (part : Constant), indices[place]? = some index →
      constant.parts[place]? = some part → Stores pool index part) : Stores pool index constant

variable {pool later : PoolBuilder} {index : UInt16} {constant constant' : Constant}
  {indices indices' : List UInt16} {entry entry' : PoolEntry}

lemma Stores.of_parts (holds : pool.Holds index.toNat entry)
    (forms : pool.Forms constant indices entry)
    (parts : Forall₂ pool.Stores indices constant.parts) : pool.Stores index constant := by
  refine .mk holds forms parts.length_eq fun place index part found got => ?_
  obtain ⟨part', got', stores⟩ := forall₂_getElem? parts found
  rw [got] at got'
  cases got'
  exact stores

/-- What an index stands for is given by its entry and by what the indices in it stand for. -/
lemma Stores.parts (stores : pool.Stores index constant) :
    ∃ entry indices, pool.Holds index.toNat entry ∧ pool.Forms constant indices entry ∧
      Forall₂ pool.Stores indices constant.parts := by
  obtain ⟨holds, forms, length, parts⟩ := stores
  refine ⟨_, _, holds, forms, forall₂_iff_get.mpr ⟨length, fun place inside inside' => ?_⟩⟩
  exact parts place _ _ (getElem?_eq_getElem inside) (getElem?_eq_getElem inside')

lemma Forms.mono (forms : pool.Forms constant indices entry) (grown : pool.Extends later) :
    later.Forms constant indices entry := by
  cases forms with
  | dynamic name type handle xs method pair index indices held =>
    exact .dynamic name type handle xs method pair index indices
      (grown.bootstrapMethod held)
  | invokeDynamic site method pair index indices held =>
    exact .invokeDynamic site method pair index indices (grown.bootstrapMethod held)
  | methodHandle handle code reference same => exact .methodHandle handle code reference same
  | _ => constructor

lemma Stores.mono (stores : pool.Stores index constant) (grown : pool.Extends later) :
    later.Stores index constant := by
  induction stores with
  | mk holds forms length _ ih => exact .mk (holds.mono grown) (forms.mono grown) length ih

lemma Forms.indices_eq (forms : pool.Forms constant indices entry)
    (forms' : pool.Forms constant' indices' entry) : indices = indices' := by
  cases forms with
  | dynamic _ _ _ _ _ _ _ _ held =>
    cases forms' with
    | dynamic _ _ _ _ _ _ _ _ held' =>
      rw [held] at held'
      cases held'
      rfl
  | invokeDynamic _ _ _ _ _ held =>
    cases forms' with
    | invokeDynamic _ _ _ _ _ held' =>
      rw [held] at held'
      cases held'
      rfl
  | _ =>
    cases forms'
    rfl

lemma Forms.eq_of_parts (forms : pool.Forms constant indices entry)
    (forms' : pool.Forms constant' indices entry) (same : constant.parts = constant'.parts) :
    constant = constant' := by
  cases forms with
  | className name text =>
    cases forms' with
    | className name' text =>
      exact congrArg _ (ClassName.text_injective
        (ofText_injective (singleton_inj.mp same)))
  | string value text =>
    cases forms' with
    | string value' text => exact congrArg _ (utf8.inj (singleton_inj.mp same))
  | fieldRef field owner pair =>
    cases forms' with
    | fieldRef field' owner pair => exact congrArg _ (FieldRef.eq_of_parts same)
  | methodRef method owner pair =>
    cases forms' with
    | methodRef method' owner pair => exact congrArg _ (MethodRef.eq_of_parts same)
  | interfaceMethodRef method owner pair =>
    cases forms' with
    | interfaceMethodRef method' owner pair => exact congrArg _ (MethodRef.eq_of_parts same)
  | nameAndType name descriptor nameIndex descriptorIndex =>
    cases forms' with
    | nameAndType name' descriptor' nameIndex descriptorIndex =>
      simp only [parts, cons.injEq] at same
      rw [ofText_injective same.1, ofText_injective same.2.1]
  | methodHandle handle code reference coded =>
    cases forms' with
    | methodHandle handle' code reference coded' =>
      exact congrArg _ (Handle.eq_of_parts (coded.symm.trans coded') same)
  | methodType descriptor text =>
    cases forms' with
    | methodType descriptor' text =>
      exact congrArg _ (MethodDescriptor.text_injective
        (ofText_injective (singleton_inj.mp same)))
  | dynamic name type handle xs method pair index indices =>
    cases forms' with
    | dynamic name' type' handle' xs' method pair index indices =>
      simp only [parts, cons.injEq, nameAndType.injEq, methodHandle.injEq] at same
      obtain ⟨⟨named, typed⟩, rfl, given⟩ := same
      rw [UnqualifiedName.text_injective named, FieldType.text_injective typed,
        map_injective_iff.mpr Loadable.constant_injective given]
  | invokeDynamic site method pair index indices =>
    cases forms' with
    | invokeDynamic site' method pair index indices =>
      obtain ⟨name, descriptor, handle, xs⟩ := site
      simp only [parts, cons.injEq, nameAndType.injEq, methodHandle.injEq] at same
      obtain ⟨⟨named, described⟩, rfl, given⟩ := same
      rw [MethodName.text_injective named, MethodDescriptor.text_injective described,
        map_injective_iff.mpr Loadable.constant_injective given]
  | _ =>
    cases forms'
    rfl

lemma Holds.entry_eq {index : Nat} (holds : pool.Holds index entry)
    (holds' : pool.Holds index entry') : entry = entry' := by
  obtain ⟨before, after, entries, rfl⟩ := holds
  obtain ⟨before', after', entries', same⟩ := holds'
  have positive := entry.size_cases
  have positive' := entry'.size_cases
  rcases append_eq_append_iff.mp (entries.symm.trans entries') with
    ⟨middle, rfl, rest⟩ | ⟨middle, rfl, rest⟩
  · cases middle with
    | nil => exact (cons.inj rest).1
    | cons first middle =>
      obtain ⟨rfl, -⟩ := cons.inj rest
      rw [PoolEntry.totalSize_append, PoolEntry.totalSize_cons] at same
      omega
  · cases middle with
    | nil => exact (cons.inj rest).1.symm
    | cons first middle =>
      obtain ⟨rfl, -⟩ := cons.inj rest
      rw [PoolEntry.totalSize_append, PoolEntry.totalSize_cons] at same
      omega

lemma Stores.constant_eq (stores : pool.Stores index constant)
    (stores' : pool.Stores index constant') : constant = constant' := by
  induction stores generalizing constant' with
  | @mk index constant indices entry holds forms length parts ih =>
    obtain ⟨entry', indices', holds', forms', parts'⟩ := stores'.parts
    obtain rfl := holds.entry_eq holds'
    obtain rfl := forms.indices_eq forms'
    refine forms.eq_of_parts forms' (ext_getElem (length.symm.trans parts'.length_eq)
      fun place inside inside' => ?_)
    have within : place < indices.length := length ▸ inside
    exact ih place _ _ (getElem?_eq_getElem within) (getElem?_eq_getElem inside)
      ((forall₂_iff_get.mp parts').2 place within inside')

/-- Constants that have all been added are not added again. -/
lemma settled_arguments {xs : List Loadable} (found : Array UInt16)
    (settled : Forall₂ (fun index value => Settled (loadable value) pool index) indices
      xs) : Settled (arguments found xs) pool (found.toList ++ indices) := by
  induction settled generalizing found with
  | nil =>
    rw [arguments, append_nil]
    exact fun _ _ _ => rfl
  | @cons index value indices xs first _ ih =>
    rw [arguments]
    refine first.bind ?_
    simpa using ih (found.push index)

lemma intern_constant (value : Loadable) : intern value.constant = loadable value := by
  cases value with
  | dynamic => rfl
  | _ =>
    rw [loadable]
    rfl

/-- A bootstrap method that is there with its handle and its arguments is not added again. -/
lemma settled_bootstrapOf {xs : List Loadable} {method : UInt16}
    (held : pool.bootstrapMethods.toList[method.toNat]? = some ⟨index, indices⟩)
    (handled : Settled (intern (.methodHandle handle)) pool index)
    (given : Forall₂ (fun index value => Settled (loadable value) pool index) indices xs) :
    Settled (bootstrapOf (handle, xs)) pool method := by
  have settled := settled_arguments #[] given
  rw [nil_append] at settled
  exact settled.bind (handled.bind (settled_putBootstrap held))

/-- A constant that a pool has is not added again. -/
lemma Stores.settled (stores : pool.Stores index constant) :
    Settled (intern constant) pool index := by
  induction stores with
  | @mk index constant indices entry holds forms length parts ih =>
    have added := settled_put holds
    have settled : Forall₂ (fun index part => Settled (intern part) pool index) indices
        constant.parts :=
      forall₂_iff_get.mpr ⟨length, fun place inside inside' =>
        ih place _ _ (getElem?_eq_getElem inside) (getElem?_eq_getElem inside')⟩
    clear parts ih
    cases forms with
    | className | string | methodType =>
      obtain _ | ⟨first, _⟩ := settled
      exact first.bind added
    | fieldRef | methodRef | interfaceMethodRef | nameAndType =>
      obtain _ | ⟨first, _ | ⟨second, _⟩⟩ := settled
      exact first.bind (second.bind added)
    | methodHandle handle code reference coded =>
      subst coded
      cases handle with
      | field kind field =>
        obtain _ | ⟨first, _⟩ := settled
        exact first.bind added
      | method kind method =>
        obtain _ | ⟨first, _⟩ := settled
        rw [intern_ofMethod] at first
        exact first.bind added
    | dynamic name type handle xs method pair handleIndex indices held =>
      obtain _ | ⟨first, _ | ⟨second, rest⟩⟩ := settled
      rw [forall₂_map_right_iff] at rest
      simp only [intern_constant] at rest
      rw [intern_dynamic]
      exact first.bind ((settled_bootstrapOf held second rest).bind added)
    | invokeDynamic site method pair handleIndex indices held =>
      obtain _ | ⟨first, _ | ⟨second, rest⟩⟩ := settled
      rw [forall₂_map_right_iff] at rest
      simp only [intern_constant] at rest
      rw [intern_invokeDynamic]
      exact first.bind ((settled_bootstrapOf held second rest).bind added)
    | _ => exact added

end PoolBuilder

end JvmAsm
