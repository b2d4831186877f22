/-
Says what encoders give: bytes that are read back with every table and bootstrap methods that the
pool grows into.
-/
import JvmAsm.Decode.Attribute
import JvmAsm.Encode.Basic
import JvmAsm.Proofs.Binary
import JvmAsm.Proofs.Pool.Loadable

namespace JvmAsm

open Binary List Decode PoolBuilder

instance : HasPool Encode.State := ⟨Encode.State.pool⟩

variable {α β σ : Type} {before : PoolBuilder → Prop}

/-- Values are worked on one after the other, and all results are known in the end. -/
lemma Yields.mapM [HasPool σ] {step : α → EStateM Failure σ β}
    {after : α → β → PoolBuilder → Prop} {xs : List α}
    (each : ∀ value ∈ xs, Yields before (step value) (after value)) :
    Yields before (xs.mapM step) fun results pool =>
      Forall₂ (fun value result => after value result pool) xs results := by
  induction xs with
  | nil =>
    rw [mapM_nil]
    exact .pure fun _ _ => .nil
  | cons value rest ih =>
    rw [mapM_cons]
    have tail := ih fun value mem => each value (mem_cons_of_mem _ mem)
    refine (each value mem_cons_self).bind fun result =>
      (tail.strengthen fun _ known => known.1).bind fun results =>
        .pure ?_
    rintro pool ⟨⟨_, head⟩, tail⟩
    exact .cons head tail

namespace PoolBuilder

def Encodes (pool : PoolBuilder) (reader : PoolTable → PoolTable.Bootstrap → ByteReader α)
    (bytes : List UInt8) (value : α) : Prop :=
  ∀ ⦃table : PoolTable⦄ ⦃boots : PoolTable.Bootstrap⦄, table.Agrees boots pool →
    Reads (reader table boots) bytes value

end PoolBuilder

namespace Encode

section Rules

variable {encoder : α → Encoder (List UInt8)} {cause : EncodingCause}
variable {reader : PoolTable → PoolTable.Bootstrap → ByteReader β} {after : α → PoolBuilder → Prop}
variable {results : α → β} {good : α → Prop} {result : Except Failure α}

lemma onPool_yields {action : PoolM α} (yields : Yields before action after) :
    Yields before (onPool action) after := by
  rintro ⟨pool, warnings⟩ value state' wf known ran
  rw [onPool] at ran
  cases found : action pool with
  | ok value pool' =>
    rw [found] at ran
    cases ran
    exact yields pool _ _ wf known found
  | error failure pool' =>
    rw [found] at ran
    cases ran

lemma within_ok {encoder : Encoder α} {state state' : State} {value : α}
    (ran : within cause encoder state = .ok value state') : encoder state = .ok value state' := by
  unfold within at ran
  split at ran
  · next found =>
    cases ran
    exact found
  · cases ran

lemma within_yields {encoder : Encoder α} (yields : Yields before encoder after) :
    Yields before (within cause encoder) after := fun _ _ _ wf known ran =>
  yields _ _ _ wf known (within_ok ran)

lemma ofResult_ok {state state' : State} {value : α}
    (ran : ofResult result state = .ok value state') : result = .ok value ∧ state = state' := by
  cases result with
  | ok found => exact (ran_pure_iff.mp ran).imp_left (congrArg Except.ok)
  | error failure => cases ran

lemma ofResult_yields
    (holds : ∀ value, result = .ok value → ∀ pool, before pool → after value pool) :
    Yields before (ofResult result) after := by
  cases result with
  | ok value => exact .pure (holds value rfl)
  | error failure => exact .throw

lemma fail_yields :
    Yields before (fail cause) after := .throw

lemma warn_yields (warning : Warning) : Yields before (warn warning) fun _ _ => True := by
  intro state value state' wf _ ran
  cases ran
  exact ⟨wf, .refl _, fun _ _ => trivial⟩

/-- The count of a list fits into two bytes. -/
lemma count16_yields (cause : EncodingCause) (count : Nat) :
    Yields before (within cause (ofResult (size16 count))) fun bytes _ =>
      count ≤ 0xffff ∧ bytes = bytes16 (UInt16.ofNat count) :=
  within_yields (ofResult_yields fun _ sized _ _ => size16_ok sized)

lemma count8_yields (cause : EncodingCause) (count : Nat) :
    Yields before (within cause (ofResult (size8 count))) fun bytes _ =>
      count ≤ 0xff ∧ bytes = [UInt8.ofNat count] :=
  within_yields (ofResult_yields fun _ sized _ _ => size8_ok sized)

lemma each_yields {xs : List α} {after : α → List UInt8 → PoolBuilder → Prop}
    (all : ∀ value ∈ xs, Yields before (encoder value) (after value)) :
    Yields before (each xs encoder) fun bytes pool =>
      ∃ chunks, bytes = chunks.flatten ∧
        Forall₂ (fun value chunk => after value chunk pool) xs chunks :=
  (Yields.mapM all).bind fun chunks => .pure fun _ known => ⟨chunks, rfl, known.2⟩

lemma chunks_read {pool : PoolBuilder} {xs : List α} {chunks : List (List UInt8)}
    (each : Forall₂ (fun value chunk => good value → pool.Encodes reader chunk (results value))
      xs chunks) (all : ∀ value ∈ xs, good value) {table : PoolTable}
    {boots : PoolTable.Bootstrap} (agrees : table.Agrees boots pool) :
    Forall₂ (Reads (reader table boots)) chunks (xs.map results) := by
  induction each with
  | nil => exact .nil
  | cons head _ ih =>
    exact .cons (head (all _ mem_cons_self) agrees)
      (ih fun value mem => all value (mem_cons_of_mem _ mem))

lemma list16_chunks {xs : List α} {after : α → List UInt8 → PoolBuilder → Prop}
    (all : ∀ value ∈ xs, Yields before (encoder value) (after value)) :
    Yields before (list16 cause xs encoder) fun bytes pool =>
      ∃ chunks, xs.length ≤ 0xffff ∧
        bytes = bytes16 (UInt16.ofNat xs.length) ++ chunks.flatten ∧
        Forall₂ (fun value chunk => after value chunk pool) xs chunks := by
  refine (count16_yields cause _).bind fun count =>
    ((each_yields all).strengthen fun _ known => known.1).bind fun bytes =>
      .pure ?_
  rintro pool ⟨⟨_, fits, rfl⟩, chunks, rfl, each⟩
  exact ⟨chunks, fits, rfl, each⟩

/-- The values of a list are read back with their number in front, if all of them are good. -/
lemma list16_yields {xs : List α}
    (all : ∀ value ∈ xs, Yields before (encoder value) fun bytes pool =>
      good value → pool.Encodes reader bytes (results value)) :
    Yields before (list16 cause xs encoder) fun bytes pool => (∀ value ∈ xs, good value) →
      pool.Encodes (fun table boots => ByteReader.list16 (reader table boots)) bytes
        (xs.map results) := by
  refine (list16_chunks all).weaken ?_
  rintro bytes pool _ ⟨chunks, fits, rfl, each⟩ good table boots agrees
  have list := Reads.list16 (chunks_read each good agrees) (by rwa [length_map])
  rwa [length_map] at list

lemma list8_yields {xs : List α}
    (all : ∀ value ∈ xs, Yields before (encoder value) fun bytes pool =>
      good value → pool.Encodes reader bytes (results value)) :
    Yields before (list8 cause xs encoder) fun bytes pool => (∀ value ∈ xs, good value) →
      pool.Encodes (fun table boots => ByteReader.list8 (reader table boots)) bytes
        (xs.map results) := by
  refine (count8_yields cause _).bind fun count =>
    ((each_yields all).strengthen fun _ known => known.1).bind fun bytes =>
      .pure ?_
  rintro pool ⟨⟨_, fits, rfl⟩, chunks, rfl, each⟩ good table boots agrees
  have list := Reads.list8 (chunks_read each good agrees) (by rwa [length_map])
  rwa [length_map] at list

/-- The values of a list are read back as they are. -/
lemma plainList16_yields {xs : List α}
    {reader : PoolTable → PoolTable.Bootstrap → ByteReader α}
    (all : ∀ value ∈ xs, Yields before (encoder value) fun bytes pool =>
      pool.Encodes reader bytes value) :
    Yields before (list16 cause xs encoder) fun bytes pool =>
      pool.Encodes (fun table boots => ByteReader.list16 (reader table boots)) bytes
        xs := by
  have each : ∀ value ∈ xs, Yields before (encoder value) fun bytes pool =>
      True → pool.Encodes reader bytes (id value) := fun value mem =>
    (all value mem).weaken fun _ _ _ encodes _ => encodes
  refine (list16_yields each).weaken fun bytes pool _ encodes => ?_
  have whole := encodes fun _ _ => trivial
  rwa [map_id] at whole

end Rules

section Indices

variable {get : PoolTable → UInt16 → Except Failure α} {value : α} {intern : α → PoolM UInt16}
variable {action : PoolM UInt16}

/-- The index of a constant is read as the constant. -/
lemma index_yields (yields : Yields before action fun index pool => pool.Refers get index value) :
    Yields before (index action) fun bytes pool =>
      pool.Encodes (fun table _ => entry (get table)) bytes value := by
  refine (onPool_yields yields).bind fun found => .pure ?_
  rintro pool ⟨_, refers⟩ table boots agrees
  exact (Reads.u16 found).bind_pure (Reads.ofResult (refers.2 table agrees.has))

/-- An index takes two bytes. -/
lemma index_size {after : UInt16 → PoolBuilder → Prop} (yields : Yields before action after) :
    Yields before (index action) fun bytes _ => bytes.length = 2 :=
  (onPool_yields yields).bind fun _ => .pure fun _ _ => rfl

lemma utf8_size (text : String) : Yields before (utf8 text) fun bytes _ => bytes.length = 2 :=
  index_size (utf8_yields text)

lemma utf8_yields (text : String) :
    Yields before (utf8 text) fun bytes pool =>
      pool.Encodes (fun table _ => entry table.text) bytes text :=
  index_yields (PoolBuilder.utf8_yields text)

/-- A text is read by every reader that accepts it. -/
lemma text_yields {text : String}
    (accepts : ∀ {pool : PoolBuilder} {index : UInt16}, pool.Refers PoolTable.text index text →
      pool.Refers get index value) :
    Yields before (utf8 text) fun bytes pool =>
      pool.Encodes (fun table _ => entry (get table)) bytes value :=
  index_yields ((PoolBuilder.utf8_yields text).weaken
    fun _ _ _ refers => accepts refers)

lemma fieldType_yields (type : FieldType) :
    Yields before (utf8 type.text) fun bytes pool =>
      pool.Encodes (fun table _ => entry table.fieldType) bytes type :=
  text_yields PoolBuilder.Refers.fieldType

lemma className_yields (name : ClassName) :
    Yields before (className name) fun bytes pool =>
      pool.Encodes (fun table _ => entry table.className) bytes name :=
  index_yields (className_refers name)

lemma className_size (name : ClassName) :
    Yields before (className name) fun bytes _ => bytes.length = 2 :=
  index_size (className_refers name)

section

variable (yields : ∀ given, Yields before (intern given) fun index pool => pool.Refers get index given)
variable {value : Option α}

include yields

/-- The index of a constant that may be missing is read as such. -/
lemma optionalIndex_yields :
    Yields before (onPool (optional intern value)) fun found pool =>
      pool.Encodes (fun table _ => optionalEntry (get table)) (bytes16 found) value := by
  cases value with
  | none =>
    refine onPool_yields (.pure fun pool _ table boots agrees => ?_)
    exact (Reads.u16 0).bind_pure (Reads.ofResult rfl)
  | some given =>
    refine (onPool_yields (yields given)).weaken ?_
    intro found pool _ refers table boots agrees
    refine (Reads.u16 found).bind_pure (Reads.ofResult ?_)
    have some : (found == 0) = false := by simpa using refers.1
    rw [PoolTable.optional, some, refers.2 table agrees.has]
    rfl

lemma optional_yields :
    Yields before (index (optional intern value)) fun bytes pool =>
      pool.Encodes (fun table _ => optionalEntry (get table)) bytes value :=
  (optionalIndex_yields yields).bind fun _ => .pure fun _ known => known.2

lemma optional_size :
    Yields before (index (optional intern value)) fun bytes _ => bytes.length = 2 :=
  (optionalIndex_yields yields).bind fun _ => .pure fun _ _ => rfl

end

end Indices

end Encode

end JvmAsm
