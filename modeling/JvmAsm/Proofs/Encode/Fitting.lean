/- Says when encoders succeed. -/
import JvmAsm.Proofs.Decode.Spending
import JvmAsm.Proofs.Pool.Capacity

namespace JvmAsm

open List Encode

variable {encoders : List AttributeEncoder} {count total more : Nat}

namespace Encode

open Binary

variable {α β : Type} {supply : Supply} {good : α → Prop} {better : β → Prop} {cost : Nat}

/-- The encoder gives something good, and the pool is kept within the supply. -/
def Succeeds (supply : Supply) (encoder : Encoder α) (good : α → Prop) : Prop :=
  ∀ state, state.pool.Within supply → ∃ value later, encoder state = .ok value later ∧
    later.pool.Within supply ∧ good value

namespace Succeeds

variable {encoder : Encoder α}

lemma pure {value : α} (holds : good value) : Succeeds supply (Pure.pure value) good :=
  fun state within => ⟨value, state, rfl, within, holds⟩

lemma bind {next : α → Encoder β} (first : Succeeds supply encoder good)
    (second : ∀ value, good value → Succeeds supply (next value) better) :
    Succeeds supply (encoder >>= next) better := by
  intro state within
  obtain ⟨value, between, ran, within, fine⟩ := first state within
  obtain ⟨result, last, ran', within, fine'⟩ := second value fine between within
  exact ⟨result, last, ran_bind ran ran', within, fine'⟩

lemma weaken {fine : α → Prop} (succeeds : Succeeds supply encoder good)
    (implies : ∀ value, good value → fine value) : Succeeds supply encoder fine := by
  intro state within
  obtain ⟨value, later, ran, within, holds⟩ := succeeds state within
  exact ⟨value, later, ran, within, implies value holds⟩

lemma within (cause : EncodingCause) (succeeds : Succeeds supply encoder good) :
    Succeeds supply (within cause encoder) good := by
  intro state within
  obtain ⟨value, later, ran, within, holds⟩ := succeeds state within
  exact ⟨value, later, by rw [Encode.within, ran], within, holds⟩

lemma ofResult {result : Except Failure α} {value : α} (given : result = .ok value)
    (holds : good value) : Succeeds supply (ofResult result) good := by
  rw [given]
  exact pure holds

lemma onPool {action : PoolM α} (succeeds : PoolBuilder.Manages supply action good) :
    Succeeds supply (onPool action) good := by
  rintro ⟨pool, warnings⟩ within
  obtain ⟨value, later, ran, within, holds⟩ := succeeds pool within
  exact ⟨value, ⟨later, warnings⟩, by rw [Encode.onPool, ran], within, holds⟩

lemma warn (warning : Warning) : Succeeds supply (warn warning) fun _ => True :=
  fun state within => ⟨(), { state with warnings := state.warnings.push warning }, rfl, within,
    trivial⟩

lemma count16 (cause : EncodingCause) (few : count ≤ 0xffff) :
    Succeeds supply (Encode.within cause (Encode.ofResult (size16 count))) fun bytes =>
      bytes.length = 2 :=
  within _ (ofResult (if_pos few) rfl)

lemma count8 (cause : EncodingCause) (few : count ≤ 0xff) :
    Succeeds supply (Encode.within cause (Encode.ofResult (size8 count))) fun bytes =>
      bytes.length = 1 :=
  within _ (ofResult (if_pos few) rfl)

lemma count32 (cause : EncodingCause) (few : count ≤ 0xffffffff) :
    Succeeds supply (Encode.within cause (Encode.ofResult (size32 count))) fun bytes =>
      bytes.length = 4 :=
  within _ (ofResult (if_pos few) rfl)

lemma index {action : PoolM UInt16} (adds : PoolBuilder.Adds supply action) :
    Succeeds supply (index action) fun bytes => bytes.length = 2 :=
  (onPool adds).bind fun _ _ => pure rfl

lemma utf8 {text : String} (listed : .ofText text ∈ supply.constants) :
    Succeeds supply (utf8 text) fun bytes => bytes.length = 2 :=
  index (PoolBuilder.intern_adds listed)

lemma className {name : ClassName} (listed : .className name ∈ supply.constants) :
    Succeeds supply (className name) fun bytes => bytes.length = 2 :=
  index (PoolBuilder.intern_adds listed)

end Succeeds

/-- The number of bytes up to which everything can be written again. -/
def maxSpent : Nat := 0x2000

/-- What is written instead of the given number of bytes is at most twice as long. -/
def Fits (supply : Supply) (cost : Nat) (encoder : Encoder (List UInt8)) : Prop :=
  cost ≤ maxSpent → Succeeds supply encoder fun bytes => bytes.length ≤ 2 * cost

/-- The same for attributes, of which there are not too many. -/
def FitsAttributes (supply : Supply) (cost : Nat) (encoder : AttributeEncoder) : Prop :=
  cost ≤ maxSpent → Succeeds supply encoder fun found =>
    found.length ≤ cost ∧ found.flatten.length ≤ 2 * cost

lemma Fits.within {encoder : Encoder (List UInt8)} (fits : Fits supply cost encoder)
    (cause : EncodingCause) : Fits supply cost (within cause encoder) :=
  fun few => (fits few).within cause

lemma Fits.mono {encoder : Encoder (List UInt8)} (fits : Fits supply cost encoder)
    (less : cost ≤ more) : Fits supply more encoder :=
  fun few => (fits (by omega)).weaken fun _ short => by omega

lemma index_fits {action : PoolM UInt16} (adds : PoolBuilder.Adds supply action) {cost : Nat}
    (paid : 2 ≤ cost) : Fits supply cost (index action) :=
  fun _ => (Succeeds.index adds).weaken fun _ two => by omega

section Lists

variable {fine : Nat → α → Prop} {encoder : α → Encoder (List UInt8)} {xs : List α}

lemma each_fits (totals : Totals fine total xs)
    (fits : ∀ cost, ∀ value ∈ xs, fine cost value → Fits supply cost (encoder value)) :
    Fits supply total (each xs encoder) := by
  intro few
  suffices mapped : Succeeds supply (xs.mapM encoder) fun found =>
      found.flatten.length ≤ 2 * total from mapped.bind fun _ short => .pure short
  induction xs generalizing total with
  | nil => exact .pure (Nat.zero_le _)
  | cons value rest ih =>
    obtain ⟨cost, later, first, others, most⟩ := totals.of_cons
    rw [mapM_cons]
    refine (fits cost value mem_cons_self first (by omega)).bind fun bytes short =>
      (ih others (fun cost value mem => fits cost value (mem_cons_of_mem _ mem))
        (by omega)).bind fun found short' => .pure ?_
    rw [flatten_cons, length_append]
    omega

lemma list16_fits {cause : EncodingCause} (counted : Counted 2 0xffff fine cost xs)
    (fits : ∀ cost, ∀ value ∈ xs, fine cost value → Fits supply cost (encoder value)) :
    Fits supply cost (list16 cause xs encoder) := by
  obtain ⟨few, total, paid, totals⟩ := counted
  intro small
  refine (Succeeds.count16 cause few).bind fun count two =>
    (each_fits totals fits (by omega)).bind fun bytes short => .pure ?_
  rw [length_append]
  omega

lemma list8_fits {cause : EncodingCause} (counted : Counted 1 0xff fine cost xs)
    (fits : ∀ cost, ∀ value ∈ xs, fine cost value → Fits supply cost (encoder value)) :
    Fits supply cost (list8 cause xs encoder) := by
  obtain ⟨few, total, paid, totals⟩ := counted
  intro small
  refine (Succeeds.count8 cause few).bind fun count one =>
    (each_fits totals fits (by omega)).bind fun bytes short => .pure ?_
  rw [length_append]
  omega

end Lists

section Attributes

variable {cost : Nat} {encoder : Encoder (List UInt8)} {name : String}

lemma namedAfter_fits (listed : .ofText name ∈ supply.constants) (fits : Fits supply cost encoder) :
    Fits supply (cost + 6) (namedAfter name encoder) := by
  intro few
  simp only [maxSpent] at few
  refine (fits (by simp only [maxSpent]; omega)).bind fun contents short =>
    (Succeeds.utf8 listed).bind fun nameIndex two =>
      (Succeeds.count32 _ (by omega)).bind fun length four => .pure ?_
  simp only [length_append]
  omega

lemma namedBefore_fits (listed : .ofText name ∈ supply.constants)
    (fits : Fits supply cost encoder) : Fits supply (cost + 6) (namedBefore name encoder) := by
  intro few
  simp only [maxSpent] at few
  refine (Succeeds.utf8 listed).bind fun nameIndex two =>
    (fits (by simp only [maxSpent]; omega)).bind fun contents short =>
      (Succeeds.count32 _ (by omega)).bind fun length four => .pure ?_
  simp only [length_append]
  omega

lemma rawAttribute_fits {kept : RawAttribute} (listed : .ofText kept.name ∈ supply.constants) :
    Fits supply (kept.bytes.length + 6) (rawAttribute kept) := by
  intro few
  simp only [maxSpent] at few
  refine (Succeeds.utf8 listed).bind fun nameIndex two =>
    (Succeeds.count32 _ (by omega)).bind fun length four => .pure ?_
  simp only [length_append]
  omega

namespace FitsAttributes

variable {attributes : AttributeEncoder}

lemma none : FitsAttributes supply cost (pure []) :=
  fun _ => .pure ⟨Nat.zero_le _, Nat.zero_le _⟩

/-- Attributes that are not there cost nothing. -/
lemma absent (count : Nat) :
    Totals (FitsAttributes supply) 0 (replicate count (pure [])) := by
  induction count with
  | zero => exact .nil
  | succ count ih => exact (Totals.cons none ih).mono le_rfl

lemma one (fits : Fits supply cost encoder) (paid : 0 < cost) :
    FitsAttributes supply cost (do return [← encoder]) :=
  fun few => (fits few).bind fun bytes short => .pure ⟨paid, by simpa using short⟩

lemma mono (fits : FitsAttributes supply cost attributes) (less : cost ≤ more) :
    FitsAttributes supply more attributes :=
  fun few => (fits (by omega)).weaken fun _ short => ⟨by omega, by omega⟩

/-- The attributes of two encoders, one after the other. -/
lemma both {others : AttributeEncoder} (fits : FitsAttributes supply cost attributes)
    (fits' : FitsAttributes supply more others) :
    FitsAttributes supply (cost + more) (do
      let first ← attributes
      let second ← others
      return first ++ second) := by
  intro few
  refine (fits (by omega)).bind fun first short => (fits' (by omega)).bind fun second short' =>
    .pure ?_
  rw [flatten_append, length_append, length_append]
  omega

lemma ofOption {value? : Option α} {encoder : α → Encoder (List UInt8)} (paid : 0 < cost)
    (fits : ∀ value, value? = some value → Fits supply cost (encoder value)) :
    FitsAttributes supply cost (attributeOf value? encoder) := by
  cases value? with
  | none => exact none
  | some value => exact one (fits value rfl) paid

lemma ofList {xs : List α} {encoder : List α → Encoder (List UInt8)} (paid : 0 < cost)
    (fits : xs ≠ [] → Fits supply cost (encoder xs)) :
    FitsAttributes supply cost (attributeOfList xs encoder) := by
  cases xs with
  | nil => exact none
  | cons value rest => exact one (fits (cons_ne_nil _ _)) paid

lemma pushRaw {kept : List RawAttribute} {last : RawAttribute}
    (fits : FitsAttributes supply cost (rawAttributes kept))
    (listed : .ofText last.name ∈ supply.constants) :
    FitsAttributes supply (cost + (last.bytes.length + 6)) (rawAttributes (kept ++ [last])) := by
  have form : rawAttributes (kept ++ [last]) = (do
      let first ← rawAttributes kept
      let second ← (do return [← rawAttribute last])
      return first ++ second) := by
    simp [rawAttributes, mapM_append]
  rw [form]
  exact fits.both (one (rawAttribute_fits listed) (by omega))

/-- An attribute takes the place of another one. -/
lemma replace (totals : Totals (FitsAttributes supply) total encoders) (index : Nat)
    (fits : FitsAttributes supply cost attributes) :
    Totals (FitsAttributes supply) (total + cost) (encoders.set index attributes) := by
  cases got : encoders[index]? with
  | none =>
    rw [set_eq_of_length_le (getElem?_eq_none_iff.mp got)]
    exact totals.mono (by omega)
  | some old => exact totals.set got fun before _ => fits.mono (by omega)

end FitsAttributes

lemma attributeTable_fits {listing : Listing}
    (totals : Totals (FitsAttributes supply) total encoders) :
    Fits supply (total + 2) (attributeTable listing encoders) := by
  intro few
  suffices mapped : Succeeds supply (encoders.mapM id) fun found =>
      found.flatten.length ≤ total ∧ found.flatten.flatten.length ≤ 2 * total by
    refine mapped.bind fun found short => ?_
    simp only [maxSpent] at few
    refine (Succeeds.count16 _ (by omega)).bind fun count two => .pure ?_
    rw [length_append]
    omega
  induction encoders generalizing total with
  | nil => exact .pure ⟨Nat.zero_le _, Nat.zero_le _⟩
  | cons first rest ih =>
    obtain ⟨cost, later, fits, others, most⟩ := totals.of_cons
    rw [mapM_cons]
    refine (fits (by omega)).bind fun bytes short => (ih others (by omega)).bind
      fun found short' => .pure ?_
    rw [flatten_cons, flatten_append, length_append, length_append]
    omega

end Attributes

end Encode

end JvmAsm
