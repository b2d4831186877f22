/- Says how many bytes readers take. -/
import JvmAsm.Proofs.Decode.Attributes

namespace JvmAsm

open Binary List ByteReader

variable {α β σ : Type} {good fine : Nat → α → Prop} {better : Nat → β → Prop}

/-- Each value has a cost, and together they cost no more than the total. -/
def Totals (good : Nat → α → Prop) (total : Nat) (xs : List α) : Prop :=
  ∃ costs, Forall₂ good costs xs ∧ costs.sum ≤ total

namespace Totals

variable {total more cost : Nat} {xs rest : List α} {value : α}

lemma nil : Totals good 0 [] := ⟨[], .nil, le_refl 0⟩

lemma cons (first : good cost value) (others : Totals good total rest) :
    Totals good (cost + total) (value :: rest) := by
  obtain ⟨costs, each, most⟩ := others
  exact ⟨cost :: costs, .cons first each, by rw [sum_cons]; omega⟩

lemma mono (totals : Totals good total xs) (less : total ≤ more) : Totals good more xs := by
  obtain ⟨costs, each, most⟩ := totals
  exact ⟨costs, each, by omega⟩

lemma of_cons (totals : Totals good total (value :: rest)) :
    ∃ cost later, good cost value ∧ Totals good later rest ∧ cost + later ≤ total := by
  obtain ⟨costs, each, most⟩ := totals
  obtain ⟨cost, others, first, later, rfl⟩ := forall₂_cons_right_iff.mp each
  rw [sum_cons] at most
  exact ⟨cost, others.sum, first, ⟨others, later, le_rfl⟩, most⟩

/-- Two values are taken together. -/
lemma pair {second both : α} (totals : Totals good total (value :: second :: rest))
    (joins : ∀ cost more, good cost value → good more second → good (cost + more) both) :
    Totals good total (both :: rest) := by
  obtain ⟨cost, later, fine, others, most⟩ := totals.of_cons
  obtain ⟨cost', last, fine', others, most'⟩ := others.of_cons
  exact (cons (joins cost cost' fine fine') others).mono (by omega)

lemma of_append (totals : Totals good total (xs ++ rest)) :
    ∃ first second, Totals good first xs ∧ Totals good second rest ∧
      first + second ≤ total := by
  obtain ⟨costs, each, most⟩ := totals
  refine ⟨(costs.take xs.length).sum, (costs.drop xs.length).sum,
    ⟨_, forall₂_take_append _ _ _ each, le_rfl⟩,
    ⟨_, forall₂_drop_append _ _ _ each, le_rfl⟩, ?_⟩
  rwa [← sum_append, take_append_drop]

lemma append (first : Totals good total xs) (second : Totals good more rest) :
    Totals good (total + more) (xs ++ rest) := by
  obtain ⟨costs, each, most⟩ := first
  obtain ⟨costs', each', most'⟩ := second
  exact ⟨costs ++ costs', rel_append each each', by rw [sum_append]; omega⟩

lemma imp (totals : Totals good total xs)
    (implies : ∀ cost, ∀ value ∈ xs, good cost value → fine cost value) :
    Totals fine total xs := by
  obtain ⟨costs, each, most⟩ := totals
  refine ⟨costs, ?_, most⟩
  clear most
  induction each with
  | nil => exact .nil
  | cons first _ ih =>
    exact .cons (implies _ _ mem_cons_self first)
      (ih fun cost value mem => implies cost value (mem_cons_of_mem _ mem))

/-- What follows from the costs holds for all values. -/
lemma forall_mem {fine : α → Prop} (totals : Totals good total xs)
    (implies : ∀ cost value, good cost value → fine value) : ∀ value ∈ xs, fine value := by
  obtain ⟨costs, each, -⟩ := totals
  induction each with
  | nil => simp
  | cons first _ ih => exact forall_mem_cons.mpr ⟨implies _ _ first, ih⟩

/-- Other values take the place of all of them, for the same costs. -/
lemma onto {others : List β} (totals : Totals good total xs)
    (each : Forall₂ (fun value other => ∀ cost, good cost value → better cost other) xs
      others) : Totals better total others := by
  induction each generalizing total with
  | nil => exact nil.mono (Nat.zero_le _)
  | cons fine _ ih =>
    obtain ⟨cost, later, first, rest, most⟩ := totals.of_cons
    exact (cons (fine cost first) (ih rest)).mono most

lemma map {f : α → β} (totals : Totals (fun cost value => better cost (f value)) total xs) :
    Totals better total (xs.map f) := by
  obtain ⟨costs, each, most⟩ := totals
  exact ⟨costs, forall₂_map_right_iff.mpr each, most⟩

lemma of_map {f : α → β} (totals : Totals better total (xs.map f)) :
    Totals (fun cost value => better cost (f value)) total xs := by
  obtain ⟨costs, each, most⟩ := totals
  exact ⟨costs, forall₂_map_right_iff.mp each, most⟩

/-- The order of the values does not matter. -/
lemma perm (totals : Totals good total xs) (same : xs.Perm rest) :
    Totals good total rest := by
  induction same generalizing total with
  | nil => exact totals
  | cons _ _ ih =>
    obtain ⟨cost, later, first, others, most⟩ := totals.of_cons
    exact (cons first (ih others)).mono most
  | swap =>
    obtain ⟨cost, later, first, others, most⟩ := totals.of_cons
    obtain ⟨cost', last, second, others, most'⟩ := others.of_cons
    exact (cons second (cons first others)).mono (by omega)
  | trans _ _ first second => exact second (first totals)

/-- There are only so many values that cost something each. -/
lemma length_le (least : Nat) (totals : Totals good total xs)
    (costly : ∀ cost value, good cost value → least ≤ cost) : least * xs.length ≤ total := by
  obtain ⟨costs, each, most⟩ := totals
  refine le_trans ?_ most
  clear most
  induction each with
  | nil => exact le_refl 0
  | cons first _ ih =>
    have enough := costly _ _ first
    rw [length_cons, sum_cons, Nat.mul_succ]
    omega

/-- Another value takes the place of one, for an additional cost. -/
lemma set {index : Nat} {old : α} (totals : Totals good total xs)
    (present : xs[index]? = some old)
    (grows : ∀ before, good before old → good (before + cost) value) :
    Totals good (total + cost) (xs.set index value) := by
  induction xs generalizing total index with
  | nil => contradiction
  | cons first rest ih =>
    obtain ⟨before, later, fine, others, most⟩ := totals.of_cons
    cases index with
    | zero =>
      cases present
      exact (cons (grows before fine) others).mono (by omega)
    | succ index =>
      exact (cons fine (ih others (by simpa using present))).mono (by omega)

end Totals

/-- Every value that the reader gives is good for the number of bytes that it takes. -/
def Spends (reader : ByteReader α) (good : Nat → α → Prop) : Prop :=
  ∀ cursor value next, reader cursor = .ok value next →
    ∃ cost, next.rest.length + cost ≤ cursor.rest.length ∧ cursor.offset + cost ≤ next.offset ∧
      good cost value

namespace Spends

variable {reader : ByteReader α} {next : α → ByteReader β} {failure : Failure}

lemma pure {value : α} (holds : good 0 value) : Spends (Pure.pure value) good := by
  rintro cursor found next ⟨⟩
  exact ⟨0, le_rfl, le_rfl, holds⟩

lemma throw : Spends (MonadExceptOf.throw failure) good := by
  rintro cursor value next ⟨⟩

lemma bind (first : Spends reader good) (second : ∀ cost value, good cost value →
      Spends (next value) fun more result => better (cost + more) result) :
    Spends (reader >>= next) better := by
  intro cursor result last ran
  obtain ⟨value, between, reached, ran⟩ := ran_parts ran
  obtain ⟨cost, left, ahead, fine⟩ := first _ _ _ reached
  obtain ⟨more, left', ahead', fine'⟩ := second cost value fine _ _ _ ran
  exact ⟨cost + more, by omega, by omega, fine'⟩

/-- Nothing follows a failure. -/
lemma refusal :
    Spends ((MonadExceptOf.throw failure : ByteReader α) >>= next) better :=
  bind throw fun _ _ (impossible : False) => impossible.elim

lemma weaken (spends : Spends reader good)
    (implies : ∀ cost value, good cost value → fine cost value) : Spends reader fine := by
  intro cursor value next ran
  obtain ⟨cost, left, ahead, holds⟩ := spends cursor value next ran
  exact ⟨cost, left, ahead, implies cost value holds⟩

lemma and {fine : α → Prop} (spends : Spends reader good) (gives : Gives reader fine) :
    Spends reader fun cost value => good cost value ∧ fine value := by
  intro cursor value next ran
  obtain ⟨cost, left, ahead, holds⟩ := spends cursor value next ran
  exact ⟨cost, left, ahead, holds, gives cursor value next ran⟩

lemma discard (spends : Spends reader good) :
    Spends (discard reader) fun cost _ => ∃ value, good cost value :=
  spends.bind fun _ value fine => pure ⟨value, fine⟩

lemma within (cause : BinaryCause) (spends : Spends reader good) :
    Spends (within cause reader) good := by
  intro cursor value next ran
  unfold ByteReader.within at ran
  split at ran
  · next found =>
    cases ran
    exact spends _ _ _ found
  · contradiction

lemma ofResult {result : Except Failure α} (holds : ∀ value, result = .ok value → good 0 value) :
    Spends (ofResult result) good := by
  cases result with
  | ok value => exact pure (holds value rfl)
  | error failure => exact throw

end Spends

section Numbers

lemma fixed_spends {count : Nat} {reader : ByteReader α} [fixed : IsFixed count reader] :
    Spends reader fun cost _ => cost = count := by
  intro cursor value next ran
  rcases fixed.result cursor with ⟨_, equal, inside, _⟩ | ⟨_, equal⟩ <;> cases equal.symm.trans ran
  refine ⟨count, ?_, le_rfl, rfl⟩
  rw [Cursor.skip_rest, length_drop]
  omega

lemma u8_spends : Spends u8 fun cost _ => cost = 1 := fixed_spends

lemma u16_spends : Spends u16 fun cost _ => cost = 2 := fixed_spends

lemma u32_spends : Spends u32 fun cost _ => cost = 4 := fixed_spends

lemma i16_spends : Spends i16 fun cost _ => cost = 2 :=
  fixed_spends.bind fun _ _ spent => .pure spent

lemma i32_spends : Spends i32 fun cost _ => cost = 4 :=
  fixed_spends.bind fun _ _ spent => .pure spent

lemma i64_spends : Spends i64 fun cost _ => cost = 8 :=
  fixed_spends.bind fun _ _ spent => .pure spent

lemma bytes_spends (count : Nat) :
    Spends (bytes count) fun cost found => cost = count ∧ found.length = count := by
  intro cursor found next ran
  have length := bytes_gives count cursor found next ran
  simp only [bytes, beq_iff_eq, length_take] at ran
  split at ran
  · next enough =>
    cases ran
    exact ⟨count, by simp only [Cursor.skip, length_drop]; omega, le_rfl, rfl, length⟩
  · contradiction

lemma skip_spends (count : Nat) : Spends (skip count) fun _ _ => True := by
  intro cursor value next ran
  cases ran
  exact ⟨0, by simp [Cursor.skip], by simp [Cursor.skip], trivial⟩

lemma offset_spends : Spends offset fun cost _ => cost = 0 := by
  intro cursor value next ran
  cases ran
  exact ⟨0, le_rfl, le_rfl, rfl⟩

end Numbers

section Lists

variable {reader : ByteReader α}

lemma manyFrom_spends (each : Spends reader good) (count : Nat) {found : Array α} {spent : Nat}
    (goods : Totals good spent found.toList) :
    Spends (manyFrom reader count found) fun cost xs =>
      xs.length = found.size + count ∧ Totals good (spent + cost) xs := by
  induction count generalizing found spent with
  | zero => exact .pure ⟨by simp, goods⟩
  | succ count ih =>
    refine each.bind fun cost value fine => ?_
    have pushed : Totals good (spent + cost) (found.push value).toList := by
      rw [Array.toList_push]
      exact goods.append (Totals.cons fine .nil)
    refine (ih pushed).weaken fun more xs known => ?_
    rw [Array.size_push] at known
    exact ⟨by omega, known.2.mono (by omega)⟩

lemma many_spends (each : Spends reader good) (count : Nat) :
    Spends (many count reader) fun cost xs =>
      xs.length = count ∧ Totals good cost xs := by
  have start : Totals good 0 (#[] : Array α).toList := .nil
  refine (manyFrom_spends each count start).weaken fun cost xs known => ?_
  exact ⟨by simpa using known.1, known.2.mono (by omega)⟩

/-- What holds for values that stand after their number, which takes some bytes too. -/
structure Counted (width most : Nat) (good : Nat → α → Prop) (cost : Nat) (xs : List α) :
    Prop where
  few : xs.length ≤ most
  totals : ∃ total, total + width ≤ cost ∧ Totals good total xs

lemma list16_spends (each : Spends reader good) :
    Spends (list16 reader) (Counted 2 0xffff good) := by
  refine u16_spends.bind fun _ count spent => (many_spends each _).weaken fun cost xs known => ?_
  exact ⟨known.1 ▸ Nat.le_of_lt_succ count.toNat_lt, cost, by omega, known.2⟩

lemma list8_spends (each : Spends reader good) :
    Spends (list8 reader) (Counted 1 0xff good) := by
  refine u8_spends.bind fun _ count spent => (many_spends each _).weaken fun cost xs known => ?_
  exact ⟨known.1 ▸ Nat.le_of_lt_succ count.toNat_lt, cost, by omega, known.2⟩

end Lists

namespace Decode

section Contents

variable {reader : ByteReader α} {table : PoolTable} {name : String} {outline : α → Outline}
variable {given : Option α}

lemma contents_spends {length : Nat} (spends : Spends reader good) :
    Spends (contents name length reader) good := by
  refine offset_spends.bind fun _ start none => (spends.within _).bind fun cost value fine =>
    offset_spends.bind fun _ stop none' => ?_
  dsimp only
  split
  · exact .refusal
  · exact .pure (by simpa [none, none'] using fine)

lemma only_spends {value : α} :
    Spends (only name outline given value) fun cost found => cost = 0 ∧ found = some value := by
  cases given with
  | some old => exact Spends.within _ .throw
  | none => exact .pure ⟨rfl, rfl⟩

lemma once_spends {length : Nat} (spends : Spends reader good) :
    Spends (once name length outline given reader) fun cost found =>
      ∃ value, found = some value ∧ good cost value := by
  refine (contents_spends spends).bind fun cost value fine => only_spends.weaken ?_
  rintro _ _ ⟨rfl, rfl⟩
  exact ⟨value, rfl, fine⟩

lemma raw_spends (name : String) (length : Nat) :
    Spends (raw name length) fun cost kept => kept.name = name ∧ kept.bytes.length = cost :=
  ((bytes_spends length).within _).bind fun _ _ found => .pure ⟨rfl, found.2.trans found.1.symm⟩

lemma entry_spends (get : UInt16 → Except Failure α) :
    Spends (entry get) fun cost value => cost = 2 ∧ ∃ index, get index = .ok value :=
  u16_spends.bind fun _ index spent => .ofResult fun _ found => ⟨spent, index, found⟩

lemma optionalEntry_spends (get : UInt16 → Except Failure α) :
    Spends (optionalEntry get) fun cost value? =>
      cost = 2 ∧ ∀ value, value? = some value → ∃ index, get index = .ok value := by
  refine u16_spends.bind fun _ index spent => .ofResult fun value? found => ⟨spent, ?_⟩
  rintro value rfl
  unfold PoolTable.optional at found
  split at found
  · cases found
  · cases got : get index with
    | error failure =>
      rw [got] at found
      contradiction
    | ok value' =>
      rw [got] at found
      cases found
      exact ⟨index, got⟩

lemma attributes_spends {step : σ → String → Nat → ByteReader σ} {initial : σ}
    (keeps : Nat → σ → Prop) (start : keeps 0 initial)
    (each : ∀ spent state name length, keeps spent state → (∃ index, table.text index = .ok name) →
      Spends (step state name length) fun cost state => keeps (spent + (cost + 6)) state) :
    Spends (attributes table step initial) fun cost state =>
      ∃ spent, spent + 2 ≤ cost ∧ keeps spent state := by
  refine u16_spends.bind fun _ count two => ?_
  have loop (left spent : Nat) (state : σ) (fine : keeps spent state) :
      Spends (attributesFrom table step left state) fun cost state => keeps (spent + cost) state := by
    induction left generalizing spent state with
    | zero => exact .pure fine
    | succ left ih =>
      refine u16_spends.bind fun _ index two => ?_
      have text : Spends (ofResult (table.text index)) fun cost name =>
          cost = 0 ∧ table.text index = .ok name := .ofResult fun _ found => ⟨rfl, found⟩
      refine text.bind fun _ name named => u32_spends.bind fun _ length four =>
        (each spent state name _ fine ⟨index, named.2⟩).bind fun cost state fine =>
          (ih _ state fine).weaken fun more state fine => ?_
      rw [two, named.1, four]
      convert fine using 1
      omega
  exact (loop _ 0 initial start).weaken fun cost state fine => ⟨cost, by omega, by simpa using fine⟩

end Contents

end Decode

end JvmAsm
