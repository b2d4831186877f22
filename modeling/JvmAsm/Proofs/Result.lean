/- Takes computations that succeed apart into their steps. -/
import Mathlib

namespace JvmAsm

open List

variable {ε σ α β : Type}
variable {next : α → EStateM ε σ β} {xs : List α} {results : List β} {better : β → Prop}
variable {value : α} {step : α → Except ε β} {relation : α → β → Prop} {result : Except ε α}
variable {state' state : σ}

@[simp] lemma ok_bind (value : α) (next : α → Except ε β) :
    (Except.ok value >>= next) = next value := rfl

@[simp] lemma error_bind (failure : ε) (next : α → Except ε β) :
    (Except.error failure >>= next) = .error failure := rfl

@[simp] lemma pure_eq_ok (value : α) : (pure value : Except ε α) = .ok value := rfl

@[simp] lemma mapError_ok (value : α) (change : ε → σ) :
    (Except.ok value).mapError change = .ok value := rfl

lemma ok_bind_iff {next : α → Except ε β} {value : β} :
    (result >>= next) = .ok value ↔ ∃ found, result = .ok found ∧ next found = .ok value := by
  cases result with
  | error failure => simp
  | ok found => simp

lemma ok_parts {next : α → Except ε β} {value : β} (ran : (result >>= next) = .ok value) :
    ∃ found, result = .ok found ∧ next found = .ok value :=
  ok_bind_iff.mp ran

lemma error_bind_iff {next : α → Except ε β} {failure : ε} :
    (result >>= next) = .error failure ↔
      result = .error failure ∨ ∃ found, result = .ok found ∧ next found = .error failure := by
  cases result with
  | error failure => simp
  | ok found => simp

lemma ok_mapError_iff {change : ε → σ} :
    result.mapError change = .ok value ↔ result = .ok value := by
  cases result with
  | error failure => simp [Except.mapError]
  | ok found => simp [Except.mapError]

lemma ran_bind_iff {action : EStateM ε σ α} {value : β} :
    (action >>= next) state = .ok value state' ↔
      ∃ found between, action state = .ok found between ∧ next found between = .ok value state' := by
  change EStateM.bind action next state = _ ↔ _
  unfold EStateM.bind
  cases action state with
  | error failure between => simp
  | ok found between => simp

lemma ran_parts {action : EStateM ε σ α} {value : β}
    (ran : (action >>= next) state = .ok value state') :
    ∃ found between, action state = .ok found between ∧ next found between = .ok value state' :=
  ran_bind_iff.mp ran

lemma ran_bind {action : EStateM ε σ α} {found : α} {ending : EStateM.Result ε σ β}
    (ran : action state = .ok found state') (goesOn : next found state' = ending) :
    (action >>= next) state = ending := by
  change EStateM.bind action next state = _
  rw [EStateM.bind, ran]
  exact goesOn

lemma failed_bind {action : EStateM ε σ α} {failure : ε}
    (failed : action state = .error failure state') :
    (action >>= next) state = .error failure state' := by
  change EStateM.bind action next state = _
  rw [EStateM.bind, failed]

lemma ran_of_run' {action : EStateM ε σ α} (ran : action.run' state = some value) :
    ∃ last, action state = .ok value last := by
  unfold EStateM.run' at ran
  split at ran
  · next found =>
    cases ran
    exact ⟨_, found⟩
  · cases ran

lemma exists_ran {action : EStateM ε σ α} (given : (action.run' state).isSome = true) :
    ∃ value last, action state = .ok value last :=
  (Option.isSome_iff_exists.mp given).imp fun _ => ran_of_run'

lemma ran_pure_iff {found : α} :
    (pure value : EStateM ε σ α) state = .ok found state' ↔ value = found ∧ state = state' := by
  change EStateM.Result.ok value state = _ ↔ _
  simp

/-- A list is mapped if every element is. -/
lemma ok_mapM_iff :
    xs.mapM step = .ok results ↔
      Forall₂ (fun value result => step value = .ok result) xs results := by
  induction xs generalizing results with
  | nil =>
    rw [mapM_nil, forall₂_nil_left_iff]
    change Except.ok [] = _ ↔ _
    simp [eq_comm]
  | cons value rest ih =>
    rw [mapM_cons, ok_bind_iff, forall₂_cons_left_iff]
    simp only [ok_bind_iff, ih]
    constructor
    · rintro ⟨first, found, more, mapped, equal⟩
      cases equal
      exact ⟨first, more, found, mapped, rfl⟩
    · rintro ⟨first, more, found, mapped, rfl⟩
      exact ⟨first, found, more, mapped, rfl⟩

/-- A list that is not mapped has an element that is not. -/
lemma error_mapM {failure : ε} (failed : xs.mapM step = .error failure) :
    ∃ value ∈ xs, step value = .error failure := by
  induction xs with
  | nil => cases failed
  | cons value rest ih =>
    rw [mapM_cons, error_bind_iff] at failed
    rcases failed with here | ⟨first, stepped, failed⟩
    · exact ⟨value, mem_cons_self, here⟩
    · rcases error_bind_iff.mp failed with later | ⟨_, _, ⟨⟩⟩
      obtain ⟨value, mem, refused⟩ := ih later
      exact ⟨value, mem_cons_of_mem _ mem, refused⟩

lemma exists_ok_mapM (each : ∀ value ∈ xs, ∃ result, step value = .ok result) :
    ∃ results, xs.mapM step = .ok results := by
  induction xs with
  | nil => exact ⟨[], rfl⟩
  | cons value rest ih =>
    obtain ⟨first, stepped⟩ := each value mem_cons_self
    obtain ⟨more, mapped⟩ := ih fun value mem => each value (mem_cons_of_mem _ mem)
    exact ⟨first :: more, ok_mapM_iff.mpr (.cons stepped (ok_mapM_iff.mp mapped))⟩

lemma ok_foldlM {step : β → α → Except ε β} (keeps : β → Prop)
    (each : ∀ state value next, value ∈ xs → keeps state → step state value = .ok next →
      keeps next) {first last : β} (start : keeps first)
    (ran : xs.foldlM step first = .ok last) : keeps last := by
  induction xs generalizing first with
  | nil =>
    cases ran
    exact start
  | cons value rest ih =>
    rw [foldlM_cons, ok_bind_iff] at ran
    obtain ⟨next, stepped, ran⟩ := ran
    exact ih (fun state value next mem => each state value next (.tail _ mem))
      (each first value next (.head _) start stepped) ran

/-- Every element on the right is related to one on the left. -/
lemma forall₂_mem_right (all : Forall₂ relation xs results) {result : β}
    (mem : result ∈ results) : ∃ value ∈ xs, relation value result := by
  induction all with
  | nil => cases mem
  | cons first _ ih =>
    rcases mem_cons.mp mem with rfl | later
    · exact ⟨_, mem_cons_self, first⟩
    · obtain ⟨value, got, related⟩ := ih later
      exact ⟨value, mem_cons_of_mem _ got, related⟩

/-- Elements at the same index are related. -/
lemma forall₂_getElem? (all : Forall₂ relation xs results) {index : Nat}
    (found : xs[index]? = some value) :
    ∃ result, results[index]? = some result ∧ relation value result := by
  induction all generalizing index with
  | nil => cases found
  | @cons first result _ _ related _ ih =>
    cases index with
    | zero =>
      obtain rfl : first = value := by simpa using found
      exact ⟨result, rfl, related⟩
    | succ index => exact ih (by simpa using found)

/-- The second result is the first one, if that is a success. -/
def Entails (first second : Except ε α) : Prop := ∀ value, first = .ok value → second = .ok value

namespace Entails

variable {first second : Except ε α}

lemma refl (result : Except ε α) : Entails result result := fun _ found => found

lemma failure {failure : ε} : Entails (.error failure) second := fun _ found => nomatch found

lemma bind {next next' : α → Except ε β} (starts : Entails first second)
    (goesOn : ∀ value, Entails (next value) (next' value)) :
    Entails (first >>= next) (second >>= next') := by
  intro result ran
  obtain ⟨value, found, ran⟩ := ok_parts ran
  exact ok_bind_iff.mpr ⟨value, starts value found, goesOn value result ran⟩

lemma ite {condition : Prop} [Decidable condition] {other other' : Except ε α}
    (holds : Entails first second) (fails : Entails other other') :
    Entails (if condition then first else other) (if condition then second else other') := by
  split
  · exact holds
  · exact fails

lemma mapError {change change' : ε → σ} (entails : Entails first second) :
    Entails (first.mapError change) (second.mapError change') :=
  fun value found => ok_mapError_iff.mpr (entails value (ok_mapError_iff.mp found))

lemma mapM {step' : α → Except ε β} (each : ∀ value, Entails (step value) (step' value))
    (xs : List α) : Entails (xs.mapM step) (xs.mapM step') :=
  fun _ mapped => ok_mapM_iff.mpr ((ok_mapM_iff.mp mapped).imp fun value result => each value result)

lemma foldlM {step step' : β → α → Except ε β}
    (each : ∀ state value, Entails (step state value) (step' state value)) (xs : List α)
    (state : β) : Entails (xs.foldlM step state) (xs.foldlM step' state) := by
  induction xs generalizing state with
  | nil => exact refl _
  | cons value rest ih =>
    rw [foldlM_cons, foldlM_cons]
    exact (each state value).bind ih

end Entails

/-- Each result of a list has been given by its element, in some state. -/
lemma ran_mapM {step : α → EStateM ε σ β} (ran : xs.mapM step state = .ok results state') :
    Forall₂ (fun value result => ∃ before after, step value before = .ok result after)
      xs results := by
  induction xs generalizing results state state' with
  | nil =>
    cases ran
    exact .nil
  | cons value rest ih =>
    rw [mapM_cons] at ran
    obtain ⟨first, between, stepped, ran⟩ := ran_parts ran
    obtain ⟨more, _, mapped, ran⟩ := ran_parts ran
    obtain ⟨rfl, -⟩ := ran_pure_iff.mp ran
    exact .cons ⟨_, _, stepped⟩ (ih mapped)

def Gives (action : EStateM ε σ α) (good : α → Prop) : Prop :=
  ∀ state value state', action state = .ok value state' → good value

namespace Gives

variable {action : EStateM ε σ α} {good : α → Prop}

lemma anything (action : EStateM ε σ α) : Gives action fun _ => True := fun _ _ _ _ => trivial

lemma pure (holds : good value) : Gives (Pure.pure value : EStateM ε σ α) good := by
  rintro state found state' ran
  cases ran
  exact holds

lemma throw {failure : ε} : Gives (MonadExceptOf.throw failure : EStateM ε σ α) good := by
  rintro state found state' ⟨⟩

lemma bind (first : Gives action good)
    (second : ∀ value, good value → Gives (next value) better) :
    Gives (action >>= next) better := by
  intro state value state' ran
  obtain ⟨found, between, reached, ran⟩ := ran_parts ran
  exact second found (first _ _ _ reached) _ _ _ ran

/-- What follows asks nothing of the value. -/
lemma after (each : ∀ value, Gives (next value) better) : Gives (action >>= next) better :=
  (anything action).bind fun value _ => each value

/-- Nothing follows a failure. -/
lemma refusal {failure : ε} :
    Gives ((MonadExceptOf.throw failure : EStateM ε σ α) >>= next) better :=
  bind throw fun _ (impossible : False) => impossible.elim

lemma map {make : α → β} (gives : Gives action good) :
    Gives (make <$> action) fun made => ∃ value, good value ∧ make value = made := by
  intro state made state' ran
  change EStateM.map make action state = _ at ran
  unfold EStateM.map at ran
  split at ran
  · next found =>
    cases ran
    exact ⟨_, gives _ _ _ found, rfl⟩
  · contradiction

lemma weaken {better : α → Prop} (gives : Gives action better)
    (implies : ∀ value, better value → good value) : Gives action good :=
  fun state value state' ran => implies value (gives state value state' ran)

end Gives

end JvmAsm
