/- Says which kinds failures have. -/
import JvmAsm.Failure.Basic
import JvmAsm.Proofs.Result

namespace JvmAsm

variable {α β : Type} {failure : Failure}

namespace Failure

variable {failure : Failure}

/-- All kinds of a failure, from the outermost to the innermost. -/
def kinds (failure : Failure) : List FailureKind :=
  failure.links.filterMap fun
    | .kind kind => some kind
    | .cause _ => none

lemma kind?_eq (failure : Failure) : failure.kind? = failure.kinds.head? :=
  List.head?_filterMap.symm

lemma kinds_orKind (plain : failure.kinds = []) (kind : FailureKind) :
    (failure.orKind kind).kinds = [kind] := by
  rw [orKind, kind?_eq, plain]
  exact congrArg (kind :: ·) plain

def IsMalformed (failure : Failure) : Prop :=
  failure.kinds = [] ∨ ∃ offset, failure.kinds = [.malformedClass offset]

lemma IsMalformed.within (malformed : failure.IsMalformed) (cause : Cause) :
    (failure.within cause).IsMalformed :=
  malformed

lemma IsMalformed.orKind (malformed : failure.IsMalformed) (offset : Nat) :
    ∃ offset', (failure.orKind (.malformedClass offset)).kinds = [.malformedClass offset'] := by
  obtain plain | ⟨found, known⟩ := malformed
  · exact ⟨offset, kinds_orKind plain _⟩
  · refine ⟨found, ?_⟩
    rw [Failure.orKind, kind?_eq, known]
    exact known

end Failure

/-- If the result is a failure, it has no kind yet. -/
class Plain (result : Except Failure α) : Prop where
  kinds : ∀ failure, result = .error failure → failure.kinds = []

namespace Plain

variable {result : Except Failure α}

instance (value : α) : Plain (.ok value) := ⟨fun _ failed => nomatch failed⟩

instance (value : α) : Plain (pure value) := ⟨fun _ failed => nomatch failed⟩

lemma error (plain : failure.kinds = [] := by rfl) :
    Plain (.error failure : Except Failure α) := by
  constructor
  rintro _ ⟨⟩
  exact plain

instance (cause : Cause) : Plain (.error (.ofCause cause) : Except Failure α) := error

instance (cause : Cause) : Plain (throw (.ofCause cause) : Except Failure α) := error

instance steps {next : α → Except Failure β} [first : Plain result] [second : ∀ value, Plain (next value)] :
    Plain (result >>= next) where
  kinds failure failed := by
    rcases error_bind_iff.mp failed with early | ⟨value, -, late⟩
    · exact first.kinds failure early
    · exact (second value).kinds failure late

lemma after {next : α → Except Failure β} [Plain result]
    (each : ∀ value, Plain (next value)) : Plain (result >>= next) :=
  inferInstance

instance {condition : Prop} [Decidable condition] {other : Except Failure α} [Plain result]
    [Plain other] : Plain (if condition then result else other) := by
  split <;> infer_instance

instance (change : α → β) [plain : Plain result] : Plain (result.map change) := by
  cases result with
  | ok value => exact ⟨fun _ failed => nomatch failed⟩
  | error failure => exact error (plain.kinds failure rfl)

instance (change : α → β) [Plain result] : Plain (change <$> result) :=
  inferInstanceAs (Plain (result.map change))

instance (cause : Cause) [plain : Plain result] :
    Plain (result.mapError fun failure => failure.within cause) := by
  cases result with
  | ok value => exact ⟨fun _ failed => nomatch failed⟩
  | error failure => exact error (plain.kinds failure rfl)

end Plain

/-- What actions with a kind of state do: which states they reach from others, and how they fail. -/
class Conduct (σ : Type) where
  Reaches : σ → σ → Prop
  refl : ∀ state, Reaches state state
  trans : ∀ {first second third}, Reaches first second → Reaches second third → Reaches first third
  Permits : Failure → Prop
  plain : ∀ {failure : Failure}, failure.kinds = [] → Permits failure

section Conduct

variable {σ : Type} [Conduct σ] {state : σ} {good : α → Prop} {better : β → Prop}
variable {action : EStateM Failure σ α} {next : α → EStateM Failure σ β}

def Meets (state : σ) (good : α → Prop) : EStateM.Result Failure σ α → Prop
  | .ok value next => Conduct.Reaches state next ∧ good value
  | .error failure stopped => Conduct.Permits σ failure ∧ Conduct.Reaches state stopped

lemma Meets.bind (first : Meets state good (action state))
    (second : ∀ value between, Conduct.Reaches state between → good value →
      Meets between better (next value between)) :
    Meets state better ((action >>= next) state) := by
  change Meets state better (EStateM.bind action next state)
  unfold EStateM.bind
  cases ran : action state with
  | error failure stopped => rwa [ran] at first
  | ok value between =>
    rw [ran] at first
    have last := second value between first.1 first.2
    dsimp only
    cases ran' : next value between with
    | ok result after =>
      rw [ran'] at last
      exact ⟨Conduct.trans first.1 last.1, last.2⟩
    | error failure stopped =>
      rw [ran'] at last
      exact ⟨last.1, Conduct.trans first.1 last.2⟩

lemma Meets.weaken {result : EStateM.Result Failure σ α} {good' : α → Prop}
    (meets : Meets state good result) (implies : ∀ value, good value → good' value) :
    Meets state good' result := by
  cases result with
  | ok value next => exact ⟨meets.1, implies value meets.2⟩
  | error failure stopped => exact meets

/-- The action goes from its state to one that can be reached, and fails as it may. -/
class Advances (action : EStateM Failure σ α) : Prop where
  meets : ∀ state, Meets state (fun _ => True) (action state)

namespace Advances

lemma fails [advances : Advances action] {stopped : σ}
    (failed : action state = .error failure stopped) : Conduct.Permits σ failure := by
  have meets := advances.meets state
  rw [failed] at meets
  exact meets.1

lemma meets_of_ok [advances : Advances action]
    (holds : ∀ value next, action state = .ok value next → good value) :
    Meets state good (action state) := by
  have meets := advances.meets state
  cases ran : action state with
  | ok value next =>
    rw [ran] at meets
    exact ⟨meets.1, holds value next ran⟩
  | error failure stopped => rwa [ran] at meets

instance (value : α) : Advances (pure value : EStateM Failure σ α) :=
  ⟨fun state => ⟨Conduct.refl state, trivial⟩⟩

lemma throw (permitted : Conduct.Permits σ failure) :
    Advances (MonadExceptOf.throw failure : EStateM Failure σ α) :=
  ⟨fun state => ⟨permitted, Conduct.refl state⟩⟩

instance (cause cause' : Cause) :
    Advances (MonadExcept.throw ((Failure.ofCause cause).within cause') : EStateM Failure σ α) :=
  throw (Conduct.plain rfl)

instance steps [first : Advances action] [second : ∀ value, Advances (next value)] :
    Advances (action >>= next) :=
  ⟨fun state => (first.meets state).bind fun value between _ _ => (second value).meets between⟩

/-- Nothing follows a failure. -/
lemma refusal (permitted : Conduct.Permits σ failure) :
    Advances ((MonadExceptOf.throw failure : EStateM Failure σ α) >>= next) :=
  ⟨fun state => ⟨permitted, Conduct.refl state⟩⟩

lemma after [Advances action] (each : ∀ value, Advances (next value)) :
    Advances (action >>= next) :=
  inferInstance

instance {condition : Prop} [Decidable condition] {other : EStateM Failure σ α} [Advances action]
    [Advances other] : Advances (if condition then action else other) := by
  split <;> infer_instance

instance (change : α → β) [Advances action] : Advances (change <$> action) := by
  rw [map_eq_pure_bind]
  infer_instance

end Advances

end Conduct

end JvmAsm
