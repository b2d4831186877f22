/-
Says where execution may go on after an instruction of code, and that the search for frames follows
these ways.
-/
import JvmAsm.Proofs.Code.Labels
import JvmAsm.Proofs.Verification.Propagation

namespace JvmAsm

open List

variable {covered : Coverage} {label : Label} {target : Nat} {handler : ExceptionHandler}
variable {code : Code}

namespace Code

lemma checkLabels_iff :
    code.checkLabels = .ok () ↔ code.IsBound code.positions := by
  rw [← unboundLabel?_eq_none, checkLabels]
  cases code.unboundLabel? with
  | none => simp
  | some label => simp

lemma BindsOnce.checkLabels_ok (once : code.BindsOnce) :
    code.checkLabels = .ok () ↔
      ∀ label ∈ code.references, ∃ pos, (label, pos) ∈ code.bindings := by
  simp only [checkLabels_iff, IsBound, once.positions_iff]

/-- Execution may go on at another instruction, unless something is thrown. -/
inductive Continues (code : Code) (index : Nat) : Nat → Prop where
  | jump {entry : Entry} {label : Label} {target : Nat}
      (got : code.instructions[index]? = some entry)
      (listed : label ∈ entry.instruction.targets) (bound : (label, target) ∈ code.bindings) :
      Continues code index target
  | next {entry : Entry} (got : code.instructions[index]? = some entry)
      (goes : entry.instruction.endsFlow = false) : Continues code index (index + 1)

/-- What is thrown at an instruction may be caught by a handler, which stands at a position. -/
structure Catches (code : Code) (index : Nat) (handler : ExceptionHandler) (target : Nat) :
    Prop where
  listed : handler ∈ code.handlers
  covers : ∃ start stop, (handler.start, start) ∈ code.bindings ∧
    (handler.stop, stop) ∈ code.bindings ∧ start ≤ index ∧ index < stop
  bound : (handler.handler, target) ∈ code.bindings

/-- An instruction can be reached from the first one. -/
inductive Reaches (code : Code) : Nat → Prop where
  | start : Reaches code 0
  | continues {index target : Nat} (reached : Reaches code index)
      (goes : code.Continues index target) : Reaches code target
  | catches {index target : Nat} {handler : ExceptionHandler} (reached : Reaches code index)
      (caught : code.Catches index handler target) : Reaches code target

lemma BindsOnce.position_unique (once : code.BindsOnce) {a b : Nat}
    (first : (label, a) ∈ code.bindings) (second : (label, b) ∈ code.bindings) : a = b :=
  Option.some.inj ((once.positions_iff.mpr first).symm.trans (once.positions_iff.mpr second))

lemma BindsOnce.position_ok (once : code.BindsOnce) {pos : Nat} :
    Code.position code.positions label = .ok pos ↔ (label, pos) ∈ code.bindings := by
  rw [← once.positions_iff]
  unfold Code.position
  split
  · next found =>
    rw [found]
    simp
  · next absent =>
    rw [absent]
    simp

end Code

def ExceptionHandler.caughtClass (handler : ExceptionHandler) : ClassName :=
  handler.caught.getD .throwable

lemma ExceptionHandler.coverage_ok (once : code.BindsOnce) {count : Nat} :
    handler.coverage code.positions count = .ok covered ↔
      (handler.handler, covered.handler) ∈ code.bindings ∧ covered.handler < count ∧
        (handler.start, covered.start) ∈ code.bindings ∧
          (handler.stop, covered.stop) ∈ code.bindings ∧
            covered.caught = handler.caughtClass := by
  unfold coverage
  rw [ok_bind_iff]
  simp only [once.position_ok]
  constructor
  · rintro ⟨pos, bound, rest⟩
    split at rest
    · contradiction
    · next inside =>
      simp only [ok_bind_iff, once.position_ok] at rest
      obtain ⟨start, first, stop, last, same⟩ := rest
      cases same
      exact ⟨bound, Nat.lt_of_not_le inside, first, last, rfl⟩
  · rintro ⟨bound, inside, first, last, caught⟩
    refine ⟨covered.handler, bound, ?_⟩
    rw [if_neg (Nat.not_le_of_lt inside)]
    simp only [ok_bind_iff, once.position_ok]
    refine ⟨_, first, _, last, ?_⟩
    rw [← ExceptionHandler.caughtClass, ← caught]
    rfl

lemma ExceptionHandler.coverage_inside {positions : Std.HashMap Label Nat} {count : Nat}
    (made : handler.coverage positions count = .ok covered) : covered.handler < count := by
  obtain ⟨pos, _, made⟩ := ok_parts made
  split at made
  · contradiction
  · next inside =>
    obtain ⟨start, _, made⟩ := ok_parts made
    obtain ⟨stop, _, made⟩ := ok_parts made
    cases made
    exact Nat.lt_of_not_le inside

/-- What is asked when the frames of a method are looked for. -/
def Method.context (method : Method) (owner : ClassName) (code : Code) : CodeContext where
  owner
  returned := method.descriptor.returned
  instructions := (code.instructions.map Entry.instruction).toArray

namespace FlowProblem

variable {flow : FlowProblem} {code : Code} {index : Nat}

lemma ofMethod_parts {hier : Hierarchy} {owner : ClassName} {method : Method}
    (made : ofMethod hier owner method code = .ok flow) :
    flow.toCodeContext = method.context owner code ∧ flow.hierarchy = hier ∧
      flow.instructions.size = code.instructions.length ∧ flow.IsPlaced := by
  obtain ⟨coverage, mapped, same⟩ := ok_parts made
  cases same
  refine ⟨rfl, rfl, by rw [size_toArray, length_map], fun covered mem => ?_⟩
  obtain ⟨handler, _, made⟩ := forall₂_mem_right (ok_mapM_iff.mp mapped) mem
  have inside := ExceptionHandler.coverage_inside made
  rwa [size_toArray, length_map]

structure Describes (flow : FlowProblem) (code : Code) : Prop where
  once : code.BindsOnce
  instructions : flow.instructions = (code.instructions.map Entry.instruction).toArray
  positions : flow.positions = code.positions
  coverage : code.handlers.mapM (ExceptionHandler.coverage code.positions code.instructions.length) =
    .ok flow.coverage

lemma ofMethod_describes {hier : Hierarchy} {owner : ClassName} {method : Method}
    (once : code.BindsOnce) (made : ofMethod hier owner method code = .ok flow) :
    flow.Describes code ∧ flow.toCodeContext = method.context owner code ∧
      flow.hierarchy = hier := by
  obtain ⟨coverage, mapped, same⟩ := ok_parts made
  cases same
  exact ⟨⟨once, rfl, rfl, mapped⟩, rfl, rfl⟩

namespace Describes

section

variable (describes : flow.Describes code)
include describes

lemma size :
    flow.instructions.size = code.instructions.length := by
  rw [describes.instructions, size_toArray, length_map]

lemma getElem? (index : Nat) :
    flow.instructions[index]? = (code.instructions[index]?).map Entry.instruction := by
  rw [describes.instructions, getElem?_toArray, getElem?_map]

lemma covered_of_mem (mem : covered ∈ flow.coverage) :
    ∃ handler ∈ code.handlers,
      handler.coverage code.positions code.instructions.length = .ok covered :=
  forall₂_mem_right (ok_mapM_iff.mp describes.coverage) mem

lemma isPlaced : flow.IsPlaced := by
  intro covered mem
  obtain ⟨handler, _, made⟩ := describes.covered_of_mem mem
  rw [describes.size]
  exact ExceptionHandler.coverage_inside made

lemma target_ok :
    flow.target label = .ok target ↔
      (label, target) ∈ code.bindings ∧ target < code.instructions.length := by
  rw [← describes.once.positions_iff, ← describes.positions, ← describes.size]
  refine ⟨target_inside, fun ⟨bound, inside⟩ => ?_⟩
  unfold FlowProblem.target
  rw [bound]
  exact if_pos inside

lemma next_ok :
    flow.next index = .ok target ↔ target = index + 1 ∧ index + 1 < code.instructions.length := by
  rw [← describes.size]
  refine ⟨next_inside, fun ⟨same, inside⟩ => ?_⟩
  rw [same]
  exact if_pos inside

/-- The handlers that are looked at are those that catch what is thrown. -/
lemma catches_of_mem (mem : covered ∈ flow.handlersAt index) : ∃ handler,
      code.Catches index handler covered.handler ∧ covered.caught = handler.caughtClass := by
  obtain ⟨got, inside⟩ := mem_filter.mp mem
  rw [Bool.and_eq_true, decide_eq_true_iff, decide_eq_true_iff] at inside
  obtain ⟨handler, listed, made⟩ := describes.covered_of_mem got
  obtain ⟨bound, _, first, last, caught⟩ := (ExceptionHandler.coverage_ok describes.once).mp made
  exact ⟨handler, ⟨listed, ⟨_, _, first, last, inside⟩, bound⟩, caught⟩

lemma mem_of_catches (catches : code.Catches index handler target) :
    ∃ covered ∈ flow.handlersAt index, covered.handler = target ∧
      covered.caught = handler.caughtClass := by
  obtain ⟨listed, ⟨start, stop, first, last, inside⟩, bound⟩ := catches
  obtain ⟨place, got⟩ := mem_iff_getElem?.mp listed
  obtain ⟨covered, found, made⟩ := forall₂_getElem? (ok_mapM_iff.mp describes.coverage) got
  obtain ⟨bound', _, first', last', caught⟩ := (ExceptionHandler.coverage_ok describes.once).mp made
  have once := describes.once
  refine ⟨covered, mem_filter.mpr ⟨mem_of_getElem? found, ?_⟩,
    once.position_unique bound' bound, caught⟩
  rw [once.position_unique first' first, once.position_unique last' last, Bool.and_eq_true,
    decide_eq_true_iff, decide_eq_true_iff]
  exact inside

end

/-- The search follows only ways that execution may take. -/
lemma reaches (describes : flow.Describes code)
    (reached : Relation.ReflTransGen flow.Leads 0 index) : code.Reaches index := by
  induction reached with
  | refl => exact .start
  | @tail index target _ leads ih =>
    obtain ⟨instruction, before, after, frame, got, mem⟩ := leads
    rw [describes.getElem?, Option.map_eq_some_iff] at got
    obtain ⟨entry, got, rfl⟩ := got
    rcases mem_outgoing.mp mem with
      ⟨covered, handled, _, _, same⟩ | ⟨label, listed, same⟩ | ⟨goes, same⟩
    · cases same
      obtain ⟨handler, catches, _⟩ := describes.catches_of_mem handled
      exact .catches ih catches
    · have found := (congrArg Prod.fst same).symm
      exact .continues ih (.jump got listed (describes.target_ok.mp found).1)
    · have found := (congrArg Prod.fst same).symm
      obtain ⟨rfl, _⟩ := describes.next_ok.mp found
      exact .continues ih (.next got goes)

end Describes

end FlowProblem

end JvmAsm
