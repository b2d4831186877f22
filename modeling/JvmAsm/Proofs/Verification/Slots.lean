/-
Follows the slots of local variables and the operands through the search for frames. A long or
double always keeps its second half, no local variable at the end is spare, and no operand has the
type top. So the local variables of a frame can be written, and tell the frame when they are read.
-/
import JvmAsm.Encode.Code
import JvmAsm.Proofs.Verification.Joins
import JvmAsm.Proofs.Verification.Soundness

namespace JvmAsm

open List VerificationType StackMap

variable {locals : List VerificationType}

namespace Frame

variable {frame before after : Frame}

/-- The frame is one that can be found for an instruction, and all its operands can be used. -/
structure IsWhole (frame : Frame) : Prop extends frame.IsCanonical where
  operands : .top ∉ frame.stack

lemma IsWhole.trimmed_again (paired : IsPaired frame.locals) (operands : .top ∉ frame.stack) :
    frame.trim.IsWhole :=
  ⟨trim_isCanonical paired, operands⟩

lemma Kindred.operands {lower upper : Frame} (kindred : Kindred lower upper)
    (used : .top ∉ lower.stack) : .top ∉ upper.stack := by
  intro mem
  obtain ⟨type, got, same⟩ := forall₂_mem_right kindred.stack mem
  cases type <;> first | exact used got | cases same

/-- Frames that are merged do not lose the halves of values. -/
lemma IsWhole.dropHalves_eq {hier : Hierarchy} {old new : Frame} (whole : old.IsWhole)
    (whole' : new.IsWhole)
    (merged : mergeLocals hier old.locals new.locals = .ok locals) :
    dropHalves locals = locals :=
  (mergeLocals_paired whole.paired whole'.paired merged).dropHalves_eq

lemma IsPaired.drop (paired : IsPaired locals) (count : Nat) :
    IsPaired (locals.drop count) := by
  intro index type found wide
  rw [getElem?_drop] at found ⊢
  exact paired _ type found wide

/-- Local variables are written as the items of values that take up all of them. -/
lemma localItemsFrom_ok (offsetOf : Nat → Nat) (found : Array Item) (paired : IsPaired locals) :
    ∃ xs : List VerificationType, localItemsFrom offsetOf found locals =
        .ok (found.toList ++ xs.map (Item.ofType offsetOf)) ∧
      xs.flatMap slots = locals := by
  fun_induction localItemsFrom offsetOf found locals with
  | case1 found => exact ⟨[], by simp, rfl⟩
  | case2 found type wide => cases paired 0 type rfl wide
  | case3 found type narrow => exact ⟨[type], by simp, by simp [slots, narrow]⟩
  | case4 found type rest wide ih =>
    obtain ⟨xs, written, whole⟩ := ih (paired.drop 2)
    exact ⟨type :: xs, by simpa using written, by simp [slots, wide, whole]⟩
  | case5 found type next rest wide other =>
    exact absurd (Option.some.inj (paired 0 type rfl wide)) other
  | case6 found type next rest narrow ih =>
    obtain ⟨xs, written, whole⟩ := ih (paired.drop 1)
    exact ⟨type :: xs, by simpa using written, by simp [slots, narrow, whole]⟩

end Frame

instance : FrameStep.Compatible fun a b => a = b ∧ b ≠ .top := .ofPlain fun _ used => used

lemma CodeContext.execute_operands {context : CodeContext} {index : Nat}
    {instruction : Instruction} {before after : Frame} (used : .top ∉ before.stack)
    (ran : context.execute index instruction before = .ok ((), after)) : .top ∉ after.stack := by
  have relates : before.Relates (fun a b => a = b ∧ b ≠ .top) before :=
    ⟨fun index => or_iff_not_imp_left.mpr fun other => ⟨rfl, other⟩,
      forall₂_same.mpr fun type mem => ⟨rfl, fun same => used (same ▸ mem)⟩⟩
  have works := @execute_works (fun a b => a = b ∧ b ≠ .top) context index _ True instruction
    (fun _ _ => ⟨rfl, nofun⟩) fun _ _ _ _ => trivial
  obtain ⟨⟨_, low, -, -, relates⟩, -⟩ := works.does relates ran
  intro mem
  obtain ⟨_, -, -, other⟩ := forall₂_mem_right relates.stack mem
  exact other rfl

namespace FlowProblem

variable {flow : FlowProblem} {state state' : FlowState} {index : Nat} {entry : Frame}
  {instruction : Instruction} {before after : Frame}

/-- Merges the frames that leave an instruction, as far as they are given. -/
def mergeAll (flow : FlowProblem) (outgoing : List (Except Failure Nat × Frame))
    (state : FlowState) : Except Failure FlowState :=
  outgoing.foldlM (fun state (target, frame) => do flow.mergeInto (← target) frame state) state

/--
The states of a search, also while an instruction is looked at, when only some of the frames that
leave it have been merged.
-/
inductive Stage (flow : FlowProblem) (entry : Frame) : FlowState → Prop where
  | between {count : Nat} {state : FlowState} (search : flow.Search entry count state) :
      Stage flow entry state
  | within {count index : Nat} {state state' : FlowState} {instruction : Instruction}
      {before after : Frame} {merged rest : List (Except Failure Nat × Frame)}
      (search : flow.Search entry count state) (pending : index ∈ state.pending)
      (got : flow.instructions[index]? = some instruction)
      (found : state.frame? index = some before)
      (executed : flow.execute index instruction before = .ok ((), after))
      (parts : flow.outgoing index instruction before after.trim = merged ++ rest)
      (reached : flow.mergeAll merged
        (flow.measured index before after.trim (state.taken index)) = .ok state') :
      Stage flow entry state'

structure IsWhole (flow : FlowProblem) (state : FlowState) : Prop where
  size : state.frames.size = flow.instructions.size
  whole : ∀ index frame, state.frame? index = some frame → frame.IsWhole

lemma execute_isWhole (whole : before.IsWhole)
    (executed : flow.execute index instruction before = .ok ((), after)) :
    after.trim.IsWhole :=
  .trimmed_again ((CodeContext.execute_ok executed).1.paired whole.paired)
    (CodeContext.execute_operands whole.operands executed)

lemma outgoing_isWhole (whole : before.IsWhole) (whole' : after.IsWhole)
    {out : Except Failure Nat × Frame}
    (mem : out ∈ flow.outgoing index instruction before after) : out.2.trim.IsWhole := by
  refine .trimmed_again ?_ ?_
  · rcases outgoing_locals mem with same | same
    · exact same ▸ whole.paired
    · exact same ▸ whole'.paired
  · rcases mem_outgoing.mp mem with ⟨covered, _, locals, _, rfl⟩ | ⟨_, _, rfl⟩ | ⟨_, rfl⟩
    · exact fun top => nomatch mem_singleton.mp top
    · exact whole'.operands
    · exact whole'.operands

lemma IsWhole.mergeAll (placed : flow.IsPlaced) (known : flow.IsWhole state)
    (found : state.frame? index = some before)
    (executed : flow.execute index instruction before = .ok ((), after))
    {merged rest : List (Except Failure Nat × Frame)}
    (parts : flow.outgoing index instruction before after.trim = merged ++ rest)
    (reached : flow.mergeAll merged
      (flow.measured index before after.trim (state.taken index)) = .ok state') :
    flow.IsWhole state' := by
  have accepts := outgoing_accepts (state.taken index) placed known.size
    (fun index frame found => (known.whole index frame found).toIsCanonical) found executed
  rw [parts] at accepts
  have accepts : FlowState.Accepts _ merged :=
    ⟨fun out mem => accepts.inside out (mem_append_left _ mem),
      fun out mem => accepts.paired out (mem_append_left _ mem), accepts.canonical⟩
  have respected := Frame.kindred_isRespected flow.hierarchy
  obtain ⟨grows, canonical, -⟩ := mergeAll_ok respected accepts reached
  have whole := known.whole index before found
  refine ⟨grows.size.trans known.size, fun target frame got =>
    ⟨canonical target frame got, ?_⟩⟩
  rcases mergeAll_origin respected accepts reached got with
    ⟨old, earlier, kindred⟩ | ⟨-, out, mem, kindred⟩
  · exact kindred.operands (known.whole target old earlier).operands
  · exact kindred.operands (outgoing_isWhole whole (execute_isWhole whole executed)
      (parts ▸ mem_append_left rest mem)).operands

/-- All frames are whole whenever and in whatever order instructions are looked at. -/
lemma Search.isWhole {count : Nat} (placed : flow.IsPlaced) (whole : entry.IsWhole)
    (search : flow.Search entry count state) : flow.IsWhole state := by
  induction search with
  | start =>
    refine ⟨by simp [FlowProblem.start], fun index frame found => ?_⟩
    obtain ⟨-, rfl⟩ := start_found found
    exact whole
  | visit _ _ visited ih =>
    rcases visit_cases visited with ⟨rfl, -⟩ | ⟨instruction, before, -, found, ran⟩
    · exact ⟨ih.size, ih.whole⟩
    · obtain ⟨after, executed, reached⟩ := visitWith_ok.mp ran
      exact ih.mergeAll placed found executed (append_nil _).symm reached

lemma Stage.isWhole (placed : flow.IsPlaced) (whole : entry.IsWhole)
    (stage : flow.Stage entry state) : flow.IsWhole state := by
  cases stage with
  | between search => exact search.isWhole placed whole
  | within search pending got found executed parts reached =>
    exact (search.isWhole placed whole).mergeAll placed found executed parts reached

end FlowProblem

lemma entryFrame_isWhole (owner : ClassName) (method : Method) :
    (entryFrame owner method).IsWhole :=
  ⟨entryFrame_isCanonical owner method, nofun⟩

/--
At every stage of the search for frames, those found so far and those before and after instructions
are whole. Nothing is lost from whole frames that are merged, and their local variables are written
as the items of values that take up all of them.
-/
theorem stage_isWhole {hier : Hierarchy} {owner : ClassName} {method : Method} {code : Code}
    {flow : FlowProblem} {state : FlowState}
    (made : FlowProblem.ofMethod hier owner method code = .ok flow)
    (stage : flow.Stage (entryFrame owner method) state) :
    (entryFrame owner method).IsWhole ∧
    (∀ index before, state.frame? index = some before → before.IsWhole ∧
      ∀ instruction after, flow.execute index instruction before = .ok ((), after) →
        after.trim.IsWhole ∧
        ∀ out ∈ flow.outgoing index instruction before after.trim, out.2.trim.IsWhole) ∧
    (∀ old new locals, Frame.IsWhole old → Frame.IsWhole new →
      Frame.mergeLocals hier old.locals new.locals = .ok locals →
        Frame.dropHalves locals = locals) ∧
    ∀ frame, Frame.IsWhole frame → ∀ offsetOf, ∃ xs : List VerificationType,
      localItems offsetOf frame.locals = .ok (xs.map (Item.ofType offsetOf)) ∧
        xs.flatMap slots = frame.locals := by
  obtain ⟨-, -, -, placed⟩ := FlowProblem.ofMethod_parts made
  have entry := entryFrame_isWhole owner method
  refine ⟨entry, fun index before found => ?_, fun _ _ _ whole whole' => whole.dropHalves_eq whole',
    fun frame whole offsetOf => ?_⟩
  · have whole := (stage.isWhole placed entry).whole index before found
    refine ⟨whole, fun instruction after executed => ?_⟩
    have whole' := FlowProblem.execute_isWhole whole executed
    exact ⟨whole', fun out mem => FlowProblem.outgoing_isWhole whole whole' mem⟩
  · simpa [localItems] using Frame.localItemsFrom_ok offsetOf #[] whole.paired

/-- Moves a long by one local variable, so that it overwrites its own second half. -/
def Code.shift : Code where
  instructions :=
    [⟨none, .load .long 0⟩, ⟨none, .store .long 1⟩, ⟨none, .simple .returnVoid⟩]

def Method.shift : Method where
  access := ⟨8⟩
  name := ⟨"shift", by decide +kernel⟩
  descriptor := ⟨[.element (.primitive .long)], none⟩
  code := some .shift

/-- The long at its old place is gone as a whole, and the one at its new place is there as a whole. -/
theorem stage_isWhole_shift : ∃ flow state,
    FlowProblem.ofMethod .rootOnly .root .shift .shift = .ok flow ∧
    flow.Stage (entryFrame .root .shift) state ∧
    state.frame? 2 = some ⟨[.top, .long, .top], []⟩ ∧
      Frame.IsWhole ⟨[.top, .long, .top], []⟩ := by
  obtain ⟨flow, made, first, visited, pending, second, visited', found⟩ : ∃ flow,
      FlowProblem.ofMethod .rootOnly .root .shift .shift = .ok flow ∧
      ∃ first, flow.visit 0 ((flow.start (entryFrame .root .shift)).taken 0) = .ok first ∧
        1 ∈ first.pending ∧ ∃ second, flow.visit 1 (first.taken 1) = .ok second ∧
          second.frame? 2 = some ⟨[.top, .long, .top], []⟩ :=
    ⟨_, rfl, _, rfl, Std.TreeSet.mem_insert_self, _, rfl, rfl⟩
  have search := FlowProblem.Search.start.visit Std.TreeSet.mem_insert_self visited
  have stage := FlowProblem.Stage.between (search.visit pending visited')
  exact ⟨flow, second, made, stage, found, ((stage_isWhole made stage).2.1 2 _ found).1⟩

end JvmAsm
