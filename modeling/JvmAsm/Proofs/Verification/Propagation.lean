/- Follows the search for frames. -/
import JvmAsm.Proofs.Verification.Effects
import JvmAsm.Verification.Inference

namespace JvmAsm

open List

variable {instruction : Instruction} {index target : Nat} {out : Except Failure Nat × Frame}
variable {before frame : Frame}
variable {hier : Hierarchy} {order : Frame → Frame → Prop}

/-- The least type that can be merged with the type of an operand. -/
def VerificationType.least : VerificationType → VerificationType
  | .object _ => .null
  | type => type

lemma VerificationType.Fits.least_eq {a b : VerificationType} (fits : Fits hier a b) :
    a.least = b.least := by
  cases fits <;> rfl

namespace Frame

/-- Merging frames makes them larger in an order, which does not see variables that are not used. -/
structure IsRespected (hier : Hierarchy) (order : Frame → Frame → Prop) : Prop where
  refl : ∀ frame, order frame frame
  trans : ∀ {first second third}, order first second → order second third → order first third
  trim : ∀ {lower upper : Frame}, order lower.trim upper → order lower upper
  merge : ∀ {old new merged}, Frame.merge hier old new = .ok merged →
    order old merged ∧ order new merged

lemma below_isRespected (lawful : hier.IsLawful) :
    IsRespected hier (Below hier) where
  refl := .refl
  trans first second := first.trans lawful second
  trim := below_trim.mp
  merge := merge_above lawful

/-- The frames differ in the classes of objects, and in variables that the second does not use. -/
def Kindred : Frame → Frame → Prop := Relates fun a b => a.least = b.least

lemma kindred_isRespected (hier : Hierarchy) : IsRespected hier Kindred where
  refl frame := ⟨fun _ => .inr rfl, forall₂_same.mpr fun _ _ => rfl⟩
  trans := Relates.trans (fun first second => first.trans second) fun {type} same => by
    cases type <;> first | rfl | cases same
  trim kindred := ⟨fun index => by simpa [trim] using kindred.locals index, kindred.stack⟩
  merge := merge_relates fun made => by
    rcases VerificationType.mergeOperand_cases made with ⟨_, _, _, rfl, rfl, rfl, -⟩ | found
    · exact ⟨rfl, rfl⟩
    · obtain ⟨first, second⟩ := @VerificationType.mergeKinds?_fits hier _ _ _ found
      exact ⟨first.least_eq, second.least_eq⟩

/-- The frame of an instruction is above another one. -/
def IsHeld (order : Frame → Frame → Prop) (frames : Nat → Option Frame) (target : Nat)
    (frame : Frame) : Prop :=
  ∃ held, frames target = some held ∧ order frame held

end Frame

namespace FlowState

/-- The frame that has been found for an instruction. -/
def frame? (state : FlowState) (index : Nat) : Option Frame := (state.frames[index]?).join

/-- Frames become larger, and instructions whose frames change are pending. -/
structure Grows (order : Frame → Frame → Prop) (state state' : FlowState) : Prop where
  size : state'.frames.size = state.frames.size
  above : ∀ index frame, state.frame? index = some frame → frame.IsHeld order state'.frame? index
  kept : ∀ index frame, state'.frame? index = some frame → index ∉ state'.pending →
    state.frame? index = some frame
  pending : ∀ index ∈ state.pending, index ∈ state'.pending

variable {state state' state'' : FlowState}

section

variable (respected : Frame.IsRespected hier order)
include respected

lemma Grows.refl (state : FlowState) :
    Grows order state state where
  size := rfl
  above _ frame found := ⟨frame, found, respected.refl frame⟩
  kept _ _ found _ := found
  pending _ mem := mem

lemma Grows.held (grows : Grows order state state') (holds : frame.IsHeld order state.frame? target) :
    frame.IsHeld order state'.frame? target := by
  obtain ⟨held, found, below⟩ := holds
  obtain ⟨larger, found', below'⟩ := grows.above target held found
  exact ⟨larger, found', respected.trans below below'⟩

lemma Grows.trans (first : Grows order state state') (second : Grows order state' state'') :
    Grows order state state'' where
  size := second.size.trans first.size
  above index frame found := second.held respected (first.above index frame found)
  kept index frame found settled :=
    first.kept index frame (second.kept index frame found settled) fun mem =>
      settled (second.pending index mem)
  pending index mem := second.pending index (first.pending index mem)

end

/-- All frames have the form in which frames are compared. -/
def IsCanonical (state : FlowState) : Prop :=
  ∀ index frame, state.frame? index = some frame → frame.IsCanonical

/-- The state in which the frame of an instruction has changed. -/
def changed (state : FlowState) (target : Nat) (frame : Frame) : FlowState :=
  { state with
    frames := state.frames.setIfInBounds target (some frame)
    pending := state.pending.insert target }

lemma changed_frame? (inside : target < state.frames.size) (frame : Frame) (index : Nat) :
    (state.changed target frame).frame? index =
      if target = index then some frame else state.frame? index := by
  unfold frame? changed
  dsimp only
  rw [Array.getElem?_setIfInBounds]
  split
  · simp only [Option.join_some]
  · rfl

/-- What holds for all frames and for a new one holds when that has been put in place. -/
lemma changed_all {holds : Nat → Frame → Prop} (inside : target < state.frames.size)
    (old : ∀ index frame, state.frame? index = some frame → holds index frame)
    (new : holds target frame) (index : Nat) (found : Frame)
    (got : (state.changed target frame).frame? index = some found) : holds index found := by
  rw [changed_frame? inside] at got
  split at got
  · next same =>
    cases got
    exact same ▸ new
  · exact old index found got

lemma mem_changed :
    index ∈ (state.changed target frame).pending ↔ index = target ∨ index ∈ state.pending := by
  change index ∈ state.pending.insert target ↔ _
  rw [Std.TreeSet.mem_insert, Nat.compare_eq_eq, eq_comm]

lemma Grows.changed (respected : Frame.IsRespected hier order)
    (inside : target < state.frames.size)
    (larger : ∀ old, state.frame? target = some old → order old frame) :
    Grows order state (state.changed target frame) where
  size := Array.size_setIfInBounds
  above index old found := by
    unfold Frame.IsHeld
    rw [changed_frame? inside]
    split
    · next same =>
      subst same
      exact ⟨frame, rfl, larger old found⟩
    · exact ⟨old, found, respected.refl old⟩
  kept index old found settled := by
    rw [changed_frame? inside] at found
    split at found
    · next same => exact absurd (mem_changed.mpr (.inl same.symm)) settled
    · exact found
  pending index mem := mem_changed.mpr (.inr mem)

/-- The state in which an instruction is no longer pending. -/
def taken (state : FlowState) (index : Nat) : FlowState :=
  { state with pending := state.pending.erase index }

lemma mem_taken {other : Nat} :
    other ∈ (state.taken index).pending ↔ other ≠ index ∧ other ∈ state.pending := by
  change other ∈ state.pending.erase index ↔ _
  rw [Std.TreeSet.mem_erase, Ne, Nat.compare_eq_eq, eq_comm]

/-- Frames can be carried on to the instructions of the state. -/
structure Accepts (state : FlowState) (outgoing : List (Except Failure Nat × Frame)) : Prop where
  inside : ∀ out ∈ outgoing, ∀ target, out.1 = .ok target → target < state.frames.size
  paired : ∀ out ∈ outgoing, Frame.IsPaired out.2.locals
  canonical : state.IsCanonical

lemma Accepts.tail {rest : List (Except Failure Nat × Frame)} (accepts : state.Accepts (out :: rest))
    (size : state'.frames.size = state.frames.size) (canonical : state'.IsCanonical) :
    state'.Accepts rest where
  inside later mem target found :=
    size ▸ accepts.inside later (mem_cons_of_mem _ mem) target found
  paired later mem := accepts.paired later (mem_cons_of_mem _ mem)
  canonical := canonical

end FlowState

namespace FlowProblem

variable {flow : FlowProblem} {state state' : FlowState} {after : Frame}

/-- Every handler stands at an instruction. -/
def IsPlaced (flow : FlowProblem) : Prop :=
  ∀ covered ∈ flow.coverage, covered.handler < flow.instructions.size

/-- What merging a frame into that of an instruction can do. -/
lemma mergeInto_cases (merged : flow.mergeInto target frame state = .ok state') :
    (state.frame? target = none ∧ state' = state.changed target frame.trim) ∨
      ∃ old new, state.frame? target = some old ∧
        Frame.merge flow.hierarchy old frame.trim = .ok new ∧
          (new = old ∧ state' = state ∨ new ≠ old ∧ state' = state.changed target new) := by
  unfold mergeInto at merged
  dsimp only at merged
  split at merged
  · next none =>
    cases merged
    exact .inl ⟨none, rfl⟩
  · next old found =>
    split at merged
    · next new made =>
      cases merged
      refine .inr ⟨old, new, found, made, ?_⟩
      split
      · next same => exact .inl ⟨beq_iff_eq.mp same, rfl⟩
      · next other => exact .inr ⟨fun same => other (beq_iff_eq.mpr same), rfl⟩
    · contradiction

lemma mergeInto_ok (respected : Frame.IsRespected flow.hierarchy order)
    (inside : target < state.frames.size) (paired : Frame.IsPaired frame.locals)
    (canonical : state.IsCanonical) (merged : flow.mergeInto target frame state = .ok state') :
    state.Grows order state' ∧ state'.IsCanonical ∧ frame.IsHeld order state'.frame? target ∧
        ∀ index, (state'.frame? index).isSome → (state.frame? index).isSome ∨ index = target := by
  have replaced {new : Frame} (isCanonical : new.IsCanonical)
      (above : order frame new)
      (larger : ∀ old, state.frame? target = some old → order old new) :
      state.Grows order (state.changed target new) ∧ (state.changed target new).IsCanonical ∧
          frame.IsHeld order (state.changed target new).frame? target ∧
            ∀ index, ((state.changed target new).frame? index).isSome →
              (state.frame? index).isSome ∨ index = target := by
    refine ⟨.changed respected inside larger, FlowState.changed_all inside canonical isCanonical,
      ⟨new, ?_, above⟩, ?_⟩
    · rw [FlowState.changed_frame? inside, if_pos rfl]
    · intro index got
      rw [FlowState.changed_frame? inside] at got
      split at got
      · next same => exact .inr same.symm
      · exact .inl got
  rcases mergeInto_cases merged with ⟨none, rfl⟩ | ⟨old, new, found, made, result⟩
  · refine replaced (Frame.trim_isCanonical paired) ?_ fun old found => ?_
    · exact respected.trim (respected.refl _)
    · rw [none] at found
      contradiction
  · obtain ⟨first, second⟩ := respected.merge made
    have above := respected.trim second
    rcases result with ⟨rfl, rfl⟩ | ⟨_, rfl⟩
    · exact ⟨.refl respected _, canonical, ⟨new, found, above⟩, fun index got => .inl got⟩
    · refine replaced (Frame.merge_isCanonical made) above fun other found' => ?_
      obtain rfl := Option.some.inj (found.symm.trans found')
      exact first

/-- Merging frames into those of several instructions, one after the other. -/
lemma mergeAll_ok (respected : Frame.IsRespected flow.hierarchy order)
    {outgoing : List (Except Failure Nat × Frame)} (accepts : state.Accepts outgoing)
    (merged : outgoing.foldlM
      (fun state (target, frame) => do flow.mergeInto (← target) frame state) state = .ok state') :
    state.Grows order state' ∧ state'.IsCanonical ∧
      (∀ out ∈ outgoing, ∃ target, out.1 = .ok target ∧ out.2.IsHeld order state'.frame? target) ∧
        ∀ index, (state'.frame? index).isSome →
          (state.frame? index).isSome ∨ ∃ out ∈ outgoing, out.1 = .ok index := by
  induction outgoing generalizing state with
  | nil =>
    cases merged
    exact ⟨.refl respected _, accepts.canonical, by simp, fun index got => .inl got⟩
  | cons out rest ih =>
    obtain ⟨next, step, merged⟩ := ok_parts merged
    obtain ⟨target, found, step⟩ := ok_parts step
    obtain ⟨grows, canonical', holds, new⟩ := mergeInto_ok respected
      (accepts.inside out mem_cons_self target found) (accepts.paired out mem_cons_self)
      accepts.canonical step
    obtain ⟨grows', canonical'', holds', new'⟩ := ih (accepts.tail grows.size canonical') merged
    refine ⟨grows.trans respected grows', canonical'', fun other mem => ?_, fun index got => ?_⟩
    · rcases mem_cons.mp mem with rfl | later
      · exact ⟨target, found, grows'.held respected holds⟩
      · exact holds' other later
    · rcases new' index got with before | ⟨later, mem, same⟩
      · rcases new index before with earlier | same
        · exact .inl earlier
        · exact .inr ⟨out, mem_cons_self, same ▸ found⟩
      · exact .inr ⟨later, mem_cons_of_mem _ mem, same⟩

/-- A frame comes from the one that was there, or else from one that is merged. -/
lemma mergeAll_origin (respected : Frame.IsRespected flow.hierarchy order)
    {outgoing : List (Except Failure Nat × Frame)} (accepts : state.Accepts outgoing)
    (merged : outgoing.foldlM
      (fun state (target, frame) => do flow.mergeInto (← target) frame state) state = .ok state')
    (found : state'.frame? target = some frame) :
    (∃ old, state.frame? target = some old ∧ order old frame) ∨
      state.frame? target = none ∧ ∃ out ∈ outgoing, order out.2 frame := by
  obtain ⟨grows, -, carried, new⟩ := mergeAll_ok respected accepts merged
  cases earlier : state.frame? target with
  | some old =>
    obtain ⟨_, held, below⟩ := grows.above target old earlier
    obtain rfl := Option.some.inj (held.symm.trans found)
    exact .inl ⟨old, rfl, below⟩
  | none =>
    rcases new target (Option.isSome_of_mem found) with isSome | ⟨out, mem, same⟩
    · exact absurd earlier (Option.isSome_iff_ne_none.mp isSome)
    obtain ⟨_, same', _, held, below⟩ := carried out mem
    obtain rfl := Except.ok.inj (same.symm.trans same')
    obtain rfl := Option.some.inj (held.symm.trans found)
    exact .inr ⟨rfl, out, mem, below⟩

/-- The instruction at an index may be followed by the one at the other index. -/
def Leads (flow : FlowProblem) (index target : Nat) : Prop :=
  ∃ instruction before after frame, flow.instructions[index]? = some instruction ∧
    (.ok target, frame) ∈ flow.outgoing index instruction before after

/-- The frame of an instruction has been carried on to all instructions that may come next. -/
def IsSettled (flow : FlowProblem) (order : Frame → Frame → Prop)
    (frames : Nat → Option Frame) (index : Nat) (before : Frame) : Prop :=
  ∀ instruction, flow.instructions[index]? = some instruction →
    ∃ after, flow.execute index instruction before = .ok ((), after) ∧
      ∀ out ∈ flow.outgoing index instruction before after.trim, ∃ target, out.1 = .ok target ∧
        out.2.IsHeld order frames target

lemma IsSettled.grow (respected : Frame.IsRespected flow.hierarchy order)
    (grows : state.Grows order state')
    (settled : flow.IsSettled order state.frame? index before) :
    flow.IsSettled order state'.frame? index before := by
  intro instruction got
  obtain ⟨after, executed, carried⟩ := settled instruction got
  refine ⟨after, executed, fun out mem => ?_⟩
  obtain ⟨target, found, holds⟩ := carried out mem
  exact ⟨target, found, grows.held respected holds⟩

/-- What holds all the time while frames are looked for. -/
structure Invariant (flow : FlowProblem) (order : Frame → Frame → Prop) (entry : Frame)
    (state : FlowState) : Prop where
  size : state.frames.size = flow.instructions.size
  canonical : state.IsCanonical
  entry : entry.IsHeld order state.frame? 0
  settled : ∀ index before, state.frame? index = some before → index ∉ state.pending →
    flow.IsSettled order state.frame? index before
  reached : ∀ index, (state.frame? index).isSome → Relation.ReflTransGen flow.Leads 0 index

lemma mem_outgoing :
    out ∈ flow.outgoing index instruction before after ↔
      (∃ covered ∈ flow.handlersAt index, ∃ locals ∈ [before.locals, after.locals],
        out = (.ok covered.handler, ⟨locals, [.object covered.caught]⟩)) ∨
      (∃ label ∈ instruction.targets, out = (flow.target label, after)) ∨
      (instruction.endsFlow = false ∧ out = (flow.next index, after)) := by
  unfold outgoing
  rw [mem_append, mem_append, or_assoc]
  refine or_congr ?_ (or_congr ?_ ?_)
  · simp only [mem_flatMap, mem_map, eq_comm]
  · simp only [mem_map, eq_comm]
  · cases instruction.endsFlow <;> simp

lemma target_inside {label : Label} (found : flow.target label = .ok target) :
    flow.positions[label]? = some target ∧ target < flow.instructions.size := by
  unfold FlowProblem.target at found
  split at found
  · contradiction
  · next pos bound =>
    split at found
    · next inside =>
      cases found
      exact ⟨bound, inside⟩
    · contradiction

lemma next_inside (found : flow.next index = .ok target) :
    target = index + 1 ∧ index + 1 < flow.instructions.size := by
  unfold FlowProblem.next at found
  split at found
  · next inside =>
    cases found
    exact ⟨rfl, inside⟩
  · contradiction

lemma outgoing_inside (placed : flow.IsPlaced)
    (mem : out ∈ flow.outgoing index instruction before after) (found : out.1 = .ok target) :
    target < flow.instructions.size := by
  rcases mem_outgoing.mp mem with ⟨covered, got, _, _, rfl⟩ | ⟨label, _, rfl⟩ | ⟨_, rfl⟩
  · cases found
    exact placed covered (mem_of_mem_filter got)
  · exact (target_inside found).2
  · obtain ⟨rfl, inside⟩ := next_inside found
    exact inside

/-- What is carried on has the local variables from before or after the instruction. -/
lemma outgoing_locals (mem : out ∈ flow.outgoing index instruction before after) :
    out.2.locals = before.locals ∨ out.2.locals = after.locals := by
  rcases mem_outgoing.mp mem with ⟨covered, _, locals, one, rfl⟩ | ⟨label, _, rfl⟩ | ⟨_, rfl⟩
  · simpa using one
  · exact .inr rfl
  · exact .inr rfl

/-- The sizes that are needed for an instruction. -/
def measured (flow : FlowProblem) (index : Nat) (before after : Frame) (state : FlowState) :
    FlowState :=
  { state with
    maxStack := max (max state.maxStack (max before.stackSize after.stackSize))
      (if (flow.handlersAt index).isEmpty then 0 else 1)
    maxLocals := max state.maxLocals after.locals.length }

/-- What an instruction makes of its frame can be carried on. -/
lemma outgoing_accepts (state : FlowState) (placed : flow.IsPlaced)
    (size : state.frames.size = flow.instructions.size) (canonical : state.IsCanonical)
    (found : state.frame? index = some before)
    (executed : flow.execute index instruction before = .ok ((), after)) :
    (flow.measured index before after.trim state).Accepts
      (flow.outgoing index instruction before after.trim) where
  inside out mem target found := size ▸ outgoing_inside placed mem found
  paired out mem := by
    have paired := (canonical index before found).paired
    rcases outgoing_locals mem with same | same
    · rwa [same]
    · rw [same]
      exact ((CodeContext.execute_ok executed).1.paired paired).trim
  canonical := canonical

lemma visitWith_ok :
    flow.visitWith index instruction before state = .ok state' ↔
      ∃ after, flow.execute index instruction before = .ok ((), after) ∧
        (flow.outgoing index instruction before after.trim).foldlM
          (fun state (target, frame) => do flow.mergeInto (← target) frame state)
            (flow.measured index before after.trim state) = .ok state' := by
  refine ok_bind_iff.trans ⟨?_, ?_⟩
  · rintro ⟨⟨⟨⟩, after⟩, executed, merged⟩
    exact ⟨after, executed, merged⟩
  · rintro ⟨after, executed, merged⟩
    exact ⟨((), after), executed, merged⟩

lemma visit_cases (visited : flow.visit index state = .ok state') :
    (state' = state ∧ (flow.instructions[index]? = none ∨ state.frame? index = none)) ∨
      ∃ instruction before, flow.instructions[index]? = some instruction ∧
        state.frame? index = some before ∧
          flow.visitWith index instruction before state = .ok state' := by
  unfold FlowProblem.visit at visited
  split at visited
  · next instruction before got found =>
    split at visited
    · next ran =>
      cases visited
      exact .inr ⟨instruction, before, got, found, ran⟩
    · contradiction
  · next absent =>
    cases visited
    refine .inl ⟨rfl, ?_⟩
    cases got : flow.instructions[index]? with
    | none => exact .inl rfl
    | some instruction =>
      cases found : state.frame? index with
      | none => exact .inr rfl
      | some before => exact absurd found (absent instruction before got)

lemma visit_ok (got : flow.instructions[index]? = some instruction)
    (found : state.frame? index = some before)
    (visited : flow.visitWith index instruction before state = .ok state') :
    flow.visit index state = .ok state' := by
  change (state.frames[index]?).join = _ at found
  unfold FlowProblem.visit
  rw [got, found]
  dsimp only
  rw [visited]

/-- Looking at an instruction carries its frame on. -/
lemma visitWith_grows (respected : Frame.IsRespected flow.hierarchy order)
    (placed : flow.IsPlaced) (size : state.frames.size = flow.instructions.size)
    (canonical : state.IsCanonical) (got : flow.instructions[index]? = some instruction)
    (found : state.frame? index = some before)
    (visited : flow.visitWith index instruction before state = .ok state') :
    state.Grows order state' ∧ state'.IsCanonical ∧
      flow.IsSettled order state'.frame? index before ∧ ∀ other, (state'.frame? other).isSome →
          (state.frame? other).isSome ∨ flow.Leads index other := by
  obtain ⟨after, executed, merged⟩ := visitWith_ok.mp visited
  obtain ⟨grows, canonical', holds, new⟩ :=
    mergeAll_ok respected (outgoing_accepts state placed size canonical found executed) merged
  refine ⟨⟨grows.size, grows.above, grows.kept, grows.pending⟩, canonical', ?_, ?_⟩
  · intro other got'
    obtain rfl := Option.some.inj (got.symm.trans got')
    exact ⟨after, executed, holds⟩
  · intro other isFound
    refine (new other isFound).imp_right ?_
    rintro ⟨⟨target, frame⟩, mem, rfl⟩
    exact ⟨instruction, before, after.trim, frame, got, mem⟩

/-- Looking at an instruction keeps what holds all the time. -/
lemma Invariant.visit (respected : Frame.IsRespected flow.hierarchy order) (placed : flow.IsPlaced)
    {entry : Frame} (invariant : flow.Invariant order entry state) {index : Nat}
    (visited : flow.visit index (state.taken index) = .ok state') :
    flow.Invariant order entry state' := by
  -- An instruction other than the one looked at is settled as before.
  have elsewhere {other : Nat} {before : Frame} (found : state.frame? other = some before)
      (apart : other ≠ index) (idle : other ∉ (state.taken index).pending) :
      flow.IsSettled order state.frame? other before :=
    invariant.settled other before found fun mem => idle (FlowState.mem_taken.mpr ⟨apart, mem⟩)
  rcases visit_cases visited with ⟨rfl, absent⟩ | ⟨instruction, before, got, found, ran⟩
  · refine ⟨invariant.size, invariant.canonical, invariant.entry, ?_, invariant.reached⟩
    intro other before found idle
    by_cases same : other = index
    · subst same
      rcases absent with absent | absent
      · intro instruction got
        rw [absent] at got
        contradiction
      · rw [absent] at found
        contradiction
    · exact elsewhere found same idle
  · have canonical : (state.taken index).IsCanonical := invariant.canonical
    obtain ⟨grows, canonical, settled, new⟩ :=
      visitWith_grows respected placed (by exact invariant.size) canonical got found ran
    refine ⟨grows.size.trans invariant.size, canonical, ?_, ?_, ?_⟩
    · have holds : entry.IsHeld order (state.taken index).frame? 0 := invariant.entry
      exact grows.held respected holds
    · intro other frame found' idle
      have kept := grows.kept other frame found' idle
      by_cases same : other = index
      · subst same
        obtain rfl := Option.some.inj (kept.symm.trans found)
        exact settled
      · have settled : flow.IsSettled order (state.taken index).frame? other frame :=
          elsewhere kept same fun mem => idle (grows.pending other mem)
        exact settled.grow respected grows
    · intro other isFound
      rcases new other isFound with earlier | leads
      · exact invariant.reached other earlier
      · refine .tail (invariant.reached index ?_) leads
        exact Option.isSome_iff_exists.mpr ⟨before, found⟩

lemma run_next {fuel : Nat} (first : state.pending.min? = some index)
    (visited : flow.visit index (state.taken index) = .ok state') :
    flow.run (fuel + 1) state = flow.run fuel state' := by
  rw [run, first]
  change flow.visit index (state.taken index) >>= _ = _
  rw [visited]
  rfl

end FlowProblem

end JvmAsm
