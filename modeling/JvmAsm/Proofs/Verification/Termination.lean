/-
Shows that the search for frames ends, in whatever order the pending instructions are looked at, if
types can be ranked.
-/
import JvmAsm.Proofs.Verification.Chains
import JvmAsm.Proofs.Verification.Soundness

namespace JvmAsm

open List FlowState JvmAsm.Frame

open Hierarchy (rootOnly rootOnly_isLawful)

section Lengths

namespace Frame

lemma trimLocals_length (locals : List VerificationType) :
    (trimLocals locals).length ≤ locals.length := by
  obtain ⟨_, count, parts⟩ := trimLocals_parts locals
  have whole := congrArg length parts
  rw [length_append] at whole
  omega

lemma dropHalves_length (locals : List VerificationType) :
    (dropHalves locals).length = locals.length := by
  rw [dropHalves, length_zipWith, length_append, length_map, length_tail, length_singleton]
  omega

/-- Merging does not make frames longer. -/
lemma merge_lengths {hier : Hierarchy} {old new merged : Frame}
    (made : merge hier old new = .ok merged) :
    merged.locals.length ≤ max old.locals.length new.locals.length ∧
      merged.stack.length = old.stack.length := by
  obtain ⟨deep, stack, locals, found, found', rfl⟩ := merge_ok.mp made
  refine ⟨?_, ((mergeStacks_ok deep).mp found).1⟩
  calc (trimLocals (dropHalves locals)).length
    _ ≤ locals.length := (trimLocals_length _).trans (dropHalves_length locals).le
    _ = max old.locals.length new.locals.length := (mergeLocals_ok.mp found').1

end Frame

lemma CodeContext.Changes.length {locals locals' : List VerificationType}
    {instruction : Instruction} (changes : Changes locals instruction locals') :
    locals'.length ≤ max locals.length 65537 := by
  cases changes with
  | nothing => exact le_max_left _ _
  | store kind variableIndex type size =>
    have small := variableIndex.toNat_lt
    have atMost : type.size ≤ 2 := by
      unfold VerificationType.size
      split <;> omega
    rw [storeLocal_length]
    omega
  | construct =>
    rw [length_map]
    exact le_max_left _ _

end Lengths

variable {ranks : VerificationType → Nat} {top : Nat}

namespace FlowState

variable {state : FlowState} {height limit target : Nat} {frame : Frame}

/-- The number of instructions that have frames. -/
def framed (state : FlowState) : Nat :=
  ((Finset.range state.frames.size).filter fun index => (state.frame? index).isSome).card

/-- How many times the frame of an instruction can still change. -/
def cost (ranks : VerificationType → Nat) (height : Nat) : Option Frame → Nat
  | none => height + 1
  | some frame => frame.rank ranks

/-- How many times instructions can still be looked at. -/
def potential (ranks : VerificationType → Nat) (height : Nat) (state : FlowState) : Nat :=
  ∑ index ∈ Finset.range state.frames.size, cost ranks height (state.frame? index) +
    state.pending.size

/-- The frames have so many local variables, and operands for the instructions on the way. -/
def IsBounded (limit : Nat) (state : FlowState) : Prop :=
  ∀ index frame, state.frame? index = some frame →
    frame.locals.length ≤ limit ∧ frame.stack.length ≤ 2 * state.framed

lemma framed_le (state : FlowState) : state.framed ≤ state.frames.size := by
  refine (Finset.card_filter_le _ _).trans ?_
  rw [Finset.card_range]

lemma changed_size : (state.changed target frame).frames.size = state.frames.size :=
  Array.size_setIfInBounds

lemma framed_changed (inside : target < state.frames.size) :
    (state.changed target frame).framed =
      state.framed + if (state.frame? target).isSome then 0 else 1 := by
  have whole : ((Finset.range state.frames.size).filter fun index =>
      ((state.changed target frame).frame? index).isSome) = insert target
        ((Finset.range state.frames.size).filter fun index => (state.frame? index).isSome) := by
    ext index
    rw [Finset.mem_filter, Finset.mem_insert, Finset.mem_filter, changed_frame? inside]
    by_cases same : target = index
    · subst same
      simp [inside]
    · simp [same, Ne.symm same]
  rw [framed, changed_size, whole, framed]
  split
  · next got =>
    rw [Finset.insert_eq_of_mem (by simp [inside, got]), add_zero]
  · next absent => rw [Finset.card_insert_of_notMem (by simp [absent])]

/-- A change takes from the frames what it adds to the pending instructions. -/
lemma potential_changed (inside : target < state.frames.size)
    (smaller : frame.rank ranks < cost ranks height (state.frame? target)) :
    (state.changed target frame).potential ranks height ≤ state.potential ranks height := by
  have less : ∑ index ∈ Finset.range state.frames.size,
      cost ranks height ((state.changed target frame).frame? index) <
        ∑ index ∈ Finset.range state.frames.size, cost ranks height (state.frame? index) := by
    refine Finset.sum_lt_sum (fun index _ => ?_) ⟨target, Finset.mem_range.mpr inside, ?_⟩
    · rw [changed_frame? inside]
      split
      · next same => exact same ▸ le_of_lt smaller
      · exact le_rfl
    · rw [changed_frame? inside, if_pos rfl]
      exact smaller
  have more : (state.changed target frame).pending.size ≤ state.pending.size + 1 :=
    Std.TreeSet.size_insert_le
  rw [potential, potential, changed_size]
  omega

end FlowState

namespace FlowProblem

variable {flow : FlowProblem} {state state' : FlowState} {limit height : Nat} {entry : Frame}

lemma mergeInto_potential (ranked : flow.hierarchy.IsRanked ranks top) {target : Nat}
    {frame : Frame} (inside : target < state.frames.size) (canonical : state.IsCanonical)
    (bounded : state.IsBounded limit)
    (high : top * (limit + 2 * state.frames.size) ≤ height) (short : frame.locals.length ≤ limit)
    (shallow : frame.stack.length ≤ 2 * state.framed + 2)
    (merged : flow.mergeInto target frame state = .ok state') :
    state'.IsBounded limit ∧ state.framed ≤ state'.framed ∧
      state'.potential ranks height ≤ state.potential ranks height := by
  -- A frame that is put in place is not longer than what has been allowed for.
  have replaced {new : Frame} (locals : new.locals.length ≤ limit)
      (stack : new.stack.length ≤ 2 * (state.changed target new).framed)
      (smaller : new.rank ranks ≤ height →
        new.rank ranks < cost ranks height (state.frame? target)) :
      (state.changed target new).IsBounded limit ∧
        state.framed ≤ (state.changed target new).framed ∧
          (state.changed target new).potential ranks height ≤ state.potential ranks height := by
    have more : state.framed ≤ (state.changed target new).framed := by
      rw [framed_changed inside]
      omega
    refine ⟨changed_all inside (fun index frame found => ?_) ⟨locals, stack⟩, more,
      potential_changed inside (smaller ?_)⟩
    · obtain ⟨locals, stack⟩ := bounded index frame found
      exact ⟨locals, by omega⟩
    · have few := (state.changed target new).framed_le
      rw [changed_size] at few
      calc new.rank ranks
        _ ≤ top * (new.locals.length + new.stack.length) := new.rank_le ranked.bounded
        _ ≤ top * (limit + 2 * state.frames.size) := Nat.mul_le_mul_left _ (by omega)
        _ ≤ height := high
  rcases mergeInto_cases merged with ⟨none, rfl⟩ | ⟨old, new, found, made, result⟩
  · refine replaced ((trimLocals_length _).trans short) ?_ fun small => ?_
    · rw [framed_changed inside, none]
      exact shallow
    · rw [none]
      exact Nat.lt_succ_of_le small
  · rcases result with ⟨_, rfl⟩ | ⟨different, rfl⟩
    · exact ⟨bounded, le_rfl, le_rfl⟩
    · obtain ⟨locals, stack⟩ := merge_lengths made
      obtain ⟨oldLocals, oldStack⟩ := bounded target old found
      have newLocals : frame.trim.locals.length ≤ limit :=
        (trimLocals_length frame.locals).trans short
      refine replaced (by omega) ?_ fun _ => ?_
      · rw [framed_changed inside, stack]
        omega
      · rw [found]
        exact (merge_rank ranked (canonical target old found) made).resolve_left
          (Ne.symm different)

lemma mergeAll_potential (ranked : flow.hierarchy.IsRanked ranks top)
    {outgoing : List (Except Failure Nat × Frame)} (accepts : state.Accepts outgoing)
    (bounded : state.IsBounded limit) (high : top * (limit + 2 * state.frames.size) ≤ height)
    (short : ∀ out ∈ outgoing, out.2.locals.length ≤ limit)
    (shallow : ∀ out ∈ outgoing, out.2.stack.length ≤ 2 * state.framed + 2)
    (merged : outgoing.foldlM
      (fun state (target, frame) => do flow.mergeInto (← target) frame state) state = .ok state') :
    state'.IsBounded limit ∧ state'.potential ranks height ≤ state.potential ranks height := by
  refine (ok_foldlM (fun next => (next.frames.size = state.frames.size ∧ next.IsCanonical ∧
    state.framed ≤ next.framed) ∧ next.IsBounded limit ∧
      next.potential ranks height ≤ state.potential ranks height) ?_
    ⟨⟨rfl, accepts.canonical, le_rfl⟩, bounded, le_rfl⟩ merged).2
  rintro between out next mem ⟨⟨size, canonical, more⟩, bounded, less⟩ step
  obtain ⟨target, found, step⟩ := ok_parts step
  have here : target < between.frames.size := size ▸ accepts.inside out mem target found
  have shallow := shallow out mem
  obtain ⟨grows, canonical', _⟩ := mergeInto_ok (kindred_isRespected _) here
    (accepts.paired out mem) canonical step
  obtain ⟨bounded', more', less'⟩ := mergeInto_potential ranked here canonical bounded
    (size ▸ high) (short out mem) (by omega) step
  exact ⟨⟨grows.size.trans size, canonical', more.trans more'⟩, bounded', less'.trans less⟩

lemma outgoing_stack {index : Nat} {instruction : Instruction} {before after : Frame}
    {out : Except Failure Nat × Frame}
    (mem : out ∈ flow.outgoing index instruction before after) :
    out.2.stack.length ≤ max 1 after.stack.length := by
  rcases mem_outgoing.mp mem with ⟨covered, _, locals, _, rfl⟩ | ⟨label, _, rfl⟩ | ⟨_, rfl⟩
  · exact le_max_left _ _
  · exact le_max_right _ _
  · exact le_max_right _ _

/-- Looking at an instruction takes at least one from the potential. -/
lemma visit_potential (ranked : flow.hierarchy.IsRanked ranks top) (placed : flow.IsPlaced)
    {index : Nat} (size : state.frames.size = flow.instructions.size)
    (canonical : state.IsCanonical) (bounded : state.IsBounded limit) (wide : 65537 ≤ limit)
    (high : top * (limit + 2 * state.frames.size) ≤ height) (pending : index ∈ state.pending)
    (visited : flow.visit index (state.taken index) = .ok state') :
    state'.IsBounded limit ∧ state'.potential ranks height + 1 ≤ state.potential ranks height := by
  have fewer : (state.taken index).potential ranks height + 1 = state.potential ranks height := by
    have taken : (state.taken index).pending.size = state.pending.size - 1 := by
      change (state.pending.erase index).size = _
      rw [Std.TreeSet.size_erase, if_pos (Std.TreeSet.contains_iff_mem.mpr pending)]
    have positive : state.pending.size ≠ 0 := by
      have found := Std.TreeSet.isEmpty_eq_false_iff_exists_mem.mpr ⟨index, pending⟩
      rw [Std.TreeSet.isEmpty_eq_size_eq_zero] at found
      simpa using found
    change ∑ index ∈ Finset.range state.frames.size, cost ranks height (state.frame? index) +
      (state.taken index).pending.size + 1 = _
    rw [taken, potential]
    omega
  rcases visit_cases visited with ⟨rfl, _⟩ | ⟨instruction, before, got, found, ran⟩
  · exact ⟨bounded, fewer.le⟩
  · obtain ⟨after, executed, merged⟩ := visitWith_ok.mp ran
    obtain ⟨changes, deeper⟩ := CodeContext.execute_ok executed
    obtain ⟨locals, stack⟩ := bounded index before found
    have locals' : after.trim.locals.length ≤ limit := by
      have := changes.length
      have := trimLocals_length after.locals
      change (trimLocals after.locals).length ≤ limit
      omega
    have short (out : Except Failure Nat × Frame)
        (mem : out ∈ flow.outgoing index instruction before after.trim) :
        out.2.locals.length ≤ limit := by
      rcases outgoing_locals mem with same | same
      · rwa [same]
      · rwa [same]
    have shallow (out : Except Failure Nat × Frame)
        (mem : out ∈ flow.outgoing index instruction before after.trim) :
        out.2.stack.length ≤ 2 * state.framed + 2 := by
      have atMost : out.2.stack.length ≤ max 1 after.trim.stack.length := outgoing_stack mem
      have same : after.trim.stack = after.stack := rfl
      rw [same] at atMost
      omega
    let between := flow.measured index before after.trim (state.taken index)
    have accepts : between.Accepts (flow.outgoing index instruction before after.trim) :=
      outgoing_accepts (state.taken index) placed size canonical found executed
    have bounded : between.IsBounded limit := bounded
    have high : top * (limit + 2 * between.frames.size) ≤ height := high
    obtain ⟨bounded', less⟩ := mergeAll_potential ranked accepts bounded high short shallow merged
    refine ⟨bounded', (Nat.add_le_add_right less 1).trans ?_⟩
    exact fewer.le

/-- The number of local variables that a frame can have. -/
def localsLimit (entry : Frame) : Nat := max entry.locals.length 65537

/-- No frame has a higher rank than this. -/
def rankLimit (flow : FlowProblem) (entry : Frame) : Nat :=
  flow.typeHeight * (localsLimit entry + 2 * flow.instructions.size)

lemma budget_eq (flow : FlowProblem) (entry : Frame) :
    flow.budget entry = flow.instructions.size * (flow.rankLimit entry + 1) + 1 := rfl

lemma rankLimit_high (small : top ≤ flow.typeHeight) (entry : Frame) :
    top * (localsLimit entry + 2 * flow.instructions.size) ≤ flow.rankLimit entry :=
  Nat.mul_le_mul_right _ small

lemma start_isBounded (entry : Frame) (empty : entry.stack = []) :
    (flow.start entry).IsBounded (localsLimit entry) := by
  intro index frame found
  obtain ⟨rfl, rfl⟩ := start_found found
  rw [empty]
  exact ⟨le_max_left _ _, Nat.zero_le _⟩

lemma start_potential (ranked : flow.hierarchy.IsRanked ranks top)
    (small : top ≤ flow.typeHeight) (empty : entry.stack = [])
    (positive : 0 < flow.instructions.size) :
    (flow.start entry).potential ranks (flow.rankLimit entry) < flow.budget entry := by
  have size : (flow.start entry).frames.size = flow.instructions.size := by simp [start]
  have single : (flow.start entry).pending.size = 1 := rfl
  have first : (flow.start entry).frame? 0 = some entry := by
    rw [start_frame?, if_pos ⟨rfl, positive⟩]
  have small : entry.rank ranks ≤ flow.rankLimit entry := by
    have limit : entry.locals.length ≤ localsLimit entry := le_max_left _ _
    calc entry.rank ranks
      _ ≤ top * (entry.locals.length + entry.stack.length) := entry.rank_le ranked.bounded
      _ ≤ top * (localsLimit entry + 2 * flow.instructions.size) := by
        rw [empty, length_nil]
        exact Nat.mul_le_mul_left _ (by omega)
      _ ≤ flow.rankLimit entry := rankLimit_high small entry
  have less : ∑ index ∈ Finset.range flow.instructions.size,
      cost ranks (flow.rankLimit entry) ((flow.start entry).frame? index) <
        ∑ _index ∈ Finset.range flow.instructions.size, (flow.rankLimit entry + 1) := by
    refine Finset.sum_lt_sum (fun index _ => ?_) ⟨0, Finset.mem_range.mpr positive, ?_⟩
    · rw [start_frame?]
      split
      · exact Nat.le_succ_of_le small
      · exact le_rfl
    · rw [first]
      exact Nat.lt_succ_of_le small
  rw [Finset.sum_const_nat fun _ _ => rfl, Finset.card_range] at less
  rw [potential, size, single, budget_eq]
  omega

lemma Search.advances {order : Frame → Frame → Prop}
    (respected : Frame.IsRespected flow.hierarchy order)
    (ranked : flow.hierarchy.IsRanked ranks top) (small : top ≤ flow.typeHeight)
    (placed : flow.IsPlaced) (canonical : entry.IsCanonical) (empty : entry.stack = [])
    (positive : 0 < flow.instructions.size) {count : Nat}
    (search : flow.Search entry count state) :
    flow.Invariant order entry state ∧ state.IsBounded (localsLimit entry) ∧
      state.potential ranks (flow.rankLimit entry) + count < flow.budget entry := by
  refine ⟨search.invariant respected placed canonical positive, ?_⟩
  induction search with
  | start =>
    exact ⟨start_isBounded entry empty, start_potential ranked small empty positive⟩
  | @visit count index state next earlier pending visited ih =>
    obtain ⟨bounded, spent⟩ := ih
    have invariant := earlier.invariant respected placed canonical positive
    obtain ⟨bounded', less⟩ := visit_potential ranked placed invariant.size invariant.canonical
      bounded (le_max_right _ _) (invariant.size ▸ rankLimit_high small entry) pending visited
    exact ⟨bounded', by omega⟩

/-- What is known of a search for frames if the root is taken for every common super class. -/
lemma Search.progress (onlyRoot : flow.hierarchy = rootOnly) (placed : flow.IsPlaced)
    (canonical : entry.IsCanonical) (empty : entry.stack = [])
    (positive : 0 < flow.instructions.size) {count : Nat}
    (search : flow.Search entry count state) :
    flow.Invariant (Frame.Below flow.hierarchy) entry state ∧ count < flow.budget entry := by
  have height : flow.typeHeight = 768 := by
    rw [typeHeight, onlyRoot]
    rfl
  obtain ⟨invariant, _, spent⟩ := search.advances
    (below_isRespected (onlyRoot ▸ rootOnly_isLawful))
    (onlyRoot ▸ SuperClasses.rootOnly_isRanked) (by omega) placed canonical empty positive
  exact ⟨invariant, by omega⟩

end FlowProblem

end JvmAsm
