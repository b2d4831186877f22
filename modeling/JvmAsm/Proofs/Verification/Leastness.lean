/-
Compares the frames that are found with any frames that describe every execution, if the root is
taken for the common super class of any two classes: while frames are looked for they stay below the
others, so the search does not fail, and what it ends with does not depend on its order.
-/
import JvmAsm.Proofs.Verification.Joins
import JvmAsm.Proofs.Verification.Termination

namespace JvmAsm

open List JvmAsm.Frame FlowProblem

open Hierarchy (rootOnly rootOnly_isJoin rootOnly_isLawful)

variable {hier : Hierarchy}

lemma Frame.Below.trim {lower upper : Frame} (below : Below hier lower upper) :
    Below hier lower.trim upper.trim := by
  refine below_trim.mpr ⟨fun index => ?_, below.stack⟩
  change VerificationType.FitsLocal hier _ (localAt (trimLocals upper.locals) index)
  rw [localAt_trimLocals]
  exact below.locals index

lemma Frame.IsHeld.below (lawful : hier.IsLawful) {frames : Nat → Option Frame}
    {target : Nat} {lower upper : Frame} (below : Below hier lower upper)
    (isHeld : upper.IsHeld (Below hier) frames target) :
    lower.IsHeld (Below hier) frames target := by
  obtain ⟨held, found, above⟩ := isHeld
  exact ⟨held, found, below.trans lawful above⟩

namespace FlowProblem

variable {flow : FlowProblem} {state state' : FlowState} {frames : Nat → Option Frame}
  {entry : Frame}

/-- Frames that hold at the start and that instructions carry on. -/
structure IsSolvedBy (flow : FlowProblem) (entry : Frame) (frames : Nat → Option Frame) :
    Prop where
  entry : entry.IsHeld (Frame.Below flow.hierarchy) frames 0
  settled : ∀ index before, frames index = some before →
    flow.IsSettled (Frame.Below flow.hierarchy) frames index before

/-- The frames that have been found are below the given ones. -/
def IsUnder (flow : FlowProblem) (frames : Nat → Option Frame) (state : FlowState) : Prop :=
  ∀ index frame, state.frame? index = some frame →
    frame.IsHeld (Frame.Below flow.hierarchy) frames index

lemma mergeInto_under (onlyRoot : flow.hierarchy = rootOnly) {target : Nat} {frame : Frame}
    (inside : target < state.frames.size) (paired : Frame.IsPaired frame.locals)
    (canonical : state.IsCanonical) (under : flow.IsUnder frames state)
    (isHeld : frame.IsHeld (Frame.Below flow.hierarchy) frames target) :
    ∃ next, flow.mergeInto target frame state = .ok next ∧ flow.IsUnder frames next := by
  have replaced {new : Frame} (isHeld : new.IsHeld (Frame.Below flow.hierarchy) frames target) :
      flow.IsUnder frames (state.changed target new) :=
    FlowState.changed_all inside under isHeld
  have trimmed : frame.trim.IsHeld (Frame.Below flow.hierarchy) frames target :=
    isHeld_trim.mpr isHeld
  unfold mergeInto
  dsimp only
  split
  · exact ⟨_, rfl, replaced trimmed⟩
  · next old found =>
    obtain ⟨held, given, above⟩ := under target old found
    obtain ⟨held', given', above'⟩ := trimmed
    obtain rfl := Option.some.inj (given.symm.trans given')
    rw [onlyRoot] at above above'
    obtain ⟨merged, made, _, below⟩ := merge_least rootOnly_isJoin
      (canonical target old found).paired paired.trim (.any old) (.any frame.trim) above above'
    rw [onlyRoot, made]
    dsimp only
    refine ⟨_, rfl, ?_⟩
    split
    · exact under
    · exact replaced ⟨held, given, onlyRoot ▸ below⟩

lemma mergeAll_under (onlyRoot : flow.hierarchy = rootOnly)
    {outgoing : List (Except Failure Nat × Frame)} (accepts : state.Accepts outgoing)
    (under : flow.IsUnder frames state)
    (isHeld : ∀ out ∈ outgoing, ∃ target, out.1 = .ok target ∧
      out.2.IsHeld (Frame.Below flow.hierarchy) frames target) :
    ∃ next, outgoing.foldlM
      (fun state (target, frame) => do flow.mergeInto (← target) frame state) state = .ok next ∧
        flow.IsUnder frames next := by
  induction outgoing generalizing state with
  | nil => exact ⟨state, rfl, under⟩
  | cons out rest ih =>
    obtain ⟨target, found, held⟩ := isHeld out mem_cons_self
    have here := accepts.inside out mem_cons_self target found
    have isPaired := accepts.paired out mem_cons_self
    obtain ⟨next, step, under'⟩ :=
      mergeInto_under onlyRoot here isPaired accepts.canonical under held
    obtain ⟨grows, canonical', _⟩ :=
      mergeInto_ok (kindred_isRespected _) here isPaired accepts.canonical step
    obtain ⟨last, merged, under''⟩ := ih (accepts.tail grows.size canonical') under'
      (fun later mem => isHeld later (mem_cons_of_mem _ mem))
    exact ⟨last, ok_bind_iff.mpr ⟨next, ok_bind_iff.mpr ⟨target, found, step⟩, merged⟩, under''⟩

/-- Larger frames carry larger frames on to the same places. -/
lemma outgoing_mono {index : Nat} {instruction : Instruction} {before after before' after' : Frame}
    (below : Frame.Below hier before before') (below' : Frame.Below hier after after')
    {out : Except Failure Nat × Frame}
    (mem : out ∈ flow.outgoing index instruction before after) :
    ∃ out' ∈ flow.outgoing index instruction before' after', out'.1 = out.1 ∧
      Frame.Below hier out.2 out'.2 := by
  rcases mem_outgoing.mp mem with ⟨covered, handled, locals, one, rfl⟩ | ⟨label, listed, rfl⟩ |
    ⟨goes, rfl⟩
  · have caught {locals locals' : List VerificationType}
        (fits : ∀ index, VerificationType.FitsLocal hier (localAt locals index)
          (localAt locals' index)) :
        Frame.Below hier ⟨locals, [.object covered.caught]⟩
          ⟨locals', [.object covered.caught]⟩ :=
      ⟨fits, .cons (.refl _) .nil⟩
    rcases mem_pair.mp one with rfl | rfl
    · exact ⟨_, mem_outgoing.mpr (.inl ⟨covered, handled, before'.locals, by simp, rfl⟩), rfl,
        caught below.locals⟩
    · exact ⟨_, mem_outgoing.mpr (.inl ⟨covered, handled, after'.locals, by simp, rfl⟩), rfl,
        caught below'.locals⟩
  · exact ⟨_, mem_outgoing.mpr (.inr (.inl ⟨label, listed, rfl⟩)), rfl, below'⟩
  · exact ⟨_, mem_outgoing.mpr (.inr (.inr ⟨goes, rfl⟩)), rfl, below'⟩

/-- An instruction can be looked at, and what is found stays below the given frames. -/
lemma visit_under (onlyRoot : flow.hierarchy = rootOnly) (placed : flow.IsPlaced)
    (solved : flow.IsSolvedBy entry frames)
    (invariant : flow.Invariant (Frame.Below flow.hierarchy) entry state)
    (under : flow.IsUnder frames state) (index : Nat) :
    ∃ next, flow.visit index (state.taken index) = .ok next ∧ flow.IsUnder frames next := by
  have lawful : flow.hierarchy.IsLawful := onlyRoot ▸ rootOnly_isLawful
  cases got : flow.instructions[index]? with
  | none =>
    refine ⟨state.taken index, ?_, under⟩
    unfold visit
    rw [got]
  | some instruction =>
    cases found : state.frame? index with
    | none =>
      refine ⟨state.taken index, ?_, under⟩
      change ((state.taken index).frames[index]?).join = none at found
      unfold visit
      rw [found]
      split
      · contradiction
      · rfl
    | some before =>
      obtain ⟨larger, given, below⟩ := under index before found
      obtain ⟨after', executed', carried⟩ := solved.settled index larger given instruction got
      obtain ⟨⟨⟩, after, executed, _, below'⟩ :=
        ((CodeContext.execute_works instruction (fun _ _ => .refl _)
          fun _ _ _ _ => trivial).does below.relates executed').1
      let between := flow.measured index before after.trim (state.taken index)
      have accepts : between.Accepts (flow.outgoing index instruction before after.trim) :=
        outgoing_accepts (state.taken index) placed invariant.size invariant.canonical found executed
      have under : flow.IsUnder frames between := under
      have isHeld (out : Except Failure Nat × Frame)
          (mem : out ∈ flow.outgoing index instruction before after.trim) :
          ∃ target, out.1 = .ok target ∧ out.2.IsHeld (Frame.Below flow.hierarchy) frames target := by
        obtain ⟨out', mem', same, above⟩ := outgoing_mono below below'.below.trim mem
        obtain ⟨target, found, isHeld⟩ := carried out' mem'
        exact ⟨target, same ▸ found, isHeld.below lawful above⟩
      obtain ⟨next, merged, under'⟩ := mergeAll_under onlyRoot accepts under isHeld
      exact ⟨next, visit_ok got found (visitWith_ok.mpr ⟨after, executed, merged⟩), under'⟩

lemma start_under (solved : flow.IsSolvedBy entry frames) :
    flow.IsUnder frames (flow.start entry) := by
  intro index frame found
  obtain ⟨rfl, rfl⟩ := start_found found
  exact solved.entry

/-- What a search gives when nothing is pending solves the problem. -/
lemma Invariant.isSolvedBy (invariant : flow.Invariant (Frame.Below flow.hierarchy) entry state)
    (idle : ∀ index, index ∉ state.pending) : flow.IsSolvedBy entry state.frame? :=
  ⟨invariant.entry, fun index before found => invariant.settled index before found (idle index)⟩

section Search

variable (onlyRoot : flow.hierarchy = rootOnly) (placed : flow.IsPlaced)
  (canonical : entry.IsCanonical) (empty : entry.stack = [])
  (positive : 0 < flow.instructions.size)

include onlyRoot placed canonical empty positive

/-- A search stays below every solution and can always go on. -/
lemma Search.under (solved : flow.IsSolvedBy entry frames) {count : Nat}
    (search : flow.Search entry count state) : flow.IsUnder frames state := by
  induction search with
  | start => exact start_under solved
  | @visit count index state next earlier _ visited ih =>
    obtain ⟨invariant, _⟩ := earlier.progress onlyRoot placed canonical empty positive
    obtain ⟨next', visited', under⟩ := visit_under onlyRoot placed solved invariant ih index
    obtain rfl := Except.ok.inj (visited.symm.trans visited')
    exact under

/-- Searches that have ended in any order have found the same frames. -/
lemma Search.unique {count count' : Nat} (search : flow.Search entry count state)
    (search' : flow.Search entry count' state') (idle : ∀ index, index ∉ state.pending)
    (idle' : ∀ index, index ∉ state'.pending) : state.frame? = state'.frame? := by
  obtain ⟨invariant, _⟩ := search.progress onlyRoot placed canonical empty positive
  obtain ⟨invariant', _⟩ := search'.progress onlyRoot placed canonical empty positive
  have below := search.under onlyRoot placed canonical empty positive (invariant'.isSolvedBy idle')
  have above := search'.under onlyRoot placed canonical empty positive (invariant.isSolvedBy idle)
  funext index
  cases found : state.frame? index with
  | none =>
    cases found' : state'.frame? index with
    | none => rfl
    | some frame =>
      obtain ⟨held, given, _⟩ := above index frame found'
      rw [found] at given
      contradiction
  | some frame =>
    obtain ⟨frame', found', smaller⟩ := below index frame found
    obtain ⟨held, given, larger⟩ := above index frame' found'
    obtain rfl := Option.some.inj (found.symm.trans given)
    rw [onlyRoot] at smaller larger
    rw [found', smaller.antisymm rootOnly_isJoin larger (invariant.canonical index frame found)
      (invariant'.canonical index frame' found')]

/-- A run does not fail if there is a solution. -/
lemma Search.runs (solved : flow.IsSolvedBy entry frames) {count fuel : Nat}
    (search : flow.Search entry count state) (enough : flow.budget entry ≤ count + fuel) :
    ∃ last, flow.run fuel state = .ok last := by
  obtain ⟨invariant, spent⟩ := search.progress onlyRoot placed canonical empty positive
  have under := search.under onlyRoot placed canonical empty positive solved
  induction fuel generalizing state count with
  | zero => omega
  | succ fuel ih =>
    cases first : state.pending.min? with
    | none =>
      rw [FlowProblem.run, first]
      exact ⟨state, rfl⟩
    | some index =>
      obtain ⟨next, visited, _⟩ := visit_under onlyRoot placed solved invariant under index
      have later := search.visit (pending_of_min? first) visited
      obtain ⟨invariant', spent'⟩ := later.progress onlyRoot placed canonical empty positive
      rw [run_next first visited]
      exact ih later (by omega) invariant' spent'
        (later.under onlyRoot placed canonical empty positive solved)

end Search

lemma Describes.isSolvedBy {code : Code} {owner : ClassName} {method : Method}
    (describes : flow.Describes code)
    (context : flow.toCodeContext = method.context owner code)
    (bound : ∀ label ∈ code.references, ∃ pos, (label, pos) ∈ code.bindings)
    (described : method.IsDescribedBy flow.hierarchy owner code frames) :
    flow.IsSolvedBy (entryFrame owner method) frames := by
  refine ⟨described.entry.held, fun index before given instruction got => ?_⟩
  rw [describes.getElem?, Option.map_eq_some_iff] at got
  obtain ⟨entry, got, rfl⟩ := got
  obtain ⟨after, executed, carried⟩ := described.carried index entry before got given
  refine ⟨after, context ▸ executed, fun out mem => ?_⟩
  rcases mem_outgoing.mp mem with ⟨covered, handled, locals, one, rfl⟩ | ⟨label, listed, rfl⟩ |
    ⟨goes, rfl⟩
  · obtain ⟨handler, catches, caught⟩ := describes.catches_of_mem handled
    obtain ⟨_, absorbed⟩ := carried.catches handler covered.handler catches
    refine ⟨covered.handler, rfl, ?_⟩
    rw [caught]
    rcases mem_pair.mp one with rfl | rfl
    · exact (absorbed before.locals (by simp)).held
    · exact isHeld_trim.mpr (absorbed after.locals (by simp)).held
  · have used : label ∈ code.references := by
      simp only [Code.references, append_assoc]
      refine mem_append_left _ (mem_flatMap.mpr ⟨entry, ?_, listed⟩)
      exact mem_of_getElem? got
    obtain ⟨target, bound⟩ := bound label used
    obtain ⟨inside, absorbed⟩ := carried.continues target (.jump got listed bound)
    exact ⟨target, describes.target_ok.mpr ⟨bound, inside⟩, isHeld_trim.mpr absorbed.held⟩
  · obtain ⟨inside, absorbed⟩ := carried.continues (index + 1) (.next got goes)
    exact ⟨index + 1, describes.next_ok.mpr ⟨rfl, inside⟩, isHeld_trim.mpr absorbed.held⟩

end FlowProblem

section Methods

variable {owner : ClassName} {method : Method} {code : Code}

/-- A search can be begun if all labels are bound and no handler stands at the end of the code. -/
lemma FlowProblem.ofMethod_ok (hier : Hierarchy) (owner : ClassName) (method : Method)
    (once : code.BindsOnce)
    (bound : ∀ label ∈ code.references, ∃ pos, (label, pos) ∈ code.bindings)
    (inside : ∀ handler ∈ code.handlers, ∀ pos,
      (handler.handler, pos) ∈ code.bindings → pos < code.instructions.length) :
    ∃ flow, ofMethod hier owner method code = .ok flow := by
  have covered : ∃ coverage, code.handlers.mapM
      (ExceptionHandler.coverage code.positions code.instructions.length) = .ok coverage := by
    refine exists_ok_mapM fun handler mem => ?_
    have used (label : Label) (one : label ∈ [handler.start, handler.stop, handler.handler]) :
        label ∈ code.references := by
      simp only [Code.references, append_assoc]
      refine mem_append_right _ (mem_append_left _ ?_)
      exact mem_flatMap.mpr ⟨handler, mem, one⟩
    obtain ⟨start, first⟩ := bound handler.start (used _ (by simp))
    obtain ⟨stop, last⟩ := bound handler.stop (used _ (by simp))
    obtain ⟨target, placed⟩ := bound handler.handler (used _ (by simp))
    exact ⟨⟨start, stop, target, handler.caughtClass⟩, (ExceptionHandler.coverage_ok once).mpr
      ⟨placed, inside handler mem target placed, first, last, rfl⟩⟩
  obtain ⟨coverage, mapped⟩ := covered
  exact ⟨_, ok_bind_iff.mpr ⟨coverage, mapped, rfl⟩⟩

lemma boundedSize_error {size : Nat} {cause : VerificationCause} {failure : Failure}
    (failed : boundedSize size cause = .error failure) : failure.kind? = some .encoding := by
  unfold boundedSize at failed
  split at failed
  · contradiction
  · cases failed
    rfl

/--
The search for the frames of a method ends in every order. If any frames describe every execution,
then the search does not fail in any order, it fails later only because a size is too large, and the
frames that it finds are below the given ones and do not depend on the order.
-/
theorem computeFrames_least (given : method.code = some code)
    (positive : 0 < code.instructions.length) (once : code.BindsOnce)
    (bound : ∀ label ∈ code.references, ∃ pos, (label, pos) ∈ code.bindings) :
    (∀ flow, FlowProblem.ofMethod rootOnly owner method code = .ok flow → ∀ count state,
      flow.Search (entryFrame owner method) count state →
        count < flow.budget (entryFrame owner method)) ∧
    ∀ frames, method.IsDescribedBy rootOnly owner code frames →
      (∀ handler ∈ code.handlers, ∀ pos, (handler.handler, pos) ∈ code.bindings →
        pos < code.instructions.length) →
      ∃ flow, FlowProblem.ofMethod rootOnly owner method code = .ok flow ∧
        (∀ count state, flow.Search (entryFrame owner method) count state →
          ∀ index ∈ state.pending, ∃ next, flow.visit index (state.taken index) = .ok next) ∧
        (∀ failure, computeFrames rootOnly owner method = .error failure →
          failure.kind? = some .encoding) ∧
        ∀ table, computeFrames rootOnly owner method = .ok table →
          (∀ index frame, table.frame? index = some frame →
            frame.IsAbsorbed rootOnly frames index) ∧
          ∀ count state, flow.Search (entryFrame owner method) count state →
            (∀ index, index ∉ state.pending) → state.frame? = table.frame? := by
  have canonical := entryFrame_isCanonical owner method
  have empty : (entryFrame owner method).stack = [] := rfl
  refine ⟨fun flow made count state search => ?_, fun frames described inside => ?_⟩
  · obtain ⟨describes, _, onlyRoot⟩ := ofMethod_describes once made
    have spent := search.progress onlyRoot describes.isPlaced canonical empty
      (describes.size ▸ positive)
    omega
  · obtain ⟨flow, made⟩ := ofMethod_ok rootOnly owner method once bound inside
    obtain ⟨describes, context, onlyRoot⟩ := ofMethod_describes once made
    have placed := describes.isPlaced
    have positive' : 0 < flow.instructions.size := describes.size ▸ positive
    have solved := describes.isSolvedBy context bound (onlyRoot ▸ described)
    obtain ⟨last, ran⟩ := FlowProblem.Search.start.runs onlyRoot placed canonical empty positive'
      solved (zero_add _).ge
    obtain ⟨total, whole, idle⟩ := FlowProblem.Search.start.run ran
    have frames_eq (table : FrameTable) (found : computeFrames rootOnly owner method = .ok table) :
        table.frame? = last.frame? := by
      obtain ⟨flow', state, made', _, finds⟩ := computeFrames_ok given found
      obtain rfl := Except.ok.inj (made.symm.trans made')
      obtain rfl := Except.ok.inj (ran.symm.trans finds.ran)
      exact finds.frame?_eq
    refine ⟨flow, made, fun count state search index _ => ?_, fun failure failed => ?_,
      fun table found => ⟨fun index frame got => ?_, fun count state search finished => ?_⟩⟩
    · obtain ⟨invariant, _⟩ := search.progress onlyRoot placed canonical empty positive'
      have under := search.under onlyRoot placed canonical empty positive' solved
      obtain ⟨next, visited, _⟩ :=
        visit_under onlyRoot placed solved invariant under index
      exact ⟨next, visited⟩
    · rw [computeFrames_eq given (once.checkLabels_ok.mpr bound) positive made, ran] at failed
      change (boundedSize last.maxStack (.maxStack last.maxStack) >>= _) = .error failure at failed
      cases stack : boundedSize last.maxStack (.maxStack last.maxStack) with
      | error first =>
        rw [stack] at failed
        cases failed
        exact boundedSize_error stack
      | ok maxStack =>
        rw [stack] at failed
        change (boundedSize last.maxLocals (.maxLocals last.maxLocals) >>= _) = _ at failed
        cases locals : boundedSize last.maxLocals (.maxLocals last.maxLocals) with
        | error second =>
          rw [locals] at failed
          cases failed
          exact boundedSize_error locals
        | ok maxLocals =>
          rw [locals] at failed
          contradiction
    · rw [frames_eq table found] at got
      obtain ⟨invariant, _⟩ := whole.progress onlyRoot placed canonical empty positive'
      have reached : code.Reaches index := describes.reaches (invariant.reached index (by
        rw [got]
        rfl))
      obtain ⟨_, held, given', isCanonical⟩ := described.covers positive reached
      obtain ⟨held', found', below⟩ :=
        whole.under onlyRoot placed canonical empty positive' solved index frame got
      obtain rfl := Option.some.inj (given'.symm.trans found')
      exact ⟨held, given', (below_trim.mpr (onlyRoot ▸ below)).absorbed isCanonical⟩
    · rw [frames_eq table found]
      exact search.unique onlyRoot placed canonical empty positive' whole finished idle

/-- There are frames that describe a loop, and the least ones are found. -/
theorem computeFrames_least_countdown :
    ∃ frames, Method.countdown.IsDescribedBy rootOnly .root .countdown frames ∧
      ∀ table, computeFrames rootOnly .root .countdown = .ok table →
        ∀ index frame, table.frame? index = some frame → frame.IsAbsorbed rootOnly frames index := by
  have once := Code.countdown_bindsOnce
  have used : Code.countdown.references = [⟨0⟩] := rfl
  have bound : ∀ label ∈ Code.countdown.references,
      ∃ pos, (label, pos) ∈ Code.countdown.bindings := by
    rw [used]
    exact fun label mem => ⟨0, mem_singleton.mp mem ▸ by decide⟩
  obtain ⟨table, found⟩ := computeFrames_countdown
  have described := computeFrames_isDescribedBy rootOnly_isLawful rfl once found
  obtain ⟨_, _, _, _, below⟩ := (computeFrames_least rfl (by decide) once bound).2 table.frame?
    described (by simp [Code.countdown])
  exact ⟨table.frame?, described, fun table found => (below table found).1⟩

end Methods

end JvmAsm
