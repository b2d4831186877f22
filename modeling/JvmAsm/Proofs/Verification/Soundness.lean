/-
Shows that the frames that are found for a method describe every execution of it: exactly the
instructions that can be reached have frames, every instruction can be executed with its frame, and
what an instruction leaves is described by the frames of all instructions that may come next.
-/
import JvmAsm.Proofs.Verification.ControlFlow

namespace JvmAsm

open List FlowProblem JvmAsm.Frame VerificationType

variable {owner : ClassName} {method : Method} {order : Frame → Frame → Prop} {state : FlowState}
variable {flow : FlowProblem} {index : Nat} {code : Code}

/-- The frame of an instruction stays as it is when another one is merged into it. -/
def Frame.IsAbsorbed (hier : Hierarchy) (frames : Nat → Option Frame) (target : Nat)
    (frame : Frame) : Prop :=
  ∃ held, frames target = some held ∧ merge hier held frame.trim = .ok held

/-- What an instruction leaves is described by the frames of what may come next. -/
structure Code.IsCarried (hier : Hierarchy) (code : Code) (frames : Nat → Option Frame)
    (index : Nat) (before after : Frame) : Prop where
  continues : ∀ target, code.Continues index target →
    target < code.instructions.length ∧ after.IsAbsorbed hier frames target
  catches : ∀ handler target, code.Catches index handler target →
    target < code.instructions.length ∧ ∀ locals ∈ [before.locals, after.locals],
      Frame.IsAbsorbed hier frames target ⟨locals, [.object handler.caughtClass]⟩

/--
Frames that describe every execution of a method: they hold at its start, and what an instruction
makes of its frame is described again.
-/
structure Method.IsDescribedBy (hier : Hierarchy) (owner : ClassName) (method : Method)
    (code : Code) (frames : Nat → Option Frame) : Prop where
  entry : (entryFrame owner method).IsAbsorbed hier frames 0
  carried : ∀ index entry before, code.instructions[index]? = some entry →
    frames index = some before → ∃ after,
      (method.context owner code).execute index entry.instruction before = .ok ((), after) ∧
        code.IsCarried hier frames index before after

section Absorption

variable {hier : Hierarchy} {frames : Nat → Option Frame} {target : Nat} {frame : Frame}

lemma Frame.IsAbsorbed.held (absorbed : frame.IsAbsorbed hier frames target) :
    frame.IsHeld (Below hier) frames target := by
  obtain ⟨held, found, same⟩ := absorbed
  exact ⟨held, found, below_trim.mp (below_of_absorbed same)⟩

lemma Frame.IsHeld.absorbed
    (canonical : ∀ index frame, frames index = some frame → frame.IsCanonical)
    (isHeld : frame.IsHeld (Below hier) frames target) :
    frame.IsAbsorbed hier frames target := by
  obtain ⟨held, found, below⟩ := isHeld
  exact ⟨held, found, (below_trim.mpr below).absorbed (canonical target held found)⟩

/-- A frame is described if it is with the local variables that are needed. -/
lemma Frame.isHeld_trim : frame.trim.IsHeld (Below hier) frames target ↔
    frame.IsHeld (Below hier) frames target := by
  simp only [IsHeld, below_trim]

lemma Frame.IsAbsorbed.canonical (absorbed : frame.IsAbsorbed hier frames target) :
    ∃ held, frames target = some held ∧ held.IsCanonical := by
  obtain ⟨held, found, same⟩ := absorbed
  exact ⟨held, found, merge_isCanonical same⟩

/-- Frames that describe every execution are there wherever execution may get to. -/
lemma Method.IsDescribedBy.covers (described : method.IsDescribedBy hier owner code frames)
    (positive : 0 < code.instructions.length) (reached : code.Reaches index) :
    index < code.instructions.length ∧ ∃ held, frames index = some held ∧ held.IsCanonical := by
  have carried {index : Nat} {before : Frame} (inside : index < code.instructions.length)
      (found : frames index = some before) :
      ∃ after, code.IsCarried hier frames index before after := by
    obtain ⟨after, _, isCarried⟩ :=
      described.carried index _ before (getElem?_eq_getElem inside) found
    exact ⟨after, isCarried⟩
  induction reached with
  | start => exact ⟨positive, described.entry.canonical⟩
  | continues _ goes ih =>
    obtain ⟨inside, before, found, _⟩ := ih
    obtain ⟨after, isCarried⟩ := carried inside found
    obtain ⟨inside', absorbed⟩ := isCarried.continues _ goes
    exact ⟨inside', absorbed.canonical⟩
  | catches _ caught ih =>
    obtain ⟨inside, before, found, _⟩ := ih
    obtain ⟨after, isCarried⟩ := carried inside found
    obtain ⟨inside', absorbed⟩ := isCarried.catches _ _ caught
    exact ⟨inside', (absorbed before.locals (by simp)).canonical⟩

end Absorption

namespace FlowProblem

variable {flow : FlowProblem} {code : Code} {index : Nat} {frames : Nat → Option Frame}

section Settled

variable {order : Frame → Frame → Prop} {entry : Entry} {before after : Frame}

/-- What is carried on is held wherever execution may go on. -/
lemma Describes.held_of_continues (describes : flow.Describes code)
    (got : code.instructions[index]? = some entry)
    (holds : ∀ out ∈ flow.outgoing index entry.instruction before after,
      ∃ target, out.1 = .ok target ∧ out.2.IsHeld order frames target)
    {target : Nat} (goes : code.Continues index target) :
    target < code.instructions.length ∧ after.IsHeld order frames target := by
  cases goes with
  | @jump entry' label _ got' listed bound =>
    obtain rfl := Option.some.inj (got.symm.trans got')
    obtain ⟨target', found, isHeld⟩ := holds _ (mem_outgoing.mpr (.inr (.inl ⟨label, listed, rfl⟩)))
    obtain ⟨bound', inside⟩ := describes.target_ok.mp found
    obtain rfl := describes.once.position_unique bound' bound
    exact ⟨inside, isHeld⟩
  | next got' goes =>
    obtain rfl := Option.some.inj (got.symm.trans got')
    obtain ⟨target', found, isHeld⟩ := holds _ (mem_outgoing.mpr (.inr (.inr ⟨goes, rfl⟩)))
    obtain ⟨rfl, inside⟩ := describes.next_ok.mp found
    exact ⟨inside, isHeld⟩

lemma Describes.held_of_catches (describes : flow.Describes code)
    (holds : ∀ out ∈ flow.outgoing index entry.instruction before after,
      ∃ target, out.1 = .ok target ∧ out.2.IsHeld order frames target)
    {handler : ExceptionHandler} {target : Nat} (catches : code.Catches index handler target) :
    target < code.instructions.length ∧ ∀ locals ∈ [before.locals, after.locals],
      Frame.IsHeld order frames target ⟨locals, [.object handler.caughtClass]⟩ := by
  obtain ⟨covered, mem, rfl, caught⟩ := describes.mem_of_catches catches
  rw [← caught, ← describes.size]
  refine ⟨describes.isPlaced covered (mem_of_mem_filter mem), fun locals one => ?_⟩
  obtain ⟨target', found, isHeld⟩ :=
    holds _ (mem_outgoing.mpr (.inl ⟨covered, mem, locals, one, rfl⟩))
  cases found
  exact isHeld

end Settled

/-- What is settled describes all that may come next. -/
lemma Describes.carried (describes : flow.Describes code)
    (canonical : ∀ index frame, frames index = some frame → frame.IsCanonical)
    {entry : Entry} {before after : Frame} (got : code.instructions[index]? = some entry)
    (holds : ∀ out ∈ flow.outgoing index entry.instruction before after.trim,
      ∃ target, out.1 = .ok target ∧ out.2.IsHeld (Frame.Below flow.hierarchy) frames target) :
    code.IsCarried flow.hierarchy frames index before after where
  continues target goes := by
    obtain ⟨inside, isHeld⟩ := describes.held_of_continues got holds goes
    exact ⟨inside, (isHeld_trim.mp isHeld).absorbed canonical⟩
  catches handler target catches := by
    obtain ⟨inside, isHeld⟩ := describes.held_of_catches holds catches
    refine ⟨inside, ?_⟩
    simp only [mem_cons, not_mem_nil, or_false, forall_eq_or_imp, forall_eq] at isHeld ⊢
    exact ⟨isHeld.1.absorbed canonical, (isHeld_trim.mp isHeld.2).absorbed canonical⟩

lemma Describes.reaches_iff {order : Frame → Frame → Prop} {entry : Frame} {state : FlowState}
    (describes : flow.Describes code) (invariant : flow.Invariant order entry state)
    (idle : ∀ index, index ∉ state.pending) (positive : 0 < flow.instructions.size) (index : Nat) :
    (state.frame? index).isSome ↔ code.Reaches index := by
  refine ⟨fun found => describes.reaches (invariant.reached index found), fun reached => ?_⟩
  have settled {index : Nat} (inside : index < code.instructions.length)
      (found : (state.frame? index).isSome) : ∃ before after,
        ∀ out ∈ flow.outgoing index (code.instructions[index]).instruction before after,
          ∃ target, out.1 = .ok target ∧ out.2.IsHeld order state.frame? target := by
    obtain ⟨before, found⟩ := Option.isSome_iff_exists.mp found
    obtain ⟨after, _, holds⟩ := invariant.settled index before found (idle index)
      (code.instructions[index]).instruction (by
        rw [describes.getElem?, getElem?_eq_getElem inside]
        rfl)
    exact ⟨before, after.trim, holds⟩
  have got {target : Nat} {frame : Frame} (isHeld : frame.IsHeld order state.frame? target) :
      (state.frame? target).isSome := by
    obtain ⟨held, found, _⟩ := isHeld
    rw [found]
    rfl
  suffices index < code.instructions.length ∧ (state.frame? index).isSome from this.2
  induction reached with
  | start => exact ⟨describes.size ▸ positive, got invariant.entry⟩
  | continues _ goes ih =>
    obtain ⟨before, after, holds⟩ := settled ih.1 ih.2
    obtain ⟨inside, isHeld⟩ :=
      describes.held_of_continues (getElem?_eq_getElem ih.1) holds goes
    exact ⟨inside, got isHeld⟩
  | catches _ caught ih =>
    obtain ⟨before, after, holds⟩ := settled ih.1 ih.2
    obtain ⟨inside, isHeld⟩ := describes.held_of_catches holds caught
    exact ⟨inside, got (isHeld before.locals (by simp))⟩

end FlowProblem

section Entry

lemma Frame.IsPaired.append {first second : List VerificationType} (paired : IsPaired first)
    (paired' : IsPaired second) : IsPaired (first ++ second) := by
  intro index type found wide
  rw [getElem?_append] at found
  split at found
  · have next := paired index type found wide
    rw [List.getElem?_append_left (List.getElem?_eq_some_iff.mp next).1, next]
  · next outside =>
    have next := paired' _ type found wide
    rw [getElem?_append_right (by omega), ← next]
    congr 1
    omega

/-- The local variables that a value takes. -/
def VerificationType.slots (type : VerificationType) : List VerificationType :=
  if type.isWide then [type, .top] else [type]

lemma VerificationType.slots_paired (type : VerificationType) : Frame.IsPaired type.slots := by
  intro index found got wide
  unfold slots at got ⊢
  split at got
  · next isWide =>
    rw [if_pos isWide]
    match index with
    | 0 => rfl
    | 1 =>
      cases got
      cases wide
    | _ + 2 => cases got
  · next narrow =>
    match index with
    | 0 =>
      cases got
      exact absurd wide narrow
    | _ + 1 => cases got

/-- Values that follow each other in local variables need all of these. -/
lemma Frame.slots_isCanonical {xs stack : List VerificationType}
    (used : ∀ type ∈ xs, type ≠ .top) :
    IsCanonical ⟨xs.flatMap slots, stack⟩ := by
  constructor
  · induction xs with
    | nil => exact fun _ _ found _ => by cases found
    | cons type rest ih =>
      rw [flatMap_cons]
      exact type.slots_paired.append (ih fun type mem => used type (mem_cons_of_mem _ mem))
  · rcases eq_nil_or_concat xs with rfl | ⟨before, last, rfl⟩
    · rfl
    · have usedLast : last ≠ .top := used last (by simp)
      unfold IsTrimmed
      rw [concat_eq_append, flatMap_append, reverse_append, flatMap_singleton, slots]
      split
      · next wide =>
        change isSpare (.top :: last :: _) = false
        rw [isSpare, wide]
        rfl
      · change isSpare (last :: _) = false
        cases last <;> first | rfl | contradiction

/-- The method is a constructor that has to call another one. -/
def Method.Constructs (method : Method) (owner : ClassName) : Prop :=
  method.name.isConstructor = true ∧ owner ≠ .root ∧ method.access.isStatic = false

lemma entryFrame_values (owner : ClassName) (method : Method) :
    ∃ xs : List VerificationType, entryFrame owner method = ⟨xs.flatMap slots, []⟩ ∧
      ∀ type ∈ xs, type ≠ .top ∧
        (Frame.IsFresh type → type = .uninitializedThis ∧ method.Constructs owner) := by
  let this : List VerificationType :=
    if method.access.isStatic then []
    else if method.name.isConstructor && owner ≠ .root then [.uninitializedThis]
    else [.object owner]
  have narrow : this = this.flatMap slots := by
    unfold this
    split
    · rfl
    · split <;> rfl
  refine ⟨this ++ method.descriptor.parameters.map ofFieldType, ?_, fun type mem => ?_⟩
  · rw [flatMap_append, ← narrow, flatMap_map]
    rfl
  rcases mem_append.mp mem with isThis | parameter
  · unfold this at isThis
    split at isThis
    · contradiction
    · next dynamic =>
      split at isThis
      · next constructor =>
        simp only [Bool.and_eq_true, decide_eq_true_eq, Bool.not_eq_true] at constructor dynamic
        cases mem_singleton.mp isThis
        exact ⟨by rintro ⟨⟩, fun _ => ⟨rfl, constructor.1, constructor.2, dynamic⟩⟩
      · cases mem_singleton.mp isThis
        constructor <;> rintro ⟨⟩
  · obtain ⟨field, _, rfl⟩ := mem_map.mp parameter
    exact ⟨ofFieldType_ne_top field, (absurd · (Frame.not_isFresh_ofFieldType field))⟩

lemma entryFrame_isCanonical (owner : ClassName) (method : Method) :
    (entryFrame owner method).IsCanonical := by
  obtain ⟨xs, whole, each⟩ := entryFrame_values owner method
  rw [whole]
  exact slots_isCanonical fun type mem => (each type mem).1

end Entry

namespace FlowProblem

variable {flow : FlowProblem}

lemma start_frame? (flow : FlowProblem) (entry : Frame) (index : Nat) :
    (flow.start entry).frame? index =
      if index = 0 ∧ 0 < flow.instructions.size then some entry else none := by
  unfold FlowState.frame? start
  dsimp only
  rw [Array.getElem?_setIfInBounds, Array.size_replicate, Array.getElem?_replicate]
  split
  · next zero =>
    subst zero
    split
    · next some => simp [some]
    · next none => simp [none]
  · next other =>
    have later : ¬(index = 0 ∧ 0 < flow.instructions.size) := fun both => other both.1.symm
    rw [if_neg later]
    split <;> rfl

variable {entry : Frame}

/-- Only the first instruction has a frame at the start. -/
lemma start_found {frame : Frame} (found : (flow.start entry).frame? index = some frame) :
    index = 0 ∧ frame = entry := by
  rw [start_frame?] at found
  split at found
  · next zero => exact ⟨zero.1, (Option.some.inj found).symm⟩
  · contradiction

lemma start_held (respected : Frame.IsRespected flow.hierarchy order)
    (positive : 0 < flow.instructions.size) :
    entry.IsHeld order (flow.start entry).frame? 0 :=
  ⟨entry, by rw [start_frame?, if_pos ⟨rfl, positive⟩], respected.refl entry⟩

/-- What holds all the time holds at the start. -/
lemma start_invariant (respected : Frame.IsRespected flow.hierarchy order)
    (canonical : entry.IsCanonical) (positive : 0 < flow.instructions.size) :
    flow.Invariant order entry (flow.start entry) where
  size := by simp [start]
  canonical index frame found := (start_found found).2 ▸ canonical
  entry := start_held respected positive
  settled index before found idle := by
    obtain ⟨rfl, _⟩ := start_found found
    exact absurd Std.TreeSet.mem_insert_self idle
  reached index isFound := by
    obtain ⟨frame, found⟩ := Option.isSome_iff_exists.mp isFound
    exact (start_found found).1 ▸ .refl

/-- What pending instructions have been looked at one after the other, in any order. -/
inductive Search (flow : FlowProblem) (entry : Frame) : Nat → FlowState → Prop where
  | start : Search flow entry 0 (flow.start entry)
  | visit {count index : Nat} {state next : FlowState} (earlier : Search flow entry count state)
      (pending : index ∈ state.pending)
      (visited : flow.visit index (state.taken index) = .ok next) :
      Search flow entry (count + 1) next

/-- What holds all the time holds while pending instructions are looked at. -/
lemma Search.invariant (respected : Frame.IsRespected flow.hierarchy order)
    (placed : flow.IsPlaced) (canonical : entry.IsCanonical)
    (positive : 0 < flow.instructions.size) {count : Nat}
    (search : flow.Search entry count state) :
    flow.Invariant order entry state := by
  induction search with
  | start => exact start_invariant respected canonical positive
  | visit _ _ visited ih => exact ih.visit respected placed visited

lemma pending_of_min? (first : state.pending.min? = some index) :
    index ∈ state.pending :=
  Std.TreeSet.contains_iff_mem.mp (Std.TreeSet.contains_min? first)

/-- A run is a search that ends with nothing pending. -/
lemma Search.run {state' : FlowState} {count fuel : Nat}
    (search : flow.Search entry count state) (ran : flow.run fuel state = .ok state') :
    ∃ count', flow.Search entry count' state' ∧ ∀ index, index ∉ state'.pending := by
  induction fuel generalizing state count with
  | zero => contradiction
  | succ fuel ih =>
    unfold run at ran
    split at ran
    · next none =>
      cases ran
      rw [Std.TreeSet.min?_eq_none_iff] at none
      exact ⟨count, search, fun index => Std.TreeSet.not_mem_of_isEmpty none⟩
    · next index first =>
      obtain ⟨next, visited, ran⟩ := ok_parts ran
      exact ih (search.visit (pending_of_min? first) visited) ran

end FlowProblem

/-- What is found when nothing is pending any more describes every execution. -/
lemma FlowProblem.Invariant.isDescribedBy (describes : flow.Describes code)
    (context : flow.toCodeContext = method.context owner code)
    (invariant : flow.Invariant (Frame.Below flow.hierarchy) (entryFrame owner method) state)
    (idle : ∀ index, index ∉ state.pending) :
    method.IsDescribedBy flow.hierarchy owner code state.frame? := by
  refine ⟨invariant.entry.absorbed invariant.canonical, fun index entry before got found => ?_⟩
  have got' : flow.instructions[index]? = some entry.instruction := by
    rw [describes.getElem?, got]
    rfl
  obtain ⟨after, executed, holds⟩ :=
    invariant.settled index before found (idle index) entry.instruction got'
  exact ⟨after, context ▸ executed, describes.carried invariant.canonical got holds⟩

/-- The hierarchies that the frames of a method can be trusted with. -/
def Hierarchy.IsTrusted (hier : Hierarchy) : Prop :=
  hier = .rootOnly ∨ hier = .unknown ∨ ∃ known : SuperClasses, known.IsTree ∧ hier = known.hierarchy

lemma Hierarchy.IsTrusted.isLawful {hier : Hierarchy} (trusted : hier.IsTrusted) :
    hier.IsLawful := by
  rcases trusted with rfl | rfl | ⟨known, tree, rfl⟩
  · exact rootOnly_isLawful
  · exact unknown_isLawful
  · exact tree.isLawful

lemma boundedSize_ok {size : Nat} {cause : VerificationCause} {bounded : UInt16}
    (fits : boundedSize size cause = .ok bounded) : size = bounded.toNat := by
  unfold boundedSize at fits
  split at fits
  · next small =>
    cases fits
    simp only [UInt16.toNat_ofNat']
    omega
  · contradiction

lemma computeFrames_eq {hier : Hierarchy} (given : method.code = some code)
    (labels : code.checkLabels = .ok ()) (positive : 0 < code.instructions.length)
    (made : ofMethod hier owner method code = .ok flow) :
    computeFrames hier owner method = do
      let state ← (flow.run (flow.budget (entryFrame owner method))
        (flow.start (entryFrame owner method))).mapError
          (Failure.within (.verification (.inMethod method.title)))
      let maxStack ← boundedSize state.maxStack (.maxStack state.maxStack)
      let maxLocals ← boundedSize state.maxLocals (.maxLocals state.maxLocals)
      return ⟨entryFrame owner method, state.frames, flow.required state.frames, maxStack,
        maxLocals⟩ := by
  have some : code.instructions.isEmpty = false := by
    rw [isEmpty_eq_false_iff, ← length_pos_iff]
    exact positive
  unfold computeFrames
  rw [given]
  dsimp only
  rw [labels]
  change (if code.instructions.isEmpty = true then _ else _) = _
  rw [some, if_neg Bool.false_ne_true, made]
  rfl

/-- What has been found when nothing is pending any more. -/
structure FlowProblem.Finds (flow : FlowProblem) (entry : Frame) (state : FlowState)
    (table : FrameTable) : Prop where
  ran : flow.run (flow.budget entry) (flow.start entry) = .ok state
  frames : table.frames = state.frames
  required : table.required = flow.required state.frames
  stack : state.maxStack = table.maxStack.toNat
  locals : state.maxLocals = table.maxLocals.toNat

lemma FlowProblem.Finds.frame?_eq {entry : Frame} {table : FrameTable}
    (finds : flow.Finds entry state table) : table.frame? = state.frame? := by
  funext index
  rw [FrameTable.frame?, finds.frames, FlowState.frame?]

section Methods

variable {hier : Hierarchy} {code : Code} {table : FrameTable}

/-- The steps of the search for the frames of a method. -/
lemma computeFrames_ok (given : method.code = some code)
    (found : computeFrames hier owner method = .ok table) :
    ∃ flow state, ofMethod hier owner method code = .ok flow ∧
      0 < flow.instructions.size ∧ flow.Finds (entryFrame owner method) state table := by
  unfold computeFrames at found
  rw [given] at found
  obtain ⟨⟨⟩, _, found⟩ := ok_parts found
  split at found
  · contradiction
  · next positive =>
    simp only [ok_bind_iff, ok_mapError_iff] at found
    obtain ⟨flow, made, state, ran, maxStack, first, maxLocals, second, found⟩ := found
    cases found
    rw [List.isEmpty_iff, ← List.length_eq_zero_iff, ← (ofMethod_parts made).2.2.1] at positive
    exact ⟨flow, state, made, Nat.pos_of_ne_zero positive, ran, rfl, rfl, boundedSize_ok first,
      boundedSize_ok second⟩

/-- What holds all the time holds for what is found. -/
lemma computeFrames_invariant (respected : Frame.IsRespected hier order)
    (given : method.code = some code) (found : computeFrames hier owner method = .ok table) :
    ∃ flow state, ofMethod hier owner method code = .ok flow ∧
      0 < flow.instructions.size ∧ flow.Finds (entryFrame owner method) state table ∧
        flow.Invariant order (entryFrame owner method) state ∧ ∀ index, index ∉ state.pending := by
  obtain ⟨flow, state, made, positive, finds⟩ := computeFrames_ok given found
  obtain ⟨_, rfl, _, placed⟩ := ofMethod_parts made
  obtain ⟨count, search, idle⟩ := FlowProblem.Search.start.run finds.ran
  exact ⟨flow, state, made, positive, finds,
    search.invariant respected placed (entryFrame_isCanonical owner method) positive, idle⟩

lemma computeFrames_size (given : method.code = some code)
    (found : computeFrames hier owner method = .ok table) :
    table.frames.size = code.instructions.length := by
  obtain ⟨flow, state, made, _, finds, invariant, _⟩ :=
    computeFrames_invariant (kindred_isRespected hier) given found
  rw [finds.frames, invariant.size, (ofMethod_parts made).2.2.1]

/-- Whatever is known of classes, frames are found for the instructions that can be reached. -/
lemma computeFrames_reaches (given : method.code = some code) (once : code.BindsOnce)
    (found : computeFrames hier owner method = .ok table) (index : Nat) :
    (table.frame? index).isSome ↔ code.Reaches index := by
  obtain ⟨flow, state, made, positive, finds, invariant, idle⟩ :=
    computeFrames_invariant (kindred_isRespected hier) given found
  obtain ⟨describes, _, _⟩ := ofMethod_describes once made
  rw [finds.frame?_eq]
  exact describes.reaches_iff invariant idle positive index

lemma computeFrames_isDescribedBy (lawful : hier.IsLawful) (given : method.code = some code)
    (once : code.BindsOnce) (found : computeFrames hier owner method = .ok table) :
    method.IsDescribedBy hier owner code table.frame? := by
  obtain ⟨flow, state, made, _, finds, invariant, idle⟩ :=
    computeFrames_invariant (below_isRespected lawful) given found
  obtain ⟨describes, context, rfl⟩ := ofMethod_describes once made
  rw [finds.frame?_eq]
  exact invariant.isDescribedBy describes context idle

end Methods

/--
The frames that are found for a method with a trusted hierarchy are there exactly where execution
may get to, and describe every execution of the method.
-/
theorem computeFrames_describes {hier : Hierarchy} {owner : ClassName} {method : Method}
    {code : Code} {table : FrameTable} (trusted : hier.IsTrusted)
    (given : method.code = some code) (once : code.BindsOnce)
    (found : computeFrames hier owner method = .ok table) :
    (∀ index, (table.frame? index).isSome ↔ code.Reaches index) ∧
      method.IsDescribedBy hier owner code table.frame? :=
  ⟨computeFrames_reaches given once found,
    computeFrames_isDescribedBy trusted.isLawful given once found⟩

section Countdown

/-- Counts an argument down to zero. -/
def Code.countdown : Code where
  instructions := [⟨some ⟨0⟩, .increment 0 (-1)⟩, ⟨none, .load .int 0⟩, ⟨none, .branch .ne ⟨0⟩⟩,
    ⟨none, .simple .returnVoid⟩]

def Method.countdown : Method where
  access := ⟨8⟩
  name := ⟨"countdown", by decide +kernel⟩
  descriptor := ⟨[.primitive .int], none⟩
  code := some .countdown

lemma Code.countdown_bindsOnce : Code.countdown.BindsOnce := by
  unfold BindsOnce
  decide

/-- The loop is looked at once, because its frame does not change when it is jumped to. -/
lemma computeFrames_countdown :
    ∃ table, computeFrames .rootOnly .root .countdown = .ok table :=
  ⟨⟨⟨[.int], []⟩, #[some ⟨[.int], []⟩, some ⟨[.int], []⟩, some ⟨[.int], [.int]⟩,
    some ⟨[.int], []⟩], [0], 1, 1⟩, by cbv⟩

/-- The frames of a loop are found and describe it. -/
theorem computeFrames_describes_countdown : ∃ table,
    computeFrames .rootOnly .root .countdown = .ok table ∧
      (∀ index, (table.frame? index).isSome ↔ Code.countdown.Reaches index) ∧
        Method.countdown.IsDescribedBy .rootOnly .root .countdown table.frame? := by
  obtain ⟨table, found⟩ := computeFrames_countdown
  exact ⟨table, found, computeFrames_describes (.inl rfl) rfl Code.countdown_bindsOnce found⟩

end Countdown

end JvmAsm
