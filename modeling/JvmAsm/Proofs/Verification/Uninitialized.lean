/- Follows objects from the instructions that create them to the calls of their constructors. -/
import JvmAsm.Proofs.Verification.Soundness

namespace JvmAsm

open List VerificationType

variable {type : VerificationType} {frame lower upper : Frame} {index : Nat}
variable {related : VerificationType → VerificationType → Prop}
variable {holds holds' : VerificationType → Prop}

namespace Frame

/-- Something holds for the types of all values. -/
structure All (holds : VerificationType → Prop) (frame : Frame) : Prop where
  locals : ∀ index, holds (localAt frame.locals index)
  stack : ∀ type ∈ frame.stack, holds type

lemma All.imp (all : frame.All holds) (implies : ∀ type, holds type → holds' type) :
    frame.All holds' :=
  ⟨fun index => implies _ (all.locals index), fun type mem => implies _ (all.stack type mem)⟩

lemma All.trim (all : frame.All holds) : frame.trim.All holds :=
  ⟨fun index => by simpa [Frame.trim] using all.locals index, all.stack⟩

lemma All.of_mem (all : frame.All holds) (mem : type ∈ frame.locals ++ frame.stack) :
    holds type := by
  rcases mem_append.mp mem with mem | mem
  · obtain ⟨index, got⟩ := getElem?_of_mem mem
    have here := all.locals index
    rwa [localAt, got] at here
  · exact all.stack type mem

lemma Relates.all (relates : Relates related lower upper) (all : lower.All holds)
    (top : holds' .top) (each : ∀ {a b}, related a b → holds a → holds' b) : upper.All holds' where
  locals index := (relates.locals index).elim (· ▸ top) fun fits => each fits (all.locals index)
  stack type mem := by
    obtain ⟨_, mem, fits⟩ := forall₂_mem_right relates.stack mem
    exact each fits (all.stack _ mem)

/-- Nothing but the same object can be merged with an object that is not initialized. -/
lemma Kindred.inherits (kindred : Kindred lower upper)
    (plain : ∀ {type}, ¬IsFresh type → holds type) (all : lower.All holds) : upper.All holds :=
  kindred.all all (plain (by rintro ⟨⟩)) fun {a b} same known => by
    by_cases fresh : IsFresh b
    · cases fresh <;> cases a <;> cases same <;> exact known
    · exact plain fresh

end Frame

namespace CodeContext

/-- The type can be met in a constructor or another method, when some instructions have frames. -/
def Knows (context : CodeContext) (constructing : Prop) (frames : Nat → Option Frame) :
    VerificationType → Prop
  | .uninitialized index =>
    (frames index).isSome ∧ ∃ name, context.instructions[index]? = some (.type .new name)
  | .uninitializedThis => constructing
  | _ => True

variable {context : CodeContext} {constructing : Prop} {frames frames' : Nat → Option Frame}
variable {instruction : Instruction} {before after : Frame}

lemma knows_plain (plain : ¬Frame.IsFresh type) : context.Knows constructing frames type := by
  cases type
  case uninitialized index => exact absurd (.created index) plain
  case uninitializedThis => exact absurd .this plain
  all_goals trivial

lemma Knows.mono (known : context.Knows constructing frames type)
    (wider : ∀ index, (frames index).isSome → (frames' index).isSome) :
    context.Knows constructing frames' type := by
  cases type
  case uninitialized index => exact known.imp_left (wider index)
  all_goals exact known

instance : FrameStep.Compatible fun a b => a = b ∧ context.Knows constructing frames b :=
  .ofPlain fun plain _ => knows_plain plain

/-- What an instruction leaves in a frame is known if what it creates is. -/
lemma execute_knows (all : before.All (context.Knows constructing frames))
    (created : ∀ name, instruction = .type .new name →
      context.Knows constructing frames (.uninitialized index)) :
    (∀ after, context.execute index instruction before = .ok ((), after) →
      after.All (context.Knows constructing frames)) ∧
    context.execute index instruction before ≠ .error (.ofCause (.verification .notCreated)) := by
  have relates : before.Relates (fun a b => a = b ∧ context.Knows constructing frames b) before :=
    ⟨fun index => .inr ⟨rfl, all.locals index⟩,
      forall₂_same.mpr fun type mem => ⟨rfl, all.stack type mem⟩⟩
  have works := @execute_works (fun a b => a = b ∧ context.Knows constructing frames b) context
    index _ False instruction (fun name same => ⟨rfl, created name same⟩)
    fun _ _ ⟨_, _, name, got⟩ other => other name got
  refine ⟨fun after ran => ?_, works.fails relates⟩
  obtain ⟨⟨_, low, -, -, relates⟩, -⟩ := works.does relates ran
  have anything : low.All fun _ => True := ⟨fun _ => trivial, fun _ _ => trivial⟩
  exact relates.all anything trivial fun fits _ => fits.2

lemma entryFrame_known (context : CodeContext) (owner : ClassName) (method : Method) :
    (entryFrame owner method).All (context.Knows (method.Constructs owner) fun _ => none) := by
  obtain ⟨xs, whole, each⟩ := entryFrame_values owner method
  rw [whole]
  refine ⟨fun index => ?_, nofun⟩
  unfold Frame.localAt
  cases found : (xs.flatMap slots)[index]? with
  | none => trivial
  | some type =>
    obtain ⟨value, mem, slot⟩ := mem_flatMap.mp (mem_of_getElem? found)
    have one : type = value ∨ type = .top := by
      unfold slots at slot
      split at slot <;> simp_all
    rcases one with rfl | rfl
    · by_cases fresh : Frame.IsFresh type
      · obtain ⟨rfl, constructs⟩ := (each type mem).2 fresh
        exact constructs
      · exact knows_plain fresh
    · trivial

end CodeContext

namespace FlowProblem

variable {flow : FlowProblem} {constructing : Prop} {state state' : FlowState} {entry : Frame}

/-- All frames have known types, and what an instruction creates is not there before. -/
def Tracks (flow : FlowProblem) (constructing : Prop) (state : FlowState) : Prop :=
  ∀ index frame, state.frame? index = some frame → frame.All fun type =>
    flow.Knows constructing state.frame? type ∧ type ≠ .uninitialized index

/-- Looking at an instruction keeps track of objects. -/
lemma Tracks.visit (placed : flow.IsPlaced)
    (size : state.frames.size = flow.instructions.size) (canonical : state.IsCanonical)
    (tracks : flow.Tracks constructing state)
    (visited : flow.visit index (state.taken index) = .ok state') :
    flow.Tracks constructing state' := by
  rcases visit_cases visited with ⟨rfl, _⟩ | ⟨instruction, before, got, found, ran⟩
  · exact tracks
  obtain ⟨after, executed, merged⟩ := visitWith_ok.mp ran
  have accepts := outgoing_accepts (state.taken index) placed size canonical found executed
  have respected := Frame.kindred_isRespected flow.hierarchy
  obtain ⟨grows, -⟩ := mergeAll_ok respected accepts merged
  change state.frame? index = some before at found
  have known := (tracks index before found).imp fun _ => And.left
  have known' := ((CodeContext.execute_knows known fun name same =>
    ⟨Option.isSome_of_mem found, name, same ▸ got⟩).1 after executed).trim
  have sent : ∀ out ∈ flow.outgoing index instruction before after.trim,
      out.2.All (flow.Knows constructing state.frame?) := by
    intro out mem
    rcases mem_outgoing.mp mem with ⟨covered, _, locals, one, rfl⟩ | ⟨_, _, rfl⟩ | ⟨_, rfl⟩
    · refine ⟨?_, fun type mem => mem_singleton.mp mem ▸ trivial⟩
      rcases mem_pair.mp one with rfl | rfl
      · exact known.locals
      · exact known'.locals
    · exact known'
    · exact known'
  have wider (created : Nat) (isSome : (state.frame? created).isSome) :
      (state'.frame? created).isSome := by
    obtain ⟨frame, found⟩ := Option.isSome_iff_exists.mp isSome
    obtain ⟨_, held, -⟩ := grows.above created frame found
    exact Option.isSome_of_mem held
  intro target frame reached
  have plain {type : VerificationType} (plain : ¬Frame.IsFresh type) :
      flow.Knows constructing state'.frame? type ∧ type ≠ .uninitialized target :=
    ⟨CodeContext.knows_plain plain, fun same => plain (same ▸ .created target)⟩
  rcases mergeAll_origin respected accepts merged reached with
    ⟨old, earlier, kindred⟩ | ⟨earlier, out, mem, kindred⟩
  · exact kindred.inherits plain ((tracks target old earlier).imp fun _ => And.imp_left (·.mono wider))
  · refine kindred.inherits plain ((sent out mem).imp fun type known => ⟨known.mono wider, ?_⟩)
    rintro rfl
    exact absurd earlier (Option.isSome_iff_ne_none.mp known.1)

/-- Objects are tracked however the pending instructions are looked at. -/
lemma Search.tracks {count : Nat} (placed : flow.IsPlaced) (canonical : entry.IsCanonical)
    (positive : 0 < flow.instructions.size)
    (known : entry.All (flow.Knows constructing fun _ => none))
    (search : flow.Search entry count state) : flow.Tracks constructing state := by
  induction search with
  | start =>
    intro index frame found
    obtain ⟨rfl, rfl⟩ := start_found found
    refine known.imp fun type known => ⟨known.mono (by simp), ?_⟩
    rintro rfl
    cases known.1
  | visit earlier _ visited ih =>
    have invariant := earlier.invariant (Frame.kindred_isRespected _) placed canonical positive
    exact ih.visit placed invariant.size invariant.canonical visited

end FlowProblem

/--
However the frames of a method are looked for, an object that is not initialized has been created by
an instruction that is reached, and it is not there any more when that instruction is executed. So
the next object is the only one of its type, and it is always known which class it has.
-/
theorem search_tracks {hier : Hierarchy} {owner : ClassName} {method : Method} {code : Code}
    {flow : FlowProblem} {count : Nat} {state : FlowState} (filled : code.instructions ≠ [])
    (made : FlowProblem.ofMethod hier owner method code = .ok flow)
    (search : flow.Search (entryFrame owner method) count state) (index : Nat) (frame : Frame)
    (found : state.frame? index = some frame) :
    (∀ created, .uninitialized created ∈ frame.locals ++ frame.stack →
      created ≠ index ∧ (state.frame? created).isSome ∧
        ∃ name, flow.instructions[created]? = some (.type .new name)) ∧
    (.uninitializedThis ∈ frame.locals ++ frame.stack → method.Constructs owner) ∧
    ∀ instruction, flow.instructions[index]? = some instruction →
      flow.execute index instruction frame ≠ .error (.ofCause (.verification .notCreated)) ∧
      ∀ name, instruction = .type .new name → ∃ after,
        flow.execute index instruction frame = .ok ((), after) ∧
          (after.locals ++ after.stack).count (.uninitialized index) = 1 := by
  obtain ⟨-, -, size, placed⟩ := FlowProblem.ofMethod_parts made
  have positive : 0 < flow.instructions.size := size ▸ length_pos_iff.mpr filled
  have all := search.tracks placed (entryFrame_isCanonical owner method) positive
    (flow.entryFrame_known owner method) index frame found
  refine ⟨fun created mem => ?_, fun mem => (all.of_mem mem).1, fun instruction got =>
    ⟨?_, ?_⟩⟩
  · obtain ⟨known, other⟩ := all.of_mem mem
    exact ⟨fun same => other (congrArg _ same), known⟩
  · exact (CodeContext.execute_knows (all.imp fun _ => And.left) fun name same =>
      ⟨Option.isSome_of_mem found, name, same ▸ got⟩).2
  · rintro name rfl
    refine ⟨_, rfl, ?_⟩
    have none := count_eq_zero.mpr fun mem => (all.of_mem mem).2 rfl
    rw [count_append] at none
    change List.count _ (frame.locals ++ .uninitialized index :: frame.stack) = 1
    rw [count_append, count_cons_self]
    omega

/-- Creates an object and drops it. -/
def Code.creation : Code where
  instructions := [⟨none, .type .new .root⟩, ⟨none, .simple .pop⟩, ⟨none, .simple .returnVoid⟩]

def Method.creation : Method where
  access := ⟨8⟩
  name := ⟨"creation", by decide +kernel⟩
  descriptor := ⟨[], none⟩
  code := some .creation

/-- The object that is dropped has been created before. -/
theorem search_tracks_creation : ∃ flow state frame,
    FlowProblem.ofMethod .rootOnly .root .creation .creation = .ok flow ∧
    flow.Search (entryFrame .root .creation) 1 state ∧ state.frame? 1 = some frame ∧
    .uninitialized 0 ∈ frame.locals ++ frame.stack ∧ (state.frame? 0).isSome := by
  obtain ⟨flow, made, state, visited, found⟩ : ∃ flow,
      FlowProblem.ofMethod .rootOnly .root .creation .creation = .ok flow ∧
      ∃ state, flow.visit 0 ((flow.start (entryFrame .root .creation)).taken 0) = .ok state ∧
        state.frame? 1 = some ⟨[], [.uninitialized 0]⟩ := ⟨_, rfl, _, rfl, rfl⟩
  have search := FlowProblem.Search.start.visit Std.TreeSet.mem_insert_self visited
  have created : uninitialized 0 ∈ [] ++ [uninitialized 0] := mem_singleton_self _
  exact ⟨flow, state, _, made, search, found, created,
    ((search_tracks (by decide) made search 1 _ found).1 0 created).2.1⟩

end JvmAsm
