/- Says which instructions have to have frames of their own, and that the search lists them. -/
import JvmAsm.Proofs.Code.Canonical
import JvmAsm.Proofs.Verification.Soundness

namespace JvmAsm

open List

namespace Code

variable {code : Code} {index : Nat}

/-- Verification expects a frame before an instruction. -/
inductive NeedsFrame (code : Code) (index : Nat) : Prop where
  | target {source : Nat} {entry : Entry} {label : Label} (reached : code.Reaches source)
      (got : code.instructions[source]? = some entry)
      (listed : label ∈ entry.instruction.targets) (bound : (label, index) ∈ code.bindings)
  | after {source : Nat} {entry : Entry} (reached : code.Reaches source)
      (got : code.instructions[source]? = some entry)
      (ends : entry.instruction.endsFlow = true) (next : index = source + 1)
      (reached' : code.Reaches index)
  | handler {handler : ExceptionHandler} (listed : handler ∈ code.handlers)
      (bound : (handler.handler, index) ∈ code.bindings) (reached : code.Reaches index)

/-- Code that is reached only from elsewhere is jumped to, or it handles exceptions. -/
lemma Reaches.needsFrame (reached : code.Reaches (index + 1)) (dead : ¬code.Reaches index) :
    code.NeedsFrame (index + 1) := by
  cases reached with
  | continues reached goes =>
    cases goes with
    | jump got listed bound => exact .target reached got listed bound
    | next _ _ => exact absurd reached dead
  | catches reached caught => exact .handler caught.listed caught.bound (.catches reached caught)

lemma NeedsFrame.reaches (needs : code.NeedsFrame index) : code.Reaches index := by
  cases needs with
  | target reached got listed bound => exact .continues reached (.jump got listed bound)
  | after _ _ _ _ reached => exact reached
  | handler _ _ reached => exact reached

end Code

namespace FlowProblem

variable {flow : FlowProblem} {code : Code}

lemma mem_required {frames : Array (Option Frame)} {index : Nat} :
    index ∈ flow.required frames ↔
      (∃ (source : Nat) (instruction : Instruction), flow.instructions[source]? = some instruction ∧
        (frames[source]?).join.isSome ∧
          ((∃ label ∈ instruction.targets, flow.positions[label]? = some index) ∨
            instruction.endsFlow = true ∧ (frames[index]?).join.isSome ∧ index = source + 1)) ∨
      ∃ covered ∈ flow.coverage, covered.handler = index ∧ (frames[index]?).join.isSome := by
  unfold required
  rw [(eraseReps_increasing (pairwise_mergeSort _)).2, mem_mergeSort, mem_append]
  refine or_congr ?_ ?_
  · simp only [mem_flatMap, Prod.exists, mem_zipIdx_iff_getElem?, Array.getElem?_toList]
    rw [exists_comm]
    refine exists_congr fun source => exists_congr fun instruction => and_congr_right fun _ => ?_
    cases (frames[source]?).join with
    | none => simp
    | some frame =>
      simp only [Option.isSome_some, if_true, mem_append, mem_filterMap, true_and]
      refine or_congr_right ?_
      cases ends : instruction.endsFlow with
      | false => simp
      | true =>
        cases reached : (frames[source + 1]?).join with
        | none =>
          simp only [Option.isSome_none, Bool.and_false, Bool.false_eq_true, if_false,
            not_mem_nil, true_and, false_iff, not_and]
          rintro got rfl
          rw [reached] at got
          contradiction
        | some frame' =>
          simp only [Option.isSome_some, Bool.and_self, if_true, mem_singleton, true_and]
          refine ⟨?_, And.right⟩
          rintro rfl
          exact ⟨by rw [reached]; rfl, rfl⟩
  · simp only [mem_filter, mem_map]
    constructor
    · rintro ⟨⟨covered, mem, rfl⟩, reached⟩
      exact ⟨covered, mem, rfl, reached⟩
    · rintro ⟨covered, mem, rfl, reached⟩
      exact ⟨⟨covered, mem, rfl⟩, reached⟩

end FlowProblem

structure FrameTable.Follows (table : FrameTable) (code : Code) : Prop where
  once : code.BindsOnce
  size : table.frames.size = code.instructions.length
  reaches : ∀ index, table.isReachable index = true ↔ code.Reaches index
  required : ∀ index, index ∈ table.required ↔ code.NeedsFrame index

lemma computeFrames_follows {hier : Hierarchy} {owner : ClassName} {method : Method}
    {code : Code} {table : FrameTable} (given : method.code = some code) (once : code.BindsOnce)
    (found : computeFrames hier owner method = .ok table) : table.Follows code := by
  have reaches := computeFrames_reaches given once found
  obtain ⟨flow, state, made, _, finds⟩ := computeFrames_ok given found
  obtain ⟨describes, _, _⟩ := FlowProblem.ofMethod_describes once made
  refine ⟨once, computeFrames_size given found, reaches, fun index => ?_⟩
  have reached (index : Nat) : (state.frames[index]?).join.isSome ↔ code.Reaches index := by
    rw [← reaches index, FrameTable.frame?, finds.frames]
  rw [finds.required, FlowProblem.mem_required]
  simp only [reached, describes.positions, once.positions_iff, describes.getElem?,
    Option.map_eq_some_iff]
  constructor
  · rintro (⟨source, _, ⟨entry, got, rfl⟩, from', ⟨label, listed, bound⟩ | ⟨ends, here, next⟩⟩ |
      ⟨covered, mem, rfl, here⟩)
    · exact .target from' got listed bound
    · exact .after from' got ends next here
    · obtain ⟨handler, listed, covers⟩ := describes.covered_of_mem mem
      exact .handler listed ((ExceptionHandler.coverage_ok once).mp covers).1 here
  · rintro (⟨from', got, listed, bound⟩ | ⟨from', got, ends, next, here⟩ |
      ⟨listed, bound, here⟩)
    · exact .inl ⟨_, _, ⟨_, got, rfl⟩, from', .inl ⟨_, listed, bound⟩⟩
    · exact .inl ⟨_, _, ⟨_, got, rfl⟩, from', .inr ⟨ends, here, next⟩⟩
    · obtain ⟨place, got⟩ := mem_iff_getElem?.mp listed
      obtain ⟨covered, found, covers⟩ :=
        forall₂_getElem? (ok_mapM_iff.mp describes.coverage) got
      have bound' := ((ExceptionHandler.coverage_ok once).mp covers).1
      exact .inr ⟨covered, mem_of_getElem? found, once.position_unique bound' bound, here⟩

namespace FrameTable.Follows

variable {table : FrameTable} {code : Code} {index : Nat}

lemma lt_of_reaches (follows : table.Follows code) (reached : code.Reaches index) :
    index < code.instructions.length := by
  have framed := (follows.reaches index).mpr reached
  rw [← follows.size]
  by_contra outside
  rw [FrameTable.isReachable, FrameTable.frame?,
    Array.getElem?_eq_none (Nat.le_of_not_lt outside)] at framed
  contradiction

end FrameTable.Follows

end JvmAsm
