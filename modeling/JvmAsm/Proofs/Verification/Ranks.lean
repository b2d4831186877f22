/- Measures how many times a frame can still change. -/
import JvmAsm.Proofs.Verification.Effects

namespace JvmAsm

open List

variable {hier : Hierarchy} {ranks : VerificationType → Nat} {limit : Nat}

open VerificationType

/-- Every type that is merged with another one stays as it is or gets a smaller rank. -/
structure Hierarchy.IsRanked (hier : Hierarchy) (ranks : VerificationType → Nat) (limit : Nat) :
    Prop where
  unused : ranks .top = 0
  used : ∀ type, type ≠ .top → 0 < ranks type
  bounded : ∀ type, ranks type ≤ limit
  merged : ∀ {a b merged}, mergeOperand hier a b = .ok merged → a = merged ∨ ranks merged < ranks a

/-- A rank for types, where the ranks of classes are not larger than the given one. -/
def VerificationType.rankBy (rank : ClassName → Nat) (limit : Nat) : VerificationType → Nat
  | .top => 0
  | .object name => rank name + 1
  | .null => limit + 2
  | _ => 1

/-- Types are ranked by their classes. -/
lemma Hierarchy.isRanked_of_classes {rank : ClassName → Nat}
    (bounded : ∀ name, rank name ≤ limit)
    (merged : ∀ {a b merged}, hier.mergeClasses a b = .ok merged →
      a = merged ∨ rank merged < rank a) :
    hier.IsRanked (rankBy rank limit) (limit + 2) where
  unused := rfl
  used type other := by
    cases type with
    | top => exact absurd rfl other
    | _ => exact Nat.succ_pos _
  bounded type := by
    cases type with
    | object name =>
      have := bounded name
      simp only [rankBy]
      omega
    | _ => simp [rankBy]
  merged {a b result} made := by
    rcases mergeOperand_cases made with ⟨x, y, name, rfl, rfl, rfl, found⟩ | found
    · rcases merged found with rfl | smaller
      · exact .inl rfl
      · exact .inr (Nat.succ_lt_succ smaller)
    · unfold mergeKinds? at found
      split at found
      · exact .inl (Option.some.inj found)
      · split at found
        · next name _ =>
          cases found
          have := bounded name
          refine .inr ?_
          simp only [rankBy]
          omega
        · exact .inl (Option.some.inj found)
        · cases found

lemma Hierarchy.IsRanked.mergedLocal (ranked : hier.IsRanked ranks limit)
    {a b merged : VerificationType} (made : mergeLocal hier a b = .ok merged) :
    a = merged ∨ ranks merged < ranks a := by
  rcases mergeLocal_ok made with rfl | made
  · by_cases unused : a = .top
    · exact .inl unused
    · exact .inr (ranked.unused ▸ ranked.used a unused)
  · exact ranked.merged made

namespace Frame

def rank (ranks : VerificationType → Nat) (frame : Frame) : Nat :=
  (frame.locals.map ranks).sum + (frame.stack.map ranks).sum

lemma sum_rank_le (bounded : ∀ type, ranks type ≤ limit) (types : List VerificationType) :
    (types.map ranks).sum ≤ limit * types.length := by
  induction types with
  | nil => exact le_rfl
  | cons type rest ih =>
    have := bounded type
    rw [map_cons, sum_cons, length_cons, Nat.mul_succ]
    omega

lemma rank_le (bounded : ∀ type, ranks type ≤ limit) (frame : Frame) :
    frame.rank ranks ≤ limit * (frame.locals.length + frame.stack.length) := by
  have locals := sum_rank_le bounded frame.locals
  have stack := sum_rank_le bounded frame.stack
  rw [Frame.rank, Nat.mul_add]
  omega

/-- Local variables that are not there have no rank. -/
lemma sum_rank_locals (unused : ranks .top = 0) {locals : List VerificationType} {count : Nat}
    (enough : locals.length ≤ count) :
    (locals.map ranks).sum = ∑ index ∈ Finset.range count, ranks (localAt locals index) := by
  induction locals generalizing count with
  | nil =>
    symm
    exact Finset.sum_eq_zero fun index _ => unused
  | cons type rest ih =>
    obtain ⟨less, rfl⟩ : ∃ less, count = less + 1 :=
      Nat.exists_eq_succ_of_ne_zero (by rintro rfl; cases enough)
    rw [map_cons, sum_cons, Finset.sum_range_succ', add_comm, ih (Nat.le_of_succ_le_succ enough)]
    rfl

lemma sum_rank_stack {lower upper : List VerificationType}
    (sinks : Forall₂ (fun a b => a = b ∨ ranks b < ranks a) lower upper) :
    lower = upper ∨ (upper.map ranks).sum < (lower.map ranks).sum := by
  induction sinks with
  | nil => exact .inl rfl
  | @cons a b as bs sinks _ ih =>
    simp only [map_cons, sum_cons]
    rcases sinks with rfl | smaller
    · rcases ih with rfl | smaller
      · exact .inl rfl
      · exact .inr (by omega)
    · have rest : (bs.map ranks).sum ≤ (as.map ranks).sum := by
        rcases ih with rfl | smaller
        · exact le_rfl
        · exact le_of_lt smaller
      exact .inr (by omega)

/-- A frame whose types are the same as those of another one or have smaller ranks. -/
structure Sinks (ranks : VerificationType → Nat) (lower upper : Frame) : Prop where
  locals : ∀ index, localAt lower.locals index = localAt upper.locals index ∨
    ranks (localAt upper.locals index) < ranks (localAt lower.locals index)
  stack : Forall₂ (fun a b => a = b ∨ ranks b < ranks a) lower.stack upper.stack

lemma Sinks.rank (unused : ranks .top = 0) {lower upper : Frame} (sinks : Sinks ranks lower upper)
    (canonical : lower.IsCanonical) (canonical' : upper.IsCanonical) :
    lower = upper ∨ upper.rank ranks < lower.rank ranks := by
  obtain ⟨count, enough, enough'⟩ : ∃ count, lower.locals.length ≤ count ∧
      upper.locals.length ≤ count := ⟨_, le_max_left _ _, le_max_right _ _⟩
  have left := sum_rank_locals unused enough
  have right := sum_rank_locals unused enough'
  have below (index : Nat) :
      ranks (localAt upper.locals index) ≤ ranks (localAt lower.locals index) := by
    rcases sinks.locals index with same | smaller
    · rw [same]
    · exact le_of_lt smaller
  have fewer : ∑ index ∈ Finset.range count, ranks (localAt upper.locals index) ≤
      ∑ index ∈ Finset.range count, ranks (localAt lower.locals index) :=
    Finset.sum_le_sum fun index _ => below index
  unfold Frame.rank
  rw [left, right]
  by_cases same : ∀ index, localAt lower.locals index = localAt upper.locals index
  · have locals := locals_ext canonical.paired canonical.trimmed canonical'.paired
      canonical'.trimmed same
    rcases sum_rank_stack sinks.stack with stack | smaller
    · left
      cases lower
      cases upper
      congr
    · exact .inr (by omega)
  · obtain ⟨index, different⟩ := not_forall.mp same
    have smaller := (sinks.locals index).resolve_left different
    have inside : index ∈ Finset.range count := by
      rw [Finset.mem_range]
      by_contra outside
      have short : lower.locals.length ≤ index := by omega
      rw [localAt_of_length_le short, unused] at smaller
      cases smaller
    have strict := Finset.sum_lt_sum (fun index _ => below index) ⟨index, inside, smaller⟩
    have stack : (upper.stack.map ranks).sum ≤ (lower.stack.map ranks).sum := by
      rcases sum_rank_stack sinks.stack with stack | smaller
      · rw [stack]
      · exact le_of_lt smaller
    exact .inr (by omega)

/-- Merging lowers the rank of a frame, unless it changes nothing. -/
lemma merge_sinks (ranked : hier.IsRanked ranks limit) {old new merged : Frame}
    (made : merge hier old new = .ok merged) : Sinks ranks old merged := by
  obtain ⟨deep, stack, locals, operands, found, rfl⟩ := merge_ok.mp made
  refine ⟨fun index => ?_, ?_⟩
  · change localAt old.locals index = localAt (trimLocals (dropHalves locals)) index ∨
      ranks (localAt (trimLocals (dropHalves locals)) index) < _
    rw [localAt_trimLocals]
    rcases localAt_dropHalves locals index with unused | same
    · rw [unused]
      by_cases same : localAt old.locals index = .top
      · exact .inl same
      · exact .inr (ranked.unused ▸ ranked.used _ same)
    · rw [same]
      exact ranked.mergedLocal ((mergeLocals_ok.mp found).2 index)
  · obtain ⟨size, each⟩ := (mergeStacks_ok deep).mp operands
    refine forall₂_iff_get.mpr ⟨size.symm, fun index inside inside' => ?_⟩
    exact ranked.merged (each index _ _ _ (getElem?_eq_getElem inside)
      (getElem?_eq_getElem (deep ▸ inside)) (getElem?_eq_getElem inside'))

lemma merge_rank (ranked : hier.IsRanked ranks limit) {old new merged : Frame}
    (canonical : old.IsCanonical) (made : merge hier old new = .ok merged) :
    old = merged ∨ merged.rank ranks < old.rank ranks :=
  (merge_sinks ranked made).rank ranked.unused canonical (merge_isCanonical made)

end Frame

end JvmAsm
