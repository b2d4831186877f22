/-
Shows that the canonical form of code is a normal form: two codes have the same one if and only if
the same instructions and tables are left of them when their labels become positions.
-/
import JvmAsm.Proofs.Code.Canonical

namespace JvmAsm

open List

namespace Code

variable {code : Code}

lemma bindings_renumberedBy {positions : Std.HashMap Label Nat}
    (inside : ∀ label ∈ code.references,
      ∃ pos, positions[label]? = some pos ∧ pos ≤ code.instructions.length) :
    (code.renumberedBy positions).bindings = (code.usedPositions positions).zipIdx.map
      fun (pos, id) => (⟨UInt16.ofNat id⟩, pos) := by
  have places : (code.renumberedBy positions).bindings.map Prod.snd =
      code.usedPositions positions := by
    refine (bindings_increasing _).eq_of_mem_iff usedPositions_increasing fun pos => ?_
    simp only [mem_map, Prod.exists, exists_eq_right, mem_bindings_renumberedBy]
    constructor
    · rintro ⟨label, found, _⟩
      obtain ⟨index, got, _⟩ := (labelsOf_iff usedPositions_increasing).mp found
      exact mem_of_getElem? got
    · intro used
      obtain ⟨label, found⟩ := labelsOf_used used
      obtain ⟨original, uses, stands⟩ := mem_usedPositions.mp used
      obtain ⟨_, stands', below⟩ := inside original uses
      rw [stands] at stands'
      exact ⟨label, found, Option.some.inj stands' ▸ below⟩
  calc (code.renumberedBy positions).bindings
      = ((code.renumberedBy positions).bindings.map Prod.snd).map
          fun pos => ((code.labelAt positions pos).getD ⟨0⟩, pos) := by
        rw [map_map, map_congr_left (g := id), map_id]
        rintro ⟨label, pos⟩ mem
        simp [(mem_bindings_renumberedBy.mp mem).1]
    _ = ((code.usedPositions positions).zipIdx.map Prod.fst).map
          fun pos => ((code.labelAt positions pos).getD ⟨0⟩, pos) := by
        rw [places, zipIdx_map_fst]
    _ = _ := by
        rw [map_map]
        refine map_congr_left ?_
        rintro ⟨pos, index⟩ mem
        have found : code.labelAt positions pos = some ⟨UInt16.ofNat index⟩ :=
          (labelsOf_iff usedPositions_increasing).mpr
            ⟨index, mem_zipIdx_iff_getElem?.mp mem, rfl⟩
        simp [found]

/--
Only the labels of code and the order of its line numbers have been changed. The labels that are
used stand where they have stood, and those that are bound are used and are numbered by position.
-/
structure IsNumbered (code result : Code) : Prop where
  placed : ∃ rename labels,
    result = ((code.sortedBy code.positionOf).mapReferences rename).bindBy labels ∧
      ∀ label ∈ code.references, ∃ pos, code.positions[label]? = some pos ∧
        result.positions[rename label]? = some pos
  bound : ∃ used : List Nat, used.Pairwise (· < ·) ∧ used.length ≤ 0x10000 ∧
    result.bindings = used.zipIdx.map fun (pos, id) => (⟨UInt16.ofNat id⟩, pos)
  used : ∀ label ∈ result.bindings.map Prod.fst, label ∈ result.references

lemma inside_of_isBound (bound : code.IsBound code.positions) :
    ∀ label ∈ code.references, ∃ pos, code.positions[label]? = some pos ∧
      pos ≤ code.instructions.length := by
  intro label uses
  obtain ⟨pos, stands⟩ := bound label uses
  exact ⟨pos, stands, position_le stands⟩

lemma renumberedBy_isNumbered (bound : code.IsBound code.positions) :
    code.IsNumbered (code.renumberedBy code.positions) where
  placed := by
    refine ⟨_, _, renumberedBy_sorted bound, fun label uses => ?_⟩
    obtain ⟨pos, stands, below⟩ := inside_of_isBound bound label uses
    exact ⟨pos, stands, positions_renumberedBy uses stands below⟩
  bound := ⟨_, usedPositions_increasing, usedPositions_length,
    bindings_renumberedBy (inside_of_isBound bound)⟩
  used := by
    intro label listed
    obtain ⟨⟨_, pos⟩, mem, rfl⟩ := mem_map.mp listed
    have labelled := (mem_bindings_renumberedBy.mp mem).1
    obtain ⟨index, got, _⟩ := (labelsOf_iff usedPositions_increasing).mp labelled
    obtain ⟨original, uses, stands⟩ := mem_usedPositions.mp (mem_of_getElem? got)
    rw [numbered_eq uses stands, Option.some.injEq] at labelled
    rw [references_renumberedBy (inside_of_isBound bound), mem_map]
    exact ⟨original, sortedBy_perm.mem_iff.mpr uses, labelled⟩

lemma canonical_cases (code : Code) :
    (∃ label ∈ code.references, code.positions[label]? = none ∧ code.canonical = .error label) ∨
      code.IsBound code.positions ∧ code.canonical = .ok (code.renumberedBy code.positions) := by
  unfold canonical
  split
  · next label found =>
    have absent := find?_some found
    rw [Bool.not_eq_true', Std.HashMap.contains_eq_isSome_getElem?, Option.isSome_eq_false_iff,
      Option.isNone_iff_eq_none] at absent
    exact .inl ⟨label, mem_of_find?_eq_some found, absent, rfl⟩
  · next none => exact .inr ⟨unboundLabel?_eq_none.mp none, rfl⟩

/--
The canonical form of code numbers its labels, or else names one that is not bound. It is its own
canonical form, and two codes have the same one if and only if they are the same with positions in
place of labels.
-/
theorem canonical_isNormalForm (code : Code) :
    match code.canonical with
    | .error label => label ∈ code.references ∧ code.positions[label]? = none
    | .ok result => code.IsNumbered result ∧ result.canonical = .ok result ∧
      ∀ other result' : Code, other.canonical = .ok result' →
        (result = result' ↔ code.placement code.positionOf = other.placement other.positionOf) := by
  rcases canonical_cases code with ⟨label, uses, absent, failed⟩ | ⟨bound, numbered⟩
  · rw [failed]
    exact ⟨uses, absent⟩
  rw [numbered]
  refine ⟨renumberedBy_isNumbered bound,
    (renumberedBy_isCanonical (inside_of_isBound bound)).canonical_eq, ?_⟩
  intro other result' canonical
  rcases canonical_cases other with ⟨_, _, _, failed⟩ | ⟨bound', numbered'⟩
  · rw [failed] at canonical
    cases canonical
  rw [numbered'] at canonical
  cases canonical
  refine ⟨fun same => ?_, renumberedBy_of_placement bound bound'⟩
  have places := placement_renumberedBy (inside_of_isBound bound)
  rw [same, placement_renumberedBy (inside_of_isBound bound')] at places
  exact places.symm

end Code

end JvmAsm
