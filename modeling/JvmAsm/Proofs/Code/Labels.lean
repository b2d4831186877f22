/- Says where the labels of code are bound. -/
import JvmAsm.Code.Labels
import Mathlib

namespace JvmAsm

open List

section Maps

variable {κ ν : Type} [BEq κ] [Hashable κ] [LawfulBEq κ] {pairs : List (κ × ν)}
variable {map : Std.HashMap κ ν} {key : κ}

def insertAll (map : Std.HashMap κ ν) (pairs : List (κ × ν)) : Std.HashMap κ ν :=
  pairs.foldl (fun found (key, value) => found.insert key value) map

lemma insertAll_of_not_mem (absent : key ∉ pairs.map Prod.fst) :
    (insertAll map pairs)[key]? = map[key]? := by
  induction pairs generalizing map with
  | nil => rfl
  | cons pair rest ih =>
    rw [map_cons, mem_cons, not_or] at absent
    rw [insertAll, foldl_cons]
    refine (ih absent.2).trans ?_
    rw [Std.HashMap.getElem?_insert, if_neg]
    simpa using fun same => absent.1 same.symm

lemma insertAll_of_mem {value : ν} (distinct : (pairs.map Prod.fst).Nodup)
    (mem : (key, value) ∈ pairs) :
    (insertAll map pairs)[key]? = some value := by
  induction pairs generalizing map with
  | nil => cases mem
  | cons pair rest ih =>
    rw [map_cons, nodup_cons] at distinct
    rw [insertAll, foldl_cons]
    rcases mem_cons.mp mem with rfl | later
    · refine (insertAll_of_not_mem distinct.1).trans ?_
      rw [Std.HashMap.getElem?_insert_self]
    · exact ih distinct.2 later

lemma exists_insertAll (mem : key ∈ pairs.map Prod.fst) :
    ∃ value, (insertAll map pairs)[key]? = some value := by
  induction pairs generalizing map with
  | nil => cases mem
  | cons pair rest ih =>
    rw [insertAll, foldl_cons]
    by_cases later : key ∈ rest.map Prod.fst
    · exact ih later
    · obtain rfl : key = pair.1 := (mem_cons.mp mem).resolve_right later
      exact ⟨pair.2, (insertAll_of_not_mem later).trans (by simp)⟩

lemma mem_of_insertAll {value : ν} (found : (insertAll map pairs)[key]? = some value) :
    (key, value) ∈ pairs ∨ map[key]? = some value := by
  induction pairs generalizing map with
  | nil => exact .inr found
  | cons pair rest ih =>
    rw [insertAll, foldl_cons] at found
    rcases ih found with later | here
    · exact .inl (mem_cons_of_mem _ later)
    · rw [Std.HashMap.getElem?_insert] at here
      split at here
      · next same =>
        obtain rfl := eq_of_beq same
        obtain rfl := Option.some.inj here
        exact .inl mem_cons_self
      · exact .inr here

end Maps

namespace Code

variable {code : Code} {pos : Nat} {label : Label}

/-- No label is bound twice. -/
def BindsOnce (code : Code) : Prop := (code.bindings.map Prod.fst).Nodup

lemma positions_eq (code : Code) : code.positions = insertAll ∅ code.bindings := rfl

lemma BindsOnce.positions_iff (once : code.BindsOnce) :
    code.positions[label]? = some pos ↔ (label, pos) ∈ code.bindings := by
  rw [positions_eq]
  constructor
  · intro found
    rcases mem_of_insertAll found with mem | empty
    · exact mem
    · simp at empty
  · exact insertAll_of_mem once

def positionOf (code : Code) (label : Label) : Nat := code.positions[label]?.getD 0

lemma mem_bindings :
    (label, pos) ∈ code.bindings ↔
      (∃ entry, code.instructions[pos]? = some entry ∧ entry.label = some label) ∨
        (code.lastLabel = some label ∧ pos = code.instructions.length) := by
  simp only [bindings, mem_append, mem_filterMap, Prod.exists, Option.map_eq_some_iff,
    Prod.mk.injEq, Option.mem_toList, mem_zipIdx_iff_getElem?]
  constructor
  · rintro (⟨entry, index, got, found, bound, rfl, rfl⟩ | ⟨found, bound, rfl, rfl⟩)
    · exact .inl ⟨entry, got, bound⟩
    · exact .inr ⟨bound, rfl⟩
  · rintro (⟨entry, got, bound⟩ | ⟨bound, rfl⟩)
    · exact .inl ⟨entry, pos, got, label, bound, rfl, rfl⟩
    · exact .inr ⟨label, bound, rfl, rfl⟩

/-- Every label that is used has a position. -/
abbrev IsBound (code : Code) (positions : Std.HashMap Label Nat) : Prop :=
  ∀ label ∈ code.references, ∃ pos, positions[label]? = some pos

lemma unboundLabel?_eq_none :
    code.unboundLabel? = none ↔ code.IsBound code.positions := by
  simp only [unboundLabel?, IsBound, find?_eq_none, Bool.not_eq_true', Bool.not_eq_false,
    Std.HashMap.contains_eq_isSome_getElem?, Option.isSome_iff_exists]

lemma position_le (stands : code.positions[label]? = some pos) :
    pos ≤ code.instructions.length := by
  rcases mem_bindings.mp ((mem_of_insertAll stands).resolve_right (by simp)) with
    ⟨entry, got, _⟩ | ⟨_, rfl⟩
  · exact le_of_lt (List.getElem?_eq_some_iff.mp got).1
  · exact le_rfl

end Code

end JvmAsm
