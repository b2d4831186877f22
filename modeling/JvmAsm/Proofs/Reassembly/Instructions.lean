/- Shows that instructions that have been read can be lowered and placed again. -/
import JvmAsm.Proofs.Decode.CodeFormed
import JvmAsm.Proofs.Reassembly.Annotations

namespace JvmAsm

open Binary ByteReader Bytecode Decode PoolBuilder PoolTable Layout List

variable {placed : List (Placed (Op UInt16))} {codeStart total : Nat} {bytecode : List UInt8}
variable {found : Array (Placed (Op UInt16))} {reader : ByteReader (Op UInt16)}

namespace Bytecode

variable {length : Nat}

/-- Code that is not empty has an instruction. -/
lemma ops_ne_nil (divided : ops bytecode codeStart = .ok placed) (filled : 0 < bytecode.length) :
    placed ≠ [] := by
  rintro rfl
  generalize start : 0 = offset at filled
  cases start ▸ ops_follows divided
  omega

/-- Keys that are accepted when they are read increase. -/
lemma areIncreasing_of_keys {pairs : List (Int32 × UInt16)} (f : UInt16 → Label)
    (sorted : unsortedKeys? pairs = none) :
    areIncreasing (pairs.map fun pair => (pair.1, f pair.2)) = true := by
  induction pairs with
  | nil => rfl
  | cons first rest ih =>
    cases rest with
    | nil => rfl
    | cons second rest =>
      rw [unsortedKeys?] at sorted
      split at sorted
      · contradiction
      · next above =>
        rw [map_cons, map_cons, areIncreasing, Bool.and_eq_true, decide_eq_true_eq]
        exact ⟨Int32.not_le.mp above, ih sorted⟩

end Bytecode

section Lowering

variable {table : PoolTable} {boots : PoolTable.Bootstrap} {supply : Supply}
  (covers : table.constants boots ⊆ supply.constants)
include covers

lemma Bytecode.lower_manages {op : Op UInt16} {instruction : Instruction} {length cost : Nat}
    (resolved : resolve table boots op = .ok instruction) (short : op.IsRead length cost)
    (rename : Label → Label) :
    PoolBuilder.Manages supply (lower (instruction.mapTargets rename)) fun lowered =>
      ∀ offset, lowered.size offset false ≤ 2 * cost := by
  have most := short.longest
  have interned {action : PoolM UInt16} {make : UInt16 → Op Label}
      (adds : PoolBuilder.Adds supply action)
      (small : ∀ index offset, (make index).size offset false ≤ op.longest) :
      PoolBuilder.Manages supply (do return make (← action)) fun lowered =>
        ∀ offset, lowered.size offset false ≤ 2 * cost :=
    adds.bind fun index _ => .pure fun offset => le_trans (small index offset) most
  cases op with
  | simple | pushByte | pushShort | branch | goto | jsr =>
    cases resolved
    exact .pure fun _ => most
  | load | store | increment | ret =>
    cases resolved
    exact .pure fun _ => most
  | constant isWide index =>
    obtain ⟨value, found, resolved⟩ := ok_parts resolved
    cases resolved
    refine interned (loadable_adds (covers (loadable_listed found)))
      fun index offset => ?_
    simp only [Op.size, Op.longest]
    split
    · exact le_refl 3
    · split <;> decide
  | tableSwitch default low high targets =>
    cases resolved
    obtain ⟨ordered, sized⟩ := short.sized _ _ _ _ rfl
    rw [Instruction.mapTargets, lower, if_neg (Int32.not_lt.mpr ordered)]
    dsimp only
    rw [if_neg (by simp [sized])]
    refine .pure fun offset => le_trans ?_ most
    simp only [Op.size, Op.longest, length_map, paddingAfter]
    omega
  | lookupSwitch default pairs =>
    simp only [resolve] at resolved
    split at resolved
    · contradiction
    · next sorted =>
      cases resolved
      have increasing := areIncreasing_of_keys (fun offset => rename (labelOf offset)) sorted
      rw [Instruction.mapTargets, lower, map_map]
      simp only [Function.comp_def]
      rw [increasing]
      refine .pure fun offset => le_trans ?_ most
      simp only [Op.size, Op.longest, length_map, paddingAfter]
      omega
  | field =>
    obtain ⟨field, found, resolved⟩ := ok_parts resolved
    cases resolved
    exact interned (intern_adds (covers (fieldRef_listed found)))
      fun _ _ => le_refl 3
  | invokeVirtual =>
    obtain ⟨method, found, resolved⟩ := ok_parts resolved
    cases resolved
    exact interned (methodRef_adds (covers (anyMethodRef_listed
      (methodRef_any found)))) fun _ _ => le_refl 3
  | invokeSpecial | invokeStatic =>
    obtain ⟨⟨method, onInterface⟩, found, resolved⟩ := ok_parts resolved
    cases resolved
    exact interned (methodRef_adds (covers (anyMethodRef_listed found)))
      fun _ _ => le_refl 3
  | invokeInterface =>
    obtain ⟨method, found, resolved⟩ := ok_parts resolved
    obtain ⟨count, counted, resolved⟩ := ok_parts resolved
    dsimp only at resolved
    split at resolved
    · contradiction
    · cases resolved
      rw [Instruction.mapTargets, lower, counted]
      · exact interned (methodRef_adds (covers (anyMethodRef_listed
          (interfaceMethodRef_any found)))) fun _ _ => le_refl 5
      all_goals simp
  | invokeDynamic =>
    obtain ⟨site, found, resolved⟩ := ok_parts resolved
    cases resolved
    exact interned (intern_adds (covers (callSite_listed found)))
      fun _ _ => le_refl 5
  | type =>
    obtain ⟨name, found, resolved⟩ := ok_parts resolved
    cases resolved
    exact interned (intern_adds (className_covered covers found))
      fun _ _ => le_refl 3
  | newPrimitiveArray =>
    simp only [resolve] at resolved
    split at resolved
    · cases resolved
      exact .pure fun _ => most
    · contradiction
  | newMultiArray =>
    obtain ⟨name, found, resolved⟩ := ok_parts resolved
    dsimp only at resolved
    split at resolved
    · contradiction
    · next some =>
      cases resolved
      rw [Instruction.mapTargets, lower, if_neg some]
      · exact interned (intern_adds (className_covered covers found))
          fun _ _ => le_refl 4
      all_goals simp

end Lowering

section Placing

variable {supply : Supply}

/-- An entry of code whose instruction can be lowered without getting too long. -/
def Entry.IsLowerable (supply : Supply) (cost : Nat) (entry : Entry) : Prop :=
  PoolBuilder.Manages supply (lower entry.instruction) fun lowered =>
    ∀ offset, lowered.size offset false ≤ 2 * cost

/-- An instruction that takes at most so many bytes with a narrow jump. -/
def Op.IsNarrow {τ : Type} (cost : Nat) (op : Op τ) : Prop :=
  ∀ offset, op.size offset false ≤ 2 * cost

namespace Bytecode

lemma lowerFrom_succeeds {positions bound : Std.HashMap Label Nat} {entries : List Entry}
    {found : Array (Op Nat)} {pool : PoolBuilder} {total : Nat}
    (totals : Totals (Entry.IsLowerable supply) total entries) (within : pool.Within supply) :
    ∃ ops later, lowerFrom positions entries bound found pool =
        .ok (found.toList ++ ops, none) later ∧ later.Within supply ∧
      ops.length = entries.length ∧ Totals Op.IsNarrow total ops := by
  induction entries generalizing bound found pool total with
  | nil => exact ⟨[], pool, by rw [append_nil]; rfl, within, rfl, Totals.nil.mono (by omega)⟩
  | cons entry rest ih =>
    obtain ⟨cost, later, manages, others, most⟩ := totals.of_cons
    obtain ⟨op, between, ran, within, short⟩ := manages pool within
    rw [lowerFrom_cons, ran]
    dsimp only
    generalize bindLabel bound entry found.size = bound
    obtain ⟨ops, last, ran, within, length, narrow⟩ := @ih bound
      (found.push (op.map (targetIndex bound positions))) between later others within
    refine ⟨_ :: ops, last, by rw [ran, Array.toList_push, append_assoc]; rfl, within,
      by rw [length_cons, length_cons, length], (Totals.cons ?_ narrow).mono most⟩
    intro offset
    rw [Op.size_map]
    exact short offset

lemma Layout.foldlM_narrow {count : Nat} {layout : Layout} {ops rest : List (Op Nat)}
    (places : Places (noneRequested count) layout ops) (totals : Totals Op.IsNarrow total rest)
    (small : layout.stop + 2 * total ≤ maxNear) :
    ∃ layout', rest.foldlM (push (noneRequested count)) layout = .ok layout' ∧
      layout'.stop ≤ layout.stop + 2 * total := by
  induction rest generalizing layout ops total with
  | nil => exact ⟨layout, rfl, by omega⟩
  | cons op rest ih =>
    obtain ⟨cost, later, narrow, others, most⟩ := totals.of_cons
    have pushes := push_narrow places (by omega) op
    have short := narrow layout.stop
    have grown : (layout.pushed op false).stop ≤ layout.stop + 2 * cost := by
      change layout.stop + op.size _ _ ≤ _
      omega
    obtain ⟨layout', placed, last⟩ := ih (places.push pushes) others (by omega)
    exact ⟨layout', by rw [foldlM_cons, pushes]; exact placed, by omega⟩

/-- Instructions that are short find their places, and all jumps are narrow. -/
lemma Layout.ofOps_of_totals {ops : List (Op Nat)} (totals : Totals Op.IsNarrow total ops)
    (small : 2 * total ≤ maxNear) :
    ∃ layout, ofOps ops = .ok layout ∧ layout.stop ≤ 2 * total := by
  obtain ⟨layout, placed, last⟩ := foldlM_narrow (@places_empty (noneRequested ops.length)) totals
    (by simpa using small)
  have last : layout.stop ≤ 2 * total := by simpa using last
  exact ⟨layout, ofOps_of_small placed (by omega), last⟩

end Bytecode

namespace Encode

structure Placement (code : Code) (total : Nat) (ops : List (Op Nat)) (layout : Layout) : Prop where
  found : ofOps ops = .ok layout
  length : ops.length = code.instructions.length
  stop : layout.stop ≤ 2 * total

lemma layOut_succeeds {code : Code}
    (totals : Totals (Entry.IsLowerable supply) total code.instructions) (few : total ≤ maxSpent) :
    Succeeds supply (layOut code) fun found => Placement code total found.1 found.2 := by
  have lowered : Succeeds supply (onPool (lowerAll code)) fun found =>
      found.2 = none ∧ found.1.length = code.instructions.length ∧
        Totals Op.IsNarrow total found.1 := by
    refine .onPool fun pool within => ?_
    obtain ⟨ops, later, ran, within, known⟩ := lowerFrom_succeeds totals within
    exact ⟨(ops, none), later, ran, within, rfl, known⟩
  refine lowered.bind fun found known => ?_
  obtain ⟨ops, failure?⟩ := found
  obtain ⟨rfl, length, narrow⟩ := known
  obtain ⟨layout, placed, stop⟩ := ofOps_of_totals narrow (by
    simp only [maxSpent, maxNear] at few ⊢
    omega)
  have settled : Succeeds supply (ofResult ((ofOps ops).mapError (layoutFailure code)))
      fun found => found = layout := .ofResult (by rw [placed]; rfl) rfl
  refine settled.bind fun found same => .pure ?_
  rw [same]
  exact ⟨placed, length, stop⟩

end Encode

end Placing

end JvmAsm
