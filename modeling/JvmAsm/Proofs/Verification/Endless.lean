/- Says when the search for frames ends, whatever the method is. -/
import JvmAsm.Proofs.Verification.Chains
import JvmAsm.Proofs.Verification.Leastness

namespace JvmAsm

open List FlowProblem JvmAsm.Frame VerificationType

variable {index : Nat} {before : Frame}

namespace FlowProblem

variable {flow : FlowProblem} {state : FlowState}

/-- Instructions are looked at without an end, always the first one of those that are pending. -/
def IsEndless (flow : FlowProblem) (entry : Frame) : Prop :=
  ∃ states : Nat → FlowState, states 0 = flow.start entry ∧ ∀ count, ∃ index,
    (states count).pending.min? = some index ∧
      flow.visit index ((states count).taken index) = .ok (states (count + 1))

/-- What goes on from every state in which something holds goes on without an end. -/
lemma isEndless_of_progress {entry : Frame} (holds : FlowState → Prop)
    (first : holds (flow.start entry))
    (progress : ∀ state, holds state → ∃ index next, state.pending.min? = some index ∧
      flow.visit index (state.taken index) = .ok next ∧ holds next) :
    flow.IsEndless entry := by
  choose index next pending visited kept using progress
  let states : Nat → { state // holds state } := fun count =>
    Nat.rec ⟨flow.start entry, first⟩
      (fun _ state => ⟨next state.1 state.2, kept state.1 state.2⟩) count
  refine ⟨fun count => (states count).1, rfl, fun count => ⟨index _ (states count).2, ?_, ?_⟩⟩
  · exact pending _ _
  · exact visited _ _

end FlowProblem

section Exchange

/-- Exchanges two local variables for ever. -/
def Code.exchange : Code where
  instructions := [⟨some ⟨0⟩, .load .reference 0⟩, ⟨none, .load .reference 1⟩,
    ⟨none, .store .reference 0⟩, ⟨none, .store .reference 1⟩, ⟨none, .goto ⟨0⟩⟩]

def Method.exchange (a b : ObjectName) : Method where
  access := ⟨8⟩
  name := ⟨"exchange", by decide +kernel⟩
  descriptor := ⟨[.element (.object a), .element (.object b)], none⟩
  code := some .exchange

lemma Code.exchange_bindsOnce : Code.exchange.BindsOnce := by
  unfold BindsOnce
  decide

namespace FlowProblem

variable {after : Frame} {target : Nat}

/-- The search for the frames of the method that exchanges its arguments. -/
def exchange (hier : Hierarchy) : FlowProblem where
  owner := .root
  returned := none
  instructions := (Code.exchange.instructions.map Entry.instruction).toArray
  hierarchy := hier
  positions := Code.exchange.positions
  coverage := []

/-- The frames of the instructions if the local variables hold objects of the given classes. -/
def exchanged (a b : ObjectName) : Nat → Frame
  | 0 => ⟨[.ofClass a, .ofClass b], []⟩
  | 1 => ⟨[.ofClass a, .ofClass b], [.ofClass a]⟩
  | 2 => ⟨[.ofClass a, .ofClass b], [.ofClass b, .ofClass a]⟩
  | 3 => ⟨[.ofClass b, .ofClass b], [.ofClass a]⟩
  | _ => ⟨[.ofClass b, .ofClass a], []⟩

/-- An object of either class takes the place of an object of either class. -/
def Replaces (hier : Hierarchy) (a b : ObjectName) : Prop :=
  ∀ x ∈ [a, b], ∀ y ∈ [a, b], hier.mergeClasses (.object x) (.object y) = .ok (.object y)

variable {hier : Hierarchy} {a b : ObjectName} {flow : FlowProblem} {state : FlowState}

lemma Replaces.swap (replaces : Replaces hier a b) : Replaces hier b a := by
  intro x one y two
  exact replaces x (by simpa [or_comm] using one) y (by simpa [or_comm] using two)

/-- Frames that hold objects of the two classes are replaced by what is merged into them. -/
lemma Replaces.merge_objects (replaces : Replaces hier a b) (x y x' y' : ObjectName)
    (stack stack' : List ObjectName) (one : ∀ name ∈ x :: y :: stack, name ∈ [a, b])
    (two : ∀ name ∈ x' :: y' :: stack', name ∈ [a, b]) (deep : stack.length = stack'.length) :
    merge hier ⟨[.ofClass x, .ofClass y], stack.map .ofClass⟩
      ⟨[.ofClass x', .ofClass y'], stack'.map .ofClass⟩ =
        .ok ⟨[.ofClass x', .ofClass y'], stack'.map .ofClass⟩ := by
  have operand {x y : ObjectName} (one : x ∈ [a, b]) (two : y ∈ [a, b]) :
      mergeOperand hier (.ofClass x) (.ofClass y) = .ok (.ofClass y) :=
    mergeOperand_objects.mpr ⟨_, replaces x one y two, rfl⟩
  have deep' : (stack.map ofClass).length =
      (stack'.map ofClass).length := by
    rwa [length_map, length_map]
  refine merge_ok.mpr ⟨deep', stack'.map .ofClass, [.ofClass x', .ofClass y'],
    (mergeStacks_ok deep').mpr ⟨deep'.symm, ?_⟩,
    mergeLocals_ok.mpr ⟨rfl, fun index => ?_⟩, rfl⟩
  · intro index first second third found found' found''
    obtain rfl := Option.some.inj (found'.symm.trans found'')
    rw [getElem?_map, Option.map_eq_some_iff] at found found'
    obtain ⟨name, found, rfl⟩ := found
    obtain ⟨name', found', rfl⟩ := found'
    exact operand (one name (by simp [mem_of_getElem? found]))
      (two name' (by simp [mem_of_getElem? found']))
  · match index with
    | 0 =>
      exact mergeLocal_of_operand
        (operand (one x (by simp)) (two x' (by simp)))
    | 1 =>
      exact mergeLocal_of_operand
        (operand (one y (by simp)) (two y' (by simp)))
    | count + 2 => exact mergeLocal_top .top

lemma Replaces.merge (replaces : Replaces hier a b) (index : Nat) :
    merge hier (exchanged b a index) (exchanged a b index) =
      .ok (exchanged a b index) := by
  match index with
  | 0 => exact replaces.merge_objects b a a b [] [] (by simp) (by simp) rfl
  | 1 => exact replaces.merge_objects b a a b [b] [a] (by simp) (by simp) rfl
  | 2 => exact replaces.merge_objects b a a b [a, b] [b, a] (by simp) (by simp) rfl
  | 3 => exact replaces.merge_objects a a b b [b] [a] (by simp) (by simp) rfl
  | n + 4 => exact replaces.merge_objects a b b a [] [] (by simp) (by simp) rfl

/-- The frames while the local variables are exchanged, with the instruction that is pending. -/
structure Exchanges (a b : ObjectName) (index : Nat) (state : FlowState) : Prop where
  size : state.frames.size = 5
  inside : index < 5
  pending : ∀ other, other ∈ state.pending ↔ other = index
  passed : ∀ other ≤ index, state.frame? other = some (exchanged a b other)
  ahead : ∀ other, index < other → other < 5 →
    state.frame? other = none ∨ state.frame? other = some (exchanged b a other)

lemma Exchanges.min? (exchanges : Exchanges a b index state) :
    state.pending.min? = some index := by
  cases found : state.pending.min? with
  | none =>
    rw [Std.TreeSet.min?_eq_none_iff] at found
    exact absurd ((exchanges.pending index).mpr rfl) (Std.TreeSet.not_mem_of_isEmpty found)
  | some other => exact congrArg some ((exchanges.pending other).mp (pending_of_min? found))

lemma exchanged_trim (a b : ObjectName) (index : Nat) :
    (exchanged a b index).trim = exchanged a b index := by
  match index with
  | 0 | 1 | 2 | 3 | count + 4 => rfl

/-- Two different classes are told apart by the frames. -/
lemma exchanged_ne (other : a ≠ b) (index : Nat) : exchanged a b index ≠ exchanged b a index := by
  intro same
  have objects (name name' : ObjectName) (types : ofClass name = .ofClass name') :
      name = name' := by
    cases types
    rfl
  match index with
  | 0 | 1 | 2 => exact other (objects _ _ (cons.inj (congrArg locals same)).1)
  | 3 => exact other (objects _ _ (cons.inj (congrArg stack same)).1)
  | count + 4 => exact other.symm (objects _ _ (cons.inj (congrArg locals same)).1)

/-- A frame that is not there yet or holds the exchanged classes is changed. -/
lemma Replaces.mergeInto (replaces : Replaces flow.hierarchy a b) (other : a ≠ b)
    (found : state.frame? index = none ∨ state.frame? index = some (exchanged b a index)) :
    flow.mergeInto index (exchanged a b index) state =
      .ok (state.changed index (exchanged a b index)) := by
  unfold FlowProblem.mergeInto
  dsimp only
  rw [exchanged_trim]
  rcases found with absent | got
  · change (state.frames[index]?).join = none at absent
    rw [absent]
    rfl
  · change (state.frames[index]?).join = some _ at got
    rw [got]
    dsimp only
    rw [replaces.merge index]
    dsimp only
    rw [if_neg (by simpa using exchanged_ne other index)]
    rfl

/-- The state after an instruction has been looked at that leads to one other instruction. -/
def carried (flow : FlowProblem) (index target : Nat) (before after : Frame) (state : FlowState) :
    FlowState :=
  (flow.measured index before after (state.taken index)).changed target after

lemma carried_size :
    (flow.carried index target before after state).frames.size = state.frames.size :=
  Array.size_setIfInBounds

lemma carried_frame? (inside : target < state.frames.size) (found : Nat) :
    (flow.carried index target before after state).frame? found =
      if target = found then some after else state.frame? found :=
  FlowState.changed_frame? (by exact inside) after found

lemma mem_carried {found : Nat} :
    found ∈ (flow.carried index target before after state).pending ↔
      found = target ∨ found ≠ index ∧ found ∈ state.pending :=
  FlowState.mem_changed.trans (or_congr_right FlowState.mem_taken)

lemma Replaces.visit (replaces : Replaces flow.hierarchy a b) (other : a ≠ b)
    {index target : Nat} {instruction : Instruction} {before : Frame}
    (got : flow.instructions[index]? = some instruction)
    (held : state.frame? index = some before)
    (executed : flow.execute index instruction before = .ok ((), exchanged a b target))
    (goes : flow.outgoing index instruction before (exchanged a b target).trim =
      [(.ok target, exchanged a b target)])
    (found : state.frame? target = none ∨ state.frame? target = some (exchanged b a target)) :
    flow.visit index (state.taken index) =
      .ok (flow.carried index target before (exchanged a b target) state) := by
  refine visit_ok got held (visitWith_ok.mpr ⟨_, executed, ?_⟩)
  rw [goes, exchanged_trim, foldlM_cons]
  change (flow.mergeInto target (exchanged a b target)
    (flow.measured index before (exchanged a b target) (state.taken index))) >>= _ = _
  rw [replaces.mergeInto other (by exact found)]
  rfl

/-- Only the instruction that is led to is pending afterwards. -/
lemma Exchanges.pending_carried (exchanges : Exchanges a b index state) (target found : Nat) :
    found ∈ (flow.carried index target before after state).pending ↔ found = target := by
  rw [mem_carried, exchanges.pending]
  exact ⟨fun known => known.elim id fun known => absurd known.2 known.1, .inl⟩

/-- Every instruction but the last one leads to the one behind it. -/
lemma Exchanges.ahead_carried (exchanges : Exchanges a b index state) (inside : index + 1 < 5) :
    Exchanges a b (index + 1)
      (flow.carried index (index + 1) before (exchanged a b (index + 1)) state) where
  size := carried_size.trans exchanges.size
  inside
  pending found := exchanges.pending_carried _ _
  passed found early := by
    rw [carried_frame? (exchanges.size ▸ inside)]
    split
    · next same => rw [same]
    · exact exchanges.passed found (by omega)
  ahead found later bound := by
    rw [carried_frame? (exchanges.size ▸ inside), if_neg (by omega)]
    exact exchanges.ahead found (by omega) bound

/-- The last instruction leads back to the first one, where the classes are exchanged. -/
lemma Exchanges.back_carried (exchanges : Exchanges a b 4 state) :
    Exchanges b a 0 (flow.carried 4 0 before (exchanged b a 0) state) where
  size := carried_size.trans exchanges.size
  inside := Nat.succ_pos 4
  pending found := exchanges.pending_carried _ _
  passed found early := by
    obtain rfl := Nat.le_zero.mp early
    rw [carried_frame? (by rw [exchanges.size]; omega), if_pos rfl]
  ahead found later bound := by
    rw [carried_frame? (by rw [exchanges.size]; omega), if_neg (by omega)]
    exact .inr (exchanges.passed found (by omega))

lemma exchange_target (hier : Hierarchy) : (exchange hier).target ⟨0⟩ = .ok 0 := by
  have bound : (exchange hier).positions[(⟨0⟩ : Label)]? = some 0 :=
    Code.exchange_bindsOnce.positions_iff.mpr (by decide)
  rw [target, bound]
  rfl

/-- What is pending is looked at, and then another instruction is pending. -/
lemma Exchanges.visit (replaces : Replaces hier a b) (other : a ≠ b) {index : Nat}
    (exchanges : Exchanges a b index state) :
    ∃ next, (exchange hier).visit index (state.taken index) = .ok next ∧
      (Exchanges a b (index + 1) next ∨ Exchanges b a 0 next) := by
  have held := exchanges.passed index le_rfl
  have ahead (instruction : Instruction) (inside : index + 1 < 5)
      (got : (exchange hier).instructions[index]? = some instruction)
      (executed : (exchange hier).execute index instruction (exchanged a b index) =
        .ok ((), exchanged a b (index + 1)))
      (goes : (exchange hier).outgoing index instruction (exchanged a b index)
        (exchanged a b (index + 1)).trim = [(.ok (index + 1), exchanged a b (index + 1))]) :
      ∃ next, (exchange hier).visit index (state.taken index) = .ok next ∧
        (Exchanges a b (index + 1) next ∨ Exchanges b a 0 next) :=
    ⟨_, Replaces.visit replaces other got held executed goes
      (exchanges.ahead _ (Nat.lt_succ_self _) inside), .inl (exchanges.ahead_carried inside)⟩
  match index, exchanges, held, ahead with
  | 0, _, _, ahead => exact ahead (.load .reference 0) (by omega) rfl rfl rfl
  | 1, _, _, ahead => exact ahead (.load .reference 1) (by omega) rfl rfl rfl
  | 2, _, _, ahead => exact ahead (.store .reference 0) (by omega) rfl rfl rfl
  | 3, _, _, ahead => exact ahead (.store .reference 1) (by omega) rfl rfl rfl
  | 4, exchanges, held, _ =>
    have goes : (exchange hier).outgoing 4 (.goto ⟨0⟩) (exchanged a b 4) (exchanged b a 0).trim =
        [(.ok 0, exchanged b a 0)] := by
      unfold outgoing
      simp only [Instruction.targets, map, exchange_target]
      rfl
    have got : (exchange hier).instructions[4]? = some (.goto ⟨0⟩) := rfl
    have swapped : Replaces (exchange hier).hierarchy b a := replaces.swap
    exact ⟨_, swapped.visit other.symm got held rfl goes
      (.inr (exchanges.passed 0 (by omega))), .inr exchanges.back_carried⟩
  | count + 5, exchanges, _, _ => exact absurd exchanges.inside (by omega)

lemma entryFrame_exchange (a b : ObjectName) :
    entryFrame .root (.exchange a b) = exchanged a b 0 := by
  have static : (Method.exchange a b).access.isStatic = true := by
    change Flags.isStatic ⟨8⟩ = true
    decide
  rw [entryFrame, static]
  rfl

lemma start_exchanges (hier : Hierarchy) (a b : ObjectName) :
    Exchanges a b 0 ((exchange hier).start (entryFrame .root (.exchange a b))) where
  size := rfl
  inside := Nat.succ_pos 4
  pending found := by
    change found ∈ (∅ : Std.TreeSet Nat).insert 0 ↔ _
    rw [Std.TreeSet.mem_insert, Nat.compare_eq_eq, eq_comm, or_iff_left (by simp)]
  passed found early := by
    obtain rfl := Nat.le_zero.mp early
    rw [start_frame?, if_pos ⟨rfl, Nat.succ_pos 4⟩, entryFrame_exchange]
  ahead found later bound := by
    rw [start_frame?, if_neg (by omega)]
    exact .inl rfl

/-- Local variables of two classes that replace each other are exchanged for ever. -/
lemma exchange_isEndless (replaces : Replaces hier a b) (other : a ≠ b) :
    (exchange hier).IsEndless (entryFrame .root (.exchange a b)) := by
  refine isEndless_of_progress
    (fun state => ∃ index, Exchanges a b index state ∨ Exchanges b a index state)
    ⟨0, .inl (start_exchanges hier a b)⟩ ?_
  rintro state ⟨index, exchanges | exchanges⟩
  · obtain ⟨next, visited, later⟩ := exchanges.visit replaces other
    exact ⟨index, next, exchanges.min?, visited, later.elim (⟨_, .inl ·⟩) (⟨_, .inr ·⟩)⟩
  · obtain ⟨next, visited, later⟩ := exchanges.visit replaces.swap other.symm
    exact ⟨index, next, exchanges.min?, visited, later.elim (⟨_, .inr ·⟩) (⟨_, .inl ·⟩)⟩

end FlowProblem

end Exchange

namespace SuperClasses

variable {known : SuperClasses}

/-- Two classes that are above each other replace each other. -/
lemma replaces_of_loop {a b : ObjectName} (proper : a ≠ .root) (proper' : b ≠ .root)
    (up : Relation.ReflTransGen known.Extends (.object a) (.object b))
    (down : Relation.ReflTransGen known.Extends (.object b) (.object a)) :
    FlowProblem.Replaces known.hierarchy a b := by
  intro x one y two
  have reaches : Relation.ReflTransGen known.Extends (.object x) (.object y) := by
    rcases mem_pair.mp one with rfl | rfl <;> rcases mem_pair.mp two with rfl | rfl
    · exact .refl
    · exact up
    · exact down
    · exact .refl
  have notRoot (name : ObjectName) (mem : name ∈ [a, b]) : ClassName.object name ≠ .root := by
    intro same
    rcases mem_pair.mp mem with rfl | rfl
    · exact proper (ClassName.object.inj same)
    · exact proper' (ClassName.object.inj same)
  rw [Hierarchy.mergeClasses_eq]
  split
  · next same => rw [same]
  · rw [if_neg (not_or.mpr ⟨notRoot x one, notRoot y two⟩)]
    exact mergeObjects_ok.mpr (common_of_above reaches)

/--
The search for the frames of every method ends, in whatever order the pending instructions are looked
at, unless two different classes are above each other. Then there is a method for which it does not.
-/
theorem searches_end (known : SuperClasses) :
    (known.IsLoopFree → ∀ owner method code flow,
      FlowProblem.ofMethod known.hierarchy owner method code = .ok flow →
        0 < code.instructions.length → ∀ count state,
          flow.Search (entryFrame owner method) count state →
            count < flow.budget (entryFrame owner method)) ∧
    (¬known.IsLoopFree → ∃ owner method code flow, method.code = some code ∧
      FlowProblem.ofMethod known.hierarchy owner method code = .ok flow ∧
        flow.IsEndless (entryFrame owner method)) := by
  refine ⟨fun free owner method code flow made positive count state search => ?_, fun loops => ?_⟩
  · obtain ⟨_, same, size, placed⟩ := ofMethod_parts made
    have height : flow.typeHeight = 256 * (known.table.size + 2) := by
      rw [typeHeight, same]
      rfl
    obtain ⟨_, _, spent⟩ := search.advances (kindred_isRespected _)
      (same ▸ free.isRanked) (by omega) placed (entryFrame_isCanonical owner method) rfl
      (size ▸ positive)
    omega
  · obtain ⟨a, b, proper, proper', up, down, other⟩ : ∃ a b : ObjectName, a ≠ .root ∧ b ≠ .root ∧
        Relation.ReflTransGen known.Extends (.object a) (.object b) ∧
          Relation.ReflTransGen known.Extends (.object b) (.object a) ∧ a ≠ b := by
      simpa [IsLoopFree, and_assoc] using loops
    exact ⟨.root, .exchange a b, .exchange, .exchange known.hierarchy, rfl, rfl,
      exchange_isEndless (replaces_of_loop proper proper' up down) other⟩

section Circles

def first : ObjectName := ⟨"A", Eq.refl true⟩

def second : ObjectName := ⟨"B", by decide⟩

/-- A class that is its own super class. -/
def own : SuperClasses := SuperClasses.insert {} (.object first) (.object first)

def crossed : SuperClasses :=
  (SuperClasses.insert {} (.object first) (.object second)).insert (.object second) (.object first)

lemma own_isLoopFree : own.IsLoopFree := by
  have extends_eq {name super : ClassName} (extended : own.Extends name super) : name = super := by
    have found : own.table[name]? = some super := extended
    rw [own, insert, Std.HashMap.getElem?_insert] at found
    split at found
    · next same => exact (beq_iff_eq.mp same).symm.trans (Option.some.inj found)
    · simp at found
  have reaches_eq {name above : ClassName} (reaches : Relation.ReflTransGen own.Extends name above) :
      name = above := by
    induction reaches with
    | refl => rfl
    | tail _ extended ih => exact ih.trans (extends_eq extended)
  intro a b _ _ up _
  exact ClassName.object.inj (reaches_eq up)

lemma crossed_up : crossed.Extends (.object first) (.object second) := by
  rw [Extends, crossed, insert, insert, Std.HashMap.getElem?_insert, if_neg (by decide),
    Std.HashMap.getElem?_insert_self]

lemma crossed_down : crossed.Extends (.object second) (.object first) := by
  rw [Extends, crossed, insert, Std.HashMap.getElem?_insert_self]

/-- Objects of two classes that are above each other are exchanged without an end. -/
theorem exchange_crossed_isEndless : ∃ flow,
    FlowProblem.ofMethod crossed.hierarchy .root (.exchange first second) .exchange = .ok flow ∧
      flow.IsEndless (entryFrame .root (.exchange first second)) :=
  ⟨_, rfl, exchange_isEndless (replaces_of_loop (by decide) (by decide)
    (.single crossed_up) (.single crossed_down)) (by decide)⟩

/--
The search ends for a loop that exchanges objects of a class that is its own super class, and there
is a method for which it does not end if two classes are above each other.
-/
theorem searches_end_circles :
    (∀ count state, (FlowProblem.exchange own.hierarchy).Search
      (entryFrame .root (.exchange first second)) count state →
        count < (FlowProblem.exchange own.hierarchy).budget
          (entryFrame .root (.exchange first second))) ∧
    ∃ owner method code flow, method.code = some code ∧
      FlowProblem.ofMethod crossed.hierarchy owner method code = .ok flow ∧
        flow.IsEndless (entryFrame owner method) := by
  refine ⟨(searches_end own).1 own_isLoopFree .root (.exchange first second) .exchange _ rfl
    (by decide), (searches_end crossed).2 fun free => ?_⟩
  have same := free first second (by decide) (by decide) (.single crossed_up) (.single crossed_down)
  exact absurd same (by decide)

end Circles

end SuperClasses

end JvmAsm
