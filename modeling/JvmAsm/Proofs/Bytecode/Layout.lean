/-
Says what a layout is: the instructions stand one behind the other, every jump reaches its target,
and small code has no wide jumps.
-/
import JvmAsm.Bytecode.Layout
import JvmAsm.Proofs.Result

namespace JvmAsm

open Binary List Bytecode

variable {first index second : Nat} {rest : List (Op Nat)}

namespace Op

open Bytecode

variable {τ σ : Type}

lemma bytes_length (op : Op Nat) (offset : Nat) (isWide : Bool) :
    (op.bytes offset isWide).length = op.size offset isWide := by
  have shorts (opcode shortOpcode : UInt8) (kind : ValueKind) (index : UInt16) :
      (localBytes opcode shortOpcode kind index).length = localSize index := by
    unfold localBytes localSize
    split
    · rfl
    · split <;> rfl
  have longs (targets : List Nat) :
      (targets.flatMap (distance32 offset)).length = 4 * targets.length := by
    induction targets with
    | nil => rfl
    | cons target rest ih =>
      rw [flatMap_cons, length_append, ih, length_cons]
      change 4 + _ = _
      omega
  have pairs (pairs : List (Int32 × Nat)) :
      (pairs.flatMap fun pair => bytes32 pair.1.toUInt32 ++ distance32 offset pair.2).length =
        8 * pairs.length := by
    induction pairs with
    | nil => rfl
    | cons pair rest ih =>
      rw [flatMap_cons, length_append, ih, length_cons]
      change 8 + _ = _
      omega
  cases op with
  | load kind index => exact shorts _ _ _ _
  | store kind index => exact shorts _ _ _ _
  | tableSwitch default low high targets =>
    simp only [bytes, size, length_cons, length_append, length_replicate, longs]
    change _ + 4 + 4 + 4 + _ + 1 = _
    omega
  | lookupSwitch default pairs' =>
    simp only [bytes, size, length_cons, length_append, length_replicate, pairs]
    change _ + 4 + 4 + _ + 1 = _
    omega
  | constant isDouble index | increment index amount | branch condition target | goto target
  | jsr target | ret index =>
    simp only [bytes, size]
    repeat' split
    all_goals rfl
  | _ => rfl

@[simp] lemma size_map (f : τ → σ) (op : Op τ) (offset : Nat) (isWide : Bool) :
    (op.map f).size offset isWide = op.size offset isWide := by
  cases op <;> simp [map, size]

@[simp] lemma jump?_map (f : τ → σ) (op : Op τ) : (op.map f).jump? = op.jump?.map f := by
  cases op <;> rfl

@[simp] lemma isBranch_map (f : τ → σ) (op : Op τ) : (op.map f).isBranch = op.isBranch := by
  cases op <;> rfl

lemma map_map {υ : Type} (f : τ → σ) (g : σ → υ) (op : Op τ) :
    (op.map f).map g = op.map fun target => g (f target) := by
  cases op <;> simp [Op.map]

@[simp] lemma targets_map (f : τ → σ) (op : Op τ) : (op.map f).targets = op.targets.map f := by
  cases op <;> simp [map, targets]

lemma size_pos (op : Op τ) (offset : Nat) (isWide : Bool) : 0 < op.size offset isWide := by
  cases op <;> simp only [size, localSize, branchSize, wideBranchSize] <;> (repeat' split) <;> omega

/-- An instruction ends no earlier if it starts later or is wide. -/
lemma end_mono (op : Op τ) (before : first ≤ second) (isWide : Bool) :
    first + op.size first false ≤ second + op.size second isWide := by
  cases op <;>
    simp only [size, localSize, branchSize, wideBranchSize, paddingAfter, Bool.false_eq_true,
      if_false] <;>
    (repeat' split) <;> omega

end Op

namespace Bytecode

namespace Layout

/--
The instructions stand one behind the other. Which jumps ahead are wide has been requested, and
those back are wide if they have to.
-/
structure Places (requested : Array Bool) (layout : Layout) (ops : List (Op Nat)) : Prop where
  offsetsSize : layout.offsets.size = ops.length
  wideSize : layout.wide.size = ops.length
  start : layout.offset 0 = 0
  next : ∀ (index : Nat) (op : Op Nat), ops[index]? = some op → layout.offset (index + 1) =
      layout.offset index + op.size (layout.offset index) (layout.isWide index)
  bounded : ∀ index < ops.length, layout.offset index ≤ maxOffset
  form : ∀ (index : Nat) (op : Op Nat), ops[index]? = some op → layout.isWide index =
    match op.jump? with
    | none => false
    | some target =>
      if target < index then !isNear (layout.offset index) (layout.offset target)
      else if target = index then false
      else requested[index]?.getD false
  room : ∀ (index : Nat) (op : Op Nat), ops[index]? = some op → op.isBranch = true →
    layout.isWide index = true → layout.offset index + branchSize ≤ maxOffset

lemma offset_size (layout : Layout) : layout.offset layout.offsets.size = layout.stop := by
  simp [offset]

/-- The layout after the next instruction has been placed. -/
def pushed (layout : Layout) (op : Op Nat) (isWide : Bool) : Layout :=
  ⟨layout.offsets.push layout.stop, layout.wide.push isWide,
    layout.stop + op.size layout.stop isWide⟩

variable {requested : Array Bool} {layout layout' : Layout} {op : Op Nat} {ops : List (Op Nat)}

lemma push_ok (placed : layout.push requested op = .ok layout') :
    layout.stop ≤ maxOffset ∧ layout' = layout.pushed op (layout.formOf requested op) ∧
      (op.isBranch = true → layout.formOf requested op = true →
        layout.stop + branchSize ≤ maxOffset) := by
  obtain ⟨_, checked, rest⟩ := ok_parts placed
  have bounded : layout.stop ≤ maxOffset := by
    unfold checkStart at checked
    split at checked
    · assumption
    · contradiction
  dsimp only at rest
  split at rest
  · contradiction
  · next room =>
    refine ⟨bounded, (Except.ok.inj rest).symm, fun branch wide => ?_⟩
    simp only [branch, wide, Bool.and_self, Bool.true_and, decide_eq_true_eq] at room
    omega

lemma pushed_offset (isWide : Bool) (old : index ≤ layout.offsets.size) :
    (layout.pushed op isWide).offset index = layout.offset index := by
  rcases lt_or_eq_of_le old with less | rfl
  · simp [pushed, offset, Array.getElem?_push, ne_of_lt less, less]
  · simp [pushed, offset]

lemma pushed_isWide (isWide : Bool) (old : index < layout.wide.size) :
    (layout.pushed op isWide).isWide index = layout.isWide index := by
  simp [pushed, Layout.isWide, Array.getElem?_push, ne_of_lt old]

/-- Placing one more instruction keeps what is known of those before it. -/
lemma Places.push (places : Places requested layout ops)
    (placed : layout.push requested op = .ok layout') :
    Places requested layout' (ops ++ [op]) := by
  obtain ⟨bounded, rfl, room⟩ := push_ok placed
  generalize form : layout.formOf requested op = isWide at room
  have old {index : Nat} (inside : index ≤ ops.length) :
      (layout.pushed op isWide).offset index = layout.offset index :=
    pushed_offset isWide (by rw [places.offsetsSize]; exact inside)
  have oldWide {index : Nat} (inside : index < ops.length) :
      (layout.pushed op isWide).isWide index = layout.isWide index :=
    pushed_isWide isWide (by rw [places.wideSize]; exact inside)
  have last : (layout.pushed op isWide).offset ops.length = layout.stop := by
    rw [old le_rfl, ← places.offsetsSize, offset_size]
  have lastWide : (layout.pushed op isWide).isWide ops.length = isWide := by
    simp [pushed, Layout.isWide, ← places.wideSize]
  -- Every index is that of an old instruction or of the new one.
  have split {index : Nat} {found : Op Nat} (got : (ops ++ [op])[index]? = some found) :
      (index < ops.length ∧ ops[index]? = some found) ∨ (index = ops.length ∧ found = op) := by
    rw [getElem?_append] at got
    split at got
    · exact .inl ⟨‹_›, got⟩
    · have inside := (List.getElem?_eq_some_iff.mp got).1
      have here : index = ops.length := by simp at inside; omega
      subst here
      simpa [eq_comm] using got
  constructor
  · simp [pushed, places.offsetsSize]
  · simp [pushed, places.wideSize]
  · rw [old (Nat.zero_le _), places.start]
  · intro index found got
    rcases split got with ⟨inside, got⟩ | ⟨rfl, rfl⟩
    · rw [old (by omega), old (by omega), oldWide inside, places.next index found got]
    · rw [last, lastWide]
      simp [pushed, offset, places.offsetsSize]
  · intro index inside
    rw [length_append, length_singleton] at inside
    rcases lt_or_eq_of_le (Nat.le_of_lt_succ inside) with less | rfl
    · rw [old (by omega)]
      exact places.bounded index less
    · rw [last]
      exact bounded
  · intro index found got
    rcases split got with ⟨inside, got⟩ | ⟨rfl, rfl⟩
    · rw [oldWide inside, places.form index found got, old (by omega)]
      split
      · rfl
      · split
        · rw [old (by omega)]
        · rfl
    · rw [lastWide, last]
      refine form.symm.trans ?_
      rw [formOf, places.offsetsSize]
      cases found.jump? with
      | none => rfl
      | some target =>
        dsimp only
        by_cases back : target < ops.length
        · rw [if_pos back, if_pos back, old (by omega)]
        · rw [if_neg back, if_neg back]
  · intro index found got branch wide
    rcases split got with ⟨inside, got⟩ | ⟨rfl, rfl⟩
    · rw [old (by omega)]
      exact places.room index found got branch (by rwa [← oldWide inside])
    · rw [last]
      exact room branch (by rwa [← lastWide])

lemma places_empty : Places requested {} [] := by
  constructor <;> simp [offset]

lemma Places.foldlM (places : Places requested layout ops)
    (placed : rest.foldlM (Layout.push requested) layout = .ok layout') :
    Places requested layout' (ops ++ rest) := by
  induction rest generalizing ops layout with
  | nil =>
    obtain rfl := Except.ok.inj placed
    rwa [append_nil]
  | cons op rest ih =>
    rw [foldlM_cons] at placed
    obtain ⟨between, first, placed⟩ := ok_parts placed
    have whole := ih (places.push first) placed
    rwa [append_assoc, singleton_append] at whole

lemma place_places (placed : place requested ops = .ok layout) : Places requested layout ops :=
  places_empty.foldlM placed

section

variable (places : Places requested layout ops)
include places

lemma Places.stop_eq :
    layout.offset ops.length = layout.stop := by
  rw [← places.offsetsSize, offset_size]

lemma Places.offset_mono (before : first ≤ second)
    (inside : second ≤ ops.length) :
    layout.offset first ≤ layout.offset second := by
  induction second with
  | zero => exact le_of_eq (by rw [Nat.le_zero.mp before])
  | succ second ih =>
    rcases lt_or_eq_of_le before with less | rfl
    · have got : ops[second]? = some ops[second] := getElem?_eq_getElem (by omega)
      have earlier := ih (by omega) (by omega)
      have step := places.next second _ got
      omega
    · exact le_rfl

lemma Places.offset_lt (before : first < second)
    (inside : second ≤ ops.length) :
    layout.offset first < layout.offset second := by
  have got : ops[first]? = some ops[first] := getElem?_eq_getElem (by omega)
  have step := places.next first _ got
  have size := ops[first].size_pos (layout.offset first) (layout.isWide first)
  have later : layout.offset (first + 1) ≤ layout.offset second :=
    places.offset_mono before inside
  omega

lemma Places.offset_le_stop (index : Nat) :
    layout.offset index ≤ layout.stop := by
  rcases le_total index ops.length with inside | outside
  · rw [← places.stop_eq]
    exact places.offset_mono inside le_rfl
  · have size := places.offsetsSize
    simp [offset, Array.getElem?_eq_none (show layout.offsets.size ≤ index by omega)]

end

/-- All jumps of the layout reach their targets. -/
lemma firstShort?_eq_none {ops : List (Op Nat)} (reached : layout.firstShort? first ops = none)
    {op : Op Nat} (got : ops[index]? = some op) :
    layout.isShort (first + index) op = false := by
  induction ops generalizing first index with
  | nil => simp at got
  | cons next rest ih =>
    rw [firstShort?] at reached
    split at reached
    · contradiction
    · next long =>
      cases index with
      | zero =>
        obtain rfl := Option.some.inj got
        simpa using long
      | succ index =>
        rw [show first + (index + 1) = first + 1 + index by omega]
        exact ih reached got

lemma settle_ok {fuel : Nat} (settled : settle ops fuel requested = .ok layout) :
    ∃ final, place final ops = .ok layout ∧ layout.stop ≤ maxOffset ∧
      layout.firstShort? 0 ops = none := by
  induction fuel generalizing requested with
  | zero => cases settled
  | succ fuel ih =>
    obtain ⟨attempt, placed, rest⟩ := ok_parts settled
    obtain ⟨attempt', placed', checked⟩ := ok_parts placed
    split at checked
    · contradiction
    · next fits =>
      obtain rfl := Except.ok.inj checked
      split at rest
      · next reached =>
        obtain rfl := Except.ok.inj rest
        exact ⟨requested, placed', Nat.le_of_not_lt fits, reached⟩
      · exact ih rest

/-- What is known of the layout that has been found for some instructions. -/
structure IsFound (layout : Layout) (ops : List (Op Nat)) : Prop where
  places : ∃ requested, Places requested layout ops
  stop_le : layout.stop ≤ maxOffset
  reached : layout.firstShort? 0 ops = none

lemma ofOps_found (found : ofOps ops = .ok layout) : layout.IsFound ops := by
  obtain ⟨final, placed, fits, reached⟩ := settle_ok found
  exact ⟨⟨final, place_places placed⟩, fits, reached⟩

lemma IsFound.isNear (found : layout.IsFound ops) {op : Op Nat} {target : Nat}
    (got : ops[index]? = some op) (jumps : op.jump? = some target)
    (narrow : layout.isWide index = false) :
    isNear (layout.offset index) (layout.offset target) = true := by
  obtain ⟨requested, places⟩ := found.places
  have form := places.form index op got
  rw [narrow, jumps] at form
  dsimp only at form
  split at form
  · simpa using form.symm
  · split at form
    · next same =>
      subst same
      simp [isNear]
    · next ahead other =>
      have long := firstShort?_eq_none found.reached got
      rw [zero_add, isShort, jumps, narrow] at long
      have less : index < target := by omega
      simpa [less] using long

section Small

/-- The largest offset from which every offset can be reached by a narrow jump. -/
def maxNear : Nat := 0x7fff

lemma isNear_of_le {offset target : Nat} (small : offset ≤ maxNear) (near : target ≤ maxNear) :
    isNear offset target = true := by
  simp only [maxNear] at small near
  simp only [isNear, Bool.and_eq_true, decide_eq_true_eq]
  omega

lemma Places.stop_mono (places : Places requested layout ops)
    (placed : rest.foldlM (Layout.push requested) layout = .ok layout') :
    layout.stop ≤ layout'.stop := by
  have whole := places.foldlM placed
  induction rest generalizing ops layout with
  | nil => exact le_of_eq (by rw [Except.ok.inj placed])
  | cons op rest ih =>
    rw [foldlM_cons] at placed
    obtain ⟨between, first, placed⟩ := ok_parts placed
    obtain ⟨_, rfl, _⟩ := push_ok first
    have later := ih (places.push first) placed (by simpa using whole)
    exact le_trans (Nat.le_add_right _ _) later

/-- No jump ahead is requested to be wide. -/
def noneRequested (count : Nat) : Array Bool := Array.replicate count false

lemma noneRequested_get (count index : Nat) : (noneRequested count)[index]?.getD false = false := by
  rw [noneRequested, Array.getElem?_replicate]
  split <;> rfl

/-- The next instruction of small code is in its narrow form unless another one is requested. -/
lemma push_narrow {count : Nat} (places : Places (noneRequested count) layout ops)
    (small : layout.stop ≤ maxNear) (op : Op Nat) :
    layout.push (noneRequested count) op = .ok (layout.pushed op false) := by
  have form : layout.formOf (noneRequested count) op = false := by
    unfold formOf
    split
    · rfl
    · next target _ =>
      have near := isNear_of_le small (le_trans (places.offset_le_stop target) small)
      simp [near, noneRequested_get]
  have start : layout.checkStart = .ok () := by
    rw [checkStart, if_pos]
    simp only [maxNear, maxOffset] at small ⊢
    omega
  rw [Layout.push, start, form]
  rfl

/--
Small code can also be placed with narrow jumps only, in which case no instruction stands behind
its other place.
-/
lemma narrow_foldlM {count : Nat} {narrow : Layout} (places : Places requested layout ops)
    (narrowPlaces : Places (noneRequested count) narrow ops) (before : narrow.stop ≤ layout.stop)
    (placed : rest.foldlM (Layout.push requested) layout = .ok layout')
    (small : layout'.stop ≤ maxNear) :
    ∃ narrow', rest.foldlM (Layout.push (noneRequested count)) narrow = .ok narrow' ∧
      narrow'.stop ≤ layout'.stop := by
  induction rest generalizing ops layout narrow with
  | nil =>
    obtain rfl := Except.ok.inj placed
    exact ⟨narrow, rfl, before⟩
  | cons op rest ih =>
    have bound := le_trans (places.stop_mono placed) small
    rw [foldlM_cons] at placed
    obtain ⟨between, first, placed⟩ := ok_parts placed
    have nextPlaces := places.push first
    obtain ⟨_, rfl, _⟩ := push_ok first
    have pushes := push_narrow narrowPlaces (le_trans before bound) op
    have narrower := op.end_mono before (layout.formOf requested op)
    obtain ⟨narrow', placed', less⟩ :=
      ih nextPlaces (narrowPlaces.push pushes) narrower placed
    exact ⟨narrow', by rw [foldlM_cons, pushes]; exact placed', less⟩

lemma firstShort?_of_near {ops : List (Op Nat)}
    (near : ∀ index target, isNear (layout.offset index) (layout.offset target) = true) :
    layout.firstShort? first ops = none := by
  induction ops generalizing first with
  | nil => rfl
  | cons op rest ih =>
    have reaches : layout.isShort first op = false := by
      unfold isShort
      split
      · rfl
      · simp [near]
    rw [firstShort?, reaches]
    exact ih

lemma Places.isWide_of_near (places : Places (noneRequested ops.length) layout ops)
    (near : ∀ index target, isNear (layout.offset index) (layout.offset target) = true)
    (index : Nat) : layout.isWide index = false := by
  rcases Nat.lt_or_ge index ops.length with inside | outside
  · rw [places.form index _ (getElem?_eq_getElem inside)]
    split
    · rfl
    · simp [near, noneRequested_get]
  · have size := places.wideSize
    simp [isWide, Array.getElem?_eq_none (show layout.wide.size ≤ index by omega)]

/-- The first attempt requests nothing, and is kept if all jumps reach their targets. -/
lemma ofOps_of_first (placed : place (noneRequested ops.length) ops = .ok layout)
    (fits : layout.stop ≤ maxOffset) (reached : layout.firstShort? 0 ops = none) :
    ofOps ops = .ok layout := by
  have attempt : placeAll (noneRequested ops.length) ops = .ok layout := by
    rw [placeAll, placed]
    change (if maxOffset < layout.stop then _ else _) = _
    rw [if_neg (not_lt.mpr fits)]
    rfl
  rw [ofOps, settle]
  change (placeAll (noneRequested ops.length) ops >>= _) = _
  rw [attempt]
  change (match layout.firstShort? 0 ops with | none => _ | some index => _) = _
  rw [reached]
  rfl

lemma Places.isNear_of_small (places : Places requested layout ops)
    (small : layout.stop ≤ maxNear) (index target : Nat) :
    isNear (layout.offset index) (layout.offset target) = true :=
  isNear_of_le (le_trans (places.offset_le_stop index) small)
    (le_trans (places.offset_le_stop target) small)

lemma ofOps_of_small (placed : place (noneRequested ops.length) ops = .ok layout)
    (small : layout.stop ≤ maxNear) : ofOps ops = .ok layout :=
  ofOps_of_first placed (by simp only [maxNear, maxOffset] at small ⊢; omega)
    (firstShort?_of_near ((place_places placed).isNear_of_small small))

/-- Small code has no wide jumps. -/
lemma ofOps_narrow (found : ofOps ops = .ok layout) (small : layout.stop ≤ maxNear) (index : Nat) :
    layout.isWide index = false := by
  obtain ⟨requested, placed, _, _⟩ := settle_ok found
  obtain ⟨narrow, placedNarrow, less⟩ : ∃ narrow,
      place (noneRequested ops.length) ops = .ok narrow ∧ narrow.stop ≤ layout.stop :=
    narrow_foldlM places_empty places_empty le_rfl placed small
  have places : Places (noneRequested ops.length) narrow ops := place_places placedNarrow
  have first := ofOps_of_small placedNarrow (le_trans less small)
  obtain rfl : narrow = layout := Except.ok.inj (first.symm.trans found)
  exact places.isWide_of_near (places.isNear_of_small small) index

end Small

section Back

lemma push_of_room (room : layout.stop + branchSize ≤ maxOffset) (op : Op Nat) :
    layout.push requested op = .ok (layout.pushed op (layout.formOf requested op)) := by
  have start : layout.checkStart = .ok () := if_pos (by omega)
  rw [push, start]
  change (if _ then _ else _) = _
  rw [if_neg (by simp; omega)]
  rfl

/-- Instructions are placed if there is room for all of them. -/
lemma foldlM_of_room {size : Nat}
    (bounded : ∀ op ∈ ops, ∀ offset isWide, op.size offset isWide ≤ size)
    (room : layout.stop + size * ops.length + branchSize ≤ maxOffset) :
    ∃ layout', ops.foldlM (Layout.push requested) layout = .ok layout' ∧
      layout'.stop ≤ layout.stop + size * ops.length := by
  induction ops generalizing layout with
  | nil => exact ⟨layout, rfl, by simp⟩
  | cons op rest ih =>
    rw [forall_mem_cons] at bounded
    rw [length_cons, Nat.mul_add_one] at room ⊢
    have less := bounded.1 layout.stop (layout.formOf requested op)
    have grown : (layout.pushed op (layout.formOf requested op)).stop ≤ layout.stop + size := by
      change layout.stop + op.size _ _ ≤ _
      omega
    obtain ⟨layout', placed, last⟩ := @ih (layout.pushed op (layout.formOf requested op)) bounded.2
      (by omega)
    refine ⟨layout', ?_, by omega⟩
    rw [foldlM_cons, push_of_room (by omega)]
    exact placed

lemma firstShort?_of_back
    (back : ∀ (index : Nat) (op : Op Nat) (target : Nat), ops[index]? = some op →
      op.jump? = some target → target ≤ first + index) : layout.firstShort? first ops = none := by
  induction ops generalizing first with
  | nil => rfl
  | cons op rest ih =>
    have reaches : layout.isShort first op = false := by
      unfold isShort
      split
      · rfl
      · next target jumps =>
        have before := back 0 op target rfl jumps
        rw [add_zero] at before
        simp [not_lt.mpr before]
    rw [firstShort?, reaches]
    refine ih fun index op target got jumps => ?_
    have before := back (index + 1) op target got jumps
    omega

/-- Code that only jumps back finds its layout at once. -/
lemma ofOps_of_back (placed : ∃ layout, place (noneRequested ops.length) ops = .ok layout ∧
      layout.stop ≤ maxOffset)
    (back : ∀ (index : Nat) (op : Op Nat) (target : Nat), ops[index]? = some op →
      op.jump? = some target → target ≤ index) : ∃ layout, ofOps ops = .ok layout := by
  obtain ⟨layout, placed, small⟩ := placed
  exact ⟨layout, ofOps_of_first placed small (firstShort?_of_back (by simpa using back))⟩

end Back

end Layout

end Bytecode

end JvmAsm
