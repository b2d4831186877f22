/-
Says which frames are written with code, and that the instructions that are found in the code need
no others.
-/
import JvmAsm.Proofs.RoundTrip.Bytecode

namespace JvmAsm

open List

namespace Encode

open Binary Bytecode StackMap

/-- Whether something is so of the index before. -/
def isSoBefore (isSo : Nat → Bool) : Nat → Bool
  | 0 => false
  | index + 1 => isSo index

namespace Written

variable {written : Written} {table : FrameTable} {index : Nat} {op : Op Nat}
  {frames : List MapFrame}

/-- Whether a frame is written for an instruction. -/
def isListed (written : Written) (table : FrameTable) (index : Nat) : Bool :=
  if table.isReachable index then
    decide (index ∈ table.required) ||
      isSoBefore (written.layout.splits written.ops) index
  else !isSoBefore (fun index => !table.isReachable index) index

lemma isListed_of_reached (reached : table.isReachable index = true) :
    written.isListed table index = (decide (index ∈ table.required) ||
      isSoBefore (written.layout.splits written.ops) index) :=
  if_pos reached

lemma isListed_of_dead (dead : table.isReachable index = false) :
    written.isListed table index = !isSoBefore (fun index => !table.isReachable index) index :=
  if_neg (ne_true_of_eq_false dead)

inductive IsFrameAt (written : Written) (table : FrameTable) (index : Nat) : MapFrame → Prop where
  | reached {frame : Frame} {mapped : MapFrame} (found : table.frame? index = some frame)
      (maps : written.mapFrame index frame = .ok mapped) : IsFrameAt written table index mapped
  | dead (none : table.frame? index = none) :
      IsFrameAt written table index (written.deadFrame index)

lemma mapFrame_ok {frame : Frame} {mapped : MapFrame}
    (maps : written.mapFrame index frame = .ok mapped) :
    mapped.offset = written.layout.offset index ∧
      localItems written.layout.offset frame.locals = .ok mapped.locals ∧
        mapped.stack = stackItems written.layout.offset frame.stack := by
  obtain ⟨locals, found, same⟩ := ok_parts maps
  cases same
  exact ⟨rfl, found, rfl⟩

lemma IsFrameAt.offset_eq {mapped : MapFrame} (isFrame : written.IsFrameAt table index mapped) :
    mapped.offset = written.layout.offset index := by
  cases isFrame with
  | reached _ maps => exact (mapFrame_ok maps).1
  | dead _ => rfl

lemma required_flags (indices : List Nat) (flags : Array Bool) (inside : index < flags.size) :
    (indices.foldl (fun flags index => flags.setIfInBounds index true) flags)[index]?.getD false =
      (decide (index ∈ indices) || flags[index]?.getD false) := by
  induction indices generalizing flags with
  | nil => simp
  | cons first rest ih =>
    rw [foldl_cons, ih _ (by simpa using inside), Array.getElem?_setIfInBounds]
    by_cases same : first = index
    · simp [same, inside]
    · have other : index ≠ first := Ne.symm same
      simp [same, other]

/-- The loop adds the frames of the instructions from an index on. -/
lemma framesFrom_ok {flags : Array Bool} {found : Array MapFrame} {before part : List (Op Nat)}
    (marked : ∀ index < written.ops.length,
      flags[index]?.getD false = decide (index ∈ table.required))
    (equal : written.ops = before ++ part)
    (ran : written.framesFrom table flags found before.length
      (isSoBefore (written.layout.splits written.ops) before.length)
      (isSoBefore (fun index => !table.isReachable index) before.length) part = .ok frames) :
    ∃ more, frames = found.toList ++ more ∧ Forall₂ (written.IsFrameAt table)
        ((range' before.length part.length).filter (written.isListed table)) more := by
  induction part generalizing before found with
  | nil =>
    cases ran
    exact ⟨[], (append_nil _).symm, .nil⟩
  | cons op rest ih =>
    have inside : before.length < written.ops.length := by simp [equal]
    have split : written.isInverted op before.length =
        written.layout.splits written.ops before.length := by
      rw [Layout.splits, show written.ops[before.length]? = some op by simp [equal]]
      rfl
    have step {found' : Array MapFrame} {isDead : Bool}
        (dead : isDead = !table.isReachable before.length)
        (ran : written.framesFrom table flags found' (before.length + 1)
          (written.isInverted op before.length) isDead rest = .ok frames) :
        ∃ more, frames = found'.toList ++ more ∧ Forall₂ (written.IsFrameAt table)
            ((range' (before.length + 1) rest.length).filter (written.isListed table))
            more := by
      have next := @ih found' (before ++ [op]) (by simp [equal])
      rw [length_append, length_singleton] at next
      refine next ?_
      rw [isSoBefore, isSoBefore, ← split, ← dead]
      exact ran
    rw [length_cons, range'_succ, filter_cons]
    rw [framesFrom] at ran
    dsimp only at ran
    split at ran
    · next frame found? =>
      have reached : table.isReachable before.length = true := by
        rw [FrameTable.isReachable, found?, Option.isSome_some]
      rw [isListed_of_reached reached, ← marked _ inside]
      split at ran
      · next listed =>
        obtain ⟨mapped, maps, ran⟩ := ok_parts ran
        obtain ⟨more, rfl, all⟩ := step (by rw [reached]; rfl) ran
        rw [if_pos listed]
        exact ⟨mapped :: more, by simp, .cons (.reached found? maps) all⟩
      · next listed =>
        rw [if_neg listed]
        exact step (by rw [reached]; rfl) ran
    · next found? =>
      have dead : table.isReachable before.length = false := by
        rw [FrameTable.isReachable, found?, Option.isSome_none]
      rw [isListed_of_dead dead]
      obtain ⟨more, rfl, all⟩ := step (by rw [dead]; rfl) ran
      cases isSoBefore (fun index => !table.isReachable index) before.length with
      | true => exact ⟨more, rfl, all⟩
      | false =>
        exact ⟨written.deadFrame before.length :: more, by simp, .cons (.dead found?) all⟩

/-- The frames that are written are those of the listed instructions, in their order. -/
lemma mapFrames_ok (mapped : written.mapFrames table = .ok frames) :
    Forall₂ (written.IsFrameAt table)
      ((List.range written.ops.length).filter (written.isListed table)) frames := by
  obtain ⟨more, rfl, all⟩ := @framesFrom_ok written table frames _ _ [] written.ops
    (fun index inside => by
      rw [required_flags _ _ (by simpa using inside)]
      simp [inside]) rfl mapped
  rwa [List.length_nil, ← List.range_eq_range'] at all

def Lists (written : Written) (table : FrameTable) (index : Nat) : Prop :=
  index < written.ops.length ∧ written.isListed table index = true

lemma Lists.exists_frame (lists : written.Lists table index)
    (mapped : written.mapFrames table = .ok frames) :
    ∃ frame ∈ frames, frame.offset = written.layout.offset index := by
  have mem : index ∈ (List.range written.ops.length).filter (written.isListed table) :=
    mem_filter.mpr ⟨mem_range.mpr lists.1, lists.2⟩
  obtain ⟨frame, got, isFrame⟩ := forall₂_mem_right (mapFrames_ok mapped).flip mem
  exact ⟨frame, got, isFrame.offset_eq⟩

lemma lists_of_frame (mapped : written.mapFrames table = .ok frames) {frame : MapFrame}
    (mem : frame ∈ frames) :
    ∃ index, written.Lists table index ∧ written.IsFrameAt table index frame := by
  obtain ⟨index, listed, isFrame⟩ := forall₂_mem_right (mapFrames_ok mapped) mem
  obtain ⟨inside, listed⟩ := mem_filter.mp listed
  exact ⟨index, ⟨mem_range.mp inside, listed⟩, isFrame⟩

/-- What directly follows an instruction after which execution does not go on has a frame. -/
def EndsListed (written : Written) (table : FrameTable) (first second : Placed (Op Nat)) : Prop :=
  first.op.endsFlow = true →
    ∃ goal, written.Lists table goal ∧ second.offset = written.layout.offset goal

lemma endsListed_nops (offset count : Nat) :
    (nops offset count).IsChain (EndsListed written table) := by
  refine Pairwise.isChain (pairwise_of_forall_mem_list fun first mem _ _ ends => ?_)
  rw [nops_plain mem] at ends
  cases ends

lemma formsAt_isChain (written : Written) (table : FrameTable) (op : Op Nat) (index : Nat) :
    (written.formsAt op index).IsChain (EndsListed written table) := by
  unfold formsAt
  split
  · cases inverted : written.layout.isInverted op index with
    | true =>
      obtain ⟨wide, condition, goal, rfl⟩ := Layout.inverted_branch inverted
      rw [Layout.forms_inverted wide, isChain_cons_cons]
      exact ⟨(by rintro ⟨⟩), .singleton _⟩
    | false =>
      rw [Layout.forms_plain inverted]
      exact .singleton _
  · unfold fillerForms
    split
    · refine isChain_append.mpr ⟨endsListed_nops _ _, .singleton _, fun first mem _ _ ends => ?_⟩
      rw [nops_plain (mem_of_getLast? mem)] at ends
      cases ends
    · exact endsListed_nops _ _

namespace IsFramed

section

variable (framed : written.IsFramed table)
include framed

lemma lists_of_needsFrame (needs : written.code.NeedsFrame index) : written.Lists table index := by
  refine ⟨framed.lt_of_reaches needs.reaches, ?_⟩
  rw [isListed_of_reached ((framed.follows.reaches index).mpr needs.reaches),
    decide_eq_true ((framed.follows.required index).mpr needs), Bool.true_or]

lemma lists_after_inverted (got : written.ops[index]? = some op)
    (inverted : written.layout.isInverted op index = true)
    (reached : written.code.Reaches (index + 1)) : written.Lists table (index + 1) := by
  refine ⟨framed.lt_of_reaches reached, ?_⟩
  rw [isListed_of_reached ((framed.follows.reaches _).mpr reached), isSoBefore, Layout.splits,
    got, Option.map_some, inverted, Option.getD_some, Bool.or_true]

/-- A frame is written where a part of the code starts that is never reached. -/
lemma lists_dead (inside : index < written.ops.length)
    (dead : ¬written.code.Reaches index)
    (first : ∀ previous, index = previous + 1 → written.code.Reaches previous) :
    written.Lists table index := by
  refine ⟨inside, ?_⟩
  rw [isListed_of_dead (by rwa [← Bool.not_eq_true, framed.follows.reaches])]
  cases index with
  | zero => rfl
  | succ previous => simp [isSoBefore, (framed.follows.reaches previous).mpr (first previous rfl)]

/-- All instructions that are found jump to frames. -/
lemma formsAt_targets (got : written.ops[index]? = some op) {placed : Placed (Op Nat)}
    (mem : placed ∈ written.formsAt op index) {target : Nat}
    (jumps : target ∈ placed.op.targets) :
    ∃ goal, written.Lists table goal ∧ target = written.layout.offset goal := by
  unfold formsAt at mem
  split at mem
  · next kept =>
    have reached := framed.isKept_iff.mp kept
    cases inverted : written.layout.isInverted op index with
    | true =>
      obtain ⟨wide, condition, goal, rfl⟩ := Layout.inverted_branch inverted
      rw [Layout.forms_inverted wide] at mem
      simp only [mem_cons, not_mem_nil, or_false] at mem
      rcases mem with rfl | rfl
      · exact ⟨index + 1, framed.lists_after_inverted got inverted
          (framed.next_reached got reached rfl), by simpa [Op.targets] using jumps⟩
      · exact ⟨goal, framed.lists_of_needsFrame
          (framed.target_needsFrame got reached (by simp [Op.targets])),
          by simpa [Op.targets] using jumps⟩
    | false =>
      rw [Layout.forms_plain inverted, mem_singleton] at mem
      rw [mem, Op.targets_map, mem_map] at jumps
      obtain ⟨goal, uses, rfl⟩ := jumps
      exact ⟨goal, framed.lists_of_needsFrame (framed.target_needsFrame got reached uses), rfl⟩
  · rw [fillerForms_plain mem] at jumps
    cases jumps

/-- Where the instructions that are found for one end execution, a frame follows. -/
lemma lists_after (got : written.ops[index]? = some op)
    (inside : index + 1 < written.ops.length) {placed : Placed (Op Nat)}
    (last : placed ∈ (written.formsAt op index).getLast?) (ends : placed.op.endsFlow = true) :
    written.Lists table (index + 1) := by
  unfold formsAt at last
  split at last
  · next kept =>
    have reached := framed.isKept_iff.mp kept
    cases inverted : written.layout.isInverted op index with
    | true =>
      obtain ⟨_, condition, goal, rfl⟩ := Layout.inverted_branch inverted
      exact framed.lists_after_inverted got inverted
        (framed.next_reached got reached rfl)
    | false =>
      rw [Layout.forms_plain inverted, getLast?_singleton, Option.mem_some_iff] at last
      rw [← last, Op.endsFlow_map] at ends
      by_cases next : written.code.Reaches (index + 1)
      · exact framed.lists_of_needsFrame (framed.after_needsFrame got reached ends next)
      · exact framed.lists_dead inside next fun previous same => by
          cases same
          exact reached
  · next dropped =>
    have dead : ¬written.code.Reaches index := fun reached => dropped (framed.isKept_iff.mpr reached)
    cases isLast : written.endsReplaced index with
    | true =>
      have next : written.isKept (index + 1) = true := by
        simpa [endsReplaced, ne_of_lt inside] using isLast
      exact framed.lists_of_needsFrame ((framed.isKept_iff.mp next).needsFrame dead)
    | false =>
      rw [isLast, fillerForms, if_neg Bool.false_ne_true] at last
      rw [nops_plain (mem_of_getLast? last)] at ends
      cases ends

end

lemma formsFrom_isChain (framed : written.IsFramed table) {before part : List (Op Nat)}
    (equal : written.ops = before ++ part) :
    (written.formsFrom before.length part).IsChain (EndsListed written table) := by
  induction part generalizing before with
  | nil => exact .nil
  | cons op rest ih =>
    have got : written.ops[before.length]? = some op := by simp [equal]
    have tail := @ih (before ++ [op]) (by simp [equal])
    rw [length_append, length_singleton] at tail
    rw [formsFrom_cons]
    refine isChain_append.mpr ⟨formsAt_isChain written table op _, tail,
      fun first last second head ends => ?_⟩
    -- The next instruction is the first that is found for the one that has been placed behind.
    cases rest with
    | nil => cases head
    | cons next rest =>
      have inside : before.length + 1 < written.ops.length := by simp [equal]
      refine ⟨before.length + 1, framed.lists_after got inside last ends, ?_⟩
      have stands := formsAt_head written next (before.length + 1)
      rw [formsFrom_cons, head?_append, Option.mem_def] at head
      cases found : (written.formsAt next (before.length + 1)).head? with
      | none =>
        rw [found] at stands
        cases stands
      | some placed =>
        rw [found] at stands head
        cases head
        exact Option.some.inj stands

end IsFramed

end Written

end Encode

end JvmAsm
