/-
Shows that frames take as few bytes as they can: whatever bytes are read as a frame after the frame
before it, they are no fewer than those that are written.
-/
import JvmAsm.Proofs.Decode.Spending
import JvmAsm.Proofs.Encode.Assembly
import JvmAsm.Proofs.Pool.Reading

namespace JvmAsm

open Binary List

variable {frames : List MapFrame} {chunks : List (List UInt8)}

namespace StackMap

variable {table : PoolTable} {previous items : List Item} {frame : MapFrame} {delta next : Nat}

lemma readItem_spends : Spends (readItem table) fun cost item => cost = item.size := by
  refine u8_spends.bind fun cost tag one => ?_
  subst one
  split
  iterate 7 exact .pure rfl
  · exact (Decode.entry_spends _).bind fun _ _ known => .pure (by rw [known.1]; rfl)
  · exact u16_spends.bind fun _ _ two => .pure (by rw [two]; rfl)
  · exact .throw

lemma totalSize_le {total : Nat} (totals : Totals (fun cost item => cost = item.size) total items) :
    totalSize items ≤ total := by
  obtain ⟨costs, each, most⟩ := totals
  have sizes : costs = items.map Item.size := by
    rw [← forall₂_eq_eq_eq, forall₂_map_right_iff]
    exact each
  rwa [totalSize, ← sizes]

lemma totalSize_append (first second : List Item) :
    totalSize (first ++ second) = totalSize first + totalSize second := by
  simp [totalSize]

/-- Some form describes the frame that has been read, and needs no more bytes. -/
def Affords (previous : List Item) (next cost : Nat) (frame : MapFrame) : Prop :=
  ∃ form : Form, form.Describes previous frame ∧ form.size (frame.offset - next) frame ≤ cost

lemma readExtended_spends (table : PoolTable) (previous : List Item) (next offset type : Nat)
    (isByte : type < 0x100) :
    Spends (readExtended table previous offset type) fun cost frame =>
      Affords previous next (3 + cost) frame := by
  unfold readExtended
  split_ifs with _ item chop _ same
  · exact .throw
  · refine readItem_spends.bind fun cost item spent => .pure ⟨.sameWithItem item, ⟨rfl, rfl⟩, ?_⟩
    simp only [Form.size]
    split <;> omega
  · dsimp only
    split
    · next enough => exact .pure ⟨.chop (251 - type), ⟨rfl, by omega, by rw [maxChange]; omega, enough, rfl⟩, le_refl 3⟩
    · exact .throw
  · refine .pure ⟨.same, ⟨rfl, rfl⟩, ?_⟩
    simp only [Form.size]
    split <;> omega
  · refine (many_spends readItem_spends _).bind fun cost items known => .pure ?_
    refine ⟨.append items, ⟨rfl, by omega, by rw [maxChange]; omega, rfl⟩, ?_⟩
    exact Nat.add_le_add_left (totalSize_le known.2) 3
  · refine (list16_spends readItem_spends).bind fun cost locals known =>
      (list16_spends readItem_spends).bind fun cost' stack known' => .pure ⟨.full, trivial, ?_⟩
    obtain ⟨total, most, totals⟩ := known.totals
    obtain ⟨total', most', totals'⟩ := known'.totals
    have least := totalSize_le totals
    have least' := totalSize_le totals'
    simp only [Form.size]
    omega

lemma readFrame_spends (table : PoolTable) (previous : List Item) (next : Nat) :
    Spends (readFrame table previous next) (Affords previous next) := by
  refine u8_spends.bind fun cost byte one => ?_
  subst one
  dsimp only
  split_ifs with same item
  · refine .pure ⟨.same, ⟨rfl, rfl⟩, ?_⟩
    simp only [Form.size, Nat.add_sub_cancel_left]
    split <;> omega
  · refine readItem_spends.bind fun cost item spent => .pure ⟨.sameWithItem item, ⟨rfl, rfl⟩, ?_⟩
    simp only [Form.size, Nat.add_sub_cancel_left]
    split <;> omega
  · refine u16_spends.bind fun cost delta two =>
      (readExtended_spends table previous next _ _ byte.toNat_lt).weaken fun more frame affords => ?_
    rw [two]
    convert affords using 1
    omega

lemma formOf_size_le_full : (formOf previous frame).size delta frame ≤ Form.full.size delta frame := by
  have describes := @formOf_describes previous frame
  cases chosen : formOf previous frame with
  | same =>
    simp only [Form.size]
    split <;> omega
  | sameWithItem item =>
    rw [chosen] at describes
    have items : totalSize frame.stack = item.size := by simp [describes.1, totalSize]
    simp only [Form.size, items]
    split <;> omega
  | chop count =>
    simp only [Form.size]
    omega
  | append items =>
    rw [chosen] at describes
    have locals : totalSize frame.locals = totalSize previous + totalSize items := by
      rw [describes.2.2.2, totalSize_append]
    simp only [Form.size, locals]
    omega
  | full => exact le_rfl

/-- The form that is chosen needs the fewest bytes of all that describe the frame. -/
lemma formOf_size_le {form : Form} (describes : form.Describes previous frame) :
    (formOf previous frame).size delta frame ≤ form.size delta frame := by
  cases form with
  | same =>
    obtain ⟨empty, same⟩ := describes
    simp [formOf, empty, same]
  | sameWithItem item =>
    obtain ⟨single, same⟩ := describes
    simp [formOf, single, same]
  | chop count =>
    obtain ⟨empty, positive, few, enough, taken⟩ := describes
    have chosen : formOf previous frame = .chop count := by
      have length : frame.locals.length = previous.length - count := by
        rw [taken, length_take]
        omega
      have differs : frame.locals ≠ previous := fun same => by
        rw [same] at length
        omega
      have isPrefix : frame.locals.isPrefixOf previous = true :=
        isPrefixOf_iff_prefix.mpr (taken ▸ take_prefix _ _)
      simp only [formOf, empty, if_neg differs, length, isPrefix]
      rw [if_pos ⟨by omega, by omega, trivial⟩, Nat.sub_sub_self enough]
    rw [chosen]
  | append items =>
    obtain ⟨empty, positive, few, joined⟩ := describes
    have chosen : formOf previous frame = .append items := by
      have differs : items ≠ [] := length_pos_iff.mp positive
      simp [formOf, empty, joined, differs, few, positive]
    rw [chosen]
  | full => exact formOf_size_le_full

lemma Chain.reads {good : List Item → Nat → MapFrame → List UInt8 → Prop}
    (chain : Chain good previous next frames chunks)
    (each : ∀ previous next frame bytes, good previous next frame bytes →
      Reads (readFrame table previous next) bytes frame) :
    Reads (readFrames table previous next frames.length) chunks.flatten frames := by
  induction chain with
  | nil => exact Reads.pure _
  | cons first _ ih => exact (each _ _ _ _ first).bind (ih.made _)

lemma Chain.imp {good better : List Item → Nat → MapFrame → List UInt8 → Prop}
    (chain : Chain good previous next frames chunks)
    (implies : ∀ previous next frame bytes, good previous next frame bytes →
      better previous next frame bytes) : Chain better previous next frames chunks := by
  induction chain with
  | nil => exact .nil
  | cons first _ ih => exact .cons (implies _ _ _ _ first) ih

def IsShortest (table : PoolTable) (previous : List Item) (next : Nat) (frame : MapFrame)
    (bytes : List UInt8) : Prop :=
  Reads (readFrame table previous next) bytes frame ∧
    ∀ (other : PoolTable) (more : List UInt8), Reads (readFrame other previous next) more frame →
      bytes.length ≤ more.length

lemma IsWritten.isShortest {bytes : List UInt8} (written : IsWritten table previous next frame bytes) :
    IsShortest table previous next frame bytes := by
  refine ⟨written.1, fun other more reads => ?_⟩
  have ran := reads 0 (Cursor.at more 0) [] rfl (append_nil _).symm
  obtain ⟨cost, left, _, form, describes, most⟩ := readFrame_spends other previous next _ _ _ ran
  have least := @formOf_size_le previous frame (frame.offset - next) form describes
  have length := written.2
  simp only [Cursor.skip_rest, length_drop] at left
  omega

/--
The frames that have been written are read back, with every table that has the entries of the pool,
from exactly the bytes of the table. Each of them takes the fewest bytes that are read as it.
-/
theorem readTable_tableBytes {entry : List Item} {pool pool' : PoolBuilder} {bytes : List UInt8}
    (wf : pool.WellFormed) (ordered : (frames.map MapFrame.offset).Pairwise (· < ·))
    (bounded : ∀ frame ∈ frames, frame.offset ≤ 0xffff)
    (written : tableBytes entry frames pool = .ok bytes pool') (has : table.Has pool') :
    Reads (readTable table entry) bytes frames ∧
      ∃ chunks, bytes = bytes16 (UInt16.ofNat frames.length) ++ chunks.flatten ∧
        Chain (IsShortest table) entry 0 frames chunks := by
  have yields : Yields (fun _ => True) (tableBytes entry frames) _ := table_yields entry frames
  obtain ⟨chunks, rfl, few, chain⟩ :=
    (yields pool bytes pool' wf (fun _ _ => trivial) written).2.2 pool' (.refl pool')
  have chain := chain ordered bounded table has
  refine ⟨(Reads.u16 _).bind ?_, chunks, rfl, chain.imp fun _ _ _ _ => IsWritten.isShortest⟩
  rw [UInt16.toNat_ofNat_of_lt' (Nat.lt_succ_of_le few)]
  exact chain.reads fun _ _ _ _ written => written.1

/-- The frame of an exception has one item, whose class is found in the pool. -/
theorem readTable_tableBytes_exception : ∃ table : PoolTable,
    Reads (readTable table []) [0, 1, 65, 7, 0, 2] [⟨1, [], [.object .throwable]⟩] ∧
      ∃ chunks, [0, 1, 65, 7, 0, 2] = bytes16 1 ++ chunks.flatten ∧
        Chain (IsShortest table) [] 0 [⟨1, [], [.object .throwable]⟩] chunks := by
  have ran : (tableBytes [] [⟨1, [], [.object .throwable]⟩]).run' {} = some [0, 1, 65, 7, 0, 2] := by
    cbv
  obtain ⟨_, written⟩ := ran_of_run' ran
  exact ⟨_, readTable_tableBytes PoolBuilder.empty_wellFormed (by decide) (by decide) written
    (PoolTable.ofEntries_has _)⟩

end StackMap

end JvmAsm
