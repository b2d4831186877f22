/-
Numbers the labels of code by the order in which their offsets are first asked for, with numbers of
sixteen bits, instead of by the offsets.
-/
import JvmAsm.Proofs.Decode.CodeFormed

namespace JvmAsm

open Decode List

/-- The labels of offsets. The largest number stays the next one once it has been given. -/
structure LabelTable where
  labels : Std.HashMap UInt16 Label := ∅
  next : UInt16 := 0

/-- The ways to ask for the label of an offset, or for those of a range. -/
inductive LabelCall where
  | inside (offset : UInt16)
  | upTo (offset : UInt16)
  | range (start size : UInt16)

/-- The labels that are numbered by their offsets. -/
def LabelCall.read (length : UInt16) : LabelCall → Except Failure (List Label)
  | .inside offset => return [← labelInside length.toNat offset]
  | .upTo offset => return [← labelUpTo length.toNat offset]
  | .range start size => do
    let found ← labelRange length.toNat start size
    return [found.start, found.stop]

/-- What is asked for, up to the first offset that is not allowed. -/
def LabelCall.asked (length : UInt16) : LabelCall → List (Except Failure Label)
  | .inside offset => [labelInside length.toNat offset]
  | .upTo offset => [labelUpTo length.toNat offset]
  | .range start size =>
    if 0xffff < start.toNat + size.toNat then
      [.error (.ofCause (.binary (.rangePastEnd start size)))]
    else [labelInside length.toNat start, labelUpTo length.toNat (start + size)]

namespace LabelTable

variable {length offset : UInt16} {table : LabelTable} {call : LabelCall}

/-- The label of an offset, which is a new one if the offset has none. -/
def label (offset : UInt16) : EStateM Failure LabelTable Label := fun table =>
  match table.labels[offset]? with
  | some label => .ok label table
  | none =>
    .ok ⟨table.next⟩ ⟨table.labels.insert offset ⟨table.next⟩,
      if table.next < 0xffff then table.next + 1 else table.next⟩

/-- The label of an offset that is allowed. -/
def allowed : Except Failure Label → EStateM Failure LabelTable Label
  | .ok found => label found.id
  | .error failure => throw failure

/-- A range whose end is not allowed gives a label to its start all the same. -/
def run (length : UInt16) (call : LabelCall) : EStateM Failure LabelTable (List Label) :=
  (call.asked length).mapM allowed

/-- The table after an action, whether it succeeds or fails. -/
def after {α : Type} (action : EStateM Failure LabelTable α) (table : LabelTable) : LabelTable :=
  match action table with
  | .ok _ later | .error _ later => later

def called (length : UInt16) (table : LabelTable) (call : LabelCall) : LabelTable :=
  after (run length call) table

/-- The labels are numbered in a row, so that the next number is new until all have been given. -/
structure IsNumbered (length : UInt16) (table : LabelTable) : Prop where
  next : table.next.toNat = min table.labels.size 0xffff
  below : ∀ {offset : UInt16} {label}, table.labels[offset]? = some label →
    offset ≤ length ∧ label.id.toNat < table.labels.size
  apart : ∀ {offset offset' : UInt16} {label}, table.labels[offset]? = some label →
    table.labels[offset']? = some label → offset = offset'

def Keeps (table later : LabelTable) : Prop :=
  ∀ {offset : UInt16} {label}, table.labels[offset]? = some label → later.labels[offset]? = some label

/-- If an offset has no label, some number has not been given. -/
lemma size_le (absent : table.labels[offset]? = none) : table.labels.size ≤ 0xffff := by
  have distinct : (offset :: table.labels.keys).Nodup := by
    refine nodup_cons.mpr ⟨?_, ?_⟩
    · rw [Std.HashMap.mem_keys]
      exact by simpa using absent
    · exact table.labels.distinct_keys.imp fun differ => by simpa using differ
  have few := (distinct.map (f := UInt16.toFin) fun _ _ => UInt16.toFin_inj.mp).length_le_card
  simp only [length_map, length_cons, Std.HashMap.length_keys, Fintype.card_fin, UInt16.size] at few
  omega

/-- An offset gets a label without changing those of others. -/
lemma IsNumbered.label (numbered : table.IsNumbered length) (inside : offset ≤ length) :
    ∃ found later, label offset table = .ok found later ∧ later.IsNumbered length ∧
      table.Keeps later ∧ later.labels[offset]? = some found := by
  unfold LabelTable.label
  cases got : table.labels[offset]? with
  | some found => exact ⟨found, table, rfl, numbered, fun kept => kept, got⟩
  | none =>
    have room := size_le got
    have number : table.next.toNat = table.labels.size := by have := numbered.next; omega
    have absent : offset ∉ table.labels := by simpa using got
    have size (label : Label) : (table.labels.insert offset label).size = table.labels.size + 1 := by
      rw [Std.HashMap.size_insert, if_neg absent]
    refine ⟨_, _, rfl, ⟨?_, ?_, ?_⟩, ?_, by simp⟩
    · rw [size]
      split
      · next less =>
        have less := UInt16.lt_iff_toNat_lt.mp less
        rw [UInt16.toNat_add, number]
        rw [number] at less
        change table.labels.size < 0xffff at less
        change (table.labels.size + 1) % 0x10000 = _
        omega
      · next full =>
        have full := not_lt.mp (mt UInt16.lt_iff_toNat_lt.mpr full)
        change 0xffff ≤ _ at full
        change table.next.toNat = _
        omega
    · intro other label found
      rw [Std.HashMap.getElem?_insert] at found
      rw [size]
      split at found
      · next same =>
        cases found
        exact ⟨eq_of_beq same ▸ inside, number ▸ Nat.lt_succ_self _⟩
      · exact (numbered.below found).imp_right (Nat.lt_succ_of_lt ·)
    · -- The new number is not below itself, as those of all other labels are.
      have new {other : UInt16} (found : table.labels[other]? = some ⟨table.next⟩) : False := by
        have less := (numbered.below found).2
        exact absurd number (ne_of_lt less)
      intro first second label found found'
      rw [Std.HashMap.getElem?_insert] at found found'
      split at found <;> split at found'
      · next same same' => exact (eq_of_beq same).symm.trans (eq_of_beq same')
      · cases found
        exact (new found').elim
      · cases found'
        exact (new found).elim
      · exact numbered.apart found found'
    · intro other label found
      have apart : (offset == other) = false := by
        rw [beq_eq_false_iff_ne]
        rintro rfl
        rw [got] at found
        cases found
      rw [Std.HashMap.getElem?_insert, apart]
      exact found

/-- The label of an offset stands for the label that is numbered by the offset. -/
def Means (table : LabelTable) (found label : Label) : Prop :=
  table.labels[found.id]? = some label

/-- What is asked for is answered, or refused for the same reason, and leaves a table behind. -/
def Leaves (table : LabelTable) (asked : Except Failure (List Label))
    (action : EStateM Failure LabelTable (List Label)) (later : LabelTable) : Prop :=
  match asked with
  | .ok found => ∃ labels, action table = .ok labels later ∧ Forall₂ later.Means found labels
  | .error failure => action table = .error failure later

lemma Leaves.after_eq {asked : Except Failure (List Label)} {later : LabelTable}
    {action : EStateM Failure LabelTable (List Label)} (leaves : table.Leaves asked action later) :
    after action table = later := by
  unfold after
  cases asked with
  | error failure => rw [show action table = _ from leaves]
  | ok found =>
    obtain ⟨labels, ran, -⟩ := leaves
    rw [ran]

/-- Labels are given one after the other, and none is lost. -/
lemma IsNumbered.mapM (numbered : table.IsNumbered length) {asked : List (Except Failure Label)}
    (inside : ∀ found, .ok found ∈ asked → found.id ≤ length) :
    ∃ later, later.IsNumbered length ∧ table.Keeps later ∧
      table.Leaves (asked.mapM id) (asked.mapM allowed) later := by
  induction asked generalizing table with
  | nil => exact ⟨table, numbered, fun kept => kept, [], rfl, .nil⟩
  | cons first rest ih =>
    rw [mapM_cons, mapM_cons]
    cases first with
    | error failure => exact ⟨table, numbered, fun kept => kept, rfl⟩
    | ok found =>
      obtain ⟨label, between, ran, numbered', keeps, named⟩ :=
        numbered.label (inside found mem_cons_self)
      obtain ⟨later, numbered'', keeps', leaves⟩ :=
        ih numbered' fun found mem => inside found (mem_cons_of_mem _ mem)
      refine ⟨later, numbered'', fun kept => keeps' (keeps kept), ?_⟩
      unfold Leaves at leaves ⊢
      rw [id, ok_bind]
      cases asked : rest.mapM id with
      | error failure =>
        rw [asked] at leaves
        exact ran_bind ran (failed_bind leaves)
      | ok more =>
        rw [asked] at leaves
        obtain ⟨labels, ran', same⟩ := leaves
        exact ⟨label :: labels, ran_bind ran (ran_bind ran' rfl), .cons (keeps' named) same⟩

lemma labelInside_le {found : Label} (asked : labelInside length.toNat offset = .ok found) :
    found.id ≤ length :=
  UInt16.le_iff_toNat_le.mpr (le_of_lt (labelInside_lt asked))

lemma labelUpTo_le {found : Label} (asked : labelUpTo length.toNat offset = .ok found) :
    found.id ≤ length := by
  unfold labelUpTo at asked
  dsimp only at asked
  split at asked
  · next same =>
    cases asked
    exact UInt16.le_iff_toNat_le.mpr (le_of_eq same)
  · exact labelInside_le asked

lemma asked_le {found : Label} (mem : .ok found ∈ call.asked length) : found.id ≤ length := by
  cases call with
  | inside offset => exact labelInside_le (mem_singleton.mp mem).symm
  | upTo offset => exact labelUpTo_le (mem_singleton.mp mem).symm
  | range start size =>
    rw [LabelCall.asked] at mem
    split at mem
    · cases mem_singleton.mp mem
    · rcases mem_pair.mp mem with first | last
      · exact labelInside_le first.symm
      · exact labelUpTo_le last.symm

lemma read_eq (length : UInt16) (call : LabelCall) :
    call.read length = (call.asked length).mapM id := by
  cases call with
  | inside offset | upTo offset => simp [LabelCall.read, LabelCall.asked]
  | range start size =>
    rw [LabelCall.read, LabelCall.asked]
    unfold labelRange
    dsimp only
    split
    · rfl
    · cases labelInside length.toNat start with
      | error failure => rfl
      | ok first => cases labelUpTo length.toNat (start + size) <;> rfl

lemma IsNumbered.called (numbered : table.IsNumbered length) (call : LabelCall) :
    (table.called length call).IsNumbered length ∧ table.Keeps (table.called length call) ∧
      table.Leaves (call.read length) (run length call) (table.called length call) := by
  obtain ⟨later, numbered', keeps, leaves⟩ := numbered.mapM fun _ => @asked_le _ call _
  rw [LabelTable.called, run, leaves.after_eq, read_eq]
  exact ⟨numbered', keeps, leaves⟩

lemma foldl_called (length : UInt16) (calls : List LabelCall) {table : LabelTable}
    (numbered : table.IsNumbered length) :
    (calls.foldl (called length) table).IsNumbered length := by
  induction calls generalizing table with
  | nil => exact numbered
  | cons call rest ih => exact ih (numbered.called call).1

lemma empty_isNumbered (length : UInt16) : ({} : LabelTable).IsNumbered length :=
  ⟨by simp, by simp, by simp⟩

/--
Whatever labels have been asked for, no two offsets have the same label, no offset behind the code
has one, and the next call keeps all labels. It gives the labels that stand for those numbered by
the offsets, and fails if and as these do.
-/
theorem labels_apart (length : UInt16) (earlier : List LabelCall) (call : LabelCall) :
    let table := earlier.foldl (called length) {}
    (∀ (offset offset' : UInt16) (label : Label), table.labels[offset]? = some label →
      table.labels[offset']? = some label → offset = offset') ∧
    (∀ (offset : UInt16) (label : Label), table.labels[offset]? = some label →
      offset ≤ length ∧ (table.called length call).labels[offset]? = some label) ∧
    table.Leaves (call.read length) (run length call) (table.called length call) := by
  intro table
  have numbered := foldl_called length earlier (empty_isNumbered length)
  obtain ⟨-, keeps, answered⟩ := numbered.called call
  exact ⟨fun _ _ _ => numbered.apart, fun _ _ found => ⟨(numbered.below found).1, keeps found⟩,
    answered⟩

end LabelTable

end JvmAsm
