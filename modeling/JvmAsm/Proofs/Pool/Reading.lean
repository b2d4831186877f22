/-
Reads back constant pools that have been written: the table that is read has every entry of the pool
at its index.
-/
import JvmAsm.Proofs.Binary
import JvmAsm.Proofs.JavaString
import JvmAsm.Proofs.Pool.Growth
import JvmAsm.Proofs.Result

namespace JvmAsm

open Binary ByteReader List PoolEntry

lemma readUtf8_reads (string : JavaString) (index : Nat) (fits : string.toBytes.length ≤ 0xffff) :
    Reads (readUtf8 index) (bytes16 (UInt16.ofNat string.toBytes.length) ++ string.toBytes)
      (.utf8 string) := by
  apply (Reads.u16 _).bind
  rw [UInt16.toNat_ofNat_of_lt' (Nat.lt_succ_of_le fits)]
  apply (Reads.bytes _).bind_pure
  rw [JavaString.ofBytes_toBytes]
  exact Reads.pure _

lemma readPair_reads (entry : UInt16 → UInt16 → PoolEntry) (first second : UInt16) :
    Reads (readPair entry) (bytes16 first ++ bytes16 second) (entry first second) :=
  (Reads.u16 _).bind ((Reads.u16 _).made _)

lemma PoolEntry.read_reads {entry : PoolEntry} {bytes : List UInt8}
    (written : entry.bytes = .ok bytes) (index : Nat) : Reads (read index) bytes entry := by
  unfold PoolEntry.bytes at written
  cases entry with
  | utf8 string =>
    dsimp only at written
    split at written
    · next length sized =>
      obtain ⟨fits, rfl⟩ := size16_ok sized
      cases written
      exact (Reads.u8 _).bind (readUtf8_reads string index fits)
    · contradiction
  | integer =>
    cases written
    exact (Reads.u8 _).bind ((Reads.i32 _).made _)
  | long =>
    cases written
    exact (Reads.u8 _).bind ((Reads.i64 _).made _)
  | float =>
    cases written
    exact (Reads.u8 _).bind ((Reads.u32 _).made _)
  | double =>
    cases written
    exact (Reads.u8 _).bind ((Reads.u64 _).made _)
  | className | string | methodType | moduleName | packageName =>
    cases written
    exact (Reads.u8 _).bind ((Reads.u16 _).made _)
  | fieldRef | methodRef | interfaceMethodRef | nameAndType | dynamic | invokeDynamic =>
    cases written
    exact (Reads.u8 _).bind (readPair_reads _ _ _)
  | methodHandle =>
    cases written
    exact (Reads.u8 _).bind ((Reads.u8 _).bind ((Reads.u16 _).made _))

/-- The places that some entries take in a table. -/
def PoolEntry.slots : List PoolEntry → List (Option PoolEntry)
  | [] => []
  | entry :: rest => some entry :: if entry.size = 2 then none :: slots rest else slots rest

lemma PoolEntry.slots_length (entries : List PoolEntry) :
    (slots entries).length = totalSize entries := by
  induction entries with
  | nil => rfl
  | cons entry rest ih =>
    have wide := entry.size_cases
    rw [slots, totalSize_cons]
    split <;> simp only [length_cons, ih] <;> omega

lemma PoolEntry.slots_append (first second : List PoolEntry) :
    slots (first ++ second) = slots first ++ slots second := by
  induction first with
  | nil => rfl
  | cons entry rest ih =>
    simp only [cons_append, slots, ih]
    split <;> simp

namespace PoolTable

/-- Entries are read one after the other until all indices are taken. -/
lemma readFrom_reads {entries : List PoolEntry} {chunks : List (List UInt8)}
    (written : Forall₂ (fun entry bytes => entry.bytes = .ok bytes) entries chunks)
    (count fuel : Nat) (found : Array (Option PoolEntry))
    (all : found.size + totalSize entries = count) (enough : entries.length ≤ fuel) :
    Reads (readFrom count fuel found) chunks.flatten (found ++ slots entries) := by
  induction written generalizing fuel found with
  | nil =>
    have stop : readFrom count fuel found = pure found := by
      cases fuel with
      | zero => rfl
      | succ fuel =>
        rw [readFrom, if_neg]
        simp only [totalSize_nil] at all
        omega
    rw [stop]
    simpa [slots] using Reads.pure found
  | @cons entry bytes entries chunks first _ ih =>
    obtain ⟨fuel, rfl⟩ : ∃ n, fuel = n + 1 :=
      ⟨fuel - 1, by simp only [length_cons] at enough; omega⟩
    have wide := entry.size_cases
    simp only [totalSize_cons, length_cons] at all enough
    rw [readFrom, if_pos (by omega)]
    refine (read_reads first _).bind ?_
    have same : found ++ slots (entry :: entries) =
        (if entry.size == 2 then (found.push (some entry)).push none else found.push (some entry)) ++
          slots entries := by
      apply Array.toList_inj.mp
      rcases wide with narrow | wide <;> simp [slots, *]
    rw [same]
    apply ih
    · rcases wide with narrow | wide <;> simp [*] <;> omega
    · omega

/-- The table of a pool, with every entry at its index. -/
def ofEntries (entries : List PoolEntry) : PoolTable :=
  ⟨(#[none] : Array (Option PoolEntry)) ++ slots entries⟩

lemma read_reads {pool : PoolBuilder} {bytes : List UInt8} (wf : pool.WellFormed)
    (written : pool.bytes = .ok bytes) :
    Reads PoolTable.read bytes (ofEntries pool.entries.toList) := by
  obtain ⟨chunks, encoded, equal⟩ := ok_parts written
  obtain rfl := Except.ok.inj equal
  have count : (UInt16.ofNat pool.count).toNat = pool.count :=
    UInt16.toNat_ofNat_of_lt' (Nat.lt_succ_of_le wf.bounded)
  have length : pool.entries.toList.length ≤ totalSize pool.entries.toList := by
    induction pool.entries.toList with
    | nil => simp
    | cons entry rest ih =>
      have wide := entry.size_cases
      simp only [length_cons, totalSize_cons]
      omega
  apply (Reads.u16 _).bind
  rw [count]
  refine (readFrom_reads (ok_mapM_iff.mp encoded) _ _ _ ?_ ?_).bind_pure ?_
  · simp [wf.count]
  · rw [wf.count]
    omega
  · have size : (ofEntries pool.entries.toList).entries.size = pool.count := by
      simp [ofEntries, slots_length, wf.count, add_comm 1]
    rw [if_neg (not_lt.mpr (by rw [← size]; exact le_max_left _ _))]
    exact Reads.made _ (Reads.pure _)

lemma ofEntries_has (pool : PoolBuilder) : (ofEntries pool.entries.toList).Has pool := by
  rintro index entry ⟨before, after, entries, rfl⟩
  rw [entries, ofEntries, slots_append, ← slots_length]
  simp [add_comm 1, slots]

end PoolTable

end JvmAsm
