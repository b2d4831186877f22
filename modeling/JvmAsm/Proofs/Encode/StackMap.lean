/-
Reads tables of frames by the rules for class files, and shows that the frames that have been
written are read back.
-/
import JvmAsm.Proofs.Encode.Basic
import JvmAsm.StackMap

namespace JvmAsm

open Binary ByteReader List UInt16

namespace StackMap

/-- The number of bytes of an item. -/
def Item.size : Item → Nat
  | .object _ | .uninitialized _ => 3
  | _ => 1

def totalSize (items : List Item) : Nat := (items.map Item.size).sum

/-- The number of bytes of a frame in a form, with the distance from the frame before it. -/
def Form.size (delta : Nat) (frame : MapFrame) : Form → Nat
  | .same => if delta ≤ 63 then 1 else 3
  | .sameWithItem item => (if delta ≤ 63 then 1 else 3) + item.size
  | .chop _ => 3
  | .append items => 3 + totalSize items
  | .full => 7 + totalSize frame.locals + totalSize frame.stack

def readItem (table : PoolTable) : ByteReader Item := do
  match ← u8 with
  | 0 => return .top
  | 1 => return .int
  | 2 => return .float
  | 3 => return .double
  | 4 => return .long
  | 5 => return .null
  | 6 => return .uninitializedThis
  | 7 => return .object (← Decode.entry table.className)
  | 8 => return .uninitialized (← u16)
  | tag => fail (.unknownElement tag)

/-- A frame whose distance has two bytes of its own, by the type of the frame. -/
def readExtended (table : PoolTable) (previous : List Item) (offset type : Nat) :
    ByteReader MapFrame := do
  if type < 247 then fail (.unknownElement (UInt8.ofNat type))
  else if type = 247 then return ⟨offset, previous, [← readItem table]⟩
  else if type < 251 then
    let count := 251 - type
    if count ≤ previous.length then
      return ⟨offset, previous.take (previous.length - count), []⟩
    else fail .numberTooLarge
  else if type = 251 then return ⟨offset, previous, []⟩
  else if type < 255 then
    return ⟨offset, previous ++ (← many (type - 251) (readItem table)), []⟩
  else
    let locals ← list16 (readItem table)
    return ⟨offset, locals, ← list16 (readItem table)⟩

/-- A frame, given the local variables of the one before it and the first offset behind that. -/
def readFrame (table : PoolTable) (previous : List Item) (next : Nat) : ByteReader MapFrame := do
  let type := (← u8).toNat
  if type < 64 then return ⟨next + type, previous, []⟩
  else if type < 128 then return ⟨next + (type - 64), previous, [← readItem table]⟩
  else readExtended table previous (next + (← u16).toNat) type

def readFrames (table : PoolTable) (previous : List Item) (next : Nat) :
    Nat → ByteReader (List MapFrame)
  | 0 => return []
  | count + 1 => do
    let frame ← readFrame table previous next
    return frame :: (← readFrames table frame.locals (frame.offset + 1) count)

/-- All frames of a table, given the local variables at the start of the code. -/
def readTable (table : PoolTable) (entry : List Item) : ByteReader (List MapFrame) := do
  readFrames table entry 0 (← u16).toNat

variable {before : PoolBuilder → Prop} {table : PoolTable}

def Stands {α : Type} (reader : PoolTable → ByteReader α) (size : Nat) (value : α)
    (bytes : List UInt8) (pool : PoolBuilder) : Prop :=
  bytes.length = size ∧ ∀ table : PoolTable, table.Has pool → Reads (reader table) bytes value

lemma item_yields (item : Item) :
    Yields before item.bytes (Stands readItem item.size item) := by
  cases item with
  | object name =>
    refine (PoolBuilder.className_refers name).bind fun index => .pure ?_
    rintro pool ⟨_, refers⟩
    refine ⟨rfl, fun table has => (Reads.u8 7).bind (Reads.bind_pure ?_ (Reads.pure _))⟩
    exact (Reads.u16 index).bind_pure (Reads.ofResult (refers.2 table has))
  | uninitialized offset =>
    exact .pure fun _ _ => ⟨rfl, fun _ _ =>
      (Reads.u8 8).bind ((Reads.u16 offset).made _)⟩
  | _ => exact .pure fun _ _ => ⟨rfl, fun _ _ => (Reads.u8 _).bind_pure (Reads.pure _)⟩

lemma items_yields (items : List Item) :
    Yields before (itemsBytes items)
      (Stands (fun table => many items.length (readItem table)) (totalSize items) items) := by
  refine (Yields.mapM fun item _ => item_yields item).bind fun chunks => .pure ?_
  rintro pool ⟨_, each⟩
  refine ⟨?_, fun table has => Reads.many (each.flip.imp fun _ _ stands => stands.2 table has)⟩
  have sizes : items.map Item.size = chunks.map length := by
    rw [← forall₂_eq_eq_eq, forall₂_map_left_iff, forall₂_map_right_iff]
    exact each.imp fun _ _ stands => stands.1.symm
  rw [totalSize, sizes, length_flatten]

lemma count_yields (items : List Item) :
    Yields before (countBytes items) fun bytes _ =>
      items.length ≤ 0xffff ∧ bytes = bytes16 (ofNat items.length) := by
  unfold countBytes
  split
  · next sized => exact .pure fun _ _ => size16_ok sized
  · exact .throw

/-- Items that stand after their number. -/
lemma Stands.list16 {items : List Item} {bytes : List UInt8} {pool : PoolBuilder}
    (few : items.length ≤ 0xffff)
    (stands : Stands (fun table => many items.length (readItem table)) (totalSize items) items bytes
      pool) (has : table.Has pool) :
    Reads (ByteReader.list16 (readItem table)) (bytes16 (ofNat items.length) ++ bytes)
      items := by
  apply (Reads.u16 _).bind
  rw [toNat_ofNat_of_lt' (Nat.lt_succ_of_le few)]
  exact stands.2 table has

/-- What a form says about a frame. -/
def Form.Describes (previous : List Item) (frame : MapFrame) : Form → Prop
  | .same => frame.stack = [] ∧ frame.locals = previous
  | .sameWithItem item => frame.stack = [item] ∧ frame.locals = previous
  | .chop count => frame.stack = [] ∧ 0 < count ∧ count ≤ maxChange ∧ count ≤ previous.length ∧
    frame.locals = previous.take (previous.length - count)
  | .append items => frame.stack = [] ∧ 0 < items.length ∧ items.length ≤ maxChange ∧
    frame.locals = previous ++ items
  | .full => True

variable {previous : List Item} {frame : MapFrame} {delta next : Nat}

lemma formOf_describes : (formOf previous frame).Describes previous frame := by
  unfold formOf
  split
  · next empty =>
    split_ifs with same chopped appended
    · exact ⟨empty, same⟩
    · obtain ⟨fewer, few, isPrefix⟩ := chopped
      have taken := prefix_iff_eq_take.mp (List.isPrefixOf_iff_prefix.mp isPrefix)
      refine ⟨empty, by omega, few, by omega, ?_⟩
      rwa [Nat.sub_sub_self (le_of_lt fewer)]
    · obtain ⟨more, few, isPrefix⟩ := appended
      have joined := prefix_iff_eq_append.mp (List.isPrefixOf_iff_prefix.mp isPrefix)
      refine ⟨empty, ?_, ?_, joined.symm⟩ <;> rw [length_drop] <;> omega
    · trivial
  · next item single =>
    split_ifs with same
    · exact ⟨single, same⟩
    · trivial
  · trivial

section Forms

variable {type : Nat} {bytes : List UInt8}

lemma readFrame_extended (large : 128 ≤ type) (isByte : type < 0x100) (fits : delta ≤ 0xffff)
    (stands : frame.offset = next + delta)
    (reads : Reads (readExtended table previous frame.offset type) bytes frame) :
    Reads (readFrame table previous next)
      (UInt8.ofNat type :: (bytes16 (ofNat delta) ++ bytes)) frame := by
  refine (Reads.u8 _).bind ?_
  dsimp only
  rw [UInt8.toNat_ofNat_of_lt' isByte, if_neg (by omega), if_neg (by omega)]
  refine (Reads.u16 _).bind ?_
  rwa [toNat_ofNat_of_lt' (Nat.lt_succ_of_le fits), ← stands]

lemma readFrame_same {locals : List Item} (fits : delta ≤ 0xffff) :
    Reads (readFrame table locals next)
      (if delta ≤ 63 then [UInt8.ofNat delta] else 251 :: bytes16 (ofNat delta))
      ⟨next + delta, locals, []⟩ := by
  split
  · next short =>
    refine (Reads.u8 _).bind_pure ?_
    dsimp only
    rw [UInt8.toNat_ofNat_of_lt' (show delta < 0x100 by omega), if_pos (by omega)]
    exact Reads.pure _
  · have reads := @readFrame_extended table locals ⟨next + delta, locals, []⟩ delta next 251 []
      (by decide) (by decide) fits rfl (Reads.pure _)
    rwa [append_nil] at reads

lemma readFrame_sameWithItem {locals : List Item} {item : Item} (fits : delta ≤ 0xffff)
    (reads : Reads (readItem table) bytes item) :
    Reads (readFrame table locals next)
      ((if delta ≤ 63 then [UInt8.ofNat (64 + delta)] else 247 :: bytes16 (ofNat delta)) ++
        bytes) ⟨next + delta, locals, [item]⟩ := by
  split
  · next short =>
    refine (Reads.u8 _).bind ?_
    dsimp only
    rw [UInt8.toNat_ofNat_of_lt' (show 64 + delta < 0x100 by omega), if_neg (by omega),
      if_pos (by omega), Nat.add_sub_cancel_left]
    exact reads.made _
  · exact @readFrame_extended table locals ⟨next + delta, locals, [item]⟩ delta next 247 bytes
      (by decide) (by decide) fits rfl (reads.made _)

end Forms

/-- The bytes are as many as the form needs, and the frame is read from them. -/
lemma frame_yields (delta : Nat) (previous : List Item) (frame : MapFrame) :
    Yields before (frameBytes delta previous frame) fun bytes pool =>
      bytes.length = (formOf previous frame).size delta frame ∧
        ∀ next, delta ≤ 0xffff → frame.offset = next + delta → ∀ table : PoolTable, table.Has pool →
          Reads (readFrame table previous next) bytes frame := by
  have describes := @formOf_describes previous frame
  unfold frameBytes
  generalize formOf previous frame = form at describes
  obtain ⟨offset, locals, stack⟩ := frame
  cases form with
  | same =>
    obtain ⟨rfl, rfl⟩ := describes
    refine .pure fun pool _ => ⟨by simp only [Form.size]; split <;> rfl, ?_⟩
    rintro next fits rfl table has
    exact readFrame_same fits
  | sameWithItem item =>
    obtain ⟨rfl, rfl⟩ := describes
    refine (item_yields item).bind fun bytes => .pure ?_
    rintro pool ⟨_, length, reads⟩
    refine ⟨by simp only [Form.size, length_append, length]; split <;> rfl, ?_⟩
    rintro next fits rfl table has
    exact readFrame_sameWithItem fits (reads table has)
  | chop count =>
    obtain ⟨rfl, positive, few, enough, rfl⟩ := describes
    unfold maxChange at few
    refine .pure fun pool _ => ⟨rfl, fun next fits stands table has => ?_⟩
    have reads : Reads (readExtended table previous offset (251 - count)) []
        ⟨offset, previous.take (previous.length - count), []⟩ := by
      rw [readExtended, if_neg (by omega), if_neg (by omega), if_pos (by omega)]
      dsimp only
      rw [Nat.sub_sub_self (by omega), if_pos enough]
      exact Reads.pure _
    have whole := readFrame_extended (by omega) (by omega) fits stands reads
    rwa [append_nil] at whole
  | append items =>
    obtain ⟨rfl, positive, few, rfl⟩ := describes
    unfold maxChange at few
    refine (items_yields items).bind fun bytes => .pure ?_
    rintro pool ⟨_, length, reads⟩
    refine ⟨by simp [Form.size, length]; omega, fun next fits stands table has => ?_⟩
    refine readFrame_extended (by omega) (by omega) fits stands ?_
    rw [readExtended, if_neg (by omega), if_neg (by omega), if_neg (by omega), if_neg (by omega),
      if_pos (by omega), Nat.add_sub_cancel_left]
    exact (reads table has).made _
  | full =>
    refine (count_yields locals).bind fun localCount => (items_yields locals).bind fun localBytes =>
      (count_yields stack).bind fun stackCount => (items_yields stack).bind fun stackBytes =>
        .pure ?_
    rintro pool ⟨⟨⟨⟨_, fewLocals, rfl⟩, localItems⟩, fewItems, rfl⟩, stackItems⟩
    refine ⟨by simp [Form.size, localItems.1, stackItems.1]; omega, fun next fits stands table has => ?_⟩
    simp only [append_assoc]
    refine @readFrame_extended table previous _ delta next 255 _ (by decide) (by decide) fits stands ?_
    rw [← append_assoc]
    exact (localItems.list16 fewLocals has).bind
      ((stackItems.list16 fewItems has).made _)

/-- Each frame has its own bytes, which are good for it after the frame before it. -/
inductive Chain (good : List Item → Nat → MapFrame → List UInt8 → Prop) :
    List Item → Nat → List MapFrame → List (List UInt8) → Prop
  | nil {previous : List Item} {next : Nat} : Chain good previous next [] []
  | cons {previous : List Item} {next : Nat} {frame : MapFrame} {bytes : List UInt8}
      {rest : List MapFrame} {chunks : List (List UInt8)} (first : good previous next frame bytes)
      (others : Chain good frame.locals (frame.offset + 1) rest chunks) :
      Chain good previous next (frame :: rest) (bytes :: chunks)

def IsWritten (table : PoolTable) (previous : List Item) (next : Nat) (frame : MapFrame)
    (bytes : List UInt8) : Prop :=
  Reads (readFrame table previous next) bytes frame ∧
    bytes.length = (formOf previous frame).size (frame.offset - next) frame

lemma frames_yields (previous : List Item) (next : Nat) (written : Array (List UInt8))
    (frames : List MapFrame) :
    Yields before (framesFrom previous next written frames) fun bytes pool =>
      ∃ chunks, bytes = written.toList.flatten ++ chunks.flatten ∧
        ((frames.map MapFrame.offset).Pairwise (· < ·) →
          (∀ frame ∈ frames, next ≤ frame.offset ∧ frame.offset ≤ 0xffff) →
            ∀ table : PoolTable, table.Has pool →
              Chain (IsWritten table) previous next frames chunks) := by
  induction frames generalizing previous next written before with
  | nil => exact .pure fun _ _ => ⟨[], by simp, fun _ _ _ _ => .nil⟩
  | cons frame rest ih =>
    refine (frame_yields _ _ _).bind fun bytes => (ih _ _ _).weaken ?_
    rintro all pool ⟨_, length, reads⟩ ⟨chunks, rfl, chain⟩
    refine ⟨bytes :: chunks, by simp, fun ordered bounded table has => ?_⟩
    rw [map_cons, pairwise_cons] at ordered
    obtain ⟨least, most⟩ := bounded frame mem_cons_self
    refine .cons ⟨reads next (by omega) (by omega) table has, length⟩
      (chain ordered.2 (fun other mem => ⟨?_, (bounded other (.tail _ mem)).2⟩) table has)
    exact ordered.1 _ (mem_map_of_mem mem)

lemma table_yields (entry : List Item) (frames : List MapFrame) :
    Yields before (tableBytes entry frames) fun bytes pool =>
      ∃ chunks, bytes = bytes16 (ofNat frames.length) ++ chunks.flatten ∧
        frames.length ≤ 0xffff ∧ ((frames.map MapFrame.offset).Pairwise (· < ·) →
          (∀ frame ∈ frames, frame.offset ≤ 0xffff) → ∀ table : PoolTable, table.Has pool →
            Chain (IsWritten table) entry 0 frames chunks) := by
  unfold tableBytes
  split
  · next sized =>
    obtain ⟨few, rfl⟩ := size16_ok sized
    refine (frames_yields entry 0 #[] frames).bind fun bytes => .pure ?_
    rintro pool ⟨_, chunks, rfl, chain⟩
    exact ⟨chunks, rfl, few, fun ordered bounded =>
      chain ordered fun frame mem => ⟨Nat.zero_le _, bounded frame mem⟩⟩
  · exact .throw

end StackMap

end JvmAsm
