/-
Says what the attributes of a declaration do when they are read: each of them has an effect on what
has been read so far, and all of them together have all effects.
-/
import JvmAsm.Proofs.Encode.Basic

namespace JvmAsm

open Binary List Decode

variable {α σ δ : Type} {before : PoolBuilder → Prop}
variable {pool : PoolBuilder} {pairs : List (String × List UInt8)} {found : List (List UInt8)}
variable {xs : List α} {bytes : List UInt8} {after : List UInt8 → PoolBuilder → Prop}
variable {value : Option α} {pair : String × List UInt8} {step : σ → String → Nat → ByteReader σ}

/-- What attributes do to what has been read so far, and when they do it. -/
structure Effect (σ : Type) where
  applies : σ → Prop
  apply : σ → σ

/-- A part of what has been read, which can be replaced. -/
structure Part (σ α : Type) where
  get : σ → α
  set : σ → α → σ
  get_set : ∀ whole part, get (set whole part) = part := by intros; rfl
  set_get : ∀ whole, set whole (get whole) = whole := by intros; rfl
  set_set : ∀ whole part part', set (set whole part) part' = set whole part' := by intros; rfl

@[simp] def Part.whole : Part σ σ where
  get whole := whole
  set _ part := part

@[simp] def Part.comp (outer : Part δ σ) (inner : Part σ α) : Part δ α where
  get whole := inner.get (outer.get whole)
  set whole part := outer.set whole (inner.set (outer.get whole) part)
  get_set := by simp [outer.get_set, inner.get_set]
  set_get := by simp [outer.set_get, inner.set_get]
  set_set := by simp [outer.get_set, outer.set_set, inner.set_set]

/-- What is read from an attribute that is written for a list unless the list is empty. -/
def given (xs : List α) : Option (List α) := if xs.isEmpty then none else some xs

@[simp] lemma given_getD (xs : List α) : (given xs).getD [] = xs := by
  cases xs <;> rfl

lemma given_of_ne (some : xs ≠ []) : given xs = .some xs := by
  rw [given, if_neg (by simpa using some)]

namespace Effect

/-- The slot has been empty, and the value in it can be read. -/
@[simp] def fill (slot : Part σ (Option α)) (value : Option α) (good : Prop) : Effect σ :=
  ⟨fun state => slot.get state = none ∧ good, fun state => slot.set state value⟩

/-- The effects of several attributes, one after the other. -/
@[simp] def chain : List (Effect σ) → Effect σ
  | [] => ⟨fun _ => True, id⟩
  | first :: rest =>
    ⟨fun state => first.applies state ∧ (chain rest).applies (first.apply state),
      fun state => (chain rest).apply (first.apply state)⟩

end Effect

def ReadsAttributes (step : σ → String → Nat → ByteReader σ) :
    σ → List (String × List UInt8) → σ → Prop
  | first, [], last => first = last
  | first, (name, contents) :: rest, last =>
    ∃ next, Reads (step first name contents.length) contents next ∧
      ReadsAttributes step next rest last

lemma ReadsAttributes.append {first middle last : σ} {more : List (String × List UInt8)}
    (read : ReadsAttributes step first pairs middle)
    (readMore : ReadsAttributes step middle more last) :
    ReadsAttributes step first (pairs ++ more) last := by
  induction pairs generalizing first with
  | nil =>
    obtain rfl : first = middle := read
    exact readMore
  | cons pair rest ih =>
    obtain ⟨next, head, tail⟩ := read
    exact ⟨next, head, ih tail⟩

namespace PoolBuilder

/-- The bytes of an attribute with the given name and contents. -/
def IsAttribute (pool : PoolBuilder) (pair : String × List UInt8) (bytes : List UInt8) : Prop :=
  ∃ index, pool.Refers PoolTable.text index pair.1 ∧ pair.2.length ≤ 0xffffffff ∧
    bytes = bytes16 index ++ (bytes32 (UInt32.ofNat pair.2.length) ++ pair.2)

/-- The attributes have the effect when they are read, if their names and contents are allowed. -/
def Affects (pool : PoolBuilder)
    (step : PoolTable → PoolTable.Bootstrap → σ → String → Nat → ByteReader σ)
    (allowed : String × List UInt8 → Prop) (effect : Effect σ) (found : List (List UInt8)) : Prop :=
  ∃ pairs, Forall₂ pool.IsAttribute pairs found ∧
    ∀ ⦃table : PoolTable⦄ ⦃boots : PoolTable.Bootstrap⦄, table.Agrees boots pool →
      (∀ pair ∈ pairs, allowed pair) → ∀ state, effect.applies state →
        ReadsAttributes (step table boots) state pairs (effect.apply state)

end PoolBuilder

lemma contents_isInfix (named : Forall₂ pool.IsAttribute pairs found)
    (mem : pair ∈ pairs) : pair.2 <:+: found.flatten := by
  obtain ⟨bytes, got, index, _, _, rfl⟩ := forall₂_mem_right named.flip mem
  have last : pair.2 <:+: bytes16 index ++ (bytes32 (UInt32.ofNat pair.2.length) ++ pair.2) := by
    rw [← append_assoc]
    exact (suffix_append _ _).isInfix
  exact last.trans (infix_of_mem_flatten got)

/-- Attributes are read from their bytes, with their number in front. -/
lemma attributes_reads {table : PoolTable} (has : table.Has pool)
    (named : Forall₂ pool.IsAttribute pairs found) (fits : found.length ≤ 0xffff) {first last : σ}
    (read : ReadsAttributes step first pairs last) :
    Reads (attributes table step first)
      (bytes16 (UInt16.ofNat found.length) ++ found.flatten) last := by
  apply (Reads.u16 _).bind
  rw [UInt16.toNat_ofNat_of_lt' (Nat.lt_succ_of_le fits)]
  clear fits
  induction named generalizing first with
  | nil =>
    obtain rfl : first = last := read
    exact Reads.pure _
  | @cons pair bytes pairs found here _ ih =>
    obtain ⟨index, refers, fits, rfl⟩ := here
    obtain ⟨next, head, tail⟩ := read
    rw [length_cons, flatten_cons, append_assoc, append_assoc]
    refine (Reads.u16 index).bind ?_
    rw [← nil_append (bytes32 _ ++ _)]
    refine (Reads.ofResult (refers.2 table has)).bind ((Reads.u32 _).bind ?_)
    rw [UInt32.toNat_ofNat_of_lt' (Nat.lt_succ_of_le fits)]
    exact head.bind (ih tail)

namespace Decode

variable {reader : ByteReader α}

@[simp] def Marks.deprecated (isMarked : Bool) (marks : Marks) : Marks :=
  { marks with isDeprecated := marks.isDeprecated || isMarked }

@[simp] def Marks.synthetic (isMarked : Bool) (marks : Marks) : Marks :=
  { marks with isSynthetic := marks.isSynthetic || isMarked }

lemma contents_reads {value : α} (name : String) (read : Reads reader bytes value) :
    Reads (contents name bytes.length reader) bytes value := by
  intro offset
  refine (ReadsAt.offset offset).bind ((read.within _ offset).bind_pure
    ((ReadsAt.offset _).bind_pure ?_))
  rw [if_neg (by simp)]
  exact ReadsAt.pure _ value

lemma once_reads {value : α} (name : String) (outline : α → Outline)
    (read : Reads reader bytes value) :
    Reads (once name bytes.length outline none reader) bytes (some value) :=
  (contents_reads name read).made _

lemma raw_reads (name : String) (bytes : List UInt8) :
    Reads (raw name bytes.length) bytes ⟨name, bytes⟩ :=
  ((Reads.bytes bytes).within _).made _

end Decode

namespace Encode

variable {encoder : List α → Encoder (List UInt8)} {name : String}

section Named

lemma name_yields (name : String) :
    Yields before (utf8 name) fun bytes pool =>
      ∃ index, bytes = bytes16 index ∧ pool.Refers PoolTable.text index name :=
  (onPool_yields (PoolBuilder.utf8_yields name)).bind fun index =>
    .pure fun _ known => ⟨index, rfl, known.2⟩

lemma length_yields (cause : EncodingCause) (count : Nat) :
    Yields before (within cause (ofResult (size32 count))) fun bytes _ =>
      count ≤ 0xffffffff ∧ bytes = bytes32 (UInt32.ofNat count) :=
  within_yields (ofResult_yields fun _ sized _ _ => size32_ok sized)

lemma namedAfter_yields {encoder : Encoder (List UInt8)} (yields : Yields before encoder after) :
    Yields before (namedAfter name encoder) fun bytes pool =>
      ∃ contents, after contents pool ∧ pool.IsAttribute (name, contents) bytes := by
  refine yields.bind fun contents => (name_yields name).bind fun nameBytes =>
    (length_yields _ _).bind fun length => .pure ?_
  rintro pool ⟨⟨⟨_, known⟩, index, rfl, refers⟩, fits, rfl⟩
  exact ⟨contents, known, index, refers, fits, append_assoc _ _ _⟩

lemma namedBefore_yields {encoder : Encoder (List UInt8)} (yields : Yields before encoder after) :
    Yields before (namedBefore name encoder) fun bytes pool =>
      ∃ contents, after contents pool ∧ pool.IsAttribute (name, contents) bytes := by
  refine (name_yields name).bind fun nameBytes =>
    (yields.strengthen fun _ known => known.1).bind fun contents =>
      (length_yields _ _).bind fun length => .pure ?_
  rintro pool ⟨⟨⟨_, index, rfl, refers⟩, known⟩, fits, rfl⟩
  exact ⟨contents, known, index, refers, fits, append_assoc _ _ _⟩

lemma rawAttribute_yields (kept : RawAttribute) :
    Yields before (rawAttribute kept) fun bytes pool =>
      pool.IsAttribute (kept.name, kept.bytes) bytes := by
  refine (name_yields kept.name).bind fun nameBytes => (length_yields _ _).bind fun length =>
    .pure ?_
  rintro pool ⟨⟨_, index, rfl, refers⟩, fits, rfl⟩
  exact ⟨index, refers, fits, append_assoc _ _ _⟩

end Named

section Effects

variable {step : PoolTable → PoolTable.Bootstrap → σ → String → Nat → ByteReader σ}
  {allowed : String × List UInt8 → Prop} {effect : Effect σ}

abbrev Causes (before : PoolBuilder → Prop)
    (step : PoolTable → PoolTable.Bootstrap → σ → String → Nat → ByteReader σ)
    (allowed : String × List UInt8 → Prop) (encoder : AttributeEncoder) (effect : Effect σ) :
    Prop :=
  Yields before encoder fun found pool => pool.Affects step allowed effect found

lemma single_affects (named : pool.IsAttribute pair bytes)
    (read : ∀ ⦃table : PoolTable⦄ ⦃boots : PoolTable.Bootstrap⦄, table.Agrees boots pool →
      allowed pair → ∀ state, effect.applies state →
        Reads (step table boots state pair.1 pair.2.length) pair.2 (effect.apply state)) :
    pool.Affects step allowed effect [bytes] := by
  refine ⟨[pair], .cons named .nil, ?_⟩
  exact fun table boots agrees allows state applies =>
    ⟨_, read agrees (allows pair mem_cons_self) state applies, rfl⟩

/-- No attributes have no effect. -/
lemma none_affects (same : ∀ state, effect.applies state → effect.apply state = state) :
    pool.Affects step allowed effect [] :=
  ⟨[], .nil, fun _ _ _ _ state applies => (same state applies).symm⟩

lemma append_affects {first second : Effect σ} {more : List (List UInt8)}
    (affects : pool.Affects step allowed first found)
    (affectsMore : pool.Affects step allowed second more) :
    pool.Affects step allowed
      ⟨fun state => first.applies state ∧ second.applies (first.apply state),
        fun state => second.apply (first.apply state)⟩ (found ++ more) := by
  obtain ⟨pairs, named, read⟩ := affects
  obtain ⟨pairs', named', read'⟩ := affectsMore
  refine ⟨pairs ++ pairs', rel_append named named', ?_⟩
  intro table boots agrees allows state applies
  rw [forall_mem_append] at allows
  exact (read agrees allows.1 state applies.1).append
    (read' agrees allows.2 _ applies.2)

lemma both_yields {first second : AttributeEncoder} {effect' : Effect σ}
    (causes : Causes before step allowed first effect)
    (causes' : Causes before step allowed second effect') :
    Causes before step allowed (do return (← first) ++ (← second)) (.chain [effect, effect']) := by
  refine causes.bind fun found =>
    (causes'.strengthen fun _ known => known.1).bind fun more =>
      .pure fun pool known => ?_
  rw [← append_nil more]
  exact append_affects known.1.2 (append_affects known.2 (none_affects fun _ _ => rfl))

/-- An attribute that is there if a condition holds. -/
lemma attributeIf_yields {got : Bool} {encoder : Encoder (List UInt8)}
    (yields : got = true → Yields before encoder fun bytes pool =>
      pool.Affects step allowed effect [bytes])
    (same : got = false → ∀ state, effect.applies state → effect.apply state = state) :
    Causes before step allowed (attributeIf got encoder) effect := by
  cases got with
  | true => exact (yields rfl).bind fun bytes => .pure fun _ known => known.2
  | false => exact .pure fun _ _ => none_affects (same rfl)

/-- An attribute that is there if a value is given. -/
lemma attributeOf_yields {encoder : α → Encoder (List UInt8)}
    (yields : ∀ given, value = some given → Yields before (encoder given) fun bytes pool =>
      pool.Affects step allowed effect [bytes])
    (same : value = none → ∀ state, effect.applies state → effect.apply state = state) :
    Causes before step allowed (attributeOf value encoder) effect := by
  cases value with
  | some given => exact (yields given rfl).bind fun bytes => .pure fun _ known => known.2
  | none => exact .pure fun _ _ => none_affects (same rfl)

/-- An attribute that is there if a list is not empty. -/
lemma attributeOfList_yields
    (yields : xs ≠ [] → Yields before (encoder xs) fun bytes pool =>
      pool.Affects step allowed effect [bytes])
    (same : xs = [] → ∀ state, effect.applies state → effect.apply state = state) :
    Causes before step allowed (attributeOfList xs encoder) effect := by
  refine attributeIf_yields (fun got => yields ?_) fun empty => same (by simpa using empty)
  rintro rfl
  simp at got

section Slots

/-- An attribute with the name is read once, into the slot. -/
def FillsOnce (step : PoolTable → PoolTable.Bootstrap → σ → String → Nat → ByteReader σ)
    (slot : Part σ (Option α)) (name : String) (outline : α → Outline)
    (reader : PoolTable → PoolTable.Bootstrap → ByteReader α) : Prop :=
  ∀ table boots state length, step table boots state name length = do
    return slot.set state
      (← once name length outline (slot.get state) (reader table boots))

variable {slot : Part σ (Option α)} {name : String} {good : Prop} {outline : α → Outline}
  {reader : PoolTable → PoolTable.Bootstrap → ByteReader α}

lemma fill_affects
    (fills : FillsOnce step slot name outline reader) {value : α}
    {contents : List UInt8} (encodes : good → pool.Encodes reader contents value)
    (named : pool.IsAttribute (name, contents) bytes) :
    pool.Affects step allowed (.fill slot (some value) good) [bytes] := by
  refine single_affects named fun table boots agrees _ state applies => ?_
  have read := once_reads name outline (encodes applies.2 agrees)
  rw [← applies.1] at read
  rw [fills]
  exact read.made _

lemma fill_none {state : σ} (applies : (Effect.fill slot none good).applies state) :
    (Effect.fill slot none good).apply state = state := by
  change slot.set state none = state
  rw [← applies.1, slot.set_get]

lemma fillOf_yields {encoder : α → Encoder (List UInt8)}
    (written : ∀ found, value = some found → Yields before (encoder found) fun bytes pool =>
      ∃ contents, (good → pool.Encodes reader contents found) ∧
        pool.IsAttribute (name, contents) bytes)
    (fills : FillsOnce step slot name outline reader) :
    Causes before step allowed (attributeOf value encoder) (.fill slot value good) := by
  refine attributeOf_yields ?_ ?_
  · rintro found rfl
    refine (written found rfl).weaken ?_
    rintro bytes pool _ ⟨contents, encodes, named⟩
    exact fill_affects fills encodes named
  · rintro rfl state applies
    exact fill_none applies

/-- An attribute for a value that may be missing, where each value is read back. -/
lemma plainOf_yields (slot : Part σ (Option α)) {encoder : α → Encoder (List UInt8)}
    (written : ∀ found, value = some found → Yields before (encoder found) fun bytes pool =>
      ∃ contents, pool.Encodes reader contents found ∧ pool.IsAttribute (name, contents) bytes)
    (fills : FillsOnce step slot name outline reader) :
    Causes before step allowed (attributeOf value encoder) (.fill slot value True) := by
  refine fillOf_yields (fun found given => (written found given).weaken ?_) fills
  rintro bytes pool _ ⟨contents, encodes, named⟩
  exact ⟨contents, fun _ => encodes, named⟩

lemma FillsOnce.comp {outer : PoolTable → PoolTable.Bootstrap → δ → String → Nat → ByteReader δ}
    {part : Part δ σ} (fills : FillsOnce step slot name outline reader)
    (via : ∀ table boots whole length, outer table boots whole name length = do
      return part.set whole (← step table boots (part.get whole) name length)) :
    FillsOnce outer (part.comp slot) name outline reader := by
  intro table boots whole length
  rw [via, fills]
  simp only [bind_assoc, pure_bind, Part.comp]

end Slots

section ListSlots

variable {slot : Part σ (Option (List α))} {name : String} {good : Prop} {outline : List α → Outline}
  {reader : PoolTable → PoolTable.Bootstrap → ByteReader (List α)}

lemma fillOfList_yields (written : Yields before (encoder xs) fun bytes pool =>
      ∃ contents, (good → pool.Encodes reader contents xs) ∧
        pool.IsAttribute (name, contents) bytes)
    (fills : FillsOnce step slot name outline reader) :
    Causes before step allowed (attributeOfList xs encoder)
      (.fill slot (given xs) good) := by
  refine attributeOfList_yields (fun some => ?_) ?_
  · refine written.weaken ?_
    rintro bytes pool _ ⟨contents, encodes, named⟩
    rw [given_of_ne some]
    exact fill_affects fills encodes named
  · rintro rfl state applies
    exact fill_none applies

lemma plainOfList_yields (slot : Part σ (Option (List α)))
    (written : Yields before (encoder xs) fun bytes pool =>
      ∃ contents, pool.Encodes reader contents xs ∧ pool.IsAttribute (name, contents) bytes)
    (fills : FillsOnce step slot name outline reader) :
    Causes before step allowed (attributeOfList xs encoder)
      (.fill slot (given xs) True) := by
  refine fillOfList_yields (written.weaken ?_) fills
  rintro bytes pool _ ⟨contents, encodes, named⟩
  exact ⟨contents, fun _ => encodes, named⟩

end ListSlots

section Marks

variable {part : Part σ Marks}

/-- The effect of a mark that a declaration may have. -/
@[simp] def markEffect (part : Part σ Marks) (mark : Marks → Marks) : Effect σ :=
  ⟨fun _ => True, fun state => part.set state (mark (part.get state))⟩

lemma mark_yields {mark : Bool → Marks → Marks} (isMarked : Bool)
    (none : ∀ marks, mark false marks = marks)
    (steps : ∀ table boots state length, step table boots state name length = do
      contents name length (pure ())
      return part.set state (mark true (part.get state))) :
    Causes before step allowed (attributeIf isMarked (namedBefore name (pure [])))
      (markEffect part (mark isMarked)) := by
  refine attributeIf_yields ?_ ?_
  · rintro rfl
    have empty : Yields before (pure [] : Encoder (List UInt8)) fun bytes _ => bytes = [] :=
      .pure fun _ _ => rfl
    refine (namedBefore_yields empty).weaken ?_
    rintro bytes pool _ ⟨_, rfl, named⟩
    refine single_affects named fun table boots agrees state _ _ => ?_
    rw [steps]
    exact (contents_reads name (Reads.pure ())).made _
  · rintro rfl state _
    change part.set state (mark false (part.get state)) = state
    rw [none, part.set_get]

/-- The marks that a declaration has. -/
lemma marks_yields (part : Part σ Marks) (isDeprecated isSynthetic : Bool)
    (deprecated : ∀ table boots state length,
      step table boots state "Deprecated" length = do
        contents "Deprecated" length (pure ())
        return part.set state { part.get state with isDeprecated := true })
    (synthetic : ∀ table boots state length,
      step table boots state "Synthetic" length = do
        contents "Synthetic" length (pure ())
        return part.set state { part.get state with isSynthetic := true }) :
    Causes before step allowed (marks isDeprecated isSynthetic) (.chain [
      markEffect part (Marks.deprecated isDeprecated),
      markEffect part (Marks.synthetic isSynthetic)]) := by
  refine both_yields (mark_yields isDeprecated ?_ ?_) (mark_yields isSynthetic ?_ ?_)
  · simp [Marks.deprecated]
  · simpa [Marks.deprecated] using deprecated
  · simp [Marks.synthetic]
  · simpa [Marks.synthetic] using synthetic

end Marks

/-- Attributes that are kept as they are, unless one has a name that is read otherwise. -/
lemma rawAttributes_yields {push : σ → RawAttribute → σ} {raws : List RawAttribute}
    (isKept : String → Prop)
    (steps : ∀ name, isKept name → ∀ table boots state length,
      step table boots state name length = do
        return push state (← raw name length)) :
    Causes before step allowed (rawAttributes raws)
      ⟨fun _ => ∀ kept ∈ raws, isKept kept.name, fun state => raws.foldl push state⟩ := by
  have each : ∀ kept ∈ raws, Yields before (rawAttribute kept) fun bytes pool =>
      pool.IsAttribute (kept.name, kept.bytes) bytes := fun kept _ => rawAttribute_yields kept
  refine (Yields.mapM each).weaken fun found pool _ all => ?_
  refine ⟨raws.map fun kept => (kept.name, kept.bytes), ?_, ?_⟩
  · rwa [forall₂_map_left_iff]
  · intro table boots agrees allows state other
    clear all each allows
    change ReadsAttributes _ state _ (raws.foldl push state)
    induction raws generalizing state with
    | nil => rfl
    | cons kept rest ih =>
      refine ⟨push state kept, ?_, ih _ fun kept mem => other kept (.tail _ mem)⟩
      rw [steps kept.name (other kept (.head _))]
      exact (raw_reads kept.name kept.bytes).made _

section Tables

variable {listing : Listing} {encoders rest : List AttributeEncoder}
  {effects restEffects : List (Effect σ)}

section

variable (all : Forall₂ (Causes before step allowed) encoders effects)
include all

/-- Attributes have their effects in the order in which they are encoded. -/
lemma encoders_yields :
    Yields before (encoders.mapM id) fun lists pool =>
      pool.Affects step allowed (Effect.chain effects) lists.flatten := by
  induction all with
  | nil =>
    rw [mapM_nil]
    exact .pure fun _ _ => none_affects fun _ _ => rfl
  | cons first _ ih =>
    rw [mapM_cons]
    refine first.bind fun found =>
      (ih.strengthen fun _ known => known.1).bind fun rest =>
        .pure fun _ known => ?_
    exact append_affects known.1.2 known.2

/-- All attributes of a declaration, with their number in front. -/
lemma attributeTable_yields :
    Yields before (attributeTable listing encoders) fun bytes pool =>
      ∃ found : List (List UInt8), found.length ≤ 0xffff ∧
        bytes = bytes16 (UInt16.ofNat found.length) ++ found.flatten ∧
        pool.Affects step allowed (Effect.chain effects) found := by
  refine (encoders_yields all).bind fun lists => (count16_yields _ _).bind fun count =>
    .pure ?_
  rintro pool ⟨⟨_, affects⟩, fits, rfl⟩
  exact ⟨lists.flatten, fits, rfl, affects⟩

/-- All attributes of a declaration, where the effect of one of them is known after encoding only. -/
lemma attributeTable_choosing {ι : Type} {special : AttributeEncoder} {choice : ι → Effect σ}
    {good : ι → PoolBuilder → Prop}
    (chosen : Yields before special fun found pool =>
      ∃ index, good index pool ∧ pool.Affects step allowed (choice index) found)
    (others : Forall₂ (Causes before step allowed) rest restEffects) :
    Yields before (attributeTable listing (encoders ++ special :: rest)) fun bytes pool =>
      ∃ index, good index pool ∧ ∃ found : List (List UInt8), found.length ≤ 0xffff ∧
        bytes = bytes16 (UInt16.ofNat found.length) ++ found.flatten ∧
        pool.Affects step allowed
          (Effect.chain (effects ++ choice index :: restEffects)) found := by
  have each : Yields before ((encoders ++ special :: rest).mapM id) fun lists pool =>
      ∃ index, good index pool ∧ pool.Affects step allowed
        (Effect.chain (effects ++ choice index :: restEffects)) lists.flatten := by
    induction all with
    | nil =>
      rw [nil_append, mapM_cons]
      refine chosen.bind fun found =>
        ((encoders_yields others).strengthen fun _ known => known.1).bind fun lists =>
          .pure ?_
      rintro pool ⟨⟨_, index, fine, affects⟩, more⟩
      exact ⟨index, fine, append_affects affects more⟩
    | cons first _ ih =>
      rw [cons_append, mapM_cons]
      refine first.bind fun found =>
        (ih.strengthen fun _ known => known.1).bind fun lists =>
          .pure ?_
      rintro pool ⟨⟨_, affects⟩, index, fine, more⟩
      exact ⟨index, fine, append_affects affects more⟩
  refine each.bind fun lists => (count16_yields _ _).bind fun count => .pure ?_
  rintro pool ⟨⟨_, index, fine, affects⟩, fits, rfl⟩
  exact ⟨index, fine, lists.flatten, fits, rfl, affects⟩

end

end Tables

/-- The attributes of a declaration are read back as all of their effects. -/
lemma affects_reads (affects : pool.Affects step allowed effect found)
    (fits : found.length ≤ 0xffff) (allows : ∀ pair, allowed pair) (initial : σ)
    (applies : effect.applies initial) :
    pool.Encodes (fun table boots => attributes table (step table boots) initial)
      (bytes16 (UInt16.ofNat found.length) ++ found.flatten) (effect.apply initial) := by
  obtain ⟨pairs, named, read⟩ := affects
  exact fun table boots agrees =>
    attributes_reads agrees.has named fits
      (read agrees (fun pair _ => allows pair) initial applies)

end Effects

end Encode

end JvmAsm
