/-
Takes the local variables of code apart into those with a type and those with a signature, and puts
them together again.
-/
import JvmAsm.Decode.Code
import Mathlib

namespace JvmAsm

open List

variable {signed entry : LocalVariable} {locals done : List LocalVariable}

namespace LocalVariable

/-- What the two entries of a local variable have in common. -/
def key (entry : LocalVariable) : LabelRange × String × UInt16 :=
  (entry.range, entry.name, entry.index)

def typed? (entry : LocalVariable) : Option LocalVariable :=
  entry.type.map fun _ => { entry with signature := none }

def signed? (entry : LocalVariable) : Option LocalVariable :=
  entry.signature.map fun _ => { entry with type := none }

def mapLabels (rename : Label → Label) (entry : LocalVariable) : LocalVariable :=
  { entry with range := ⟨rename entry.range.start, rename entry.range.stop⟩ }

variable {rename : Label → Label}

lemma filterMap_typed? (entries : List LocalVariable) :
    (entries.map (mapLabels rename)).filterMap typed? =
      (entries.filterMap typed?).map (mapLabels rename) := by
  rw [filterMap_map, map_filterMap]
  congr 1
  funext entry
  simp [typed?, mapLabels, Function.comp_def]

lemma filterMap_signed? (entries : List LocalVariable) :
    (entries.map (mapLabels rename)).filterMap signed? =
      (entries.filterMap signed?).map (mapLabels rename) := by
  rw [filterMap_map, map_filterMap]
  congr 1
  funext entry
  simp [signed?, mapLabels, Function.comp_def]

lemma key_of_mapLabels {other : LocalVariable}
    (start : rename entry.range.start = rename other.range.start →
      entry.range.start = other.range.start)
    (stop : rename entry.range.stop = rename other.range.stop → entry.range.stop = other.range.stop)
    (same : (entry.mapLabels rename).key = (other.mapLabels rename).key) :
    entry.key = other.key := by
  obtain ⟨⟨first, last⟩, name, type, signature, index⟩ := entry
  obtain ⟨⟨first', last'⟩, name', type', signature', index'⟩ := other
  simp only [key, mapLabels, Prod.mk.injEq, LabelRange.mk.injEq] at same start stop ⊢
  exact ⟨⟨start same.1.1, stop same.1.2⟩, same.2⟩

end LocalVariable

namespace Decode.CodeTables

open LocalVariable

lemma belongs_iff :
    belongs signed entry = true ↔ entry.signature = none ∧ entry.key = signed.key := by
  simp [belongs, key, and_assoc]

def giveSignature (signed : LocalVariable) : List LocalVariable → List LocalVariable
  | [] => [signed]
  | entry :: rest =>
    if belongs signed entry then { entry with signature := signed.signature } :: rest
    else entry :: giveSignature signed rest

lemma addSignature_toList (locals : Array LocalVariable) (signed : LocalVariable) :
    (addSignature locals signed).toList = giveSignature signed locals.toList := by
  obtain ⟨entries⟩ := locals
  unfold addSignature
  simp only [findIdx?_toArray]
  induction entries with
  | nil => rfl
  | cons entry rest ih =>
    rw [findIdx?_cons, giveSignature]
    cases here : belongs signed entry with
    | true => simp
    | false =>
      simp only [Bool.false_eq_true, if_false]
      rw [← ih]
      cases rest.findIdx? (belongs signed) <;> simp

lemma foldl_addSignature (signed : List LocalVariable) (locals : Array LocalVariable) :
    (signed.foldl addSignature locals).toList =
      signed.foldl (fun found entry => giveSignature entry found) locals.toList := by
  induction signed generalizing locals with
  | nil => rfl
  | cons entry rest ih => rw [foldl_cons, ih, addSignature_toList, foldl_cons]

lemma giveSignature_append (other : ∀ entry ∈ done, belongs signed entry = false)
    (rest : List LocalVariable) :
    giveSignature signed (done ++ rest) = done ++ giveSignature signed rest := by
  induction done with
  | nil => rfl
  | cons entry done ih =>
    rw [forall_mem_cons] at other
    rw [cons_append, giveSignature, other.1, ih other.2]
    rfl

/--
Local variables as they are read: first those with a type and then those with a signature only. A
signature is given to the first one that it belongs to, so it stands alone if all have one.
-/
structure IsMerged (typed untyped : List LocalVariable) : Prop where
  types : ∀ entry ∈ typed, entry.type.isSome = true
  signatures : ∀ entry ∈ untyped, entry.type = none ∧ entry.signature.isSome = true
  first : typed.Pairwise fun entry later =>
    entry.key = later.key → later.signature.isSome = true → entry.signature.isSome = true
  alone : ∀ entry ∈ typed, ∀ other ∈ untyped, entry.key = other.key → entry.signature.isSome = true

lemma belongs_false (has : entry.key = signed.key → entry.signature.isSome = true) :
    belongs signed entry = false := by
  rw [Bool.eq_false_iff]
  intro belongs
  obtain ⟨missing, same⟩ := belongs_iff.mp belongs
  have found := has same
  simp [missing] at found

/--
Local variables that are not mixed up: each has a type or a signature, and of those with the same
range, name and index the earlier ones have all that the later ones have.
-/
structure IsSeparate (locals : List LocalVariable) : Prop where
  known : ∀ entry ∈ locals, entry.type = none → entry.signature.isSome = true
  first : locals.Pairwise fun entry later => entry.key = later.key →
    (later.type.isSome = true → entry.type.isSome = true) ∧
      (later.signature.isSome = true → entry.signature.isSome = true)

lemma merge_rest {rest : List LocalVariable} (separate : IsSeparate (done ++ rest)) :
    (rest.filterMap signed?).foldl (fun found entry => giveSignature entry found)
        (done.filter (·.type.isSome) ++ (rest.filterMap typed? ++ done.filter (!·.type.isSome))) =
      (done ++ rest).filter (·.type.isSome) ++ (done ++ rest).filter (!·.type.isSome) := by
  induction rest generalizing done with
  | nil => simp
  | cons entry rest ih =>
    have next := @ih (done ++ [entry]) (by simpa using separate)
    have pairs := separate.first
    rw [pairwise_append, pairwise_cons] at pairs
    obtain ⟨-, ⟨later, -⟩, across⟩ := pairs
    -- A signature is given to none of those before the one that has it.
    have others (signature : entry.signature.isSome = true) : ∀ earlier ∈ done,
        belongs { entry with type := none } earlier = false := fun earlier early =>
      belongs_false fun same => (across earlier early entry mem_cons_self same).2 signature
    rw [append_assoc, singleton_append] at next
    rw [filterMap_cons, filterMap_cons]
    cases type : entry.type with
    | none =>
      have signature := separate.known entry (by simp) type
      have isSigned : entry.signed? = some { entry with type := none } := by
        obtain ⟨text, has⟩ := Option.isSome_iff_exists.mp signature
        rw [signed?, has, Option.map_some]
      have untyped : entry.typed? = none := by rw [typed?, type, Option.map_none]
      have alone : ∀ other ∈ done.filter (·.type.isSome) ++
          (rest.filterMap typed? ++ done.filter (!·.type.isSome)),
          belongs { entry with type := none } other = false := by
        intro other mem
        rcases mem_append.mp mem with early | mem
        · exact others signature other (mem_filter.mp early).1
        rcases mem_append.mp mem with late | early
        · obtain ⟨typed, got, found⟩ := mem_filterMap.mp late
          obtain ⟨kind, isTyped, rfl⟩ := Option.map_eq_some_iff.mp found
          refine belongs_false fun same => ?_
          have has := (later typed got same.symm).1 (by rw [isTyped]; rfl)
          rw [type] at has
          cases has
        · exact others signature other (mem_filter.mp early).1
      have push := giveSignature_append alone []
      rw [append_nil, giveSignature] at push
      rw [isSigned, untyped, ← next]
      simp only [foldl_cons, push]
      rw [show ({ entry with type := none } : LocalVariable) = entry by rw [← type]]
      simp [type]
    | some kind =>
      have typed : entry.typed? = some { entry with signature := none } := by
        rw [typed?, type, Option.map_some]
      have kept : (done ++ [entry]).filter (·.type.isSome) =
          done.filter (·.type.isSome) ++ [entry] := by simp [type]
      have left : (done ++ [entry]).filter (!·.type.isSome) =
          done.filter (!·.type.isSome) := by simp [type]
      rw [typed, ← next, kept, left, append_assoc, singleton_append]
      cases signature : entry.signature with
      | none =>
        have unsigned : entry.signed? = none := by rw [signed?, signature, Option.map_none]
        rw [unsigned, show ({ entry with signature := none } : LocalVariable) = entry by
          rw [← signature]]
        rfl
      | some text =>
        have isSigned : entry.signed? = some { entry with type := none } := by
          rw [signed?, signature, Option.map_some]
        have here : belongs { entry with type := none }
            { entry with signature := none } = true := belongs_iff.mpr ⟨rfl, rfl⟩
        rw [isSigned]
        simp only [foldl_cons, cons_append]
        rw [giveSignature_append fun earlier early => others (by rw [signature]; rfl) earlier
          (mem_filter.mp early).1, giveSignature, if_pos here]

/--
Local variables that have been taken apart are put together again, if in another order. Other labels
make no difference if different local variables stay different.
-/
lemma merge_separate {rename : Label → Label} (separate : IsSeparate locals)
    (injective : ∀ entry ∈ locals, ∀ other ∈ locals,
      (entry.mapLabels rename).key = (other.mapLabels rename).key → entry.key = other.key) :
    (((locals.filterMap signed?).map (mapLabels rename)).foldl addSignature
        ((locals.filterMap typed?).map (mapLabels rename)).toArray).toList =
      (locals.filter (·.type.isSome) ++ locals.filter (!·.type.isSome)).map
        (mapLabels rename) := by
  have renamed : IsSeparate ([] ++ locals.map (mapLabels rename)) :=
    ⟨forall_mem_map.mpr separate.known, pairwise_map.mpr (separate.first.imp_of_mem
      fun mem mem' has same => has (injective _ mem _ mem' same))⟩
  rw [foldl_addSignature, ← filterMap_signed?, ← filterMap_typed?, map_append]
  simpa [filter_map, Function.comp_def, mapLabels] using merge_rest renamed

lemma IsMerged.isSeparate {typed untyped : List LocalVariable} (merged : IsMerged typed untyped) :
    IsSeparate (typed ++ untyped) where
  known := forall_mem_append.mpr ⟨fun entry mem missing => by
    have has := merged.types entry mem
    simp [missing] at has, fun entry mem _ => (merged.signatures entry mem).2⟩
  first := pairwise_append.mpr ⟨merged.first.imp_of_mem fun mem _ has same =>
      ⟨fun _ => merged.types _ mem, has same⟩,
    pairwise_of_forall_mem_list fun entry mem later mem' _ =>
      ⟨by simp [(merged.signatures later mem').1], fun _ => (merged.signatures entry mem).2⟩,
    fun entry mem later mem' same =>
      ⟨fun _ => merged.types entry mem, fun _ => merged.alone entry mem later mem' same⟩⟩

/-- Local variables as they are read stay in their order. -/
lemma IsMerged.filter_eq {typed untyped : List LocalVariable} (merged : IsMerged typed untyped) :
    (typed ++ untyped).filter (·.type.isSome) ++ (typed ++ untyped).filter (!·.type.isSome) =
      typed ++ untyped := by
  have without : ∀ entry ∈ untyped, entry.type.isSome = false := fun entry mem => by
    rw [(merged.signatures entry mem).1]
    rfl
  rw [filter_append, filter_append, filter_eq_self.mpr merged.types,
    filter_eq_nil_iff.mpr (by simpa using without),
    filter_eq_nil_iff.mpr fun entry mem => by simp [merged.types entry mem],
    filter_eq_self.mpr (by simpa using without), append_nil, nil_append]

variable {typed untyped : List LocalVariable}

lemma isMerged_of_unique (types : ∀ entry ∈ locals, entry.type.isSome = true)
    (unique : (locals.map key).Nodup) :
    IsMerged locals [] where
  types := types
  signatures := by simp
  first := by
    rw [Nodup, pairwise_map] at unique
    exact unique.imp fun differ same => absurd same differ
  alone := by simp

/-- Other labels make no difference if different local variables stay different. -/
lemma IsMerged.mapLabels {rename : Label → Label} (merged : IsMerged typed untyped)
    (injective : ∀ entry ∈ typed ++ untyped, ∀ other ∈ typed ++ untyped,
      (entry.mapLabels rename).key = (other.mapLabels rename).key → entry.key = other.key) :
    IsMerged (typed.map (LocalVariable.mapLabels rename))
      (untyped.map (LocalVariable.mapLabels rename)) where
  types := forall_mem_map.mpr merged.types
  signatures := forall_mem_map.mpr merged.signatures
  first := by
    rw [pairwise_map]
    refine merged.first.imp_of_mem fun {entry later} mem mem' has same => ?_
    exact has (injective entry (by simp [mem]) later (by simp [mem']) same)
  alone := by
    simp only [forall_mem_map]
    intro entry mem other mem' same
    exact merged.alone entry mem other mem'
      (injective entry (by simp [mem]) other (by simp [mem']) same)

/-- One more signature is given to a local variable, or stands alone. -/
lemma giveSignature_isMerged (untypedSigned : signed.type = none)
    (has : signed.signature.isSome = true) (merged : IsMerged typed untyped) :
    ∃ typed' untyped', giveSignature signed (typed ++ untyped) = typed' ++ untyped' ∧
      IsMerged typed' untyped' := by
  by_cases any : ∃ entry ∈ typed, belongs signed entry = true
  · -- The first one that the signature belongs to has none, and those before it have one.
    obtain ⟨before, found, after, rfl, here, others⟩ :
        ∃ before found after, typed = before ++ found :: after ∧ belongs signed found = true ∧
          ∀ entry ∈ before, belongs signed entry = false := by
      obtain ⟨found, got⟩ := Option.isSome_iff_exists.mp (find?_isSome.mpr any)
      obtain ⟨here, before, after, equal, others⟩ := find?_eq_some_iff_append.mp got
      exact ⟨before, found, after, equal, here, by simpa using others⟩
    refine ⟨before ++ { found with signature := signed.signature } :: after, untyped, ?_, ?_⟩
    · rw [append_assoc, giveSignature_append others, cons_append, giveSignature,
        if_pos here, append_assoc, cons_append]
    · obtain ⟨missing, same⟩ := belongs_iff.mp here
      obtain ⟨types, signatures, first, alone⟩ := merged
      simp only [forall_mem_append, forall_mem_cons] at types alone
      rw [pairwise_append, pairwise_cons] at first
      obtain ⟨early, ⟨_, late⟩, across⟩ := first
      refine ⟨?_, signatures, ?_, ?_⟩
      · simp only [forall_mem_append, forall_mem_cons]
        exact types
      · rw [pairwise_append, pairwise_cons]
        refine ⟨early, ⟨fun _ _ _ _ => has, late⟩, fun entry mem => ?_⟩
        rw [forall_mem_cons]
        refine ⟨fun equal _ => ?_, (forall_mem_cons.mp (across entry mem)).2⟩
        have other := others entry mem
        rw [Bool.eq_false_iff] at other
        rw [Option.isSome_iff_ne_none]
        exact fun missing => other (belongs_iff.mpr ⟨missing, equal.trans same⟩)
      · simp only [forall_mem_append, forall_mem_cons]
        exact ⟨alone.1, fun _ _ _ => has, alone.2.2⟩
  · -- The signature belongs to none of them.
    have others : ∀ entry ∈ typed ++ untyped, belongs signed entry = false := by
      intro entry mem
      rcases mem_append.mp mem with mem | mem
      · rw [Bool.eq_false_iff]
        exact fun here => any ⟨entry, mem, here⟩
      · exact belongs_false fun _ => (merged.signatures entry mem).2
    have push := giveSignature_append others []
    rw [append_nil, giveSignature] at push
    refine ⟨typed, untyped ++ [signed], by rw [push, append_assoc], merged.types, ?_,
      merged.first, ?_⟩
    · simp only [forall_mem_append, forall_mem_singleton]
      exact ⟨merged.signatures, untypedSigned, has⟩
    · intro entry mem
      simp only [forall_mem_append, forall_mem_singleton]
      refine ⟨merged.alone entry mem, fun same => ?_⟩
      have other := others entry (mem_append_left _ mem)
      rw [Bool.eq_false_iff] at other
      rw [Option.isSome_iff_ne_none]
      exact fun missing => other (belongs_iff.mpr ⟨missing, same⟩)

lemma foldl_isMerged {signed : List LocalVariable} (merged : IsMerged typed untyped)
    (signatures : ∀ entry ∈ signed, entry.type = none ∧ entry.signature.isSome = true) :
    ∃ typed' untyped',
      signed.foldl (fun found entry => giveSignature entry found) (typed ++ untyped) =
        typed' ++ untyped' ∧ IsMerged typed' untyped' := by
  induction signed generalizing typed untyped with
  | nil => exact ⟨typed, untyped, rfl, merged⟩
  | cons entry rest ih =>
    rw [forall_mem_cons] at signatures
    obtain ⟨typed', untyped', equal, merged'⟩ :=
      giveSignature_isMerged signatures.1.1 signatures.1.2 merged
    rw [foldl_cons, equal]
    exact ih merged' signatures.2

/-- Local variables that are given signatures keep their ranges. -/
lemma giveSignature_ranges {good : LabelRange → Prop}
    (ranges : ∀ entry ∈ locals, good entry.range) (range : good signed.range) :
    ∀ entry ∈ giveSignature signed locals, good entry.range := by
  induction locals with
  | nil => simpa [giveSignature] using range
  | cons first rest ih =>
    rw [forall_mem_cons] at ranges
    unfold giveSignature
    split
    · rw [forall_mem_cons]
      exact ranges
    · rw [forall_mem_cons]
      exact ⟨ranges.1, ih ranges.2⟩

lemma foldl_ranges {good : LabelRange → Prop} {locals signed : List LocalVariable}
    (ranges : ∀ entry ∈ locals, good entry.range) (more : ∀ entry ∈ signed, good entry.range) :
    ∀ entry ∈ signed.foldl (fun found entry => giveSignature entry found) locals,
      good entry.range := by
  induction signed generalizing locals with
  | nil => exact ranges
  | cons first rest ih =>
    rw [forall_mem_cons] at more
    exact ih (giveSignature_ranges ranges more.1) more.2

lemma filterMap_typed?_foldl {signed : List LocalVariable}
    (untyped : ∀ entry ∈ signed, entry.type = none) :
    (signed.foldl (fun found entry => giveSignature entry found) locals).filterMap typed? =
      locals.filterMap typed? := by
  have step (signed : LocalVariable) (untyped : signed.type = none) (locals : List LocalVariable) :
      (giveSignature signed locals).filterMap typed? = locals.filterMap typed? := by
    induction locals with
    | nil => simp [giveSignature, typed?, untyped]
    | cons first rest ih =>
      unfold giveSignature
      split
      · rw [filterMap_cons, filterMap_cons]
        rfl
      · rw [filterMap_cons, filterMap_cons, ih]
  induction signed generalizing locals with
  | nil => rfl
  | cons entry rest ih =>
    rw [forall_mem_cons] at untyped
    rw [foldl_cons, ih untyped.2, step entry untyped.1]

/-- Signatures that have been given are still there, if in another order. -/
lemma filterMap_signed?_foldl {locals signed : List LocalVariable}
    (signatures : ∀ entry ∈ signed, entry.type = none ∧ entry.signature.isSome = true) :
    ((signed.foldl (fun found entry => giveSignature entry found) locals).filterMap signed?).Perm
      (locals.filterMap signed? ++ signed) := by
  have own {entry : LocalVariable} (known : entry.type = none ∧ entry.signature.isSome = true) :
      entry.signed? = some entry := by
    obtain ⟨text, has⟩ := Option.isSome_iff_exists.mp known.2
    rw [signed?, has, Option.map_some, ← has, ← known.1]
  have step {signed : LocalVariable} (known : signed.type = none ∧ signed.signature.isSome = true)
      (locals : List LocalVariable) :
      ((giveSignature signed locals).filterMap signed?).Perm
        (locals.filterMap signed? ++ [signed]) := by
    induction locals with
    | nil => simp [giveSignature, own known]
    | cons first rest ih =>
      unfold giveSignature
      split
      · next here =>
        -- The entry that gets the signature is the one that the signature has come with.
        obtain ⟨missing, same⟩ := belongs_iff.mp here
        have given : signed? { first with signature := signed.signature } = some signed := by
          rw [← own known]
          obtain ⟨range, name, type, signature, index⟩ := first
          obtain ⟨range', name', type', signature', index'⟩ := signed
          simp only [key, Prod.mk.injEq] at same
          obtain ⟨rfl, rfl, rfl⟩ := same
          rfl
        have unsigned : first.signed? = none := by rw [signed?, missing, Option.map_none]
        rw [filterMap_cons, filterMap_cons, given, unsigned]
        exact (perm_append_singleton _ _).symm
      · rw [filterMap_cons, filterMap_cons]
        cases first.signed? with
        | none => exact ih
        | some entry => exact ih.cons entry
  induction signed generalizing locals with
  | nil => simp
  | cons entry rest ih =>
    rw [forall_mem_cons] at signatures
    rw [foldl_cons]
    refine (ih signatures.2).trans ?_
    have moved := (step signatures.1 locals).append_right rest
    rwa [append_assoc, singleton_append] at moved

end Decode.CodeTables

end JvmAsm
