/-
Says what holds for all attributes that are read: their lists are as long as their counts allow, and
their annotations are not nested too deep.
-/
import JvmAsm.Proofs.Encode.Members
import JvmAsm.Proofs.Formed

namespace JvmAsm

open Binary ByteReader

variable {α σ τ : Type}

section Readers

variable {reader : ByteReader α} {good : α → Prop}

lemma within_gives (cause : BinaryCause) (gives : Gives reader good) :
    Gives (within cause reader) good := by
  intro cursor value next ran
  unfold within at ran
  split at ran
  · next found =>
    cases ran
    exact gives _ _ _ found
  · contradiction

lemma readResult_gives {result : Except Failure α}
    (holds : ∀ value, result = .ok value → good value) :
    Gives (ofResult result) good := by
  cases result with
  | ok value => exact .pure (holds value rfl)
  | error failure => exact .throw

lemma bytes_gives (count : Nat) :
    Gives (bytes count) fun found => found.length = count := by
  intro cursor found next ran
  simp only [bytes, beq_iff_eq] at ran
  split at ran
  · next enough =>
    cases ran
    exact enough
  · contradiction

lemma forall_mem_appendList {xs : Array α} {more : List α}
    (start : ∀ value ∈ xs, good value) (rest : ∀ value ∈ more, good value) :
    ∀ value ∈ xs ++ more, good value := by
  intro value mem
  rw [Array.mem_def, Array.toList_appendList, List.mem_append] at mem
  exact mem.elim (start value ∘ Array.mem_def.mpr) (rest value)

lemma forall_mem_push {xs : Array α} {last : α} (start : ∀ value ∈ xs, good value)
    (fine : good last) : ∀ value ∈ xs.push last, good value := by
  intro value mem
  rcases Array.mem_push.mp mem with early | rfl
  · exact start value early
  · exact fine

section

variable (each : Gives reader good)
include each

lemma manyFrom_gives (count : Nat) (found : Array α)
    (goods : ∀ value ∈ found, good value) :
    Gives (manyFrom reader count found) fun xs =>
      xs.length = found.size + count ∧ ∀ value ∈ xs, good value := by
  induction count generalizing found with
  | zero => exact .pure ⟨by simp, by simpa using goods⟩
  | succ count ih =>
    refine each.bind fun value fine =>
      (ih (found.push value) (forall_mem_push goods fine)).weaken fun xs known => ?_
    rw [Array.size_push] at known
    exact ⟨by omega, known.2⟩

lemma many_gives (count : Nat) :
    Gives (many count reader) fun xs =>
      xs.length = count ∧ ∀ value ∈ xs, good value :=
  (manyFrom_gives each count #[] (by simp)).weaken fun xs known =>
    ⟨by simpa using known.1, known.2⟩

lemma list16_gives :
    Gives (list16 reader) fun xs => ∀ value ∈ xs, good value :=
  .after fun _ => (many_gives each _).weaken fun _ known => known.2

lemma list8_gives :
    Gives (list8 reader) fun xs =>
      xs.length ≤ 0xff ∧ ∀ value ∈ xs, good value :=
  .after fun count => (many_gives each _).weaken
    fun _ known => ⟨known.1 ▸ Nat.le_of_lt_succ count.toNat_lt, known.2⟩

end

end Readers

namespace Decode

section Contents

variable {reader : ByteReader α} {good : α → Prop}

lemma contents_gives (name : String) (length : Nat) (gives : Gives reader good) :
    Gives (contents name length reader) good := by
  refine .after fun start => (within_gives _ gives).bind fun value fine =>
    .after fun stop => ?_
  dsimp only
  split
  · exact .after fun _ => .pure fine
  · exact .pure fine

lemma only_gives (name : String) (outline : α → Outline) (given : Option α) {value : α}
    (fine : good value) :
    Gives (only name outline given value) fun found => ∀ value, found = some value → good value := by
  cases given with
  | some old => exact within_gives _ Gives.throw
  | none =>
    refine .pure ?_
    rintro _ ⟨⟩
    exact fine

lemma once_gives {name : String} {length : Nat} {outline : α → Outline} {given : Option α}
    (gives : Gives reader good) :
    Gives (once name length outline given reader) fun found => ∀ value, found = some value → good value :=
  (contents_gives name length gives).bind fun _ fine => only_gives name outline given fine

lemma raw_gives (name : String) (length : Nat) :
    Gives (raw name length) fun kept => kept.name = name :=
  .after fun _ => .pure rfl

lemma attributes_gives {table : PoolTable} {step : σ → String → Nat → ByteReader σ} {initial : σ}
    (keeps : σ → Prop) (start : keeps initial)
    (each : ∀ state name length, keeps state → Gives (step state name length) keeps) :
    Gives (attributes table step initial) keeps := by
  refine .after fun count => ?_
  generalize count.toNat = left
  induction left generalizing initial with
  | zero => exact .pure start
  | succ left ih =>
    exact .after fun _ => .after fun name =>
      .after fun length => (each initial name _ start).bind
        fun state fine => ih fine

end Contents

section Annotations

variable {table : PoolTable}

lemma elements_gives {value : ByteReader ElementValue} {good : ElementValue → Prop}
    (gives : Gives value good) :
    Gives (elements table value) fun found => ∀ element ∈ found, good element.2 :=
  list16_gives (.after fun _ => gives.bind fun _ fine => .pure fine)

/-- Values are nested less deep than the fuel. -/
lemma elementValueWithin_gives (fuel : Nat) :
    Gives (elementValueWithin table fuel) fun value => value.depth < fuel := by
  induction fuel with
  | zero => exact .throw
  | succ fuel ih =>
    have leaf {value : ElementValue} (flat : value.depth = 0) : value.depth < fuel + 1 := by
      omega
    refine .after fun tag => ?_
    split
    case h_10 =>
      exact .after fun _ => .after fun _ =>
        .pure (leaf rfl)
    case h_11 =>
      refine .after fun text => readResult_gives fun value found => ?_
      unfold classLiteral at found
      split at found
      · cases found
        exact leaf rfl
      · contradiction
    case h_12 =>
      refine .after fun type => (elements_gives ih).bind fun found fine =>
        .pure (Nat.lt_succ_of_le (ElementValue.depthOfElements_le.mpr fine))
    case h_13 =>
      exact (list16_gives ih).bind fun found fine =>
        .pure (Nat.lt_succ_of_le (ElementValue.depthOfValues_le.mpr fine))
    case h_14 => exact .throw
    all_goals exact .after fun _ => .pure (leaf rfl)

lemma annotationBody_gives : Gives (annotationBody table) Annotation.IsShallow :=
  .after fun _ => (elements_gives (elementValueWithin_gives _)).bind
    fun _ fine => .pure fun element mem => Nat.le_of_lt_succ (fine element mem)

lemma annotationList_gives :
    Gives (annotationList table) fun notes => ∀ note ∈ notes, note.IsShallow :=
  list16_gives annotationBody_gives

lemma annotatedTypes_gives {target : ByteReader τ} {good : τ → Prop} (gives : Gives target good) :
    Gives (annotatedTypes table target) fun notes =>
      ∀ note ∈ notes, AnnotatedType.IsGood good note :=
  list16_gives (gives.bind fun _ fine => .after fun _ =>
    annotationBody_gives.bind fun _ shallow => .pure ⟨fine, shallow⟩)

end Annotations

end Decode

end JvmAsm
