/- Shows that the answers of a class path do not depend on what it has been asked before. -/
import JvmAsm.ClassPath
import JvmAsm.Proofs.Descriptor
import JvmAsm.Proofs.Result

namespace JvmAsm.ClassPath

open List

variable {α β : Type} {contents : FileContents} {classPath other : ClassPath} {fuel fuel' : Nat}
variable {a b name last : ClassName} {before first second : List ClassName}
variable {above : ClassName → Except Failure (Option ClassName)}

/-- What is said about the super class of a class, whether it is remembered or has to be read. -/
def superIn (contents : FileContents) (classPath : ClassPath) (name : ClassName) :
    Except Failure (Option ClassName) :=
  match classPath.known[name]? with
  | some super => .ok super
  | none =>
    match classPath.files[name.text]? with
    | some path => readSuper contents path name
    | none => .ok none

/-- What is said already may be remembered. -/
lemma superIn_insert {super : Option ClassName}
    (found : superIn contents classPath name = .ok super) :
    superIn contents { classPath with known := classPath.known.insert name super } =
      superIn contents classPath := by
  funext asked
  by_cases same : name = asked
  · subst same
    rw [superIn, Std.HashMap.getElem?_insert_self, found]
  · rw [superIn, superIn, Std.HashMap.getElem?_insert, if_neg (by simpa using same)]

/-- Two questions are answered in the same way, and the same is said after them as before. -/
def Like (contents : FileContents) (above : ClassName → Except Failure (Option ClassName)) :
    EStateM.Result Failure ClassPath α → EStateM.Result Failure ClassPath α → Prop
  | .ok value next, .ok value' next' =>
    value = value' ∧ superIn contents next = above ∧ superIn contents next' = above
  | .error failure next, .error failure' next' =>
    failure = failure' ∧ superIn contents next = above ∧ superIn contents next' = above
  | _, _ => False

lemma Like.bind {action action' : EStateM Failure ClassPath α}
    {further further' : α → EStateM Failure ClassPath β}
    (early : Like contents above (action classPath) (action' other))
    (late : ∀ value next next', superIn contents next = above → superIn contents next' = above →
      Like contents above (further value next) (further' value next')) :
    Like contents above ((action >>= further) classPath) ((action' >>= further') other) := by
  change Like contents above (EStateM.bind action further classPath)
    (EStateM.bind action' further' other)
  unfold EStateM.bind
  cases ran : action classPath <;> cases ran' : action' other <;> rw [ran, ran'] at early
  · obtain ⟨rfl, said, said'⟩ := early
    exact late _ _ _ said said'
  · exact early.elim
  · exact early.elim
  · exact early

lemma superOf_eq (contents : FileContents) (classPath : ClassPath) (name : ClassName) :
    ∃ next, superIn contents next = superIn contents classPath ∧
      superOf contents name classPath = match superIn contents classPath name with
        | .ok super => .ok super next
        | .error failure => .error failure next := by
  cases known : classPath.known[name]? with
  | some super =>
    have said : superIn contents classPath name = .ok super := by rw [superIn, known]
    refine ⟨classPath, rfl, ran_bind rfl ?_⟩
    rw [said, known]
    rfl
  | none =>
    cases file : classPath.files[name.text]? with
    | none =>
      have said : superIn contents classPath name = .ok none := by rw [superIn, known, file]
      refine ⟨_, superIn_insert said, ran_bind rfl ?_⟩
      rw [said, known, file]
      rfl
    | some path =>
      have said : superIn contents classPath name = readSuper contents path name := by
        rw [superIn, known, file]
      cases read : readSuper contents path name with
      | ok super =>
        refine ⟨_, superIn_insert (said.trans read), ran_bind rfl ?_⟩
        rw [said, read, known, file]
        dsimp only
        rw [read]
        rfl
      | error failure =>
        refine ⟨classPath, rfl, ran_bind rfl ?_⟩
        rw [said, read, known, file]
        dsimp only
        rw [read]
        rfl

/-- Different classes of which each but the last one has a super class. -/
structure HasPassed (above : ClassName → Except Failure (Option ClassName)) (last : ClassName)
    (before : List ClassName) : Prop where
  distinct : (last :: before).Nodup
  found : ∀ name ∈ before, ∃ super, above name = .ok (some super)

lemma HasPassed.length_le (passed : HasPassed (superIn contents classPath) last before) :
    before.length ≤ classPath.size := by
  have distinct := (nodup_cons.mp passed.distinct).2
  have parts := before.length_eq_length_filter_add fun name => classPath.known.contains name
  have known : (before.filter fun name => classPath.known.contains name).length ≤
      classPath.known.keys.length :=
    (subperm_of_subset (distinct.filter _) fun name member => by simp_all).length_le
  have read : ((before.filter fun name => !classPath.known.contains name).map
      ClassName.text).length ≤ classPath.files.keys.length := by
    refine (subperm_of_subset (Nodup.map ?_ (distinct.filter _)) fun text member => ?_).length_le
    · exact fun a b same => Option.some.inj (a.ofString?_text.symm.trans
        ((congrArg _ same).trans b.ofString?_text))
    · obtain ⟨name, left, rfl⟩ := mem_map.mp member
      obtain ⟨got, absent⟩ := mem_filter.mp left
      obtain ⟨super, found⟩ := passed.found name got
      rw [superIn, Std.HashMap.getElem?_eq_none (by simpa using absent)] at found
      rw [Std.HashMap.mem_keys]
      by_contra missing
      rw [Std.HashMap.getElem?_eq_none missing] at found
      cases found
  rw [Std.HashMap.length_keys] at known read
  rw [length_map] at read
  unfold size
  omega

/-- A chain is the same whatever is remembered and however far beyond its end could be looked. -/
lemma chainFrom_like {start start' : ClassPath} (begins : superIn contents start = above)
    (begins' : superIn contents start' = above) (passed : HasPassed above last before)
    (enough : start.size < before.length + fuel) (enough' : start'.size < before.length + fuel')
    (said : superIn contents classPath = above) (said' : superIn contents other = above) :
    Like contents above (chainFrom contents last before fuel classPath)
      (chainFrom contents last before fuel' other) := by
  induction fuel generalizing last before fuel' classPath other with
  | zero => exact absurd (begins ▸ passed).length_le (by omega)
  | succ fuel ih =>
    obtain _ | fuel' := fuel'
    · exact absurd (begins' ▸ passed).length_le (by omega)
    rw [chainFrom, chainFrom]
    split
    · exact ⟨rfl, said, said'⟩
    obtain ⟨next, kept, ran⟩ := superOf_eq contents classPath last
    obtain ⟨next', kept', ran'⟩ := superOf_eq contents other last
    rw [said] at kept ran
    rw [said'] at kept' ran'
    change Like contents above (EStateM.bind _ _ _) (EStateM.bind _ _ _)
    unfold EStateM.bind
    rw [ran, ran']
    cases found : above last with
    | error => exact ⟨rfl, kept, kept'⟩
    | ok super =>
      cases super with
      | none => exact ⟨rfl, kept, kept'⟩
      | some super =>
        dsimp only
        split
        · exact ⟨rfl, kept, kept'⟩
        · next fresh =>
          refine ih ⟨nodup_cons.mpr ⟨fresh, passed.distinct⟩, forall_mem_cons.mpr
            ⟨⟨super, found⟩, passed.found⟩⟩ ?_ ?_ kept kept' <;> rw [length_cons] <;> omega

lemma chain_like (said : superIn contents classPath = above)
    (said' : superIn contents other = above) (name : ClassName) :
    Like contents above (chain contents name classPath) (chain contents name other) :=
  chainFrom_like said said' ⟨nodup_singleton name, nofun⟩ (by rw [length_nil]; omega)
    (by rw [length_nil]; omega) said said'

lemma common_like (said : superIn contents other = superIn contents classPath) (a b : ClassName) :
    Like contents (superIn contents classPath) (common contents a b other)
      (common contents a b classPath) := by
  refine (chain_like said rfl a).bind fun first next next' said said' => ?_
  cases first with
  | none => exact ⟨rfl, said, said'⟩
  | some first =>
    refine (chain_like said said' b).bind fun second next next' said said' => ?_
    cases second <;> exact ⟨rfl, said, said'⟩

/-- Class paths that say the same give the same answers. -/
lemma hierarchy_common_eq (said : superIn contents other = superIn contents classPath) :
    (other.hierarchy contents).common a b = (classPath.hierarchy contents).common a b := by
  have like := common_like said a b
  unfold hierarchy
  dsimp only
  cases ran : common contents a b other <;> cases ran' : common contents a b classPath <;>
    rw [ran, ran'] at like
  exacts [congrArg _ like.1, like.elim, like.elim, congrArg _ like.1]

/-- A class and all its super classes up to the root. -/
inductive IsChain (above : ClassName → Except Failure (Option ClassName)) :
    ClassName → List ClassName → Prop
  | root : IsChain above .root [.root]
  | step {name super : ClassName} {names : List ClassName} (proper : name ≠ .root)
      (found : above name = .ok (some super)) (rest : IsChain above super names) :
      IsChain above name (name :: names)

lemma chainFrom_isChain (said : superIn contents classPath = above)
    (ran : chainFrom contents last before fuel classPath = .ok (some first) other) :
    superIn contents other = above ∧
      ∃ names, first = before.reverse ++ names ∧ IsChain above last names := by
  induction fuel generalizing last before classPath with
  | zero => cases ran
  | succ fuel ih =>
    rw [chainFrom] at ran
    split at ran
    · next root =>
      cases ran
      exact ⟨said, [last], reverse_cons, root ▸ .root⟩
    · next proper =>
      obtain ⟨super, next, looked, ran⟩ := ran_parts ran
      obtain ⟨next', kept, looked'⟩ := superOf_eq contents classPath last
      rw [said] at kept looked'
      cases found : above last with
      | error => cases (found ▸ looked').symm.trans looked
      | ok super' =>
        cases (found ▸ looked').symm.trans looked
        cases super with
        | none => cases ran
        | some super =>
          dsimp only at ran
          split at ran
          · cases ran
          · obtain ⟨said, names, rfl, rest⟩ := ih kept ran
            exact ⟨said, last :: names, by simp, .step proper found rest⟩

namespace IsChain

lemma unique (chain : IsChain above name first) (chain' : IsChain above name second) :
    first = second := by
  induction chain generalizing second with
  | root =>
    cases chain' with
    | root => rfl
    | step proper => exact absurd rfl proper
  | step proper found _ ih =>
    cases chain' with
    | root => exact absurd rfl proper
    | step _ found' rest =>
      cases found.symm.trans found'
      rw [ih rest]

/-- The chain of each class of a chain is the part that starts there. -/
lemma tail (chain : IsChain above last (before ++ name :: second)) :
    IsChain above name (name :: second) := by
  induction before generalizing last with
  | nil => cases chain <;> constructor <;> assumption
  | cons head before ih =>
    generalize listed : head :: before ++ name :: second = names at chain
    cases chain with
    | root => simp at listed
    | step _ _ rest => exact ih ((cons.inj listed).2 ▸ rest)

lemma nodup (chain : IsChain above name first) : first.Nodup := by
  induction chain with
  | root => exact nodup_singleton _
  | step proper found rest ih =>
    refine nodup_cons.mpr ⟨fun repeated => ?_, ih⟩
    obtain ⟨before, after, rfl⟩ := append_of_mem repeated
    have lengths := congrArg length (rest.tail.unique (.step proper found rest))
    simp only [length_cons, length_append] at lengths
    omega

end IsChain

/-- The class path after some questions, whether they have been answered or not. -/
def asked (contents : FileContents) (classPath : ClassPath)
    (questions : List (ClassName × ClassName)) : ClassPath :=
  questions.foldl (fun classPath question =>
    match common contents question.1 question.2 classPath with
    | .ok _ next | .error _ next => next) classPath

lemma superIn_asked (questions : List (ClassName × ClassName)) :
    superIn contents (asked contents classPath questions) = superIn contents classPath := by
  induction questions generalizing classPath with
  | nil => rfl
  | cons question rest ih =>
    have like := @common_like contents classPath classPath rfl question.1 question.2
    rw [asked, foldl_cons]
    cases ran : common contents question.1 question.2 classPath <;> rw [ran] at like <;>
      exact ih.trans like.2.1

lemma superIn_addFile {path : Path} {bytes : List UInt8}
    (read : contents path = some (.ok bytes)) :
    superIn contents (classPath.addFile path bytes) = superIn contents classPath := by
  unfold addFile
  split
  · next value decoded =>
    split
    · next new =>
      refine superIn_insert ?_
      rw [superIn, new.2, new.1]
      simp [readSuper, read, decoded]
    · rfl
  · rfl

/--
The answer to a question does not depend on questions that have been asked before, nor on class
files that have been read for other inputs. A class that is found is the first one common to the
chains of both classes, on either of them.
-/
theorem common_of_asked (contents : FileContents) (classPath : ClassPath) (a b : ClassName) :
    (∀ questions, ((asked contents classPath questions).hierarchy contents).common a b =
      (classPath.hierarchy contents).common a b) ∧
    (∀ path bytes, contents path = some (.ok bytes) →
      ((classPath.addFile path bytes).hierarchy contents).common a b =
        (classPath.hierarchy contents).common a b) ∧
    ∀ name, (classPath.hierarchy contents).common a b = .ok (some name) →
      ∃ before before' after, IsChain (superIn contents classPath) a (before ++ name :: after) ∧
        IsChain (superIn contents classPath) b (before' ++ name :: after) ∧
        (∀ other ∈ before, other ∉ before' ++ name :: after) ∧
        ∀ other ∈ before', other ∉ before ++ name :: after := by
  refine ⟨fun questions => hierarchy_common_eq (superIn_asked questions),
    fun path bytes read => hierarchy_common_eq (superIn_addFile read), fun name found => ?_⟩
  obtain ⟨last, ran⟩ : ∃ last, common contents a b classPath = .ok (some name) last := by
    unfold hierarchy at found
    dsimp only at found
    split at found <;> cases found
    exact ⟨_, ‹_›⟩
  obtain ⟨_ | first, next, chain, ran⟩ := ran_parts ran
  · cases ran
  obtain ⟨_ | second, next', chain', ran⟩ := ran_parts ran
  · cases ran
  obtain ⟨said, first, rfl, chain⟩ := chainFrom_isChain rfl chain
  obtain ⟨_, second, rfl, chain'⟩ := chainFrom_isChain said chain'
  obtain ⟨common, before', after, rfl, none⟩ :=
    find?_eq_some_iff_append.mp (EStateM.Result.ok.inj ran).1
  obtain ⟨before, after', rfl⟩ := append_of_mem (contains_iff_mem.mp common)
  -- The chains go on in the same way from the class that they have in common.
  cases chain.tail.unique chain'.tail
  have apart : ∀ other ∈ before', other ∉ before ++ name :: after := by simpa using none
  refine ⟨before, before', after, chain, chain', fun other member member' => ?_, apart⟩
  rcases mem_append.mp member' with earlier | later
  · exact apart other earlier (mem_append_left _ member)
  · exact disjoint_of_nodup_append chain.nodup member later

/-- The root is found whatever has been asked before. -/
theorem common_of_asked_root :
    (hierarchy {} fun _ => none).common .root .root = .ok (some .root) ∧
    ((asked (fun _ => none) {} [(.throwable, .root)]).hierarchy fun _ => none).common .root .root =
      .ok (some .root) ∧
    ∃ before before' after, IsChain (superIn (fun _ => none) {}) .root (before ++ .root :: after) ∧
      IsChain (superIn (fun _ => none) {}) .root (before' ++ .root :: after) :=
  have answers := common_of_asked (fun _ => none) {} .root .root
  have ⟨before, before', after, chain, chain', _⟩ := answers.2.2 .root rfl
  ⟨rfl, (answers.1 _).trans rfl, before, before', after, chain, chain'⟩

end JvmAsm.ClassPath
