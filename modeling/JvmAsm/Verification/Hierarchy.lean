import JvmAsm.Failure.Basic
import Std.Data.HashMap

namespace JvmAsm

structure Hierarchy where
  /-- The nearest common super class of two classes that are no arrays, if it is known. -/
  common : ClassName → ClassName → Except Failure (Option ClassName)
  /-- No class has more super classes than this. -/
  height : Nat

namespace Hierarchy

/-- Takes the root of all classes for the common super class of any two. -/
def rootOnly : Hierarchy where
  common _ _ := .ok (some .root)
  height := 1

/-- Nothing is known about any class. -/
def unknown : Hierarchy where
  common _ _ := .ok none
  height := 0

end Hierarchy

structure SuperClasses where
  table : Std.HashMap ClassName ClassName := ∅

namespace SuperClasses

def insert (known : SuperClasses) (name super : ClassName) : SuperClasses :=
  ⟨known.table.insert name super⟩

def contains (known : SuperClasses) (name : ClassName) : Bool := known.table.contains name

def chainFrom (known : SuperClasses) (last : ClassName) (before : List ClassName) :
    Nat → List ClassName
  | 0 => (last :: before).reverse
  | fuel + 1 =>
    match known.table[last]? with
    | none => (last :: before).reverse
    | some super =>
      if super ∈ last :: before then (last :: before).reverse
      else chainFrom known super (last :: before) fuel

/--
A class followed by its super classes, up to the first one that is not known or has come before.
All classes of a chain but the last are known, so the chain is no longer than the table allows.
-/
def chain (known : SuperClasses) (name : ClassName) : List ClassName :=
  chainFrom known name [] known.table.size

/-- The first class in the chain of the second class that is also in the chain of the first. -/
def common (known : SuperClasses) (a b : ClassName) : Option ClassName :=
  let chain := known.chain a
  (known.chain b).find? fun name => chain.contains name

def hierarchy (known : SuperClasses) : Hierarchy where
  common a b := .ok (known.common a b)
  height := known.table.size

end SuperClasses

end JvmAsm
