import JvmAsm.Decode.Class
import JvmAsm.Verification.Hierarchy

namespace JvmAsm

/-- What has been read from files so far. -/
abbrev FileContents := Path → Option (Except FileFault (List UInt8))

/-- The file that has to be read before something can be told. -/
def Failure.unread? (failure : Failure) : Option Path :=
  failure.links.findSome? fun
    | .cause (.files (.unread path)) => some path
    | _ => none

structure ClassPath where
  files : Std.HashMap String Path := ∅
  /-- The super classes of the classes that are known already. -/
  known : Std.HashMap ClassName (Option ClassName) := ∅

namespace ClassPath

/-- The name of the class that should be in a file, given the parts of its path. -/
def nameOf? (parts : List String) : Option String :=
  match parts.reverse with
  | [] => none
  | last :: before =>
    match Path.splitName last with
    | (stem, some "class") => some ("/".intercalate (stem :: before).reverse)
    | _ => none

/-- Adds the class files below a directory, unless there are others of their names already. -/
def addFiles (classPath : ClassPath) (root : Path) (found : List (List String)) : ClassPath :=
  { classPath with
    files := found.foldl (fun files parts =>
      match nameOf? parts with
      | some name => files.insertIfNew name (root.join ("/".intercalate parts))
      | none => files) classPath.files }

def add (classPath : ClassPath) (value : ClassFile) : ClassPath :=
  { classPath with known := classPath.known.insert value.name value.superClass }

/-- Makes the class in a file known, if it is the class that should be in that file and is new. -/
def addFile (classPath : ClassPath) (path : Path) (bytes : List UInt8) : ClassPath :=
  match decode bytes with
  | .ok value =>
    if classPath.files[value.name.text]? = some path ∧ classPath.known[value.name]? = none then
      classPath.add value
    else classPath
  | .error _ => classPath

def readSuper (contents : FileContents) (path : Path) (name : ClassName) :
    Except Failure (Option ClassName) := do
  match contents path with
  | none => throw (.ofCause (.files (.unread path)))
  | some (.error fault) =>
    throw ((Failure.ofCause (.files (.machine fault))).within (.files (.reading path)))
  | some (.ok bytes) =>
    let value ← (decode bytes).mapError (Failure.within (.files (.inClassFile path)))
    if value.name ≠ name then throw (.ofCause (.files (.wrongClass path value.name name)))
    return value.superClass

def superOf (contents : FileContents) (name : ClassName) :
    EStateM Failure ClassPath (Option ClassName) := do
  let classPath ← get
  match classPath.known[name]? with
  | some super => return super
  | none =>
    let super ← match classPath.files[name.text]? with
      | some path =>
        match readSuper contents path name with
        | .ok super => pure super
        | .error failure => throw failure
      | none => pure none
    set { classPath with known := classPath.known.insert name super }
    return super

/-- The super classes of the last class of a chain, which is given in reverse. -/
def chainFrom (contents : FileContents) (last : ClassName) (before : List ClassName) :
    Nat → EStateM Failure ClassPath (Option (List ClassName))
  | 0 => return none
  | fuel + 1 => do
    if last = .root then return some (last :: before).reverse
    match ← superOf contents last with
    | none => return none
    | some super =>
      if super ∈ last :: before then throw (.ofCause (.files (.ownSuper super)))
      chainFrom contents super (last :: before) fuel

/-- The number of classes whose super classes can be found. -/
def size (classPath : ClassPath) : Nat := classPath.files.size + classPath.known.size

/-- A class and all its super classes, unless the root is not among them. -/
def chain (contents : FileContents) (name : ClassName) :
    EStateM Failure ClassPath (Option (List ClassName)) := do
  chainFrom contents name [] ((← get).size + 2)

def common (contents : FileContents) (a b : ClassName) :
    EStateM Failure ClassPath (Option ClassName) := do
  match ← chain contents a with
  | none => return none
  | some first =>
    match ← chain contents b with
    | none => return none
    | some second => return second.find? fun name => first.contains name

/-- What the files say about super classes. -/
def hierarchy (classPath : ClassPath) (contents : FileContents) : Hierarchy where
  common a b :=
    match common contents a b classPath with
    | .ok found _ => .ok found
    | .error failure _ => .error failure
  height := classPath.size + 2

end ClassPath

end JvmAsm
