import JvmAsm.CommandLine.Host

namespace JvmAsm

/-- What stands at a path. -/
inductive FileNode where
  | directory
  | file (bytes : List UInt8)

/-- The directories and files by the parts of their paths from the root. -/
structure FileTree where
  /-- The working directory. -/
  home : List String := []
  nodes : List (List String × FileNode) := []

namespace FileTree

def node? (tree : FileTree) (parts : List String) : Option FileNode :=
  if parts.isPrefixOf tree.home then some .directory
  else (tree.nodes.find? fun node => node.1 == parts).map Prod.snd

/-- Puts something at a path, in place of what was there before. -/
def put (tree : FileTree) (parts : List String) (node : FileNode) : FileTree :=
  { tree with nodes := (tree.nodes.filter fun old => old.1 != parts) ++ [(parts, node)] }

def checkDirectory (tree : FileTree) (parts : List String) : Except FileFault Unit :=
  match tree.node? parts with
  | some .directory => .ok ()
  | some (.file _) => .error .notDirectory
  | none => .error .notFound

/-- Goes on from a directory. The root is the directory before itself. -/
def step (tree : FileTree) (current : List String) (part : String) :
    Except FileFault (List String) := do
  tree.checkDirectory current
  if Path.isIdle part then return current
  else if part == ".." then return current.dropLast
  else if Path.maxPartLength < part.utf8ByteSize then throw .nameTooLong
  else return current ++ [part]

def follow (tree : FileTree) (path : Path) (parts : List String) :
    Except FileFault (List String) :=
  match path.fault? with
  | some fault => .error fault
  | none => parts.foldlM tree.step (if path.text.startsWith "/" then [] else tree.home)

/-- Where a path leads to. -/
def resolve (tree : FileTree) (path : Path) : Except FileFault (List String) :=
  tree.follow path path.parts

def readBytes (tree : FileTree) (path : Path) : Except FileFault (List UInt8) := do
  match tree.node? (← tree.resolve path) with
  | some (.file bytes) => return bytes
  | some .directory => throw .isDirectory
  | none => throw .notFound

def isDirectory (tree : FileTree) (path : Path) : Bool :=
  match tree.resolve path with
  | .ok parts =>
    match tree.node? parts with
    | some .directory => true
    | _ => false
  | .error _ => false

def createDirectory (tree : FileTree) (path : Path) : Except FileFault FileTree := do
  let parts ← tree.resolve path
  match tree.node? parts with
  | some _ => throw .exists
  | none => return tree.put parts .directory

/-- Creates a directory, and before it those that it is in. -/
def createWithin (tree : FileTree) (path : Path) : Nat → Except FileFault FileTree
  | 0 => .error .notFound
  | depth + 1 =>
    match tree.createDirectory path with
    | .ok changed => .ok changed
    | .error .notFound => do
      match path.parent? with
      | none => throw .notFound
      | some parent =>
        let changed ← if parent.text == "" then pure tree else createWithin tree parent depth
        match changed.createDirectory path with
        | .ok changed => return changed
        | .error fault => if changed.isDirectory path then return changed else throw fault
    | .error fault => if tree.isDirectory path then .ok tree else .error fault

def createDirectories (tree : FileTree) (path : Path) : Except FileFault FileTree :=
  tree.createWithin path (path.parts.length + 1)

def writeBytes (tree : FileTree) (path : Path) (bytes : List UInt8) :
    Except FileFault FileTree := do
  if path.text.endsWith "/" then
    tree.checkDirectory (← tree.follow path (path.parts.reverse.dropWhile (· == "")).tail.reverse)
    throw .isDirectory
  let parts ← tree.resolve path
  match tree.node? parts with
  | some .directory => throw .isDirectory
  | _ => return tree.put parts (.file bytes)

def filesBelow (tree : FileTree) (root : Path) : Except FileFault (List (List String)) := do
  let parts ← tree.resolve root
  match tree.node? parts with
  | none => throw .notFound
  | some (.file _) => return [[]]
  | some .directory =>
    return tree.nodes.filterMap fun (found, node) =>
      match node with
      | .file _ => if parts.isPrefixOf found then some (found.drop parts.length) else none
      | .directory => none

end FileTree

namespace CommandLine

/-- Files together with what commands have put out, with the last lines first. -/
structure World where
  files : FileTree := {}
  printed : List String := []
  reported : List String := []

namespace World

def change (operation : FileTree → Except FileFault FileTree) :
    StateM World (Except FileFault Unit) := fun world =>
  match operation world.files with
  | .ok files => (.ok (), { world with files })
  | .error fault => (.error fault, world)

def host : Host (StateM World) where
  readBytes path := do
    return (← get).files.readBytes path
  isDirectory path := do
    return (← get).files.isDirectory path
  createDirectories path := change fun files => files.createDirectories path
  writeBytes path bytes := change fun files => files.writeBytes path bytes
  filesBelow root := do
    return (← get).files.filesBelow root
  print text := modify fun world => { world with printed := text :: world.printed }
  report line := modify fun world => { world with reported := line :: world.reported }

end World

end CommandLine

end JvmAsm
