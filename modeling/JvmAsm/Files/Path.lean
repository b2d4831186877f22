import JvmAsm.Text.Quoted

namespace JvmAsm

structure Path where
  text : String
  deriving DecidableEq

namespace Path

def parts (path : Path) : List String := path.text.splitOn "/"

/-- A part that does not lead anywhere, unless a path starts with it. -/
def isIdle (part : String) : Bool := part == "" || part == "."

/-- Leaves out idle parts at the end, which are given in reverse. -/
def dropIdle : List String → List String
  | part :: before :: rest =>
    if isIdle part then dropIdle (before :: rest) else part :: before :: rest
  | parts => parts

def ofReversed : List String → Path
  | [""] => ⟨"/"⟩
  | parts => ⟨"/".intercalate parts.reverse⟩

/-- The directory that a path is in, which has no name if the path has a single part. -/
def parent? (path : Path) : Option Path :=
  match dropIdle path.parts.reverse with
  | [] => none
  | [first] => if first == "" then none else some ⟨""⟩
  | _ :: before => some (ofReversed (dropIdle before))

/-- The name before the last dot, unless the name starts with that dot, and what follows it. -/
def splitName (name : String) : String × Option String :=
  match (name.splitOn ".").reverse with
  | extension :: before :: rest =>
    let stem := ".".intercalate (before :: rest).reverse
    if stem == "" then (name, none) else (stem, some extension)
  | _ => (name, none)

/--
The path with another ending of its name. A name of two dots and an ending loses its ending, and
what is left leads to the directory before.
-/
def withExtension (path : Path) (extension : String) : Path :=
  match dropIdle path.parts.reverse with
  | [] => path
  | name :: before =>
    if name == ".." || isIdle name then path
    else
      let stem := (splitName name).1
      ofReversed ((if stem == "." then ".." else stem ++ "." ++ extension) :: before)

/-- The path of something inside a directory. -/
def join (path : Path) (name : String) : Path :=
  if path.text.endsWith "/" then ⟨path.text ++ name⟩ else ⟨path.text ++ "/" ++ name⟩

def quoted (path : Path) : String := Text.quoted path.text

end Path

/-- The reasons why files cannot be read or written. -/
inductive FileFault where
  | notFound
  | exists
  | notDirectory
  | isDirectory
  | nameTooLong
  | zeroInName
  | invalidText
  | other (message : String)
  deriving DecidableEq

def FileFault.message : FileFault → String
  | .notFound => "No such file or directory (os error 2)"
  | .exists => "File exists (os error 17)"
  | .notDirectory => "Not a directory (os error 20)"
  | .isDirectory => "Is a directory (os error 21)"
  | .nameTooLong => "File name too long (os error 36)"
  | .zeroInName => "file name contained an unexpected NUL byte"
  | .invalidText => "stream did not contain valid UTF-8"
  | .other message => message

namespace Path

/-- The longest path and the longest part of a path, in bytes. -/
def maxLength : Nat := 4095

def maxPartLength : Nat := 255

/-- What is wrong with a path, whatever the files are. -/
def fault? (path : Path) : Option FileFault :=
  if path.text.contains '\x00' then some .zeroInName
  else if maxLength < path.text.utf8ByteSize then some .nameTooLong
  else none

end Path

end JvmAsm
