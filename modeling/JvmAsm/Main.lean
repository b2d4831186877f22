import JvmAsm.CommandLine.Run

namespace JvmAsm

namespace CommandLine

/-- The reason for which an operation on a file has failed. -/
def faultOf : IO.Error → FileFault
  | .noFileOrDirectory .. => .notFound
  | .alreadyExists .. => .exists
  | .inappropriateType _ 21 _ => .isDirectory
  | .inappropriateType .. => .notDirectory
  | .invalidArgument _ 36 _ => .nameTooLong
  | error => .other (toString error)

/-- What an operation on a file gives, unless the path or the operation is at fault. -/
def attempted {α : Type} (path : Path) (action : IO α) : IO (Except FileFault α) := do
  match path.fault? with
  | some fault => return .error fault
  | none =>
    try
      return .ok (← action)
    catch error =>
      return .error (faultOf error)

/-- The files below a directory, with the parts of their paths from there after the given ones. -/
partial def walk (root : Path) (before : List String) : IO (List (List String)) := do
  let real ← IO.FS.realPath root.text
  if ← real.isDir then
    let entries ← real.readDir
    let found ← entries.toList.mapM fun entry =>
      walk (root.join entry.fileName) (before ++ [entry.fileName])
    return found.flatten
  else
    return [before]

def hostOfMachine : Host IO where
  readBytes path := attempted path do
    return (← IO.FS.readBinFile path.text).toList
  isDirectory path := do
    let found ← attempted path do
      let real ← IO.FS.realPath path.text
      real.isDir
    return found.toOption.getD false
  createDirectories path := attempted path (IO.FS.createDirAll path.text)
  writeBytes path bytes := attempted path (IO.FS.writeBinFile path.text ⟨bytes.toArray⟩)
  filesBelow root := attempted root (walk root [])
  print text := IO.print text
  report line := IO.eprintln line

def usage : String :=
  "usage: jvmasm [-v] assemble [-o PATH] [--no-frames] [--classpath DIR]... " ++
    "[--strict-hierarchy] INPUT...\n       jvmasm [-v] disassemble [-o PATH] INPUT..."

end CommandLine

end JvmAsm

open JvmAsm.CommandLine in
def main (arguments : List String) : IO UInt32 := do
  match Invocation.read? arguments with
  | some invocation => return (← invocation.run hostOfMachine).toUInt32
  | none =>
    IO.eprintln usage
    return 2
