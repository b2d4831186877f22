import JvmAsm.Failure.Basic

namespace JvmAsm

namespace CommandLine

/-- The files and the outputs that a command works with. -/
structure Host (m : Type → Type) where
  readBytes : Path → m (Except FileFault (List UInt8))
  isDirectory : Path → m Bool
  /-- Creates a directory together with those it is in. -/
  createDirectories : Path → m (Except FileFault Unit)
  writeBytes : Path → List UInt8 → m (Except FileFault Unit)
  /-- The files below a directory, by the parts of their paths from there. -/
  filesBelow : Path → m (Except FileFault (List (List String)))
  print : String → m Unit
  report : String → m Unit

end CommandLine

end JvmAsm
