import JvmAsm.ClassPath
import JvmAsm.CommandLine.Arguments
import JvmAsm.CommandLine.Host
import JvmAsm.Encode.Class
import JvmAsm.Text.Parse
import JvmAsm.Text.Print

namespace JvmAsm

def Failure.line (failure : Failure) : String := ": ".intercalate failure.messages

/-- The word for the kind of a failure; one without a kind comes from files. -/
def Failure.kindName (failure : Failure) : String :=
  match failure.kind? with
  | some kind => kind.name
  | none => "io"

def Failure.exitCode (failure : Failure) : UInt8 :=
  match failure.kind? with
  | some kind => kind.exitCode
  | none => 1

namespace CommandLine

variable {m : Type → Type} [Monad m]

def fileFailure (cause : FileCause) (fault : FileFault) : Failure :=
  (Failure.ofCause (.files (.machine fault))).within (.files cause)

def readFile (host : Host m) (path : Path) : ExceptT Failure m (List UInt8) := do
  match ← host.readBytes path with
  | .ok bytes => return bytes
  | .error fault => throw (fileFailure (.reading path) fault)

def readText (host : Host m) (path : Path) : ExceptT Failure m String := do
  let bytes ← readFile host path
  match String.fromUTF8? ⟨bytes.toArray⟩ with
  | some text => return text
  | none => throw (fileFailure (.reading path) .invalidText)

def writeFile (host : Host m) (path : Path) (bytes : List UInt8) : ExceptT Failure m Unit := do
  if let some parent := path.parent? then
    if parent.text != "" then
      if let .error fault ← host.createDirectories parent then
        throw (fileFailure (.creatingDirectory parent) fault)
  if let .error fault ← host.writeBytes path bytes then
    throw (fileFailure (.creating path) fault)

/-- Tells what has been done, if that is asked for. -/
def inform (host : Host m) (invocation : Invocation) (message : String) : m Unit := do
  if 0 < invocation.verbosity then host.report ("[INFO] " ++ message)

/-- Reports a failure with an input. The first failure decides how the command ends. -/
def conclude (host : Host m) (input : Path) (code : UInt8) (result : Except Failure Unit) :
    m UInt8 := do
  match result with
  | .ok () => return code
  | .error failure =>
    host.report ("error[" ++ failure.kindName ++ "]: " ++ input.text ++ ": " ++ failure.line)
    return if code == 0 then failure.exitCode else code

/-- Whether outputs go into a directory, by the names of their classes. -/
def intoDirectory (host : Host m) (invocation : Invocation) : m Bool := do
  match invocation.output with
  | none => return false
  | some output =>
    let isDirectory ← host.isDirectory output
    return 1 < invocation.inputs.length || isDirectory

/-- The class files in some directories, of which the first ones count. -/
def classPath (host : Host m) (roots : List Path) : ExceptT Failure m ClassPath :=
  roots.foldlM (fun classPath root => do
    match ← host.filesBelow root with
    | .ok found => return classPath.addFiles root found
    | .error fault =>
      throw ((fileFailure (.operation root fault) fault).within (.files (.walking root)))) {}

/-- What comes out of encoding a class. -/
abbrev Outcome := Except Failure (List UInt8) × List Warning

abbrev ReadFiles := List (Path × Except FileFault (List UInt8))

/-- Encodes a class with what some files say about super classes. -/
def encodeKnowing (options : EncodeOptions) (known : ClassPath) (value : ClassFile)
    (found : ReadFiles) : Outcome :=
  let contents path := (found.find? fun file => file.1 = path).map Prod.snd
  encodeWithWarnings { options with hierarchy := known.hierarchy contents } value

/--
Encodes a class with the classes of a class path. A class file is read when it turns out that it is
needed, and then encoding starts again. Every class file is read at most once.
-/
def encodeReading (host : Host m) (options : EncodeOptions) (known : ClassPath)
    (value : ClassFile) : Nat → ReadFiles → m (Outcome × ReadFiles)
  | 0, found => return (encodeKnowing options known value found, found)
  | fuel + 1, found => do
    let outcome := encodeKnowing options known value found
    let needed := match outcome.1 with
      | .ok _ => none
      | .error failure => failure.unread?
    match needed with
    | none => return (outcome, found)
    | some path =>
      let bytes ← host.readBytes path
      encodeReading host options known value fuel ((path, bytes) :: found)

def encodeInput (host : Host m) (invocation : Invocation) (known : ClassPath)
    (value : ClassFile) : m (Outcome × ClassPath) := do
  let options : EncodeOptions := { computeFrames := !invocation.noFrames }
  if invocation.strictHierarchy then
    return (encodeWithWarnings { options with hierarchy := .unknown } value, known)
  else if invocation.classPath.isEmpty then
    return (encodeWithWarnings { options with hierarchy := .rootOnly } value, known)
  else
    let (outcome, found) ← encodeReading host options known value known.files.size []
    return (outcome, found.foldl (fun known (path, bytes) =>
      match bytes with
      | .ok bytes => known.addFile path bytes
      | .error _ => known) known)

def writeClass (host : Host m) (invocation : Invocation) (intoDirectory : Bool) (input : Path)
    (name : ClassName) (bytes : List UInt8) : ExceptT Failure m Unit := do
  let path := match invocation.output with
    | some output => if intoDirectory then output.join (name.text ++ ".class") else output
    | none => input.withExtension "class"
  writeFile host path bytes
  inform (m := m) host invocation ("assembled " ++ input.quoted ++ " into " ++ path.quoted)

/-- Assembles an input, given what is known about classes before it. -/
def assembleInput (host : Host m) (invocation : Invocation) (intoDirectory : Bool)
    (known : ClassPath) (input : Path) (parsed : Except Failure ClassFile) :
    m (Except Failure Unit × ClassPath) := do
  match parsed with
  | .error failure => return (.error failure, known)
  | .ok value =>
    let ((result, warnings), known) ← encodeInput host invocation known value
    for warning in warnings do
      host.report ("[WARN] " ++ warning.message)
    match result with
    | .error failure => return (.error failure, known)
    | .ok bytes =>
      return (← (writeClass host invocation intoDirectory input value.name bytes).run, known)

def assemble (host : Host m) (invocation : Invocation) : m UInt8 := do
  let parsed ← invocation.inputs.mapM fun input => do
    let text ← (readText host input).run
    return (input, text.bind Text.parse)
  match ← (classPath host invocation.classPath).run with
  | .error failure =>
    host.report ("error: " ++ failure.line)
    return 1
  | .ok found =>
    let known := parsed.foldl (fun known (_, result) =>
      match result with
      | .ok value => known.add value
      | .error _ => known) found
    let intoDirectory ← intoDirectory host invocation
    let (code, _) ← parsed.foldlM (fun (code, known) (input, result) => do
      let (result, known) ← assembleInput host invocation intoDirectory known input result
      return (← conclude host input code result, known)) ((0 : UInt8), known)
    return code

def disassembleInput (host : Host m) (invocation : Invocation) (intoDirectory : Bool)
    (input : Path) : ExceptT Failure m Unit := do
  let value ← decode (← readFile host input)
  let text ← Text.print value
  match invocation.output with
  | none => host.print text
  | some output =>
    let path := if intoDirectory then output.join (value.name.text ++ ".jasm") else output
    writeFile host path text.toUTF8.toList
    inform (m := m) host invocation ("disassembled " ++ input.quoted ++ " into " ++ path.quoted)

def disassemble (host : Host m) (invocation : Invocation) : m UInt8 := do
  let intoDirectory ← intoDirectory host invocation
  invocation.inputs.foldlM (fun code input => do
    let result ← (disassembleInput host invocation intoDirectory input).run
    conclude host input code result) 0

/-- Runs a command and gives the code that it ends with. -/
def Invocation.run (host : Host m) (invocation : Invocation) : m UInt8 :=
  match invocation.command with
  | .assemble => assemble host invocation
  | .disassemble => disassemble host invocation

end CommandLine

end JvmAsm
