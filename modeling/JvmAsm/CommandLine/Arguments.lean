import JvmAsm.Files.Path

namespace JvmAsm

namespace CommandLine

inductive Command where
  | assemble
  | disassemble
  deriving DecidableEq, Repr

def Command.ofName? : String → Option Command
  | "assemble" => some .assemble
  | "disassemble" => some .disassemble
  | _ => none

/-- What a command is given. -/
structure Invocation where
  command : Command
  inputs : List Path := []
  output : Option Path := none
  noFrames : Bool := false
  classPath : List Path := []
  strictHierarchy : Bool := false
  verbosity : Nat := 0

inductive ValueOption where
  | output
  | classPath
  deriving DecidableEq, Repr

namespace Invocation

def isOption (argument : String) : Bool := argument.startsWith "-" && argument != "-"

/-- A path that is given has a name. -/
def path? (text : String) : Option Path := if text == "" then none else some ⟨text⟩

def addInput? (invocation : Invocation) (text : String) : Option Invocation := do
  return { invocation with inputs := invocation.inputs ++ [← path? text] }

def setValue? (invocation : Invocation) (option : ValueOption) (text : String) :
    Option Invocation := do
  let path ← path? text
  match option with
  | .output =>
    if invocation.output.isSome then none else return { invocation with output := some path }
  | .classPath => return { invocation with classPath := invocation.classPath ++ [path] }

def valueOption? (command : Command) (name : String) : Option ValueOption :=
  match name, command with
  | "output", _ => some .output
  | "classpath", .assemble => some .classPath
  | _, _ => none

def setFlag? (invocation : Invocation) (name : String) : Option Invocation :=
  match name, invocation.command with
  | "verbose", _ => some { invocation with verbosity := invocation.verbosity + 1 }
  | "no-frames", .assemble =>
    if invocation.noFrames then none else some { invocation with noFrames := true }
  | "strict-hierarchy", .assemble =>
    if invocation.strictHierarchy then none else some { invocation with strictHierarchy := true }
  | _, _ => none

/-- The text after an equals sign at the front. -/
def dropEquals : List Char → List Char
  | '=' :: rest => rest
  | chars => chars

/-- The letters of short options, the last of which may need a value that is yet to come. -/
def readLetters? (invocation : Invocation) : List Char → Option (Invocation × Option ValueOption)
  | [] => some (invocation, none)
  | 'v' :: rest =>
    readLetters? { invocation with verbosity := invocation.verbosity + 1 } rest
  | ['o'] => some (invocation, some .output)
  | 'o' :: rest =>
    (invocation.setValue? .output (String.ofList (dropEquals rest))).map fun changed =>
      (changed, none)
  | _ :: _ => none

/-- An option with a long name, whose value may stand after an equals sign or is yet to come. -/
def readLong? (invocation : Invocation) (text : List Char) :
    Option (Invocation × Option ValueOption) :=
  let name := String.ofList (text.takeWhile (· != '='))
  match text.dropWhile (· != '=') with
  | [] =>
    match valueOption? invocation.command name with
    | some option => some (invocation, some option)
    | none => (invocation.setFlag? name).map fun changed => (changed, none)
  | _ :: value => do
    let option ← valueOption? invocation.command name
    let changed ← invocation.setValue? option (String.ofList value)
    return (changed, none)

/-- Reads the arguments of a command. An option may still wait for its value. -/
def readFrom? (invocation : Invocation) (pending : Option ValueOption) :
    List String → Option Invocation
  | [] => if pending.isSome then none else some invocation
  | argument :: rest =>
    match pending with
    | some option =>
      if isOption argument then none
      else (invocation.setValue? option argument).bind fun changed => changed.readFrom? none rest
    | none =>
      if argument == "--" then rest.foldlM addInput? invocation
      else if isOption argument then
        match argument.toList with
        | '-' :: '-' :: name =>
          (invocation.readLong? name).bind fun (changed, pending) => changed.readFrom? pending rest
        | _ :: letters =>
          (invocation.readLetters? letters).bind fun (changed, pending) =>
            changed.readFrom? pending rest
        | [] => none
      else (invocation.addInput? argument).bind fun changed => changed.readFrom? none rest

/-- A command needs inputs, and takes super classes from one source only. -/
def isComplete (invocation : Invocation) : Bool :=
  !invocation.inputs.isEmpty &&
    !(invocation.strictHierarchy && !invocation.classPath.isEmpty)

/-- The command that comes after options that stand before every command. -/
def readCommand? (verbosity : Nat) : List String → Option Invocation
  | [] => none
  | argument :: rest =>
    if argument == "--verbose" then readCommand? (verbosity + 1) rest
    else if isOption argument then
      match argument.toList with
      | _ :: letters =>
        if letters.all (· == 'v') then readCommand? (verbosity + letters.length) rest else none
      | [] => none
    else
      (Command.ofName? argument).bind fun command =>
        Invocation.readFrom? { command, verbosity } none rest

/-- What the arguments ask for, if they are allowed. -/
def read? (arguments : List String) : Option Invocation :=
  (readCommand? 0 arguments).filter isComplete

end Invocation

end CommandLine

end JvmAsm
