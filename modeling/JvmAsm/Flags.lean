import JvmAsm.Text.Quoted

namespace JvmAsm

inductive FlagKind where
  | classes | innerClasses | fields | methods | parameters
  deriving DecidableEq, Repr

namespace FlagKind

/-- The named bits of each kind, in increasing order. -/
def named : FlagKind → List (String × UInt16)
  | .classes =>
    [("public", 0x0001), ("final", 0x0010), ("super", 0x0020), ("interface", 0x0200),
      ("abstract", 0x0400), ("synthetic", 0x1000), ("annotation", 0x2000), ("enum", 0x4000),
      ("module", 0x8000)]
  | .innerClasses =>
    [("public", 0x0001), ("private", 0x0002), ("protected", 0x0004), ("static", 0x0008),
      ("final", 0x0010), ("interface", 0x0200), ("abstract", 0x0400), ("synthetic", 0x1000),
      ("annotation", 0x2000), ("enum", 0x4000)]
  | .fields =>
    [("public", 0x0001), ("private", 0x0002), ("protected", 0x0004), ("static", 0x0008),
      ("final", 0x0010), ("volatile", 0x0040), ("transient", 0x0080), ("synthetic", 0x1000),
      ("enum", 0x4000)]
  | .methods =>
    [("public", 0x0001), ("private", 0x0002), ("protected", 0x0004), ("static", 0x0008),
      ("final", 0x0010), ("synchronized", 0x0020), ("bridge", 0x0040), ("varargs", 0x0080),
      ("native", 0x0100), ("abstract", 0x0400), ("strict", 0x0800), ("synthetic", 0x1000)]
  | .parameters => [("final", 0x0010), ("synthetic", 0x1000), ("mandated", 0x8000)]

def title : FlagKind → String
  | .classes => "ClassAccess"
  | .innerClasses => "InnerClassFlags"
  | .fields => "FieldAccess"
  | .methods => "MethodAccess"
  | .parameters => "ParameterFlags"

end FlagKind

structure Flags (kind : FlagKind) where
  bits : UInt16 := 0
  deriving DecidableEq, Repr

namespace Flags

variable {kind : FlagKind}

def keywords (flags : Flags kind) : List String :=
  (kind.named.filter fun flag => flags.bits &&& flag.2 != 0).map Prod.fst

def other (flags : Flags kind) : UInt16 :=
  kind.named.foldl (fun rest flag => rest &&& ~~~flag.2) flags.bits

/-- Sets the bit with the given name, if there is one. -/
def set? (flags : Flags kind) (keyword : String) : Option (Flags kind) :=
  (kind.named.find? fun flag => flag.1 == keyword).map fun flag => ⟨flags.bits ||| flag.2⟩

/-- The names of the set bits and the number of the others, between braces. -/
def description (flags : Flags kind) : String :=
  let words := flags.keywords ++
    if flags.other == 0 then [] else ["0x" ++ Text.hexPadded 4 flags.other.toNat]
  kind.title ++ " \x7b " ++ String.join (words.map (· ++ " ")) ++ "\x7d"

end Flags

def Flags.isStatic (flags : Flags .methods) : Bool := flags.bits &&& 0x0008 != 0

end JvmAsm
