
namespace JvmAsm

namespace Name

/-- The characters that divide names from each other do not stand inside a name. -/
def isPlain (c : Char) : Bool := !(c == '.' || c == ';' || c == '[' || c == '/')

def isUnqualified (text : List Char) : Bool := !text.isEmpty && text.all isPlain

/-- Whether the rest of an object name is allowed, where a part has been started or not. -/
def isObjectFrom (started : Bool) : List Char → Bool
  | [] => started
  | c :: rest =>
    if c == '/' then started && isObjectFrom false rest else isPlain c && isObjectFrom true rest

/-- The parts of an object name are divided by slashes, and none is empty. -/
def isObject (text : List Char) : Bool := isObjectFrom false text

/-- Only the two special methods have angle brackets in their names. -/
def isMethod (text : List Char) : Bool :=
  text == "<init>".toList || text == "<clinit>".toList ||
    isUnqualified text && !text.any fun c => c == '<' || c == '>'

end Name

/-- The name of a field or of a record component. -/
structure UnqualifiedName where
  text : String
  valid : Name.isUnqualified text.toList = true
  deriving DecidableEq

def UnqualifiedName.ofString? (text : String) : Option UnqualifiedName :=
  if valid : Name.isUnqualified text.toList = true then some ⟨text, valid⟩ else none

structure MethodName where
  text : String
  valid : Name.isMethod text.toList = true
  deriving DecidableEq

def MethodName.ofString? (text : String) : Option MethodName :=
  if valid : Name.isMethod text.toList = true then some ⟨text, valid⟩ else none

def MethodName.isConstructor (name : MethodName) : Bool := name.text == "<init>"

/-- The binary name of a class or interface that is no array. -/
structure ObjectName where
  text : String
  valid : Name.isObject text.toList = true
  deriving DecidableEq

instance : Hashable ObjectName where
  hash name := hash name.text

namespace ObjectName

def ofString? (text : String) : Option ObjectName :=
  if valid : Name.isObject text.toList = true then some ⟨text, valid⟩ else none

def root : ObjectName := ⟨"java/lang/Object", by decide +kernel⟩

def throwable : ObjectName := ⟨"java/lang/Throwable", by decide +kernel⟩

def string : ObjectName := ⟨"java/lang/String", by decide +kernel⟩

def classLiteral : ObjectName := ⟨"java/lang/Class", by decide +kernel⟩

def methodHandle : ObjectName := ⟨"java/lang/invoke/MethodHandle", by decide +kernel⟩

def methodType : ObjectName := ⟨"java/lang/invoke/MethodType", by decide +kernel⟩

end ObjectName

end JvmAsm
