import JvmAsm.Code.Basic
import JvmAsm.Flags
import JvmAsm.Version

namespace JvmAsm

structure Field where
  access : Flags .fields
  name : UnqualifiedName
  type : FieldType
  isDeprecated : Bool := false
  isSynthetic : Bool := false
  constantValue : Option ConstantValue := none
  signature : Option String := none
  annotations : Annotations := {}
  typeAnnotations : TypeAnnotations FieldTarget := {}
  attributes : List RawAttribute := []
  deriving BEq

structure MethodParameter where
  name : Option String
  flags : Flags .parameters
  deriving DecidableEq

/-- Each list is there if its attribute is there, whatever the number of parameters is. -/
structure ParameterAnnotations where
  visible : Option (List (List Annotation)) := none
  invisible : Option (List (List Annotation)) := none
  deriving BEq

structure Method where
  access : Flags .methods
  name : MethodName
  descriptor : MethodDescriptor
  isDeprecated : Bool := false
  isSynthetic : Bool := false
  code : Option Code := none
  exceptions : List ClassName := []
  signature : Option String := none
  annotations : Annotations := {}
  typeAnnotations : TypeAnnotations MethodTarget := {}
  parameterAnnotations : ParameterAnnotations := {}
  annotationDefault : Option ElementValue := none
  parameters : Option (List MethodParameter) := none
  attributes : List RawAttribute := []
  deriving BEq

structure InnerClass where
  inner : ClassName
  outer : Option ClassName
  name : Option String
  flags : Flags .innerClasses
  deriving DecidableEq

structure EnclosingMethod where
  owner : ClassName
  method : Option (MethodName × MethodDescriptor)
  deriving DecidableEq

structure RecordComponent where
  name : UnqualifiedName
  type : FieldType
  signature : Option String := none
  annotations : Annotations := {}
  typeAnnotations : TypeAnnotations FieldTarget := {}
  attributes : List RawAttribute := []
  deriving BEq

structure ClassFile where
  version : Version
  access : Flags .classes
  name : ClassName
  superClass : Option ClassName
  interfaces : List ClassName
  fields : List Field := []
  methods : List Method := []
  isDeprecated : Bool := false
  isSynthetic : Bool := false
  innerClasses : List InnerClass := []
  enclosingMethod : Option EnclosingMethod := none
  signature : Option String := none
  sourceFile : Option String := none
  nestHost : Option ClassName := none
  nestMembers : List ClassName := []
  recordComponents : Option (List RecordComponent) := none
  annotations : Annotations := {}
  typeAnnotations : TypeAnnotations ClassTarget := {}
  attributes : List RawAttribute := []
  deriving BEq

def Method.title (method : Method) : String := method.name.text ++ method.descriptor.text

end JvmAsm
