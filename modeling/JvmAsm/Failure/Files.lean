import JvmAsm.Descriptor.Text
import JvmAsm.Files.Path

namespace JvmAsm

inductive FileCause where
  | machine (fault : FileFault)
  | reading (path : Path)
  | unread (path : Path)
  | creatingDirectory (path : Path)
  | creating (path : Path)
  | walking (root : Path)
  | operation (path : Path) (fault : FileFault)
  | inClassFile (path : Path)
  | wrongClass (path : Path) (found expected : ClassName)
  | ownSuper (name : ClassName)

def FileCause.message : FileCause → String
  | .machine fault => fault.message
  | .reading path => "failed to read " ++ path.quoted
  | .unread path => path.quoted ++ " has not been read yet"
  | .creatingDirectory path => "failed to create directory " ++ path.quoted
  | .creating path => "failed to create " ++ path.quoted
  | .walking root => "failed to walk class path directory " ++ root.quoted
  | .operation path fault => "IO error for operation on " ++ path.text ++ ": " ++ fault.message
  | .inClassFile path =>
    "failed to read class file " ++ path.quoted ++ " from the class path"
  | .wrongClass path found expected =>
    "class file " ++ path.quoted ++ " contains class " ++ found.text ++ ", expected " ++
      expected.text
  | .ownSuper name => "class " ++ name.text ++ " is its own super class"

end JvmAsm
