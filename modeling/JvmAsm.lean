import JvmAsm.Files.Tree
import JvmAsm.Main
import JvmAsm.Proofs.ClassPath
import JvmAsm.Proofs.Code.NormalForm
import JvmAsm.Proofs.Decode.Instructions
import JvmAsm.Proofs.Decode.Locality
import JvmAsm.Proofs.Encode.StackMapCoverage
import JvmAsm.Proofs.Encode.StackMapSize
import JvmAsm.Proofs.Encode.Strictness
import JvmAsm.Proofs.Encode.Unreachable
import JvmAsm.Proofs.Grammar
import JvmAsm.Proofs.Pool.Agreement
import JvmAsm.Proofs.Reassembly.Class
import JvmAsm.Proofs.RoundTrip.Acceptance
import JvmAsm.Proofs.RoundTrip.LocalVariables
import JvmAsm.Proofs.Text.Constants
import JvmAsm.Proofs.Text.Names
import JvmAsm.Proofs.Verification.Endless
import JvmAsm.Proofs.Verification.Uninitialized
import JvmAsm.Proofs.Verification.Slots
import JvmAsm.Proofs.Decode.LabelTable
import JvmAsm.Proofs.Bytecode.Attempts
