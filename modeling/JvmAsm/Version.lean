
namespace JvmAsm

structure Version where
  major : UInt16
  minor : UInt16
  deriving DecidableEq, Repr

namespace Version

/-- The major number decides first. -/
def compare (a b : Version) : Ordering :=
  (Ord.compare a.major b.major).then (Ord.compare a.minor b.minor)

def isBefore (a b : Version) : Bool := a.compare b == .lt

/-- The oldest major number that is read. -/
def oldestMajor : UInt16 := 45

/-- The newest version that is read and written. -/
def latest : Version := ⟨67, 0⟩

/-- The version of a class whose text gives none. -/
def standard : Version := ⟨52, 0⟩

/-- From this version on, code comes with stack map frames. -/
def firstWithFrames : Version := ⟨50, 0⟩

/-- From this version on, code has no subroutines. -/
def firstWithoutSubroutines : Version := ⟨51, 0⟩

def hasFrames (version : Version) : Bool := !version.isBefore firstWithFrames

def allowsSubroutines (version : Version) : Bool := version.isBefore firstWithoutSubroutines

def text (version : Version) : String :=
  toString version.major.toNat ++ "." ++ toString version.minor.toNat

end Version

end JvmAsm
