import JvmAsm.Pool.Builder

namespace JvmAsm

open Binary

namespace StackMap

/-- The type of a value, where an object that is not initialized is known by an offset. -/
inductive Item where
  | top
  | int
  | float
  | double
  | long
  | null
  | uninitializedThis
  | object (name : ClassName)
  | uninitialized (offset : UInt16)
  deriving DecidableEq

structure MapFrame where
  offset : Nat
  locals : List Item
  stack : List Item
  deriving DecidableEq

def Item.ofType (offsetOf : Nat → Nat) : VerificationType → Item
  | .top => .top
  | .int => .int
  | .float => .float
  | .long => .long
  | .double => .double
  | .null => .null
  | .uninitializedThis => .uninitializedThis
  | .object name => .object name
  | .uninitialized index => .uninitialized (UInt16.ofNat (offsetOf index))

/-- The items of local variables; those found so far are kept. -/
def localItemsFrom (offsetOf : Nat → Nat) (found : Array Item) :
    List VerificationType → Except Failure (List Item)
  | [] => .ok found.toList
  | [type] =>
    if type.isWide then .error (.ofCause (.encoding (.lostHalf type)))
    else .ok (found.push (.ofType offsetOf type)).toList
  | type :: next :: rest =>
    if type.isWide then
      if next = .top then localItemsFrom offsetOf (found.push (.ofType offsetOf type)) rest
      else .error (.ofCause (.encoding (.lostHalf type)))
    else localItemsFrom offsetOf (found.push (.ofType offsetOf type)) (next :: rest)

/-- The second half of a long or double has no item of its own. -/
def localItems (offsetOf : Nat → Nat) (types : List VerificationType) :
    Except Failure (List Item) :=
  localItemsFrom offsetOf #[] types

/-- The items of a stack whose top comes first. -/
def stackItems (offsetOf : Nat → Nat) (types : List VerificationType) : List Item :=
  types.reverse.map (.ofType offsetOf)

def Item.bytes : Item → PoolM (List UInt8)
  | .top => return [0]
  | .int => return [1]
  | .float => return [2]
  | .double => return [3]
  | .long => return [4]
  | .null => return [5]
  | .uninitializedThis => return [6]
  | .object name => return 7 :: bytes16 (← PoolBuilder.className name)
  | .uninitialized offset => return 8 :: bytes16 offset

def itemsBytes (items : List Item) : PoolM (List UInt8) := do
  return (← items.mapM Item.bytes).flatten

/-- The number of some items. -/
def countBytes (items : List Item) : PoolM (List UInt8) :=
  match size16 items.length with
  | .ok bytes => return bytes
  | .error failure => throw failure

/-- The forms in which a frame can be written. -/
inductive Form where
  | same
  | sameWithItem (item : Item)
  | chop (count : Nat)
  | append (items : List Item)
  | full
  deriving DecidableEq

/-- At most this many local variables are added or taken away without writing all of them. -/
def maxChange : Nat := 3

def formOf (previous : List Item) (frame : MapFrame) : Form :=
  match frame.stack with
  | [] =>
    if frame.locals = previous then .same
    else if frame.locals.length < previous.length ∧
        previous.length - frame.locals.length ≤ maxChange ∧ frame.locals.isPrefixOf previous then
      .chop (previous.length - frame.locals.length)
    else if previous.length < frame.locals.length ∧
        frame.locals.length - previous.length ≤ maxChange ∧ previous.isPrefixOf frame.locals then
      .append (frame.locals.drop previous.length)
    else .full
  | [item] => if frame.locals = previous then .sameWithItem item else .full
  | _ => .full

def frameBytes (delta : Nat) (previous : List Item) (frame : MapFrame) : PoolM (List UInt8) :=
  let delta16 := bytes16 (UInt16.ofNat delta)
  match formOf previous frame with
  | .same => return if delta ≤ 63 then [UInt8.ofNat delta] else 251 :: delta16
  | .sameWithItem item => do
    let contents ← item.bytes
    return (if delta ≤ 63 then [UInt8.ofNat (64 + delta)] else 247 :: delta16) ++ contents
  | .chop count => return UInt8.ofNat (251 - count) :: delta16
  | .append items => do
    return UInt8.ofNat (251 + items.length) :: (delta16 ++ (← itemsBytes items))
  | .full => do
    let localCount ← countBytes frame.locals
    let localBytes ← itemsBytes frame.locals
    let stackCount ← countBytes frame.stack
    let stackBytes ← itemsBytes frame.stack
    return 255 :: (delta16 ++ localCount ++ localBytes ++ stackCount ++ stackBytes)

/-- Writes the rest of the frames, given the local variables and the offset of the one before. -/
def framesFrom (previous : List Item) (next : Nat) (written : Array (List UInt8)) :
    List MapFrame → PoolM (List UInt8)
  | [] => return written.toList.flatten
  | frame :: rest => do
    let contents ← frameBytes (frame.offset - next) previous frame
    framesFrom frame.locals (frame.offset + 1) (written.push contents) rest

/-- The table of frames, which are given in the order of their offsets. -/
def tableBytes (entry : List Item) (frames : List MapFrame) : PoolM (List UInt8) := do
  match size16 frames.length with
  | .ok count => return count ++ (← framesFrom entry 0 #[] frames)
  | .error failure => throw failure

end StackMap

end JvmAsm
