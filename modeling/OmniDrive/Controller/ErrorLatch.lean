/-! Latched error bits. -/
namespace OmniDrive

/-- The faults since the last report, one bit each. -/
structure ErrorLatch where
  bits : UInt32
  deriving DecidableEq, Repr

namespace ErrorLatch

def empty : ErrorLatch := ⟨0⟩

/-- More bytes arrived than could be staged. -/
def receiveOverflow : UInt32 := 2

def set (e : ErrorLatch) (flags : UInt32) : ErrorLatch := ⟨e.bits ||| flags⟩

def clear (e : ErrorLatch) (mask : UInt32) : ErrorLatch := ⟨e.bits &&& ~~~mask⟩

def isSet (e : ErrorLatch) (flags : UInt32) : Bool := e.bits &&& flags == flags

def reset (e : ErrorLatch) : ErrorLatch := e.clear 0xFFFFFFFF

theorem reset_eq_empty (e : ErrorLatch) : e.reset = empty := by
  have none_left : ~~~(0xFFFFFFFF : UInt32) = 0 := by decide
  simp [reset, clear, empty, none_left]

end ErrorLatch

end OmniDrive
