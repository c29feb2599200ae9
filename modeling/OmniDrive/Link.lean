/-! The serial link as seen by a reader: how many bytes wait, and which of them can be had. -/
namespace OmniDrive

/-- A fault of the link, with the text of its cause. -/
inductive LinkError
  /-- The port itself. -/
  | serial (text : String)
  /-- Reading from it or writing to it. -/
  | io (text : String)
  deriving DecidableEq, Repr

namespace LinkError

/-- The cause alone. -/
def text : LinkError → String
  | serial text | io text => text

def message : LinkError → String
  | serial text => "Serial port error: " ++ text
  | io text => "IO error: " ++ text

end LinkError

/-- What a port has to offer: a number of waiting bytes, and the bytes that really come. -/
structure Offer where
  claimed : Nat
  bytes : List UInt8
  deriving DecidableEq, Repr

/-- A port without input. -/
def Offer.nothing : Offer := ⟨0, []⟩

/-- All waiting bytes. It is a fault when fewer come than were claimed. -/
def Offer.read (o : Offer) : Except LinkError (List UInt8) :=
  if o.bytes.length < o.claimed then .error (.io "failed to fill whole buffer")
  else .ok (o.bytes.take o.claimed)

end OmniDrive
