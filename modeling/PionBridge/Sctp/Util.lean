import PionBridge.Lib.Serial

/-!
# `PionBridge.Sctp.Util`: serial number comparisons and padding

The comparisons of `util.go` for the 32-bit TSNs and the 16-bit stream sequence numbers, both
instances of `Lib.Serial`, and the padding of chunks and parameters to four bytes.
-/

set_option autoImplicit false

namespace PionBridge.Sctp

open PionBridge.Lib

/-- A transmission sequence number. -/
abbrev TSN := BitVec 32

/-- A stream sequence number. -/
abbrev SSN := BitVec 16

def sna32LT (i1 i2 : BitVec 32) : Bool := serialLT i1 i2
def sna32LTE (i1 i2 : BitVec 32) : Bool := serialLTE i1 i2
def sna32GT (i1 i2 : BitVec 32) : Bool := serialGT i1 i2

def sna16LT (i1 i2 : BitVec 16) : Bool := serialLT i1 i2
def sna16GT (i1 i2 : BitVec 16) : Bool := serialGT i1 i2

def paddingMultiple : Nat := 4

/-- The number of bytes that fill up a length of `l` to a multiple of four. -/
def getPadding (l : Nat) : Nat := (paddingMultiple - l % paddingMultiple) % paddingMultiple

end PionBridge.Sctp
