import QuantileSketch.Bytes
import QuantileSketch.Error.Cause

/-!
# Regions

A sketch can keep its updatable image current in a region of bytes that the caller hands over. When
the image outgrows the region, a server is asked for a larger one. What a server answers is up to
it: it may refuse, the region that it returns may be too short or longer than asked for, and a size
that no region can have aborts.
-/
namespace QuantileSketch

/-- A server of regions: the answer to its `i`-th request, made with the region in use and the
number of bytes required. -/
abbrev RegionServer := Nat → Bytes → Nat → Except Failure Bytes

namespace RegionServer

/-- A new region with the same byte everywhere. A size is a word of 63 bits: distances within a
region have a sign. -/
def filled (size : Nat) (byte : UInt8) : Except Abort Bytes :=
  if size < wordBound 63 then .ok (Array.replicate size byte)
  else .error (.check "capacity overflow")

/-- Returns regions of just the size required. -/
def exact : RegionServer := fun _ _ required => filled required 0

/-- Returns regions of twice the size required, so that the next few requests are not needed. -/
def overAllocating : RegionServer := fun _ _ required => do
  (Cause.overAllocation required).unless (required * 2 < wordBound 64)
  filled (required * 2) 0

theorem filled_eq_ok_iff {size : Nat} {byte : UInt8} {region : Bytes} :
    filled size byte = .ok region ↔
      size < wordBound 63 ∧ Array.replicate size byte = region := by
  by_cases h : size < wordBound 63 <;> simp [filled, h]

end RegionServer

/-- A region, the server that can replace it, and the number of requests that were made. -/
structure Backing where
  region : Bytes
  server : RegionServer
  requests : Nat := 0

namespace Backing

/-- Counts a request. -/
def asked (b : Backing) : Backing := { b with requests := b.requests + 1 }

/-- Asks for a region of at least `required` bytes. -/
def request (b : Backing) (required : Nat) : Except Failure Bytes :=
  match b.server b.requests b.region required with
  | .error (.refused reason) => .error (.refused (Cause.requestFailed required reason).error)
  | .error (.aborted abort) => .error (.aborted abort)
  | .ok region => do
    (Cause.shortBuffer required region.size).unless (required ≤ region.size)
    return region

end Backing

end QuantileSketch
