import GattGateway.Address
import GattGateway.Limits
import GattGateway.Text.Utf8

/-!
# Reports of one scan window

The radio reports every sighting. A collector keeps the first ones, up to its limit, and counts
the rest.
-/
namespace GattGateway

open Text (Bytes)

structure Report where
  address : Address
  kind : AddressKind
  rssi : Int8
  payload : Bytes
  deriving DecidableEq, Repr

structure Collector where
  limit : Nat
  reports : List Report := []
  dropped : Nat := 0
  deriving DecidableEq, Repr

namespace Collector

def empty (limit : Nat) : Collector := { limit := min limit maxReports }

def isFull (c : Collector) : Bool := c.limit ≤ c.reports.length

/-- Keeps a report with its payload cut to size, or counts it. -/
def add (c : Collector) (r : Report) : Collector :=
  if c.isFull then { c with dropped := c.dropped + 1 }
  else { c with reports := c.reports ++ [{ r with payload := r.payload.take maxAdvertBytes }] }

def addAll (c : Collector) (rs : List Report) : Collector := rs.foldl add c

end Collector

end GattGateway
