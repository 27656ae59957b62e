namespace EthernetMac

def nanosPerSecond : Nat := 1000000000

/-- A point on the peripheral's clock. The two words are kept as the hardware reports them, so the nanoseconds
may reach past one second. -/
structure Timestamp where
  seconds : UInt32
  nanoseconds : UInt32
deriving DecidableEq, Repr, Inhabited

namespace Timestamp

def zero : Timestamp := ⟨0, 0⟩

def nanos (t : Timestamp) : Nat :=
  t.seconds.toNat * nanosPerSecond + t.nanoseconds.toNat

/-- Stamps are ordered by their seconds and, within one second, by their nanoseconds. -/
instance : Ord Timestamp where
  compare a b := (compare a.seconds b.seconds).then (compare a.nanoseconds b.nanoseconds)

def latest (a b : Timestamp) : Timestamp :=
  if compare a b = .gt then a else b

/-- Seconds, a point, and at least nine digits of nanoseconds. -/
def text (t : Timestamp) : String :=
  let digits := toString t.nanoseconds.toNat
  toString t.seconds.toNat ++ "." ++ String.ofList (List.replicate (9 - digits.length) '0') ++ digits

end Timestamp

end EthernetMac
