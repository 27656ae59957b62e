namespace EthernetMac

/-- The surroundings of the driver as the driver meets them: a window of 32-bit registers addressed by their byte
offset, and a delay in nanoseconds. Every access may change the surroundings, a read no less than a write. -/
class Bus (ε : Type) where
  read : UInt32 → ε → UInt32 × ε
  write : UInt32 → UInt32 → ε → ε
  delay : Nat → ε → ε

namespace Bus

variable {ε : Type} [Bus ε]

def load (offset : UInt32) : StateM ε UInt32 :=
  fun env => read offset env

def store (offset value : UInt32) : StateM ε Unit :=
  fun env => ((), write offset value env)

/-- One read and one write; what the hardware changes in between is lost to the write. -/
def update (offset : UInt32) (change : UInt32 → UInt32) : StateM ε Unit := do
  let value ← load offset
  store offset (change value)

def setBits (offset bits : UInt32) : StateM ε Unit :=
  update offset (· ||| bits)

def clearBits (offset bits : UInt32) : StateM ε Unit :=
  update offset (· &&& ~~~bits)

def pause (nanoseconds : Nat) : StateM ε Unit :=
  fun env => ((), delay nanoseconds env)

def pauseMicros (microseconds : Nat) : StateM ε Unit :=
  pause (microseconds * 1000)

end Bus

/-- A computation on the bus that may fail; what it did to the surroundings before it failed stays done. -/
abbrev Attempt (ε φ α : Type) := ExceptT φ (StateM ε) α

def Attempt.sure {ε φ α : Type} (act : StateM ε α) : Attempt ε φ α :=
  ExceptT.lift act

/-- The same computation with its failure told in other words. -/
def Attempt.relabel {ε φ ψ α : Type} (tell : φ → ψ) (attempt : Attempt ε φ α) : Attempt ε ψ α :=
  ExceptT.adapt tell attempt

end EthernetMac
