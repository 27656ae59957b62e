import EthernetMac.Bus

namespace EthernetMac

/-- Surroundings without any behaviour: each register holds what was written last, and delays add up. -/
structure PlainMemory where
  word : UInt32 → UInt32 := fun _ => 0
  writes : List (UInt32 × UInt32) := []
  delayed : Nat := 0

namespace PlainMemory

/-- The memory with another word at an offset, which does not count as a write. -/
def poke (memory : PlainMemory) (offset value : UInt32) : PlainMemory :=
  { memory with word := fun other => if other = offset then value else memory.word other }

end PlainMemory

instance : Bus PlainMemory where
  read offset memory := (memory.word offset, memory)
  write offset value memory :=
    { memory.poke offset value with writes := (offset, value) :: memory.writes }
  delay nanoseconds memory := { memory with delayed := memory.delayed + nanoseconds }

end EthernetMac
