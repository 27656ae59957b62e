import EthernetMac.Mdio
import EthernetMac.Proofs.Blocks
import EthernetMac.Proofs.Trace

namespace EthernetMac

open Bus

/-- The two registers through which the driver speaks to the PHYs, and the time that has gone by. -/
structure MdioUnit where
  address : UInt32
  data : UInt32
  moment : Nat := 0
deriving DecidableEq

namespace MdioUnit

/-- An exchange is under way. -/
def IsBusy (unit : MdioUnit) : Prop := unit.address &&& Fields.mdioBusy ≠ 0

instance (unit : MdioUnit) : Decidable unit.IsBusy := inferInstanceAs (Decidable (_ ≠ _))

/-- The divider of the management clock, where it stands in the register. -/
def divider (unit : MdioUnit) : UInt32 := unit.address &&& Fields.mdioClock

/-- A moment goes by. With a word the hardware ends the exchange that is under way, if there is one, and leaves the
word in the data register. The hardware never begins one. -/
def elapse (unit : MdioUnit) : Option UInt32 → MdioUnit
  | none => { unit with moment := unit.moment + 1 }
  | some word =>
    { address := unit.address &&& ~~~Fields.mdioBusy, data := word, moment := unit.moment + 1 }

theorem divider_elapse (unit : MdioUnit) (ended : Option UInt32) : (unit.elapse ended).divider = unit.divider := by
  cases ended with
  | none => rfl
  | some word =>
    have apart : ~~~Fields.mdioBusy &&& Fields.mdioClock = Fields.mdioClock := by decide
    rw [divider, elapse, UInt32.and_assoc, apart]
    rfl

/-- An idle bus stays idle until the driver begins an exchange. -/
theorem idle_elapse {unit : MdioUnit} (idle : ¬ unit.IsBusy) (ended : Option UInt32) :
    ¬ (unit.elapse ended).IsBusy := by
  cases ended with
  | none => exact idle
  | some word =>
    have cleared : unit.address &&& ~~~Fields.mdioBusy &&& Fields.mdioBusy = 0 := by
      rw [UInt32.and_assoc, UInt32.not_and_self, UInt32.and_zero]
    exact fun busy => busy cleared

end MdioUnit

/-- A word that the driver has written to a register, and the management unit as it found it. -/
structure MdioWrite where
  offset : UInt32
  value : UInt32
  found : MdioUnit
deriving DecidableEq

/-- Surroundings in which the management unit works at its own pace: at each moment `pace` tells whether an exchange
ends, and with which word in the data register. Every access of the driver takes a moment, and so does every delay.
All that the driver writes is on record. -/
structure MdioBench (pace : Nat → Option UInt32) (σ : Type) where
  unit : MdioUnit
  writes : List MdioWrite := []
  rest : σ

namespace MdioBench

variable {pace : Nat → Option UInt32} {σ : Type}

/-- The surroundings a moment later. -/
def passed (bench : MdioBench pace σ) : MdioBench pace σ :=
  { bench with unit := bench.unit.elapse (pace bench.unit.moment) }

def noted (bench : MdioBench pace σ) (offset value : UInt32) : MdioBench pace σ :=
  { bench with writes := bench.writes ++ [⟨offset, value, bench.unit⟩] }

/-- A word arrives at its register. -/
def stored [Bus σ] (bench : MdioBench pace σ) (offset value : UInt32) : MdioBench pace σ :=
  if offset = Register.mdioAddress.offset then { bench with unit := { bench.unit with address := value } }
  else if offset = Register.mdioData.offset then { bench with unit := { bench.unit with data := value } }
  else { bench with rest := Bus.write offset value bench.rest }

instance [Bus σ] : Bus (MdioBench pace σ) where
  read offset bench :=
    if offset = Register.mdioAddress.offset then (bench.passed.unit.address, bench.passed)
    else if offset = Register.mdioData.offset then (bench.passed.unit.data, bench.passed)
    else ((Bus.read offset bench.rest).1, { bench.passed with rest := (Bus.read offset bench.rest).2 })
  write offset value bench := (bench.passed.noted offset value).stored offset value
  delay nanoseconds bench := { bench.passed with rest := Bus.delay nanoseconds bench.rest }

/-- Between two moments the driver wrote nothing, and the divider stayed as it was. -/
structure Leaves (before after : MdioBench pace σ) : Prop where
  writes : after.writes = before.writes
  divider : after.unit.divider = before.unit.divider

theorem Leaves.composes : Composes (Leaves : MdioBench pace σ → MdioBench pace σ → Prop) where
  refl _ := ⟨rfl, rfl⟩
  trans one two := ⟨two.writes.trans one.writes, two.divider.trans one.divider⟩

theorem leaves_passed (bench : MdioBench pace σ) : bench.Leaves bench.passed :=
  ⟨rfl, bench.unit.divider_elapse _⟩

variable [Bus σ]

theorem leaves_read (register : Register) :
    Across Leaves (register.read : StateM (MdioBench pace σ) UInt32) := by
  intro bench
  change bench.Leaves (Bus.read register.offset bench).2
  simp only [Bus.read]
  split
  · exact bench.leaves_passed
  · split
    · exact bench.leaves_passed
    · exact ⟨bench.leaves_passed.writes, bench.leaves_passed.divider⟩

theorem leaves_pause (microseconds : Nat) :
    Across Leaves (pauseMicros microseconds : StateM (MdioBench pace σ) Unit) :=
  fun bench => ⟨bench.leaves_passed.writes, bench.leaves_passed.divider⟩

end MdioBench

end EthernetMac
