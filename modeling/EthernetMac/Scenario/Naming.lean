import EthernetMac.Geometry
import EthernetMac.Register
import EthernetMac.Diagnostic

namespace EthernetMac

/-- A word as a report shows it: a number, or a place in the memory that the driver shares with the hardware. -/
inductive NamedWord where
  | number (value : UInt32)
  | inRxRing (distance : Int)
  | inTxRing (distance : Int)
  | inBlocks (distance : Nat)
deriving DecidableEq, Repr

namespace NamedWord

def signed (distance : Int) : String :=
  if distance < 0 then toString distance else "+" ++ toString distance

def text? : NamedWord → Option String
  | .number _ => none
  | .inRxRing distance => some ("rx_ring" ++ signed distance)
  | .inTxRing distance => some ("tx_ring" ++ signed distance)
  | .inBlocks distance => some ("arena" ++ signed distance)

end NamedWord

namespace Placement

def simulated : Placement :=
  { rxRing := 0x6A510000, txRing := 0x7B630000, blocks := 0x58420000 }

/-- The bytes around a ring in which an address counts as one of that ring. -/
def reach : Nat := 0x800000

/-- The signed distance of an address from a base, if it is within reach. -/
def distance? (base address : UInt32) : Option Int :=
  let distance := (address - base).toInt32.toInt
  if distance.natAbs < reach then some distance else none

def nameRxAddress (placement : Placement) (address : UInt32) : NamedWord :=
  ((distance? placement.rxRing address).map .inRxRing).getD (.number address)

def nameRegister (placement : Placement) (offset value : UInt32) : NamedWord :=
  if offset = Register.rxListAddress.offset ∨ offset = Register.currentRxDescriptor.offset then
    placement.nameRxAddress value
  else if offset = Register.txListAddress.offset then
    ((distance? placement.txRing value).map .inTxRing).getD (.number value)
  else .number value

def nameBuffer (placement : Placement) (g : Geometry) (value : UInt32) : NamedWord :=
  let distance := (value - placement.blocks).toNat
  if distance % g.buffer = 0 ∧ distance / g.buffer < g.rx + g.tx then .inBlocks distance else .number value

def logLine (placement : Placement) (entry : Diagnostic) : String :=
  let label := match entry.severity with
    | .debug => "DEBUG: "
    | .warning => "WARN: "
  label ++ entry.wording fun address =>
    (placement.nameRxAddress address).text?.getD ("0x" ++ Diagnostic.hexWord address)

end Placement

end EthernetMac
