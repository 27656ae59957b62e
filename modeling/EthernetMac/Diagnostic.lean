namespace EthernetMac

inductive Severity where
  | debug
  | warning
deriving DecidableEq, Repr

inductive Diagnostic where
  | walkReentered
  | strayRearmed (count first : Nat)
  | overflowDropped (first count : Nat)
  | positionOutsideRing (address : UInt32)
  | contextMissing (last : Nat)
  | frameError (word3 : UInt32)
  | lengthInvalid (length segments : Nat)
  | lengthExceedsScratch (length : Nat)
  | scanDeferred
  | dispatchReentered
  | errorInterrupt (status : UInt32)
deriving DecidableEq, Repr

namespace Diagnostic

def severity : Diagnostic → Severity
  | .positionOutsideRing _ => .debug
  | .scanDeferred => .debug
  | _ => .warning

def hexWord (word : UInt32) : String :=
  let digits := Nat.toDigits 16 word.toNat
  String.ofList (List.replicate (8 - digits.length) '0' ++ digits)

/-- The wording of a note, `address` saying how an address is written. -/
def wording (address : UInt32 → String) : Diagnostic → String
  | .walkReentered => "receive walk re-entered, ignoring"
  | .strayRearmed count first => s!"re-arming {count} stray RX descriptor(s) at {first}"
  | .overflowDropped first count => s!"RX frame at {first} fills all {count} descriptors, dropping"
  | .positionOutsideRing position => s!"RX current descriptor {address position} outside ring"
  | .contextMissing last => s!"RX timestamp context missing after descriptor {last}"
  | .frameError word3 => s!"RX frame error: rdes3=0x{hexWord word3}"
  | .lengthInvalid length segments => s!"RX frame length {length} invalid for {segments} segment(s)"
  | .lengthExceedsScratch length => s!"RX frame of {length} bytes exceeds reassembly buffer"
  | .scanDeferred => "completion scan busy, deferring to the running scan"
  | .dispatchReentered => "interrupt dispatch re-entered, ignoring"
  | .errorInterrupt status => s!"DMA error interrupt, DMACSR=0x{hexWord status}"

def text (note : Diagnostic) : String :=
  note.wording fun address => "0x" ++ hexWord address

end Diagnostic

end EthernetMac
