import EthernetMac.Peripheral

namespace EthernetMac

variable {ε : Type} [Bus ε]

def resetPollMicros : Nat := 100

/-- Looks at a reset up to `polls` times, with a pause after each look that finds it unfinished. -/
def awaitReset : (polls : Nat) → Attempt ε ConfigFault Unit
  | 0 => throw .resetFailed
  | polls + 1 => do
    if ← Attempt.sure Peripheral.isResetComplete then
      return
    else
      Attempt.sure (Bus.pauseMicros resetPollMicros)
      awaitReset polls

/-- How often a reset is looked at within a timeout. The timeout in microseconds is a word, which wraps. -/
def resetPolls (timeoutMs : UInt32) : Nat :=
  (timeoutMs * 1000 / UInt32.ofNat resetPollMicros).toNat

def softReset (timeoutMs : UInt32) : Attempt ε ConfigFault Unit := do
  Attempt.sure Peripheral.requestReset
  awaitReset (resetPolls timeoutMs)

end EthernetMac
