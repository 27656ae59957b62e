import EthernetMac.Peripheral

namespace EthernetMac.Mdio

variable {ε : Type} [Bus ε]

def maxAddress : Nat := 31

def pollMicros : Nat := 10

def standardTimeoutMicros : Nat := 1000

/-- An exchange addresses one of 32 registers of one of 32 devices. -/
def checkAddresses (phy register : Nat) : Except ConfigFault Unit :=
  if maxAddress < phy then .error .invalidPhyAddress
  else if maxAddress < register then .error .invalidConfig
  else .ok ()

/-- Waits until the exchange is over, with at most `pauses` pauses. -/
def awaitIdle (pauses : Nat) : Attempt ε Failure Unit := do
  if ← Attempt.sure Peripheral.isMdioBusy then
    match pauses with
    | 0 => throw (.bus .timeout)
    | pauses + 1 =>
      Attempt.sure (Bus.pauseMicros pollMicros)
      awaitIdle pauses

/-- The pauses that fit into a timeout, a part of one counting as a whole. -/
def pausesWithin (timeoutMicros : Nat) : Nat :=
  (timeoutMicros + pollMicros - 1) / pollMicros

/-- The word that starts an exchange, with the divider taken from `current`. -/
def commandWord (current : UInt32) (phy register : Nat) (command : UInt32) : UInt32 :=
  current &&& Fields.mdioClock
    ||| (UInt32.ofNat phy <<< Fields.mdioPhyShift &&& Fields.mdioPhy)
    ||| (UInt32.ofNat register <<< Fields.mdioRegisterShift &&& Fields.mdioRegister)
    ||| command <<< Fields.mdioCommandShift
    ||| Fields.mdioBusy

/-- Starts an exchange, keeping the divider that was configured. -/
def begin (phy register : Nat) (command : UInt32) : StateM ε Unit := do
  let current ← Register.mdioAddress.read
  Register.mdioAddress.write (commandWord current phy register command)

def checkReady (phy register : Nat) : Attempt ε Failure Unit := do
  if let .error fault := checkAddresses phy register then throw (.config fault)
  if ← Attempt.sure Peripheral.isMdioBusy then throw (.bus .phyError)

def read (timeoutMicros phy register : Nat) : Attempt ε Failure UInt16 := do
  checkReady phy register
  Attempt.sure (begin phy register Fields.mdioReadCommand)
  awaitIdle (pausesWithin timeoutMicros)
  return (← Attempt.sure Register.mdioData.read).toUInt16

def write (timeoutMicros phy register : Nat) (value : UInt16) : Attempt ε Failure Unit := do
  checkReady phy register
  Attempt.sure (Register.mdioData.write value.toUInt32)
  Attempt.sure (begin phy register Fields.mdioWriteCommand)
  awaitIdle (pausesWithin timeoutMicros)

end EthernetMac.Mdio
