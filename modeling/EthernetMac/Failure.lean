namespace EthernetMac

inductive ConfigFault where
  | alreadyInitialized
  | invalidConfig
  | invalidPhyAddress
  | resetFailed
deriving DecidableEq, Repr

inductive DmaFault where
  | descriptorBusy
  | frameTooLarge
  | invalidLength
deriving DecidableEq, Repr

/-- What an exchange with the peripheral ends in when it does not succeed. -/
inductive BusFault where
  | timeout
  | invalidState
  | phyError
deriving DecidableEq, Repr

inductive Failure where
  | config (fault : ConfigFault)
  | dma (fault : DmaFault)
  | bus (fault : BusFault)
deriving DecidableEq, Repr

def ConfigFault.all : List ConfigFault :=
  [.alreadyInitialized, .invalidConfig, .invalidPhyAddress, .resetFailed]

def DmaFault.all : List DmaFault := [.descriptorBusy, .frameTooLarge, .invalidLength]

def BusFault.all : List BusFault := [.timeout, .invalidState, .phyError]

def ConfigFault.message : ConfigFault → String
  | .alreadyInitialized => "already initialized"
  | .invalidConfig => "invalid configuration"
  | .invalidPhyAddress => "invalid PHY address"
  | .resetFailed => "software reset failed"

def DmaFault.message : DmaFault → String
  | .descriptorBusy => "descriptor busy"
  | .frameTooLarge => "frame too large for buffer"
  | .invalidLength => "invalid frame length"

def BusFault.message : BusFault → String
  | .timeout => "operation timed out"
  | .invalidState => "invalid state for operation"
  | .phyError => "PHY communication error"

/-- A failure's text names the part of the driver that refused, then the cause. -/
def Failure.message : Failure → String
  | .config fault => "config: " ++ fault.message
  | .dma fault => "dma: " ++ fault.message
  | .bus fault => "io: " ++ fault.message

instance : Coe ConfigFault Failure := ⟨.config⟩

instance : Coe DmaFault Failure := ⟨.dma⟩

instance : Coe BusFault Failure := ⟨.bus⟩

end EthernetMac
