namespace EthernetMac.Fields

/-! Bits and fields of the registers, by the register they stand in. -/

def receiverEnable : UInt32 := 0x00000001
def transmitterEnable : UInt32 := 0x00000002
def fullDuplex : UInt32 := 0x00002000
def fastEthernet : UInt32 := 0x00004000
def checksumOffload : UInt32 := 0x08000000

def promiscuous : UInt32 := 0x00000001
def passMulticast : UInt32 := 0x00000010
def hashOrPerfect : UInt32 := 0x00000400

def mdioBusy : UInt32 := 0x00000001
def mdioCommandShift : UInt32 := 2
def mdioReadCommand : UInt32 := 0x3
def mdioWriteCommand : UInt32 := 0x1
def mdioClockShift : UInt32 := 8
def mdioClock : UInt32 := 0x00000F00
def mdioRegisterShift : UInt32 := 16
def mdioRegister : UInt32 := 0x001F0000
def mdioPhyShift : UInt32 := 21
def mdioPhy : UInt32 := 0x03E00000
def mdioDataWord : UInt32 := 0x0000FFFF

def clockEnable : UInt32 := 0x00000001
def fineCorrection : UInt32 := 0x00000002
def clockInitialize : UInt32 := 0x00000004
def clockStep : UInt32 := 0x00000008
def addendUpdate : UInt32 := 0x00000020
/-- Timestamping on, decimal rollover, version 2 messages over Ethernet and over IPv4, all message kinds. -/
def clockOperation : UInt32 := 0x00012E01
def subsecondIncrementShift : UInt32 := 16
def subsecondIncrement : UInt32 := 0x00FF0000
/-- Marks the nanoseconds of an update as a distance to go back. -/
def stepBack : UInt32 := 0x80000000
def auxiliaryCountShift : UInt32 := 25
def auxiliaryCount : UInt32 := 0x1F
def auxiliaryClear : UInt32 := 0x00000001
def auxiliaryEnableShift : UInt32 := 4
/-- The nanoseconds of a clock reading; the remaining top bit is not part of the time. -/
def nanoseconds : UInt32 := 0x7FFFFFFF
def pulseCommand : UInt32 := 0x0000000F
def pulseTrainMode : UInt32 := 0x00000010
def pulseTargetSilent : UInt32 := 0x00000060
def pulseStart : UInt32 := 0x2
def pulseStop : UInt32 := 0x5

/-- Store and forward, queue on, all of the queue memory. -/
def txQueueOperation : UInt32 := 0x0007000A
def rxStoreAndForward : UInt32 := 0x00000020

def softwareReset : UInt32 := 0x00000001
def skipLengthShift : UInt32 := 18
def skipLength : UInt32 := 0x001C0000
def startTransmission : UInt32 := 0x00000001
def startReception : UInt32 := 0x00000001
def burstShift : UInt32 := 16
def burst : UInt32 := 0x003F0000
def bufferSizeShift : UInt32 := 1
def bufferSize : UInt32 := 0x00007FFE
def ringLength : UInt32 := 0x000003FF

end EthernetMac.Fields
