import EthernetMac.Failure

namespace EthernetMac

inductive Speed where
  | ten
  | hundred
deriving DecidableEq, Repr, Inhabited

def Speed.mbps : Speed → Nat
  | .ten => 10
  | .hundred => 100

inductive Duplex where
  | half
  | full
deriving DecidableEq, Repr, Inhabited

/-- The longest transfer, in beats, that the DMA makes on the system bus at a time. -/
inductive Burst where
  | one
  | two
  | four
  | eight
  | sixteen
  | thirtyTwo
deriving DecidableEq, Repr, Inhabited

def Burst.beats : Burst → UInt32
  | .one => 1
  | .two => 2
  | .four => 4
  | .eight => 8
  | .sixteen => 16
  | .thirtyTwo => 32

def Burst.ofBeats? (beats : Nat) : Option Burst :=
  [Burst.one, .two, .four, .eight, .sixteen, .thirtyTwo].find? (·.beats.toNat = beats)

inductive ManagementClock where
  | div42
  | div62
  | div16
  | div26
  | div102
  | div124
deriving DecidableEq, Repr, Inhabited

namespace ManagementClock

def all : List ManagementClock := [.div42, .div62, .div16, .div26, .div102, .div124]

/-- The code that selects the divider in the management address register. -/
def code : ManagementClock → UInt32
  | .div42 => 0
  | .div62 => 1
  | .div16 => 2
  | .div26 => 3
  | .div102 => 4
  | .div124 => 5

/-- The divider for the range in which a system clock of `hertz` lies; the management clock must not pass 2.5 MHz. -/
def ofHertz (hertz : Nat) : ManagementClock :=
  if hertz ≤ 35000000 then .div16
  else if hertz ≤ 60000000 then .div26
  else if hertz ≤ 100000000 then .div42
  else if hertz ≤ 150000000 then .div62
  else if hertz ≤ 250000000 then .div102
  else .div124

end ManagementClock

/-- Where the driver stands between power-up and traffic. -/
inductive Lifecycle where
  | uninitialized
  | initialized
  | running
  | stopped
deriving DecidableEq, Repr, Inhabited

def Lifecycle.code : Lifecycle → Nat
  | .uninitialized => 0
  | .initialized => 1
  | .running => 2
  | .stopped => 3

def Lifecycle.label : Lifecycle → String
  | .uninitialized => "Uninitialized"
  | .initialized => "Initialized"
  | .running => "Running"
  | .stopped => "Stopped"

abbrev MacAddress := Vector UInt8 6

def MacAddress.standard : MacAddress := #v[0x02, 0x00, 0x00, 0x00, 0x00, 0x01]

structure Config where
  address : MacAddress := .standard
  speed : Speed := .hundred
  duplex : Duplex := .full
  clock : ManagementClock := .div102
  promiscuous : Bool := false
  burst : Burst := .thirtyTwo
  resetTimeoutMs : UInt32 := 100
deriving DecidableEq, Repr

def Config.standardResetTimeoutMs : UInt32 := 100

/-- A byte of the address; byte 0 is the first on the wire, and there is none beyond byte 5. -/
def MacAddress.byte (address : MacAddress) (i : Nat) : UInt8 :=
  address.toArray.getD i 0

/-- A group address, marked by the lowest bit of the first byte, cannot be a station's own. -/
def MacAddress.isGroup (address : MacAddress) : Bool :=
  address.byte 0 &&& 1 != 0

def Config.validate (config : Config) : Except ConfigFault Unit :=
  if config.address.isGroup ∨ config.resetTimeoutMs = 0 then .error .invalidConfig else .ok ()

end EthernetMac
