import EthernetMac.Config

namespace EthernetMac

/-- A reading of the link: whether it is up, and the mode that was negotiated. -/
structure LinkStatus where
  up : Bool := false
  speed : Speed := .hundred
  duplex : Duplex := .full
deriving DecidableEq, Repr, Inhabited

namespace LinkStatus

def ofMode (speed : Speed) (duplex : Duplex) : LinkStatus :=
  { up := true, speed := speed, duplex := duplex }

def isFullDuplex (link : LinkStatus) : Bool :=
  link.duplex == .full

end LinkStatus

end EthernetMac
