namespace EthernetMac

/-- A short picture of some bytes: their number, the first sixteen, and a hash of all. -/
structure Digest where
  length : Nat
  head : List UInt8
  hash : UInt32
deriving DecidableEq, Repr

namespace Digest

def fnv1a (bytes : Array UInt8) : UInt32 :=
  bytes.foldl (fun hash byte => (hash ^^^ byte.toUInt32) * 0x01000193) 0x811C9DC5

def ofBytes (bytes : Array UInt8) : Digest :=
  ⟨bytes.size, (bytes.extract 0 16).toList, fnv1a bytes⟩

def headText (digest : Digest) : String :=
  String.ofList (digest.head.flatMap fun byte =>
    [Nat.digitChar (byte.toNat / 16), Nat.digitChar (byte.toNat % 16)])

/-- The bytes that count up in steps of seven from a seed. -/
def pattern (length : Nat) (seed : Nat) : Array UInt8 :=
  Array.ofFn fun i : Fin length => UInt8.ofNat (i.val * 7 + seed)

end Digest

end EthernetMac
