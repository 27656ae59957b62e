import EthernetMac.Proofs.BringUp
import EthernetMac.Proofs.Setting
import EthernetMac.Proofs.Receive.Walk
import EthernetMac.Proofs.Transmit.Drain
import EthernetMac.Proofs.Transmit.Submission

namespace EthernetMac

variable {g : Geometry} {ε κ α β : Type}

/-- Two boards that agree on the rings, on their blocks, and on what `view` shows of the world. The marks of the driver,
its scratch buffer and its journal may differ, and so may the state of its life once it was brought up. -/
structure SameRings (view : ε → κ) (before after : Board g ε) : Prop where
  rxRing : after.mac.receiver.ring = before.mac.receiver.ring
  rxPool : after.mac.receiver.pool = before.mac.receiver.pool
  txRing : after.mac.transmitter.ring = before.mac.transmitter.ring
  txPool : after.mac.transmitter.pool = before.mac.transmitter.pool
  nextSlot : after.mac.transmitter.nextSlot = before.mac.transmitter.nextSlot
  submitted : after.mac.transmitter.submitted = before.mac.transmitter.submitted
  acknowledged : after.mac.transmitter.acknowledged = before.mac.transmitter.acknowledged
  up : after.IsUp ↔ before.IsUp
  world : view after.world = view before.world

theorem SameRings.of_mac {view : ε → κ} {before after : Board g ε} (mac : after.mac = before.mac)
    (world : view after.world = view before.world) : SameRings view before after := by
  constructor <;> simp [mac, world, Board.IsUp]

/-- A driver that is up stays up through a change of the state of its life. -/
theorem SameRings.of_life {view : ε → κ} {before after : Board g ε} {life : Lifecycle} (up : before.IsUp)
    (live : life ≠ .uninitialized) (mac : after.mac = { before.mac with lifecycle := life })
    (world : view after.world = view before.world) : SameRings view before after := by
  have stillUp : after.IsUp := by rwa [Board.IsUp, mac]
  constructor <;> simp [mac, world, up, stillUp]

namespace Board

def laidOut (board : Board g ε) : Board g ε :=
  { board with mac := { board.mac with
    lifecycle := .initialized, receiver := board.mac.receiver.arm, transmitter := board.mac.transmitter.clear } }

/-- The board with a frame in a slot of its transmit ring. -/
def loaded (board : Board g ε) (i : Fin g.tx) (bytes : Array UInt8) (options : TxOptions) : Board g ε :=
  { board with mac := { board.mac with transmitter := board.mac.transmitter.fill i bytes options } }

/-- The board with a timestamp taken out of a slot of its transmit ring. -/
def taken (board : Board g ε) (i : Fin g.tx) : Board g ε :=
  { board with mac := { board.mac with transmitter := (board.mac.transmitter.takeStamp i).2 } }

/-- The board with a descriptor of its transmit ring written back by the hardware. -/
def sentBack (board : Board g ε) (i : Fin g.tx) (d : Descriptor) : Board g ε :=
  { board with mac := { board.mac with transmitter := { board.mac.transmitter with
    ring := board.mac.transmitter.ring.setDescriptor i d } } }

def rearmed (board : Board g ε) (first : Fin g.rx) (count : Nat) : Board g ε :=
  { board with mac := { board.mac with
    receiver := { board.mac.receiver with ring := board.mac.receiver.ring.rearm first count } } }

end Board

namespace Setting

def noted (s : Setting g ε) (delivery : Option Callback × TxTimestamp) (board : Board g ε) : Board g ε :=
  { board with world := s.delivered delivery.1 delivery.2 board.world }

/-- A property of boards that each step of a run keeps: whatever leaves the rings alone, which a wait may do too, the
moves of the setting, the layout of the rings, a frame put into a slot that is free, a timestamp taken out of the slot
that was selected, and slots given back to the hardware. -/
structure Keeps (s : Setting g ε) (view : ε → κ) (I : Board g ε → Prop) : Prop where
  aside : ∀ {before after}, SameRings view before after → I before → I after
  still : ∀ {before after}, SameRings view before after → s.waits before after
  move : ∀ {before after}, s.moves before after → I before → I after
  layOut : ∀ {board : Board g ε}, ¬ board.IsUp → I board → I board.laidOut
  fill : ∀ {first board : Board g ε} {bytes options result}, Relation.ReflTransGen s.waits first board → I first →
    I board → board.IsUp → g.lengthFault? bytes.size = none →
    board.mac.transmitter.ring.isOwned first.mac.transmitter.nextSlot = false →
    I (s.enter first.mac.transmitter.nextSlot bytes options (.ok result)
      (board.loaded first.mac.transmitter.nextSlot bytes options))
  take : ∀ {board : Board g ε} {i}, board.mac.transmitter.nextStamped? = some i → I board →
    I (s.noted (board.mac.transmitter.takeStamp i).1 (board.taken i))
  rearm : ∀ {board : Board g ε} (first count), board.IsUp → I board → I (board.rearmed first count)

/-- What no turn of a wait changes is the same when the wait is over. -/
theorem waited {s : Setting g ε} (look : Board g ε → κ)
    (turn : ∀ {before after}, s.waits before after → look after = look before) {before after : Board g ε}
    (waits : Relation.ReflTransGen s.waits before after) : look after = look before := by
  induction waits with
  | refl => rfl
  | tail _ last ih => exact (turn last).trans ih

end Setting

/-- What a property and the driver's being up come to on the way from one board to another. Nothing is said of a way
that begins without the property. -/
structure Onward (I : Board g ε → Prop) (before after : Board g ε) : Prop where
  keeps : I before → I after
  up : I before → before.IsUp → after.IsUp

namespace Onward

variable {I : Board g ε → Prop} {before middle after : Board g ε}

theorem refl (board : Board g ε) : Onward I board board := ⟨id, fun _ => id⟩

theorem trans (first : Onward I before middle) (second : Onward I middle after) : Onward I before after :=
  ⟨second.keeps ∘ first.keeps, fun held up => second.up (first.keeps held) (first.up held up)⟩

theorem of_held (onward : I before → Onward I before after) : Onward I before after :=
  ⟨fun held => (onward held).keeps held, fun held => (onward held).up held⟩

theorem of_turns {turn : Board g ε → Board g ε → Prop} (turns : Relation.ReflTransGen turn before after)
    (one : ∀ {a b}, turn a b → Onward I a b) : Onward I before after := by
  induction turns with
  | refl => exact .refl before
  | tail _ last ih => exact ih.trans (one last)

end Onward

/-- Whenever the call comes back, the boards before and after it are related. -/
def Call.Ensures (R : Board g ε → Board g ε → Prop) (call : Call g ε α) : Prop :=
  ∀ before value after, call before = some (value, after) → R before after

namespace Call.Ensures

variable {R : Board g ε → Board g ε → Prop}

theorem quiet {act : BoardM g ε α} (related : ∀ board, R board (act board).2) : Ensures R (Call.quiet act) := by
  intro before value after run
  obtain rfl : (act before).2 = after := congrArg Prod.snd (Option.some.inj run)
  exact related before

theorem pure (refl : ∀ board, R board board) (value : α) : Ensures R (Pure.pure value : Call g ε α) := by
  intro before result after run
  obtain ⟨_, rfl⟩ := Prod.mk.inj (Option.some.inj run)
  exact refl _

theorem bind (trans : ∀ {a b c}, R a b → R b c → R a c) {call : Call g ε α} {rest : α → Call g ε β}
    (first : Ensures R call) (second : ∀ value, Ensures R (rest value)) : Ensures R (call >>= rest) := by
  intro before result after run
  obtain ⟨value, middle, called, continued⟩ := Call.bind_eq_some.mp run
  exact trans (first before value middle called) (second value middle result after continued)

end Call.Ensures

namespace Board

/-- A relation between boards that holds across one turn of the delivery of timestamps, upcall and all, and across
whatever changes marks of the driver only. -/
structure AcrossTurns (app : Application g ε) (R : Board g ε → Board g ε → Prop) : Prop where
  refl : ∀ board, R board board
  trans : ∀ {before middle after}, R before middle → R middle after → R before after
  aside : ∀ {before after}, SameRings id before after → R before after
  turn : ∀ {before after : Board g ε} {i}, before.mac.transmitter.nextStamped? = some i →
    deliverStamp app (before.mac.transmitter.takeStamp i).1 (before.taken i) = some ((), after) → R before after

end Board

end EthernetMac
