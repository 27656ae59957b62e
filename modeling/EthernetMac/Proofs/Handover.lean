import EthernetMac.Proofs.Blocks
import EthernetMac.Proofs.Invariance

namespace EthernetMac

/-- Each slot keeps the address of its own block, and a slot that the hardware owns has a descriptor of the given form
for that block. -/
structure Ring.Serves {n : Nat} (ring : Ring n) (block : Fin n → UInt32) (form : UInt32 → Descriptor → Prop) :
    Prop where
  buffers : ∀ i, (ring.slot i).ext.buffer = block i
  forms : ∀ i, ring.isOwned i = true → form (block i) (ring.descriptor i)

namespace Ring.Serves

variable {n : Nat} {ring : Ring n} {block : Fin n → UInt32} {form : UInt32 → Descriptor → Prop}

theorem setSlot (serves : ring.Serves block form) {i : Fin n} {slot : Slot}
    (buffer : slot.ext.buffer = (ring.slot i).ext.buffer)
    (good : slot.descriptor.isOwned = true → form (ring.slot i).ext.buffer slot.descriptor) :
    (ring.setSlot i slot).Serves block form := by
  refine ⟨fun j => (ring.buffer_setSlot i slot buffer j).trans (serves.buffers j), fun j held => ?_⟩
  by_cases here : i = j
  · subst here
    rw [isOwned, descriptor, slot_setSlot_self] at held
    rw [descriptor, slot_setSlot_self, ← serves.buffers]
    exact good held
  · rw [isOwned, descriptor, slot_setSlot_of_ne _ _ here] at held
    rw [descriptor, slot_setSlot_of_ne _ _ here]
    exact serves.forms j held

/-- The hardware clears the mark of ownership with whatever else it writes, so that nothing is asked of the words. -/
theorem writtenBack (serves : ring.Serves block form) (i : Fin n) {d : Descriptor} (released : d.isOwned = false) :
    (ring.setDescriptor i d).Serves block form :=
  serves.setSlot rfl fun held => absurd held (Bool.eq_false_iff.mp released)

theorem rearm (serves : ring.Serves block form) (armed : ∀ buffer, form buffer (.armed buffer)) (first : Fin n)
    (count : Nat) : (ring.rearm first count).Serves block form := by
  induction count generalizing ring first with
  | zero => exact serves
  | succ count ih =>
    have one : (ring.modifySlot first Slot.rearm).Serves block form := serves.setSlot rfl fun _ => armed _
    exact ih one (next first)

end Ring.Serves

namespace Descriptor

def Waits (buffer : UInt32) (d : Descriptor) : Prop := d = armed buffer

/-- A descriptor that asks the hardware to send a frame of valid length out of its block. -/
def Submits (g : Geometry) (buffer : UInt32) (d : Descriptor) : Prop :=
  ∃ (length : Nat) (options : TxOptions), g.lengthFault? length = none ∧ d = submission buffer length options.control

end Descriptor

theorem TxOptions.control_mem (options : TxOptions) : options.control ∈ [0, 0x80000000, 0xC0000000] := by
  cases options with
  | none => decide
  | interruptOnCompletion => decide
  | captureTimestamp request => exact .tail _ (.tail _ (.head _))

variable {g : Geometry} {ε σ : Type}

/-- What the hardware is handed: each slot has a block of its own, which it keeps, and a descriptor that the hardware
owns names the block of its slot and the whole of what the driver asks for. -/
structure Mac.HandsOver (placement : Placement) (mac : Mac g) : Prop where
  rxBlock : ∀ i, (mac.receiver.ring.slot i).ext.buffer = placement.block g (.inl i)
  txBlock : ∀ i, (mac.transmitter.ring.slot i).ext.buffer = placement.block g (.inr i)
  aligned : ∀ x, (placement.block g x).toNat % 4 = 0
  apart : ∀ x y, x ≠ y → ∀ k < g.buffer, ∀ l < g.buffer,
    placement.block g x + UInt32.ofNat k ≠ placement.block g y + UInt32.ofNat l
  rxWords : ∀ i, mac.receiver.ring.isOwned i = true →
    (mac.receiver.ring.descriptor i).words = [placement.block g (.inl i), 0, 0, 0xC1000000]
  txWords : ∀ i, mac.transmitter.ring.isOwned i = true → ∃ (length : Nat) (control : UInt32),
    1 ≤ length ∧ length ≤ g.buffer ∧ control ∈ [0, 0x80000000, 0xC0000000] ∧
      (mac.transmitter.ring.descriptor i).words = [placement.block g (.inr i), 0,
        control ||| UInt32.ofNat length, 0xB0030000 ||| UInt32.ofNat length]

/-- The right blocks are handed over, unless the driver was not brought up yet. -/
def Mac.IsSafe (placement : Placement) (mac : Mac g) : Prop :=
  mac.lifecycle ≠ .uninitialized → mac.HandsOver placement

namespace Board

def receivedBack (board : Board g ε) (i : Fin g.rx) (d : Descriptor) (blocks : Vector (Block g.buffer) g.rx) :
    Board g ε :=
  { board with mac := { board.mac with receiver := { board.mac.receiver with
    ring := board.mac.receiver.ring.setDescriptor i d
    pool := { board.mac.receiver.pool with blocks := blocks } } } }

/-- What may happen while the driver does not run: anything at all around it, any bytes in the receive blocks and any
words in a descriptor that the hardware owns and thereby gives up, and a look at what the driver has come to, which is
recorded. -/
inductive WriteBack : Board g (Recorded (List (Mac g)) σ) → Board g (Recorded (List (Mac g)) σ) → Prop
  | aside {before after} : after.mac = before.mac → after.world.record = before.world.record → WriteBack before after
  | look {before} : WriteBack before (before.recorded (· ++ [before.mac]))
  | received {before i d blocks} : before.mac.receiver.ring.isOwned i = true → d.isOwned = false →
      WriteBack before (before.receivedBack i d blocks)
  | sent {before i d} : before.mac.transmitter.ring.isOwned i = true → d.isOwned = false →
      WriteBack before (before.sentBack i d)

/-- The blocks stay where they are and, once the driver is up, each slot of both rings serves its own one. Nothing wrong
was ever seen. -/
structure Serves (placement : Placement) (board : Board g (Recorded (List (Mac g)) σ)) : Prop where
  rxBase : board.mac.receiver.pool.base = placement.blocks
  txBase : board.mac.transmitter.pool.base = placement.txBlocks g
  rx : board.IsUp → board.mac.receiver.ring.Serves (fun i => placement.block g (.inl i)) Descriptor.Waits
  tx : board.IsUp → board.mac.transmitter.ring.Serves (fun i => placement.block g (.inr i)) (Descriptor.Submits g)
  seen : ∀ mac ∈ board.world.record, mac.IsSafe placement

theorem Serves.isSafe {placement : Placement} {board : Board g (Recorded (List (Mac g)) σ)}
    (serves : board.Serves placement) (aligned : placement.blocks.toNat % 4 = 0) : board.mac.IsSafe placement := by
  intro up
  refine ⟨(serves.rx up).buffers, (serves.tx up).buffers, placement.block_aligned aligned, ?_, fun i held => ?_,
    fun i held => ?_⟩
  · exact fun x y other k hk l hl same => other (placement.blocks_apart hk hl same)
  · rw [(serves.rx up).forms i held]
    rfl
  · obtain ⟨length, options, valid, form⟩ := (serves.tx up).forms i held
    obtain ⟨positive, fits⟩ := Geometry.lengthFault?_eq_none.mp valid
    refine ⟨length, options.control, positive, fits, options.control_mem, ?_⟩
    rw [form, Descriptor.submission_words _ _ (Nat.le_trans fits g.buffer_le)]

end Board

namespace Setting

/-- A hardware that writes back what it likes. -/
def unruly : Setting g (Recorded (List (Mac g)) σ) where
  moves := Board.WriteBack
  waits _ _ := True
  submitted _ _ _ world := world
  delivered _ _ world := world
  stays_up moved up := by
    cases moved with
    | aside same => rwa [Board.IsUp, same]
    | look => exact up
    | received => exact up
    | sent => exact up

theorem unruly_keeps {placement : Placement} (aligned : placement.blocks.toNat % 4 = 0) :
    (unruly : Setting g (Recorded (List (Mac g)) σ)).Keeps Recorded.record (Board.Serves placement) where
  aside same serves := by
    refine ⟨same.rxPool ▸ serves.rxBase, same.txPool ▸ serves.txBase, fun up => ?_, fun up => ?_, ?_⟩
    · rw [same.rxRing]
      exact serves.rx (same.up.mp up)
    · rw [same.txRing]
      exact serves.tx (same.up.mp up)
    · rw [same.world]
      exact serves.seen
  still _ := trivial
  move {before after} moved serves := by
    cases moved with
    | aside same record =>
      obtain ⟨rxBase, txBase, rx, tx, seen⟩ := serves
      rw [Board.IsUp, ← same] at rx tx
      rw [← same] at rxBase txBase
      rw [← record] at seen
      exact ⟨rxBase, txBase, rx, tx, seen⟩
    | look =>
      refine ⟨serves.rxBase, serves.txBase, serves.rx, serves.tx, fun mac among => ?_⟩
      rcases List.mem_append.mp among with old | new
      · exact serves.seen mac old
      · exact List.mem_singleton.mp new ▸ serves.isSafe aligned
    | received _ released =>
      exact ⟨serves.rxBase, serves.txBase, fun up => (serves.rx up).writtenBack _ released, serves.tx, serves.seen⟩
    | sent _ released =>
      exact ⟨serves.rxBase, serves.txBase, serves.rx, fun up => (serves.tx up).writtenBack _ released, serves.seen⟩
  layOut {board} _ serves := by
    have rx : ∀ i, board.mac.receiver.pool.address i = placement.block g (.inl i) := fun i => by
      rw [Pool.address, serves.rxBase, Placement.block]
    have tx : ∀ i, board.mac.transmitter.pool.address i = placement.block g (.inr i) := fun i => by
      rw [Pool.address, serves.txBase, Placement.block]
    refine ⟨serves.rxBase, serves.txBase, fun _ => ⟨fun i => ?_, fun i _ => ?_⟩,
      fun _ => ⟨fun i => (Transmitter.buffer_clear _ i).trans (tx i), fun i held => ?_⟩, serves.seen⟩
    · exact (congrArg (·.ext.buffer) (Receiver.slot_arm _ i)).trans (rx i)
    · rw [← rx]
      exact congrArg Slot.descriptor (Receiver.slot_arm _ i)
    · have free := congrArg Descriptor.isOwned (Transmitter.descriptor_clear board.mac.transmitter i)
      exact absurd (free.symm.trans held) Bool.false_ne_true
  fill _ _ serves up valid _ :=
    ⟨serves.rxBase, serves.txBase, serves.rx, fun _ =>
      (serves.tx up).setSlot rfl fun _ => ⟨_, _, valid, rfl⟩, serves.seen⟩
  take _ serves :=
    ⟨serves.rxBase, serves.txBase, serves.rx, fun up => (serves.tx up).setSlot rfl fun held =>
      absurd (Descriptor.isOwned_blank.symm.trans held) Bool.false_ne_true, serves.seen⟩
  rearm first count _ serves :=
    ⟨serves.rxBase, serves.txBase, fun up => (serves.rx up).rearm (fun _ => rfl) first count, serves.tx, serves.seen⟩

end Setting

/-- Whatever the hardware writes back, it is never handed a wrong block once the driver was brought up. The right blocks
are handed over whenever one looks: between calls, while the driver waits for a slot, and in the midst of any upcall.
What comes of an upcall or of a wait need be a run only if they were handed over when it began. -/
theorem handover_safe [Bus σ] {placement : Placement} {before after : Board g (Recorded (List (Mac g)) σ)}
    (unused : before.mac = Mac.blank g placement) (nothing : before.world.record = [])
    (aligned : placement.blocks.toNat % 4 = 0)
    (run : Setting.unruly.RunWhile (fun board => board.mac.IsSafe placement) before after) :
    after.mac.IsSafe placement ∧ ∀ mac ∈ after.world.record, mac.IsSafe placement := by
  have down : ¬ before.IsUp := by rw [Board.IsUp, unused]; exact fun other => other rfl
  have start : before.Serves placement := by
    refine ⟨by rw [unused]; rfl, by rw [unused]; rfl, fun up => absurd up down, fun up => absurd up down, ?_⟩
    rw [nothing]
    exact fun mac among => absurd among List.not_mem_nil
  have serves : after.Serves placement :=
    (run.onward Recorded.untouched (Setting.unruly_keeps aligned) fun _ serves => serves.isSafe aligned).keeps start
  exact ⟨serves.isSafe aligned, serves.seen⟩

/-- The board after the hardware has written back one of the receive slots that it owns, if there is any. -/
def Board.receivedAny (d : Descriptor) (board : Board g ε) : Board g ε :=
  match (List.finRange g.rx).find? fun i => board.mac.receiver.ring.isOwned i with
  | some i => board.receivedBack i d board.mac.receiver.pool.blocks
  | none => board

theorem Board.receivedAny_writeBack {d : Descriptor} (released : d.isOwned = false)
    (board : Board g (Recorded (List (Mac g)) σ)) : board.WriteBack (board.receivedAny d) := by
  unfold receivedAny
  split
  · rename_i found
    exact .received (List.find?_some found) released
  · exact .aside rfl rfl

/-- An application that takes every frame, during whose upcalls one looks and the hardware writes back another slot. -/
def Application.overtaken (d : Descriptor) : Application g (Recorded (List (Mac g)) σ) where
  onEvent _ := do
    Call.quiet (modify fun board => (board.recorded (· ++ [board.mac])).receivedAny d)
    return .accepted
  onStamp _ _ := return

theorem Application.overtaken_reacts [Bus σ] {d : Descriptor} (released : d.isOwned = false)
    {held : Board g (Recorded (List (Mac g)) σ) → Prop} {called back : Board g (Recorded (List (Mac g)) σ)}
    (upcall : (overtaken d).Reacts called back) : Setting.unruly.RunWhile held called back := by
  cases upcall with
  | event run =>
    obtain rfl := congrArg Prod.snd (Option.some.inj run)
    exact .move (.move (.still called) .look) (Board.receivedAny_writeBack released _)
  | stamp run =>
    obtain rfl := congrArg Prod.snd (Option.some.inj run)
    exact .still called

/-- A frame of four bytes in one block, with another address left in place of the buffer's. -/
def Descriptor.strayed : Descriptor where
  word0 := 0xDEADBEEF
  word3 := firstBit ||| lastBit ||| 4

/-- A driver that was never used, in a peripheral at rest. -/
def Board.unseen (g : Geometry) : Board g (Recorded (List (Mac g)) RestingPeripheral) :=
  .untried ⟨0, 0x10000, 0x20000⟩ ⟨[], {}⟩

/-- Both transmit slots hold frames to be sent, and one of both receive slots has been written back. -/
def Board.halfReceived : Board .pair (Recorded (List (Mac .pair)) RestingPeripheral) :=
  let started := Board.started {} (.unseen .pair)
  let sent := (tryTransmit #[8, 9] (.captureTimestamp ⟨3, none⟩) (tryTransmit #[7] .none started).2).2
  sent.receivedAny .strayed

theorem Setting.RunWhile.halfReceived (held : Board .pair (Recorded (List (Mac .pair)) RestingPeripheral) → Prop) :
    Setting.unruly.RunWhile held (.unseen .pair) Board.halfReceived := by
  have started := RunWhile.started unruly held {} (.unseen .pair)
  have sent := (started.tryTransmit (rfl : Board.tryTransmit #[7] .none _ = _)).tryTransmit
    (rfl : Board.tryTransmit #[8, 9] (.captureTimestamp ⟨3, none⟩) _ = _)
  exact sent.move (Board.receivedAny_writeBack rfl _)

/-- While the application is told of the one frame the hardware writes back the other slot, and while it is told of that
one the hardware writes back the first slot again. -/
theorem handover_safe_overtaken : ∃ after : Board .pair (Recorded (List (Mac .pair)) RestingPeripheral),
    Setting.unruly.RunWhile (fun board => board.mac.IsSafe ⟨0, 0x10000, 0x20000⟩) (.unseen .pair) after ∧
    Board.processReceived (Setting.unruly.record (.overtaken .strayed)) Board.halfReceived = some (2, after) ∧
    after.mac.receiver.ring.descriptor Geometry.pair.firstRx = .strayed ∧
    after.mac.receiver.ring.isOwned (Ring.next Geometry.pair.firstRx) = true ∧
    (∀ i, after.mac.transmitter.ring.isOwned i = true) ∧ after.mac.HandsOver ⟨0, 0x10000, 0x20000⟩ ∧
    after.world.record.length = 2 ∧ ∀ mac ∈ after.world.record, mac.HandsOver ⟨0, 0x10000, 0x20000⟩ := by
  obtain ⟨⟨count, after⟩, run, rfl, strayed, armed, waiting, up, looks, seen⟩ :
      ∃ answer ∈ Board.processReceived (Setting.unruly.record (.overtaken .strayed)) Board.halfReceived,
        answer.1 = 2 ∧ answer.2.mac.receiver.ring.descriptor Geometry.pair.firstRx = .strayed ∧
        answer.2.mac.receiver.ring.isOwned (Ring.next Geometry.pair.firstRx) = true ∧
        (∀ i, answer.2.mac.transmitter.ring.isOwned i = true) ∧
        answer.2.mac.lifecycle ≠ .uninitialized ∧ answer.2.world.record.length = 2 ∧
        ∀ mac ∈ answer.2.world.record, mac.lifecycle ≠ .uninitialized := by decide +kernel
  have walked := (Setting.RunWhile.halfReceived fun board => board.mac.IsSafe ⟨0, 0x10000, 0x20000⟩).received
    (fun called _ _ upcall => Application.overtaken_reacts rfl upcall) run
  obtain ⟨safe, safely⟩ := handover_safe rfl rfl rfl walked
  exact ⟨after, walked, run, strayed, armed, waiting, safe up, looks,
    fun mac among => safely mac among (seen mac among)⟩

end EthernetMac
