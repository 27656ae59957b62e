import EthernetMac.Proofs.Blocks
import EthernetMac.Proofs.Invariance
import EthernetMac.Proofs.Receive.Payload
import EthernetMac.Proofs.Transmit.Ledger

namespace EthernetMac

/-- What the hardware reads from a slot of the transmit ring: the bytes of the frame, their number by either word that
tells it, and whether an interrupt and a timestamp are asked for. -/
structure FrameReading where
  bytes : Array UInt8
  bufferLength : Nat
  frameLength : Nat
  interrupts : Bool
  captures : Bool
deriving DecidableEq, Repr

/-- A frame as it is submitted. -/
structure TxFrame where
  bytes : Array UInt8
  options : TxOptions
deriving DecidableEq, Repr

def TxFrame.reading (frame : TxFrame) : FrameReading where
  bytes := frame.bytes
  bufferLength := frame.bytes.size
  frameLength := frame.bytes.size
  interrupts := frame.options != .none
  captures := frame.options.capturesTimestamp

/-- The bytes at an address, as far as they lie in one block of the pool. -/
def Pool.fetch {n size : Nat} (pool : Pool n size) (address : UInt32) (count : Nat) : Array UInt8 :=
  match (List.finRange n).find? fun i => pool.address i = address with
  | some i => (pool.block i).take count
  | none => #[]

theorem Pool.fetch_address {n size : Nat} (pool : Pool n size) (positive : 0 < size) (bound : n * size ≤ UInt32.size)
    (i : Fin n) (count : Nat) : pool.fetch (pool.address i) count = (pool.block i).take count := by
  rw [fetch, pool.find_address positive bound]

theorem Geometry.txPool_bound (g : Geometry) : g.tx * g.buffer ≤ UInt32.size := by
  have product := Nat.mul_le_mul g.tx_le g.buffer_le
  exact Nat.le_trans product (by decide)

theorem Block.take_overlay {size : Nat} (block : Block size) (bytes : Array UInt8) (fits : bytes.size ≤ size) :
    (block.overlay 0 bytes).take bytes.size = bytes := by
  have same : ((block.overlay 0 bytes).take bytes.size).size = bytes.size := by
    rw [size_take, Nat.min_eq_left fits]
  refine Array.ext same fun j _ inside => ?_
  have stored := (block.overlay 0 bytes).getElem?_take bytes.size ⟨j, Nat.lt_of_lt_of_le inside fits⟩ inside
  rw [byte_overlay, if_pos (Nat.zero_le _), Nat.sub_zero, Array.getElem?_eq_getElem inside, Option.getD_some] at stored
  exact (Array.getElem?_eq_some_iff.mp stored).2

namespace Transmitter

variable {g : Geometry}

def fetch (t : Transmitter g) (i : Fin g.tx) : FrameReading where
  bytes := t.pool.fetch (t.ring.descriptor i).word0 (t.ring.descriptor i).bufferLength
  bufferLength := (t.ring.descriptor i).bufferLength
  frameLength := (t.ring.descriptor i).frameLength
  interrupts := (t.ring.descriptor i).wantsInterrupt
  captures := (t.ring.descriptor i).wantsCapture

theorem buffer_fill (t : Transmitter g) (i : Fin g.tx) (bytes : Array UInt8) (options : TxOptions) (j : Fin g.tx) :
    ((t.fill i bytes options).ring.slot j).ext.buffer = (t.ring.slot j).ext.buffer :=
  t.ring.buffer_setSlot i (filledSlot (t.ring.slot i) bytes.size options (t.submitted + 1)) rfl j

theorem buffer_takeStamp (t : Transmitter g) (i j : Fin g.tx) :
    ((t.takeStamp i).2.ring.slot j).ext.buffer = (t.ring.slot j).ext.buffer :=
  t.ring.buffer_setSlot i { (t.ring.slot i).takeRequest.2 with descriptor := .blank } rfl j

/-- A slot has a frame for the hardware. -/
structure Carries (t : Transmitter g) (i : Fin g.tx) (frame : TxFrame) : Prop where
  valid : g.lengthFault? frame.bytes.size = none
  descriptor : t.ring.descriptor i = .submission (t.pool.address i) frame.bytes.size frame.options.control
  stored : (t.pool.block i).take frame.bytes.size = frame.bytes

namespace Carries

variable {t : Transmitter g} {i : Fin g.tx} {frame : TxFrame}

theorem isOwned (carries : t.Carries i frame) : t.ring.isOwned i = true := by
  rw [Ring.isOwned, carries.descriptor]
  exact Descriptor.isOwned_submission _ _ _

/-- The hardware reads the very frame that was submitted. -/
theorem fetch_eq (carries : t.Carries i frame) : t.fetch i = frame.reading := by
  obtain ⟨_, fits⟩ := Geometry.lengthFault?_eq_none.mp carries.valid
  have short : frame.bytes.size ≤ maxDescriptorLength := Nat.le_trans fits g.buffer_le
  rw [fetch, carries.descriptor]
  simp only [Descriptor.bufferLength_submission _ _ short, Descriptor.frameLength_submission _ _ short,
    Descriptor.wantsInterrupt_submission _ _ short, Descriptor.wantsCapture_submission _ _ short]
  rw [show (Descriptor.submission (t.pool.address i) frame.bytes.size frame.options.control).word0 =
    t.pool.address i from rfl, t.pool.fetch_address g.buffer_pos g.txPool_bound, carries.stored]
  rfl

/-- What becomes of the other slots does not matter to the frame. -/
theorem congr {t' : Transmitter g} (carries : t.Carries i frame)
    (descriptor : t'.ring.descriptor i = t.ring.descriptor i) (base : t'.pool.base = t.pool.base)
    (block : t'.pool.block i = t.pool.block i) : t'.Carries i frame := by
  refine ⟨carries.valid, ?_, by rw [block, carries.stored]⟩
  rw [descriptor, carries.descriptor, Pool.address, Pool.address, base]

theorem fill (t : Transmitter g) {i : Fin g.tx} {frame : TxFrame} (valid : g.lengthFault? frame.bytes.size = none)
    (buffer : (t.ring.slot i).ext.buffer = t.pool.address i) :
    (t.fill i frame.bytes frame.options).Carries i frame := by
  obtain ⟨_, fits⟩ := Geometry.lengthFault?_eq_none.mp valid
  refine ⟨valid, ?_, ?_⟩
  · change ((t.ring.modifySlot i _).descriptor i) = .submission (t.pool.address i) _ _
    rw [Ring.descriptor, Ring.slot_modifySlot_self, filledSlot, buffer]
  · change ((t.pool.fill i frame.bytes).block i).take _ = _
    rw [Pool.block_fill_self, Block.take_overlay _ _ fits]

end Carries

end Transmitter

/-- The frames that were submitted, what the hardware has read of them, and the number of slots that it has given
back. -/
structure TransmitLog where
  submissions : List TxFrame := []
  readings : List FrameReading := []
  releases : Nat := 0
deriving DecidableEq, Repr

/-- What the hardware finds in the slots of the frames that it has not read yet. -/
def Transmitter.unread {g : Geometry} (t : Transmitter g) (log : TransmitLog) : List FrameReading :=
  (List.range (log.submissions.length - log.readings.length)).map fun k =>
    t.fetch (g.txSlot (log.readings.length + k))

/-- The transmit ring is a queue. The slots from the first one that was not given back up to the next one to be filled
have the frames that were submitted last, and all others are free. -/
structure Queue {g : Geometry} (t : Transmitter g) (log : TransmitLog) : Prop where
  released : log.releases ≤ log.readings.length
  read : log.readings.length ≤ log.submissions.length
  room : log.submissions.length ≤ log.releases + g.tx
  nextSlot : t.nextSlot = g.txSlot log.submissions.length
  readings : log.readings = (log.submissions.take log.readings.length).map TxFrame.reading
  carried : ∀ j frame, log.releases ≤ j → log.submissions[j]? = some frame → t.Carries (g.txSlot j) frame
  free : ∀ j, log.submissions.length ≤ j → j < log.releases + g.tx → t.ring.isOwned (g.txSlot j) = false

namespace Queue

variable {g : Geometry} {t : Transmitter g} {log : TransmitLog}

theorem init (first : t.nextSlot = g.firstTx) (free : ∀ i, t.ring.isOwned i = false) : Queue t {} :=
  ⟨Nat.le_refl _, Nat.le_refl _, Nat.zero_le _, first.trans (Fin.ext (Nat.zero_mod _).symm), rfl,
    fun _ _ _ submitted => (nomatch submitted), fun _ _ _ => free _⟩

theorem eq_empty (queue : Queue t log) (none : log.submissions = []) : log = {} := by
  obtain ⟨submissions, readings, releases⟩ := log
  have read := queue.read
  have released := queue.released
  dsimp only at none read released
  subst none
  obtain rfl : readings = [] := List.eq_nil_of_length_eq_zero (Nat.le_zero.mp read)
  obtain rfl : releases = 0 := Nat.le_zero.mp released
  rfl

theorem congr {t' : Transmitter g} (queue : Queue t log) (ring : t'.ring = t.ring) (pool : t'.pool = t.pool)
    (nextSlot : t'.nextSlot = t.nextSlot) : Queue t' log := by
  refine ⟨queue.released, queue.read, queue.room, nextSlot.trans queue.nextSlot, queue.readings,
    fun j frame later submitted => ?_, fun j later inside => ?_⟩
  · exact (queue.carried j frame later submitted).congr (by rw [ring]) (by rw [pool]) (by rw [pool])
  · rw [ring]
    exact queue.free j later inside

theorem isOwned (queue : Queue t log) {j : Nat} (later : log.releases ≤ j) (made : j < log.submissions.length) :
    t.ring.isOwned (g.txSlot j) = true :=
  (queue.carried j _ later (List.getElem?_eq_getElem made)).isOwned

/-- The slots of two frames in the queue, or of one in it and one that finds room, are not the same. -/
theorem txSlot_ne (log : TransmitLog) {j k : Nat} (other : j ≠ k) (hj : log.releases ≤ j)
    (hj' : j < log.releases + g.tx) (hk : log.releases ≤ k) (hk' : k < log.releases + g.tx) :
    g.txSlot j ≠ g.txSlot k :=
  fun same => other (Geometry.txSlot_injective hj' hk' (by omega) (by omega) same)

/-- The slot that the hardware reads next has the next frame, if the hardware owns it. -/
theorem fetch (queue : Queue t log) (ahead : log.readings.length < log.releases + g.tx)
    (owned : t.ring.isOwned (g.txSlot log.readings.length) = true) :
    Queue t { log with readings := log.readings ++ [t.fetch (g.txSlot log.readings.length)] } := by
  have made : log.readings.length < log.submissions.length := by
    refine Nat.lt_of_not_le fun none => ?_
    rw [queue.free _ none ahead] at owned
    cases owned
  have fetched := (queue.carried _ _ queue.released (List.getElem?_eq_getElem made)).fetch_eq
  refine ⟨?_, ?_, queue.room, queue.nextSlot, ?_, queue.carried, queue.free⟩
  · rw [List.length_append]
    exact Nat.le_add_right_of_le queue.released
  · rw [List.length_append]
    exact made
  · rw [fetched, List.length_append, List.length_singleton, List.take_succ_eq_append_getElem made, List.map_append,
      ← queue.readings]
    rfl

/-- The hardware gives back the slot of the oldest frame, of which it needs to have read it. -/
theorem release (queue : Queue t log) (done : log.releases < log.readings.length) {d : Descriptor}
    (released : d.isOwned = false) :
    Queue { t with ring := t.ring.setDescriptor (g.txSlot log.releases) d }
      { log with releases := log.releases + 1 } := by
  have read := queue.read
  have room := queue.room
  have kept : ∀ {j}, log.releases < j → j < log.releases + g.tx →
      (t.ring.setDescriptor (g.txSlot log.releases) d).descriptor (g.txSlot j) = t.ring.descriptor (g.txSlot j) :=
    fun later inside => congrArg Slot.descriptor (Ring.slot_modifySlot_of_ne _ _
      (txSlot_ne log (Nat.ne_of_lt later) (Nat.le_refl _) (by omega) (Nat.le_of_lt later) inside))
  refine ⟨done, read, by dsimp only; omega, queue.nextSlot, queue.readings, fun j frame later submitted => ?_,
    fun j later inside => ?_⟩
  · have made := (List.getElem?_eq_some_iff.mp submitted).1
    have inside : j < log.releases + g.tx := Nat.lt_of_lt_of_le made room
    exact (queue.carried j frame (Nat.le_of_succ_le later) submitted).congr (kept later inside) rfl rfl
  · dsimp only at later inside ⊢
    rcases Nat.lt_or_ge j (log.releases + g.tx) with old | new
    · rw [Ring.isOwned, kept (by omega) old]
      exact queue.free j later old
    · -- the slot that was given back is the last one of the next turn
      have turned : j = log.releases + g.tx := by omega
      rw [turned, g.txSlot_turn, Ring.isOwned, Ring.descriptor, Ring.setDescriptor, Ring.slot_modifySlot_self]
      exact released

/-- A frame is submitted into the slot behind all others. -/
theorem submit (queue : Queue t log) {frame : TxFrame} (valid : g.lengthFault? frame.bytes.size = none)
    (buffer : (t.ring.slot (g.txSlot log.submissions.length)).ext.buffer =
      t.pool.address (g.txSlot log.submissions.length))
    (free : t.ring.isOwned (g.txSlot log.submissions.length) = false) :
    Queue (t.fill (g.txSlot log.submissions.length) frame.bytes frame.options)
      { log with submissions := log.submissions ++ [frame] } := by
  have released := queue.released
  have read := queue.read
  have positive := g.tx_pos
  have room : log.submissions.length < log.releases + g.tx := by
    -- once round the ring, the slot behind all frames is that of the oldest one, which the hardware owns
    refine Nat.lt_of_le_of_ne queue.room fun full => ?_
    rw [full, g.txSlot_turn, queue.isOwned (Nat.le_refl _) (by omega)] at free
    cases free
  have apart : ∀ {j}, j ≠ log.submissions.length → log.releases ≤ j → j < log.releases + g.tx →
      g.txSlot log.submissions.length ≠ g.txSlot j :=
    fun other later inside => txSlot_ne log (Ne.symm other) (by omega) room later inside
  have kept : ∀ {j}, j ≠ log.submissions.length → log.releases ≤ j → j < log.releases + g.tx →
      (t.fill (g.txSlot log.submissions.length) frame.bytes frame.options).ring.descriptor (g.txSlot j) =
        t.ring.descriptor (g.txSlot j) :=
    fun other later inside => congrArg Slot.descriptor (Ring.slot_modifySlot_of_ne _ _ (apart other later inside))
  refine ⟨queue.released, ?_, ?_, ?_, ?_, fun j frame' later submitted => ?_, fun j later inside => ?_⟩
  · rw [List.length_append]
    exact Nat.le_add_right_of_le read
  · rw [List.length_append]
    exact room
  · rw [List.length_append, List.length_singleton, g.txSlot_add]
    rfl
  · rw [List.take_append_of_le_length read]
    exact queue.readings
  · rcases getElem?_concat_cases submitted with old | ⟨rfl, rfl⟩
    · have made := (List.getElem?_eq_some_iff.mp old).1
      have inside : j < log.releases + g.tx := Nat.lt_trans made room
      exact (queue.carried j frame' later old).congr (kept (Nat.ne_of_lt made) later inside) rfl
        (Pool.block_fill_of_ne _ _ (apart (Nat.ne_of_lt made) later inside))
    · exact .fill t valid buffer
  · rw [List.length_append, List.length_singleton] at later
    rw [Ring.isOwned, kept (by omega) (by omega) inside]
    exact queue.free j (by omega) inside

/-- A timestamp is only ever taken out of a free slot. -/
theorem take (queue : Queue t log) {i : Fin g.tx} (free : t.ring.isOwned i = false) :
    Queue (t.takeStamp i).2 log := by
  have kept : ∀ {k}, k ≠ i → (t.takeStamp i).2.ring.descriptor k = t.ring.descriptor k :=
    fun other => congrArg Slot.descriptor (Ring.slot_setSlot_of_ne _ _ (Ne.symm other))
  refine ⟨queue.released, queue.read, queue.room, queue.nextSlot, queue.readings, fun j frame later submitted => ?_,
    fun j later inside => ?_⟩
  · have carries := queue.carried j frame later submitted
    refine carries.congr (kept fun same => ?_) rfl rfl
    rw [← same, carries.isOwned] at free
    cases free
  · by_cases here : g.txSlot j = i
    · rw [here, Ring.isOwned, Ring.descriptor]
      change ((t.ring.setSlot i _).slot i).descriptor.isOwned = false
      rw [Ring.slot_setSlot_self]
      exact Descriptor.isOwned_blank
    · rw [Ring.isOwned, kept here]
      exact queue.free j later inside

/-- What the hardware has read and what it has still to read make up what was submitted. -/
theorem fifo (queue : Queue t log) : log.readings ++ t.unread log = log.submissions.map TxFrame.reading := by
  have released := queue.released
  have waiting : t.unread log = (log.submissions.drop log.readings.length).map TxFrame.reading := by
    unfold Transmitter.unread
    refine List.ext_getElem (by simp) fun k inside _ => ?_
    rw [List.length_map, List.length_range] at inside
    have made : log.readings.length + k < log.submissions.length := by omega
    have carries := queue.carried _ _ (by omega) (List.getElem?_eq_getElem made)
    rw [List.getElem_map, List.getElem_range, List.getElem_map, List.getElem_drop, carries.fetch_eq]
  rw [waiting]
  conv => lhs; lhs; rw [queue.readings]
  rw [← List.map_append, List.take_append_drop]

/-- The free slots form an arc from the next one to be filled on, so that the hardware's end just before that one. -/
theorem isArc (queue : Queue t log) :
    t.ring.IsArc t.nextSlot (log.releases + g.tx - log.submissions.length) := by
  have released := queue.released
  have read := queue.read
  have room := queue.room
  refine ⟨by omega, fun k inside => ?_, fun k later inside => ?_⟩
  · rw [queue.nextSlot, ← g.txSlot_add]
    exact queue.free _ (by omega) (by omega)
  · have turned : log.submissions.length + k = log.submissions.length + k - g.tx + g.tx := by omega
    rw [queue.nextSlot, ← g.txSlot_add, turned, g.txSlot_turn]
    exact queue.isOwned (by omega) (by omega)

end Queue

end EthernetMac
