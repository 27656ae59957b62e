import EthernetMac.Proofs.Receive.Tracking
import EthernetMac.Proofs.Receive.Verdict

namespace EthernetMac

namespace Ring

variable {n : Nat}

/-- A frame that is found from `start` on is one that lies in the arc: its last slot comes `following` slots behind the
first one, and its stamp comes next. -/
structure LiesIn (start : Fin n) (count : Nat) (last : Fin n) (following : Nat) (context : StampContext n) : Prop where
  last : last = advance start following
  inside : following < count
  stamp : ∀ i, context = .inSlot i → i = advance start (following + 1) ∧ following + 1 < count

variable {ring other : Ring n} {start : Fin n} {count : Nat} (arc : ring.IsArc start count)
  (same : ∀ k, k < count → other.descriptor (advance start k) = ring.descriptor (advance start k))

include arc in
theorem inside_of_released {k : Nat} (near : k < n) (released : ring.isOwned (advance start k) = false) :
    k < count := by
  rcases Nat.lt_or_ge k count with inside | beyond
  · exact inside
  · rw [arc.owned k beyond near] at released
    cases released

include arc same

/-- What an arc holds at its start is told by the arc alone, so what the hardware writes behind it does not matter. Nor
does it matter if more room is looked at. -/
theorem scan_kept {room more : Nat} {last : Fin n} {later : Nat} {context : StampContext n} (some : 0 < count)
    (near : room < n) (wider : room ≤ more) (found : ring.scan start room = .frame last later context) :
    other.scan start more = .frame last later context ∧ LiesIn start count last later context := by
  have released := arc.released 0 some
  rw [advance_zero] at released
  have kept (i : Fin n) (released : ring.isOwned i = false) : other.descriptor i = ring.descriptor i := by
    obtain ⟨k, near, rfl⟩ := exists_advance start i
    exact same k (inside_of_released arc near released)
  have settled : ring.scan start room ≠ .incomplete := by
    rw [found]
    exact fun none => nomatch none
  constructor
  · exact (scan_settled kept wider released settled).trans found
  · have shown := ring.scan_shows start room
    have inside := beyond_scan_lt arc some near
    rw [found] at shown inside
    obtain ⟨place, stamp⟩ := shown.place _ _ _ rfl
    refine ⟨place, Nat.lt_of_le_of_lt (Nat.le_add_right _ _) inside, fun i behind => ⟨stamp i behind, ?_⟩⟩
    rwa [behind] at inside

omit arc same in
theorem frameLength_bounds {buffer segments length : Nat} {last : Fin n}
    (measured : ring.frameLength buffer last segments = .ok length) :
    0 < length ∧ length ≤ segments * buffer ∧ (segments ≠ 1 → length ≤ maxFrameSize) := by
  unfold frameLength at measured
  dsimp only at measured
  split at measured
  · cases measured
  · split at measured
    · cases measured
    · split at measured
      · cases measured
      · obtain rfl := Except.ok.inj measured
        omega

end Ring

namespace Receiver

variable {g : Geometry} {r s : Receiver g}

/-- The bytes of a frame are told by its own blocks alone. -/
theorem frameBytes_congr {first : Fin g.rx} {segments length : Nat}
    (same : ∀ k, k < segments → s.pool.block (Ring.advance first k) = r.pool.block (Ring.advance first k))
    (covered : length ≤ segments * g.buffer) (short : segments ≠ 1 → length ≤ maxFrameSize) :
    (s.frameBytes first segments length).1 = (r.frameBytes first segments length).1 := by
  rw [s.frameBytes_eq first covered short, r.frameBytes_eq first covered short, bytesFrom, bytesFrom]
  congr 1
  funext j
  have place : j.val / g.buffer < segments := (Nat.div_lt_iff_lt_mul g.buffer_pos).mpr (by omega)
  rw [same _ place]

/-- The frame that is offered of the run at `first`, if it comes to one. -/
def framed? (r : Receiver g) (first : Fin g.rx) : Run g.rx → Option Frame
  | .frame last following context =>
    match r.ring.frameLength g.buffer last (following + 1) with
    | .ok length => some ⟨(r.frameBytes first (following + 1) length).1, r.ring.stampAt? context⟩
    | .error _ => none
  | _ => none

/-- The frame that a walk over `budget` slots offers of what it finds at `first`, if it offers any. -/
def front? (r : Receiver g) (first : Fin g.rx) : Nat → Option Frame
  | 0 => none
  | room + 1 => if r.ring.isOwned first then none else r.framed? first (r.ring.scan first room)

theorem front?_released {first : Fin g.rx} (room : Nat) (released : r.ring.isOwned first = false) :
    r.front? first (room + 1) = r.framed? first (r.ring.scan first room) := by
  rw [front?, released, if_neg Bool.false_ne_true]

/-- Where there is a frame in front, there is room for one, and its run is the driver's. -/
theorem released_of_front? {first : Fin g.rx} {budget : Nat} {frame : Frame}
    (front : r.front? first budget = some frame) : ∃ room, budget = room + 1 ∧ r.ring.isOwned first = false ∧
      r.framed? first (r.ring.scan first room) = some frame := by
  cases budget with
  | zero => cases front
  | succ room =>
    rw [front?] at front
    split at front
    · cases front
    · rename_i released
      exact ⟨room, rfl, Bool.eq_false_iff.mpr released, front⟩

section Kept

variable {start : Fin g.rx} {count : Nat} {frame : Frame}
  (descriptors : ∀ k, k < count → s.ring.descriptor (Ring.advance start k) = r.ring.descriptor (Ring.advance start k))
  (blocks : ∀ k, k < count → s.pool.block (Ring.advance start k) = r.pool.block (Ring.advance start k))

include descriptors blocks

theorem framed?_kept {last : Fin g.rx} {following : Nat} {context : StampContext g.rx}
    (lies : Ring.LiesIn start count last following context)
    (framed : r.framed? start (.frame last following context) = some frame) :
    s.framed? start (.frame last following context) = some frame := by
  obtain ⟨rfl, inside, stamp⟩ := lies
  unfold framed? at framed ⊢
  dsimp only at framed ⊢
  have length : s.ring.frameLength g.buffer (Ring.advance start following) (following + 1) =
      r.ring.frameLength g.buffer (Ring.advance start following) (following + 1) := by
    rw [Ring.frameLength, Ring.frameLength, descriptors following inside]
  rw [length]
  split at framed
  · rename_i length measured
    have stamps : s.ring.stampAt? context = r.ring.stampAt? context := by
      cases context with
      | unpromised => rfl
      | missing => rfl
      | inSlot i =>
        obtain ⟨rfl, further⟩ := stamp i rfl
        rw [Ring.stampAt?, Ring.stampAt?, descriptors _ further]
    obtain ⟨_, covered, short⟩ := Ring.frameLength_bounds measured
    have bytes : (s.frameBytes start (following + 1) length).1 = (r.frameBytes start (following + 1) length).1 :=
      frameBytes_congr (fun k within => blocks k (by omega)) covered short
    rw [bytes, stamps]
    exact framed
  · cases framed

/-- The frame in front stays the one that is offered, whatever the hardware writes behind it. -/
theorem front?_kept {budget more : Nat} (arc : r.ring.IsArc start count) (near : budget ≤ g.rx)
    (wider : budget ≤ more) (front : r.front? start budget = some frame) : s.front? start more = some frame := by
  obtain ⟨room, rfl, released, framed⟩ := released_of_front? front
  obtain ⟨more, rfl⟩ : ∃ less, more = less + 1 := ⟨more - 1, by omega⟩
  have first : 0 < count := by
    refine Ring.inside_of_released arc g.rx_pos ?_
    rwa [Ring.advance_zero]
  have owner := descriptors 0 first
  rw [Ring.advance_zero] at owner
  have still : s.ring.isOwned start = false := by rwa [Ring.isOwned, owner, ← Ring.isOwned]
  rw [front?_released more still]
  cases found : r.ring.scan start room with
  | frame last following context =>
    obtain ⟨again, lies⟩ := Ring.scan_kept arc descriptors first near (by omega : room ≤ more) found
    rw [found] at framed
    rw [again]
    exact framed?_kept descriptors blocks lies framed
  | incomplete | stray | overflow =>
    rw [found] at framed
    cases framed

end Kept

end Receiver

namespace Board

variable {g : Geometry} {ε : Type}

/-- The board on which a frame is offered: put together in the scratch buffer, and perhaps with a note. -/
def readied (board : Board g ε) (scratch : Block maxFrameSize) (journal : Array Diagnostic) : Board g ε :=
  { board with
    mac := { board.mac with receiver := { board.mac.receiver with scratch := scratch } }
    journal := journal }

/-- The board with a run of slots given back to the hardware. -/
def givenBack (board : Board g ε) (first : Fin g.rx) (count : Nat) : Board g ε :=
  { board with mac := { board.mac with receiver := { board.mac.receiver with
    ring := board.mac.receiver.ring.rearm first count } } }

/-- What comes of the run in front: its frame is offered, or there is none to offer. -/
inductive Tried (app : Application g ε) (first : Fin g.rx) (room : Nat) (before : Board g ε) :
    Option Bool → Board g ε → Prop
  | offered {frame scratch journal answer after} : before.mac.receiver.front? first (room + 1) = some frame →
      app.onEvent (.frameAvailable frame) (before.readied scratch journal) = some (answer, after) →
      Tried app first room before (verdict (some answer)) after
  | passed {outcome journal} : before.mac.receiver.front? first (room + 1) = none →
      Tried app first room before outcome { before with journal := journal }

/-- How a walk goes, told run by run: it ends where no run is in front or a run is left there, and goes on behind a run
that is given back. -/
inductive Course (app : Application g ε) : Nat → Fin g.rx → Board g ε → Board g ε → Prop
  | ended {budget first board} : board.mac.receiver.front? first budget = none → Course app budget first board board
  | left {room first before after} : Tried app first room before none after → Course app (room + 1) first before after
  | onward {room first before delivered middle after} : before.mac.receiver.ring.isOwned first = false →
      Tried app first room before (some delivered) middle →
      Course app (room - (before.mac.receiver.ring.scan first room).beyond)
        (Ring.advance first ((before.mac.receiver.ring.scan first room).beyond + 1))
        (middle.givenBack first ((before.mac.receiver.ring.scan first room).beyond + 1)) after →
      Course app (room + 1) first before after

variable {app : Application g ε} {before after : Board g ε}

end Board

namespace Tracks

variable {g : Geometry} {σ : Type} {board after : Board g (ReceiveBench g σ)} {start : Fin g.rx} {parts : List (Part g)}

/-- The frame in front stays in front while the hardware goes on behind it. -/
theorem front?_meanwhile {admits : Reception g → Prop} {budget more : Nat} {frame : Frame}
    (tracks : Tracks board start parts) (near : budget ≤ g.rx) (wider : budget ≤ more)
    (front : board.mac.receiver.front? start budget = some frame) (event : Meanwhile admits board after) :
    after.mac.receiver.front? start more = some frame := by
  have arc := tracks.holds.isArc
  cases event with
  | aside receiver core up =>
    rw [receiver]
    exact Receiver.front?_kept (fun _ _ => rfl) (fun _ _ => rfl) arc near wider front
  | @writeBack part d _ due owned describes =>
    rw [tracks.position] at owned
    have room := tracks.holds.length_lt owned
    have apart (k : Nat) (inside : k < parts.length) : Ring.advance start parts.length ≠ Ring.advance start k := by
      intro same
      have := Ring.advance_injective start room (by omega) same
      omega
    refine Receiver.front?_kept (fun k inside => ?_) (fun k inside => ?_) arc near wider front
    · dsimp only [Receiver.writeBack]
      rw [tracks.position, Ring.descriptor, Ring.setDescriptor, Ring.slot_modifySlot_of_ne _ _ (apart k inside)]
      rfl
    · dsimp only
      rw [tracks.position, tracks.holds.pool_writeBack owned, Pool.block_fill_of_ne _ _ (apart k inside)]

end Tracks

end EthernetMac
