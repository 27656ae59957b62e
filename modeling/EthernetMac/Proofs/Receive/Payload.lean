import EthernetMac.Proofs.Receive.Holding
import EthernetMac.Proofs.Receive.Reassembly

namespace EthernetMac

namespace Receiver

variable {g : Geometry}

theorem byte_of_storesPart {r : Receiver g} {f : Reception g} {first : Fin g.rx}
    (stored : ∀ k, k < f.segments → StoresPart (r.pool.block (Ring.advance first k)) ⟨f, k⟩)
    {j : Nat} (inside : j < f.bytes.size) :
    (r.pool.block (Ring.advance first (j / g.buffer))).byte ⟨j % g.buffer, Nat.mod_lt _ g.buffer_pos⟩ = f.bytes[j] := by
  have segment : j / g.buffer < f.segments :=
    (Nat.div_lt_iff_lt_mul g.buffer_pos).mpr (Nat.lt_of_lt_of_le inside f.covered)
  have place : j / g.buffer * g.buffer + j % g.buffer = j := by rw [Nat.mul_comm]; exact Nat.div_add_mod j g.buffer
  have held := stored _ segment ⟨j % g.buffer, Nat.mod_lt _ g.buffer_pos⟩ (by simpa only [place] using inside)
  simpa only [place] using held

/-- The bytes that lie in the blocks from `first` on, one block behind the other round the ring. -/
def bytesFrom (r : Receiver g) (first : Fin g.rx) (length : Nat) : Array UInt8 :=
  Array.ofFn fun j : Fin length =>
    (r.pool.block (Ring.advance first (j.val / g.buffer))).byte ⟨j.val % g.buffer, Nat.mod_lt _ g.buffer_pos⟩

theorem block_take_eq (r : Receiver g) (first : Fin g.rx) {length : Nat} (fits : length ≤ g.buffer) :
    (r.pool.block first).take length = r.bytesFrom first length := by
  apply Array.ext
  · rw [Block.size_take, Nat.min_eq_left fits, bytesFrom, Array.size_ofFn]
  · intro j insideTake insideBytes
    have inside : j < length := by rwa [bytesFrom, Array.size_ofFn] at insideBytes
    have near : j < g.buffer := Nat.lt_of_lt_of_le inside fits
    have taken := (r.pool.block first).getElem?_take length ⟨j, near⟩ inside
    simp only [bytesFrom, Array.getElem_ofFn, Nat.div_eq_of_lt near, Ring.advance_zero, Nat.mod_eq_of_lt near]
    exact (Array.getElem?_eq_some_iff.mp taken).2

/-- What is offered of a frame are the bytes of its own blocks, whether they had to be put together or not. -/
theorem frameBytes_eq (r : Receiver g) (first : Fin g.rx) {segments length : Nat}
    (covered : length ≤ segments * g.buffer) (short : segments ≠ 1 → length ≤ maxFrameSize) :
    (r.frameBytes first segments length).1 = r.bytesFrom first length := by
  by_cases single : segments = 1
  · rw [frameBytes, if_pos single]
    exact r.block_take_eq first (by simpa [single] using covered)
  · rw [frameBytes, if_neg single]
    exact r.pool.reassemble_bytes g.buffer_pos r.scratch first (short single)

/-- What is offered of a frame that can be offered is what came in. -/
theorem frameBytes_bytes {r : Receiver g} {f : Reception g} {first : Fin g.rx}
    (stored : ∀ k, k < f.segments → StoresPart (r.pool.block (Ring.advance first k)) ⟨f, k⟩)
    (whole : f.segments = 1 ∨ f.bytes.size ≤ maxFrameSize) :
    (r.frameBytes first f.segments f.bytes.size).1 = f.bytes := by
  rw [r.frameBytes_eq first f.covered whole.resolve_left]
  apply Array.ext
  · rw [bytesFrom, Array.size_ofFn]
  · intro j _ inside
    simp only [bytesFrom, Array.getElem_ofFn]
    exact byte_of_storesPart stored inside

theorem frameBytes_receiver (r : Receiver g) (first : Fin g.rx) (segments length : Nat) :
    ∃ scratch, (r.frameBytes first segments length).2 = { r with scratch := scratch } := by
  unfold frameBytes
  split
  · exact ⟨r.scratch, rfl⟩
  · exact ⟨_, rfl⟩

end Receiver

end EthernetMac
