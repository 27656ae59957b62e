import EthernetMac.Proofs.RingArc

namespace EthernetMac

theorem Block.size_take {size : Nat} (block : Block size) (count : Nat) :
    (block.take count).size = min count size := by
  simp [Block.take]

theorem Block.getElem?_take {size : Nat} (block : Block size) (count : Nat) (j : Fin size) (inside : j.val < count) :
    (block.take count)[j.val]? = some (block.byte j) := by
  have reached : j.val < min count block.toArray.size - 0 := by simpa using Nat.lt_min.mpr ⟨inside, j.isLt⟩
  rw [Block.take, Array.getElem?_extract, if_pos reached]
  simp [Block.byte]

namespace Piece

variable {n size : Nat}

theorem cut_of_le (positive : 0 < size) {length copied : Nat} (done : length ≤ copied) (i : Fin n) :
    cut positive length copied i = [] := by
  rw [cut, if_neg (Nat.not_lt.mpr done)]

/-- The piece that lies `k` blocks behind the first one. -/
def nth (size length : Nat) (first : Fin n) (k : Nat) : Piece n :=
  ⟨Ring.advance first k, min (length - k * size) size, k * size⟩

/-- The number of blocks of `size` bytes that it takes to hold `length` bytes. -/
def blocks (size length : Nat) : Nat := (length + size - 1) / size

theorem lt_blocks_iff (positive : 0 < size) {length k : Nat} : k < blocks size length ↔ k * size < length := by
  rw [blocks, Nat.lt_iff_add_one_le, Nat.le_div_iff_mul_le positive, Nat.succ_mul]
  omega

theorem blocks_le (positive : 0 < size) {length segments : Nat} (covered : length ≤ segments * size) :
    blocks size length ≤ segments := by
  refine Nat.le_of_not_lt fun more => ?_
  have short := (lt_blocks_iff positive).mp more
  omega

/-- As long as a block is used up whole, the next piece is that of the next block. -/
theorem cut_nth (positive : 0 < size) (length : Nat) (first : Fin n) {left k : Nat}
    (rest : blocks size length - k = left) :
    cut positive length (k * size) (Ring.advance first k) = (List.range' k left).map (nth size length first) := by
  induction left generalizing k with
  | zero =>
    have done : ¬ k * size < length := fun more => by
      have := (lt_blocks_iff positive).mpr more
      omega
    exact cut_of_le positive (Nat.le_of_not_lt done) _
  | succ left ih =>
    have more := (lt_blocks_iff positive).mp (by omega : k < blocks size length)
    rw [cut, if_pos more, Ring.next_advance, List.range'_succ, List.map_cons]
    refine congrArg (nth size length first k :: ·) ?_
    have next := ih (by omega : blocks size length - (k + 1) = left)
    rw [Nat.succ_mul] at next
    by_cases whole : size ≤ length - k * size
    · rw [Nat.min_eq_right whole]
      exact next
    · -- the last piece is shorter than a block, and nothing is left behind it
      rw [cut_of_le positive (by omega)] at next
      rw [cut_of_le positive (by omega), ← next]

theorem cut_eq (positive : 0 < size) (length : Nat) (first : Fin n) :
    cut positive length 0 first = (List.range (blocks size length)).map (nth size length first) := by
  have all := cut_nth positive length first (Nat.sub_zero (blocks size length))
  rwa [Nat.zero_mul, Ring.advance_zero, ← List.range_eq_range'] at all

end Piece

namespace Pool

variable {n size target : Nat}

theorem copy_nth (pool : Pool n size) (into : Block target) (length : Nat) (first : Fin n) (k : Nat) :
    pool.copy into (Piece.nth size length first k) =
      into.overlay (k * size) ((pool.block (Ring.advance first k)).take (min (length - k * size) size)) := rfl

/-- A byte of one of the first `count` pieces comes from the block in whose stretch it lies, at the place that it has
there. -/
theorem byte_copied (pool : Pool n size) (positive : 0 < size) (into : Block target) (first : Fin n)
    {length count : Nat} {j : Fin target} (wanted : j.val < length) (reached : j.val < count * size) :
    (((List.range count).map (Piece.nth size length first)).foldl pool.copy into).byte j =
      (pool.block (Ring.advance first (j.val / size))).byte ⟨j.val % size, Nat.mod_lt _ positive⟩ := by
  induction count with
  | zero => omega
  | succ count ih =>
    rw [Nat.succ_mul] at reached
    rw [List.range_succ, List.map_append, List.map_singleton, List.foldl_append, List.foldl_cons, List.foldl_nil,
      copy_nth, Block.byte_overlay]
    by_cases before : j.val < count * size
    · rw [if_neg (Nat.not_le.mpr before)]
      exact ih before
    · have within : j.val - count * size < size := by omega
      have place : j.val / size = count := Nat.div_eq_of_lt_le (by omega) (by rw [Nat.succ_mul]; exact reached)
      have offset : j.val % size = j.val - count * size := by rw [Nat.mod_eq_sub_div_mul, place]
      have taken := (pool.block (Ring.advance first count)).getElem?_take (min (length - count * size) size)
        ⟨j.val - count * size, within⟩ (show j.val - count * size < _ by omega)
      rw [if_pos (Nat.le_of_not_lt before), taken, Option.getD_some]
      simp only [place, offset]

theorem reassemble_bytes (pool : Pool n size) (positive : 0 < size) (scratch : Block maxFrameSize) (first : Fin n)
    {length : Nat} (short : length ≤ maxFrameSize) :
    (pool.reassemble positive scratch first length).1 = Array.ofFn fun j : Fin length =>
      (pool.block (Ring.advance first (j.val / size))).byte ⟨j.val % size, Nat.mod_lt _ positive⟩ := by
  have whole : min length maxFrameSize = length := Nat.min_eq_left short
  rw [reassemble, whole, Piece.cut_eq]
  apply Array.ext
  · rw [Block.size_take, whole, Array.size_ofFn]
  · intro j insideTake insideBytes
    have inside : j < length := by rwa [Array.size_ofFn] at insideBytes
    have near : j < maxFrameSize := Nat.lt_of_lt_of_le inside short
    have reached : j < Piece.blocks size length * size := by
      refine Nat.lt_of_not_le fun beyond => ?_
      exact Nat.lt_irrefl _ ((Piece.lt_blocks_iff positive).mpr (Nat.lt_of_le_of_lt beyond inside))
    have wanted : (⟨j, near⟩ : Fin maxFrameSize).val < length := inside
    have copied := pool.byte_copied positive scratch first wanted reached
    have taken := (((List.range (Piece.blocks size length)).map (Piece.nth size length first)).foldl pool.copy
      scratch).getElem?_take length ⟨j, near⟩ inside
    rw [copied] at taken
    rw [Array.getElem_ofFn]
    exact (Array.getElem?_eq_some_iff.mp taken).2

/-- A frame that `segments` blocks hold is put together in at most as many steps. Each one reads within a block of its
own among those, and writes within the scratch buffer; the bytes are those of the blocks, one block behind the other,
whatever the buffer has held before. -/
theorem reassembles_span (pool : Pool n size) (positive : 0 < size) (scratch : Block maxFrameSize) (first : Fin n)
    {length segments : Nat} (short : length ≤ maxFrameSize) (covered : length ≤ segments * size) (fits : segments ≤ n) :
    (pool.reassemble positive scratch first length).2 = (Piece.cut positive length 0 first).foldl pool.copy scratch ∧
    (Piece.cut positive length 0 first).length ≤ segments ∧
    ((Piece.cut positive length 0 first).map (·.block)).Nodup ∧
    (∀ piece ∈ Piece.cut positive length 0 first, piece.length ≤ size ∧ piece.offset + piece.length ≤ maxFrameSize ∧
      ∃ k < segments, piece.block = Ring.advance first k) ∧
    (∀ before, (pool.reassemble positive before first length).1 = Array.ofFn fun j : Fin length =>
      (pool.block (Ring.advance first (j.val / size))).byte ⟨j.val % size, Nat.mod_lt _ positive⟩) := by
  have few := Piece.blocks_le positive covered
  refine ⟨?_, ?_, ?_, ?_, fun before => pool.reassemble_bytes positive before first short⟩
  · rw [reassemble, Nat.min_eq_left short]
  · rw [Piece.cut_eq, List.length_map, List.length_range]
    exact few
  · rw [Piece.cut_eq, List.map_map]
    exact Ring.nodup_advance first (Nat.le_trans few fits)
  · rw [Piece.cut_eq]
    intro piece among
    obtain ⟨k, inside, rfl⟩ := List.mem_map.mp among
    have near := List.mem_range.mp inside
    have more := (Piece.lt_blocks_iff positive).mp near
    refine ⟨Nat.min_le_right _ _, ?_, k, Nat.lt_of_lt_of_le near few, rfl⟩
    dsimp only [Piece.nth]
    omega

/-- Three blocks of four bytes. -/
def threeBlocks : Pool 3 4 := ⟨0, #v[#v[1, 2, 3, 4], #v[5, 6, 7, 8], #v[9, 10, 11, 12]]⟩

/-- Six bytes from the last block round to the first one. -/
theorem reassembles_span_wrapped :
    6 ≤ maxFrameSize ∧ 6 ≤ 2 * 4 ∧ 2 ≤ 3 ∧
      (Piece.cut (by decide : 0 < 4) 6 0 (2 : Fin 3)).length ≤ 2 ∧
      (threeBlocks.reassemble (by decide) (Vector.replicate maxFrameSize 0xFF) 2 6).1 = #[9, 10, 11, 12, 1, 2] := by
  have short : 6 ≤ maxFrameSize := by decide
  have covered : 6 ≤ 2 * 4 := by decide
  have fits : 2 ≤ 3 := by decide
  obtain ⟨_, few, _, _, bytes⟩ :=
    reassembles_span threeBlocks (by decide) (Vector.replicate maxFrameSize 0xFF) (2 : Fin 3) short covered fits
  exact ⟨short, covered, fits, few, (bytes _).trans (by decide)⟩

end Pool

end EthernetMac
