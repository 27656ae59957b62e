namespace EthernetMac

abbrev Block (size : Nat) := Vector UInt8 size

def Block.byte {size : Nat} (block : Block size) (i : Fin size) : UInt8 := getElem block i.val i.isLt

/-- The block with `bytes` laid over it from `offset` on; bytes that would stand past its end are dropped. -/
def Block.overlay {size : Nat} (block : Block size) (offset : Nat) (bytes : Array UInt8) : Block size :=
  Vector.ofFn fun i => if offset ≤ i.val then (bytes[i.val - offset]?).getD (block.byte i) else block.byte i

theorem Block.byte_overlay {size : Nat} (block : Block size) (offset : Nat) (bytes : Array UInt8) (i : Fin size) :
    (block.overlay offset bytes).byte i =
      if offset ≤ i.val then (bytes[i.val - offset]?).getD (block.byte i) else block.byte i := by
  simp [overlay, Block.byte]

def Block.take {size : Nat} (block : Block size) (count : Nat) : Array UInt8 :=
  block.toArray.extract 0 count

/-- The blocks of one ring, one beside the other from the address `base` on. -/
structure Pool (n size : Nat) where
  base : UInt32
  blocks : Vector (Block size) n

namespace Pool

variable {n size : Nat}

def blank (n size : Nat) (base : UInt32) : Pool n size :=
  ⟨base, Vector.replicate n (Vector.replicate size 0)⟩

def block (pool : Pool n size) (i : Fin n) : Block size := getElem pool.blocks i.val i.isLt

def address (pool : Pool n size) (i : Fin n) : UInt32 :=
  pool.base + UInt32.ofNat (i.val * size)

def fill (pool : Pool n size) (i : Fin n) (bytes : Array UInt8) : Pool n size :=
  { pool with blocks := pool.blocks.set i.val ((pool.block i).overlay 0 bytes) i.isLt }

/-- Lays `bytes` over the memory of the pool from byte `start` on. They run on from one block into the next; what would
stand past the last block is dropped. -/
def overlay (pool : Pool n size) (start : Nat) (bytes : Array UInt8) : Pool n size :=
  { pool with blocks := Vector.ofFn fun i =>
      (pool.block i).overlay (start - i.val * size) (bytes.extract (i.val * size - start)) }

def bytes (pool : Pool n size) : Array UInt8 :=
  pool.blocks.toArray.flatMap (·.toArray)

@[simp]
theorem block_fill_self (pool : Pool n size) (i : Fin n) (bytes : Array UInt8) :
    (pool.fill i bytes).block i = (pool.block i).overlay 0 bytes := by
  simp [fill, Pool.block]

theorem block_fill_of_ne (pool : Pool n size) {i j : Fin n} (bytes : Array UInt8) (apart : i ≠ j) :
    (pool.fill i bytes).block j = pool.block j := by
  have places : i.val ≠ j.val := fun same => apart (Fin.ext same)
  simp [fill, Pool.block, places]

/-- A byte of the pool comes from what was laid over it where that reaches, and is kept elsewhere. -/
theorem byte_block_overlay (pool : Pool n size) (start : Nat) (bytes : Array UInt8) (i : Fin n) (k : Fin size) :
    ((pool.overlay start bytes).block i).byte k =
      if start ≤ i.val * size + k.val then (bytes[i.val * size + k.val - start]?).getD ((pool.block i).byte k)
      else (pool.block i).byte k := by
  have place : ((pool.overlay start bytes).block i) =
      (pool.block i).overlay (start - i.val * size) (bytes.extract (i.val * size - start)) := by
    simp [overlay, Pool.block]
  rw [place, Block.byte_overlay]
  by_cases reached : start ≤ i.val * size + k.val
  · have inside : start - i.val * size ≤ k.val := by omega
    have same : i.val * size - start + (k.val - (start - i.val * size)) = i.val * size + k.val - start := by omega
    simp only [reached, inside, if_true, Array.getElem?_extract, same]
    split
    · rfl
    · rw [Array.getElem?_eq_none (by omega)]
  · have before : ¬ start - i.val * size ≤ k.val := by omega
    simp only [reached, before, if_false]

@[simp]
theorem address_fill (pool : Pool n size) (i j : Fin n) (bytes : Array UInt8) :
    (pool.fill i bytes).address j = pool.address j := rfl

end Pool

end EthernetMac
