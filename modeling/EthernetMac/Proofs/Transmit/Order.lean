import EthernetMac.Proofs.Transmit.Drain

namespace EthernetMac

/-- The signed 16-bit distance of a submission behind the last acknowledged one, `previous` being the number of
submissions up to that. It is the true distance as long as that is less than half a turn of the counter. -/
def lag (previous index : Nat) : Int := Int.bmod ((index : Int) + 1 - previous) 65536

theorem lag_add (previous index k : Nat) (near : k < 65536) :
    lag previous (index + k) = lag previous index + k ∨ lag previous (index + k) = lag previous index + k - 65536 := by
  unfold lag
  rw [Int.bmod_def, Int.bmod_def]
  omega

theorem lag_bounds (previous index : Nat) : -32768 ≤ lag previous index ∧ lag previous index ≤ 32767 := by
  unfold lag
  rw [Int.bmod_def]
  omega

/-- Counting lags puts the earlier one of two submissions first: the later one lies farther behind the last acknowledged
one, and does not come right after it. -/
def LagsInOrder (previous earlier later : Nat) : Prop :=
  lag previous earlier < lag previous later ∧ lag previous later ≠ 1

theorem lagsInOrder_of_near {previous earlier later : Nat} (after : previous ≤ earlier) (order : earlier < later)
    (near : later < previous + 32767) : LagsInOrder previous earlier later := by
  have exact : ∀ j, previous ≤ j → j < previous + 32767 → lag previous j = j + 1 - previous := by
    intro j low high
    rw [lag, Int.bmod_def]
    omega
  rw [LagsInOrder, exact earlier after (by omega), exact later (by omega) near]
  omega

/-- When the timestamp was chosen, counting lags kept the order between its submission and all the others that waited
and were delivered some time. -/
def StampDelivery.KeepsOrder (d : StampDelivery) (delivered : List Nat) : Prop :=
  ∀ j ∈ d.others, j ∈ delivered → LagsInOrder d.previous (min d.index j) (max d.index j)

variable {g : Geometry} {σ : Type}

namespace Ledger

variable {t : Transmitter g} {bench : TransmitBench σ}

theorem distance_eq (ledger : Ledger t bench) {j : Nat} (inside : InRing g bench j) :
    t.distance (g.txSlot j) = lag bench.previous j := by
  have signed : ∀ x : UInt16, x.toInt16.toInt = x.toBitVec.toInt := fun _ => rfl
  rw [Transmitter.distance, ledger.sequence inside, ledger.acknowledged, signed, UInt16.toBitVec_sub,
    BitVec.toInt_sub]
  simp only [UInt16.toBitVec_ofNat', BitVec.toInt_ofNat', lag]
  simp

/-- The timestamp that is selected is older than another one that waits exactly when counting lags keeps the order of
the two. -/
theorem lagsInOrder_iff (ledger : Ledger t bench) {j k : Nat} (pending : Pending g bench j)
    (selected : t.nextStamped? = some (g.txSlot j)) (waits : Pending g bench k) (other : k ≠ j) :
    LagsInOrder bench.previous (min j k) (max j k) ↔ j < k := by
  obtain ⟨_, closest⟩ := Transmitter.nextStamped?_eq_some selected
  have closest : lag bench.previous j = 1 ∨
      lag bench.previous k ≠ 1 ∧ lag bench.previous j ≤ lag bench.previous k := by
    have least := closest.imp_right fun least =>
      least (g.txSlot k) (ledger.isStamped_iff.mpr ⟨k, waits, rfl⟩)
    rwa [ledger.distance_eq pending.inRing, ledger.distance_eq waits.inRing] at least
  unfold LagsInOrder
  rcases Nat.lt_or_gt_of_ne other with before | after
  · rw [Nat.min_eq_right (Nat.le_of_lt before), Nat.max_eq_left (Nat.le_of_lt before)]
    omega
  · rw [Nat.min_eq_left (Nat.le_of_lt after), Nat.max_eq_right (Nat.le_of_lt after)]
    -- within one turn of the ring a lag grows with the distance, unless it wraps below the chosen one's
    have made := waits.inRing.made
    have recent := pending.inRing.recent
    have ring := g.tx_le
    have bounds := lag_bounds bench.previous k
    have added := lag_add bench.previous j (k - j) (by omega)
    rw [show j + (k - j) = k by omega] at added
    omega

end Ledger

structure Delivers (before after : Board g (TransmitBench σ)) (entry : StampDelivery) : Prop where
  ledger : Ledger after.mac.transmitter after.world
  waited : Pending g before.world entry.index
  selected : before.mac.transmitter.nextStamped? = some (g.txSlot entry.index)
  submissions : after.world.submissions = before.world.submissions
  writeBacks : after.world.writeBacks = before.world.writeBacks
  deliveries : after.world.deliveries = before.world.deliveries ++ [entry]
  completing : after.mac.transmitter.completing = before.mac.transmitter.completing
  lifecycle : after.mac.lifecycle = before.mac.lifecycle
  load : after.mac.transmitter.load < before.mac.transmitter.load
  left : ∀ k, Pending g after.world k ↔ Pending g before.world k ∧ k ≠ entry.index
  previous : entry.previous = before.world.previous
  others : ∀ k, k ∈ entry.others ↔ Pending g before.world k ∧ k ≠ entry.index
  inOrder : ∀ k ∈ entry.others, LagsInOrder entry.previous (min entry.index k) (max entry.index k) ↔ entry.index < k

theorem Delivers.deliveries_length {before after : Board g (TransmitBench σ)} {entry : StampDelivery}
    (delivers : Delivers before after entry) :
    after.world.deliveries.length = before.world.deliveries.length + 1 := by
  rw [delivers.deliveries, List.length_append, List.length_singleton]

theorem Ledger.delivers {board : Board g (TransmitBench σ)} (ledger : Ledger board.mac.transmitter board.world)
    {i : Fin g.tx} (selected : board.mac.transmitter.nextStamped? = some i) :
    ∃ entry, Delivers board
      (Board.logStamp (board.mac.transmitter.takeStamp i).1.1 (board.mac.transmitter.takeStamp i).1.2
        { board with mac := { board.mac with transmitter := (board.mac.transmitter.takeStamp i).2 } }).2 entry := by
  obtain ⟨stamped, _⟩ := Transmitter.nextStamped?_eq_some selected
  obtain ⟨j, pending, rfl⟩ := ledger.isStamped_iff.mp stamped
  have ring := g.tx_le
  have decoded : ∀ k, InRing g board.world k →
      latestIndex board.world.submissions.length (UInt16.ofNat (k + 1)) = k :=
    fun k inside => latestIndex_eq inside.made (by have := inside.recent; omega)
  let taken : Board g (TransmitBench σ) :=
    { board with mac := { board.mac with transmitter := (board.mac.transmitter.takeStamp (g.txSlot j)).2 } }
  let entry := taken.deliveryOf (board.mac.transmitter.takeStamp (g.txSlot j)).1.1
    (board.mac.transmitter.takeStamp (g.txSlot j)).1.2
  have index : entry.index = j := by
    change latestIndex _ (board.mac.transmitter.ring.slot (g.txSlot j)).ext.sequence = j
    rw [ledger.sequence pending.inRing]
    exact decoded j pending.inRing
  have later := ledger.take pending index rfl rfl
  have delivered : ∀ k, k ∈ (board.world.deliveries ++ [entry]).map (·.index) ↔ k ∈ board.world.delivered ∨ k = j := by
    intro k
    rw [List.map_append, List.mem_append, List.map_singleton, List.mem_singleton, index]
    rfl
  have left : ∀ k, Pending g { board.world with deliveries := board.world.deliveries ++ [entry] } k ↔
      Pending g board.world k ∧ k ≠ entry.index := by
    intro k
    rw [index]
    constructor
    · rintro ⟨⟨made, recent⟩, free, captured⟩
      obtain ⟨notBefore, other⟩ := not_or.mp fun either => free ((delivered k).mpr either)
      exact ⟨⟨⟨made, recent⟩, notBefore, captured⟩, other⟩
    · rintro ⟨⟨⟨made, recent⟩, free, captured⟩, other⟩
      exact ⟨⟨made, recent⟩, fun gone => ((delivered k).mp gone).elim free other, captured⟩
  have others : ∀ k, k ∈ entry.others ↔ Pending g board.world k ∧ k ≠ entry.index := by
    intro k
    rw [← left k]
    change k ∈ List.map _ _ ↔ _
    rw [List.mem_map]
    constructor
    · rintro ⟨i, waits, rfl⟩
      obtain ⟨m, still, rfl⟩ := later.isStamped_iff.mp (Transmitter.mem_stamped.mp waits)
      rw [later.sequence still.inRing]
      change Pending g _ (latestIndex board.world.submissions.length _)
      rwa [decoded m ⟨still.inRing.made, still.inRing.recent⟩]
    · intro still
      refine ⟨g.txSlot k, Transmitter.mem_stamped.mpr (later.isStamped_iff.mpr ⟨k, still, rfl⟩), ?_⟩
      rw [later.sequence still.inRing]
      exact decoded k ⟨still.inRing.made, still.inRing.recent⟩
  refine ⟨entry, later, by rwa [index], by rwa [index], rfl, rfl, rfl, rfl, rfl,
    Transmitter.load_takeStamp stamped, left, rfl, others, ?_⟩
  intro k among
  obtain ⟨waits, other⟩ := (others k).mp among
  rw [index] at other ⊢
  exact ledger.lagsInOrder_iff pending selected waits other

/-- When the timestamp was chosen, all that waited belonged to the next 32767 submissions after the last acknowledged
one. -/
def StampDelivery.IsNear (d : StampDelivery) : Prop :=
  ∀ j ∈ d.index :: d.others, j < d.previous + 32767

/-- What the record tells of the order of the deliveries: a timestamp that was delivered later has waited beside the
earlier one, or belongs to a later submission. -/
structure Chronicle (g : Geometry) (bench : TransmitBench σ) : Prop where
  behind : ∀ d ∈ bench.deliveries, ∀ j, Pending g bench j → j ∈ d.others ∨ d.index < j
  listed : bench.deliveries.Pairwise fun d e => (e.index ∈ d.others ∨ d.index < e.index) ∧ d.index ∉ e.others
  apart : ∀ d ∈ bench.deliveries, d.index ∉ d.others
  inOrder : ∀ d ∈ bench.deliveries, ∀ k ∈ d.others,
    LagsInOrder d.previous (min d.index k) (max d.index k) ↔ d.index < k
  oldest : (∀ d ∈ bench.deliveries, d.IsNear) → ∀ d ∈ bench.deliveries, ∀ k ∈ d.others, d.index < k

namespace Chronicle

variable {bench : TransmitBench σ}

theorem init (empty : bench.deliveries = []) : Chronicle g bench := by
  constructor <;> simp [empty]

theorem mono {later : TransmitBench σ} (chronicle : Chronicle g bench) (same : later.deliveries = bench.deliveries)
    (waiting : ∀ j, Pending g later j → Pending g bench j ∨ ∀ d ∈ bench.deliveries, d.index < j) :
    Chronicle g later := by
  refine ⟨fun d among j pending => ?_, ?_, ?_, ?_, ?_⟩
  · rw [same] at among
    rcases waiting j pending with waited | new
    · exact chronicle.behind d among j waited
    · exact Or.inr (new d among)
  · rw [same]
    exact chronicle.listed
  · rw [same]
    exact chronicle.apart
  · rw [same]
    exact chronicle.inOrder
  · rw [same]
    exact chronicle.oldest

theorem previous_le (chronicle : Chronicle g bench) (near : ∀ d ∈ bench.deliveries, d.IsNear) {j : Nat}
    (pending : Pending g bench j) : bench.previous ≤ j := by
  unfold TransmitBench.previous
  cases latest : bench.deliveries.getLast? with
  | none => exact Nat.zero_le _
  | some d =>
    have among := List.mem_of_getLast? latest
    rcases chronicle.behind d among j pending with waited | later
    · exact chronicle.oldest near d among j waited
    · exact later

theorem take {before after : Board g (TransmitBench σ)} {entry : StampDelivery} (chronicle : Chronicle g before.world)
    (delivers : Delivers before after entry) : Chronicle g after.world := by
  have deliveries := delivers.deliveries
  refine ⟨fun d among j pending => ?_, ?_, fun d among => ?_, fun d among => ?_, fun near d among k waited => ?_⟩
  · rw [deliveries] at among
    obtain ⟨waited, other⟩ := (delivers.left j).mp pending
    rcases List.mem_append.mp among with old | new
    · exact chronicle.behind d old j waited
    · rw [List.mem_singleton.mp new]
      exact Or.inl ((delivers.others j).mpr ⟨waited, other⟩)
  · rw [deliveries]
    refine List.pairwise_append.mpr ⟨chronicle.listed, List.pairwise_singleton _ _, fun d old e new => ?_⟩
    rw [List.mem_singleton.mp new]
    refine ⟨chronicle.behind d old _ delivers.waited, fun among => ?_⟩
    obtain ⟨waited, _⟩ := (delivers.others d.index).mp among
    exact waited.undelivered (List.mem_map_of_mem old)
  · rw [deliveries] at among
    rcases List.mem_append.mp among with old | new
    · exact chronicle.apart d old
    · rw [List.mem_singleton.mp new]
      exact fun itself => ((delivers.others _).mp itself).2 rfl
  · rw [deliveries] at among
    rcases List.mem_append.mp among with old | new
    · exact chronicle.inOrder d old
    · rw [List.mem_singleton.mp new]
      exact delivers.inOrder
  · rw [deliveries] at among near
    obtain ⟨nearBefore, nearNow⟩ := List.forall_mem_append.mp near
    rcases List.mem_append.mp among with old | new
    · exact chronicle.oldest nearBefore d old k waited
    · obtain rfl := List.mem_singleton.mp new
      obtain ⟨pending, other⟩ := (delivers.others k).mp waited
      have close := nearNow d (List.mem_singleton_self d)
      rw [StampDelivery.IsNear, delivers.previous] at close
      have first := close _ (List.mem_cons_self ..)
      have second := close k (List.mem_cons_of_mem _ waited)
      have low := chronicle.previous_le nearBefore delivers.waited
      have low' := chronicle.previous_le nearBefore pending
      refine (delivers.inOrder k waited).mp ?_
      rw [delivers.previous]
      exact lagsInOrder_of_near (Nat.le_min.mpr ⟨low, low'⟩) (by omega) (Nat.max_lt.mpr ⟨first, second⟩)

/-- Timestamps are delivered in the order of submission exactly when counting lags kept the order each time. -/
theorem sorted_iff (chronicle : Chronicle g bench) :
    bench.delivered.Pairwise (· < ·) ↔ ∀ d ∈ bench.deliveries, d.KeepsOrder bench.delivered := by
  rw [TransmitBench.delivered, List.pairwise_map]
  constructor
  · intro sorted d among k waited delivered
    obtain ⟨e, listed, rfl⟩ := List.mem_map.mp delivered
    rw [chronicle.inOrder d among _ waited]
    -- the other one was delivered afterwards, since it still waited
    have onward : bench.deliveries.Pairwise fun d e => e.index ∈ d.others → d.index < e.index :=
      sorted.imp fun {d e} less (_ : e.index ∈ d.others) => less
    have back : bench.deliveries.Pairwise fun d e => d.index ∈ e.others → e.index < d.index :=
      chronicle.listed.imp fun {d e} order (early : d.index ∈ e.others) => absurd early order.2
    exact onward.forall_of_forall_of_flip (fun d among itself => absurd itself (chronicle.apart d among)) back among
      listed waited
  · intro kept
    refine chronicle.listed.imp_of_mem fun {d e} first second order => ?_
    rcases order.1 with waited | later
    · exact (chronicle.inOrder d first _ waited).mp (kept d first _ waited (List.mem_map_of_mem second))
    · exact later

/-- In particular they are while all that wait belong to the next 32767 submissions. -/
theorem sorted_of_near (chronicle : Chronicle g bench) (near : ∀ d ∈ bench.deliveries, d.IsNear) :
    bench.delivered.Pairwise (· < ·) :=
  chronicle.sorted_iff.mpr fun d among k waited _ =>
    (chronicle.inOrder d among k waited).mpr (chronicle.oldest near d among k waited)

end Chronicle

end EthernetMac
