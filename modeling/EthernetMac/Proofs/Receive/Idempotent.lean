import EthernetMac.Proofs.Receive.Visits

namespace EthernetMac

namespace Ring

variable {n : Nat} {ring other : Ring n} {start : Fin n} {count back : Nat}

/-- A run that is found incomplete within `room` slots is so with more of them, as long as the hardware holds the slot
behind: what it was lacking is still not there. -/
theorem scan_incomplete {room more : Nat} (wider : room ≤ more)
    (held : ring.isOwned (advance start (room + 1)) = true) (found : ring.scan start room = .incomplete) :
    ring.scan start more = .incomplete := by
  obtain ⟨begun, data, last, wants, missing⟩ := scan_incomplete_iff.mp found
  refine scan_incomplete_iff.mpr ⟨begun, data, last, wants, ?_⟩
  rcases missing with rfl | ⟨before, owned⟩
  · exact (Nat.lt_or_eq_of_le wider).symm.imp id fun further => ⟨further, held⟩
  · exact Or.inr ⟨Nat.lt_of_lt_of_le before wider, owned⟩

theorem indexOf?_congr (same : other.base = ring.base) (address : UInt32) :
    other.indexOf? address = ring.indexOf? address := by
  unfold indexOf?
  rw [same]

/-- In `other` the hardware has been given back `count` slots from `start` on that were the software's in `ring`, and
all others are as they were. -/
structure HandsBack (ring other : Ring n) (start : Fin n) (count : Nat) : Prop where
  base : other.base = ring.base
  released : ∀ k, k < count → ring.isOwned (advance start k) = false
  owned : ∀ k, k < count → other.isOwned (advance start k) = true
  kept : ∀ k, count ≤ k → k < n → other.isOwned (advance start k) = ring.isOwned (advance start k)

namespace HandsBack

theorem refl (ring : Ring n) (start : Fin n) : ring.HandsBack ring start 0 :=
  ⟨rfl, fun k none => absurd none (Nat.not_lt_zero k), fun k none => absurd none (Nat.not_lt_zero k), fun _ _ _ => rfl⟩

theorem all_owned (hands : ring.HandsBack other start count) (whole : count = n) (i : Fin n) :
    other.isOwned i = true := by
  obtain ⟨k, near, place⟩ := exists_advance start i
  rw [← place]
  exact hands.owned k (by omega)

theorem append {middle : Ring n} {more : Nat} (one : ring.HandsBack middle start count)
    (two : middle.HandsBack other (advance start count) more) (fits : count + more ≤ n) :
    ring.HandsBack other start (count + more) where
  base := two.base.trans one.base
  released k inside := by
    rcases Nat.lt_or_ge k count with before | after
    · exact one.released k before
    · have released := two.released (k - count) (by omega)
      rwa [advance_advance, Nat.add_sub_cancel' after, one.kept k after (by omega)] at released
  owned k inside := by
    rcases Nat.lt_or_ge k count with before | after
    · -- once round the ring the slots of the first part come behind those of the second
      have kept := two.kept (n - count + k) (by omega) (by omega)
      rwa [advance_advance, show count + (n - count + k) = k + n by omega, advance_add_length, one.owned k before]
        at kept
    · have owned := two.owned (k - count) (by omega)
      rwa [advance_advance, Nat.add_sub_cancel' after] at owned
  kept k after near := by
    have kept := two.kept (k - count) (by omega) (by omega)
    rwa [advance_advance, Nat.add_sub_cancel' (by omega), one.kept k (by omega) near] at kept

/-- Seen from the same position, what is oldest begins behind the slots that were given back. -/
theorem oldest_of_le (hands : ring.HandsBack other start count) (old : ring.IsOldest start back) (left : count < n)
    (within : count ≤ back) : other.oldest (advance start back) = advance start count := by
  have fits : back ≤ n := by
    rcases old.bounded with ⟨near, _⟩ | ⟨same, _⟩ | same <;> omega
  have place : advance start back = advance (advance start count) (back - count) := by
    rw [advance_advance, Nat.add_sub_cancel' within]
  rw [place]
  refine IsOldest.oldest_eq ⟨fun k inside => ?_, ?_⟩
  · rw [advance_advance, hands.kept _ (by omega) (by omega)]
    exact old.released _ (by omega)
  · rcases Nat.eq_zero_or_pos count with rfl | some
    · rw [advance_zero, Nat.sub_zero]
      rcases old.bounded with ⟨near, held⟩ | ⟨same, held⟩ | same
      · exact Or.inl ⟨near, (hands.kept (n - 1) (Nat.zero_le _) (by omega)).trans held⟩
      · exact Or.inr (Or.inl ⟨same, (hands.kept back (Nat.zero_le _) (by omega)).trans held⟩)
      · exact Or.inr (Or.inr same)
    · by_cases near : back - count < n - 1
      · refine Or.inl ⟨near, ?_⟩
        rw [show count = count - 1 + 1 by omega, previous_advance]
        exact hands.owned _ (by omega)
      · refine Or.inr (Or.inl ⟨by omega, ?_⟩)
        rw [← place, show back = n by omega, advance_length, ← advance_zero start]
        exact hands.owned 0 some

/-- Where the slots that were given back reach over the position, it is one of them that is taken for the oldest. -/
theorem oldest_of_lt (hands : ring.HandsBack other start count) (old : ring.IsOldest start back) (fits : count ≤ n)
    (beyond : back < count) : other.isOwned (other.oldest (advance start back)) = true := by
  rcases Nat.lt_or_eq_of_le fits with left | whole
  · have here : other.IsOldest (advance start back) 0 := by
      refine ⟨fun k none => absurd none (Nat.not_lt_zero k), Or.inl ⟨by omega, ?_⟩⟩
      rcases Nat.eq_zero_or_pos back with rfl | some
      · rcases old.bounded with ⟨_, held⟩ | ⟨same, _⟩ | same
        · rw [advance_zero]
          exact (hands.kept (n - 1) (by omega) (by omega)).trans held
        · omega
        · omega
      · rw [show back = back - 1 + 1 by omega, previous_advance]
        exact hands.owned _ (by omega)
    have same := here.oldest_eq
    rw [advance_zero] at same
    rw [same]
    exact hands.owned back beyond
  · exact hands.all_owned whole _

end HandsBack

/-- A turn round the ring from `start` on has dealt with `total` slots and come to a run whose end it cannot see, only
because there it has been all round: the slots that are left are the software's too. -/
structure CutShort (ring : Ring n) (start : Fin n) (total : Nat) : Prop where
  some : 0 < total
  left : total < n
  released : ∀ k, total ≤ k → k < n → ring.isOwned (advance start k) = false
  incomplete : ring.scan (advance start total) (n - total - 1) = .incomplete

theorem HandsBack.full_of_cutShort (hands : ring.HandsBack other start count) (cut : other.CutShort start count)
    (old : ring.IsOldest start back) : back = n := by
  have released (k : Nat) (near : k < n) : ring.isOwned (advance start k) = false := by
    rcases Nat.lt_or_ge k count with before | after
    · exact hands.released k before
    · rw [← hands.kept k after near]
      exact cut.released k after near
  have left := cut.left
  rcases old.bounded with ⟨near, held⟩ | ⟨same, held⟩ | same
  · rw [previous, released (n - 1) (by omega)] at held
    cases held
  · rw [released back (by omega)] at held
    cases held
  · exact same

/-- A run that is found incomplete after a turn from `start` on is so with a whole turn of its own, if the slots before
it were given back. -/
theorem HandsBack.scan_incomplete (hands : ring.HandsBack other start count) (left : count < n)
    (found : other.scan (advance start count) (n - count - 1) = .incomplete) :
    other.scan (advance start count) (n - 1) = .incomplete := by
  rcases Nat.eq_zero_or_pos count with rfl | some
  · exact found
  · refine Ring.scan_incomplete (by omega) ?_ found
    rw [advance_advance, show count + (n - count - 1 + 1) = 0 + n by omega, advance_add_length]
    exact hands.owned 0 some

end Ring

variable {g : Geometry} {ε : Type}

/-- Nothing comes in during the upcalls: they leave the receive ring as it is, and what is told by `place` as well. -/
def Application.Calm {κ : Type} (place : ε → κ) (app : Application g ε) : Prop :=
  ∀ frame called answer back, app.onEvent (.frameAvailable frame) called = some (answer, back) →
    back.mac.receiver.ring = called.mac.receiver.ring ∧ place back.world = place called.world

namespace Visit.IsSound

variable {κ : Type} {place : ε → κ} {app : Application g ε} {v : Visit g ε} (sound : v.IsSound app)

include sound

theorem calm (calm : app.Calm place) :
    v.left.mac.receiver.ring = v.found.mac.receiver.ring ∧ place v.left.world = place v.found.world := by
  cases offered : v.offered with
  | none =>
    obtain ⟨journal, same⟩ := sound.passed offered
    rw [same]
    exact ⟨rfl, rfl⟩
  | some asked =>
    obtain ⟨frame, answer⟩ := asked
    obtain ⟨_, scratch, journal, upcall⟩ := sound.asked frame answer offered
    exact calm frame (v.found.readied scratch journal) answer v.left upcall

theorem taken (keen : app.NeverRetries) : v.isRetried = false := by
  unfold isRetried
  cases offered : v.offered with
  | none => rfl
  | some asked =>
    obtain ⟨frame, answer⟩ := asked
    obtain ⟨_, scratch, journal, upcall⟩ := sound.asked frame answer offered
    cases answer with
    | retry => exact absurd upcall (keen _ _ _)
    | accepted | dropped => rfl

theorem handsBack (calm : app.Calm place) (taken : v.isRetried = false) (fits : v.span ≤ g.rx) :
    v.found.mac.receiver.ring.HandsBack v.after.mac.receiver.ring v.first v.span := by
  obtain ⟨ring, _⟩ := sound.calm calm
  have given : v.after.mac.receiver.ring = v.found.mac.receiver.ring.rearm v.first v.span := by
    rw [Visit.after_of_taken taken, Board.givenBack, ring]
  rw [given]
  refine ⟨Ring.base_rearm _ _ _, fun k inside => ?_, fun k inside => ?_, fun k outside near => ?_⟩
  · exact sound.released _ (List.mem_map_of_mem (List.mem_range.mpr inside))
  · rw [Ring.isOwned, Ring.descriptor, Ring.slot_rearm_of_lt _ _ fits inside]
    exact Receiver.isOwned_armed _
  · rw [Ring.isOwned, Ring.descriptor, Ring.slot_rearm_of_ge _ _ outside near]
    rfl

end Visit.IsSound

namespace Board

section Tours

variable {κ : Type} {place : ε → κ} {app : Application g ε} {before after : Board g ε} {budget : Nat} {first : Fin g.rx}
  {visits : List (Visit g ε)} (tour : Tour app budget first before visits after)

include tour

theorem Tour.handsBack (keen : app.NeverRetries) (calm : app.Calm place) (near : budget ≤ g.rx) :
    before.mac.receiver.ring.HandsBack after.mac.receiver.ring first (visits.map Visit.span).sum := by
  induction tour with
  | rests _ => exact .refl _ _
  | leaves sound retried _ =>
    rw [sound.taken keen] at retried
    cases retried
  | goesOn sound taken within tour ih =>
    obtain ⟨fits, _⟩ := tour.slots_eq
    rw [List.map_cons, List.sum_cons]
    exact (sound.handsBack calm taken (by omega)).append (ih (by omega)) (by omega)

/-- A walk with no frame left to try again ends where there is nothing more to deal with. -/
theorem Tour.rests_after (keen : app.NeverRetries) : after.mac.receiver.ring.RestsAt
    (Ring.advance first (visits.map Visit.span).sum) (budget - (visits.map Visit.span).sum) := by
  refine tour.rested.resolve_left fun ⟨v, last, retried⟩ => ?_
  rw [(tour.sound v (List.mem_of_getLast? last)).taken keen] at retried
  cases retried

theorem Tour.calm (calm : app.Calm place) : place after.world = place before.world := by
  induction tour with
  | rests _ => rfl
  | leaves sound retried _ => rw [Visit.after_of_retried retried, (sound.calm calm).2]
  | goesOn sound taken _ _ ih =>
    rw [ih, Visit.after_of_taken taken]
    exact (sound.calm calm).2

end Tours

theorem walk_of_rests (app : Application g ε) {budget : Nat} {first : Fin g.rx} {board : Board g ε}
    (rests : board.mac.receiver.ring.RestsAt first budget) : walk app budget first board = some ({}, board) := by
  cases budget with
  | zero => exact walk_zero app first board
  | succ room =>
    rw [walk_succ]
    split
    · rfl
    · rename_i unowned
      rcases rests with none | owned | incomplete
      · cases none
      · exact absurd owned unowned
      · rw [Nat.add_sub_cancel] at incomplete
        simp only [incomplete]
        rfl

section Again

variable [Bus ε] {app : Application g ε} {address : ε → UInt32} {before last : Board g ε} {visits : List (Visit g ε)}

theorem oldestRx_of_told (told : ∀ world, (Register.currentRxDescriptor.read world).1 = address world)
    (board : Board g ε) : board.oldestRx = board.mac.receiver.ring.oldest
      ((board.mac.receiver.ring.indexOf? (address board.world)).getD g.firstRx) := by
  rw [oldestRx, told]

variable (told : ∀ world, (Register.currentRxDescriptor.read world).1 = address world) (still : Bus.Untouched address)
  (keen : app.NeverRetries) (calm : app.Calm address)
  (tour : Tour app g.rx before.oldestRx before.located.2 visits last)

include keen calm tour

theorem Tour.handsBack_located : before.mac.receiver.ring.HandsBack last.mac.receiver.ring before.oldestRx
    (visits.map Visit.span).sum := by
  have hands := tour.handsBack keen calm (Nat.le_refl g.rx)
  rwa [located_mac] at hands

include told still

/-- The walk after this one starts from the same position, in the ring that this one leaves. -/
theorem Tour.oldest_after (rearmed : Bool) : (last.walkEnded rearmed).oldestRx = last.mac.receiver.ring.oldest
    ((before.mac.receiver.ring.indexOf? (address before.world)).getD g.firstRx) := by
  have hands := tour.handsBack_located keen calm
  have world : address (last.walkEnded rearmed).world = address before.world := by
    rw [walkEnded_world still, tour.calm calm, located_world]
    exact still.load .currentRxDescriptor before.world
  rw [oldestRx_of_told told, world]
  change last.mac.receiver.ring.oldest ((last.mac.receiver.ring.indexOf? _).getD _) = _
  rw [Ring.indexOf?_congr hands.base]

/-- A run that was cut short is in front of the next walk, and does not show its end to that one either. -/
theorem Tour.resumes (rearmed : Bool)
    (cut : last.mac.receiver.ring.CutShort before.oldestRx (visits.map Visit.span).sum) :
    (last.walkEnded rearmed).oldestRx = Ring.advance before.oldestRx (visits.map Visit.span).sum ∧
      last.mac.receiver.ring.scan (last.walkEnded rearmed).oldestRx (g.rx - 1) = .incomplete := by
  have hands := tour.handsBack_located keen calm
  obtain ⟨back, place, old⟩ := before.mac.receiver.ring.exists_isOldest
    ((before.mac.receiver.ring.indexOf? (address before.world)).getD g.firstRx)
  rw [← oldestRx_of_told told] at place old
  have full := hands.full_of_cutShort cut old
  have left := cut.left
  rw [tour.oldest_after told still keen calm, place, hands.oldest_of_le old left (by omega)]
  exact ⟨rfl, hands.scan_incomplete left cut.incomplete⟩

/-- Where a walk leaves nothing to be tried again, the next one has nothing to do. -/
theorem Tour.rests_again (rearmed : Bool) :
    last.mac.receiver.ring.RestsAt (last.walkEnded rearmed).oldestRx g.rx := by
  have hands := tour.handsBack_located keen calm
  obtain ⟨fits, _⟩ := tour.slots_eq
  obtain ⟨back, place, old⟩ := before.mac.receiver.ring.exists_isOldest
    ((before.mac.receiver.ring.indexOf? (address before.world)).getD g.firstRx)
  rw [← oldestRx_of_told told] at place old
  rw [tour.oldest_after told still keen calm, place]
  rcases Nat.lt_or_ge back (visits.map Visit.span).sum with beyond | within
  · exact Or.inr (Or.inl (hands.oldest_of_lt old fits beyond))
  · rcases Nat.lt_or_eq_of_le fits with left | whole
    · rw [hands.oldest_of_le old left within]
      rcases tour.rests_after keen with none | owned | incomplete
      · omega
      · exact Or.inr (Or.inl owned)
      · exact Or.inr (Or.inr (hands.scan_incomplete left incomplete))
    · exact Or.inr (Or.inl (hands.all_owned whole _))

end Again

theorem processReceived_of_rests [Bus ε] (app : Application g ε) {board : Board g ε}
    (up : board.mac.lifecycle ≠ .uninitialized) (idle : board.mac.receiver.walking = false)
    (rests : board.mac.receiver.ring.RestsAt board.oldestRx g.rx) :
    processReceived app board = some (0, board.located.2.walkEnded false) := by
  rw [processReceived_outermost app up idle, located_oldest, walk_of_rests]
  · rfl
  · rwa [located_mac]

end Board

/-- As long as nothing comes in, a second call over the receive ring finds nothing to do: it asks nobody, changes
nothing of the driver and only reads where the hardware stands. A run whose end the first call could not see, having
been all round the ring, is in front of the second one and as incomplete as before. -/
theorem processReceived_idempotent [Bus ε] {app : Application g ε} {address : ε → UInt32}
    (told : ∀ world, (Register.currentRxDescriptor.read world).1 = address world) (still : Bus.Untouched address)
    (keen : app.NeverRetries) (calm : app.Calm address) {before after : Board g ε} {count : Nat}
    (run : Board.processReceived app before = some (count, after)) :
    ∃ final total, (∀ other, Board.processReceived other after = some (0, final)) ∧ final.mac = after.mac ∧
      (final.world = after.world ∨ final.world = (Register.currentRxDescriptor.read after.world).2) ∧
      before.mac.receiver.ring.HandsBack after.mac.receiver.ring before.oldestRx total ∧
      (after.mac.receiver.ring.CutShort before.oldestRx total →
        after.oldestRx = Ring.advance before.oldestRx total ∧
        after.mac.receiver.ring.scan after.oldestRx (g.rx - 1) = .incomplete) := by
  by_cases fresh : before.mac.lifecycle = .uninitialized
  · rw [Board.processReceived_uninitialized app fresh] at run
    obtain ⟨_, rfl⟩ := Prod.mk.inj (Option.some.inj run)
    exact ⟨_, 0, fun other => Board.processReceived_uninitialized other fresh, rfl, Or.inl rfl, .refl _ _,
      fun cut => absurd cut.some (Nat.lt_irrefl 0)⟩
  · cases walking : before.mac.receiver.walking with
    | true =>
      rw [Board.processReceived_nested app fresh walking] at run
      obtain ⟨_, rfl⟩ := Prod.mk.inj (Option.some.inj run)
      exact ⟨_, 0, fun other => Board.processReceived_nested other fresh walking, rfl, Or.inl rfl, .refl _ _,
        fun cut => absurd cut.some (Nat.lt_irrefl 0)⟩
    | false =>
      obtain ⟨visits, last, tour, _, rfl⟩ := Board.processReceived_tour fresh walking run
      generalize (visits.any fun v => !v.isRetried) = rearmed
      have hands := tour.handsBack_located keen calm
      have rests := tour.rests_again told still keen calm rearmed
      have again := tour.resumes told still keen calm rearmed
      by_cases ended : last.mac.lifecycle = .uninitialized
      · exact ⟨_, _, fun other => Board.processReceived_uninitialized other ended, rfl, Or.inl rfl, hands, again⟩
      · refine ⟨_, _, fun other => Board.processReceived_of_rests other ended rfl rests, ?_,
          Or.inr (Board.located_world _), hands, again⟩
        rw [Board.walkEnded, Board.located_mac]
        rfl

/-- The smallest receive ring with three slots. -/
def Geometry.threeRx : Geometry :=
  { Geometry.smallest with rx := 3, rx_pos := Nat.succ_pos 2, rx_le := by decide }

/-- A driver whose ring holds what no frame begins with, and behind it a frame that has come to the end of the ring. -/
def Board.begun : Board .threeRx RestingPeripheral where
  mac := { Mac.blank .threeRx ⟨0, 0x10000, 0x20000⟩ with
    lifecycle := .running
    receiver := { Receiver.blank .threeRx ⟨0, 0x10000, 0x20000⟩ with
      ring := ⟨0, #v[{}, { descriptor := { word3 := Descriptor.firstBit } }, {}]⟩ } }
  world := {}

/-- The same driver with its first slot given back. -/
def Board.begunWalked : Board .threeRx RestingPeripheral :=
  { Board.begun.located.2 with journal := #[.strayRearmed 1 0] }.givenBack Geometry.threeRx.firstRx 1

theorem Board.begun_walk : Board.walk .accepting 3 Geometry.threeRx.firstRx Board.begun.located.2 =
    some (⟨0, true⟩, Board.begunWalked) := by
  have second : Board.walk .accepting 2 (Ring.advance Geometry.threeRx.firstRx 1) Board.begunWalked =
      some ({}, Board.begunWalked) := Board.walk_of_rests _ (Or.inr (Or.inr rfl))
  rw [Board.walk_succ]
  exact congrArg (Option.map fun rest : Board.WalkTally × Board .threeRx RestingPeripheral =>
    (Board.WalkTally.mk (rest.1.delivered + 0) true, rest.2)) second

/-- The frame is left over by the first call, which may look no further, and by the second call again. -/
theorem processReceived_idempotent_begun :
    ∃ after final, Board.processReceived .accepting Board.begun = some (0, after) ∧
      (∀ other, Board.processReceived other after = some (0, final)) ∧ final.mac = after.mac ∧
      after.mac.receiver.ring.CutShort Board.begun.oldestRx 1 ∧
      after.oldestRx = Ring.advance Board.begun.oldestRx 1 ∧
      after.mac.receiver.ring.scan after.oldestRx 2 = .incomplete := by
  have run : Board.processReceived .accepting Board.begun = some (0, Board.begunWalked.walkEnded true) := by
    rw [Board.processReceived_outermost _ (by decide) rfl]
    exact congrArg (Option.map fun walked : Board.WalkTally × Board .threeRx RestingPeripheral =>
      (walked.1.delivered, walked.2.walkEnded walked.1.rearmed)) Board.begun_walk
  have calm : (Application.accepting : Application .threeRx RestingPeripheral).Calm fun _ => (0 : UInt32) := by
    intro frame called answer back upcall
    cases upcall
    exact ⟨rfl, rfl⟩
  obtain ⟨final, total, again, mac, _, hands, resumes⟩ := processReceived_idempotent (fun _ => rfl)
    ⟨fun _ _ => rfl, fun _ _ _ => rfl, fun _ _ => rfl⟩ Application.accepting_neverRetries calm run
  have one : total = 1 := by
    rcases Nat.lt_trichotomy total 1 with none | one | more
    · exact absurd (hands.kept 0 (Nat.le_of_lt_succ none) (by decide)) (by decide)
    · exact one
    · exact absurd (hands.owned 1 more) (by decide)
  subst one
  have cut : (Board.begunWalked.walkEnded true).mac.receiver.ring.CutShort Board.begun.oldestRx 1 :=
    ⟨by decide, by decide, by decide, by decide⟩
  obtain ⟨place, incomplete⟩ := resumes cut
  exact ⟨_, final, run, again, mac, cut, place, incomplete⟩

end EthernetMac
