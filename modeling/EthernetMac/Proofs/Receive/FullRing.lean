import EthernetMac.Proofs.Receive.Order

namespace EthernetMac

namespace Board

variable {g : Geometry} {ε : Type} {app : Application g ε}

theorem offer_keen (keen : app.NeverRetries) {first last : Fin g.rx} {segments : Nat} {context : StampContext g.rx}
    {board : Board g ε} {answered : Option Disposition × Board g ε}
    (run : offer app first last segments context board = some answered) : verdict answered.1 ≠ none := by
  rw [offer_apply] at run
  split at run
  · obtain rfl := Option.some.inj run
    simp [verdict]
  · obtain ⟨⟨answer, after⟩, upcall, rfl⟩ := Option.map_eq_some_iff.mp run
    cases answer with
    | retry => exact absurd upcall (keen _ _ _)
    | accepted => simp [verdict]
    | dropped => simp [verdict]

theorem consume_keen (keen : app.NeverRetries) {first : Fin g.rx} {run : Run g.rx} {board after : Board g ε}
    (consumed : consume app first run board = some (none, after)) : run = .incomplete ∧ after = board := by
  cases run with
  | incomplete => exact ⟨rfl, (Prod.mk.inj (Option.some.inj consumed)).2.symm⟩
  | stray following => cases consumed
  | overflow following => cases consumed
  | frame last following context =>
    obtain ⟨journal, offers⟩ := consume_offers app first last following context board
    rw [offers] at consumed
    obtain ⟨answered, offer, result⟩ := Option.map_eq_some_iff.mp consumed
    exact absurd (Prod.mk.inj result).1 (offer_keen keen offer)

/-- A walk gives slots back when it finds anything at all at its first slot. -/
theorem walk_rearmed_iff (keen : app.NeverRetries) {room : Nat} {first : Fin g.rx} {board after : Board g ε}
    {tally : WalkTally} (released : board.mac.receiver.ring.isOwned first = false)
    (run : walk app (room + 1) first board = some (tally, after)) :
    tally.rearmed = true ↔ board.mac.receiver.ring.scan first room ≠ .incomplete := by
  rw [walk_succ, released, if_neg Bool.false_ne_true] at run
  obtain ⟨⟨verdict, middle⟩, consumed, run⟩ := Option.bind_eq_some_iff.mp run
  cases verdict with
  | none =>
    obtain ⟨rfl, _⟩ := Prod.mk.inj (Option.some.inj run)
    exact ⟨fun rearmed => (nomatch rearmed), fun found => absurd (consume_keen keen consumed).1 found⟩
  | some delivered =>
    obtain ⟨⟨rest, final⟩, walked, result⟩ := Option.map_eq_some_iff.mp run
    obtain ⟨rfl, _⟩ := Prod.mk.inj result
    refine ⟨fun _ incomplete => ?_, fun _ => rfl⟩
    rw [incomplete] at consumed
    cases consumed

/-- A walk ends with a slot that it has given back to the hardware, or it has done nothing: no upcall comes between the
last slots that it gives back and its end. -/
theorem walk_keen (keen : app.NeverRetries) {budget : Nat} (near : budget ≤ g.rx) {first : Fin g.rx}
    {board after : Board g ε} {tally : WalkTally} (run : walk app budget first board = some (tally, after)) :
    (tally.rearmed = true ∧ ∃ i, after.mac.receiver.ring.isOwned i = true) ∨
      tally = {} ∧ after = board := by
  induction budget using Nat.strongRecOn generalizing first board tally with
  | ind budget ih =>
    cases budget with
    | zero =>
      rw [walk_zero] at run
      obtain ⟨rfl, rfl⟩ := Prod.mk.inj (Option.some.inj run)
      exact Or.inr ⟨rfl, rfl⟩
    | succ room =>
      rw [walk_succ] at run
      by_cases owned : board.mac.receiver.ring.isOwned first = true
      · rw [if_pos owned] at run
        obtain ⟨rfl, rfl⟩ := Prod.mk.inj (Option.some.inj run)
        exact Or.inr ⟨rfl, rfl⟩
      · rw [if_neg owned] at run
        have within := board.mac.receiver.ring.beyond_scan_le first room
        obtain ⟨⟨verdict, middle⟩, consumed, run⟩ := Option.bind_eq_some_iff.mp run
        cases verdict with
        | none =>
          obtain ⟨_, rfl⟩ := consume_keen keen consumed
          obtain ⟨rfl, rfl⟩ := Prod.mk.inj (Option.some.inj run)
          exact Or.inr ⟨rfl, rfl⟩
        | some delivered =>
          obtain ⟨⟨rest, final⟩, walked, result⟩ := Option.map_eq_some_iff.mp run
          obtain ⟨rfl, rfl⟩ := Prod.mk.inj result
          refine Or.inl ⟨rfl, ?_⟩
          rcases ih _ (by omega) (by omega) walked with ⟨_, given⟩ | ⟨_, same⟩
          · exact given
          · refine ⟨first, ?_⟩
            have armed := Ring.slot_rearm_of_lt middle.mac.receiver.ring first
              (by omega : (board.mac.receiver.ring.scan first room).beyond + 1 ≤ g.rx) (Nat.succ_pos _)
            rw [Ring.advance_zero] at armed
            rw [same]
            change Descriptor.isOwned (Slot.descriptor (Ring.slot (Ring.rearm _ _ _) _)) = true
            rw [armed]
            exact Receiver.isOwned_armed _

end Board

variable {g : Geometry}

theorem Reception.parts_split {f : Reception g} {before rest : List (Part g)} {part : Part g}
    (split : f.parts = before ++ part :: rest) : part = ⟨f, before.length⟩ ∧ before.length < f.slots := by
  have inside : before.length < f.parts.length := by
    rw [split, List.length_append, List.length_cons]
    omega
  have place : f.parts[before.length]? = some part := by
    rw [split, List.getElem?_append_right (Nat.le_refl _), Nat.sub_self, List.getElem?_cons_zero]
  rw [List.getElem?_eq_getElem inside, Reception.getElem_parts] at place
  rw [Reception.length_parts] at inside
  exact ⟨(Option.some.inj place).symm, inside⟩

namespace ReceiveDma

variable {dma : ReceiveDma g}

theorem unfinished_split {before later : List (Part g)} {part : Part g}
    (split : dma.unfinished = before ++ part :: later) :
    ∃ f, dma.underway = some ⟨f, before.length + later.length + 1⟩ ∧ part = ⟨f, before.length⟩ ∧
      before.length < f.slots ∧ before ++ part :: later = f.parts.take (before.length + later.length + 1) := by
  unfold unfinished at split
  split at split
  · rename_i due underway
    have length := congrArg List.length split
    obtain ⟨_, begun⟩ := dma.begun due underway
    rw [List.length_take, Reception.length_parts, List.length_append, List.length_cons, Nat.min_eq_left (by omega)]
      at length
    have whole : due.reception.parts = before ++ part :: (later ++ due.reception.parts.drop due.index) := by
      rw [← List.cons_append, ← List.append_assoc, ← split, List.take_append_drop]
    obtain ⟨place, inside⟩ := Reception.parts_split whole
    have reached : before.length + later.length + 1 = due.index := by omega
    refine ⟨due.reception, ?_, place, inside, ?_⟩
    · rw [reached, underway]
    · rw [reached, split]
  · simp at split

/-- Where a frame begins in what the DMA has written, there the whole frame follows, or all that there is of it. -/
theorem from_start (finished : List (Reception g)) {f : Reception g} {old later unfinished : List (Part g)}
    (split : finished.flatMap Reception.parts ++ unfinished = old ++ ⟨f, 0⟩ :: later) :
    (∃ rest, (⟨f, 0⟩ : Part g) :: later = f.parts ++ rest) ∨
      ∃ before, unfinished = before ++ (⟨f, 0⟩ : Part g) :: later := by
  induction finished generalizing old with
  | nil => exact Or.inr ⟨old, split⟩
  | cons head tail ih =>
    rw [List.flatMap_cons, List.append_assoc] at split
    rcases List.append_eq_append_iff.mp split with ⟨between, _, behind⟩ | ⟨between, within, behind⟩
    · exact ih behind
    · cases between with
      | nil => exact @ih [] behind.symm
      | cons part between =>
        rw [List.cons_append] at behind
        obtain ⟨rfl, rfl⟩ := List.cons.inj behind
        obtain ⟨place, _⟩ := Reception.parts_split within
        obtain ⟨rfl, first⟩ := Part.mk.inj place
        rw [List.length_eq_zero_iff.mp first.symm, List.nil_append] at within
        exact Or.inl ⟨_, by rw [within, ← List.cons_append]⟩

/-- A frame has taken as many slots as the ring has, its stamp is still to come, and so the DMA has no slot for it. -/
def OwesStamp (dma : ReceiveDma g) : Prop :=
  ∃ f, dma.underway = some ⟨f, g.rx⟩ ∧ f.segments = g.rx

end ReceiveDma

namespace Tracks

variable {σ : Type} {board : Board g (ReceiveBench g σ)} {start : Fin g.rx} {parts : List (Part g)}

/-- The oldest part in the ring is a frame's first part, or one of a frame whose start is gone from the ring. -/
theorem first_part (tracks : Tracks board start parts) (some : 0 < parts.length) :
    ∃ f index later, parts = ⟨f, index⟩ :: later ∧ index < f.slots ∧
      (index = 0 → (∃ rest, parts = f.parts ++ rest) ∨
        board.world.dma.underway = .some ⟨f, parts.length⟩ ∧ parts = f.parts.take parts.length) := by
  obtain ⟨old, split⟩ := tracks.recent
  cases parts with
  | nil => exact absurd some (Nat.lt_irrefl 0)
  | cons part later =>
    obtain ⟨f, index⟩ := part
    have bound : index < f.slots := by
      have among : (⟨f, index⟩ : Part g) ∈ board.world.dma.history := by
        rw [← split]
        exact List.mem_append_right _ (List.mem_cons_self ..)
      rcases List.mem_append.mp among with whole | coming
      · obtain ⟨h, _, inside⟩ := List.mem_flatMap.mp whole
        obtain ⟨before, rest, parts⟩ := List.append_of_mem inside
        obtain ⟨place, short⟩ := Reception.parts_split parts
        obtain ⟨rfl, rfl⟩ := Part.mk.inj place
        exact short
      · obtain ⟨before, rest, parts⟩ := List.append_of_mem coming
        obtain ⟨h, _, place, short, _⟩ := ReceiveDma.unfinished_split parts
        obtain ⟨rfl, rfl⟩ := Part.mk.inj place
        exact short
    refine ⟨f, index, later, rfl, bound, ?_⟩
    rintro rfl
    rcases ReceiveDma.from_start _ split.symm with whole | ⟨before, coming⟩
    · exact Or.inl whole
    · obtain ⟨h, underway, place, _, shown⟩ := ReceiveDma.unfinished_split coming
      obtain ⟨rfl, first⟩ := Part.mk.inj place
      rw [← first, Nat.zero_add] at underway shown
      rw [List.length_eq_zero_iff.mp first.symm, List.nil_append] at shown
      exact Or.inr ⟨underway, shown⟩

theorem holds_owing (tracks : Tracks board start parts) (full : parts.length = g.rx)
    (owes : board.world.dma.OwesStamp) :
    ∃ f : Reception g, parts = f.parts.take g.rx ∧ f.segments = g.rx ∧ g.rx < f.slots := by
  obtain ⟨f, underway, segments⟩ := owes
  obtain ⟨_, begun⟩ := board.world.dma.begun _ underway
  have coming : board.world.dma.unfinished = f.parts.take g.rx := by rw [ReceiveDma.unfinished, underway]
  have taken : (f.parts.take g.rx).length = g.rx := by
    rw [List.length_take, Reception.length_parts]
    exact Nat.min_eq_left (Nat.le_of_lt begun)
  have behind : f.parts.take g.rx <:+ board.world.dma.history := by
    rw [ReceiveDma.history, coming]
    exact List.suffix_append _ _
  have inside := List.suffix_of_suffix_length_le tracks.recent behind (by omega)
  exact ⟨f, inside.eq_of_length (by omega), segments, begun⟩

/-- A scan of a full ring finds something to deal with, unless the ring waits for a stamp that it has no slot for. -/
theorem scan_full (tracks : Tracks board start parts) (full : parts.length = g.rx) :
    board.mac.receiver.ring.scan start (g.rx - 1) = .incomplete ↔ board.world.dma.OwesStamp := by
  have positive := g.rx_pos
  have held := tracks.holds
  constructor
  · intro incomplete
    obtain ⟨f, index, later, shape, bound, begins⟩ := tracks.first_part (by omega)
    have short := f.slots_le_segments_succ
    by_cases begin : index = 0
    · rcases begins begin with ⟨rest, whole⟩ | ⟨underway, taken⟩
      · -- a whole frame with its stamp lies in front
        rw [whole] at held
        have fits := held.fits
        rw [List.length_append, Reception.length_parts] at fits
        rw [held.scan_frame, if_pos (by omega)] at incomplete
        cases incomplete
      · rw [full] at underway taken
        rw [taken] at held
        obtain ⟨_, begun⟩ := board.world.dma.begun _ underway
        dsimp only at begun
        rcases Nat.lt_or_ge g.rx f.segments with endless | ended
        · rw [held.scan_endless endless] at incomplete
          cases incomplete
        · exact ⟨f, underway, by omega⟩
    · rw [shape] at held
      rw [held.scan_stray begin bound] at incomplete
      cases incomplete
  · intro owes
    obtain ⟨f, taken, segments, longer⟩ := tracks.holds_owing full owes
    rw [taken] at held
    exact held.scan_owing segments longer

theorem full_of_released (tracks : Tracks board start parts)
    (released : ∀ i, board.mac.receiver.ring.isOwned i = false) : parts.length = g.rx := by
  have fits := tracks.holds.fits
  rcases Nat.lt_or_ge parts.length g.rx with short | whole
  · have owned := tracks.holds.isArc.owned parts.length (Nat.le_refl _) short
    rw [released] at owned
    cases owned
  · omega

end Tracks

theorem Tracks.given_back_iff {σ : Type} [Bus σ] {app : Application g (ReceiveBench g σ)}
    {board : Board g (ReceiveBench g σ)} {start : Fin g.rx} {parts : List (Part g)} (tracks : Tracks board start parts)
    (idle : board.mac.receiver.walking = false) (answers : app.Answers) (keen : app.NeverRetries)
    (full : ∀ i, board.mac.receiver.ring.isOwned i = false) :
    ∃ count after, Board.processReceived app board = some (count, after) ∧
      ((∃ i, after.mac.receiver.ring.isOwned i = true) ↔ ¬ board.world.dma.OwesStamp) := by
  have positive := g.rx_pos
  have whole := tracks.full_of_released full
  obtain ⟨⟨tally, last⟩, walk⟩ := Board.walk_returns answers g.rx start
    { board with mac := { board.mac with receiver := { board.mac.receiver with walking := true } } }
  have run := Board.processReceived_bench app tracks.up idle tracks.base
  rw [tracks.position, tracks.holds.isArc.oldest_eq, walk] at run
  refine ⟨_, _, run, ?_⟩
  dsimp only
  obtain ⟨room, size⟩ : ∃ room, g.rx = room + 1 := ⟨g.rx - 1, by omega⟩
  have ended := Board.walk_keen keen (Nat.le_refl _) walk
  have scanned := tracks.scan_full whole
  rw [show g.rx - 1 = room by omega] at scanned
  rw [size] at walk
  have given := Board.walk_rearmed_iff keen (by exact full start) walk
  dsimp only at given
  rw [← scanned, ← ne_eq, ← given]
  rcases ended with ⟨rearmed, owned⟩ | ⟨nothing, same⟩
  · exact ⟨fun _ => rearmed, fun _ => owned⟩
  · subst nothing same
    refine ⟨fun ⟨i, owned⟩ => ?_, fun rearmed => (nomatch rearmed)⟩
    rw [show _ = false from full i] at owned
    cases owned

/-- When the hardware has no slot left, a call whose application takes or drops what it is offered gives some back,
unless a frame has filled the ring with its segments and only its stamp is missing. -/
theorem full_ring_given_back_iff {σ : Type} [Bus σ] {app : Application g (ReceiveBench g σ)}
    {board : Board g (ReceiveBench g σ)} (answers : app.Answers) (keen : app.NeverRetries)
    (reach : ReceiveReach (fun _ => True) board) (full : ∀ i, board.mac.receiver.ring.isOwned i = false) :
    ∃ count after, Board.processReceived app board = some (count, after) ∧
      ((∃ i, after.mac.receiver.ring.isOwned i = true) ↔ ¬ board.world.dma.OwesStamp) := by
  obtain ⟨⟨start, parts, tracks⟩, idle⟩ := reach.tracks
  exact tracks.given_back_iff idle answers keen full

/-- A driver whose receive slots both hold a frame. The stamp of the second one is still to come. -/
def Board.bothFilled : Board .pair (ReceiveBench .pair RestingPeripheral) :=
  Board.halfFilled.withBlock 2 true

/-- The first frame makes room for the stamp of the second one. -/
theorem full_ring_given_back_both : ∃ after : Board .pair (ReceiveBench .pair RestingPeripheral),
    ReceiveReach (fun _ => True) Board.bothFilled ∧
    (∀ i, Board.bothFilled.mac.receiver.ring.isOwned i = false) ∧ ¬ Board.bothFilled.world.dma.OwesStamp ∧
      Board.processReceived Application.accepting Board.bothFilled = some (1, after) ∧
      after.mac.receiver.ring.isOwned (Ring.next Geometry.pair.firstRx) = false ∧
      ∃ i, after.mac.receiver.ring.isOwned i = true := by
  have reach : ReceiveReach (fun _ => True) Board.bothFilled :=
    (Board.halfFilled_reach _ trivial).meanwhile (.withBlock trivial rfl rfl)
  have full : ∀ i, Board.bothFilled.mac.receiver.ring.isOwned i = false := by decide +kernel
  have room : ¬ Board.bothFilled.world.dma.OwesStamp := by
    rintro ⟨f, underway, _⟩
    have index : some 1 = some 2 := congrArg (Option.map Part.index) underway
    cases index
  obtain ⟨⟨count, after⟩, run, rfl, left⟩ : ∃ answer ∈ Board.processReceived Application.accepting Board.bothFilled,
      answer.1 = 1 ∧ answer.2.mac.receiver.ring.isOwned (Ring.next Geometry.pair.firstRx) = false := by
    decide +kernel
  obtain ⟨_, _, same, given⟩ :=
    full_ring_given_back_iff Application.accepting_answers Application.accepting_neverRetries reach full
  rw [run] at same
  obtain ⟨_, rfl⟩ := Prod.mk.inj (Option.some.inj same)
  exact ⟨after, reach, full, room, run, left, given.mpr room⟩

/-- A driver whose only receive slot holds a frame, the stamp of which is still to come. -/
def Board.stalled : Board .smallest (ReceiveBench .smallest RestingPeripheral) :=
  (Board.init {} (Board.unused .smallest)).2.withBlock 1 true

/-- A stamped frame of one block stops the smallest ring. -/
theorem full_ring_not_given_back :
    ReceiveReach (fun _ => True) Board.stalled ∧
    (∀ i, Board.stalled.mac.receiver.ring.isOwned i = false) ∧
      ¬ ∃ count after, Board.processReceived Application.accepting Board.stalled = some (count, after) ∧
        ∃ i, after.mac.receiver.ring.isOwned i = true := by
  have reach : ReceiveReach (fun _ => True) Board.stalled :=
    (ReceiveReach.rested _ rfl).meanwhile (.withBlock trivial rfl rfl)
  have full : ∀ i, Board.stalled.mac.receiver.ring.isOwned i = false := by decide +kernel
  refine ⟨reach, full, ?_⟩
  rintro ⟨count, after, run, owned⟩
  obtain ⟨⟨start, parts, tracks⟩, idle⟩ := reach.tracks
  obtain ⟨_, _, same, stalled⟩ :=
    tracks.given_back_iff idle Application.accepting_answers Application.accepting_neverRetries full
  rw [run] at same
  obtain ⟨_, rfl⟩ := Prod.mk.inj (Option.some.inj same)
  exact stalled.mp owned ⟨.oneBlock 1 true, rfl, rfl⟩

end EthernetMac
