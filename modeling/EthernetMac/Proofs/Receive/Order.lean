import EthernetMac.Proofs.Receive.Delivery

namespace EthernetMac

variable {g : Geometry} {σ : Type}

/-- A receive side in step between two calls of the driver: what the application has taken are the frames that have
been dealt with, as far as they can be offered. -/
structure Settled (board : Board g (ReceiveBench g σ)) (start : Fin g.rx) (done waiting : List (Reception g)) :
    Prop where
  step : InStep board start done waiting
  taken : Offer.consumed board.world.offers = Reception.deliverables done
  ordered : Offer.InOrder board.world.offers
  idle : board.mac.receiver.walking = false

namespace Settled

variable {board after : Board g (ReceiveBench g σ)} {start : Fin g.rx} {done waiting : List (Reception g)}

theorem init [Bus σ] {config : Config} {placement : Placement} (fresh : board.mac = Mac.blank g placement)
    (base : board.world.ringBase = placement.rxRing) (finished : board.world.dma.finished = [])
    (underway : board.world.dma.underway = none) (offers : board.world.offers = [])
    (run : Board.init config board = (.ok (), after)) : Settled after after.world.dma.position [] [] := by
  obtain ⟨tracks, core, idle⟩ := Tracks.init fresh base run
  have dma : after.world.dma = board.world.dma := congrArg (·.2.1) core
  have none : after.world.offers = [] := (congrArg (·.2.2) core).trans offers
  have unfinished : after.world.dma.unfinished = [] := by rw [dma, ReceiveDma.unfinished, underway]
  refine ⟨⟨?_, ?_, ?_, ?_⟩, ?_, ?_, idle⟩
  · rw [dma, finished]
    rfl
  · rw [unfinished]
    exact tracks
  · simp
  · rw [dma, underway]
    simp
  · rw [none]
    rfl
  · rw [none]
    intro before offer later split
    simp at split

theorem meanwhile (settled : Settled board start done waiting) (event : Meanwhile Reception.FitsRing board after) :
    ∃ arrived, Settled after start done (waiting ++ arrived) := by
  obtain ⟨arrived, step, offers⟩ := settled.step.meanwhile event
  refine ⟨arrived, step, by rw [offers, settled.taken], by rw [offers]; exact settled.ordered, ?_⟩
  cases event with
  | writeBack => exact settled.idle
  | aside receiver _ _ =>
    rw [receiver]
    exact settled.idle

theorem process [Bus σ] {app : Application g (ReceiveBench g σ)} (spares : app.SparesReceiver Reception.FitsRing)
    (settled : Settled board start done waiting) {count : Nat}
    (run : Board.processReceived app.recorded board = some (count, after)) :
    ∃ final dealt left fresh, InStep.Walked app board after done waiting g.rx final dealt left fresh ∧
      count = (Offer.consumed fresh).length ∧ after.mac.receiver.walking = false := by
  have step := settled.step
  obtain ⟨tally, last, walk, rfl, mac, kept⟩ := step.tracks.walked settled.idle run
  have core := kept ReceiveBench.core_untouched
  have marked : InStep { board with mac := { board.mac with receiver := { board.mac.receiver with
      walking := true } } } start done waiting := step.congr rfl rfl rfl step.tracks.up
  obtain ⟨final, dealt, left, fresh, walked, total⟩ := marked.walk spares settled.taken settled.ordered walk
  have offers : after.world.offers = last.world.offers := congrArg (·.2.2) core
  refine ⟨final, dealt, left, fresh, ⟨?_, ?_, ?_, ?_, walked.progress⟩, total, by rw [mac]⟩
  · refine walked.step.congr core ?_ ?_ ?_
    · rw [mac]
    · rw [mac]
    · rw [mac]
      exact walked.step.tracks.up
  · exact offers.trans walked.offers
  · rw [offers]
    exact walked.ordered
  · rw [offers]
    exact walked.taken

end Settled

theorem ReceiveReach.settled [Bus σ] {board : Board g (ReceiveBench g σ)}
    (reach : ReceiveReach Reception.FitsRing board) :
    ∃ start done waiting, Settled board start done waiting := by
  induction reach with
  | start fresh base finished underway offers run => exact ⟨_, [], [], .init fresh base finished underway offers run⟩
  | meanwhile _ event ih =>
    obtain ⟨start, done, waiting, settled⟩ := ih
    obtain ⟨arrived, settled⟩ := settled.meanwhile event
    exact ⟨start, done, waiting ++ arrived, settled⟩
  | process _ spares run ih =>
    obtain ⟨start, done, waiting, settled⟩ := ih
    obtain ⟨final, dealt, left, fresh, walked, _, idle⟩ := settled.process spares run
    exact ⟨final, done ++ dealt, left, walked.step, walked.taken, walked.ordered, idle⟩

theorem ReceiveReach.returns [Bus σ] {app : Application g (ReceiveBench g σ)} {board : Board g (ReceiveBench g σ)}
    (answers : app.Answers) (reach : ReceiveReach Reception.FitsRing board) :
    ∃ returned, Board.processReceived app.recorded board = some returned := by
  obtain ⟨start, done, waiting, settled⟩ := reach.settled
  obtain ⟨walked, run⟩ := Board.walk_returns answers.recorded g.rx
    (board.mac.receiver.ring.oldest board.world.dma.position)
    { board with mac := { board.mac with receiver := { board.mac.receiver with walking := true } } }
  rw [Board.processReceived_bench _ settled.step.tracks.up settled.idle settled.step.tracks.base, run]
  exact ⟨_, rfl⟩

/-- No frame is left behind: a call whose application never wants to see a frame again takes all that had come in when
it began, and answers how many it has taken. -/
theorem processReceived_takes_finished [Bus σ] {app : Application g (ReceiveBench g σ)}
    {board after : Board g (ReceiveBench g σ)} {count : Nat} (spares : app.SparesReceiver Reception.FitsRing)
    (keen : app.NeverRetries) (reach : ReceiveReach Reception.FitsRing board)
    (run : Board.processReceived app.recorded board = some (count, after)) :
    Reception.deliverables board.world.dma.finished <+: Offer.consumed after.world.offers ∧
      (Offer.consumed after.world.offers).length = (Offer.consumed board.world.offers).length + count := by
  obtain ⟨start, done, waiting, settled⟩ := reach.settled
  obtain ⟨final, dealt, left, fresh, walked, total, _⟩ := settled.process spares run
  have fits := settled.step.tracks.holds.fits
  rw [List.length_append, List.length_flatMap] at fits
  have slots : (waiting.map Reception.slots).sum ≤ g.rx := by
    simp only [Reception.length_parts] at fits
    exact Nat.le_of_add_right_le fits
  obtain ⟨more, rfl⟩ := walked.progress keen waiting List.prefix_rfl slots
  refine ⟨?_, ?_⟩
  · rw [walked.taken, settled.step.finished, ← List.append_assoc, Reception.deliverables_append (done ++ waiting)]
    exact List.prefix_append _ _
  · rw [walked.offers, Offer.consumed_append, List.length_append, total]

namespace Application

theorem accepting_answers {ε : Type} : (accepting : Application g ε).Answers :=
  fun _ board => ⟨(.accepted, board), rfl⟩

theorem accepting_neverRetries {ε : Type} : (accepting : Application g ε).NeverRetries := by
  intro frame before after same
  cases same

theorem accepting_sparesReceiver (admits : Reception g → Prop) :
    (accepting : Application g (ReceiveBench g σ)).SparesReceiver admits := by
  intro event before answer after same
  cases same
  exact .refl

end Application

/-- A driver that was never used, its receive DMA at slot 0, in a peripheral at rest. -/
def Board.unused (g : Geometry) : Board g (ReceiveBench g RestingPeripheral) where
  mac := .blank g ⟨0, 0x10000, 0x20000⟩
  world := { ringBase := 0, dma := .fresh g.firstRx, rest := {} }

theorem ReceiveReach.rested (admits : Reception g → Prop) (up : (Board.init {} (Board.unused g)).1 = .ok ()) :
    ReceiveReach admits (Board.init {} (Board.unused g)).2 :=
  .start rfl rfl rfl rfl rfl (Prod.ext up rfl)

/-- A frame that fits into one block of any driver, told by its first byte, with or without a stamp. -/
def Reception.oneBlock (mark : UInt8) (stamped : Bool) : Reception g where
  bytes := #[mark, 2, 3, 4]
  segments := 1
  stamp := if stamped then some ⟨5, 6⟩ else none
  faulty := false
  segments_pos := Nat.one_pos
  filled := by simp
  covered := by
    have positive := g.buffer_pos
    have aligned := g.buffer_aligned
    simp only [List.size_toArray, List.length_cons, List.length_nil]
    omega

theorem Reception.oneBlock_fitsRing {mark : UInt8} : (Reception.oneBlock mark false : Reception g).FitsRing := by
  refine ⟨?_, g.rx_pos⟩
  change 4 ≤ maxDescriptorLength
  decide

def Descriptor.oneBlock (stamped : Bool) : Descriptor where
  word1 := if stamped then stampFollowsBit else 0
  word3 := firstBit ||| lastBit ||| 4

theorem Reception.oneBlock_describes (mark : UInt8) (stamped : Bool) :
    (Part.mk (g := g) (Reception.oneBlock mark stamped) 0).Describes (Descriptor.oneBlock stamped) := by
  have length : (Descriptor.oneBlock stamped).packetLength = 4 % (maxDescriptorLength + 1) := by
    cases stamped <;> decide
  cases stamped <;>
    exact ⟨rfl, rfl, fun _ => rfl, fun _ => rfl, fun _ => length, fun _ => rfl, fun _ => rfl, nofun⟩

/-- The board after the DMA has written a frame of one block. -/
def Board.withBlock (mark : UInt8) (stamped : Bool) (board : Board g (ReceiveBench g σ)) : Board g (ReceiveBench g σ) :=
  let part : Part g := ⟨.oneBlock mark stamped, 0⟩
  { board with
    mac := { board.mac with
      receiver := board.mac.receiver.writeBack board.world.dma.position (.oneBlock stamped) part.bytes }
    world := { board.world with dma := board.world.dma.wrote part } }

theorem Meanwhile.withBlock {admits : Reception g → Prop} {board : Board g (ReceiveBench g σ)} {mark : UInt8}
    {stamped : Bool} (admitted : admits (.oneBlock mark stamped)) (between : board.world.dma.underway = none)
    (owned : board.mac.receiver.ring.isOwned board.world.dma.position = true) :
    Meanwhile admits board (board.withBlock mark stamped) := by
  have next : board.world.dma.MayWrite ⟨.oneBlock mark stamped, 0⟩ := by rw [ReceiveDma.MayWrite, between]
  exact .writeBack admitted next owned (Reception.oneBlock_describes mark stamped)

/-- What comes of a call whose application never wants to see a frame again: it takes all frames that had come in when
the call began, and the call answers how many it has taken. -/
structure Board.TakesFinished [Bus σ] (board : Board g (ReceiveBench g σ)) (app : Application g (ReceiveBench g σ)) :
    Prop where
  returns : app.Answers → ∃ returned, Board.processReceived app.recorded board = some returned
  taken : ∀ count after, Board.processReceived app.recorded board = some (count, after) →
    Reception.deliverables board.world.dma.finished <+: Offer.consumed after.world.offers
  counted : ∀ count after, Board.processReceived app.recorded board = some (count, after) →
    (Offer.consumed after.world.offers).length = (Offer.consumed board.world.offers).length + count

/-- At every moment the application has taken the first ones among the frames that can be offered, each once, in the
order of reception and as it came in; so it was whenever a frame was offered. None is left behind. -/
theorem received_in_order [Bus σ] {board : Board g (ReceiveBench g σ)} (reach : ReceiveReach Reception.FitsRing board) :
    Offer.consumed board.world.offers <+: Reception.deliverables board.world.dma.finished ∧
      Offer.InOrder board.world.offers ∧
      ∀ app : Application g (ReceiveBench g σ), app.SparesReceiver Reception.FitsRing → app.NeverRetries →
        board.TakesFinished app := by
  obtain ⟨start, done, waiting, settled⟩ := reach.settled
  have split : Reception.deliverables board.world.dma.finished =
      Offer.consumed board.world.offers ++ Reception.deliverables waiting := by
    rw [settled.step.finished, Reception.deliverables_append, settled.taken]
  refine ⟨?_, settled.ordered, fun app spares keen => ⟨fun answers => reach.returns answers, ?_, ?_⟩⟩
  · rw [split]
    exact List.prefix_append _ _
  · exact fun count after run => (processReceived_takes_finished spares keen reach run).1
  · exact fun count after run => (processReceived_takes_finished spares keen reach run).2

/-- An application that takes every frame, while the DMA writes the next one if it may. -/
def Application.lingering (mark : UInt8) : Application g (ReceiveBench g σ) where
  onEvent _ := do
    Call.quiet (modify fun board =>
      if board.world.dma.underway.isNone && board.mac.receiver.ring.isOwned board.world.dma.position then
        board.withBlock mark false
      else board)
    return .accepted
  onStamp _ _ := return

theorem Application.lingering_sparesReceiver {admits : Reception g → Prop} {mark : UInt8}
    (admitted : admits (.oneBlock mark false)) :
    (lingering mark : Application g (ReceiveBench g σ)).SparesReceiver admits := by
  intro event before answer after run
  obtain rfl := congrArg Prod.snd (Option.some.inj run)
  dsimp only [modify, modifyGet]
  split
  · rename_i may
    obtain ⟨between, owned⟩ := Bool.and_eq_true_iff.mp may
    exact .single (.withBlock admitted (Option.isNone_iff_eq_none.mp between) owned)
  · exact .refl

/-- A driver whose first receive slot holds a frame. -/
def Board.halfFilled : Board .pair (ReceiveBench .pair RestingPeripheral) :=
  (Board.init {} (Board.unused .pair)).2.withBlock 1 false

theorem Board.halfFilled_reach (admits : Reception .pair → Prop) (admitted : admits (.oneBlock 1 false)) :
    ReceiveReach admits Board.halfFilled :=
  (ReceiveReach.rested admits rfl).meanwhile (.withBlock admitted rfl rfl)

/-- A second frame comes in while the application looks at the first one, and a third one while it looks at the second.
The next call takes that one too. -/
theorem received_in_order_arriving : ∃ after final : Board .pair (ReceiveBench .pair RestingPeripheral),
    Board.processReceived (Application.lingering 2).recorded Board.halfFilled = some (2, after) ∧
    ReceiveReach Reception.FitsRing after ∧
    Offer.consumed after.world.offers = [⟨#[1, 2, 3, 4], none⟩, ⟨#[2, 2, 3, 4], none⟩] ∧
    Reception.deliverables after.world.dma.finished =
      [⟨#[1, 2, 3, 4], none⟩, ⟨#[2, 2, 3, 4], none⟩, ⟨#[2, 2, 3, 4], none⟩] ∧
    Offer.consumed after.world.offers <+: Reception.deliverables after.world.dma.finished ∧
    Offer.InOrder after.world.offers ∧
    Board.processReceived Application.accepting.recorded after = some (1, final) ∧
    Reception.deliverables after.world.dma.finished <+: Offer.consumed final.world.offers := by
  obtain ⟨⟨count, after⟩, run, rfl, taken, finished, ⟨more, final⟩, rerun, rfl⟩ :
      ∃ answer ∈ Board.processReceived (Application.lingering 2).recorded Board.halfFilled, answer.1 = 2 ∧
        Offer.consumed answer.2.world.offers = [⟨#[1, 2, 3, 4], none⟩, ⟨#[2, 2, 3, 4], none⟩] ∧
        Reception.deliverables answer.2.world.dma.finished =
          [⟨#[1, 2, 3, 4], none⟩, ⟨#[2, 2, 3, 4], none⟩, ⟨#[2, 2, 3, 4], none⟩] ∧
        ∃ last ∈ Board.processReceived Application.accepting.recorded answer.2, last.1 = 1 := by decide +kernel
  have reach := (Board.halfFilled_reach Reception.FitsRing Reception.oneBlock_fitsRing).process
    (Application.lingering_sparesReceiver Reception.oneBlock_fitsRing) run
  obtain ⟨first, inOrder, all⟩ := received_in_order reach
  have all := all .accepting (Application.accepting_sparesReceiver _) Application.accepting_neverRetries
  exact ⟨after, final, run, reach, taken, finished, first, inOrder, rerun, all.taken 1 final rerun⟩

end EthernetMac
