import EthernetMac.Proofs.Handover
import EthernetMac.Proofs.Nesting
import EthernetMac.Proofs.Receive.Front
import EthernetMac.Proofs.Receive.Order

namespace EthernetMac

namespace Ring.IsArc

variable {n : Nat} {ring : Ring n} {start : Fin n} {count : Nat}

/-- The hardware gives up the slot behind an arc, whatever it writes there. -/
theorem extend (arc : ring.IsArc start count) (owned : ring.isOwned (advance start count) = true) {d : Descriptor}
    (released : d.isOwned = false) : (ring.setDescriptor (advance start count) d).IsArc start (count + 1) := by
  have short : count < n := by
    refine Nat.lt_of_le_of_ne arc.fits fun whole => ?_
    have first := arc.released 0 (by have := start.pos; omega)
    rw [whole, advance_length, ← advance_zero start, first] at owned
    cases owned
  have elsewhere {k : Nat} (inside : k < n) (other : k ≠ count) :
      (ring.setDescriptor (advance start count) d).isOwned (advance start k) = ring.isOwned (advance start k) := by
    have apart : advance start count ≠ advance start k :=
      fun same => other (advance_injective start short inside same).symm
    exact congrArg (fun slot => slot.descriptor.isOwned) (slot_modifySlot_of_ne ring _ apart)
  refine ⟨short, fun k within => ?_, fun k beyond inside => ?_⟩
  · rcases Nat.lt_or_eq_of_le (Nat.le_of_lt_succ within) with before | rfl
    · rw [elsewhere (by omega) (by omega)]
      exact arc.released k before
    · rw [isOwned, descriptor, setDescriptor, slot_modifySlot_self]
      exact released
  · rw [elsewhere inside (by omega)]
    exact arc.owned k (by omega) inside

/-- The driver gives back slots at the start of an arc. -/
theorem rearm (arc : ring.IsArc start count) {gone : Nat} (within : gone ≤ count) :
    (ring.rearm start gone).IsArc (advance start gone) (count - gone) := by
  have fits := arc.fits
  have kept {k : Nat} (beyond : gone ≤ k) (inside : k < n) :
      (ring.rearm start gone).isOwned (advance start k) = ring.isOwned (advance start k) :=
    congrArg (fun slot => slot.descriptor.isOwned) (slot_rearm_of_ge ring start beyond inside)
  refine ⟨by omega, fun k near => ?_, fun k beyond inside => ?_⟩
  · rw [advance_advance, kept (by omega) (by omega)]
    exact arc.released _ (by omega)
  · rw [advance_advance]
    rcases Nat.lt_or_ge (gone + k) n with before | around
    · rw [kept (by omega) before]
      exact arc.owned _ (by omega) before
    · -- once round, the slot is one of those that were given back
      have place : advance start (gone + k) = advance start (gone + k - n) := by
        rw [← advance_add_length start (gone + k - n), show gone + k - n + n = gone + k by omega]
      have armed := slot_rearm_of_lt ring start (by omega : gone ≤ n) (by omega : gone + k - n < gone)
      rw [place, isOwned, descriptor, armed]
      exact Receiver.isOwned_armed _

end Ring.IsArc

variable {g : Geometry} {σ : Type}

/-- What may happen beside the driver's own receive walk: the DMA writes any words but the mark of ownership to the slot
that it writes next, which must be the hardware's, with whatever it does to the blocks, and goes on to the next slot; or
something happens that has no part in either. -/
inductive Board.Refills : Board g (ReceiveBench g σ) → Board g (ReceiveBench g σ) → Prop
  | writeBack {before : Board g (ReceiveBench g σ)} {d : Descriptor} {blocks : Vector (Block g.buffer) g.rx}
      {dma : ReceiveDma g} :
      before.mac.receiver.ring.isOwned before.world.dma.position = true → d.isOwned = false →
      dma.position = Ring.next before.world.dma.position →
      Refills before { before.receivedBack before.world.dma.position d blocks with
        world := { before.world with dma := dma } }
  | aside {before after : Board g (ReceiveBench g σ)} :
      after.mac.receiver = before.mac.receiver → after.world.ringBase = before.world.ringBase →
      after.world.dma.position = before.world.dma.position → (before.IsUp → after.IsUp) → Refills before after

/-- While the application is at work the DMA may go on, and anything may happen that leaves the receive ring alone. -/
def Application.LetsRefill (app : Application g (ReceiveBench g σ)) : Prop :=
  ∀ called back, app.Reacts called back → Relation.ReflTransGen Board.Refills called back

/-- The call comes to ask the application on the board `called`: it can make a difference that the application does
something else there, and only there. -/
def Application.AskedOn [Bus σ] (app : Application g (ReceiveBench g σ)) (before called : Board g (ReceiveBench g σ)) :
    Prop :=
  ∃ other, app.AgreesWhere (· ≠ called) other ∧
    Board.processReceived other before ≠ Board.processReceived app before

/-- A walk over at most so many slots from a slot on comes past a board: the walk begins with it, or has just looked at
a run that it found, or comes past it behind a run that it has given back. -/
inductive Board.Passes {ε : Type} (app : Application g ε) : Nat → Fin g.rx → Board g ε → Board g ε → Prop
  | here {budget first board} : Passes app budget first board board
  | dealt {room first before outcome middle} : before.mac.receiver.ring.isOwned first = false →
      Board.consume app first (before.mac.receiver.ring.scan first room) before = some (outcome, middle) →
      Passes app (room + 1) first before middle
  | onward {room first before delivered middle after} : before.mac.receiver.ring.isOwned first = false →
      Board.consume app first (before.mac.receiver.ring.scan first room) before = some (some delivered, middle) →
      Passes app (room - (before.mac.receiver.ring.scan first room).beyond)
        (Ring.advance first ((before.mac.receiver.ring.scan first room).beyond + 1))
        (middle.givenBack first ((before.mac.receiver.ring.scan first room).beyond + 1)) after →
      Passes app (room + 1) first before after

/-- The boards that there can be after a bring-up: between calls that process the received frames, in the midst of such
a call before and behind any of the runs that it deals with, and while it asks the application. That may answer as it
likes, and may never answer. -/
inductive RingReach [Bus σ] : Board g (ReceiveBench g σ) → Prop
  | start {config placement before after} :
      before.mac = Mac.blank g placement → before.world.ringBase = placement.rxRing →
      Board.init config before = (.ok (), after) → RingReach after
  | refill {before after} : RingReach before → Board.Refills before after → RingReach after
  | process {app before count after} : RingReach before → Application.LetsRefill app →
      Board.processReceived app before = some (count, after) → RingReach after
  | midway {app budget before after} : RingReach before → Application.LetsRefill app →
      before.mac.receiver.walking = false → budget ≤ g.rx →
      Board.Passes app budget (before.mac.receiver.ring.oldest before.world.dma.position)
        { before with mac := { before.mac with receiver := { before.mac.receiver with walking := true } } } after →
      RingReach after
  | asked {app before called} : RingReach before → Application.LetsRefill app → Application.AskedOn app before called →
      RingReach called

/-- The software's slots are the `count` ones from `start` on, and the DMA writes on behind them. -/
structure Board.HasArc (start : Fin g.rx) (count : Nat) (board : Board g (ReceiveBench g σ)) : Prop where
  arc : board.mac.receiver.ring.IsArc start count
  position : board.world.dma.position = Ring.advance start count
  base : board.world.ringBase = board.mac.receiver.ring.base
  up : board.IsUp

/-- There are at least `least` slots of the software from `start` on. -/
def Board.HasArcOf (start : Fin g.rx) (least : Nat) (board : Board g (ReceiveBench g σ)) : Prop :=
  ∃ count, least ≤ count ∧ board.HasArc start count

namespace Board

variable {before after : Board g (ReceiveBench g σ)} {start : Fin g.rx} {count least : Nat}

theorem HasArc.congr (has : before.HasArc start count) (ring : after.mac.receiver.ring = before.mac.receiver.ring)
    (position : after.world.dma.position = before.world.dma.position)
    (base : after.world.ringBase = before.world.ringBase) (up : before.IsUp → after.IsUp) :
    after.HasArc start count := by
  refine ⟨?_, position.trans has.position, ?_, up has.up⟩
  · rw [ring]
    exact has.arc
  · rw [base, ring, has.base]

/-- A computation that comes back on a board with an arc leaves one behind. -/
theorem HasArc.returned {α : Type} (has : before.HasArc start count) (value : α) :
    ∀ result after, some (value, before) = some (result, after) → ∃ start count, after.HasArc start count := by
  intro result after run
  obtain ⟨_, rfl⟩ := Prod.mk.inj (Option.some.inj run)
  exact ⟨start, count, has⟩

theorem HasArc.marked (has : before.HasArc start count) :
    HasArc start count
      { before with mac := { before.mac with receiver := { before.mac.receiver with walking := true } } } :=
  has.congr rfl rfl rfl id

/-- An arc only grows while the driver leaves it alone. -/
theorem HasArcOf.refill (has : before.HasArcOf start least) (event : Refills before after) :
    after.HasArcOf start least := by
  obtain ⟨count, enough, has⟩ := has
  cases event with
  | writeBack owned released goes =>
    rw [has.position] at owned goes ⊢
    refine ⟨count + 1, by omega, has.arc.extend owned released, ?_, has.base, has.up⟩
    rw [← Ring.next_advance]
    exact goes
  | aside receiver base position up =>
    exact ⟨count, enough, has.congr (congrArg Receiver.ring receiver) position base up⟩

theorem HasArcOf.refills (has : before.HasArcOf start least) (events : Relation.ReflTransGen Refills before after) :
    after.HasArcOf start least := by
  induction events with
  | refl => exact has
  | tail _ event ih => exact ih.refill event

/-- What the driver has looked at and dealt with lies in the arc, and can be given back. -/
theorem HasArc.giveBack {middle : Board g (ReceiveBench g σ)} {room : Nat} (has : before.HasArc start count)
    (released : before.mac.receiver.ring.isOwned start = false) (near : room < g.rx)
    (later : middle.HasArcOf start count) :
    ∃ left, HasArc (Ring.advance start ((before.mac.receiver.ring.scan start room).beyond + 1)) left
      (middle.givenBack start ((before.mac.receiver.ring.scan start room).beyond + 1)) := by
  have within := Ring.beyond_scan_lt has.arc (has.arc.released_start_iff.mp released) near
  obtain ⟨longer, enough, later⟩ := later
  have given : (before.mac.receiver.ring.scan start room).beyond + 1 ≤ longer := by omega
  refine ⟨_, later.arc.rearm given, ?_, ?_, later.up⟩
  · rw [Ring.advance_advance, Nat.add_sub_of_le given]
    exact later.position
  · rw [givenBack, Ring.base_rearm]
    exact later.base

/-- A walk ends on a board that it comes past. -/
theorem walk_passes {ε : Type} {app : Application g ε} {budget : Nat} {first : Fin g.rx} {before after : Board g ε}
    {tally : WalkTally} (run : walk app budget first before = some (tally, after)) :
    Passes app budget first before after := by
  induction budget using Nat.strongRecOn generalizing first before tally with
  | ind budget ih =>
    cases budget with
    | zero =>
      rw [walk_zero] at run
      obtain ⟨_, rfl⟩ := Prod.mk.inj (Option.some.inj run)
      exact .here
    | succ room =>
      rw [walk_succ] at run
      by_cases owned : before.mac.receiver.ring.isOwned first = true
      · rw [if_pos owned] at run
        obtain ⟨_, rfl⟩ := Prod.mk.inj (Option.some.inj run)
        exact .here
      · rw [if_neg owned] at run
        have released := Bool.eq_false_iff.mpr owned
        obtain ⟨⟨outcome, middle⟩, consumed, run⟩ := Option.bind_eq_some_iff.mp run
        cases outcome with
        | none =>
          obtain ⟨_, rfl⟩ := Prod.mk.inj (Option.some.inj run)
          exact .dealt released consumed
        | some delivered =>
          obtain ⟨⟨rest, last⟩, walked, result⟩ := Option.map_eq_some_iff.mp run
          obtain ⟨_, rfl⟩ := Prod.mk.inj result
          exact .onward released consumed (ih _ (by omega) walked)

section Asking

variable {app other : Application g (ReceiveBench g σ)} (lets : app.LetsRefill)
  (agrees : ∀ start count, app.AgreesWhere (HasArc start count) other)

include lets agrees

theorem HasArcOf.consume (first : Fin g.rx) (run : Run g.rx) :
    Call.Matches (HasArcOf start least) (Board.consume app first run) (Board.consume other first run) := by
  refine Call.Matches.consume ⟨?_, ?_⟩ (fun called back has upcall => has.refills (lets called back upcall)) ?_ ?_
    first run
  · rintro event board ⟨count, _, has⟩
    exact (agrees start count).event event board has
  · rintro callback stamp board ⟨count, _, has⟩
    exact (agrees start count).stamp callback stamp board has
  · rintro entry board ⟨count, enough, has⟩
    exact ⟨count, enough, has.congr rfl rfl rfl id⟩
  · rintro scratch board ⟨count, enough, has⟩
    exact ⟨count, enough, has.congr rfl rfl rfl id⟩

omit agrees in
theorem HasArc.passes {budget : Nat} (near : budget ≤ g.rx) (has : before.HasArc start count)
    (passes : Passes app budget start before after) : ∃ start count, after.HasArc start count := by
  have stays (first : Fin g.rx) (run : Run g.rx) {board : Board g (ReceiveBench g σ)} {start : Fin g.rx} {count : Nat}
      (has : board.HasArc start count) :=
    (HasArcOf.consume lets (fun _ _ => ⟨fun _ _ _ => rfl, fun _ _ _ _ => rfl⟩) first run board
      ⟨count, Nat.le_refl count, has⟩).2
  induction passes generalizing count with
  | here => exact ⟨_, count, has⟩
  | dealt _ consumed =>
    obtain ⟨longer, _, later⟩ := stays _ _ has _ _ consumed
    exact ⟨_, longer, later⟩
  | onward released consumed _ ih =>
    obtain ⟨left, given⟩ := has.giveBack released near (stays _ _ has _ _ consumed)
    exact ih (Nat.le_trans (Nat.sub_le _ _) (Nat.le_of_succ_le near)) given

/-- A walk asks the application only where the software's slots form an arc. -/
theorem HasArc.walk {budget : Nat} (near : budget ≤ g.rx) (has : before.HasArc start count) :
    Board.walk other budget start before = Board.walk app budget start before := by
  induction budget using Nat.strongRecOn generalizing before start count with
  | ind budget ih =>
    cases budget with
    | zero => rw [walk_zero, walk_zero]
    | succ room =>
      rw [walk_succ, walk_succ]
      by_cases owned : before.mac.receiver.ring.isOwned start = true
      · rw [if_pos owned, if_pos owned]
      · rw [if_neg owned, if_neg owned]
        obtain ⟨same, stays⟩ := HasArcOf.consume lets agrees start (before.mac.receiver.ring.scan start room) before
          ⟨count, Nat.le_refl count, has⟩
        dsimp only
        rw [same]
        cases consumed : Board.consume app start (before.mac.receiver.ring.scan start room) before with
        | none => rfl
        | some answered =>
          obtain ⟨verdict, middle⟩ := answered
          rw [Option.bind_some, Option.bind_some]
          cases verdict with
          | none => rfl
          | some delivered =>
            obtain ⟨left, given⟩ := has.giveBack (Bool.eq_false_iff.mpr owned) (by omega : room < g.rx)
              (stays _ middle consumed)
            exact congrArg (Option.map _)
              (ih (room - (before.mac.receiver.ring.scan start room).beyond) (by omega) (by omega) given)

/-- So does a call, which asks nobody if it is made during another one. -/
theorem HasArc.process [Bus σ] (has : before.HasArc start count) :
    Board.processReceived other before = Board.processReceived app before ∧
      ∀ delivered after, Board.processReceived app before = some (delivered, after) →
        ∃ start count, after.HasArc start count := by
  cases walking : before.mac.receiver.walking with
  | true =>
    rw [processReceived_nested app has.up walking, processReceived_nested other has.up walking]
    have noted : HasArc start count { before with journal := before.journal.push .walkReentered } :=
      has.congr rfl rfl rfl id
    exact ⟨rfl, noted.returned 0⟩
  | false =>
    have same := has.marked.walk lets agrees (Nat.le_refl g.rx)
    rw [processReceived_bench app has.up walking has.base, processReceived_bench other has.up walking has.base,
      has.position, has.arc.oldest_eq, same]
    refine ⟨rfl, fun _ _ run => ?_⟩
    obtain ⟨⟨tally, last⟩, walk, result⟩ := Option.map_eq_some_iff.mp run
    obtain ⟨_, rfl⟩ := Prod.mk.inj result
    obtain ⟨final, left, later⟩ := has.marked.passes lets (Nat.le_refl g.rx) (walk_passes walk)
    have core := walkEnded_world ReceiveBench.core_untouched last tally.rearmed
    obtain ⟨base, dma, _⟩ : (last.walkEnded tally.rearmed).world.ringBase = last.world.ringBase ∧
        (last.walkEnded tally.rearmed).world.dma = last.world.dma ∧
        (last.walkEnded tally.rearmed).world.offers = last.world.offers := by simpa [ReceiveBench.core] using core
    exact ⟨final, left, later.congr rfl (congrArg ReceiveDma.position dma) base id⟩

end Asking

/-- Where the software's slots form no arc, no call ever asks the application. -/
theorem HasArc.asked [Bus σ] {app : Application g (ReceiveBench g σ)} {called : Board g (ReceiveBench g σ)}
    (has : before.HasArc start count) (lets : app.LetsRefill) (asked : app.AskedOn before called) :
    ∃ start count, called.HasArc start count := by
  obtain ⟨other, agrees, differs⟩ := asked
  refine Classical.byContradiction fun none => differs ?_
  have apart {board : Board g (ReceiveBench g σ)} {start : Fin g.rx} {count : Nat} (has : board.HasArc start count) :
      board ≠ called := by
    rintro rfl
    exact none ⟨start, count, has⟩
  exact (has.process lets fun _ _ => ⟨fun event board has => agrees.event event board (apart has),
    fun callback stamp board has => agrees.stamp callback stamp board (apart has)⟩).1

end Board

/-- An application that does something else on one board. -/
noncomputable def Application.differing (app : Application g (ReceiveBench g σ)) (called : Board g (ReceiveBench g σ))
    (answer : Option (Disposition × Board g (ReceiveBench g σ))) : Application g (ReceiveBench g σ) where
  onEvent event board := open Classical in if board = called then answer else app.onEvent event board
  onStamp := app.onStamp

namespace Board

/-- The board on which the application is asked for a whole frame in front. -/
def inFront (board : Board g (ReceiveBench g σ)) (first : Fin g.rx) (segments length : Nat) :
    Board g (ReceiveBench g σ) :=
  { board with mac := { board.mac with receiver :=
    (Receiver.frameBytes { board.mac.receiver with walking := true } first segments length).2 } }

variable {before : Board g (ReceiveBench g σ)} {start last : Fin g.rx} {count following length room : Nat}
  {context : StampContext g.rx}

/-- Nothing comes of a walk whose application never answers for the first frame, and a frame that is to be tried again
ends it. -/
theorem walk_inFront {ε : Type} {app : Application g ε} {board : Board g ε}
    (released : board.mac.receiver.ring.isOwned start = false)
    (found : board.mac.receiver.ring.scan start room = .frame last following context) (present : context ≠ .missing)
    (measured : board.mac.receiver.ring.frameLength g.buffer last (following + 1) = .ok length)
    {answer : Option (Disposition × Board g ε)}
    (asked : app.onEvent (.frameAvailable ⟨(board.mac.receiver.frameBytes start (following + 1) length).1,
        board.mac.receiver.ring.stampAt? context⟩) { board with mac := { board.mac with
          receiver := (board.mac.receiver.frameBytes start (following + 1) length).2 } } = answer) :
    (answer = none → walk app (room + 1) start board = none) ∧
      ∀ back, answer = some (.retry, back) → walk app (room + 1) start board = some ({}, back) := by
  rw [walk_succ, released, if_neg Bool.false_ne_true, found]
  dsimp only
  rw [consume_frame app _ _ _ _ present, offer_apply, measured]
  dsimp only
  rw [asked]
  constructor
  · rintro rfl
    rfl
  · rintro back rfl
    rfl

/-- A call that finds a whole frame in front does ask the application. -/
theorem HasArc.asks [Bus σ] (has : before.HasArc start count) (idle : before.mac.receiver.walking = false)
    (some : 0 < count) (found : before.mac.receiver.ring.scan start (g.rx - 1) = .frame last following context)
    (present : context ≠ .missing)
    (measured : before.mac.receiver.ring.frameLength g.buffer last (following + 1) = .ok length)
    (app : Application g (ReceiveBench g σ)) : app.AskedOn before (before.inFront start (following + 1) length) := by
  have released := has.arc.released_start_iff.mpr some
  have calls (answer : Option (Disposition × Board g (ReceiveBench g σ))) :
      (answer = none → processReceived (app.differing (before.inFront start (following + 1) length) answer) before =
        none) ∧ ∀ back, answer = .some (.retry, back) →
          processReceived (app.differing (before.inFront start (following + 1) length) answer) before ≠ none := by
    have walked := @walk_inFront g start last following length (g.rx - 1) context _
      (app.differing (before.inFront start (following + 1) length) answer)
      { before with mac := { before.mac with receiver := { before.mac.receiver with walking := true } } }
      released found present measured answer (if_pos rfl)
    rw [Nat.sub_add_cancel g.rx_pos] at walked
    rw [processReceived_bench _ has.up idle has.base, has.position, has.arc.oldest_eq]
    refine ⟨fun never => ?_, fun back again => ?_⟩
    · rw [walked.1 never, Option.map_none]
    · rw [walked.2 back again, Option.map_some]
      exact Option.some_ne_none _
  have other (answer : Option (Disposition × Board g (ReceiveBench g σ))) :
      app.AgreesWhere (· ≠ before.inFront start (following + 1) length)
        (app.differing (before.inFront start (following + 1) length) answer) :=
    ⟨fun _ _ apart => if_neg apart, fun _ _ _ _ => rfl⟩
  cases run : processReceived app before with
  | none =>
    refine ⟨_, other (.some (.retry, before)), ?_⟩
    rw [run]
    exact (calls _).2 before rfl
  | some answered =>
    refine ⟨_, other none, ?_⟩
    rw [run, (calls none).1 rfl]
    exact (Option.some_ne_none answered).symm

end Board

theorem RingReach.hasArc [Bus σ] {board : Board g (ReceiveBench g σ)} (reach : RingReach board) :
    ∃ start count, board.HasArc start count := by
  induction reach with
  | start fresh base run =>
    obtain ⟨tracks, _, _⟩ := Tracks.init fresh base run
    exact ⟨_, 0, tracks.holds.isArc, tracks.position, tracks.base, tracks.up⟩
  | refill _ event ih =>
    obtain ⟨start, count, has⟩ := ih
    obtain ⟨longer, _, has⟩ := Board.HasArcOf.refill ⟨count, Nat.le_refl count, has⟩ event
    exact ⟨start, longer, has⟩
  | process _ lets run ih =>
    obtain ⟨start, count, has⟩ := ih
    exact (has.process lets fun _ _ => ⟨fun _ _ _ => rfl, fun _ _ _ _ => rfl⟩).2 _ _ run
  | midway _ lets _ near passes ih =>
    obtain ⟨start, count, has⟩ := ih
    rw [has.position, has.arc.oldest_eq] at passes
    exact has.marked.passes lets near passes
  | asked _ lets asked ih =>
    obtain ⟨start, count, has⟩ := ih
    exact has.asked lets asked

/-- The oldest slot is looked for behind the position that the register names. -/
theorem Board.hardwarePosition_of_named {ε : Type} [Bus ε] {board : Board g ε} {position : Fin g.rx}
    (named : (Register.currentRxDescriptor.read board.world).1 = board.mac.receiver.ring.slotAddress position) :
    (hardwarePosition board).1 = position := by
  rw [hardwarePosition_apply, named, Ring.indexOf?_slotAddress _ g.rx_le]

/-- The software's slots always form one arc of the receive ring, which ends in front of the slot that the DMA writes
next; and whenever the slots do that, whatever else there is, the search for the oldest one finds the start of the arc,
which is that next slot itself if the arc is empty or goes all round the ring. -/
theorem released_slots_form_arc [Bus σ] {board : Board g (ReceiveBench g σ)} (reach : RingReach board) :
    (∃ start count, count ≤ g.rx ∧ board.mac.receiver.ring.IsArc start count ∧
      (Board.hardwarePosition board).1 = Ring.advance start count) ∧
    ∀ {g : Geometry} {ε : Type} [Bus ε] (other : Board g ε) (start : Fin g.rx) (count : Nat),
      other.mac.receiver.ring.IsArc start count →
      (Register.currentRxDescriptor.read other.world).1 =
        other.mac.receiver.ring.slotAddress (Ring.advance start count) →
      other.mac.receiver.ring.oldest (Board.hardwarePosition other).1 = start ∧
        (count = 0 ∨ count = g.rx → start = (Board.hardwarePosition other).1) := by
  constructor
  · obtain ⟨start, count, has⟩ := reach.hasArc
    have told : (Register.currentRxDescriptor.read board.world).1 = board.world.currentAddress := by
      simp only [Register.read, Bus.load, Bus.read, if_true]
    refine ⟨start, count, has.arc.fits, has.arc, (Board.hardwarePosition_of_named ?_).trans has.position⟩
    rw [told, ReceiveBench.currentAddress, has.base, Ring.slotAddress]
  · intro g ε _ other start count arc named
    rw [Board.hardwarePosition_of_named named]
    refine ⟨arc.oldest_eq, fun extreme => ?_⟩
    rcases extreme with rfl | rfl
    · exact (Ring.advance_zero start).symm
    · exact (Ring.advance_length start).symm

/-- So it is while the application is asked for the frame in one of two slots. -/
theorem released_slots_form_arc_asked : ∃ called : Board .pair (ReceiveBench .pair RestingPeripheral),
    RingReach called ∧ called.mac.receiver.walking = true ∧
      (∃ start count, count ≤ Geometry.pair.rx ∧ called.mac.receiver.ring.IsArc start count ∧
        (Board.hardwarePosition called).1 = Ring.advance start count) ∧
      called.mac.receiver.ring.IsArc Geometry.pair.firstRx 1 ∧
      (Register.currentRxDescriptor.read called.world).1 =
        called.mac.receiver.ring.slotAddress (Ring.advance Geometry.pair.firstRx 1) ∧
      called.mac.receiver.ring.oldest (Board.hardwarePosition called).1 = Geometry.pair.firstRx ∧
      (1 = 0 ∨ 1 = Geometry.pair.rx → Geometry.pair.firstRx = (Board.hardwarePosition called).1) := by
  have up : (Board.init {} (Board.unused .pair)).1 = .ok () := rfl
  have rested : RingReach (Board.init {} (Board.unused .pair)).2 := .start rfl rfl (Prod.ext up rfl)
  have filled : RingReach Board.halfFilled :=
    rested.refill (@Board.Refills.writeBack _ _ _ (.oneBlock false) _ _ rfl rfl rfl)
  have arc : Board.halfFilled.mac.receiver.ring.IsArc Geometry.pair.firstRx 1 := by
    refine ⟨by decide, fun k within => ?_, fun k beyond inside => ?_⟩
    · obtain rfl : k = 0 := by omega
      rfl
    · obtain rfl : k = 1 := Nat.le_antisymm (Nat.le_of_lt_succ inside) beyond
      rfl
  have has : Board.halfFilled.HasArc Geometry.pair.firstRx 1 := ⟨arc, rfl, rfl, fun other => nomatch other⟩
  have asks := has.asks rfl Nat.one_pos (rfl : _ = Run.frame Geometry.pair.firstRx 0 .unpromised) (by decide)
    (rfl : _ = Except.ok 4) .accepting
  have lets : (Application.accepting : Application .pair (ReceiveBench .pair RestingPeripheral)).LetsRefill :=
    fun called back upcall => by rw [Application.accepting_reacts upcall]
  have reach := filled.asked lets asks
  have told := released_slots_form_arc reach
  exact ⟨_, reach, rfl, told.1, arc, rfl, told.2 _ _ 1 arc rfl⟩

end EthernetMac
