import EthernetMac.Proofs.BringUp
import EthernetMac.Proofs.SlotAddress
import EthernetMac.Proofs.Receive.Payload
import EthernetMac.Proofs.Receive.Scan

namespace EthernetMac

/-- The application always comes back with an answer. -/
def Application.Answers {g : Geometry} {ε : Type} (app : Application g ε) : Prop :=
  ∀ event board, ∃ answered, app.onEvent event board = some answered

/-- The application takes or drops every frame that it is offered. -/
def Application.NeverRetries {g : Geometry} {ε : Type} (app : Application g ε) : Prop :=
  ∀ frame before after, app.onEvent (.frameAvailable frame) before ≠ some (.retry, after)

namespace Board

variable {g : Geometry} {ε : Type}

theorem offer_apply (app : Application g ε) (first last : Fin g.rx) (segments : Nat) (context : StampContext g.rx)
    (board : Board g ε) :
    offer app first last segments context board =
      match board.mac.receiver.ring.frameLength g.buffer last segments with
      | .error reason => some (none, { board with journal := board.journal.push reason })
      | .ok length =>
        (app.onEvent
          (.frameAvailable ⟨(board.mac.receiver.frameBytes first segments length).1,
            board.mac.receiver.ring.stampAt? context⟩)
          { board with mac := { board.mac with
            receiver := (board.mac.receiver.frameBytes first segments length).2 } }).map
          fun answered => (some answered.1, answered.2) := by
  unfold offer
  rw [Call.get_bind_apply]
  cases board.mac.receiver.ring.frameLength g.buffer last segments with
  | error reason => rfl
  | ok length =>
    simp only
    generalize board.mac.receiver.frameBytes first segments length = gathered
    obtain ⟨bytes, gathered⟩ := gathered
    rw [Call.quiet_bind_apply, Call.bind_apply, modifyReceiver_apply]
    dsimp only
    cases app.onEvent _ _ with
    | none => rfl
    | some answered => rfl

/-- Whether a frame was consumed, by the answer to its offer; `none` for one that is to be tried again. -/
def verdict : Option Disposition → Option Bool
  | some .retry => none
  | some _ => some true
  | none => some false

theorem consume_frame (app : Application g ε) (first last : Fin g.rx) (following : Nat) {context : StampContext g.rx}
    (board : Board g ε) (present : context ≠ .missing) :
    consume app first (.frame last following context) board =
      (offer app first last (following + 1) context board).map fun answered => (verdict answered.1, answered.2) := by
  simp only [consume, present, if_false]
  rw [Call.bind_apply]
  cases offer app first last (following + 1) context board with
  | none => rfl
  | some answered =>
    obtain ⟨answer, after⟩ := answered
    cases answer with
    | none => rfl
    | some answer => cases answer <;> rfl

theorem consume_missing (app : Application g ε) (first last : Fin g.rx) (following : Nat) (board : Board g ε) :
    consume app first (.frame last following .missing) board =
      (offer app first last (following + 1) .missing
        { board with journal := board.journal.push (.contextMissing last.val) }).map
        fun answered => (verdict answered.1, answered.2) := by
  simp only [consume, if_true]
  rw [Call.quiet_bind_apply, note_apply, Call.bind_apply]
  cases offer app first last (following + 1) .missing _ with
  | none => rfl
  | some answered =>
    obtain ⟨answer, after⟩ := answered
    cases answer with
    | none => rfl
    | some answer => cases answer <;> rfl

/-- A frame is offered whether its stamp has come or not; a missing one is noted before. -/
theorem consume_offers (app : Application g ε) (first last : Fin g.rx) (following : Nat) (context : StampContext g.rx)
    (board : Board g ε) :
    ∃ journal, consume app first (.frame last following context) board =
      (offer app first last (following + 1) context { board with journal := journal }).map
        fun answered => (verdict answered.1, answered.2) := by
  by_cases present : context = .missing
  · subst present
    exact ⟨_, consume_missing app first last following board⟩
  · exact ⟨board.journal, consume_frame app first last following board present⟩

theorem walk_zero (app : Application g ε) (first : Fin g.rx) (board : Board g ε) :
    walk app 0 first board = some ({}, board) := by
  rw [walk]
  rfl

theorem walk_succ (app : Application g ε) (room : Nat) (first : Fin g.rx) (board : Board g ε) :
    walk app (room + 1) first board =
      if board.mac.receiver.ring.isOwned first then some ({}, board)
      else
        let run := board.mac.receiver.ring.scan first room
        (consume app first run board).bind fun consumed =>
          match consumed.1 with
          | none => some ({}, consumed.2)
          | some delivered =>
            (walk app (room - run.beyond) (Ring.advance first (run.beyond + 1))
              { consumed.2 with mac := { consumed.2.mac with receiver := { consumed.2.mac.receiver with
                ring := consumed.2.mac.receiver.ring.rearm first (run.beyond + 1) } } }).map
              fun rest => ({ delivered := rest.1.delivered + delivered.toNat, rearmed := true }, rest.2) := by
  rw [walk, Call.get_bind_apply]
  by_cases owned : board.mac.receiver.ring.isOwned first = true
  · simp only [owned, if_true]
    rfl
  · simp only [owned, Bool.false_eq_true, if_false]
    rw [Call.bind_apply]
    cases consume app first (board.mac.receiver.ring.scan first room) board with
    | none => rfl
    | some consumed =>
      obtain ⟨verdict, after⟩ := consumed
      cases verdict with
      | none => rfl
      | some delivered =>
        simp only [Option.bind_some]
        rw [Call.quiet_bind_apply, Call.bind_apply, modifyReceiver_apply]
        cases walk app _ _ _ with
        | none => rfl
        | some rest => rfl

theorem offer_returns {app : Application g ε} (answers : app.Answers) (first last : Fin g.rx) (segments : Nat)
    (context : StampContext g.rx) (board : Board g ε) :
    ∃ answered, offer app first last segments context board = some answered := by
  rw [offer_apply]
  cases board.mac.receiver.ring.frameLength g.buffer last segments with
  | error reason => exact ⟨_, rfl⟩
  | ok length =>
    obtain ⟨answered, upcall⟩ := answers
      (.frameAvailable ⟨(board.mac.receiver.frameBytes first segments length).1,
        board.mac.receiver.ring.stampAt? context⟩)
      { board with mac := { board.mac with receiver := (board.mac.receiver.frameBytes first segments length).2 } }
    exact ⟨_, congrArg (Option.map _) upcall⟩

theorem consume_returns {app : Application g ε} (answers : app.Answers) (first : Fin g.rx) (run : Run g.rx)
    (board : Board g ε) : ∃ consumed, consume app first run board = some consumed := by
  cases run with
  | incomplete => exact ⟨_, rfl⟩
  | stray following => exact ⟨_, rfl⟩
  | overflow following => exact ⟨_, rfl⟩
  | frame last following context =>
    obtain ⟨journal, offers⟩ := consume_offers app first last following context board
    obtain ⟨answered, offered⟩ := offer_returns answers first last (following + 1) context
      { board with journal := journal }
    rw [offers, offered]
    exact ⟨_, rfl⟩

theorem walk_returns {app : Application g ε} (answers : app.Answers) (budget : Nat) (first : Fin g.rx)
    (board : Board g ε) : ∃ walked, walk app budget first board = some walked := by
  induction budget using Nat.strongRecOn generalizing first board with
  | ind budget ih =>
    cases budget with
    | zero => exact ⟨_, walk_zero app first board⟩
    | succ room =>
      rw [walk_succ]
      by_cases owned : board.mac.receiver.ring.isOwned first = true
      · rw [if_pos owned]
        exact ⟨_, rfl⟩
      · rw [if_neg owned]
        obtain ⟨⟨verdict, middle⟩, consumed⟩ := consume_returns answers first
          (board.mac.receiver.ring.scan first room) board
        simp only [consumed, Option.bind_some]
        cases verdict with
        | none => exact ⟨_, rfl⟩
        | some delivered =>
          obtain ⟨rest, walked⟩ := ih (room - (board.mac.receiver.ring.scan first room).beyond) (by omega) _ _
          exact ⟨_, congrArg (Option.map _) walked⟩

theorem hardwarePosition_apply [Bus ε] (board : Board g ε) :
    hardwarePosition board =
      match board.mac.receiver.ring.indexOf? (Register.currentRxDescriptor.read board.world).1 with
      | some position => (position, (onBus Register.currentRxDescriptor.read board).2)
      | none => (g.firstRx, (note (.positionOutsideRing (Register.currentRxDescriptor.read board.world).1)
          (onBus Register.currentRxDescriptor.read board).2).2) := by
  unfold hardwarePosition
  rw [BoardM.bind_apply, onBus_apply, BoardM.bind_apply, receiver_apply]
  dsimp only
  cases board.mac.receiver.ring.indexOf? (Register.currentRxDescriptor.read board.world).1 with
  | some position => rfl
  | none => rfl

/-- Where a walk finds the hardware, and the board on which it has asked. -/
def located [Bus ε] (board : Board g ε) : Fin g.rx × Board g ε :=
  hardwarePosition (modifyReceiver (fun r => { r with walking := true }) board).2

theorem located_position [Bus ε] (board : Board g ε) :
    board.located.1 =
      (board.mac.receiver.ring.indexOf? (Register.currentRxDescriptor.read board.world).1).getD g.firstRx := by
  rw [located, modifyReceiver_apply, hardwarePosition_apply]
  dsimp only
  cases board.mac.receiver.ring.indexOf? (Register.currentRxDescriptor.read board.world).1 <;> rfl

theorem located_mac [Bus ε] (board : Board g ε) :
    board.located.2.mac = { board.mac with receiver := { board.mac.receiver with walking := true } } := by
  rw [located, modifyReceiver_apply, hardwarePosition_apply]
  dsimp only
  cases board.mac.receiver.ring.indexOf? (Register.currentRxDescriptor.read board.world).1 <;> rfl

theorem located_world [Bus ε] (board : Board g ε) :
    board.located.2.world = (Register.currentRxDescriptor.read board.world).2 := by
  rw [located, modifyReceiver_apply, hardwarePosition_apply]
  dsimp only
  cases board.mac.receiver.ring.indexOf? (Register.currentRxDescriptor.read board.world).1 <;> rfl

/-- The board after a walk: the channel is woken if it was given anything, and the receiver is free again. -/
def walkEnded [Bus ε] (board : Board g ε) (rearmed : Bool) : Board g ε where
  mac := { board.mac with receiver := { board.mac.receiver with walking := false } }
  world := if rearmed then (Register.rxTailPointer.write 0 board.world).2 else board.world
  journal := board.journal

theorem walkEnded_world [Bus ε] {κ : Type} {view : ε → κ} (far : Bus.Untouched view) (board : Board g ε)
    (rearmed : Bool) : view (board.walkEnded rearmed).world = view board.world := by
  cases rearmed with
  | true => exact far.store .rxTailPointer 0 board.world
  | false => rfl

/-- A walk over the received frames goes once round the ring from the oldest slot on, and marks the receiver
meanwhile. -/
theorem processReceived_outermost [Bus ε] (app : Application g ε) {board : Board g ε}
    (up : board.mac.lifecycle ≠ .uninitialized) (idle : board.mac.receiver.walking = false) :
    processReceived app board =
      (walk app g.rx (board.located.2.mac.receiver.ring.oldest board.located.1) board.located.2).map fun walked =>
        (walked.1.delivered, walked.2.walkEnded walked.1.rearmed) := by
  unfold processReceived walkReceived
  rw [Call.get_bind_apply, if_neg up, Call.get_bind_apply, idle, if_neg Bool.false_ne_true, Call.quiet_bind_apply,
    Call.quiet_bind_apply, Call.get_bind_apply, Call.bind_apply]
  change Option.bind (walk app g.rx (board.located.2.mac.receiver.ring.oldest board.located.1) board.located.2) _ = _
  cases walk app g.rx (board.located.2.mac.receiver.ring.oldest board.located.1) board.located.2 with
  | none => rfl
  | some walked =>
    obtain ⟨tally, after⟩ := walked
    obtain ⟨count, rearmed⟩ := tally
    cases rearmed <;> rfl

theorem processReceived_uninitialized [Bus ε] (app : Application g ε) {board : Board g ε}
    (fresh : board.mac.lifecycle = .uninitialized) : processReceived app board = some (0, board) := by
  unfold processReceived
  rw [Call.get_bind_apply, if_pos fresh]
  rfl

/-- A call during a walk is noted and does nothing else. -/
theorem processReceived_nested [Bus ε] (app : Application g ε) {board : Board g ε}
    (up : board.mac.lifecycle ≠ .uninitialized) (walking : board.mac.receiver.walking = true) :
    processReceived app board = some (0, { board with journal := board.journal.push .walkReentered }) := by
  unfold processReceived walkReceived
  rw [Call.get_bind_apply, if_neg up, Call.get_bind_apply, walking, if_pos rfl]
  rfl

/-- With an application that answers every call comes back. -/
theorem processReceived_returns [Bus ε] {app : Application g ε} (answers : app.Answers) (board : Board g ε) :
    ∃ count after, processReceived app board = some (count, after) := by
  by_cases fresh : board.mac.lifecycle = .uninitialized
  · exact ⟨0, board, processReceived_uninitialized app fresh⟩
  · cases walking : board.mac.receiver.walking with
    | true => exact ⟨0, _, processReceived_nested app fresh walking⟩
    | false =>
      obtain ⟨walked, run⟩ := walk_returns answers g.rx (board.located.2.mac.receiver.ring.oldest board.located.1)
        board.located.2
      rw [processReceived_outermost app fresh walking, run]
      exact ⟨_, _, rfl⟩

theorem located_of_known [Bus ε] {board : Board g ε} {position : Fin g.rx} {address : UInt32} {world : ε}
    (told : Register.currentRxDescriptor.read board.world = (address, world))
    (known : board.mac.receiver.ring.indexOf? address = some position) :
    board.located = (position, { board with
      mac := { board.mac with receiver := { board.mac.receiver with walking := true } }
      world := world }) := by
  rw [located, modifyReceiver_apply, hardwarePosition_apply]
  dsimp only
  rw [told]
  dsimp only
  rw [known, onBus_apply, told]

theorem processReceived_apply [Bus ε] (app : Application g ε) {board : Board g ε} {position : Fin g.rx}
    {address : UInt32} {world : ε} (up : board.mac.lifecycle ≠ .uninitialized)
    (idle : board.mac.receiver.walking = false)
    (told : Register.currentRxDescriptor.read board.world = (address, world))
    (known : board.mac.receiver.ring.indexOf? address = some position) :
    processReceived app board =
      (walk app g.rx (board.mac.receiver.ring.oldest position)
        { board with
          mac := { board.mac with receiver := { board.mac.receiver with walking := true } }
          world := world }).map fun walked =>
        (walked.1.delivered, { walked.2 with
          mac := { walked.2.mac with receiver := { walked.2.mac.receiver with walking := false } }
          world :=
            if walked.1.rearmed then (Register.rxTailPointer.write 0 walked.2.world).2 else walked.2.world }) := by
  rw [processReceived_outermost app up idle, located_of_known told known]
  rfl

theorem processReceived_bench {σ : Type} [Bus σ] (app : Application g (ReceiveBench g σ))
    {board : Board g (ReceiveBench g σ)} (up : board.mac.lifecycle ≠ .uninitialized)
    (idle : board.mac.receiver.walking = false) (base : board.world.ringBase = board.mac.receiver.ring.base) :
    processReceived app board =
      (walk app g.rx (board.mac.receiver.ring.oldest board.world.dma.position)
        { board with mac := { board.mac with receiver := { board.mac.receiver with walking := true } } }).map
        fun walked => (walked.1.delivered, { walked.2 with
          mac := { walked.2.mac with receiver := { walked.2.mac.receiver with walking := false } }
          world :=
            if walked.1.rearmed then (Register.rxTailPointer.write 0 walked.2.world).2 else walked.2.world }) := by
  have told : Register.currentRxDescriptor.read board.world = (board.world.currentAddress, board.world) := by
    simp only [Register.read, Bus.load, Bus.read, if_true]
  have known : board.mac.receiver.ring.indexOf? board.world.currentAddress = some board.world.dma.position := by
    rw [ReceiveBench.currentAddress, base]
    exact board.mac.receiver.ring.indexOf?_slotAddress g.rx_le board.world.dma.position
  exact processReceived_apply app up idle told known

end Board

end EthernetMac
