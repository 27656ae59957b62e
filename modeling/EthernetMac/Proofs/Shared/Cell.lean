import EthernetMac.SharedHandler
import EthernetMac.Proofs.Nesting
import EthernetMac.Proofs.Receive.Walk

namespace EthernetMac

open Board

/-- What has come of something that the driver had to tell: the handler behind the cell was told, the cell was in use
and refused it, or a timestamp went to the routine that was registered for it. -/
inductive Notice where
  | told (event : Event)
  | refused (event : Event)
  | called (callback : Callback) (stamp : TxTimestamp)
deriving DecidableEq

namespace Notice

/-- A timestamp that has reached the handler or a registered routine. -/
def isReachedStamp : Notice → Bool
  | told (.transmitTimestamp _) => true
  | called _ _ => true
  | _ => false

def isRefusedStamp : Notice → Bool
  | refused (.transmitTimestamp _) => true
  | _ => false

def isRefusedFrame : Notice → Bool
  | refused (.frameAvailable _) => true
  | _ => false

end Notice

/-- The mark of a shared cell, and the notices so far. -/
structure CellBook where
  held : Bool := false
  notices : List Notice := []

/-- The receive DMA and the rest of the peripheral, with the book of a shared cell. -/
abbrev CellWorld (g : Geometry) (σ : Type) := ReceiveBench g (Recorded CellBook σ)

variable {g : Geometry} {σ : Type}

namespace Board

def book (board : Board g (CellWorld g σ)) : CellBook := board.world.rest.record

def rebooked (change : CellBook → CellBook) (board : Board g (CellWorld g σ)) : Board g (CellWorld g σ) :=
  { board with world := { board.world with rest := board.world.rest.modify change } }

def noticed (notice : Notice) : Board g (CellWorld g σ) → Board g (CellWorld g σ) :=
  rebooked fun book => { book with notices := book.notices ++ [notice] }

def holding (held : Bool) : Board g (CellWorld g σ) → Board g (CellWorld g σ) :=
  rebooked fun book => { book with held := held }

end Board

namespace Application

/-- The application as the handler in the shared cell. What is registered for a timestamp is called past the cell. -/
def shared (app : Application g (CellWorld g σ)) : Application g (CellWorld g σ) where
  onEvent := sharedHandler (return (← get).book.held) (fun held => modify (Board.holding held)) app.onEvent
  onStamp := app.onStamp

/-- The application with a notice of all that the driver tells it. -/
def noticing (app : Application g (CellWorld g σ)) : Application g (CellWorld g σ) where
  onEvent event := do
    let held := (← get).book.held
    modify (Board.noticed (if held then .refused event else .told event))
    app.onEvent event
  onStamp callback stamp := do
    modify (Board.noticed (.called callback stamp))
    app.onStamp callback stamp

end Application

/-- A driver that tells everything to one shared handler. Anything may happen besides that leaves the receive side to
its DMA, the cell and its book alone, and the mark of a running scan as it is. -/
def Stage.shared : Stage g (CellWorld g σ) where
  moves before after := Meanwhile (fun _ => True) before after ∧ after.book = before.book ∧
    after.mac.transmitter.completing = before.mac.transmitter.completing
  tells app := app.shared.noticing

/-- The book is out of reach of the driver's accesses. -/
theorem CellBook.untouched [Bus σ] : Bus.Untouched fun world : CellWorld g σ => world.rest.record where
  read offset world := by
    change (if _ then _ else _ : UInt32 × CellWorld g σ).2.rest.record = _
    split <;> rfl
  write _ _ _ := rfl
  delay _ _ := rfl

theorem Board.ReceiveStep.book [Bus σ] {before after : Board g (CellWorld g σ)} (step : ReceiveStep before after) :
    after.book = before.book := by
  cases step with
  | locate => exact CellBook.untouched.load .currentRxDescriptor before.world
  | wake => exact CellBook.untouched.store .rxTailPointer 0 before.world
  | note | mark | gather | rearm => rfl

theorem Board.DispatchStep.book [Bus σ] {before after : Board g (CellWorld g σ)} (step : DispatchStep before after) :
    after.book = before.book := by
  cases step with
  | look => exact CellBook.untouched.load .channelStatus before.world
  | acknowledge => exact CellBook.untouched.store .channelStatus _ before.world
  | note | mark => rfl

section Telling

variable (app : Application g (CellWorld g σ)) {event : Event} {board before after : Board g (CellWorld g σ)}
  {answer : Disposition}

theorem Stage.shared_free (free : board.book.held = false) :
    (Stage.shared.tells app).onEvent event board =
      (app.onEvent event ((board.noticed (.told event)).holding true)).map fun answered =>
        (answered.1, answered.2.holding false) := by
  change (do
    modify (Board.noticed (if board.book.held then .refused event else .told event))
    app.shared.onEvent event : Call g (CellWorld g σ) Disposition) board = _
  rw [free]
  change app.shared.onEvent event (board.noticed (.told event)) = _
  unfold Application.shared sharedHandler
  have still : (board.noticed (.told event)).book.held = false := free
  change (if (board.noticed (.told event)).book.held = true then _ else _ : Call g (CellWorld g σ) Disposition)
    (board.noticed (.told event)) = _
  rw [still, if_neg Bool.false_ne_true]
  change (app.onEvent event >>= fun answer => do modify (Board.holding false); return answer)
    ((board.noticed (.told event)).holding true) = _
  rw [Call.bind_apply]
  cases app.onEvent event ((board.noticed (.told event)).holding true) with
  | none => rfl
  | some answered => rfl

theorem Stage.shared_held (held : board.book.held = true) :
    (Stage.shared.tells app).onEvent event board = some (.retry, board.noticed (.refused event)) := by
  change (do
    modify (Board.noticed (if board.book.held then .refused event else .told event))
    app.shared.onEvent event : Call g (CellWorld g σ) Disposition) board = _
  rw [held]
  change app.shared.onEvent event (board.noticed (.refused event)) = _
  have still : (board.noticed (.refused event)).book.held = true := held
  unfold Application.shared sharedHandler
  change (if (board.noticed (.refused event)).book.held = true then _ else _ : Call g (CellWorld g σ) Disposition)
    (board.noticed (.refused event)) = _
  rw [still, if_pos rfl]
  rfl

variable {app}

theorem Application.Answers.shared (answers : app.Answers) : (Stage.shared.tells app).Answers := by
  intro event board
  cases held : board.book.held with
  | true => exact ⟨_, Stage.shared_held app held⟩
  | false =>
    obtain ⟨answered, upcall⟩ := answers event ((board.noticed (.told event)).holding true)
    rw [Stage.shared_free app held, upcall]
    exact ⟨_, rfl⟩

/-- An event is refused by a cell that is in use, and the handler is told of it otherwise. -/
theorem Stage.shared_cases (run : (Stage.shared.tells app).onEvent event before = some (answer, after)) :
    (before.book.held = true ∧ answer = .retry ∧ after = before.noticed (.refused event)) ∨
      before.book.held = false ∧ ∃ back, app.onEvent event ((before.noticed (.told event)).holding true) =
        some (answer, back) ∧ after = back.holding false := by
  cases held : before.book.held with
  | true =>
    rw [shared_held app held] at run
    obtain ⟨rfl, rfl⟩ := Prod.mk.inj (Option.some.inj run)
    exact Or.inl ⟨rfl, rfl, rfl⟩
  | false =>
    rw [shared_free app held] at run
    obtain ⟨⟨_, back⟩, upcall, same⟩ := Option.map_eq_some_iff.mp run
    obtain ⟨rfl, rfl⟩ := Prod.mk.inj same
    exact Or.inr ⟨rfl, back, upcall, rfl⟩

end Telling

/-- On the way from one board to another there were only such notices as are allowed, and the cell is left as it was. -/
structure Board.Notes (allowed : Notice → Prop) (before after : Board g (CellWorld g σ)) : Prop where
  held : after.book.held = before.book.held
  fresh : ∃ fresh, after.book.notices = before.book.notices ++ fresh ∧ ∀ notice ∈ fresh, allowed notice

namespace Board.Notes

variable {allowed : Notice → Prop} {before middle after : Board g (CellWorld g σ)}

theorem of_book (same : after.book = before.book) : Notes allowed before after :=
  ⟨by rw [same], [], by rw [same, List.append_nil], nofun⟩

theorem trans (one : Notes allowed before middle) (two : Notes allowed middle after) : Notes allowed before after := by
  obtain ⟨earlier, begun, first⟩ := one.fresh
  obtain ⟨later, done, second⟩ := two.fresh
  refine ⟨two.held.trans one.held, earlier ++ later, by rw [done, begun, List.append_assoc], fun notice among => ?_⟩
  exact (List.mem_append.mp among).elim (first notice) (second notice)

theorem noticed {notice : Notice} (fits : allowed notice) (board : Board g (CellWorld g σ)) :
    Notes allowed board (board.noticed notice) :=
  ⟨rfl, [notice], rfl, fun _ among => List.mem_singleton.mp among ▸ fits⟩

/-- While the handler is at work the cell is marked, and it is left as it was found. -/
theorem event {app : Application g (CellWorld g σ)} {event : Event} {answer : Disposition}
    (refused : allowed (.refused event)) (told : allowed (.told event))
    (upcall : ∀ back, before.book.held = false →
      app.onEvent event ((before.noticed (.told event)).holding true) = some (answer, back) →
      Notes allowed ((before.noticed (.told event)).holding true) back)
    (run : (Stage.shared.tells app).onEvent event before = some (answer, after)) : Notes allowed before after := by
  rcases Stage.shared_cases run with ⟨held, rfl, rfl⟩ | ⟨free, back, called, rfl⟩
  · exact .noticed refused before
  · obtain ⟨fresh, grown, fits⟩ := (upcall back free called).fresh
    refine ⟨free.symm, .told event :: fresh, ?_, fun notice among => ?_⟩
    · change back.book.notices = _
      rw [grown]
      exact List.append_assoc ..
    · rcases List.mem_cons.mp among with rfl | later
      · exact told
      · exact fits notice later

end Board.Notes

end EthernetMac
