import EthernetMac.Board

namespace EthernetMac

variable {g : Geometry} {ε α β : Type}

namespace Call

@[simp]
theorem pure_apply (value : α) (board : Board g ε) : (pure value : Call g ε α) board = some (value, board) := rfl

theorem bind_apply (call : Call g ε α) (rest : α → Call g ε β) (board : Board g ε) :
    (call >>= rest) board = (call board).bind fun answer => rest answer.1 answer.2 := by
  change (StateT.bind call rest) board = _
  unfold StateT.bind
  cases call board with
  | none => rfl
  | some answer => rfl

theorem bind_eq_some {call : Call g ε α} {rest : α → Call g ε β} {board : Board g ε} {answer : β × Board g ε} :
    (call >>= rest) board = some answer ↔
      ∃ value middle, call board = some (value, middle) ∧ rest value middle = some answer := by
  rw [bind_apply, Option.bind_eq_some_iff]
  constructor
  · rintro ⟨⟨value, middle⟩, first, second⟩
    exact ⟨value, middle, first, second⟩
  · rintro ⟨value, middle, first, second⟩
    exact ⟨(value, middle), first, second⟩

@[simp]
theorem quiet_bind_apply (act : BoardM g ε α) (rest : α → Call g ε β) (board : Board g ε) :
    (Call.quiet act >>= rest) board = rest (act board).1 (act board).2 := by
  rw [bind_apply]
  rfl

@[simp]
theorem get_bind_apply (rest : Board g ε → Call g ε β) (board : Board g ε) :
    ((get : Call g ε (Board g ε)) >>= rest) board = rest board board := rfl

end Call

namespace BoardM

@[simp]
theorem pure_apply (value : α) (board : Board g ε) : (pure value : BoardM g ε α) board = (value, board) := rfl

theorem bind_apply (act : BoardM g ε α) (rest : α → BoardM g ε β) (board : Board g ε) :
    (act >>= rest) board = rest (act board).1 (act board).2 := rfl

end BoardM

namespace Attempt

theorem bind_apply {φ : Type} (act : Attempt ε φ α) (rest : α → Attempt ε φ β) (env : ε) :
    (act >>= rest).run env =
      match act.run env with
      | (.ok value, after) => (rest value).run after
      | (.error fault, after) => (.error fault, after) := by
  change (ExceptT.bindCont rest (act.run env).1) (act.run env).2 = _
  obtain ⟨outcome, after⟩ := act.run env
  cases outcome with
  | ok value => rfl
  | error fault => rfl

theorem relabel_apply {φ ψ : Type} (tell : φ → ψ) (attempt : Attempt ε φ α) (env : ε) :
    (attempt.relabel tell).run env =
      match attempt.run env with
      | (.ok value, after) => (.ok value, after)
      | (.error fault, after) => (.error (tell fault), after) := by
  change ((attempt.run env).1.mapError tell, (attempt.run env).2) = _
  obtain ⟨outcome, after⟩ := attempt.run env
  cases outcome with
  | ok value => rfl
  | error fault => rfl

end Attempt

namespace Board

@[simp]
theorem lifecycle_apply (board : Board g ε) : lifecycle board = (board.mac.lifecycle, board) := rfl

@[simp]
theorem receiver_apply (board : Board g ε) : receiver board = (board.mac.receiver, board) := rfl

@[simp]
theorem transmitter_apply (board : Board g ε) : transmitter board = (board.mac.transmitter, board) := rfl

@[simp]
theorem modifyReceiver_apply (change : Receiver g → Receiver g) (board : Board g ε) :
    modifyReceiver change board =
      ((), { board with mac := { board.mac with receiver := change board.mac.receiver } }) := rfl

@[simp]
theorem modifyTransmitter_apply (change : Transmitter g → Transmitter g) (board : Board g ε) :
    modifyTransmitter change board =
      ((), { board with mac := { board.mac with transmitter := change board.mac.transmitter } }) := rfl

@[simp]
theorem note_apply (entry : Diagnostic) (board : Board g ε) :
    note entry board = ((), { board with journal := board.journal.push entry }) := rfl

@[simp]
theorem onBus_apply (act : StateM ε α) (board : Board g ε) :
    onBus act board = ((act board.world).1, { board with world := (act board.world).2 }) := rfl

theorem attempt_apply {φ : Type} (act : Attempt ε φ α) (board : Board g ε) :
    attempt act board = ((act.run board.world).1, { board with world := (act.run board.world).2 }) := rfl

end Board

end EthernetMac
