import EthernetMac.Lifecycle
import EthernetMac.Proofs.Across
import EthernetMac.Proofs.Calls

namespace EthernetMac

namespace Bus

variable {ε κ : Type} {view : ε → κ}

/-- What `view` shows of the surroundings is out of reach of the driver's accesses and delays. -/
structure Untouched [Bus ε] (view : ε → κ) : Prop where
  read : ∀ offset env, view (Bus.read offset env).2 = view env
  write : ∀ offset value env, view (Bus.write offset value env) = view env
  delay : ∀ nanoseconds env, view (Bus.delay nanoseconds env) = view env

namespace Untouched

variable [Bus ε]

theorem load (far : Untouched view) (register : Register) : Keeps view register.read :=
  fun env => far.read register.offset env

theorem store (far : Untouched view) (register : Register) (value : UInt32) : Keeps view (register.write value) :=
  fun env => far.write register.offset value env

theorem update (far : Untouched view) (register : Register) (change : UInt32 → UInt32) :
    Keeps view (register.update change) :=
  fun env => (far.write register.offset _ _).trans (far.read register.offset env)

theorem pause (far : Untouched view) (microseconds : Nat) : Keeps view (Bus.pauseMicros microseconds) :=
  fun env => far.delay _ env

theorem setMode (far : Untouched view) (speed : Speed) (duplex : Duplex) :
    Keeps view (Peripheral.setMode speed duplex) :=
  far.update _ _

theorem isResetComplete (far : Untouched view) : Keeps view Peripheral.isResetComplete :=
  ((far.load _).bind fun _ => .pure _).bind fun _ => .pure _

theorem softReset (far : Untouched view) (timeoutMs : UInt32) : Keeps view (EthernetMac.softReset timeoutMs).run :=
  softReset_across (.keeps view) (far.update .dmaMode _) far.isResetComplete (far.pause _) timeoutMs

theorem configureMac (far : Untouched view) (config : Config) : Keeps view (Board.configureMac config) :=
  (far.store _ _).bind fun _ => ((far.store _ _).bind fun _ => far.store _ _).bind fun _ =>
    (far.store _ _).bind fun _ => (far.store _ _).bind fun _ => (far.store _ _).bind fun _ => far.store _ _

end Untouched

end Bus

namespace Board

variable {g : Geometry} {ε κ : Type} [Bus ε] {view : ε → κ}

/-- Laying out the rings has nothing to do with the PHYs. -/
theorem layOutRings_world (kept : ∀ register ≠ Register.mdioAddress, ∀ value, Bus.Keeps view (register.write value))
    (burst : UInt32) (board : Board g ε) : view (layOutRings burst board).2.world = view board.world := by
  have one (register : Register) (value : UInt32) (env : ε) (other : register ≠ .mdioAddress := by decide) :
      view (register.write value env).2 = view env := kept register other value env
  exact (one .rxTailPointer _ _).trans <| (one .txTailPointer _ _).trans <| (one .rxListAddress _ _).trans <|
    (one .rxRingLength _ _).trans <| (one .txListAddress _ _).trans <| (one .txRingLength _ _).trans <|
    (one .rxControl _ _).trans <| (one .txControl _ _).trans <| one .channelControl _ _

/-- The board once the reset is done, with the surroundings as the reset leaves them. -/
def broughtUp (config : Config) (board : Board g ε) (world : ε) : Board g ε :=
  let laid := (layOutRings config.burst.beats { board with world := (configureMac config world).2 }).2
  { laid with mac := { laid.mac with lifecycle := .initialized } }

theorem init_apply (config : Config) (board : Board g ε) :
    init config board =
      if board.mac.lifecycle = .uninitialized then
        match config.validate with
        | .error fault => (.error (.config fault), board)
        | .ok _ =>
          match (softReset config.resetTimeoutMs).run board.world with
          | (.error fault, world) => (.error (.config fault), { board with world := world })
          | (.ok _, world) => (.ok (), broughtUp config board world)
      else (.error (.config .alreadyInitialized), board) := by
  unfold init
  rw [BoardM.bind_apply, lifecycle_apply]
  by_cases fresh : board.mac.lifecycle = .uninitialized
  · rw [if_neg (fun other => other fresh), if_pos fresh]
    cases config.validate with
    | error fault => rfl
    | ok _ =>
      simp only [BoardM.bind_apply, attempt_apply]
      cases (softReset config.resetTimeoutMs).run board.world with
      | mk outcome world =>
        cases outcome with
        | error fault => rfl
        | ok _ => rfl
  · rw [if_pos fresh, if_neg fresh]
    rfl

/-- An attempt to bring a driver up is refused without any effect, fails with nothing done but the reset, or does
everything. -/
theorem init_cases (config : Config) (board : Board g ε) :
    (∃ failure, init config board = (.error failure, board)) ∨
      board.mac.lifecycle = .uninitialized ∧
        ((∃ failure, init config board =
            (.error failure, { board with world := ((softReset config.resetTimeoutMs).run board.world).2 })) ∨
          init config board =
            (.ok (), broughtUp config board ((softReset config.resetTimeoutMs).run board.world).2)) := by
  rw [init_apply]
  by_cases fresh : board.mac.lifecycle = .uninitialized
  · rw [if_pos fresh]
    cases config.validate with
    | error fault => exact Or.inl ⟨_, rfl⟩
    | ok _ =>
      refine Or.inr ⟨fresh, ?_⟩
      dsimp only
      obtain ⟨outcome, world⟩ := (softReset config.resetTimeoutMs).run board.world
      cases outcome with
      | error fault => exact Or.inl ⟨_, rfl⟩
      | ok _ => exact Or.inr rfl
  · rw [if_neg fresh]
    exact Or.inl ⟨_, rfl⟩

theorem init_ok {config : Config} {board after : Board g ε} (run : init config board = (.ok (), after)) :
    board.mac.lifecycle = .uninitialized ∧
      after = broughtUp config board ((softReset config.resetTimeoutMs).run board.world).2 := by
  rcases init_cases config board with ⟨_, failed⟩ | ⟨fresh, ⟨_, failed⟩ | brought⟩
  · rw [failed] at run
    cases run
  · rw [failed] at run
    cases run
  · rw [brought] at run
    exact ⟨fresh, (Prod.mk.inj run).2.symm⟩

theorem init_error {config : Config} {board after : Board g ε} {failure : Failure}
    (run : init config board = (.error failure, after)) :
    after = board ∨ after = { board with world := ((softReset config.resetTimeoutMs).run board.world).2 } := by
  rcases init_cases config board with ⟨_, failed⟩ | ⟨_, ⟨_, failed⟩ | brought⟩
  · rw [failed] at run
    exact Or.inl (Prod.mk.inj run).2.symm
  · rw [failed] at run
    exact Or.inr (Prod.mk.inj run).2.symm
  · rw [brought] at run
    cases run

theorem init_mac {config : Config} {board after : Board g ε} (run : init config board = (.ok (), after)) :
    after.mac = { board.mac with
      lifecycle := .initialized, receiver := board.mac.receiver.arm, transmitter := board.mac.transmitter.clear } := by
  rw [(init_ok run).2]
  rfl

theorem init_refused {config : Config} {board after : Board g ε} {failure : Failure}
    (run : init config board = (.error failure, after)) : after.mac = board.mac := by
  rcases init_error run with rfl | rfl
  · rfl
  · rfl

theorem init_fresh {config : Config} {board after : Board g ε} (run : init config board = (.ok (), after)) :
    board.mac.lifecycle = .uninitialized :=
  (init_ok run).1

theorem init_world (far : Bus.Untouched view) (config : Config) (board : Board g ε) :
    view (init config board).2.world = view board.world := by
  have reset := far.softReset config.resetTimeoutMs board.world
  rcases init_cases config board with ⟨_, failed⟩ | ⟨_, ⟨_, failed⟩ | brought⟩
  · rw [failed]
  · rw [failed]
    exact reset
  · rw [brought]
    exact (layOutRings_world (fun register _ => far.store register) _ _).trans
      ((far.configureMac config _).trans reset)

theorem start_mac {board after : Board g ε} (ready : board.mac.lifecycle = .initialized)
    (run : start board = (.ok (), after)) : after.mac = { board.mac with lifecycle := .running } := by
  unfold start at run
  rw [BoardM.bind_apply, lifecycle_apply] at run
  dsimp only at run
  rw [ready] at run
  obtain rfl := (Prod.mk.inj run).2
  rfl

theorem start_running {board : Board g ε} (running : board.mac.lifecycle = .running) :
    start board = (.ok (), board) := by
  unfold start
  rw [BoardM.bind_apply, lifecycle_apply, running]
  rfl

theorem start_uninitialized {board : Board g ε} (fresh : board.mac.lifecycle = .uninitialized) :
    start board = (.error (.bus .invalidState), board) := by
  unfold start
  rw [BoardM.bind_apply, lifecycle_apply, fresh]
  rfl

theorem start_world (far : Bus.Untouched view) (board : Board g ε) :
    view (start board).2.world = view board.world := by
  have woken : Bus.Keeps view (do
      Peripheral.acknowledge .everyCause
      Peripheral.enableInterrupts .enabled
      Peripheral.startReception
      Peripheral.startTransmission
      Peripheral.enableReceiver
      Peripheral.enableTransmitter : StateM ε Unit) :=
    (far.store .channelStatus _).bind fun _ => (far.store .interruptEnable _).bind fun _ =>
      (far.update .rxControl _).bind fun _ => (far.update .txControl _).bind fun _ =>
      (far.update .macConfiguration _).bind fun _ => far.update .macConfiguration _
  unfold start
  rw [BoardM.bind_apply, lifecycle_apply]
  dsimp only
  cases board.mac.lifecycle with
  | running => rfl
  | uninitialized => rfl
  | initialized => exact woken board.world
  | stopped => exact woken board.world

theorem stop_refused {board : Board g ε} (idle : board.mac.lifecycle ≠ .running) :
    stop board = (.error (.bus .invalidState), board) := by
  unfold stop
  rw [BoardM.bind_apply, lifecycle_apply, if_neg idle]
  rfl

theorem stop_world (far : Bus.Untouched view) (board : Board g ε) :
    view (stop board).2.world = view board.world := by
  have halted : Bus.Keeps view (do
      Peripheral.stopTransmission
      Peripheral.disableTransmitter
      Peripheral.disableReceiver
      Peripheral.stopReception
      Peripheral.enableInterrupts .empty : StateM ε Unit) :=
    (far.update .txControl _).bind fun _ => (far.update .macConfiguration _).bind fun _ =>
      (far.update .macConfiguration _).bind fun _ => (far.update .rxControl _).bind fun _ =>
      far.store .interruptEnable _
  unfold stop
  rw [BoardM.bind_apply, lifecycle_apply]
  dsimp only
  split
  · exact halted board.world
  · rfl

/-- To start or to stop a driver changes nothing of it but the state of its life, and that only if it was brought up. -/
theorem start_lifecycle (board : Board g ε) : (start board).2.mac = board.mac ∨
    board.mac.lifecycle ≠ .uninitialized ∧ (start board).2.mac = { board.mac with lifecycle := .running } := by
  unfold start
  rw [BoardM.bind_apply, lifecycle_apply]
  dsimp only
  cases board.mac.lifecycle with
  | running => exact Or.inl rfl
  | uninitialized => exact Or.inl rfl
  | initialized => exact Or.inr ⟨by decide, rfl⟩
  | stopped => exact Or.inr ⟨by decide, rfl⟩

theorem stop_lifecycle (board : Board g ε) : (stop board).2.mac = board.mac ∨
    board.mac.lifecycle ≠ .uninitialized ∧ (stop board).2.mac = { board.mac with lifecycle := .stopped } := by
  unfold stop
  rw [BoardM.bind_apply, lifecycle_apply]
  dsimp only
  split
  · rename_i running
    exact Or.inr ⟨by rw [running]; decide, rfl⟩
  · exact Or.inl rfl

end Board

/-- A peripheral at rest: all registers read zero, so that a reset is done as soon as it is asked for. -/
structure RestingPeripheral where

instance : Bus RestingPeripheral where
  read _ rest := (0, rest)
  write _ _ rest := rest
  delay _ rest := rest

/-- An application that takes every frame and does nothing else. -/
def Application.accepting {g : Geometry} {ε : Type} : Application g ε where
  onEvent _ := return .accepted
  onStamp _ _ := return

/-- The smallest rings and blocks. -/
def Geometry.smallest : Geometry where
  rx := 1
  tx := 1
  buffer := 4
  rx_pos := by decide
  rx_le := by decide
  tx_pos := by decide
  tx_le := by decide
  buffer_pos := by decide
  buffer_aligned := by decide
  buffer_le := by decide

/-- The smallest rings on which one slot may be the hardware's and another the software's. -/
def Geometry.pair : Geometry :=
  { Geometry.smallest with
    rx := 2, rx_pos := Nat.two_pos, rx_le := by decide
    tx := 2, tx_pos := Nat.two_pos, tx_le := by decide }

end EthernetMac
