import Mathlib.Data.List.Chain
import EthernetMac.Proofs.ControlWords
import EthernetMac.Proofs.Handover
import EthernetMac.Proofs.Nesting

namespace EthernetMac

open Board

variable {g : Geometry} {σ : Type}

abbrev ControlWorld (σ : Type) := Recorded ControlLog (ControlBench σ)

def Board.controls (board : Board g (ControlWorld σ)) : Controls := board.world.rest.controls

/-- What holds of the controls and of the record at any time. -/
structure Board.Controlled (board : Board g (ControlWorld σ)) : Prop where
  controls : board.controls = board.world.record.controls g board.mac.lifecycle
  mode : board.IsUp → board.world.record.mode.isSome = true
  burst : board.IsUp ↔ board.world.record.burst.isSome = true
  chain : board.world.record.states.IsChain Lifecycle.Goes
  last : board.world.record.states.getLast? = some board.mac.lifecycle

namespace Board

/-- Two boards with the same state of the driver's life, the same record and the same controls. -/
structure SameControls (before after : Board g (ControlWorld σ)) : Prop where
  lifecycle : after.mac.lifecycle = before.mac.lifecycle
  record : after.world.record = before.world.record
  controls : after.controls = before.controls

namespace SameControls

variable {before middle after : Board g (ControlWorld σ)}

theorem refl (board : Board g (ControlWorld σ)) : SameControls board board := ⟨rfl, rfl, rfl⟩

theorem trans (one : SameControls before middle) (two : SameControls middle after) : SameControls before after :=
  ⟨two.lifecycle.trans one.lifecycle, two.record.trans one.record, two.controls.trans one.controls⟩

theorem controlled (same : SameControls before after) (held : before.Controlled) : after.Controlled where
  controls := by rw [same.controls, same.record, same.lifecycle, held.controls]
  mode up := by rw [same.record]; exact held.mode (by rwa [IsUp, ← same.lifecycle])
  burst := by rw [same.record, IsUp, same.lifecycle]; exact held.burst
  chain := by rw [same.record]; exact held.chain
  last := by rw [same.record, same.lifecycle]; exact held.last

end SameControls

/-- The board with a new record, and with the state of the driver's life entered in it. -/
def logged (board : Board g (ControlWorld σ)) (log : ControlLog) : Board g (ControlWorld σ) :=
  board.recorded fun _ => log.enter board.mac.lifecycle

/-- The board after an attempt to bring the driver up, with the mode and the burst on record if it succeeded. -/
def initLogged [Bus σ] (config : Config) (board : Board g (ControlWorld σ)) : Board g (ControlWorld σ) :=
  match init config board with
  | (.ok _, after) =>
    after.logged { after.world.record.apply config.speed config.duplex with burst := some config.burst }
  | (.error _, after) => after.logged after.world.record

def startLogged [Bus σ] (board : Board g (ControlWorld σ)) : Board g (ControlWorld σ) :=
  (start board).2.logged (start board).2.world.record

def stopLogged [Bus σ] (board : Board g (ControlWorld σ)) : Board g (ControlWorld σ) :=
  (stop board).2.logged (stop board).2.world.record

def modeLogged [Bus σ] (speed : Speed) (duplex : Duplex) (board : Board g (ControlWorld σ)) :
    Board g (ControlWorld σ) :=
  (onBus (Peripheral.setMode speed duplex) board).2.recorded (·.apply speed duplex)

end Board

theorem Recorded.aloof [Bus σ] :
    Bus.Aloof fun env : ControlWorld σ => (env.record, env.rest.controls) where
  read offset env := congrArg (env.record, ·) (ControlBench.aloof.read offset env.rest)
  write register value env other := congrArg (env.record, ·) (ControlBench.aloof.write register value env.rest other)
  delay nanoseconds env := congrArg (env.record, ·) (ControlBench.aloof.delay nanoseconds env.rest)

/-- What happens besides the calls with upcalls: the hardware does what it likes with all but the controls, and the
driver is called otherwise. While a frame waits for its slot the hardware is alone. -/
inductive ControlMove [Bus σ] : Board g (ControlWorld σ) → Board g (ControlWorld σ) → Prop
  | hardware {before after} : SameControls before after → ControlMove before after
  | init (config board) : ControlMove board (board.initLogged config)
  | start (board) : ControlMove board board.startLogged
  | stop (board) : ControlMove board board.stopLogged
  | setMode (speed duplex board) : ControlMove board (board.modeLogged speed duplex)
  | tryTransmit (bytes options board) : ControlMove board (tryTransmit bytes options board).2
  | transmit {bytes options idle spins before result after} : (∀ board, SameControls board (idle board).2) →
      transmit bytes options idle spins before = some (result, after) → ControlMove before after
  | errand {α : Type} {act : StateM (ControlWorld σ) α} (board) : Errand act → ControlMove board (onBus act board).2

namespace Board

theorem start_controls [Bus σ] {board : Board g (ControlWorld σ)}
    (idle : board.mac.lifecycle = .initialized ∨ board.mac.lifecycle = .stopped) :
    (start board).2.mac.lifecycle = .running ∧ (start board).2.world.record = board.world.record ∧
    (start board).2.controls = {
      mac := board.controls.mac ||| Fields.receiverEnable ||| Fields.transmitterEnable
      tx := board.controls.tx ||| Fields.startTransmission
      rx := board.controls.rx ||| Fields.startReception
      interrupts := DmaStatus.enabled.bits } := by
  unfold start
  rw [BoardM.bind_apply, lifecycle_apply]
  dsimp only
  rcases idle with initialized | stopped
  · rw [initialized]
    exact ⟨rfl, rfl, rfl⟩
  · rw [stopped]
    exact ⟨rfl, rfl, rfl⟩

theorem stop_controls [Bus σ] {board : Board g (ControlWorld σ)} (running : board.mac.lifecycle = .running) :
    (stop board).2.mac.lifecycle = .stopped ∧ (stop board).2.world.record = board.world.record ∧
    (stop board).2.controls = {
      mac := board.controls.mac &&& ~~~Fields.transmitterEnable &&& ~~~Fields.receiverEnable
      tx := board.controls.tx &&& ~~~Fields.startTransmission
      rx := board.controls.rx &&& ~~~Fields.startReception
      interrupts := 0 } := by
  unfold stop
  rw [BoardM.bind_apply, lifecycle_apply, running]
  exact ⟨rfl, rfl, rfl⟩

theorem setMode_controls [Bus σ] (speed : Speed) (duplex : Duplex) (board : Board g (ControlWorld σ)) :
    (onBus (Peripheral.setMode speed duplex) board).2.mac = board.mac ∧
    (onBus (Peripheral.setMode speed duplex) board).2.world.record = board.world.record ∧
    (onBus (Peripheral.setMode speed duplex) board).2.controls = { board.controls with
      mac := board.controls.mac &&& ~~~(Fields.fastEthernet ||| Fields.fullDuplex) |||
        Peripheral.modeBits speed duplex } :=
  ⟨rfl, rfl, rfl⟩

theorem broughtUp_controls [Bus σ] (config : Config) (board : Board g (ControlWorld σ)) (world : ControlWorld σ) :
    (broughtUp config board world).controls = {
      mac := Peripheral.modeBits config.speed config.duplex ||| Fields.checksumOffload
      tx := config.burst.beats <<< Fields.burstShift &&& Fields.burst
      rx := config.burst.beats <<< Fields.burstShift &&& Fields.burst |||
        (UInt32.ofNat g.buffer <<< Fields.bufferSizeShift &&& Fields.bufferSize)
      interrupts := world.rest.controls.interrupts } := rfl

variable {before after : Board g (ControlWorld σ)}

theorem Controlled.logged {log : ControlLog} (held : before.Controlled)
    (states : log.states = before.world.record.states)
    (goes : Lifecycle.Goes before.mac.lifecycle after.mac.lifecycle)
    (controls : after.controls = log.controls g after.mac.lifecycle) (mode : after.IsUp → log.mode.isSome = true)
    (burst : after.IsUp ↔ log.burst.isSome = true) : (after.logged log).Controlled where
  controls := controls
  mode := mode
  burst := burst
  chain := by
    change (log.states ++ [after.mac.lifecycle]).IsChain Lifecycle.Goes
    rw [states, List.isChain_append]
    refine ⟨held.chain, .singleton _, fun x last y first => ?_⟩
    rw [held.last] at last
    rwa [← Option.some.inj last, ← Option.some.inj first]
  last := List.getLast?_concat ..

/-- Nothing but the state of the driver's life is entered, which stays as it is. -/
theorem Controlled.enter (held : before.Controlled) (same : SameControls before after) :
    (after.logged after.world.record).Controlled := by
  have kept := same.controlled held
  exact kept.logged rfl (.stays _) kept.controls kept.mode kept.burst

variable [Bus σ]

theorem Controlled.start (held : before.Controlled) : before.startLogged.Controlled := by
  have still : (Board.start before).2 = before → before.startLogged.Controlled := by
    intro same
    rw [startLogged, same]
    exact held.enter (.refl before)
  have goes (idle : before.mac.lifecycle = .initialized ∨ before.mac.lifecycle = .stopped)
      (way : before.mac.lifecycle.Goes .running) : before.startLogged.Controlled := by
    obtain ⟨running, record, controls⟩ := start_controls idle
    have up : before.IsUp := by rcases idle with here | here <;> rw [IsUp, here] <;> decide
    have rests : before.mac.lifecycle ≠ .running := by rcases idle with here | here <;> rw [here] <;> decide
    refine held.logged (congrArg _ record) (by rwa [running]) ?_ (fun _ => ?_) (iff_of_true ?_ ?_)
    · rw [controls, held.controls, record, running, ControlLog.controls_start _ _ up rests]
    · rw [record]; exact held.mode up
    · rw [IsUp, running]; decide
    · rw [record]; exact held.burst.mp up
  cases life : before.mac.lifecycle with
  | uninitialized => exact still (congrArg Prod.snd (start_uninitialized life))
  | initialized => exact goes (Or.inl life) (life ▸ .start)
  | running => exact still (congrArg Prod.snd (start_running life))
  | stopped => exact goes (Or.inr life) (life ▸ .restart)

theorem Controlled.stop (held : before.Controlled) : before.stopLogged.Controlled := by
  by_cases life : before.mac.lifecycle = .running
  · obtain ⟨stopped, record, controls⟩ := stop_controls life
    have up : before.IsUp := by rw [IsUp, life]; decide
    refine held.logged (congrArg _ record) (by rw [stopped, life]; exact .stop) ?_ (fun _ => ?_) (iff_of_true ?_ ?_)
    · rw [controls, held.controls, record, stopped, life, ControlLog.controls_stop]
    · rw [record]; exact held.mode up
    · rw [IsUp, stopped]; decide
    · rw [record]; exact held.burst.mp up
  · rw [stopLogged, stop_refused life]
    exact held.enter (.refl before)

theorem Controlled.setMode (held : before.Controlled) (speed : Speed) (duplex : Duplex) :
    (before.modeLogged speed duplex).Controlled where
  controls := by
    obtain ⟨mac, record, controls⟩ := setMode_controls speed duplex before
    have applied := ControlLog.controls_mode before.world.record g before.mac.lifecycle speed duplex
    rw [← held.controls, ← controls] at applied
    exact applied
  mode _ := rfl
  burst := held.burst
  chain := held.chain
  last := held.last

theorem Controlled.init (held : before.Controlled) (config : Config) : (before.initLogged config).Controlled := by
  unfold initLogged
  rw [init_apply]
  by_cases fresh : before.mac.lifecycle = .uninitialized
  · rw [if_pos fresh]
    cases config.validate with
    | error fault => exact held.enter (.refl before)
    | ok _ =>
      dsimp only
      have reset := Recorded.aloof.softReset config.resetTimeoutMs before.world
      cases done : (softReset config.resetTimeoutMs).run before.world with
      | mk outcome world =>
        rw [done] at reset
        obtain ⟨record, controls⟩ := Prod.mk.inj reset
        cases outcome with
        | error fault =>
          have same : SameControls before { before with world := world } := ⟨rfl, record, controls⟩
          exact held.enter same
        | ok _ =>
          have none : world.rest.controls.interrupts = 0 := by
            rw [controls]
            change before.controls.interrupts = 0
            rw [held.controls, fresh]
            rfl
          have states : (broughtUp config before world).world.record.states = before.world.record.states :=
            congrArg ControlLog.states record
          refine held.logged states (by rw [fresh]; exact .init) ?_ (fun _ => rfl)
            (iff_of_true (show Lifecycle.initialized ≠ .uninitialized by decide) rfl)
          rw [broughtUp_controls, none]
          exact ControlLog.controls_init ..
  · rw [if_neg fresh]
    exact held.enter (.refl before)

omit [Bus σ] in
theorem SameControls.kept {α : Type} {act : StateM (ControlWorld σ) α}
    (kept : Bus.Keeps (fun env : ControlWorld σ => (env.record, env.rest.controls)) act)
    (board : Board g (ControlWorld σ)) : SameControls board (onBus act board).2 := by
  obtain ⟨record, controls⟩ := Prod.mk.inj (kept board.world)
  exact ⟨rfl, record, controls⟩

theorem SameControls.fillSlot (i : Fin g.tx) (bytes : Array UInt8) (options : TxOptions)
    (board : Board g (ControlWorld σ)) : SameControls board (Board.fillSlot i bytes options board).2 :=
  ⟨rfl, rfl, rfl⟩

theorem SameControls.tryTransmit (bytes : Array UInt8) (options : TxOptions) (board : Board g (ControlWorld σ)) :
    SameControls board (Board.tryTransmit bytes options board).2 := by
  rw [tryTransmit_apply]
  split
  · split
    · exact .refl board
    · split
      · exact .fillSlot _ bytes options board
      · exact .refl board
  · exact .refl board

theorem SameControls.transmit {bytes : Array UInt8} {options : TxOptions} {idle : BoardM g (ControlWorld σ) Unit}
    {spins : Nat} {result : Except Failure UInt16} (turn : ∀ board, SameControls board (idle board).2)
    (run : Board.transmit bytes options idle spins before = some (result, after)) : SameControls before after := by
  rcases transmit_cases (fun board => .single (turn board)) run with
    ⟨failure, rfl, rfl⟩ | ⟨sequence, middle, rfl, running, valid, turns, free, rfl⟩
  · exact .refl _
  · refine .trans ?_ (.fillSlot _ bytes options middle)
    clear run free
    induction turns with
    | refl => exact .refl before
    | tail _ last ih => exact ih.trans last

theorem Controlled.move (held : before.Controlled) (move : ControlMove before after) : after.Controlled := by
  cases move with
  | hardware same => exact same.controlled held
  | init config => exact held.init config
  | start => exact held.start
  | stop => exact held.stop
  | setMode speed duplex => exact held.setMode speed duplex
  | tryTransmit bytes options => exact (SameControls.tryTransmit bytes options before).controlled held
  | transmit turn run => exact (SameControls.transmit turn run).controlled held
  | errand _ errand => exact (SameControls.kept (errand.keeps Recorded.aloof) before).controlled held

/-- The board with the mode of a link on record, if that is what the application is told of. -/
def told (event : Event) (board : Board g (ControlWorld σ)) : Board g (ControlWorld σ) :=
  match event with
  | .linkChanged link => if link.up then board.recorded (·.apply link.speed link.duplex) else board
  | _ => board

end Board

/-- A driver in use by an application that leaves the registers to it. -/
def Stage.control [Bus σ] : Stage g (ControlWorld σ) where
  moves := ControlMove
  tells app := { app with onEvent := fun event board => app.onEvent event (board.told event) }

/-- The enables follow the state of the driver's life, and the rest of the controls what was applied last. -/
structure Board.EnablesAgree (board : Board g (ControlWorld σ)) : Prop where
  running : board.mac.lifecycle = .running ↔ board.controls.AllOn
  idle : board.mac.lifecycle ≠ .running → board.controls.AllOff
  up : board.IsUp → ∃ mode burst, board.world.record.mode = some mode ∧ board.world.record.burst = some burst ∧
    board.controls.Configured mode burst g.buffer
  chain : board.world.record.states.IsChain Lifecycle.Goes
  last : board.world.record.states.getLast? = some board.mac.lifecycle

theorem Board.Controlled.agree {board : Board g (ControlWorld σ)} (held : board.Controlled) : board.EnablesAgree where
  running := by
    rw [held.controls]
    constructor
    · intro running
      rw [running]
      exact ControlLog.controls_running _ g
    · intro on
      by_contra idle
      exact on.1 (ControlLog.controls_idle _ g idle).1
  idle idle := by
    rw [held.controls]
    exact ControlLog.controls_idle _ g idle
  up up := by
    obtain ⟨mode, applied⟩ := Option.isSome_iff_exists.mp (held.mode up)
    obtain ⟨burst, loaded⟩ := Option.isSome_iff_exists.mp (held.burst.mp up)
    rw [held.controls]
    exact ⟨mode, burst, applied, loaded, ControlLog.controls_configured g up applied loaded⟩
  chain := held.chain
  last := held.last

namespace Board

/-- What is controlled stays so. -/
def StaysControlled (before after : Board g (ControlWorld σ)) : Prop := before.Controlled → after.Controlled

/-- Steps of the driver that leave the controls alone. -/
theorem SameControls.spans {step : Board g (ControlWorld σ) → Board g (ControlWorld σ) → Prop}
    (same : ∀ {before after}, step before after → SameControls before after) : Spans step StaysControlled where
  refl _ := id
  trans one two := two ∘ one
  step taken := (same taken).controlled

theorem ScanStep.sameControls {before after : Board g (ControlWorld σ)} (step : ScanStep before after) :
    SameControls before after := by
  cases step with
  | scanning => exact ⟨rfl, rfl, rfl⟩
  | scanned => exact ⟨rfl, rfl, rfl⟩
  | deferred => exact ⟨rfl, rfl, rfl⟩

section Upcalls

variable [Bus σ]

theorem ReceiveStep.sameControls {before after : Board g (ControlWorld σ)} (step : ReceiveStep before after) :
    SameControls before after := by
  cases step with
  | note entry => exact ⟨rfl, rfl, rfl⟩
  | mark flag => exact ⟨rfl, rfl, rfl⟩
  | locate => exact .kept (Recorded.aloof.load _) before
  | gather scratch => exact ⟨rfl, rfl, rfl⟩
  | rearm first count => exact ⟨rfl, rfl, rfl⟩
  | wake => exact .kept (Recorded.aloof.store _ rfl _) before

theorem DispatchStep.sameControls {before after : Board g (ControlWorld σ)} (step : DispatchStep before after) :
    SameControls before after := by
  cases step with
  | note entry => exact ⟨rfl, rfl, rfl⟩
  | mark flag => exact ⟨rfl, rfl, rfl⟩
  | look => exact .kept (Recorded.aloof.load _) before
  | acknowledge causes => exact .kept (Recorded.aloof.store _ rfl _) before

variable {app : Application g (ControlWorld σ)}
  (upcalls : ∀ called back, app.Reacts called back → StaysControlled called back)

include upcalls

theorem completions_controlled (limit : Nat) :
    Call.Ensures StaysControlled (processCompletions (Stage.control.tells app) limit) := by
  refine (SameControls.spans ScanStep.sameControls).processCompletions
    (fun {before after i} selected delivered held => ?_) limit
  have taken : SameControls before (before.taken i) := ⟨rfl, rfl, rfl⟩
  have unwrapped (delivery : Option Callback × TxTimestamp) :
      deliverStamp (Stage.control.tells app) delivery = deliverStamp app delivery := by
    obtain ⟨callback, stamp⟩ := delivery
    cases callback <;> rfl
  rw [unwrapped] at delivered
  exact upcalls _ _ (deliverStamp_reacts delivered) (taken.controlled held)

end Upcalls

end Board

theorem Stage.control_sustains [Bus σ] :
    (Stage.control : Stage g (ControlWorld σ)).Sustains EnablesAgree StaysControlled where
  refl _ := id
  trans one two := two ∘ one
  free not held := absurd held.agree not
  move moved held := held.move moved
  received upcalls :=
    (SameControls.spans ReceiveStep.sameControls).processReceived fun _ _ _ _ run => upcalls _ _ (.event run)
  completions upcalls := completions_controlled upcalls _
  interrupt upcalls :=
    (SameControls.spans DispatchStep.sameControls).interrupt (fun _ _ _ run => upcalls _ _ (.event run))
      (completions_controlled upcalls _)
  poll {app source} monitor reading upcalls := by
    refine LinkMonitor.poll_ensures (R := StaysControlled) (fun one two => two ∘ one)
      (fun board held => held.move (reading board)) ?_ monitor
    intro link before answer after run held
    refine upcalls _ _ (.event run) ?_
    unfold inMode told
    dsimp only
    split
    · exact held.setMode link.speed link.duplex
    · exact held

theorem Board.Controlled.untried (placement : Placement) (rest : σ) :
    (Board.untried placement ⟨{}, ⟨0, 0, 0, 0⟩, rest⟩ : Board g (ControlWorld σ)).Controlled where
  controls := by
    simp [Board.controls, Board.untried, Mac.blank, ControlLog.controls, ControlLog.modeWord, ControlLog.burstWord]
  mode up := absurd rfl up
  burst := iff_of_false (fun up => up rfl) Bool.false_ne_true
  chain := .singleton _
  last := rfl

/-- From a driver that was never used, whose controls are all zero, whatever is called and whatever the hardware does
meanwhile: the enables are on exactly while the driver runs. -/
theorem enables_follow_lifecycle [Bus σ] {placement : Placement} {rest : σ} {after : Board g (ControlWorld σ)}
    (activity : Stage.control.Activity EnablesAgree (Board.untried placement ⟨{}, ⟨0, 0, 0, 0⟩, rest⟩) after) :
    after.EnablesAgree ∧ (after.mac.lifecycle = .running → Board.start after = (.ok (), after)) := by
  have controlled := activity.sustained Stage.control_sustains (.untried placement rest)
  exact ⟨controlled.agree, Board.start_running⟩

/-- Stops the driver and starts it again when it is told of a link. -/
def Application.restarting [Bus σ] : Application g (ControlWorld σ) where
  onEvent
    | .linkChanged _ => do
      Call.quiet fun board => ((), board.stopLogged.startLogged)
      return .accepted
    | _ => return .accepted
  onStamp _ _ := return

theorem Application.restarting_reacts [Bus σ] {called back : Board g (ControlWorld σ)}
    (upcall : restarting.Reacts called back) : Stage.control.Activity EnablesAgree called back := by
  cases upcall with
  | @event event _ answer _ run =>
    cases event with
    | linkChanged link =>
      obtain ⟨_, restarted, stepped, same⟩ := Call.bind_eq_some.mp run
      obtain ⟨_, rfl⟩ := Prod.mk.inj (Option.some.inj stepped)
      obtain ⟨_, rfl⟩ := Prod.mk.inj (Option.some.inj same)
      exact .move (.move (.still called) (.stop called)) (.start _)
    | receiveReady | frameAvailable _ | transmitTimestamp _ =>
      obtain ⟨_, rfl⟩ := Prod.mk.inj (Option.some.inj run)
      exact .still _
  | stamp run =>
    obtain ⟨_, rfl⟩ := Prod.mk.inj (Option.some.inj run)
    exact .still _

/-- A driver that was brought up and started, with nothing around it that moves. -/
def Board.inUse : Board .smallest (ControlWorld RestingPeripheral) :=
  let untried : Board .smallest (ControlWorld RestingPeripheral) :=
    .untried ⟨0, 0x10000, 0x20000⟩ ⟨{}, ⟨0, 0, 0, 0⟩, {}⟩
  (untried.initLogged {}).startLogged

/-- A link comes up at ten megabits, and the application restarts the driver in the middle of the poll. -/
theorem enables_follow_lifecycle_restarting : ∃ answer after,
    ({} : LinkMonitor).poll (return .ofMode .ten .half) (Stage.control.tells .restarting) inUse = some (answer, after) ∧
      after.controls = ⟨0x08000003, 0x200001, 0x200009, 0x8041⟩ ∧
      after.world.record =
        ⟨some (.ten, .half), some .thirtyTwo, [.uninitialized, .initialized, .running, .stopped, .running]⟩ ∧
      after.EnablesAgree ∧ Board.start after = (.ok (), after) := by
  have outcome : (({} : LinkMonitor).poll (return .ofMode .ten .half) (Stage.control.tells .restarting) inUse).map
      (fun result => (result.2.controls, result.2.world.record, result.2.mac.lifecycle)) =
        some (⟨0x08000003, 0x200001, 0x200009, 0x8041⟩, ⟨some (.ten, .half), some .thirtyTwo,
          [.uninitialized, .initialized, .running, .stopped, .running]⟩, .running) := by decide +kernel
  obtain ⟨⟨answer, after⟩, run, told⟩ := Option.map_eq_some_iff.mp outcome
  obtain ⟨controls, record, running⟩ := Prod.mk.inj told |>.imp_right Prod.mk.inj
  have activity : Stage.control.Activity EnablesAgree
      (Board.untried ⟨0, 0x10000, 0x20000⟩ ⟨{}, ⟨0, 0, 0, 0⟩, {}⟩) after := by
    refine .poll {} (.move (.move (.still _) (.init {} _)) (.start _)) ?_
      (fun _ _ _ => Application.restarting_reacts) run
    exact fun board => .hardware (.refl board)
  obtain ⟨agree, started⟩ := enables_follow_lifecycle activity
  exact ⟨answer, after, run, controls, record, agree, started running⟩

end EthernetMac
