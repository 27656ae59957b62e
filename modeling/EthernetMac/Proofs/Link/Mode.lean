import Mathlib.Data.List.DropRight
import EthernetMac.Proofs.Enables

namespace EthernetMac

open Board

variable {g : Geometry} {σ : Type}

namespace LinkStatus

/-- How the link came up, if it is up: what was read first since it was last read to be down. -/
def cameUp? (readings : List LinkStatus) : Option LinkStatus := (readings.rtakeWhile LinkStatus.up).head?

theorem cameUp?_concat (readings : List LinkStatus) (link : LinkStatus) :
    cameUp? (readings ++ [link]) = if link.up then (cameUp? readings).or (some link) else none := by
  unfold cameUp?
  split
  · rename_i up
    rw [List.rtakeWhile_concat_pos _ _ _ up, List.head?_append]
    rfl
  · rename_i down
    rw [List.rtakeWhile_concat_neg _ _ _ down]
    rfl

example :
    cameUp? [.ofMode .hundred .full, {}, .ofMode .ten .half, .ofMode .hundred .half] = some (.ofMode .ten .half) := by
  decide

end LinkStatus

/-- The mode in which the MAC is. -/
def Controls.macMode (controls : Controls) : UInt32 :=
  controls.mac &&& (Fields.fastEthernet ||| Fields.fullDuplex)

/-- A source of readings that leaves the mode of the MAC alone. -/
def Attempt.SparesMode (source : Attempt (ControlWorld σ) Failure LinkStatus) : Prop :=
  Bus.Keeps (fun env => env.rest.controls.macMode) source.run

namespace Board

def macMode (board : Board g (ControlWorld σ)) : UInt32 := board.controls.macMode

theorem macMode_set [Bus σ] (speed : Speed) (duplex : Duplex) (board : Board g (ControlWorld σ)) :
    (onBus (Peripheral.setMode speed duplex) board).2.macMode = Peripheral.modeBits speed duplex := by
  obtain ⟨-, -, controls⟩ := setMode_controls speed duplex board
  have within : Peripheral.modeBits speed duplex &&& (Fields.fastEthernet ||| Fields.fullDuplex) =
      Peripheral.modeBits speed duplex := by
    cases speed <;> cases duplex <;> decide
  rw [macMode, controls, Controls.macMode, Descriptor.or_and, UInt32.and_assoc, UInt32.not_and_self, UInt32.and_zero,
    UInt32.zero_or, within]

theorem macMode_start [Bus σ] (board : Board g (ControlWorld σ)) : (Board.start board).2.macMode = board.macMode := by
  have goes (idle : board.mac.lifecycle = .initialized ∨ board.mac.lifecycle = .stopped) :
      (Board.start board).2.macMode = board.macMode := by
    obtain ⟨-, -, controls⟩ := start_controls idle
    have apart : (Fields.receiverEnable ||| Fields.transmitterEnable) &&&
        (Fields.fastEthernet ||| Fields.fullDuplex) = 0 := by
      decide
    rw [macMode, controls, Controls.macMode, UInt32.or_assoc, Descriptor.or_and, apart, UInt32.or_zero]
    rfl
  cases life : board.mac.lifecycle with
  | uninitialized => rw [start_uninitialized life]
  | initialized => exact goes (Or.inl life)
  | running => rw [start_running life]
  | stopped => exact goes (Or.inr life)

theorem macMode_stop [Bus σ] (board : Board g (ControlWorld σ)) : (Board.stop board).2.macMode = board.macMode := by
  by_cases running : board.mac.lifecycle = .running
  · obtain ⟨-, -, controls⟩ := stop_controls running
    have apart : ~~~Fields.transmitterEnable &&& (~~~Fields.receiverEnable &&&
        (Fields.fastEthernet ||| Fields.fullDuplex)) = Fields.fastEthernet ||| Fields.fullDuplex := by
      decide
    rw [macMode, controls, Controls.macMode, UInt32.and_assoc, UInt32.and_assoc, apart]
    rfl
  · rw [stop_refused running]

end Board

theorem Attempt.SparesMode.pure (link : LinkStatus) :
    (return link : Attempt (ControlWorld σ) Failure LinkStatus).SparesMode := fun _ => rfl

/-- To read the link from its PHY has nothing to do with the mode. -/
theorem Phy.linkStatus_sparesMode [Bus σ] (phy : Phy) :
    (phy.linkStatus : Attempt (ControlWorld σ) Failure LinkStatus).SparesMode := fun env =>
  congrArg (fun seen => Controls.macMode seen.2) (phy.linkStatus_keeps Recorded.aloof env)

/-- An application that leaves the mode of the MAC alone when it is called. -/
def Application.SparesMode (app : Application g (ControlWorld σ)) : Prop :=
  ∀ called back, app.Reacts called back → back.macMode = called.macMode

/-- A watch over a link from its first poll on: the board and the monitor as they are, and all that was read of the
link. In between the driver is started and stopped, and whatever else happens leaves the mode of the MAC alone. -/
inductive LinkWatch [Bus σ] : Board g (ControlWorld σ) → LinkMonitor → List LinkStatus → Prop
  | fresh (board) : LinkWatch board {} []
  | poll {before monitor readings source app next result after} : LinkWatch before monitor readings →
      source.SparesMode →
      Application.SparesMode app →
      monitor.poll source app before = some ((next, result), after) →
      LinkWatch after next (readings ++ (Board.attempt source before).1.toOption.toList)
  | start {board monitor readings} : LinkWatch board monitor readings →
      LinkWatch (Board.start board).2 monitor readings
  | stop {board monitor readings} : LinkWatch board monitor readings → LinkWatch (Board.stop board).2 monitor readings
  | aside {before monitor readings} (after) : LinkWatch before monitor readings → after.macMode = before.macMode →
      LinkWatch after monitor readings

/-- The monitor knows how the link came up, and the MAC is in that mode. -/
structure Board.Follows (board : Board g (ControlWorld σ)) (monitor : LinkMonitor) (readings : List LinkStatus) :
    Prop where
  current : monitor.last.filter LinkStatus.up = LinkStatus.cameUp? readings
  mode : ∀ link, LinkStatus.cameUp? readings = some link → board.macMode = Peripheral.modeBits link.speed link.duplex

namespace Board.Follows

variable [Bus σ] {before after : Board g (ControlWorld σ)} {monitor next : LinkMonitor} {readings : List LinkStatus}

omit [Bus σ] in
theorem aside (follows : before.Follows monitor readings) (same : after.macMode = before.macMode) :
    after.Follows monitor readings where
  current := follows.current
  mode link up := same.trans (follows.mode link up)

omit [Bus σ] in
/-- A reading of which there is nothing to tell. -/
theorem unchanged {link : LinkStatus} (follows : before.Follows monitor readings)
    (still : monitor.change? link = none) : before.Follows monitor (readings ++ [link]) := by
  obtain ⟨last, known, same⟩ := Option.map_eq_some_iff.mp (LinkMonitor.change?_eq_none.mp still)
  have kept : LinkStatus.cameUp? (readings ++ [link]) = LinkStatus.cameUp? readings := by
    rw [LinkStatus.cameUp?_concat, ← follows.current, known]
    cases up : link.up with
    | true => simp [Option.filter, same, up]
    | false => simp [Option.filter, same, up]
  exact ⟨kept ▸ follows.current, kept ▸ follows.mode⟩

theorem told {link news : LinkStatus} (follows : before.Follows monitor readings)
    (change : monitor.change? link = some news) : (before.inMode news).Follows ⟨some news⟩ (readings ++ [link]) := by
  obtain ⟨other, what⟩ := LinkMonitor.change?_eq_some.mp change
  cases up : link.up with
  | true =>
    rw [if_pos up] at what
    subst what
    have fresh : LinkStatus.cameUp? readings = none := by
      rw [← follows.current, Option.filter_eq_none_iff]
      intro last known here
      exact other (by rw [known, up, ← here]; rfl)
    have came : LinkStatus.cameUp? (readings ++ [news]) = some news := by
      rw [LinkStatus.cameUp?_concat, if_pos up, fresh]
      rfl
    refine ⟨by rw [came, Option.filter_some, if_pos up], fun link same => ?_⟩
    obtain rfl := Option.some.inj (came.symm.trans same)
    rw [inMode, if_pos up]
    exact macMode_set ..
  | false =>
    rw [if_neg (by simp [up])] at what
    have gone : LinkStatus.cameUp? (readings ++ [link]) = none := by
      rw [LinkStatus.cameUp?_concat, if_neg (by simp [up])]
    have down : news.up = false := by rw [what, LinkStatus.inModeOf_up, up]
    exact ⟨by rw [gone, Option.filter_some, if_neg (by simp [down])], fun link same => by rw [gone] at same; cases same⟩

theorem polled {source : Attempt (ControlWorld σ) Failure LinkStatus} {app : Application g (ControlWorld σ)}
    {result : Except Failure Bool} (follows : before.Follows monitor readings)
    (reading : source.SparesMode)
    (upcalls : app.SparesMode)
    (run : monitor.poll source app before = some ((next, result), after)) :
    after.Follows next (readings ++ (Board.attempt source before).1.toOption.toList) := by
  have read : (Board.attempt source before).2.Follows monitor readings := follows.aside (reading before.world)
  have outcome := LinkMonitor.poll_comes run
  generalize Board.attempt source before = answer at read outcome ⊢
  cases outcome with
  | failed failure => exact (List.append_nil readings).symm ▸ read
  | unchanged _ still => exact read.unchanged still
  | told change upcall => exact (read.told change).aside (upcalls _ _ (.event upcall))

end Board.Follows

theorem LinkWatch.follows [Bus σ] {board : Board g (ControlWorld σ)} {monitor : LinkMonitor}
    {readings : List LinkStatus} (watch : LinkWatch board monitor readings) : board.Follows monitor readings := by
  induction watch with
  | fresh board => exact ⟨rfl, fun link came => by cases came⟩
  | poll _ reading upcalls run ih => exact ih.polled reading upcalls run
  | start _ ih => exact ih.aside (macMode_start _)
  | stop _ ih => exact ih.aside (macMode_stop _)
  | aside after _ same ih => exact ih.aside same

/-- When a poll succeeds and the link is up, the MAC is in the mode in which the link came up, and that is what the
monitor says. -/
theorem mode_in_which_link_came_up [Bus σ] {before after : Board g (ControlWorld σ)} {monitor next : LinkMonitor}
    {readings : List LinkStatus} {source : Attempt (ControlWorld σ) Failure LinkStatus}
    {app : Application g (ControlWorld σ)} {news : Bool} (watch : LinkWatch before monitor readings)
    (reading : source.SparesMode)
    (upcalls : app.SparesMode)
    (run : monitor.poll source app before = some ((next, .ok news), after)) :
    ∃ link, (Board.attempt source before).1 = .ok link ∧ (link.up = true →
      ∃ mode, LinkStatus.cameUp? (readings ++ [link]) = some mode ∧ next.last = some mode ∧
        after.macMode = Peripheral.modeBits mode.speed mode.duplex) := by
  have follows := watch.follows.polled reading upcalls run
  obtain ⟨link, read⟩ : ∃ link, (Board.attempt source before).1 = .ok link := by
    have outcome := LinkMonitor.poll_comes run
    generalize Board.attempt source before = answer at outcome ⊢
    cases outcome with
    | unchanged _ _ => exact ⟨_, rfl⟩
    | told _ _ => exact ⟨_, rfl⟩
  rw [read] at follows
  refine ⟨link, read, fun up => ?_⟩
  obtain ⟨mode, came⟩ : ∃ mode, LinkStatus.cameUp? (readings ++ [link]) = some mode := by
    rw [LinkStatus.cameUp?_concat, if_pos up]
    cases LinkStatus.cameUp? readings with
    | none => exact ⟨link, rfl⟩
    | some mode => exact ⟨mode, rfl⟩
  have current := follows.current.trans came
  exact ⟨mode, came, (Option.filter_eq_some_iff.mp current).1, follows.mode mode came⟩

theorem Application.accepting_sparesMode : (accepting : Application g (ControlWorld σ)).SparesMode :=
  fun _ _ upcall => by rw [accepting_reacts upcall]

theorem Application.restarting_sparesMode [Bus σ] : (restarting : Application g (ControlWorld σ)).SparesMode := by
  intro called back upcall
  cases upcall with
  | @event event _ answer _ run =>
    cases event with
    | linkChanged link =>
      obtain ⟨_, restarted, stepped, same⟩ := Call.bind_eq_some.mp run
      obtain ⟨_, rfl⟩ := Prod.mk.inj (Option.some.inj stepped)
      obtain ⟨_, rfl⟩ := Prod.mk.inj (Option.some.inj same)
      exact (macMode_start called.stopLogged).trans (macMode_stop called)
    | receiveReady | frameAvailable _ | transmitTimestamp _ =>
      obtain ⟨_, rfl⟩ := Prod.mk.inj (Option.some.inj run)
      rfl
  | stamp run =>
    obtain ⟨_, rfl⟩ := Prod.mk.inj (Option.some.inj run)
    rfl

/-- A link is down, and then up at ten megabits, whereupon the application restarts the driver; the next time it is read
it is up at a hundred. -/
theorem mode_in_which_link_came_up_slow : ∃ before after : Board .smallest (ControlWorld RestingPeripheral),
    (⟨some ⟨true, .ten, .half⟩⟩ : LinkMonitor).poll (return ⟨true, .hundred, .full⟩) .accepting before =
      some ((⟨some ⟨true, .ten, .half⟩⟩, .ok false), after) ∧ after.macMode = Peripheral.modeBits .ten .half := by
  have down : LinkWatch (Board.stop inUse).2 ⟨some {}⟩ [{}] :=
    .stop (.poll (.fresh inUse) (Phy.linkStatus_sparesMode ⟨0, 1⟩) Application.accepting_sparesMode rfl)
  obtain ⟨middle, run⟩ : ∃ middle, (⟨some {}⟩ : LinkMonitor).poll (return ⟨true, .ten, .half⟩) .restarting
      (Board.stop inUse).2 = some ((⟨some ⟨true, .ten, .half⟩⟩, .ok true), middle) := ⟨_, rfl⟩
  have up := down.poll (.pure ⟨true, .ten, .half⟩) Application.restarting_sparesMode run
  obtain ⟨after, last⟩ : ∃ after, (⟨some ⟨true, .ten, .half⟩⟩ : LinkMonitor).poll (return ⟨true, .hundred, .full⟩)
      .accepting middle = some ((⟨some ⟨true, .ten, .half⟩⟩, .ok false), after) := ⟨_, rfl⟩
  obtain ⟨link, read, came⟩ := mode_in_which_link_came_up up (.pure _) Application.accepting_sparesMode last
  obtain rfl : ⟨true, .hundred, .full⟩ = link := Except.ok.inj read
  obtain ⟨mode, -, current, programmed⟩ := came rfl
  obtain rfl : ⟨true, .ten, .half⟩ = mode := Option.some.inj current
  exact ⟨middle, after, last, programmed⟩

/-- A link that is faster the first time it is read than the second time, and up both times. -/
theorem mode_change_unnoticed :
    let fast : LinkStatus := .ofMode .hundred .full
    let slow : LinkStatus := .ofMode .ten .half
    ∃ first second : Board .smallest (ControlWorld RestingPeripheral),
      ({} : LinkMonitor).poll (return fast) .accepting (.untried ⟨0, 0x10000, 0x20000⟩ ⟨{}, ⟨0, 0, 0, 0⟩, {}⟩) =
        some ((⟨some fast⟩, .ok true), first) ∧
      (⟨some fast⟩ : LinkMonitor).poll (return slow) .accepting first = some ((⟨some fast⟩, .ok false), second) ∧
      second.macMode ≠ Peripheral.modeBits slow.speed slow.duplex :=
  ⟨_, _, rfl, rfl, by decide⟩

end EthernetMac
