import EthernetMac.Clock
import EthernetMac.Mdio
import EthernetMac.Reset

namespace EthernetMac

namespace Bus

variable {ε κ φ ψ α β : Type} {R : ε → ε → Prop} {view : ε → κ}

/-- A relation holds between the surroundings before a computation and those after it. -/
def Across (R : ε → ε → Prop) (act : StateM ε α) : Prop := ∀ env, R env (act env).2

/-- A relation that holds across a computation if it holds across all its parts. -/
structure Composes (R : ε → ε → Prop) : Prop where
  refl : ∀ env, R env env
  trans : ∀ {before middle after}, R before middle → R middle after → R before after

namespace Composes

theorem pure (composes : Composes R) (value : α) : Across R (Pure.pure value : StateM ε α) :=
  fun env => composes.refl env

theorem bind (composes : Composes R) {act : StateM ε α} {rest : α → StateM ε β} (first : Across R act)
    (second : ∀ value, Across R (rest value)) : Across R (act >>= rest) :=
  fun env => composes.trans (first env) (second (act env).1 (act env).2)

theorem sure (composes : Composes R) {act : StateM ε α} (across : Across R act) :
    Across R (Attempt.sure (φ := φ) act).run :=
  composes.bind across fun _ => composes.pure _

theorem andThen (composes : Composes R) {act : Attempt ε φ α} {rest : α → Attempt ε φ β} (first : Across R act.run)
    (second : ∀ value, Across R (rest value).run) : Across R (act >>= rest).run := by
  have continued : ∀ outcome, Across R (ExceptT.bindCont rest outcome) := by
    intro outcome
    cases outcome with
    | ok value => exact second value
    | error fault => exact composes.pure _
  exact composes.bind first continued

end Composes

theorem Across.relabel {tell : φ → ψ} {attempt : Attempt ε φ α} (across : Across R attempt.run) :
    Across R (attempt.relabel tell).run :=
  fun env => across env

def Keeps (view : ε → κ) (act : StateM ε α) : Prop := ∀ env, view (act env).2 = view env

/-- To keep what a view shows is the case of a relation that composes. -/
theorem Composes.keeps (view : ε → κ) : Composes fun before after => view after = view before where
  refl _ := rfl
  trans first second := second.trans first

namespace Keeps

theorem pure (value : α) : Keeps view (Pure.pure value : StateM ε α) := (Composes.keeps view).pure value

theorem bind {act : StateM ε α} {rest : α → StateM ε β} (first : Keeps view act)
    (second : ∀ value, Keeps view (rest value)) : Keeps view (act >>= rest) :=
  (Composes.keeps view).bind first second

theorem sure {act : StateM ε α} (kept : Keeps view act) : Keeps view (Attempt.sure (φ := φ) act).run :=
  (Composes.keeps view).sure kept

theorem andThen {act : Attempt ε φ α} {rest : α → Attempt ε φ β} (first : Keeps view act.run)
    (second : ∀ value, Keeps view (rest value).run) : Keeps view (act >>= rest).run :=
  (Composes.keeps view).andThen first second

theorem relabel {tell : φ → ψ} {attempt : Attempt ε φ α} (kept : Keeps view attempt.run) :
    Keeps view (attempt.relabel tell).run :=
  fun env => kept env

end Keeps

end Bus

open Bus

section Waits

variable {ε : Type} [Bus ε] {R : ε → ε → Prop} (composes : Composes R)

include composes

/-- What holds across the request, the looks and the pauses holds across the whole reset, however it ends. -/
theorem softReset_across (requested : Across R (Peripheral.requestReset : StateM ε Unit))
    (looked : Across R (Peripheral.isResetComplete : StateM ε Bool))
    (paused : Across R (pauseMicros resetPollMicros : StateM ε Unit)) (timeoutMs : UInt32) :
    Across R (softReset timeoutMs : Attempt ε ConfigFault Unit).run := by
  refine composes.andThen (composes.sure requested) fun _ => ?_
  induction resetPolls timeoutMs with
  | zero => exact composes.pure _
  | succ polls ih =>
    refine composes.andThen (composes.sure looked) fun complete => ?_
    cases complete with
    | true => exact composes.pure _
    | false => exact composes.andThen (composes.sure paused) fun _ => ih

theorem Mdio.awaitIdle_across (look : Across R (Register.mdioAddress.read : StateM ε UInt32))
    (paused : Across R (pauseMicros pollMicros : StateM ε Unit)) (pauses : Nat) :
    Across R (awaitIdle pauses : Attempt ε Failure Unit).run := by
  have looked : Across R (Attempt.sure (φ := Failure) (Peripheral.isMdioBusy : StateM ε Bool)).run :=
    composes.sure (composes.bind look fun _ => composes.pure _)
  induction pauses with
  | zero =>
    refine composes.andThen looked fun busy => ?_
    cases busy with
    | true => exact composes.pure _
    | false => exact composes.pure _
  | succ pauses ih =>
    refine composes.andThen looked fun busy => ?_
    cases busy with
    | true => exact composes.andThen (composes.sure paused) fun _ => ih
    | false => exact composes.pure _

namespace Clock

theorem awaitClear_across {register : Register} (look : Across R (register.read : StateM ε UInt32)) (bits : UInt32)
    (polls : Nat) : Across R (awaitClear register bits polls : Attempt ε BusFault Unit).run := by
  induction polls with
  | zero => exact composes.pure _
  | succ polls ih =>
    refine composes.andThen (composes.sure (composes.bind look fun _ => composes.pure _)) fun pending => ?_
    cases pending with
    | true => exact ih
    | false => exact composes.pure _

theorem awaitCommand_across (look : Across R (Register.clockControl.read : StateM ε UInt32)) (bits : UInt32) :
    Across R (awaitCommand bits : Attempt ε BusFault Unit).run :=
  awaitClear_across composes look bits pollLimit

theorem now_across (look : ∀ register : Register, Across R (register.read : StateM ε UInt32)) :
    Across R (now : StateM ε Timestamp) := by
  have nanoseconds : Across R (readNanoseconds .systemNanoseconds : StateM ε UInt32) :=
    composes.bind (look _) fun _ => composes.pure _
  refine composes.bind (look _) fun seconds => composes.bind nanoseconds fun _ => composes.bind (look _) fun again => ?_
  split
  · exact composes.pure _
  · exact composes.bind nanoseconds fun _ => composes.pure _

theorem loadAddend_across (look : Across R (Register.clockControl.read : StateM ε UInt32)) {value : UInt32}
    (stored : Across R (Register.addend.write value : StateM ε Unit))
    (commanded : Across R (command Fields.addendUpdate : StateM ε Unit)) (attempts : Nat) :
    Across R (loadAddend value attempts : Attempt ε BusFault Unit).run := by
  induction attempts with
  | zero => exact composes.pure _
  | succ attempts ih =>
    exact composes.andThen (composes.sure stored) fun _ =>
      composes.andThen (awaitCommand_across composes look _) fun _ =>
        composes.andThen (composes.sure commanded) fun _ => ih

end Clock

end Waits

end EthernetMac
