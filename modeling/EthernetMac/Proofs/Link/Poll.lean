import EthernetMac.LinkMonitor
import EthernetMac.Proofs.Upkeep

namespace EthernetMac

variable {g : Geometry} {ε : Type}

namespace LinkStatus

/-- The link in the mode of another one, if there is one. -/
def inModeOf (link : LinkStatus) : Option LinkStatus → LinkStatus
  | none => link
  | some other => { link with speed := other.speed, duplex := other.duplex }

theorem inModeOf_up (link : LinkStatus) (other : Option LinkStatus) : (link.inModeOf other).up = link.up := by
  cases other with
  | none => rfl
  | some _ => rfl

end LinkStatus

/-- The board with the MAC in the mode of a link, if the link is up. -/
def Board.inMode [Bus ε] (board : Board g ε) (link : LinkStatus) : Board g ε :=
  if link.up then (onBus (Peripheral.setMode link.speed link.duplex) board).2 else board

namespace LinkMonitor

theorem change?_eq (monitor : LinkMonitor) (link : LinkStatus) :
    monitor.change? link =
      if monitor.last.map LinkStatus.up = some link.up then none
      else some (if link.up then link else link.inModeOf monitor.last) := by
  unfold change?
  cases monitor.last with
  | none => simp [LinkStatus.inModeOf]
  | some last =>
    simp only [Option.map_some, Option.some.injEq, LinkStatus.inModeOf]
    split
    · rfl
    · split <;> rfl

theorem change?_eq_none {monitor : LinkMonitor} {link : LinkStatus} :
    monitor.change? link = none ↔ monitor.last.map LinkStatus.up = some link.up := by
  rw [change?_eq]
  simp

theorem change?_eq_some {monitor : LinkMonitor} {link news : LinkStatus} :
    monitor.change? link = some news ↔
      monitor.last.map LinkStatus.up ≠ some link.up ∧
        news = if link.up then link else link.inModeOf monitor.last := by
  rw [change?_eq]
  split
  · rename_i same
    simp [same]
  · rename_i other
    simp only [Option.some.injEq, ne_eq, other, not_false_eq_true, true_and]
    exact eq_comm

variable [Bus ε]

theorem observe_apply (monitor : LinkMonitor) (source : Attempt ε Failure LinkStatus) (board : Board g ε) :
    monitor.observe source board =
      match Board.attempt source board with
      | (.error failure, read) => (.error failure, read)
      | (.ok link, read) =>
        match monitor.change? link with
        | none => (.ok none, read)
        | some news => (.ok (some news), read.inMode news) := by
  unfold observe
  rw [BoardM.bind_apply]
  cases Board.attempt source board with
  | mk result read =>
    cases result with
    | error failure => rfl
    | ok link =>
      dsimp only
      cases monitor.change? link with
      | none => rfl
      | some news =>
        unfold Board.inMode
        cases up : news.up with
        | false => simp only [up, Bool.false_eq_true, if_false]; rfl
        | true => simp only [up, if_true]; rfl

/-- What a poll comes to, from what it reads. -/
inductive Comes (monitor : LinkMonitor) (app : Application g ε) :
    Except Failure LinkStatus × Board g ε → (LinkMonitor × Except Failure Bool) × Board g ε → Prop
  | failed (failure read) : Comes monitor app (.error failure, read) ((monitor, .error failure), read)
  | unchanged {link} (read) : monitor.change? link = none →
      Comes monitor app (.ok link, read) ((monitor, .ok false), read)
  | told {link news read answer after} : monitor.change? link = some news →
      app.onEvent (.linkChanged news) (read.inMode news) = some (answer, after) →
      Comes monitor app (.ok link, read) (({ last := some news }, .ok true), after)

theorem poll_comes {monitor : LinkMonitor} {source : Attempt ε Failure LinkStatus} {app : Application g ε}
    {before : Board g ε} {answer : (LinkMonitor × Except Failure Bool) × Board g ε}
    (run : monitor.poll source app before = some answer) : monitor.Comes app (Board.attempt source before) answer := by
  unfold poll at run
  rw [Call.quiet_bind_apply, observe_apply] at run
  cases attempted : Board.attempt source before with
  | mk result middle =>
    rw [attempted] at run
    cases result with
    | error failure =>
      obtain rfl := Option.some.inj run
      exact .failed failure middle
    | ok link =>
      dsimp only at run
      cases change : monitor.change? link with
      | none =>
        rw [change] at run
        obtain rfl := Option.some.inj run
        exact .unchanged middle change
      | some news =>
        rw [change] at run
        obtain ⟨disposition, back, upcall, same⟩ := Call.bind_eq_some.mp run
        obtain rfl := Option.some.inj same
        exact .told change upcall

/-- A poll reads the link and, if there is news, tells the application of it once the MAC is in the mode. -/
theorem poll_ensures {R : Board g ε → Board g ε → Prop} {app : Application g ε} {source : Attempt ε Failure LinkStatus}
    (trans : ∀ {before middle after}, R before middle → R middle after → R before after)
    (read : ∀ board, R board (Board.attempt source board).2)
    (told : ∀ {link before answer after},
      app.onEvent (.linkChanged link) (before.inMode link) = some (answer, after) → R before after)
    (monitor : LinkMonitor) : Call.Ensures R (monitor.poll source app) := by
  intro before value after run
  have first := read before
  have outcome := poll_comes run
  generalize Board.attempt source before = reading at first outcome
  cases outcome with
  | failed failure => exact first
  | unchanged _ same => exact first
  | told change upcall => exact trans first (told upcall)

end LinkMonitor

end EthernetMac
