import EthernetMac.Proofs.Receive.Order
import EthernetMac.Proofs.Shared.Frames

namespace EthernetMac

open Board

variable {g : Geometry} {σ : Type}

theorem Board.InHand.init [Bus σ] {config : Config} {placement : Placement}
    {before start : Board g (CellWorld g σ)} (fresh : before.mac = .blank g placement)
    (base : before.world.ringBase = placement.rxRing) (book : before.book = {})
    (run : Board.init config before = (.ok (), start)) : start.InHand := by
  obtain ⟨tracks, _, idle⟩ := Tracks.init fresh base run
  have kept := Board.init_world CellBook.untouched config before
  rw [run] at kept
  have empty : start.book = {} := kept.trans book
  refine ⟨⟨_, _, tracks, fun _ frame awaits => ?_⟩, fun walking => ?_⟩
  · obtain ⟨old, new, split, _⟩ := awaits
    rw [empty] at split
    simp at split
  · rw [idle] at walking
    cases walking

/-- An application that asks for the received frames on every timestamp, and for a completion scan on every change of
the link. -/
def Application.asking [Bus σ] : Application g (CellWorld g σ) where
  onEvent
    | .transmitTimestamp _ => do
      let _ ← processReceived (Stage.shared.tells .accepting)
      return .accepted
    | .linkChanged _ => do
      let _ ← processCompletions (Stage.shared.tells .accepting) 1
      return .accepted
    | _ => return .accepted
  onStamp _ _ := return

namespace Board

/-- A driver that was never used, its receive DMA at slot 0 and its cell free. -/
def bare : Board .smallest (CellWorld .smallest RestingPeripheral) :=
  .untried ⟨0, 0x10000, 0x20000⟩ { ringBase := 0, dma := .fresh Geometry.smallest.firstRx, rest := ⟨{}, {}⟩ }

end Board

/-- A link of the slowest mode. -/
def LinkStatus.slow : LinkStatus := .ofMode .ten .half

end EthernetMac
