import EthernetMac.Event

namespace EthernetMac

/-- A value that one user at a time may work on. -/
structure SharedCell (α : Type) where
  content : α
  held : Bool := false
deriving Repr

namespace SharedCell

variable {α β : Type}

/-- Works on the value, unless somebody else does already. The work sees the cell held. -/
def tryWith (cell : SharedCell α) (work : α → β × α) : Option β × SharedCell α :=
  if cell.held then (none, cell)
  else
    let (result, content) := work cell.content
    (some result, { cell with content := content })

end SharedCell

/-- A handler that several callers share. An event that arrives while the handler is at work is refused, to be tried
again; `isHeld` and `hold` look at and set the mark of the work. -/
def sharedHandler {m : Type → Type} [Monad m] (isHeld : m Bool) (hold : Bool → m Unit)
    (handler : Event → m Disposition) (event : Event) : m Disposition := do
  if ← isHeld then
    return .retry
  else
    hold true
    let answer ← handler event
    hold false
    return answer

end EthernetMac
