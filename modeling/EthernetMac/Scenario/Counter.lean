import EthernetMac.SharedHandler

namespace EthernetMac

/-- An application that counts events and keeps the tags of its transmit timestamps. -/
structure Counter where
  events : Nat := 0
  tags : List UInt32 := []
deriving DecidableEq, Repr, Inhabited

def Counter.handle (event : Event) (counter : Counter) : Disposition × Counter :=
  match event with
  | .transmitTimestamp stamp => (.dropped, { events := counter.events + 1, tags := counter.tags ++ [stamp.tag] })
  | _ => (.accepted, { counter with events := counter.events + 1 })

/-- A step on a counter that is shared. A nested one is taken while somebody works on the counter. -/
inductive CellStep where
  | event (event : Event)
  | nestedEvent (event : Event)
  | work (add : Nat)
  | tryWork
  | nestedTry
  | describe

inductive CellReply where
  | disposition (answer : Disposition)
  | counter (counter : Counter)
  | events (count : Option Nat)
  | description

namespace SharedCounter

def offer (event : Event) : StateM (SharedCell Counter) Disposition :=
  sharedHandler (return (← get).held) (fun held => modify fun cell => { cell with held := held })
    (fun event => modifyGet fun cell =>
      let (answer, content) := cell.content.handle event
      (answer, { cell with content := content }))
    event

def nested {α : Type} (act : StateM (SharedCell Counter) α) : StateM (SharedCell Counter) α := do
  modify fun cell => { cell with held := true }
  let result ← act
  modify fun cell => { cell with held := false }
  return result

def tryEvents : StateM (SharedCell Counter) (Option Nat) :=
  modifyGet fun cell => cell.tryWith fun counter => (counter.events, counter)

def runStep : CellStep → StateM (SharedCell Counter) CellReply
  | .event event => return .disposition (← offer event)
  | .nestedEvent event => return .disposition (← nested (offer event))
  | .work add => do
    modify fun cell => { cell with content := { cell.content with events := cell.content.events + add } }
    return .counter (← get).content
  | .tryWork => return .events (← tryEvents)
  | .nestedTry => return .events (← nested tryEvents)
  | .describe => return .description

def run (steps : List CellStep) : List CellReply :=
  ((steps.mapM runStep).run { content := {} }).1

end SharedCounter

end EthernetMac
