import EthernetMac.Proofs.Invariance
import EthernetMac.Proofs.Lockstep
import EthernetMac.Proofs.Link.Poll

namespace EthernetMac

variable {g : Geometry} {ε α β : Type}

/-- What the doings of an application take place in: what may happen to the board besides its calls of the driver, and
how it is told of events. -/
structure Stage (g : Geometry) (ε : Type) where
  moves : Board g ε → Board g ε → Prop
  tells : Application g ε → Application g ε

/-- The doings of an application from one board to another, while something is `held`: the calls of the driver that call
it, and moves of the stage between them. What such a call calls is known to be an activity again only if it is called on
a board on which `held` is the case. -/
inductive Stage.Activity [Bus ε] (s : Stage g ε) (held : Board g ε → Prop) : Board g ε → Board g ε → Prop
  | still (board) : Activity s held board board
  | move {start before after} : Activity s held start before → s.moves before after → Activity s held start after
  | received {start before app count after} : Activity s held start before →
      (∀ called back, held called → Application.Reacts app called back → Activity s held called back) →
      Board.processReceived (s.tells app) before = some (count, after) → Activity s held start after
  | completions {start before app limit count after} : Activity s held start before →
      (∀ called back, held called → Application.Reacts app called back → Activity s held called back) →
      Board.processCompletions (s.tells app) limit before = some (count, after) → Activity s held start after
  | interrupt {start before app limit status after} : Activity s held start before →
      (∀ called back, held called → Application.Reacts app called back → Activity s held called back) →
      Board.interrupt (s.tells app) limit before = some (status, after) → Activity s held start after
  | poll {start before app source answer after} (monitor : LinkMonitor) : Activity s held start before →
      (∀ board, s.moves board (Board.attempt source board).2) →
      (∀ called back, held called → Application.Reacts app called back → Activity s held called back) →
      monitor.poll source (s.tells app) before = some (answer, after) → Activity s held start after

/-- An application that only answers does nothing of its own. -/
theorem Stage.Activity.accepted [Bus ε] {s : Stage g ε} {held : Board g ε → Prop} (called back : Board g ε)
    (_ : held called) (upcall : Application.accepting.Reacts called back) : s.Activity held called back := by
  rw [Application.accepting_reacts upcall]
  exact .still called

/-- A relation between boards that holds across everything in an activity. Nothing is asked for from a board on which
the thing is not held. -/
structure Stage.Sustains [Bus ε] (s : Stage g ε) (held : Board g ε → Prop) (R : Board g ε → Board g ε → Prop) :
    Prop where
  refl : ∀ board, R board board
  trans : ∀ {before middle after}, R before middle → R middle after → R before after
  free : ∀ {before after}, ¬ held before → R before after
  move : ∀ {before after}, s.moves before after → R before after
  received : ∀ {app}, (∀ called back, app.Reacts called back → R called back) →
    Call.Ensures R (Board.processReceived (s.tells app))
  completions : ∀ {app limit}, (∀ called back, app.Reacts called back → R called back) →
    Call.Ensures R (Board.processCompletions (s.tells app) limit)
  interrupt : ∀ {app limit}, (∀ called back, app.Reacts called back → R called back) →
    Call.Ensures R (Board.interrupt (s.tells app) limit)
  poll : ∀ {app source} (monitor : LinkMonitor), (∀ board, s.moves board (Board.attempt source board).2) →
    (∀ called back, app.Reacts called back → R called back) → Call.Ensures R (monitor.poll source (s.tells app))

theorem Stage.Activity.sustained [Bus ε] {s : Stage g ε} {held : Board g ε → Prop} {R : Board g ε → Board g ε → Prop}
    (sustains : s.Sustains held R) {before after : Board g ε} (activity : s.Activity held before after) :
    R before after := by
  have reacts {app : Application g ε} (upcalls : ∀ called back, held called → app.Reacts called back → R called back) :
      ∀ called back, app.Reacts called back → R called back := by
    intro called back upcall
    by_cases here : held called
    · exact upcalls called back here upcall
    · exact sustains.free here
  induction activity with
  | still board => exact sustains.refl board
  | move _ moved ih => exact sustains.trans ih (sustains.move moved)
  | received _ _ call ih upcalls => exact sustains.trans ih (sustains.received (reacts upcalls) _ _ _ call)
  | completions _ _ call ih upcalls => exact sustains.trans ih (sustains.completions (reacts upcalls) _ _ _ call)
  | interrupt _ _ call ih upcalls => exact sustains.trans ih (sustains.interrupt (reacts upcalls) _ _ _ call)
  | poll monitor _ reading _ call ih upcalls =>
    exact sustains.trans ih (sustains.poll monitor reading (reacts upcalls) _ _ _ call)

/-- An application that cannot be told from another one on boards on which something is `held`. -/
structure Application.AgreesWhere (held : Board g ε → Prop) (app other : Application g ε) : Prop where
  event : ∀ event board, held board → other.onEvent event board = app.onEvent event board
  stamp : ∀ callback stamp board, held board → other.onStamp callback stamp board = app.onStamp callback stamp board

/-- Two computations that do the same from any board on which something is `held`, and leave it held. -/
def Call.Matches (held : Board g ε → Prop) (call other : Call g ε α) : Prop :=
  ∀ board, held board → other board = call board ∧ ∀ value after, call board = some (value, after) → held after

namespace Call.Matches

variable {held : Board g ε → Prop} {app other : Application g ε}

theorem iff_lockstep {call other : Call g ε α} :
    Matches held call other ↔ Lockstep (fun one two => two = one ∧ held one) call other := by
  constructor
  · rintro matched one two ⟨rfl, here⟩
    obtain ⟨same, kept⟩ := matched two here
    rw [same]
    cases run : call two with
    | none => exact .none
    | some answer => exact .some ⟨rfl, rfl, kept _ _ run⟩
  · intro lockstep board here
    cases run : call board with
    | none => exact ⟨lockstep.fails ⟨rfl, here⟩ run, fun _ _ absent => by cases absent⟩
    | some answer =>
      obtain ⟨after, run', rfl, still⟩ := lockstep.returns ⟨rfl, here⟩ run
      refine ⟨run', fun _ _ same => ?_⟩
      obtain rfl := Option.some.inj same
      exact still

theorem quiet {act : BoardM g ε α} (kept : ∀ board, held board → held (act board).2) :
    Matches held (Call.quiet act) (Call.quiet act) := by
  refine fun board here => ⟨rfl, fun value after run => ?_⟩
  obtain rfl : (act board).2 = after := congrArg Prod.snd (Option.some.inj run)
  exact kept board here

theorem pure (value : α) : Matches held (Pure.pure value : Call g ε α) (Pure.pure value) := by
  refine fun board here => ⟨rfl, fun _ after run => ?_⟩
  obtain ⟨_, rfl⟩ := Prod.mk.inj (Option.some.inj run)
  exact here

theorem bind {first first' : Call g ε α} {second second' : α → Call g ε β} (one : Matches held first first')
    (two : ∀ value, Matches held (second value) (second' value)) :
    Matches held (first >>= second) (first' >>= second') := by
  intro board here
  obtain ⟨same, kept⟩ := one board here
  rw [Call.bind_apply, Call.bind_apply, same]
  cases run : first board with
  | none => exact ⟨rfl, fun _ _ absent => by cases absent⟩
  | some answer => exact two answer.1 answer.2 (kept answer.1 answer.2 run)

section Upcalls

variable (agrees : app.AgreesWhere held other)
  (kept : ∀ called back, held called → app.Reacts called back → held back)

include agrees kept

theorem event (event : Event) : Matches held (app.onEvent event) (other.onEvent event) :=
  fun board here => ⟨agrees.event event board here, fun _ _ run => kept _ _ here (.event run)⟩

theorem stamp (callback : Callback) (stamp : TxTimestamp) :
    Matches held (app.onStamp callback stamp) (other.onStamp callback stamp) :=
  fun board here => ⟨agrees.stamp callback stamp board here, fun _ _ run => kept _ _ here (.stamp run)⟩

theorem processCompletions
    (marks : ∀ (change : Transmitter g → Transmitter g) (board : Board g ε), held board →
      held (Board.modifyTransmitter change board).2)
    (noted : ∀ (entry : Diagnostic) (board : Board g ε), held board → held (Board.note entry board).2) (limit : Nat) :
    Matches held (Board.processCompletions app limit) (Board.processCompletions other limit) := by
  have shares : Board.SharesTransmitter fun one two : Board g ε => two = one ∧ held one := by
    refine ⟨?_, ?_, ?_, ?_⟩
    · rintro one two ⟨rfl, _⟩
      rfl
    · rintro one two ⟨rfl, _⟩
      rfl
    · rintro one two change ⟨rfl, here⟩
      exact ⟨rfl, marks change _ here⟩
    · rintro one two entry ⟨rfl, here⟩
      exact ⟨rfl, noted entry _ here⟩
  exact iff_lockstep.mpr (Lockstep.processCompletions shares (fun _ => iff_lockstep.mp (event agrees kept _))
    (fun _ _ => iff_lockstep.mp (stamp agrees kept _ _)) limit)

section Frames

variable (noted : ∀ (entry : Diagnostic) (board : Board g ε), held board → held (Board.note entry board).2)
  (gathered : ∀ (scratch : Block maxFrameSize) (board : Board g ε), held board →
    held (Board.modifyReceiver (fun r => { r with scratch := scratch }) board).2)

include noted gathered

theorem offer (first last : Fin g.rx) (segments : Nat) (context : StampContext g.rx) :
    Matches held (Board.offer app first last segments context) (Board.offer other first last segments context) := by
  intro board here
  rw [Board.offer_apply, Board.offer_apply]
  cases board.mac.receiver.ring.frameLength g.buffer last segments with
  | error reason =>
    refine ⟨rfl, fun _ _ run => ?_⟩
    obtain ⟨_, rfl⟩ := Prod.mk.inj (Option.some.inj run)
    exact noted reason board here
  | ok length =>
    obtain ⟨scratch, taken⟩ := board.mac.receiver.frameBytes_receiver first segments length
    dsimp only
    rw [taken]
    obtain ⟨same, stays⟩ := event agrees kept (.frameAvailable
      ⟨(board.mac.receiver.frameBytes first segments length).1, board.mac.receiver.ring.stampAt? context⟩) _
      (gathered scratch board here)
    rw [Board.modifyReceiver_apply] at same stays
    refine ⟨by rw [same], fun _ _ run => ?_⟩
    obtain ⟨answered, upcall, result⟩ := Option.map_eq_some_iff.mp run
    obtain ⟨_, rfl⟩ := Prod.mk.inj result
    exact stays answered.1 answered.2 upcall

theorem consume (first : Fin g.rx) (run : Run g.rx) :
    Matches held (Board.consume app first run) (Board.consume other first run) := by
  have notes (entry : Diagnostic) : Matches held (Call.quiet (Board.note entry)) (Call.quiet (Board.note entry)) :=
    quiet fun board here => noted entry board here
  cases run with
  | incomplete => exact pure _
  | stray following => exact bind (notes _) fun _ => pure _
  | overflow following => exact bind (notes _) fun _ => pure _
  | frame last following context =>
    unfold Board.consume
    dsimp only
    split
    · refine bind (notes _) fun _ => bind (offer agrees kept noted gathered _ _ _ _) fun answer => ?_
      rcases answer with _ | (_ | _ | _) <;> exact pure _
    · refine bind (offer agrees kept noted gathered _ _ _ _) fun answer => ?_
      rcases answer with _ | (_ | _ | _) <;> exact pure _

end Frames

end Upcalls

end Call.Matches

end EthernetMac
