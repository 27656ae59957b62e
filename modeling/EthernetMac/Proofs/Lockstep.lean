import EthernetMac.Completion
import EthernetMac.Proofs.Receive.Walk

namespace EthernetMac

variable {g : Geometry} {ε α β : Type}

/-- Two computations that keep in step on boards that are related: neither comes back, or both come back with the same
answer on boards that are related again. -/
def Call.Lockstep (Q : Board g ε → Board g ε → Prop) (call other : Call g ε α) : Prop :=
  ∀ one two, Q one two → Option.Rel (fun a b => b.1 = a.1 ∧ Q a.2 b.2) (call one) (other two)

/-- Boards that are related have the same transmit side, and stay related if the same is done to it on both. -/
structure Board.SharesTransmitter (Q : Board g ε → Board g ε → Prop) : Prop where
  lifecycle : ∀ {one two}, Q one two → two.mac.lifecycle = one.mac.lifecycle
  transmitter : ∀ {one two}, Q one two → two.mac.transmitter = one.mac.transmitter
  modify : ∀ {one two} (change : Transmitter g → Transmitter g), Q one two →
    Q (modifyTransmitter change one).2 (modifyTransmitter change two).2
  note : ∀ {one two} (entry : Diagnostic), Q one two → Q (note entry one).2 (note entry two).2

/-- Boards that are related have the same receive side, find the same position of the hardware, and stay related if the
same is done on both to the receive side and to its registers. -/
structure Board.SharesReceiver [Bus ε] (Q : Board g ε → Board g ε → Prop) : Prop where
  lifecycle : ∀ {one two}, Q one two → two.mac.lifecycle = one.mac.lifecycle
  receiver : ∀ {one two}, Q one two → two.mac.receiver = one.mac.receiver
  modify : ∀ {one two} (change : Receiver g → Receiver g), Q one two →
    Q (modifyReceiver change one).2 (modifyReceiver change two).2
  note : ∀ {one two} (entry : Diagnostic), Q one two → Q (note entry one).2 (note entry two).2
  position : ∀ {one two}, Q one two →
    (Register.currentRxDescriptor.read two.world).1 = (Register.currentRxDescriptor.read one.world).1 ∧
      Q (onBus Register.currentRxDescriptor.read one).2 (onBus Register.currentRxDescriptor.read two).2
  wake : ∀ {one two}, Q one two → Q (onBus (Register.rxTailPointer.write 0) one).2
    (onBus (Register.rxTailPointer.write 0) two).2

namespace Call.Lockstep

variable {Q : Board g ε → Board g ε → Prop} {app other : Application g ε}

theorem pure (value : α) : Lockstep Q (Pure.pure value : Call g ε α) (Pure.pure value) :=
  fun _ _ same => .some ⟨rfl, same⟩

theorem returns {call other : Call g ε α} (lockstep : Lockstep Q call other) {one two after : Board g ε} {value : α}
    (same : Q one two) (run : call one = some (value, after)) :
    ∃ after', other two = some (value, after') ∧ Q after after' := by
  have related := lockstep one two same
  rw [run] at related
  cases answered : other two with
  | none =>
    rw [answered] at related
    cases related
  | some answer =>
    rw [answered] at related
    obtain ⟨rfl, still⟩ : answer.1 = value ∧ Q after answer.2 := by
      cases related with
      | some both => exact both
    exact ⟨answer.2, rfl, still⟩

theorem fails {call other : Call g ε α} (lockstep : Lockstep Q call other) {one two : Board g ε} (same : Q one two)
    (run : call one = none) : other two = none := by
  have related := lockstep one two same
  rw [run] at related
  cases answered : other two with
  | none => rfl
  | some answer =>
    rw [answered] at related
    cases related

theorem bind {first first' : Call g ε α} {second second' : α → Call g ε β} (one : Lockstep Q first first')
    (two : ∀ value, Lockstep Q (second value) (second' value)) :
    Lockstep Q (first >>= second) (first' >>= second') := by
  intro left right same
  rw [Call.bind_apply, Call.bind_apply]
  cases run : first left with
  | none =>
    rw [one.fails same run]
    exact .none
  | some answer =>
    obtain ⟨after, run', related⟩ := one.returns same run
    rw [run']
    exact two answer.1 answer.2 after related

theorem get {rest rest' : Board g ε → Call g ε α}
    (continued : ∀ one two, Q one two → Lockstep Q (rest one) (rest' two)) :
    Lockstep Q (MonadState.get >>= rest) (MonadState.get >>= rest') :=
  fun one two same => continued one two same one two same

theorem quiet {act act' : BoardM g ε α}
    (kept : ∀ one two, Q one two → (act' two).1 = (act one).1 ∧ Q (act one).2 (act' two).2) :
    Lockstep Q (Call.quiet act) (Call.quiet act') :=
  fun one two same => .some (kept one two same)

section Receive

variable [Bus ε] (shares : Board.SharesReceiver Q)
  (offered : ∀ frame, Lockstep Q (app.onEvent (.frameAvailable frame)) (other.onEvent (.frameAvailable frame)))

include shares

theorem noted (entry : Diagnostic) : Lockstep Q (Call.quiet (Board.note entry)) (Call.quiet (Board.note entry)) :=
  quiet fun _ _ same => ⟨rfl, shares.note entry same⟩

theorem modified (change : Receiver g → Receiver g) :
    Lockstep Q (Call.quiet (Board.modifyReceiver change)) (Call.quiet (Board.modifyReceiver change)) :=
  quiet fun _ _ same => ⟨rfl, shares.modify change same⟩

theorem hardwarePosition : Lockstep Q (Call.quiet Board.hardwarePosition) (Call.quiet Board.hardwarePosition) := by
  refine quiet fun one two same => ?_
  obtain ⟨address, related⟩ := shares.position same
  rw [Board.hardwarePosition_apply, Board.hardwarePosition_apply, shares.receiver same, address]
  cases one.mac.receiver.ring.indexOf? (Register.currentRxDescriptor.read one.world).1 with
  | some position => exact ⟨rfl, related⟩
  | none => exact ⟨rfl, shares.note _ related⟩

include offered

theorem offer (first last : Fin g.rx) (segments : Nat) (context : StampContext g.rx) :
    Lockstep Q (Board.offer app first last segments context) (Board.offer other first last segments context) := by
  unfold Board.offer
  refine get fun one two same => ?_
  dsimp only
  rw [shares.receiver same]
  cases one.mac.receiver.ring.frameLength g.buffer last segments with
  | error reason => exact bind (noted shares reason) fun _ => pure _
  | ok length => exact bind (modified shares _) fun _ => bind (offered _) fun answer => pure _

theorem consume (first : Fin g.rx) (run : Run g.rx) :
    Lockstep Q (Board.consume app first run) (Board.consume other first run) := by
  cases run with
  | incomplete => exact pure _
  | stray following => exact bind (noted shares _) fun _ => pure _
  | overflow following => exact bind (noted shares _) fun _ => pure _
  | frame last following context =>
    unfold Board.consume
    dsimp only
    split
    · refine bind (noted shares _) fun _ => bind (offer shares offered _ _ _ _) fun answer => ?_
      rcases answer with _ | (_ | _ | _) <;> exact pure _
    · refine bind (offer shares offered _ _ _ _) fun answer => ?_
      rcases answer with _ | (_ | _ | _) <;> exact pure _

theorem walk (budget : Nat) (first : Fin g.rx) :
    Lockstep Q (Board.walk app budget first) (Board.walk other budget first) := by
  induction budget using Nat.strongRecOn generalizing first with
  | ind budget ih =>
    unfold Board.walk
    cases budget with
    | zero => exact pure _
    | succ room =>
      refine get fun one two same => ?_
      dsimp only
      rw [shares.receiver same]
      split
      · exact pure _
      · refine bind (consume shares offered _ _) fun verdict => ?_
        cases verdict with
        | none => exact pure _
        | some delivered =>
          exact bind (modified shares _) fun _ => bind (ih _ (by omega) _) fun rest => pure _

theorem processReceived : Lockstep Q (Board.processReceived app) (Board.processReceived other) := by
  unfold Board.processReceived Board.walkReceived
  refine get fun one two same => ?_
  rw [shares.lifecycle same]
  split
  · exact pure 0
  · refine get fun one two same => ?_
    rw [shares.receiver same]
    split
    · exact bind (noted shares _) fun _ => pure 0
    · refine bind (modified shares _) fun _ => bind (hardwarePosition shares) fun position => get fun one two same => ?_
      rw [shares.receiver same]
      refine bind (walk shares offered _ _) fun tally => ?_
      have closed : Lockstep Q (do
          Call.quiet (Board.modifyReceiver fun r => { r with walking := false })
          return tally.delivered) (do
          Call.quiet (Board.modifyReceiver fun r => { r with walking := false })
          return tally.delivered) := bind (modified shares _) fun _ => pure _
      dsimp only
      split
      · exact bind (quiet fun _ _ same => ⟨rfl, shares.wake same⟩) fun _ => closed
      · exact closed

end Receive

section Scan

variable (shares : Board.SharesTransmitter Q)
  (event : ∀ stamp, Lockstep Q (app.onEvent (.transmitTimestamp stamp)) (other.onEvent (.transmitTimestamp stamp)))
  (stamp : ∀ callback stamp, Lockstep Q (app.onStamp callback stamp) (other.onStamp callback stamp))

section Delivery

include event stamp

theorem deliverStamp (delivery : Option Callback × TxTimestamp) :
    Lockstep Q (Board.deliverStamp app delivery) (Board.deliverStamp other delivery) := by
  obtain ⟨callback, taken⟩ := delivery
  cases callback with
  | none => exact bind (event taken) fun _ => pure ()
  | some callback => exact stamp callback taken

end Delivery

include shares

theorem marked (change : Transmitter g → Transmitter g) :
    Lockstep Q (Call.quiet (Board.modifyTransmitter change)) (Call.quiet (Board.modifyTransmitter change)) :=
  quiet fun _ _ same => ⟨rfl, shares.modify change same⟩

include event stamp

theorem drain (limit : Nat) : Lockstep Q (Board.drain app limit) (Board.drain other limit) := by
  induction limit with
  | zero =>
    unfold Board.drain
    refine get fun one two same => ?_
    dsimp only
    rw [shares.transmitter same]
    cases one.mac.transmitter.nextStamped? with
    | none => exact pure 0
    | some i => exact fun _ _ _ => .none
  | succ limit ih =>
    unfold Board.drain
    refine get fun one two same => ?_
    dsimp only
    rw [shares.transmitter same]
    cases one.mac.transmitter.nextStamped? with
    | none => exact pure 0
    | some i =>
      exact bind (marked shares _) fun _ => bind (deliverStamp event stamp _) fun _ => bind ih fun rest => pure _

theorem scanCompletions (limit scans : Nat) :
    Lockstep Q (Board.scanCompletions app limit scans) (Board.scanCompletions other limit scans) := by
  induction scans with
  | zero => exact fun _ _ _ => .none
  | succ scans ih =>
    unfold Board.scanCompletions
    refine get fun one two same => ?_
    rw [shares.transmitter same]
    split
    · exact bind (marked shares _) fun _ => bind (quiet fun _ _ same => ⟨rfl, shares.note _ same⟩) fun _ => pure 0
    · refine bind (marked shares _) fun _ => bind (drain shares event stamp limit) fun delivered =>
        bind (marked shares _) fun _ => get fun one two same => ?_
      rw [shares.transmitter same]
      split
      · exact bind ih fun more => pure _
      · exact pure _

theorem processCompletions (limit : Nat) :
    Lockstep Q (Board.processCompletions app limit) (Board.processCompletions other limit) := by
  unfold Board.processCompletions
  refine get fun one two same => ?_
  rw [shares.lifecycle same]
  split
  · exact pure 0
  · exact scanCompletions shares event stamp limit _

end Scan

end Call.Lockstep

end EthernetMac
