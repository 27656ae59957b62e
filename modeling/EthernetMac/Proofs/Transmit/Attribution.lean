import Mathlib.Logic.Function.Basic
import EthernetMac.Proofs.Blocks
import EthernetMac.Proofs.Invariance
import EthernetMac.Proofs.Transmit.Ledger

namespace EthernetMac

/-- What happens to the slots of a transmit ring that bears on the timestamps: a frame is put into a slot, the hardware
writes a slot back, and the driver delivers a timestamp. -/
inductive StampEvent (g : Geometry) where
  | submitted (i : Fin g.tx) (options : TxOptions)
  | writtenBack (i : Fin g.tx) (d : Descriptor)
  | delivered (callback : Option Callback) (stamp : TxTimestamp)
deriving DecidableEq, Repr

namespace StampEvent

variable {g : Geometry} {i : Fin g.tx} {events : List (StampEvent g)} {event : StampEvent g} {j k : Nat}

/-- The slot that an event changes; a delivery is told from what stood in the slot before. -/
def slot? : StampEvent g → Option (Fin g.tx)
  | .submitted i _ => some i
  | .writtenBack i _ => some i
  | .delivered _ _ => none

def submission? (i : Fin g.tx) : StampEvent g → Option TxOptions
  | .submitted j options => if j = i then some options else none
  | _ => none

/-- The options of the submission that last used a slot. -/
def lastSubmission (i : Fin g.tx) (events : List (StampEvent g)) : Option TxOptions :=
  events.reverse.findSome? (submission? i)

theorem lastSubmission_concat (i : Fin g.tx) (events : List (StampEvent g)) (event : StampEvent g) :
    lastSubmission i (events ++ [event]) = (submission? i event).or (lastSubmission i events) := by
  rw [lastSubmission, List.reverse_concat, List.findSome?_cons]
  cases submission? i event with
  | none => rfl
  | some options => rfl

theorem submission?_eq_none (other : event.slot? ≠ some i) : submission? i event = none := by
  cases event with
  | submitted j options => exact if_neg fun same => other (congrArg some same)
  | writtenBack j d => rfl
  | delivered callback stamp => rfl

/-- The write-back at place `j` of a history left a timestamp in a slot, which nothing has happened to since, and the
submission that last used the slot before had asked for the timestamp. -/
structure Stamps (events : List (StampEvent g)) (j : Nat) (i : Fin g.tx) (d : Descriptor) (request : StampRequest) :
    Prop where
  written : events[j]? = some (.writtenBack i d)
  captured : d.stampCaptured = true
  asked : lastSubmission i (events.take j) = some (.captureTimestamp request)
  untouched : ∀ m event, j < m → events[m]? = some event → event.slot? ≠ some i

section Stamps

variable {d : Descriptor} {request : StampRequest}

theorem Stamps.lt (stamps : Stamps events j i d request) : j < events.length :=
  (List.getElem?_eq_some_iff.mp stamps.written).1

theorem Stamps.concat (stamps : Stamps events j i d request) (other : event.slot? ≠ some i) :
    Stamps (events ++ [event]) j i d request := by
  refine ⟨getElem?_of_start (List.prefix_append _ _) stamps.written, stamps.captured, ?_, fun m later late found => ?_⟩
  · rw [List.take_append_of_le_length (Nat.le_of_lt stamps.lt)]
    exact stamps.asked
  · rcases getElem?_concat_cases found with old | ⟨_, rfl⟩
    · exact stamps.untouched m later late old
    · exact other

theorem Stamps.of_writtenBack (captured : d.stampCaptured = true)
    (asked : lastSubmission i events = some (.captureTimestamp request)) :
    Stamps (events ++ [.writtenBack i d]) events.length i d request := by
  refine ⟨List.getElem?_concat_length .., captured, ?_, fun m later late found => ?_⟩
  · rw [List.take_left]
    exact asked
  · have inside := (List.getElem?_eq_some_iff.mp found).1
    rw [List.length_append, List.length_singleton] at inside
    omega

end Stamps

/-- A delivery at place `k` of a history hands on the timestamp that the write-back at place `j` left, with the tag of
the submission that had asked for it and to the routine that this submission had named, if it had named one. -/
def Hands (events : List (StampEvent g)) (j k : Nat) (callback : Option Callback) (stamp : TxTimestamp) : Prop :=
  ∃ i d request, Stamps (events.take k) j i d request ∧ callback = request.callback ∧
    stamp = ⟨⟨d.word1, d.word0⟩, request.tag⟩

theorem Hands.concat {callback : Option Callback} {stamp : TxTimestamp} (hands : Hands events j k callback stamp)
    (inside : k ≤ events.length) : Hands (events ++ [event]) j k callback stamp := by
  unfold Hands at hands ⊢
  rwa [List.take_append_of_le_length inside]

/-- What a delivery hands on was written back before it. -/
theorem Hands.lt {callback : Option Callback} {stamp : TxTimestamp} (hands : Hands events j k callback stamp) :
    j < k := by
  obtain ⟨i, d, request, stamps, _⟩ := hands
  have inside := stamps.lt
  rw [List.length_take] at inside
  omega

def IsDelivery (events : List (StampEvent g)) (k : Nat) : Prop :=
  ∃ callback stamp, events[k]? = some (.delivered callback stamp)

theorem IsDelivery.lt (delivery : IsDelivery events k) : k < events.length := by
  obtain ⟨callback, stamp, here⟩ := delivery
  exact (List.getElem?_eq_some_iff.mp here).1

theorem IsDelivery.concat_cases (delivery : IsDelivery (events ++ [event]) k) :
    IsDelivery events k ∨ k = events.length ∧ event.slot? = none := by
  obtain ⟨callback, stamp, found⟩ := delivery
  rcases getElem?_concat_cases found with old | ⟨last, rfl⟩
  · exact Or.inl ⟨callback, stamp, old⟩
  · exact Or.inr ⟨last, rfl⟩

/-- An event that changes a slot adds no delivery. -/
theorem IsDelivery.of_concat (delivery : IsDelivery (events ++ [event]) k) (here : event.slot? = some i) :
    IsDelivery events k := by
  rcases delivery.concat_cases with old | ⟨_, silent⟩
  · exact old
  · cases here.symm.trans silent

/-- Each delivery of a history comes from a write-back, and no two come from the same one. -/
structure Explains (events : List (StampEvent g)) (source : Nat → Nat) : Prop where
  delivered : ∀ k callback stamp, events[k]? = some (.delivered callback stamp) →
    Hands events (source k) k callback stamp
  once : ∀ k l, IsDelivery events k → IsDelivery events l → source k = source l → k = l

namespace Explains

variable {source : Nat → Nat}

theorem concat (explains : Explains events source) (here : event.slot? = some i) :
    Explains (events ++ [event]) source := by
  refine ⟨fun k callback stamp found => ?_,
    fun k l first second => explains.once k l (first.of_concat here) (second.of_concat here)⟩
  have inside := (IsDelivery.of_concat ⟨callback, stamp, found⟩ here).lt
  rw [List.getElem?_append_left inside] at found
  exact (explains.delivered k callback stamp found).concat (Nat.le_of_lt inside)

/-- A write-back that nothing was delivered from yet explains one more delivery. -/
theorem deliver {d : Descriptor} {request : StampRequest} (explains : Explains events source)
    (stamps : Stamps events j i d request) (unused : ∀ k, IsDelivery events k → source k ≠ j) :
    Explains (events ++ [.delivered request.callback ⟨⟨d.word1, d.word0⟩, request.tag⟩])
      (Function.update source events.length j) := by
  have old : ∀ k, k < events.length → Function.update source events.length j k = source k :=
    fun k inside => Function.update_of_ne (Nat.ne_of_lt inside) _ _
  have new : Function.update source events.length j events.length = j := Function.update_self ..
  refine ⟨fun k callback stamp found => ?_, fun k l first second same => ?_⟩
  · rcases getElem?_concat_cases found with found | ⟨rfl, same⟩
    · have inside := (List.getElem?_eq_some_iff.mp found).1
      rw [old k inside]
      exact (explains.delivered k callback stamp found).concat (Nat.le_of_lt inside)
    · obtain ⟨rfl, rfl⟩ := StampEvent.delivered.inj same
      rw [new]
      refine ⟨i, d, request, ?_, rfl, rfl⟩
      rwa [List.take_left]
  · rcases first.concat_cases with oldK | ⟨rfl, _⟩ <;> rcases second.concat_cases with oldL | ⟨rfl, _⟩
    · rw [old k oldK.lt, old l oldL.lt] at same
      exact explains.once k l oldK oldL same
    · rw [old k oldK.lt, new] at same
      exact absurd same (unused k oldK)
    · rw [old l oldL.lt, new] at same
      exact absurd same.symm (unused l oldL)
    · rfl

end Explains

end StampEvent

open StampEvent

/-- The history explains what stands in the transmit ring, and all deliveries: each timestamp in the ring comes from a
write-back that nothing was delivered from yet, and each slot that the hardware owns keeps what was asked for with the
frame in it. -/
structure Attributed {g : Geometry} (ring : Ring g.tx) (events : List (StampEvent g)) (source : Nat → Nat) : Prop where
  explains : Explains events source
  waiting : ∀ i, ring.isOwned i = false → (ring.descriptor i).stampCaptured = true →
    ∃ j, Stamps events j i (ring.descriptor i) (ring.slot i).ext.request ∧ ∀ k, IsDelivery events k → source k ≠ j
  held : ∀ i, ring.isOwned i = true →
    ∃ options, lastSubmission i events = some options ∧ (ring.slot i).ext.request = options.request

namespace Attributed

variable {g : Geometry} {ring ring' : Ring g.tx} {events : List (StampEvent g)} {source : Nat → Nat} {i : Fin g.tx}

theorem blank (explains : Explains events source) (blank : ∀ i, ring.descriptor i = .blank) :
    Attributed ring events source := by
  refine ⟨explains, fun i _ captured => ?_, fun i owned => ?_⟩
  · rw [blank] at captured
    exact absurd captured (by decide)
  · rw [Ring.isOwned, blank] at owned
    exact absurd owned (by decide)

/-- Whatever happens to one slot of the ring is told by one event, which is no delivery. -/
theorem record {event : StampEvent g} (attributed : Attributed ring events source) (here : event.slot? = some i)
    (others : ∀ j, j ≠ i → ring'.slot j = ring.slot j)
    (waiting : ring'.isOwned i = false → (ring'.descriptor i).stampCaptured = true →
      Stamps (events ++ [event]) events.length i (ring'.descriptor i) (ring'.slot i).ext.request)
    (held : ring'.isOwned i = true → ∃ options, lastSubmission i (events ++ [event]) = some options ∧
      (ring'.slot i).ext.request = options.request) :
    Attributed ring' (events ++ [event]) source := by
  have elsewhere : ∀ j, j ≠ i → event.slot? ≠ some j := fun j other same =>
    other (Option.some.inj (same.symm.trans here))
  have kept : ∀ j, j ≠ i → ring'.descriptor j = ring.descriptor j := fun j other =>
    congrArg Slot.descriptor (others j other)
  refine ⟨attributed.explains.concat here, fun j free captured => ?_, fun j owned => ?_⟩
  · by_cases same : j = i
    · subst same
      refine ⟨events.length, waiting free captured, fun k delivery none => ?_⟩
      obtain ⟨callback, stamp, found⟩ := delivery.of_concat here
      have early := (attributed.explains.delivered k callback stamp found).lt
      have inside := (delivery.of_concat here).lt
      omega
    · rw [Ring.isOwned, kept j same] at free
      rw [kept j same] at captured ⊢
      rw [others j same]
      obtain ⟨place, stamps, unused⟩ := attributed.waiting j free captured
      exact ⟨place, stamps.concat (elsewhere j same), fun k delivery => unused k (delivery.of_concat here)⟩
  · by_cases same : j = i
    · subst same
      exact held owned
    · rw [Ring.isOwned, kept j same] at owned
      rw [others j same, lastSubmission_concat, submission?_eq_none (elsewhere j same)]
      exact attributed.held j owned

/-- A timestamp that is taken out of its slot is handed on from the write-back that left it there. -/
theorem take (attributed : Attributed ring events source) (free : ring.isOwned i = false)
    (captured : (ring.descriptor i).stampCaptured = true) {slot : Slot} (taken : slot.descriptor = .blank) :
    ∃ source', Attributed (ring.setSlot i slot)
      (events ++ [.delivered (ring.slot i).ext.request.callback
        ⟨(ring.descriptor i).timestamp, (ring.slot i).ext.request.tag⟩]) source' := by
  obtain ⟨j, stamps, unused⟩ := attributed.waiting i free captured
  have blank : (ring.setSlot i slot).descriptor i = .blank := by
    rw [Ring.descriptor, Ring.slot_setSlot_self, taken]
  have others : ∀ l, l ≠ i → (ring.setSlot i slot).slot l = ring.slot l :=
    fun l other => Ring.slot_setSlot_of_ne _ _ (Ne.symm other)
  have kept : ∀ l, l ≠ i → (ring.setSlot i slot).descriptor l = ring.descriptor l := fun l other =>
    congrArg Slot.descriptor (others l other)
  refine ⟨Function.update source events.length j, attributed.explains.deliver stamps unused, fun l free captured => ?_,
    fun l owned => ?_⟩
  · by_cases here : l = i
    · rw [here, blank] at captured
      exact absurd captured (by decide)
    · rw [Ring.isOwned, kept l here] at free
      rw [kept l here] at captured ⊢
      rw [others l here]
      obtain ⟨place, stampsL, unusedL⟩ := attributed.waiting l free captured
      have silent : ∀ callback stamp, (StampEvent.delivered callback stamp : StampEvent g).slot? ≠ some l :=
        fun _ _ => (Option.some_ne_none l).symm
      refine ⟨place, stampsL.concat (silent _ _), fun k delivery same => ?_⟩
      rcases delivery.concat_cases with oldK | ⟨rfl, _⟩
      · rw [Function.update_of_ne (Nat.ne_of_lt oldK.lt)] at same
        exact unusedL k oldK same
      · -- the write-back of another slot is another write-back
        rw [Function.update_self] at same
        subst same
        have both := stamps.written.symm.trans stampsL.written
        exact here (StampEvent.writtenBack.inj (Option.some.inj both)).1.symm
  · by_cases here : l = i
    · rw [here, Ring.isOwned, blank] at owned
      exact absurd owned (by decide)
    · rw [Ring.isOwned, kept l here] at owned
      rw [others l here, lastSubmission_concat]
      exact attributed.held l owned

end Attributed

variable {g : Geometry} {σ : Type}

/-- The hardware finishes the frames that it holds in any order, and stamps only frames for which that was asked. All
else that happens leaves the transmitter as it is. -/
inductive Board.Finishes : Board g (Recorded (List (StampEvent g)) σ) → Board g (Recorded (List (StampEvent g)) σ) →
    Prop
  | aside {before after} : before.SparesTransmitter after → Finishes before after
  | finish {before i d} : before.mac.transmitter.ring.isOwned i = true → d.isOwned = false →
      (d.stampCaptured = true → ∃ request, lastSubmission i before.world.record = some (.captureTimestamp request)) →
      Finishes before ((before.sentBack i d).recorded (· ++ [.writtenBack i d]))

namespace Setting

/-- The history of the slots of the transmit ring is recorded. -/
def stampHistory : Setting g (Recorded (List (StampEvent g)) σ) where
  moves := Board.Finishes
  waits _ _ := True
  submitted i _ options := Recorded.modify (· ++ [.submitted i options])
  delivered callback stamp := Recorded.modify (· ++ [.delivered callback stamp])
  stays_up moved up := by
    cases moved with
    | aside same => exact same.up.mpr up
    | finish => exact up

theorem stampHistory_keeps : (stampHistory : Setting g (Recorded (List (StampEvent g)) σ)).Keeps Recorded.record
    fun board => ∃ source, Attributed board.mac.transmitter.ring board.world.record source where
  aside same := by
    rintro ⟨source, attributed⟩
    exact ⟨source, by rwa [same.txRing, same.world]⟩
  still _ := trivial
  move moved := by
    rintro ⟨source, attributed⟩
    cases moved with
    | aside same => exact ⟨source, by rwa [same.transmitter, same.record]⟩
    | @finish i d owned released asked =>
      rename_i board
      refine ⟨source, attributed.record rfl (fun j other => Ring.slot_modifySlot_of_ne _ _ (Ne.symm other)) ?_ ?_⟩
      · intro _ captured
        obtain ⟨options, last, kept⟩ := attributed.held i owned
        change ((board.mac.transmitter.ring.modifySlot i _).descriptor i).stampCaptured = true at captured
        change Stamps _ _ _ ((board.mac.transmitter.ring.modifySlot i _).descriptor i)
          ((board.mac.transmitter.ring.modifySlot i _).slot i).ext.request
        rw [Ring.descriptor, Ring.slot_modifySlot_self] at captured ⊢
        obtain ⟨request, asked⟩ := asked captured
        obtain rfl := Option.some.inj (last.symm.trans asked)
        dsimp only
        rw [kept]
        exact .of_writtenBack captured asked
      · intro owned
        change ((board.mac.transmitter.ring.modifySlot i _).descriptor i).isOwned = true at owned
        rw [Ring.descriptor, Ring.slot_modifySlot_self] at owned
        exact absurd owned (Bool.eq_false_iff.mp released)
  layOut _ := by
    rintro ⟨source, attributed⟩
    exact ⟨source, .blank attributed.explains (Transmitter.descriptor_clear _)⟩
  fill {first board bytes options result} _ _ kept _ _ _ := by
    obtain ⟨source, attributed⟩ := kept
    refine ⟨source, attributed.record rfl (fun j other => Ring.slot_modifySlot_of_ne _ _ (Ne.symm other)) ?_ ?_⟩
    · intro free
      change ((board.mac.transmitter.ring.modifySlot _ _).descriptor _).isOwned = false at free
      rw [Ring.descriptor, Ring.slot_modifySlot_self] at free
      exact absurd (free.symm.trans (Descriptor.isOwned_submission _ _ _)) Bool.false_ne_true
    · intro _
      refine ⟨options, ?_, ?_⟩
      · rw [lastSubmission_concat]
        exact congrArg (Option.or · _) (if_pos rfl)
      · change ((board.mac.transmitter.ring.modifySlot _ _).slot _).ext.request = _
        rw [Ring.slot_modifySlot_self]
        rfl
  take selected := by
    rintro ⟨source, attributed⟩
    obtain ⟨free, captured⟩ := Transmitter.isStamped_eq_true.mp (Transmitter.nextStamped?_eq_some selected).1
    exact attributed.take free captured rfl
  rearm _ _ _ kept := kept

end Setting

/-- Every timestamp that is delivered comes from one write-back, which no other delivery comes from: its time is the one
that was written back, and its tag and its destination are those that were asked for by the submission that last used
the slot. -/
theorem stamps_attributed [Bus σ] {placement : Placement} {before after : Board g (Recorded (List (StampEvent g)) σ)}
    (unused : before.mac = Mac.blank g placement) (nothing : before.world.record = [])
    (run : Setting.stampHistory.Run before after) : ∃ source, Explains after.world.record source := by
  have start : Attributed before.mac.transmitter.ring before.world.record id := by
    rw [nothing, unused]
    exact .blank ⟨fun k _ _ found => (nomatch found), fun k l delivery => absurd delivery.lt (Nat.not_lt_zero k)⟩
      (Transmitter.descriptor_blank _ _)
  obtain ⟨source, attributed⟩ := (run.onward Recorded.untouched Setting.stampHistory_keeps).keeps ⟨id, start⟩
  exact ⟨source, attributed.explains⟩

/-- Of two frames with a callback and a tag of their own the hardware finishes the later one first. -/
theorem stamps_attributed_crossed :
    ∃ (board : Board .pair (Recorded (List (StampEvent .pair)) RestingPeripheral)) (d e : Descriptor),
      board.world.record = [.submitted Geometry.pair.firstTx (.captureTimestamp ⟨7, some 3⟩),
        .submitted (Ring.next Geometry.pair.firstTx) (.captureTimestamp ⟨8, none⟩),
        .writtenBack (Ring.next Geometry.pair.firstTx) d, .writtenBack Geometry.pair.firstTx e,
        .delivered (some 3) ⟨⟨6, 5⟩, 7⟩, .delivered none ⟨⟨4, 3⟩, 8⟩] ∧
      ∃ source, Explains board.world.record source := by
  have started := Setting.RunWhile.started Setting.stampHistory (fun _ => True) {}
    (.untried ⟨0, 0x10000, 0x20000⟩ ⟨[], {}⟩ : Board .pair (Recorded (List (StampEvent .pair)) RestingPeripheral))
  have one := started.tryTransmit (rfl : Board.tryTransmit #[1] (.captureTimestamp ⟨7, some 3⟩) _ = _)
  have two := one.tryTransmit (rfl : Board.tryTransmit #[2] (.captureTimestamp ⟨8, none⟩) _ = _)
  have later := two.move (@Board.Finishes.finish _ _ _ (Ring.next Geometry.pair.firstTx)
    ⟨3, 4, 0, Descriptor.stampCapturedBit⟩ rfl rfl fun _ => ⟨_, rfl⟩)
  have both := later.move (@Board.Finishes.finish _ _ _ Geometry.pair.firstTx
    ⟨5, 6, 0, Descriptor.stampCapturedBit⟩ rfl rfl fun _ => ⟨_, rfl⟩)
  refine ⟨_, ⟨3, 4, 0, Descriptor.stampCapturedBit⟩, ⟨5, 6, 0, Descriptor.stampCapturedBit⟩, ?_,
    stamps_attributed rfl rfl (both.scanned 2 (by decide +kernel))⟩
  decide +kernel

end EthernetMac
