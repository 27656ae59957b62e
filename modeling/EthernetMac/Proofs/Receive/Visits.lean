import Mathlib.Algebra.BigOperators.Group.List.Basic
import EthernetMac.Proofs.Receive.Front
import EthernetMac.Proofs.Receive.Order

namespace EthernetMac

variable {g : Geometry} {ε : Type}

namespace Receiver

/-- The frame lies in the blocks of `segments` slots from `first` on, and its stamp, if it has one, in the slot behind
them; `span` slots are enough for both. -/
structure Carries (r : Receiver g) (first : Fin g.rx) (span : Nat) (frame : Frame) (segments : Nat) : Prop where
  within : segments ≤ span
  some : 0 < frame.bytes.size
  covered : frame.bytes.size ≤ segments * g.buffer
  short : segments ≠ 1 → frame.bytes.size ≤ maxFrameSize
  bytes : frame.bytes = r.bytesFrom first frame.bytes.size
  stamp : frame.timestamp = none ∨
    segments < span ∧ frame.timestamp = (r.ring.descriptor (Ring.advance first segments)).timestamp

theorem carries_of_measured {r : Receiver g} {first last : Fin g.rx} {following length : Nat}
    {context : StampContext g.rx}
    (measured : r.ring.frameLength g.buffer last (following + 1) = .ok length)
    (stamp : ∀ i, context = .inSlot i → i = Ring.advance first (following + 1)) :
    r.Carries first (following + context.count + 1)
      ⟨(r.frameBytes first (following + 1) length).1, r.ring.stampAt? context⟩ (following + 1) := by
  obtain ⟨some, covered, short⟩ := Ring.frameLength_bounds measured
  have size : (r.bytesFrom first length).size = length := by rw [bytesFrom, Array.size_ofFn]
  rw [r.frameBytes_eq first covered short]
  refine ⟨Nat.succ_le_succ (Nat.le_add_right _ _), Nat.lt_of_lt_of_eq some size.symm,
    Nat.le_trans (Nat.le_of_eq size) covered, fun several => Nat.le_trans (Nat.le_of_eq size) (short several),
    congrArg (r.bytesFrom first) size.symm, ?_⟩
  cases context with
  | unpromised | missing => exact Or.inl rfl
  | inSlot i =>
    rw [stamp i rfl]
    exact Or.inr ⟨Nat.lt_succ_self _, rfl⟩

end Receiver

/-- A run that a walk has dealt with: `span` slots from `first` on, the board on which they were found, the frame that
was offered of them with the answer to it, and the board that was then there. -/
structure Visit (g : Geometry) (ε : Type) where
  first : Fin g.rx
  span : Nat
  found : Board g ε
  offered : Option (Frame × Disposition)
  left : Board g ε

namespace Visit

def slots (v : Visit g ε) : List (Fin g.rx) := (List.range v.span).map (Ring.advance v.first)

def isRetried (v : Visit g ε) : Bool := v.offered.any fun asked => asked.2 == .retry

def isTaken (v : Visit g ε) : Bool := v.offered.any fun asked => asked.2 != .retry

/-- The board behind a visit: its slots are given back, unless its frame is to be tried again. -/
def after (v : Visit g ε) : Board g ε := if v.isRetried then v.left else v.left.givenBack v.first v.span

/-- Each visit finds the board that the one before it has left. -/
def Leads : List (Visit g ε) → Board g ε → Board g ε → Prop
  | [], before, after => after = before
  | v :: rest, before, after => v.found = before ∧ Leads rest v.after after

/-- The slots were the software's when they were found, and each one that is given back is armed with the address in
its own extension; nothing but the application has a hand in any other slot. -/
structure IsSound (app : Application g ε) (v : Visit g ε) : Prop where
  some : 0 < v.span
  released : ∀ i ∈ v.slots, v.found.mac.receiver.ring.isOwned i = false
  passed : v.offered = none → ∃ journal, v.left = { v.found with journal := journal }
  asked : ∀ frame answer, v.offered = .some (frame, answer) →
    (∃ segments, v.found.mac.receiver.Carries v.first v.span frame segments) ∧
      ∃ scratch journal, app.onEvent (.frameAvailable frame) (v.found.readied scratch journal) = .some (answer, v.left)
  given : v.isRetried = false → ∀ i ∈ v.slots, v.after.mac.receiver.ring.slot i =
    { v.left.mac.receiver.ring.slot i with
      descriptor := ⟨(v.left.mac.receiver.ring.slot i).ext.buffer, 0, 0, 0xC1000000⟩ }
  kept : ∀ i, (i ∈ v.slots → v.isRetried = true) →
    v.after.mac.receiver.ring.slot i = v.left.mac.receiver.ring.slot i

theorem after_of_retried {v : Visit g ε} (retried : v.isRetried = true) : v.after = v.left := by
  rw [after, retried, if_pos rfl]

theorem after_of_taken {v : Visit g ε} (taken : v.isRetried = false) : v.after = v.left.givenBack v.first v.span := by
  rw [after, taken, if_neg Bool.false_ne_true]

theorem after_given {v : Visit g ε} (fits : v.span ≤ g.rx) (taken : v.isRetried = false) {i : Fin g.rx}
    (among : i ∈ v.slots) : v.after.mac.receiver.ring.slot i = (v.left.mac.receiver.ring.slot i).rearm := by
  obtain ⟨k, inside, rfl⟩ := List.mem_map.mp among
  rw [after_of_taken taken]
  exact Ring.slot_rearm_of_lt _ _ fits (List.mem_range.mp inside)

theorem after_kept {v : Visit g ε} {i : Fin g.rx} (spared : i ∈ v.slots → v.isRetried = true) :
    v.after.mac.receiver.ring.slot i = v.left.mac.receiver.ring.slot i := by
  cases retried : v.isRetried with
  | true => rw [after_of_retried retried]
  | false =>
    obtain ⟨k, near, rfl⟩ := Ring.exists_advance v.first i
    have outside : v.span ≤ k := by
      rcases Nat.lt_or_ge k v.span with inside | outside
      · rw [spared (List.mem_map_of_mem (List.mem_range.mpr inside))] at retried
        cases retried
      · exact outside
    rw [after_of_taken retried]
    exact Ring.slot_rearm_of_ge _ _ outside near

theorem isSound {app : Application g ε} {v : Visit g ε} (some : 0 < v.span) (fits : v.span ≤ g.rx)
    (released : ∀ k, k < v.span → v.found.mac.receiver.ring.isOwned (Ring.advance v.first k) = false)
    (passed : v.offered = none → ∃ journal, v.left = { v.found with journal := journal })
    (asked : ∀ frame answer, v.offered = .some (frame, answer) →
      (∃ segments, v.found.mac.receiver.Carries v.first v.span frame segments) ∧
        ∃ scratch journal, app.onEvent (.frameAvailable frame) (v.found.readied scratch journal) =
          .some (answer, v.left)) : v.IsSound app where
  some := some
  released := by
    intro i among
    obtain ⟨k, inside, rfl⟩ := List.mem_map.mp among
    exact released k (List.mem_range.mp inside)
  passed := passed
  asked := asked
  given taken _ among := after_given fits taken among
  kept _ spared := after_kept spared

theorem isTaken_of_isRetried {v : Visit g ε} (retried : v.isRetried = true) : v.isTaken = false := by
  obtain ⟨first, span, found, offered, left⟩ := v
  cases offered with
  | none => cases retried
  | some asked =>
    obtain ⟨frame, answer⟩ := asked
    cases answer with
    | retry => rfl
    | accepted | dropped => cases retried

end Visit

/-- A walk that may look at `budget` slots rests where there are none of them left, where the hardware is not yet done,
and where a frame has not come whole. -/
def Ring.RestsAt {n : Nat} (ring : Ring n) (first : Fin n) (budget : Nat) : Prop :=
  budget = 0 ∨ ring.isOwned first = true ∨ ring.scan first (budget - 1) = .incomplete

namespace Board

variable {app : Application g ε} {before after : Board g ε}

/-- What comes of an offer: there is none to be made, or the application is asked. -/
theorem offer_comes {first last : Fin g.rx} {following : Nat} {context : StampContext g.rx}
    {journal : Array Diagnostic} {answered : Option Disposition}
    (stamp : ∀ i, context = .inSlot i → i = Ring.advance first (following + 1))
    (run : offer app first last (following + 1) context { before with journal := journal } = some (answered, after)) :
    answered = none ∧ (∃ noted, after = { before with journal := noted }) ∨
      ∃ frame answer scratch, answered = some answer ∧
        before.mac.receiver.Carries first (following + context.count + 1) frame (following + 1) ∧
        app.onEvent (.frameAvailable frame) (before.readied scratch journal) = some (answer, after) := by
  rw [offer_apply] at run
  cases measured : before.mac.receiver.ring.frameLength g.buffer last (following + 1) with
  | error reason =>
    simp only [measured] at run
    obtain ⟨rfl, rfl⟩ := Prod.mk.inj (Option.some.inj run)
    exact Or.inl ⟨rfl, _, rfl⟩
  | ok length =>
    obtain ⟨scratch, gathered⟩ := before.mac.receiver.frameBytes_receiver first (following + 1) length
    simp only [measured, gathered] at run
    obtain ⟨⟨answer, back⟩, upcall, same⟩ := Option.map_eq_some_iff.mp run
    obtain ⟨rfl, rfl⟩ := Prod.mk.inj same
    exact Or.inr ⟨_, answer, scratch, rfl, Receiver.carries_of_measured measured stamp, upcall⟩

/-- What a run comes to: it is left alone as long as it is incomplete, and makes a visit otherwise. -/
theorem consume_visit {first : Fin g.rx} {room : Nat} {outcome : Option Bool} (near : room < g.rx)
    (released : before.mac.receiver.ring.isOwned first = false)
    (run : consume app first (before.mac.receiver.ring.scan first room) before = some (outcome, after)) :
    before.mac.receiver.ring.scan first room = .incomplete ∧ outcome = none ∧ after = before ∨
      ∃ v : Visit g ε, v.first = first ∧ v.span = (before.mac.receiver.ring.scan first room).beyond + 1 ∧
        v.found = before ∧ v.left = after ∧ outcome = (if v.isRetried then none else some v.isTaken) ∧
        v.IsSound app := by
  have shown := before.mac.receiver.ring.scan_shows first room
  have unowned (k : Nat) (inside : k ≤ (before.mac.receiver.ring.scan first room).beyond) :
      before.mac.receiver.ring.isOwned (Ring.advance first k) = false := by
    rcases Nat.eq_zero_or_pos k with rfl | positive
    · rwa [Ring.advance_zero]
    · exact shown.released k positive inside
  -- whatever the run is, its slots are the software's and are dealt with alike
  have sound (offered : Option (Frame × Disposition)) :=
    @Visit.isSound g ε app ⟨first, (before.mac.receiver.ring.scan first room).beyond + 1, before, offered, after⟩
      (Nat.succ_pos _) (Nat.lt_of_le_of_lt shown.near near) fun k inside => unowned k (Nat.le_of_lt_succ inside)
  have passes (noted : ∃ journal, after = { before with journal := journal }) :=
    sound none (fun _ => noted) (fun _ _ none => nomatch none)
  cases found : before.mac.receiver.ring.scan first room with
  | incomplete =>
    rw [found] at run
    obtain ⟨rfl, rfl⟩ := Prod.mk.inj (Option.some.inj run)
    exact Or.inl ⟨rfl, rfl, rfl⟩
  | stray | overflow =>
    rw [found] at run passes
    obtain ⟨rfl, rfl⟩ := Prod.mk.inj (Option.some.inj run)
    exact Or.inr ⟨_, rfl, rfl, rfl, rfl, rfl, passes ⟨_, rfl⟩⟩
  | frame last following context =>
    rw [found] at run shown sound passes
    obtain ⟨_, stamp⟩ := shown.place _ _ _ rfl
    obtain ⟨journal, offers⟩ := consume_offers app first last following context before
    rw [offers] at run
    obtain ⟨⟨answered, back⟩, offer, same⟩ := Option.map_eq_some_iff.mp run
    obtain ⟨rfl, rfl⟩ := Prod.mk.inj same
    rcases offer_comes stamp offer with ⟨rfl, noted⟩ | ⟨frame, answer, scratch, rfl, carries, upcall⟩
    · exact Or.inr ⟨_, rfl, rfl, rfl, rfl, rfl, passes noted⟩
    · refine Or.inr ⟨_, rfl, rfl, rfl, rfl, by cases answer <;> rfl,
        sound (some (frame, answer)) (fun none => nomatch none) fun _ _ same => ?_⟩
      obtain ⟨rfl, rfl⟩ := Prod.mk.inj (Option.some.inj same)
      exact ⟨⟨_, carries⟩, scratch, journal, upcall⟩

/-- How a walk goes from one slot on, told by its visits: it rests where it finds nothing that it could deal with, it
ends with a frame that is to be tried again, and it goes on behind slots that it gives back. -/
inductive Tour (app : Application g ε) : Nat → Fin g.rx → Board g ε → List (Visit g ε) → Board g ε → Prop
  | rests {budget first board} : board.mac.receiver.ring.RestsAt first budget → Tour app budget first board [] board
  | leaves {budget} {v : Visit g ε} : v.IsSound app → v.isRetried = true → v.span ≤ budget →
      Tour app budget v.first v.found [v] v.after
  | goesOn {budget} {v : Visit g ε} {rest last} : v.IsSound app → v.isRetried = false → v.span ≤ budget →
      Tour app (budget - v.span) (Ring.advance v.first v.span) v.after rest last →
      Tour app budget v.first v.found (v :: rest) last

theorem walk_tour {budget : Nat} {first : Fin g.rx} {tally : WalkTally} (near : budget ≤ g.rx)
    (run : walk app budget first before = some (tally, after)) :
    ∃ visits, Tour app budget first before visits after ∧
      tally = ⟨visits.countP Visit.isTaken, visits.any fun v => !v.isRetried⟩ := by
  induction budget using Nat.strongRecOn generalizing first before tally with
  | ind budget ih =>
    cases budget with
    | zero =>
      rw [walk_zero] at run
      obtain ⟨rfl, rfl⟩ := Prod.mk.inj (Option.some.inj run)
      exact ⟨[], .rests (Or.inl rfl), rfl⟩
    | succ room =>
      rw [walk_succ] at run
      by_cases owned : before.mac.receiver.ring.isOwned first = true
      · rw [if_pos owned] at run
        obtain ⟨rfl, rfl⟩ := Prod.mk.inj (Option.some.inj run)
        exact ⟨[], .rests (Or.inr (Or.inl owned)), rfl⟩
      · rw [if_neg owned] at run
        have reached := before.mac.receiver.ring.beyond_scan_le first room
        obtain ⟨⟨outcome, middle⟩, consumed, run⟩ := Option.bind_eq_some_iff.mp run
        rcases consume_visit near (Bool.eq_false_iff.mpr owned) consumed with
          ⟨incomplete, rfl, rfl⟩ | ⟨v, rfl, span, rfl, rfl, rfl, sound⟩
        · obtain ⟨rfl, rfl⟩ := Prod.mk.inj (Option.some.inj run)
          exact ⟨[], .rests (Or.inr (Or.inr incomplete)), rfl⟩
        · have within : v.span ≤ room + 1 := by omega
          cases retried : v.isRetried with
          | true =>
            rw [retried, if_pos rfl] at run
            obtain ⟨rfl, rfl⟩ := Prod.mk.inj (Option.some.inj run)
            refine ⟨[v], Visit.after_of_retried retried ▸ .leaves sound retried within, ?_⟩
            simp [retried, Visit.isTaken_of_isRetried retried]
          | false =>
            rw [retried, if_neg Bool.false_ne_true] at run
            obtain ⟨⟨rest, last⟩, walked, result⟩ := Option.map_eq_some_iff.mp run
            obtain ⟨rfl, rfl⟩ := Prod.mk.inj result
            rw [← span, show room - (v.found.mac.receiver.ring.scan v.first room).beyond = room + 1 - v.span by omega]
              at walked
            obtain ⟨visits, tour, rfl⟩ := ih (room + 1 - v.span) (by omega) (by omega) walked
            refine ⟨v :: visits, .goesOn sound retried within (Visit.after_of_taken retried ▸ tour), ?_⟩
            rw [List.countP_cons, List.any_cons, retried]
            cases v.isTaken <;> rfl

namespace Tour

variable {budget : Nat} {first : Fin g.rx} {visits : List (Visit g ε)}
  (tour : Tour app budget first before visits after)

include tour

theorem leads : Visit.Leads visits before after := by
  induction tour with
  | rests _ => rfl
  | leaves _ _ _ => exact ⟨rfl, rfl⟩
  | goesOn _ _ _ _ ih => exact ⟨rfl, ih⟩

theorem sound : ∀ v ∈ visits, v.IsSound app := by
  induction tour with
  | rests _ => exact fun v none => nomatch none
  | leaves here _ _ => exact fun v only => List.mem_singleton.mp only ▸ here
  | goesOn here _ _ _ ih => exact List.forall_mem_cons.mpr ⟨here, ih⟩

/-- The visits lie one behind the other round the ring. -/
theorem slots_eq : (visits.map Visit.span).sum ≤ budget ∧
    visits.flatMap Visit.slots = (List.range (visits.map Visit.span).sum).map (Ring.advance first) := by
  induction tour with
  | rests _ => exact ⟨Nat.zero_le _, rfl⟩
  | leaves _ _ within =>
    refine ⟨by simpa using within, ?_⟩
    simp [Visit.slots]
  | @goesOn budget v rest last _ _ within _ ih =>
    obtain ⟨fits, placed⟩ := ih
    rw [List.map_cons, List.sum_cons, List.flatMap_cons, placed, List.range_add, List.map_append, List.map_map]
    refine ⟨by omega, congrArg (v.slots ++ ·) (List.map_congr_left fun k _ => ?_)⟩
    exact Ring.advance_advance v.first v.span k

/-- A walk ends with a frame that is to be tried again, or where there is nothing more to deal with. -/
theorem rested : (∃ v ∈ visits.getLast?, v.isRetried = true) ∨ after.mac.receiver.ring.RestsAt
    (Ring.advance first (visits.map Visit.span).sum) (budget - (visits.map Visit.span).sum) := by
  induction tour with
  | rests rest => exact Or.inr (by rwa [List.map_nil, List.sum_nil, Ring.advance_zero, Nat.sub_zero])
  | @leaves budget v _ retried _ => exact Or.inl ⟨v, rfl, retried⟩
  | @goesOn budget v rest last _ taken _ _ ih =>
    rw [List.map_cons, List.sum_cons, ← Ring.advance_advance, Nat.sub_add_eq]
    refine ih.imp_left fun ⟨final, among, retried⟩ => ⟨final, ?_, retried⟩
    rw [Option.mem_def, List.getLast?_cons, Option.mem_def.mp among, Option.getD_some]

theorem retried_last : ∀ v ∈ visits.dropLast, v.isRetried = false := by
  induction tour with
  | rests _ | leaves _ _ _ => exact fun v none => nomatch none
  | @goesOn budget v rest last _ taken _ _ ih =>
    cases rest with
    | nil => exact fun v none => nomatch none
    | cons next rest => exact List.forall_mem_cons.mpr ⟨taken, ih⟩

end Tour

/-- Where a walk begins: at the oldest slot that is not the hardware's, seen from the position that it reports, or from
slot 0 if that is none of the ring. -/
def oldestRx [Bus ε] (board : Board g ε) : Fin g.rx :=
  board.mac.receiver.ring.oldest
    ((board.mac.receiver.ring.indexOf? (Register.currentRxDescriptor.read board.world).1).getD g.firstRx)

theorem located_oldest [Bus ε] (board : Board g ε) :
    board.located.2.mac.receiver.ring.oldest board.located.1 = board.oldestRx := by
  rw [located_mac, located_position, oldestRx]

/-- What can be said of a call that walks the ring, whatever it holds, by the visits that it makes. The receiver is
marked and the position asked for before the first visit, the channel is woken after the last one, behind which there is
nothing more to deal with unless its frame is to be tried again. -/
structure WalksSafely [Bus ε] (app : Application g ε) (before after : Board g ε) (count : Nat)
    (visits : List (Visit g ε)) (begun last : Board g ε) : Prop where
  marked : begun.mac = { before.mac with receiver := { before.mac.receiver with walking := true } }
  asked : begun.world = (Register.currentRxDescriptor.read before.world).2
  leads : Visit.Leads visits begun last
  sound : ∀ v ∈ visits, v.IsSound app
  within : (visits.map Visit.span).sum ≤ g.rx
  inOrder : visits.flatMap Visit.slots =
    (List.range (visits.map Visit.span).sum).map (Ring.advance before.oldestRx)
  rested : (∃ v ∈ visits.getLast?, v.isRetried = true) ∨ last.mac.receiver.ring.RestsAt
    (Ring.advance before.oldestRx (visits.map Visit.span).sum) (g.rx - (visits.map Visit.span).sum)
  apart : (visits.flatMap Visit.slots).Nodup
  retried : ∀ v ∈ visits.dropLast, v.isRetried = false
  counted : count = visits.countP Visit.isTaken
  ended : after = last.walkEnded (visits.any fun v => !v.isRetried)

variable [Bus ε] {count : Nat}

theorem processReceived_tour (up : before.mac.lifecycle ≠ .uninitialized)
    (outermost : before.mac.receiver.walking = false) (run : processReceived app before = some (count, after)) :
    ∃ visits last, Tour app g.rx before.oldestRx before.located.2 visits last ∧
      count = visits.countP Visit.isTaken ∧ after = last.walkEnded (visits.any fun v => !v.isRetried) := by
  rw [processReceived_outermost app up outermost, located_oldest] at run
  obtain ⟨⟨tally, last⟩, walked, result⟩ := Option.map_eq_some_iff.mp run
  obtain ⟨rfl, rfl⟩ := Prod.mk.inj result
  obtain ⟨visits, tour, rfl⟩ := walk_tour (Nat.le_refl g.rx) walked
  exact ⟨visits, last, tour, rfl, rfl⟩

theorem Tour.walksSafely {visits : List (Visit g ε)} {last : Board g ε}
    (tour : Tour app g.rx before.oldestRx before.located.2 visits last) :
    WalksSafely app before (last.walkEnded (visits.any fun v => !v.isRetried)) (visits.countP Visit.isTaken) visits
      before.located.2 last where
  marked := before.located_mac
  asked := before.located_world
  leads := tour.leads
  sound := tour.sound
  within := tour.slots_eq.1
  inOrder := tour.slots_eq.2
  rested := tour.rested
  apart := by
    obtain ⟨fits, placed⟩ := tour.slots_eq
    exact placed ▸ Ring.nodup_advance _ fits
  retried := tour.retried_last
  counted := rfl
  ended := rfl

end Board

/-- A walk over the received frames comes back and keeps to its own slots, each of which it deals with at most once,
whatever the ring holds, wherever the hardware says that it stands and whatever happens during the upcalls. -/
theorem receive_walk_safe [Bus ε] {app : Application g ε} (answers : app.Answers) {board : Board g ε}
    (up : board.mac.lifecycle ≠ .uninitialized) (outermost : board.mac.receiver.walking = false) :
    ∃ count after visits begun last, Board.processReceived app board = some (count, after) ∧
      Board.WalksSafely app board after count visits begun last := by
  obtain ⟨count, after, run⟩ := Board.processReceived_returns answers board
  obtain ⟨visits, last, tour, rfl, rfl⟩ := Board.processReceived_tour up outermost run
  exact ⟨_, _, visits, board.located.2, last, run, tour.walksSafely⟩

/-- A driver whose receive slots both hold a whole frame. -/
def Board.bothReady : Board .pair (ReceiveBench .pair RestingPeripheral) :=
  Board.halfFilled.withBlock 2 false

/-- Both slots are visited, in ring order. Their frames are offered, and they are given back with the addresses of their
own blocks. -/
theorem receive_walk_safe_both : ∃ after visits begun last,
    Board.bothReady.mac.lifecycle ≠ .uninitialized ∧ Board.bothReady.mac.receiver.walking = false ∧
    Board.processReceived Application.accepting.recorded Board.bothReady = some (2, after) ∧
    Offer.consumed after.world.offers = [⟨#[1, 2, 3, 4], none⟩, ⟨#[2, 2, 3, 4], none⟩] ∧
    after.mac.receiver.ring.descriptor Geometry.pair.firstRx = .armed 0x20000 ∧
    after.mac.receiver.ring.descriptor (Ring.next Geometry.pair.firstRx) = .armed 0x20004 ∧
    visits.flatMap Visit.slots = [Geometry.pair.firstRx, Ring.next Geometry.pair.firstRx] ∧
    Board.WalksSafely Application.accepting.recorded Board.bothReady after 2 visits begun last := by
  have up : Board.bothReady.mac.lifecycle ≠ .uninitialized := by decide +kernel
  obtain ⟨⟨count, after⟩, run, rfl, offered, first, second⟩ :
      ∃ answer ∈ Board.processReceived Application.accepting.recorded Board.bothReady, answer.1 = 2 ∧
        Offer.consumed answer.2.world.offers = [⟨#[1, 2, 3, 4], none⟩, ⟨#[2, 2, 3, 4], none⟩] ∧
        answer.2.mac.receiver.ring.descriptor Geometry.pair.firstRx = .armed 0x20000 ∧
        answer.2.mac.receiver.ring.descriptor (Ring.next Geometry.pair.firstRx) = .armed 0x20004 := by decide +kernel
  obtain ⟨_, _, visits, begun, last, same, walks⟩ :=
    receive_walk_safe Application.accepting_answers.recorded up (rfl : Board.bothReady.mac.receiver.walking = false)
  rw [run] at same
  obtain ⟨rfl, rfl⟩ := Prod.mk.inj (Option.some.inj same)
  -- two frames are taken, and no visit is made of less than one slot
  have total : (visits.map Visit.span).sum = 2 := by
    refine Nat.le_antisymm walks.within ?_
    have taken : 2 ≤ visits.length := Nat.le_trans (Nat.le_of_eq walks.counted) List.countP_le_length
    have spans := List.length_le_sum_of_one_le (visits.map Visit.span) fun span among => by
      obtain ⟨v, visited, rfl⟩ := List.mem_map.mp among
      exact (walks.sound v visited).some
    rw [List.length_map] at spans
    exact Nat.le_trans taken spans
  refine ⟨after, visits, begun, last, up, rfl, run, offered, first, second, ?_, walks⟩
  rw [walks.inOrder, total]
  decide +kernel

end EthernetMac
