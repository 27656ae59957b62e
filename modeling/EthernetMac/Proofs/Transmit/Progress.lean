import EthernetMac.Simulation.Dma
import EthernetMac.Proofs.Transmit.Runs

namespace EthernetMac

variable {g : Geometry} {ε σ : Type}

namespace Application

/-- The application always comes back from a timestamp. -/
structure AnswersStamps (app : Application g ε) : Prop where
  event : ∀ stamp board, ∃ answered, app.onEvent (.transmitTimestamp stamp) board = some answered
  stamp : ∀ callback stamp board, ∃ answered, app.onStamp callback stamp board = some answered

theorem accepting_answersStamps : (accepting : Application g ε).AnswersStamps where
  event _ _ := ⟨_, rfl⟩
  stamp _ _ _ := ⟨_, rfl⟩

theorem accepting_upcall {called back : Board g (TransmitBench σ)} (upcall : accepting.Upcall called back) :
    back = called := by
  cases upcall with
  | event run =>
    cases run
    rfl
  | stamp run =>
    cases run
    rfl

end Application

namespace Board

variable {app : Application g (TransmitBench σ)} {before : Board g (TransmitBench σ)}

theorem deliverStamp_returns {app : Application g ε} (answers : app.AnswersStamps)
    (delivery : Option Callback × TxTimestamp) (board : Board g ε) :
    ∃ after, deliverStamp app delivery board = some ((), after) := by
  obtain ⟨callback, stamp⟩ := delivery
  cases callback with
  | none =>
    obtain ⟨⟨answer, after⟩, upcall⟩ := answers.event stamp board
    exact ⟨after, Call.bind_eq_some.mpr ⟨answer, after, upcall, rfl⟩⟩
  | some callback =>
    obtain ⟨⟨answer, after⟩, upcall⟩ := answers.stamp callback stamp board
    exact ⟨after, upcall⟩

theorem load_le_of_silent {after : Board g (TransmitBench σ)} (continues : Continues before after)
    (silent : after.world.submissions = before.world.submissions) :
    after.mac.transmitter.load + after.world.deliveries.length ≤
      before.mac.transmitter.load + before.world.deliveries.length := by
  have load := continues.load
  rw [silent] at load
  omega

variable (upcalls : ∀ called back, app.Upcall called back → Carries called back)
  (silent : ∀ called back, app.Upcall called back → back.world.submissions = called.world.submissions)
  (answers : app.AnswersStamps)

include upcalls silent answers

/-- A drain comes to its end within as many deliveries as there are slots that may have a timestamp. -/
theorem drain_returns {limit : Nat} (balanced : Balanced before) (enough : before.mac.transmitter.load ≤ limit) :
    ∃ count after, drain app.logged limit before = some (count, after) ∧
      after.world.submissions = before.world.submissions := by
  induction limit generalizing before with
  | zero =>
    cases selected : before.mac.transmitter.nextStamped? with
    | none => exact ⟨_, _, drain_none _ _ selected, rfl⟩
    | some i =>
      have lighter := Transmitter.load_takeStamp (Transmitter.nextStamped?_eq_some selected).1
      omega
  | succ limit ih =>
    cases selected : before.mac.transmitter.nextStamped? with
    | none => exact ⟨_, _, drain_none _ _ selected, rfl⟩
    | some i =>
      obtain ⟨entry, delivers⟩ := balanced.ledger.delivers selected
      obtain ⟨middle, delivery⟩ := deliverStamp_returns answers (before.mac.transmitter.takeStamp i).1
        (logStamp (before.mac.transmitter.takeStamp i).1.1 (before.mac.transmitter.takeStamp i).1.2
          { before with mac := { before.mac with transmitter := (before.mac.transmitter.takeStamp i).2 } }).2
      have upcall := deliverStamp_upcall delivery
      have called := upcalls _ _ upcall (Continues.delivers balanced delivers).balanced
      have same := silent _ _ upcall
      have lighter := delivers.load
      have light := load_le_of_silent called same
      have grown := called.deliveries_le
      obtain ⟨count, after, drained, still⟩ := ih called.balanced (by omega)
      rw [drain_succ _ _ selected, deliverStamp_logged, delivery, Option.bind_some, drained]
      exact ⟨_, _, rfl, still.trans (same.trans delivers.submissions)⟩

/-- A scan that is asked for again from an upcall has delivered something, so that this comes to an end. -/
theorem scanCompletions_returns {limit scans : Nat} (balanced : Balanced before)
    (outermost : before.mac.transmitter.completing = false) (enough : before.mac.transmitter.load ≤ limit)
    (turns : before.mac.transmitter.load < scans) :
    ∃ count after, scanCompletions app.logged limit scans before = some (count, after) ∧
      after.world.submissions = before.world.submissions := by
  induction scans generalizing before with
  | zero => exact absurd turns (Nat.not_lt_zero _)
  | succ scans ih =>
    have opened := scanning_balanced balanced
    obtain ⟨count, last, drained, still⟩ := drain_returns upcalls silent answers opened enough
    obtain ⟨continues, counted⟩ := drain_continues upcalls opened drained
    rw [scanCompletions_succ, outermost, if_neg Bool.false_ne_true, drained, Option.bind_some]
    dsimp only
    split
    · rename_i again
      have some : count ≠ 0 := by
        rintro rfl
        cases selected : before.scanning.mac.transmitter.nextStamped? with
        | none =>
          rw [drain_none _ _ selected] at drained
          obtain ⟨_, rfl⟩ := Prod.mk.inj (Option.some.inj drained)
          cases again
        | some i =>
          obtain ⟨_, _, _, _, _, _, positive, _⟩ := drain_turn upcalls opened selected drained
          cases positive
      have light := load_le_of_silent continues still
      change _ ≤ before.mac.transmitter.load + before.world.deliveries.length at light
      have grown : before.world.deliveries.length + count ≤ last.world.deliveries.length := counted
      have fewer : last.scanned.mac.transmitter.load < before.mac.transmitter.load := by
        change last.mac.transmitter.load < _
        omega
      obtain ⟨more, after, scanned, stiller⟩ :=
        ih (scanned_balanced continues.balanced) rfl (by omega) (by omega)
      rw [scanned]
      exact ⟨_, _, rfl, stiller.trans still⟩
    · exact ⟨_, _, rfl, still⟩

/-- With an application that answers and submits nothing an outermost scan comes back. -/
theorem processCompletions_returns {limit : Nat} (balanced : Balanced before)
    (outermost : before.mac.transmitter.completing = false) (enough : g.tx ≤ limit) :
    ∃ count after, processCompletions app.logged limit before = some (count, after) ∧
      after.world.submissions = before.world.submissions := by
  have load := before.mac.transmitter.load_le
  rw [processCompletions_apply _ _ balanced.up]
  exact scanCompletions_returns upcalls silent answers balanced outermost (by omega) (by omega)

end Board

theorem Ledger.none_pending {t : Transmitter g} {bench : TransmitBench σ} (ledger : Ledger t bench)
    (none : t.nextStamped? = none) (j : Nat) : ¬ Pending g bench j := by
  intro pending
  have stamped := ledger.isStamped_iff.mpr ⟨j, pending, rfl⟩
  rw [Transmitter.nextStamped?_eq_none.mp none] at stamped
  cases stamped

theorem Ledger.selects {t : Transmitter g} {bench : TransmitBench σ} (ledger : Ledger t bench) {j : Nat}
    (pending : Pending g bench j) : ∃ k, Pending g bench k ∧ t.nextStamped? = some (g.txSlot k) := by
  cases selected : t.nextStamped? with
  | none => exact absurd pending (ledger.none_pending selected j)
  | some i =>
    obtain ⟨k, waits, rfl⟩ := ledger.isStamped_iff.mp (Transmitter.nextStamped?_eq_some selected).1
    exact ⟨k, waits, rfl⟩

theorem Board.processCompletions_settles {app : Application g (TransmitBench σ)}
    {before after : Board g (TransmitBench σ)}
    (upcalls : ∀ called back, app.Upcall called back → Carries called back) (balanced : Balanced before)
    (outermost : before.mac.transmitter.completing = false) {limit count : Nat}
    (run : processCompletions app.logged limit before = some (count, after)) :
    Continues before after ∧ ∀ j, ¬ Pending g after.world j := by
  have continues := processCompletions_leads upcalls limit before count after run balanced
  rw [processCompletions_apply _ _ balanced.up] at run
  exact ⟨continues, continues.balanced.ledger.none_pending (scanCompletions_empties outermost run)⟩

/-- Once nothing waits any more, a captured timestamp was delivered unless its slot has been taken. -/
theorem Continues.delivered {before after : Board g (TransmitBench σ)} (continues : Continues before after)
    (settled : ∀ j, ¬ Pending g after.world j) {j : Nat} {time : Timestamp}
    (captured : before.world.writeBacks[j]? = some (some time)) (recent : after.world.submissions.length ≤ j + g.tx) :
    j ∈ after.world.delivered := by
  have kept := getElem?_of_start continues.writeBacks captured
  obtain ⟨inside, _⟩ := List.getElem?_eq_some_iff.mp kept
  have made := Nat.lt_of_lt_of_le inside continues.balanced.ledger.finished
  exact Decidable.byContradiction fun undelivered => settled j ⟨⟨made, recent⟩, undelivered, time, kept⟩

/-- The next frame can be taken as long as the hardware has fewer frames than slots. -/
theorem Ledger.isReady {t : Transmitter g} {bench : TransmitBench σ} (ledger : Ledger t bench)
    (room : bench.submissions.length < bench.writeBacks.length + g.tx) : t.isReady = true := by
  have free : t.ring.isOwned t.nextSlot = false := by
    rw [ledger.nextSlot]
    rcases Nat.lt_or_ge bench.submissions.length g.tx with first | turned
    · exact ledger.isOwned_unused (Nat.le_of_eq (Nat.mod_eq_of_lt first).symm)
    · obtain ⟨oldest, turn⟩ := Nat.exists_eq_add_of_le' turned
      have positive := g.tx_pos
      rw [turn, Geometry.txSlot_turn, Bool.eq_false_iff, ne_eq, ledger.isOwned_iff ⟨by omega, by omega⟩]
      omega
  rw [Transmitter.isReady, free]
  rfl

namespace Descriptor

theorem sent_isOwned (stamp : Option Timestamp) : (sent stamp 0).isOwned = false := by
  have released : ∀ stamped : Bool,
      (firstBit ||| lastBit ||| (if stamped = true then stampCapturedBit else 0) ||| 0) &&& ownBit = 0 := by decide
  exact bne_eq_false_iff_eq.mpr (released stamp.isSome)

theorem sent_captured (stamp : Option Timestamp) : (sent stamp 0).captured = stamp := by
  cases stamp with
  | none => rfl
  | some time =>
    have marked : (sent (some time) 0).stampCaptured = true :=
      bne_iff_ne.mpr (by decide : (firstBit ||| lastBit ||| stampCapturedBit ||| 0) &&& stampCapturedBit ≠ 0)
    exact if_pos marked

end Descriptor

/-- A driver that runs can be brought to this board with this record. -/
structure Reached [Bus σ] (board : Board g (TransmitBench σ)) (submissions : List TxOptions)
    (writeBacks : List (Option Timestamp)) : Prop where
  reach : TransmitReach board
  running : board.mac.lifecycle = .running
  record : board.world.record = (submissions, writeBacks, [])

namespace Reached

variable [Bus σ] {board : Board g (TransmitBench σ)} {submissions : List TxOptions}
  {writeBacks : List (Option Timestamp)}

theorem submitted (reached : Reached board submissions writeBacks) : board.world.submissions = submissions :=
  congrArg (·.1) reached.record

theorem written (reached : Reached board submissions writeBacks) : board.world.writeBacks = writeBacks :=
  congrArg (·.2.1) reached.record

theorem undelivered (reached : Reached board submissions writeBacks) : board.world.deliveries = [] :=
  congrArg (·.2.2) reached.record

theorem pending (reached : Reached board submissions writeBacks) {j : Nat} {time : Timestamp}
    (captured : writeBacks[j]? = some (some time)) (recent : submissions.length ≤ j + g.tx) :
    Pending g board.world j := by
  obtain ⟨done, _⟩ := List.getElem?_eq_some_iff.mp captured
  have finished := reached.reach.balanced.1.ledger.finished
  rw [reached.submitted, reached.written] at finished
  refine ⟨⟨?_, ?_⟩, ?_, time, ?_⟩
  · rw [reached.submitted]
    exact Nat.lt_of_lt_of_le done finished
  · rwa [reached.submitted]
  · rw [TransmitBench.delivered, reached.undelivered]
    exact List.not_mem_nil
  · rwa [reached.written]

theorem submit (reached : Reached board submissions writeBacks) (options : TxOptions)
    (room : submissions.length < writeBacks.length + g.tx) :
    ∃ after : Board g (TransmitBench σ), Reached after (submissions ++ [options]) writeBacks := by
  have ready := reached.reach.balanced.1.ledger.isReady (by rwa [reached.submitted, reached.written])
  have valid : g.lengthFault? (#[0] : Array UInt8).size = none := by
    have positive := g.buffer_pos
    rw [Geometry.lengthFault?, if_neg (by decide), if_neg]
    rintro (long | long)
    · exact absurd positive (by simpa using long)
    · exact absurd long (by decide)
  have run := Board.tryTransmit_apply #[0] options board
  rw [if_pos reached.running, valid, if_pos ready] at run
  refine ⟨_, reached.reach.run (.submit (.still _) run), ?_, ?_⟩
  · change (Board.fillSlot _ _ _ board).2.mac.lifecycle = _
    rw [Board.fillSlot_mac]
    exact reached.running
  · have same := Board.fillSlot_record board.mac.transmitter.nextSlot #[0] options board
    rw [reached.record] at same
    exact Prod.ext (congrArg (· ++ [options]) (congrArg (·.1) same)) (congrArg (·.2) same)

theorem finish (reached : Reached board submissions writeBacks) (left : writeBacks.length < submissions.length)
    (stamp : Option Timestamp) (asked : stamp.isSome = true →
      ∃ request, submissions[writeBacks.length]? = some (.captureTimestamp request)) :
    ∃ after : Board g (TransmitBench σ), Reached after submissions (writeBacks ++ [stamp]) := by
  have ledger := reached.reach.balanced.1.ledger
  have submitted := reached.submitted
  have written := reached.written
  have held := (ledger.isOwned_iff ⟨by rwa [submitted, written], ledger.inFlight⟩).mpr
    (Nat.le_refl board.world.writeBacks.length)
  refine ⟨board.finished (.sent stamp 0),
    reached.reach.run (.finish (.still _) held (Descriptor.sent_isOwned stamp) ?_),
    reached.running, ?_⟩
  · intro captured
    rw [submitted, written]
    refine asked ?_
    cases stamp with
    | none => cases captured
    | some time => rfl
  · have marked := Descriptor.sent_captured stamp
    change (board.world.submissions, board.world.writeBacks ++ [_], board.world.deliveries) = _
    rw [marked, submitted, written, reached.undelivered]

theorem plain (reached : Reached board [] []) (n : Nat) :
    ∃ after : Board g (TransmitBench σ), Reached after (List.replicate n .none) (List.replicate n none) := by
  induction n with
  | zero => exact ⟨board, reached⟩
  | succ n ih =>
    obtain ⟨middle, sent⟩ := ih
    have room := g.tx_pos
    obtain ⟨full, submitted⟩ := sent.submit .none (by simpa using room)
    obtain ⟨after, finished⟩ := submitted.finish (by simp) none (fun absent => nomatch absent)
    rw [← List.replicate_succ', ← List.replicate_succ'] at finished
    exact ⟨after, finished⟩

end Reached

theorem Application.accepting_runs [Bus σ] {called back : Board g (TransmitBench σ)}
    (upcall : accepting.Upcall called back) : TransmitRun called back := by
  rw [accepting_upcall upcall]
  exact .still called

theorem Application.accepting_carries {called back : Board g (TransmitBench σ)}
    (upcall : accepting.Upcall called back) :
    Carries called back := by
  rw [accepting_upcall upcall]
  exact .refl _

/-- An application that does nothing is given all timestamps whose slots have not been taken. -/
theorem Reached.scan [Bus σ] {board : Board g (TransmitBench σ)} {submissions : List TxOptions}
    {writeBacks : List (Option Timestamp)} (reached : Reached board submissions writeBacks) :
    ∃ count after, Board.processCompletions Application.accepting.logged g.tx board = some (count, after) ∧
      TransmitReach after ∧ ∀ (j : Nat) time, writeBacks[j]? = some (some time) → submissions.length ≤ j + g.tx →
        j ∈ after.world.delivered := by
  obtain ⟨balanced, outermost⟩ := reached.reach.balanced
  obtain ⟨count, after, run, still⟩ := Board.processCompletions_returns (fun _ _ => Application.accepting_carries)
    (fun called back upcall => by rw [Application.accepting_upcall upcall]) Application.accepting_answersStamps balanced
    outermost (Nat.le_refl _)
  obtain ⟨continues, settled⟩ :=
    Board.processCompletions_settles (fun _ _ => Application.accepting_carries) balanced outermost run
  refine ⟨count, after, run,
    reached.reach.run (.completions (.still _) (fun _ _ => Application.accepting_runs) run), ?_⟩
  intro j time captured recent
  rw [← reached.written] at captured
  rw [← reached.submitted, ← still] at recent
  exact continues.delivered settled captured recent

theorem TransmitReach.scanned [Bus σ] {board : Board g (TransmitBench σ)} (reach : TransmitReach board) (limit : Nat)
    (returns : (Board.processCompletions Application.accepting.logged limit board).isSome = true) :
    TransmitReach ((Board.processCompletions Application.accepting.logged limit board).get returns).2 := by
  exact reach.run (.completions (.still board) (fun _ _ => Application.accepting_runs) (Option.some_get returns).symm)

/-- A driver that was never used, in a peripheral at rest. -/
def Board.unsent (g : Geometry) : Board g (TransmitBench RestingPeripheral) where
  mac := .blank g ⟨0, 0x10000, 0x20000⟩
  world := { rest := {} }

theorem Reached.rested (g : Geometry) :
    ∃ board : Board g (TransmitBench RestingPeripheral), Reached board [] [] := by
  have up : Board.init {} (Board.unsent g) = (.ok (), (Board.init {} (Board.unsent g)).2) := Prod.ext rfl rfl
  have run : Board.start (Board.init {} (Board.unsent g)).2 =
      (.ok (), (Board.start (Board.init {} (Board.unsent g)).2).2) := Prod.ext rfl rfl
  exact ⟨_, .start rfl rfl up run, rfl, rfl⟩

theorem Reached.single : ∃ board : Board .smallest (TransmitBench RestingPeripheral),
    Reached board [.captureTimestamp {}] [some ⟨5, 6⟩] := by
  obtain ⟨rested, none⟩ := Reached.rested .smallest
  obtain ⟨full, submitted⟩ := none.submit (.captureTimestamp {}) (by decide)
  exact submitted.finish (by decide) (some ⟨5, 6⟩) fun _ => ⟨{}, rfl⟩

/-- After `n` frames without a timestamp both slots of a ring hold one. -/
theorem Reached.twoBehind (n : Nat) : ∃ (board : Board .pair (TransmitBench RestingPeripheral))
    (submissions : List TxOptions) (writeBacks : List (Option Timestamp)),
      Reached board submissions writeBacks ∧ submissions.length = n + 2 ∧
      writeBacks[n]? = some (some ⟨5, 6⟩) ∧ writeBacks[n + 1]? = some (some ⟨7, 8⟩) := by
  obtain ⟨rested, none⟩ := Reached.rested .pair
  obtain ⟨plain, sent⟩ := none.plain n
  obtain ⟨one, sent⟩ := sent.submit (.captureTimestamp {}) (by simp [Geometry.pair])
  obtain ⟨two, sent⟩ := sent.submit (.captureTimestamp {}) (by simp [Geometry.pair])
  obtain ⟨half, sent⟩ := sent.finish (by simp) (some ⟨5, 6⟩) fun _ => ⟨{}, by simp⟩
  obtain ⟨board, sent⟩ := sent.finish (by simp) (some ⟨7, 8⟩) fun _ => ⟨{}, by simp⟩
  exact ⟨board, _, _, sent, by simp, by simp, by simp⟩

end EthernetMac
