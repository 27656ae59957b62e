import EthernetMac.Proofs.Receive.Walk

namespace EthernetMac

variable {g : Geometry} {σ : Type}

/-- The driver and its receive DMA agree on where they are: from `start` on the ring holds the last `parts` that the DMA
has written, and the DMA writes on behind them. -/
structure Tracks (board : Board g (ReceiveBench g σ)) (start : Fin g.rx) (parts : List (Part g)) : Prop where
  recent : parts <:+ board.world.dma.history
  holds : board.mac.receiver.Holds start parts
  position : board.world.dma.position = Ring.advance start parts.length
  base : board.world.ringBase = board.mac.receiver.ring.base
  up : board.mac.lifecycle ≠ .uninitialized

namespace Tracks

variable {board after : Board g (ReceiveBench g σ)} {start : Fin g.rx} {parts : List (Part g)}

theorem congr (tracks : Tracks board start parts) (core : after.world.core = board.world.core)
    (ring : after.mac.receiver.ring = board.mac.receiver.ring)
    (pool : after.mac.receiver.pool = board.mac.receiver.pool) (up : after.mac.lifecycle ≠ .uninitialized) :
    Tracks after start parts := by
  obtain ⟨base, dma, _⟩ : after.world.ringBase = board.world.ringBase ∧ after.world.dma = board.world.dma ∧
      after.world.offers = board.world.offers := by simpa [ReceiveBench.core] using core
  refine ⟨?_, tracks.holds.congr ring pool, ?_, ?_, up⟩
  · rw [dma]
    exact tracks.recent
  · rw [dma, tracks.position]
  · rw [base, ring, tracks.base]

theorem init [Bus σ] {config : Config} {placement : Placement} {before : Board g (ReceiveBench g σ)}
    (fresh : before.mac = Mac.blank g placement) (base : before.world.ringBase = placement.rxRing)
    (run : Board.init config before = (.ok (), after)) :
    Tracks after after.world.dma.position [] ∧ after.world.core = before.world.core ∧
      after.mac.receiver.walking = false := by
  have mac := Board.init_mac run
  have core := Board.init_world ReceiveBench.core_untouched config before
  rw [run] at core
  have sameBase : after.world.ringBase = before.world.ringBase := congrArg (·.1) core
  refine ⟨⟨List.nil_suffix, ?_, (Ring.advance_zero _).symm, ?_, ?_⟩, core, ?_⟩
  · rw [mac]
    exact .arm _ _
  · rw [sameBase, base, mac, fresh]
    rfl
  · rw [mac]
    simp
  · rw [mac, fresh]
    rfl

theorem writeBack (tracks : Tracks board start parts) {part : Part g} {d : Descriptor}
    (due : board.world.dma.MayWrite part)
    (owned : board.mac.receiver.ring.isOwned board.world.dma.position = true) (describes : part.Describes d) :
    Tracks { board with
      mac := { board.mac with receiver := board.mac.receiver.writeBack board.world.dma.position d part.bytes }
      world := { board.world with dma := board.world.dma.wrote part } } start (parts ++ [part]) := by
  rw [tracks.position] at owned
  have longer := tracks.holds.writeBack owned describes
  rw [← tracks.position] at longer
  refine ⟨?_, longer, ?_, tracks.base, tracks.up⟩
  · obtain ⟨old, split⟩ := tracks.recent
    refine ⟨old, ?_⟩
    rw [due.history_wrote, ← split, List.append_assoc]
  · rw [ReceiveDma.position_wrote, tracks.position, Ring.next_advance, List.length_append, List.length_singleton]

variable {admits : Reception g → Prop}

theorem meanwhile (tracks : Tracks board start parts) (event : Meanwhile admits board after) :
    ∃ arrived, Tracks after start (parts ++ arrived) := by
  cases event with
  | writeBack _ due owned describes => exact ⟨_, tracks.writeBack due owned describes⟩
  | aside receiver core up =>
    refine ⟨[], ?_⟩
    rw [List.append_nil]
    exact tracks.congr core (congrArg Receiver.ring receiver) (congrArg Receiver.pool receiver) (up tracks.up)

theorem meanwhile_many (tracks : Tracks board start parts)
    (events : Relation.ReflTransGen (Meanwhile admits) board after) :
    ∃ arrived, Tracks after start (parts ++ arrived) := by
  induction events with
  | refl => exact ⟨[], by rwa [List.append_nil]⟩
  | tail _ event ih =>
    obtain ⟨arrived, tracks⟩ := ih
    obtain ⟨more, tracks⟩ := tracks.meanwhile event
    exact ⟨arrived ++ more, by rwa [← List.append_assoc]⟩

theorem record (tracks : Tracks board start parts) (offers : List (Offer g)) :
    Tracks { board with world := { board.world with offers := offers } } start parts :=
  ⟨tracks.recent, tracks.holds, tracks.position, tracks.base, tracks.up⟩

theorem rearm {gone rest : List (Part g)} (tracks : Tracks board start (gone ++ rest)) :
    Tracks { board with mac := { board.mac with receiver := { board.mac.receiver with
      ring := board.mac.receiver.ring.rearm start gone.length } } } (Ring.advance start gone.length) rest := by
  refine ⟨(List.suffix_append gone rest).trans tracks.recent, tracks.holds.rearm, ?_, ?_, tracks.up⟩
  · rw [tracks.position, Ring.advance_advance, List.length_append]
  · rw [Ring.base_rearm]
    exact tracks.base

end Tracks

/-- While the application is at work on an event, the driver and the DMA stay in agreement. -/
def Application.KeepsTrack (app : Application g (ReceiveBench g σ)) : Prop :=
  ∀ event before answer after start parts, app.onEvent event before = some (answer, after) →
    Tracks before start parts → ∃ arrived, Tracks after start (parts ++ arrived)

theorem Application.SparesReceiver.keepsTrack {admits : Reception g → Prop} {app : Application g (ReceiveBench g σ)}
    (spares : app.SparesReceiver admits) : app.recorded.KeepsTrack := by
  intro event before answer after start parts run tracks
  simp only [Application.recorded] at run
  rw [Call.get_bind_apply, Call.bind_eq_some] at run
  obtain ⟨given, middle, upcall, rest⟩ := run
  obtain ⟨arrived, later⟩ := tracks.meanwhile_many (spares _ _ _ _ upcall)
  refine ⟨arrived, ?_⟩
  cases event with
  | frameAvailable frame =>
    obtain ⟨_, rfl⟩ := Prod.mk.inj (Option.some.inj rest)
    exact later.record _
  | receiveReady | transmitTimestamp _ | linkChanged _ =>
    obtain ⟨_, rfl⟩ := Prod.mk.inj (Option.some.inj rest)
    exact later

namespace Tracks

variable {board after : Board g (ReceiveBench g σ)} {start : Fin g.rx} {parts : List (Part g)}

theorem consume {app : Application g (ReceiveBench g σ)} (keeps : app.KeepsTrack)
    (tracks : Tracks board start parts) {first : Fin g.rx} {run : Run g.rx} {verdict : Option Bool}
    (consumed : Board.consume app first run board = some (verdict, after)) :
    ∃ arrived, Tracks after start (parts ++ arrived) := by
  have noted : ∀ journal, Tracks { board with journal := journal } start parts :=
    fun _ => tracks.congr rfl rfl rfl tracks.up
  have offered : ∀ last segments context journal answered,
      Board.offer app first last segments context { board with journal := journal } = some answered →
        ∃ arrived, Tracks answered.2 start (parts ++ arrived) := by
    intro last segments context journal answered offer
    rw [Board.offer_apply] at offer
    split at offer
    · obtain rfl := Option.some.inj offer
      exact ⟨[], by rw [List.append_nil]; exact tracks.congr rfl rfl rfl tracks.up⟩
    · rename_i length _
      obtain ⟨⟨answer, middle⟩, upcall, rfl⟩ := Option.map_eq_some_iff.mp offer
      obtain ⟨scratch, gathered⟩ := board.mac.receiver.frameBytes_receiver first segments length
      simp only [gathered] at upcall
      have prepared : Tracks { board with
          mac := { board.mac with receiver := { board.mac.receiver with scratch := scratch } }
          journal := journal } start parts := tracks.congr rfl rfl rfl tracks.up
      exact keeps _ _ _ _ _ _ upcall prepared
  cases run with
  | incomplete =>
    obtain ⟨_, rfl⟩ := Prod.mk.inj (Option.some.inj consumed)
    exact ⟨[], by rw [List.append_nil]; exact noted _⟩
  | stray following =>
    obtain ⟨_, rfl⟩ := Prod.mk.inj (Option.some.inj consumed)
    exact ⟨[], by rw [List.append_nil]; exact noted _⟩
  | overflow following =>
    obtain ⟨_, rfl⟩ := Prod.mk.inj (Option.some.inj consumed)
    exact ⟨[], by rw [List.append_nil]; exact noted _⟩
  | frame last following context =>
    obtain ⟨journal, offers⟩ := Board.consume_offers app first last following context board
    rw [offers] at consumed
    obtain ⟨answered, offer, result⟩ := Option.map_eq_some_iff.mp consumed
    obtain ⟨_, rfl⟩ := Prod.mk.inj result
    exact offered _ _ _ _ _ offer

/-- The slots of a run that is found at a released slot can be given back, whatever has come in meanwhile. -/
theorem giveBack {middle : Board g (ReceiveBench g σ)} {arrived : List (Part g)} {room : Nat}
    (tracks : Tracks board start parts) (released : board.mac.receiver.ring.isOwned start = false) (near : room < g.rx)
    (later : Tracks middle start (parts ++ arrived)) :
    ∃ rest, Tracks { middle with mac := { middle.mac with receiver := { middle.mac.receiver with
        ring := middle.mac.receiver.ring.rearm start ((board.mac.receiver.ring.scan start room).beyond + 1) } } }
      (Ring.advance start ((board.mac.receiver.ring.scan start room).beyond + 1)) rest := by
  have arc := tracks.holds.isArc
  have within := Ring.beyond_scan_lt arc (arc.released_start_iff.mp released) near
  generalize (board.mac.receiver.ring.scan start room).beyond = beyond at within
  have length : ((parts ++ arrived).take (beyond + 1)).length = beyond + 1 := by
    rw [List.length_take, List.length_append]
    omega
  rw [← List.take_append_drop (beyond + 1) (parts ++ arrived)] at later
  have given := later.rearm
  rw [length] at given
  exact ⟨_, given⟩

/-- A walk only gives back slots that hold something, and so never loses track of the DMA. -/
theorem walk {app : Application g (ReceiveBench g σ)} (keeps : app.KeepsTrack) {budget : Nat}
    (near : budget ≤ g.rx) (tracks : Tracks board start parts) {tally : Board.WalkTally}
    (run : Board.walk app budget start board = some (tally, after)) : ∃ final left, Tracks after final left := by
  induction budget using Nat.strongRecOn generalizing board start parts tally with
  | ind budget ih =>
    cases budget with
    | zero =>
      rw [Board.walk_zero] at run
      obtain ⟨_, rfl⟩ := Prod.mk.inj (Option.some.inj run)
      exact ⟨start, parts, tracks⟩
    | succ room =>
      rw [Board.walk_succ] at run
      by_cases owned : board.mac.receiver.ring.isOwned start = true
      · rw [if_pos owned] at run
        obtain ⟨_, rfl⟩ := Prod.mk.inj (Option.some.inj run)
        exact ⟨start, parts, tracks⟩
      · rw [if_neg owned] at run
        obtain ⟨⟨verdict, middle⟩, consumed, run⟩ := Option.bind_eq_some_iff.mp run
        obtain ⟨arrived, later⟩ := tracks.consume keeps consumed
        cases verdict with
        | none =>
          obtain ⟨_, rfl⟩ := Prod.mk.inj (Option.some.inj run)
          exact ⟨start, parts ++ arrived, later⟩
        | some delivered =>
          obtain ⟨⟨rest, final⟩, walked, result⟩ := Option.map_eq_some_iff.mp run
          obtain ⟨_, rfl⟩ := Prod.mk.inj result
          obtain ⟨left, given⟩ := tracks.giveBack (Bool.eq_false_iff.mpr owned) (by omega : room < g.rx) later
          exact ih (room - (board.mac.receiver.ring.scan start room).beyond) (by omega) (by omega) given walked

/-- A call that comes back has made a walk from the oldest slot on, and has done no more than mark it and wake the
DMA. -/
theorem walked [Bus σ] {app : Application g (ReceiveBench g σ)} (tracks : Tracks board start parts)
    (idle : board.mac.receiver.walking = false) {count : Nat}
    (run : Board.processReceived app board = some (count, after)) :
    ∃ tally last, Board.walk app g.rx start { board with mac := { board.mac with receiver := { board.mac.receiver with
        walking := true } } } = some (tally, last) ∧ count = tally.delivered ∧
      after.mac = { last.mac with receiver := { last.mac.receiver with walking := false } } ∧
      ∀ {κ : Type} {view : ReceiveBench g σ → κ}, Bus.Untouched view → view after.world = view last.world := by
  rw [Board.processReceived_bench _ tracks.up idle tracks.base, tracks.position, tracks.holds.isArc.oldest_eq] at run
  obtain ⟨⟨tally, last⟩, walk, result⟩ := Option.map_eq_some_iff.mp run
  obtain ⟨rfl, rfl⟩ := Prod.mk.inj result
  exact ⟨tally, last, walk, rfl, rfl, fun far => Board.walkEnded_world far last tally.rearmed⟩

theorem process [Bus σ] {app : Application g (ReceiveBench g σ)} (keeps : app.KeepsTrack)
    (tracks : Tracks board start parts) (idle : board.mac.receiver.walking = false) {count : Nat}
    (run : Board.processReceived app board = some (count, after)) :
    (∃ final left, Tracks after final left) ∧ after.mac.receiver.walking = false := by
  obtain ⟨tally, last, walk, _, mac, kept⟩ := tracks.walked idle run
  have core := kept ReceiveBench.core_untouched
  have marked : Tracks { board with mac := { board.mac with receiver := { board.mac.receiver with
      walking := true } } } start parts := tracks.congr rfl rfl rfl tracks.up
  obtain ⟨final, left, later⟩ := marked.walk keeps (Nat.le_refl _) walk
  refine ⟨⟨final, left, later.congr core ?_ ?_ ?_⟩, ?_⟩
  · rw [mac]
  · rw [mac]
  · rw [mac]
    exact later.up
  · rw [mac]

end Tracks

/-- Between two calls the driver and the DMA are in agreement, whatever frames come in. -/
theorem ReceiveReach.tracks [Bus σ] {admits : Reception g → Prop} {board : Board g (ReceiveBench g σ)}
    (reach : ReceiveReach admits board) :
    (∃ start parts, Tracks board start parts) ∧ board.mac.receiver.walking = false := by
  induction reach with
  | start fresh base _ _ _ run =>
    obtain ⟨tracks, _, idle⟩ := Tracks.init fresh base run
    exact ⟨⟨_, [], tracks⟩, idle⟩
  | meanwhile _ event ih =>
    obtain ⟨⟨start, parts, tracks⟩, idle⟩ := ih
    obtain ⟨arrived, tracks⟩ := tracks.meanwhile event
    refine ⟨⟨start, parts ++ arrived, tracks⟩, ?_⟩
    cases event with
    | writeBack => exact idle
    | aside receiver _ _ =>
      rw [receiver]
      exact idle
  | process _ spares run ih =>
    obtain ⟨⟨start, parts, tracks⟩, idle⟩ := ih
    exact tracks.process spares.keepsTrack idle run

end EthernetMac
