import EthernetMac.Proofs.Receive.Holding
import EthernetMac.Proofs.Reset.Deadline
import EthernetMac.Proofs.Setting
import EthernetMac.Proofs.Trace
import EthernetMac.Proofs.Station

namespace EthernetMac

open Peripheral

variable {g : Geometry} {σ τ : Type}

/-- Registers that hold what was last written to them, but for the one with the reset: that one is the hardware's, which
may take notice of everything that happens. -/
structure RegisterStore (σ : Type) where
  words : UInt32 → UInt32
  hardware : σ

instance [Bus σ] : Bus (RegisterStore σ) where
  read offset store :=
    (if offset = Register.dmaMode.offset then (Bus.read offset store.hardware).1 else store.words offset,
      { store with hardware := (Bus.read offset store.hardware).2 })
  write offset value store :=
    { words := fun place =>
        if place = offset ∧ offset ≠ Register.dmaMode.offset then value else store.words place
      hardware := Bus.write offset value store.hardware }
  delay nanoseconds store := { store with hardware := Bus.delay nanoseconds store.hardware }

abbrev StoredWorld (σ : Type) := Traced (RegisterStore σ)

section Hardware

variable [Bus σ] (env : StoredWorld σ)

theorem showsReset_hardware : ShowsReset env ↔ ShowsReset env.rest.hardware := Iff.rfl

theorem watched_hardware (looks : Nat) : (watched looks env).rest.hardware = watched looks env.rest.hardware := by
  induction looks generalizing env with
  | zero => rfl
  | succ looks ih => exact ih _

theorem requested_hardware : (requestReset env).2.rest.hardware = (requestReset env.rest.hardware).2 := rfl

/-- Whether a reset is done in time is up to the hardware alone. -/
theorem resetsWithin_hardware (polls : Nat) :
    ResetsWithin polls env ↔ ResetsWithin polls env.rest.hardware := by
  unfold ResetsWithin
  simp only [showsReset_hardware, watched_hardware, requested_hardware]

end Hardware

/-- Of all registers only the one with the reset was written. -/
structure OnlyReset (before after : StoredWorld σ) : Prop where
  words : after.rest.words = before.rest.words
  writes : Traced.Adds (Deed.WritesOnly .dmaMode) before after

theorem OnlyReset.composes : Bus.Composes (OnlyReset : StoredWorld σ → StoredWorld σ → Prop) where
  refl env := ⟨rfl, (Deed.writesOnly_composes .dmaMode).refl env⟩
  trans one two := ⟨two.words.trans one.words, (Deed.writesOnly_composes .dmaMode).trans one.writes two.writes⟩

theorem OnlyReset.softReset [Bus σ] (timeoutMs : UInt32) (env : StoredWorld σ) :
    OnlyReset env ((softReset timeoutMs).run env).2 := by
  refine softReset_across composes (fun env => ⟨?_, ?_⟩) (fun env => ⟨rfl, ?_⟩) (fun env => ⟨rfl, ?_⟩) timeoutMs env
  · funext place
    exact if_neg fun wrong => wrong.2 rfl
  · refine Traced.Adds.update (fun value => ?_) env
    exact fun offset written among => by
      rcases List.mem_cons.mp among with read | write
      · cases read
      · exact Deed.writesOnly_write _ _ offset written write
  · exact Traced.Adds.load (fun value => Deed.writesOnly_read _ _ value) env
  · exact ⟨_, rfl, fun _ _ among => by cases List.mem_singleton.mp among⟩

namespace Board

/-- The registers, but for the one with the reset. -/
def words (board : Board g (StoredWorld σ)) : UInt32 → UInt32 := board.world.rest.words

/-- What becomes of the reset. -/
def hardware (board : Board g (StoredWorld σ)) : σ := board.world.rest.hardware

/-- A driver that was brought up and has not been used. -/
structure Prepared [Bus σ] (config : Config) (board : Board g (StoredWorld σ)) : Prop where
  lifecycle : board.mac.lifecycle = .initialized
  address : (Peripheral.station board.world).1 = config.address
  armed : ∀ i, board.mac.receiver.ring.isOwned i = true
  released : ∀ i, board.mac.transmitter.ring.isOwned i = false
  zeroed : ∀ i, (board.mac.transmitter.ring.descriptor i).words = [0, 0, 0, 0]
  unasked : ∀ i, (board.mac.transmitter.ring.slot i).ext = { buffer := board.mac.transmitter.pool.address i }
  nextSlot : board.mac.transmitter.nextSlot = g.firstTx
  submitted : board.mac.transmitter.submitted = 0
  acknowledged : board.mac.transmitter.acknowledged = 0

/-- An attempt to bring a driver up fails at once, or in the reset with nothing done but the reset, or succeeds with
everything done. It succeeds if one of the looks that are taken finds the reset done. -/
structure BringsUpWhole [Bus σ] (config : Config) (board : Board g (StoredWorld σ)) : Prop where
  repeated : board.mac.lifecycle ≠ .uninitialized →
    init config board = (.error ConfigFault.alreadyInitialized, board)
  invalid : board.mac.lifecycle = .uninitialized → config.address.isGroup = true ∨ config.resetTimeoutMs = 0 →
    init config board = (.error ConfigFault.invalidConfig, board)
  stuck : board.mac.lifecycle = .uninitialized → ¬ (config.address.isGroup = true ∨ config.resetTimeoutMs = 0) →
    ¬ ResetsWithin (resetPolls config.resetTimeoutMs) board.hardware →
      ∃ world, init config board = (.error ConfigFault.resetFailed, { board with world := world }) ∧
        OnlyReset board.world world ∧
        world.rest.hardware = watched (resetPolls config.resetTimeoutMs) (requestReset board.hardware).2
  done : board.mac.lifecycle = .uninitialized → ¬ (config.address.isGroup = true ∨ config.resetTimeoutMs = 0) →
    ResetsWithin (resetPolls config.resetTimeoutMs) board.hardware →
      ∃ after, init config board = (.ok (), after) ∧ after.Prepared config

/-- Any number of attempts to bring a driver up, none of which has succeeded. Between them the hardware goes on. -/
inductive FailedAttempts [Bus σ] (start : Board g (StoredWorld σ)) : Board g (StoredWorld σ) → Prop
  | none : FailedAttempts start start
  | goesOn {before} (hardware : σ) : FailedAttempts start before →
      FailedAttempts start { before with world.rest.hardware := hardware }
  | attempt {before config failure after} : FailedAttempts start before →
      init config before = (.error failure, after) → FailedAttempts start after

/-- The driver and the registers are the same, whatever becomes of a reset. -/
structure Alike (one : Board g (StoredWorld σ)) (two : Board g (StoredWorld τ)) : Prop where
  mac : two.mac = one.mac
  words : two.words = one.words

theorem Alike.trans {ρ : Type} {one : Board g (StoredWorld σ)} {two : Board g (StoredWorld τ)}
    {three : Board g (StoredWorld ρ)} (first : one.Alike two) (second : two.Alike three) : one.Alike three :=
  ⟨second.mac.trans first.mac, second.words.trans first.words⟩

theorem Alike.symm {one : Board g (StoredWorld σ)} {two : Board g (StoredWorld τ)} (alike : one.Alike two) :
    two.Alike one := ⟨alike.mac.symm, alike.words.symm⟩

section Attempts

variable [Bus σ] [Bus τ] {config : Config}

theorem init_fails {board after : Board g (StoredWorld σ)} {failure : Failure}
    (run : init config board = (.error failure, after)) : board.Alike after := by
  rcases init_error run with rfl | rfl
  · exact ⟨rfl, rfl⟩
  · exact ⟨rfl, (OnlyReset.softReset config.resetTimeoutMs board.world).words⟩

theorem write_words (register : Register) (value : UInt32) {one : StoredWorld σ} {two : StoredWorld τ}
    (same : two.rest.words = one.rest.words) :
    (register.write value two).2.rest.words = (register.write value one).2.rest.words :=
  congrArg (fun (words : UInt32 → UInt32) place =>
    if place = register.offset ∧ register.offset ≠ Register.dmaMode.offset then value else words place) same

theorem configureMac_words (config : Config) {one : StoredWorld σ} {two : StoredWorld τ}
    (same : two.rest.words = one.rest.words) :
    (configureMac config two).2.rest.words = (configureMac config one).2.rest.words :=
  write_words .rxQueueMode _ <| write_words .txQueueMode _ <| write_words .macConfiguration _ <|
    write_words .packetFilter _ <| write_words .stationLow _ <| write_words .stationHigh _ <|
    write_words .mdioAddress _ same

theorem layOutRings_alike (burst : UInt32) {one : Board g (StoredWorld σ)} {two : Board g (StoredWorld τ)}
    (alike : one.Alike two) : (layOutRings burst one).2.Alike (layOutRings burst two).2 := by
  obtain ⟨mac, world, journal⟩ := one
  obtain ⟨mac', world', journal'⟩ := two
  obtain ⟨rfl, same⟩ := alike
  refine ⟨rfl, ?_⟩
  exact write_words .rxTailPointer _ <| write_words .txTailPointer _ <| write_words .rxListAddress _ <|
    write_words .rxRingLength _ <| write_words .txListAddress _ <| write_words .txRingLength _ <|
    write_words .rxControl _ <| write_words .txControl _ <| write_words .channelControl _ same

theorem broughtUp_alike (config : Config) {one : Board g (StoredWorld σ)} {two : Board g (StoredWorld τ)}
    (alike : one.Alike two) {world : StoredWorld σ} {other : StoredWorld τ} (only : OnlyReset one.world world)
    (others : OnlyReset two.world other) :
    (broughtUp config one world).Alike (broughtUp config two other) := by
  have same : other.rest.words = world.rest.words := others.words.trans (alike.words.trans only.words.symm)
  have configured : ({ one with world := (configureMac config world).2 } : Board g (StoredWorld σ)).Alike
      ({ two with world := (configureMac config other).2 } : Board g (StoredWorld τ)) :=
    ⟨alike.mac, configureMac_words config same⟩
  have laid := layOutRings_alike config.burst.beats configured
  exact ⟨congrArg (fun mac : Mac g => { mac with lifecycle := .initialized }) laid.mac, laid.words⟩

theorem broughtUp_prepared (config : Config) (board : Board g (StoredWorld σ)) (world : StoredWorld σ) :
    (broughtUp config board world).Prepared config where
  lifecycle := rfl
  address := by
    have read : (Peripheral.station (broughtUp config board world).world).1 =
        stationBytes (stationHigh config.address) (stationLow config.address) := rfl
    rw [read, stationBytes_station]
  armed i := (congrArg (fun slot => slot.descriptor.isOwned) (board.mac.receiver.slot_arm i)).trans
    (Receiver.isOwned_armed _)
  released i := (congrArg Descriptor.isOwned (board.mac.transmitter.descriptor_clear i)).trans Descriptor.isOwned_blank
  zeroed i := congrArg Descriptor.words (board.mac.transmitter.descriptor_clear i)
  unasked i := congrArg Slot.ext (board.mac.transmitter.slot_clear i)
  nextSlot := rfl
  submitted := rfl
  acknowledged := rfl

theorem brings_up_whole (config : Config) (board : Board g (StoredWorld σ)) : board.BringsUpWhole config := by
  have tried := init_apply config board
  have only := OnlyReset.softReset config.resetTimeoutMs board.world
  refine ⟨fun up => ?_, fun fresh wrong => ?_, fun fresh fits late => ?_, fun fresh fits inTime => ?_⟩
  · rwa [if_neg up] at tried
  · rwa [if_pos fresh, Config.validate, if_pos wrong] at tried
  · have reset := softReset_undone fun within => late ((resetsWithin_hardware _ _).mp within)
    rw [if_pos fresh, Config.validate, if_neg fits, reset] at tried
    rw [reset] at only
    refine ⟨_, tried, only, ?_⟩
    rw [watched_hardware, requested_hardware]
    rfl
  · obtain ⟨world, reset⟩ := softReset_done ((resetsWithin_hardware _ _).mpr inTime)
    rw [if_pos fresh, Config.validate, if_neg fits, reset] at tried
    exact ⟨_, tried, broughtUp_prepared config board world⟩

theorem init_ok_iff (config : Config) (board : Board g (StoredWorld σ)) :
    (∃ after, init config board = (.ok (), after)) ↔ board.mac.lifecycle = .uninitialized ∧
      ¬ (config.address.isGroup = true ∨ config.resetTimeoutMs = 0) ∧
        ResetsWithin (resetPolls config.resetTimeoutMs) board.hardware := by
  have whole := brings_up_whole config board
  constructor
  · rintro ⟨after, run⟩
    have fresh := init_fresh run
    by_cases wrong : config.address.isGroup = true ∨ config.resetTimeoutMs = 0
    · rw [whole.invalid fresh wrong] at run
      cases run
    · refine ⟨fresh, wrong, Decidable.byContradiction fun late => ?_⟩
      obtain ⟨world, failed, _⟩ := whole.stuck fresh wrong late
      rw [failed] at run
      cases run
  · rintro ⟨fresh, fits, inTime⟩
    obtain ⟨after, run, _⟩ := whole.done fresh fits inTime
    exact ⟨after, run⟩

theorem FailedAttempts.alike {board later : Board g (StoredWorld σ)} (failed : board.FailedAttempts later) :
    board.Alike later := by
  induction failed with
  | none => exact ⟨rfl, rfl⟩
  | goesOn hardware _ ih => exact ⟨ih.mac, ih.words⟩
  | attempt _ run ih => exact ih.trans (init_fails run)

theorem init_alike {one one' : Board g (StoredWorld σ)} {two two' : Board g (StoredWorld τ)} (alike : one.Alike two)
    (run : init config one = (.ok (), one')) (rerun : init config two = (.ok (), two')) : one'.Alike two' := by
  rw [(init_ok run).2, (init_ok rerun).2]
  exact broughtUp_alike config alike (OnlyReset.softReset _ _) (OnlyReset.softReset _ _)

end Attempts

/-- Whatever attempts to bring a driver up have failed before, with whatever configurations, one that succeeds leaves
the driver and the registers as any does that succeeds at first. That includes the one on the hardware as it is now,
which would have succeeded too. -/
structure Retries [Bus σ] (config : Config) (board : Board g (StoredWorld σ)) : Prop where
  same : ∀ later after, board.FailedAttempts later → init config later = (.ok (), after) →
    ∀ {τ : Type} [Bus τ] (fresh direct : Board g (StoredWorld τ)), board.Alike fresh →
      init config fresh = (.ok (), direct) → direct.Alike after
  now : ∀ later after, board.FailedAttempts later → init config later = (.ok (), after) →
    ∃ direct, init config { board with world.rest.hardware := later.hardware } = (.ok (), direct) ∧ direct.Alike after

theorem retries [Bus σ] (config : Config) (board : Board g (StoredWorld σ)) : board.Retries config := by
  have same {later after : Board g (StoredWorld σ)} (failed : board.FailedAttempts later)
      (run : init config later = (.ok (), after)) {τ : Type} [Bus τ] {fresh direct : Board g (StoredWorld τ)}
      (alike : board.Alike fresh) (first : init config fresh = (.ok (), direct)) : direct.Alike after :=
    init_alike (alike.symm.trans failed.alike) first run
  refine ⟨fun later after failed run τ _ fresh direct alike first => same failed run alike first,
    fun later after failed run => ?_⟩
  obtain ⟨fresh, fits, inTime⟩ := (init_ok_iff config later).mp ⟨after, run⟩
  rw [failed.alike.mac] at fresh
  obtain ⟨direct, first⟩ :=
    (init_ok_iff config { board with world.rest.hardware := later.hardware }).mpr ⟨fresh, fits, inTime⟩
  have alike : board.Alike { board with world.rest.hardware := later.hardware } := ⟨rfl, rfl⟩
  exact ⟨direct, first, same failed run alike first⟩

/-- Which resets are found done: the last look is taken one pause before the looks have taken up their time, and that is
the timeout unless the timeout is too long to be told in microseconds. -/
structure GrantsReset (config : Config) : Prop where
  looks : resetPolls config.resetTimeoutMs ≤ config.resetTimeoutMs.toNat * 10
  whole : resetPolls config.resetTimeoutMs = config.resetTimeoutMs.toNat * 10 ↔
    config.resetTimeoutMs.toNat ≤ 4294967
  found : ∀ {span : Nat} {τ : Type} [Bus τ] (timer : ResetTimer span τ),
    ResetsWithin (resetPolls config.resetTimeoutMs) timer ↔ span + 100000 ≤ resetPolls config.resetTimeoutMs * 100000

/-- To bring a driver up is one step: it is refused without any effect, or fails with nothing done but the reset, or
succeeds. It can be tried again as if it had not been tried before. -/
theorem bring_up_atomic_and_retryable [Bus σ] (config : Config) (board : Board g (StoredWorld σ)) :
    board.BringsUpWhole config ∧ board.Retries config ∧ GrantsReset config :=
  ⟨brings_up_whole config board, retries config board, resetPolls_le _, resetPolls_eq_iff _,
    fun timer => timer.resetsWithin_iff _⟩

/-- A driver on hardware that takes `span` nanoseconds for a reset. -/
def takesForReset (span : Nat) : Board .smallest (StoredWorld (ResetTimer span RestingPeripheral)) :=
  .untried ⟨0, 0x10000, 0x20000⟩ ⟨[], fun _ => 0, 0, none, {}⟩

/-- A group address is refused, a timeout of one millisecond is too short, and then all is as if neither had been
tried. -/
theorem bring_up_atomic_and_retryable_slow : ∃ later after direct,
    init { address := #v[1, 0, 0, 0, 0, 1] } (takesForReset 950000) =
        (.error ConfigFault.invalidConfig, takesForReset 950000) ∧
      init { resetTimeoutMs := 1 } (takesForReset 950000) = (.error ConfigFault.resetFailed, later) ∧
      init {} later = (.ok (), after) ∧ after.Prepared {} ∧
      init {} (takesForReset 950000) = (.ok (), direct) ∧ direct.Alike after := by
  obtain ⟨firstTry, again, -⟩ := bring_up_atomic_and_retryable {} (takesForReset 950000)
  have refused := (bring_up_atomic_and_retryable { address := #v[1, 0, 0, 0, 0, 1] } (takesForReset 950000)).1.invalid
    rfl (by decide)
  obtain ⟨world, failed, -⟩ := (bring_up_atomic_and_retryable { resetTimeoutMs := 1 } (takesForReset 950000)).1.stuck
    rfl (by decide) (by rw [ResetTimer.resetsWithin_iff]; decide)
  have attempts := (FailedAttempts.none.attempt refused).attempt failed
  obtain ⟨after, run, prepared⟩ :=
    (bring_up_atomic_and_retryable {} { takesForReset 950000 with world := world }).1.done rfl (by decide)
      ((ResetTimer.resetsWithin_iff _ _).mpr (by decide))
  obtain ⟨direct, first, -⟩ := firstTry.done rfl (by decide) ((ResetTimer.resetsWithin_iff _ _).mpr (by decide))
  exact ⟨_, after, direct, refused, failed, run, prepared, first,
    again.same _ _ attempts run (takesForReset 950000) direct ⟨rfl, rfl⟩ first⟩

/-- What is left of a driver that was brought up in vain on hardware that does its reset in time. -/
theorem init_missed {span : Nat} {config : Config}
    (fits : ¬ (config.address.isGroup = true ∨ config.resetTimeoutMs = 0))
    (late : resetPolls config.resetTimeoutMs * 100000 < span + 100000)
    (elapsed : span ≤ resetPolls config.resetTimeoutMs * 100000) :
    ∃ after, init config (takesForReset span) = (.error ConfigFault.resetFailed, after) ∧
      after.hardware.elapsed = resetPolls config.resetTimeoutMs * 100000 ∧ ShowsReset after.world := by
  have missed : ¬ ResetsWithin (resetPolls config.resetTimeoutMs) (takesForReset span).hardware := by
    rw [ResetTimer.resetsWithin_iff]
    exact Nat.not_le.mpr late
  obtain ⟨world, failed, -, hardware⟩ := (brings_up_whole config (takesForReset span)).stuck rfl fits missed
  refine ⟨_, failed, ?_, ?_⟩
  · rw [Board.hardware, hardware, ResetTimer.elapsed_watched, ResetTimer.elapsed_requested]
    exact Nat.zero_add _
  · rw [showsReset_hardware, hardware, ResetTimer.shows_watched]
    exact elapsed

/-- A reset may be done within the timeout and the driver fail to be brought up: when it is done during the last pause,
and with a timeout of which nothing is left in a word, when the driver does not look at all. -/
theorem bring_up_misses_reset :
    (∃ after, init { resetTimeoutMs := 1 } (takesForReset 950000) = (.error ConfigFault.resetFailed, after) ∧
      after.hardware.elapsed = 1000000 ∧ ShowsReset after.world) ∧
    (∃ after, init { resetTimeoutMs := 536870912 } (takesForReset 0) = (.error ConfigFault.resetFailed, after) ∧
      after.hardware.elapsed = 0 ∧ ShowsReset after.world) :=
  ⟨init_missed (by decide) (by decide) (by decide), init_missed (by decide) (by decide) (by decide)⟩

end Board

end EthernetMac
