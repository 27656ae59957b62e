import EthernetMac.Proofs.Mdio.Unit

namespace EthernetMac

open Bus

/-- What can be asked of a management bus: to read a register of a PHY or, with a value, to write it. Each caller has
its own patience. -/
structure MdioRequest where
  timeoutMicros : Nat
  phy : Nat
  register : Nat
  value : Option UInt16 := none
deriving DecidableEq

/-- What came of a request. -/
structure MdioAnswer where
  request : MdioRequest
  result : Except Failure (Option UInt16)
  /-- The management unit as the call meets it when it looks at it first, and as it leaves it. -/
  met : MdioUnit
  left : MdioUnit
  writes : List MdioWrite

namespace MdioRequest

/-- Does what is asked for, and answers what was read. -/
def perform {ε : Type} [Bus ε] (request : MdioRequest) : StateM ε (Except Failure (Option UInt16)) :=
  match request.value with
  | none => do
    return (← (Mdio.read request.timeoutMicros request.phy request.register).run).map some
  | some value => do
    return (← (Mdio.write request.timeoutMicros request.phy request.register value).run).map fun _ => none

def command (request : MdioRequest) : UInt32 :=
  if request.value.isSome then Fields.mdioWriteCommand else Fields.mdioReadCommand

/-- There is such a register of such a PHY. -/
def IsAddressed (request : MdioRequest) : Prop := request.phy ≤ Mdio.maxAddress ∧ request.register ≤ Mdio.maxAddress

/-- The fields of a word that can be written to the address register to begin an exchange. -/
def fields : UInt32 :=
  Fields.mdioPhy ||| Fields.mdioRegister ||| Fields.mdioClock ||| 3 <<< Fields.mdioCommandShift ||| Fields.mdioBusy

/-- What is written begins the exchange that is asked for, with the divider that stood in the register, and does nothing
else. -/
structure Begins (request : MdioRequest) (write : MdioWrite) : Prop where
  offset : write.offset = Register.mdioAddress.offset
  phy : ((write.value &&& Fields.mdioPhy) >>> Fields.mdioPhyShift).toNat = request.phy
  register : ((write.value &&& Fields.mdioRegister) >>> Fields.mdioRegisterShift).toNat = request.register
  command : write.value &&& 3 <<< Fields.mdioCommandShift = request.command <<< Fields.mdioCommandShift
  divider : write.value &&& Fields.mdioClock = write.found.divider
  busy : write.value &&& Fields.mdioBusy ≠ 0
  nothing : write.value &&& ~~~fields = 0

theorem command_cases (request : MdioRequest) :
    request.command = Fields.mdioWriteCommand ∨ request.command = Fields.mdioReadCommand := by
  unfold command
  split
  · exact Or.inl rfl
  · exact Or.inr rfl

/-- The part of a word under a mask comes from the parts of its fields under that mask. -/
theorem commandWord_and (current command : UInt32) (phy register : Nat) (clock phyBits registerBits busy : UInt32)
    {mask : UInt32} (atClock : Fields.mdioClock &&& mask = clock) (atPhy : Fields.mdioPhy &&& mask = phyBits)
    (atRegister : Fields.mdioRegister &&& mask = registerBits) (atBusy : Fields.mdioBusy &&& mask = busy) :
    Mdio.commandWord current phy register command &&& mask =
      current &&& clock ||| UInt32.ofNat phy <<< Fields.mdioPhyShift &&& phyBits |||
        UInt32.ofNat register <<< Fields.mdioRegisterShift &&& registerBits |||
        command <<< Fields.mdioCommandShift &&& mask ||| busy := by
  simp only [Mdio.commandWord, Descriptor.or_and, UInt32.and_assoc, atClock, atPhy, atRegister, atBusy]

theorem command_outside (request : MdioRequest) {mask : UInt32} (outside : 3 <<< Fields.mdioCommandShift &&& mask = 0) :
    request.command <<< Fields.mdioCommandShift &&& mask = 0 := by
  have within : request.command <<< Fields.mdioCommandShift =
      request.command <<< Fields.mdioCommandShift &&& 3 <<< Fields.mdioCommandShift := by
    rcases request.command_cases with written | read
    · rw [written]
      decide
    · rw [read]
      decide
  rw [within, UInt32.and_assoc, outside, UInt32.and_zero]

/-- The divider may have been read some time before the word is written. -/
theorem commandWord_begins {request : MdioRequest} (addressed : request.IsAddressed) {current found : MdioUnit}
    (same : current.divider = found.divider) :
    request.Begins ⟨Register.mdioAddress.offset,
      Mdio.commandWord current.address request.phy request.register request.command, found⟩ where
  offset := rfl
  phy := by
    have known : ∀ phy < 32, ((UInt32.ofNat phy <<< Fields.mdioPhyShift &&& Fields.mdioPhy) >>>
        Fields.mdioPhyShift).toNat = phy := by decide
    rw [commandWord_and _ _ _ _ 0 Fields.mdioPhy 0 0 (by decide) (by decide) (by decide) (by decide),
      request.command_outside (by decide)]
    simp only [UInt32.and_zero, UInt32.zero_or, UInt32.or_zero]
    exact known _ (Nat.lt_succ_of_le addressed.1)
  register := by
    have known : ∀ register < 32, ((UInt32.ofNat register <<< Fields.mdioRegisterShift &&& Fields.mdioRegister) >>>
        Fields.mdioRegisterShift).toNat = register := by decide
    rw [commandWord_and _ _ _ _ 0 0 Fields.mdioRegister 0 (by decide) (by decide) (by decide) (by decide),
      request.command_outside (by decide)]
    simp only [UInt32.and_zero, UInt32.zero_or, UInt32.or_zero]
    exact known _ (Nat.lt_succ_of_le addressed.2)
  command := by
    rw [commandWord_and _ _ _ _ 0 0 0 0 (by decide) (by decide) (by decide) (by decide)]
    simp only [UInt32.and_zero, UInt32.zero_or, UInt32.or_zero]
    rcases request.command_cases with written | read
    · rw [written]
      decide
    · rw [read]
      decide
  divider := by
    rw [commandWord_and _ _ _ _ Fields.mdioClock 0 0 0 (by decide) (by decide) (by decide) (by decide),
      request.command_outside (by decide)]
    simp only [UInt32.and_zero, UInt32.or_zero]
    exact same
  busy := by
    rw [commandWord_and _ _ _ _ 0 0 0 Fields.mdioBusy (by decide) (by decide) (by decide) (by decide),
      request.command_outside (by decide)]
    simp only [UInt32.and_zero, UInt32.zero_or]
    decide
  nothing := by
    rw [commandWord_and _ _ _ _ 0 0 0 0 (by decide) (by decide) (by decide) (by decide),
      request.command_outside (by decide)]
    simp only [UInt32.and_zero, UInt32.or_zero]

/-- The value of a request that brings one goes to the data register. -/
def dataWrites (request : MdioRequest) (found : MdioUnit) : List MdioWrite :=
  request.value.toList.map fun value => ⟨Register.mdioData.offset, value.toUInt32, found⟩

/-- Why a call is turned away, if it is, by a management unit that it meets like this. -/
def refusal (request : MdioRequest) (met : MdioUnit) : Option Failure :=
  if 31 < request.phy then some (.config .invalidPhyAddress)
  else if 31 < request.register then some (.config .invalidConfig)
  else if met.IsBusy then some (.bus .phyError)
  else none

theorem refusal_eq_none {request : MdioRequest} {met : MdioUnit} :
    request.refusal met = none ↔ request.IsAddressed ∧ ¬ met.IsBusy := by
  rw [refusal, IsAddressed, Mdio.maxAddress, ← Nat.not_lt, ← Nat.not_lt]
  split
  · simp [*]
  · split
    · simp [*]
    · split
      · simp [*]
      · simp [*]

end MdioRequest

/-- What is expected of an answer, whatever came before it and however long the hardware takes. -/
structure MdioAnswer.IsDisciplined (answer : MdioAnswer) : Prop where
  /-- No register is written while an exchange is under way. -/
  idle : ∀ write ∈ answer.writes, ¬ write.found.IsBusy
  refused : ∀ failure, answer.request.refusal answer.met = some failure →
    answer.result = .error failure ∧ answer.writes = []
  begun : answer.request.refusal answer.met = none → ∃ write found,
    answer.request.Begins write ∧ answer.writes = answer.request.dataWrites found ++ [write]
  divider : answer.left.divider = answer.met.divider ∧
    ∀ write ∈ answer.writes, write.found.divider = answer.met.divider

namespace MdioBench

variable {pace : Nat → Option UInt32} {σ : Type} [Bus σ]

def serve (request : MdioRequest) (bench : MdioBench pace σ) : MdioAnswer × MdioBench pace σ :=
  let served := request.perform { bench with writes := [] }
  (⟨request, served.1, bench.passed.unit, served.2.unit, served.2.writes⟩, served.2)

/-- Requests one after the other, by the same caller or by several. -/
def serveAll : List MdioRequest → MdioBench pace σ → List MdioAnswer
  | [], _ => []
  | request :: rest, bench => (bench.serve request).1 :: serveAll rest (bench.serve request).2

/-- An exchange has begun, with the divider that stood in the register a moment earlier. -/
def begun (bench : MdioBench pace σ) (request : MdioRequest) : MdioBench pace σ :=
  Bus.write Register.mdioAddress.offset
    (Mdio.commandWord bench.passed.unit.address request.phy request.register request.command) bench.passed

/-- The value that is to be written, if there is one, is in the data register. -/
def loaded (bench : MdioBench pace σ) (request : MdioRequest) : MdioBench pace σ :=
  match request.value with
  | none => bench
  | some value => Bus.write Register.mdioData.offset value.toUInt32 bench

section Steps

variable (bench : MdioBench pace σ)

theorem checkReady_known {request : MdioRequest} (addressed : request.IsAddressed) :
    (Mdio.checkReady request.phy request.register).run bench =
      (if bench.passed.unit.IsBusy then .error (.bus .phyError) else .ok (), bench.passed) := by
  have known : Mdio.checkAddresses request.phy request.register = .ok () := by
    rw [Mdio.checkAddresses, if_neg (Nat.not_lt.mpr addressed.1), if_neg (Nat.not_lt.mpr addressed.2)]
  have looked : (Mdio.checkReady request.phy request.register : Attempt (MdioBench pace σ) Failure Unit) =
      Attempt.sure Peripheral.isMdioBusy >>= fun busy => if busy then throw (.bus .phyError) else pure () := by
    rw [Mdio.checkReady, known]
  have busy : (Attempt.sure (φ := Failure) Peripheral.isMdioBusy).run bench =
      (.ok (bench.passed.unit.address &&& Fields.mdioBusy != 0), bench.passed) := rfl
  rw [looked, Attempt.bind_apply, busy]
  dsimp only
  by_cases occupied : bench.passed.unit.IsBusy
  · rw [if_pos occupied, if_pos (bne_iff_ne.mpr occupied)]
    rfl
  · rw [if_neg occupied, if_neg (fun set => occupied (bne_iff_ne.mp set))]
    rfl

theorem checkReady_refused {request : MdioRequest} {failure : Failure}
    (refused : request.refusal bench.passed.unit = some failure) :
    ∃ after, (Mdio.checkReady request.phy request.register).run bench = (.error failure, after) ∧
      bench.Leaves after := by
  unfold MdioRequest.refusal at refused
  by_cases phy : 31 < request.phy
  · rw [if_pos phy] at refused
    obtain rfl := Option.some.inj refused
    refine ⟨bench, ?_, Leaves.composes.refl bench⟩
    rw [Mdio.checkReady, Mdio.checkAddresses, Mdio.maxAddress, if_pos phy]
    rfl
  · rw [if_neg phy] at refused
    by_cases register : 31 < request.register
    · rw [if_pos register] at refused
      obtain rfl := Option.some.inj refused
      refine ⟨bench, ?_, Leaves.composes.refl bench⟩
      rw [Mdio.checkReady, Mdio.checkAddresses, Mdio.maxAddress, if_neg phy, if_pos register]
      rfl
    · have addressed : request.IsAddressed := ⟨Nat.le_of_not_lt phy, Nat.le_of_not_lt register⟩
      rw [if_neg register] at refused
      split at refused
      · rename_i busy
        obtain rfl := Option.some.inj refused
        refine ⟨bench.passed, ?_, bench.leaves_passed⟩
        rw [bench.checkReady_known addressed, if_pos busy]
      · cases refused

theorem perform_refused {request : MdioRequest} {failure : Failure} {after : MdioBench pace σ}
    (refused : (Mdio.checkReady request.phy request.register).run bench = (.error failure, after)) :
    request.perform bench = (.error failure, after) := by
  unfold MdioRequest.perform
  cases request.value with
  | none =>
    change (Except.map some ((Mdio.read _ _ _).run bench).1, ((Mdio.read _ _ _).run bench).2) = _
    rw [Mdio.read, Attempt.bind_apply, refused]
    rfl
  | some value =>
    change (Except.map (fun _ => none) ((Mdio.write _ _ _ _).run bench).1, ((Mdio.write _ _ _ _).run bench).2) = _
    rw [Mdio.write, Attempt.bind_apply, refused]
    rfl

/-- Once an exchange has begun a call does nothing more than wait and look. -/
theorem perform_idle {request : MdioRequest} (addressed : request.IsAddressed) (idle : ¬ bench.passed.unit.IsBusy) :
    ((bench.passed.loaded request).begun request).Leaves (request.perform bench).2 := by
  have ready := bench.checkReady_known addressed
  rw [if_neg idle] at ready
  have awaited : Across Leaves (Mdio.awaitIdle (Mdio.pausesWithin request.timeoutMicros) :
      Attempt (MdioBench pace σ) Failure Unit).run :=
    Mdio.awaitIdle_across Leaves.composes (leaves_read _) (leaves_pause _) _
  have looked : Across Leaves (Attempt.sure (φ := Failure)
      (Register.mdioData.read : StateM (MdioBench pace σ) UInt32)).run := Leaves.composes.sure (leaves_read _)
  obtain ⟨timeoutMicros, phy, register, value⟩ := request
  cases value with
  | none =>
    change Leaves _ ((Mdio.read timeoutMicros phy register).run bench).2
    rw [Mdio.read, Attempt.bind_apply, ready]
    exact Leaves.composes.andThen awaited (fun _ => Leaves.composes.andThen looked fun _ => Leaves.composes.pure _) _
  | some value =>
    change Leaves _ ((Mdio.write timeoutMicros phy register value).run bench).2
    rw [Mdio.write, Attempt.bind_apply, ready]
    exact awaited _

theorem loaded_writes (request : MdioRequest) :
    (bench.loaded request).writes = bench.writes ++ request.dataWrites bench.passed.unit := by
  cases value : request.value with
  | none => rw [loaded, MdioRequest.dataWrites, value, Option.toList_none, List.map_nil, List.append_nil]
  | some word =>
    rw [loaded, MdioRequest.dataWrites, value]
    rfl

theorem loaded_divider (request : MdioRequest) : (bench.loaded request).unit.divider = bench.unit.divider := by
  cases value : request.value with
  | none => rw [loaded, value]
  | some word =>
    rw [loaded, value]
    exact bench.unit.divider_elapse _

theorem loaded_idle (request : MdioRequest) (idle : ¬ bench.unit.IsBusy) : ¬ (bench.loaded request).unit.IsBusy := by
  cases value : request.value with
  | none =>
    rw [loaded, value]
    exact idle
  | some word =>
    rw [loaded, value]
    exact MdioUnit.idle_elapse idle _

/-- On an idle bus the value and then the command go out before anything else can keep it busy. -/
theorem begun_idle {request : MdioRequest} (addressed : request.IsAddressed) (idle : ¬ bench.unit.IsBusy) :
    ∃ write found, request.Begins write ∧
      ((bench.loaded request).begun request).writes = bench.writes ++ (request.dataWrites found ++ [write]) ∧
      ((bench.loaded request).begun request).unit.divider = write.value &&& Fields.mdioClock ∧
      (¬ write.found.IsBusy ∧ write.found.divider = bench.unit.divider) ∧
      ¬ found.IsBusy ∧ found.divider = bench.unit.divider := by
  have still := bench.loaded_idle request idle
  have divider : (bench.loaded request).passed.passed.unit.divider = (bench.loaded request).passed.unit.divider :=
    MdioUnit.divider_elapse _ _
  refine ⟨_, bench.passed.unit, MdioRequest.commandWord_begins addressed divider.symm, ?_, rfl, ⟨?_, ?_⟩, ?_, ?_⟩
  · rw [begun, ← List.append_assoc, ← bench.loaded_writes request]
    rfl
  · exact MdioUnit.idle_elapse (MdioUnit.idle_elapse still _) _
  · exact divider.trans ((MdioUnit.divider_elapse _ _).trans (bench.loaded_divider request))
  · exact MdioUnit.idle_elapse idle _
  · exact MdioUnit.divider_elapse _ _

theorem serve_disciplined (request : MdioRequest) : (bench.serve request).1.IsDisciplined := by
  cases turn : request.refusal bench.passed.unit with
  | some failure =>
    obtain ⟨after, refused, left⟩ := checkReady_refused { bench with writes := [] } turn
    have served : bench.serve request =
        (⟨request, .error failure, bench.passed.unit, after.unit, after.writes⟩, after) := by
      rw [serve, perform_refused _ refused]
    have nothing : ∀ write, write ∉ (bench.serve request).1.writes := by
      rw [served]
      dsimp only
      rw [left.writes]
      exact fun _ => List.not_mem_nil
    exact {
      idle := fun write written => absurd written (nothing write)
      refused := fun other same => by
        obtain rfl := Option.some.inj (turn.symm.trans same)
        rw [served]
        exact ⟨rfl, left.writes⟩
      begun := fun accepted => absurd (turn.symm.trans accepted) (Option.some_ne_none failure)
      divider := by
        refine ⟨?_, fun write written => absurd written (nothing write)⟩
        rw [served]
        exact left.divider.trans (bench.unit.divider_elapse _).symm }
  | none =>
    obtain ⟨addressed, idle⟩ := MdioRequest.refusal_eq_none.mp turn
    have waited := perform_idle { bench with writes := [] } addressed idle
    obtain ⟨write, found, begins, writes, divider, clear, free⟩ :=
      begun_idle (passed { bench with writes := [] }) addressed idle
    have written : (bench.serve request).1.writes = request.dataWrites found ++ [write] := waited.writes.trans writes
    have known : ∀ other ∈ (bench.serve request).1.writes,
        ¬ other.found.IsBusy ∧ other.found.divider = bench.passed.unit.divider := by
      intro other among
      rw [written, List.mem_append, List.mem_singleton] at among
      rcases among with data | rfl
      · obtain ⟨_, _, rfl⟩ := List.mem_map.mp data
        exact free
      · exact clear
    exact {
      idle := fun other among => (known other among).1
      refused := fun failure refused => absurd (turn.symm.trans refused) (Option.some_ne_none failure).symm
      begun := fun _ => ⟨write, found, begins, written⟩
      divider := ⟨waited.divider.trans (divider.trans (begins.divider.trans clear.2)),
        fun other among => (known other among).2⟩ }

end Steps

theorem serveAll_disciplined (requests : List MdioRequest) (bench : MdioBench pace σ) :
    ∀ answer ∈ bench.serveAll requests, answer.IsDisciplined ∧ answer.met.divider = bench.unit.divider := by
  induction requests generalizing bench with
  | nil => exact fun answer given => absurd given List.not_mem_nil
  | cons request rest ih =>
    have first := bench.serve_disciplined request
    have met : (bench.serve request).1.met.divider = bench.unit.divider := bench.unit.divider_elapse _
    intro answer given
    rcases List.mem_cons.mp given with rfl | later
    · exact ⟨first, met⟩
    · obtain ⟨disciplined, same⟩ := ih _ answer later
      exact ⟨disciplined, same.trans (first.divider.1.trans met)⟩

theorem dividerWord_fits (clock : ManagementClock) :
    clock.code <<< Fields.mdioClockShift &&& Fields.mdioClock = clock.code <<< Fields.mdioClockShift := by
  cases clock <;> decide

theorem keeps_write {register : Register} (other : register ≠ .mdioAddress) (value : UInt32) :
    Keeps (fun bench : MdioBench pace σ => bench.unit.divider) (register.write value) := by
  have apart : register.offset ≠ Register.mdioAddress.offset := by
    cases register <;> first | exact absurd rfl other | decide
  intro bench
  change ((bench.passed.noted _ _).stored register.offset value).unit.divider = _
  rw [stored, if_neg apart]
  split
  · exact bench.unit.divider_elapse _
  · exact bench.unit.divider_elapse _

theorem configureMac_divider (config : Config) (bench : MdioBench pace σ) :
    (Board.configureMac config bench).2.unit.divider = config.clock.code <<< Fields.mdioClockShift := by
  have others : Keeps (fun bench : MdioBench pace σ => bench.unit.divider) (do
      Peripheral.setStation config.address
      Register.packetFilter.write
        (if config.promiscuous then Fields.promiscuous else Fields.passMulticast ||| Fields.hashOrPerfect)
      Register.macConfiguration.write (Peripheral.modeBits config.speed config.duplex ||| Fields.checksumOffload)
      Register.txQueueMode.write Fields.txQueueOperation
      Register.rxQueueMode.write Fields.rxStoreAndForward) :=
    ((keeps_write (by decide) _).bind fun _ => keeps_write (by decide) _).bind fun _ =>
      (keeps_write (by decide) _).bind fun _ => (keeps_write (by decide) _).bind fun _ =>
      (keeps_write (by decide) _).bind fun _ => keeps_write (by decide) _
  have fits : config.clock.code <<< Fields.mdioClockShift &&& Fields.mdioClock &&& Fields.mdioClock =
      config.clock.code <<< Fields.mdioClockShift := by
    rw [UInt32.and_assoc, UInt32.and_self, dividerWord_fits]
  have kept := others (Register.mdioAddress.write
    (config.clock.code <<< Fields.mdioClockShift &&& Fields.mdioClock) bench).2
  exact kept.trans fits

/-- Bringing a driver up sets the divider that was configured. -/
theorem init_divider {g : Geometry} {config : Config} {board after : Board g (MdioBench pace σ)}
    (run : Board.init config board = (.ok (), after)) :
    after.world.unit.divider = config.clock.code <<< Fields.mdioClockShift := by
  rw [(Board.init_ok run).2]
  exact (Board.layOutRings_world (fun _ other value => keeps_write other value) _ _).trans
    (configureMac_divider config _)

end MdioBench

/-- A command goes out with the divider that its call met. -/
theorem MdioAnswer.IsDisciplined.command_divider {answer : MdioAnswer} (disciplined : answer.IsDisciplined) :
    ∀ write ∈ answer.writes, write.offset = Register.mdioAddress.offset →
      write.value &&& Fields.mdioClock = answer.met.divider := by
  intro write among command
  cases turn : answer.request.refusal answer.met with
  | some failure =>
    rw [(disciplined.refused failure turn).2] at among
    exact absurd among List.not_mem_nil
  | none =>
    obtain ⟨last, found, begins, writes⟩ := disciplined.begun turn
    have met := disciplined.divider.2 write among
    rw [writes, List.mem_append, List.mem_singleton] at among
    rcases among with data | rfl
    · obtain ⟨_, _, rfl⟩ := List.mem_map.mp data
      exact absurd (show Register.mdioData.offset = Register.mdioAddress.offset from command) (by decide)
    · exact begins.divider.trans met

/-- Whatever is asked of the management bus, in whatever order and however long the exchanges take, each call keeps to
the bus, and the divider that was configured when the driver was brought up stands for good. -/
theorem management_bus_disciplined {pace : Nat → Option UInt32} {σ : Type} [Bus σ] {g : Geometry}
    (requests : List MdioRequest) :
    (∀ bench : MdioBench pace σ, ∀ answer ∈ bench.serveAll requests, answer.IsDisciplined) ∧
      ∀ (config : Config) (board after : Board g (MdioBench pace σ)), Board.init config board = (.ok (), after) →
        ∀ answer ∈ after.world.serveAll requests,
          answer.left.divider = config.clock.code <<< Fields.mdioClockShift ∧
            ∀ write ∈ answer.writes, write.offset = Register.mdioAddress.offset →
              write.value &&& Fields.mdioClock = config.clock.code <<< Fields.mdioClockShift := by
  refine ⟨fun bench answer given => (bench.serveAll_disciplined requests answer given).1, ?_⟩
  intro config board after run answer given
  obtain ⟨disciplined, met⟩ := after.world.serveAll_disciplined requests answer given
  have set := met.trans (MdioBench.init_divider run)
  exact ⟨disciplined.divider.1.trans set, fun write among command =>
    (disciplined.command_divider write among command).trans set⟩

/-- A driver that has not been brought up, with a management unit that ends an exchange at every 34th moment only. -/
def MdioBench.slow :
    Board .smallest (MdioBench (fun moment => if moment % 34 = 0 then some 0x796D else none) RestingPeripheral) :=
  ⟨.blank .smallest ⟨0, 0x10000, 0x20000⟩, { unit := { address := 0, data := 0 }, rest := {} }, #[]⟩

/-- A read is given up too early; while it goes on a write is turned away, and a wrong address before the bus is looked
at. Then a write goes through. -/
theorem management_bus_disciplined_slow : ∃ after, Board.init {} MdioBench.slow = (.ok (), after) ∧
    let answers := after.world.serveAll
      [⟨50, 1, 1, none⟩, ⟨50, 2, 0, some 0x1200⟩, ⟨50, 32, 32, none⟩, ⟨1000, 2, 0, some 0x1200⟩]
    answers.map (fun answer => (answer.result, answer.writes.map fun write => (write.offset, write.value))) =
        [(.error (.bus .timeout), [(0x200, 0x21040D)]), (.error (.bus .phyError), []),
          (.error (.config .invalidPhyAddress), []), (.ok none, [(0x204, 0x1200), (0x200, 0x400405)])] ∧
      (∀ answer ∈ answers, answer.IsDisciplined) ∧ ∀ answer ∈ answers, answer.left.divider = 0x400 := by
  have run : Board.init {} MdioBench.slow = (.ok (), (Board.init {} MdioBench.slow).2) := by
    exact Prod.ext rfl rfl
  exact ⟨_, run, by rfl, (management_bus_disciplined (g := .smallest) _).1 _,
    fun answer given => ((management_bus_disciplined _).2 {} MdioBench.slow _ run answer given).1⟩

end EthernetMac
