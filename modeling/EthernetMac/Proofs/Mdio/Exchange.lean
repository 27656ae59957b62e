import EthernetMac.Proofs.Mdio.Wait

namespace EthernetMac

open Bus Mdio

namespace Deed

def duration : Deed → Nat
  | .pause nanoseconds => nanoseconds
  | _ => 0

/-- The time of all the pauses in what was done, in nanoseconds. -/
def paused (deeds : List Deed) : Nat := (deeds.map duration).sum

/-- The driver asked for so much time in all, and did not look at what an exchange brings. -/
structure Waits (nanoseconds : Nat) (deeds : List Deed) : Prop where
  paused : paused deeds = nanoseconds
  unread : ∀ word, .read Register.mdioData.offset word ∉ deeds

namespace Waits

theorem append {early late : Nat} {first second : List Deed} (one : Waits early first) (two : Waits late second) :
    Waits (early + late) (first ++ second) where
  paused := by
    rw [Deed.paused, List.map_append, List.sum_append]
    exact congrArg₂ _ one.paused two.paused
  unread word among := (List.mem_append.mp among).elim (one.unread word) (two.unread word)

theorem look (found : UInt32) : Waits 0 [.read Register.mdioAddress.offset found] where
  paused := rfl
  unread word among := absurd among (by simp [Register.offset])

theorem write (offset value : UInt32) : Waits 0 [.write offset value] where
  paused := rfl
  unread word among := absurd among (by simp)

theorem pause (nanoseconds : Nat) : Waits nanoseconds [.pause nanoseconds] where
  paused := rfl
  unread word among := absurd among (by simp)

end Waits

end Deed

namespace MdioRequest

section Call

variable {ε : Type} [Bus ε]

/-- What a call does on an idle bus before it waits. -/
def issue (request : MdioRequest) : StateM ε Unit := do
  let _ ← Peripheral.isMdioBusy
  if let some value := request.value then
    Register.mdioData.write value.toUInt32
  begin request.phy request.register request.command

/-- What a call does when the exchange is over. -/
def collect (request : MdioRequest) : StateM ε (Option UInt16) :=
  match request.value with
  | none => do return some (← Register.mdioData.read).toUInt16
  | some _ => return none

theorem checkReady_idle {request : MdioRequest} {env : ε} (addressed : request.IsAddressed)
    (idle : ¬ ShowsBusy env) : (checkReady request.phy request.register).run env = (.ok (), looked env) := by
  have known : checkAddresses request.phy request.register = .ok () := by
    rw [checkAddresses, if_neg (Nat.not_lt.mpr addressed.1), if_neg (Nat.not_lt.mpr addressed.2)]
  have clear : (Peripheral.isMdioBusy env).1 = false := eq_false_of_ne_true idle
  have found : (Attempt.sure (φ := Failure) Peripheral.isMdioBusy).run env = (.ok false, looked env) := by
    rw [← clear]
    rfl
  have looks : (checkReady request.phy request.register : Attempt ε Failure Unit) =
      Attempt.sure Peripheral.isMdioBusy >>= fun busy => if busy then throw (.bus .phyError) else pure () := by
    rw [checkReady, known]
  rw [looks, Attempt.bind_apply, found]
  rfl

/-- On an idle bus a call gives its command, waits, and takes what the exchange has brought. -/
theorem perform_apply {request : MdioRequest} {env after : ε} {outcome : Except Failure Unit}
    (addressed : request.IsAddressed) (idle : ¬ ShowsBusy env)
    (wait : (awaitIdle (pausesWithin request.timeoutMicros)).run (request.issue env).2 = (outcome, after)) :
    request.perform env =
      match outcome with
      | .ok _ => (.ok (request.collect after).1, (request.collect after).2)
      | .error failure => (.error failure, after) := by
  have ready := checkReady_idle addressed idle
  obtain ⟨timeoutMicros, phy, register, value⟩ := request
  cases value with
  | none =>
    have waits : (awaitIdle (pausesWithin timeoutMicros)).run
        (begin phy register Fields.mdioReadCommand (looked env)).2 = (outcome, after) := wait
    have called : (Mdio.read timeoutMicros phy register).run env =
        (awaitIdle (pausesWithin timeoutMicros) >>= fun _ =>
          (return (← Attempt.sure Register.mdioData.read).toUInt16 : Attempt ε Failure UInt16)).run
          (begin phy register Fields.mdioReadCommand (looked env)).2 := by
      rw [Mdio.read, Attempt.bind_apply, ready]
      rfl
    change (Except.map some ((Mdio.read timeoutMicros phy register).run env).1,
      ((Mdio.read timeoutMicros phy register).run env).2) = _
    rw [called, Attempt.bind_apply, waits]
    cases outcome with
    | ok _ => rfl
    | error failure => rfl
  | some value =>
    have called : (Mdio.write timeoutMicros phy register value).run env = (outcome, after) := by
      rw [Mdio.write, Attempt.bind_apply, ready]
      exact wait
    change (Except.map (fun _ => none) ((Mdio.write timeoutMicros phy register value).run env).1,
      ((Mdio.write timeoutMicros phy register value).run env).2) = _
    rw [called]
    cases outcome with
    | ok _ => rfl
    | error failure => rfl

end Call

section Traces

variable {σ : Type} [Bus σ]

theorem watched_waits (looks : Nat) (env : Traced σ) :
    (watched looks env).rest = watched looks env.rest ∧
      ∃ deeds, (watched looks env).deeds = env.deeds ++ deeds ∧ Deed.Waits (looks * 10000) deeds := by
  induction looks generalizing env with
  | zero => exact ⟨rfl, [], (List.append_nil _).symm, rfl, fun _ => List.not_mem_nil⟩
  | succ looks ih =>
    obtain ⟨rest, deeds, more, waits⟩ := ih (pauseMicros pollMicros (looked env)).2
    have one : (pauseMicros pollMicros (looked env)).2.deeds =
        env.deeds ++ ([.read Register.mdioAddress.offset (Bus.read Register.mdioAddress.offset env.rest).1] ++
          [.pause 10000]) := List.append_assoc ..
    refine ⟨rest, _, more.trans (by rw [one, List.append_assoc]), ?_⟩
    have time : (looks + 1) * 10000 = 0 + 10000 + looks * 10000 := by omega
    rw [time]
    exact ((Deed.Waits.look _).append (.pause 10000)).append waits

theorem issue_waits (request : MdioRequest) (env : σ) :
    ((request.issue ⟨[], env⟩ : Unit × Traced σ)).2.rest = (request.issue env).2 ∧
      Deed.Waits 0 ((request.issue ⟨[], env⟩ : Unit × Traced σ)).2.deeds := by
  obtain ⟨timeoutMicros, phy, register, value⟩ := request
  cases value with
  | none => exact ⟨rfl, ((Deed.Waits.look _).append (.look _)).append (.write _ _)⟩
  | some value => exact ⟨rfl, (((Deed.Waits.look _).append (.write _ _)).append (.look _)).append (.write _ _)⟩

theorem EndsAfter.traced {span : ℕ∞} {env : Traced σ} (lasts : EndsAfter span env.rest) : EndsAfter span env where
  busy looks early := by
    have busy := lasts.busy looks early
    rw [← (watched_waits looks env).1] at busy
    exact busy
  ended looks here := by
    have ended := lasts.ended looks here
    rw [← (watched_waits looks env).1] at ended
    exact ended

/-- The last look of a wait, after its pauses. -/
theorem looked_waits (request : MdioRequest) (pauses : Nat) (env : σ) :
    ∃ earlier look, (looked (watched pauses ((request.issue ⟨[], env⟩ : Unit × Traced σ)).2)).deeds =
        earlier ++ [.read Register.mdioAddress.offset look] ∧
      Deed.Waits (pauses * 10000) earlier ∧
      (¬ ShowsBusy (watched pauses ((request.issue ⟨[], env⟩ : Unit × Traced σ)).2) →
        look &&& Fields.mdioBusy = 0) := by
  obtain ⟨_, issued⟩ := issue_waits request env
  obtain ⟨_, watching, watched, waits⟩ := watched_waits pauses ((request.issue ⟨[], env⟩ : Unit × Traced σ)).2
  refine ⟨_, _, rfl, ?_, fun ended => ?_⟩
  · rw [watched, ← Nat.zero_add (pauses * 10000)]
    exact issued.append waits
  · exact not_not.mp (mt bne_iff_ne.mpr ended)

theorem collect_waits (request : MdioRequest) (env : Traced σ) :
    Deed.paused (request.collect env).2.deeds = Deed.paused env.deeds ∧
      (request.value = none → ∃ word, (request.collect env).1 = some word.toUInt16 ∧
        (request.collect env).2.deeds = env.deeds ++ [.read Register.mdioData.offset word]) := by
  obtain ⟨timeoutMicros, phy, register, value⟩ := request
  cases value with
  | none =>
    refine ⟨?_, fun _ => ⟨_, rfl, rfl⟩⟩
    change Deed.paused (env.deeds ++ [_]) = _
    rw [Deed.paused, List.map_append, List.sum_append]
    rfl
  | some value => exact ⟨rfl, nofun⟩

end Traces

/-- What a call on an idle bus comes to if the exchange that it begins is over after `span` looks. -/
structure Awaits {σ : Type} [Bus σ] (request : MdioRequest) (span : ℕ∞) (issued : σ)
    (answer : Except Failure (Option UInt16)) (deeds : List Deed) : Prop where
  /-- The loop that counts the time in a word comes to an end, and to that of the call. -/
  ends : ∃ after, Counts (UInt32.ofNat request.timeoutMicros) 0 issued (answer.map fun _ => (), after)
  done : (∃ value, answer = .ok value) ↔ span ≤ (request.timeoutMicros ⌈/⌉ 10 : ℕ)
  late : answer = .error (.bus .timeout) ↔ (request.timeoutMicros ⌈/⌉ 10 : ℕ) < span
  paused : (Deed.paused deeds : ℕ∞) = 10000 * min span (request.timeoutMicros ⌈/⌉ 10 : ℕ)
  /-- What a read answers was read once, right after the look that found the exchange over. -/
  brought : ∀ value, answer = .ok value → request.value = none → ∃ earlier look word,
    deeds = earlier ++ [.read Register.mdioAddress.offset look, .read Register.mdioData.offset word] ∧
      look &&& Fields.mdioBusy = 0 ∧ value = some word.toUInt16 ∧
      ∀ other, .read Register.mdioData.offset other ∉ earlier
  unread : answer = .error (.bus .timeout) → ∀ word, .read Register.mdioData.offset word ∉ deeds

/-- Whatever the hardware is like, and whether or not it ever ends the exchange, a call waits for it as long as its
timeout says, rounded up to a whole number of pauses, and looks once more when this time is over. -/
theorem exchange_awaited {σ : Type} [Bus σ] {request : MdioRequest} {env : σ} {span : ℕ∞}
    (addressed : request.IsAddressed) (bounded : request.timeoutMicros ≤ 4294967290) (idle : ¬ ShowsBusy env)
    (lasts : EndsAfter span (request.issue env).2) :
    request.Awaits span (request.issue env).2 (request.perform (⟨[], env⟩ : Traced σ)).1
      (request.perform (⟨[], env⟩ : Traced σ)).2.deeds := by
  have word : (UInt32.ofNat request.timeoutMicros).toNat = request.timeoutMicros :=
    UInt32.toNat_ofNat_of_lt' (Nat.lt_of_le_of_lt bounded (by decide))
  have within : (UInt32.ofNat request.timeoutMicros).toNat ≤ 4294967290 := word.symm ▸ bounded
  have traced : EndsAfter span ((request.issue ⟨[], env⟩ : Unit × Traced σ)).2 :=
    EndsAfter.traced ((issue_waits request env).1.symm ▸ lasts)
  have quiet : ¬ ShowsBusy (⟨[], env⟩ : Traced σ) := idle
  obtain ⟨_, _, ends⟩ := lasts.counts within
  obtain ⟨pauses, many, wait⟩ := traced.counts within
  have run := (counts_iff within).mp wait
  rw [word] at ends many run
  obtain ⟨earlier, look, deeds, waits, clear⟩ := looked_waits request pauses env
  have time : (Deed.paused (looked (watched pauses ((request.issue ⟨[], env⟩ : Unit × Traced σ)).2)).deeds : ℕ∞) =
      10000 * min span (request.timeoutMicros ⌈/⌉ 10 : ℕ) := by
    rw [deeds, (waits.append (.look look)).paused, ← many]
    push_cast
    exact (add_zero _).trans (mul_comm _ _)
  by_cases early : span ≤ (request.timeoutMicros ⌈/⌉ 10 : ℕ)
  · rw [if_pos early] at run ends
    have seen : ¬ ShowsBusy (watched pauses ((request.issue ⟨[], env⟩ : Unit × Traced σ)).2) :=
      traced.ended pauses ((min_eq_left early).symm.trans many.symm)
    obtain ⟨same, read⟩ :=
      collect_waits request (looked (watched pauses ((request.issue ⟨[], env⟩ : Unit × Traced σ)).2))
    rw [perform_apply addressed quiet run]
    exact {
      ends := ⟨_, ends⟩
      done := iff_of_true ⟨_, rfl⟩ early
      late := iff_of_false nofun (not_lt.mpr early)
      paused := by rw [same, time]
      brought := by
        rintro value answered reads
        obtain ⟨word, brought, added⟩ := read reads
        obtain rfl := Except.ok.inj answered
        refine ⟨earlier, look, word, ?_, clear seen, brought, waits.unread⟩
        rw [added, deeds, List.append_assoc]
        rfl
      unread := nofun }
  · rw [if_neg early] at run ends
    rw [perform_apply addressed quiet run]
    exact {
      ends := ⟨_, ends⟩
      done := iff_of_false (by simp) early
      late := iff_of_true rfl (not_le.mp early)
      paused := time
      brought := nofun
      unread := fun _ => by
        rw [deeds]
        exact (waits.append (.look look)).unread }

/-- A read whose exchange ends during the last pause for which its timeout of 25 microseconds leaves room. -/
theorem exchange_awaited_last_pause :
    let unit : MdioBench (fun moment => if moment = 8 then some 0x796D else none) RestingPeripheral :=
      { unit := { address := 0x400, data := 0 }, rest := {} }
    let request : MdioRequest := ⟨25, 1, 1, none⟩
    let answered := request.perform (⟨[], unit⟩ : Traced _)
    answered.1 = .ok (some 0x796D) ∧ Deed.paused answered.2.deeds = 30000 ∧
      request.Awaits 3 (request.issue unit).2 answered.1 answered.2.deeds := by
  intro unit request answered
  have lasts : EndsAfter 3 (request.issue unit).2 := by
    refine ⟨fun looks early => ?_, fun looks here => ?_⟩
    · have known : ∀ looks < 3, ShowsBusy (watched looks (request.issue unit).2) := by decide
      exact known looks (Nat.cast_lt.mp early)
    · obtain rfl : 3 = looks := Nat.cast_inj.mp here
      decide
  exact ⟨by decide +kernel, by decide +kernel, exchange_awaited ⟨by decide, by decide⟩ (by decide) (by decide) lasts⟩

end MdioRequest

end EthernetMac
