import EthernetMac.Proofs.Transmit.Ledger

namespace EthernetMac

namespace Transmitter

theorem countP_lt {α : Type} {p q : α → Bool} {l : List α} {a : α} (inside : a ∈ l)
    (fewer : ∀ b, p b = true → q b = true) (gone : p a = false) (was : q a = true) : l.countP p < l.countP q := by
  obtain ⟨before, after, rfl⟩ := List.append_of_mem inside
  have left := List.countP_mono_left (l := before) fun b _ => fewer b
  have right := List.countP_mono_left (l := after) fun b _ => fewer b
  simp only [List.countP_append, List.countP_cons, gone, was, Bool.false_eq_true, if_true, if_false]
  omega

theorem countP_le_succ {α : Type} {p q : α → Bool} {l : List α} (a : α) (once : l.Nodup)
    (fewer : ∀ b, b ≠ a → p b = true → q b = true) : l.countP p ≤ l.countP q + 1 := by
  induction l with
  | nil => exact Nat.zero_le _
  | cons head tail ih =>
    obtain ⟨absent, once⟩ := List.nodup_cons.mp once
    rw [List.countP_cons, List.countP_cons]
    by_cases here : head = a
    · have rest : tail.countP p ≤ tail.countP q :=
        List.countP_mono_left fun b inside => fewer b fun same => absent (here.trans same.symm ▸ inside)
      split <;> omega
    · have shorter := ih once
      have kept := fewer head here
      split
      · rename_i held
        rw [if_pos (kept held)]
        omega
      · omega

variable {g : Geometry} {t : Transmitter g} {i : Fin g.tx}

/-- Taking a timestamp out of its slot leaves one slot less to look after. -/
theorem load_takeStamp (stamped : t.isStamped i = true) : (t.takeStamp i).2.load < t.load := by
  have blank : ((t.takeStamp i).2.ring.slot i).descriptor = .blank := by
    simp [Transmitter.takeStamp, Slot.takeRequest]
  have kept : ∀ k, k ≠ i → (t.takeStamp i).2.ring.slot k = t.ring.slot k :=
    fun k other => Ring.slot_setSlot_of_ne _ _ (Ne.symm other)
  have gone : ((t.takeStamp i).2.ring.isOwned i || (t.takeStamp i).2.isStamped i) = false := by
    rw [Transmitter.isStamped, Ring.isOwned, Ring.descriptor, blank]
    rfl
  refine countP_lt (List.mem_finRange i) (fun k held => ?_) gone (by rw [stamped, Bool.or_true])
  by_cases here : k = i
  · rw [here, gone] at held
    cases held
  · rw [Transmitter.isStamped, Ring.isOwned, Ring.descriptor, kept k here] at held
    exact held

theorem load_setDescriptor (owned : t.ring.isOwned i = true) (d : Descriptor) :
    Transmitter.load { t with ring := t.ring.setDescriptor i d } ≤ t.load := by
  refine List.countP_mono_left fun k _ held => ?_
  by_cases here : k = i
  · rw [here, owned, Bool.true_or]
  · have kept : (t.ring.setDescriptor i d).slot k = t.ring.slot k := Ring.slot_modifySlot_of_ne _ _ (Ne.symm here)
    rw [Transmitter.isStamped, Ring.isOwned, Ring.descriptor, kept] at held
    exact held

/-- A frame that is handed to the hardware is at most one slot more to look after. -/
theorem load_fill (t : Transmitter g) (i : Fin g.tx) (bytes : Array UInt8) (options : TxOptions) :
    (t.fill i bytes options).load ≤ t.load + 1 := by
  refine countP_le_succ i (List.nodup_finRange _) fun k other held => ?_
  have kept : (t.fill i bytes options).ring.slot k = t.ring.slot k := Ring.slot_modifySlot_of_ne _ _ (Ne.symm other)
  rw [Transmitter.isStamped, Ring.isOwned, Ring.descriptor, kept] at held
  exact held

end Transmitter

namespace Board

variable {g : Geometry} {ε : Type}

theorem drain_none (app : Application g ε) (limit : Nat) {board : Board g ε}
    (none : board.mac.transmitter.nextStamped? = none) : drain app limit board = some (0, board) := by
  unfold drain
  rw [Call.get_bind_apply]
  simp only [none]
  rfl

theorem drain_zero (app : Application g ε) {board : Board g ε} {i : Fin g.tx}
    (selected : board.mac.transmitter.nextStamped? = some i) : drain app 0 board = none := by
  unfold drain
  rw [Call.get_bind_apply]
  simp only [selected]
  rfl

theorem drain_succ (app : Application g ε) (limit : Nat) {board : Board g ε} {i : Fin g.tx}
    (selected : board.mac.transmitter.nextStamped? = some i) :
    drain app (limit + 1) board =
      (deliverStamp app (board.mac.transmitter.takeStamp i).1
        { board with mac := { board.mac with transmitter := (board.mac.transmitter.takeStamp i).2 } }).bind
        fun delivered => (drain app limit delivered.2).map fun rest => (rest.1 + 1, rest.2) := by
  rw [drain, Call.get_bind_apply]
  simp only [selected]
  rw [Call.quiet_bind_apply, Call.bind_apply, modifyTransmitter_apply]
  cases deliverStamp app (board.mac.transmitter.takeStamp i).1 _ with
  | none => rfl
  | some delivered =>
    simp only [Option.bind_some]
    rw [Call.bind_apply]
    cases drain app limit delivered.2 with
    | none => rfl
    | some rest => rfl

/-- A drain goes on until no timestamp waits. -/
theorem drain_empties {app : Application g ε} {limit count : Nat} {before after : Board g ε}
    (run : drain app limit before = some (count, after)) : after.mac.transmitter.nextStamped? = none := by
  induction limit generalizing before count with
  | zero =>
    cases selected : before.mac.transmitter.nextStamped? with
    | none =>
      rw [drain_none _ _ selected] at run
      obtain ⟨_, rfl⟩ := Prod.mk.inj (Option.some.inj run)
      exact selected
    | some i =>
      rw [drain_zero _ selected] at run
      cases run
  | succ limit ih =>
    cases selected : before.mac.transmitter.nextStamped? with
    | none =>
      rw [drain_none _ _ selected] at run
      obtain ⟨_, rfl⟩ := Prod.mk.inj (Option.some.inj run)
      exact selected
    | some i =>
      rw [drain_succ _ _ selected] at run
      obtain ⟨delivered, _, rest⟩ := Option.bind_eq_some_iff.mp run
      obtain ⟨left, drained, same⟩ := Option.map_eq_some_iff.mp rest
      obtain ⟨_, rfl⟩ := Prod.mk.inj same
      exact ih drained

def scanning (board : Board g ε) : Board g ε :=
  { board with mac := { board.mac with
    transmitter := { board.mac.transmitter with completing := true, rescan := false } } }

def scanned (board : Board g ε) : Board g ε :=
  { board with mac := { board.mac with transmitter := { board.mac.transmitter with completing := false } } }

def deferred (board : Board g ε) : Board g ε where
  mac := { board.mac with transmitter := { board.mac.transmitter with rescan := true } }
  world := board.world
  journal := board.journal.push .scanDeferred

theorem scanCompletions_succ (app : Application g ε) (limit scans : Nat) (board : Board g ε) :
    scanCompletions app limit (scans + 1) board =
      if board.mac.transmitter.completing then some (0, board.deferred)
      else
        (drain app limit board.scanning).bind fun drained =>
          if drained.2.mac.transmitter.rescan then
            (scanCompletions app limit scans drained.2.scanned).map fun rest => (drained.1 + rest.1, rest.2)
          else some (drained.1, drained.2.scanned) := by
  rw [scanCompletions, Call.get_bind_apply]
  by_cases busy : board.mac.transmitter.completing = true
  · rw [if_pos busy, if_pos busy]
    rfl
  · rw [if_neg busy, if_neg busy, Call.quiet_bind_apply, Call.bind_apply, modifyTransmitter_apply]
    change Option.bind (drain app limit board.scanning) _ = _
    cases drain app limit board.scanning with
    | none => rfl
    | some drained =>
      rw [Option.bind_some, Option.bind_some]
      rw [Call.quiet_bind_apply, modifyTransmitter_apply, Call.get_bind_apply]
      change (if drained.2.mac.transmitter.rescan = true then _ else _ : Call g ε Nat) drained.2.scanned = _
      by_cases again : drained.2.mac.transmitter.rescan = true
      · rw [if_pos again, if_pos again, Call.bind_apply]
        cases scanCompletions app limit scans drained.2.scanned with
        | none => rfl
        | some rest => rfl
      · rw [if_neg again, if_neg again]
        rfl

theorem scanCompletions_empty (app : Application g ε) (limit scans : Nat) {board : Board g ε}
    (outermost : board.mac.transmitter.completing = false) (empty : board.mac.transmitter.nextStamped? = none) :
    scanCompletions app limit (scans + 1) board = some (0, board.scanning.scanned) := by
  have unstamped : board.scanning.mac.transmitter.nextStamped? = none := empty
  rw [scanCompletions_succ, outermost, if_neg Bool.false_ne_true, drain_none _ _ unstamped]
  rfl

/-- An outermost scan goes on until no timestamp waits, however often another one is asked for meanwhile. -/
theorem scanCompletions_empties {app : Application g ε} {limit scans count : Nat} {before after : Board g ε}
    (outermost : before.mac.transmitter.completing = false)
    (run : scanCompletions app limit scans before = some (count, after)) :
    after.mac.transmitter.nextStamped? = none := by
  induction scans generalizing before count with
  | zero => cases run
  | succ scans ih =>
    rw [scanCompletions_succ, outermost, if_neg Bool.false_ne_true] at run
    obtain ⟨drained, done, rest⟩ := Option.bind_eq_some_iff.mp run
    split at rest
    · obtain ⟨more, again, same⟩ := Option.map_eq_some_iff.mp rest
      obtain ⟨_, rfl⟩ := Prod.mk.inj same
      exact ih rfl again
    · obtain ⟨_, rfl⟩ := Prod.mk.inj (Option.some.inj rest)
      exact @drain_empties _ _ _ _ drained.1 _ drained.2 done

theorem processCompletions_apply (app : Application g ε) (limit : Nat) {board : Board g ε}
    (up : board.mac.lifecycle ≠ .uninitialized) :
    processCompletions app limit board = scanCompletions app limit (limit + 1) board := by
  unfold processCompletions
  rw [Call.get_bind_apply, if_neg up]

variable {σ : Type}

theorem deliverStamp_logged (app : Application g (TransmitBench σ)) (callback : Option Callback) (stamp : TxTimestamp)
    (board : Board g (TransmitBench σ)) :
    deliverStamp app.logged (callback, stamp) board =
      deliverStamp app (callback, stamp) (logStamp callback stamp board).2 := by
  cases callback with
  | none => rfl
  | some callback => rfl

theorem deliverStamp_upcall {app : Application g (TransmitBench σ)} {delivery : Option Callback × TxTimestamp}
    {before after : Board g (TransmitBench σ)} (run : deliverStamp app delivery before = some ((), after)) :
    app.Upcall before after := by
  obtain ⟨callback, stamp⟩ := delivery
  cases callback with
  | none =>
    obtain ⟨answer, middle, upcall, same⟩ := Call.bind_eq_some.mp run
    obtain ⟨_, rfl⟩ := Prod.mk.inj (Option.some.inj same)
    exact .event upcall
  | some callback => exact .stamp run

end Board

end EthernetMac
