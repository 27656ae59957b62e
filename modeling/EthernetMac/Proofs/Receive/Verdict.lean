import Mathlib.Logic.Relation
import EthernetMac.Proofs.Receive.Scan

namespace EthernetMac.Ring

variable {n : Nat} {ring other : Ring n}

/-- The hardware writes any words into the descriptor of a slot that it owns. -/
inductive Written : Ring n → Ring n → Prop
  | slot {ring : Ring n} {i : Fin n} (d : Descriptor) : ring.isOwned i = true → Written ring (ring.setDescriptor i d)

theorem Written.kept (written : Written ring other) {i : Fin n} (released : ring.isOwned i = false) :
    other.descriptor i = ring.descriptor i := by
  cases written with
  | @slot j d owned =>
    have apart : j ≠ i := fun same => by
      rw [same, released] at owned
      cases owned
    exact congrArg Slot.descriptor (slot_modifySlot_of_ne _ _ apart)

/-- Whatever the hardware writes, it leaves the software's slots alone. -/
theorem kept_of_written (writes : Relation.ReflTransGen Written ring other) {i : Fin n}
    (released : ring.isOwned i = false) : other.descriptor i = ring.descriptor i := by
  induction writes with
  | refl => rfl
  | @tail middle _ _ last ih =>
    have still : middle.isOwned i = false := by rwa [isOwned, ih]
    rw [last.kept still, ih]

section Settled

variable (kept : ∀ i, ring.isOwned i = false → other.descriptor i = ring.descriptor i)

include kept

theorem isOwned_kept {i : Fin n} (released : ring.isOwned i = false) : other.isOwned i = false := by
  rwa [isOwned, kept i released]

theorem closeRun_settled {room more following : Nat} {last : Fin n} (wider : room ≤ more)
    (released : ring.isOwned last = false) (settled : ring.closeRun room following last ≠ .incomplete) :
    other.closeRun more following last = ring.closeRun room following last := by
  unfold closeRun at settled ⊢
  rw [kept last released]
  split at settled
  · rename_i promised
    rw [if_pos promised, if_pos promised]
    split at settled
    · exact absurd rfl settled
    · rename_i seen
      have some : room ≠ 0 := fun none => seen (Or.inl none)
      have behind : ring.isOwned (next last) = false := Bool.eq_false_iff.mpr fun owned => seen (Or.inr owned)
      have seenStill : ¬ (more = 0 ∨ other.isOwned (next last) = true) := by
        rw [isOwned_kept kept behind]
        exact fun either => either.elim (by omega) Bool.false_ne_true
      rw [if_neg seen, if_neg seenStill, kept _ behind]
  · rename_i unpromised
    rw [if_neg unpromised, if_neg unpromised]

theorem followRun_settled {room more following : Nat} {last : Fin n} (wider : room ≤ more)
    (released : ring.isOwned last = false) (settled : ring.followRun room following last ≠ .incomplete) :
    other.followRun more following last = ring.followRun room following last := by
  induction room generalizing more following last with
  | zero =>
    unfold followRun at settled ⊢
    rw [kept last released]
    split at settled
    · rename_i ended
      rw [if_pos ended, if_pos ended]
      exact closeRun_settled kept wider released settled
    · rename_i unended
      rw [if_neg unended, if_neg unended]
      split at settled
      · rename_i filled
        rw [if_pos filled, if_pos filled]
      · exact absurd rfl settled
  | succ room ih =>
    obtain ⟨more, rfl⟩ : ∃ less, more = less + 1 := ⟨more - 1, by omega⟩
    unfold followRun at settled ⊢
    rw [kept last released]
    split at settled
    · rename_i ended
      rw [if_pos ended, if_pos ended]
      exact closeRun_settled kept wider released settled
    · rename_i unended
      rw [if_neg unended, if_neg unended]
      split at settled
      · rename_i filled
        rw [if_pos filled, if_pos filled]
      · rename_i unfilled
        rw [if_neg unfilled, if_neg unfilled]
        dsimp only at settled ⊢
        split at settled
        · exact absurd rfl settled
        · rename_i unowned
          have behind : ring.isOwned (next last) = false := Bool.eq_false_iff.mpr unowned
          rw [isOwned_kept kept behind, behind, if_neg Bool.false_ne_true, if_neg Bool.false_ne_true, kept _ behind]
          split at settled
          · rename_i astray
            rw [if_pos astray, if_pos astray]
          · rename_i carried
            rw [if_neg carried, if_neg carried]
            exact ih (Nat.le_of_succ_le_succ wider) behind settled

/-- Once the verdict is more than that something is missing, it rests on the software's slots alone. Neither what
becomes of the hardware's slots nor more room changes it. -/
theorem scan_settled {room more : Nat} {first : Fin n} (wider : room ≤ more) (released : ring.isOwned first = false)
    (settled : ring.scan first room ≠ .incomplete) : other.scan first more = ring.scan first room := by
  unfold scan at settled ⊢
  rw [kept first released]
  split at settled
  · rename_i astray
    rw [if_pos astray, if_pos astray]
  · rename_i begun
    rw [if_neg begun, if_neg begun]
    exact followRun_settled kept wider released settled

end Settled

/-- A frame is carried on from the slot `i` to the next one: it does not end before, and the next slot is the software's
and neither starts a frame nor holds a stamp. -/
structure CarriesOn (ring : Ring n) (i : Fin n) : Prop where
  unended : (ring.descriptor i).isLast = false
  released : ring.isOwned (next i) = false
  unstarted : (ring.descriptor (next i)).isFirst = false
  data : (ring.descriptor (next i)).isContext = false

/-- More of a frame is needed than the slot `i`, up to which `following` others hold it: it has not ended and the ring
has a slot more for it, or the stamp that it promises comes next. -/
def Lacks (ring : Ring n) (following : Nat) (i : Fin n) : Prop :=
  if (ring.descriptor i).isLast then (ring.descriptor i).stampFollows = true else following + 1 ≠ n

/-- A frame that has been followed from `first` through `following` slots goes on to the slot of the number `last`, and
lacks the one behind that. -/
structure Wants (ring : Ring n) (first : Fin n) (following last : Nat) : Prop where
  reached : following ≤ last
  fits : last < n
  carried : ∀ k, following ≤ k → k < last → ring.CarriesOn (advance first k)
  lacking : ring.Lacks last (advance first last)

section Incomplete

variable {first : Fin n} {room following last : Nat}

theorem Wants.cases (wants : ring.Wants first following last) :
    last = following ∧ ring.Lacks following (advance first following) ∨
      ring.CarriesOn (advance first following) ∧ ring.Wants first (following + 1) last := by
  rcases Nat.lt_or_eq_of_le wants.reached with before | rfl
  · exact Or.inr ⟨wants.carried following (Nat.le_refl _) before, before, wants.fits,
      fun k behind => wants.carried k (Nat.le_of_succ_le behind), wants.lacking⟩
  · exact Or.inl ⟨rfl, wants.lacking⟩

theorem Wants.later (carried : ring.CarriesOn (advance first following))
    (wants : ring.Wants first (following + 1) last) : ring.Wants first following last := by
  refine ⟨Nat.le_of_succ_le wants.reached, wants.fits, fun k behind before => ?_, wants.lacking⟩
  rcases Nat.lt_or_eq_of_le behind with later | rfl
  · exact wants.carried k later before
  · exact carried

theorem closeRun_incomplete_iff {i : Fin n} : ring.closeRun room following i = .incomplete ↔
    (ring.descriptor i).stampFollows = true ∧ (room = 0 ∨ ring.isOwned (next i) = true) := by
  unfold closeRun
  split
  · rename_i promised
    split
    · rename_i unseen
      exact ⟨fun _ => ⟨promised, unseen⟩, fun _ => rfl⟩
    · rename_i seen
      refine ⟨fun found => ?_, fun missing => absurd missing.2 seen⟩
      split at found <;> cases found
  · rename_i unpromised
    exact ⟨fun found => (by cases found), fun missing => absurd missing.1 unpromised⟩

/-- Without room for another slot, what is lacking is missing. -/
theorem followRun_zero_iff {i : Fin n} : ring.followRun 0 following i = .incomplete ↔ ring.Lacks following i := by
  unfold followRun Lacks
  split
  · rw [closeRun_incomplete_iff]
    exact ⟨And.left, fun promised => ⟨promised, Or.inl rfl⟩⟩
  · split
    · rename_i filled
      exact ⟨fun found => (by cases found), fun unfilled => absurd filled unfilled⟩
    · rename_i unfilled
      exact ⟨fun _ => unfilled, fun _ => rfl⟩

/-- With more room, what is lacking is missing if the hardware has not written the next slot; otherwise that slot may
lead on to another one that is missing. -/
theorem followRun_succ_iff {i : Fin n} : ring.followRun (room + 1) following i = .incomplete ↔
    ring.Lacks following i ∧ ring.isOwned (next i) = true ∨
      following + 1 ≠ n ∧ ring.CarriesOn i ∧ ring.followRun room (following + 1) (next i) = .incomplete := by
  rw [followRun, Lacks]
  split
  · rename_i ended
    rw [closeRun_incomplete_iff]
    constructor
    · rintro ⟨promised, none | owned⟩
      · exact absurd none (Nat.succ_ne_zero room)
      · exact Or.inl ⟨promised, owned⟩
    · rintro (⟨promised, owned⟩ | ⟨_, carried, _⟩)
      · exact ⟨promised, Or.inr owned⟩
      · rw [carried.unended] at ended
        cases ended
  · rename_i unended
    split
    · rename_i filled
      refine ⟨fun found => (by cases found), ?_⟩
      rintro (⟨unfilled, _⟩ | ⟨unfilled, _⟩) <;> exact absurd filled unfilled
    · rename_i unfilled
      split
      · rename_i owned
        exact ⟨fun _ => Or.inl ⟨unfilled, owned⟩, fun _ => rfl⟩
      · rename_i unowned
        split
        · rename_i astray
          refine ⟨fun found => (by cases found), ?_⟩
          rintro (⟨_, owned⟩ | ⟨_, carried, _⟩)
          · exact absurd owned unowned
          · rw [carried.unstarted, carried.data] at astray
            cases astray
        · rename_i carried
          rw [Bool.or_eq_true, not_or, Bool.not_eq_true, Bool.not_eq_true] at carried
          constructor
          · exact fun found => Or.inr ⟨unfilled, ⟨Bool.eq_false_iff.mpr unended, Bool.eq_false_iff.mpr unowned,
              carried.1, carried.2⟩, found⟩
          · rintro (⟨_, owned⟩ | ⟨_, _, found⟩)
            · exact absurd owned unowned
            · exact found

theorem followRun_incomplete_iff (fits : following < n) :
    ring.followRun room following (advance first following) = .incomplete ↔
      ∃ last, ring.Wants first following last ∧
        (last = following + room ∨ last < following + room ∧ ring.isOwned (advance first (last + 1)) = true) := by
  induction room generalizing following with
  | zero =>
    rw [followRun_zero_iff]
    constructor
    · exact fun lacks => ⟨following, ⟨Nat.le_refl _, fits, fun k behind before => by omega, lacks⟩, Or.inl rfl⟩
    · rintro ⟨last, wants, rfl | ⟨before, _⟩⟩
      · exact wants.lacking
      · exact absurd wants.reached (Nat.not_le.mpr before)
  | succ room ih =>
    rw [followRun_succ_iff, next_advance]
    constructor
    · rintro (⟨lacks, owned⟩ | ⟨unfilled, carried, found⟩)
      · exact ⟨following, ⟨Nat.le_refl _, fits, fun k behind before => by omega, lacks⟩,
          Or.inr ⟨by omega, owned⟩⟩
      · obtain ⟨last, wants, missing⟩ := (ih (by omega)).mp found
        refine ⟨last, wants.later carried, ?_⟩
        rwa [show following + (room + 1) = following + 1 + room by omega]
    · rintro ⟨last, wants, missing⟩
      rcases wants.cases with ⟨rfl, lacks⟩ | ⟨carried, later⟩
      · rcases missing with far | ⟨_, owned⟩
        · omega
        · exact Or.inl ⟨lacks, owned⟩
      · have reached := later.reached
        have inside := later.fits
        refine Or.inr ⟨by omega, carried, (ih (by omega)).mpr ⟨last, later, ?_⟩⟩
        rwa [show following + 1 + room = following + (room + 1) by omega]

theorem scan_incomplete_iff : ring.scan first room = .incomplete ↔
    (ring.descriptor first).isFirst = true ∧ (ring.descriptor first).isContext = false ∧
      ∃ last, ring.Wants first 0 last ∧
        (last = room ∨ last < room ∧ ring.isOwned (advance first (last + 1)) = true) := by
  have followed : ring.followRun room 0 (advance first 0) = .incomplete ↔ _ := followRun_incomplete_iff first.pos
  rw [advance_zero, Nat.zero_add] at followed
  unfold scan
  split
  · rename_i astray
    refine ⟨fun found => (by cases found), fun ⟨begun, data, _⟩ => ?_⟩
    rw [begun, data] at astray
    cases astray
  · rename_i begun
    rw [Bool.or_eq_true, not_or, Bool.not_eq_true, Bool.not_eq_true', Bool.not_eq_false] at begun
    rw [followed]
    exact ⟨fun found => ⟨begun.2, begun.1, found⟩, fun found => found.2.2⟩

end Incomplete

/-- A verdict on the slots from a released one on stands, however the hardware goes on, unless it is that something is
missing; its slots are the software's and no more than may be looked at. Something is missing only where the next slot
of a frame is the hardware's or too far off. -/
theorem verdict_stands (ring : Ring n) {first : Fin n} (room : Nat) (released : ring.isOwned first = false) :
    (ring.scan first room ≠ .incomplete →
      ring.Shows first room (ring.scan first room) ∧
        ∀ other, Relation.ReflTransGen Written ring other → other.scan first room = ring.scan first room) ∧
    (ring.scan first room = .incomplete ↔
      (ring.descriptor first).isFirst = true ∧ (ring.descriptor first).isContext = false ∧
        ∃ last, ring.Wants first 0 last ∧
          (last = room ∨ last < room ∧ ring.isOwned (advance first (last + 1)) = true)) :=
  ⟨fun settled => ⟨ring.scan_shows first room, fun _ writes =>
    scan_settled (fun _ => kept_of_written writes) (Nat.le_refl room) released settled⟩, scan_incomplete_iff⟩

/-- A stamped frame of two segments in a ring of four slots, the last of which the hardware may write as it likes. -/
theorem verdict_stands_stamped :
    let ring : Ring 4 := ⟨0, #v[{ descriptor := { word3 := Descriptor.firstBit } },
      { descriptor := { word1 := Descriptor.stampFollowsBit, word3 := Descriptor.lastBit } },
      { descriptor := { word3 := Descriptor.contextBit } }, { descriptor := .armed 0 }]⟩
    ring.isOwned 0 = false ∧ ring.scan 0 3 = .frame 1 1 (.inSlot 2) ∧
      ∀ other, Relation.ReflTransGen Written ring other → other.scan 0 3 = .frame 1 1 (.inSlot 2) := by
  intro ring
  have released : ring.isOwned 0 = false := by decide
  have found : ring.scan 0 3 = .frame 1 1 (.inSlot 2) := by decide
  have settled : ring.scan 0 3 ≠ .incomplete := by rw [found]; exact fun none => nomatch none
  obtain ⟨_, stands⟩ := (verdict_stands ring 3 released).1 settled
  exact ⟨released, found, fun other writes => (stands other writes).trans found⟩

end EthernetMac.Ring
