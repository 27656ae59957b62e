import EthernetMac.Proofs.Transmit.Selection

namespace EthernetMac

namespace Transmitter

variable {g : Geometry}

/-- How many submissions after the last acknowledged one a slot's sequence number stands, once around the counter at
the most. -/
def ahead (t : Transmitter g) (i : Fin g.tx) : Nat := ((t.ring.slot i).ext.sequence - t.acknowledged).toNat

/-- The stamped slots, sorted once by how far ahead they are. -/
def waiting (t : Transmitter g) : List (Fin g.tx) :=
  (t.ring.places.filter t.isStamped).mergeSort fun i j => t.ahead i ≤ t.ahead j

/-- No two stamped slots have the same sequence number, and all of them are ahead by less than half a turn of the
counter. -/
structure IsNear (t : Transmitter g) : Prop where
  apart : ∀ i j, t.isStamped i = true → t.isStamped j = true →
    (t.ring.slot i).ext.sequence = (t.ring.slot j).ext.sequence → i = j
  within : ∀ i, t.isStamped i = true → 1 ≤ t.ahead i ∧ t.ahead i ≤ 32767

theorem mem_waiting {t : Transmitter g} {i : Fin g.tx} : i ∈ t.waiting ↔ t.isStamped i = true := by
  rw [waiting, List.mem_mergeSort, mem_stamped]

theorem waiting_perm (t : Transmitter g) : t.waiting.Perm (t.ring.places.filter t.isStamped) :=
  List.mergeSort_perm _ _

theorem waiting_nodup (t : Transmitter g) : t.waiting.Nodup :=
  t.waiting_perm.nodup_iff.mpr ((List.nodup_finRange _).filter _)

theorem waiting_length_le (t : Transmitter g) : t.waiting.length ≤ g.tx := by
  have bound := List.length_filter_le t.isStamped t.ring.places
  rwa [← t.waiting_perm.length_eq, Ring.places, List.length_finRange] at bound

theorem waiting_eq_nil {t : Transmitter g} : t.waiting = [] ↔ t.nextStamped? = none := by
  rw [nextStamped?_eq_none, List.eq_nil_iff_forall_not_mem]
  exact forall_congr' fun i => by rw [mem_waiting, Bool.not_eq_true]

section Congruence

variable {t u : Transmitter g} (ring : u.ring = t.ring) (acknowledged : u.acknowledged = t.acknowledged)

include ring

theorem isStamped_congr : u.isStamped = t.isStamped := by
  funext i
  rw [isStamped, isStamped, ring]

include acknowledged

theorem ahead_congr : u.ahead = t.ahead := by
  funext i
  rw [ahead, ahead, ring, acknowledged]

/-- A scan goes by nothing but the ring and the last acknowledged number. -/
theorem waiting_congr : u.waiting = t.waiting := by
  rw [waiting, waiting, isStamped_congr ring, ahead_congr ring acknowledged, ring]

end Congruence

namespace IsNear

variable {t : Transmitter g} {i j : Fin g.tx} (near : t.IsNear)

theorem congr {u : Transmitter g} (near : t.IsNear) (ring : u.ring = t.ring)
    (acknowledged : u.acknowledged = t.acknowledged) : u.IsNear := by
  obtain ⟨apart, within⟩ := near
  constructor
  · rwa [isStamped_congr ring, ring]
  · rwa [isStamped_congr ring, ahead_congr ring acknowledged]

include near

/-- Less than half a turn ahead the sign of a distance does not show. -/
theorem distance_eq (stamped : t.isStamped i = true) : t.distance i = t.ahead i := by
  have short : ((t.ring.slot i).ext.sequence - t.acknowledged).toBitVec.toNat ≤ 32767 := (near.within i stamped).2
  have signed : t.distance i = ((t.ring.slot i).ext.sequence - t.acknowledged).toBitVec.toInt := rfl
  rw [signed, BitVec.toInt_eq_toNat_of_lt (by omega)]
  rfl

theorem eq_of_ahead_eq (one : t.isStamped i = true) (two : t.isStamped j = true) (same : t.ahead i = t.ahead j) :
    i = j := by
  refine near.apart i j one two ?_
  have back : ∀ k, (t.ring.slot k).ext.sequence - t.acknowledged + t.acknowledged = (t.ring.slot k).ext.sequence :=
    fun k => UInt16.sub_add_cancel _ _
  rw [← back i, ← back j, UInt16.toNat_inj.mp same]

theorem waiting_sorted : t.waiting.Pairwise fun i j => t.ahead i < t.ahead j := by
  have sorted : t.waiting.Pairwise fun i j => decide (t.ahead i ≤ t.ahead j) = true :=
    List.pairwise_mergeSort (fun a b c ab bc => by simp only [decide_eq_true_eq] at *; omega)
      (fun a b => by simp only [Bool.or_eq_true, decide_eq_true_eq]; omega) _
  refine (sorted.and t.waiting_nodup).imp_of_mem fun {i j} one two both => ?_
  have other : t.ahead i ≠ t.ahead j :=
    fun same => both.2 (near.eq_of_ahead_eq (mem_waiting.mp one) (mem_waiting.mp two) same)
  have least := of_decide_eq_true both.1
  omega

/-- The slot that is selected is the nearest one, whether it is taken at once or at the end of the search. -/
theorem nextStamped?_least (selected : t.nextStamped? = some i) (stamped : t.isStamped j = true) :
    t.ahead i ≤ t.ahead j := by
  obtain ⟨mine, nearest⟩ := nextStamped?_eq_some selected
  have first := (near.within j stamped).1
  rcases nearest with next | least
  · rw [near.distance_eq mine] at next
    omega
  · have farther := (least j stamped).2
    rw [near.distance_eq mine, near.distance_eq stamped] at farther
    omega

theorem nextStamped?_lt (selected : t.nextStamped? = some i) (stamped : t.isStamped j = true) (other : j ≠ i) :
    t.ahead i < t.ahead j := by
  refine Nat.lt_of_le_of_ne (near.nextStamped?_least selected stamped) fun same => other ?_
  exact near.eq_of_ahead_eq stamped (nextStamped?_eq_some selected).1 same.symm

end IsNear

section Taking

variable {t : Transmitter g} {i j : Fin g.tx}

theorem slot_takeStamp_self (t : Transmitter g) (i : Fin g.tx) :
    (t.takeStamp i).2.ring.slot i = ⟨.blank, { (t.ring.slot i).ext with request := {} }⟩ :=
  Ring.slot_setSlot_self _ _ _

theorem slot_takeStamp_of_ne (t : Transmitter g) (other : j ≠ i) :
    (t.takeStamp i).2.ring.slot j = t.ring.slot j :=
  Ring.slot_setSlot_of_ne _ _ (Ne.symm other)

theorem isStamped_takeStamp : (t.takeStamp i).2.isStamped j = true ↔ t.isStamped j = true ∧ j ≠ i := by
  by_cases here : j = i
  · subst here
    have clear : Descriptor.blank.stampCaptured = false := by decide
    rw [isStamped_eq_true, Ring.descriptor, slot_takeStamp_self]
    exact iff_of_false (fun held => Bool.false_ne_true (clear.symm.trans held.2)) fun held => held.2 rfl
  · rw [isStamped, isStamped, Ring.isOwned, Ring.isOwned, Ring.descriptor, Ring.descriptor,
      slot_takeStamp_of_ne t here]
    exact (and_iff_left here).symm

theorem sequence_takeStamp (t : Transmitter g) (i j : Fin g.tx) :
    ((t.takeStamp i).2.ring.slot j).ext.sequence = (t.ring.slot j).ext.sequence := by
  by_cases here : j = i
  · subst here
    rw [slot_takeStamp_self]
  · rw [slot_takeStamp_of_ne t here]

/-- The reference point moves on to the slot that was taken. -/
theorem ahead_takeStamp (behind : t.ahead i ≤ t.ahead j) : (t.takeStamp i).2.ahead j = t.ahead j - t.ahead i := by
  have moved : (t.takeStamp i).2.ahead j = ((t.ring.slot j).ext.sequence - (t.ring.slot i).ext.sequence).toNat := by
    rw [ahead, sequence_takeStamp]
    rfl
  rw [moved]
  unfold ahead at behind ⊢
  have bounds := (t.ring.slot i).ext.sequence.toNat_lt
  have bounds' := (t.ring.slot j).ext.sequence.toNat_lt
  have bounds'' := t.acknowledged.toNat_lt
  simp only [UInt16.toNat_sub] at behind ⊢
  omega

variable (near : t.IsNear) (selected : t.nextStamped? = some i)

include near selected

theorem IsNear.takeStamp : (t.takeStamp i).2.IsNear where
  apart j k one two same := by
    rw [sequence_takeStamp, sequence_takeStamp] at same
    exact near.apart j k (isStamped_takeStamp.mp one).1 (isStamped_takeStamp.mp two).1 same
  within j stamped := by
    obtain ⟨waits, other⟩ := isStamped_takeStamp.mp stamped
    have farther := near.nextStamped?_lt selected waits other
    have short := (near.within j waits).2
    rw [ahead_takeStamp (Nat.le_of_lt farther)]
    omega

/-- To select the nearest slot, take it and look again is to go through the slots sorted at the start. -/
theorem IsNear.waiting_eq_cons : t.waiting = i :: (t.takeStamp i).2.waiting := by
  have mine := (nextStamped?_eq_some selected).1
  have left : ∀ j ∈ (t.takeStamp i).2.waiting, t.isStamped j = true ∧ j ≠ i :=
    fun j among => isStamped_takeStamp.mp (mem_waiting.mp among)
  have fresh : i ∉ (t.takeStamp i).2.waiting := fun among => (left i among).2 rfl
  have sorted : (i :: (t.takeStamp i).2.waiting).Pairwise fun j k => t.ahead j < t.ahead k := by
    refine List.pairwise_cons.mpr ⟨fun j among => ?_, ?_⟩
    · exact near.nextStamped?_lt selected (left j among).1 (left j among).2
    · refine (near.takeStamp selected).waiting_sorted.imp_of_mem fun {j k} one two order => ?_
      rw [ahead_takeStamp (near.nextStamped?_least selected (left j one).1),
        ahead_takeStamp (near.nextStamped?_least selected (left k two).1)] at order
      omega
  refine List.Perm.eq_of_pairwise (fun j k _ _ one two => ?_) near.waiting_sorted sorted ?_
  · exact absurd one (Nat.lt_asymm two)
  · refine (List.perm_ext_iff_of_nodup t.waiting_nodup
      (List.nodup_cons.mpr ⟨fresh, waiting_nodup _⟩)).mpr fun j => ?_
    rw [List.mem_cons, mem_waiting, mem_waiting, isStamped_takeStamp]
    by_cases here : j = i
    · subst here
      exact iff_of_true mine (Or.inl rfl)
    · exact ⟨fun stamped => Or.inr ⟨stamped, here⟩, fun either => (either.resolve_left here).1⟩

end Taking

/-- What a transmitter has become of another one all of whose timestamps were taken out, the farthest one last. -/
structure Drained (before after : Transmitter g) : Prop where
  base : after.ring.base = before.ring.base
  taken : ∀ i, before.isStamped i = true →
    after.ring.slot i = ⟨.blank, { (before.ring.slot i).ext with request := {} }⟩
  kept : ∀ i, before.isStamped i = false → after.ring.slot i = before.ring.slot i
  acknowledged : ∀ i, before.isStamped i = true →
    (∀ j, before.isStamped j = true → before.ahead j ≤ before.ahead i) →
    after.acknowledged = (before.ring.slot i).ext.sequence
  unacknowledged : (∀ i, before.isStamped i = false) → after.acknowledged = before.acknowledged

namespace Drained

variable {t u : Transmitter g} {i : Fin g.tx}

theorem nothing (empty : t.nextStamped? = none) : t.Drained t := by
  have unstamped := nextStamped?_eq_none.mp empty
  have absurdly : ∀ i, t.isStamped i ≠ true := fun i => Bool.eq_false_iff.mp (unstamped i)
  exact ⟨rfl, fun i stamped => absurd stamped (absurdly i), fun _ _ => rfl,
    fun i stamped => absurd stamped (absurdly i), fun _ => rfl⟩

theorem congr (drained : t.Drained u) {v : Transmitter g} (ring : v.ring = t.ring)
    (acknowledged : v.acknowledged = t.acknowledged) : v.Drained u := by
  obtain ⟨base, taken, kept, last, none⟩ := drained
  constructor
  · rwa [ring]
  · rwa [isStamped_congr ring, ring]
  · rwa [isStamped_congr ring, ring]
  · rwa [isStamped_congr ring, ahead_congr ring acknowledged, ring]
  · rwa [isStamped_congr ring, acknowledged]

/-- The one that is selected is taken first. -/
theorem cons (near : t.IsNear) (selected : t.nextStamped? = some i) (rest : (t.takeStamp i).2.Drained u) :
    t.Drained u where
  base := rest.base
  taken j stamped := by
    by_cases here : j = i
    · subst here
      have gone : (t.takeStamp j).2.isStamped j = false :=
        Bool.eq_false_iff.mpr fun still => (isStamped_takeStamp.mp still).2 rfl
      rw [rest.kept j gone, slot_takeStamp_self]
    · rw [rest.taken j (isStamped_takeStamp.mpr ⟨stamped, here⟩), slot_takeStamp_of_ne t here]
  kept j unstamped := by
    have still : (t.takeStamp i).2.isStamped j = false := by
      rw [← Bool.not_eq_true, isStamped_takeStamp, unstamped]
      exact fun held => nomatch held.1
    have other : j ≠ i := by
      rintro rfl
      exact Bool.false_ne_true (unstamped.symm.trans (nextStamped?_eq_some selected).1)
    rw [rest.kept j still, slot_takeStamp_of_ne t other]
  acknowledged j stamped farthest := by
    by_cases here : j = i
    · subst here
      -- the nearest one is the farthest: there is no other
      refine rest.unacknowledged fun k => Bool.eq_false_iff.mpr fun still => ?_
      obtain ⟨waits, other⟩ := isStamped_takeStamp.mp still
      exact absurd (farthest k waits) (Nat.not_le.mpr (near.nextStamped?_lt selected waits other))
    · rw [rest.acknowledged j (isStamped_takeStamp.mpr ⟨stamped, here⟩) fun k still => ?_, sequence_takeStamp]
      have waits := (isStamped_takeStamp.mp still).1
      rw [ahead_takeStamp (near.nextStamped?_least selected waits),
        ahead_takeStamp (near.nextStamped?_least selected stamped)]
      exact Nat.sub_le_sub_right (farthest k waits) _
  unacknowledged none :=
    absurd (nextStamped?_eq_some selected).1 (Bool.eq_false_iff.mp (none i))

end Drained

/-- What is delivered of a slot's timestamp, and to whom. -/
def delivery (t : Transmitter g) (i : Fin g.tx) : Option Callback × TxTimestamp := (t.takeStamp i).1

theorem delivery_congr {t u : Transmitter g} (ring : u.ring = t.ring) : u.delivery = t.delivery := by
  funext i
  rw [delivery, delivery, takeStamp, takeStamp, ring]

/-- Taking one timestamp out leaves the others as they are. -/
theorem map_delivery_takeStamp (t : Transmitter g) {i : Fin g.tx} :
    (t.takeStamp i).2.waiting.map (t.takeStamp i).2.delivery = (t.takeStamp i).2.waiting.map t.delivery := by
  refine List.map_congr_left fun j among => ?_
  have other := (isStamped_takeStamp.mp (mem_waiting.mp among)).2
  have same := slot_takeStamp_of_ne t other
  rw [delivery, delivery, takeStamp, same]
  rfl

end Transmitter

end EthernetMac
