import EthernetMac.Completion
import EthernetMac.Proofs.RingArc
import EthernetMac.Proofs.Calls

namespace EthernetMac

namespace Transmitter

variable {g : Geometry}

/-- Of two slots one is kept, and it is no farther than either. -/
theorem closer_eq_some (t : Transmitter g) (best : Option (Fin g.tx)) (i : Fin g.tx) :
    ∃ kept, t.closer best i = some kept ∧ (kept = i ∨ best = some kept) ∧
      ∀ k, k = i ∨ best = some k → t.distance kept ≤ t.distance k := by
  unfold closer
  cases best with
  | none =>
    refine ⟨i, rfl, Or.inl rfl, ?_⟩
    rintro k (rfl | absent)
    · exact Int.le_refl _
    · cases absent
  | some j =>
    by_cases nearer : t.distance i < t.distance j
    · refine ⟨i, if_pos nearer, Or.inl rfl, ?_⟩
      rintro k (rfl | same)
      · exact Int.le_refl _
      · rw [← Option.some.inj same]
        exact Int.le_of_lt nearer
    · refine ⟨j, if_neg nearer, Or.inr rfl, ?_⟩
      rintro k (rfl | same)
      · exact Int.not_lt.mp nearer
      · exact Int.le_of_eq (congrArg t.distance (Option.some.inj same))

/-- Going through slots the closest of all is kept, with the one that was the closest before. -/
theorem foldl_closer (t : Transmitter g) (slots : List (Fin g.tx)) (best : Option (Fin g.tx)) :
    (slots.foldl t.closer best = none → best = none ∧ slots = []) ∧
      ∀ i, slots.foldl t.closer best = some i →
        (i ∈ slots ∨ best = some i) ∧ ∀ k, k ∈ slots ∨ best = some k → t.distance i ≤ t.distance k := by
  induction slots generalizing best with
  | nil =>
    refine ⟨fun none => ⟨none, rfl⟩, fun i kept => ⟨Or.inr kept, ?_⟩⟩
    rintro k (absent | same)
    · cases absent
    · rw [List.foldl_nil, same] at kept
      exact Int.le_of_eq (congrArg t.distance (Option.some.inj kept).symm)
  | cons head tail ih =>
    rw [List.foldl_cons]
    obtain ⟨empty, found⟩ := ih (t.closer best head)
    obtain ⟨kept, chosen, among, near⟩ := t.closer_eq_some best head
    refine ⟨fun none => ?_, fun i result => ?_⟩
    · rw [(empty none).1] at chosen
      cases chosen
    · obtain ⟨place, least⟩ := found i result
      refine ⟨?_, ?_⟩
      · rcases place with inTail | same
        · exact Or.inl (List.mem_cons_of_mem _ inTail)
        · rw [chosen] at same
          obtain rfl := Option.some.inj same
          rcases among with rfl | before
          · exact Or.inl (List.mem_cons_self ..)
          · exact Or.inr before
      · have first := least kept (Or.inr chosen)
        rintro k (inside | before)
        · rcases List.mem_cons.mp inside with rfl | inTail
          · exact Int.le_trans first (near k (Or.inl rfl))
          · exact least k (Or.inl inTail)
        · exact Int.le_trans first (near k (Or.inr before))

theorem isStamped_eq_true {t : Transmitter g} {i : Fin g.tx} :
    t.isStamped i = true ↔ t.ring.isOwned i = false ∧ (t.ring.descriptor i).stampCaptured = true := by
  rw [isStamped, Bool.and_eq_true, Bool.not_eq_true']

theorem mem_stamped {t : Transmitter g} {i : Fin g.tx} :
    i ∈ t.ring.places.filter t.isStamped ↔ t.isStamped i = true := by
  simp [Ring.places]

theorem nextStamped?_eq_none {t : Transmitter g} : t.nextStamped? = none ↔ ∀ i, t.isStamped i = false := by
  unfold nextStamped?
  constructor
  · intro none i
    obtain ⟨_, unfound⟩ := Option.or_eq_none_iff.mp none
    obtain ⟨_, empty⟩ := (t.foldl_closer _ _).1 unfound
    refine Bool.eq_false_iff.mpr fun stamped => ?_
    have inside := mem_stamped.mpr stamped
    rw [empty] at inside
    cases inside
  · intro unstamped
    have empty : t.ring.places.filter t.isStamped = [] :=
      List.filter_eq_nil_iff.mpr fun i _ => by rw [unstamped i]; exact Bool.false_ne_true
    rw [empty]
    rfl

/-- The slot that is selected comes right after the last acknowledged one or, when no stamped slot does, no stamped slot
lies closer behind that one. -/
theorem nextStamped?_eq_some {t : Transmitter g} {i : Fin g.tx} (selected : t.nextStamped? = some i) :
    t.isStamped i = true ∧
      (t.distance i = 1 ∨ ∀ k, t.isStamped k = true → t.distance k ≠ 1 ∧ t.distance i ≤ t.distance k) := by
  unfold nextStamped? at selected
  dsimp only at selected
  cases search : (t.ring.places.filter t.isStamped).find? fun k => t.distance k = 1 with
  | some k =>
    rw [search, Option.some_or] at selected
    obtain rfl := Option.some.inj selected
    have next := List.find?_some search
    exact ⟨mem_stamped.mp (List.mem_of_find?_eq_some search), Or.inl (of_decide_eq_true next)⟩
  | none =>
    rw [search, Option.none_or] at selected
    obtain ⟨place, least⟩ := (t.foldl_closer _ _).2 i selected
    have missed := List.find?_eq_none.mp search
    refine ⟨?_, Or.inr fun k stamped => ⟨?_, least k (Or.inl (mem_stamped.mpr stamped))⟩⟩
    · rcases place with inside | absent
      · exact mem_stamped.mp inside
      · cases absent
    · have other := missed k (mem_stamped.mpr stamped)
      simpa using other

/-- The slots that may still have a stamp to deliver: the hardware's, and those with a stamp. -/
def load (t : Transmitter g) : Nat :=
  t.ring.places.countP fun i => t.ring.isOwned i || t.isStamped i

theorem load_le (t : Transmitter g) : t.load ≤ g.tx := by
  have bound := List.countP_le_length (p := fun i => t.ring.isOwned i || t.isStamped i) (l := t.ring.places)
  rwa [Ring.places, List.length_finRange] at bound

end Transmitter

end EthernetMac
