import Mathlib.Data.List.Nodup
import EthernetMac.Receiver

namespace EthernetMac.Ring

variable {n : Nat}

@[simp]
theorem advance_zero (i : Fin n) : advance i 0 = i := by
  apply Fin.ext
  simp [advance, Nat.mod_eq_of_lt i.isLt]

@[simp]
theorem advance_length (i : Fin n) : advance i n = i := by
  apply Fin.ext
  simp [advance, Nat.mod_eq_of_lt i.isLt]

theorem advance_add_length (i : Fin n) (k : Nat) : advance i (k + n) = advance i k := by
  apply Fin.ext
  simp [advance, ← Nat.add_assoc]

theorem next_advance (i : Fin n) (k : Nat) : next (advance i k) = advance i (k + 1) :=
  advance_advance i k 1

theorem previous_advance (i : Fin n) (k : Nat) : previous (advance i (k + 1)) = advance i k := by
  rw [← next_advance, previous_next]

theorem advance_injective (i : Fin n) {a b : Nat} (ha : a < n) (hb : b < n)
    (same : advance i a = advance i b) : a = b := by
  have inside := i.isLt
  have places : (i.val + a) % n = (i.val + b) % n := congrArg Fin.val same
  by_cases wrapA : i.val + a < n <;> by_cases wrapB : i.val + b < n
  · rw [Nat.mod_eq_of_lt wrapA, Nat.mod_eq_of_lt wrapB] at places
    omega
  · rw [Nat.mod_eq_of_lt wrapA, Nat.mod_eq_sub_mod (by omega), Nat.mod_eq_of_lt (by omega)] at places
    omega
  · rw [Nat.mod_eq_of_lt wrapB, Nat.mod_eq_sub_mod (by omega), Nat.mod_eq_of_lt (by omega)] at places
    omega
  · rw [Nat.mod_eq_sub_mod (by omega), Nat.mod_eq_of_lt (by omega : i.val + a - n < n),
      Nat.mod_eq_sub_mod (by omega), Nat.mod_eq_of_lt (by omega : i.val + b - n < n)] at places
    omega

theorem exists_advance (i j : Fin n) : ∃ k, k < n ∧ advance i k = j := by
  have insideI := i.isLt
  have insideJ := j.isLt
  by_cases before : i.val ≤ j.val
  · refine ⟨j.val - i.val, by omega, Fin.ext ?_⟩
    simp only [advance]
    rw [show i.val + (j.val - i.val) = j.val by omega, Nat.mod_eq_of_lt insideJ]
  · refine ⟨j.val + n - i.val, by omega, Fin.ext ?_⟩
    simp only [advance]
    rw [show i.val + (j.val + n - i.val) = j.val + n by omega, Nat.add_mod_right, Nat.mod_eq_of_lt insideJ]

theorem nodup_advance (i : Fin n) {count : Nat} (fits : count ≤ n) : ((List.range count).map (advance i)).Nodup := by
  refine List.Nodup.map_on (fun a insideA b insideB same => ?_) List.nodup_range
  have nearA := List.mem_range.mp insideA
  have nearB := List.mem_range.mp insideB
  exact advance_injective i (by omega) (by omega) same

theorem advance_next (i : Fin n) (k : Nat) : advance (next i) k = advance i (k + 1) := by
  rw [next, advance_advance, Nat.add_comm]

theorem ne_advance (i : Fin n) {k : Nat} (positive : 0 < k) (inside : k < n) : i ≠ advance i k := by
  intro same
  rw [← advance_zero i, advance_advance] at same
  have := advance_injective i (by omega) (by omega) same
  omega

@[simp]
theorem slot_modifySlot_self (ring : Ring n) (i : Fin n) (change : Slot → Slot) :
    (ring.modifySlot i change).slot i = change (ring.slot i) :=
  slot_setSlot_self ring i _

theorem slot_modifySlot_of_ne (ring : Ring n) {i j : Fin n} (change : Slot → Slot) (apart : i ≠ j) :
    (ring.modifySlot i change).slot j = ring.slot j :=
  slot_setSlot_of_ne ring _ apart

/-- A slot that keeps the address of its block changes none of the addresses. -/
theorem buffer_setSlot (ring : Ring n) (i : Fin n) (slot : Slot) (kept : slot.ext.buffer = (ring.slot i).ext.buffer)
    (j : Fin n) : ((ring.setSlot i slot).slot j).ext.buffer = (ring.slot j).ext.buffer := by
  by_cases here : i = j
  · rw [← here, slot_setSlot_self, kept]
  · rw [slot_setSlot_of_ne _ _ here]

/-- What the hardware writes leaves the extensions alone. -/
theorem ext_setDescriptor (ring : Ring n) (i : Fin n) (d : Descriptor) (j : Fin n) :
    ((ring.setDescriptor i d).slot j).ext = (ring.slot j).ext := by
  by_cases here : i = j
  · rw [← here, setDescriptor, slot_modifySlot_self]
  · rw [setDescriptor, slot_modifySlot_of_ne _ _ here]

theorem buffer_setDescriptor (ring : Ring n) (i : Fin n) (d : Descriptor) (j : Fin n) :
    ((ring.setDescriptor i d).slot j).ext.buffer = (ring.slot j).ext.buffer :=
  congrArg Extension.buffer (ring.ext_setDescriptor i d j)

theorem slot_rearm_of_ge (ring : Ring n) (first : Fin n) {count k : Nat} (beyond : count ≤ k) (inside : k < n) :
    (ring.rearm first count).slot (advance first k) = ring.slot (advance first k) := by
  induction count generalizing ring first k with
  | zero => rfl
  | succ count ih =>
    obtain ⟨k, rfl⟩ : ∃ later, k = later + 1 := ⟨k - 1, by omega⟩
    rw [rearm, ← advance_next, ih _ _ (by omega) (by omega), advance_next,
      slot_modifySlot_of_ne _ _ (ne_advance first (by omega) inside)]

/-- Every slot that is given back is armed with the block that its extension names. -/
theorem slot_rearm_of_lt (ring : Ring n) (first : Fin n) {count k : Nat} (whole : count ≤ n) (inside : k < count) :
    (ring.rearm first count).slot (advance first k) = (ring.slot (advance first k)).rearm := by
  induction count generalizing ring first k with
  | zero => omega
  | succ count ih =>
    rw [rearm]
    cases k with
    | zero =>
      -- the rest of the turn ends before it comes back to the first slot
      have turn : first = advance (next first) (n - 1) := by
        rw [advance_next, show n - 1 + 1 = n by omega, advance_length]
      have kept := slot_rearm_of_ge (ring.modifySlot first Slot.rearm) (next first)
        (by omega : count ≤ n - 1) (by omega)
      rw [← turn] at kept
      rw [advance_zero, kept, slot_modifySlot_self]
    | succ k =>
      rw [← advance_next, ih _ _ (by omega) (by omega), advance_next,
        slot_modifySlot_of_ne _ _ (ne_advance first (by omega) (by omega))]

/-- Walking back through software-owned slots stops behind the nearest slot of the hardware, if that is near enough. -/
theorem afterOwned?_advance (ring : Ring n) (start : Fin n) (count : Nat) {back : Nat}
    (released : ∀ k, k < back → ring.isOwned (advance start k) = false)
    (held : back < count → ring.isOwned (previous start) = true) :
    ring.afterOwned? count (advance start back) = if back < count then some start else none := by
  induction count generalizing back with
  | zero => simp [afterOwned?]
  | succ count ih =>
    rw [afterOwned?]
    cases back with
    | zero => simp [held (by omega)]
    | succ back =>
      rw [previous_advance, released back (by omega),
         ih (fun k lt => released k (by omega)) (fun lt => held (by omega))]
      simp

theorem afterOwned?_some {ring : Ring n} {count : Nat} {position start : Fin n}
    (found : ring.afterOwned? count position = some start) : ∃ back, back < count ∧ position = advance start back ∧
      (∀ k, k < back → ring.isOwned (advance start k) = false) ∧ ring.isOwned (previous start) = true := by
  induction count generalizing position with
  | zero => cases found
  | succ count ih =>
    rw [afterOwned?] at found
    split at found
    · rename_i owned
      obtain rfl := Option.some.inj found
      exact ⟨0, Nat.succ_pos count, (advance_zero _).symm, fun k none => absurd none (Nat.not_lt_zero k), owned⟩
    · rename_i unowned
      obtain ⟨back, inside, place, released, held⟩ := ih found
      refine ⟨back + 1, Nat.succ_lt_succ inside, ?_, fun k within => ?_, held⟩
      · rw [← next_advance, ← place, next_previous]
      · rcases Nat.lt_or_eq_of_le (Nat.le_of_lt_succ within) with before | here
        · exact released k before
        · rw [here, ← place]
          exact Bool.eq_false_iff.mpr unowned

theorem afterOwned?_none {ring : Ring n} {count : Nat} {start : Fin n}
    (found : ring.afterOwned? count (advance start count) = none) :
    ∀ k, k < count → ring.isOwned (advance start k) = false := by
  induction count with
  | zero => exact fun k none => absurd none (Nat.not_lt_zero k)
  | succ count ih =>
    rw [afterOwned?, previous_advance] at found
    split at found
    · cases found
    · rename_i unowned
      intro k within
      rcases Nat.lt_or_eq_of_le (Nat.le_of_lt_succ within) with before | here
      · exact ih found k before
      · rw [here]
        exact Bool.eq_false_iff.mpr unowned

/-- The software-owned slots form an arc of the ring: `count` slots from `start` on, and no others. -/
structure IsArc (ring : Ring n) (start : Fin n) (count : Nat) : Prop where
  fits : count ≤ n
  released : ∀ k, k < count → ring.isOwned (advance start k) = false
  owned : ∀ k, count ≤ k → k < n → ring.isOwned (advance start k) = true

theorem IsArc.released_start_iff {ring : Ring n} {start : Fin n} {count : Nat} (arc : ring.IsArc start count) :
    ring.isOwned start = false ↔ 0 < count := by
  constructor
  · intro released
    refine Nat.pos_of_ne_zero fun none => ?_
    have owned := arc.owned 0 (Nat.le_of_eq none) start.pos
    rw [advance_zero, released] at owned
    cases owned
  · intro some
    have released := arc.released 0 some
    rwa [advance_zero] at released

/-- `start` lies `back` slots behind a position, and the slots between are the software's; it is the hardware's that
comes before them, or they are all slots but the one at the position, or all that there are. -/
structure IsOldest (ring : Ring n) (start : Fin n) (back : Nat) : Prop where
  released : ∀ k, k < back → ring.isOwned (advance start k) = false
  bounded : back < n - 1 ∧ ring.isOwned (previous start) = true ∨
    back = n - 1 ∧ ring.isOwned (advance start back) = true ∨ back = n

theorem exists_isOldest (ring : Ring n) (position : Fin n) :
    ∃ back, position = advance (ring.oldest position) back ∧ ring.IsOldest (ring.oldest position) back := by
  have positive := position.pos
  rw [oldest]
  cases found : ring.afterOwned? (n - 1) position with
  | some start =>
    obtain ⟨back, near, place, released, held⟩ := afterOwned?_some found
    exact ⟨back, place, released, Or.inl ⟨near, held⟩⟩
  | none =>
    have round : position = advance (next position) (n - 1) := by
      rw [advance_next, show n - 1 + 1 = n by omega, advance_length]
    rw [round] at found
    have released := afterOwned?_none found
    rw [Option.getD_none]
    cases here : ring.isOwned position with
    | true => exact ⟨n - 1, round, released, Or.inr (Or.inl ⟨rfl, by rw [if_pos rfl, ← round, here]⟩)⟩
    | false =>
      refine ⟨n, (advance_length _).symm, fun k inside => ?_, Or.inr (Or.inr rfl)⟩
      rw [if_neg Bool.false_ne_true]
      cases k with
      | zero => rwa [advance_zero]
      | succ k =>
        rw [← advance_next]
        exact released k (by omega)

theorem IsOldest.oldest_eq {ring : Ring n} {start : Fin n} {back : Nat} (old : ring.IsOldest start back) :
    ring.oldest (advance start back) = start := by
  have positive := start.pos
  have first : ring.afterOwned? (n - 1) (advance start back) = if back < n - 1 then some start else none := by
    refine ring.afterOwned?_advance start (n - 1) old.released fun near => ?_
    rcases old.bounded with ⟨_, held⟩ | ⟨same, _⟩ | same
    · exact held
    · omega
    · omega
  rw [oldest, first]
  rcases old.bounded with ⟨near, _⟩ | ⟨same, held⟩ | same
  · rw [if_pos near, Option.getD_some]
  · rw [if_neg (by omega), Option.getD_none, if_pos held, next_advance, show back + 1 = n by omega, advance_length]
  · subst same
    have here := old.released 0 positive
    rw [advance_zero] at here
    rw [if_neg (by omega), Option.getD_none, advance_length, here, if_neg Bool.false_ne_true]

/-- The oldest slot of an arc that ends in front of the hardware's position is its start, also when the arc is empty
or goes all round the ring. -/
theorem IsArc.oldest_eq {ring : Ring n} {start : Fin n} {count : Nat} (arc : ring.IsArc start count) :
    ring.oldest (advance start count) = start := by
  have fits := arc.fits
  refine IsOldest.oldest_eq ⟨arc.released, ?_⟩
  by_cases short : count < n - 1
  · exact Or.inl ⟨short, arc.owned (n - 1) (by omega) (by omega)⟩
  · rcases Nat.lt_or_ge count n with last | full
    · exact Or.inr (Or.inl ⟨by omega, arc.owned count (Nat.le_refl _) last⟩)
    · exact Or.inr (Or.inr (by omega))

end EthernetMac.Ring
