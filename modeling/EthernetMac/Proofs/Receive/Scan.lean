import EthernetMac.Proofs.Receive.Holding

namespace EthernetMac

namespace Ring

variable {n : Nat}

/-- Following a frame that ends within the room leads to its last slot. `continued` says that no slot before it ends
the frame and that the next one carries it on. -/
theorem followRun_of_last (ring : Ring n) (start : Fin n) (room following last : Nat) (inside : following ≤ last)
    (fits : last < n)
    (continued : ∀ k, k < last → (ring.descriptor (advance start k)).isLast = false ∧
      ring.isOwned (advance start (k + 1)) = false ∧ (ring.descriptor (advance start (k + 1))).isFirst = false ∧
      (ring.descriptor (advance start (k + 1))).isContext = false)
    (ended : (ring.descriptor (advance start last)).isLast = true) :
    ring.followRun room following (advance start following) =
      if last - following ≤ room then ring.closeRun (room - (last - following)) last (advance start last)
      else .incomplete := by
  induction room generalizing following with
  | zero =>
    rcases Nat.lt_or_eq_of_le inside with before | here
    · have unended := (continued following before).1
      rw [followRun, unended, if_neg Bool.false_ne_true, if_neg (by omega), if_neg (by omega)]
    · subst here
      rw [followRun, ended, if_pos rfl, if_pos (by omega), Nat.sub_self]
  | succ room ih =>
    rcases Nat.lt_or_eq_of_le inside with before | here
    · obtain ⟨unended, released, unstarted, data⟩ := continued following before
      rw [followRun, unended, if_neg Bool.false_ne_true, if_neg (by omega), next_advance]
      simp only [released, unstarted, data, Bool.or_self, Bool.false_eq_true, if_false]
      rw [ih _ (by omega)]
      by_cases near : last - following ≤ room + 1
      · rw [if_pos near, if_pos (by omega),
          show room - (last - (following + 1)) = room + 1 - (last - following) by omega]
      · rw [if_neg near, if_neg (by omega)]
    · subst here
      rw [followRun, ended, if_pos rfl, if_pos (by omega), Nat.sub_self]
      rfl

theorem followRun_of_unfinished (ring : Ring n) (start : Fin n) (room following written : Nat)
    (inside : following < written) (fits : written < n)
    (continued : ∀ k, k < written → (ring.descriptor (advance start k)).isLast = false)
    (unstarted : ∀ k, 0 < k → k < written → (ring.descriptor (advance start k)).isFirst = false ∧
      (ring.descriptor (advance start k)).isContext = false)
    (owned : ring.isOwned (advance start written) = true) :
    ring.followRun room following (advance start following) = .incomplete := by
  induction room generalizing following with
  | zero => rw [followRun, continued following inside, if_neg Bool.false_ne_true, if_neg (by omega)]
  | succ room ih =>
    rw [followRun, continued following inside, if_neg Bool.false_ne_true, if_neg (by omega), next_advance]
    by_cases held : ring.isOwned (advance start (following + 1)) = true
    · simp only [held, if_true]
    · have before : following + 1 < written := by
        rcases Nat.lt_or_eq_of_le (Nat.succ_le_of_lt inside) with before | here
        · exact before
        · rw [← here] at owned
          exact absurd owned held
      obtain ⟨first, context⟩ := unstarted (following + 1) (by omega) before
      simp only [held, first, context, Bool.or_self, Bool.false_eq_true, if_false]
      exact ih _ before

/-- A frame without an end that takes all slots of the ring is found to overflow it. -/
theorem followRun_of_endless (ring : Ring n) (start : Fin n) (room following : Nat) (whole : following + room + 1 = n)
    (continued : ∀ k, k < n → (ring.descriptor (advance start k)).isLast = false)
    (unstarted : ∀ k, 0 < k → k < n → ring.isOwned (advance start k) = false ∧
      (ring.descriptor (advance start k)).isFirst = false ∧ (ring.descriptor (advance start k)).isContext = false) :
    ring.followRun room following (advance start following) = .overflow (n - 1) := by
  induction room generalizing following with
  | zero =>
    rw [followRun, continued following (by omega), if_neg Bool.false_ne_true, if_pos (by omega),
      show following = n - 1 by omega]
  | succ room ih =>
    obtain ⟨released, first, context⟩ := unstarted (following + 1) (by omega) (by omega)
    rw [followRun, continued following (by omega), if_neg Bool.false_ne_true, if_neg (by omega), next_advance]
    simp only [released, first, context, Bool.or_self, Bool.false_eq_true, if_false]
    exact ih _ (by omega)

/-- What holds of every run that is found at `first` with `room` more slots to look at: it lies there and is the
software's, and the last slot and the stamp of a frame are where the run has them. -/
structure Shows (ring : Ring n) (first : Fin n) (room : Nat) (run : Run n) : Prop where
  near : run.beyond ≤ room
  released : ∀ k, 0 < k → k ≤ run.beyond → ring.isOwned (advance first k) = false
  place : ∀ last following context, run = .frame last following context →
    last = advance first following ∧ ∀ i, context = .inSlot i → i = advance first (following + 1)

variable {ring : Ring n} {start : Fin n} {room following : Nat}

theorem Shows.incomplete : ring.Shows start room .incomplete where
  near := Nat.zero_le _
  released _ positive inside := absurd inside (Nat.not_le.mpr positive)
  place _ _ _ same := nomatch same

theorem closeRun_shows (seen : ∀ k, 0 < k → k ≤ following → ring.isOwned (advance start k) = false) :
    ring.Shows start (following + room) (ring.closeRun room following (advance start following)) := by
  unfold closeRun
  rw [next_advance]
  split
  · split
    · exact .incomplete
    · rename_i further
      have some : room ≠ 0 := fun none => further (Or.inl none)
      have behind := Bool.eq_false_iff.mpr fun owned => further (Or.inr owned)
      split
      · refine ⟨Nat.add_le_add_left (Nat.pos_of_ne_zero some) following, fun k positive inside => ?_, ?_⟩
        · rcases Nat.lt_or_eq_of_le inside with before | here
          · exact seen k positive (Nat.le_of_lt_succ before)
          · rw [here]
            exact behind
        · rintro _ _ _ ⟨⟩
          exact ⟨rfl, fun i place => (StampContext.inSlot.inj place).symm⟩
      · refine ⟨Nat.le_add_right _ _, seen, ?_⟩
        rintro _ _ _ ⟨⟩
        exact ⟨rfl, fun i place => nomatch place⟩
  · refine ⟨Nat.le_add_right _ _, seen, ?_⟩
    rintro _ _ _ ⟨⟩
    exact ⟨rfl, fun i place => nomatch place⟩

theorem followRun_shows (seen : ∀ k, 0 < k → k ≤ following → ring.isOwned (advance start k) = false) :
    ring.Shows start (following + room) (ring.followRun room following (advance start following)) := by
  induction room generalizing following with
  | zero =>
    unfold followRun
    split
    · exact closeRun_shows seen
    · split
      · exact ⟨Nat.le_refl _, seen, fun _ _ _ same => nomatch same⟩
      · exact .incomplete
  | succ room ih =>
    unfold followRun
    rw [next_advance]
    split
    · exact closeRun_shows seen
    · split
      · exact ⟨Nat.le_add_right _ _, seen, fun _ _ _ same => nomatch same⟩
      · dsimp only
        split
        · exact .incomplete
        · rename_i unowned
          split
          · exact ⟨Nat.le_add_right _ _, seen, fun _ _ _ same => nomatch same⟩
          · rw [show following + (room + 1) = following + 1 + room by omega]
            refine ih fun k positive inside => ?_
            rcases Nat.lt_or_eq_of_le inside with before | here
            · exact seen k positive (Nat.le_of_lt_succ before)
            · rw [here]
              exact Bool.eq_false_iff.mpr unowned

theorem scan_shows (ring : Ring n) (first : Fin n) (room : Nat) : ring.Shows first room (ring.scan first room) := by
  have none (k : Nat) (positive : 0 < k) (inside : k ≤ 0) : ring.isOwned (advance first k) = false :=
    absurd inside (Nat.not_le.mpr positive)
  unfold scan
  split
  · exact ⟨Nat.zero_le _, none, fun _ _ _ same => nomatch same⟩
  · have followed : ring.Shows first (0 + room) (ring.followRun room 0 (advance first 0)) := followRun_shows none
    rwa [advance_zero, Nat.zero_add] at followed

theorem beyond_scan_le (ring : Ring n) (first : Fin n) (room : Nat) : (ring.scan first room).beyond ≤ room :=
  (ring.scan_shows first room).near

theorem beyond_scan_lt {count : Nat} (arc : ring.IsArc start count) (positive : 0 < count) (near : room < n) :
    (ring.scan start room).beyond < count := by
  have shown := ring.scan_shows start room
  rcases Nat.lt_or_ge (ring.scan start room).beyond count with inside | outside
  · exact inside
  · have owned := arc.owned _ outside (Nat.lt_of_le_of_lt shown.near near)
    rw [shown.released _ (by omega) (Nat.le_refl _)] at owned
    cases owned

end Ring

namespace Part

variable {g : Geometry} {f : Reception g} {d : Descriptor}

theorem Describes.starts (described : (Part.mk f 0).Describes d) : (d.isContext || !d.isFirst) = false := by
  have positive := f.segments_pos
  rw [described.context, described.first positive]
  simp only [decide_true, Bool.not_true, Bool.or_false, decide_eq_false_iff_not]
  omega

theorem Describes.strays {index : Nat} (described : (Part.mk f index).Describes d) (later : index ≠ 0)
    (inside : index < f.slots) : (d.isContext || !d.isFirst) = true := by
  have enough := f.slots_le_segments_succ
  by_cases stamp : index = f.segments
  · rw [described.context]
    simp [stamp]
  · rw [described.first (by simp only; omega)]
    simp [later]

theorem Describes.isLast_eq {k : Nat} (described : (Part.mk f k).Describes d) (inside : k < f.segments) :
    d.isLast = decide (k + 1 = f.segments) :=
  described.last inside

theorem Describes.ends (described : (Part.mk f (f.segments - 1)).Describes d) :
    d.isLast = true ∧ d.stampFollows = f.stamp.isSome := by
  have positive := f.segments_pos
  refine ⟨?_, described.stampFollows (by simp only; omega)⟩
  rw [described.isLast_eq (by omega)]
  exact decide_eq_true (by omega)

end Part

namespace Receiver

variable {g : Geometry}

/-- Where the stamp of a frame that starts at a slot stands. -/
def stampPlace (f : Reception g) (start : Fin g.rx) : StampContext g.rx :=
  if f.stamp.isSome then .inSlot (Ring.advance start f.segments) else .unpromised

theorem count_stampPlace (f : Reception g) (start : Fin g.rx) : (stampPlace f start).count = f.stamp.isSome.toNat := by
  unfold stampPlace
  cases f.stamp <;> rfl

theorem Holds.describes_frame {r : Receiver g} {start : Fin g.rx} {f : Reception g} {rest : List (Part g)}
    (holds : r.Holds start (f.parts ++ rest)) {k : Nat} (inside : k < f.slots) :
    (Part.mk f k).Describes (r.ring.descriptor (Ring.advance start k)) := by
  have described := holds.described k (by rw [List.length_append, Reception.length_parts]; omega)
  rwa [List.getElem_append_left (by simpa using inside), Reception.getElem_parts] at described

theorem Holds.stores_frame {r : Receiver g} {start : Fin g.rx} {f : Reception g} {rest : List (Part g)}
    (holds : r.Holds start (f.parts ++ rest)) {k : Nat} (inside : k < f.segments) :
    StoresPart (r.pool.block (Ring.advance start k)) ⟨f, k⟩ := by
  have within := Nat.lt_of_lt_of_le inside f.segments_le_slots
  have stored := holds.stored k (by rw [List.length_append, Reception.length_parts]; omega)
  rwa [List.getElem_append_left (by simpa using within), Reception.getElem_parts] at stored

/-- The segments of a frame behind its first one neither start a frame nor hold a stamp, and only the last one ends
it. -/
theorem carriesOn {f : Reception g} {ring : Ring g.rx} {start : Fin g.rx} {written : Nat}
    (described : ∀ k, k < written → (Part.mk f k).Describes (ring.descriptor (Ring.advance start k)))
    (within : written ≤ f.segments) {k : Nat} (inside : k + 1 < written) :
    (ring.descriptor (Ring.advance start k)).isLast = false ∧ ring.isOwned (Ring.advance start (k + 1)) = false ∧
      (ring.descriptor (Ring.advance start (k + 1))).isFirst = false ∧
      (ring.descriptor (Ring.advance start (k + 1))).isContext = false := by
  have here := described k (by omega)
  have next := described (k + 1) inside
  refine ⟨?_, next.released, ?_, ?_⟩
  · rw [here.last (by simp only; omega)]
    exact decide_eq_false (by simp only; omega)
  · rw [next.first (by simp only; omega)]
    exact decide_eq_false (by simp only; omega)
  · rw [next.context]
    exact decide_eq_false (by simp only; omega)

/-- A scan that starts where all segments of a frame lie comes to its last segment, if it may look that far. -/
theorem scan_segments {ring : Ring g.rx} {start : Fin g.rx} {f : Reception g} {room : Nat}
    (described : ∀ k, k < f.segments → (Part.mk f k).Describes (ring.descriptor (Ring.advance start k)))
    (fits : f.segments ≤ g.rx) :
    ring.scan start room =
      if f.segments - 1 ≤ room then
        if f.stamp.isSome then
          if room - (f.segments - 1) = 0 ∨ ring.isOwned (Ring.next (Ring.advance start (f.segments - 1))) then
            .incomplete
          else if (ring.descriptor (Ring.next (Ring.advance start (f.segments - 1)))).isContext then
            .frame (Ring.advance start (f.segments - 1)) (f.segments - 1)
              (.inSlot (Ring.next (Ring.advance start (f.segments - 1))))
          else .frame (Ring.advance start (f.segments - 1)) (f.segments - 1) .missing
        else .frame (Ring.advance start (f.segments - 1)) (f.segments - 1) .unpromised
      else .incomplete := by
  have positive := f.segments_pos
  have first := described 0 positive
  rw [Ring.advance_zero] at first
  obtain ⟨ended, stamped⟩ := (described (f.segments - 1) (by omega)).ends
  have followed := ring.followRun_of_last start room 0 (f.segments - 1)
    (Nat.zero_le _) (by omega) (fun k before => carriesOn described (Nat.le_refl _) (by omega)) ended
  rw [Ring.advance_zero, Nat.sub_zero] at followed
  rw [Ring.scan, first.starts, if_neg Bool.false_ne_true, followed, Ring.closeRun, stamped]

/-- A scan that starts where a whole frame starts finds that frame with its stamp, if it may look far enough. -/
theorem Holds.scan_frame {r : Receiver g} {start : Fin g.rx} {f : Reception g} {rest : List (Part g)}
    (holds : r.Holds start (f.parts ++ rest)) (room : Nat) :
    r.ring.scan start room =
      if f.slots ≤ room + 1 then
        .frame (Ring.advance start (f.segments - 1)) (f.segments - 1) (stampPlace f start)
      else .incomplete := by
  have positive := f.segments_pos
  have enough := f.segments_le_slots
  have total : f.slots ≤ g.rx := by
    have fits := holds.fits
    rw [List.length_append, Reception.length_parts] at fits
    omega
  have described : ∀ k, k < f.segments → (Part.mk f k).Describes (r.ring.descriptor (Ring.advance start k)) :=
    fun k inside => holds.describes_frame (by omega)
  rw [scan_segments described (by omega), Ring.next_advance, show f.segments - 1 + 1 = f.segments by omega]
  cases stamped : f.stamp with
  | none =>
    have slots : f.slots = f.segments := by simp [Reception.slots, stamped]
    have place : stampPlace f start = .unpromised := by simp [stampPlace, stamped]
    rw [place, slots, Option.isSome_none, if_neg Bool.false_ne_true]
    by_cases near : f.segments - 1 ≤ room
    · rw [if_pos near, if_pos (by omega)]
    · rw [if_neg near, if_neg (by omega)]
  | some time =>
    have slots : f.slots = f.segments + 1 := by simp [Reception.slots, stamped]
    have behind := holds.describes_frame (k := f.segments) (by omega)
    have context : (r.ring.descriptor (Ring.advance start f.segments)).isContext = true := by
      rw [behind.context]
      exact decide_eq_true rfl
    have released : r.ring.isOwned (Ring.advance start f.segments) = false := behind.released
    by_cases near : f.segments ≤ room
    · rw [if_pos (by omega : f.segments - 1 ≤ room), if_pos (by omega : f.slots ≤ room + 1)]
      simp [stampPlace, stamped, context, released, show room - (f.segments - 1) ≠ 0 by omega]
    · rw [if_neg (by omega : ¬ f.slots ≤ room + 1)]
      by_cases just : f.segments - 1 ≤ room
      · simp [just, show room - (f.segments - 1) = 0 by omega]
      · rw [if_neg just]

/-- A scan of a frame that the hardware has begun and can still carry on finds it incomplete. -/
theorem Holds.scan_unfinished {r : Receiver g} {start : Fin g.rx} {f : Reception g} {written : Nat}
    (holds : r.Holds start (f.parts.take written)) (positive : 0 < written) (begun : written < f.slots)
    (fits : f.slots ≤ g.rx) (room : Nat) : r.ring.scan start room = .incomplete := by
  have enough := f.slots_le_segments_succ
  have length : (f.parts.take written).length = written := by simp; omega
  have described : ∀ k, k < written → (Part.mk f k).Describes (r.ring.descriptor (Ring.advance start k)) := by
    intro k inside
    have part := holds.described k (by omega)
    rwa [List.getElem_take, Reception.getElem_parts] at part
  have owned : r.ring.isOwned (Ring.advance start written) = true := holds.isArc.owned written (by omega) (by omega)
  have first := described 0 positive
  rw [Ring.advance_zero] at first
  by_cases within : written < f.segments
  · have followed := r.ring.followRun_of_unfinished start room 0 written
      positive (by omega)
      (fun k inside => by
        rw [(described k inside).last (by simp only; omega)]
        exact decide_eq_false (by simp only; omega))
      (fun k later inside => by
        have carried := carriesOn described (by omega) (k := k - 1) (by omega)
        rw [show k - 1 + 1 = k by omega] at carried
        exact ⟨carried.2.2.1, carried.2.2.2⟩)
      owned
    rw [Ring.advance_zero] at followed
    rw [Ring.scan, first.starts, if_neg Bool.false_ne_true, followed]
  · -- only the stamp is missing
    have whole : written = f.segments := by omega
    subst whole
    have stamped : f.stamp.isSome = true := by
      cases stamped : f.stamp with
      | none => simp [Reception.slots, stamped] at begun
      | some _ => rfl
    rw [scan_segments described (by omega), Ring.next_advance, show f.segments - 1 + 1 = f.segments by omega]
    simp [stamped, owned]

theorem Holds.scan_stray {r : Receiver g} {start : Fin g.rx} {f : Reception g} {index : Nat} {later : List (Part g)}
    (holds : r.Holds start (⟨f, index⟩ :: later)) (behind : index ≠ 0) (inside : index < f.slots) (room : Nat) :
    r.ring.scan start room = .stray 0 := by
  have first := holds.described 0 (Nat.succ_pos _)
  rw [Ring.advance_zero] at first
  rw [Ring.scan, first.strays behind inside, if_pos rfl]

section Full

variable {r : Receiver g} {start : Fin g.rx} {f : Reception g}

theorem Holds.describes_taken (holds : r.Holds start (f.parts.take g.rx)) (longer : g.rx < f.slots) {k : Nat}
    (inside : k < g.rx) : (Part.mk f k).Describes (r.ring.descriptor (Ring.advance start k)) := by
  have within : k < (f.parts.take g.rx).length := by
    rw [List.length_take, Reception.length_parts]
    omega
  have described := holds.described k within
  rwa [List.getElem_take, Reception.getElem_parts] at described

theorem Holds.scan_endless (holds : r.Holds start (f.parts.take g.rx)) (longer : g.rx < f.segments) :
    r.ring.scan start (g.rx - 1) = .overflow (g.rx - 1) := by
  have positive := g.rx_pos
  have enough := f.segments_le_slots
  have described : ∀ k, k < g.rx → (Part.mk f k).Describes (r.ring.descriptor (Ring.advance start k)) :=
    fun k inside => holds.describes_taken (by omega) inside
  have first := described 0 positive
  rw [Ring.advance_zero] at first
  have followed := r.ring.followRun_of_endless start (g.rx - 1) 0 (by omega)
    (fun k inside => by
      rw [(described k inside).isLast_eq (by omega)]
      exact decide_eq_false (by omega))
    (fun k later inside => by
      have carried := carriesOn (k := k - 1) described (by omega) (by omega)
      rw [show k - 1 + 1 = k by omega] at carried
      exact carried.2)
  rw [Ring.advance_zero] at followed
  rw [Ring.scan, first.starts, if_neg Bool.false_ne_true, followed]

/-- A frame with as many segments as the ring has slots is found incomplete as long as its stamp has not come. -/
theorem Holds.scan_owing (holds : r.Holds start (f.parts.take g.rx)) (whole : f.segments = g.rx)
    (longer : g.rx < f.slots) : r.ring.scan start (g.rx - 1) = .incomplete := by
  have stamped : f.stamp.isSome = true := by
    cases stamped : f.stamp with
    | none =>
      simp only [Reception.slots, stamped, Option.isSome_none, Bool.toNat_false] at longer
      omega
    | some _ => rfl
  rw [scan_segments (fun k inside => holds.describes_taken longer (by omega)) (by omega), stamped, if_pos rfl,
    if_pos (by omega), if_pos (Or.inl (by omega))]

end Full

/-- The length of a frame is told for the frames that are to be offered, and for no others. -/
theorem Holds.frameLength_eq {r : Receiver g} {start : Fin g.rx} {f : Reception g} {rest : List (Part g)}
    (holds : r.Holds start (f.parts ++ rest)) (short : f.bytes.size ≤ maxDescriptorLength) :
    if f.isDeliverable then
      r.ring.frameLength g.buffer (Ring.advance start (f.segments - 1)) f.segments = .ok f.bytes.size
    else ∃ reason, r.ring.frameLength g.buffer (Ring.advance start (f.segments - 1)) f.segments = .error reason := by
  have positive := f.segments_pos
  have enough := f.segments_le_slots
  have covered := f.covered
  have final := holds.describes_frame (k := f.segments - 1) (by omega)
  have closes : (Part.mk f (f.segments - 1)).index + 1 = (Part.mk f (f.segments - 1)).reception.segments := by
    simp only
    omega
  have length := final.length closes
  rw [Nat.mod_eq_of_lt (by simp only; omega)] at length
  unfold Ring.frameLength
  simp only [length, final.error closes]
  by_cases damaged : f.faulty = true
  · simp [Reception.isDeliverable, damaged]
  · by_cases empty : f.bytes.size = 0
    · simp [Reception.isDeliverable, damaged, empty]
    · have fits : ¬ (f.bytes.size = 0 ∨ f.segments * g.buffer < f.bytes.size) := by omega
      by_cases whole : f.segments = 1 ∨ f.bytes.size ≤ maxFrameSize
      · have near : ¬ (f.segments ≠ 1 ∧ maxFrameSize < f.bytes.size) := by omega
        simp only [Reception.isDeliverable, damaged, bne_iff_ne.mpr empty, fits, near, if_false]
        simp [whole]
      · have far : f.segments ≠ 1 ∧ maxFrameSize < f.bytes.size := by omega
        simp only [Reception.isDeliverable, damaged, fits, if_false, if_pos far]
        simp [far.1, Nat.not_le.mpr far.2]

theorem Holds.stampAt?_stampPlace {r : Receiver g} {start : Fin g.rx} {f : Reception g} {rest : List (Part g)}
    (holds : r.Holds start (f.parts ++ rest)) : r.ring.stampAt? (stampPlace f start) = f.stamp := by
  cases stamped : f.stamp with
  | none => simp [stampPlace, stamped, Ring.stampAt?]
  | some time =>
    have behind := holds.describes_frame (k := f.segments) (by simp [Reception.slots, stamped])
    have shown := behind.stamp rfl
    simp only [stamped] at shown
    simp [stampPlace, stamped, Ring.stampAt?, shown]

end Receiver

end EthernetMac
