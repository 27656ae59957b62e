import EthernetMac.Proofs.Transmit.Bench

namespace EthernetMac

namespace Geometry

variable {g : Geometry}

theorem txSlot_add (g : Geometry) (base k : Nat) : g.txSlot (base + k) = Ring.advance (g.txSlot base) k := by
  apply Fin.ext
  simp [txSlot, Ring.advance]

/-- Two submissions of one turn of the ring go to different slots. -/
theorem txSlot_injective {count j k : Nat} (hj : j < count) (hk : k < count) (near : count ≤ j + g.tx)
    (near' : count ≤ k + g.tx) (same : g.txSlot j = g.txSlot k) : j = k := by
  have apart : ∀ base step, base + step < base + g.tx → g.txSlot base = g.txSlot (base + step) → step = 0 := by
    intro base step short same
    rw [txSlot_add] at same
    have start := Ring.advance_zero (g.txSlot base)
    exact Ring.advance_injective (g.txSlot base) (by omega) g.tx_pos (same.symm.trans start.symm)
  rcases Nat.le_total j k with before | before
  · obtain ⟨step, rfl⟩ := Nat.exists_eq_add_of_le before
    have none := apart j step (by omega) same
    omega
  · obtain ⟨step, rfl⟩ := Nat.exists_eq_add_of_le before
    have none := apart k step (by omega) same.symm
    omega

theorem exists_txSlot {count : Nat} (i : Fin g.tx) (used : i.val < count) :
    ∃ j, j < count ∧ count ≤ j + g.tx ∧ g.txSlot j = i := by
  rcases Nat.lt_or_ge g.tx count with turned | first
  · obtain ⟨k, inside, place⟩ := Ring.exists_advance (g.txSlot (count - g.tx)) i
    refine ⟨count - g.tx + k, by omega, by omega, ?_⟩
    rw [txSlot_add, place]
  · exact ⟨i.val, used, by omega, Fin.ext (Nat.mod_eq_of_lt i.isLt)⟩

theorem txSlot_turn (g : Geometry) (j : Nat) : g.txSlot (j + g.tx) = g.txSlot j := by
  rw [txSlot_add, Ring.advance_length]

end Geometry

theorem getElem?_of_start {α : Type} {l m : List α} (start : l <+: m) {j : Nat} {a : α} (found : l[j]? = some a) :
    m[j]? = some a := by
  obtain ⟨more, rfl⟩ := start
  obtain ⟨inside, _⟩ := List.getElem?_eq_some_iff.mp found
  rwa [List.getElem?_append_left inside]

/-- What stands in a list with one more entry is old, or is that entry. -/
theorem getElem?_concat_cases {α : Type} {l : List α} {a b : α} {j : Nat} (found : (l ++ [a])[j]? = some b) :
    l[j]? = some b ∨ j = l.length ∧ a = b := by
  rcases Nat.lt_trichotomy j l.length with old | rfl | beyond
  · rw [List.getElem?_append_left old] at found
    exact Or.inl found
  · rw [List.getElem?_concat_length] at found
    exact Or.inr ⟨rfl, Option.some.inj found⟩
  · rw [List.getElem?_eq_none (by rw [List.length_append, List.length_singleton]; exact beyond)] at found
    cases found

/-- How far a sequence number lies behind the latest one is told right until the counter has made a whole turn. -/
theorem sequence_behind {count j : Nat} (inside : j < count) (near : count ≤ j + 65536) :
    (UInt16.ofNat count - UInt16.ofNat (j + 1)).toNat = count - (j + 1) := by
  rw [UInt16.toNat_sub, UInt16.toNat_ofNat', UInt16.toNat_ofNat']
  omega

/-- The latest submission with a sequence number is the one that got it, unless that was a whole turn of the counter
ago. -/
theorem latestIndex_eq {count j : Nat} (inside : j < count) (near : count ≤ j + 65536) :
    latestIndex count (UInt16.ofNat (j + 1)) = j := by
  rw [latestIndex, sequence_behind inside near]
  omega

variable {g : Geometry} {σ : Type}

/-- A submission whose slot has not been taken by a later one. -/
structure InRing (g : Geometry) (bench : TransmitBench σ) (j : Nat) : Prop where
  made : j < bench.submissions.length
  recent : bench.submissions.length ≤ j + g.tx

/-- A submission whose timestamp was captured and waits in its slot. -/
structure Pending (g : Geometry) (bench : TransmitBench σ) (j : Nat) : Prop where
  inRing : InRing g bench j
  undelivered : j ∉ bench.delivered
  captured : ∃ time, bench.writeBacks[j]? = some (some time)

/-- What the slot of a submission holds by the record: the options that it was submitted with, what the hardware has
written back for it, and whether its timestamp is gone. -/
structure Slot.Tells (slot : Slot) (j : Nat) (options : Option TxOptions) (back : Option (Option Timestamp))
    (gone : Prop) : Prop where
  sequence : slot.ext.sequence = UInt16.ofNat (j + 1)
  owned : slot.descriptor.isOwned = back.isNone
  request : ¬ gone → options.map TxOptions.request = some slot.ext.request
  captured : ¬ gone → ∀ time, back = some time → slot.descriptor.captured = time
  spent : gone → slot.descriptor.captured = none

/-- The transmit ring agrees with the record: what each slot holds of the latest submission that went there, and what
the record says of the timestamps that were delivered. -/
structure Ledger (t : Transmitter g) (bench : TransmitBench σ) : Prop where
  submitted : t.submitted = UInt16.ofNat bench.submissions.length
  nextSlot : t.nextSlot = g.txSlot bench.submissions.length
  acknowledged : t.acknowledged = UInt16.ofNat bench.previous
  finished : bench.writeBacks.length ≤ bench.submissions.length
  inFlight : bench.submissions.length ≤ bench.writeBacks.length + g.tx
  slots : ∀ j, InRing g bench j →
    (t.ring.slot (g.txSlot j)).Tells j bench.submissions[j]? bench.writeBacks[j]? (j ∈ bench.delivered)
  unused : ∀ i : Fin g.tx, bench.submissions.length ≤ i.val → (t.ring.slot i).descriptor = .blank
  requested : ∀ (j : Nat) (time : Timestamp), bench.writeBacks[j]? = some (some time) →
    ∃ request, bench.submissions[j]? = some (TxOptions.captureTimestamp request)
  genuine : ∀ d ∈ bench.deliveries, ∃ request, bench.submissions[d.index]? = some (TxOptions.captureTimestamp request) ∧
    d.callback = request.callback ∧ d.stamp.tag = request.tag ∧
    bench.writeBacks[d.index]? = some (some d.stamp.timestamp)
  once : bench.delivered.Nodup

theorem Descriptor.captured_eq_some {d : Descriptor} {time : Timestamp} :
    d.captured = some time ↔ d.stampCaptured = true ∧ d.timestamp = time := by
  unfold captured
  split
  · rename_i stamped
    simp [stamped]
  · rename_i plain
    simp [plain]

theorem Descriptor.captured_blank : blank.captured = none := if_neg (by decide)

theorem Descriptor.isOwned_submission (buffer : UInt32) (length : Nat) (control : UInt32) :
    (Descriptor.submission buffer length control).isOwned = true := by
  refine bne_iff_ne.mpr fun none => ?_
  have bits := congrArg UInt32.toBitVec none
  rw [Descriptor.submission, UInt32.toBitVec_and, UInt32.toBitVec_or, BitVec.and_or_distrib_right] at bits
  obtain ⟨clear, _⟩ := BitVec.or_eq_zero_iff.mp bits
  exact absurd clear (by decide)

namespace Ledger

variable {t t' : Transmitter g} {bench bench' : TransmitBench σ}

theorem congr (ledger : Ledger t bench) (ring : t'.ring = t.ring) (nextSlot : t'.nextSlot = t.nextSlot)
    (submitted : t'.submitted = t.submitted) (acknowledged : t'.acknowledged = t.acknowledged)
    (record : bench'.record = bench.record) : Ledger t' bench' := by
  obtain ⟨submissions, writeBacks, deliveries, rest⟩ := bench
  obtain ⟨submissions', writeBacks', deliveries', rest'⟩ := bench'
  obtain ⟨ring₀, pool₀, nextSlot₀, submitted₀, acknowledged₀, completing₀, rescan₀⟩ := t
  obtain ⟨ring₁, pool₁, nextSlot₁, submitted₁, acknowledged₁, completing₁, rescan₁⟩ := t'
  obtain ⟨rfl, rfl, rfl⟩ : submissions' = submissions ∧ writeBacks' = writeBacks ∧ deliveries' = deliveries := by
    simpa [TransmitBench.record] using record
  dsimp only at ring nextSlot submitted acknowledged
  subst ring nextSlot submitted acknowledged
  exact ⟨ledger.submitted, ledger.nextSlot, ledger.acknowledged, ledger.finished, ledger.inFlight,
    fun j inside => ledger.slots j ⟨inside.made, inside.recent⟩, ledger.unused, ledger.requested, ledger.genuine,
    ledger.once⟩

theorem init {blank : Transmitter g} (empty : bench.record = ([], [], [])) : Ledger blank.clear bench := by
  obtain ⟨submissions, writeBacks, deliveries, rest⟩ := bench
  obtain ⟨rfl, rfl, rfl⟩ : submissions = [] ∧ writeBacks = [] ∧ deliveries = [] := by
    simpa [TransmitBench.record] using empty
  have first : g.firstTx = g.txSlot 0 := Fin.ext (Nat.zero_mod _).symm
  refine ⟨rfl, first, rfl, Nat.le_refl _, Nat.zero_le _, ?_, ?_, ?_, ?_, List.nodup_nil⟩
  · exact fun j inside => absurd inside.made (Nat.not_lt_zero j)
  · intro i _
    simp [Transmitter.clear, Ring.slot, Descriptor.blank]
  · intro j time written
    simp at written
  · intro d among
    cases among

theorem sequence (ledger : Ledger t bench) {j : Nat} (inside : InRing g bench j) :
    (t.ring.slot (g.txSlot j)).ext.sequence = UInt16.ofNat (j + 1) :=
  (ledger.slots j inside).sequence

/-- The hardware holds the submissions that it has not written back. -/
theorem isOwned_iff (ledger : Ledger t bench) {j : Nat} (inside : InRing g bench j) :
    t.ring.isOwned (g.txSlot j) = true ↔ bench.writeBacks.length ≤ j := by
  rw [Ring.isOwned, Ring.descriptor, (ledger.slots j inside).owned, Option.isNone_iff_eq_none,
    List.getElem?_eq_none_iff]

theorem isOwned_unused (ledger : Ledger t bench) {i : Fin g.tx} (free : bench.submissions.length ≤ i.val) :
    t.ring.isOwned i = false := by
  rw [Ring.isOwned, Ring.descriptor, ledger.unused i free]
  decide

/-- A slot has a timestamp to deliver exactly when its latest submission is one whose timestamp waits. -/
theorem isStamped_iff (ledger : Ledger t bench) {i : Fin g.tx} :
    t.isStamped i = true ↔ ∃ j, Pending g bench j ∧ g.txSlot j = i := by
  rw [Transmitter.isStamped_eq_true, Ring.isOwned, Ring.descriptor]
  constructor
  · rintro ⟨released, stamped⟩
    rcases Nat.lt_or_ge i.val bench.submissions.length with used | free
    · obtain ⟨j, made, recent, rfl⟩ := Geometry.exists_txSlot i used
      have tells := ledger.slots j ⟨made, recent⟩
      have captured := Descriptor.captured_eq_some.mpr ⟨stamped, rfl⟩
      have undelivered : j ∉ bench.delivered := by
        intro gone
        rw [tells.spent gone] at captured
        cases captured
      rw [tells.owned, Option.isNone_eq_false_iff, Option.isSome_iff_exists] at released
      obtain ⟨time, written⟩ := released
      rw [tells.captured undelivered time written] at captured
      exact ⟨j, ⟨⟨made, recent⟩, undelivered, _, captured ▸ written⟩, rfl⟩
    · rw [ledger.unused i free] at stamped
      exact absurd stamped (by decide)
  · rintro ⟨j, ⟨inside, undelivered, time, written⟩, rfl⟩
    have tells := ledger.slots j inside
    refine ⟨by rw [tells.owned, written]; rfl, ?_⟩
    exact (Descriptor.captured_eq_some.mp (tells.captured undelivered _ written)).1

theorem delivered_lt (ledger : Ledger t bench) {j : Nat} (delivered : j ∈ bench.delivered) :
    j < bench.writeBacks.length := by
  obtain ⟨d, among, rfl⟩ := List.mem_map.mp delivered
  obtain ⟨_, _, _, _, written⟩ := ledger.genuine d among
  exact (List.getElem?_eq_some_iff.mp written).1

/-- When one slot changes, and the record of the submission there, all others tell what they told. -/
theorem changed (ledger : Ledger t bench) {j : Nat} (inside : InRing g bench' j)
    (grown : bench.submissions.length ≤ bench'.submissions.length)
    (kept : ∀ i, i ≠ g.txSlot j → t'.ring.slot i = t.ring.slot i)
    (now : (t'.ring.slot (g.txSlot j)).Tells j bench'.submissions[j]? bench'.writeBacks[j]? (j ∈ bench'.delivered))
    (same : ∀ k, k ≠ j → InRing g bench' k → InRing g bench k ∧ bench'.submissions[k]? = bench.submissions[k]? ∧
      bench'.writeBacks[k]? = bench.writeBacks[k]? ∧ (k ∈ bench'.delivered ↔ k ∈ bench.delivered)) :
    (∀ k, InRing g bench' k →
      (t'.ring.slot (g.txSlot k)).Tells k bench'.submissions[k]? bench'.writeBacks[k]? (k ∈ bench'.delivered)) ∧
    ∀ i : Fin g.tx, bench'.submissions.length ≤ i.val → (t'.ring.slot i).descriptor = .blank := by
  refine ⟨fun k within => ?_, fun i free => ?_⟩
  · by_cases here : k = j
    · rw [here]
      exact now
    · obtain ⟨before, options, back, gone⟩ := same k here within
      have beside : g.txSlot k ≠ g.txSlot j := fun place =>
        here (Geometry.txSlot_injective within.made inside.made within.recent inside.recent place)
      rw [kept _ beside, options, back, gone]
      exact ledger.slots k before
  · have beside : i ≠ g.txSlot j := by
      rintro rfl
      have low : (g.txSlot j).val ≤ j := Nat.mod_le _ _
      have made := inside.made
      omega
    rw [kept i beside]
    exact ledger.unused i (Nat.le_trans grown free)

/-- The slot of the next frame is free only if the hardware has finished the frame a turn before. -/
theorem room (ledger : Ledger t bench) (ready : t.isReady = true) :
    bench.submissions.length < bench.writeBacks.length + g.tx := by
  have positive := g.tx_pos
  have free : t.ring.isOwned (g.txSlot bench.submissions.length) = false := by
    rw [← ledger.nextSlot]
    simpa [Transmitter.isReady] using ready
  rcases Nat.lt_or_eq_of_le ledger.inFlight with room | turn
  · exact room
  · -- the next slot would be that of the oldest frame of the hardware
    have oldest := (ledger.isOwned_iff ⟨by omega, ledger.inFlight⟩).mpr (Nat.le_refl bench.writeBacks.length)
    rw [← g.txSlot_turn, ← turn, free] at oldest
    cases oldest

/-- A frame that is submitted takes the slot of the one a turn before, which the hardware has finished. -/
theorem submit (ledger : Ledger t bench) (ready : t.isReady = true) (bytes : Array UInt8) (options : TxOptions) :
    Ledger (t.fill t.nextSlot bytes options) { bench with submissions := bench.submissions ++ [options] } := by
  have positive := g.tx_pos
  have finished := ledger.finished
  have room := ledger.room ready
  have length : (bench.submissions ++ [options]).length = bench.submissions.length + 1 := by simp
  have unwritten : bench.writeBacks[bench.submissions.length]? = none := List.getElem?_eq_none finished
  have undelivered : bench.submissions.length ∉ bench.delivered := fun gone =>
    absurd (ledger.delivered_lt gone) (Nat.not_lt.mpr finished)
  have filled : (t.fill t.nextSlot bytes options).ring =
      t.ring.modifySlot (g.txSlot bench.submissions.length) fun slot =>
        Transmitter.filledSlot slot bytes.size options (t.submitted + 1) := by rw [Transmitter.fill, ledger.nextSlot]
  obtain ⟨slots, unused⟩ := @changed _ _ t (t.fill t.nextSlot bytes options) bench
    { bench with submissions := bench.submissions ++ [options] } ledger bench.submissions.length
    ⟨by rw [length]; omega, by rw [length]; omega⟩ (by rw [length]; omega)
    (fun i other => by rw [filled]; exact Ring.slot_modifySlot_of_ne _ _ (Ne.symm other))
    (by
      rw [filled, Ring.slot_modifySlot_self, List.getElem?_concat_length, unwritten]
      refine ⟨?_, Descriptor.isOwned_submission _ _ _, fun _ => rfl, fun _ time none => (nomatch none),
        fun gone => absurd gone undelivered⟩
      rw [Transmitter.filledSlot, ledger.submitted, UInt16.ofNat_add]
      rfl)
    (fun k other inside => by
      have made := inside.made
      have recent := inside.recent
      dsimp only at made recent
      rw [length] at made recent
      exact ⟨⟨by omega, by omega⟩, List.getElem?_append_left (by omega), rfl, Iff.rfl⟩)
  refine ⟨?_, ?_, ledger.acknowledged, ?_, ?_, slots, unused, ?_, ?_, ledger.once⟩
  · dsimp only [Transmitter.fill]
    rw [length, ledger.submitted, UInt16.ofNat_add]
    rfl
  · dsimp only [Transmitter.fill]
    rw [length, ledger.nextSlot, Ring.next, Geometry.txSlot_add]
  · dsimp only
    omega
  · dsimp only
    omega
  · intro j time back
    obtain ⟨request, asked⟩ := ledger.requested j time back
    exact ⟨request, getElem?_of_start (List.prefix_append _ _) asked⟩
  · intro d among
    obtain ⟨request, asked, rest⟩ := ledger.genuine d among
    exact ⟨request, getElem?_of_start (List.prefix_append _ _) asked, rest⟩

/-- The hardware holds a frame in the slot that it finishes next only if one is left. -/
theorem finishing (ledger : Ledger t bench) (owned : t.ring.isOwned (g.txSlot bench.writeBacks.length) = true) :
    InRing g bench bench.writeBacks.length := by
  refine ⟨?_, ledger.inFlight⟩
  rcases Nat.lt_or_eq_of_le ledger.finished with left | none
  · exact left
  · rcases Nat.lt_or_ge (g.txSlot bench.writeBacks.length).val bench.submissions.length with used | free
    · obtain ⟨j, made, recent, place⟩ := Geometry.exists_txSlot _ used
      rw [← place, ledger.isOwned_iff ⟨made, recent⟩] at owned
      omega
    · rw [ledger.isOwned_unused free] at owned
      cases owned

theorem finish (ledger : Ledger t bench) {d : Descriptor}
    (owned : t.ring.isOwned (g.txSlot bench.writeBacks.length) = true) (released : d.isOwned = false)
    (asked : d.stampCaptured = true →
      ∃ request, bench.submissions[bench.writeBacks.length]? = some (.captureTimestamp request)) :
    Ledger { t with ring := t.ring.setDescriptor (g.txSlot bench.writeBacks.length) d }
      { bench with writeBacks := bench.writeBacks ++ [d.captured] } := by
  have oldest := ledger.finishing owned
  have left := oldest.made
  have inFlight := ledger.inFlight
  have length : (bench.writeBacks ++ [d.captured]).length = bench.writeBacks.length + 1 := by simp
  have undelivered : bench.writeBacks.length ∉ bench.delivered := fun gone =>
    absurd (ledger.delivered_lt gone) (Nat.lt_irrefl _)
  have before := ledger.slots _ oldest
  obtain ⟨slots, unused⟩ := @changed _ _ t
    { t with ring := t.ring.setDescriptor (g.txSlot bench.writeBacks.length) d } bench
    { bench with writeBacks := bench.writeBacks ++ [d.captured] } ledger bench.writeBacks.length
    ⟨oldest.made, oldest.recent⟩ (Nat.le_refl _)
    (fun i other => Ring.slot_modifySlot_of_ne _ _ (Ne.symm other))
    (by
      rw [Ring.setDescriptor, Ring.slot_modifySlot_self, List.getElem?_concat_length]
      refine ⟨before.sequence, released, before.request, fun _ time written => Option.some.inj written,
        fun gone => absurd gone undelivered⟩)
    (fun k other inside => by
      refine ⟨⟨inside.made, inside.recent⟩, rfl, ?_, Iff.rfl⟩
      rcases Nat.lt_or_gt_of_ne other with older | newer
      · exact List.getElem?_append_left older
      · rw [List.getElem?_eq_none (Nat.le_of_lt newer)]
        exact List.getElem?_eq_none (by dsimp only; omega))
  refine ⟨ledger.submitted, ledger.nextSlot, ledger.acknowledged, ?_, ?_, slots, unused, ?_, ?_, ledger.once⟩
  · dsimp only
    omega
  · dsimp only
    omega
  · intro j time back
    dsimp only at back ⊢
    rcases Nat.lt_trichotomy j bench.writeBacks.length with older | rfl | beyond
    · rw [List.getElem?_append_left older] at back
      exact ledger.requested j time back
    · rw [List.getElem?_concat_length] at back
      exact asked (Descriptor.captured_eq_some.mp (Option.some.inj back)).1
    · rw [List.getElem?_eq_none (by omega)] at back
      cases back
  · intro d among
    obtain ⟨request, asked, callback, tag, back⟩ := ledger.genuine d among
    exact ⟨request, asked, callback, tag, getElem?_of_start (List.prefix_append _ _) back⟩

/-- A timestamp that is taken out of its slot is the one that was captured for the frame, with the frame's own
request. -/
theorem taken_stamp (ledger : Ledger t bench) {j : Nat} (pending : Pending g bench j) :
    ∃ request, bench.submissions[j]? = some (.captureTimestamp request) ∧
      (t.takeStamp (g.txSlot j)).1.1 = request.callback ∧ (t.takeStamp (g.txSlot j)).1.2.tag = request.tag ∧
      bench.writeBacks[j]? = some (some (t.takeStamp (g.txSlot j)).1.2.timestamp) := by
  obtain ⟨inside, undelivered, time, written⟩ := pending
  obtain ⟨request, asked⟩ := ledger.requested j time written
  have tells := ledger.slots j inside
  have kept := tells.request undelivered
  rw [asked, Option.map_some] at kept
  have same : request = (t.ring.slot (g.txSlot j)).ext.request := Option.some.inj kept
  obtain ⟨_, stamp⟩ := Descriptor.captured_eq_some.mp (tells.captured undelivered _ written)
  refine ⟨request, asked, ?_, ?_, ?_⟩
  · rw [same]
    rfl
  · rw [same]
    rfl
  · rw [written, ← stamp]
    rfl

theorem take (ledger : Ledger t bench) {j : Nat} (pending : Pending g bench j) {entry : StampDelivery}
    (index : entry.index = j) (callback : entry.callback = (t.takeStamp (g.txSlot j)).1.1)
    (stamp : entry.stamp = (t.takeStamp (g.txSlot j)).1.2) :
    Ledger (t.takeStamp (g.txSlot j)).2 { bench with deliveries := bench.deliveries ++ [entry] } := by
  obtain ⟨request, asked, sameCallback, sameTag, sameTime⟩ := ledger.taken_stamp pending
  obtain ⟨inside, undelivered, time, back⟩ := pending
  have delivered : (bench.deliveries ++ [entry]).map (·.index) = bench.delivered ++ [j] := by
    rw [List.map_append, List.map_singleton, index]
    rfl
  have taken : (t.takeStamp (g.txSlot j)).2.ring.slot (g.txSlot j) =
      { (t.ring.slot (g.txSlot j)).takeRequest.2 with descriptor := .blank } := Ring.slot_setSlot_self _ _ _
  obtain ⟨slots, unused⟩ := @changed _ _ t (t.takeStamp (g.txSlot j)).2 bench
    { bench with deliveries := bench.deliveries ++ [entry] } ledger j ⟨inside.made, inside.recent⟩ (Nat.le_refl _)
    (fun i other => Ring.slot_setSlot_of_ne _ _ (Ne.symm other))
    (by
      have gone : j ∈ (bench.deliveries ++ [entry]).map (·.index) := by
        rw [delivered]
        exact List.mem_append_right _ (List.mem_singleton_self j)
      rw [taken]
      refine ⟨ledger.sequence inside, ?_, fun kept => absurd gone kept, fun kept => absurd gone kept,
        fun _ => Descriptor.captured_blank⟩
      dsimp only
      rw [back]
      rfl)
    (fun k other within => by
      refine ⟨⟨within.made, within.recent⟩, rfl, rfl, ?_⟩
      change k ∈ (bench.deliveries ++ [entry]).map (·.index) ↔ _
      rw [delivered, List.mem_append, List.mem_singleton]
      exact or_iff_left other)
  refine ⟨ledger.submitted, ledger.nextSlot, ?_, ledger.finished, ledger.inFlight, slots, unused, ledger.requested, ?_,
    ?_⟩
  · have last : TransmitBench.previous { bench with deliveries := bench.deliveries ++ [entry] } = j + 1 := by
      simp [TransmitBench.previous, index]
    rw [last]
    exact ledger.sequence inside
  · intro d among
    rcases List.mem_append.mp among with old | new
    · exact ledger.genuine d old
    · rw [List.mem_singleton.mp new, index, callback, stamp]
      exact ⟨request, asked, sameCallback, sameTag, sameTime⟩
  · change ((bench.deliveries ++ [entry]).map (·.index)).Nodup
    rw [delivered]
    refine List.nodup_append.mpr ⟨ledger.once, List.pairwise_singleton _ j, ?_⟩
    intro a before b here same
    rw [List.mem_singleton.mp here] at same
    exact undelivered (same ▸ before)

end Ledger

end EthernetMac
