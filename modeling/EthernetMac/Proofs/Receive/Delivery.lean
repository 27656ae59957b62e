import Mathlib.Algebra.Ring.Nat
import EthernetMac.Proofs.Receive.Tracking

namespace EthernetMac

variable {g : Geometry} {σ : Type}

theorem Application.recorded_offer (app : Application g (ReceiveBench g σ)) (frame : Frame)
    (board : Board g (ReceiveBench g σ)) :
    app.recorded.onEvent (.frameAvailable frame) board =
      (app.onEvent (.frameAvailable frame) board).map fun answered =>
        (answered.1, { answered.2 with world := { answered.2.world with
          offers := answered.2.world.offers ++ [⟨frame, answered.1, board.world.dma.finished⟩] } }) := by
  simp only [recorded]
  rw [Call.get_bind_apply, Call.bind_apply]
  cases app.onEvent (.frameAvailable frame) board with
  | none => rfl
  | some answered => rfl

theorem Application.Answers.recorded {app : Application g (ReceiveBench g σ)} (answers : app.Answers) :
    app.recorded.Answers := by
  intro event board
  obtain ⟨answered, upcall⟩ := answers event board
  simp only [Application.recorded]
  rw [Call.get_bind_apply, Call.bind_apply, upcall]
  cases event <;> exact ⟨_, rfl⟩

namespace Offer

@[simp]
theorem consumed_append (first second : List (Offer g)) :
    consumed (first ++ second) = consumed first ++ consumed second := by
  simp [consumed]

theorem consumed_single (offer : Offer g) : consumed [offer] = if offer.answer = .retry then [] else [offer.frame] := by
  by_cases again : offer.answer = .retry <;> simp [consumed, again]

/-- Every offer is of the frame that comes next: the frames taken before it and then the offered one are the first
frames to be offered among those that had come in by then. -/
def InOrder (offers : List (Offer g)) : Prop :=
  ∀ before offer after, offers = before ++ offer :: after →
    consumed before ++ [offer.frame] <+: Reception.deliverables offer.finished

theorem InOrder.concat {offers : List (Offer g)} {offer : Offer g} (ordered : InOrder offers)
    (next : consumed offers ++ [offer.frame] <+: Reception.deliverables offer.finished) :
    InOrder (offers ++ [offer]) := by
  intro before other after split
  rcases List.eq_nil_or_concat after with rfl | ⟨initial, final, rfl⟩
  · obtain ⟨rfl, same⟩ := List.append_inj' split rfl
    obtain rfl := List.singleton_inj.mp same
    exact next
  · rw [List.concat_eq_append, ← List.cons_append, ← List.append_assoc] at split
    obtain ⟨earlier, _⟩ := List.append_inj' split rfl
    exact ordered before other initial earlier

end Offer

@[simp]
theorem Reception.deliverables_append (first second : List (Reception g)) :
    deliverables (first ++ second) = deliverables first ++ deliverables second := by
  simp [deliverables]

theorem Reception.deliverables_single (f : Reception g) :
    deliverables [f] = if f.isDeliverable then [f.frame] else [] := by
  by_cases whole : f.isDeliverable = true <;> simp [deliverables, whole]

/-- What is consumed of a frame is decided by an offer of all its segments. -/
theorem Board.consume_segments (app : Application g (ReceiveBench g σ)) (start : Fin g.rx) (f : Reception g)
    (board : Board g (ReceiveBench g σ)) :
    consume app start
        (.frame (Ring.advance start (f.segments - 1)) (f.segments - 1) (Receiver.stampPlace f start)) board =
      (offer app start (Ring.advance start (f.segments - 1)) f.segments (Receiver.stampPlace f start) board).map
        fun answered => (verdict answered.1, answered.2) := by
  have positive := f.segments_pos
  have present : Receiver.stampPlace f start ≠ .missing := by
    unfold Receiver.stampPlace
    split <;> simp
  rw [consume_frame _ _ _ _ _ present, show f.segments - 1 + 1 = f.segments by omega]

/-- The receive side between two frames: `done` are the frames that have been dealt with, and the ring holds the
`waiting` ones and what there is of a frame still coming in. -/
structure InStep (board : Board g (ReceiveBench g σ)) (start : Fin g.rx) (done waiting : List (Reception g)) :
    Prop where
  finished : board.world.dma.finished = done ++ waiting
  tracks : Tracks board start (waiting.flatMap Reception.parts ++ board.world.dma.unfinished)
  fitting : ∀ f ∈ waiting, f.FitsRing
  fittingUnderway : ∀ part ∈ board.world.dma.underway, part.reception.FitsRing

namespace InStep

variable {board after : Board g (ReceiveBench g σ)} {start : Fin g.rx} {done waiting : List (Reception g)}

theorem congr (step : InStep board start done waiting) (core : after.world.core = board.world.core)
    (ring : after.mac.receiver.ring = board.mac.receiver.ring)
    (pool : after.mac.receiver.pool = board.mac.receiver.pool) (up : after.mac.lifecycle ≠ .uninitialized) :
    InStep after start done waiting := by
  have dma : after.world.dma = board.world.dma := congrArg (·.2.1) core
  refine ⟨?_, ?_, step.fitting, ?_⟩
  · rw [dma, step.finished]
  · rw [dma]
    exact step.tracks.congr core ring pool up
  · rw [dma]
    exact step.fittingUnderway

/-- While the driver waits, frames may come in behind the ones that wait already. -/
theorem meanwhile (step : InStep board start done waiting) (event : Meanwhile Reception.FitsRing board after) :
    ∃ arrived, InStep after start done (waiting ++ arrived) ∧ after.world.offers = board.world.offers := by
  cases event with
  | aside receiver core up =>
    refine ⟨[], ?_, congrArg (·.2.2) core⟩
    rw [List.append_nil]
    exact step.congr core (congrArg Receiver.ring receiver) (congrArg Receiver.pool receiver) (up step.tracks.up)
  | @writeBack part d fits due owned describes =>
    have longer := step.tracks.writeBack due owned describes
    rcases due.wrote_cases with ⟨finished, unfinished, underway⟩ | ⟨finished, unfinished, underway, whole⟩
    · refine ⟨[], ⟨?_, ?_, ?_, ?_⟩, rfl⟩
      · rw [finished, step.finished, List.append_nil]
      · rw [unfinished, List.append_nil, ← List.append_assoc]
        exact longer
      · rw [List.append_nil]
        exact step.fitting
      · intro next same
        simp only [underway, Option.mem_some_iff] at same
        rw [← same]
        exact fits
    · have grown : (waiting ++ [part.reception]).flatMap Reception.parts ++ [] =
          waiting.flatMap Reception.parts ++ board.world.dma.unfinished ++ [part] := by
        rw [List.append_nil, List.flatMap_append, List.flatMap_singleton, whole, List.append_assoc]
      refine ⟨[part.reception], ⟨?_, ?_, ?_, ?_⟩, rfl⟩
      · rw [finished, step.finished, List.append_assoc]
      · rw [unfinished, grown]
        exact longer
      · intro f member
        rcases List.mem_append.mp member with old | new
        · exact step.fitting f old
        · rw [List.mem_singleton.mp new]
          exact fits
      · intro next same
        simp [underway] at same

theorem meanwhile_many (step : InStep board start done waiting)
    (events : Relation.ReflTransGen (Meanwhile Reception.FitsRing) board after) :
    ∃ arrived, InStep after start done (waiting ++ arrived) ∧ after.world.offers = board.world.offers := by
  induction events with
  | refl => exact ⟨[], by rwa [List.append_nil], rfl⟩
  | tail _ event ih =>
    obtain ⟨arrived, step, offers⟩ := ih
    obtain ⟨more, step, same⟩ := step.meanwhile event
    exact ⟨arrived ++ more, by rwa [← List.append_assoc], same.trans offers⟩

theorem record (step : InStep board start done waiting) {offers : List (Offer g)} :
    InStep { board with world := { board.world with offers := offers } } start done waiting :=
  ⟨step.finished, ⟨step.tracks.recent, step.tracks.holds, step.tracks.position, step.tracks.base, step.tracks.up⟩,
    step.fitting, step.fittingUnderway⟩

theorem tracks_first {f : Reception g} (step : InStep board start done (f :: waiting)) :
    Tracks board start (f.parts ++ (waiting.flatMap Reception.parts ++ board.world.dma.unfinished)) := by
  have tracks := step.tracks
  rwa [List.flatMap_cons, List.append_assoc] at tracks

theorem retire {f : Reception g} (step : InStep board start done (f :: waiting)) :
    InStep { board with mac := { board.mac with receiver := { board.mac.receiver with
      ring := board.mac.receiver.ring.rearm start f.slots } } }
      (Ring.advance start f.slots) (done ++ [f]) waiting := by
  have rest := step.tracks_first.rearm
  rw [Reception.length_parts] at rest
  refine ⟨?_, rest, ?_, step.fittingUnderway⟩
  · rw [step.finished, List.append_assoc, List.singleton_append]
  · exact fun later member => step.fitting later (List.mem_cons_of_mem _ member)

theorem first_released {f : Reception g} (step : InStep board start done (f :: waiting)) :
    board.mac.receiver.ring.isOwned start = false := by
  have described := step.tracks_first.holds.describes_frame f.slots_pos
  rw [Ring.advance_zero] at described
  exact described.released

section First

variable {f : Reception g} (step : InStep board start done (f :: waiting))

include step

/-- A frame that cannot be offered is passed over with no more than a note. -/
theorem skip_front (app : Application g (ReceiveBench g σ)) (unfit : ¬ f.isDeliverable = true) :
    ∃ reason, Board.consume app start
        (.frame (Ring.advance start (f.segments - 1)) (f.segments - 1) (Receiver.stampPlace f start)) board =
      some (some false, { board with journal := board.journal.push reason }) := by
  have length := step.tracks_first.holds.frameLength_eq (step.fitting f (List.mem_cons_self ..)).1
  rw [if_neg unfit] at length
  obtain ⟨reason, length⟩ := length
  refine ⟨reason, ?_⟩
  rw [Board.consume_segments, Board.offer_apply]
  simp only [length, Option.map_some, Board.verdict]

/-- A frame that can be offered is offered as it came in. -/
theorem offer_front (app : Application g (ReceiveBench g σ)) (whole : f.isDeliverable = true) :
    ∃ scratch, Board.consume app start
        (.frame (Ring.advance start (f.segments - 1)) (f.segments - 1) (Receiver.stampPlace f start)) board =
      (app.onEvent (.frameAvailable f.frame) { board with mac := { board.mac with
        receiver := { board.mac.receiver with scratch := scratch } } }).map
          fun answered => (Board.verdict (some answered.1), answered.2) := by
  have held := step.tracks_first.holds
  have length := held.frameLength_eq (step.fitting f (List.mem_cons_self ..)).1
  rw [if_pos whole] at length
  have sound : f.segments = 1 ∨ f.bytes.size ≤ maxFrameSize := by
    simp only [Reception.isDeliverable, Bool.and_eq_true, Bool.or_eq_true, beq_iff_eq, decide_eq_true_eq] at whole
    exact whole.2
  have bytes := Receiver.frameBytes_bytes (fun k inside => held.stores_frame inside) sound
  obtain ⟨scratch, gathered⟩ := board.mac.receiver.frameBytes_receiver start f.segments f.bytes.size
  refine ⟨scratch, ?_⟩
  rw [Board.consume_segments, Board.offer_apply]
  simp only [length, held.stampAt?_stampPlace]
  rw [bytes, gathered, Option.map_map]
  rfl

/-- The frame in front is the one that is to be offered next. -/
theorem next_front (taken : Offer.consumed board.world.offers = Reception.deliverables done)
    (whole : f.isDeliverable = true) :
    Offer.consumed board.world.offers ++ [f.frame] <+: Reception.deliverables board.world.dma.finished := by
  rw [taken, step.finished, List.append_cons done f waiting, Reception.deliverables_append (done ++ [f]) waiting,
    Reception.deliverables_append, Reception.deliverables_single, if_pos whole]
  exact List.prefix_append _ _

/-- The first waiting frame is either passed over because it cannot be offered, or offered as it came in. -/
theorem consume_first {app : Application g (ReceiveBench g σ)} (spares : app.SparesReceiver Reception.FitsRing)
    (taken : Offer.consumed board.world.offers = Reception.deliverables done)
    (ordered : Offer.InOrder board.world.offers) {verdict : Option Bool}
    (run : Board.consume app.recorded start
      (.frame (Ring.advance start (f.segments - 1)) (f.segments - 1) (Receiver.stampPlace f start)) board =
        some (verdict, after)) :
    ∃ arrived new, InStep after start done (f :: (waiting ++ arrived)) ∧
      after.world.offers = board.world.offers ++ new ∧ Offer.InOrder after.world.offers ∧
      (verdict = none → Offer.consumed after.world.offers = Reception.deliverables done ∧
        Offer.consumed new = [] ∧ ¬ app.NeverRetries) ∧
      ∀ delivered, verdict = some delivered →
        Offer.consumed after.world.offers = Reception.deliverables (done ++ [f]) ∧
          (Offer.consumed new).length = delivered.toNat := by
  by_cases whole : f.isDeliverable = true
  · obtain ⟨scratch, offered⟩ := step.offer_front app.recorded whole
    rw [offered, Application.recorded_offer, Option.map_map] at run
    obtain ⟨⟨answer, middle⟩, upcall, result⟩ := Option.map_eq_some_iff.mp run
    obtain ⟨rfl, rfl⟩ := Prod.mk.inj result
    have prepared : InStep { board with mac := { board.mac with receiver := { board.mac.receiver with
        scratch := scratch } } } start done (f :: waiting) := step.congr rfl rfl rfl step.tracks.up
    obtain ⟨arrived, later, kept⟩ := prepared.meanwhile_many (spares _ _ _ _ upcall)
    have more : middle.world.offers ++ [⟨f.frame, answer, board.world.dma.finished⟩] =
        board.world.offers ++ [⟨f.frame, answer, board.world.dma.finished⟩] := congrArg (· ++ _) kept
    have gone : Reception.deliverables (done ++ [f]) = Reception.deliverables done ++ [f.frame] := by
      rw [Reception.deliverables_append, Reception.deliverables_single, if_pos whole]
    refine ⟨arrived, [⟨f.frame, answer, board.world.dma.finished⟩], later.record, more, ?_, ?_, ?_⟩
    · change Offer.InOrder (middle.world.offers ++ _)
      rw [more]
      exact ordered.concat (step.next_front taken whole)
    · intro refused
      have retried : answer = .retry := by cases answer <;> simp_all [Board.verdict]
      subst retried
      refine ⟨(congrArg Offer.consumed more).trans ?_, Offer.consumed_single _, fun keen => keen _ _ _ upcall⟩
      rw [Offer.consumed_append, taken, Offer.consumed_single, if_pos rfl, List.append_nil]
    · intro delivered consumed
      obtain ⟨took, rfl⟩ : answer ≠ .retry ∧ delivered = true := by cases answer <;> simp_all [Board.verdict]
      refine ⟨(congrArg Offer.consumed more).trans ?_, ?_⟩
      · rw [Offer.consumed_append, taken, gone, Offer.consumed_single, if_neg took]
      · rw [Offer.consumed_single, if_neg took]
        rfl
  · obtain ⟨reason, skipped⟩ := step.skip_front app.recorded whole
    rw [skipped] at run
    obtain ⟨rfl, rfl⟩ := Prod.mk.inj (Option.some.inj run)
    refine ⟨[], [], ?_, (List.append_nil _).symm, ordered, fun refused => (nomatch refused), ?_⟩
    · rw [List.append_nil]
      exact step.congr rfl rfl rfl step.tracks.up
    · intro delivered same
      obtain rfl := Option.some.inj same
      refine ⟨?_, rfl⟩
      rw [Reception.deliverables_append, Reception.deliverables_single, if_neg whole, List.append_nil]
      exact taken

end First

/-- What comes of a walk over a ring in step: it deals with the frames in front, one after the other. Unless the
application wants to see one of them again, these are all that the walk may look at. -/
structure Walked (app : Application g (ReceiveBench g σ)) (board after : Board g (ReceiveBench g σ))
    (done waiting : List (Reception g)) (budget : Nat) (start : Fin g.rx)
    (dealt left : List (Reception g)) (fresh : List (Offer g)) : Prop where
  step : InStep after start (done ++ dealt) left
  offers : after.world.offers = board.world.offers ++ fresh
  ordered : Offer.InOrder after.world.offers
  taken : Offer.consumed after.world.offers = Reception.deliverables (done ++ dealt)
  progress : app.NeverRetries → ∀ due, due <+: waiting → (due.map Reception.slots).sum ≤ budget → due <+: dealt

/-- A walk may end at once if the slots of the next frame, should there be one, are more than it may look at. -/
theorem Walked.nothing {app : Application g (ReceiveBench g σ)} {budget : Nat} (step : InStep board start done waiting)
    (taken : Offer.consumed board.world.offers = Reception.deliverables done)
    (ordered : Offer.InOrder board.world.offers) (scant : ∀ f ∈ waiting.head?, budget < f.slots) :
    Walked app board board done waiting budget start [] waiting [] where
  step := by rwa [List.append_nil]
  offers := (List.append_nil _).symm
  ordered := ordered
  taken := by rw [taken, List.append_nil]
  progress := by
    intro _ due first fits
    cases due with
    | nil => exact List.prefix_rfl
    | cons head tail =>
      obtain ⟨behind, rfl⟩ := first
      have beyond := scant head rfl
      rw [List.map_cons, List.sum_cons] at fits
      omega

/-- A frame that the application wants to see again ends the walk. -/
theorem Walked.refused {app : Application g (ReceiveBench g σ)} {budget : Nat} {left : List (Reception g)}
    {fresh : List (Offer g)} (step : InStep after start done left)
    (offers : after.world.offers = board.world.offers ++ fresh) (ordered : Offer.InOrder after.world.offers)
    (taken : Offer.consumed after.world.offers = Reception.deliverables done) (again : ¬ app.NeverRetries) :
    Walked app board after done waiting budget start [] left fresh where
  step := by rwa [List.append_nil]
  offers := offers
  ordered := ordered
  taken := by rwa [List.append_nil]
  progress := fun keen => absurd keen again

/-- A frame that is dealt with goes before those that the rest of the walk deals with. -/
theorem Walked.deal {app : Application g (ReceiveBench g σ)} {middle : Board g (ReceiveBench g σ)} {f : Reception g}
    {arrived dealt left : List (Reception g)} {fresh new : List (Offer g)} {budget : Nat}
    (rest : Walked app middle after (done ++ [f]) (waiting ++ arrived) budget start dealt left fresh)
    (offers : middle.world.offers = board.world.offers ++ new) :
    Walked app board after done (f :: waiting) (f.slots + budget) start (f :: dealt) left (new ++ fresh) where
  step := by
    have step := rest.step
    rwa [List.append_assoc, List.singleton_append] at step
  offers := by rw [rest.offers, offers, List.append_assoc]
  ordered := rest.ordered
  taken := by rw [rest.taken, List.append_assoc, List.singleton_append]
  progress := by
    intro keen due first fits
    cases due with
    | nil => exact List.nil_prefix
    | cons head tail =>
      obtain ⟨rfl, behind⟩ := List.cons_prefix_cons.mp first
      rw [List.map_cons, List.sum_cons] at fits
      have within : tail <+: waiting ++ arrived := behind.trans (List.prefix_append _ _)
      exact List.cons_prefix_cons.mpr ⟨rfl, rest.progress keen tail within (by omega)⟩

theorem scan_empty (step : InStep board start done []) (released : board.mac.receiver.ring.isOwned start = false)
    (room : Nat) : board.mac.receiver.ring.scan start room = .incomplete := by
  have held := step.tracks.holds
  rw [List.flatMap_nil, List.nil_append] at held
  unfold ReceiveDma.unfinished at held
  split at held
  · rename_i due underway
    obtain ⟨positive, begun⟩ := board.world.dma.begun due underway
    exact held.scan_unfinished positive begun (step.fittingUnderway due underway).2 room
  · exact absurd (held.isArc.released_start_iff.mp released) (Nat.lt_irrefl 0)

theorem walk {app : Application g (ReceiveBench g σ)} (spares : app.SparesReceiver Reception.FitsRing) {budget : Nat}
    {tally : Board.WalkTally} (step : InStep board start done waiting)
    (taken : Offer.consumed board.world.offers = Reception.deliverables done)
    (ordered : Offer.InOrder board.world.offers)
    (run : Board.walk app.recorded budget start board = some (tally, after)) :
    ∃ final dealt left fresh, Walked app board after done waiting budget final dealt left fresh ∧
      tally.delivered = (Offer.consumed fresh).length := by
  -- a frame takes all its slots from the budget at a time
  induction budget using Nat.strongRecOn generalizing board start done waiting tally with
  | ind budget ih =>
    cases budget with
    | zero =>
      rw [Board.walk_zero] at run
      obtain ⟨rfl, rfl⟩ := Prod.mk.inj (Option.some.inj run)
      exact ⟨start, [], waiting, [], .nothing step taken ordered fun f _ => f.slots_pos, rfl⟩
    | succ room =>
      rw [Board.walk_succ] at run
      cases waiting with
      | nil =>
        have rests : after = board ∧ tally = {} := by
          by_cases owned : board.mac.receiver.ring.isOwned start = true
          · rw [if_pos owned] at run
            obtain ⟨rfl, rfl⟩ := Prod.mk.inj (Option.some.inj run)
            exact ⟨rfl, rfl⟩
          · rw [if_neg owned, step.scan_empty (Bool.eq_false_iff.mpr owned) room] at run
            obtain ⟨rfl, rfl⟩ := Prod.mk.inj (Option.some.inj run)
            exact ⟨rfl, rfl⟩
        obtain ⟨rfl, rfl⟩ := rests
        exact ⟨start, [], [], [], .nothing step taken ordered fun _ none => (nomatch none), rfl⟩
      | cons f waiting =>
        rw [step.first_released, if_neg Bool.false_ne_true, step.tracks_first.holds.scan_frame] at run
        by_cases near : f.slots ≤ room + 1
        · rw [if_pos near] at run
          obtain ⟨⟨verdict, middle⟩, consumed, run⟩ := Option.bind_eq_some_iff.mp run
          obtain ⟨arrived, new, later, offers, inOrder, refused, accepted⟩ :=
            step.consume_first spares taken ordered consumed
          cases verdict with
          | none =>
            obtain ⟨rfl, rfl⟩ := Prod.mk.inj (Option.some.inj run)
            obtain ⟨same, none, again⟩ := refused rfl
            exact ⟨start, [], _, new, .refused later offers inOrder same again, by rw [none]; rfl⟩
          | some delivered =>
            obtain ⟨taken, count⟩ := accepted delivered rfl
            have slots : f.segments - 1 + (Receiver.stampPlace f start).count + 1 = f.slots := by
              have := f.segments_pos
              rw [Receiver.count_stampPlace, Reception.slots]
              omega
            simp only [Run.beyond, slots] at run
            obtain ⟨⟨rest, final⟩, walked, result⟩ := Option.map_eq_some_iff.mp run
            obtain ⟨rfl, rfl⟩ := Prod.mk.inj result
            obtain ⟨finalStart, dealt, left, fresh, walked, total⟩ :=
              ih (room - (f.segments - 1 + (Receiver.stampPlace f start).count)) (by omega) later.retire
                taken inOrder walked
            have split : f.slots + (room - (f.segments - 1 + (Receiver.stampPlace f start).count)) = room + 1 := by
              omega
            refine ⟨finalStart, f :: dealt, left, new ++ fresh, split ▸ walked.deal offers, ?_⟩
            rw [Offer.consumed_append, List.length_append, count, total, Nat.add_comm]
        · rw [if_neg near] at run
          obtain ⟨rfl, rfl⟩ := Prod.mk.inj (Option.some.inj run)
          refine ⟨start, [], _, [], .nothing step taken ordered fun first front => ?_, rfl⟩
          obtain rfl := Option.some.inj front
          omega

end InStep

end EthernetMac
