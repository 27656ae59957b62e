import EthernetMac.Proofs.Receive.Front
import EthernetMac.Proofs.Shared.Stamps

namespace EthernetMac

open Board

variable {g : Geometry} {σ : Type}

/-- The cell has refused a frame, and the handler has not been told of it since. -/
def CellBook.Awaits (book : CellBook) (frame : Frame) : Prop :=
  ∃ old new, book.notices = old ++ .refused (.frameAvailable frame) :: new ∧ .told (.frameAvailable frame) ∉ new

namespace CellBook.Awaits

variable {earlier later : CellBook} {frame : Frame} {fresh : List Notice}

/-- A frame that is still awaited was awaited before, or is refused by one of the notices that came in between. -/
theorem earlier_or (awaits : later.Awaits frame) (grown : later.notices = earlier.notices ++ fresh) :
    .refused (.frameAvailable frame) ∈ fresh ∨ earlier.Awaits frame ∧ .told (.frameAvailable frame) ∉ fresh := by
  obtain ⟨old, new, split, untold⟩ := awaits
  rw [grown] at split
  rcases List.append_eq_append_iff.mp split with ⟨between, _, rest⟩ | ⟨between, start, rest⟩
  · exact Or.inl (rest ▸ List.mem_append_right _ (List.mem_cons_self ..))
  · cases between with
    | nil =>
      rw [List.nil_append] at rest
      exact Or.inl (rest ▸ List.mem_cons_self ..)
    | cons notice between =>
      obtain ⟨rfl, rfl⟩ := List.cons.inj rest
      refine Or.inr ⟨⟨old, between, start, fun among => untold ?_⟩, fun among => untold ?_⟩
      · exact List.mem_append_left _ among
      · exact List.mem_append_right _ among

theorem of_notes {board after : Board g (CellWorld g σ)} (awaits : after.book.Awaits frame)
    (notes : Notes (fun notice => notice.isRefusedFrame = false) board after) : board.book.Awaits frame := by
  obtain ⟨fresh, grown, unrefused⟩ := notes.fresh
  rcases awaits.earlier_or grown with refused | ⟨awaited, _⟩
  · cases unrefused _ refused
  · exact awaited

end CellBook.Awaits

/-- What holds wherever an application is at work. A frame that is awaited lies in front of the ring, and a walk is
under way only while the handler is at work. -/
structure Board.InHand (board : Board g (CellWorld g σ)) : Prop where
  tracked : ∃ start parts, Tracks board start parts ∧ (board.mac.receiver.walking = false →
    ∀ frame, board.book.Awaits frame → board.mac.receiver.front? start g.rx = some frame)
  shut : board.mac.receiver.walking = true → board.book.held = true

/-- What an activity leaves in hand. While a walk is under way no frame is refused, and the ring is left to the DMA. -/
structure Board.Stays (before after : Board g (CellWorld g σ)) : Prop where
  inHand : after.InHand
  walking : after.mac.receiver.walking = before.mac.receiver.walking
  notes : Notes (fun notice => before.mac.receiver.walking = true → notice.isRefusedFrame = false) before after
  arrived : before.mac.receiver.walking = true → ∀ start parts, Tracks before start parts →
    ∃ arrived, Tracks after start (parts ++ arrived)

theorem Tracks.rebooked {board : Board g (CellWorld g σ)} {start : Fin g.rx} {parts : List (Part g)}
    (tracks : Tracks board start parts) (change : CellBook → CellBook) : Tracks (board.rebooked change) start parts :=
  tracks.congr rfl rfl rfl tracks.up

namespace Board

variable {before middle after : Board g (CellWorld g σ)} {start : Fin g.rx} {parts : List (Part g)}

theorem Stays.trans (one : Stays before middle) (two : Stays middle after) : Stays before after where
  inHand := two.inHand
  walking := two.walking.trans one.walking
  notes := one.notes.trans ⟨two.notes.held, by rw [← one.walking]; exact two.notes.fresh⟩
  arrived under start parts tracks := by
    obtain ⟨first, tracks⟩ := one.arrived under start parts tracks
    obtain ⟨second, tracks⟩ := two.arrived (one.walking.trans under) start _ tracks
    exact ⟨first ++ second, by rwa [← List.append_assoc]⟩

theorem Stays.move {admits : Reception g → Prop} (here : before.InHand) (event : Meanwhile admits before after)
    (book : after.book = before.book) : Stays before after := by
  obtain ⟨start, parts, tracks, front⟩ := here.tracked
  have walking : after.mac.receiver.walking = before.mac.receiver.walking := by
    cases event with
    | writeBack => rfl
    | aside receiver _ _ => rw [receiver]
  obtain ⟨arrived, later⟩ := tracks.meanwhile event
  refine ⟨⟨⟨start, _, later, fun idle frame awaits => ?_⟩, ?_⟩, walking, .of_book book, ?_⟩
  · rw [walking] at idle
    rw [book] at awaits
    exact tracks.front?_meanwhile (Nat.le_refl _) (Nat.le_refl _) (front idle frame awaits) event
  · rw [walking, book]
    exact here.shut
  · exact fun _ start parts tracks => tracks.meanwhile event

/-- The driver at work on anything but the ring. -/
theorem Stays.aside (here : before.InHand) (receiver : after.mac.receiver = before.mac.receiver)
    (core : after.world.core = before.world.core) (up : before.IsUp → after.IsUp) (book : after.book = before.book) :
    Stays before after :=
  .move here (.aside receiver core up : Meanwhile (fun _ => True) before after) book

theorem Stays.noticed (here : before.InHand) {notice : Notice} (unrefused : notice.isRefusedFrame = false) :
    Stays before (before.noticed notice) := by
  have notes : Notes (fun notice => notice.isRefusedFrame = false) before (before.noticed notice) :=
    .noticed unrefused before
  obtain ⟨start, parts, tracks, front⟩ := here.tracked
  refine ⟨⟨⟨start, parts, tracks.rebooked _, fun idle frame awaits => ?_⟩, here.shut⟩, rfl, ?_, fun _ _ _ tracks => ?_⟩
  · exact front idle frame (awaits.of_notes notes)
  · exact .noticed (fun _ => unrefused) before
  · exact ⟨[], by rw [List.append_nil]; exact tracks.rebooked _⟩

/-- The handler finds everything in hand when it is told of something. -/
theorem InHand.entered (here : before.InHand) (event : Event) :
    ((before.noticed (.told event)).holding true).InHand := by
  have told : (Notice.told event).isRefusedFrame = false := rfl
  obtain ⟨start, parts, tracks, front⟩ := (Stays.noticed here told).inHand.tracked
  exact ⟨⟨start, parts, tracks.rebooked _, front⟩, fun _ => rfl⟩

theorem InHand.idle (here : before.InHand) (free : before.book.held = false) :
    before.mac.receiver.walking = false := by
  refine Bool.eq_false_iff.mpr fun walking => ?_
  rw [here.shut walking] at free
  cases free

section Upcalls

variable {app : Application g (CellWorld g σ)}
  (upcalls : ∀ called back, app.Reacts called back → called.InHand → Stays called back)

include upcalls

/-- The handler is told of everything but frames only where no walk is under way. -/
theorem Stays.event {event : Event} (other : (Notice.refused event).isRefusedFrame = false) {answer : Disposition}
    (run : (Stage.shared.tells app).onEvent event before = some (answer, after)) (here : before.InHand) :
    Stays before after := by
  rcases Stage.shared_cases run with ⟨_, _, rfl⟩ | ⟨free, back, called, rfl⟩
  · exact .noticed here other
  · have idle := here.idle free
    have stays := upcalls _ _ (.event called) (here.entered event)
    have resting : back.mac.receiver.walking = false := stays.walking.trans idle
    obtain ⟨start, parts, tracks, front⟩ := stays.inHand.tracked
    refine ⟨⟨⟨start, parts, tracks.rebooked _, front⟩, fun walking => ?_⟩, stays.walking, ?_, fun walking => ?_⟩
    · rw [show (back.holding false).mac.receiver.walking = false from resting] at walking
      cases walking
    · refine .event (fun _ => other) (fun _ => rfl) (fun other _ upcall => ?_) run
      exact (upcalls _ _ (.event upcall) (here.entered event)).notes
    · rw [idle] at walking
      cases walking

theorem Stays.delivery {delivery : Option Callback × TxTimestamp}
    (run : deliverStamp (Stage.shared.tells app) delivery before = some ((), after)) (here : before.InHand) :
    Stays before after := by
  obtain ⟨callback, stamp⟩ := delivery
  cases callback with
  | none =>
    obtain ⟨answer, told, upcall, same⟩ := Call.bind_eq_some.mp run
    obtain ⟨_, rfl⟩ := Prod.mk.inj (Option.some.inj same)
    exact .event upcalls rfl upcall here
  | some callback =>
    have called : (Notice.called callback stamp).isRefusedFrame = false := rfl
    have first := Stays.noticed here called
    exact first.trans (upcalls _ _ (.stamp run) first.inHand)

end Upcalls

/-- Steps of the driver that leave the ring to others. -/
theorem Stays.spans {step : Board g (CellWorld g σ) → Board g (CellWorld g σ) → Prop}
    (own : ∀ {before after}, step before after → before.InHand → Stays before after) :
    Spans step fun before after : Board g (CellWorld g σ) => before.InHand → Stays before after where
  refl _ here := .aside here rfl rfl id rfl
  trans one two here := (one here).trans (two (one here).inHand)
  step := own

theorem Stays.scans : Spans ScanStep fun before after : Board g (CellWorld g σ) => before.InHand → Stays before after :=
  Stays.spans fun step here => by cases step <;> exact .aside here rfl rfl id rfl

variable [Bus σ]

theorem Stays.dispatches :
    Spans DispatchStep fun before after : Board g (CellWorld g σ) => before.InHand → Stays before after := by
  refine Stays.spans fun {before after} step here => ?_
  have core : after.world.core = before.world.core := by
    cases step with
    | look => exact ReceiveBench.core_untouched.load .channelStatus before.world
    | note | mark | acknowledge => rfl
  exact .aside here (by cases step <;> rfl) core (by cases step <;> exact id) step.book

section Walks

variable {app : Application g (CellWorld g σ)} {budget room : Nat}

omit [Bus σ] in
/-- A frame that is offered under a cell in use is refused, and its run is left in front. -/
theorem Tried.refused {outcome : Option Bool} (held : before.book.held = true)
    (tried : Tried (Stage.shared.tells app) start room before outcome after) :
    (∃ frame scratch journal, before.mac.receiver.front? start (room + 1) = some frame ∧ outcome = none ∧
        after = (before.readied scratch journal).noticed (.refused (.frameAvailable frame))) ∨
      before.mac.receiver.front? start (room + 1) = none ∧ ∃ journal, after = { before with journal := journal } := by
  cases tried with
  | passed none => exact Or.inr ⟨none, _, rfl⟩
  | @offered frame scratch journal _ _ front upcall =>
    have used : (before.readied scratch journal).book.held = true := held
    rw [Stage.shared_held app used] at upcall
    obtain ⟨rfl, rfl⟩ := Prod.mk.inj (Option.some.inj upcall)
    exact Or.inl ⟨frame, scratch, journal, front, rfl, rfl⟩

omit [Bus σ] in
/-- A walk under a cell in use comes to its end at the first frame that could be offered, and leaves it in front. -/
theorem Course.refused (course : Course (Stage.shared.tells app) budget start before after) (near : budget ≤ g.rx)
    (tracks : Tracks before start parts) (held : before.book.held = true) :
    ∃ final left, Tracks after final left ∧ after.book.held = true ∧
      (after.book.notices = before.book.notices ∧ before.mac.receiver.front? start budget = none ∨
        ∃ frame, after.book.notices = before.book.notices ++ [.refused (.frameAvailable frame)] ∧
          after.mac.receiver.front? final g.rx = some frame ∧
          ∀ first ∈ before.mac.receiver.front? start budget, first = frame) := by
  induction course generalizing parts with
  | @ended budget start board none => exact ⟨start, parts, tracks, held, Or.inl ⟨rfl, none⟩⟩
  | @left room start before after tried =>
    rcases tried.refused held with ⟨frame, scratch, journal, front, _, rfl⟩ | ⟨none, journal, rfl⟩
    · have readied : Tracks (before.readied scratch journal) start parts := tracks.congr rfl rfl rfl tracks.up
      refine ⟨start, parts, readied.rebooked _, held, Or.inr ⟨frame, rfl, ?_, fun first found => ?_⟩⟩
      · refine Receiver.front?_kept ?_ ?_ tracks.holds.isArc near near front
        · exact fun _ _ => rfl
        · exact fun _ _ => rfl
      · rw [front] at found
        exact (Option.some.inj found).symm
    · exact ⟨start, parts, tracks.congr rfl rfl rfl tracks.up, held, Or.inl ⟨rfl, none⟩⟩
  | @onward room start before delivered middle after released tried _ ih =>
    rcases tried.refused held with ⟨_, _, _, _, left, _⟩ | ⟨none, journal, rfl⟩
    · cases left
    · have noted : Tracks { before with journal := journal } start (parts ++ []) := by
        rw [List.append_nil]
        exact tracks.congr rfl rfl rfl tracks.up
      obtain ⟨_, given⟩ := tracks.giveBack released near noted
      obtain ⟨final, left, later, still, outcome⟩ := ih (by omega) given held
      refine ⟨final, left, later, still, outcome.imp (fun same => ⟨same.1, none⟩) ?_⟩
      rintro ⟨frame, refused, ahead, _⟩
      refine ⟨frame, refused, ahead, fun first found => ?_⟩
      rw [none] at found
      cases found

/-- Under a free cell the handler was told of a frame, if there was one, and no frame was refused. -/
structure Tells (frame? : Option Frame) (before after : Board g (CellWorld g σ)) : Prop where
  held : after.book.held = false
  fresh : ∃ fresh, after.book.notices = before.book.notices ++ fresh ∧
    (∀ frame ∈ frame?, .told (.frameAvailable frame) ∈ fresh) ∧ ∀ notice ∈ fresh, notice.isRefusedFrame = false

omit [Bus σ] in
theorem Tells.none (free : after.book.held = false) (same : after.book = before.book) : Tells none before after :=
  ⟨free, [], by rw [same, List.append_nil], nofun, nofun⟩

omit [Bus σ] in
/-- Whatever comes next, the first frame was told of. -/
theorem Tells.trans {frame? later? : Option Frame} (one : Tells frame? before middle)
    (two : Tells later? middle after) : Tells frame? before after := by
  obtain ⟨earlier, begun, told, first⟩ := one.fresh
  obtain ⟨later, done, _, second⟩ := two.fresh
  refine ⟨two.held, earlier ++ later, by rw [done, begun, List.append_assoc], fun frame given => ?_,
    fun notice among => ?_⟩
  · exact List.mem_append_left _ (told frame given)
  · exact (List.mem_append.mp among).elim (first notice) (second notice)

omit [Bus σ] in
/-- The handler is told of the frame in front. What it does meanwhile leaves the ring to the DMA. -/
theorem front_told (upcalls : ∀ called back, app.Reacts called back → called.InHand → Stays called back)
    (tracks : Tracks before start parts) (walking : before.mac.receiver.walking = true)
    (free : before.book.held = false) {frame : Frame} {answer : Disposition}
    (run : (Stage.shared.tells app).onEvent (.frameAvailable frame) before = some (answer, after)) :
    (∃ arrived, Tracks after start (parts ++ arrived)) ∧ after.mac.receiver.walking = true ∧
      Tells (some frame) before after := by
  rcases Stage.shared_cases run with ⟨used, _, rfl⟩ | ⟨_, back, called, rfl⟩
  · rw [free] at used
    cases used
  · have under : ((before.noticed (.told (.frameAvailable frame))).holding true).mac.receiver.walking = true := walking
    have entered : Tracks ((before.noticed (.told (.frameAvailable frame))).holding true) start parts :=
      (tracks.rebooked _).rebooked _
    have inHand : ((before.noticed (.told (.frameAvailable frame))).holding true).InHand := by
      refine ⟨⟨start, parts, entered, fun idle => ?_⟩, fun _ => rfl⟩
      rw [under] at idle
      cases idle
    have stays := upcalls _ _ (.event called) inHand
    obtain ⟨arrived, later⟩ := stays.arrived under start parts entered
    obtain ⟨fresh, grown, unrefused⟩ := stays.notes.fresh
    refine ⟨⟨arrived, later.rebooked _⟩, stays.walking.trans under, rfl, .told (.frameAvailable frame) :: fresh, ?_,
      fun other given => ?_, fun notice among => ?_⟩
    · change back.book.notices = _
      rw [grown]
      exact List.append_assoc ..
    · rw [← Option.some.inj given]
      exact List.mem_cons_self ..
    · rcases List.mem_cons.mp among with rfl | later
      · rfl
      · exact unrefused notice later under

omit [Bus σ] in
theorem Tried.told (upcalls : ∀ called back, app.Reacts called back → called.InHand → Stays called back)
    {outcome : Option Bool} (tracks : Tracks before start parts) (walking : before.mac.receiver.walking = true)
    (free : before.book.held = false) (tried : Tried (Stage.shared.tells app) start room before outcome after) :
    (∃ arrived, Tracks after start (parts ++ arrived)) ∧ after.mac.receiver.walking = true ∧
      Tells (before.mac.receiver.front? start (room + 1)) before after := by
  cases tried with
  | @offered frame scratch journal _ _ front upcall =>
    have readied : Tracks (before.readied scratch journal) start parts := tracks.congr rfl rfl rfl tracks.up
    obtain ⟨later, under, tells⟩ := front_told upcalls readied walking free upcall
    rw [front]
    exact ⟨later, under, tells.held, tells.fresh⟩
  | passed none =>
    rw [none]
    refine ⟨⟨[], ?_⟩, walking, .none free rfl⟩
    rw [List.append_nil]
    exact tracks.congr rfl rfl rfl tracks.up

omit [Bus σ] in
/-- A walk under a free cell tells the handler of the frame in front, and refuses none. -/
theorem Course.told (upcalls : ∀ called back, app.Reacts called back → called.InHand → Stays called back)
    (course : Course (Stage.shared.tells app) budget start before after) (near : budget ≤ g.rx)
    (tracks : Tracks before start parts) (walking : before.mac.receiver.walking = true)
    (free : before.book.held = false) :
    (∃ final left, Tracks after final left) ∧ Tells (before.mac.receiver.front? start budget) before after := by
  induction course generalizing parts with
  | @ended budget start board none =>
    rw [none]
    exact ⟨⟨start, parts, tracks⟩, .none free rfl⟩
  | @left room start before after tried =>
    obtain ⟨⟨arrived, later⟩, _, tells⟩ := tried.told upcalls tracks walking free
    exact ⟨⟨start, _, later⟩, tells⟩
  | @onward room start before delivered middle after released tried _ ih =>
    obtain ⟨⟨arrived, later⟩, under, tells⟩ := tried.told upcalls tracks walking free
    obtain ⟨_, given⟩ := tracks.giveBack released near later
    obtain ⟨tracked, others⟩ := ih (by omega) given under tells.held
    exact ⟨tracked, tells.trans ⟨others.held, others.fresh⟩⟩

omit [Bus σ] in
/-- What holds after a walk, if it has left in front the frame that is awaited then. -/
theorem Stays.walked {final : Fin g.rx} {left : List (Part g)} {fresh : List Notice}
    (idle : before.mac.receiver.walking = false) (resting : after.mac.receiver.walking = false)
    (later : Tracks after final left) (held : after.book.held = before.book.held)
    (grown : after.book.notices = before.book.notices ++ fresh)
    (front : ∀ frame, after.book.Awaits frame → after.mac.receiver.front? final g.rx = some frame) :
    Stays before after := by
  refine ⟨⟨⟨final, left, later, fun _ => front⟩, ?_⟩, resting.trans idle.symm, ⟨held, fresh, grown, ?_⟩, ?_⟩
  · rw [resting]
    nofun
  · rw [idle]
    exact fun _ _ => nofun
  · rw [idle]
    nofun

section Growing

variable (grows : ∀ called back, app.Reacts called back → called.book.notices <+: back.book.notices)

include grows

omit [Bus σ] in
theorem event_grows {event : Event} {answer : Disposition}
    (run : (Stage.shared.tells app).onEvent event before = some (answer, after)) :
    before.book.notices <+: after.book.notices ∧
      (before.book.held = false → before.book.notices ++ [.told event] <+: after.book.notices) := by
  rcases Stage.shared_cases run with ⟨held, _, rfl⟩ | ⟨_, back, called, rfl⟩
  · refine ⟨List.prefix_append _ _, fun free => ?_⟩
    rw [free] at held
    cases held
  · have told : before.book.notices ++ [.told event] <+: back.book.notices := grows _ _ (.event called)
    exact ⟨(List.prefix_append _ _).trans told, fun _ => told⟩

omit [Bus σ] in
theorem Course.notices_prefix (course : Course (Stage.shared.tells app) budget start before after) :
    before.book.notices <+: after.book.notices := by
  have tried_grows {room start before outcome after}
      (tried : Tried (Stage.shared.tells app) start room before outcome after) :
      before.book.notices <+: after.book.notices := by
    cases tried with
    | offered _ upcall => exact (event_grows grows upcall).1
    | passed => exact List.prefix_rfl
  induction course with
  | ended => exact List.prefix_rfl
  | left tried => exact tried_grows tried
  | onward _ tried _ ih => exact (tried_grows tried).trans ih

omit [Bus σ] in
/-- The first thing that a walk under a free cell tells the handler of is the frame in front. -/
theorem Course.front {frame : Frame} (course : Course (Stage.shared.tells app) budget start before after)
    (free : before.book.held = false) (front : before.mac.receiver.front? start budget = some frame) :
    before.book.notices ++ [.told (.frameAvailable frame)] <+: after.book.notices := by
  have tried_front {room start before outcome after}
      (tried : Tried (Stage.shared.tells app) start room before outcome after) (free : before.book.held = false)
      (front : before.mac.receiver.front? start (room + 1) = some frame) :
      before.book.notices ++ [.told (.frameAvailable frame)] <+: after.book.notices := by
    cases tried with
    | offered found upcall =>
      obtain rfl := Option.some.inj (found.symm.trans front)
      exact (event_grows grows upcall).2 free
    | passed none =>
      rw [none] at front
      cases front
  cases course with
  | ended none =>
    rw [none] at front
    cases front
  | left tried => exact tried_front tried free front
  | onward _ tried rest =>
    have more := Course.notices_prefix grows rest
    exact (tried_front tried free front).trans more

end Growing

end Walks

end Board

end EthernetMac
