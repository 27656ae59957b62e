import EthernetMac.Proofs.Shared.Cell
import EthernetMac.Proofs.Transmit.Rescan

namespace EthernetMac

open Board

variable {g : Geometry} {σ : Type}

namespace Notice

/-- A notice of anything but a timestamp. -/
structure IsOther (notice : Notice) : Prop where
  unreached : notice.isReachedStamp = false
  unrefused : notice.isRefusedStamp = false

theorem IsOther.counts {notices : List Notice} (others : ∀ notice ∈ notices, notice.IsOther) :
    notices.countP isReachedStamp = 0 ∧ notices.countP isRefusedStamp = 0 := by
  refine ⟨List.countP_eq_zero.mpr fun notice among => ?_, List.countP_eq_zero.mpr fun notice among => ?_⟩
  · rw [(others notice among).unreached]
    exact Bool.false_ne_true
  · rw [(others notice among).unrefused]
    exact Bool.false_ne_true

end Notice

/-- So many timestamps were delivered between two boards, to whomever they went. Only those for the handler can be
refused, and none is by a cell that is not in use. -/
structure Board.Counts (before after : Board g (CellWorld g σ)) (count : Nat) : Prop where
  held : after.book.held = before.book.held
  fresh : ∃ fresh, after.book.notices = before.book.notices ++ fresh ∧
    count = fresh.countP Notice.isReachedStamp + fresh.countP Notice.isRefusedStamp ∧
    (before.book.held = false → fresh.countP Notice.isRefusedStamp = 0)

namespace Board

variable {before after : Board g (CellWorld g σ)}

theorem Counts.none (same : after.book = before.book) : Counts before after 0 :=
  ⟨by rw [same], [], by rw [same, List.append_nil], rfl, fun _ => rfl⟩

/-- One timestamp was delivered and nothing else, unless it was refused since the cell was in use. -/
theorem Counts.single {notice : Notice} {others : List Notice} (held : after.book.held = before.book.held)
    (grown : after.book.notices = before.book.notices ++ notice :: others)
    (stamp : notice.isReachedStamp = true ∧ notice.isRefusedStamp = false ∨
      before.book.held = true ∧ notice.isReachedStamp = false ∧ notice.isRefusedStamp = true)
    (rest : ∀ notice ∈ others, notice.IsOther) : Counts before after 1 := by
  obtain ⟨unreached, unrefused⟩ := Notice.IsOther.counts rest
  refine ⟨held, _, grown, ?_, fun free => ?_⟩
  · rw [List.countP_cons, List.countP_cons, unreached, unrefused]
    rcases stamp with ⟨reached, refused⟩ | ⟨_, reached, refused⟩
    · rw [reached, refused]
      rfl
    · rw [reached, refused]
      rfl
  · rcases stamp with ⟨_, refused⟩ | ⟨used, _⟩
    · rw [List.countP_cons, unrefused, refused]
      rfl
    · rw [free] at used
      cases used

theorem Counts.tallies : Tallies (Counts : Board g (CellWorld g σ) → _ → Nat → Prop) where
  none _ := .none rfl
  trans {before middle after first second} one two := by
    obtain ⟨earlier, begun, rfl, free⟩ := one.fresh
    obtain ⟨later, done, rfl, still⟩ := two.fresh
    refine ⟨two.held.trans one.held, earlier ++ later, by rw [done, begun, List.append_assoc], ?_, fun idle => ?_⟩
    · rw [List.countP_append, List.countP_append]
      omega
    · rw [List.countP_append, free idle, still (one.held.trans idle)]
  step taken := .none (by cases taken <;> rfl)

/-- A turn of a scan delivers one timestamp. -/
theorem Counts.turn {app : Application g (CellWorld g σ)}
    (upcalls : ∀ called back, called.IsScanning → app.Reacts called back → Folds (Notes Notice.IsOther) called back)
    {i : Fin g.tx} (here : before.IsScanning)
    (turn : deliverStamp (Stage.shared.tells app) (before.mac.transmitter.takeStamp i).1 (before.taken i) =
      some ((), after)) : after.IsScanning ∧ Counts before after 1 := by
  generalize (before.mac.transmitter.takeStamp i).1 = delivery at turn
  obtain ⟨callback, stamp⟩ := delivery
  cases callback with
  | some callback =>
    have scanning : IsScanning ((before.taken i).noticed (.called callback stamp)) := ⟨here.up, here.completing⟩
    have folds := upcalls _ _ scanning (.stamp turn)
    obtain ⟨others, grown, rest⟩ := folds.change.fresh
    have notices : after.book.notices = before.book.notices ++ .called callback stamp :: others := by
      rw [grown]
      exact List.append_assoc ..
    exact ⟨folds.scanning, .single folds.change.held notices (Or.inl ⟨rfl, rfl⟩) rest⟩
  | none =>
    obtain ⟨answer, told, upcall, same⟩ := Call.bind_eq_some.mp turn
    obtain ⟨_, rfl⟩ := Prod.mk.inj (Option.some.inj same)
    rcases Stage.shared_cases upcall with ⟨used, _, rfl⟩ | ⟨free, back, called, rfl⟩
    · exact ⟨⟨here.up, here.completing⟩, .single rfl rfl (Or.inr ⟨used, rfl, rfl⟩) nofun⟩
    · have scanning : IsScanning (((before.taken i).noticed (.told (.transmitTimestamp stamp))).holding true) :=
        ⟨here.up, here.completing⟩
      have folds := upcalls _ _ scanning (.event called)
      obtain ⟨others, grown, rest⟩ := folds.change.fresh
      have notices : (back.holding false).book.notices =
          before.book.notices ++ .told (.transmitTimestamp stamp) :: others := by
        change back.book.notices = _
        rw [grown]
        exact List.append_assoc ..
      exact ⟨⟨folds.scanning.up, folds.scanning.completing⟩, .single free.symm notices (Or.inl ⟨rfl, rfl⟩) rest⟩

end Board

end EthernetMac
