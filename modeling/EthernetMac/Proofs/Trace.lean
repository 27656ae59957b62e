import EthernetMac.Event
import EthernetMac.Proofs.BringUp

namespace EthernetMac

/-- What the driver does to its surroundings: it reads and writes words, lets time pass, and tells the application of
events. -/
inductive Deed where
  | read (offset value : UInt32)
  | write (offset value : UInt32)
  | pause (nanoseconds : Nat)
  | tell (event : Event)
deriving DecidableEq

/-- Surroundings with a list of what the driver has done to them, the last thing last. -/
structure Traced (σ : Type) where
  deeds : List Deed := []
  rest : σ

namespace Traced

variable {σ α : Type}

instance [Bus σ] : Bus (Traced σ) where
  read offset env :=
    ((Bus.read offset env.rest).1,
      ⟨env.deeds ++ [.read offset (Bus.read offset env.rest).1], (Bus.read offset env.rest).2⟩)
  write offset value env := ⟨env.deeds ++ [.write offset value], Bus.write offset value env.rest⟩
  delay nanoseconds env := ⟨env.deeds ++ [.pause nanoseconds], Bus.delay nanoseconds env.rest⟩

/-- Between two moments something was done that has the given property as a whole. -/
def Adds (P : List Deed → Prop) (before after : Traced σ) : Prop :=
  ∃ deeds, after.deeds = before.deeds ++ deeds ∧ P deeds

theorem Adds.composes {P : List Deed → Prop} (nothing : P []) (append : ∀ {first second}, P first → P second →
    P (first ++ second)) : Bus.Composes (Adds P : Traced σ → Traced σ → Prop) where
  refl env := ⟨[], (List.append_nil _).symm, nothing⟩
  trans := by
    rintro before middle after ⟨first, toMiddle, one⟩ ⟨second, toAfter, two⟩
    exact ⟨first ++ second, by rw [toAfter, toMiddle, List.append_assoc], append one two⟩

section Accesses

variable [Bus σ] {P : List Deed → Prop}

theorem Adds.load {register : Register} (found : ∀ value, P [.read register.offset value]) :
    Bus.Across (Adds P) (register.read : StateM (Traced σ) UInt32) :=
  fun _ => ⟨_, rfl, found _⟩

theorem Adds.store {register : Register} {value : UInt32} (written : P [.write register.offset value]) :
    Bus.Across (Adds P) (register.write value : StateM (Traced σ) Unit) :=
  fun _ => ⟨_, rfl, written⟩

theorem Adds.update {register : Register} {change : UInt32 → UInt32}
    (exchanged : ∀ value, P [.read register.offset value, .write register.offset (change value)]) :
    Bus.Across (Adds P) (register.update change : StateM (Traced σ) Unit) :=
  fun env => ⟨_, List.append_assoc .., exchanged (Bus.read register.offset env.rest).1⟩

end Accesses

end Traced

/-- A call writes no register but the given one. -/
def Deed.WritesOnly (register : Register) (deeds : List Deed) : Prop :=
  ∀ offset value, .write offset value ∈ deeds → offset = register.offset

theorem Deed.writesOnly_composes {σ : Type} (register : Register) :
    Bus.Composes (Traced.Adds (WritesOnly register) : Traced σ → Traced σ → Prop) := by
  refine Traced.Adds.composes (fun _ _ absent => absurd absent List.not_mem_nil) fun {first second} one two => ?_
  intro offset value among
  rcases List.mem_append.mp among with early | late
  · exact one offset value early
  · exact two offset value late

theorem Deed.writesOnly_read (register : Register) (offset value : UInt32) :
    WritesOnly register [.read offset value] := by
  intro _ _ among
  cases List.mem_singleton.mp among

theorem Deed.writesOnly_write (register : Register) (value : UInt32) :
    WritesOnly register [.write register.offset value] := by
  intro _ _ among
  cases List.mem_singleton.mp among
  rfl

end EthernetMac
