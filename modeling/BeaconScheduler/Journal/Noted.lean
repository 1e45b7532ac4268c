import BeaconScheduler.Counter
import BeaconScheduler.Journal.Event

/-!
# Computations that keep a journal

A `Noted α` ends in a value or a fault and carries the journal entries written on
the way; those written before a fault are kept. The `value_` lemmas say that the
journal never influences a value, so reasoning about values can forget it.
-/

set_option autoImplicit false

namespace BeaconScheduler
namespace Journal

structure Entry where
  /-- The time on the virtual clock, for events that happen at one. -/
  time : Option Time
  event : Event
deriving DecidableEq, Repr

end Journal

structure Noted (α : Type) where
  value : Except Fault α
  notes : List Journal.Entry

namespace Noted

variable {α β : Type}

@[inline] protected def pure (a : α) : Noted α :=
  ⟨.ok a, []⟩

@[inline] protected def bind (x : Noted α) (f : α → Noted β) : Noted β :=
  match x.value with
  | .ok a =>
      let y := f a
      ⟨y.value, x.notes ++ y.notes⟩
  | .error fault => ⟨.error fault, x.notes⟩

instance : Monad Noted where
  pure := Noted.pure
  bind := Noted.bind

instance : MonadLift (Except Fault) Noted where
  monadLift value := ⟨value, []⟩

def note (event : Journal.Event) : Noted Unit :=
  ⟨.ok (), [⟨none, event⟩]⟩

def noteAt (time : Time) (event : Journal.Event) : Noted Unit :=
  ⟨.ok (), [⟨some time, event⟩]⟩

@[simp] theorem value_pure (a : α) : (pure a : Noted α).value = .ok a := rfl

@[simp] theorem value_bind (x : Noted α) (f : α → Noted β) :
    (x >>= f).value = x.value >>= fun a => (f a).value := by
  cases x with
  | mk value notes => cases value <;> rfl

@[simp] theorem value_map (f : α → β) (x : Noted α) : (f <$> x).value = x.value.map f := by
  cases x with
  | mk value notes => cases value <;> rfl

@[simp] theorem value_lift (value : Except Fault α) :
    (liftM value : Noted α).value = value := rfl

@[simp] theorem value_note (event : Journal.Event) : (note event).value = .ok () := rfl

@[simp] theorem value_noteAt (time : Time) (event : Journal.Event) :
    (noteAt time event).value = .ok () := rfl

instance : LawfulMonad Noted := LawfulMonad.mk' Noted
  (by
    intro α x
    cases x with
    | mk value notes => cases value <;> simp [Functor.map, Noted.bind, Noted.pure])
  (by
    intro α β a f
    simp [Bind.bind, Pure.pure, Noted.bind, Noted.pure])
  (by
    intro α β γ x f g
    cases x with
    | mk value notes =>
        cases value with
        | error fault => rfl
        | ok a =>
            simp only [Bind.bind, Noted.bind]
            cases (f a).value <;> simp [List.append_assoc])

end Noted
end BeaconScheduler
