import BeaconScheduler.Counter
import Mathlib.Algebra.Ring.Nat

/-!
# Computations on counters

The `_eq_ok_iff` lemmas say exactly when an operation, a sequence or a list of computations
has a result, and which. `Ends` forgets the result: a computation that does not end in a
fault, as opposed to one whose sum or product does not fit. The running part computes a bound
with `Nat.pow`; here and in what follows it is the power `2 ^ width` of the algebra library.
-/

set_option autoImplicit false

namespace BeaconScheduler.Counter

variable {α β : Type}

/-! ## Operations -/

theorem add_eq_ok_iff {width a b c : Nat} :
    add width a b = .ok c ↔ a + b < 2 ^ width ∧ a + b = c := by
  by_cases h : a + b < 2 ^ width <;> simp [add, h]

theorem add32_of_lt {a b : Nat} (fits : a + b < 2 ^ 32) : add32 a b = .ok (a + b) :=
  if_pos fits

theorem add32_of_le {a b : Nat} (large : 2 ^ 32 ≤ a + b) : add32 a b = .error .addOverflow :=
  if_neg (Nat.not_lt_of_le large)

theorem mul_eq_ok_iff {width a b c : Nat} :
    mul width a b = .ok c ↔ a * b < 2 ^ width ∧ a * b = c := by
  by_cases h : a * b < 2 ^ width <;> simp [mul, h]

theorem sub_eq_ok_iff {a b c : Nat} :
    sub a b = .ok c ↔ b ≤ a ∧ a - b = c := by
  by_cases h : b ≤ a <;> simp [sub, h]

theorem div_eq_ok_iff {a b c : Nat} :
    div a b = .ok c ↔ b ≠ 0 ∧ a / b = c := by
  by_cases h : b = 0 <;> simp [div, h]

/-! ## Sequences -/

theorem bind_eq_ok_iff {ε : Type} {x : Except ε α} {f : α → Except ε β} {b : β} :
    (x >>= f) = .ok b ↔ ∃ a, x = .ok a ∧ f a = .ok b := by
  cases x with
  | ok a => simp
  | error fault => simp

theorem pure_eq_ok_iff {ε : Type} {a b : α} : (pure a : Except ε α) = .ok b ↔ a = b :=
  ⟨fun same => Except.ok.inj same, fun same => congrArg Except.ok same⟩

theorem map_eq_ok_iff {ε : Type} {x : Except ε α} {f : α → β} {b : β} :
    x.map f = .ok b ↔ ∃ a, x = .ok a ∧ f a = b := by
  cases x with
  | ok a => simp [Except.map]
  | error fault => simp [Except.map]

theorem toOption_eq_some_iff {ε : Type} {x : Except ε α} {a : α} :
    x.toOption = some a ↔ x = .ok a := by
  cases x with
  | ok a => simp [Except.toOption]
  | error fault => simp [Except.toOption]

theorem mapM_eq_ok_iff {f : α → Except Fault β} {g : α → β} {Good : α → Prop}
    (spec : ∀ a b, f a = .ok b ↔ b = g a ∧ Good a) {list : List α} {results : List β} :
    list.mapM f = .ok results ↔ results = list.map g ∧ ∀ a ∈ list, Good a := by
  induction list generalizing results with
  | nil =>
      rw [List.mapM_nil, pure_eq_ok_iff]
      simp [eq_comm]
  | cons a rest ih =>
      rw [List.mapM_cons, bind_eq_ok_iff]
      constructor
      · rintro ⟨b, first, others⟩
        obtain ⟨bs, restOk, joined⟩ := bind_eq_ok_iff.mp others
        obtain ⟨rfl, good⟩ := (spec a b).mp first
        obtain ⟨rfl, goodRest⟩ := ih.mp restOk
        rw [pure_eq_ok_iff] at joined
        subst results
        exact ⟨rfl, List.forall_mem_cons.mpr ⟨good, goodRest⟩⟩
      · rintro ⟨rfl, goods⟩
        obtain ⟨good, goodRest⟩ := List.forall_mem_cons.mp goods
        refine ⟨g a, (spec a _).mpr ⟨rfl, good⟩, bind_eq_ok_iff.mpr ⟨rest.map g, ?_, rfl⟩⟩
        exact ih.mpr ⟨rfl, goodRest⟩

/-! ## Faults -/

/-- A computation that does not end in a fault. -/
def Ends (x : Except Fault α) : Prop :=
  ∃ a, x = .ok a

@[simp] theorem ends_ok (a : α) : Ends (.ok a) := ⟨a, rfl⟩

@[simp] theorem ends_pure (a : α) : Ends (pure a) := ⟨a, rfl⟩

theorem ends_bind_iff {x : Except Fault α} {f : α → Except Fault β} :
    Ends (x >>= f) ↔ ∃ a, x = .ok a ∧ Ends (f a) := by
  constructor
  · rintro ⟨b, bound⟩
    obtain ⟨a, first, second⟩ := bind_eq_ok_iff.mp bound
    exact ⟨a, first, b, second⟩
  · rintro ⟨a, first, b, second⟩
    exact ⟨b, bind_eq_ok_iff.mpr ⟨a, first, second⟩⟩

theorem ends_add_bind_iff {a b : Nat} {f : Nat → Except Fault β} :
    Ends (add32 a b >>= f) ↔ a + b < 2 ^ 32 ∧ Ends (f (a + b)) := by
  rw [ends_bind_iff]
  constructor
  · rintro ⟨_, sum, rest⟩
    obtain ⟨fits, rfl⟩ := add_eq_ok_iff.mp sum
    exact ⟨fits, rest⟩
  · rintro ⟨fits, rest⟩
    exact ⟨a + b, add_eq_ok_iff.mpr ⟨fits, rfl⟩, rest⟩

end BeaconScheduler.Counter
