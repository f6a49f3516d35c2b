import Mathlib.Tactic.TypeStar

/-! What tasks of one program share: a signal, which keeps the last value given to it until it is
waited on or reset. Independent of any program. -/
namespace AssetTracker.Lib
variable {α : Type*}

structure Signal (α : Type*) where
  value : Option α

namespace Signal

def new : Signal α := ⟨none⟩

def signal (_ : Signal α) (a : α) : Signal α := ⟨some a⟩

def reset (_ : Signal α) : Signal α := ⟨none⟩

/-- A wait ends once there is a value, which it consumes. -/
def wait (s : Signal α) : Option (α × Signal α) := s.value.map fun a => (a, s.reset)

@[simp] theorem new_value : (new : Signal α).value = none := rfl

@[simp] theorem reset_value (s : Signal α) : s.reset.value = none := rfl

theorem wait_some {s t : Signal α} {a : α} (h : s.wait = some (a, t)) :
    s.value = some a ∧ t = s.reset := by
  obtain ⟨b, hb, hab⟩ := Option.map_eq_some_iff.mp h
  cases hab
  exact ⟨hb, rfl⟩

end Signal

end AssetTracker.Lib
