import Mathlib.Data.Nat.Basic
import Mathlib.Tactic.Common
import Mathlib.Algebra.Order.Ring.Nat

/-! Instants are ticks of a monotonic clock; the rate is the platform's. Conversions that would panic
return `none`. -/
namespace AssetTracker

/-- Panics when `earlier` is in the future. -/
def durationSince (now earlier : Nat) : Option Nat :=
  if earlier ≤ now then some (now - earlier) else none

def u16TryFrom (n : Nat) : Option UInt16 := if n < 2 ^ 16 then some (UInt16.ofNat n) else none

def u16Max : UInt16 := 65535

/-- Seconds squeezed into a `u16`. -/
def saturatedSecs (secs : Nat) : UInt16 := (u16TryFrom secs).getD u16Max

/-- Whole seconds from one instant to another, saturated. -/
def ageSecs (tickHz now earlier : Nat) : Option UInt16 :=
  (durationSince now earlier).map fun d => saturatedSecs (d / tickHz)

/-- A span of ticks; arithmetic that leaves the 64 bits panics. -/
structure Duration where
  ticks : Nat
  fits : ticks < 2 ^ 64

instance : LE Duration := ⟨fun d d' => d.ticks ≤ d'.ticks⟩

instance (d d' : Duration) : Decidable (d ≤ d') := inferInstanceAs (Decidable (d.ticks ≤ d'.ticks))

/-- Ticks a second, of which a thousand seconds can be expressed. -/
structure TickRate where
  hz : Nat
  fits : 1000 * hz < 2 ^ 64

namespace Duration

def fromSecs (rate : TickRate) (secs : Nat) (h : secs ≤ 1000) : Duration :=
  ⟨secs * rate.hz, (Nat.mul_le_mul_right rate.hz h).trans_lt rate.fits⟩

def mul (d : Duration) (rhs : Nat) : Option Duration :=
  if h : d.ticks * rhs < 2 ^ 64 then some ⟨d.ticks * rhs, h⟩ else none

def sub (d rhs : Duration) : Option Duration :=
  if rhs ≤ d then some ⟨d.ticks - rhs.ticks, (Nat.sub_le _ _).trans_lt d.fits⟩ else none

end Duration

/-- The deadline of a timer set at an instant. -/
def timerAfter (now : Nat) (d : Duration) : Option Nat :=
  if now + d.ticks < 2 ^ 64 then some (now + d.ticks) else none

theorem Duration.le_def {d d' : Duration} : d ≤ d' ↔ d.ticks ≤ d'.ticks := Iff.rfl

theorem Duration.mul_eq_some {d : Duration} {rhs : Nat} (h : d.ticks * rhs < 2 ^ 64) :
    d.mul rhs = some ⟨d.ticks * rhs, h⟩ := dif_pos h

theorem Duration.mul_ticks {d d' : Duration} {rhs : Nat} (h : d.mul rhs = some d') :
    d'.ticks = d.ticks * rhs := by
  by_cases hfits : d.ticks * rhs < 2 ^ 64
  · rw [mul_eq_some hfits] at h
    cases h
    rfl
  · rw [mul, dif_neg hfits] at h
    cases h

theorem durationSince_eq_some {now earlier : Nat} (h : earlier ≤ now) :
    durationSince now earlier = some (now - earlier) := if_pos h

theorem ageSecs_eq_some {tickHz now earlier : Nat} (h : earlier ≤ now) :
    ageSecs tickHz now earlier = some (saturatedSecs ((now - earlier) / tickHz)) := by
  rw [ageSecs, durationSince_eq_some h, Option.map_some]

theorem saturatedSecs_toNat (secs : Nat) : (saturatedSecs secs).toNat = min 65535 secs := by
  by_cases h : secs < 2 ^ 16
  · have hn : (UInt16.ofNat secs).toNat = secs := by simpa using h
    rw [saturatedSecs, u16TryFrom, if_pos h, Option.getD_some, hn]
    omega
  · rw [saturatedSecs, u16TryFrom, if_neg h, Option.getD_none]
    change 65535 = min 65535 secs
    omega

end AssetTracker
