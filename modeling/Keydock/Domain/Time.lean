import Mathlib.Data.Int.Basic
import Mathlib.Tactic.Common
import Mathlib.Tactic.Linarith

/-!
# Instants

An instant is a number of nanoseconds since the Unix epoch, between the first
nanosecond of the year -9999 and the last one of the year 9999.  Expiries are
stored as whole seconds, rounded towards the past.
-/

namespace Keydock

def nanosPerSecond : Int := 1000000000

def minUnixTimestamp : Int := -377705116800

def maxUnixTimestamp : Int := 253402300799

/-- An instant in UTC. -/
structure OffsetDateTime where
  nanos : Int
  lower : minUnixTimestamp * nanosPerSecond ≤ nanos
  upper : nanos < (maxUnixTimestamp + 1) * nanosPerSecond
  deriving DecidableEq

namespace OffsetDateTime

instance : LE OffsetDateTime := ⟨fun left right => left.nanos ≤ right.nanos⟩

instance : LT OffsetDateTime := ⟨fun left right => left.nanos < right.nanos⟩

instance (left right : OffsetDateTime) : Decidable (left ≤ right) :=
  inferInstanceAs (Decidable (left.nanos ≤ right.nanos))

instance (left right : OffsetDateTime) : Decidable (left < right) :=
  inferInstanceAs (Decidable (left.nanos < right.nanos))

theorem le_iff {left right : OffsetDateTime} : left ≤ right ↔ left.nanos ≤ right.nanos := Iff.rfl

theorem le_trans {first second third : OffsetDateTime} (lower : first ≤ second)
    (upper : second ≤ third) : first ≤ third :=
  Int.le_trans lower upper

def unixEpoch : OffsetDateTime := ⟨0, by decide, by decide⟩

/-- The last instant that there is. -/
def last : OffsetDateTime := ⟨(maxUnixTimestamp + 1) * nanosPerSecond - 1, by decide, by decide⟩

theorem le_last (instant : OffsetDateTime) : instant ≤ last :=
  Int.le_sub_one_of_lt instant.upper

/-- The instant with a given number of nanoseconds, when it is in range. -/
def ofNanos (nanos : Int) : Option OffsetDateTime :=
  if inRange : minUnixTimestamp * nanosPerSecond ≤ nanos ∧ nanos < (maxUnixTimestamp + 1) * nanosPerSecond then
    some ⟨nanos, inRange.1, inRange.2⟩
  else none

/-- Whole seconds since the epoch, rounded down. -/
def unixSeconds (instant : OffsetDateTime) : Int :=
  instant.nanos / nanosPerSecond

def unixTimestamp (instant : OffsetDateTime) : Int64 :=
  Int64.ofInt instant.unixSeconds

def fromUnixTimestamp (timestamp : Int64) : Option OffsetDateTime :=
  ofNanos (timestamp.toInt * nanosPerSecond)

def checkedAddSeconds (instant : OffsetDateTime) (seconds : Int64) : Option OffsetDateTime :=
  ofNanos (instant.nanos + seconds.toInt * nanosPerSecond)

theorem ofNanos_nanos {nanos : Int} {instant : OffsetDateTime} (made : ofNanos nanos = some instant) :
    instant.nanos = nanos := by
  unfold ofNanos at made
  split at made
  · cases made
    rfl
  · cases made

theorem unixSeconds_bounds (instant : OffsetDateTime) :
    minUnixTimestamp ≤ instant.unixSeconds ∧ instant.unixSeconds ≤ maxUnixTimestamp := by
  have lower := instant.lower
  have upper := instant.upper
  unfold unixSeconds
  unfold minUnixTimestamp maxUnixTimestamp nanosPerSecond at *
  omega

@[simp] theorem toInt_unixTimestamp (instant : OffsetDateTime) :
    instant.unixTimestamp.toInt = instant.unixSeconds := by
  have bounds := instant.unixSeconds_bounds
  unfold minUnixTimestamp maxUnixTimestamp at bounds
  unfold unixTimestamp
  rw [Int64.toInt_ofInt_of_le (by omega) (by omega)]

/-- The instant at the whole second at or before another one. -/
def floorSecond (instant : OffsetDateTime) : OffsetDateTime where
  nanos := instant.unixSeconds * nanosPerSecond
  lower := by
    have bounds := instant.unixSeconds_bounds
    unfold minUnixTimestamp maxUnixTimestamp nanosPerSecond at *
    omega
  upper := by
    have bounds := instant.unixSeconds_bounds
    unfold minUnixTimestamp maxUnixTimestamp nanosPerSecond at *
    omega

/-- A stored timestamp reads back as the whole second. -/
@[simp] theorem fromUnixTimestamp_unixTimestamp (instant : OffsetDateTime) :
    fromUnixTimestamp instant.unixTimestamp = some instant.floorSecond := by
  unfold fromUnixTimestamp ofNanos
  rw [toInt_unixTimestamp, dif_pos ⟨instant.floorSecond.lower, instant.floorSecond.upper⟩]
  rfl

@[simp] theorem unixTimestamp_floorSecond (instant : OffsetDateTime) :
    instant.floorSecond.unixTimestamp = instant.unixTimestamp := by
  unfold unixTimestamp
  have same : instant.floorSecond.unixSeconds = instant.unixSeconds := by
    unfold unixSeconds floorSecond nanosPerSecond
    exact Int.mul_ediv_cancel _ (by decide)
  rw [same]

/-- A whole second has passed exactly when its number is at most the number
of the current second. -/
theorem floorSecond_le_iff (expiry now : OffsetDateTime) :
    expiry.floorSecond ≤ now ↔ expiry.unixTimestamp ≤ now.unixTimestamp := by
  rw [Int64.le_iff_toInt_le, toInt_unixTimestamp, toInt_unixTimestamp, le_iff]
  unfold floorSecond unixSeconds nanosPerSecond
  simp only
  omega

theorem unixTimestamp_mono {earlier later : OffsetDateTime} (ordered : earlier ≤ later) :
    earlier.unixTimestamp ≤ later.unixTimestamp := by
  rw [Int64.le_iff_toInt_le, toInt_unixTimestamp, toInt_unixTimestamp]
  exact Int.ediv_le_ediv (by decide) ordered

end OffsetDateTime
end Keydock
