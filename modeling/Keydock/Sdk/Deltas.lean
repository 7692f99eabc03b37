import Keydock.Http.CounterArithmetic
import Keydock.Sdk.Encoding

/-!
# Counter deltas on the wire

The client writes a big integer as a sign and all its digits.  The server keeps
an integer counter exact for as long as the integer fits into 64 bits.  Beyond
that the digits still parse, as a floating point number.
-/

namespace Keydock
namespace Sdk

open Handler

/-- The decimal text of a big integer. -/
def bigintToString (number : Int) : List Char :=
  if number < 0 then '-' :: Nat.toDigits 10 number.natAbs else Nat.toDigits 10 number.natAbs

/-- The text of a delta that is a big integer. -/
def serializeDelta (delta : Int) : Except KeydockValidationError String :=
  if delta = 0 then .error ⟨"Counter delta must not be 0"⟩
  else .ok (String.ofList (if 0 < delta then '+' :: bigintToString delta else bigintToString delta))

/-- A sign in front of the digits of the magnitude. -/
theorem serializeDelta_eq {delta : Int} (nonzero : delta ≠ 0) :
    serializeDelta delta =
      .ok (String.ofList ((if 0 < delta then '+' else '-') :: Nat.toDigits 10 delta.natAbs)) := by
  unfold serializeDelta bigintToString
  rw [if_neg nonzero]
  by_cases positive : 0 < delta
  · rw [if_pos positive, if_pos positive, if_neg (Int.not_lt.mpr (Int.le_of_lt positive))]
  · rw [if_neg positive, if_neg positive, if_pos (by omega)]

/-- The server reads the integer in the text. -/
theorem signedDigits_serializeDelta {delta : Int} (nonzero : delta ≠ 0) :
    Exists fun text => serializeDelta delta = .ok text ∧ SignedDigits (Bytes.utf8 text) delta := by
  refine ⟨_, serializeDelta_eq nonzero, _, if 0 < delta then '+' else '-', _, Bytes.fromUtf8_utf8 _, ?_, ?_,
    Nat.toDigits_ne_nil, Binary64.digits_toDigits delta.natAbs, ?_⟩
  · rw [String.toList_ofList]
    apply Text.trim_of_not_whitespace
    intro c member
    rcases List.mem_cons.mp member with rfl | digit
    · split <;> decide
    · exact Text.isDigit_not_whitespace (Text.isDigit_toDigits _ c digit)
  · split
    · exact .inl rfl
    · exact .inr rfl
  · unfold signedNumber
    rw [Nat.ofDigitChars_ten_toDigits]
    by_cases positive : 0 < delta
    · rw [if_pos positive, if_neg (by decide)]
      omega
    · rw [if_neg positive, if_pos rfl]
      omega

theorem signedDigits_of_sent {delta : Int} {text : String} (nonzero : delta ≠ 0)
    (sent : serializeDelta delta = .ok text) : SignedDigits (Bytes.utf8 text) delta := by
  rcases signedDigits_serializeDelta nonzero with ⟨other, same, shape⟩
  rw [sent] at same
  cases same
  exact shape

/-- Every big integer but zero is sent as a sign and digits, and for every such
body an integer counter is added to exactly, or the request refused, precisely
when the integer fits into 64 bits or overflows a floating point number. -/
theorem integer_delta_exact_iff (platform : Platform) (clock : Clock) (auth : BucketAuth) (bucket segment : Segment)
    (ttl : Option UInt64) (store : Store) (key : Key) (number : Int64) (expiresAt : Option OffsetDateTime)
    (reaches : Increments clock auth bucket segment ttl store key number expiresAt) (body : Bytes) (delta : Int)
    (shape : SignedDigits body delta) :
    (forall sent : Int, sent ≠ 0 ->
      Exists fun text => serializeDelta sent = .ok text ∧ SignedDigits (Bytes.utf8 text) sent) ∧
    (AddsOrRefuses (eval platform (patchKey clock auth bucket segment (.ok ttl) (.ok body)) store) store
        (dataStorageKey auth.bucketId key) (number.toInt + delta) ↔
      InI64 delta ∨ Binary64.overflow ≤ delta.natAbs) :=
  ⟨fun _ nonzero => signedDigits_serializeDelta nonzero, reaches.addsOrRefuses_iff platform shape⟩

/-! An administrator adds to a missing key in an empty bucket. -/

namespace LargeDelta

theorem bucket_nonempty : "b" ≠ "" := by decide

theorem key_nonempty : "k" ≠ "" := by decide

theorem key_short : (Bytes.utf8 "k").length ≤ maxKeyBytes := by decide

def bucket : Name := ⟨"b", bucket_nonempty⟩

def name : KeyName := ⟨⟨"k", key_nonempty⟩, key_short⟩

def auth : BucketAuth where
  identity := .admin
  bucketId := ⟨"b"⟩
  policyPresence := ⟨true, false, false⟩
  anonymousAccess := Permission.none
  defaultTtlSecs := none

def clock : Clock := fun _ => OffsetDateTime.unixEpoch

theorem reaches : Increments clock auth bucket.segment name.segment none Store.empty name.key 0 none where
  named := (name.onPath_eq_key_iff bucket).mpr (by decide +kernel)
  allowed := rfl
  lasting := rfl
  counts := by
    have missing : Store.empty.data[dataStorageKey auth.bucketId name.key]? = none := by simp [Store.empty]
    rw [missing]
    rfl

end LargeDelta

open LargeDelta in
/-- Five is added to a missing counter. -/
theorem small_delta_added :
    let platform := Platform.ofJson [] (by simp) []
    AddsOrRefuses (eval platform (patchKey clock auth bucket.segment name.segment (.ok none) (.ok (Bytes.utf8 "+5")))
      Store.empty) Store.empty (dataStorageKey auth.bucketId name.key) ((0 : Int64).toInt + 5) := by
  intro platform
  have shape : SignedDigits (Bytes.utf8 "+5") 5 := signedDigits_of_sent (by decide) (by decide +kernel)
  have exact := (integer_delta_exact_iff platform clock auth bucket.segment name.segment none Store.empty name.key 0 none
    reaches (Bytes.utf8 "+5") 5 shape).2
  exact exact.mpr (.inl ⟨by decide, by decide⟩)

open LargeDelta in
/-- The least positive integer beyond 64 bits is neither added exactly nor
refused. -/
theorem large_delta_becomes_float :
    let body := Bytes.utf8 "+9223372036854775808"
    serializeDelta (2 ^ 63) = .ok "+9223372036854775808" ∧ SignedDigits body (2 ^ 63) ∧
    Increments clock auth bucket.segment name.segment none Store.empty name.key 0 none ∧
    forall platform : Platform,
      ¬ AddsOrRefuses (eval platform (patchKey clock auth bucket.segment name.segment (.ok none) (.ok body)) Store.empty)
        Store.empty (dataStorageKey auth.bucketId name.key) ((0 : Int64).toInt + 2 ^ 63) := by
  have text : serializeDelta (2 ^ 63) = .ok "+9223372036854775808" := by decide +kernel
  have shape : SignedDigits (Bytes.utf8 "+9223372036854775808") (2 ^ 63) := signedDigits_of_sent (by decide) text
  refine ⟨text, shape, reaches, ?_⟩
  intro platform
  rw [reaches.addsOrRefuses_iff platform shape]
  have small : (2 ^ 63 : Int).natAbs < Binary64.overflow := by decide +kernel
  rintro (inside | beyond)
  · exact absurd inside.2 (by decide)
  · exact Nat.not_le_of_gt small beyond

end Sdk
end Keydock
