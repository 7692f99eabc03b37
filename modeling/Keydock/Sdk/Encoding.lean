import Keydock.Http.Server

/-!
# Key names on the wire

The client encodes a key name once, for a path as well as for an item of a
transaction.  The server decodes an item once.  It decodes a path twice: the
path extractor does, and then the parser of keys does again.  The second time
is harmless exactly for names without an escape.
-/

namespace Keydock
namespace Sdk

open Handler PercentCoding

/-- The error the client raises before it sends anything. -/
structure KeydockValidationError where
  message : String
  deriving DecidableEq

def encodeNonEmptySegment (value label : String) : Except KeydockValidationError String :=
  if value = "" then .error ⟨label ++ " must be non-empty"⟩ else .ok (encodeURIComponent value)

def encodeKey (key : String) : Except KeydockValidationError String :=
  encodeNonEmptySegment key "Key"

def encodeBucketId (bucketId : String) : Except KeydockValidationError String :=
  encodeNonEmptySegment bucketId "Bucket id"

def keyPath (bucketId key : String) : Except KeydockValidationError String := do
  let bucket <- encodeBucketId bucketId
  let key <- encodeKey key
  return bucket ++ "/" ++ key

/-! ## Encoded segments -/

theorem encodeByte_no_slash (byte : UInt8) : '/' ∉ encodeByte byte := by
  have every : forall n, n < 256 -> '/' ∉ encodeByte (UInt8.ofNat n) := by decide +kernel
  have here := every byte.toNat byte.toNat_lt
  rwa [UInt8.ofNat_toNat] at here

theorem encodeByte_ne_nil (byte : UInt8) : encodeByte byte ≠ [] := by
  unfold encodeByte
  split <;> exact List.cons_ne_nil _ _

theorem encodeURIComponent_nonempty {value : String} (nonempty : value ≠ "") :
    (encodeURIComponent value).toList ≠ [] := by
  rw [encodeURIComponent, String.toList_ofList]
  intro empty
  cases bytes : Bytes.utf8 value with
  | nil => exact nonempty (Bytes.utf8_injective (bytes.trans rfl))
  | cons byte rest =>
      rw [bytes, List.flatMap_cons, List.append_eq_nil_iff] at empty
      exact encodeByte_ne_nil byte empty.1

theorem encodeURIComponent_whole (value : String) : '/' ∉ (encodeURIComponent value).toList := by
  rw [encodeURIComponent, String.toList_ofList]
  intro member
  rcases List.mem_flatMap.mp member with ⟨byte, _, inside⟩
  exact encodeByte_no_slash byte inside

/-- A text the client accepts as a path segment. -/
structure Name where
  text : String
  nonempty : text ≠ ""

namespace Name

def segment (name : Name) : Segment where
  text := encodeURIComponent name.text
  nonempty := encodeURIComponent_nonempty name.nonempty
  whole := encodeURIComponent_whole name.text

/-- The path extractor gives the text back. -/
theorem pathParam_segment (name : Name) (label : String) : pathParam label name.segment = .ok name.text := by
  simp only [pathParam, segment, percentDecode_encodeURIComponent, Bytes.fromUtf8_utf8]

end Name

/-- A name that fits into a key. -/
structure KeyName extends Name where
  bounded : (Bytes.utf8 text).length ≤ maxKeyBytes

/-! ## Both channels -/

namespace KeyName

/-- The key a name stands for: its UTF-8 form. -/
def key (name : KeyName) : Key := ⟨Bytes.utf8 name.text, name.bounded⟩

/-- The key the server resolves for the path of a name. -/
def onPath (name : KeyName) (bucket : Name) : Except Response Key := pathKey bucket.segment name.segment

/-- The key the server resolves for a transaction item with the name. -/
def inTransaction (name : KeyName) : Except Response Key := parsePercentEncodedKey name.segment.text

theorem encodeKey_eq (name : KeyName) : encodeKey name.text = .ok name.segment.text := if_neg name.nonempty

/-- The path the client asks for is the one the router matches. -/
theorem bucketPath_keyPath (name : KeyName) (bucket : Name) :
    keyPath bucket.text name.text = .ok (bucket.segment.text ++ "/" ++ name.segment.text) ∧
      bucketPath bucket.segment (Route.getKey name.segment).rest =
        "/" ++ (bucket.segment.text ++ "/" ++ name.segment.text) := by
  constructor
  · have first : encodeBucketId bucket.text = .ok bucket.segment.text := if_neg bucket.nonempty
    simp only [keyPath, first, name.encodeKey_eq, bind, Except.bind]
    rfl
  · simp only [bucketPath, Route.rest, String.append_assoc]

/-- Reading a key by its path reads under the key resolved for the path. -/
theorem getKey_onPath (name : KeyName) (bucket : Name) (clock : Clock) (auth : BucketAuth) :
    getKey clock auth bucket.segment name.segment = (do
      let key <- known (name.onPath bucket)
      known (auth.requireReadOn key)
      let entry <- spawnUsecase (KeyService.get (clock 1) auth.bucketId key)
      return storedValueResponse entry.value) := by
  unfold getKey onPath pathKey
  cases pathParams bucket.segment name.segment <;> rfl

theorem key_injective {name other : KeyName} (same : name.key = other.key) : name.text = other.text :=
  Bytes.utf8_injective (congrArg Key.asBytes same)

/-- A transaction item is decoded once, which inverts the encoding. -/
theorem inTransaction_eq (name : KeyName) : name.inTransaction = .ok name.key := by
  have made : Key.fromBytes (Bytes.utf8 name.text) = .ok name.key := Key.fromBytes_asBytes name.key
  simp only [inTransaction, parsePercentEncodedKey, Name.segment, percentDecode_encodeURIComponent, made]

/-- A path is decoded a second time. -/
theorem onPath_eq (name : KeyName) (bucket : Name) : name.onPath bucket = parsePercentEncodedKey name.text := by
  simp only [onPath, pathKey, pathParams, Name.pathParam_segment, bind, Except.bind]

theorem onPath_eq_key_iff (name : KeyName) (bucket : Name) :
    name.onPath bucket = .ok name.key ↔ hasEscape (Bytes.utf8 name.text) = false := by
  rw [onPath_eq, ← percentDecode_eq_self_iff]
  constructor
  · intro resolved
    unfold parsePercentEncodedKey at resolved
    split at resolved
    next key made =>
      cases resolved
      exact (Key.asBytes_of_fromBytes made).symm
    next => cases resolved
  · intro plain
    have made : Key.fromBytes (Bytes.utf8 name.text) = .ok name.key := Key.fromBytes_asBytes name.key
    unfold parsePercentEncodedKey
    rw [plain, made]

end KeyName

/-- A name survives both channels exactly when it holds no `%` followed by two
hexadecimal digits, and no two such names share a key. -/
theorem key_names_survive_iff (bucket : Name) (name : KeyName) :
    ((name.onPath bucket = .ok name.key ∧ name.inTransaction = .ok name.key) ↔
      hasEscape (Bytes.utf8 name.text) = false) ∧
    forall other : KeyName, hasEscape (Bytes.utf8 name.text) = false -> hasEscape (Bytes.utf8 other.text) = false ->
      name.text ≠ other.text ->
        name.onPath bucket ≠ other.onPath bucket ∧ name.inTransaction ≠ other.onPath bucket ∧
          name.inTransaction ≠ other.inTransaction := by
  refine ⟨⟨fun both => (name.onPath_eq_key_iff bucket).mp both.1,
    fun plain => ⟨(name.onPath_eq_key_iff bucket).mpr plain, name.inTransaction_eq⟩⟩, ?_⟩
  intro other plain plainOther different
  have apart : (Except.ok name.key : Except Response Key) ≠ .ok other.key :=
    fun same => different (KeyName.key_injective (Except.ok.inj same))
  rw [(name.onPath_eq_key_iff bucket).mpr plain, (other.onPath_eq_key_iff bucket).mpr plainOther,
    name.inTransaction_eq, other.inTransaction_eq]
  exact ⟨apart, apart, apart⟩

/-- The path of the name `a%41` reaches the key of the name `aA`, while a
transaction writes its own. -/
theorem escaped_name_aliases :
    let bucket : Name := ⟨"b", by decide⟩
    let escaped : KeyName := ⟨⟨"a%41", by decide⟩, by decide⟩
    let plain : KeyName := ⟨⟨"aA", by decide⟩, by decide⟩
    encodeKey escaped.text = .ok "a%2541" ∧ escaped.onPath bucket ≠ .ok escaped.key ∧
      escaped.inTransaction = .ok escaped.key ∧ escaped.onPath bucket = plain.onPath bucket := by
  decide +kernel

end Sdk
end Keydock
