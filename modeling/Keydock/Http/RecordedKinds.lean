import Keydock.Foundation.Decimal
import Keydock.Foundation.JsonParts
import Keydock.Http.TxnMeaning

/-!
# Recorded kinds

A write records with a value the kind it takes it for, and a listing reads the
payload back with the parser of that kind.  The kind is declared by a header,
guessed from the text, or known because the service computed the value.  Only
where it is `json` do the two sides differ: a declared kind is believed without
a look at the text, and a guess looks at the text without the white space
around it, of which Unicode has more than JSON.
-/

namespace Keydock

open Effect Handler Json

/-! ## Kinds and parsers -/

/-- The parser of the kind accepts the payload. -/
def Suits (platform : Platform) (payload : Bytes) : ValueKind -> Prop
  | .json => platform.json.Reads payload
  | .int64 => Exists fun text => Exists fun number =>
      Bytes.fromUtf8 payload = some text ∧ Text.parseI64 (Text.trim text.toList) = some number
  | .float64 => Exists fun text => Exists fun number =>
      Bytes.fromUtf8 payload = some text ∧ Binary64.parse (Text.trim text.toList) = some number ∧
        number.isFinite = true
  | .utf8 => Exists fun text => Bytes.fromUtf8 payload = some text
  | .raw => True

/-- The value can stand in a JSON listing. -/
def StoredValue.Renders (platform : Platform) (value : StoredValue) : Prop :=
  Exists fun tree => storedValueToJson platform value = .ok tree

section Kinds

variable {platform : Platform}

/-- A row whose value can stand in a listing is rendered. -/
theorem exists_renderJsonRow {includeValues : Bool} {row : ListEntry}
    (renders : includeValues = true -> Exists fun value => row.value = some value ∧ value.Renders platform) :
    Exists fun tree => renderJsonRow platform includeValues row = .ok tree := by
  unfold renderJsonRow
  cases includeValues with
  | false => exact ⟨_, rfl⟩
  | true =>
      rcases renders rfl with ⟨value, shown, content, rendered⟩
      simp only [if_true, shown, rendered]
      exact ⟨_, rfl⟩

theorem renders_of_suits {value : StoredValue} (suits : Suits platform value.payload value.kind) :
    value.Renders platform := by
  unfold StoredValue.Renders storedValueToJson
  cases kind : value.kind with
  | json =>
      rw [kind] at suits
      rcases suits with ⟨tree, read, readable⟩
      exact ⟨tree.toValue, by simp only [read, readable, if_true]⟩
  | int64 =>
      rw [kind] at suits
      rcases suits with ⟨text, number, decoded, parsed⟩
      exact ⟨ofInt64 number, by simp only [decoded, Option.bind_some, parsed]⟩
  | float64 =>
      rw [kind] at suits
      rcases suits with ⟨text, number, decoded, parsed, finite⟩
      exact ⟨.float number, by simp only [decoded, Option.bind_some, parsed, finite, if_true]⟩
  | utf8 =>
      rw [kind] at suits
      rcases suits with ⟨text, decoded⟩
      exact ⟨.str text, by simp only [decoded]⟩
  | raw => exact ⟨ofBytes value.payload, rfl⟩

/-- What is taken for JSON is JSON as it stands. -/
def RecordsReadable (platform : Platform) (body : Bytes) (contentType : Option String) : Prop :=
  inferValueKind platform body contentType = .json -> platform.json.Reads body

/-- The three successive parsers of a guess. -/
theorem suits_guessed {body : Bytes} (readable : RecordsReadable platform body none) :
    Suits platform body (inferValueKind platform body none) := by
  unfold RecordsReadable at readable
  unfold inferValueKind at readable ⊢
  simp only at readable ⊢
  cases decoded : Bytes.fromUtf8 body with
  | none => trivial
  | some text =>
      rw [decoded] at readable
      simp only at readable ⊢
      split
      next whole =>
        rcases Option.isSome_iff_exists.mp whole with ⟨number, parsed⟩
        exact ⟨text, number, decoded, parsed⟩
      next whole =>
        rw [if_neg whole] at readable
        split
        next real =>
          rcases (Option.any_eq_true_iff_get _ _).mp real with ⟨present, finite⟩
          exact ⟨text, _, decoded, (Option.some_get present).symm, finite⟩
        next real =>
          rw [if_neg real] at readable
          split
          next structured =>
            rw [if_pos structured] at readable
            exact readable rfl
          next => exact ⟨text, decoded⟩

/-- A kind other than `json` is recorded only where its parser accepts the
text. -/
theorem suits_inferValueKind {body : Bytes} {contentType : Option String}
    (readable : RecordsReadable platform body contentType) :
    Suits platform body (inferValueKind platform body contentType) := by
  cases contentType with
  | none => exact suits_guessed readable
  | some declared =>
      have guessed : Text.contains "application/json" (Text.toAsciiLowercase declared.toList) = false ->
          mimeOf (Text.toAsciiLowercase declared.toList) ≠ "text/plain".toList ->
          inferValueKind platform body (some declared) = inferValueKind platform body none := by
        intro other untyped
        simp only [inferValueKind, other, Bool.false_eq_true, if_false, if_neg untyped]
      by_cases json : Text.contains "application/json" (Text.toAsciiLowercase declared.toList) = true
      · have kind : inferValueKind platform body (some declared) = .json := by
          simp only [inferValueKind, json, if_true]
        rw [kind]
        exact readable kind
      · rw [Bool.not_eq_true] at json
        by_cases plain : mimeOf (Text.toAsciiLowercase declared.toList) = "text/plain".toList
        · simp only [inferValueKind, json, Bool.false_eq_true, if_false, if_pos plain]
          split
          next valid => exact Option.isSome_iff_exists.mp valid
          next => trivial
        · unfold RecordsReadable at readable
          rw [guessed json plain] at readable ⊢
          exact suits_guessed readable

/-- An inferred value has the text as its payload. -/
theorem inferStoredValue_eq_ok {body : Bytes} {contentType : Option String} {value : StoredValue}
    (inferred : KeyService.inferStoredValue platform body contentType = .ok value) :
    value.payload = body ∧ value.kind = inferValueKind platform body contentType := by
  have made := eq_ok_of_mapError inferred
  unfold StoredValue.new at made
  split at made
  next =>
    cases made
    exact ⟨rfl, rfl⟩
  next => cases made

theorem renders_of_inferred {body : Bytes} {contentType : Option String} {value : StoredValue}
    (inferred : KeyService.inferStoredValue platform body contentType = .ok value)
    (readable : RecordsReadable platform body contentType) : value.Renders platform := by
  rcases inferStoredValue_eq_ok inferred with ⟨payload, kind⟩
  refine renders_of_suits ?_
  rw [payload, kind]
  exact suits_inferValueKind readable

/-! ## Counters -/

theorem floatResult_finite {number : Binary64} {merged : CounterValue}
    (made : CounterOp.floatResult number = .ok merged) : merged = .float number ∧ number.isFinite = true := by
  unfold CounterOp.floatResult at made
  split at made
  next => cases made
  next proper =>
    cases made
    simp only [Bool.or_eq_true, not_or, Bool.not_eq_true] at proper
    have notNan : ¬ Binary64.infinity < number.magnitude.val := by simpa [Binary64.isNan] using proper.1
    have notInfinite : number.magnitude.val ≠ Binary64.infinity := by simpa [Binary64.isInfinite] using proper.2
    refine ⟨rfl, ?_⟩
    simp only [Binary64.isFinite, decide_eq_true_eq]
    omega

/-- A counter never becomes infinite or undefined. -/
theorem apply_finite {op : CounterOp} {current : CounterValue} {number : Binary64}
    (made : op.apply current = .ok (.float number)) : number.isFinite = true := by
  have finite : forall {result : Binary64}, CounterOp.floatResult result = .ok (.float number) ->
      number.isFinite = true := by
    intro result computed
    rcases floatResult_finite computed with ⟨same, proper⟩
    cases same
    exact proper
  cases op with
  | int delta =>
      cases current with
      | int value =>
          simp only [CounterOp.apply] at made
          split at made <;> cases made
      | float value => exact finite made
  | float delta =>
      cases current with
      | int value => exact finite made
      | float value => exact finite made

/-- A counter is written as a number that its kind reads. -/
theorem renders_of_merged {now : OffsetDateTime} {found : Option Bytes} {op : CounterOp} {value : StoredValue}
    (merged : mergedValue now found op = .ok value) : value.Renders platform := by
  unfold mergedValue at merged
  split at merged
  next => cases merged
  next current _ =>
    split at merged
    next => cases merged
    next result applied =>
      have stored := eq_ok_of_mapError merged
      cases result with
      | int number =>
          rw [CounterValue.intoStored_int] at stored
          cases stored
          refine renders_of_suits ⟨_, number, Bytes.fromUtf8_utf8 _, ?_⟩
          rw [String.toList_ofList, Text.trim_of_not_whitespace (Text.displayI64_not_whitespace number),
            Text.parseI64_displayI64]
      | float number =>
          have finite := apply_finite applied
          simp only [CounterValue.intoStored, StoredValue.new] at stored
          split at stored
          next =>
            cases stored
            refine renders_of_suits ⟨_, number, Bytes.fromUtf8_utf8 _, ?_, finite⟩
            rw [String.toList_ofList, Binary64.trim_display finite, Binary64.parse_display finite]
          next => cases stored

/-! ## Values of transactions -/

/-- The value of an item is a readable part of it, as a generic value. -/
theorem value_of_txnItem {tree value : Json} {raw : String} {ttl : Option UInt64}
    (shape : txnItemFromJson tree = some (.set raw value ttl)) :
    value.readable = true ∧ value.depth < tree.depth := by
  unfold txnItemFromJson at shape
  split at shape
  next readable =>
    rcases Option.or_eq_some_iff.mp shape with set | ⟨_, delete⟩
    · unfold txnSetFromJson at set
      split at set
      next name content expiry found =>
        simp only [required, Option.bind_eq_bind, Option.bind_eq_some_iff] at set
        rcases set with ⟨_, _, _, ⟨part, supplied, same⟩, _, _, made⟩
        rw [supplied] at found
        have inside := part_of_fields found (List.mem_cons_of_mem name List.mem_cons_self)
        cases same
        cases made
        exact ⟨readable_toValue part (inside.2 readable), Nat.lt_of_le_of_lt (depth_toValue_le part) inside.1⟩
      next => cases set
    · unfold txnDeleteFromJson at delete
      split at delete
      next =>
        simp only [Option.bind_eq_bind, Option.bind_eq_some_iff] at delete
        rcases delete with ⟨_, _, impossible⟩
        cases impossible
      next => cases delete
  next => cases shape

theorem depth_of_txnTrees (rereads : platform.json.Rereads) {body : Bytes} {trees : List Json}
    (listed : txnTrees platform body = some trees) {tree : Json} (member : tree ∈ trees) : tree.depth < 128 := by
  unfold txnTrees at listed
  split at listed
  next items found =>
    cases listed
    rcases Option.bind_eq_some_iff.mp found with ⟨whole, read, fields⟩
    have shallow := rereads.shallow read
    have inside := (part_of_fields fields List.mem_cons_self).1
    have here := depth_le_of_mem member
    rw [depth] at inside
    omega
  next => cases listed

/-- A string is stored as its text, and any other value is written again by the
service and declared to be JSON. -/
theorem jsonValueToBody_eq_ok {value : Json} {body : Bytes} {contentType : Option String}
    (written : jsonValueToBody platform value = .ok (body, contentType)) :
    (Exists fun text => value = .str text ∧ body = Bytes.utf8 text ∧ contentType = none) ∨
      ((forall text, value ≠ .str text) ∧ platform.json.toVec value = some body ∧
        contentType = some jsonContentType) := by
  unfold jsonValueToBody at written
  split at written
  next => cases written
  next text =>
    cases written
    exact .inl ⟨text, rfl, rfl, rfl⟩
  next notText =>
    split at written
    next => cases written
    next bytes produced =>
      cases written
      exact .inr ⟨notText, produced, rfl⟩

/-- What the service has written itself can be read. -/
theorem renders_of_item (rereads : platform.json.Rereads) {body : Bytes} {trees : List Json}
    (listed : txnTrees platform body = some trees) {tree : Json} (member : tree ∈ trees) {raw : String}
    {content : Json} {ttl : Option UInt64} (shape : txnItemFromJson tree = some (.set raw content ttl))
    (readable : forall text, content = .str text -> RecordsReadable platform (Bytes.utf8 text) none)
    {written : Bytes} {contentType : Option String} {value : StoredValue}
    (converted : jsonValueToBody platform content = .ok (written, contentType))
    (inferred : KeyService.inferStoredValue platform written contentType = .ok value) : value.Renders platform := by
  refine renders_of_inferred inferred ?_
  rcases jsonValueToBody_eq_ok converted with ⟨text, same, rfl, rfl⟩ | ⟨_, produced, rfl⟩
  · exact readable text same
  · intro _
    have part := value_of_txnItem shape
    have shallow := depth_of_txnTrees rereads listed member
    exact rereads.again part.1 (Nat.lt_trans part.2 shallow) produced

end Kinds

/-! ## What a request records -/

/-- The value is one that a request to the route records. -/
inductive Recorded (platform : Platform) : Route -> StoredValue -> Prop
  | body {key : Segment} {ttl : Except Response (Option UInt64)} {contentType : Option Bytes} {body : Bytes}
      {value : StoredValue}
      (inferred : KeyService.inferStoredValue platform body ((contentType.bind headerToStr).map String.ofList) =
        .ok value) :
      Recorded platform (.putKey key ttl contentType (.ok body)) value
  | counter {key : Segment} {ttl : Except Response (Option UInt64)} {body : Except Response Bytes}
      {now : OffsetDateTime} {found : Option Bytes} {op : CounterOp} {value : StoredValue}
      (merged : mergedValue now found op = .ok value) :
      Recorded platform (.patchKey key ttl body) value
  | item {body : Bytes} {trees : List Json} {tree content : Json} {raw : String} {ttl : Option UInt64}
      {written : Bytes} {contentType : Option String} {value : StoredValue}
      (listed : txnTrees platform body = some trees) (member : tree ∈ trees)
      (shape : txnItemFromJson tree = some (.set raw content ttl))
      (converted : jsonValueToBody platform content = .ok (written, contentType))
      (inferred : KeyService.inferStoredValue platform written contentType = .ok value) :
      Recorded platform (.executeTxn (.ok body)) value

/-- Text of the request that is taken for JSON is JSON as it stands.  In a
transaction this concerns the values that are texts. -/
def Route.RecordsReadable (platform : Platform) : Route -> Prop
  | .putKey _ _ contentType (.ok body) =>
      Keydock.RecordsReadable platform body ((contentType.bind headerToStr).map String.ofList)
  | .executeTxn (.ok body) => forall trees tree raw text ttl, txnTrees platform body = some trees -> tree ∈ trees ->
      txnItemFromJson tree = some (.set raw (.str text) ttl) -> Keydock.RecordsReadable platform (Bytes.utf8 text) none
  | _ => True

/-- What such a request records can stand in a JSON listing. -/
theorem Recorded.renders {platform : Platform} (rereads : platform.json.Rereads) {route : Route} {value : StoredValue}
    (recorded : Recorded platform route value) (readable : route.RecordsReadable platform) :
    value.Renders platform := by
  cases recorded with
  | body inferred => exact renders_of_inferred inferred readable
  | counter merged => exact renders_of_merged merged
  | item listed member shape converted inferred =>
      refine renders_of_item rereads listed member shape ?_ converted inferred
      rintro text rfl
      exact readable _ _ _ _ _ listed member shape

end Keydock
