import Keydock.Foundation.Utf8
import Keydock.Http.RecordedKinds

/-!
# What listings look like

The three formats render the same rows in loops of their own.  Whatever bytes
the keys and values hold, a text listing has one line for each row and a
line-wise JSON listing one ended line, and the lines of the latter are the
elements of the JSON listing.  So no key and no value can forge a row or hide one.
-/

namespace Keydock

open Handler Json

/-! ## Text -/

/-- The value shown in a row. -/
def shownValue (includeValues : Bool) (row : ListEntry) : Option StoredValue :=
  if includeValues then row.value else none

/-- The line of a row: the escaped key and, where values are included, an equals
sign and the escaped value. -/
def textLine (includeValues : Bool) (row : ListEntry) : List Char :=
  escapeTextSegment (keyToJsonString row.key) ++
    (shownValue includeValues row).elim [] (fun value => '=' :: escapeTextSegment (Text.fromUtf8Lossy value.payload))

section Text

variable {includeValues : Bool} {row : ListEntry} {entries : List ListEntry}

theorem renderTextRow_eq (valued : includeValues = true -> row.value.isSome = true) :
    renderTextRow includeValues row = .ok (textLine includeValues row) := by
  unfold renderTextRow textLine shownValue
  cases includeValues with
  | false => simp
  | true =>
      rcases Option.isSome_iff_exists.mp (valued rfl) with ⟨value, shown⟩
      simp [shown]

/-- Neither line break is left in an escaped segment. -/
theorem not_mem_escapeTextSegment {c : Char} (breaks : c = '\n' ∨ c = '\r') (text : List Char) :
    c ∉ escapeTextSegment text := by
  have escaped : c ∉ "\\n".toList ∧ c ∉ "\\r".toList := by
    rcases breaks with rfl | rfl <;> decide
  intro member
  rcases Text.mem_replaceChar member with ⟨inside, notReturn⟩ | written
  · rcases Text.mem_replaceChar inside with ⟨_, notNewline⟩ | written
    · exact breaks.elim notNewline notReturn
    · exact escaped.1 written
  · exact escaped.2 written

theorem not_mem_textLine {c : Char} (breaks : c = '\n' ∨ c = '\r') (includeValues : Bool) (row : ListEntry) :
    c ∉ textLine includeValues row := by
  intro member
  rcases List.mem_append.mp member with inKey | inValue
  · exact not_mem_escapeTextSegment breaks _ inKey
  · cases shown : shownValue includeValues row with
    | none =>
        rw [shown] at inValue
        cases inValue
    | some value =>
        rw [shown] at inValue
        rcases List.mem_cons.mp inValue with rfl | inside
        · exact absurd breaks (by decide)
        · exact not_mem_escapeTextSegment breaks _ inside

theorem renderListText_eq
    (valued : includeValues = true -> forall row, row ∈ entries -> row.value.isSome = true) :
    renderListText includeValues entries =
      .ok (Bytes.utf8 (String.ofList (List.intercalate ['\n'] (entries.map (textLine includeValues))))) := by
  refine bind_eq_ok.mpr ⟨entries.map (textLine includeValues), mapM_eq_ok.mpr ?_, rfl⟩
  refine List.forall₂_map_right_iff.mpr (List.forall₂_same.mpr (fun row member => ?_))
  exact renderTextRow_eq (fun included => valued included row member)

/-- The text splits into the lines of the rows. -/
theorem splitOn_renderListText (some : entries ≠ []) :
    (Bytes.utf8 (String.ofList (List.intercalate ['\n'] (entries.map (textLine includeValues))))).splitOn 0x0A =
      entries.map (fun row => Bytes.utf8 (String.ofList (textLine includeValues row))) := by
  have split : _ = (entries.map (textLine includeValues)).map _ :=
    Bytes.splitOn_utf8_intercalate (show '\n'.toNat < 128 by decide) (by simpa using some) (by
      intro line member
      rcases List.mem_map.mp member with ⟨row, _, rfl⟩
      exact not_mem_textLine (.inl rfl) includeValues row)
  rw [List.map_map] at split
  exact split

end Text

/-! ## JSON -/

section Json

variable {platform : Platform} {includeValues : Bool} {entries : List ListEntry} {rows : List Json}
  {lines : List Bytes}

/-- The line-wise listing is made of the texts of the rows. -/
theorem renderListJsonl_eq (rendered : entries.mapM (renderJsonRow platform includeValues) = .ok rows)
    (written : List.Forall₂ (fun tree line => platform.json.toVec tree = some line) rows lines) :
    renderListJsonl platform includeValues entries = .ok (lines.map (fun line => line ++ [0x0A])).flatten := by
  refine bind_eq_ok.mpr ⟨_, mapM_eq_ok.mpr ?_, rfl⟩
  have each := mapM_eq_ok.mp rendered
  clear rendered
  induction each generalizing lines with
  | nil =>
      cases written
      exact .nil
  | cons first _ ih =>
      cases written with
      | cons here rest =>
          refine .cons ?_ (ih rest)
          refine bind_eq_ok.mpr ⟨_, first, bind_eq_ok.mpr ⟨_, ?_, rfl⟩⟩
          simp only [writeJson, here]

/-- A reader reads the lines as the elements it reads from the array. -/
theorem map_read_eq {read : Bytes -> Option Json} {values : List Json}
    (written : List.Forall₂ (fun tree line => platform.json.toVec tree = some line) rows lines)
    (parts : List.Forall₂ (fun item part => forall text, platform.json.toVec item = some text ->
      read text = some part) rows values) :
    lines.map read = values.map some := by
  induction written generalizing values with
  | nil =>
      cases parts
      rfl
  | cons here _ ih =>
      cases parts with
      | cons first others => rw [List.map_cons, List.map_cons, ih others, first _ here]

end Json

/-! ## The formats -/

/-- A list of one or more entries, whose values can be rendered where they are
included, makes a text that splits into one line for each entry, free of
carriage returns, and a line-wise JSON listing that splits into as many ended
lines.  A reader that reads arrays item by item reads these lines as the elements
that it reads from the JSON listing. -/
theorem listings_show_the_rows (platform : Platform) (includeValues : Bool) (entries : List ListEntry)
    (nonempty : entries ≠ [])
    (renders : includeValues = true -> forall row, row ∈ entries ->
      Exists fun value => row.value = some value ∧ value.Renders platform)
    (oneLine : platform.json.OneLine)
    (writes : forall rows, entries.mapM (renderJsonRow platform includeValues) = .ok rows ->
      platform.json.Writes rows)
    (read : Bytes -> Option Json) (reader : platform.json.ReadBy read) :
    (Exists fun text => renderListText includeValues entries = .ok text ∧
      text.splitOn 0x0A = entries.map (fun row => Bytes.utf8 (String.ofList (textLine includeValues row))) ∧
      forall line, line ∈ text.splitOn 0x0A -> 0x0D ∉ line) ∧
    (Exists fun rows => Exists fun document => Exists fun body => Exists fun lines => Exists fun values =>
      entries.mapM (renderJsonRow platform includeValues) = .ok rows ∧
      renderListJson platform includeValues entries = .ok document ∧
      platform.json.toVec (.arr rows) = some document ∧
      renderListJsonl platform includeValues entries = .ok body ∧
      body.splitOn 0x0A = lines ++ [[]] ∧ lines.length = entries.length ∧
      rows.map platform.json.toVec = lines.map some ∧
      read document = some (.arr values) ∧ lines.map read = values.map some) := by
  constructor
  · have valued : includeValues = true -> forall row, row ∈ entries -> row.value.isSome = true := by
      intro included row member
      rcases renders included row member with ⟨value, shown, _⟩
      rw [shown]
      rfl
    refine ⟨_, renderListText_eq valued, splitOn_renderListText nonempty, ?_⟩
    rw [splitOn_renderListText nonempty]
    intro line member
    rcases List.mem_map.mp member with ⟨row, _, rfl⟩
    have absent := (Bytes.mem_utf8_of_ascii (show '\r'.toNat < 128 by decide) (textLine includeValues row)).not.mpr
      (not_mem_textLine (.inr rfl) includeValues row)
    exact absent
  · rcases exists_forall₂ (fun row member => exists_renderJsonRow (fun included => renders included row member))
      with ⟨rows, paired⟩
    have rendered := mapM_eq_ok.mpr paired
    rcases writes rows rendered with ⟨⟨document, whole⟩, each⟩
    rcases exists_forall₂ each with ⟨lines, written⟩
    rcases reader.accepts whole with ⟨value, accepted⟩
    rcases reader.items whole accepted with ⟨values, rfl, parts⟩
    have free : forall line, line ∈ lines -> 0x0A ∉ line := by
      intro line member
      rcases exists_of_forall₂ written.flip member with ⟨tree, _, made⟩
      exact oneLine made
    refine ⟨rows, document, _, lines, values, rendered, bind_eq_ok.mpr ⟨rows, rendered, ?_⟩, whole,
      renderListJsonl_eq rendered written, Bytes.splitOn_terminated free, ?_, ?_, accepted, map_read_eq written parts⟩
    · simp only [writeJson, whole]
    · rw [← written.length_eq, ← paired.length_eq]
    · exact List.forall₂_eq_eq_eq ▸ List.forall₂_map_left_iff.mpr (List.forall₂_map_right_iff.mpr written)

namespace LineBreaks

/-- Two rows, the first with a line break in its key and in its value, and
the listing of both. -/
def trees : List (Json × Bytes) :=
  [(.arr [.str "a\nb", .str "=\r"], Bytes.utf8 "[\"a\\nb\",\"=\\r\"]"),
    (.arr [.str "c", .posInt 1], Bytes.utf8 "[\"c\",1]"),
    (.arr [.arr [.str "a\nb", .str "=\r"], .arr [.str "c", .posInt 1]],
      Bytes.utf8 "[[\"a\\nb\",\"=\\r\"],[\"c\",1]]")]

theorem trees_distinct : forall left, left ∈ trees -> forall right, right ∈ trees -> left.2 = right.2 ->
    left.1 = right.1 := by
  decide +kernel

def platform : Platform := Platform.ofJson trees trees_distinct []

theorem broken_key_short : [(0x61 : UInt8), 0x0A, 0x62].length ≤ maxKeyBytes := by decide

theorem plain_key_short : [(0x63 : UInt8)].length ≤ maxKeyBytes := by decide

theorem broken_value_short : [(0x3D : UInt8), 0x0D].length ≤ maxValueBytes := by decide

def entries : List ListEntry :=
  [⟨⟨[0x61, 0x0A, 0x62], broken_key_short⟩, some ⟨[0x3D, 0x0D], .utf8, broken_value_short⟩⟩,
    ⟨⟨[0x63], plain_key_short⟩, some (CounterValue.storedInt 1)⟩]

def rows : List Json := [.arr [.str "a\nb", .str "=\r"], .arr [.str "c", .posInt 1]]

theorem rendered : entries.mapM (renderJsonRow platform true) = .ok rows := by
  decide +kernel

theorem renders (row : ListEntry) (member : row ∈ entries) :
    Exists fun value => row.value = some value ∧ value.Renders platform := by
  rcases List.mem_pair.mp member with rfl | rfl
  · exact ⟨_, rfl, .str "=\r", by decide +kernel⟩
  · exact ⟨_, rfl, .posInt 1, by decide +kernel⟩

theorem oneLine : platform.json.OneLine := by
  intro tree bytes written
  rcases Option.map_eq_some_iff.mp written with ⟨row, found, rfl⟩
  have free : forall row, row ∈ trees -> 0x0A ∉ row.2 := by decide +kernel
  exact free row (List.mem_of_find?_eq_some found)

theorem writes : platform.json.Writes rows := by
  constructor
  · exact Option.isSome_iff_exists.mp (by decide +kernel)
  · intro row member
    rcases List.mem_pair.mp member with rfl | rfl
    · exact Option.isSome_iff_exists.mp (by decide +kernel)
    · exact Option.isSome_iff_exists.mp (by decide +kernel)

end LineBreaks

open LineBreaks in
/-- A key and a value with line breaks in them stay on one line. -/
theorem line_breaks_listed :
    (Exists fun text => renderListText true entries = .ok text ∧
      text.splitOn 0x0A = [Bytes.utf8 "a\\nb==\\r", Bytes.utf8 "c=1"]) ∧
    Exists fun body => Exists fun lines => renderListJsonl platform true entries = .ok body ∧
      body.splitOn 0x0A = lines ++ [[]] ∧ lines.map platform.json.fromSlice = rows.map some := by
  have listing := listings_show_the_rows platform true entries (by decide) (fun _ => renders) oneLine
    (fun made same => by
      rw [rendered] at same
      cases same
      exact writes)
    platform.json.fromSlice (SerdeJson.readBy_ofTable trees_distinct)
  rcases listing with ⟨⟨text, made, split, _⟩, json⟩
  rcases json with ⟨_, document, body, lines, values, same, _, whole, ended, parts, _, _, accepted, each⟩
  refine ⟨⟨text, made, split.trans (by decide +kernel)⟩, body, lines, ended, parts, ?_⟩
  rw [rendered] at same
  cases same
  have read : platform.json.fromSlice document = some (.arr rows) := SerdeJson.fromSlice_ofTable trees_distinct whole
  rw [read] at accepted
  cases accepted
  exact each

end Keydock
