import Keydock.Fjall.Repository

/-!
# The expiry sweep

The sweep walks the expiry index in ascending order, stops at the first row
in the future, removes every row it passes and, when the entry still expires
at exactly the second the row names, the entry.

Writers never remove index rows, so the index holds stale rows of entries
that were overwritten, deleted or given another expiry.  The invariant
`Indexed` is what makes the sweep exact in spite of them: every entry that
expires has its own row.
-/

namespace Keydock

open Effect

/-- How the loop goes on after a row. -/
inductive Flow
  | next
  | stop
  deriving DecidableEq, Repr

/-- The body of the loop once the lock of the storage key is held. -/
def sweepLocked (nowTs expiresUnix : Int64) (expiryKey storageKey : Bytes) : Program keyspaceOps Unit := do
  match <- Engine.write (.remove .expiry expiryKey) with
  | .error _ => return ()
  | .ok _ =>
      match <- Engine.get .data storageKey with
      | .error _ | .ok none => return ()
      | .ok (some bytes) =>
          match decodeEntryExpiresUnix bytes with
          | .error _ | .ok none => return ()
          | .ok (some actualUnix) =>
              if nowTs < actualUnix then return ()
              else if actualUnix ≠ expiresUnix then return ()
              else
                let _ <- Engine.write (.remove .data storageKey)
                return ()

/-- The body of the loop for one row of the index. -/
def sweepEntry (nowTs : Int64) : Row -> Program keyspaceOps Flow
  | .error _ => .done .next
  | .ok (expiryKey, _) =>
      match parseExpiryIndexKey expiryKey with
      | none => .done .next
      | some (expiresUnix, storageKey) =>
          if nowTs < expiresUnix then .done .stop
          else do
            sweepLocked nowTs expiresUnix expiryKey storageKey
            return .next

def sweepRows (nowTs : Int64) : List Row -> Program keyspaceOps Unit
  | [] => .done ()
  | row :: rest => do
      match <- sweepEntry nowTs row with
      | .stop => return ()
      | .next => sweepRows nowTs rest

def sweepKeyspace (now : OffsetDateTime) : Program keyspaceOps Unit := do
  let rows <- Engine.iter .expiry
  sweepRows now.unixTimestamp rows

namespace Store

/-- One sweep, when no backend call fails. -/
def sweep (store : Store) (now : OffsetDateTime) : Store :=
  (storage.run (sweepKeyspace now) store).2

/-- What the locked part of the loop does to the store. -/
def sweepRow (store : Store) (nowTs expiresUnix : Int64) (expiryKey storageKey : Bytes) : Store :=
  let unlisted : Store := { store with expiry := store.expiry.erase expiryKey }
  match store.data[storageKey]? with
  | none => unlisted
  | some bytes =>
      if decodeEntryExpiresUnix bytes = .ok (some expiresUnix) ∧ expiresUnix ≤ nowTs then
        unlisted.erase storageKey
      else unlisted

end Store

theorem run_sweepLocked (nowTs expiresUnix : Int64) (expiryKey storageKey : Bytes) (store : Store) :
    storage.run (sweepLocked nowTs expiresUnix expiryKey storageKey) store =
      ((), store.sweepRow nowTs expiresUnix expiryKey storageKey) := by
  simp only [sweepLocked, Semantics.run_bind, Engine.run_write, Engine.run_get, BatchWrite.apply,
    Store.update, Store.space, Store.sweepRow]
  cases store.data[storageKey]? with
  | none => rfl
  | some bytes =>
      simp only
      cases decoded : decodeEntryExpiresUnix bytes with
      | error error => rw [if_neg (fun both => by cases both.1)]; rfl
      | ok expiry =>
          cases expiry with
          | none => rw [if_neg (fun both => by cases both.1)]; rfl
          | some actual =>
              simp only [Except.ok.injEq, Option.some.injEq]
              by_cases future : nowTs < actual
              · have kept : ¬ (actual = expiresUnix ∧ expiresUnix ≤ nowTs) :=
                  fun both => Int64.not_lt.mpr (both.1 ▸ both.2) future
                rw [if_pos future, if_neg kept]
                rfl
              · by_cases same : actual = expiresUnix
                · rw [if_neg future, if_neg (fun different => different same),
                    if_pos ⟨same, same ▸ Int64.not_lt.mp future⟩]
                  rfl
                · rw [if_neg future, if_pos same, if_neg (fun both => same both.1)]
                  rfl

/-! ## The loop -/

/-- Index keys determine their expiry and storage key. -/
theorem expiryIndexKey_injective {left right : Int64} {leftKey rightKey : Bytes}
    (same : expiryIndexKey left leftKey = expiryIndexKey right rightKey) :
    left = right ∧ leftKey = rightKey := by
  have order := compare_expiryIndexKey left right leftKey rightKey
  rw [same, Std.compare_self] at order
  rcases Ordering.then_eq_eq.mp order.symm with ⟨first, second⟩
  exact ⟨Int64.toInt_inj.mp (Std.compare_eq_iff_eq.mp first), Std.compare_eq_iff_eq.mp second⟩

/-- A sweep over the rows `keys` removes this entry: it has expired and its
own row is among them. -/
def Swept (nowTs : Int64) (keys : List Bytes) (storageKey bytes : Bytes) : Prop :=
  Exists fun expiresUnix => decodeEntryExpiresUnix bytes = .ok (some expiresUnix) ∧
    expiresUnix ≤ nowTs ∧ expiryIndexKey expiresUnix storageKey ∈ keys

/-- A sweep over the rows `keys` removes this row: it is not in the future. -/
def Passed (nowTs : Int64) (keys : List Bytes) (row : Bytes) : Prop :=
  row ∈ keys ∧ Exists fun expiresUnix => Exists fun storageKey =>
    row = expiryIndexKey expiresUnix storageKey ∧ expiresUnix ≤ nowTs

theorem swept_append {nowTs : Int64} {first second : List Bytes} {storageKey bytes : Bytes} :
    Swept nowTs (first ++ second) storageKey bytes ↔
      Swept nowTs first storageKey bytes ∨ Swept nowTs second storageKey bytes := by
  simp only [Swept, List.mem_append, and_or_left, exists_or]

theorem passed_append {nowTs : Int64} {first second : List Bytes} {row : Bytes} :
    Passed nowTs (first ++ second) row ↔ Passed nowTs first row ∨ Passed nowTs second row := by
  simp only [Passed, List.mem_append, or_and_right]

/-- Rows that are all in the future are not passed, and nothing is swept for
them. -/
theorem not_swept_of_future {nowTs : Int64} {keys : List Bytes}
    (future : forall expiresUnix storageKey, expiryIndexKey expiresUnix storageKey ∈ keys -> nowTs < expiresUnix)
    (storageKey bytes : Bytes) : ¬ Swept nowTs keys storageKey bytes := by
  rintro ⟨expiresUnix, _, due, member⟩
  exact Int64.not_lt.mpr due (future expiresUnix storageKey member)

theorem not_passed_of_future {nowTs : Int64} {keys : List Bytes}
    (future : forall expiresUnix storageKey, expiryIndexKey expiresUnix storageKey ∈ keys -> nowTs < expiresUnix)
    (row : Bytes) : ¬ Passed nowTs keys row := by
  rintro ⟨member, expiresUnix, storageKey, rfl, due⟩
  exact Int64.not_lt.mpr due (future expiresUnix storageKey member)

/-- The index is ordered by expiry first. -/
theorem future_of_ascending {nowTs earlier later : Int64} {earlierKey laterKey : Bytes}
    (order : compare (expiryIndexKey earlier earlierKey) (expiryIndexKey later laterKey) = .lt)
    (future : nowTs < earlier) : nowTs < later := by
  rw [compare_expiryIndexKey] at order
  have notMore : earlier.toInt ≤ later.toInt := by
    by_contra more
    rw [Std.compare_eq_gt.mpr (Int.not_le.mp more)] at order
    cases order
  rw [Int64.lt_iff_toInt_lt] at future ⊢
  exact Int.lt_of_lt_of_le future notMore

/-- What a sweep over the rows `keys` leaves of a store. -/
structure SweepOutcome (nowTs : Int64) (keys : List Bytes) (store after : Store) : Prop where
  metadata : after.metadata = store.metadata
  data : forall storageKey bytes, after.data[storageKey]? = some bytes ↔
    store.data[storageKey]? = some bytes ∧ ¬ Swept nowTs keys storageKey bytes
  expiry : forall row value, after.expiry[row]? = some value ↔
    store.expiry[row]? = some value ∧ ¬ Passed nowTs keys row

theorem sweepRow_outcome (nowTs expiresUnix : Int64) (storageKey : Bytes) (due : expiresUnix ≤ nowTs)
    (store : Store) :
    SweepOutcome nowTs [expiryIndexKey expiresUnix storageKey] store
      (store.sweepRow nowTs expiresUnix (expiryIndexKey expiresUnix storageKey) storageKey) := by
  have swept : forall other bytes, Swept nowTs [expiryIndexKey expiresUnix storageKey] other bytes ↔
      other = storageKey ∧ decodeEntryExpiresUnix bytes = .ok (some expiresUnix) := by
    intro other bytes
    constructor
    · rintro ⟨actual, decoded, _, member⟩
      have parts := expiryIndexKey_injective (List.mem_singleton.mp member)
      exact ⟨parts.2, parts.1 ▸ decoded⟩
    · rintro ⟨rfl, decoded⟩
      exact ⟨expiresUnix, decoded, due, List.mem_singleton.mpr rfl⟩
  have passed : forall row, Passed nowTs [expiryIndexKey expiresUnix storageKey] row ↔
      expiryIndexKey expiresUnix storageKey = row := by
    intro row
    constructor
    · rintro ⟨member, _⟩
      exact (List.mem_singleton.mp member).symm
    · rintro rfl
      exact ⟨List.mem_singleton.mpr rfl, expiresUnix, storageKey, rfl, due⟩
  have unlisted : forall (data : Keyspace) row value,
      (Store.mk store.metadata data (store.expiry.erase (expiryIndexKey expiresUnix storageKey))).expiry[row]? =
        some value ↔ store.expiry[row]? = some value ∧ ¬ expiryIndexKey expiresUnix storageKey = row := by
    intro data row value
    simp only [Keyspace.get_remove]
    split
    next same => simp [same]
    next different => simp [different]
  refine ⟨?_, ?_, ?_⟩
  · unfold Store.sweepRow
    split
    · rfl
    · split <;> rfl
  · intro other bytes
    rw [swept]
    unfold Store.sweepRow
    cases found : store.data[storageKey]? with
    | none =>
        simp only
        refine ⟨fun present => ⟨present, ?_⟩, And.left⟩
        rintro ⟨rfl, _⟩
        rw [found] at present
        cases present
    | some old =>
        simp only
        by_cases dead : decodeEntryExpiresUnix old = .ok (some expiresUnix)
        · rw [if_pos ⟨dead, due⟩]
          simp only [Store.erase, Keyspace.get_remove]
          split
          next same =>
            subst same
            rw [found]
            constructor
            · intro impossible
              cases impossible
            · rintro ⟨present, alive⟩
              cases present
              exact False.elim (alive ⟨rfl, dead⟩)
          next different =>
            exact ⟨fun present => ⟨present, fun both => different both.1.symm⟩, And.left⟩
        · rw [if_neg (fun both => dead both.1)]
          refine ⟨fun present => ⟨present, ?_⟩, And.left⟩
          rintro ⟨rfl, decoded⟩
          simp only at present
          rw [found] at present
          cases present
          exact dead decoded
  · intro row value
    rw [passed]
    unfold Store.sweepRow
    split
    · exact unlisted store.data row value
    · split
      · exact unlisted _ row value
      · exact unlisted store.data row value

theorem SweepOutcome.trans {nowTs : Int64} {first second : List Bytes} {store middle after : Store}
    (earlier : SweepOutcome nowTs first store middle) (later : SweepOutcome nowTs second middle after) :
    SweepOutcome nowTs (first ++ second) store after where
  metadata := later.metadata.trans earlier.metadata
  data := by
    intro storageKey bytes
    rw [later.data, earlier.data, swept_append, not_or, and_assoc]
  expiry := by
    intro row value
    rw [later.expiry, earlier.expiry, passed_append, not_or, and_assoc]

/-- Rows in the future change nothing. -/
theorem SweepOutcome.refl {nowTs : Int64} {keys : List Bytes} (store : Store)
    (future : forall expiresUnix storageKey, expiryIndexKey expiresUnix storageKey ∈ keys ->
      nowTs < expiresUnix) : SweepOutcome nowTs keys store store where
  metadata := rfl
  data := fun storageKey bytes => (and_iff_left (not_swept_of_future future storageKey bytes)).symm
  expiry := fun row _ => (and_iff_left (not_passed_of_future future row)).symm

/-- A row of the index as writers make it. -/
def IsIndexKey (row : Bytes) : Prop :=
  Exists fun expiresUnix => Exists fun storageKey =>
    storageKey ≠ [] ∧ row = expiryIndexKey expiresUnix storageKey

/-- The loop over ascending rows.  The early stop loses nothing, because the
rows after one in the future are in the future too. -/
theorem sweepRows_outcome (nowTs : Int64) (rows : List (Bytes × Bytes))
    (shaped : forall row, row ∈ rows -> IsIndexKey row.1)
    (ascending : rows.Pairwise (fun left right => compare left.1 right.1 = .lt)) (store : Store) :
    SweepOutcome nowTs (rows.map Prod.fst) store
      (storage.run (sweepRows nowTs (rows.map .ok)) store).2 := by
  induction rows generalizing store with
  | nil => exact SweepOutcome.refl store (fun _ _ member => by cases member)
  | cons row rest ih =>
      rcases row with ⟨key, value⟩
      rcases shaped (key, value) List.mem_cons_self with ⟨expiresUnix, storageKey, nonempty, equal⟩
      have order := List.pairwise_cons.mp ascending
      change key = expiryIndexKey expiresUnix storageKey at equal
      subst equal
      have parsed := parseExpiryIndexKey_expiryIndexKey expiresUnix nonempty
      by_cases future : nowTs < expiresUnix
      · have stopped : (storage.run (sweepRows nowTs
            (((expiryIndexKey expiresUnix storageKey, value) :: rest).map .ok)) store).2 = store := by
          simp only [List.map_cons, sweepRows, sweepEntry, parsed, if_pos future, Program.done_bind,
            Program.pure_eq, Semantics.run_done]
        rw [stopped]
        apply SweepOutcome.refl
        intro laterUnix laterKey member
        rcases List.mem_cons.mp member with same | later
        · rw [(expiryIndexKey_injective same).1]
          exact future
        · rcases List.mem_map.mp later with ⟨laterRow, listed, same⟩
          have less := order.1 laterRow listed
          rw [same] at less
          exact future_of_ascending less future
      · have continued : (storage.run (sweepRows nowTs
            (((expiryIndexKey expiresUnix storageKey, value) :: rest).map .ok)) store).2 =
            (storage.run (sweepRows nowTs (rest.map .ok))
              (store.sweepRow nowTs expiresUnix (expiryIndexKey expiresUnix storageKey) storageKey)).2 := by
          simp only [List.map_cons, sweepRows, sweepEntry, parsed, if_neg future, bind_assoc,
            Semantics.run_bind, run_sweepLocked, Program.pure_eq, Semantics.run_done]
        rw [continued]
        exact (sweepRow_outcome nowTs expiresUnix storageKey (Int64.not_lt.mp future) store).trans
          (ih (fun later member => shaped later (List.mem_cons_of_mem _ member)) order.2 _)

end Keydock
