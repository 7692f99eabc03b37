import Keydock.Fjall.Indexed

/-!
# Sweeps with failing storage calls

Every storage call of a sweep may fail: reading a row of the index, removing
the row, reading the entry it names and removing that entry.  A call that fails
changes nothing, and the sweep goes on with the next row.

An iteration of the sweep handles one row, and no row occurs twice, so a row
and a kind of call name at most one call of the run.  A choice of failures is a
function of the two.

The row is removed before the entry is read and removed.  When one of the later
calls fails, an entry that has expired stays without its row, and no later
sweep finds it.
-/

namespace Keydock

open Effect

/-- The storage calls of one iteration. -/
inductive SweepCall
  | readRow
  | removeRow
  | getEntry
  | removeEntry
  deriving DecidableEq, Repr

/-- Which calls fail, by the row of their iteration. -/
abbrev Faults := Bytes -> SweepCall -> Option FjallError

namespace Faults

/-- The row as the iteration yields it. -/
def read (faults : Faults) (row : Bytes × Bytes) : Row :=
  match faults row.1 .readRow with
  | none => .ok row
  | some error => .error error

/-- The keyspaces with failures.  Beside the store stands the row of the
current iteration, which is the one whose removal was last tried. -/
def storage (faults : Faults) : Semantics keyspaceOps (Store × Bytes) where
  exec
    | .iter space, (store, current) => ((store.space space).iter.map faults.read, store, current)
    | .write (.remove .expiry row), (store, _) =>
        match faults row .removeRow with
        | some error => (.error error, store, row)
        | none => (.ok (), (BatchWrite.remove .expiry row).apply store, row)
    | .get space key, (store, current) =>
        match faults current .getEntry with
        | some error => (.error error, store, current)
        | none => (.ok (store.space space)[key]?, store, current)
    | .write (.remove .data key), (store, current) =>
        match faults current .removeEntry with
        | some error => (.error error, store, current)
        | none => (.ok (), (BatchWrite.remove .data key).apply store, current)
    | op, (store, current) => ((Keydock.storage.exec op store).1, (Keydock.storage.exec op store).2, current)

/-- One sweep in which the chosen calls fail. -/
def sweep (faults : Faults) (store : Store) (now : OffsetDateTime) : Store :=
  (faults.storage.run (sweepKeyspace now) (store, [])).2.1

/-- No call fails. -/
def never : Faults := fun _ _ => none

theorem sweep_never (store : Store) (now : OffsetDateTime) : never.sweep store now = store.sweep now := by
  have same : forall op state, (never.storage.exec op state).1 = (Keydock.storage.exec op state.1).1 ∧
      (never.storage.exec op state).2.1 = (Keydock.storage.exec op state.1).2 := by
    rintro op ⟨store, current⟩
    cases op with
    | write write => rcases write with _ | ⟨space, key⟩ <;> first | exact ⟨rfl, rfl⟩ | cases space <;> exact ⟨rfl, rfl⟩
    | get _ _ | containsKey _ _ | commit _ | iter _ | scan _ _ => exact ⟨rfl, rfl⟩
  exact (never.storage.run_view Prod.fst (fun op state => (same op state).1) (fun op state => (same op state).2)
    (sweepKeyspace now) (store, [])).2

/-! ## One iteration -/

/-- The iteration of this row removes it from the index. -/
def unlists (faults : Faults) (row : Bytes) : Bool :=
  (parseExpiryIndexKey row).isSome && (faults row .readRow).isNone && (faults row .removeRow).isNone

/-- The iteration of this row performs all of its calls. -/
def clears (faults : Faults) (row : Bytes) : Bool :=
  faults.unlists row && (faults row .getEntry).isNone && (faults row .removeEntry).isNone

theorem clears_eq (faults : Faults) (row : Bytes) : faults.clears row =
    (faults.unlists row && !((faults row .getEntry).isSome || (faults row .removeEntry).isSome)) := by
  unfold clears
  cases faults row .getEntry <;> cases faults row .removeEntry <;> simp

/-- What the locked part of the loop does to the store. -/
def sweepRow (faults : Faults) (store : Store) (nowTs expiresUnix : Int64) (row storageKey : Bytes) : Store :=
  if (faults row .removeRow).isSome then store
  else if (faults row .getEntry).isSome || (faults row .removeEntry).isSome then
    { store with expiry := store.expiry.erase row }
  else store.sweepRow nowTs expiresUnix row storageKey

section Iteration

variable (faults : Faults) (store : Store) (current : Bytes)

theorem run_removeRow (row : Bytes) :
    faults.storage.run (Engine.write (.remove .expiry row)) (store, current) =
      ((faults row .removeRow).elim (.ok ()) .error,
        if (faults row .removeRow).isSome then store else { store with expiry := store.expiry.erase row }, row) := by
  change faults.storage.exec (.write (.remove .expiry row)) (store, current) = _
  simp only [storage]
  cases faults row .removeRow <;> rfl

theorem run_getEntry (storageKey : Bytes) :
    faults.storage.run (Engine.get .data storageKey) (store, current) =
      ((faults current .getEntry).elim (.ok store.data[storageKey]?) .error, store, current) := by
  change faults.storage.exec (.get .data storageKey) (store, current) = _
  simp only [storage]
  cases faults current .getEntry <;> rfl

theorem run_removeEntry (storageKey : Bytes) :
    faults.storage.run (Engine.write (.remove .data storageKey)) (store, current) =
      ((faults current .removeEntry).elim (.ok ()) .error,
        if (faults current .removeEntry).isSome then store else store.erase storageKey, current) := by
  change faults.storage.exec (.write (.remove .data storageKey)) (store, current) = _
  simp only [storage]
  cases faults current .removeEntry <;> rfl

theorem run_sweepLocked (nowTs expiresUnix : Int64) (row storageKey : Bytes) :
    faults.storage.run (sweepLocked nowTs expiresUnix row storageKey) (store, current) =
      ((), faults.sweepRow store nowTs expiresUnix row storageKey, row) := by
  simp only [sweepLocked, Semantics.run_bind, run_removeRow, sweepRow, Store.sweepRow]
  cases faults row .removeRow with
  | some error => rfl
  | none =>
      simp only [Option.elim, Option.isSome_none, Bool.false_eq_true, if_false, Semantics.run_bind, run_getEntry]
      cases faults row .getEntry with
      | some error => rfl
      | none =>
          simp only [Option.isSome_none, Bool.false_or]
          cases store.data[storageKey]? with
          | none => cases faults row .removeEntry <;> rfl
          | some bytes =>
              simp only
              cases decoded : decodeEntryExpiresUnix bytes with
              | error error =>
                  simp only [reduceCtorEq, false_and, if_false]
                  cases faults row .removeEntry <;> rfl
              | ok expiry =>
                  cases expiry with
                  | none =>
                      simp only [Except.ok.injEq, reduceCtorEq, false_and, if_false]
                      cases faults row .removeEntry <;> rfl
                  | some actual =>
                      simp only [Except.ok.injEq, Option.some.injEq]
                      by_cases future : nowTs < actual
                      · have kept : ¬ (actual = expiresUnix ∧ expiresUnix ≤ nowTs) :=
                          fun both => Int64.not_lt.mpr (both.1 ▸ both.2) future
                        simp only [if_pos future, if_neg kept]
                        cases faults row .removeEntry <;> rfl
                      · by_cases same : actual = expiresUnix
                        · have due : actual = expiresUnix ∧ expiresUnix ≤ nowTs := ⟨same, same ▸ Int64.not_lt.mp future⟩
                          have kept : ¬ actual ≠ expiresUnix := fun different => different same
                          simp only [if_neg future, if_neg kept, if_pos due, Semantics.run_bind, run_removeEntry]
                          rfl
                        · have kept : ¬ (actual = expiresUnix ∧ expiresUnix ≤ nowTs) := fun both => same both.1
                          have other : actual ≠ expiresUnix := same
                          simp only [if_neg future, if_pos other, if_neg kept]
                          cases faults row .removeEntry <;> rfl

end Iteration

end Faults

/-! ## The loop -/

/-- What a sweep leaves of a store when it clears some rows and removes some
rows from the index. -/
structure FaultyOutcome (nowTs : Int64) (cleared unlisted : List Bytes) (store after : Store) : Prop where
  data : forall storageKey bytes, after.data[storageKey]? = some bytes ↔
    store.data[storageKey]? = some bytes ∧ ¬ Swept nowTs cleared storageKey bytes
  expiry : forall row value, after.expiry[row]? = some value ↔
    store.expiry[row]? = some value ∧ ¬ Passed nowTs unlisted row

namespace FaultyOutcome

variable {nowTs : Int64} {store middle after : Store}

theorem trans {firstCleared firstUnlisted secondCleared secondUnlisted : List Bytes}
    (earlier : FaultyOutcome nowTs firstCleared firstUnlisted store middle)
    (later : FaultyOutcome nowTs secondCleared secondUnlisted middle after) :
    FaultyOutcome nowTs (firstCleared ++ secondCleared) (firstUnlisted ++ secondUnlisted) store after where
  data := by
    intro storageKey bytes
    rw [later.data, earlier.data, swept_append, not_or, and_assoc]
  expiry := by
    intro row value
    rw [later.expiry, earlier.expiry, passed_append, not_or, and_assoc]

/-- Rows in the future change nothing. -/
theorem refl {cleared unlisted : List Bytes}
    (clearedFuture : forall expiresUnix storageKey, expiryIndexKey expiresUnix storageKey ∈ cleared ->
      nowTs < expiresUnix)
    (unlistedFuture : forall expiresUnix storageKey, expiryIndexKey expiresUnix storageKey ∈ unlisted ->
      nowTs < expiresUnix) : FaultyOutcome nowTs cleared unlisted store store where
  data := fun storageKey bytes => (and_iff_left (not_swept_of_future clearedFuture storageKey bytes)).symm
  expiry := fun row _ => (and_iff_left (not_passed_of_future unlistedFuture row)).symm

/-- A row that is removed while its entry stays. -/
theorem unlist (expiresUnix : Int64) (storageKey : Bytes) (due : expiresUnix ≤ nowTs) :
    FaultyOutcome nowTs [] [expiryIndexKey expiresUnix storageKey] store
      { store with expiry := store.expiry.erase (expiryIndexKey expiresUnix storageKey) } where
  data := by
    intro other bytes
    refine (and_iff_left ?_).symm
    rintro ⟨_, _, _, member⟩
    cases member
  expiry := by
    intro row value
    have passed : Passed nowTs [expiryIndexKey expiresUnix storageKey] row ↔
        expiryIndexKey expiresUnix storageKey = row := by
      constructor
      · rintro ⟨member, _⟩
        exact (List.mem_singleton.mp member).symm
      · rintro rfl
        exact ⟨List.mem_singleton.mpr rfl, expiresUnix, storageKey, rfl, due⟩
    rw [passed]
    simp only [Keyspace.get_remove]
    split
    next same => simp [same]
    next different => simp [different]

end FaultyOutcome

namespace Faults

theorem sweepRow_outcome (faults : Faults) (store : Store) {nowTs expiresUnix : Int64} {row storageKey : Bytes}
    (readable : faults row .readRow = none) (parsed : parseExpiryIndexKey row = some (expiresUnix, storageKey))
    (due : expiresUnix ≤ nowTs) :
    FaultyOutcome nowTs ([row].filter faults.clears) ([row].filter faults.unlists) store
      (faults.sweepRow store nowTs expiresUnix row storageKey) := by
  have shape := (expiryIndexKey_of_parse parsed).1
  cases removal : faults row .removeRow with
  | some error =>
      have kept : faults.sweepRow store nowTs expiresUnix row storageKey = store := by
        simp only [sweepRow, removal, Option.isSome_some, if_true]
      have unlisted : faults.unlists row = false := by
        simp only [unlists, removal, Option.isNone_some, Bool.and_false]
      have cleared : faults.clears row = false := by simp only [clears, unlisted, Bool.false_and]
      simp only [kept, List.filter_cons, unlisted, cleared, Bool.false_eq_true, if_false, List.filter_nil]
      exact .refl (fun _ _ member => by cases member) (fun _ _ member => by cases member)
  | none =>
      have unlisted : faults.unlists row = true := by
        simp only [unlists, removal, readable, parsed, Option.isSome_some, Option.isNone_none, Bool.and_true]
      by_cases failed : ((faults row .getEntry).isSome || (faults row .removeEntry).isSome) = true
      · have cleared : faults.clears row = false := by rw [clears_eq, unlisted, failed]; rfl
        simp only [sweepRow, removal, failed, List.filter_cons, unlisted, cleared, Option.isSome_none,
          Bool.false_eq_true, if_false, if_true, List.filter_nil]
        rw [shape]
        exact .unlist expiresUnix storageKey due
      · have cleared : faults.clears row = true := by
          rw [clears_eq, unlisted, Bool.eq_false_iff.mpr failed]; rfl
        simp only [sweepRow, removal, failed, List.filter_cons, unlisted, cleared, Option.isSome_none,
          Bool.false_eq_true, if_false, if_true, List.filter_nil]
        rw [shape]
        have outcome := Keydock.sweepRow_outcome nowTs expiresUnix storageKey due store
        exact ⟨outcome.data, outcome.expiry⟩

/-- The loop over ascending rows, whatever their shape. -/
theorem sweepRows_outcome (faults : Faults) (nowTs : Int64) (rows : List (Bytes × Bytes))
    (ascending : rows.Pairwise (fun left right => compare left.1 right.1 = .lt)) (store : Store) (current : Bytes) :
    FaultyOutcome nowTs ((rows.map Prod.fst).filter faults.clears) ((rows.map Prod.fst).filter faults.unlists) store
      (faults.storage.run (sweepRows nowTs (rows.map faults.read)) (store, current)).2.1 := by
  induction rows generalizing store current with
  | nil => exact .refl (fun _ _ member => by cases member) (fun _ _ member => by cases member)
  | cons row rest ih =>
      rcases row with ⟨row, value⟩
      have order := List.pairwise_cons.mp ascending
      have later := ih order.2
      have skipped : faults.unlists row = false ->
          (forall current, (faults.storage.run (sweepRows nowTs (((row, value) :: rest).map faults.read))
            (store, current)).2.1 = (faults.storage.run (sweepRows nowTs (rest.map faults.read)) (store, current)).2.1) ->
          FaultyOutcome nowTs ((((row, value) :: rest).map Prod.fst).filter faults.clears)
            ((((row, value) :: rest).map Prod.fst).filter faults.unlists) store
            (faults.storage.run (sweepRows nowTs (((row, value) :: rest).map faults.read)) (store, current)).2.1 := by
        intro unlisted same
        have cleared : faults.clears row = false := by simp only [clears, unlisted, Bool.false_and]
        rw [same]
        simp only [List.map_cons, List.filter_cons, unlisted, cleared, Bool.false_eq_true, if_false]
        exact later store current
      cases readable : faults row .readRow with
      | some error =>
          refine skipped (by simp only [unlists, readable, Option.isNone_some, Bool.and_false, Bool.false_and]) ?_
          intro current
          simp only [List.map_cons, read, readable, sweepRows, sweepEntry, Program.done_bind]
      | none =>
          cases parsed : parseExpiryIndexKey row with
          | none =>
              refine skipped (by simp only [unlists, parsed, Option.isSome_none, Bool.false_and]) ?_
              intro current
              simp only [List.map_cons, read, readable, sweepRows, sweepEntry, parsed, Program.done_bind]
          | some parts =>
              rcases parts with ⟨expiresUnix, storageKey⟩
              have shape := (expiryIndexKey_of_parse parsed).1
              by_cases future : nowTs < expiresUnix
              · have stopped : (faults.storage.run (sweepRows nowTs (((row, value) :: rest).map faults.read))
                    (store, current)).2.1 = store := by
                  simp only [List.map_cons, read, readable, sweepRows, sweepEntry, parsed, if_pos future,
                    Program.done_bind, Program.pure_eq, Semantics.run_done]
                have every : forall laterUnix laterKey,
                    expiryIndexKey laterUnix laterKey ∈ ((row, value) :: rest).map Prod.fst -> nowTs < laterUnix := by
                  intro laterUnix laterKey member
                  rcases List.mem_cons.mp member with same | listed
                  · rw [(expiryIndexKey_injective (same.trans shape)).1]
                    exact future
                  · rcases List.mem_map.mp listed with ⟨laterRow, inside, same⟩
                    have less := order.1 laterRow inside
                    rw [same, shape] at less
                    exact future_of_ascending less future
                rw [stopped]
                exact .refl (fun _ _ member => every _ _ (List.mem_of_mem_filter member))
                  (fun _ _ member => every _ _ (List.mem_of_mem_filter member))
              · have continued : (faults.storage.run (sweepRows nowTs (((row, value) :: rest).map faults.read))
                    (store, current)).2.1 = (faults.storage.run (sweepRows nowTs (rest.map faults.read))
                      (faults.sweepRow store nowTs expiresUnix row storageKey, row)).2.1 := by
                  simp only [List.map_cons, read, readable, sweepRows, sweepEntry, parsed, if_neg future, bind_assoc,
                    Semantics.run_bind, run_sweepLocked, Program.pure_eq, Semantics.run_done]
                rw [continued]
                have here := faults.sweepRow_outcome store readable parsed (Int64.not_lt.mp future)
                have both := here.trans (later (faults.sweepRow store nowTs expiresUnix row storageKey) row)
                rw [← List.filter_append, ← List.filter_append] at both
                exact both

theorem sweep_outcome (faults : Faults) (store : Store) (now : OffsetDateTime) :
    FaultyOutcome now.unixTimestamp ((store.expiry.iter.map Prod.fst).filter faults.clears)
      ((store.expiry.iter.map Prod.fst).filter faults.unlists) store (faults.sweep store now) :=
  faults.sweepRows_outcome now.unixTimestamp store.expiry.iter store.expiry.iter_ascending store []

end Faults

/-! ## What stays without its row -/

/-- Every entry that expires has its row in the index. -/
def Covered (store : Store) : Prop :=
  forall (storageKey bytes : Bytes) (expiresUnix : Int64), store.data[storageKey]? = some bytes ->
    decodeEntryExpiresUnix bytes = .ok (some expiresUnix) ->
    store.expiry.contains (expiryIndexKey expiresUnix storageKey) = true

theorem Indexed.covered {store : Store} (inv : Indexed store) : Covered store := by
  intro storageKey bytes expiresUnix present decoded
  rw [Keyspace.contains_eq_isSome]
  exact inv.row_of_entry present decoded

theorem Covered.listed {store : Store} (covered : Covered store) {storageKey bytes : Bytes} {expiresUnix : Int64}
    (present : store.data[storageKey]? = some bytes)
    (decoded : decodeEntryExpiresUnix bytes = .ok (some expiresUnix)) :
    expiryIndexKey expiresUnix storageKey ∈ store.expiry.iter.map Prod.fst := by
  have listed := covered storageKey bytes expiresUnix present decoded
  rw [Keyspace.contains_eq_isSome] at listed
  rcases Option.isSome_iff_exists.mp listed with ⟨value, row⟩
  exact List.mem_map.mpr ⟨(_, value), store.expiry.mem_iter.mpr row, rfl⟩

/-- A sweep without failures of a covered store removes every entry that has
expired.  No storage key is empty. -/
theorem Covered.sweep {store : Store} (covered : Covered store) (now : OffsetDateTime) {storageKey bytes : Bytes}
    {expiresUnix : Int64} (nonempty : storageKey ≠ []) (present : store.data[storageKey]? = some bytes)
    (decoded : decodeEntryExpiresUnix bytes = .ok (some expiresUnix)) (due : expiresUnix ≤ now.unixTimestamp) :
    (store.sweep now).data[storageKey]? = none := by
  rw [← Faults.sweep_never]
  cases left : (Faults.never.sweep store now).data[storageKey]? with
  | none => rfl
  | some kept =>
      rcases ((Faults.never.sweep_outcome store now).data storageKey kept).mp left with ⟨same, alive⟩
      rw [present] at same
      cases same
      refine absurd ⟨expiresUnix, decoded, due, List.mem_filter.mpr ⟨covered.listed present decoded, ?_⟩⟩ alive
      simp only [Faults.clears, Faults.unlists, Faults.never, parseExpiryIndexKey_expiryIndexKey expiresUnix nonempty,
        Option.isSome_some, Option.isNone_none, Bool.and_true]

namespace Faults

/-- When the row of an entry that has expired is read and removed, the entry is
read and removed as well. -/
def Completes (faults : Faults) (store : Store) (now : OffsetDateTime) : Prop :=
  forall (storageKey bytes : Bytes) (expiresUnix : Int64), storageKey ≠ [] ->
    store.data[storageKey]? = some bytes -> decodeEntryExpiresUnix bytes = .ok (some expiresUnix) ->
    expiresUnix ≤ now.unixTimestamp ->
    faults (expiryIndexKey expiresUnix storageKey) .readRow = none ->
    faults (expiryIndexKey expiresUnix storageKey) .removeRow = none ->
    faults (expiryIndexKey expiresUnix storageKey) .getEntry = none ∧
      faults (expiryIndexKey expiresUnix storageKey) .removeEntry = none

theorem covered_sweep (faults : Faults) {store : Store} (covered : Covered store) {now : OffsetDateTime}
    (completes : faults.Completes store now) : Covered (faults.sweep store now) := by
  intro storageKey bytes expiresUnix left decoded
  have outcome := faults.sweep_outcome store now
  rcases (outcome.data storageKey bytes).mp left with ⟨present, alive⟩
  have listed := covered storageKey bytes expiresUnix present decoded
  rw [Keyspace.contains_eq_isSome] at listed ⊢
  rcases Option.isSome_iff_exists.mp listed with ⟨value, row⟩
  refine Option.isSome_iff_exists.mpr ⟨value, (outcome.expiry _ _).mpr ⟨row, ?_⟩⟩
  -- Were the row removed, the entry would have been removed after it.
  rintro ⟨member, dueUnix, dueKey, same, due⟩
  rw [← (expiryIndexKey_injective same).1] at due
  have unlisted := (List.mem_filter.mp member).2
  simp only [unlists, Bool.and_eq_true, Option.isNone_iff_eq_none] at unlisted
  rcases unlisted with ⟨⟨parsed, readable⟩, removable⟩
  have nonempty : storageKey ≠ [] := by
    rcases Option.isSome_iff_exists.mp parsed with ⟨⟨parsedUnix, parsedKey⟩, parts⟩
    rw [(expiryIndexKey_injective (expiryIndexKey_of_parse parts).1).2]
    exact (expiryIndexKey_of_parse parts).2
  rcases completes storageKey bytes expiresUnix nonempty present decoded due readable removable with ⟨gotten, removed⟩
  refine alive ⟨expiresUnix, decoded, due, List.mem_filter.mpr ⟨(List.mem_filter.mp member).1, ?_⟩⟩
  simp only [clears, unlists, parsed, readable, removable, gotten, removed, Option.isNone_none, Bool.and_true]

theorem completes_of_covered (faults : Faults) {store : Store} (covered : Covered store) {now : OffsetDateTime}
    (still : Covered (faults.sweep store now)) : faults.Completes store now := by
  intro storageKey bytes expiresUnix nonempty present decoded due readable removable
  have outcome := faults.sweep_outcome store now
  have unlisted : faults.unlists (expiryIndexKey expiresUnix storageKey) = true := by
    simp only [unlists, parseExpiryIndexKey_expiryIndexKey expiresUnix nonempty, readable, removable,
      Option.isSome_some, Option.isNone_none, Bool.and_true]
  by_contra incomplete
  have kept : (faults.sweep store now).data[storageKey]? = some bytes := by
    refine (outcome.data storageKey bytes).mpr ⟨present, ?_⟩
    rintro ⟨actual, again, _, member⟩
    rw [decoded] at again
    cases again
    have cleared := (List.mem_filter.mp member).2
    simp only [clears, Bool.and_eq_true, Option.isNone_iff_eq_none] at cleared
    exact incomplete ⟨cleared.1.2, cleared.2⟩
  have row := still storageKey bytes expiresUnix kept decoded
  rw [Keyspace.contains_eq_isSome] at row
  rcases Option.isSome_iff_exists.mp row with ⟨value, found⟩
  exact ((outcome.expiry _ _).mp found).2 ⟨List.mem_filter.mpr ⟨covered.listed present decoded, unlisted⟩,
    expiresUnix, storageKey, rfl, due⟩

end Faults

/-- After a sweep with failures every entry that is left and expires has its
row, so that a later sweep removes it in time, exactly when no reading or
removal of an expired entry fails after its row was removed. -/
theorem failing_sweep_loses_nothing_iff (store : Store) (covered : Covered store) (now : OffsetDateTime)
    (faults : Faults) :
    (Covered (faults.sweep store now) ∧
      forall (later : OffsetDateTime) (storageKey bytes : Bytes) (expiresUnix : Int64), storageKey ≠ [] ->
        (faults.sweep store now).data[storageKey]? = some bytes ->
        decodeEntryExpiresUnix bytes = .ok (some expiresUnix) -> expiresUnix ≤ later.unixTimestamp ->
        ((faults.sweep store now).sweep later).data[storageKey]? = none) ↔
    faults.Completes store now := by
  constructor
  · rintro ⟨still, _⟩
    exact faults.completes_of_covered covered still
  · intro completes
    have still := faults.covered_sweep covered completes
    refine ⟨still, ?_⟩
    intro later storageKey bytes expiresUnix nonempty present decoded due
    exact still.sweep later nonempty present decoded due

namespace LostRow

def bucket : BucketId := ⟨"b"⟩

def key : Key := ⟨[0x6B], by decide⟩

def storageKey : Bytes := dataStorageKey bucket key

/-- An entry that expires at the epoch. -/
def store : Store :=
  Store.empty.put storageKey ⟨[0x76], .raw, by decide⟩ (some OffsetDateTime.unixEpoch)

theorem covered : Covered store :=
  (Indexed.empty.put bucket key ⟨[0x76], .raw, by decide⟩ (some OffsetDateTime.unixEpoch)).covered

/-- One kind of call fails in every iteration. -/
def failing (failed : SweepCall) : Faults :=
  fun _ call => if call = failed then some (.fjall "i/o error") else none

end LostRow

open LostRow in
/-- When only the removal of rows fails, nothing is lost. -/
theorem failed_row_removal_loses_nothing :
    Covered ((failing .removeRow).sweep store OffsetDateTime.unixEpoch) ∧
      ((failing .removeRow).sweep store OffsetDateTime.unixEpoch).data.contains storageKey = true := by
  constructor
  · refine ((failing_sweep_loses_nothing_iff store covered OffsetDateTime.unixEpoch (failing .removeRow)).mpr ?_).1
    intro _ _ _ _ _ _ _ _ removable
    cases removable
  · decide +kernel

open LostRow in
/-- When the removal of the expired entry fails, the entry stays, its row does
not, and no later sweep removes the entry. -/
theorem failed_removal_loses_row :
    Covered store ∧ ¬ Covered ((failing .removeEntry).sweep store OffsetDateTime.unixEpoch) ∧
      forall later, (((failing .removeEntry).sweep store OffsetDateTime.unixEpoch).sweep later).data.contains
        storageKey = true := by
  have kept : ((failing .removeEntry).sweep store OffsetDateTime.unixEpoch).data[storageKey]? =
      some (entryBytes ⟨[0x76], .raw, by decide⟩ (some OffsetDateTime.unixEpoch)) := by decide +kernel
  have unlisted : ((failing .removeEntry).sweep store OffsetDateTime.unixEpoch).expiry.iter = [] := by decide +kernel
  refine ⟨covered, ?_, ?_⟩
  · intro still
    have row := still.listed kept (by rw [decodeEntryExpiresUnix_entryBytes]; rfl)
    rw [unlisted] at row
    cases row
  · intro later
    have same : ((failing .removeEntry).sweep store OffsetDateTime.unixEpoch).sweep later =
        (failing .removeEntry).sweep store OffsetDateTime.unixEpoch := by
      simp only [Store.sweep, sweepKeyspace, Semantics.run_bind, Engine.run_iter, Store.space, unlisted,
        List.map_nil, sweepRows, Semantics.run_done]
    rw [same, Keyspace.contains_eq_isSome, kept]
    rfl

end Keydock
