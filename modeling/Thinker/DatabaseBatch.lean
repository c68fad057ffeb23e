import Thinker.Database

/-!
# Batches of the database

The batch operations of `database.py` on a namespace, each in one transaction, and `_sync_ns_impl`.
What `lmdb` refuses aborts a transaction and is left out.

`_move_batch_impl` moves the records one after the other. Where a destination is the source of a
later pair, its record is overwritten before it is moved : the records are not those from before
the call (`batch_iff`). `_sync_ns_impl` leaves a record that is equal in Python, such as `True` for
`1`, as it is.
-/

namespace Thinker

/-- The entries of a namespace. -/
abbrev DbRecords := OrderedDict Text DbValue

namespace Database

variable (lmdb : Lmdb) (db : Database) (ns : Text)

/-! ## The operations -/

/-- The loop of `_insert_batch_impl`. -/
def insertLoop : List (Text × DbValue) → DbRecords → Option DbRecords
  | [], d => some d
  | (key, val) :: rest, d => if lmdb.encodes val then insertLoop rest (d.put key val) else none

/-- `_insert_batch_impl`. The second part is `none` if it raises an error. -/
def insertBatchImpl (records : DbRecords) : Database × Option Unit :=
  if (db.namespaces.get ns).isNone && !lmdb.opens db.namespaces.keys ns then (db, none)
  else
    let db := db.setRecords ns (db.records ns)
    match insertLoop lmdb records.entries (db.records ns) with
    | none => (db, none)
    | some d => (db.setRecords ns d, some ())

/-- The loop of `_move_batch_impl`. -/
def moveLoop : List (Text × Text) → DbRecords → DbRecords
  | [], d => d
  | (source, dest) :: rest, d =>
    match d.get source with
    | none => moveLoop rest d
    | some val => moveLoop rest ((d.del source).put dest val)

/-- `_move_batch_impl`. The second part is `none` if it raises an error. -/
def moveBatchImpl (sourceKeys destKeys : List Text) : Database × Option Unit :=
  if (db.namespaces.get ns).isNone then (db, none)
  else if sourceKeys.length ≠ destKeys.length then (db, none)
  else (db.setRecords ns (moveLoop (sourceKeys.zip destKeys) (db.records ns)), some ())

/-- The loop of `_del_batch_impl`. -/
def delLoop : List Text → DbRecords → DbRecords → DbRecords × DbRecords
  | [], d, result => (d, result)
  | key :: rest, d, result =>
    match d.get key with
    | none => delLoop rest d result
    | some val => delLoop rest (d.del key) (result.put key val)

/-- `_del_batch_impl`. The second part is `none` if it raises an error. -/
def delBatchImpl (keys : List Text) : Database × Option DbRecords :=
  if (db.namespaces.get ns).isNone then (db, none)
  else
    let (d, result) := delLoop keys (db.records ns) OrderedDict.empty
    (db.setRecords ns d, some result)

/-- The loop of `_sync_ns_impl` over a cursor, which is at the first of the records to come. `same`
is `==`. The first argument is `remaining` : it is set where the last record was deleted, and
`cursor.item()` is a pair of empty texts then. -/
def syncLoop (same : DbValue → DbValue → Bool) (value : DbRecords) :
    Bool → List (Text × DbValue) → DbRecords × List Text → Option (DbRecords × List Text)
  | false, _, s => some s
  -- there is nothing to decode
  | true, [], s => if (value.get []).isSome then none else some s
  | true, (key, old) :: rest, (d, newKeys) =>
    match value.get key with
    | none => syncLoop same value true rest (d.del key, newKeys)
    | some new =>
      if !same old new && !lmdb.encodes new then none
      else if key ∉ newKeys then none
      else
        syncLoop same value (!rest.isEmpty) rest
          (if same old new then d else d.put key new, newKeys.erase key)

/-- `_sync_ns_impl`. The second part is `none` if it raises an error. -/
def syncNsImpl (same : DbValue → DbValue → Bool) (value : DbRecords) : Database × Option Unit :=
  if value.entries.isEmpty then (db, none)
  else if (db.namespaces.get ns).isNone then (db, none)
  else
    let d := db.records ns
    match syncLoop lmdb same value (!d.entries.isEmpty) d.entries (d, value.keys) with
    | none => (db, none)
    | some (d, newKeys) =>
      match insertLoop lmdb (value.entries.filter fun e => e.1 ∈ newKeys) d with
      | none => (db, none)
      | some d => (db.setRecords ns d, some ())

/-! ## What they are for -/

/-- The records after a move, computed from those before it. -/
def moved (before : Text → Option DbValue) (pairs : List (Text × Text)) (k : Text) :
    Option DbValue :=
  match pairs.find? fun p => decide (p.2 = k) && (before p.1).isSome with
  | some p => before p.1
  | none => if k ∈ pairs.map Prod.fst then none else before k

/-- No record that exists is moved to the source of a later pair. -/
def Apart (before : Text → Option DbValue) (pairs : List (Text × Text)) : Prop :=
  pairs.Pairwise fun p q => p.2 = q.1 → before p.1 = none

/-- What `lmdb` and the encoder take. -/
structure Storable (records : DbRecords) : Prop where
  encodes : ∀ e ∈ records.entries, lmdb.encodes e.2 = true
  nonempty : [] ∉ records.keys

/-- A move leads to the records that it is for. -/
def Moves (sourceKeys destKeys : List Text) : Prop :=
  (db.moveBatchImpl ns sourceKeys destKeys).2 = some () ∧
    ∀ k, (db.moveBatchImpl ns sourceKeys destKeys).1.getRecord ns k =
      moved (db.getRecord ns) (sourceKeys.zip destKeys) k

/-- Synchronising leads to exactly these records. -/
def Syncs (same : DbValue → DbValue → Bool) (value : DbRecords) : Prop :=
  (db.syncNsImpl lmdb ns same value).2 = some () ∧
    ∀ k, (db.syncNsImpl lmdb ns same value).1.getRecord ns k = value.get k

/-- What is inserted is returned when its keys are deleted. -/
def Returns (records : DbRecords) (keys : List Text) : Prop :=
  (db.insertBatchImpl lmdb ns records).2 = some () →
    ∃ result, ((db.insertBatchImpl lmdb ns records).1.delBatchImpl ns keys).2 = some result ∧
      ∀ k, result.get k = records.get k

/-! ## Insertion and deletion -/

variable {lmdb db ns} {d d' : DbRecords}

theorem insertLoop_get {l : List (Text × DbValue)} (hn : (l.map Prod.fst).Nodup)
    (h : insertLoop lmdb l d = some d') (k : Text) :
    d'.get k = (OrderedDict.find k l).or (d.get k) := by
  induction l generalizing d with
  | nil =>
    obtain rfl := Option.some_inj.1 h
    simp [OrderedDict.find]
  | cons e l ih =>
    obtain ⟨key, val⟩ := e
    rw [List.map_cons, List.nodup_cons] at hn
    unfold insertLoop at h
    split_ifs at h with he
    rw [ih hn.2 h, OrderedDict.get_put]
    by_cases hk : key = k
    · subst hk
      have hnone : OrderedDict.find key l = none := by
        rw [← Option.not_isSome_iff_eq_none, OrderedDict.find_isSome_iff]
        exact hn.1
      simp [OrderedDict.find, hnone]
    · simp [OrderedDict.find, hk]

theorem insertLoop_isSome {l : List (Text × DbValue)}
    (h : ∀ e ∈ l, lmdb.encodes e.2 = true) (d : DbRecords) :
    ∃ d', insertLoop lmdb l d = some d' := by
  induction l generalizing d with
  | nil => exact ⟨d, rfl⟩
  | cons e l ih =>
    unfold insertLoop
    rw [if_pos (h e List.mem_cons_self)]
    exact ih (fun e he => h e (List.mem_cons_of_mem _ he)) _

theorem delLoop_get (keys : List Text) (d result : DbRecords) (k : Text) :
    (delLoop keys d result).2.get k =
      if k ∈ keys then (d.get k).or (result.get k) else result.get k := by
  induction keys generalizing d result with
  | nil => rfl
  | cons key keys ih =>
    unfold delLoop
    cases hv : d.get key with
    | none =>
      rw [ih]
      by_cases hk : k = key
      · subst hk
        simp [hv]
      · simp [hk]
    | some val =>
      simp only
      rw [ih, OrderedDict.get_del, OrderedDict.get_put]
      by_cases hk : key = k
      · subst hk
        simp [hv]
      · simp [hk, Ne.symm hk]

@[simp] theorem records_setRecords (records : DbRecords) :
    (db.setRecords ns records).records ns = records := by
  simp [Database.records, setRecords]

@[simp] theorem isNone_setRecords (records : DbRecords) :
    ((db.setRecords ns records).namespaces.get ns).isNone = false := by
  simp [setRecords]

/-- An insertion that returns. -/
theorem insertBatchImpl_cases {records : DbRecords}
    (h : (db.insertBatchImpl lmdb ns records).2 = some ()) :
    ∃ db₁ d, insertLoop lmdb records.entries (db.records ns) = some d ∧
      (db.insertBatchImpl lmdb ns records).1 = setRecords db₁ ns d := by
  unfold insertBatchImpl at h ⊢
  split_ifs at h ⊢ with ho
  dsimp only at h ⊢
  rw [records_setRecords] at h ⊢
  cases hi : insertLoop lmdb records.entries (db.records ns) with
  | none => simp [hi] at h
  | some d => exact ⟨_, d, rfl, rfl⟩

theorem returns {records : DbRecords} {keys : List Text}
    (hkeys : ∀ k, k ∈ keys ↔ k ∈ records.keys) : db.Returns lmdb ns records keys := by
  intro h
  obtain ⟨db₁, d, hi, he⟩ := insertBatchImpl_cases h
  refine ⟨(delLoop keys d OrderedDict.empty).2, ?_, fun k => ?_⟩
  · rw [he]
    simp [delBatchImpl]
  · have hs := OrderedDict.get_isSome_iff records k
    rw [delLoop_get, insertLoop_get records.nodup hi]
    change (if k ∈ keys then ((records.get k).or _).or none else none) = _
    by_cases hk : k ∈ keys
    · obtain ⟨v, hv⟩ := Option.isSome_iff_exists.1 (hs.2 ((hkeys k).1 hk))
      simp [hk, hv]
    · rw [if_neg hk, eq_comm, ← Option.not_isSome_iff_eq_none, hs, ← hkeys]
      exact hk

/-! ## Moves -/

theorem apart_congr {f g : Text → Option DbValue} {ps : List (Text × Text)}
    (h : ∀ p ∈ ps, f p.1 = g p.1) : Apart f ps ↔ Apart g ps := by
  unfold Apart
  refine List.Pairwise.iff_of_mem fun hp _ => ?_
  rw [h _ hp]

theorem apart_cons (f : Text → Option DbValue) (s t : Text) (ps : List (Text × Text)) :
    Apart f ((s, t) :: ps) ↔ (t ∈ ps.map Prod.fst → f s = none) ∧ Apart f ps := by
  unfold Apart
  rw [List.pairwise_cons]
  refine and_congr_left fun _ => ⟨fun h ht => ?_, fun h q hq he => h ?_⟩
  · obtain ⟨q, hq, rfl⟩ := List.mem_map.1 ht
    exact h q hq rfl
  · rw [show t = q.1 from he]
    exact List.mem_map_of_mem hq

theorem mem_keys_cons {β : Type*} (k s : Text) (t : β) (ps : List (Text × β)) :
    k ∈ ((s, t) :: ps).map Prod.fst ↔ k = s ∨ k ∈ ps.map Prod.fst := by
  rw [List.map_cons, List.mem_cons]

theorem moved_cons_none {f : Text → Option DbValue} {s : Text} (hs : f s = none) (t : Text)
    (ps : List (Text × Text)) (k : Text) : moved f ((s, t) :: ps) k = moved f ps k := by
  unfold moved
  rw [List.find?_cons_of_neg (by simp [hs])]
  cases ps.find? fun p => decide (p.2 = k) && (f p.1).isSome with
  | some p => rfl
  | none =>
    simp only [mem_keys_cons]
    by_cases hk : k = s
    · simp [hk, hs]
    · simp only [hk, false_or]

theorem moved_cons_some {f g : Text → Option DbValue} {s t : Text} {v : DbValue}
    {ps : List (Text × Text)} (hv : f s = some v)
    (hg : ∀ k, g k = if t = k then some v else if s = k then none else f k)
    (hs : s ∉ ps.map Prod.fst) (ht : t ∉ ps.map Prod.fst) (ht' : t ∉ ps.map Prod.snd) (k : Text) :
    moved f ((s, t) :: ps) k = moved g ps k := by
  have hfg : ∀ p ∈ ps, f p.1 = g p.1 := by
    intro p hp
    have hmem : p.1 ∈ ps.map Prod.fst := List.mem_map_of_mem hp
    have hpt : ¬t = p.1 := fun he => ht (he ▸ hmem)
    have hps : ¬s = p.1 := fun he => hs (he ▸ hmem)
    rw [hg, if_neg hpt, if_neg hps]
  have hfind : ps.find? (fun p => decide (p.2 = k) && (f p.1).isSome) =
      ps.find? (fun p => decide (p.2 = k) && (g p.1).isSome) :=
    List.find?_congr fun p hp => by rw [hfg p hp]
  unfold moved
  by_cases hk : t = k
  · subst hk
    have hnone : ps.find? (fun p => decide (p.2 = t) && (g p.1).isSome) = none := by
      rw [List.find?_eq_none]
      intro p hp hpt
      rw [Bool.and_eq_true, decide_eq_true_iff] at hpt
      exact ht' (hpt.1 ▸ List.mem_map_of_mem hp)
    rw [List.find?_cons_of_pos (by simp [hv]), hnone]
    simp only
    rw [if_neg ht, hg, if_pos rfl, hv]
  · rw [List.find?_cons_of_neg (by simp [hk]), hfind]
    cases hp : ps.find? fun p => decide (p.2 = k) && (g p.1).isSome with
    | some p => exact hfg p (List.mem_of_find?_eq_some hp)
    | none =>
      simp only
      simp only [mem_keys_cons]
      rw [hg, if_neg hk]
      by_cases hks : k = s
      · simp only [hks, true_or, if_true, ite_self]
      · simp only [hks, Ne.symm hks, false_or, if_false]

/-- A key that no record is moved to keeps its record, or loses it to another key. -/
theorem moveLoop_get_of_not_mem {ps : List (Text × Text)} {k : Text} (hk : k ∉ ps.map Prod.snd)
    (d : DbRecords) :
    (moveLoop ps d).get k = if k ∈ ps.map Prod.fst then none else d.get k := by
  induction ps generalizing d with
  | nil => rfl
  | cons p ps ih =>
    obtain ⟨s, t⟩ := p
    rw [List.map_cons, List.mem_cons, not_or] at hk
    unfold moveLoop
    cases hv : d.get s with
    | none =>
      simp only [mem_keys_cons]
      rw [ih hk.2]
      by_cases hks : k = s
      · simp only [hks, hv, true_or, ite_self]
      · simp only [hks, false_or]
    | some v =>
      simp only [mem_keys_cons]
      rw [ih hk.2, OrderedDict.get_put, if_neg (Ne.symm hk.1), OrderedDict.get_del]
      by_cases hks : k = s
      · simp only [hks, true_or, if_true, ite_self]
      · simp only [hks, Ne.symm hks, false_or, if_false]

/-- The loop leads to the records moved exactly if no record is overwritten before its move. -/
theorem moveLoop_iff {ps : List (Text × Text)} (hs : (ps.map Prod.fst).Nodup)
    (ht : (ps.map Prod.snd).Nodup) (d : DbRecords) :
    (∀ k, (moveLoop ps d).get k = moved d.get ps k) ↔ Apart d.get ps := by
  induction ps generalizing d with
  | nil => simp [moveLoop, moved, Apart]
  | cons p ps ih =>
    obtain ⟨s, t⟩ := p
    rw [List.map_cons, List.nodup_cons] at hs ht
    rw [apart_cons]
    unfold moveLoop
    cases hv : d.get s with
    | none =>
      simp only [moved_cons_none hv]
      rw [ih hs.2 ht.2]
      simp
    | some v =>
      have hget : ∀ k, ((d.del s).put t v).get k =
          if t = k then some v else if s = k then none else d.get k := fun k => by
        rw [OrderedDict.get_put, OrderedDict.get_del]
      have hrest : t ∉ ps.map Prod.fst →
          ((∀ k, (moveLoop ps ((d.del s).put t v)).get k = moved d.get ((s, t) :: ps) k) ↔
            Apart d.get ps) := by
        intro hts
        simp only [moved_cons_some hv hget hs.1 hts ht.1]
        rw [ih hs.2 ht.2]
        refine apart_congr fun p hp => ?_
        have hmem : p.1 ∈ ps.map Prod.fst := List.mem_map_of_mem hp
        have hpt : ¬t = p.1 := fun he => hts (he ▸ hmem)
        have hps : ¬s = p.1 := fun he => hs.1 (he ▸ hmem)
        rw [hget, if_neg hpt, if_neg hps]
      simp only [reduceCtorEq, imp_false]
      constructor
      · intro h
        have hts : t ∉ ps.map Prod.fst := by
          -- the record at `t` would be gone in the end
          intro hmem
          have hgone := moveLoop_get_of_not_mem ht.1 ((d.del s).put t v)
          rw [if_pos hmem, h t] at hgone
          unfold moved at hgone
          rw [List.find?_cons_of_pos (by simp [hv])] at hgone
          simp [hv] at hgone
        exact ⟨hts, (hrest hts).1 h⟩
      · rintro ⟨hts, hap⟩
        exact (hrest hts).2 hap

theorem moves_iff (hns : (db.namespaces.get ns).isSome = true) {sourceKeys destKeys : List Text}
    (hlen : sourceKeys.length = destKeys.length) (hs : sourceKeys.Nodup) (ht : destKeys.Nodup) :
    db.Moves ns sourceKeys destKeys ↔
      Apart (db.getRecord ns) (sourceKeys.zip destKeys) := by
  have hmove : db.moveBatchImpl ns sourceKeys destKeys =
      (db.setRecords ns (moveLoop (sourceKeys.zip destKeys) (db.records ns)), some ()) := by
    unfold moveBatchImpl
    rw [if_neg (by simp [Option.isNone_iff_eq_none, Option.isSome_iff_ne_none.1 hns]),
      if_neg (not_not.2 hlen)]
  have hget : (db.records ns).get = db.getRecord ns := funext records_get
  unfold Moves
  rw [hmove]
  simp only [getRecord_setRecords, if_true, true_and, ← hget]
  refine moveLoop_iff ?_ ?_ _
  · rwa [List.map_fst_zip hlen.le]
  · rwa [List.map_snd_zip hlen.ge]

/-! ## Synchronisation -/

/-- What the cursor makes of a record. -/
def kept (same : DbValue → DbValue → Bool) : Option DbValue → Option DbValue → Option DbValue
  | some old, some new => some (if same old new then old else new)
  | _, _ => none

variable (same : DbValue → DbValue → Bool) {value : DbRecords}

/-- The cursor goes over all records, and leaves the keys that were not there. -/
theorem syncLoop_spec (hval : Storable lmdb value) {rest : List (Text × DbValue)}
    (hrest : (rest.map Prod.fst).Nodup) {nk : List Text} (hnk : nk.Nodup)
    (hsub : ∀ k ∈ nk, k ∈ value.keys) (hkeys : ∀ e ∈ rest, e.1 ∈ value.keys → e.1 ∈ nk)
    (hd : ∀ e ∈ rest, d.get e.1 = some e.2)
    (remaining : Bool) (hrem : rest ≠ [] → remaining = true) :
    ∃ d' nk', syncLoop lmdb same value remaining rest (d, nk) = some (d', nk') ∧
      (∀ k, d'.get k =
        if k ∈ rest.map Prod.fst then kept same (d.get k) (value.get k) else d.get k) ∧
      ∀ k, k ∈ nk' ↔ k ∈ nk ∧ k ∉ rest.map Prod.fst := by
  induction rest generalizing d nk remaining with
  | nil =>
    refine ⟨d, nk, ?_, by simp, by simp⟩
    cases remaining with
    | false => rfl
    | true =>
      have hnone : ¬(value.get []).isSome = true :=
        fun h => hval.nonempty ((OrderedDict.get_isSome_iff value []).1 h)
      rw [syncLoop, if_neg hnone]
  | cons e rest ih =>
    obtain ⟨key, old⟩ := e
    obtain rfl := hrem (List.cons_ne_nil _ _)
    rw [List.map_cons, List.nodup_cons] at hrest
    have hne : ∀ e ∈ rest, key ≠ e.1 := fun e he hke =>
      hrest.1 (by
        change key ∈ _
        rw [hke]
        exact List.mem_map_of_mem he)
    have hold : d.get key = some old := hd _ List.mem_cons_self
    have hkeys' := fun e he => hkeys e (List.mem_cons_of_mem _ he)
    have hd' := fun e he => hd e (List.mem_cons_of_mem _ he)
    unfold syncLoop
    cases hv : value.get key with
    | none =>
      obtain ⟨d', nk', hrun, hget, hmem⟩ := ih (d := d.del key) hrest.2 hnk hsub hkeys'
        (fun e he => by rw [OrderedDict.get_del, if_neg (hne e he), hd' e he]) true fun _ => rfl
      refine ⟨d', nk', hrun, fun k => ?_, fun k => ?_⟩
      · rw [hget, OrderedDict.get_del]
        simp only [mem_keys_cons]
        by_cases hk : key = k
        · subst hk
          simp only [hrest.1, hv, hold, kept, true_or, if_true, if_false]
        · simp only [hk, Ne.symm hk, false_or, if_false]
      · rw [hmem]
        by_cases hk : k = key
        · subst hk
          have hno : k ∉ nk := fun hmem => by
            have hs := (OrderedDict.get_isSome_iff value k).2 (hsub k hmem)
            rw [hv] at hs
            exact Bool.false_ne_true hs
          simp only [hno, false_and]
        · simp only [mem_keys_cons, hk, false_or]
    | some new =>
      have hkey : key ∈ value.keys := (OrderedDict.get_isSome_iff value key).1 (by simp [hv])
      have henc : lmdb.encodes new = true := hval.encodes _ (OrderedDict.mem_of_find hv)
      obtain ⟨d', nk', hrun, hget, hmem⟩ :=
        ih (d := if same old new then d else d.put key new) hrest.2
          (hnk.erase key) (fun k hk => hsub k (List.mem_of_mem_erase hk))
          (fun e he hek => (List.mem_erase_of_ne (hne e he).symm).2 (hkeys' e he hek))
          (fun e he => by
            split_ifs
            · exact hd' e he
            · rw [OrderedDict.get_put, if_neg (hne e he), hd' e he])
          (!rest.isEmpty) (by simp)
      refine ⟨d', nk', ?_, fun k => ?_, fun k => ?_⟩
      · simp only
        rw [if_neg (by simp [henc]), if_neg (not_not.2 (hkeys _ List.mem_cons_self hkey)), hrun]
      · rw [hget]
        by_cases hk : key = k
        · subst hk
          have hmem : key ∈ ((key, old) :: rest).map Prod.fst := (mem_keys_cons ..).2 (.inl rfl)
          rw [if_neg hrest.1, if_pos hmem, hold, hv]
          cases hs : same old new
          · simp only [kept, hs, Bool.false_eq_true, if_false, OrderedDict.get_put, if_true]
          · simp only [kept, hs, if_true, hold]
        · have hput : (if same old new then d else d.put key new).get k = d.get k := by
            split_ifs
            · rfl
            · rw [OrderedDict.get_put, if_neg hk]
          rw [hput]
          simp only [mem_keys_cons, Ne.symm hk, false_or]
      · rw [hmem, hnk.mem_erase_iff]
        simp only [mem_keys_cons, not_or]
        tauto

variable {same} in
theorem syncs_iff (hns : (db.namespaces.get ns).isSome = true) (hval : Storable lmdb value)
    (hne : value.entries ≠ []) : db.Syncs lmdb ns same value ↔
      ∀ k old new, db.getRecord ns k = some old → value.get k = some new → same old new = true →
        old = new := by
  obtain ⟨d', nk', hrun, hget, hmem⟩ := syncLoop_spec same (d := db.records ns) hval
    (db.records ns).nodup value.nodup (fun k hk => hk) (fun e _ hk => hk)
    (fun e he => OrderedDict.find_of_mem (db.records ns).nodup he)
    (!(db.records ns).entries.isEmpty) (by simp)
  obtain ⟨d, hins⟩ := insertLoop_isSome
    (l := value.entries.filter fun e => e.1 ∈ nk')
    (fun e he => hval.encodes e (List.mem_of_mem_filter he)) d'
  have hsync : db.syncNsImpl lmdb ns same value = (db.setRecords ns d, some ()) := by
    unfold syncNsImpl
    rw [if_neg (by simpa using hne),
      if_neg (by simp [Option.isNone_iff_eq_none, Option.isSome_iff_ne_none.1 hns])]
    simp only [OrderedDict.keys, hrun, hins]
  have hnodup : ((value.entries.filter fun e => e.1 ∈ nk').map Prod.fst).Nodup :=
    List.Nodup.sublist (List.filter_sublist.map Prod.fst) value.nodup
  have hfind : ∀ k, OrderedDict.find k (value.entries.filter fun e => e.1 ∈ nk') =
      if k ∈ nk' then value.get k else none := fun k => by
    have h := OrderedDict.find_filter (fun k => decide (k ∈ nk')) value.entries k
    simp only [decide_eq_true_iff] at h
    exact h
  have hstored : ∀ k, k ∈ (db.records ns).entries.map Prod.fst ↔
      (db.getRecord ns k).isSome = true := fun k => by
    rw [← records_get, ← OrderedDict.find_isSome_iff]
    rfl
  -- a record that was there is as the cursor left it, and any other is new
  have hfinal : ∀ k, (db.setRecords ns d).getRecord ns k =
      if (db.getRecord ns k).isSome then kept same (db.getRecord ns k) (value.get k)
      else value.get k := by
    intro k
    rw [getRecord_setRecords, if_pos rfl, insertLoop_get hnodup hins, hfind, hget]
    simp only [hmem, hstored, records_get]
    by_cases hs : (db.getRecord ns k).isSome = true
    · simp [hs]
    · have hnone := Option.not_isSome_iff_eq_none.1 hs
      by_cases hk : k ∈ value.entries.map Prod.fst
      · simp [hk, hnone]
      · have hv : value.get k = none := by
          rw [← Option.not_isSome_iff_eq_none, OrderedDict.get_isSome_iff]
          exact hk
        simp [hv, hnone]
  unfold Syncs
  rw [hsync]
  simp only [hfinal, true_and]
  refine forall_congr' fun k => ?_
  cases hold : db.getRecord ns k with
  | none => simp
  | some old =>
    cases hnew : value.get k with
    | none => simp [kept]
    | some new =>
      cases hs : same old new <;> simp [kept, hs]

/-! ## Together -/

/-- A batch of moves leads to the records that it is for exactly if none is overwritten before its
move ; synchronising leads to the value exactly if no record is equal to another one in it ; and
what is inserted is returned. -/
theorem batch_iff (lmdb : Lmdb) (db : Database) (ns : Text)
    (hns : (db.namespaces.get ns).isSome = true) :
    (∀ sourceKeys destKeys : List Text, sourceKeys.length = destKeys.length →
      sourceKeys.Nodup → destKeys.Nodup →
        (db.Moves ns sourceKeys destKeys ↔
          Apart (db.getRecord ns) (sourceKeys.zip destKeys))) ∧
    (∀ same value, Storable lmdb value → value.entries ≠ [] →
      (db.Syncs lmdb ns same value ↔
        ∀ k old new, db.getRecord ns k = some old → value.get k = some new →
          same old new = true → old = new)) ∧
    ∀ (records : DbRecords) (keys : List Text), (∀ k, k ∈ keys ↔ k ∈ records.keys) →
      db.Returns lmdb ns records keys :=
  ⟨fun _ _ hlen hs ht => moves_iff hns hlen hs ht, fun _ _ hval hne => syncs_iff hns hval hne,
    fun _ _ hkeys => returns hkeys⟩

/-- A namespace with two records. -/
def twoRecords : Database :=
  ⟨⟨[(['n'], ⟨[(['a'], .leaf (.int 1)), (['b'], .leaf (.int 2))], by decide⟩)], by decide⟩⟩

/-- An environment that takes anything. -/
def lenient : Lmdb :=
  ⟨fun _ _ => true, fun _ => true, fun _ _ _ => true⟩

theorem batch_twoRecords :
    twoRecords.Moves ['n'] [['b'], ['a']] [['c'], ['b']] ∧
      twoRecords.Syncs lenient ['n'] (fun _ _ => false) ⟨[(['a'], .leaf (.int 3))], by decide⟩ ∧
      twoRecords.Returns lenient ['n'] ⟨[(['c'], .leaf (.int 3))], by decide⟩ [['c']] := by
  obtain ⟨hm, hs, hr⟩ := batch_iff lenient twoRecords ['n'] (by decide)
  refine ⟨(hm [['b'], ['a']] [['c'], ['b']] rfl (by decide) (by decide)).2 ?_,
    (hs _ _ ⟨?_, by decide⟩ (by simp)).2 ?_, hr _ _ fun k => Iff.rfl⟩
  · simp [Apart]
  · simp [Lmdb.encodes]
  · simp

/-- A swap loses the second record. -/
theorem not_moves_swap : ¬twoRecords.Moves ['n'] [['a'], ['b']] [['b'], ['a']] := by
  intro h
  have hb : ((twoRecords.moveBatchImpl ['n'] [['a'], ['b']] [['b'], ['a']]).1.getRecord
      ['n'] ['b']).isSome = true := by
    rw [h.2]
    decide
  revert hb
  decide

end Database

end Thinker
