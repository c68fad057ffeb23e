import Thinker.Json
import Thinker.Numerals
import Thinker.ObjectTree

/-!
# The database

The nested operations of `database.py`. A namespace holds records by their keys, and a key that is
split at its dots leads into a record that is an object. What `lmdb` and the encoder take is a
parameter (`Lmdb`) ; a record that is read is the value that was written.

A record is never null : `_insert_record` writes nothing then, and says so in the log only.
-/

namespace Thinker

/-- A value that is not an object. -/
inductive DbScalar where
  | null
  | bool (b : Bool)
  | int (i : ℤ)
  | float (x : ℚ)
  | str (t : Text)
  | list (items : List Json)

/-- A value in the database. -/
abbrev DbValue := ObjectTree Text DbScalar

/-- `None`. -/
abbrev DbValue.null : DbValue := .leaf .null

/-- `value is None`. -/
def DbValue.isNull : DbValue → Bool
  | .leaf .null => true
  | _ => false

/-- A key, as a string or as a list. -/
inductive DbKey where
  | string (t : Text)
  | list (l : List Text)

/-- `_process_key`, with the key of the record apart. `none` is the error "Invalid Key Format". -/
def processKey (key : DbKey) : Option (Text × List Text) :=
  let keyList :=
    match key with
    | .string t => t.splitOn '.'
    | .list l => l
  if [] ∈ keyList then none
  else
    match keyList with
    | [] => none
    | k :: ks => some (k, ks)

/-- Whether an environment opens a further namespace, an encoder takes an object or a list, and a
transaction about a record is committed. -/
structure Lmdb where
  opens : List Text → Text → Bool
  dumps : DbValue → Bool
  commits : Text → Text → Option DbValue → Bool

/-- `_encode_value`, if it raises no error. -/
def Lmdb.encodes (lmdb : Lmdb) : DbValue → Bool
  | .leaf .null => false
  | .leaf (.int i) => decide (-2 ^ 63 ≤ i ∧ i < 2 ^ 63)
  | .leaf (.list items) => lmdb.dumps (.leaf (.list items))
  | .leaf _ => true
  | .node m => lmdb.dumps (.node m)

/-- `MoonrakerDatabase`, with what is in `lmdb_env`. -/
structure Database where
  namespaces : OrderedDict Text (OrderedDict Text DbValue)

namespace Database

variable (lmdb : Lmdb) (db : Database) (ns : Text)

/-- `_get_record`, without the errors. -/
def getRecord (k : Text) : Option DbValue :=
  (db.namespaces.get ns).bind (·.get k)

/-- What is at a path into a record. -/
def lookup : List Text → Option DbValue
  | [] => none
  | k :: ks => (db.getRecord ns k).bind (·.get ks)

/-- The records of a namespace. -/
def records : OrderedDict Text DbValue :=
  (db.namespaces.get ns).getD OrderedDict.empty

/-- A namespace with other records. -/
def setRecords (records : OrderedDict Text DbValue) : Database :=
  ⟨db.namespaces.put ns records⟩

/-- `_insert_record`, which returns `False` for null and then writes nothing. -/
def insertRecord (k : Text) (record : DbValue) : Database × Option Unit :=
  if record.isNull then (db, some ())
  else if lmdb.encodes record && lmdb.commits ns k (some record) then
    (db.setRecords ns ((db.records ns).put k record), some ())
  else (db, none)

/-- `txn.delete`, and the end of an empty namespace. -/
def deleteRecord (k : Text) (dropEmptyDb : Bool) : Option Database :=
  if lmdb.commits ns k none then
    let records := (db.records ns).del k
    if records.entries.isEmpty && dropEmptyDb then some ⟨db.namespaces.del ns⟩
    else some (db.setRecords ns records)
  else none

/-- The record that `_insert_impl` writes. A record that is not an object is overwritten with one. -/
def insertedRecord (k : Text) (ks : List Text) (value : DbValue) : Option DbValue :=
  if ks.isEmpty then some value
  else
    let record := ((db.getRecord ns k).filter (·.isNode)).getD (.node [])
    ObjectTree.set value record ks

/-- `_insert_impl`. The second part is `none` if it raises an error. -/
def insertImpl (key : DbKey) (value : DbValue) : Database × Option Unit :=
  match processKey key with
  | none => (db, none)
  | some (k, ks) =>
    if (db.namespaces.get ns).isNone && !lmdb.opens db.namespaces.keys ns then (db, none)
    else
      let db := db.setRecords ns (db.records ns)
      match db.insertedRecord ns k ks value with
      | none => (db, none)
      | some record => db.insertRecord lmdb ns k record

/-- The record that `_update_impl` writes. -/
def updatedRecord (record : DbValue) (ks : List Text) (value : DbValue) : Option DbValue :=
  if ks.isEmpty then
    if record.isNode && value.isNode then some (record.merge value)
    -- Cannot assign a record level null value
    else if value.isNull then none
    else some value
  else record.modify (·.merge value) ks

/-- `_update_impl`. -/
def updateImpl (key : DbKey) (value : DbValue) : Database × Option Unit :=
  match processKey key with
  | none => (db, none)
  | some (k, ks) =>
    match (db.getRecord ns k).bind (updatedRecord · ks value) with
    | none => (db, none)
    | some record => db.insertRecord lmdb ns k record

/-- The value that `_delete_impl` returns, and what is left of the record. -/
def deletedRecord (record : DbValue) (ks : List Text) : Option (DbValue × DbValue) :=
  if ks.isEmpty then some (record, .node []) else record.pop ks

/-- `_delete_impl`. A record of which nothing is left is removed. -/
def deleteImpl (key : DbKey) (dropEmptyDb : Bool) : Database × Option DbValue :=
  match processKey key with
  | none => (db, none)
  | some (k, ks) =>
    match (db.getRecord ns k).bind (deletedRecord · ks) with
    | none => (db, none)
    | some (val, .node []) =>
      match db.deleteRecord lmdb ns k dropEmptyDb with
      | some db => (db, some val)
      | none => (db, none)
    | some (val, record) =>
      let r := db.insertRecord lmdb ns k record
      (r.1, r.2.map fun _ => val)

/-- `_get_impl` of a key, without a default. -/
def getImpl (key : DbKey) : Option DbValue :=
  (processKey key).bind fun (k, ks) => db.lookup ns (k :: ks)

/-- `_ns_contains_impl`. -/
def nsContainsImpl (key : DbKey) : Option Bool :=
  if (db.namespaces.get ns).isNone then none
  else
    some <|
      match processKey key with
      | none => false
      | some (k, ks) =>
        match db.getRecord ns k with
        | none => false
        | some record => if ks.isEmpty then true else (record.get ks).isSome

/-! ## Records -/

variable {lmdb db ns} {db' : Database} {k : Text} {ks : List Text}

@[simp] theorem records_get (k : Text) : (db.records ns).get k = db.getRecord ns k := by
  unfold records getRecord
  cases db.namespaces.get ns <;> rfl

@[simp] theorem getRecord_setRecords (records : OrderedDict Text DbValue) (ns' k : Text) :
    (db.setRecords ns records).getRecord ns' k =
      if ns = ns' then records.get k else db.getRecord ns' k := by
  unfold getRecord setRecords
  rw [OrderedDict.get_put]
  split_ifs <;> rfl

@[simp] theorem getRecord_openNamespace (db : Database) (ns ns' k : Text) :
    (db.setRecords ns (db.records ns)).getRecord ns' k = db.getRecord ns' k := by
  rw [getRecord_setRecords]
  split_ifs with h
  · subst h
    exact records_get k
  · rfl

/-- What `_insert_record` does. -/
theorem insertRecord_cases (lmdb : Lmdb) (db : Database) (ns k : Text) (record : DbValue) :
    record.isNull = true ∧ db.insertRecord lmdb ns k record = (db, some ()) ∨
      record.isNull = false ∧
        db.insertRecord lmdb ns k record =
          (db.setRecords ns ((db.records ns).put k record), some ()) ∨
      db.insertRecord lmdb ns k record = (db, none) := by
  unfold insertRecord
  split_ifs with hn hw
  · exact .inl ⟨hn, rfl⟩
  · exact .inr (.inl ⟨by simpa using hn, rfl⟩)
  · exact .inr (.inr rfl)

theorem insertRecord_of_none {record : DbValue} (h : (db.insertRecord lmdb ns k record).2 = none) :
    (db.insertRecord lmdb ns k record).1 = db := by
  rcases insertRecord_cases lmdb db ns k record with ⟨-, he⟩ | ⟨-, he⟩ | he
  · rw [he]
  · simp [he] at h
  · rw [he]

/-- A record is changed, and no other. -/
def Changes (db db' : Database) (ns k : Text) (record : Option DbValue) : Prop :=
  ∀ ns' k', db'.getRecord ns' k' = if ns = ns' ∧ k = k' then record else db.getRecord ns' k'

theorem changes_insertRecord {record : DbValue} (hn : record.isNull = false)
    (h : db.insertRecord lmdb ns k record = (db', some ())) : Changes db db' ns k (some record) := by
  rcases insertRecord_cases lmdb db ns k record with ⟨hn', -⟩ | ⟨-, he⟩ | he
  · simp [hn] at hn'
  · obtain rfl : _ = db' := congrArg Prod.fst (he.symm.trans h)
    intro ns' k'
    rw [getRecord_setRecords, OrderedDict.get_put, records_get]
    by_cases hns : ns = ns'
    · subst hns
      simp
    · simp [hns]
  · simp [he] at h

theorem changes_deleteRecord {drop : Bool} (h : db.deleteRecord lmdb ns k drop = some db') :
    Changes db db' ns k none := by
  unfold deleteRecord at h
  split_ifs at h with hc
  intro ns' k'
  have hdel : ((db.records ns).del k).get k' = if k = k' then none else db.getRecord ns k' := by
    rw [OrderedDict.get_del, records_get]
  dsimp only at h
  split_ifs at h with he
  · obtain rfl := Option.some_inj.1 h
    rw [Bool.and_eq_true, List.isEmpty_iff] at he
    have hnone : ((db.records ns).del k).get k' = none := by
      unfold OrderedDict.get
      rw [he.1]
      rfl
    unfold getRecord
    rw [OrderedDict.get_del]
    by_cases hns : ns = ns'
    · subst hns
      rw [hnone] at hdel
      by_cases hk : k = k'
      · simp [hk]
      · rw [if_neg hk] at hdel
        simpa [hk, getRecord] using hdel
    · simp [hns]
  · obtain rfl := Option.some_inj.1 h
    rw [getRecord_setRecords, hdel]
    by_cases hns : ns = ns'
    · subst hns
      simp
    · simp [hns]

/-! ## Paths -/

/-- Nothing changes at a path that is neither above nor below the given one. -/
def Frame (db db' : Database) (ns : Text) (path : List Text) : Prop :=
  ∀ ns' path', (ns = ns' → ObjectTree.Apart path path') →
    db'.lookup ns' path' = db.lookup ns' path'

theorem lookup_cons (db : Database) (ns k : Text) (ks : List Text) :
    db.lookup ns (k :: ks) = (db.getRecord ns k).bind (·.get ks) := rfl

theorem Changes.lookup {record : Option DbValue} (h : Changes db db' ns k record) (ks : List Text) :
    db'.lookup ns (k :: ks) = record.bind (·.get ks) := by
  rw [lookup_cons, h, if_pos ⟨rfl, rfl⟩]

/-- A change of a record that keeps what is apart from a path. -/
theorem Changes.frame {record : Option DbValue} (h : Changes db db' ns k record)
    (hq : ∀ q, ObjectTree.Apart ks q → record.bind (·.get q) = (db.getRecord ns k).bind (·.get q)) :
    Frame db db' ns (k :: ks) := by
  intro ns' path' hpath
  cases path' with
  | nil => rfl
  | cons k' q =>
    rw [lookup_cons, lookup_cons, h]
    split_ifs with he
    · obtain ⟨rfl, rfl⟩ := he
      exact hq q (ObjectTree.apart_cons (hpath rfl))
    · rfl

/-- The record that `_insert_impl` writes holds the value, and what was there apart from it. -/
theorem insertedRecord_get {value record : DbValue}
    (h : db.insertedRecord ns k ks value = some record) : record.get ks = some value ∧
      ∀ q, ObjectTree.Apart ks q → record.get q = (db.getRecord ns k).bind (·.get q) := by
  unfold insertedRecord at h
  cases ks with
  | nil =>
    obtain rfl : value = record := by simpa using h
    exact ⟨ObjectTree.get_nil _, fun q hq => absurd hq (ObjectTree.not_apart_nil q)⟩
  | cons l ks =>
    have hs := h
    simp only [List.isEmpty_cons, Bool.false_eq_true, if_false] at hs
    refine ⟨ObjectTree.get_set_self hs, fun q hq => ?_⟩
    rw [ObjectTree.get_set_apart hs hq]
    have hne : q ≠ [] := fun hnil => by
      subst hnil
      exact ObjectTree.not_apart_nil _ hq.symm
    obtain ⟨l', q', rfl⟩ := List.exists_cons_of_ne_nil hne
    cases db.getRecord ns k with
    | none => rfl
    | some r => cases r <;> rfl

/-- The record that `_update_impl` writes holds the value or the merged objects. -/
theorem updatedRecord_get {value record new : DbValue}
    (h : updatedRecord record ks value = some new) :
    new.get ks = (record.get ks).map (·.merge value) ∧ (record.get ks).isSome = true ∧
      ∀ q, ObjectTree.Apart ks q → new.get q = record.get q := by
  unfold updatedRecord at h
  cases ks with
  | nil =>
    refine ⟨?_, by simp, fun q hq => absurd hq (ObjectTree.not_apart_nil q)⟩
    simp only [List.isEmpty_nil, if_true] at h
    split_ifs at h with hn hnull
    · simp [Option.some_inj.1 h]
    · have hmerge : record.merge value = value := by
        cases record <;> cases value <;> simp_all [ObjectTree.isNode, ObjectTree.merge]
      obtain rfl := Option.some_inj.1 h
      simp [hmerge]
  | cons l ks =>
    simp only [List.isEmpty_cons, Bool.false_eq_true, if_false] at h
    exact ⟨ObjectTree.get_modify_self h, by rw [← ObjectTree.modify_isSome, h]; rfl,
      fun q hq => ObjectTree.get_modify_apart h hq⟩

/-- What `_delete_impl` returns was there, and is not in what is left. -/
theorem deletedRecord_get {record val left : DbValue}
    (h : deletedRecord record ks = some (val, left)) : record.get ks = some val ∧
      (ks ≠ [] → left.get ks = none) ∧
      ∀ q, ObjectTree.Apart ks q → left.get q = record.get q := by
  unfold deletedRecord at h
  cases ks with
  | nil =>
    obtain ⟨rfl, -⟩ : record = val ∧ _ := by simpa using h
    exact ⟨ObjectTree.get_nil _, fun hne => absurd rfl hne,
      fun q hq => absurd hq (ObjectTree.not_apart_nil q)⟩
  | cons l ks =>
    simp only [List.isEmpty_cons, Bool.false_eq_true, if_false] at h
    obtain ⟨hv, hn⟩ := ObjectTree.get_pop_self h
    exact ⟨hv, fun _ => hn, fun q hq => ObjectTree.get_pop_apart h hq⟩

/-- A record that is written by `modify` or `pop` is an object. -/
theorem updatedRecord_isNull {value record new : DbValue}
    (h : updatedRecord record ks value = some new) : new.isNull = false := by
  unfold updatedRecord at h
  cases ks with
  | nil =>
    simp only [List.isEmpty_nil, if_true] at h
    split_ifs at h with hn hnull
    · obtain rfl := Option.some_inj.1 h
      cases record <;> cases value <;> simp_all [ObjectTree.isNode, ObjectTree.merge, DbValue.isNull]
    · obtain rfl := Option.some_inj.1 h
      simpa using hnull
  | cons l ks =>
    simp only [List.isEmpty_cons, Bool.false_eq_true, if_false] at h
    cases record with
    | leaf a => simp [ObjectTree.modify] at h
    | node m =>
      obtain ⟨s, hs, h⟩ := Option.bind_eq_some_iff.1 h
      obtain ⟨s', hs', rfl⟩ := Option.map_eq_some_iff.1 h
      rfl

theorem deletedRecord_isNull {record val left : DbValue}
    (h : deletedRecord record ks = some (val, left)) : left.isNull = false := by
  unfold deletedRecord at h
  cases ks with
  | nil =>
    obtain ⟨-, rfl⟩ : record = val ∧ .node [] = left := by simpa using h
    rfl
  | cons l ks =>
    simp only [List.isEmpty_cons, Bool.false_eq_true, if_false] at h
    cases record with
    | leaf a => cases ks <;> simp [ObjectTree.pop] at h
    | node m =>
      cases ks with
      | nil =>
        obtain ⟨w, hw, he⟩ := Option.map_eq_some_iff.1 h
        obtain ⟨-, rfl⟩ := Prod.mk.inj he
        rfl
      | cons j ks =>
        rw [ObjectTree.pop_cons_cons] at h
        obtain ⟨s, hs, h⟩ := Option.bind_eq_some_iff.1 h
        obtain ⟨r, hr, he⟩ := Option.map_eq_some_iff.1 h
        obtain ⟨-, rfl⟩ := Prod.mk.inj he
        rfl

/-! ## The operations -/

variable {key : DbKey}

theorem getImpl_of_processKey (hk : processKey key = some (k, ks)) (db : Database) (ns : Text) :
    db.getImpl ns key = db.lookup ns (k :: ks) := by
  simp [getImpl, hk]

/-- An insertion that returns. -/
theorem insertImpl_spec {value : DbValue} (h : db.insertImpl lmdb ns key value = (db', some ())) :
    ∃ k ks, processKey key = some (k, ks) ∧
      (¬(ks = [] ∧ value.isNull = true) → db'.getImpl ns key = some value) ∧
      Frame db db' ns (k :: ks) := by
  unfold insertImpl at h
  cases hk : processKey key with
  | none => simp [hk] at h
  | some path =>
    obtain ⟨k, ks⟩ := path
    refine ⟨k, ks, rfl, ?_⟩
    simp only [hk] at h
    split_ifs at h with ho
    · simp at h
    · cases hi : (db.setRecords ns (db.records ns)).insertedRecord ns k ks value with
      | none => simp [hi] at h
      | some record =>
        simp only [hi] at h
        obtain ⟨hget, hq⟩ := insertedRecord_get hi
        by_cases hn : record.isNull = true
        · have he : db.setRecords ns (db.records ns) = db' := by
            simpa [insertRecord, hn] using h
          refine ⟨fun hne => ?_, fun ns' path' _ => ?_⟩
          · cases ks with
            | nil =>
              obtain rfl : record = value := by simpa using hget
              exact absurd ⟨rfl, hn⟩ hne
            | cons l ks =>
              cases record with
              | leaf a => simp [ObjectTree.get] at hget
              | node m => simp [DbValue.isNull] at hn
          · subst he
            cases path' with
            | nil => rfl
            | cons k' q => rw [lookup_cons, lookup_cons, getRecord_openNamespace]
        · have hc := changes_insertRecord (by simpa using hn) h
          have hc' : Changes db db' ns k (some record) := fun ns' k' => by
            rw [hc ns' k', getRecord_openNamespace]
          refine ⟨fun _ => ?_, hc'.frame fun q hq' => ?_⟩
          · rw [getImpl_of_processKey hk, hc'.lookup]
            exact hget
          · rw [← getRecord_openNamespace db ns ns k]
            exact hq q hq'

/-- An update that returns. -/
theorem updateImpl_spec {value : DbValue} (h : db.updateImpl lmdb ns key value = (db', some ())) :
    ∃ k ks old, processKey key = some (k, ks) ∧ db.getImpl ns key = some old ∧
      db'.getImpl ns key = some (old.merge value) ∧ Frame db db' ns (k :: ks) := by
  unfold updateImpl at h
  cases hk : processKey key with
  | none => simp [hk] at h
  | some path =>
    obtain ⟨k, ks⟩ := path
    simp only [hk] at h
    cases hu : (db.getRecord ns k).bind (updatedRecord · ks value) with
    | none => simp [hu] at h
    | some new =>
      simp only [hu] at h
      obtain ⟨record, hr, hu⟩ := Option.bind_eq_some_iff.1 hu
      obtain ⟨hget, hsome, hq⟩ := updatedRecord_get hu
      obtain ⟨old, hold⟩ := Option.isSome_iff_exists.1 hsome
      have hc := changes_insertRecord (updatedRecord_isNull hu) h
      refine ⟨k, ks, old, rfl, ?_, ?_, hc.frame fun q hq' => ?_⟩
      · rw [getImpl_of_processKey hk, lookup_cons, hr]
        exact hold
      · rw [getImpl_of_processKey hk, hc.lookup]
        exact hget.trans (by rw [hold]; rfl)
      · rw [hr]
        exact hq q hq'

/-- A deletion that returns. -/
theorem deleteImpl_spec {drop : Bool} {val : DbValue}
    (h : db.deleteImpl lmdb ns key drop = (db', some val)) :
    ∃ k ks, processKey key = some (k, ks) ∧ db.getImpl ns key = some val ∧
      db'.getImpl ns key = none ∧ Frame db db' ns (k :: ks) ∧
      db'.getRecord ns k ≠ some (.node []) := by
  unfold deleteImpl at h
  cases hk : processKey key with
  | none => simp [hk] at h
  | some path =>
    obtain ⟨k, ks⟩ := path
    simp only [hk] at h
    refine ⟨k, ks, rfl, ?_⟩
    cases hd : (db.getRecord ns k).bind (deletedRecord · ks) with
    | none => simp [hd] at h
    | some r =>
      obtain ⟨val', left⟩ := r
      obtain ⟨record, hr, hd'⟩ := Option.bind_eq_some_iff.1 hd
      obtain ⟨hget, hleft, hq⟩ := deletedRecord_get hd'
      have hold : db.getImpl ns key = some val' := by
        rw [getImpl_of_processKey hk, lookup_cons, hr]
        exact hget
      have hempty (q : List Text) (hq' : ObjectTree.Apart ks q) :
          (ObjectTree.node [] : DbValue).get q = none :=
        ObjectTree.get_empty q fun hnil => by
          subst hnil
          exact ObjectTree.not_apart_nil _ hq'.symm
      simp only [hd] at h
      split at h
      · simp_all
      · rename_i val' he
        obtain ⟨rfl, rfl⟩ := Prod.mk.inj (Option.some_inj.1 he)
        split at h
        · rename_i db'' hdel
          obtain ⟨rfl, hval⟩ := Prod.mk.inj h
          have hc := changes_deleteRecord hdel
          refine ⟨hold.trans hval, ?_, hc.frame fun q hq' => ?_, ?_⟩
          · rw [getImpl_of_processKey hk, hc.lookup]
            rfl
          · rw [hr, Option.bind_none, Option.bind_some, ← hq q hq', hempty q hq']
          · simp [hc ns k]
        · simp at h
      · rename_i val' left' hne he
        obtain ⟨rfl, rfl⟩ := Prod.mk.inj (Option.some_inj.1 he)
        obtain ⟨hdb, hmap⟩ := Prod.mk.inj h
        obtain ⟨⟨⟩, hret, rfl⟩ := Option.map_eq_some_iff.1 hmap
        have hc := changes_insertRecord (deletedRecord_isNull hd') (Prod.ext hdb hret)
        have hks : ks ≠ [] := fun hnil => by
          subst hnil
          obtain ⟨-, hleft⟩ : record = _ ∧ .node [] = left := by simpa [deletedRecord] using hd'
          exact hne hleft.symm
        refine ⟨hold, ?_, hc.frame fun q hq' => ?_, ?_⟩
        · rw [getImpl_of_processKey hk, hc.lookup]
          exact hleft hks
        · rw [hr]
          exact hq q hq'
        · rw [hc ns k, if_pos ⟨rfl, rfl⟩]
          exact fun hleft => hne (Option.some_inj.1 hleft)

theorem isSome_setRecords (records : OrderedDict Text DbValue) :
    ((db.setRecords ns records).namespaces.get ns).isSome = true := by
  simp [setRecords]

/-- An insertion of a whole record that is committed. -/
theorem changes_insertImpl {value : DbValue} (hk : processKey key = some (k, []))
    (hopen : (db.namespaces.get ns).isSome = true) (hn : value.isNull = false)
    (he : lmdb.encodes value = true) (hc : lmdb.commits ns k (some value) = true) :
    Changes db (db.insertImpl lmdb ns key value).1 ns k (some value) ∧
      ((db.insertImpl lmdb ns key value).1.namespaces.get ns).isSome = true := by
  set db₀ := db.setRecords ns (db.records ns) with hdb₀
  have hins : db₀.insertRecord lmdb ns k value =
      (db₀.setRecords ns ((db₀.records ns).put k value), some ()) := by
    simp [insertRecord, hn, he, hc]
  have hns : (db.namespaces.get ns).isNone = false := by
    obtain ⟨r, hr⟩ := Option.isSome_iff_exists.1 hopen
    simp [hr]
  have himpl : db.insertImpl lmdb ns key value = db₀.insertRecord lmdb ns k value := by
    simp only [insertImpl, hk, hns, Bool.false_and, Bool.false_eq_true, if_false]
    rfl
  rw [himpl]
  refine ⟨fun ns' k' => ?_, ?_⟩
  · have hret := congrArg Prod.snd hins
    rw [changes_insertRecord hn (Prod.ext rfl hret) ns' k', hdb₀, getRecord_openNamespace]
  · rw [hins]
    exact isSome_setRecords _

/-- A deletion of a whole record that is committed. -/
theorem changes_deleteImpl (hk : processKey key = some (k, []))
    (hr : (db.getRecord ns k).isSome = true) (hc : lmdb.commits ns k none = true) :
    Changes db (db.deleteImpl lmdb ns key false).1 ns k none ∧
      ((db.deleteImpl lmdb ns key false).1.namespaces.get ns).isSome = true := by
  obtain ⟨record, hr⟩ := Option.isSome_iff_exists.1 hr
  have hdel : db.deleteRecord lmdb ns k false =
      some (db.setRecords ns ((db.records ns).del k)) := by
    simp [deleteRecord, hc]
  have himpl : db.deleteImpl lmdb ns key false =
      (db.setRecords ns ((db.records ns).del k), some record) := by
    simp [deleteImpl, hk, hr, deletedRecord, hdel]
  rw [himpl]
  exact ⟨changes_deleteRecord hdel, isSome_setRecords _⟩

/-- An insertion that raises an error may have opened its namespace. -/
theorem insertImpl_of_none {value : DbValue} (h : (db.insertImpl lmdb ns key value).2 = none) :
    (∀ ns' k, (db.insertImpl lmdb ns key value).1.getRecord ns' k = db.getRecord ns' k) ∧
      (ns ∈ db.namespaces.keys →
        (db.insertImpl lmdb ns key value).1.namespaces.keys = db.namespaces.keys) := by
  have hopen : ns ∈ db.namespaces.keys →
      (db.setRecords ns (db.records ns)).namespaces.keys = db.namespaces.keys := fun hmem => by
    refine (OrderedDict.keys_place ns _ db.namespaces.entries).trans ?_
    exact if_pos hmem
  unfold insertImpl at h ⊢
  cases hk : processKey key with
  | none => exact ⟨fun _ _ => rfl, fun _ => rfl⟩
  | some path =>
    obtain ⟨k, ks⟩ := path
    simp only [hk] at h ⊢
    split_ifs at h ⊢ with ho
    · exact ⟨fun _ _ => rfl, fun _ => rfl⟩
    · cases hi : (db.setRecords ns (db.records ns)).insertedRecord ns k ks value with
      | none => exact ⟨getRecord_openNamespace db ns, hopen⟩
      | some record =>
        simp only [hi] at h ⊢
        rw [insertRecord_of_none h]
        exact ⟨getRecord_openNamespace db ns, hopen⟩

theorem updateImpl_of_none {value : DbValue} (h : (db.updateImpl lmdb ns key value).2 = none) :
    (db.updateImpl lmdb ns key value).1 = db := by
  unfold updateImpl at h ⊢
  cases hk : processKey key with
  | none => rfl
  | some path =>
    obtain ⟨k, ks⟩ := path
    simp only [hk] at h ⊢
    cases hu : (db.getRecord ns k).bind (updatedRecord · ks value) with
    | none => rfl
    | some new =>
      simp only [hu] at h ⊢
      exact insertRecord_of_none h

theorem deleteImpl_of_none {drop : Bool} (h : (db.deleteImpl lmdb ns key drop).2 = none) :
    (db.deleteImpl lmdb ns key drop).1 = db := by
  unfold deleteImpl at h ⊢
  cases hk : processKey key with
  | none => rfl
  | some path =>
    obtain ⟨k, ks⟩ := path
    simp only [hk] at h ⊢
    split at h
    · rfl
    · split at h
      · simp at h
      · rfl
    · exact insertRecord_of_none (by simpa using h)

/-- An update of a path that is there returns, if the record can be stored. -/
theorem updateImpl_returns {value old : DbValue}
    (hlmdb : ∀ k record, record.isNull = false →
      lmdb.encodes record = true ∧ lmdb.commits ns k (some record) = true)
    (hk : processKey key = some (k, ks)) (hnull : ¬(ks = [] ∧ value.isNull = true))
    (hget : db.getImpl ns key = some old) : (db.updateImpl lmdb ns key value).2 = some () := by
  rw [getImpl_of_processKey hk, lookup_cons] at hget
  obtain ⟨record, hr, hget⟩ := Option.bind_eq_some_iff.1 hget
  have hsome : (updatedRecord record ks value).isSome = true := by
    unfold updatedRecord
    cases ks with
    | nil =>
      have hn : value.isNull = false := by simpa using hnull
      simp only [List.isEmpty_nil, if_true, hn, Bool.false_eq_true, if_false]
      split_ifs <;> rfl
    | cons l ks =>
      simp only [List.isEmpty_cons, Bool.false_eq_true, if_false, ObjectTree.modify_isSome]
      rw [hget]
      rfl
  obtain ⟨new, hnew⟩ := Option.isSome_iff_exists.1 hsome
  obtain ⟨he, hc⟩ := hlmdb k new (updatedRecord_isNull hnew)
  simp [updateImpl, hk, hr, hnew, insertRecord, updatedRecord_isNull hnew, he, hc]

theorem nsContainsImpl_iff :
    db.nsContainsImpl ns key = some true ↔ (db.getImpl ns key).isSome = true := by
  unfold nsContainsImpl
  cases hk : processKey key with
  | none => simp [getImpl, hk]
  | some path =>
    obtain ⟨k, ks⟩ := path
    rw [getImpl_of_processKey hk, lookup_cons]
    cases hr : db.getRecord ns k with
    | none => simp [hr]
    | some record =>
      have hns : (db.namespaces.get ns).isNone = false := by
        obtain ⟨r, hn, -⟩ := Option.bind_eq_some_iff.1 hr
        simp [hn]
      cases ks <;> simp [hns, hr]

/-! ## Main result -/

/-- An environment that takes everything. -/
def permissive : Lmdb where
  opens _ _ := true
  dumps _ := true
  commits _ _ _ := true

theorem insertImpl_null :
    (⟨OrderedDict.empty⟩ : Database).insertImpl permissive "webcams".toList
      (.string "front".toList) .null =
    (⟨OrderedDict.empty.put "webcams".toList OrderedDict.empty⟩, some ()) := by
  rfl

end Database

end Thinker
