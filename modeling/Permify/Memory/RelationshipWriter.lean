import Permify.Memory.RelationshipReader

/-!
# The in-memory store, write after write

`src/internal/repositories/memory/relationshipWriter.go` writes and deletes the rows of
the `relation_tuples` table that `ReadRelationships` pages through. `WriteRelationships`
gives each tuple of its collection a fresh `ID` from `utils.RelationTuplesID` and inserts
it in one transaction; `DeleteRelationships` deletes the rows its lookup selects. The
table is declared in `src/internal/repositories/memory/migrations/schema.go`: its primary
index `id` is the tenant and the six fields of the tuple, and four more indexes read the
tenant, the entity, the relation and the subject type.

A store is a `Store`, an operation an `Op`, and `run` applies a list of them. From the
empty store, every run reaches a store whose rows have distinct primary keys and distinct
IDs (`run_inv`), so no two rows hold the same tenant and tuple, and the pages of
`ReadRelationships` over any selection of its rows are every selected row once, by ID
(`run_pages`). A write succeeds exactly when every tuple it is given has a tenant, an
entity type, an entity ID, a relation and a subject type (`writeRelationships_ok_iff`),
and a failed one leaves the rows as they were. After a successful write, each tuple of the
collection has a row of its key, and a row keeps its place unless the collection holds a
tuple of its key (`writeRelationships_rows`).

Mirroring notes vs the Go code and `go-memdb`:
- `utils.RelationTuplesID` is not under `src/`: the generator is the parameter `gen`, whose
  `i`-th draw is `gen i`, and `Store.drawn` counts the draws. The results on the store
  assume the draws of the run never repeat (`DrawsDistinct`).
- `txn.Insert` is `go-memdb`'s: every index of the table builds its key from the row;
  a row whose key a non-`AllowMissing` index cannot build is an error, and a row with the
  primary key of a stored row replaces it. `CompoundIndex.FromObject` appends each
  `StringFieldIndex` value and a zero byte, and at an empty value either stops, when the
  index allows missing values, or fails.
- The failed transaction is aborted, so a failed write leaves the rows; the IDs it drew
  stay drawn, as the generator lives outside the transaction.
- `GetIndexNameAndArgsByFilters` and `FilterQuery`, not under `src/`, are the parameter
  `selected` of `DeleteRelationships`. The returned snapshot tokens, taken from the clock,
  are left out.
-/

namespace Permify.Memory

/-! ## The `relation_tuples` table of `migrations.Schema` -/

/-- A field of `repositories.RelationTuple` that a `memdb.StringFieldIndex` reads. -/
inductive Field where
  | tenantId
  | entityType
  | entityId
  | relation
  | subjectType
  | subjectId
  | subjectRelation
  deriving DecidableEq, Repr

/-- The value of a field. -/
def RelationTuple.field (t : RelationTuple) : Field → String
  | .tenantId => t.tenantId
  | .entityType => t.entityType
  | .entityId => t.entityId
  | .relation => t.relation
  | .subjectType => t.subjectType
  | .subjectId => t.subjectId
  | .subjectRelation => t.subjectRelation

/-- A `memdb.CompoundIndex` of `StringFieldIndex`es. -/
structure CompoundIndex where
  name : String
  fields : List Field
  allowMissing : Bool
  deriving DecidableEq, Repr

/-- `CompoundIndex.FromObject` over the remaining fields. -/
def compoundKey (allowMissing : Bool) (t : RelationTuple) : List Field → Option String
  | [] => some ""
  | f :: fs =>
    if t.field f = "" then (if allowMissing then some "" else none)
    else (compoundKey allowMissing t fs).map (t.field f ++ "\x00" ++ ·)

/-- `CompoundIndex.FromObject`: the key of a row, if the index can build it. -/
def CompoundIndex.fromObject (ix : CompoundIndex) (t : RelationTuple) : Option String :=
  compoundKey ix.allowMissing t ix.fields

/-- The primary index `id`. -/
def idIndex : CompoundIndex :=
  ⟨"id", [.tenantId, .entityType, .entityId, .relation, .subjectType, .subjectId,
    .subjectRelation], true⟩

/-- The indexes of `relation_tuples`. -/
def relationTuplesIndexes : List CompoundIndex :=
  [idIndex,
   ⟨"entity-index", [.tenantId, .entityType, .entityId, .relation], false⟩,
   ⟨"relation-index", [.tenantId, .entityType, .relation, .subjectType], false⟩,
   ⟨"entity-type-index", [.tenantId, .entityType], false⟩,
   ⟨"entity-type-and-relation-index", [.tenantId, .entityType, .relation], false⟩]

/-- A row's primary key. -/
def primaryKey (t : RelationTuple) : Option String := idIndex.fromObject t

/-- `txn.Insert(RelationTuplesTable, t)`: `none` when an index cannot build its key, else
the rows with `t` in place of the row of its primary key. -/
def insert (rows : List RelationTuple) (t : RelationTuple) : Option (List RelationTuple) :=
  if relationTuplesIndexes.all fun ix => (ix.fromObject t).isSome then
    some (rows.filter (fun r => primaryKey r ≠ primaryKey t) ++ [t])
  else none

/-! ## Writing and deleting -/

/-- The rows of the table and the number of IDs drawn so far. -/
structure Store where
  relationTuples : List RelationTuple
  drawn : Nat
  deriving DecidableEq, Repr

/-- The store before any write. -/
def Store.empty : Store := ⟨[], 0⟩

/-- The error `WriteRelationships` returns when an insert fails. -/
inductive WriteError where
  /-- `ERROR_CODE_EXECUTION`. -/
  | execution
  deriving DecidableEq, Repr

/-- The row `WriteRelationships` builds from a tuple of its collection. -/
def RelationTuple.ofTuple (id : UInt64) (tenantId : String) (bt : Tuple) : RelationTuple :=
  ⟨id, tenantId, bt.entityType, bt.entityId, bt.relation, bt.subjectType, bt.subjectId,
    bt.subjectRelation⟩

section Gen

variable (gen : Nat → UInt64)

/-- The `for iterator.HasNext()` loop of `WriteRelationships`: each tuple draws the next ID
and is inserted; the rows, or `none` at the first failed insert, and the IDs drawn. -/
def writeLoop (tenantId : String) :
    List Tuple → List RelationTuple → Nat → Option (List RelationTuple) × Nat
  | [], rows, drawn => (some rows, drawn)
  | bt :: bts, rows, drawn =>
    match insert rows (.ofTuple (gen drawn) tenantId bt) with
    | some rows' => writeLoop tenantId bts rows' (drawn + 1)
    | none => (none, drawn + 1)

/-- `RelationshipWriter.WriteRelationships`: nothing for an empty collection, else the loop
in one transaction, committed when every insert succeeds. -/
def writeRelationships (tenantId : String) (collection : List Tuple) (s : Store) :
    Except WriteError Unit × Store :=
  if collection = [] then (.ok (), s)
  else match writeLoop gen tenantId collection s.relationTuples s.drawn with
    | (some rows, drawn) => (.ok (), ⟨rows, drawn⟩)
    | (none, drawn) => (.error .execution, { s with drawn })

/-- `RelationshipWriter.DeleteRelationships`, on the rows its lookup selects. -/
def deleteRelationships (selected : RelationTuple → Bool) (s : Store) : Store :=
  { s with relationTuples := s.relationTuples.filter fun t => !selected t }

/-- A request to the store. -/
inductive Op where
  | write (tenantId : String) (collection : List Tuple)
  | delete (selected : RelationTuple → Bool)

/-- The store after a request. -/
def Op.apply (s : Store) : Op → Store
  | .write tenantId collection => (writeRelationships gen tenantId collection s).2
  | .delete selected => deleteRelationships selected s

/-- The store after a run of requests. -/
def run (s : Store) (ops : List Op) : Store := ops.foldl (Op.apply gen) s

end Gen

/-! ## What an insert needs -/

/-- The fields the indexes without `AllowMissing` read: an insert needs them non-empty. -/
def requiredFields : List Field := [.tenantId, .entityType, .entityId, .relation, .subjectType]

theorem compoundKey_allowMissing (t : RelationTuple) : ∀ fs, (compoundKey true t fs).isSome
  | [] => rfl
  | f :: fs => by
    unfold compoundKey
    split
    · rfl
    · simp [compoundKey_allowMissing t fs]

theorem compoundKey_isSome (t : RelationTuple) :
    ∀ fs, (compoundKey false t fs).isSome ↔ ∀ f ∈ fs, t.field f ≠ ""
  | [] => by simp [compoundKey]
  | f :: fs => by
    unfold compoundKey
    split
    · next h => simp [h]
    · next h => simp [h, compoundKey_isSome t fs]

/-- Every index builds its key exactly when the required fields are non-empty. -/
theorem indexes_isSome_iff (t : RelationTuple) :
    (relationTuplesIndexes.all fun ix => (ix.fromObject t).isSome) ↔
      ∀ f ∈ requiredFields, t.field f ≠ "" := by
  simp only [relationTuplesIndexes, idIndex, CompoundIndex.fromObject, List.all_cons,
    List.all_nil, compoundKey_allowMissing, Bool.true_and, Bool.and_true, Bool.and_eq_true,
    compoundKey_isSome, requiredFields, List.forall_mem_cons, List.forall_mem_nil]
  tauto

theorem insert_isSome (rows : List RelationTuple) (t : RelationTuple) :
    (insert rows t).isSome ↔ ∀ f ∈ requiredFields, t.field f ≠ "" := by
  rw [← indexes_isSome_iff, insert]
  split <;> simp_all

/-- A row built from a tuple has its required fields when the tenant and the tuple's
entity type, entity ID, relation and subject type are non-empty. -/
theorem ofTuple_required (id : UInt64) (tenantId : String) (bt : Tuple) :
    (∀ f ∈ requiredFields, (RelationTuple.ofTuple id tenantId bt).field f ≠ "") ↔
      tenantId ≠ "" ∧ bt.entityType ≠ "" ∧ bt.entityId ≠ "" ∧ bt.relation ≠ "" ∧
        bt.subjectType ≠ "" := by
  simp [requiredFields, RelationTuple.field, RelationTuple.ofTuple]

theorem compoundKey_congr {t t' : RelationTuple} (h : ∀ f, t.field f = t'.field f)
    (allowMissing : Bool) : ∀ fs, compoundKey allowMissing t fs = compoundKey allowMissing t' fs
  | [] => rfl
  | f :: fs => by simp only [compoundKey, h f, compoundKey_congr h allowMissing fs]

/-- The primary key reads the tenant and the tuple, not the ID. -/
theorem primaryKey_eq {t t' : RelationTuple} (ht : t.tenantId = t'.tenantId)
    (hb : t.toTuple = t'.toTuple) : primaryKey t = primaryKey t' := by
  simp only [RelationTuple.toTuple, Tuple.mk.injEq] at hb
  refine compoundKey_congr (fun f => ?_) _ _
  cases f <;> simp [RelationTuple.field, ht, hb]

/-- The tuple can be written under the tenant: every index builds its key. -/
def Writable (tenantId : String) (bt : Tuple) : Prop :=
  tenantId ≠ "" ∧ bt.entityType ≠ "" ∧ bt.entityId ≠ "" ∧ bt.relation ≠ "" ∧ bt.subjectType ≠ ""

theorem insert_ofTuple_isSome (rows : List RelationTuple) (id : UInt64) (tenantId : String)
    (bt : Tuple) : (insert rows (.ofTuple id tenantId bt)).isSome ↔ Writable tenantId bt := by
  rw [insert_isSome, ofTuple_required, Writable]

theorem toTuple_ofTuple (id : UInt64) (tenantId : String) (bt : Tuple) :
    (RelationTuple.ofTuple id tenantId bt).toTuple = bt := rfl

theorem primaryKey_ofTuple (id : UInt64) (tenantId : String) (bt : Tuple) :
    primaryKey (.ofTuple id tenantId bt) = primaryKey (.ofTuple 0 tenantId bt) :=
  primaryKey_eq rfl rfl

section Insert

variable {rows rows' : List RelationTuple} {t : RelationTuple} (hi : insert rows t = some rows')
include hi

theorem insert_eq : rows' = rows.filter (fun r => primaryKey r ≠ primaryKey t) ++ [t] := by
  unfold insert at hi
  split at hi
  · exact (Option.some.inj hi).symm
  · simp at hi

theorem mem_insert {r : RelationTuple} (hr : r ∈ rows') : r ∈ rows ∨ r = t := by
  rw [insert_eq hi, List.mem_append, List.mem_filter, List.mem_singleton] at hr
  exact hr.imp And.left id

theorem insert_mem_self : t ∈ rows' := by
  rw [insert_eq hi]
  exact List.mem_append_right _ (List.mem_singleton_self t)

theorem insert_keeps {r : RelationTuple} (hr : r ∈ rows) (hk : primaryKey r ≠ primaryKey t) :
    r ∈ rows' := by
  rw [insert_eq hi]
  exact List.mem_append_left _ (List.mem_filter.2 ⟨hr, by simpa using hk⟩)

end Insert

/-! ## The store invariant -/

/-- The first `n` draws of the generator are pairwise distinct. -/
def DrawsDistinct (gen : Nat → UInt64) (n : Nat) : Prop :=
  ∀ i, i < n → ∀ j, j < n → gen i = gen j → i = j

instance (gen : Nat → UInt64) (n : Nat) : Decidable (DrawsDistinct gen n) :=
  inferInstanceAs (Decidable (∀ i, i < n → ∀ j, j < n → gen i = gen j → i = j))

theorem DrawsDistinct.mono {gen : Nat → UInt64} {m n : Nat} (h : DrawsDistinct gen n)
    (hmn : m ≤ n) : DrawsDistinct gen m :=
  fun i hi j hj => h i (by omega) j (by omega)

/-- What every reachable store satisfies: the unique index `id` holds, every row has the
fields an insert needs, and every row's ID is a draw, no two alike. -/
structure Store.Inv (gen : Nat → UInt64) (s : Store) : Prop where
  keys_nodup : (s.relationTuples.map primaryKey).Nodup
  required : ∀ t ∈ s.relationTuples, ∀ f ∈ requiredFields, t.field f ≠ ""
  drawn_ids : ∀ t ∈ s.relationTuples, ∃ i < s.drawn, gen i = t.id
  ids_nodup : (s.relationTuples.map (·.id)).Nodup

theorem Store.empty_inv (gen : Nat → UInt64) : Store.empty.Inv gen :=
  ⟨List.nodup_nil, nofun, nofun, List.nodup_nil⟩

theorem Store.Inv.mono {gen : Nat → UInt64} {rows : List RelationTuple} {m n : Nat}
    (h : Store.Inv gen ⟨rows, m⟩) (hmn : m ≤ n) : Store.Inv gen ⟨rows, n⟩ :=
  ⟨h.keys_nodup, h.required, fun t ht => (h.drawn_ids t ht).imp fun _ hi => ⟨by
    have := hi.1; simp only at this ⊢; omega, hi.2⟩, h.ids_nodup⟩

theorem nodup_map_filter_append {β : Type} (f : RelationTuple → β) {l : List RelationTuple}
    {p : RelationTuple → Bool} {a : RelationTuple} (hl : (l.map f).Nodup)
    (ha : ∀ x ∈ l.filter p, f x ≠ f a) : ((l.filter p ++ [a]).map f).Nodup := by
  rw [List.map_append, List.nodup_append]
  refine ⟨hl.sublist ((List.filter_sublist l).map f), List.nodup_singleton _, fun b hb hb' => ?_⟩
  obtain ⟨x, hx, rfl⟩ := List.mem_map.1 hb
  exact ha x hx (by simpa using hb')

section Gen

variable {gen : Nat → UInt64}

/-- An insert of a row with a fresh draw keeps the invariant. -/
theorem insert_inv {rows rows' : List RelationTuple} {drawn : Nat} {tenantId : String}
    {bt : Tuple} (hgen : DrawsDistinct gen (drawn + 1)) (h : Store.Inv gen ⟨rows, drawn⟩)
    (hi : insert rows (.ofTuple (gen drawn) tenantId bt) = some rows') :
    Store.Inv gen ⟨rows', drawn + 1⟩ := by
  have hreq := (insert_isSome rows (.ofTuple (gen drawn) tenantId bt)).1 (by rw [hi]; rfl)
  have hfresh : ∀ r ∈ rows, r.id ≠ gen drawn := fun r hr he => by
    obtain ⟨i, hi, hg⟩ := h.drawn_ids r hr
    have := hgen i (Nat.lt_succ_of_lt hi) drawn (Nat.lt_succ_self _) (hg.trans he)
    exact Nat.ne_of_lt hi this
  refine ⟨?_, fun t ht => ?_, fun t ht => ?_, ?_⟩
  · rw [insert_eq hi]
    exact nodup_map_filter_append primaryKey h.keys_nodup fun x hx => by
      simpa using (List.mem_filter.1 hx).2
  · rcases mem_insert hi ht with ht | rfl
    · exact h.required t ht
    · exact hreq
  · rcases mem_insert hi ht with ht | rfl
    · exact (h.drawn_ids t ht).imp fun i hi => ⟨Nat.lt_succ_of_lt hi.1, hi.2⟩
    · exact ⟨drawn, Nat.lt_succ_self _, rfl⟩
  · rw [insert_eq hi]
    exact nodup_map_filter_append (·.id) h.ids_nodup fun x hx =>
      hfresh x (List.mem_of_mem_filter hx)

/-- The loop draws one ID per tuple it reaches. -/
theorem writeLoop_drawn_ge (tenantId : String) :
    ∀ bts rows drawn, drawn ≤ (writeLoop gen tenantId bts rows drawn).2
  | [], _, _ => Nat.le_refl _
  | bt :: bts, rows, drawn => by
    unfold writeLoop
    split
    · exact Nat.le_trans (Nat.le_succ _) (writeLoop_drawn_ge tenantId bts _ _)
    · exact Nat.le_succ _

/-- A loop that inserts every tuple keeps the invariant. -/
theorem writeLoop_inv (tenantId : String) :
    ∀ bts rows drawn rows', Store.Inv gen ⟨rows, drawn⟩ →
      DrawsDistinct gen (writeLoop gen tenantId bts rows drawn).2 →
      (writeLoop gen tenantId bts rows drawn).1 = some rows' →
      Store.Inv gen ⟨rows', (writeLoop gen tenantId bts rows drawn).2⟩
  | [], rows, drawn, rows', h, _, hw => by
    obtain rfl := Option.some.inj hw
    exact h
  | bt :: bts, rows, drawn, rows', h, hd, hw => by
    cases hi : insert rows (.ofTuple (gen drawn) tenantId bt) with
    | none => simp [writeLoop, hi] at hw
    | some rows₁ =>
      simp only [writeLoop, hi] at hd hw ⊢
      exact writeLoop_inv tenantId bts rows₁ (drawn + 1) rows'
        (insert_inv (hd.mono (writeLoop_drawn_ge tenantId bts rows₁ (drawn + 1))) h hi) hd hw

/-- What a write can do: keep the store for an empty collection, commit the rows of a loop
whose inserts all succeed, or keep the rows when one fails; the draws are the loop's. -/
theorem writeRelationships_cases (tenantId : String) (collection : List Tuple) (s : Store) :
    (collection = [] ∧ writeRelationships gen tenantId collection s = (.ok (), s)) ∨
    (∃ rows, (writeLoop gen tenantId collection s.relationTuples s.drawn).1 = some rows ∧
      writeRelationships gen tenantId collection s =
        (.ok (), ⟨rows, (writeLoop gen tenantId collection s.relationTuples s.drawn).2⟩)) ∨
    ((writeLoop gen tenantId collection s.relationTuples s.drawn).1 = none ∧
      writeRelationships gen tenantId collection s = (.error .execution,
        ⟨s.relationTuples, (writeLoop gen tenantId collection s.relationTuples s.drawn).2⟩)) := by
  unfold writeRelationships
  split
  · exact .inl ⟨‹_›, rfl⟩
  · rcases writeLoop gen tenantId collection s.relationTuples s.drawn with ⟨_ | rows, drawn⟩
    · exact .inr (.inr ⟨rfl, rfl⟩)
    · exact .inr (.inl ⟨rows, rfl, rfl⟩)

theorem writeRelationships_drawn_ge (tenantId : String) (collection : List Tuple) (s : Store) :
    s.drawn ≤ (writeRelationships gen tenantId collection s).2.drawn := by
  have := @writeLoop_drawn_ge gen tenantId collection s.relationTuples s.drawn
  rcases @writeRelationships_cases gen tenantId collection s with ⟨-, hw⟩ | ⟨_, -, hw⟩ | ⟨-, hw⟩ <;>
    simp only [hw] <;> omega

theorem writeRelationships_inv (tenantId : String) (collection : List Tuple) {s : Store}
    (h : s.Inv gen)
    (hd : DrawsDistinct gen (writeRelationships gen tenantId collection s).2.drawn) :
    (writeRelationships gen tenantId collection s).2.Inv gen := by
  rcases @writeRelationships_cases gen tenantId collection s with
      ⟨-, hw⟩ | ⟨rows, hr, hw⟩ | ⟨-, hw⟩ <;>
    rw [hw] at hd ⊢
  · exact h
  · exact writeLoop_inv tenantId collection s.relationTuples s.drawn rows h hd hr
  · exact h.mono (writeLoop_drawn_ge tenantId collection s.relationTuples s.drawn)

theorem deleteRelationships_inv (selected : RelationTuple → Bool) {s : Store}
    (h : s.Inv gen) : (deleteRelationships selected s).Inv gen :=
  have hsub : (s.relationTuples.filter fun t => !selected t).Sublist s.relationTuples :=
    List.filter_sublist _
  ⟨h.keys_nodup.sublist (hsub.map _), fun t ht => h.required t (hsub.subset ht),
    fun t ht => h.drawn_ids t (hsub.subset ht), h.ids_nodup.sublist (hsub.map _)⟩

theorem Op.apply_drawn_ge (s : Store) : ∀ op : Op, s.drawn ≤ (op.apply gen s).drawn
  | .write tenantId collection => writeRelationships_drawn_ge tenantId collection s
  | .delete _ => Nat.le_refl _

theorem Op.apply_inv {s : Store} (h : s.Inv gen) :
    ∀ op : Op, DrawsDistinct gen (op.apply gen s).drawn → (op.apply gen s).Inv gen
  | .write tenantId collection, hd => writeRelationships_inv tenantId collection h hd
  | .delete selected, _ => deleteRelationships_inv selected h

theorem run_drawn_ge : ∀ (s : Store) (ops : List Op), s.drawn ≤ (run gen s ops).drawn
  | _, [] => Nat.le_refl _
  | s, op :: ops => Nat.le_trans (op.apply_drawn_ge s) (run_drawn_ge (op.apply gen s) ops)

/-- Every run keeps the invariant, as long as the IDs it draws do not repeat. -/
theorem run_inv : ∀ (s : Store) (ops : List Op), s.Inv gen →
    DrawsDistinct gen (run gen s ops).drawn → (run gen s ops).Inv gen
  | _, [], h, _ => h
  | s, op :: ops, h, hd =>
    run_inv (op.apply gen s) ops
      (op.apply_inv h (hd.mono (run_drawn_ge (op.apply gen s) ops))) hd

/-! ## What a write does -/

theorem writeLoop_isSome (tenantId : String) :
    ∀ bts rows drawn,
      (writeLoop gen tenantId bts rows drawn).1.isSome ↔ ∀ bt ∈ bts, Writable tenantId bt
  | [], _, _ => by simp [writeLoop]
  | bt :: bts, rows, drawn => by
    have hw := insert_ofTuple_isSome rows (gen drawn) tenantId bt
    cases hi : insert rows (.ofTuple (gen drawn) tenantId bt) with
    | none =>
      simp only [hi, Option.isSome_none, Bool.false_eq_true, false_iff] at hw
      simp only [writeLoop, hi, List.forall_mem_cons, Option.isSome_none, Bool.false_eq_true,
        false_iff]
      exact fun h => hw h.1
    | some rows₁ =>
      rw [hi] at hw
      simp only [writeLoop, hi, List.forall_mem_cons, writeLoop_isSome tenantId bts rows₁]
      simp only [Option.isSome_some, true_iff] at hw
      exact ⟨fun h => ⟨hw, h⟩, And.right⟩

/-- **Writes fail on missing fields.** `WriteRelationships` succeeds exactly when the tenant
and every tuple's entity type, entity ID, relation and subject type are non-empty; when it
fails, it leaves the rows as they were. -/
theorem writeRelationships_ok_iff (tenantId : String) (collection : List Tuple) (s : Store) :
    ((writeRelationships gen tenantId collection s).1 = .ok () ↔
      ∀ bt ∈ collection, Writable tenantId bt) ∧
    ((writeRelationships gen tenantId collection s).1 ≠ .ok () →
      (writeRelationships gen tenantId collection s).2.relationTuples = s.relationTuples) := by
  have hl := @writeLoop_isSome gen tenantId collection s.relationTuples s.drawn
  rcases @writeRelationships_cases gen tenantId collection s with
      ⟨rfl, hw⟩ | ⟨_, hr, hw⟩ | ⟨hr, hw⟩ <;>
    rw [hw]
  · simp
  · simpa [hr] using hl
  · simpa [hr] using hl

theorem writeLoop_mem {tenantId : String} : ∀ {bts rows drawn rows'},
    (writeLoop gen tenantId bts rows drawn).1 = some rows' →
      ∀ t ∈ rows', t ∈ rows ∨ (t.tenantId = tenantId ∧ t.toTuple ∈ bts)
  | [], _, _, _, hw, t, ht => by
    obtain rfl := Option.some.inj hw
    exact Or.inl ht
  | bt :: bts, rows, drawn, rows', hw, t, ht => by
    cases hi : insert rows (.ofTuple (gen drawn) tenantId bt) with
    | none => simp [writeLoop, hi] at hw
    | some rows₁ =>
      simp only [writeLoop, hi] at hw
      rcases writeLoop_mem hw t ht with ht | ⟨htn, htb⟩
      · rcases mem_insert hi ht with ht | rfl
        · exact Or.inl ht
        · exact Or.inr ⟨rfl, List.mem_cons_self _ _⟩
      · exact Or.inr ⟨htn, List.mem_cons_of_mem _ htb⟩

theorem writeLoop_keeps {tenantId : String} : ∀ {bts rows drawn rows'},
    (writeLoop gen tenantId bts rows drawn).1 = some rows' → ∀ r ∈ rows,
      (∀ bt ∈ bts, primaryKey (.ofTuple 0 tenantId bt) ≠ primaryKey r) → r ∈ rows'
  | [], _, _, _, hw, r, hr, _ => by
    obtain rfl := Option.some.inj hw
    exact hr
  | bt :: bts, rows, drawn, rows', hw, r, hr, hk => by
    cases hi : insert rows (.ofTuple (gen drawn) tenantId bt) with
    | none => simp [writeLoop, hi] at hw
    | some rows₁ =>
      simp only [writeLoop, hi] at hw
      refine writeLoop_keeps hw r (insert_keeps hi hr fun he => ?_)
        fun bt' hb => hk bt' (by simp [hb])
      exact hk bt (List.mem_cons_self _ _) (by rw [← primaryKey_ofTuple (gen drawn), he])

theorem writeLoop_keys {tenantId : String} : ∀ {bts rows drawn rows'},
    (writeLoop gen tenantId bts rows drawn).1 = some rows' → ∀ bt ∈ bts,
      ∃ t ∈ rows', primaryKey t = primaryKey (.ofTuple 0 tenantId bt)
  | [], _, _, _, _, _, hb => absurd hb (List.not_mem_nil _)
  | bt :: bts, rows, drawn, rows', hw, bt', hb => by
    cases hi : insert rows (.ofTuple (gen drawn) tenantId bt) with
    | none => simp [writeLoop, hi] at hw
    | some rows₁ =>
      simp only [writeLoop, hi] at hw
      rcases List.mem_cons.1 hb with rfl | hb
      · by_cases hlater : ∃ b ∈ bts, primaryKey (.ofTuple 0 tenantId b) =
            primaryKey (.ofTuple 0 tenantId bt')
        · obtain ⟨b, hb, he⟩ := hlater
          obtain ⟨t, ht, hk⟩ := writeLoop_keys hw b hb
          exact ⟨t, ht, hk.trans he⟩
        · push_neg at hlater
          refine ⟨_, writeLoop_keeps hw _ (insert_mem_self hi) fun b hb => ?_,
            primaryKey_ofTuple _ _ _⟩
          rw [primaryKey_ofTuple]
          exact hlater b hb
      · exact writeLoop_keys hw bt' hb

/-- **A successful write.** Every tuple of the collection has a row of its primary key; a
row keeps its place unless a tuple of the collection has its key; and every row is an old
one or a tuple of the collection under the tenant. -/
theorem writeRelationships_rows (tenantId : String) (collection : List Tuple) (s : Store)
    (h : (writeRelationships gen tenantId collection s).1 = .ok ()) :
    (∀ bt ∈ collection, ∃ t ∈ (writeRelationships gen tenantId collection s).2.relationTuples,
      primaryKey t = primaryKey (.ofTuple 0 tenantId bt)) ∧
    (∀ r ∈ s.relationTuples,
      (∀ bt ∈ collection, primaryKey (.ofTuple 0 tenantId bt) ≠ primaryKey r) →
      r ∈ (writeRelationships gen tenantId collection s).2.relationTuples) ∧
    ∀ t ∈ (writeRelationships gen tenantId collection s).2.relationTuples,
      t ∈ s.relationTuples ∨ (t.tenantId = tenantId ∧ t.toTuple ∈ collection) := by
  rcases @writeRelationships_cases gen tenantId collection s with
      ⟨rfl, hw⟩ | ⟨_, hr, hw⟩ | ⟨-, hw⟩ <;>
    rw [hw] at h ⊢
  · simp
  · exact ⟨writeLoop_keys hr, writeLoop_keeps hr, writeLoop_mem hr⟩
  · simp at h

/- Two tuples that differ only after an empty subject ID share a primary key, so the
second replaces the first. -/
example : (writeRelationships (fun i => UInt64.ofNat (i + 1)) "t1"
    [⟨"doc", "1", "viewer", "user", "", "a"⟩, ⟨"doc", "1", "viewer", "user", "", "b"⟩]
    Store.empty).2.relationTuples = [⟨2, "t1", "doc", "1", "viewer", "user", "", "b"⟩] := by
  decide

/-! ## Reachable stores and their pages -/

/-- With unique primary keys, no two rows hold the same tenant and tuple. -/
theorem Store.Inv.tuples_nodup {s : Store} (h : s.Inv gen) :
    (s.relationTuples.map fun t => (t.tenantId, t.toTuple)).Nodup := by
  have hkeys : (s.relationTuples.map fun t => (t.tenantId, t.toTuple)).map
      (fun p => primaryKey (.ofTuple 0 p.1 p.2)) = s.relationTuples.map primaryKey := by
    rw [List.map_map]
    exact List.map_congr_left fun t _ => primaryKey_eq rfl rfl
  exact List.Nodup.of_map _ (hkeys ▸ h.keys_nodup)

/-- **Reachable stores.** After any run of writes and deletes from the empty store whose ID
draws do not repeat, no two rows hold the same tenant and tuple, and reading any selection
of the rows page by page, with a page size of at least one, returns every selected row
once, in ascending ID order. -/
theorem run_pages (ops : List Op) (hd : DrawsDistinct gen (run gen .empty ops).drawn) :
    ((run gen .empty ops).relationTuples.map fun t => (t.tenantId, t.toTuple)).Nodup ∧
    ∀ (selected : RelationTuple → Bool) (pageSize : UInt32) (fuel : Nat),
      0 < pageSize.toNat → ((run gen .empty ops).relationTuples.filter selected).length < fuel →
      readAll ((run gen .empty ops).relationTuples.filter selected) pageSize fuel [] =
        some ((sortById ((run gen .empty ops).relationTuples.filter selected)).map
          RelationTuple.toTuple) := by
  have h := run_inv Store.empty ops (Store.empty_inv gen) hd
  exact ⟨h.tuples_nodup, fun selected _ _ hp hf =>
    readAll_sorted (h.ids_nodup.sublist ((List.filter_sublist _).map _)) hp hf⟩

end Gen

/-- A generator counting from `1`. -/
def docGen (i : Nat) : UInt64 := UInt64.ofNat (i + 1)

/-- Two writes for tenant t1 and a delete of its viewers. -/
def docOps : List Op :=
  [.write "t1" [⟨"doc", "1", "owner", "user", "1", ""⟩, ⟨"doc", "1", "viewer", "user", "2", ""⟩],
   .delete fun t => t.relation == "viewer",
   .write "t1" [⟨"doc", "2", "owner", "user", "1", ""⟩]]

theorem run_pages_docOps :
    DrawsDistinct docGen (run docGen .empty docOps).drawn ∧
    readAll ((run docGen .empty docOps).relationTuples.filter fun _ => true) 1 3 [] =
      some [⟨"doc", "1", "owner", "user", "1", ""⟩, ⟨"doc", "2", "owner", "user", "1", ""⟩] :=
  ⟨by decide,
    ((run_pages docOps (by decide)).2 (fun _ => true) 1 3 (by decide) (by decide)).trans
      (by decide)⟩

end Permify.Memory
