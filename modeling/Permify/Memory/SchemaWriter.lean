import Permify.Memory.RelationshipWriter

/-!
# Writing schema definitions to the in-memory store

`SchemaWriter.WriteSchema` of `src/internal/repositories/memory/schemaWriter.go` inserts
each definition of a schema into the `schema_definitions` table, in one transaction. The
table is declared in `src/internal/repositories/memory/migrations/schema.go`: its primary
index `id` is the tenant, the entity type and the version, and the indexes `version` and
`tenant` read the tenant with the version and the tenant alone. None of them allows a
missing value.

A write succeeds exactly when every definition it is given has a tenant, an entity type
and a version (`writeSchema_ok_iff`); a failed one leaves the table as it was. Over any run
of writes from the empty table no two rows share an `id`, and the row of an `id` is the
last definition of that `id` a successful write carried (`runSchema_lastWrite`). So a
write of a version already stored replaces its definitions: the store does not keep a
version write-once, its writers have to.

Mirroring notes vs the Go code and `go-memdb`:
- `repositories.SchemaDefinition` is not under `src/`: a row has the fields the two
  repositories read, `TenantID`, `EntityType`, `SerializedDefinition` and `Version`.
- `txn.Insert` is as for `relation_tuples` (`Permify.Memory.insert`): every index builds
  its key from the row, a row whose key an index cannot build is an error, and a row with
  the primary key of a stored row replaces it. `CompoundIndex.FromObject` without
  `AllowMissing` appends each value and a zero byte, and fails at an empty value.
- The table is a list, with a new row at its end; the results speak of the row of a key,
  which does not depend on that order.
-/

namespace Permify.Memory

/-- `repositories.SchemaDefinition`, a row of the in-memory `schema_definitions` table. -/
structure SchemaDefinition where
  tenantId : String
  entityType : String
  serializedDefinition : String
  version : String
  deriving DecidableEq, Repr

/-- `CompoundIndex.FromObject` without `AllowMissing`, on the values its `StringFieldIndex`es
read: each value and a zero byte, or no key at an empty value. -/
def keyOfValues : List String → Option String
  | [] => some ""
  | v :: vs => if v = "" then none else (keyOfValues vs).map (v ++ "\x00" ++ ·)

/-- The values the indexes `id`, `version` and `tenant` of `schema_definitions` read. -/
def schemaDefinitionsIndexes (d : SchemaDefinition) : List (List String) :=
  [[d.tenantId, d.entityType, d.version], [d.tenantId, d.version], [d.tenantId]]

/-- A row's primary key, from the index `id`. -/
def schemaId (d : SchemaDefinition) : Option String :=
  keyOfValues [d.tenantId, d.entityType, d.version]

/-- `txn.Insert(SchemaDefinitionsTable, d)`: `none` when an index cannot build its key, else
the rows with `d` in place of the row of its primary key. -/
def insertSchemaDefinition (rows : List SchemaDefinition) (d : SchemaDefinition) :
    Option (List SchemaDefinition) :=
  if (schemaDefinitionsIndexes d).all fun vs => (keyOfValues vs).isSome then
    some (rows.filter (fun r => schemaId r ≠ schemaId d) ++ [d])
  else none

/-- The loop of `WriteSchema`: the rows, or `none` at the first failed insert. -/
def writeSchemaLoop : List SchemaDefinition → List SchemaDefinition → Option (List SchemaDefinition)
  | [], rows => some rows
  | d :: ds, rows => (insertSchemaDefinition rows d).bind (writeSchemaLoop ds)

/-- `SchemaWriter.WriteSchema`: the transaction committed when every insert succeeds, else
`ERROR_CODE_EXECUTION` and the rows as they were. -/
def writeSchema (definitions rows : List SchemaDefinition) :
    Except WriteError Unit × List SchemaDefinition :=
  match writeSchemaLoop definitions rows with
  | some rows' => (.ok (), rows')
  | none => (.error .execution, rows)

/-- The table after a run of `WriteSchema` requests. -/
def runSchema (rows : List SchemaDefinition) (requests : List (List SchemaDefinition)) :
    List SchemaDefinition :=
  requests.foldl (fun rows definitions => (writeSchema definitions rows).2) rows

/-- A definition every index can key: it has a tenant, an entity type and a version. -/
def SchemaDefinition.Keyed (d : SchemaDefinition) : Prop :=
  d.tenantId ≠ "" ∧ d.entityType ≠ "" ∧ d.version ≠ ""

instance : DecidablePred SchemaDefinition.Keyed :=
  fun _ => inferInstanceAs (Decidable (_ ∧ _ ∧ _))

/-! ## What an insert needs -/

theorem keyOfValues_isSome : ∀ vs, (keyOfValues vs).isSome ↔ ∀ v ∈ vs, v ≠ ""
  | [] => by simp [keyOfValues]
  | v :: vs => by
    by_cases h : v = "" <;> simp [keyOfValues, h, keyOfValues_isSome vs]

theorem insertSchemaDefinition_eq (rows : List SchemaDefinition) (d : SchemaDefinition) :
    insertSchemaDefinition rows d =
      if d.Keyed then some (rows.filter (fun r => schemaId r ≠ schemaId d) ++ [d]) else none := by
  have h : ((schemaDefinitionsIndexes d).all fun vs => (keyOfValues vs).isSome) ↔ d.Keyed := by
    simp only [schemaDefinitionsIndexes, List.all_cons, List.all_nil, Bool.and_true,
      Bool.and_eq_true, keyOfValues_isSome, List.forall_mem_cons, List.forall_mem_nil,
      SchemaDefinition.Keyed]
    tauto
  simp only [insertSchemaDefinition, h]

theorem writeSchemaLoop_isSome :
    ∀ ds rows, (writeSchemaLoop ds rows).isSome ↔ ∀ d ∈ ds, d.Keyed
  | [], _ => by simp [writeSchemaLoop]
  | d :: ds, _ => by
    by_cases h : d.Keyed <;>
      simp [writeSchemaLoop, insertSchemaDefinition_eq, h, writeSchemaLoop_isSome ds]

/-- **When a schema write fails.** `WriteSchema` succeeds exactly when every definition it
is given has a tenant, an entity type and a version. -/
theorem writeSchema_ok_iff (definitions rows : List SchemaDefinition) :
    (writeSchema definitions rows).1 = .ok () ↔ ∀ d ∈ definitions, d.Keyed := by
  rw [← writeSchemaLoop_isSome definitions rows, writeSchema]
  cases writeSchemaLoop definitions rows <;> simp

/-- What `WriteSchema` leaves in the table: the loop's rows when every definition is keyed,
else the rows as they were. -/
theorem writeSchema_rows (ds rows : List SchemaDefinition) :
    (∀ d ∈ ds, d.Keyed) ∧ writeSchemaLoop ds rows = some (writeSchema ds rows).2 ∨
      ¬(∀ d ∈ ds, d.Keyed) ∧ (writeSchema ds rows).2 = rows := by
  rw [← writeSchemaLoop_isSome ds rows, writeSchema]
  cases writeSchemaLoop ds rows <;> simp

/-! ## The row of a key is the last one written -/

/-- The rows of the primary key `k`. -/
def HasId (k : String) (r : SchemaDefinition) : Bool := schemaId r = some k

theorem find?_insert {rows rows' : List SchemaDefinition} {d : SchemaDefinition}
    (h : insertSchemaDefinition rows d = some rows') (k : String) :
    rows'.find? (HasId k) = ([d].find? (HasId k)).or (rows.find? (HasId k)) := by
  rw [insertSchemaDefinition_eq] at h
  split at h
  · cases h
    rw [List.find?_append, List.find?_filter, List.find?_singleton]
    by_cases hd : HasId k d
    · rw [if_pos hd, List.find?_eq_none.2 fun r _ => ?_]
      · rfl
      simp only [HasId, decide_eq_true_eq] at hd ⊢
      simp [hd]
    · rw [if_neg hd, Option.or_none, Option.none_or]
      congr 1
      funext r
      simp only [HasId, decide_eq_true_eq] at hd ⊢
      by_cases hr : schemaId r = some k
      · have : some k ≠ schemaId d := fun h => hd h.symm
        simp [hr, this]
      · simp [hr]
  · cases h

theorem nodup_insert {rows rows' : List SchemaDefinition} {d : SchemaDefinition}
    (hn : (rows.map schemaId).Nodup) (h : insertSchemaDefinition rows d = some rows') :
    (rows'.map schemaId).Nodup := by
  rw [insertSchemaDefinition_eq] at h
  split at h
  · cases h
    rw [List.map_append, List.nodup_append]
    refine ⟨hn.sublist ((List.filter_sublist rows).map schemaId), List.nodup_singleton _, ?_⟩
    intro a ha hb
    obtain ⟨r, hr, rfl⟩ := List.mem_map.1 ha
    rw [List.map_singleton, List.mem_singleton] at hb
    exact of_decide_eq_true (List.mem_filter.1 hr).2 hb
  · cases h

/-- The loop keeps the primary keys distinct, and leaves for each key the last definition
of it, or the row it had. -/
theorem writeSchemaLoop_rows : ∀ (ds rows rows' : List SchemaDefinition),
    (rows.map schemaId).Nodup → writeSchemaLoop ds rows = some rows' →
      (rows'.map schemaId).Nodup ∧
      ∀ k, rows'.find? (HasId k) = (ds.reverse.find? (HasId k)).or (rows.find? (HasId k))
  | [], rows, rows', hn, h => by
    cases h
    simp [hn]
  | d :: ds, rows, rows', hn, h => by
    simp only [writeSchemaLoop, Option.bind_eq_some] at h
    obtain ⟨rows₁, h₁, h⟩ := h
    obtain ⟨hn', hfind⟩ := writeSchemaLoop_rows ds rows₁ rows' (nodup_insert hn h₁) h
    refine ⟨hn', fun k => ?_⟩
    rw [hfind, find?_insert h₁, List.reverse_cons, List.find?_append, Option.or_assoc]

/-- A run from any table with distinct keys. -/
theorem runSchema_rows : ∀ (requests : List (List SchemaDefinition)) (rows : List SchemaDefinition),
    (rows.map schemaId).Nodup →
      ((runSchema rows requests).map schemaId).Nodup ∧
      ∀ k, (runSchema rows requests).find? (HasId k) =
        ((requests.filter fun ds => ds.all fun d => decide d.Keyed).flatten.reverse.find?
          (HasId k)).or (rows.find? (HasId k))
  | [], rows, hn => by simp [runSchema, hn]
  | ds :: requests, rows, hn => by
    have hrun : runSchema rows (ds :: requests) = runSchema (writeSchema ds rows).2 requests := rfl
    rw [hrun, List.filter_cons]
    rcases writeSchema_rows ds rows with ⟨hk, h₁⟩ | ⟨hk, hw⟩
    · obtain ⟨hn₁, hfind₁⟩ := writeSchemaLoop_rows ds rows _ hn h₁
      obtain ⟨hn', hfind⟩ := runSchema_rows requests _ hn₁
      have hall : (ds.all fun d => decide d.Keyed) = true := by simpa using hk
      refine ⟨hn', fun k => ?_⟩
      rw [hfind, hfind₁, if_pos hall, List.flatten_cons, List.reverse_append, List.find?_append,
        Option.or_assoc]
    · have hall : ¬(ds.all fun d => decide d.Keyed) = true := by simpa using hk
      rw [hw, if_neg hall]
      exact runSchema_rows requests rows hn

/-- **The last write wins.** After any run of `WriteSchema` requests from the empty table,
no two rows share a primary key, and the row of a key is the last definition of that key
that a successful request carried, a request succeeding when all its definitions have a
tenant, an entity type and a version. -/
theorem runSchema_lastWrite (requests : List (List SchemaDefinition)) :
    ((runSchema [] requests).map schemaId).Nodup ∧
    ∀ k, (runSchema [] requests).find? (HasId k) =
      (requests.filter fun ds => ds.all fun d => decide d.Keyed).flatten.reverse.find?
        (HasId k) := by
  simpa using runSchema_rows requests [] List.nodup_nil

example : runSchema [] [[⟨"t1", "doc", "a", "v1"⟩], [⟨"t1", "doc", "b", "v1"⟩]] =
    [⟨"t1", "doc", "b", "v1"⟩] := by decide

end Permify.Memory
