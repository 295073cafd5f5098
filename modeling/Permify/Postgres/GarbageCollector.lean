import Mathlib.Data.List.Basic
import Mathlib.Data.Int.Defs

/-!
# Garbage collection and snapshot reads

`src/internal/repositories/postgres/utils/common.go` builds the two queries that meet in
the `relation_tuples` table. A row carries the transaction that created it and, once
deleted, the transaction that expired it (`0` while it is live). `SnapshotQuery(sl, r)`
keeps the rows created by a transaction visible in the snapshot of transaction `r` (or by
`r` itself) and not expired by one (nor by `r`). `GarbageCollectQuery(window, tenant)`,
which `GarbageCollector.executeCollector` runs as a `DELETE`, selects the tenant's rows
created before a first cutoff that are live or expired before a second one. Each cutoff is
`time.Now().Add(-window)` to the second, from a call of `time.Now()` of its own.

A delete leaves a snapshot read unchanged exactly when it deletes none of the rows the read
selects (`snapshotRows_delete_iff`). For a revision in the window of both clock reads, the
rows both queries select are the live rows of the tenant created before the first cutoff
(`snapshotQuery_garbageCollectQuery_iff`): an expired row the collector deletes expired
before the second cutoff, so before the revision, whose snapshot sees that. A live row
created before the cutoff is visible in every snapshot of the window, and the collector
deletes it all the same (`garbageCollect_deletes_live_row`). So the collector leaves the
reads of the window unchanged exactly when no live row of the tenant was created before the
first cutoff (`garbageCollect_keeps_snapshots`). The window is that of both reads: when they
straddle a second, the expired rows' cutoff is a second after the created rows', and a
snapshot in the window of the first read alone may still see an expired row the delete
removes.

Each tick of `GarbageCollector.Start` runs `executeCollector` for every tenant of
`getTenants`, one after another, each call with two clock reads of its own. A round is one
`DELETE` of the rows some call selects, judged against the transactions before the round
(`collectRound_eq`). It leaves a tenant's reads at a revision in the window of every read
unchanged exactly when no call for that tenant finds a live row of it created before the
call's first cutoff (`collectRound_keeps_snapshots`), so a tenant the round does not visit
keeps its reads.

Mirroring notes vs the Go and SQL code:
- `pg_visible_in_snapshot(xid, xmin:xmax:xip_list)` is PostgreSQL's: true below `xmin`,
  false from `xmax` on, and in between true unless `xid` is in progress.
- A scalar subquery with no row is `NULL`. Every `NULL` stands in an `OR` or `AND` of the
  `WHERE` without a `NOT` above it, so reading it as `false` gives the row set the database
  returns.
- Timestamps and durations are integers of nanoseconds, Go's `time.Duration`. The cutoff
  `time.Now().Add(-window).Format(time.RFC3339)` drops the fraction of a second; the model
  assumes the column compares as the instant the text names, offset included. Go calls the
  two `time.Now()` in the order they are written; the model takes the two reads as given,
  and each result says which of them its window bounds.
- `fmt.Sprintf("tenant_id = '%v'", tenantID)` splices the ID into the SQL text unescaped.
  A tenant is a `TenantId`, an ID with no single quote, for which the clause compares the
  column with the ID (under PostgreSQL's default `standard_conforming_strings`, a backslash
  is an ordinary character). No check under `src/` keeps a quote out of a tenant ID; with
  one, `x' OR '1'='1` would select the old rows of every tenant. This is the one assumption
  the model makes about the data.
- The tuple's own columns (entity, relation, subject) and the callers' other `WHERE`
  clauses are left out. The tenant's rows stand for the caller's tenant condition.
- A round is the loop over the tenants inside `Start`'s goroutine. The ticker, the
  semaphore, the `time.Sleep(c.timeout)` after it and the errors of the SQL driver, which
  end the loop early, are left out.
-/

namespace Permify.Postgres

/-- A `pg_snapshot`, `xmin:xmax:xip_list`. -/
structure Snapshot where
  xmin : Nat
  xmax : Nat
  xip : List Nat
  deriving DecidableEq, Repr

/-- `pg_visible_in_snapshot(xid, snapshot)`. -/
def pgVisibleInSnapshot (xid : Nat) (s : Snapshot) : Bool :=
  xid < s.xmin || (xid < s.xmax && !s.xip.contains xid)

/-- A row of `transactions`. -/
structure Transaction where
  id : Nat
  snapshot : Snapshot
  timestamp : Int
  deriving DecidableEq, Repr

/-- A row of `relation_tuples`, with the columns the two queries read. -/
structure RelationTupleRow where
  tenantId : String
  createdTxId : Nat
  expiredTxId : Nat
  deriving DecidableEq, Repr

/-- The tables the queries read. -/
structure Database where
  relationTuples : List RelationTupleRow
  transactions : List Transaction
  deriving DecidableEq, Repr

/-- A tenant ID that `fmt.Sprintf("tenant_id = '%v'", tenantID)` puts into the query as one
string literal: it has no single quote. -/
structure TenantId where
  id : String
  quoteFree : Char.ofNat 39 ∉ id.toList

/-- `(select snapshot from transactions where id = revision)`. -/
def snapshotOf (txs : List Transaction) (revision : Nat) : Option Snapshot :=
  (txs.find? fun tx => tx.id = revision).map (·.snapshot)

/-- `pg_visible_in_snapshot(xid, (select snapshot …)) = b`, with `NULL` read as `false`. -/
def visibleIs (txs : List Transaction) (revision xid : Nat) (b : Bool) : Bool :=
  match snapshotOf txs revision with
  | some s => pgVisibleInSnapshot xid s == b
  | none => false

/-- The two `Where` clauses of `SnapshotQuery(sl, revision)`. -/
def snapshotQuery (txs : List Transaction) (revision : Nat) (row : RelationTupleRow) : Bool :=
  (visibleIs txs revision row.createdTxId true || row.createdTxId == revision) &&
    ((visibleIs txs revision row.expiredTxId false || row.expiredTxId == 0) &&
      row.expiredTxId != revision)

/-- `time.Now().Add(-window).Format(time.RFC3339)`: the instant, to the second. -/
def cutoff (now window : Int) : Int := (now - window) / 1000000000 * 1000000000

/-- `xid IN (SELECT id FROM transactions WHERE timestamp < c)`. -/
def committedBefore (txs : List Transaction) (c : Int) (xid : Nat) : Bool :=
  txs.any fun tx => tx.id == xid && decide (tx.timestamp < c)

/-- The rows `GarbageCollectQuery(window, tenantID)` deletes, its two `time.Now()` reading
`now₁` and then `now₂`. -/
def garbageCollectQuery (now₁ now₂ window : Int) (tenantId : TenantId)
    (txs : List Transaction) (row : RelationTupleRow) : Bool :=
  committedBefore txs (cutoff now₁ window) row.createdTxId &&
    ((row.expiredTxId == 0 || committedBefore txs (cutoff now₂ window) row.expiredTxId) &&
      row.tenantId == tenantId.id)

/-- `GarbageCollector.executeCollector`: the `DELETE` of those rows. -/
def executeCollector (now₁ now₂ window : Int) (tenantId : TenantId) (db : Database) :
    Database :=
  { db with relationTuples := db.relationTuples.filter fun row =>
      !garbageCollectQuery now₁ now₂ window tenantId db.transactions row }

/-- A call of `executeCollector` in a round: its tenant and the two clock reads of its
`GarbageCollectQuery`. -/
structure CollectorCall where
  tenantId : TenantId
  now₁ : Int
  now₂ : Int

/-- One round of `Start`: `executeCollector` for each tenant, in the order of `getTenants`. -/
def collectRound (window : Int) : List CollectorCall → Database → Database
  | [], db => db
  | c :: calls, db => collectRound window calls (executeCollector c.now₁ c.now₂ window c.tenantId db)

/-- The rows of `tenant` that `SnapshotQuery(·, revision)` selects. -/
def snapshotRows (db : Database) (tenant : String) (revision : Nat) : List RelationTupleRow :=
  db.relationTuples.filter fun row =>
    row.tenantId == tenant && snapshotQuery db.transactions revision row

/-! ## A delete and the snapshot reads -/

theorem snapshotRows_delete (db : Database) (del : RelationTupleRow → Bool) (tenant : String)
    (revision : Nat) :
    snapshotRows ⟨db.relationTuples.filter fun row => !del row, db.transactions⟩ tenant revision =
      (snapshotRows db tenant revision).filter fun row => !del row := by
  simp only [snapshotRows, List.filter_filter, Bool.and_comm]

/-- A delete leaves the reads of a tenant unchanged exactly when it deletes none of the rows
they select. -/
theorem snapshotRows_delete_iff (db : Database) (del : RelationTupleRow → Bool)
    (tenant : String) (revision : Nat) :
    snapshotRows ⟨db.relationTuples.filter fun row => !del row, db.transactions⟩ tenant revision =
      snapshotRows db tenant revision ↔
    ∀ row ∈ db.relationTuples, row.tenantId = tenant →
      snapshotQuery db.transactions revision row → del row = false := by
  rw [snapshotRows_delete, List.filter_eq_self]
  simp [snapshotRows, List.mem_filter]

/-! ## A snapshot of the window sees every transaction before the cutoff -/

theorem cutoff_le (now window : Int) : cutoff now window ≤ now - window :=
  Int.ediv_mul_le _ (by decide)

section Window

variable {db : Database} {revision : Nat} {tx : Transaction}
  (hfind : db.transactions.find? (fun t => t.id = revision) = some tx)
  (hvis : ∀ t ∈ db.transactions, t.timestamp < tx.timestamp → pgVisibleInSnapshot t.id tx.snapshot)

include hfind in
/-- The subquery finds the revision's snapshot. -/
theorem visibleIs_eq (xid : Nat) (b : Bool) :
    visibleIs db.transactions revision xid b = (pgVisibleInSnapshot xid tx.snapshot == b) := by
  simp [visibleIs, snapshotOf, hfind]

include hvis in
/-- A transaction committed before a cutoff of the window committed before the revision, so
its snapshot sees it. -/
theorem visible_of_committedBefore {now window : Int} {xid : Nat}
    (hwin : now - window ≤ tx.timestamp)
    (h : committedBefore db.transactions (cutoff now window) xid) :
    pgVisibleInSnapshot xid tx.snapshot := by
  obtain ⟨t, ht, hb⟩ := List.any_eq_true.1 h
  simp only [Bool.and_eq_true, beq_iff_eq, decide_eq_true_eq] at hb
  have := cutoff_le now window
  exact hb.1 ▸ hvis t ht (by omega)

include hfind hvis in
/-- For a revision in the window of both clock reads, the rows the collector deletes and a
snapshot selects are the live rows of the tenant created before the first cutoff. -/
theorem snapshotQuery_garbageCollectQuery_iff {now₁ now₂ window : Int} (tenantId : TenantId)
    (hwin₁ : now₁ - window ≤ tx.timestamp) (hwin₂ : now₂ - window ≤ tx.timestamp)
    (hrev : revision ≠ 0) (row : RelationTupleRow) :
    (snapshotQuery db.transactions revision row ∧
      garbageCollectQuery now₁ now₂ window tenantId db.transactions row) ↔
    row.tenantId = tenantId.id ∧ row.expiredTxId = 0 ∧
      committedBefore db.transactions (cutoff now₁ window) row.createdTxId := by
  simp only [garbageCollectQuery, snapshotQuery, visibleIs_eq hfind, Bool.and_eq_true,
    Bool.or_eq_true, beq_iff_eq, bne_iff_ne, ne_eq]
  constructor
  · rintro ⟨⟨-, hexp, -⟩, hold, hgone | hgone, ht⟩
    · exact ⟨ht, hgone, hold⟩
    · rcases hexp with hv | h0
      · simp [visible_of_committedBefore hvis hwin₂ hgone] at hv
      · exact ⟨ht, h0, hold⟩
  · rintro ⟨ht, h0, hold⟩
    simp [visible_of_committedBefore hvis hwin₁ hold, h0, Ne.symm hrev, hold, ht]

include hfind hvis in
/-- The same, as the rows a delete must spare: a row a snapshot of the window selects
escapes the collector exactly when it is not a live row of the tenant created before the
first cutoff. -/
theorem snapshotQuery_spared_iff {now₁ now₂ window : Int} (tenantId : TenantId)
    (hwin₁ : now₁ - window ≤ tx.timestamp) (hwin₂ : now₂ - window ≤ tx.timestamp)
    (hrev : revision ≠ 0) (row : RelationTupleRow) :
    (snapshotQuery db.transactions revision row →
      garbageCollectQuery now₁ now₂ window tenantId db.transactions row = false) ↔
    (row.tenantId = tenantId.id → row.expiredTxId = 0 →
      committedBefore db.transactions (cutoff now₁ window) row.createdTxId = false) := by
  simp only [← Bool.not_eq_true, ← not_and]
  exact not_congr (snapshotQuery_garbageCollectQuery_iff hfind hvis tenantId hwin₁ hwin₂ hrev row)

include hfind hvis in
/-- The collector leaves every tenant's snapshot reads at a revision in the window of both
clock reads unchanged exactly when no live row of its tenant was created before the first
cutoff. -/
theorem garbageCollect_keeps_snapshots {now₁ now₂ window : Int} (tenantId : TenantId)
    (hwin₁ : now₁ - window ≤ tx.timestamp) (hwin₂ : now₂ - window ≤ tx.timestamp)
    (hrev : revision ≠ 0) :
    (∀ tenant, snapshotRows (executeCollector now₁ now₂ window tenantId db) tenant revision =
      snapshotRows db tenant revision) ↔
    ∀ row ∈ db.relationTuples, row.tenantId = tenantId.id → row.expiredTxId = 0 →
      committedBefore db.transactions (cutoff now₁ window) row.createdTxId = false := by
  have spared := snapshotQuery_spared_iff hfind hvis tenantId hwin₁ hwin₂ hrev
  simp only [executeCollector, snapshotRows_delete_iff]
  constructor
  · exact fun h row hrow => (spared row).1 (h row.tenantId row hrow rfl)
  · exact fun h _ row hrow _ => (spared row).2 (h row hrow)

end Window

/-- Tenant t1 of the runs below. -/
def t1 : TenantId := ⟨"t1", by decide⟩

/-- Tenant t2, with no rows. -/
def t2 : TenantId := ⟨"t2", by decide⟩

/-- Tenant t1 with a row created by transaction 1 and expired by 2, long before the head 4,
and a live row created by 3, inside the window. -/
def expiredRowDb : Database :=
  ⟨[⟨"t1", 1, 2⟩, ⟨"t1", 3, 0⟩],
    [⟨1, ⟨1, 2, []⟩, 0⟩, ⟨2, ⟨2, 3, []⟩, 10000000000⟩, ⟨3, ⟨3, 4, []⟩, 95000000000⟩,
      ⟨4, ⟨4, 5, []⟩, 100000000000⟩]⟩

/-- There a collector whose clock reads 100 s and then 100.5 s deletes the expired row, and
every tenant's reads at the head stay. -/
theorem garbageCollect_keeps_snapshots_expiredRowDb :
    (executeCollector 100000000000 100500000000 10000000000 t1 expiredRowDb).relationTuples =
      [⟨"t1", 3, 0⟩] ∧
    ∀ tenant, snapshotRows (executeCollector 100000000000 100500000000 10000000000 t1
      expiredRowDb) tenant 4 = snapshotRows expiredRowDb tenant 4 :=
  ⟨by decide, (@garbageCollect_keeps_snapshots expiredRowDb 4 ⟨4, ⟨4, 5, []⟩, 100000000000⟩
    (by decide) (by decide) 100000000000 100500000000 10000000000 t1 (by decide) (by decide)
      (by decide)).2 (by decide)⟩

/-! ## A round of the collector -/

theorem executeCollector_transactions (now₁ now₂ window : Int) (tenantId : TenantId)
    (db : Database) : (executeCollector now₁ now₂ window tenantId db).transactions = db.transactions :=
  rfl

/-- The rows a round deletes: those some call's query selects. -/
def selectedInRound (window : Int) (calls : List CollectorCall) (txs : List Transaction)
    (row : RelationTupleRow) : Bool :=
  calls.any fun c => garbageCollectQuery c.now₁ c.now₂ window c.tenantId txs row

/-- A round is one delete of the rows some call selects, judged against the transactions
before the round. -/
theorem collectRound_eq (window : Int) : ∀ (calls : List CollectorCall) (db : Database),
    collectRound window calls db =
      ⟨db.relationTuples.filter fun row => !selectedInRound window calls db.transactions row,
        db.transactions⟩
  | [], db => by simp [collectRound, selectedInRound]
  | c :: calls, db => by
    rw [collectRound, collectRound_eq window calls, executeCollector_transactions]
    simp only [executeCollector, List.filter_filter, selectedInRound, List.any_cons,
      Bool.not_or, Bool.and_comm]

section Round

variable {db : Database} {revision : Nat} {tx : Transaction}
  (hfind : db.transactions.find? (fun t => t.id = revision) = some tx)
  (hvis : ∀ t ∈ db.transactions, t.timestamp < tx.timestamp → pgVisibleInSnapshot t.id tx.snapshot)

include hfind hvis in
/-- **A round and the snapshot reads.** Take a round of calls in any order, each with its
own two clock reads, and a revision in the window of every read. The round leaves the reads
of a tenant at that revision unchanged exactly when no call for that tenant finds a live
row of it created before the call's first cutoff; a tenant no call visits keeps its reads. -/
theorem collectRound_keeps_snapshots (window : Int) (calls : List CollectorCall)
    (hwin : ∀ c ∈ calls, c.now₁ - window ≤ tx.timestamp ∧ c.now₂ - window ≤ tx.timestamp)
    (hrev : revision ≠ 0) (tenant : String) :
    snapshotRows (collectRound window calls db) tenant revision = snapshotRows db tenant revision ↔
    ∀ c ∈ calls, c.tenantId.id = tenant → ∀ row ∈ db.relationTuples, row.tenantId = tenant →
      row.expiredTxId = 0 →
        committedBefore db.transactions (cutoff c.now₁ window) row.createdTxId = false := by
  have spared := fun c (hc : c ∈ calls) => snapshotQuery_spared_iff hfind hvis c.tenantId
    (hwin c hc).1 (hwin c hc).2 hrev
  simp only [collectRound_eq, snapshotRows_delete_iff, selectedInRound, List.any_eq_false,
    Bool.not_eq_true]
  constructor
  · intro h c hc hct row hrow hrt
    exact (spared c hc row).1 (fun hs => h row hrow hrt hs c hc) (hrt.trans hct.symm)
  · intro h row hrow hrt hs c hc
    exact (spared c hc row).2 (fun hct => h c hc (hct.symm.trans hrt) row hrow hrt) hs

/-- A round over t1 and t2, whose clocks read 100 s and 100.5 s, then 101 s twice: the head's
reads of t1 stay, the expired row going. -/
theorem collectRound_keeps_snapshots_expiredRowDb :
    (collectRound 10000000000 [⟨t1, 100000000000, 100500000000⟩, ⟨t2, 101000000000,
      101000000000⟩] expiredRowDb).relationTuples = [⟨"t1", 3, 0⟩] ∧
    snapshotRows (collectRound 10000000000 [⟨t1, 100000000000, 100500000000⟩,
      ⟨t2, 101000000000, 101000000000⟩] expiredRowDb) "t1" 4 = snapshotRows expiredRowDb "t1" 4 :=
  ⟨by decide, (@collectRound_keeps_snapshots expiredRowDb 4 ⟨4, ⟨4, 5, []⟩, 100000000000⟩
    (by decide) (by decide) 10000000000 _ (by decide) (by decide) "t1").2 (by decide)⟩

end Round

/-! ## The collector deletes live rows a snapshot of the window sees -/

/-- One live row of tenant t1, created by transaction 1 at time 0; the head
transaction 2 a hundred seconds later. -/
def liveRowDb : Database :=
  ⟨[⟨"t1", 1, 0⟩], [⟨1, ⟨1, 2, []⟩, 0⟩, ⟨2, ⟨2, 3, []⟩, 100000000000⟩]⟩

/-- With a window of ten seconds and both clock reads at the head's time, the head revision
is in the window and sees transaction 1, and the collector deletes the live row from its
reads. -/
theorem garbageCollect_deletes_live_row :
    liveRowDb.transactions.find? (fun t => t.id = 2) = some ⟨2, ⟨2, 3, []⟩, 100000000000⟩ ∧
    (100000000000 - 10000000000 : Int) ≤ 100000000000 ∧
    (∀ t ∈ liveRowDb.transactions, t.timestamp < 100000000000 →
      pgVisibleInSnapshot t.id ⟨2, 3, []⟩) ∧
    snapshotRows liveRowDb "t1" 2 = [⟨"t1", 1, 0⟩] ∧
    snapshotRows (executeCollector 100000000000 100000000000 10000000000 t1 liveRowDb) "t1" 2 =
      [] := by
  decide

end Permify.Postgres
