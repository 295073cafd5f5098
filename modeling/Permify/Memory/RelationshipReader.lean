import Permify.Memory.Pagination
import Mathlib.Data.List.Sort

/-!
# Reading relationships page by page

`RelationshipReader.ReadRelationships` of `src/internal/repositories/memory/
relationshipReader.go`: it decodes the continuous token into a lower bound on tuple IDs,
sorts the tuples its index lookup selects by ID, and returns the first `pageSize` of
those at or above the bound, with a token naming the ID of the next one, or the noop token
`""` when none is left. `readAll` is the client's loop: the empty token first, then each
token returned, until the noop token.

With distinct IDs and a page size of at least one, the loop ends, its pages concatenate to
every selected tuple once in ascending ID order, and every token it is handed comes with a
non-empty page and names an ID above the call's lower bound (`readAll_pages`). A call is
`pageLoop` over the sorted tuples (`pageLoop_eq`); the lower bound of the next call cuts
exactly the page just returned off the sorted tuples (`filter_next_lowerBound`), so every
call hands on a strictly shorter remainder. With page size `0` every call returns an empty
page, with the noop token only when no selected tuple is at or above its bound; otherwise
its token names the first such tuple, whose call names it again. So a loop ends at its
first call or never (`readAll_zero`): from the empty token it never ends unless nothing is
selected (`readAll_pageSize_zero`).

A client can send any token, not only those the reader hands out: the empty one, and every
base64 text of a non-empty decimal below `2⁶⁴`, which sets the bound to its value, leading
zeros and all; the rest fail with one of the two token errors (`lowerBound_accepts`).

Mirroring notes vs the Go code:
- The tuples `txn.LowerBound` and `memdb.NewFilterIterator(…, utils.FilterQuery(filter))`
  yield are the parameter `selected`: `GetIndexNameAndArgsByFilters` and `FilterQuery` are
  not under `src/`, and the lookup does not depend on the token, so every call of the loop
  sees the same tuples. Its `ERROR_CODE_EXECUTION` and `ERROR_CODE_TYPE_CONVERSATION`
  failures are not modelled.
- `sort.Slice` by `ID <` is `insertionSort` by `ID ≤`; with distinct IDs both give the
  one ascending order.
- The returned `EncodedContinuousToken` is its `String()`, as the server hands it out.
-/

namespace Permify.Memory

/-- `base.Tuple`: a relationship's entity, relation and subject. -/
structure Tuple where
  entityType : String
  entityId : String
  relation : String
  subjectType : String
  subjectId : String
  subjectRelation : String
  deriving DecidableEq, Repr

/-- `repositories.RelationTuple`, a row of the in-memory `relation_tuples` table, with the
`ID` that `WriteRelationships` draws from `utils.RelationTuplesID`. -/
structure RelationTuple where
  id : UInt64
  tenantId : String
  entityType : String
  entityId : String
  relation : String
  subjectType : String
  subjectId : String
  subjectRelation : String
  deriving DecidableEq, Repr

/-- `RelationTuple.ToTuple`. -/
def RelationTuple.toTuple (t : RelationTuple) : Tuple :=
  ⟨t.entityType, t.entityId, t.relation, t.subjectType, t.subjectId, t.subjectRelation⟩

/-- `database.Pagination`. -/
structure Pagination where
  pageSize : UInt32
  token : Bytes

/-- The errors `ReadRelationships` returns for a token it cannot read. -/
inductive ReadError where
  /-- The `base64.CorruptInputError` of `Decode`. -/
  | corruptInput
  /-- `ERROR_CODE_INVALID_CONTINUOUS_TOKEN`, when `ParseUint` fails. -/
  | invalidContinuousToken
  deriving DecidableEq, Repr

/-- The `lowerBound` a token sets: `0` for the empty token, else its decoded ID. -/
def lowerBound (token : Bytes) : Except ReadError UInt64 :=
  if token = [] then .ok 0
  else match EncodedContinuousToken.decode ⟨token⟩ with
    | none => .error .corruptInput
    | some t => match parseUint t.value with
      | none => .error .invalidContinuousToken
      | some n => .ok n

/-- `sort.Slice(tup, …)` by ascending `ID`. -/
def sortById (tup : List RelationTuple) : List RelationTuple :=
  tup.insertionSort fun a b => a.id ≤ b.id

/-- The `for _, t := range tup` loop: collect the tuples at or above `lowerBound`, and on
the first one past `pageSize` return the page and a token naming that tuple. -/
def pageLoop (pageSize : Nat) (lowerBound : UInt64) :
    List RelationTuple → List Tuple → List Tuple × Bytes
  | [], tuples => (tuples, [])
  | t :: ts, tuples =>
    if lowerBound ≤ t.id then
      if pageSize < (tuples ++ [t.toTuple]).length then
        ((tuples ++ [t.toTuple]).take pageSize, encodeToken t.id)
      else pageLoop pageSize lowerBound ts (tuples ++ [t.toTuple])
    else pageLoop pageSize lowerBound ts tuples

/-- `ReadRelationships` on the tuples the lookup selects: the page, and the token. -/
def readRelationships (selected : List RelationTuple) (pagination : Pagination) :
    Except ReadError (List Tuple × Bytes) :=
  (lowerBound pagination.token).map fun lb =>
    pageLoop pagination.pageSize.toNat lb (sortById selected) []

/-- The client's loop: `ReadRelationships` with `token`, then with each token it returns,
until the noop token; the pages joined, or `none` on an error or after `fuel` calls. -/
def readAll (selected : List RelationTuple) (pageSize : UInt32) :
    Nat → Bytes → Option (List Tuple)
  | 0, _ => none
  | fuel + 1, token =>
    match readRelationships selected ⟨pageSize, token⟩ with
    | .error _ => none
    | .ok (page, next) =>
      if next = [] then some page else (readAll selected pageSize fuel next).map (page ++ ·)

/-! ## One call -/

theorem lowerBound_nil : lowerBound [] = .ok 0 := rfl

/-- A token `ReadRelationships` hands out sets the lower bound to the ID it names. -/
theorem lowerBound_encodeToken (id : UInt64) : lowerBound (encodeToken id) = .ok id := by
  have h : (⟨encodeToken id⟩ : EncodedContinuousToken) = ContinuousToken.encode ⟨formatUint id⟩ :=
    rfl
  rw [lowerBound, if_neg (encodeToken_ne_nil id), h, ContinuousToken.decode_encode]
  simp [parseUint_formatUint]

/-- **Which tokens `ReadRelationships` accepts.** The empty token sets the bound `0`. Any
other token fails with a `CorruptInputError` exactly when it is not base64, and sets the
bound `lb` exactly when it decodes to a non-empty string of decimal digits, leading zeros
allowed, that spells `lb`; every other token fails with
`ERROR_CODE_INVALID_CONTINUOUS_TOKEN`. -/
theorem lowerBound_accepts (token : Bytes) :
    (lowerBound token = .error .corruptInput ↔ token ≠ [] ∧ decodeString token = none) ∧
    ∀ lb, lowerBound token = .ok lb ↔ token = [] ∧ lb = 0 ∨ token ≠ [] ∧
      ∃ ds, decodeString token = some ds ∧ ds ≠ [] ∧ (∀ c ∈ ds, IsDigit c) ∧
        decimalValue ds = lb.toNat := by
  by_cases ht : token = []
  · simp [lowerBound, ht, eq_comm]
  cases hd : decodeString token with
  | none => simp [lowerBound, ht, EncodedContinuousToken.decode, hd]
  | some ds =>
    simp only [lowerBound, ht, EncodedContinuousToken.decode, hd, ← parseUint_eq_some_iff]
    cases hp : parseUint ds <;> simp [hp, ht]

example : lowerBound (encodeToString [48, 48, 55]) = .ok 7 := rfl

/-- The loop returns the first `pageSize` tuples at or above the bound, and a token for
the next one if there is one. -/
theorem pageLoop_eq (pageSize : Nat) (lb : UInt64) :
    ∀ (ts : List RelationTuple) (acc : List Tuple), acc.length ≤ pageSize →
      pageLoop pageSize lb ts acc =
        match (ts.filter fun t => lb ≤ t.id).drop (pageSize - acc.length) with
        | [] => (acc ++ (ts.filter fun t => lb ≤ t.id).map RelationTuple.toTuple, [])
        | t :: _ => ((acc ++ (ts.filter fun t => lb ≤ t.id).map RelationTuple.toTuple).take
            pageSize, encodeToken t.id)
  | [], acc, _ => by simp [pageLoop]
  | t :: ts, acc, hacc => by
    rw [pageLoop]
    by_cases hlb : lb ≤ t.id
    · rw [if_pos hlb, List.filter_cons_of_pos (by simpa using hlb)]
      by_cases hp : pageSize < (acc ++ [t.toTuple]).length
      · have hlen : acc.length = pageSize := by simp at hp; omega
        rw [if_pos hp, hlen, Nat.sub_self, List.drop_zero]
        simp [← hlen]
      · rw [if_neg hp, pageLoop_eq pageSize lb ts _ (by simp at hp ⊢; omega)]
        have hlen : pageSize - acc.length = pageSize - (acc ++ [t.toTuple]).length + 1 := by
          simp at hp ⊢; omega
        simp [hlen]
    · rw [if_neg hlb, List.filter_cons_of_neg (by simpa using hlb),
        pageLoop_eq pageSize lb ts acc hacc]

/-- `ReadRelationships` with a readable token: the first `pageSize` sorted tuples at or
above its bound, and a token for the next one if there is one. -/
theorem readRelationships_eq (selected : List RelationTuple) (pageSize : UInt32)
    {token : Bytes} {lb : UInt64} (h : lowerBound token = .ok lb) :
    readRelationships selected ⟨pageSize, token⟩ =
      .ok (match ((sortById selected).filter fun t => lb ≤ t.id).drop pageSize.toNat with
        | [] => (((sortById selected).filter fun t => lb ≤ t.id).map RelationTuple.toTuple, [])
        | t :: _ => ((((sortById selected).filter fun t => lb ≤ t.id).map
            RelationTuple.toTuple).take pageSize.toNat, encodeToken t.id)) := by
  rw [readRelationships, h, Except.map, pageLoop_eq _ _ _ _ (Nat.zero_le _)]
  simp

/-! ## The sorted tuples -/

/-- With distinct IDs, the sorted tuples ascend strictly. -/
theorem sortById_strict {selected : List RelationTuple} (hid : (selected.map (·.id)).Nodup) :
    (sortById selected).Pairwise fun a b => a.id < b.id := by
  haveI : IsTotal RelationTuple fun a b => a.id ≤ b.id :=
    ⟨fun a b => Nat.le_total a.id.toNat b.id.toNat⟩
  haveI : IsTrans RelationTuple fun a b => a.id ≤ b.id := ⟨fun _ _ _ => Nat.le_trans⟩
  have hne : (sortById selected).Pairwise fun a b => a.id ≠ b.id :=
    List.pairwise_map.1 (((List.perm_insertionSort _ selected).map _).nodup_iff.2 hid)
  exact ((List.sorted_insertionSort _ selected).and hne).imp fun h =>
    Nat.lt_of_le_of_ne h.1 fun he => h.2 (UInt64.toNat.inj he)

/-- The tuple a page's token names starts the next call: the sorted tuples at or above
its ID are exactly those after the page. -/
theorem filter_next_lowerBound {S : List RelationTuple}
    (hS : S.Pairwise fun a b => a.id < b.id) (lb : UInt64) (p : Nat) {t : RelationTuple}
    {rest : List RelationTuple} (h : (S.filter fun x => lb ≤ x.id).drop p = t :: rest) :
    S.filter (fun x => t.id ≤ x.id) = t :: rest := by
  have hR := hS.sublist
    (List.filter_sublist S : List.Sublist (S.filter fun x => lb ≤ x.id) S)
  rw [← List.take_append_drop p (S.filter fun x => lb ≤ x.id), h, List.pairwise_append,
    List.pairwise_cons] at hR
  have hlb : lb ≤ t.id := by
    have ht : t ∈ S.filter fun x => lb ≤ x.id := List.mem_of_mem_drop (h ▸ List.mem_cons_self _ _)
    simpa using (List.mem_filter.1 ht).2
  have hsub : S.filter (fun x => t.id ≤ x.id) =
      (S.filter fun x => lb ≤ x.id).filter fun x => t.id ≤ x.id := by
    rw [List.filter_filter]
    exact List.filter_congr fun x _ => by
      by_cases hx : t.id ≤ x.id
      · have hx' : lb ≤ x.id := Nat.le_trans hlb hx
        simp [hx, hx']
      · simp [hx]
  rw [hsub, ← List.take_append_drop p (S.filter fun x => lb ≤ x.id), h, List.filter_append,
    List.filter_eq_nil_iff.2 fun a ha => by
      simpa using Nat.not_le.2 (hR.2.2 a ha t (List.mem_cons_self _ _)),
    List.nil_append, List.filter_cons_of_pos (by simp),
    List.filter_eq_self.2 fun b hb => by simpa using Nat.le_of_lt (hR.2.1.1 b hb)]

theorem lt_length_of_drop_eq_cons {l : List RelationTuple} {n : Nat} {t : RelationTuple}
    {rest : List RelationTuple} (h : l.drop n = t :: rest) : n < l.length := by
  have := congrArg List.length h
  simp only [List.length_drop, List.length_cons] at this
  omega

/-! ## The client's loop -/

section Loop

variable {selected : List RelationTuple} {pageSize : UInt32}

/-- From any readable token, `fuel` calls read the sorted tuples at or above its bound
`pageSize` at a time, once `fuel` pages hold them. -/
theorem readAll_from (hS : (sortById selected).Pairwise fun a b => a.id < b.id)
    (hp : 0 < pageSize.toNat) :
    ∀ (fuel : Nat) (token : Bytes) (lb : UInt64), lowerBound token = .ok lb → 0 < fuel →
      ((sortById selected).filter fun x => lb ≤ x.id).length ≤ fuel * pageSize.toNat →
      readAll selected pageSize fuel token =
        some (((sortById selected).filter fun x => lb ≤ x.id).map RelationTuple.toTuple)
  | 0, _, _, _, hf, _ => absurd hf (Nat.lt_irrefl 0)
  | fuel + 1, token, lb, h, _, hlen => by
    rw [readAll, readRelationships_eq selected pageSize h]
    cases hd : ((sortById selected).filter fun x => lb ≤ x.id).drop pageSize.toNat with
    | nil => simp
    | cons t rest =>
      have hlt := lt_length_of_drop_eq_cons hd
      have hnext := filter_next_lowerBound hS lb pageSize.toNat hd
      simp only [if_neg (encodeToken_ne_nil t.id)]
      rw [readAll_from hS hp fuel _ t.id (lowerBound_encodeToken t.id)
        (Nat.pos_of_ne_zero fun h0 => by subst h0; omega)
        (by rw [hnext, ← hd, List.length_drop]; rw [Nat.add_mul] at hlen; omega), hnext, ← hd,
        List.map_drop]
      simp

/-- With distinct IDs and a page size of at least one, a loop from the empty token with
fuel past the number of tuples reads every selected tuple once, in ascending ID order. -/
theorem readAll_sorted (hid : (selected.map (·.id)).Nodup) (hp : 0 < pageSize.toNat)
    {fuel : Nat} (hf : selected.length < fuel) :
    readAll selected pageSize fuel [] = some ((sortById selected).map RelationTuple.toTuple) := by
  have hall : ((sortById selected).filter fun x => (0 : UInt64) ≤ x.id) = sortById selected :=
    List.filter_eq_self.2 fun x _ => decide_eq_true (Nat.zero_le x.id.toNat)
  have hlen : (sortById selected).length = selected.length :=
    (List.perm_insertionSort _ selected).length_eq
  rw [readAll_from (sortById_strict hid) hp fuel [] 0 lowerBound_nil (by omega)
    (by rw [hall, hlen]; exact Nat.le_trans (Nat.le_of_lt hf) (Nat.le_mul_of_pos_right _ hp)),
    hall]

/-- A call that hands on a token other than the noop token returns a non-empty page with
it, and the token decodes to the ID of a selected tuple above the call's lower bound. -/
theorem readRelationships_next (hid : (selected.map (·.id)).Nodup) (hp : 0 < pageSize.toNat)
    {token : Bytes} {lb : UInt64} {page : List Tuple} {next : Bytes}
    (h : lowerBound token = .ok lb)
    (hr : readRelationships selected ⟨pageSize, token⟩ = .ok (page, next)) (hn : next ≠ []) :
    page ≠ [] ∧ ∃ t ∈ selected, next = encodeToken t.id ∧ lowerBound next = .ok t.id ∧
      lb < t.id := by
  have hperm := List.perm_insertionSort (fun a b : RelationTuple => a.id ≤ b.id) selected
  have hS := sortById_strict hid
  rw [readRelationships_eq selected pageSize h] at hr
  cases hd : ((sortById selected).filter fun x => lb ≤ x.id).drop pageSize.toNat with
  | nil => simp [hd] at hr; exact absurd hr.2 hn
  | cons t rest =>
    simp only [hd, Except.ok.injEq, Prod.mk.injEq] at hr
    obtain ⟨rfl, rfl⟩ := hr
    have hlt := lt_length_of_drop_eq_cons hd
    have ht : t ∈ (sortById selected).filter fun x => lb ≤ x.id :=
      List.mem_of_mem_drop (hd ▸ List.mem_cons_self _ _)
    have hR := hS.sublist (List.filter_sublist _ :
      List.Sublist ((sortById selected).filter fun x => lb ≤ x.id) (sortById selected))
    rw [← List.take_append_drop pageSize.toNat ((sortById selected).filter fun x => lb ≤ x.id),
      hd, List.pairwise_append] at hR
    obtain ⟨a, ha⟩ := List.exists_mem_of_ne_nil _ (List.ne_nil_of_length_pos (by
      rw [List.length_take]; omega) :
        ((sortById selected).filter fun x => lb ≤ x.id).take pageSize.toNat ≠ [])
    have hla : lb ≤ a.id := by simpa using (List.mem_filter.1 (List.mem_of_mem_take ha)).2
    refine ⟨List.ne_nil_of_length_pos (by simp; omega), t,
      hperm.mem_iff.1 (List.mem_of_mem_filter ht), rfl, lowerBound_encodeToken t.id,
      Nat.lt_of_le_of_lt hla (hR.2.2 a ha t (List.mem_cons_self _ _))⟩

end Loop

/-! ## Page size zero -/

/-- With page size `0` a call returns an empty page, and the token of the first sorted
tuple at or above its bound, or the noop token when there is none. -/
theorem readRelationships_zero (selected : List RelationTuple) {token : Bytes} {lb : UInt64}
    (h : lowerBound token = .ok lb) :
    readRelationships selected ⟨0, token⟩ =
      .ok ([], ((sortById selected).find? fun t => lb ≤ t.id).elim [] fun t => encodeToken t.id) := by
  rw [readRelationships_eq selected 0 h, ← List.filter_head?]
  cases (sortById selected).filter fun t => lb ≤ t.id <;> rfl

/-- The first tuple at or above a bound is also the first at or above its own ID. -/
theorem find?_lowerBound_self : ∀ {S : List RelationTuple} {lb : UInt64} {t : RelationTuple},
    S.find? (fun x => lb ≤ x.id) = some t → S.find? (fun x => t.id ≤ x.id) = some t
  | [], _, _, h => nomatch h
  | x :: xs, lb, t, h => by
    by_cases hx : lb ≤ x.id
    · rw [List.find?_cons_of_pos _ (by simpa using hx)] at h
      obtain rfl := Option.some.inj h
      exact List.find?_cons_of_pos _ (by simp)
    · rw [List.find?_cons_of_neg _ (by simpa using hx)] at h
      have ht : lb ≤ t.id := by simpa using List.find?_some h
      rw [List.find?_cons_of_neg _ (by simpa using fun h => hx (Nat.le_trans ht h)),
        find?_lowerBound_self h]

/-- From the token of a tuple that is first at or above its own ID, every call names it
again, and page size `0` never reaches the noop token. -/
theorem readAll_zero_stuck (selected : List RelationTuple) {t : RelationTuple}
    (ht : (sortById selected).find? (fun x => t.id ≤ x.id) = some t) :
    ∀ fuel, readAll selected 0 fuel (encodeToken t.id) = none
  | 0 => rfl
  | fuel + 1 => by
    rw [readAll, readRelationships_zero selected (lowerBound_encodeToken t.id), ht]
    simp [encodeToken_ne_nil, readAll_zero_stuck selected ht fuel]

/-- With page size `0`, a loop from a readable token ends at its first call, with no
tuples, when no selected tuple is at or above the token's bound, and never ends otherwise. -/
theorem readAll_zero (selected : List RelationTuple) {token : Bytes} {lb : UInt64}
    (h : lowerBound token = .ok lb) (fuel : Nat) :
    readAll selected 0 (fuel + 1) token = if ∃ t ∈ selected, lb ≤ t.id then none else some [] := by
  have hperm := List.perm_insertionSort (fun a b : RelationTuple => a.id ≤ b.id) selected
  rw [readAll, readRelationships_zero selected h]
  cases hf : (sortById selected).find? fun t => lb ≤ t.id with
  | none =>
    have hno : ¬ ∃ t ∈ selected, lb ≤ t.id := fun ⟨t, ht, hlb⟩ =>
      List.find?_eq_none.1 hf t (hperm.mem_iff.2 ht) (by simpa using hlb)
    simp [hno]
  | some t =>
    have hex : ∃ t ∈ selected, lb ≤ t.id :=
      ⟨t, hperm.mem_iff.1 (List.mem_of_find?_eq_some hf), by simpa using List.find?_some hf⟩
    simp [hex, encodeToken_ne_nil, readAll_zero_stuck selected (find?_lowerBound_self hf) fuel]

/-- **Pagination.** With distinct IDs, the selected tuples sort into strictly ascending ID
order. For a page size of at least one, the client's loop from the empty token ends within
one call more than there are tuples, and its pages are all the selected tuples, each once,
in ascending ID order; every call that returns a token other than the noop token returns a
non-empty page with it, and the token decodes to the ID of a selected tuple above the call's
lower bound. For page size zero, every call returns an empty page and the token of the first
tuple at or above its bound, the noop token when there is none; so a loop from any readable
token ends at its first call, with no tuples, exactly when no selected tuple is at or above
the token's bound, and never ends otherwise. -/
theorem readAll_pages (selected : List RelationTuple) (hid : (selected.map (·.id)).Nodup) :
    (sortById selected).Perm selected ∧
    (sortById selected).Pairwise (fun a b => a.id < b.id) ∧
    (∀ pageSize : UInt32, 0 < pageSize.toNat →
      (∀ fuel, selected.length < fuel →
        readAll selected pageSize fuel [] = some ((sortById selected).map RelationTuple.toTuple)) ∧
      ∀ token lb page next, lowerBound token = .ok lb →
        readRelationships selected ⟨pageSize, token⟩ = .ok (page, next) → next ≠ [] →
          page ≠ [] ∧ ∃ t ∈ selected, next = encodeToken t.id ∧ lowerBound next = .ok t.id ∧
            lb < t.id) ∧
    (∀ token lb, lowerBound token = .ok lb →
      readRelationships selected ⟨0, token⟩ =
        .ok ([], ((sortById selected).find? fun t => lb ≤ t.id).elim [] fun t => encodeToken t.id)) ∧
    ∀ token lb, lowerBound token = .ok lb → ∀ fuel,
      readAll selected 0 (fuel + 1) token = if ∃ t ∈ selected, lb ≤ t.id then none else some [] :=
  ⟨List.perm_insertionSort _ selected, sortById_strict hid,
    fun _ hp => ⟨fun _ hf => readAll_sorted hid hp hf,
      fun _ _ _ _ h hr hn => readRelationships_next hid hp h hr hn⟩,
    fun _ _ h => readRelationships_zero selected h, fun _ _ h fuel => readAll_zero selected h fuel⟩

/-- Three tuples, stored out of ID order. -/
def threeTuples : List RelationTuple :=
  [⟨7, "t1", "doc", "1", "owner", "user", "1", ""⟩,
   ⟨3, "t1", "doc", "1", "viewer", "user", "2", ""⟩,
   ⟨5, "t1", "doc", "2", "owner", "user", "1", ""⟩]

theorem readAll_pages_threeTuples :
    readAll threeTuples 2 4 [] = some ((sortById threeTuples).map RelationTuple.toTuple) :=
  ((readAll_pages threeTuples (by decide)).2.2.1 2 (by decide)).1 4 (by decide)

/-- One tuple, with ID `1`. -/
def oneTuple : List RelationTuple := [⟨1, "t1", "doc", "1", "owner", "user", "1", ""⟩]

/-- **Page size zero.** The first call returns an empty page and a token naming tuple `1`;
the call with that token returns the same again, so the client's loop never ends. -/
theorem readAll_pageSize_zero :
    readRelationships oneTuple ⟨0, []⟩ = .ok ([], encodeToken 1) ∧
    readRelationships oneTuple ⟨0, encodeToken 1⟩ = .ok ([], encodeToken 1) ∧
    ∀ fuel, readAll oneTuple 0 fuel [] = none := by
  have h₀ : readRelationships oneTuple ⟨0, []⟩ = .ok ([], encodeToken 1) := rfl
  have h₁ : readRelationships oneTuple ⟨0, encodeToken 1⟩ = .ok ([], encodeToken 1) := by
    rw [readRelationships_eq oneTuple 0 (lowerBound_encodeToken 1)]
    rfl
  refine ⟨h₀, h₁, fun fuel => ?_⟩
  cases fuel with
  | zero => rfl
  | succ fuel => rw [readAll_zero oneTuple lowerBound_nil, if_pos ⟨_, List.mem_cons_self _ _, Nat.zero_le _⟩]

end Permify.Memory
