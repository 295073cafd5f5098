import Permify.Dsl.Parse
import Mathlib.Data.List.Nodup

/-!
# The reference maps describe the declarations exactly

`Parse` hands four maps to the schema: `entityReferences`, `relationReferences` (key
`E#r` to the `@Type` list of relation `r`), `actionReferences` (the permission keys) and
`relationalReferences` (each key to `RELATION` or `PERMISSION`). The maps are written in
the middle of statements, by `setEntityReference` before an entity's body,
`setRelationReference` after a relation's types and `setPermissionReference` before a
permission's expression, and only the `set…Reference` methods write them.

`Declares p ents` says the maps of `p` are exactly those of the declarations in `ents`,
and that no entity name and no key occurs twice there. It holds of `newParser` with no
declarations, and each `set…Reference` that succeeds extends it by one declaration
(`setEntityReference_declares`, `setRelationReference_declares`,
`setPermissionReference_declares`): the refusals in those methods are exactly what keeps
the names and keys distinct. The expression parser and the other token loops only read
tokens and record errors (`pratt_stable`, stated for any relation that `next` keeps), so
`Declares` holds at every statement boundary, and of the schema `Parse` returns
(`parse_declares`). `SourceOrder` adds where each relation's `@Type` list comes from and
states the headline, `parse_references_exact`.
-/

namespace Permify.Dsl

/-- A property every success of a parse method must have; nothing is asked of a failure
or of fuel exhaustion. -/
abbrev Outcome.OnOk {α : Type} (Q : α → Parser → Prop) (o : Outcome α) : Prop :=
  o.Holds Q (fun _ => True) True

/-! ## Methods that only read tokens -/

/-- A relation between parser states that holds from each state to itself, composes, and
holds from each state to the one after `next`. -/
structure ReadStable (R : Parser → Parser → Prop) : Prop where
  refl : ∀ p, R p p
  trans : ∀ {p q r}, R p q → R q r → R p r
  next : ∀ p, R p p.next

section ReadStable

variable {R : Parser → Parser → Prop} (hR : ReadStable R)
include hR

namespace Parser

theorem parseDots_stable :
    ∀ (fuel : Nat) (idents : List Token) (p : Parser),
      (parseDots fuel idents p).OnOk fun _ q => R p q
  | 0, _, _ => trivial
  | fuel + 1, idents, p => by
    rw [parseDots]
    split
    · exact (parseDots_stable fuel _ _).mono fun _ _ hq =>
        hR.trans (hR.trans (hR.next p) (hR.next p.next)) hq
    · exact hR.refl p

theorem prefixParseFn_stable (pfn : PrefixParseFn) (fuel : Nat) (p : Parser) :
    (pfn.run fuel p).OnOk fun _ q => R p q := by
  cases pfn with
  | parseIdentifier => exact (parseDots_stable hR fuel _ p).bind fun _ _ hq => hq
  | parsePrefixExpression =>
    exact (parseDots_stable hR fuel _ p.next).bind fun _ _ hq => hR.trans (hR.next p) hq

/-- The Pratt core keeps every `ReadStable` relation from its input to its result. -/
theorem pratt_stable : ∀ fuel : Nat,
    (∀ (prec : Nat) (p : Parser), (parseExpression fuel prec p).OnOk fun _ q => R p q) ∧
    (∀ (prec : Nat) (exp : Expression) (p : Parser),
      (parseExpressionLoop fuel prec exp p).OnOk fun _ q => R p q) ∧
    (∀ (p : Parser), (parseInnerParen fuel p).OnOk fun _ q => R p q) ∧
    (∀ (exp : Expression) (p : Parser),
      (parseInnerParenLoop fuel exp p).OnOk fun _ q => R p q) ∧
    (∀ (left : Expression) (p : Parser),
      (parseInfixExpression fuel left p).OnOk fun _ q => R p q) := by
  intro fuel
  induction fuel with
  | zero => exact ⟨fun _ _ => trivial, fun _ _ _ => trivial, fun _ => trivial,
      fun _ _ => trivial, fun _ _ => trivial⟩
  | succ f ih =>
    obtain ⟨hE, hL, hI, hIL, hX⟩ := ih
    refine ⟨fun prec p => ?_, fun prec exp p => ?_, fun p => ?_, fun exp p => ?_,
      fun left p => ?_⟩
    · rw [parseExpression]
      split
      · exact (hI p.next).mono fun _ _ hq => hR.trans (hR.next p) hq
      · split
        · trivial
        · exact (prefixParseFn_stable hR _ f p).bind fun _ q hq =>
            (hL prec _ q).mono fun _ _ hr => hR.trans hq hr
    · rw [parseExpressionLoop]
      split
      · split
        · exact (hX exp p.next).bind fun _ q hq =>
            (hL prec _ q).mono fun _ _ hr => hR.trans (hR.trans (hR.next p) hq) hr
        · exact hR.refl p
      · exact hR.refl p
    · rw [parseInnerParen]
      split
      · exact hE LOWEST p
      · split
        · trivial
        · exact (prefixParseFn_stable hR _ f p).bind fun _ q hq =>
            (hIL _ q).mono fun _ _ hr => hR.trans hq hr
    · rw [parseInnerParenLoop]
      split
      · exact hR.refl p
      · have hp1 : R p (if p.peekTokenIs .RPAREN then p.next else p) := by
          split
          · exact hR.next p
          · exact hR.refl p
        generalize (if p.peekTokenIs .RPAREN then p.next else p) = p₁ at hp1 ⊢
        dsimp only
        split
        · exact (hX exp p₁.next).bind fun _ q hq =>
            (hIL _ q).mono fun _ _ hr => hR.trans (hR.trans (hR.trans hp1 (hR.next p₁)) hq) hr
        · exact hp1
    · rw [parseInfixExpression]
      exact (hE _ p.next).bind fun _ _ hq => hR.trans (hR.next p) hq

theorem skipRParens_stable :
    ∀ (fuel : Nat) (p : Parser), (skipRParens fuel p).OnOk fun _ q => R p q
  | 0, _ => trivial
  | fuel + 1, p => by
    rw [skipRParens]
    split
    · exact (skipRParens_stable fuel _).mono fun _ _ hq => hR.trans (hR.next p) hq
    · exact hR.refl p

theorem parseExpressionStatement_stable (fuel : Nat) (p : Parser) :
    (parseExpressionStatement fuel p).OnOk fun _ q => R p q := by
  unfold parseExpressionStatement
  refine ((pratt_stable hR fuel).1 LOWEST p).bind fun _ q hq => ?_
  dsimp only
  split
  · exact (skipRParens_stable hR fuel q.next).bind fun _ _ hr =>
      hR.trans (hR.trans hq (hR.next q)) hr
  · exact hq

theorem expectAndNext_stable (p : Parser) (t : TokenType) :
    (p.expectAndNext t).OnOk fun _ q => R p q := by
  unfold expectAndNext; split
  · exact hR.next p
  · trivial

theorem expect_stable (p : Parser) (t : TokenType) : (p.expect t).OnOk fun _ q => R p q := by
  unfold expect; split
  · exact hR.refl p
  · trivial

theorem parseRelationTypeStatement_stable (p : Parser) :
    p.parseRelationTypeStatement.OnOk fun _ q => R p q := by
  unfold parseRelationTypeStatement
  refine (expectAndNext_stable hR p .SIGN).bind fun _ p₁ h₁ => ?_
  refine (expectAndNext_stable hR p₁ .IDENT).bind fun _ p₂ h₂ => ?_
  dsimp only
  split
  · exact (expectAndNext_stable hR p₂.next .IDENT).bind fun _ _ h₃ =>
      hR.trans (hR.trans (hR.trans h₁ h₂) (hR.next p₂)) h₃
  · exact hR.trans h₁ h₂

theorem parseRelationTypes_stable :
    ∀ (fuel : Nat) (types : List RelationTypeStatement) (p : Parser),
      (parseRelationTypes fuel types p).OnOk fun _ q => R p q
  | 0, _, _ => trivial
  | fuel + 1, types, p => by
    rw [parseRelationTypes]
    split
    · exact (parseRelationTypeStatement_stable hR p).bind fun _ q hq =>
        (parseRelationTypes_stable fuel _ q).mono fun _ _ hr => hR.trans hq hr
    · exact hR.refl p

end Parser

end ReadStable

/-! ## Declarations -/

/-- The declared entity names, in source order. -/
def entityNames (ents : List EntityStatement) : List String := ents.map (·.name.literal)

/-- The relation declarations: key `E#r` and the `@Type` list, entity by entity. -/
def relationTypesOf (ents : List EntityStatement) : List (String × List RelationTypeStatement) :=
  ents.flatMap fun e =>
    e.relationStatements.map fun r => (key e.name.literal r.name.literal, r.relationTypes)

/-- The relation keys `E#r`. -/
def relationKeys (ents : List EntityStatement) : List String := (relationTypesOf ents).map Prod.fst

/-- The permission keys `E#p`. -/
def permissionKeys (ents : List EntityStatement) : List String :=
  ents.flatMap fun e => e.permissionStatements.map fun a => key e.name.literal a.name.literal

section Lists

variable (stmts : List EntityStatement) (stmt : EntityStatement)

@[simp] theorem entityNames_addRelation (r : RelationStatement) :
    entityNames (stmts ++ [{ stmt with relationStatements := stmt.relationStatements ++ [r] }])
      = entityNames (stmts ++ [stmt]) := by
  simp [entityNames]

@[simp] theorem entityNames_addPermission (a : PermissionStatement) :
    entityNames (stmts ++
      [{ stmt with permissionStatements := stmt.permissionStatements ++ [a] }])
      = entityNames (stmts ++ [stmt]) := by
  simp [entityNames]

@[simp] theorem relationTypesOf_addRelation (r : RelationStatement) :
    relationTypesOf (stmts ++ [{ stmt with relationStatements := stmt.relationStatements ++ [r] }])
      = relationTypesOf (stmts ++ [stmt]) ++
        [(key stmt.name.literal r.name.literal, r.relationTypes)] := by
  simp [relationTypesOf]

@[simp] theorem relationTypesOf_addPermission (a : PermissionStatement) :
    relationTypesOf (stmts ++
      [{ stmt with permissionStatements := stmt.permissionStatements ++ [a] }])
      = relationTypesOf (stmts ++ [stmt]) := by
  simp [relationTypesOf]

@[simp] theorem permissionKeys_addRelation (r : RelationStatement) :
    permissionKeys (stmts ++ [{ stmt with relationStatements := stmt.relationStatements ++ [r] }])
      = permissionKeys (stmts ++ [stmt]) := by
  simp [permissionKeys]

@[simp] theorem permissionKeys_addPermission (a : PermissionStatement) :
    permissionKeys (stmts ++
      [{ stmt with permissionStatements := stmt.permissionStatements ++ [a] }])
      = permissionKeys (stmts ++ [stmt]) ++ [key stmt.name.literal a.name.literal] := by
  simp [permissionKeys]

@[simp] theorem entityNames_addEntity (entity name : Token) :
    entityNames (stmts ++ [⟨entity, name, [], []⟩]) = entityNames stmts ++ [name.literal] := by
  simp [entityNames]

@[simp] theorem relationTypesOf_addEntity (entity name : Token) :
    relationTypesOf (stmts ++ [⟨entity, name, [], []⟩]) = relationTypesOf stmts := by
  simp [relationTypesOf]

@[simp] theorem permissionKeys_addEntity (entity name : Token) :
    permissionKeys (stmts ++ [⟨entity, name, [], []⟩]) = permissionKeys stmts := by
  simp [permissionKeys]

end Lists

/-- The maps of `p` are exactly those of the declarations `ents`, in which no entity name
and no key occurs twice. -/
structure Declares (p : Parser) (ents : List EntityStatement) : Prop where
  entity : ∀ k, (p.entityReferences k).isSome ↔ k ∈ entityNames ents
  relation : ∀ k ts, p.relationReferences k = some ts ↔ (k, ts) ∈ relationTypesOf ents
  action : ∀ k, (p.actionReferences k).isSome ↔ k ∈ permissionKeys ents
  relational : ∀ k, p.relationalReferences k = some .RELATION ↔ k ∈ relationKeys ents
  relationalPermission :
    ∀ k, p.relationalReferences k = some .PERMISSION ↔ k ∈ permissionKeys ents
  namesNodup : (entityNames ents).Nodup
  keysNodup : (relationKeys ents ++ permissionKeys ents).Nodup

/-- A key with no relational reference is not declared. -/
theorem Declares.fresh {p : Parser} {ents : List EntityStatement} (h : Declares p ents)
    {k : String} (hk : p.relationalReferences k = none) :
    k ∉ relationKeys ents ∧ k ∉ permissionKeys ents :=
  ⟨fun hr => by simp [(h.relational k).2 hr] at hk,
    fun hp => by simp [(h.relationalPermission k).2 hp] at hk⟩

theorem declares_newParser (toks : List Token) : Declares (newParser toks) [] where
  entity _ := by simp [newParser, entityNames]
  relation _ _ := by simp [newParser, relationTypesOf]
  action _ := by simp [newParser, permissionKeys]
  relational _ := by simp [newParser, relationKeys, relationTypesOf]
  relationalPermission _ := by simp [newParser, permissionKeys]
  namesNodup := List.nodup_nil
  keysNodup := List.nodup_nil

/-! ## The three writes -/

namespace Parser

theorem setEntityReference_declares {p : Parser} {stmts : List EntityStatement}
    (h : Declares p stmts) (entity name : Token) :
    (p.setEntityReference name.literal).OnOk fun _ q =>
      Declares q (stmts ++ [⟨entity, name, [], []⟩]) := by
  unfold setEntityReference
  split
  · trivial
  next hfresh =>
  have hn : name.literal ∉ entityNames stmts := fun hm => hfresh ((h.entity _).2 hm)
  exact {
    entity := fun k => by
      by_cases hk : k = name.literal
      · subst hk; simp
      · simp [Function.update_noteq hk, h.entity k, hk]
    relation := by simpa using h.relation
    action := by simpa using h.action
    relational := by simpa [relationKeys] using h.relational
    relationalPermission := by simpa using h.relationalPermission
    namesNodup := by simpa [List.nodup_append, hn] using h.namesNodup
    keysNodup := by simpa [relationKeys] using h.keysNodup }

theorem setRelationReference_declares {p : Parser} {stmts : List EntityStatement}
    {stmt : EntityStatement} (h : Declares p (stmts ++ [stmt])) (relation name : Token)
    (types : List RelationTypeStatement) :
    (p.setRelationReference (key stmt.name.literal name.literal) types).OnOk fun _ q =>
      Declares q (stmts ++ [{ stmt with
        relationStatements := stmt.relationStatements ++ [⟨relation, name, types⟩] }]) := by
  unfold setRelationReference
  split
  · trivial
  split
  · trivial
  next hrl =>
  have hnone : p.relationalReferences (key stmt.name.literal name.literal) = none := by
    simpa using hrl
  obtain ⟨hkr, hkp⟩ := h.fresh hnone
  exact {
    entity := by simpa using h.entity
    relation := fun k ts => by
      by_cases hk : k = key stmt.name.literal name.literal
      · subst hk
        have hnot : (key stmt.name.literal name.literal, ts) ∉ relationTypesOf (stmts ++ [stmt]) :=
          fun hm => hkr (List.mem_map_of_mem Prod.fst hm)
        simp [hnot, eq_comm]
      · simp [Function.update_noteq hk, h.relation, hk]
    action := by simpa using h.action
    relational := fun k => by
      by_cases hk : k = key stmt.name.literal name.literal
      · subst hk; simp [relationKeys]
      · simpa [Function.update_noteq hk, relationKeys, hk] using h.relational k
    relationalPermission := fun k => by
      by_cases hk : k = key stmt.name.literal name.literal
      · subst hk; simpa using hkp
      · simpa [Function.update_noteq hk] using h.relationalPermission k
    namesNodup := by simpa using h.namesNodup
    keysNodup := by
      have := h.keysNodup
      simp only [relationKeys, relationTypesOf_addRelation, permissionKeys_addRelation,
        List.map_append, List.map_cons, List.map_nil, List.append_assoc,
        List.singleton_append] at this ⊢
      exact List.nodup_middle.2 (List.nodup_cons.2 ⟨by simp_all [relationKeys], this⟩) }

theorem setPermissionReference_declares {p : Parser} {stmts : List EntityStatement}
    {stmt : EntityStatement} (h : Declares p (stmts ++ [stmt])) (name : Token) :
    (p.setPermissionReference (key stmt.name.literal name.literal)).OnOk fun _ q =>
      ∀ (permission : Token) (ex : ExpressionStatement),
        Declares q (stmts ++ [{ stmt with
          permissionStatements := stmt.permissionStatements ++ [⟨permission, name, ex⟩] }]) := by
  unfold setPermissionReference
  split
  · trivial
  split
  · trivial
  next hrl =>
  intro permission ex
  have hnone : p.relationalReferences (key stmt.name.literal name.literal) = none := by
    simpa using hrl
  obtain ⟨hkr, hkp⟩ := h.fresh hnone
  exact {
    entity := by simpa using h.entity
    relation := by simpa using h.relation
    action := fun k => by
      by_cases hk : k = key stmt.name.literal name.literal
      · subst hk; simp
      · simp [Function.update_noteq hk, h.action k, hk]
    relational := fun k => by
      by_cases hk : k = key stmt.name.literal name.literal
      · subst hk; simpa [relationKeys] using hkr
      · simpa [Function.update_noteq hk, relationKeys] using h.relational k
    relationalPermission := fun k => by
      by_cases hk : k = key stmt.name.literal name.literal
      · subst hk; simp
      · simpa [Function.update_noteq hk, hk] using h.relationalPermission k
    namesNodup := by simpa using h.namesNodup
    keysNodup := by
      have := h.keysNodup
      simp only [relationKeys, relationTypesOf_addPermission, permissionKeys_addPermission,
        ← List.append_assoc] at this ⊢
      exact List.Nodup.append this (List.nodup_singleton _)
        (List.disjoint_singleton.2 (by simp_all [relationKeys])) }

end Parser

/-! ## Statement boundaries -/

theorem Declares.of_refs {p q : Parser} {ents : List EntityStatement} (h : Declares p ents)
    (he : q.entityReferences = p.entityReferences)
    (hr : q.relationReferences = p.relationReferences)
    (ha : q.actionReferences = p.actionReferences)
    (hl : q.relationalReferences = p.relationalReferences) : Declares q ents := by
  obtain ⟨h1, h2, h3, h4, h5, h6, h7⟩ := h
  exact ⟨he ▸ h1, hr ▸ h2, ha ▸ h3, hl ▸ h4, hl ▸ h5, h6, h7⟩

/-- Reading a token keeps whatever the maps declare. -/
theorem declares_readStable :
    ReadStable fun p q => ∀ ents, Declares p ents → Declares q ents where
  refl _ _ h := h
  trans hpq hqr ents h := hqr ents (hpq ents h)
  next _ _ h := h.of_refs (by simp) (by simp) (by simp) (by simp)

namespace Parser

theorem parseRelationStatement_declares (fuel : Nat) {p : Parser}
    {stmts : List EntityStatement} {stmt : EntityStatement} (h : Declares p (stmts ++ [stmt])) :
    (parseRelationStatement fuel stmt.name.literal p).OnOk fun r q =>
      Declares q (stmts ++ [{ stmt with relationStatements := stmt.relationStatements ++ [r] }]) := by
  unfold parseRelationStatement
  refine (expectAndNext_stable declares_readStable p .IDENT).bind fun _ p₁ h₁ => ?_
  refine (expect_stable declares_readStable p₁ .SIGN).bind fun _ p₂ h₂ => ?_
  refine (parseRelationTypes_stable declares_readStable fuel [] p₂).bind fun types p₃ h₃ => ?_
  exact (setRelationReference_declares (h₃ _ (h₂ _ (h₁ _ h))) p.currentToken p₁.currentToken
    types).bind fun _ _ h₄ => h₄

theorem parsePermissionStatement_declares (fuel : Nat) {p : Parser}
    {stmts : List EntityStatement} {stmt : EntityStatement} (h : Declares p (stmts ++ [stmt])) :
    (parsePermissionStatement fuel stmt.name.literal p).OnOk fun a q =>
      Declares q (stmts ++
        [{ stmt with permissionStatements := stmt.permissionStatements ++ [a] }]) := by
  unfold parsePermissionStatement
  refine (expectAndNext_stable declares_readStable p .IDENT).bind fun _ p₁ h₁ => ?_
  refine (setPermissionReference_declares (h₁ _ h) p₁.currentToken).bind fun _ p₂ h₂ => ?_
  refine (expectAndNext_stable declares_readStable p₂ .ASSIGN).bind fun _ p₃ h₃ => ?_
  exact (parseExpressionStatement_stable declares_readStable fuel p₃.next).bind
    fun ex _ h₄ => h₄ _ (declares_readStable.next p₃ _ (h₃ _ (h₂ p.currentToken ex)))

theorem parseEntityBody_declares :
    ∀ (fuel : Nat) (stmts : List EntityStatement) (stmt : EntityStatement) (p : Parser),
      Declares p (stmts ++ [stmt]) →
      (parseEntityBody fuel stmt p).OnOk fun e q => Declares q (stmts ++ [e])
  | 0, _, _, _, _ => trivial
  | fuel + 1, stmts, stmt, p, h => by
    rw [parseEntityBody]
    split
    · exact h
    split
    · trivial
    split
    · exact (parseRelationStatement_declares fuel h).bind fun _ q hq =>
        parseEntityBody_declares fuel _ _ q.next (declares_readStable.next q _ hq)
    · exact (parsePermissionStatement_declares fuel h).bind fun _ q hq =>
        parseEntityBody_declares fuel _ _ q.next (declares_readStable.next q _ hq)
    · split
      · trivial
      · exact parseEntityBody_declares fuel _ _ p.next (declares_readStable.next p _ h)

theorem parseEntityStatement_declares (fuel : Nat) {p : Parser} {stmts : List EntityStatement}
    (h : Declares p stmts) :
    (parseEntityStatement fuel p).OnOk fun e q => Declares q (stmts ++ [e]) := by
  unfold parseEntityStatement
  refine (expectAndNext_stable declares_readStable p .IDENT).bind fun _ p₁ h₁ => ?_
  refine (setEntityReference_declares (h₁ _ h) p.currentToken p₁.currentToken).bind
    fun _ p₂ h₂ => ?_
  exact (expectAndNext_stable declares_readStable p₂ .LBRACE).bind fun _ p₃ h₃ =>
    parseEntityBody_declares fuel stmts _ p₃ (h₃ _ h₂)

theorem parseLoop_declares :
    ∀ (fuel : Nat) (stmts : List EntityStatement) (p : Parser), Declares p stmts →
      (parseLoop fuel stmts p).OnOk fun stmts' q => Declares q stmts'
  | 0, _, _, _ => trivial
  | fuel + 1, stmts, p, h => by
    rw [parseLoop]
    split
    · exact h
    unfold parseStatement
    split
    · rw [Outcome.bind_assoc]
      exact (parseEntityStatement_declares fuel h).bind fun _ q hq =>
        parseLoop_declares fuel _ q.next (declares_readStable.next q _ hq)
    · exact parseLoop_declares fuel _ p.next
        (declares_readStable.next p _ (by simpa using h))

end Parser

/-- What every success of `Parse`'s statement loop has, the schema `Parse` returns has,
with the loop's last parser holding its maps. -/
theorem parse_loop_ok {toks : List Token} {s : Schema} (h : Parse toks = (some s, none))
    {P : List EntityStatement → Parser → Prop}
    (hP : (Parser.parseLoop (parseFuel toks) [] (newParser toks)).OnOk P) :
    ∃ q : Parser, P s.statements q ∧ s.entityReferences = q.entityReferences ∧
      s.relationReferences = q.relationReferences ∧
      s.permissionReferences = q.actionReferences ∧
      s.relationalReferences = q.relationalReferences := by
  unfold Parse Parser.parse at h
  cases hr : Parser.parseLoop (parseFuel toks) [] (newParser toks) with
  | ok stmts q =>
    rw [hr] at h hP
    simp only [Outcome.ok_bind, Prod.mk.injEq, Option.some.injEq, and_true] at h
    subst h
    exact ⟨q, hP, rfl, rfl, rfl, rfl⟩
  | error _ => rw [hr] at h; simp at h
  | outOfFuel => rw [hr] at h; simp at h

/-- The schema a successful `Parse` returns declares its own statements. -/
theorem parse_declares {toks : List Token} {s : Schema} (h : Parse toks = (some s, none)) :
    ∃ q : Parser, Declares q s.statements ∧ s.entityReferences = q.entityReferences ∧
      s.relationReferences = q.relationReferences ∧
      s.permissionReferences = q.actionReferences ∧
      s.relationalReferences = q.relationalReferences :=
  parse_loop_ok h (Parser.parseLoop_declares (parseFuel toks) [] _ (declares_newParser toks))

theorem relationKeys_eq (ents : List EntityStatement) :
    relationKeys ents =
      ents.flatMap fun e => e.relationStatements.map fun r => key e.name.literal r.name.literal := by
  simp [relationKeys, relationTypesOf, List.map_flatMap, Function.comp_def]

/-- The entity's own keys are among all the keys. -/
theorem entity_keys_sublist {ents : List EntityStatement} {e : EntityStatement} (he : e ∈ ents) :
    List.Sublist ((e.relationStatements.map fun r => key e.name.literal r.name.literal) ++
        e.permissionStatements.map (fun a => key e.name.literal a.name.literal))
      (relationKeys ents ++ permissionKeys ents) := by
  rw [relationKeys_eq, permissionKeys, List.flatMap_def, List.flatMap_def]
  exact (List.sublist_flatten_of_mem (List.mem_map_of_mem
      (fun e => e.relationStatements.map fun r => key e.name.literal r.name.literal) he)).append
    (List.sublist_flatten_of_mem (List.mem_map_of_mem
      (fun e => e.permissionStatements.map fun a => key e.name.literal a.name.literal) he))

end Permify.Dsl
