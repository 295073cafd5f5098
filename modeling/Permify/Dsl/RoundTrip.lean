import Permify.Dsl.Grammar
import Permify.Dsl.Termination
import Permify.Dsl.References

/-!
# Parsing the parenthesis-free grammar

What `Parse` does with the schemas of `Grammar`. Every lemma follows the parser through
one level of the grammar, with the parser `positioned` before the level's tokens and
whatever comes `after` them, and says where it ends: positioned on the level's last token
with `after` still to read, holding the tree the grammar gives. The lemmas are about any
fuel: an outcome may always be `outOfFuel` instead, and `parse_within` rules that out for
`Parse` itself. A failure is allowed only where the line, the entity or the schema has a
dangling operator or declares a name or key twice; the maps are followed with `Declares`,
and `FreshKeys` says which keys are still free.

* `parseExpression_chain`: a chain `a₀ op₁ a₁ … opₙ aₙ` parses to its left-associated
  tree, and the expression loop then goes on with whatever follows.
* `parse_schemaTokens`: every schema of the grammar whose names and keys are distinct and
  whose lines are complete parses to exactly its trees.
* `parse_schemaTokens_holds`: on such a schema `Parse` succeeds only when every line is
  complete, and fails only on a dangling operator or a name or key declared twice.

Parentheses are left out of the grammar because `parseInnerParen` does not read a group
as one operand: after the group's last operand it consumes the `)` in `peekToken` and goes
on with the operators that follow (`parse_paren_group_not_subtree`). Neither it nor
`parseExpressionStatement` checks that the parentheses balance, and
`parseExpressionStatement` leaves the parser on the token after the last `)`, which the
entity body then steps over unread: `((x)) or` parses as `x`, where `x or` is rejected
(`parse_accepts_non_sentences`).
-/

namespace Permify.Dsl

/-- `o` returns `a` in state `q`, unless its fuel runs out. -/
def Outcome.Yields {α : Type} (o : Outcome α) (a : α) (q : Parser) : Prop :=
  o = .ok a q ∨ o = .outOfFuel

theorem Outcome.Yields.bind {α β : Type} {o : Outcome α} {a : α} {q : Parser}
    {k : α → Parser → Outcome β} {Q : β → Parser → Prop} {E : Parser → Prop}
    (h : o.Yields a q) (hk : (k a q).Holds Q E True) : (o.bind k).Holds Q E True := by
  rcases h with h | h <;> rw [h]
  · exact hk
  · trivial

theorem Outcome.Yields.bind_yields {α β : Type} {o : Outcome α} {a : α} {q : Parser}
    {k : α → Parser → Outcome β} {b : β} {r : Parser}
    (h : o.Yields a q) (hk : (k a q).Yields b r) : (o.bind k).Yields b r := by
  rcases h with h | h <;> rw [h]
  · exact hk
  · exact .inr rfl

theorem Outcome.Yields.holds {α : Type} {o : Outcome α} {a : α} {q : Parser}
    {E : Parser → Prop} (h : o.Yields a q) : o.Holds (fun a' q' => a' = a ∧ q' = q) E True := by
  rcases h with rfl | rfl
  · exact ⟨rfl, rfl⟩
  · trivial

theorem Outcome.Holds.weaken_error {α : Type} {Q : α → Parser → Prop} {E E' : Parser → Prop}
    {F : Prop} {o : Outcome α} (h : o.Holds Q E F) (hE : ∀ p, E p → E' p) : o.Holds Q E' F := by
  cases o with
  | ok a p => exact h
  | error p => exact hE p h
  | outOfFuel => exact h

namespace Parser

/-- The parser with `c` as current token and `after` still to read. -/
def positioned (p : Parser) (c : Token) (after : List Token) : Parser :=
  { p with currentToken := c, peekToken := after.headD Token.eof, tokens := after.tail }

@[simp] theorem positioned_currentToken (p : Parser) (c : Token) (l : List Token) :
    (p.positioned c l).currentToken = c := rfl

@[simp] theorem positioned_peekToken (p : Parser) (c : Token) (l : List Token) :
    (p.positioned c l).peekToken = l.headD Token.eof := rfl

@[simp] theorem positioned_entityReferences (p : Parser) (c : Token) (l : List Token) :
    (p.positioned c l).entityReferences = p.entityReferences := rfl

@[simp] theorem positioned_relationReferences (p : Parser) (c : Token) (l : List Token) :
    (p.positioned c l).relationReferences = p.relationReferences := rfl

@[simp] theorem positioned_actionReferences (p : Parser) (c : Token) (l : List Token) :
    (p.positioned c l).actionReferences = p.actionReferences := rfl

@[simp] theorem positioned_relationalReferences (p : Parser) (c : Token) (l : List Token) :
    (p.positioned c l).relationalReferences = p.relationalReferences := rfl

@[simp] theorem next_positioned (p : Parser) (c : Token) (l : List Token) :
    (p.positioned c l).next = p.positioned (l.headD Token.eof) l.tail := by
  cases l with
  | nil => rfl
  | cons t ts => cases ts <;> rfl

@[simp] theorem expectAndNext_positioned (p : Parser) (c t : Token) (l : List Token) :
    (p.positioned c (t :: l)).expectAndNext t.type = .ok () (p.positioned t l) := by
  simp [expectAndNext, peekTokenIs]

@[simp] theorem expect_positioned (p : Parser) (c t : Token) (l : List Token) :
    (p.positioned c (t :: l)).expect t.type = .ok () (p.positioned c (t :: l)) := by
  simp [expect, peekTokenIs]

/-! ## Operands -/

theorem parseDots_stop (p : Parser) (c : Token) (after : List Token) (idents : List Token)
    (hdot : (after.headD Token.eof).type ≠ .DOT) (fuel : Nat) :
    (parseDots fuel idents (p.positioned c after)).Yields idents (p.positioned c after) := by
  cases fuel with
  | zero => exact .inr rfl
  | succ fuel =>
    rw [parseDots, if_neg (by simpa [peekTokenIs] using hdot)]
    exact .inl rfl

theorem parseDots_atom (p : Parser) (a : Atom) (c : Token) (after : List Token)
    (idents : List Token) (hdot : (after.headD Token.eof).type ≠ .DOT) (fuel : Nat) :
    (parseDots fuel idents (p.positioned c (a.dots ++ after))).Yields
      (idents ++ a.sub.toList.map (⟨.IDENT, ·⟩))
      (p.positioned (if a.sub.isSome then a.last else c) after) := by
  unfold Atom.dots Atom.last
  cases a.sub with
  | none => simpa using parseDots_stop p c after idents hdot fuel
  | some s =>
    cases fuel with
    | zero => exact .inr rfl
    | succ fuel =>
      rw [parseDots]
      simpa [peekTokenIs] using parseDots_stop p ⟨.IDENT, s⟩ after _ hdot fuel

/-- Either prefix function reads an operand, up to its last token, into its identifier. -/
theorem prefix_atom (p : Parser) (a : Atom) (after : List Token)
    (hdot : (after.headD Token.eof).type ≠ .DOT) (fuel : Nat) :
    ∃ pfn, prefixParseFns a.head.type = some pfn ∧
      (pfn.run fuel (p.positioned a.head (a.tail ++ after))).Yields a.ast
        (p.positioned a.last after) := by
  unfold Atom.head Atom.tail
  cases hneg : a.negated
  · refine ⟨.parseIdentifier, rfl, ?_⟩
    have h := parseDots_atom p a ⟨.IDENT, a.name⟩ after [⟨.IDENT, a.name⟩] hdot fuel
    simp only [PrefixParseFn.run, parseIdentifier, Bool.false_eq_true, if_false,
      List.nil_append, positioned_currentToken]
    refine h.bind_yields (.inl ?_)
    cases hs : a.sub <;> simp [Atom.ast, Atom.last, hneg, hs]
  · refine ⟨.parsePrefixExpression, rfl, ?_⟩
    have h := parseDots_atom p a ⟨.IDENT, a.name⟩ after [⟨.IDENT, a.name⟩] hdot fuel
    simp only [PrefixParseFn.run, parsePrefixExpression, if_true, List.singleton_append,
      next_positioned, List.headD_cons, List.tail_cons, positioned_currentToken]
    refine h.bind_yields (.inl ?_)
    cases hs : a.sub <;> simp [Atom.ast, Atom.last, hneg, hs]

/-! ## Chains -/

theorem peekPrecedence_le (q : Parser) : q.peekPrecedence ≤ LOGIC := by
  unfold peekPrecedence precedences
  split <;> simp [LOWEST, LOGIC]

/-- At precedence `LOGIC` the loop of `parseExpression` never takes an operator. -/
theorem parseExpressionLoop_logic (exp : Expression) (q : Parser) (fuel : Nat) :
    (parseExpressionLoop fuel LOGIC exp q).Yields exp q := by
  cases fuel with
  | zero => exact .inr rfl
  | succ fuel =>
    rw [parseExpressionLoop, if_neg (by have := peekPrecedence_le q; simp; omega)]
    exact .inl rfl

/-- At precedence `LOWEST` the loop stops before anything but `and` and `or`. -/
theorem parseExpressionLoop_stop (exp : Expression) (p : Parser) (c : Token)
    (after : List Token) (hop : (after.headD Token.eof).type ≠ .AND ∧
      (after.headD Token.eof).type ≠ .OR) (fuel : Nat) :
    (parseExpressionLoop fuel LOWEST exp (p.positioned c after)).Yields exp
      (p.positioned c after) := by
  cases fuel with
  | zero => exact .inr rfl
  | succ fuel =>
    have hprec : (p.positioned c after).peekPrecedence = LOWEST := by
      unfold peekPrecedence precedences
      split <;> simp_all
    rw [parseExpressionLoop, if_neg (by simp [hprec])]
    exact .inl rfl

/-- An operand alone, as the right side of an operator. -/
theorem parseExpression_atom (p : Parser) (a : Atom) (after : List Token)
    (hdot : (after.headD Token.eof).type ≠ .DOT) (fuel : Nat) :
    (parseExpression fuel LOGIC (p.positioned a.head (a.tail ++ after))).Yields a.ast
      (p.positioned a.last after) := by
  cases fuel with
  | zero => exact .inr rfl
  | succ fuel =>
    obtain ⟨pfn, hpfn, h⟩ := prefix_atom p a after hdot fuel
    rw [parseExpression, if_neg (by simpa [currentTokenIs] using a.head_ne_lparen)]
    simp only [positioned_currentToken, hpfn]
    exact h.bind_yields (parseExpressionLoop_logic _ _ fuel)

/-- `op a` after the tree `acc`. -/
theorem parseInfixExpression_atom (p : Parser) (oa : LogicOp × Atom) (after : List Token)
    (hdot : (after.headD Token.eof).type ≠ .DOT) (acc : Expression) (fuel : Nat) :
    (parseInfixExpression fuel acc
      (p.positioned oa.1.token (oa.2.head :: oa.2.tail ++ after))).Yields (joinStep acc oa)
      (p.positioned oa.2.last after) := by
  cases fuel with
  | zero => exact .inr rfl
  | succ fuel =>
    have hprec : (p.positioned oa.1.token (oa.2.head :: oa.2.tail ++ after)).currentPrecedence
        = LOGIC := by
      cases oa.1 <;> rfl
    rw [parseInfixExpression, hprec, next_positioned]
    exact (parseExpression_atom p oa.2 after hdot fuel).bind_yields (.inl rfl)

theorem restTokens_cons (oa : LogicOp × Atom) (rest : List (LogicOp × Atom)) :
    restTokens (oa :: rest) = oa.1.token :: oa.2.head :: oa.2.tail ++ restTokens rest := by
  simp [restTokens]

theorem infixParseFunc_token (op : LogicOp) : infixParseFunc op.token.type = true := by
  cases op <;> rfl

theorem peekPrecedence_op (p : Parser) (c : Token) (op : LogicOp) (l : List Token) :
    (p.positioned c (op.token :: l)).peekPrecedence = LOGIC := by
  cases op <;> rfl

theorem restTokens_head_ne_dot (rest : List (LogicOp × Atom)) (after : List Token)
    (hdot : (after.headD Token.eof).type ≠ .DOT) :
    ((restTokens rest ++ after).headD Token.eof).type ≠ .DOT := by
  cases rest with
  | nil => simpa [restTokens] using hdot
  | cons oa rest => simpa [restTokens_cons] using oa.1.token_type_ne_dot

/-- The loop of `parseExpression` at `LOWEST` reads `op₁ a₁ … opₙ aₙ` into the
left-associated tree, then goes on with whatever follows. -/
theorem parseExpressionLoop_chain (p : Parser) (after : List Token)
    (hdot : (after.headD Token.eof).type ≠ .DOT) {Q : Expression → Parser → Prop}
    {E : Parser → Prop} :
    ∀ (rest : List (LogicOp × Atom)) (acc : Expression) (c : Token) (fuel : Nat),
      (∀ fuel', (parseExpressionLoop fuel' LOWEST (rest.foldl joinStep acc)
        (p.positioned (lastToken c rest) after)).Holds Q E True) →
      (parseExpressionLoop fuel LOWEST acc (p.positioned c (restTokens rest ++ after))).Holds
        Q E True
  | [], acc, c, fuel, hk => hk fuel
  | (op, a) :: rest, acc, c, fuel, hk => by
    cases fuel with
    | zero => trivial
    | succ fuel =>
      simp only [restTokens_cons, List.cons_append, List.append_assoc]
      rw [parseExpressionLoop, if_pos (by rw [peekPrecedence_op]; cases op <;> rfl)]
      simp only [positioned_peekToken, List.headD_cons, infixParseFunc_token, if_true, next_positioned,
        List.tail_cons]
      exact (parseInfixExpression_atom p (op, a) _ (restTokens_head_ne_dot rest after hdot) acc
        fuel).bind (parseExpressionLoop_chain p after hdot rest _ a.last fuel hk)

/-- A chain parses to its left-associated tree; the loop then goes on with what follows. -/
theorem parseExpression_chain (p : Parser) (ch : Chain) (after : List Token)
    (hdot : (after.headD Token.eof).type ≠ .DOT) {Q : Expression → Parser → Prop}
    {E : Parser → Prop}
    (hk : ∀ fuel', (parseExpressionLoop fuel' LOWEST ch.ast
      (p.positioned ch.last after)).Holds Q E True) (fuel : Nat) :
    (parseExpression fuel LOWEST (p.positioned ch.first.head
      (ch.first.tail ++ (restTokens ch.rest ++ after)))).Holds Q E True := by
  cases fuel with
  | zero => trivial
  | succ fuel =>
    obtain ⟨pfn, hpfn, h⟩ := prefix_atom p ch.first (restTokens ch.rest ++ after)
      (restTokens_head_ne_dot _ after hdot) fuel
    rw [parseExpression, if_neg (by simpa [currentTokenIs] using ch.first.head_ne_lparen)]
    simp only [positioned_currentToken, hpfn]
    exact h.bind (parseExpressionLoop_chain p after hdot ch.rest _ _ fuel hk)

/-! ## Line ends -/

/-- After an operator the line ends: the right operand has no prefix function. -/
theorem parseExpressionLoop_dangling (p : Parser) (acc : Expression) (c : Token) (op : LogicOp)
    (rest : List Token) (fuel : Nat) :
    (parseExpressionLoop fuel LOWEST acc (p.positioned c (op.token :: newline :: rest))).Holds
      (fun _ _ => False) (fun _ => True) True := by
  match fuel with
  | 0 | 1 | 2 => cases op <;> trivial
  | fuel + 3 =>
    rw [parseExpressionLoop, if_pos (by rw [peekPrecedence_op]; cases op <;> rfl)]
    simp only [positioned_peekToken, List.headD_cons, infixParseFunc_token, if_true, next_positioned,
      List.tail_cons, parseInfixExpression, parseExpression]
    trivial

/-- A permission's expression: a chain, then the end of the line or a dangling operator,
which fails. -/
theorem parseExpressionStatement_line (p : Parser) (body : Chain) (trailing : Option LogicOp)
    (rest : List Token) (fuel : Nat) :
    (parseExpressionStatement fuel (p.positioned body.first.head (body.first.tail ++
      (restTokens body.rest ++ ((trailing.map LogicOp.token).toList ++ newline :: rest))))).Holds
      (fun ex q => trailing = none ∧ ex = ⟨body.ast⟩ ∧ q = p.positioned body.last (newline :: rest))
      (fun _ => trailing.isSome) True := by
  unfold parseExpressionStatement
  cases trailing with
  | none =>
    simp only [Option.map_none', Option.toList_none, List.nil_append]
    refine (parseExpression_chain p body (newline :: rest) (by simp [newline])
      (fun fuel' => (parseExpressionLoop_stop _ p _ _ (by simp [newline]) fuel').holds)
      fuel).bind ?_
    rintro _ _ ⟨rfl, rfl⟩
    exact ⟨trivial, rfl, rfl⟩
  | some op =>
    have h := parseExpression_chain p body (op.token :: newline :: rest)
      (by simpa using op.token_type_ne_dot)
      (fun fuel' => parseExpressionLoop_dangling p _ _ op rest fuel') fuel
    simp only [Option.map_some', Option.toList_some, List.singleton_append]
    exact (h.bind fun _ _ hf => hf.elim).weaken_error fun _ _ => rfl

/-! ## Writing the maps -/

/-- A key with a relational reference is declared, as a relation or as a permission. -/
theorem declared_of_relational {p : Parser} {ents : List EntityStatement} (h : Declares p ents)
    {k : String} (hk : (p.relationalReferences k).isSome) :
    k ∈ relationKeys ents ++ permissionKeys ents := by
  obtain ⟨v, hv⟩ := Option.isSome_iff_exists.1 hk
  cases v with
  | RELATION => exact List.mem_append_left _ ((h.relational k).1 hv)
  | PERMISSION => exact List.mem_append_right _ ((h.relationalPermission k).1 hv)

theorem setEntityReference_positioned {p : Parser} {stmts : List EntityStatement}
    (h : Declares p stmts) (c : Token) (l : List Token) (entity name : Token) :
    ((p.positioned c l).setEntityReference name.literal).Holds
      (fun _ q => ∃ r, q = r.positioned c l ∧ Declares r (stmts ++ [⟨entity, name, [], []⟩]))
      (fun _ => name.literal ∈ entityNames stmts) True := by
  have hd := setEntityReference_declares h entity name
  unfold setEntityReference at hd ⊢
  simp only [positioned_entityReferences]
  split
  · next hs => exact (h.entity _).1 hs
  · next hs =>
    rw [if_neg hs] at hd
    refine ⟨_, ?_, hd⟩
    rfl

theorem setRelationReference_positioned {p : Parser} {stmts : List EntityStatement}
    {stmt : EntityStatement} (h : Declares p (stmts ++ [stmt])) (c : Token) (l : List Token)
    (relation name : Token) (types : List RelationTypeStatement) :
    ((p.positioned c l).setRelationReference (key stmt.name.literal name.literal) types).Holds
      (fun _ q => ∃ r, q = r.positioned c l ∧ Declares r (stmts ++ [{ stmt with
        relationStatements := stmt.relationStatements ++ [⟨relation, name, types⟩] }]))
      (fun _ => key stmt.name.literal name.literal ∈
        relationKeys (stmts ++ [stmt]) ++ permissionKeys (stmts ++ [stmt])) True := by
  have hd := setRelationReference_declares h relation name types
  unfold setRelationReference at hd ⊢
  simp only [positioned_relationReferences, positioned_relationalReferences]
  split
  · next hs =>
    obtain ⟨ts, hts⟩ := Option.isSome_iff_exists.1 hs
    exact List.mem_append_left _ (List.mem_map_of_mem Prod.fst ((h.relation _ ts).1 hts))
  split
  · next hs => exact declared_of_relational h hs
  · next h1 h2 =>
    rw [if_neg h1, if_neg h2] at hd
    refine ⟨_, ?_, hd⟩
    rfl

theorem setPermissionReference_positioned {p : Parser} {stmts : List EntityStatement}
    {stmt : EntityStatement} (h : Declares p (stmts ++ [stmt])) (c : Token) (l : List Token)
    (name : Token) :
    ((p.positioned c l).setPermissionReference (key stmt.name.literal name.literal)).Holds
      (fun _ q => ∃ r, q = r.positioned c l ∧ ∀ (permission : Token) (ex : ExpressionStatement),
        Declares r (stmts ++ [{ stmt with
          permissionStatements := stmt.permissionStatements ++ [⟨permission, name, ex⟩] }]))
      (fun _ => key stmt.name.literal name.literal ∈
        relationKeys (stmts ++ [stmt]) ++ permissionKeys (stmts ++ [stmt])) True := by
  have hd := setPermissionReference_declares h name
  unfold setPermissionReference at hd ⊢
  simp only [positioned_actionReferences, positioned_relationalReferences]
  split
  · next hs => exact List.mem_append_right _ ((h.action _).1 hs)
  split
  · next hs => exact declared_of_relational h hs
  · next h1 h2 =>
    rw [if_neg h1, if_neg h2] at hd
    refine ⟨_, ?_, hd⟩
    rfl

/-! ## Lines -/

theorem parseRelationTypeStatement_type (p : Parser) (c : Token) (t : RelationType)
    (after : List Token) (hhash : (after.headD Token.eof).type ≠ .HASH) :
    ∃ c', (p.positioned c (t.tokens ++ after)).parseRelationTypeStatement =
      .ok t.ast (p.positioned c' after) := by
  obtain ⟨type, relation⟩ := t
  cases relation with
  | none =>
    have hh : (after.head?.getD Token.eof).type ≠ .HASH := by simpa using hhash
    refine ⟨⟨.IDENT, type⟩, ?_⟩
    simp [parseRelationTypeStatement, RelationType.tokens, RelationType.ast, expectAndNext,
      peekTokenIs, hh]
  | some r =>
    refine ⟨⟨.IDENT, r⟩, ?_⟩
    simp [parseRelationTypeStatement, RelationType.tokens, RelationType.ast, expectAndNext,
      peekTokenIs]

theorem relationTypes_head (ts : List RelationType) (after : List Token)
    (hhash : (after.headD Token.eof).type ≠ .HASH) :
    ((ts.flatMap RelationType.tokens ++ after).headD Token.eof).type ≠ .HASH := by
  cases ts with
  | nil => simpa using hhash
  | cons t ts => simp [RelationType.tokens]

/-- The loop of `parseRelationStatement` reads a list of relation types. -/
theorem parseRelationTypes_types (p : Parser) (after : List Token)
    (hsign : (after.headD Token.eof).type ≠ .SIGN) (hhash : (after.headD Token.eof).type ≠ .HASH) :
    ∀ (ts : List RelationType) (types : List RelationTypeStatement) (c : Token) (fuel : Nat),
      (parseRelationTypes fuel types (p.positioned c (ts.flatMap RelationType.tokens ++ after))).Holds
        (fun types' q => types' = types ++ ts.map RelationType.ast ∧ ∃ c', q = p.positioned c' after)
        (fun _ => False) True
  | _, _, _, 0 => trivial
  | [], types, c, fuel + 1 => by
    rw [parseRelationTypes, if_neg (by simpa [peekTokenIs] using hsign)]
    exact ⟨by simp, c, rfl⟩
  | t :: ts, types, c, fuel + 1 => by
    obtain ⟨c', hc'⟩ := parseRelationTypeStatement_type p c t _ (relationTypes_head ts after hhash)
    rw [parseRelationTypes, if_pos (by simp [peekTokenIs, RelationType.tokens]),
      List.flatMap_cons, List.append_assoc, hc', Outcome.ok_bind]
    exact (parseRelationTypes_types p after hsign hhash ts _ c' fuel).mono
      fun _ _ ⟨h₁, h₂⟩ => ⟨by simp [h₁], h₂⟩

section Lines

variable {p : Parser} {stmts : List EntityStatement} {stmt : EntityStatement}

/-- A relation line, up to its `NEWLINE`: it adds its tree, and fails only on a key the
entity has already declared. -/
theorem parseRelationStatement_line (h : Declares p (stmts ++ [stmt])) (name : String)
    (first : RelationType) (more : List RelationType) (rest : List Token) (fuel : Nat) :
    (parseRelationStatement fuel stmt.name.literal (p.positioned ⟨.RELATION, "relation"⟩
      (⟨.IDENT, name⟩ :: ((first :: more).flatMap RelationType.tokens ++ newline :: rest)))).Holds
      (fun r q => r = relationAst name first more ∧ ∃ p' c, q = p'.positioned c (newline :: rest) ∧
        Declares p' (stmts ++ [{ stmt with relationStatements := stmt.relationStatements ++ [r] }]))
      (fun _ => key stmt.name.literal name ∈
        relationKeys (stmts ++ [stmt]) ++ permissionKeys (stmts ++ [stmt])) True := by
  unfold parseRelationStatement
  rw [expectAndNext_positioned, Outcome.ok_bind, expect,
    if_pos (by simp [peekTokenIs, RelationType.tokens]), Outcome.ok_bind]
  refine ((parseRelationTypes_types p (newline :: rest) (by simp [newline]) (by simp [newline])
    _ [] _ fuel).weaken_error fun _ => False.elim).bind ?_
  rintro _ _ ⟨rfl, c', rfl⟩
  refine (setRelationReference_positioned h c' _ ⟨.RELATION, "relation"⟩ ⟨.IDENT, name⟩ _).bind ?_
  rintro _ _ ⟨r, rfl, hr⟩
  exact ⟨rfl, r, c', rfl, hr⟩

/-- A permission line, up to its `NEWLINE`: it adds its tree, and fails only on a dangling
operator or a key the entity has already declared. -/
theorem parsePermissionStatement_line (h : Declares p (stmts ++ [stmt])) (name : String)
    (body : Chain) (trailing : Option LogicOp) (rest : List Token) (fuel : Nat) :
    (parsePermissionStatement fuel stmt.name.literal (p.positioned ⟨.PERMISSION, "permission"⟩
      (⟨.IDENT, name⟩ :: ⟨.ASSIGN, "="⟩ :: body.first.head :: (body.first.tail ++
        (restTokens body.rest ++ ((trailing.map LogicOp.token).toList ++ newline :: rest)))))).Holds
      (fun a q => trailing = none ∧ a = permissionAst name body ∧ ∃ p' c,
        q = p'.positioned c (newline :: rest) ∧ Declares p' (stmts ++
          [{ stmt with permissionStatements := stmt.permissionStatements ++ [a] }]))
      (fun _ => trailing.isSome ∨ key stmt.name.literal name ∈
        relationKeys (stmts ++ [stmt]) ++ permissionKeys (stmts ++ [stmt])) True := by
  unfold parsePermissionStatement
  rw [expectAndNext_positioned, Outcome.ok_bind]
  refine ((setPermissionReference_positioned h _ _ ⟨.IDENT, name⟩).weaken_error
    fun _ => Or.inr).bind ?_
  rintro _ _ ⟨r, rfl, hr⟩
  rw [expectAndNext_positioned, Outcome.ok_bind, next_positioned]
  simp only [List.headD_cons, List.tail_cons]
  refine ((parseExpressionStatement_line r body trailing rest fuel).weaken_error
    fun _ => Or.inl).bind ?_
  rintro _ _ ⟨htr, rfl, rfl⟩
  exact ⟨htr, rfl, r, _, rfl, hr _ _⟩

end Lines

/-! ## Entity bodies -/

theorem parseEntityBody_skip (fuel : Nat) (stmt : EntityStatement) (p : Parser) (c : Token)
    (l : List Token) (hc : c.type = .NEWLINE ∨ c.type = .LBRACE) :
    parseEntityBody (fuel + 1) stmt (p.positioned c l) =
      parseEntityBody fuel stmt (p.positioned (l.headD Token.eof) l.tail) := by
  obtain ⟨type, literal⟩ := c
  obtain rfl | rfl := hc <;> simp [parseEntityBody, currentTokenIs]

theorem parseEntityBody_rbrace (fuel : Nat) (stmt : EntityStatement) (p : Parser)
    (l : List Token) :
    parseEntityBody (fuel + 1) stmt (p.positioned ⟨.RBRACE, "\x7d"⟩ l) =
      .ok stmt (p.positioned ⟨.RBRACE, "\x7d"⟩ l) := by
  simp [parseEntityBody, currentTokenIs]

theorem parseEntityBody_relation (fuel : Nat) (stmt : EntityStatement) (p : Parser)
    (l : List Token) :
    parseEntityBody (fuel + 1) stmt (p.positioned ⟨.RELATION, "relation"⟩ l) =
      (parseRelationStatement fuel stmt.name.literal (p.positioned ⟨.RELATION, "relation"⟩ l)).bind
        fun r q => parseEntityBody fuel
          { stmt with relationStatements := stmt.relationStatements ++ [r] } q.next := by
  simp [parseEntityBody, currentTokenIs]

theorem parseEntityBody_permission (fuel : Nat) (stmt : EntityStatement) (p : Parser)
    (l : List Token) :
    parseEntityBody (fuel + 1) stmt (p.positioned ⟨.PERMISSION, "permission"⟩ l) =
      (parsePermissionStatement fuel stmt.name.literal
        (p.positioned ⟨.PERMISSION, "permission"⟩ l)).bind
        fun a q => parseEntityBody fuel
          { stmt with permissionStatements := stmt.permissionStatements ++ [a] } q.next := by
  simp [parseEntityBody, currentTokenIs]

end Parser

/-- The keys `ks` are distinct, and none of them is declared by `ents`. -/
def FreshKeys (ents : List EntityStatement) (ks : List String) : Prop :=
  ks.Nodup ∧ ∀ k ∈ ks, k ∉ relationKeys ents ++ permissionKeys ents

/-- A line's tree added to the last entity uses up the line's key. -/
theorem FreshKeys.addTo {ents : List EntityStatement} {stmt : EntityStatement}
    {ks : List String} (l : Line)
    (h : FreshKeys (ents ++ [stmt]) (key stmt.name.literal l.name :: ks)) :
    FreshKeys (ents ++ [l.addTo stmt]) ks := by
  obtain ⟨hnd, hf⟩ := h
  rw [List.nodup_cons] at hnd
  refine ⟨hnd.2, fun k hk => ?_⟩
  have hne : k ≠ key stmt.name.literal l.name := fun he => hnd.1 (he ▸ hk)
  cases l <;> simp only [Line.name] at hne <;>
    simpa [Line.addTo, relationAst, permissionAst, relationKeys, hne]
      using hf k (List.mem_cons_of_mem _ hk)

@[simp] theorem freshKeys_addEntity (stmts : List EntityStatement) (entity name : Token)
    (ks : List String) :
    FreshKeys (stmts ++ [⟨entity, name, [], []⟩]) ks ↔ FreshKeys stmts ks := by
  simp [FreshKeys, relationKeys]

theorem FreshKeys.left {ents : List EntityStatement} {ks ks' : List String}
    (h : FreshKeys ents (ks ++ ks')) : FreshKeys ents ks :=
  ⟨(List.nodup_append.1 h.1).1, fun k hk => h.2 k (List.mem_append_left _ hk)⟩

namespace Parser

/-- The body loop of `parseEntityStatement` over the lines of a body, from the `NEWLINE`
before them to the closing brace: each line adds its tree, and the loop fails only on a
dangling operator or a key declared twice. On success the keys of the lines are declared,
so keys that were fresh beside them are still fresh. -/
theorem parseEntityBody_lines (after : List Token) :
    ∀ (lines : List Line) (stmts : List EntityStatement) (stmt : EntityStatement) (r : Parser),
      Declares r (stmts ++ [stmt]) → ∀ fuel : Nat,
      (parseEntityBody fuel stmt (r.positioned newline
        (linesTokens lines ++ ⟨.RBRACE, "\x7d"⟩ :: newline :: after))).Holds
        (fun stmt' q => (∀ l ∈ lines, l.trailing = none) ∧ stmt' = lines.foldl Line.addTo stmt ∧
          (∀ ks, FreshKeys (stmts ++ [stmt]) (lines.map (key stmt.name.literal ·.name) ++ ks) →
            FreshKeys (stmts ++ [stmt']) ks) ∧
          ∃ r', q = r'.positioned ⟨.RBRACE, "\x7d"⟩ (newline :: after) ∧
            Declares r' (stmts ++ [stmt']))
        (fun _ => ¬ ((∀ l ∈ lines, l.trailing = none) ∧
          FreshKeys (stmts ++ [stmt]) (lines.map (key stmt.name.literal ·.name))))
        True
  | _, _, _, _, _, 0 => trivial
  | _, _, _, _, _, 1 => by rw [parseEntityBody_skip _ _ _ _ _ (.inl rfl)]; trivial
  | [], stmts, stmt, r, h, fuel + 2 => by
    rw [parseEntityBody_skip _ _ _ _ _ (.inl rfl)]
    simp only [linesTokens, List.nil_append, List.headD_cons, List.tail_cons,
      parseEntityBody_rbrace]
    exact ⟨by simp, rfl, fun _ => by simp, r, rfl, h⟩
  | l :: ls, stmts, stmt, r, h, fuel + 2 => by
    rw [parseEntityBody_skip _ _ _ _ _ (.inl rfl)]
    simp only [linesTokens, List.append_assoc, List.cons_append]
    cases l with
    | relation name first more =>
      simp only [Line.tokens, List.cons_append, List.headD_cons, List.tail_cons,
        parseEntityBody_relation]
      refine ((parseRelationStatement_line h name first more _ fuel).weaken_error
        fun _ hk ⟨_, hf⟩ => hf.2 _ (List.mem_cons_self _ _) hk).bind ?_
      rintro _ _ ⟨rfl, r', c, rfl, hr'⟩
      rw [next_positioned]
      refine ((parseEntityBody_lines after ls stmts _ r' hr' fuel).weaken_error
        fun _ hE ⟨hc, hf⟩ => hE ⟨fun l hl => hc l (List.mem_cons_of_mem _ hl),
          hf.addTo (.relation name first more)⟩).mono ?_
      rintro _ _ ⟨hc, rfl, hks, hq⟩
      exact ⟨List.forall_mem_cons.2 ⟨rfl, hc⟩, rfl,
        fun ks hf => hks ks (hf.addTo (.relation name first more)), hq⟩
    | permission name body trailing =>
      simp only [Line.tokens, Chain.tokens, List.cons_append, List.append_assoc, List.headD_cons,
        List.tail_cons, parseEntityBody_permission]
      refine ((parsePermissionStatement_line h name body trailing _ fuel).weaken_error ?_).bind ?_
      · rintro _ (ht | hk) ⟨hc, hf⟩
        · have htr : trailing = none := hc _ (List.mem_cons_self _ _)
          simp [htr] at ht
        · exact hf.2 _ (List.mem_cons_self _ _) hk
      rintro _ _ ⟨htr, rfl, r', c, rfl, hr'⟩
      rw [next_positioned]
      refine ((parseEntityBody_lines after ls stmts _ r' hr' fuel).weaken_error
        fun _ hE ⟨hc, hf⟩ => hE ⟨fun l hl => hc l (List.mem_cons_of_mem _ hl),
          hf.addTo (.permission name body trailing)⟩).mono ?_
      rintro _ _ ⟨hc, rfl, hks, hq⟩
      exact ⟨List.forall_mem_cons.2 ⟨htr, hc⟩, rfl,
        fun ks hf => hks ks (hf.addTo (.permission name body trailing)), hq⟩

/-! ## Schemas -/

/-- An entity block: it parses to its tree, and fails only on a dangling operator, a name
declared before or a key declared twice. -/
theorem parseEntityStatement_decl {r : Parser} {stmts : List EntityStatement}
    (h : Declares r stmts) (e : EntityDecl) (after : List Token) (fuel : Nat) :
    (parseEntityStatement fuel (r.positioned ⟨.ENTITY, "entity"⟩ (⟨.IDENT, e.name⟩ ::
      ⟨.LBRACE, "\x7b"⟩ :: newline ::
        (linesTokens e.lines ++ ⟨.RBRACE, "\x7d"⟩ :: newline :: after)))).Holds
      (fun s q => e.Complete ∧ s = e.ast ∧
        (∀ ks, FreshKeys stmts (e.keys ++ ks) → FreshKeys (stmts ++ [s]) ks) ∧
        ∃ r', q = r'.positioned ⟨.RBRACE, "\x7d"⟩ (newline :: after) ∧ Declares r' (stmts ++ [s]))
      (fun _ => ¬ (e.Complete ∧ e.name ∉ entityNames stmts ∧ FreshKeys stmts e.keys)) True := by
  unfold parseEntityStatement
  rw [expectAndNext_positioned, Outcome.ok_bind]
  refine ((setEntityReference_positioned h _ _ ⟨.ENTITY, "entity"⟩ ⟨.IDENT, e.name⟩).weaken_error
    fun _ hn ⟨_, hn', _⟩ => hn' hn).bind ?_
  rintro _ _ ⟨r₁, rfl, h₁⟩
  rw [expectAndNext_positioned, Outcome.ok_bind]
  cases fuel with
  | zero => trivial
  | succ fuel =>
    rw [parseEntityBody_skip _ _ _ _ _ (.inr rfl)]
    simp only [List.headD_cons, List.tail_cons]
    refine ((parseEntityBody_lines after e.lines stmts _ r₁ h₁ fuel).weaken_error
      fun _ hE ⟨hc, _, hf⟩ => hE ⟨hc, (freshKeys_addEntity _ _ _ _).2 hf⟩).mono ?_
    rintro _ _ ⟨hc, rfl, hks, hq⟩
    exact ⟨hc, rfl, fun ks hf => hks ks ((freshKeys_addEntity _ _ _ _).2 hf), hq⟩

theorem parseLoop_skip (fuel : Nat) (stmts : List EntityStatement) (p : Parser) (c : Token)
    (l : List Token) (heof : c.type ≠ .EOF) (hent : c.type ≠ .ENTITY) :
    parseLoop (fuel + 1) stmts (p.positioned c l) =
      parseLoop fuel stmts (p.positioned (l.headD Token.eof) l.tail) := by
  rw [parseLoop, if_neg (by simpa [currentTokenIs] using heof)]
  unfold parseStatement
  split
  · next h => exact absurd h hent
  · simp

theorem parseLoop_entity (fuel : Nat) (stmts : List EntityStatement) (p : Parser)
    (l : List Token) :
    parseLoop (fuel + 1) stmts (p.positioned ⟨.ENTITY, "entity"⟩ l) =
      (parseEntityStatement fuel (p.positioned ⟨.ENTITY, "entity"⟩ l)).bind
        fun s q => parseLoop fuel (stmts ++ [s]) q.next := by
  simp [parseLoop, parseStatement, currentTokenIs, Outcome.bind_assoc]

theorem schemaTokens_cons (e : EntityDecl) (decls : List EntityDecl) :
    schemaTokens (e :: decls) = e.tokens ++ schemaTokens decls := by
  simp [schemaTokens]

/-- The loop of `Parse` over the entity blocks of a schema. -/
theorem parseLoop_decls :
    ∀ (decls : List EntityDecl) (stmts : List EntityStatement) (r : Parser) (c : Token),
      c.type ≠ .EOF → c.type ≠ .ENTITY → Declares r stmts → ∀ fuel : Nat,
      (parseLoop fuel stmts (r.positioned c (schemaTokens decls))).Holds
        (fun ents _ => (∀ e ∈ decls, e.Complete) ∧ ents = stmts ++ decls.map EntityDecl.ast)
        (fun _ => ¬ ((∀ e ∈ decls, e.Complete) ∧
          (entityNames stmts ++ decls.map EntityDecl.name).Nodup ∧
          FreshKeys stmts (declKeys decls)))
        True
  | _, _, _, _, _, _, _, 0 => trivial
  | _, _, _, _, heof, hent, _, 1 => by rw [parseLoop_skip _ _ _ _ _ heof hent]; trivial
  | [], stmts, r, c, heof, hent, _, fuel + 2 => by
    rw [parseLoop_skip _ _ _ _ _ heof hent]
    simp only [schemaTokens, List.flatMap_nil, List.headD_nil, List.tail_nil]
    rw [parseLoop, if_pos (by simp [currentTokenIs])]
    exact ⟨by simp, by simp⟩
  | e :: ds, stmts, r, c, heof, hent, h, fuel + 2 => by
    rw [parseLoop_skip _ _ _ _ _ heof hent, schemaTokens_cons]
    simp only [EntityDecl.tokens, List.cons_append, List.append_assoc, List.headD_cons,
      List.tail_cons, List.singleton_append, parseLoop_entity]
    refine ((parseEntityStatement_decl h e _ fuel).weaken_error
      fun _ hE ⟨hc, hn, hf⟩ => hE ⟨hc e (List.mem_cons_self _ _),
        fun hm => (List.nodup_cons.1 (List.nodup_middle.1 hn)).1 (List.mem_append_left _ hm),
        hf.left⟩).bind ?_
    rintro _ _ ⟨hc, rfl, hks, r', rfl, hr'⟩
    rw [next_positioned]
    refine ((parseLoop_decls ds _ r' newline (by simp [newline]) (by simp [newline]) hr'
      fuel).weaken_error fun _ hE ⟨hcs, hn, hf⟩ => hE ⟨fun e' he' => hcs e'
        (List.mem_cons_of_mem _ he'), by simpa [entityNames, EntityDecl.ast_name] using hn,
        hks _ hf⟩).mono ?_
    rintro _ _ ⟨hcs, rfl⟩
    exact ⟨List.forall_mem_cons.2 ⟨hc, hcs⟩, by simp⟩

end Parser

theorem newParser_schemaTokens (decls : List EntityDecl) :
    newParser (schemaTokens decls) =
      (newParser (schemaTokens decls)).positioned Token.zero (Token.zero :: schemaTokens decls) := by
  simp only [Parser.positioned, newParser, schemaTokens_filter, List.headD_cons, List.tail_cons]

/-- `Parse`'s run on a schema of the grammar: it returns the trees of the entity blocks when
every line is complete, and fails only on a dangling operator or a name or key declared
twice. -/
theorem parse_schemaTokens_holds (decls : List EntityDecl) (fuel : Nat) :
    ((newParser (schemaTokens decls)).parse fuel).Holds
      (fun s _ => (∀ e ∈ decls, e.Complete) ∧ s.statements = decls.map EntityDecl.ast)
      (fun _ => ¬ ((∀ e ∈ decls, e.Complete) ∧ (decls.map EntityDecl.name).Nodup ∧
        (declKeys decls).Nodup))
      True := by
  rw [newParser_schemaTokens]
  unfold Parser.parse
  cases fuel with
  | zero => trivial
  | succ fuel =>
    rw [Parser.parseLoop_skip _ _ _ _ _ (by simp) (by simp)]
    simp only [List.headD_cons, List.tail_cons]
    refine ((Parser.parseLoop_decls decls [] _ Token.zero (by simp) (by simp)
      (declares_newParser _) fuel).weaken_error fun _ hE ⟨hc, hn, hk⟩ =>
        hE ⟨hc, by simpa [entityNames] using hn, hk, by simp [relationKeys, relationTypesOf,
          permissionKeys]⟩).bind ?_
    rintro _ _ ⟨hc, rfl⟩
    exact ⟨hc, by simp⟩

/-- Every schema of the grammar whose lines are complete, whose entity names are distinct
and whose keys `E#n` are distinct parses to exactly the trees the grammar gives it: each
chain associated to the left, each relation with its types in source order. -/
theorem parse_schemaTokens (decls : List EntityDecl) (hc : ∀ e ∈ decls, e.Complete)
    (hn : (decls.map EntityDecl.name).Nodup) (hk : (declKeys decls).Nodup) :
    ∃ s, Parse (schemaTokens decls) = (some s, none) ∧ s.statements = decls.map EntityDecl.ast := by
  have h := parse_schemaTokens_holds decls (parseFuel (schemaTokens decls))
  have hw := parse_within (schemaTokens decls) _ (Nat.le_refl _)
  unfold Parse
  cases ho : (newParser (schemaTokens decls)).parse (parseFuel (schemaTokens decls)) with
  | ok s _ => rw [ho] at h; exact ⟨s, rfl, h.2⟩
  | error _ => rw [ho] at h; exact absurd ⟨hc, hn, hk⟩ h
  | outOfFuel => rw [ho] at hw; exact hw.elim

/-- `entity user {}` and `entity doc {` with `relation owner @user`,
`relation parent @folder#viewer` and `permission read = owner or parent.read and not owner`. -/
def docDecls : List EntityDecl :=
  [⟨"user", []⟩,
   ⟨"doc", [.relation "owner" ⟨"user", none⟩ [], .relation "parent" ⟨"folder", some "viewer"⟩ [],
     .permission "read" ⟨⟨false, "owner", none⟩,
       [(.or, ⟨false, "parent", some "read"⟩), (.and, ⟨true, "owner", none⟩)]⟩ none]⟩]

theorem parse_schemaTokens_docDecls :
    (∀ e ∈ docDecls, e.Complete) ∧ (docDecls.map EntityDecl.name).Nodup ∧
      (declKeys docDecls).Nodup ∧
      ∃ s, Parse (schemaTokens docDecls) = (some s, none) ∧
        s.statements = docDecls.map EntityDecl.ast :=
  ⟨by decide, by decide, by decide,
    parse_schemaTokens docDecls (by decide) (by decide) (by decide)⟩

/-! ## Parentheses -/

/-- `entity doc {`, `permission p = body` and `}`, each on a line of its own. -/
def permissionSchemaTokens (body : List Token) : List Token :=
  ⟨.ENTITY, "entity"⟩ :: ⟨.IDENT, "doc"⟩ :: ⟨.LBRACE, "\x7b"⟩ :: newline ::
    ⟨.PERMISSION, "permission"⟩ :: ⟨.IDENT, "p"⟩ :: ⟨.ASSIGN, "="⟩ ::
      body ++ [newline, ⟨.RBRACE, "\x7d"⟩, newline]

/-- The permission expressions of a schema, in source order. -/
def Schema.permissionExpressions (s : Schema) : List Expression :=
  s.statements.flatMap fun e => e.permissionStatements.map (·.expressionStatement.expression)

/-- The `(` token. -/
def lparen : Token := ⟨.LPAREN, "("⟩

/-- The `)` token. -/
def rparen : Token := ⟨.RPAREN, ")"⟩

/-- In `x or (y) and z` the group `(y)` is one operand of a chain, whose tree is
`(x or y) and z`. `parseInnerParen` reads `y`, consumes the `)` it finds in `peekToken`
and goes on with `and z` inside the group, so `Parse` returns `x or (y and z)`. A group
that ends inside another and is followed by an operator, `(a and (b or c)) or d`, is not
parsed at all. -/
theorem parse_paren_group_not_subtree :
    (∃ s, Parse (permissionSchemaTokens [⟨.IDENT, "x"⟩, LogicOp.or.token, lparen,
        ⟨.IDENT, "y"⟩, rparen, LogicOp.and.token, ⟨.IDENT, "z"⟩]) = (some s, none) ∧
      s.permissionExpressions = [.infixExpression LogicOp.or.token
        (Atom.ast ⟨false, "x", none⟩) "or" (.infixExpression LogicOp.and.token
          (Atom.ast ⟨false, "y", none⟩) "and" (Atom.ast ⟨false, "z", none⟩))] ∧
      s.permissionExpressions ≠ [Chain.ast ⟨⟨false, "x", none⟩,
        [(.or, ⟨false, "y", none⟩), (.and, ⟨false, "z", none⟩)]⟩]) ∧
    ∃ err, Parse (permissionSchemaTokens [lparen, ⟨.IDENT, "a"⟩, LogicOp.and.token, lparen,
      ⟨.IDENT, "b"⟩, LogicOp.or.token, ⟨.IDENT, "c"⟩, rparen, rparen, LogicOp.or.token,
      ⟨.IDENT, "d"⟩]) = (none, some err) :=
  ⟨⟨_, rfl, rfl, by decide⟩, _, rfl⟩

/-- Permission expressions outside the grammar that `Parse` accepts. `((x)) or` is read as
`x`: `parseExpressionStatement` advances past the `)`s onto the `or`, and the entity body's
`next` steps over it unread, where the same `or` after a bare operand is rejected at the
`NEWLINE` standing in place of its right operand. An unclosed `(`, an extra `)` and `not`
before a keyword are accepted too. -/
theorem parse_accepts_non_sentences :
    (∃ s, Parse (permissionSchemaTokens [lparen, lparen, ⟨.IDENT, "x"⟩, rparen, rparen,
      LogicOp.or.token]) = (some s, none) ∧
        s.permissionExpressions = [Atom.ast ⟨false, "x", none⟩]) ∧
    Parse (permissionSchemaTokens [⟨.IDENT, "x"⟩, LogicOp.or.token]) =
      (none, some (.noPrefixParseFn .NEWLINE)) ∧
    (∃ s, Parse (permissionSchemaTokens [lparen, ⟨.IDENT, "x"⟩]) = (some s, none)) ∧
    (∃ s, Parse (permissionSchemaTokens [⟨.IDENT, "x"⟩, rparen]) = (some s, none)) ∧
    (∃ s, Parse (permissionSchemaTokens [⟨.NOT, "not"⟩, LogicOp.and.token]) = (some s, none)) :=
  ⟨⟨_, rfl, rfl⟩, rfl, ⟨_, rfl⟩, ⟨_, rfl⟩, ⟨_, rfl⟩⟩

end Permify.Dsl
