import Permify.Dsl.Parse

/-!
# `Parse` terminates, and fails only with a message

Two facts about every input, malformed ones included.

**Fuel never runs out.** `Parser.size` counts two per token left in the lexer and one
for each of `peekToken` and `currentToken` that is not `EOF`. `next` never raises it and
lowers it whenever `currentToken` is not `EOF` (`size_next_lt`). Every loop iteration and
every recursive call of the expression parser reads such a token before it goes round
again, so each method finishes within a fuel that is linear in `size`: `parseDots` and the
other token loops within `size + 1`, the Pratt core within `3 · size + 4` (`pratt_within`,
one mutual induction over the five functions), and `Parse` within `3 · size + 5`, which is
`parseFuel`. Once the lexer sits at `EOF` no measure of the token stream decreases, and
the bound comes from the loops' own guards: each one that goes round again has just read
a token that is not `EOF`.

**Every failure carries a message.** Each `return nil, p.Error()` of `parser.go` comes
after `duplicationError`, `noPrefixParseFnError`, `peekError` or `currentError` has
appended to `errors`, or passes on a failure of a callee (`recorded` lemmas). So `Parse`
never returns `(nil, nil)`: `parse_terminates_exclusive` is the headline.
-/

namespace Permify.Dsl

/-- Fuel does not run out, a success leaves at most `n` of `size`, and a failure has
recorded a message. -/
abbrev Outcome.Within {α : Type} (n : Nat) (o : Outcome α) : Prop :=
  o.Holds (fun _ q => q.size ≤ n) (fun q => q.errors ≠ []) False

theorem Outcome.Within.weaken {α : Type} {m n : Nat} {o : Outcome α} (h : o.Within m)
    (hmn : m ≤ n) :
    o.Within n :=
  Outcome.Holds.mono h fun _ _ hq => Nat.le_trans hq hmn

namespace Parser

/-! ## The potential -/

@[simp] theorem size_addError (p : Parser) (e : ParseError) : (p.addError e).size = p.size := rfl

@[simp] theorem addError_errors_ne_nil (p : Parser) (e : ParseError) :
    (p.addError e).errors ≠ [] := by
  simp [addError]

theorem size_next_le (p : Parser) : p.next.size ≤ p.size := by
  unfold size next
  cases p.tokens <;> simp only [List.length_cons, List.length_nil, Token.eof_type, if_true] <;>
    split_ifs <;> omega

theorem size_pos (p : Parser) (h : p.currentToken.type ≠ .EOF) : 0 < p.size := by
  unfold size; simp only [h, if_false]; omega

theorem size_pos_of_peek (p : Parser) (h : p.peekToken.type ≠ .EOF) : 0 < p.size := by
  unfold size; simp only [h, if_false]; omega

theorem size_next_lt (p : Parser) (h : p.currentToken.type ≠ .EOF) : p.next.size < p.size := by
  unfold size next
  cases p.tokens <;> simp only [List.length_cons, List.length_nil, Token.eof_type, if_true, h,
    if_false] <;> split_ifs <;> omega

/-- `expectAndNext` succeeds exactly by reading the expected token. -/
theorem expectAndNext_within (p : Parser) (t : TokenType) :
    (p.expectAndNext t).Holds (fun _ q => q = p.next ∧ p.peekToken.type = t)
      (fun q => q.errors ≠ []) False := by
  unfold expectAndNext; split <;> simp_all [Outcome.Holds, peekTokenIs, peekError]

theorem expect_within (p : Parser) (t : TokenType) : (p.expect t).Within p.size := by
  unfold expect; split <;> simp [Outcome.Holds, peekError]

theorem setEntityReference_within (p : Parser) (k : String) :
    (p.setEntityReference k).Within p.size := by
  unfold setEntityReference; split <;> simp [Outcome.Holds, size, duplicationError]

theorem setRelationReference_within (p : Parser) (k : String) (ts : List RelationTypeStatement) :
    (p.setRelationReference k ts).Within p.size := by
  unfold setRelationReference; split_ifs <;> simp [Outcome.Holds, size, duplicationError]

theorem setPermissionReference_within (p : Parser) (k : String) :
    (p.setPermissionReference k).Within p.size := by
  unfold setPermissionReference; split_ifs <;> simp [Outcome.Holds, size, duplicationError]

/-! ## Token loops -/

theorem parseDots_within :
    ∀ (fuel : Nat) (idents : List Token) (p : Parser), p.size < fuel →
      (parseDots fuel idents p).Within p.size
  | 0, _, _, h => absurd h (Nat.not_lt_zero _)
  | fuel + 1, idents, p, h => by
    unfold parseDots
    split
    next hdot =>
      have h1 := size_next_lt p.next (by simp_all [peekTokenIs])
      have h2 := size_next_le p
      exact (parseDots_within fuel _ _ (by omega)).weaken (by omega)
    next => exact Nat.le_refl _

theorem prefixParseFn_within (pfn : PrefixParseFn) (fuel : Nat) (p : Parser)
    (h : p.size < fuel) : (pfn.run fuel p).Within p.size := by
  cases pfn with
  | parseIdentifier =>
    exact (parseDots_within fuel _ p h).bind fun _ _ hq => hq
  | parsePrefixExpression =>
    have h1 := size_next_le p
    exact (parseDots_within fuel _ p.next (by omega)).bind fun _ _ hq => by
      show _ ≤ _; omega

theorem skipRParens_within :
    ∀ (fuel : Nat) (p : Parser), p.size < fuel → (skipRParens fuel p).Within p.size
  | 0, _, h => absurd h (Nat.not_lt_zero _)
  | fuel + 1, p, h => by
    unfold skipRParens
    split
    next hr =>
      have h1 := size_next_lt p (by simp_all [currentTokenIs])
      exact (skipRParens_within fuel _ (by omega)).weaken (by omega)
    next => exact Nat.le_refl _

/-! ## The Pratt core -/

/-- An infix operator in `peekToken` is not the end of the input. -/
theorem next_ne_eof_of_infix {p : Parser} (h : infixParseFunc p.peekToken.type = true) :
    p.next.currentToken.type ≠ .EOF := by
  intro he
  simp only [next_currentToken] at he
  simp [he, infixParseFunc] at h

/-- The five functions of the expression parser, by one induction on the fuel. Each needs
three units of fuel per unit of `size`: a round of `parseExpressionLoop` or
`parseInnerParenLoop` spends two calls and reads at least one token. -/
theorem pratt_within : ∀ fuel : Nat,
    (∀ (prec : Nat) (p : Parser), 3 * p.size + 3 ≤ fuel →
      (parseExpression fuel prec p).Within p.size) ∧
    (∀ (prec : Nat) (exp : Expression) (p : Parser), 3 * p.size + 2 ≤ fuel →
      (parseExpressionLoop fuel prec exp p).Within p.size) ∧
    (∀ (p : Parser), 3 * p.size + 4 ≤ fuel → (parseInnerParen fuel p).Within p.size) ∧
    (∀ (exp : Expression) (p : Parser), 3 * p.size + 2 ≤ fuel →
      (parseInnerParenLoop fuel exp p).Within p.size) ∧
    (∀ (left : Expression) (p : Parser), p.currentToken.type ≠ .EOF → 3 * p.size + 1 ≤ fuel →
      (parseInfixExpression fuel left p).Within (p.size - 1)) := by
  intro fuel
  induction fuel with
  | zero => refine ⟨?_, ?_, ?_, ?_, ?_⟩ <;> intros <;> omega
  | succ f ih =>
    obtain ⟨hE, hL, hI, hIL, hX⟩ := ih
    refine ⟨?expression, ?loop, ?innerParen, ?innerParenLoop, ?infixExpression⟩
    case expression =>
      intro prec p h
      rw [parseExpression]
      split
      next hl =>
        have h1 := size_next_lt p (by simp_all [currentTokenIs])
        exact (hI p.next (by omega)).weaken (by omega)
      next =>
        split
        · exact addError_errors_ne_nil _ _
        · exact (prefixParseFn_within _ f p (by omega)).bind fun _ q hq =>
            (hL prec _ q (by omega)).weaken hq
    case loop =>
      intro prec exp p h
      rw [parseExpressionLoop]
      split
      · split
        next hinf =>
          have hne := next_ne_eof_of_infix hinf
          have h1 := size_next_le p
          have h2 := size_pos _ hne
          exact (hX exp p.next hne (by omega)).bind fun _ q hq =>
            (hL prec _ q (by omega)).weaken (by omega)
        · exact Nat.le_refl _
      · exact Nat.le_refl _
    case innerParen =>
      intro p h
      rw [parseInnerParen]
      split
      · exact hE LOWEST p (by omega)
      · split
        · exact addError_errors_ne_nil _ _
        · exact (prefixParseFn_within _ f p (by omega)).bind fun _ q hq =>
            (hIL _ q (by omega)).weaken hq
    case innerParenLoop =>
      intro exp p h
      rw [parseInnerParenLoop]
      split
      · exact Nat.le_refl _
      · have hp1 : (if p.peekTokenIs .RPAREN then p.next else p).size ≤ p.size := by
          split
          · exact size_next_le p
          · exact Nat.le_refl _
        generalize (if p.peekTokenIs .RPAREN then p.next else p) = p₁ at hp1 ⊢
        dsimp only
        split
        next hinf =>
          have hne := next_ne_eof_of_infix hinf
          have h1 := size_next_le p₁
          have h2 := size_pos _ hne
          exact (hX exp p₁.next hne (by omega)).bind fun _ q hq =>
            (hIL _ q (by omega)).weaken (by omega)
        · exact hp1
    case infixExpression =>
      intro left p hne h
      rw [parseInfixExpression]
      have h1 := size_next_lt p hne
      exact (hE _ p.next (by omega)).bind fun _ q hq => by show q.size ≤ p.size - 1; omega

/-! ## Statements -/

theorem parseExpressionStatement_within (fuel : Nat) (p : Parser)
    (h : 3 * p.size + 3 ≤ fuel) : (parseExpressionStatement fuel p).Within p.size := by
  unfold parseExpressionStatement
  refine ((pratt_within fuel).1 LOWEST p h).bind ?_
  intro _ q hq
  dsimp only
  split
  · have h1 := size_next_le q
    exact (skipRParens_within fuel q.next (by omega)).bind fun _ r hr => by
      show r.size ≤ p.size; omega
  · exact hq

theorem parsePermissionStatement_within (fuel : Nat) (entityName : String) (p : Parser)
    (hne : p.currentToken.type ≠ .EOF) (h : 3 * p.size + 3 ≤ fuel) :
    (parsePermissionStatement fuel entityName p).Within (p.size - 1) := by
  unfold parsePermissionStatement
  have h1 := size_next_lt p hne
  refine (expectAndNext_within p .IDENT).bind ?_
  rintro _ _ ⟨rfl, -⟩
  refine (setPermissionReference_within _ _).bind ?_
  intro _ p₂ h₂
  refine (expectAndNext_within p₂ .ASSIGN).bind ?_
  rintro _ _ ⟨rfl, -⟩
  have h3 := size_next_le p₂
  have h4 := size_next_le p₂.next
  exact (parseExpressionStatement_within fuel p₂.next.next (by omega)).bind fun _ q hq => by
    show q.size ≤ p.size - 1; omega

theorem parseRelationTypeStatement_within (p : Parser) :
    p.parseRelationTypeStatement.Within (p.size - 1) := by
  unfold parseRelationTypeStatement
  refine (expectAndNext_within p .SIGN).bind ?_
  rintro _ _ ⟨rfl, hs⟩
  refine (expectAndNext_within _ .IDENT).bind ?_
  rintro _ _ ⟨rfl, -⟩
  have h1 := size_next_lt p.next (by simp [hs])
  have h2 := size_next_le p
  have h3 := size_next_le p.next.next
  split
  · refine (expectAndNext_within _ .IDENT).bind ?_
    rintro _ _ ⟨rfl, -⟩
    have h4 := size_next_le p.next.next.next
    show _ ≤ _; omega
  · show _ ≤ _; omega

theorem parseRelationTypes_within :
    ∀ (fuel : Nat) (types : List RelationTypeStatement) (p : Parser), p.size < fuel →
      (parseRelationTypes fuel types p).Within p.size
  | 0, _, _, h => absurd h (Nat.not_lt_zero _)
  | fuel + 1, types, p, h => by
    rw [parseRelationTypes]
    split
    next hs =>
      have h1 := size_pos_of_peek p (by simp_all [peekTokenIs])
      exact (parseRelationTypeStatement_within p).bind fun _ q hq =>
        (parseRelationTypes_within fuel _ q (by omega)).weaken (by omega)
    · exact Nat.le_refl _

theorem parseRelationStatement_within (fuel : Nat) (entityName : String) (p : Parser)
    (hne : p.currentToken.type ≠ .EOF) (h : p.size < fuel) :
    (parseRelationStatement fuel entityName p).Within (p.size - 1) := by
  unfold parseRelationStatement
  have h1 := size_next_lt p hne
  refine (expectAndNext_within p .IDENT).bind ?_
  rintro _ _ ⟨rfl, -⟩
  refine (expect_within _ .SIGN).bind ?_
  intro _ p₂ h₂
  refine (parseRelationTypes_within fuel [] p₂ (by omega)).bind ?_
  intro _ p₃ h₃
  exact (setRelationReference_within p₃ _ _).bind fun _ q hq => by
    show q.size ≤ p.size - 1; omega

theorem parseEntityBody_within :
    ∀ (fuel : Nat) (stmt : EntityStatement) (p : Parser), 3 * p.size + 4 ≤ fuel →
      (parseEntityBody fuel stmt p).Within p.size
  | 0, _, _, h => absurd h (by omega)
  | fuel + 1, stmt, p, h => by
    rw [parseEntityBody]
    split
    · exact Nat.le_refl _
    split
    · exact addError_errors_ne_nil _ _
    next he =>
    have hne : p.currentToken.type ≠ .EOF := by simpa [currentTokenIs] using he
    have hpos := size_pos p hne
    split
    · exact (parseRelationStatement_within fuel _ p hne (by omega)).bind fun _ q hq => by
        have h1 := size_next_le q
        exact (parseEntityBody_within fuel _ q.next (by omega)).weaken (by omega)
    · exact (parsePermissionStatement_within fuel _ p hne (by omega)).bind fun _ q hq => by
        have h1 := size_next_le q
        exact (parseEntityBody_within fuel _ q.next (by omega)).weaken (by omega)
    · split
      · exact addError_errors_ne_nil _ _
      · have h1 := size_next_lt p hne
        exact (parseEntityBody_within fuel _ p.next (by omega)).weaken (by omega)

theorem parseEntityStatement_within (fuel : Nat) (p : Parser)
    (hne : p.currentToken.type ≠ .EOF) (h : 3 * p.size + 4 ≤ fuel) :
    (parseEntityStatement fuel p).Within (p.size - 1) := by
  unfold parseEntityStatement
  have h1 := size_next_lt p hne
  refine (expectAndNext_within p .IDENT).bind ?_
  rintro _ _ ⟨rfl, -⟩
  refine (setEntityReference_within _ _).bind ?_
  intro _ p₂ h₂
  refine (expectAndNext_within p₂ .LBRACE).bind ?_
  rintro _ _ ⟨rfl, -⟩
  have h3 := size_next_le p₂
  exact (parseEntityBody_within fuel _ p₂.next (by omega)).weaken (by omega)

theorem parseLoop_within :
    ∀ (fuel : Nat) (stmts : List EntityStatement) (p : Parser), 3 * p.size + 5 ≤ fuel →
      (parseLoop fuel stmts p).Within p.size
  | 0, _, _, h => absurd h (by omega)
  | fuel + 1, stmts, p, h => by
    rw [parseLoop]
    split
    · exact Nat.le_refl _
    next he =>
    have hne : p.currentToken.type ≠ .EOF := by simpa [currentTokenIs] using he
    have hpos := size_pos p hne
    unfold parseStatement
    split
    · rw [Outcome.bind_assoc]
      exact (parseEntityStatement_within fuel p hne (by omega)).bind fun _ q hq => by
        have h1 := size_next_le q
        exact (parseLoop_within fuel _ q.next (by omega)).weaken (by omega)
    · have h1 := size_next_lt p hne
      exact (parseLoop_within fuel _ p.next (by omega)).weaken (by omega)

end Parser

/-- `Parse`'s fuel, and any more, never runs out: the Go loops and recursion end on every
token stream. -/
theorem parse_within (toks : List Token) (fuel : Nat) (h : parseFuel toks ≤ fuel) :
    ((newParser toks).parse fuel).Within (newParser toks).size := by
  unfold Parser.parse
  exact (Parser.parseLoop_within fuel [] _ h).bind fun _ _ hq => hq

/-- `Parse` ends on every token stream, its fuel and any larger fuel being enough, and it
returns exactly one of a schema with a `nil` error and `nil` with an error. -/
theorem parse_terminates_exclusive (toks : List Token) :
    (∀ fuel, parseFuel toks ≤ fuel → (newParser toks).parse fuel ≠ .outOfFuel) ∧
    ((∃ s, Parse toks = (some s, none)) ∨ (∃ e, Parse toks = (none, some e))) := by
  refine ⟨fun fuel h hout => by simpa [hout, Outcome.Holds] using parse_within toks fuel h, ?_⟩
  have h := parse_within toks _ (Nat.le_refl _)
  unfold Parse
  cases hr : (newParser toks).parse (parseFuel toks) with
  | ok s _ => exact .inl ⟨s, rfl⟩
  | error p =>
    rw [hr] at h
    obtain ⟨e, es, he⟩ := List.exists_cons_of_ne_nil h
    exact .inr ⟨e, by simp [Parser.error, he]⟩
  | outOfFuel => rw [hr] at h; exact h.elim

end Permify.Dsl
