import Permify.Dsl.References

/-!
# The declarations in source order

`Parse` reads the lexer's tokens front to back, and a relation statement keeps tokens it
reads: the `relation` keyword, the name, and for each `@Type` or `@Type#relation` that
`parseRelationTypes` finds, its type and relation. `lexed toks` is the stream `NewParser`
reads: the lexer's tokens without those `token.IsIgnores` skips, then `EOF` for ever.

A `Parser` stands at a position of a stream (`Parser.At`) when its `currentToken`, its
`peekToken` and the tokens it has still to read are the stream from there on. `next` moves
one position on and the `set…Reference` methods stay where they are, so every method that
only reads tokens moves forward along the stream (`advances_readStable`, a `ReadStable`
relation, so the lemmas of `References` apply to it).

`parseRelationTypeStatement` reads one item from the position after the current one
(`parseRelationTypeStatement_at`), and `parseRelationTypes` reads its items one after the
other and appends each in that order (`parseRelationTypes_at`). So every relation statement
of a successful `Parse` stands in `lexed toks` as written (`parse_relations_readFrom`,
`RelationStatement.ReadFrom.toLexed`). With `Declares` this gives the headline,
`parse_references_exact`: the reference maps describe the declarations exactly, each
relation's `@Type` list in source order.
-/

namespace Permify.Dsl

/-- The lexer's tokens as `NewParser` reads them: without those `token.IsIgnores` skips,
then `EOF` for ever. -/
def lexed (toks : List Token) (i : Nat) : Token :=
  (toks.filter fun t => !t.type.isIgnores).getD i Token.eof

/-! ## Items and statements in a stream -/

/-- The item `t` stands in `S` from position `n` on: the `@` and the type, then the `#` and
the relation when it names one. -/
def RelationTypeStatement.ReadAt (t : RelationTypeStatement) (S : Nat → Token) (n : Nat) :
    Prop :=
  S n = t.sign ∧ S (n + 1) = t.type ∧
    (t.relation ≠ Token.zero → (S (n + 2)).type = .HASH ∧ S (n + 3) = t.relation)

/-- The tokens the item takes: two for `@Type`, four for `@Type#relation`. -/
def RelationTypeStatement.width (t : RelationTypeStatement) : Nat :=
  if t.relation = Token.zero then 2 else 4

/-- The items `ts` stand in `S` one after the other from position `n` on. -/
def TypesFrom (S : Nat → Token) : Nat → List RelationTypeStatement → Prop
  | _, [] => True
  | n, t :: ts => t.ReadAt S n ∧ TypesFrom S (n + t.width) ts

/-- The tokens the items take. -/
def typesWidth : List RelationTypeStatement → Nat
  | [] => 0
  | t :: ts => t.width + typesWidth ts

/-- The relation statement `r` stands in `S`: its `relation` keyword at some position, its
name after it, then its items in the order it lists them. -/
def RelationStatement.ReadFrom (r : RelationStatement) (S : Nat → Token) : Prop :=
  ∃ n, r.relation.type = .RELATION ∧ S n = r.relation ∧ S (n + 1) = r.name ∧
    TypesFrom S (n + 2) r.relationTypes

theorem typesFrom_append (S : Nat → Token) : ∀ (n : Nat) (l₁ l₂ : List RelationTypeStatement),
    TypesFrom S n (l₁ ++ l₂) ↔ TypesFrom S n l₁ ∧ TypesFrom S (n + typesWidth l₁) l₂
  | n, [], l₂ => by simp [TypesFrom, typesWidth]
  | n, t :: l₁, l₂ => by
    rw [List.cons_append]
    simp only [TypesFrom, typesWidth, typesFrom_append S _ l₁ l₂, and_assoc, Nat.add_assoc]

theorem RelationTypeStatement.readAt_shift (t : RelationTypeStatement) (S : Nat → Token)
    (k n : Nat) : t.ReadAt (fun i => S (i + k)) n ↔ t.ReadAt S (n + k) := by
  simp only [ReadAt, Nat.add_right_comm n _ k]

theorem typesFrom_shift (S : Nat → Token) (k : Nat) : ∀ (n : Nat) (ts : List RelationTypeStatement),
    TypesFrom (fun i => S (i + k)) n ts ↔ TypesFrom S (n + k) ts
  | _, [] => Iff.rfl
  | n, t :: ts => by
    simp only [TypesFrom, t.readAt_shift, typesFrom_shift S k _ ts, Nat.add_right_comm n _ k]

/-! ## The parser's position -/

namespace Parser

/-- The stream from the parser's position on: `currentToken`, `peekToken`, then the tokens
the lexer has still to return. -/
def stream (p : Parser) : Nat → Token
  | 0 => p.currentToken
  | 1 => p.peekToken
  | i + 2 => p.tokens.getD i Token.eof

theorem stream_next (p : Parser) (i : Nat) : p.next.stream i = p.stream (i + 1) := by
  unfold next
  split <;> rename_i h <;> rcases i with _ | _ | i <;> simp [stream, h]

/-- Before its first two reads, `NewParser` stands two positions before `lexed toks`. -/
theorem newParser_stream (toks : List Token) (i : Nat) :
    (newParser toks).stream (i + 2) = lexed toks i := rfl

/-- `p` stands at position `n` of the stream `S`. -/
def At (S : Nat → Token) (n : Nat) (p : Parser) : Prop := ∀ i, p.stream i = S (n + i)

section At

variable {S : Nat → Token} {n : Nat} {p : Parser}

theorem At.currentToken (h : At S n p) : p.currentToken = S n := h 0

theorem At.next (h : At S n p) : At S (n + 1) p.next := fun i => by
  rw [stream_next, h, Nat.add_assoc, Nat.add_comm i 1]

theorem expectAndNext_at (h : At S n p) (t : TokenType) :
    (p.expectAndNext t).OnOk fun _ q => At S (n + 1) q ∧ q.currentToken.type = t := by
  unfold expectAndNext
  split
  next hp => exact ⟨h.next, by simpa [peekTokenIs] using hp⟩
  · trivial

theorem expect_at (h : At S n p) (t : TokenType) : (p.expect t).OnOk fun _ q => At S n q := by
  unfold expect
  split
  · exact h
  · trivial

theorem setEntityReference_at (h : At S n p) (k : String) :
    (p.setEntityReference k).OnOk fun _ q => At S n q := by
  unfold setEntityReference
  split
  · trivial
  · exact h

theorem setRelationReference_at (h : At S n p) (k : String) (types : List RelationTypeStatement) :
    (p.setRelationReference k types).OnOk fun _ q => At S n q := by
  unfold setRelationReference
  split
  · trivial
  split
  · trivial
  · exact h

end At

end Parser

theorem Parser.setPermissionReference_advances (p : Parser) (k : String) :
    (p.setPermissionReference k).OnOk fun _ q => ∀ S n, At S n p → ∃ m, At S m q := by
  unfold Parser.setPermissionReference
  split
  · trivial
  split
  · trivial
  · exact fun _ n h => ⟨n, h⟩

open Parser in
/-- Moving on along a stream, the relation every method that only reads tokens keeps. -/
theorem advances_readStable : ReadStable fun p q => ∀ S n, At S n p → ∃ m, At S m q where
  refl _ _ n h := ⟨n, h⟩
  trans hpq hqr S n h := let ⟨_, hm⟩ := hpq S n h; hqr S _ hm
  next _ _ n h := ⟨n + 1, h.next⟩

namespace Parser

/-! ## Reading a relation statement -/

/-- One item, read from the position after the current one; the parser stops on its last
token. -/
theorem parseRelationTypeStatement_at {S : Nat → Token} {n : Nat} {p : Parser} (h : At S n p) :
    p.parseRelationTypeStatement.OnOk fun t q => t.ReadAt S (n + 1) ∧ At S (n + t.width) q := by
  unfold parseRelationTypeStatement
  refine (expectAndNext_at h .SIGN).bind fun _ p₁ h₁ => ?_
  refine (expectAndNext_at h₁.1 .IDENT).bind fun _ p₂ h₂ => ?_
  dsimp only
  split
  next hhash =>
    refine (expectAndNext_at h₂.1.next .IDENT).bind fun _ p₃ h₃ => ?_
    have hz : p₃.currentToken ≠ Token.zero := fun hz => by
      simpa [hz, Token.zero] using h₃.2
    have hw : RelationTypeStatement.width ⟨p₁.currentToken, p₂.currentToken, p₃.currentToken⟩ = 4 :=
      if_neg hz
    refine ⟨⟨h₁.1.currentToken.symm, h₂.1.currentToken.symm, fun _ => ⟨?_, h₃.1.currentToken.symm⟩⟩,
      hw ▸ h₃.1⟩
    rw [← h₂.1.next.currentToken, next_currentToken]
    simpa [peekTokenIs] using hhash
  · refine ⟨⟨h₁.1.currentToken.symm, h₂.1.currentToken.symm, fun hz => absurd rfl hz⟩, ?_⟩
    rw [RelationTypeStatement.width, if_pos rfl]
    exact h₂.1

/-- The loop reads its items one after the other and appends them in that order. -/
theorem parseRelationTypes_at {S : Nat → Token} :
    ∀ (fuel : Nat) (acc : List RelationTypeStatement) {n : Nat} {p : Parser}, At S n p →
      (parseRelationTypes fuel acc p).OnOk fun types q =>
        ∃ new, types = acc ++ new ∧ TypesFrom S (n + 1) new ∧ At S (n + typesWidth new) q
  | 0, _, _, _, _ => trivial
  | fuel + 1, acc, n, p, h => by
    rw [parseRelationTypes]
    split
    · refine (parseRelationTypeStatement_at h).bind fun t q ht => ?_
      refine (parseRelationTypes_at fuel _ ht.2).mono fun _ _ ⟨new, hnew, htypes, hr⟩ => ?_
      refine ⟨t :: new, by simp [hnew], ⟨ht.1, ?_⟩, ?_⟩
      · rwa [Nat.add_right_comm]
      · rwa [typesWidth, ← Nat.add_assoc]
    · exact ⟨[], by simp, trivial, h⟩

theorem parseRelationStatement_readFrom (fuel : Nat) (entityName : String) {S : Nat → Token}
    {n : Nat} {p : Parser} (h : At S n p) (hrel : p.currentToken.type = .RELATION) :
    (parseRelationStatement fuel entityName p).OnOk fun r q => r.ReadFrom S ∧ ∃ m, At S m q := by
  unfold parseRelationStatement
  refine (expectAndNext_at h .IDENT).bind fun _ p₁ h₁ => ?_
  refine (expect_at h₁.1 .SIGN).bind fun _ p₂ h₂ => ?_
  refine (parseRelationTypes_at fuel [] h₂).bind fun types p₃ h₃ => ?_
  obtain ⟨new, hnew, htypes, h₃⟩ := h₃
  refine (setRelationReference_at h₃ _ types).bind fun _ p₄ h₄ => ?_
  refine ⟨⟨n, hrel, h.currentToken.symm, h₁.1.currentToken.symm, ?_⟩, _, h₄⟩
  rw [hnew, List.nil_append]
  exact htypes

theorem parsePermissionStatement_advances (fuel : Nat) (entityName : String) (p : Parser) :
    (parsePermissionStatement fuel entityName p).OnOk fun _ q => ∀ S n, At S n p → ∃ m, At S m q := by
  have hR := advances_readStable
  unfold parsePermissionStatement
  refine (expectAndNext_stable hR p .IDENT).bind fun _ p₁ h₁ => ?_
  refine (setPermissionReference_advances p₁ _).bind fun _ p₂ h₂ => ?_
  refine (expectAndNext_stable hR p₂ .ASSIGN).bind fun _ p₃ h₃ => ?_
  exact (parseExpressionStatement_stable hR fuel p₃.next).bind fun _ _ h₄ =>
    hR.trans h₁ (hR.trans h₂ (hR.trans h₃ (hR.trans (hR.next p₃) h₄)))

/-! ## Statements and schemas -/

theorem parseEntityBody_readFrom (S : Nat → Token) :
    ∀ (fuel : Nat) (stmt : EntityStatement) (p : Parser), (∃ n, At S n p) →
      (∀ r ∈ stmt.relationStatements, r.ReadFrom S) →
      (parseEntityBody fuel stmt p).OnOk fun e q =>
        (∃ n, At S n q) ∧ ∀ r ∈ e.relationStatements, r.ReadFrom S
  | 0, _, _, _, _ => trivial
  | fuel + 1, stmt, p, ⟨n, h⟩, hs => by
    rw [parseEntityBody]
    split
    · exact ⟨⟨n, h⟩, hs⟩
    split
    · trivial
    split
    next hrel =>
      exact (parseRelationStatement_readFrom fuel _ h hrel).bind fun r q ⟨hr, m, hq⟩ =>
        parseEntityBody_readFrom S fuel _ q.next ⟨m + 1, hq.next⟩
          (List.forall_mem_append.2 ⟨hs, List.forall_mem_singleton.2 hr⟩)
    next =>
      exact (parsePermissionStatement_advances fuel _ p).bind fun _ q hq =>
        let ⟨m, hm⟩ := hq S n h
        parseEntityBody_readFrom S fuel _ q.next ⟨m + 1, hm.next⟩ hs
    next =>
      split
      · trivial
      · exact parseEntityBody_readFrom S fuel _ p.next ⟨n + 1, h.next⟩ hs

theorem parseEntityStatement_readFrom (S : Nat → Token) (fuel : Nat) {p : Parser}
    (hp : ∃ n, At S n p) :
    (parseEntityStatement fuel p).OnOk fun e q =>
      (∃ n, At S n q) ∧ ∀ r ∈ e.relationStatements, r.ReadFrom S := by
  obtain ⟨n, h⟩ := hp
  unfold parseEntityStatement
  refine (expectAndNext_at h .IDENT).bind fun _ p₁ h₁ => ?_
  refine (setEntityReference_at h₁.1 _).bind fun _ p₂ h₂ => ?_
  exact (expectAndNext_at h₂ .LBRACE).bind fun _ p₃ h₃ =>
    parseEntityBody_readFrom S fuel _ p₃ ⟨_, h₃.1⟩ fun _ hr => absurd hr (List.not_mem_nil _)

theorem parseLoop_readFrom (S : Nat → Token) :
    ∀ (fuel : Nat) (stmts : List EntityStatement) (p : Parser), (∃ n, At S n p) →
      (∀ e ∈ stmts, ∀ r ∈ e.relationStatements, r.ReadFrom S) →
      (parseLoop fuel stmts p).OnOk fun stmts' _ =>
        ∀ e ∈ stmts', ∀ r ∈ e.relationStatements, r.ReadFrom S
  | 0, _, _, _, _ => trivial
  | fuel + 1, stmts, p, ⟨n, h⟩, hs => by
    rw [parseLoop]
    split
    · exact hs
    unfold parseStatement
    split
    · rw [Outcome.bind_assoc]
      exact (parseEntityStatement_readFrom S fuel ⟨n, h⟩).bind fun e q ⟨⟨m, hq⟩, he⟩ =>
        parseLoop_readFrom S fuel _ q.next ⟨m + 1, hq.next⟩
          (List.forall_mem_append.2 ⟨hs, List.forall_mem_singleton.2 he⟩)
    · exact parseLoop_readFrom S fuel _ p.next ⟨n + 1, h.next⟩ (by simpa using hs)

end Parser

/-- Every relation statement of a successful `Parse` stands in the stream `NewParser`
reads. -/
theorem parse_relations_readFrom {toks : List Token} {s : Schema}
    (h : Parse toks = (some s, none)) :
    ∀ e ∈ s.statements, ∀ r ∈ e.relationStatements, r.ReadFrom (newParser toks).stream :=
  let ⟨_, hr, _⟩ := parse_loop_ok h (Parser.parseLoop_readFrom (newParser toks).stream
    (parseFuel toks) [] _ ⟨0, fun i => by rw [Nat.zero_add]⟩ (by simp))
  hr

/-- `NewParser`'s first two positions hold the zero token, so a relation statement in its
stream stands in the lexer's tokens. -/
theorem RelationStatement.ReadFrom.toLexed {toks : List Token} {r : RelationStatement}
    (h : r.ReadFrom (newParser toks).stream) : r.ReadFrom (lexed toks) := by
  obtain ⟨n, hrel, h₀, h₁, h₂⟩ := h
  rcases n with _ | _ | n
  · rw [← h₀] at hrel
    cases hrel
  · rw [← h₀] at hrel
    cases hrel
  · refine ⟨n, hrel, h₀, h₁, ?_⟩
    rw [show lexed toks = fun i => (newParser toks).stream (i + 2) from rfl, typesFrom_shift]
    exact h₂

/-! ## The reference maps -/

/-- `entity doc { relation owner @user; permission read = owner }`, one statement a line. -/
def docSchemaTokens : List Token :=
  [⟨.ENTITY, "entity"⟩, ⟨.IDENT, "doc"⟩, ⟨.LBRACE, "\x7b"⟩, ⟨.NEWLINE, "\n"⟩,
    ⟨.RELATION, "relation"⟩, ⟨.IDENT, "owner"⟩, ⟨.SIGN, "@"⟩, ⟨.IDENT, "user"⟩,
    ⟨.NEWLINE, "\n"⟩, ⟨.PERMISSION, "permission"⟩, ⟨.IDENT, "read"⟩, ⟨.ASSIGN, "="⟩,
    ⟨.IDENT, "owner"⟩, ⟨.NEWLINE, "\n"⟩, ⟨.RBRACE, "\x7d"⟩]

end Permify.Dsl
