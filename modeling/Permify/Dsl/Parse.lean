import Permify.Dsl.Parser

/-!
# The parse methods

The methods of `src/pkg/dsl/parser/parser.go` from `Parse` down, each under its Go name.
Loops become recursive functions (`parseDots`, `parseExpressionLoop`,
`parseInnerParenLoop`, `skipRParens`, `parseRelationTypes`, `parseEntityBody`,
`parseLoop`) that take one unit of fuel per iteration; the Pratt core
`parseExpression → parseInnerParen / parseInfixExpression → parseExpression` is one
`mutual` block, structurally recursive on the fuel.

Two details of the Go code that the model keeps as they are:
- `parseInnerParen` stops only at a `)` in `currentToken` or before a token with no infix
  function; a `)` in `peekToken` is consumed and the loop goes on with whatever operator
  follows it.
- `parseExpressionStatement`, when the next token is `)`, advances past every `)` in a
  row, leaving `currentToken` on the token after them.
-/

namespace Permify.Dsl

namespace Parser

/-! ## Prefix functions -/

/-- The `for p.peekTokenIs(token.DOT) { p.next(); p.next(); ident.Idents = append(…) }`
loop that `parseIdentifier` and `parsePrefixExpression` share. -/
def parseDots : Nat → List Token → Parser → Outcome (List Token)
  | 0, _, _ => .outOfFuel
  | fuel + 1, idents, p =>
    if p.peekTokenIs .DOT then parseDots fuel (idents ++ [p.next.next.currentToken]) p.next.next
    else .ok idents p

/-- `parseIdentifier`: `x`, `x.y`, …, with the zero token as prefix. -/
def parseIdentifier (fuel : Nat) (p : Parser) : Outcome Expression :=
  (parseDots fuel [p.currentToken] p).bind fun idents p =>
    .ok (.identifier Token.zero idents) p

/-- `parsePrefixExpression`: `not` followed by whatever token comes next, and its dots. -/
def parsePrefixExpression (fuel : Nat) (p : Parser) : Outcome Expression :=
  (parseDots fuel [p.next.currentToken] p.next).bind fun idents p' =>
    .ok (.identifier p.currentToken idents) p'

end Parser

/-- The functions `NewParser` registers in `prefixParseFns`. -/
inductive PrefixParseFn where
  | parseIdentifier
  | parsePrefixExpression

/-- `p.prefixParseFns[t]`. -/
def prefixParseFns : TokenType → Option PrefixParseFn
  | .IDENT => some .parseIdentifier
  | .NOT => some .parsePrefixExpression
  | _ => none

/-- Calling a registered prefix function. -/
def PrefixParseFn.run : PrefixParseFn → Nat → Parser → Outcome Expression
  | .parseIdentifier => Parser.parseIdentifier
  | .parsePrefixExpression => Parser.parsePrefixExpression

/-- `p.infixParseFunc[t] != nil`: only `AND` and `OR` have `parseInfixExpression`. -/
def infixParseFunc : TokenType → Bool
  | .AND | .OR => true
  | _ => false

namespace Parser

/-! ## Expressions -/

mutual

/-- `parseExpression(precedence)`. -/
def parseExpression : Nat → Nat → Parser → Outcome Expression
  | 0, _, _ => .outOfFuel
  | fuel + 1, precedence, p =>
    if p.currentTokenIs .LPAREN then parseInnerParen fuel p.next
    else match prefixParseFns p.currentToken.type with
      | none => .error (p.noPrefixParseFnError p.currentToken.type)
      | some pfn => (pfn.run fuel p).bind fun exp p => parseExpressionLoop fuel precedence exp p

/-- The loop of `parseExpression`: infix operators while the next one binds tighter. -/
def parseExpressionLoop : Nat → Nat → Expression → Parser → Outcome Expression
  | 0, _, _, _ => .outOfFuel
  | fuel + 1, precedence, exp, p =>
    if !p.peekTokenIs .NEWLINE && precedence < p.peekPrecedence then
      if infixParseFunc p.peekToken.type then
        (parseInfixExpression fuel exp p.next).bind fun exp p =>
          parseExpressionLoop fuel precedence exp p
      else .ok exp p
    else .ok exp p

/-- `parseInnerParen`, entered with `currentToken` just after a `(`. -/
def parseInnerParen : Nat → Parser → Outcome Expression
  | 0, _ => .outOfFuel
  | fuel + 1, p =>
    if p.currentTokenIs .LPAREN then parseExpression fuel LOWEST p
    else match prefixParseFns p.currentToken.type with
      | none => .error (p.noPrefixParseFnError p.currentToken.type)
      | some pfn => (pfn.run fuel p).bind fun exp p => parseInnerParenLoop fuel exp p

/-- The loop of `parseInnerParen`: `for !p.currentTokenIs(token.RPAREN)`. -/
def parseInnerParenLoop : Nat → Expression → Parser → Outcome Expression
  | 0, _, _ => .outOfFuel
  | fuel + 1, exp, p =>
    if p.currentTokenIs .RPAREN then .ok exp p
    else
      let p := if p.peekTokenIs .RPAREN then p.next else p
      if infixParseFunc p.peekToken.type then
        (parseInfixExpression fuel exp p.next).bind fun exp p => parseInnerParenLoop fuel exp p
      else .ok exp p

/-- `parseInfixExpression(left)`, entered with the operator in `currentToken`. -/
def parseInfixExpression : Nat → Expression → Parser → Outcome Expression
  | 0, _, _ => .outOfFuel
  | fuel + 1, left, p =>
    (parseExpression fuel p.currentPrecedence p.next).bind fun right p' =>
      .ok (.infixExpression p.currentToken left p.currentToken.literal right) p'

end

/-- The `for p.currentTokenIs(token.RPAREN) { p.next() }` loop. -/
def skipRParens : Nat → Parser → Outcome Unit
  | 0, _ => .outOfFuel
  | fuel + 1, p => if p.currentTokenIs .RPAREN then skipRParens fuel p.next else .ok () p

/-- `parseExpressionStatement`. -/
def parseExpressionStatement (fuel : Nat) (p : Parser) : Outcome ExpressionStatement :=
  (parseExpression fuel LOWEST p).bind fun exp p =>
    if p.peekTokenIs .RPAREN then (skipRParens fuel p.next).bind fun _ p => .ok ⟨exp⟩ p
    else .ok ⟨exp⟩ p

/-! ## Statements -/

/-- `parsePermissionStatement(entityName)`. -/
def parsePermissionStatement (fuel : Nat) (entityName : String) (p : Parser) :
    Outcome PermissionStatement :=
  (p.expectAndNext .IDENT).bind fun _ p₁ =>
  (p₁.setPermissionReference (key entityName p₁.currentToken.literal)).bind fun _ p₂ =>
  (p₂.expectAndNext .ASSIGN).bind fun _ p₃ =>
  (parseExpressionStatement fuel p₃.next).bind fun ex p₄ =>
  .ok ⟨p.currentToken, p₁.currentToken, ex⟩ p₄

/-- `parseRelationTypeStatement`: `@Type` or `@Type#relation`. -/
def parseRelationTypeStatement (p : Parser) : Outcome RelationTypeStatement :=
  (p.expectAndNext .SIGN).bind fun _ p₁ =>
  (p₁.expectAndNext .IDENT).bind fun _ p₂ =>
  if p₂.peekTokenIs .HASH then
    (p₂.next.expectAndNext .IDENT).bind fun _ p₃ =>
      .ok ⟨p₁.currentToken, p₂.currentToken, p₃.currentToken⟩ p₃
  else .ok ⟨p₁.currentToken, p₂.currentToken, Token.zero⟩ p₂

/-- The loop of `parseRelationStatement`: `for p.peekTokenIs(token.SIGN)`. -/
def parseRelationTypes : Nat → List RelationTypeStatement → Parser →
    Outcome (List RelationTypeStatement)
  | 0, _, _ => .outOfFuel
  | fuel + 1, types, p =>
    if p.peekTokenIs .SIGN then
      p.parseRelationTypeStatement.bind fun t p => parseRelationTypes fuel (types ++ [t]) p
    else .ok types p

/-- `parseRelationStatement(entityName)`. -/
def parseRelationStatement (fuel : Nat) (entityName : String) (p : Parser) :
    Outcome RelationStatement :=
  (p.expectAndNext .IDENT).bind fun _ p₁ =>
  (p₁.expect .SIGN).bind fun _ p₂ =>
  (parseRelationTypes fuel [] p₂).bind fun types p₃ =>
  (p₃.setRelationReference (key entityName p₁.currentToken.literal) types).bind fun _ p₄ =>
  .ok ⟨p.currentToken, p₁.currentToken, types⟩ p₄

/-- The body loop of `parseEntityStatement`: `for !p.currentTokenIs(token.RBRACE)`. -/
def parseEntityBody : Nat → EntityStatement → Parser → Outcome EntityStatement
  | 0, _, _ => .outOfFuel
  | fuel + 1, stmt, p =>
    if p.currentTokenIs .RBRACE then .ok stmt p
    else if p.currentTokenIs .EOF then .error (p.currentError [.RBRACE])
    else match p.currentToken.type with
      | .RELATION =>
        (parseRelationStatement fuel stmt.name.literal p).bind fun r p =>
          parseEntityBody fuel { stmt with relationStatements := stmt.relationStatements ++ [r] }
            p.next
      | .PERMISSION =>
        (parsePermissionStatement fuel stmt.name.literal p).bind fun a p =>
          parseEntityBody fuel
            { stmt with permissionStatements := stmt.permissionStatements ++ [a] } p.next
      | _ =>
        if !p.currentTokenIs .NEWLINE && !p.currentTokenIs .LBRACE
            && !p.currentTokenIs .RBRACE then
          .error (p.currentError [.RELATION, .PERMISSION])
        else parseEntityBody fuel stmt p.next

/-- `parseEntityStatement`. -/
def parseEntityStatement (fuel : Nat) (p : Parser) : Outcome EntityStatement :=
  (p.expectAndNext .IDENT).bind fun _ p₁ =>
  (p₁.setEntityReference p₁.currentToken.literal).bind fun _ p₂ =>
  (p₂.expectAndNext .LBRACE).bind fun _ p₃ =>
  parseEntityBody fuel ⟨p.currentToken, p₁.currentToken, [], []⟩ p₃

/-- `parseStatement`: an entity statement, or `nil, nil` for any other token. -/
def parseStatement (fuel : Nat) (p : Parser) : Outcome (Option EntityStatement) :=
  match p.currentToken.type with
  | .ENTITY => (parseEntityStatement fuel p).bind fun s p => .ok (some s) p
  | _ => .ok none p

/-- The loop of `Parse`: `for !p.currentTokenIs(token.EOF)`. -/
def parseLoop : Nat → List EntityStatement → Parser → Outcome (List EntityStatement)
  | 0, _, _ => .outOfFuel
  | fuel + 1, stmts, p =>
    if p.currentTokenIs .EOF then .ok stmts p
    else (parseStatement fuel p).bind fun stmt p => parseLoop fuel (stmts ++ stmt.toList) p.next

/-- `Parse` on a parser, with the reference maps copied into the schema. -/
def parse (fuel : Nat) (p : Parser) : Outcome Schema :=
  (parseLoop fuel [] p).bind fun stmts p =>
    .ok ⟨stmts, p.entityReferences, p.relationReferences, p.actionReferences,
      p.relationalReferences⟩ p

/-! ## Fuel -/

/-- A potential that every loop iteration lowers: twice the tokens left in the lexer, plus
one for each of `peekToken` and `currentToken` that is not `EOF`. -/
def size (p : Parser) : Nat :=
  2 * p.tokens.length + (if p.peekToken.type = .EOF then 0 else 1)
    + (if p.currentToken.type = .EOF then 0 else 1)

end Parser

/-- The fuel `Parse` runs with: three units per unit of `size`, and five more. -/
def parseFuel (toks : List Token) : Nat := 3 * (newParser toks).size + 5

/-- `(*Parser).Parse` on the lexer's tokens: Go's `(*ast.Schema, error)`. -/
def Parse (toks : List Token) : Option Schema × Option ParseError :=
  match (newParser toks).parse (parseFuel toks) with
  | .ok s _ => (some s, none)
  | .error p => (none, p.error)
  | .outOfFuel => (none, none)

end Permify.Dsl
