import Permify.Dsl.Syntax

/-!
# The schema parser

A shallow embedding of `src/pkg/dsl/parser/parser.go`. The `Parser` struct becomes a
record passed from call to call; each Go method that returns `(value, error)` returns an
`Outcome`: the value and the parser after it, or `error p` for a `return nil, p.Error()`
taken in state `p`. `Parse` reads `p.Error()`, the first recorded message, off that state.

Every loop and every call of the mutually recursive expression parser takes one unit of
`fuel`; running out is `Outcome.outOfFuel`, which has no Go counterpart. `Termination`
proves that `Parse`'s fuel never runs out, so the model computes what the Go code computes.

Mirroring notes vs the Go code:
- `next` skips every token `token.IsIgnores` accepts. It is the only reader of the lexer,
  so `newParser` drops those tokens from the stream once and `next` takes the head. At the
  end of the stream `next` reads `Token.eof`, as the lexer does forever after its input.
- `expectAndNext` and `expect` return `false` after `peekError`, and every caller then
  returns `nil, p.Error()`; the model returns that failure directly.
- `currentTokenIs` and `peekTokenIs` are variadic in Go, but every call passes one type.
- The `prefixParseFns` and `infixParseFunc` maps are fixed by `NewParser`: `IDENT` and
  `NOT` have prefix functions, `AND` and `OR` have `parseInfixExpression`.
- The `nil`-map guards in the `set…Reference` methods never fire after `NewParser`.
-/

namespace Permify.Dsl

/-- `parser.Parser`, with the lexer as the list of tokens it has still to return. -/
structure Parser where
  tokens : List Token
  currentToken : Token
  peekToken : Token
  errors : List ParseError
  entityReferences : GoMap Unit
  relationReferences : GoMap (List RelationTypeStatement)
  actionReferences : GoMap Unit
  relationalReferences : GoMap RelationalReferenceType

/-- `NewParser`: empty maps and no errors; `currentToken` and `peekToken` are the zero
token until the first two reads. -/
def newParser (toks : List Token) : Parser where
  tokens := toks.filter (fun t => !t.type.isIgnores)
  currentToken := Token.zero
  peekToken := Token.zero
  errors := []
  entityReferences := fun _ => none
  relationReferences := fun _ => none
  actionReferences := fun _ => none
  relationalReferences := fun _ => none

/-- The result of a parse method: Go's `(value, nil)` with the parser after it, the
`return nil, p.Error()` of a failure in state `p`, or fuel exhaustion. -/
inductive Outcome (α : Type) where
  | ok (a : α) (p : Parser)
  | error (p : Parser)
  | outOfFuel

/-- Go's `v, err := f(); if err != nil { return nil, p.Error() }`, then the rest. -/
def Outcome.bind {α β : Type} (o : Outcome α) (k : α → Parser → Outcome β) : Outcome β :=
  match o with
  | .ok a p => k a p
  | .error p => .error p
  | .outOfFuel => .outOfFuel

@[simp] theorem Outcome.ok_bind {α β : Type} (a : α) (p : Parser) (k : α → Parser → Outcome β) :
    (Outcome.ok a p).bind k = k a p := rfl

@[simp] theorem Outcome.error_bind {α β : Type} (p : Parser) (k : α → Parser → Outcome β) :
    (Outcome.error p : Outcome α).bind k = .error p := rfl

@[simp] theorem Outcome.outOfFuel_bind {α β : Type} (k : α → Parser → Outcome β) :
    (Outcome.outOfFuel : Outcome α).bind k = .outOfFuel := rfl

theorem Outcome.bind_assoc {α β γ : Type} (o : Outcome α) (f : α → Parser → Outcome β)
    (g : β → Parser → Outcome γ) :
    (o.bind f).bind g = o.bind fun a p => (f a p).bind g := by
  cases o <;> rfl

/-- A property of an outcome, given by what a success, a failure and fuel exhaustion must
satisfy. Every fact proved about the parse methods (fuel never runs out, failures carry a
message, the reference maps are as declared) is one of these. -/
def Outcome.Holds {α : Type} (Q : α → Parser → Prop) (E : Parser → Prop) (F : Prop) :
    Outcome α → Prop
  | .ok a p => Q a p
  | .error p => E p
  | .outOfFuel => F

theorem Outcome.Holds.bind {α β : Type} {Q : α → Parser → Prop} {Q' : β → Parser → Prop}
    {E : Parser → Prop} {F : Prop} {o : Outcome α} {k : α → Parser → Outcome β}
    (h : o.Holds Q E F) (hk : ∀ a p, Q a p → (k a p).Holds Q' E F) :
    (o.bind k).Holds Q' E F := by
  cases o with
  | ok a p => exact hk a p h
  | error p => exact h
  | outOfFuel => exact h

theorem Outcome.Holds.mono {α : Type} {Q Q' : α → Parser → Prop} {E : Parser → Prop}
    {F : Prop} {o : Outcome α} (h : o.Holds Q E F) (hQ : ∀ a p, Q a p → Q' a p) :
    o.Holds Q' E F := by
  cases o with
  | ok a p => exact hQ a p h
  | error p => exact h
  | outOfFuel => exact h

namespace Parser

/-! ## Reading tokens -/

/-- `next`: the peek token becomes current and the lexer's next token is peeked. -/
def next (p : Parser) : Parser :=
  match p.tokens with
  | [] => { p with currentToken := p.peekToken, peekToken := Token.eof }
  | t :: ts => { p with tokens := ts, currentToken := p.peekToken, peekToken := t }

@[simp] theorem next_currentToken (p : Parser) : p.next.currentToken = p.peekToken := by
  unfold next; split <;> rfl

@[simp] theorem next_errors (p : Parser) : p.next.errors = p.errors := by
  unfold next; split <;> rfl

@[simp] theorem next_entityReferences (p : Parser) :
    p.next.entityReferences = p.entityReferences := by
  unfold next; split <;> rfl

@[simp] theorem next_relationReferences (p : Parser) :
    p.next.relationReferences = p.relationReferences := by
  unfold next; split <;> rfl

@[simp] theorem next_actionReferences (p : Parser) :
    p.next.actionReferences = p.actionReferences := by
  unfold next; split <;> rfl

@[simp] theorem next_relationalReferences (p : Parser) :
    p.next.relationalReferences = p.relationalReferences := by
  unfold next; split <;> rfl

/-- `currentTokenIs`. -/
def currentTokenIs (p : Parser) (t : TokenType) : Bool := p.currentToken.type = t

/-- `peekTokenIs`. -/
def peekTokenIs (p : Parser) (t : TokenType) : Bool := p.peekToken.type = t

/-- `peekPrecedence`. -/
def peekPrecedence (p : Parser) : Nat := (precedences p.peekToken.type).getD LOWEST

/-- `currentPrecedence`. -/
def currentPrecedence (p : Parser) : Nat := (precedences p.currentToken.type).getD LOWEST

/-! ## Errors -/

/-- Appending a message to `errors`. -/
def addError (p : Parser) (e : ParseError) : Parser := { p with errors := p.errors ++ [e] }

/-- `duplicationError`. -/
def duplicationError (p : Parser) (k : String) : Parser := p.addError (.duplication k)

/-- `noPrefixParseFnError`. -/
def noPrefixParseFnError (p : Parser) (t : TokenType) : Parser :=
  p.addError (.noPrefixParseFn t)

/-- `peekError`. -/
def peekError (p : Parser) (ts : List TokenType) : Parser :=
  p.addError (.peekError ts p.peekToken.type)

/-- `currentError`. -/
def currentError (p : Parser) (ts : List TokenType) : Parser :=
  p.addError (.currentError ts p.currentToken.type)

/-- `Error`: the first recorded message, or `nil`. -/
def error (p : Parser) : Option ParseError := p.errors.head?

/-- `expectAndNext`, with the caller's `return nil, p.Error()` on `false`. -/
def expectAndNext (p : Parser) (t : TokenType) : Outcome Unit :=
  if p.peekTokenIs t then .ok () p.next else .error (p.peekError [t])

/-- `expect`, with the caller's `return nil, p.Error()` on `false`. -/
def expect (p : Parser) (t : TokenType) : Outcome Unit :=
  if p.peekTokenIs t then .ok () p else .error (p.peekError [t])

/-! ## References -/

/-- `setEntityReference`. -/
def setEntityReference (p : Parser) (k : String) : Outcome Unit :=
  if (p.entityReferences k).isSome then .error (p.duplicationError k)
  else .ok () { p with entityReferences := Function.update p.entityReferences k (some ()) }

/-- `setRelationReference`: refused when the key is a relation or any relational
reference already. -/
def setRelationReference (p : Parser) (k : String) (types : List RelationTypeStatement) :
    Outcome Unit :=
  if (p.relationReferences k).isSome then .error (p.duplicationError k)
  else if (p.relationalReferences k).isSome then .error (p.duplicationError k)
  else .ok () { p with
    relationReferences := Function.update p.relationReferences k (some types)
    relationalReferences := Function.update p.relationalReferences k (some .RELATION) }

/-- `setPermissionReference`: refused when the key is an action or any relational
reference already. -/
def setPermissionReference (p : Parser) (k : String) : Outcome Unit :=
  if (p.actionReferences k).isSome then .error (p.duplicationError k)
  else if (p.relationalReferences k).isSome then .error (p.duplicationError k)
  else .ok () { p with
    actionReferences := Function.update p.actionReferences k (some ())
    relationalReferences := Function.update p.relationalReferences k (some .PERMISSION) }

end Parser

end Permify.Dsl
