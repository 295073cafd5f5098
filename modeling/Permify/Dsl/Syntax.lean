import Mathlib.Logic.Function.Basic

/-!
# The schema DSL's tokens and syntax tree

`src/pkg/dsl/parser/parser.go` reads a stream of `token.Token`s from the lexer and builds
an `ast.Schema`. Neither the `token`, `lexer` nor `ast` package is under `src/`, so this
file declares exactly what `parser.go` uses of them: the token types it names, the
fields of the nodes it fills in, and the four reference maps it hands to the schema.

Mirroring notes vs the Go packages:
- `token.Type` is a Go `string`; here it is a closed enumeration of the types the parser
  tests for, plus `ILLEGAL`, the whitespace and comment kinds `token.IsIgnores` skips, and
  `EMPTY`, the zero value `""` that a fresh `Parser` holds in `currentToken` and
  `peekToken` before its first reads.
- A Go `map[string]V` is a finite partial function; `GoMap V` is `String → Option V`, and a
  write `m[k] = v` is `Function.update`.
- Keys of the relation maps are `utils.Key(entity, name)`; the parser's comments give
  their form, `entity_type#relation_name`, which `key` spells out.
- Error texts carry a `line:column:` prefix read from the lexer; the model keeps each
  error's kind and arguments (`ParseError`) and drops the position.
-/

namespace Permify.Dsl

/-- Token types the parser distinguishes. -/
inductive TokenType where
  | EMPTY | ILLEGAL | EOF | NEWLINE | SPACE | TAB
  | SINGLE_LINE_COMMENT | MULTI_LINE_COMMENT
  | IDENT | LBRACE | RBRACE | LPAREN | RPAREN
  | SIGN | HASH | DOT | ASSIGN
  | AND | OR | NOT
  | ENTITY | RELATION | PERMISSION
  deriving DecidableEq, Repr

/-- `token.IsIgnores`: whitespace and comments, which `Parser.next` never hands on. -/
def TokenType.isIgnores : TokenType → Bool
  | .SPACE | .TAB | .SINGLE_LINE_COMMENT | .MULTI_LINE_COMMENT => true
  | _ => false

/-- `token.Token`. -/
structure Token where
  type : TokenType
  literal : String
  deriving DecidableEq, Repr

/-- The zero `token.Token{}`. -/
def Token.zero : Token := ⟨.EMPTY, ""⟩

/-- What the lexer returns at the end of its input, and on every read after it. -/
def Token.eof : Token := ⟨.EOF, ""⟩

@[simp] theorem Token.eof_type : Token.eof.type = .EOF := rfl

@[simp] theorem Token.zero_type : Token.zero.type = .EMPTY := rfl

/-! ## Precedences -/

/-- `LOWEST` (the `iota` block starts at `_ = 0`). -/
def LOWEST : Nat := 1

/-- `LOGIC`, the precedence of both `and` and `or`. -/
def LOGIC : Nat := 2

/-- The `precedences` table: `AND` and `OR` at `LOGIC`, nothing else. -/
def precedences : TokenType → Option Nat
  | .AND | .OR => some LOGIC
  | _ => none

/-! ## Syntax tree -/

/-- `ast.Expression`: an `ast.Identifier` (the `not` token in `Prefix`, or the zero token,
and the dotted parts in `Idents`) or an `ast.InfixExpression`. -/
inductive Expression where
  | identifier (pfx : Token) (idents : List Token)
  | infixExpression (op : Token) (left : Expression) (operator : String) (right : Expression)
  deriving DecidableEq, Repr

/-- `ast.RelationTypeStatement`: `@Type` or `@Type#relation` (`relation` is the zero token
when there is no `#`). -/
structure RelationTypeStatement where
  sign : Token
  type : Token
  relation : Token
  deriving DecidableEq, Repr

/-- `ast.RelationStatement`. -/
structure RelationStatement where
  relation : Token
  name : Token
  relationTypes : List RelationTypeStatement
  deriving DecidableEq, Repr

/-- `ast.ExpressionStatement`. -/
structure ExpressionStatement where
  expression : Expression
  deriving DecidableEq, Repr

/-- `ast.PermissionStatement`. -/
structure PermissionStatement where
  permission : Token
  name : Token
  expressionStatement : ExpressionStatement
  deriving DecidableEq, Repr

/-- `ast.EntityStatement`. -/
structure EntityStatement where
  entity : Token
  name : Token
  relationStatements : List RelationStatement
  permissionStatements : List PermissionStatement
  deriving DecidableEq, Repr

/-- `ast.RelationalReferenceType`. -/
inductive RelationalReferenceType where
  | RELATION | PERMISSION
  deriving DecidableEq, Repr

/-- A Go `map[string]V`. -/
abbrev GoMap (α : Type) := String → Option α

/-- `utils.Key(entity, name)`: `entity_type#relation_name`. -/
def key (entityName name : String) : String := entityName ++ "#" ++ name

theorem key_inj_right {entityName a b : String} (h : key entityName a = key entityName b) :
    a = b := by
  have h' := congrArg String.data h
  simp only [key, String.data_append] at h'
  exact String.ext (List.append_cancel_left h')

/-- `ast.Schema`: the statements and the four reference maps `Parse` stores in it. -/
structure Schema where
  statements : List EntityStatement
  entityReferences : GoMap Unit
  relationReferences : GoMap (List RelationTypeStatement)
  permissionReferences : GoMap Unit
  relationalReferences : GoMap RelationalReferenceType

/-- The messages the parser records, without their `line:column:` prefix. -/
inductive ParseError where
  /-- `duplicationError`: "duplication found for %s". -/
  | duplication (key : String)
  /-- `noPrefixParseFnError`: "no prefix parse function for %s found". -/
  | noPrefixParseFn (t : TokenType)
  /-- `peekError`: "expected next token to be %s, got %s instead". -/
  | peekError (expected : List TokenType) (got : TokenType)
  /-- `currentError`: "expected token to be %s, got %s instead". -/
  | currentError (expected : List TokenType) (got : TokenType)
  deriving DecidableEq, Repr

end Permify.Dsl
