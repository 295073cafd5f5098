import Permify.Dsl.Syntax

/-!
# The schema grammar, printed as tokens

The spec's DSL: entity blocks `entity E { … }` whose lines are relation statements
`relation r @T @U#s …` and permission statements `permission p = e`. This file gives the
part of it without parentheses as data, prints it as the token stream the lexer makes of
its text, and says which syntax tree each sentence should parse to: each permission
expression is a chain `a₀ op₁ a₁ … opₙ aₙ` of operands `x`, `x.y`, `not x` or `not x.y`,
and `and` and `or` have one precedence, so the chain associates to the left.

A permission line may also carry a `trailing` operator with nothing after it, a dangling
`and` or `or`: such a line is not a sentence of the grammar, and `RoundTrip` shows `Parse`
rejects it.

Token literals are the text of each token (`"and"`, `"@"`, …); the lexer is not under
`src/`, and nothing the parser does depends on the literal of a keyword or a punctuation
token, only on its type.
-/

namespace Permify.Dsl

/-! ## Expressions -/

/-- `and` or `or`. -/
inductive LogicOp where
  | and
  | or
  deriving DecidableEq, Repr

/-- The token of an operator. -/
def LogicOp.token : LogicOp → Token
  | .and => ⟨.AND, "and"⟩
  | .or => ⟨.OR, "or"⟩

theorem LogicOp.token_type_ne_dot (op : LogicOp) : op.token.type ≠ .DOT := by
  cases op <;> simp [LogicOp.token]

/-- An operand: `name`, `name.sub` (tuple to userset), either of them after `not`. -/
structure Atom where
  negated : Bool
  name : String
  sub : Option String
  deriving DecidableEq, Repr

/-- The operand's first token. -/
def Atom.head (a : Atom) : Token := if a.negated then ⟨.NOT, "not"⟩ else ⟨.IDENT, a.name⟩

theorem Atom.head_ne_lparen (a : Atom) : a.head.type ≠ .LPAREN := by
  unfold Atom.head; split <;> simp

/-- The dotted part `. sub`, if any. -/
def Atom.dots (a : Atom) : List Token :=
  match a.sub with
  | some s => [⟨.DOT, "."⟩, ⟨.IDENT, s⟩]
  | none => []

/-- The operand's tokens after the first. -/
def Atom.tail (a : Atom) : List Token :=
  (if a.negated then [⟨.IDENT, a.name⟩] else []) ++ a.dots

/-- The operand's last token. -/
def Atom.last (a : Atom) : Token := ⟨.IDENT, a.sub.getD a.name⟩

/-- The `ast.Identifier` of an operand: `not` as prefix, the dotted parts as idents. -/
def Atom.ast (a : Atom) : Expression :=
  .identifier (if a.negated then ⟨.NOT, "not"⟩ else Token.zero)
    (⟨.IDENT, a.name⟩ :: a.sub.toList.map (⟨.IDENT, ·⟩))

/-- A parenthesis-free permission expression `a₀ op₁ a₁ … opₙ aₙ`. -/
structure Chain where
  first : Atom
  rest : List (LogicOp × Atom)
  deriving DecidableEq, Repr

/-- The tokens of `op₁ a₁ … opₙ aₙ`. -/
def restTokens (rest : List (LogicOp × Atom)) : List Token :=
  rest.flatMap fun oa => oa.1.token :: oa.2.head :: oa.2.tail

/-- The last token of a chain whose tokens so far end in `c`, once `rest` follows. -/
def lastToken (c : Token) : List (LogicOp × Atom) → Token
  | [] => c
  | oa :: rest => lastToken oa.2.last rest

/-- The tokens of a chain. -/
def Chain.tokens (c : Chain) : List Token := c.first.head :: c.first.tail ++ restTokens c.rest

/-- The last token of a chain. -/
def Chain.last (c : Chain) : Token := lastToken c.first.last c.rest

/-- One step of the left-associated tree: `acc op a`. -/
def joinStep (acc : Expression) (oa : LogicOp × Atom) : Expression :=
  .infixExpression oa.1.token acc oa.1.token.literal oa.2.ast

/-- The tree the grammar gives a chain: left associated. -/
def Chain.ast (c : Chain) : Expression := c.rest.foldl joinStep c.first.ast

/-! ## Statements -/

/-- A relation type `@type` or `@type#relation`. -/
structure RelationType where
  type : String
  relation : Option String
  deriving DecidableEq, Repr

/-- The tokens of a relation type. -/
def RelationType.tokens (t : RelationType) : List Token :=
  ⟨.SIGN, "@"⟩ :: ⟨.IDENT, t.type⟩ ::
    (match t.relation with
     | some r => [⟨.HASH, "#"⟩, ⟨.IDENT, r⟩]
     | none => [])

/-- Its `ast.RelationTypeStatement`. -/
def RelationType.ast (t : RelationType) : RelationTypeStatement :=
  ⟨⟨.SIGN, "@"⟩, ⟨.IDENT, t.type⟩, (t.relation.map (⟨.IDENT, ·⟩)).getD Token.zero⟩

/-- A line of an entity body. A relation has at least one type. -/
inductive Line where
  | relation (name : String) (first : RelationType) (more : List RelationType)
  | permission (name : String) (body : Chain) (trailing : Option LogicOp)
  deriving DecidableEq, Repr

/-- The line's name. -/
def Line.name : Line → String
  | .relation name _ _ => name
  | .permission name _ _ => name

/-- The tokens of a line, without its `NEWLINE`. -/
def Line.tokens : Line → List Token
  | .relation name first more =>
    ⟨.RELATION, "relation"⟩ :: ⟨.IDENT, name⟩ :: (first :: more).flatMap RelationType.tokens
  | .permission name body trailing =>
    ⟨.PERMISSION, "permission"⟩ :: ⟨.IDENT, name⟩ :: ⟨.ASSIGN, "="⟩ ::
      body.tokens ++ (trailing.map LogicOp.token).toList

/-- The `NEWLINE` token. -/
def newline : Token := ⟨.NEWLINE, "\n"⟩

/-- The lines of an entity body, each followed by its `NEWLINE`. -/
def linesTokens : List Line → List Token
  | [] => []
  | l :: ls => l.tokens ++ newline :: linesTokens ls

/-- An entity block. -/
structure EntityDecl where
  name : String
  lines : List Line
  deriving DecidableEq, Repr

/-- `entity E {`, one line per statement, and `}`, each on a line of its own. -/
def EntityDecl.tokens (e : EntityDecl) : List Token :=
  ⟨.ENTITY, "entity"⟩ :: ⟨.IDENT, e.name⟩ :: ⟨.LBRACE, "\x7b"⟩ :: newline ::
    linesTokens e.lines ++ [⟨.RBRACE, "\x7d"⟩, newline]

/-- A schema text: its entity blocks one after the other. -/
def schemaTokens (decls : List EntityDecl) : List Token := decls.flatMap EntityDecl.tokens

/-! ## The trees the grammar gives -/

/-- A relation line's `ast.RelationStatement`. -/
def relationAst (name : String) (first : RelationType) (more : List RelationType) :
    RelationStatement :=
  ⟨⟨.RELATION, "relation"⟩, ⟨.IDENT, name⟩, (first :: more).map RelationType.ast⟩

/-- A permission line's `ast.PermissionStatement`. -/
def permissionAst (name : String) (body : Chain) : PermissionStatement :=
  ⟨⟨.PERMISSION, "permission"⟩, ⟨.IDENT, name⟩, ⟨body.ast⟩⟩

/-- Adding a line's tree to an entity statement, as the body loop of `parseEntityStatement`
does. -/
def Line.addTo (stmt : EntityStatement) : Line → EntityStatement
  | .relation name first more =>
    { stmt with relationStatements := stmt.relationStatements ++ [relationAst name first more] }
  | .permission name body _ =>
    { stmt with permissionStatements := stmt.permissionStatements ++ [permissionAst name body] }

/-- An entity block's `ast.EntityStatement`. -/
def EntityDecl.ast (e : EntityDecl) : EntityStatement :=
  e.lines.foldl Line.addTo ⟨⟨.ENTITY, "entity"⟩, ⟨.IDENT, e.name⟩, [], []⟩

/-- The operator a permission line dangles, if any. -/
def Line.trailing : Line → Option LogicOp
  | .relation .. => none
  | .permission _ _ trailing => trailing

/-- No permission line has a dangling operator. -/
def EntityDecl.Complete (e : EntityDecl) : Prop := ∀ l ∈ e.lines, l.trailing = none

instance (e : EntityDecl) : Decidable e.Complete :=
  inferInstanceAs (Decidable (∀ l ∈ e.lines, l.trailing = none))

/-- The keys `E#n` an entity block declares, in order. -/
def EntityDecl.keys (e : EntityDecl) : List String := e.lines.map fun l => key e.name l.name

/-- Every key `E#n` the schema declares, in order. -/
def declKeys (decls : List EntityDecl) : List String := decls.flatMap EntityDecl.keys

theorem foldl_addTo_name : ∀ (lines : List Line) (stmt : EntityStatement),
    (lines.foldl Line.addTo stmt).name = stmt.name
  | [], _ => rfl
  | l :: ls, stmt => by cases l <;> exact foldl_addTo_name ls _

theorem EntityDecl.ast_name (e : EntityDecl) : e.ast.name = ⟨.IDENT, e.name⟩ :=
  foldl_addTo_name e.lines _

/-! ## The lexer skips none of these tokens -/

/-- A token `Parser.next` hands on: not whitespace and not a comment. -/
def Kept (t : Token) : Prop := t.type.isIgnores = false

theorem atom_kept (a : Atom) : Kept a.head ∧ ∀ t ∈ a.tail, Kept t := by
  unfold Atom.head Atom.tail Atom.dots
  cases a.negated <;> cases a.sub <;> simp [Kept] <;> decide

theorem relationType_kept (ty : RelationType) : ∀ t ∈ ty.tokens, Kept t := by
  obtain ⟨type, relation⟩ := ty
  cases relation <;> simp [RelationType.tokens, Kept] <;> decide

theorem line_kept (l : Line) : ∀ t ∈ l.tokens, Kept t := by
  cases l with
  | relation name first more =>
    simp only [Line.tokens, List.forall_mem_cons, List.forall_mem_flatMap]
    exact ⟨rfl, rfl, relationType_kept first, fun ty _ => relationType_kept ty⟩
  | permission name body trailing =>
    simp only [Line.tokens, Chain.tokens, restTokens, List.forall_mem_append,
      List.forall_mem_cons, List.forall_mem_flatMap]
    refine ⟨⟨rfl, rfl, rfl, atom_kept _, fun oa _ => ⟨?_, atom_kept _⟩⟩, ?_⟩
    · cases oa.1 <;> rfl
    · cases trailing with
      | none => simp
      | some op => cases op <;> simp [Kept] <;> rfl

theorem linesTokens_kept : ∀ (ls : List Line), ∀ t ∈ linesTokens ls, Kept t
  | [] => by simp [linesTokens]
  | l :: ls => by
    simp only [linesTokens, List.forall_mem_append, List.forall_mem_cons]
    exact ⟨line_kept l, rfl, linesTokens_kept ls⟩

theorem schemaTokens_kept (decls : List EntityDecl) : ∀ t ∈ schemaTokens decls, Kept t := by
  simp only [schemaTokens, EntityDecl.tokens, List.forall_mem_flatMap, List.forall_mem_append,
    List.forall_mem_cons]
  exact fun e _ => ⟨⟨rfl, rfl, rfl, rfl, linesTokens_kept e.lines⟩, rfl, rfl, by simp⟩

theorem schemaTokens_filter (decls : List EntityDecl) :
    (schemaTokens decls).filter (fun t => !t.type.isIgnores) = schemaTokens decls :=
  List.filter_eq_self.2 fun t ht => by simpa using schemaTokens_kept decls t ht

end Permify.Dsl
