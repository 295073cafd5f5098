import Mathlib.Data.List.Basic

/-!
# The schema graph of the development tools

`src/pkg/development/graph/schema.go` draws a compiled schema as a graph: a node for each
entity, relation and permission, an edge from each entity to its relations and
permissions, and below each permission the tree of its rule. `buildActionGraph` walks that
tree: a rewrite (`union`, `intersection`) becomes a `logic` node with an edge to each of its
children, a computed userset `r` an edge to the node of `r` on the same entity, and a
tuple-to-userset `t.r` an edge to the node of `r` on the entity `t` points to.

`schemaToGraph_ok_iff` says when the conversion fails: exactly when some rule names a
tupleset relation its entity does not have. `schemaToGraph_closed` says what the drawing
can rely on: when every name a rule reaches exists (the schema's references resolve), every
edge starts at a node of the graph and ends at the id of one. Relation and permission nodes
share the id format `entity:E:permission:N`, and that is what lets an edge to a computed
userset find its node whether `N` is a relation or a permission. `schemaToGraph_logicIds`
says how the ids are drawn: one for each rewrite, and the logic nodes carry them in order.

Mirroring notes vs the Go code:
- The protobuf types of `base` are not under `src/`: they are modelled from their getters
  here. A Go map of definitions is a list in one of its iteration orders; the results hold
  for every list, so for every order.
- `graph.go` is not under `src/`: a `Graph` is its nodes and its edges in the order they
  were added, `AddNode` and `AddEdge` append. The results speak of node membership and ids
  only, so they also hold for a graph that merges nodes of the same id.
- `xid.New()` is the parameter `xid`: the `n`-th id drawn is `xid n`, and every function
  threads the number of ids drawn so far.
- `ref.String()` (protobuf text) and `tuple.USER` are parameters of `getMainReference`.
-/

namespace Permify.Development

/-! ## The compiled schema, as `schema.go` reads it -/

/-- `base.Leaf`'s type. -/
inductive LeafType where
  /-- `TupleToUserSet`: the tupleset relation `t` and the computed relation `r` of `t.r`. -/
  | tupleToUserSet (tupleSet computed : String)
  /-- `ComputedUserSet`: the relation `r`. -/
  | computedUserSet (relation : String)
  /-- A leaf of any other type, which `buildActionGraph` skips. -/
  | other
  deriving DecidableEq, Repr

/-- `base.Leaf`. -/
structure Leaf where
  type : LeafType
  exclusion : Bool
  deriving DecidableEq, Repr

/-- `base.Child`: a rewrite with the `String()` of its operation, a leaf, or no type. -/
inductive Child where
  | rewrite (operation : String) (children : List Child)
  | leaf (leaf : Leaf)
  | none
  deriving Repr

/-- `base.RelationReference`. -/
structure RelationReference where
  type : String
  relation : String
  deriving DecidableEq, Repr

/-- `base.RelationDefinition`. -/
structure RelationDefinition where
  name : String
  relationReferences : List RelationReference
  deriving DecidableEq, Repr

/-- `base.PermissionDefinition`. -/
structure PermissionDefinition where
  name : String
  child : Child
  deriving Repr

/-- `base.EntityDefinition`, its maps of relations and permissions in one iteration
order. -/
structure EntityDefinition where
  name : String
  relations : List RelationDefinition
  permissions : List PermissionDefinition
  deriving Repr

/-- Modelled from the spec: `schema.GetRelationByNameInEntityDefinition` is not under
`src/`; it looks the relation up by name among the entity's relations. -/
def getRelationByName (entity : EntityDefinition) (name : String) :
    Option RelationDefinition :=
  entity.relations.find? (·.name = name)

/-- `GetMainReference`: the type of the first relation reference whose `String()` has no
`#`, else `tuple.USER`. `strings.Contains(s, "#")` looks for one ASCII byte, so it is the
character test on `s.toList`. -/
def getMainReference (refString : RelationReference → String) (USER : String)
    (definition : RelationDefinition) : String :=
  match definition.relationReferences.find? (fun ref => !(refString ref).toList.contains '#') with
  | some ref => ref.type
  | none => USER

/-! ## The graph -/

/-- A node of the graph. -/
structure Node where
  type : String
  id : String
  label : String
  deriving DecidableEq, Repr

/-- An edge, with the `extra` value `AddEdge` is given: `nil` or the leaf's exclusion. -/
structure Edge where
  source : Node
  target : Node
  extra : Option Bool
  deriving DecidableEq, Repr

/-- A graph: its nodes and its edges, in the order they were added. -/
structure Graph where
  nodes : List Node
  edges : List Edge
  deriving DecidableEq, Repr

/-- `Graph{}`. -/
def Graph.empty : Graph := ⟨[], []⟩

/-- `g.AddNode(n)`. -/
def Graph.addNode (g : Graph) (n : Node) : Graph := { g with nodes := g.nodes ++ [n] }

/-- `g.AddEdge(from, to, extra)`. -/
def Graph.addEdge (g : Graph) (source target : Node) (extra : Option Bool) : Graph :=
  { g with edges := g.edges ++ [⟨source, target, extra⟩] }

/-- `g.AddNodes(h.Nodes())` then `g.AddEdges(h.Edges())`. -/
def Graph.addGraph (g h : Graph) : Graph := ⟨g.nodes ++ h.nodes, g.edges ++ h.edges⟩

/-- `fmt.Sprintf("entity:%s", name)`. -/
def entityNodeId (name : String) : String := "entity:" ++ name

/-- `fmt.Sprintf("entity:%s:permission:%s", entity, name)`, the id of relation and
permission nodes alike. -/
def permissionNodeId (entity name : String) : String := "entity:" ++ entity ++ ":permission:" ++ name

/-- The errors of the conversion. -/
inductive GraphError where
  /-- `ERROR_CODE_RELATION_DEFINITION_NOT_FOUND`. -/
  | relationDefinitionNotFound
  deriving DecidableEq, Repr

/-! ## The conversion -/

section Convert

variable (xid : Nat → String) (refString : RelationReference → String) (USER : String)
  (entity : EntityDefinition)

mutual

/-- `buildActionGraph(entity, from, children)`: the loop over `children`, adding to `g`;
the graph, and the number of ids drawn. -/
def buildActionGraph (source : Node) :
    List Child → Graph → Nat → Except GraphError (Graph × Nat)
  | [], g, n => .ok (g, n)
  | c :: cs, g, n =>
    match buildChild source c g n with
    | .ok (g', n') => buildActionGraph source cs g' n'
    | .error e => .error e

/-- One round of the loop of `buildActionGraph`. -/
def buildChild (source : Node) : Child → Graph → Nat → Except GraphError (Graph × Nat)
  | .rewrite operation children, g, n =>
    let rw : Node := ⟨"logic", xid n, operation⟩
    match buildActionGraph rw children .empty (n + 1) with
    | .ok (ag, n') => .ok (((g.addNode rw).addEdge source rw none).addGraph ag, n')
    | .error e => .error e
  | .leaf ⟨.tupleToUserSet tupleSet computed, exclusion⟩, g, n =>
    match getRelationByName entity tupleSet with
    | some re => .ok (g.addEdge source
        ⟨"relation", permissionNodeId (getMainReference refString USER re) computed, computed⟩
        (some exclusion), n)
    | none => .error .relationDefinitionNotFound
  | .leaf ⟨.computedUserSet relation, exclusion⟩, g, n =>
    .ok (g.addEdge source ⟨"relation", permissionNodeId entity.name relation, relation⟩
      (some exclusion), n)
  | .leaf ⟨.other, _⟩, g, n => .ok (g, n)
  | .none, g, n => .ok (g, n)

end

/-- The entity's node. -/
def entityNode : Node := ⟨"entity", entityNodeId entity.name, entity.name⟩

/-- The node of the relation `re`, `reNode`. -/
def reNode (re : RelationDefinition) : Node :=
  ⟨"relation", permissionNodeId entity.name re.name, re.name⟩

/-- The node of the permission `permission`, `acNode`. -/
def acNode (permission : PermissionDefinition) : Node :=
  ⟨"permission", permissionNodeId entity.name permission.name, permission.name⟩

/-- The loop over the relations of `EntityToGraph`. -/
def relationsLoop (g : Graph) : List RelationDefinition → Graph
  | [] => g
  | re :: res =>
    relationsLoop ((g.addNode (reNode entity re)).addEdge (entityNode entity) (reNode entity re)
      none) res

/-- The loop over the permissions of `EntityToGraph`. -/
def permissionsLoop : List PermissionDefinition → Graph → Nat → Except GraphError (Graph × Nat)
  | [], g, n => .ok (g, n)
  | permission :: ps, g, n =>
    match buildActionGraph xid refString USER entity (acNode entity permission) [permission.child]
      .empty n with
    | .ok (ag, n') =>
      permissionsLoop ps (((g.addNode (acNode entity permission)).addEdge (entityNode entity)
        (acNode entity permission) none).addGraph ag) n'
    | .error e => .error e

/-- `EntityToGraph(entity)`. -/
def entityToGraph (n : Nat) : Except GraphError (Graph × Nat) :=
  permissionsLoop xid refString USER entity entity.permissions
    (relationsLoop entity (Graph.empty.addNode (entityNode entity)) entity.relations) n

end Convert

section Schema

variable (xid : Nat → String) (refString : RelationReference → String) (USER : String)

/-- `SchemaToGraph(schema)`: the loop over the entity definitions. -/
def schemaToGraph : List EntityDefinition → Graph → Nat → Except GraphError (Graph × Nat)
  | [], g, n => .ok (g, n)
  | en :: ens, g, n =>
    match entityToGraph xid refString USER en n with
    | .ok (eg, n') => schemaToGraph ens (g.addGraph eg) n'
    | .error e => .error e

end Schema

/-! ## What one step of a loop does -/

section Steps

variable {xid : Nat → String} {refString : RelationReference → String} {USER : String}
  {entity : EntityDefinition}

theorem buildActionGraph_cons_ok {source : Node} {c : Child} {cs : List Child} {g : Graph}
    {n : Nat} {r : Graph × Nat}
    (h : buildActionGraph xid refString USER entity source (c :: cs) g n = .ok r) :
    ∃ g₁ n₁, buildChild xid refString USER entity source c g n = .ok (g₁, n₁) ∧
      buildActionGraph xid refString USER entity source cs g₁ n₁ = .ok r := by
  simp only [buildActionGraph] at h
  split at h
  · exact ⟨_, _, ‹_›, h⟩
  · cases h

theorem buildChild_rewrite_ok {source : Node} {operation : String} {children : List Child}
    {g g' : Graph} {n n' : Nat}
    (h : buildChild xid refString USER entity source (.rewrite operation children) g n =
      .ok (g', n')) :
    ∃ ag, buildActionGraph xid refString USER entity ⟨"logic", xid n, operation⟩ children .empty
        (n + 1) = .ok (ag, n') ∧
      g' = ((g.addNode ⟨"logic", xid n, operation⟩).addEdge source ⟨"logic", xid n, operation⟩
        none).addGraph ag := by
  simp only [buildChild] at h
  split at h
  · cases h
    exact ⟨_, ‹_›, rfl⟩
  · cases h

theorem permissionsLoop_cons_ok {p : PermissionDefinition} {ps : List PermissionDefinition}
    {g : Graph} {n : Nat} {r : Graph × Nat}
    (h : permissionsLoop xid refString USER entity (p :: ps) g n = .ok r) :
    ∃ ag n₁, buildActionGraph xid refString USER entity (acNode entity p) [p.child] .empty n =
        .ok (ag, n₁) ∧
      permissionsLoop xid refString USER entity ps (((g.addNode (acNode entity p)).addEdge
        (entityNode entity) (acNode entity p) none).addGraph ag) n₁ = .ok r := by
  simp only [permissionsLoop] at h
  split at h
  · exact ⟨_, _, ‹_›, h⟩
  · cases h

theorem schemaToGraph_cons_ok {en : EntityDefinition} {ens : List EntityDefinition} {g : Graph}
    {n : Nat} {r : Graph × Nat} (h : schemaToGraph xid refString USER (en :: ens) g n = .ok r) :
    ∃ eg n₁, entityToGraph xid refString USER en n = .ok (eg, n₁) ∧
      schemaToGraph xid refString USER ens (g.addGraph eg) n₁ = .ok r := by
  simp only [schemaToGraph] at h
  split at h
  · exact ⟨_, _, ‹_›, h⟩
  · cases h

end Steps

/-! ## When the conversion fails -/

mutual

/-- The leaves of a rule, left to right. -/
def Child.leaves : Child → List Leaf
  | .rewrite _ children => leavesOf children
  | .leaf leaf => [leaf]
  | .none => []

/-- The leaves of a list of rules. -/
def leavesOf : List Child → List Leaf
  | [] => []
  | c :: cs => c.leaves ++ leavesOf cs

end

/-- Every tuple-to-userset among `leaves` names a tupleset relation of `entity`. -/
def TupleSetsFound (entity : EntityDefinition) (leaves : List Leaf) : Prop :=
  ∀ l ∈ leaves, ∀ t r, l.type = .tupleToUserSet t r → (getRelationByName entity t).isSome

theorem tupleSetsFound_append {entity : EntityDefinition} {ls ls' : List Leaf} :
    TupleSetsFound entity (ls ++ ls') ↔ TupleSetsFound entity ls ∧ TupleSetsFound entity ls' := by
  simp only [TupleSetsFound, List.mem_append, or_imp, forall_and]

section Convert

variable {xid : Nat → String} {refString : RelationReference → String} {USER : String}
  {entity : EntityDefinition}

mutual

theorem buildActionGraph_ok_iff (source : Node) : ∀ (cs : List Child) (g : Graph) (n : Nat),
    (∃ r, buildActionGraph xid refString USER entity source cs g n = .ok r) ↔
      TupleSetsFound entity (leavesOf cs)
  | [], _, _ => by simp [buildActionGraph, leavesOf, TupleSetsFound]
  | c :: cs, g, n => by
    have hc := buildChild_ok_iff source c g n
    rw [leavesOf, tupleSetsFound_append, ← hc]
    cases h : buildChild xid refString USER entity source c g n with
    | error e => simp [buildActionGraph, h]
    | ok r =>
      obtain ⟨g', n'⟩ := r
      simp [buildActionGraph, h, buildActionGraph_ok_iff source cs g' n']

theorem buildChild_ok_iff (source : Node) : ∀ (c : Child) (g : Graph) (n : Nat),
    (∃ r, buildChild xid refString USER entity source c g n = .ok r) ↔
      TupleSetsFound entity c.leaves
  | .rewrite operation children, g, n => by
    have hl := buildActionGraph_ok_iff ⟨"logic", xid n, operation⟩ children .empty (n + 1)
    rw [Child.leaves, ← hl]
    cases h : buildActionGraph xid refString USER entity ⟨"logic", xid n, operation⟩ children
      .empty (n + 1) with
    | error e => simp [buildChild, h]
    | ok r => simp [buildChild, h]
  | .leaf ⟨.tupleToUserSet t r, x⟩, g, n => by
    cases h : getRelationByName entity t <;> simp [buildChild, h, Child.leaves, TupleSetsFound]
  | .leaf ⟨.computedUserSet _, _⟩, _, _ | .leaf ⟨.other, _⟩, _, _ | .none, _, _ => by
    simp [buildChild, Child.leaves, TupleSetsFound]

end

theorem permissionsLoop_ok_iff : ∀ (ps : List PermissionDefinition) (g : Graph) (n : Nat),
    (∃ r, permissionsLoop xid refString USER entity ps g n = .ok r) ↔
      ∀ p ∈ ps, TupleSetsFound entity p.child.leaves
  | [], _, _ => by simp [permissionsLoop]
  | p :: ps, g, n => by
    have hb := @buildActionGraph_ok_iff xid refString USER entity (acNode entity p) [p.child]
      .empty n
    simp only [leavesOf, List.append_nil] at hb
    rw [List.forall_mem_cons, ← hb]
    cases h : buildActionGraph xid refString USER entity (acNode entity p) [p.child] .empty n with
    | error e => simp [permissionsLoop, h]
    | ok r =>
      obtain ⟨ag, n'⟩ := r
      simp [permissionsLoop, h, permissionsLoop_ok_iff ps _ n']

end Convert

/-- **When the schema graph fails.** `SchemaToGraph` returns a graph exactly when every
tuple-to-userset `t.r` in the rule of a permission names a tupleset relation `t` of the
permission's entity; otherwise it fails with `ERROR_CODE_RELATION_DEFINITION_NOT_FOUND`. -/
theorem schemaToGraph_ok_iff (xid : Nat → String) (refString : RelationReference → String)
    (USER : String) :
    ∀ (defs : List EntityDefinition) (g : Graph) (n : Nat),
      ((∃ r, schemaToGraph xid refString USER defs g n = .ok r) ↔
        ∀ en ∈ defs, ∀ p ∈ en.permissions, TupleSetsFound en p.child.leaves) ∧
      ∀ e, schemaToGraph xid refString USER defs g n = .error e → e = .relationDefinitionNotFound
  | [], _, _ => by simp [schemaToGraph]
  | en :: ens, g, n => by
    have he := @permissionsLoop_ok_iff xid refString USER en en.permissions
      (relationsLoop en (Graph.empty.addNode (entityNode en)) en.relations) n
    rw [List.forall_mem_cons, ← he]
    unfold schemaToGraph
    rw [← entityToGraph] at he ⊢
    cases h : entityToGraph xid refString USER en n with
    | error e => cases e; simp
    | ok r =>
      obtain ⟨eg, n'⟩ := r
      have ih := schemaToGraph_ok_iff xid refString USER ens (g.addGraph eg) n'
      simpa using ih

/-! ## Every edge between nodes -/

/-- Every edge of `g` leaves a node of `g` or a node `outside` accepts, and ends at a node
of `g` or at an id `ends` accepts. -/
def Graph.Closed (g : Graph) (outside : Node → Prop) (ends : String → Prop) : Prop :=
  ∀ e ∈ g.edges, (e.source ∈ g.nodes ∨ outside e.source) ∧ (e.target ∈ g.nodes ∨ ends e.target.id)

section Closed

variable {g h : Graph} {outside outside' : Node → Prop} {ends : String → Prop}

theorem Graph.closed_empty : Graph.empty.Closed outside ends := nofun

theorem Graph.Closed.addNode (hg : g.Closed outside ends) (v : Node) :
    (g.addNode v).Closed outside ends := fun e he =>
  (hg e he).imp (Or.imp_left (List.mem_append_left _)) (Or.imp_left (List.mem_append_left _))

theorem Graph.Closed.addEdge (hg : g.Closed outside ends) {s t : Node}
    (hs : s ∈ g.nodes ∨ outside s) (ht : t ∈ g.nodes ∨ ends t.id) (x : Option Bool) :
    (g.addEdge s t x).Closed outside ends := fun e he => by
  rcases List.mem_append.1 he with he | he
  · exact hg e he
  · rw [List.mem_singleton.1 he]
    exact ⟨hs, ht⟩

theorem Graph.Closed.addGraph (hg : g.Closed outside ends) (hh : h.Closed outside' ends)
    (ho : ∀ v, outside' v → v ∈ g.nodes ∨ outside v) : (g.addGraph h).Closed outside ends :=
  fun e he => by
  rcases List.mem_append.1 he with he | he
  · exact (hg e he).imp (Or.imp_left (List.mem_append_left _))
      (Or.imp_left (List.mem_append_left _))
  · obtain ⟨hs, ht⟩ := hh e he
    refine ⟨?_, ht.imp_left (List.mem_append_right _)⟩
    rcases hs with hs | hs
    · exact .inl (List.mem_append_right _ hs)
    · exact (ho _ hs).imp_left (List.mem_append_left _)

end Closed

/-- A relation or permission named `N` on the entity named `E` exists in `defs`. -/
def NameExists (defs : List EntityDefinition) (E N : String) : Prop :=
  ∃ en ∈ defs, en.name = E ∧ (N ∈ en.relations.map (·.name) ∨ N ∈ en.permissions.map (·.name))

/-- The ids of the relation and permission nodes of `defs`. -/
def Reached (defs : List EntityDefinition) (id : String) : Prop :=
  ∃ E N, NameExists defs E N ∧ permissionNodeId E N = id

instance (defs : List EntityDefinition) (E N : String) : Decidable (NameExists defs E N) :=
  inferInstanceAs (Decidable (∃ en ∈ defs, _))

/-- Every name a leaf of `entity`'s rules reaches exists in `defs`: a computed userset `r`
on `entity`, and for a tuple-to-userset `t.r` the relation `t` on `entity` and `r` on the
entity `t` mainly refers to. -/
def LeafResolves (refString : RelationReference → String) (USER : String)
    (defs : List EntityDefinition) (entity : EntityDefinition) : Leaf → Prop
  | ⟨.tupleToUserSet t r, _⟩ => ∃ re ∈ getRelationByName entity t,
      NameExists defs (getMainReference refString USER re) r
  | ⟨.computedUserSet r, _⟩ => NameExists defs entity.name r
  | ⟨.other, _⟩ => True

instance (refString : RelationReference → String) (USER : String)
    (defs : List EntityDefinition) (entity : EntityDefinition) :
    DecidablePred (LeafResolves refString USER defs entity)
  | ⟨.tupleToUserSet t _, _⟩ =>
    inferInstanceAs (Decidable (∃ re ∈ getRelationByName entity t, _))
  | ⟨.computedUserSet _, _⟩ => inferInstanceAs (Decidable (NameExists _ _ _))
  | ⟨.other, _⟩ => instDecidableTrue

/-- The rules of `entity`'s permissions reach names of `defs` only. -/
def RulesResolve (refString : RelationReference → String) (USER : String)
    (defs : List EntityDefinition) (entity : EntityDefinition) : Prop :=
  ∀ p ∈ entity.permissions, ∀ l ∈ p.child.leaves, LeafResolves refString USER defs entity l

/-- The schema's references resolve: every leaf of every rule reaches names of `defs`. -/
def WellReferenced (refString : RelationReference → String) (USER : String)
    (defs : List EntityDefinition) : Prop :=
  ∀ en ∈ defs, RulesResolve refString USER defs en

instance (refString : RelationReference → String) (USER : String)
    (defs : List EntityDefinition) : Decidable (WellReferenced refString USER defs) :=
  inferInstanceAs (Decidable (∀ en ∈ defs, ∀ p ∈ en.permissions, ∀ l ∈ p.child.leaves, _))

section Convert

variable {xid : Nat → String} {refString : RelationReference → String} {USER : String}
  {defs : List EntityDefinition} {entity : EntityDefinition}

mutual

/-- The edges `buildActionGraph` adds leave its nodes or `source`, and end at its nodes or
at names of `defs`. -/
theorem buildActionGraph_closed (source : Node) : ∀ (cs : List Child) (g g' : Graph) (n n' : Nat),
    (∀ l ∈ leavesOf cs, LeafResolves refString USER defs entity l) →
    g.Closed (· = source) (Reached defs) →
    buildActionGraph xid refString USER entity source cs g n = .ok (g', n') →
    g'.Closed (· = source) (Reached defs)
  | [], _, _, _, _, _, hg, hb => by cases hb; exact hg
  | c :: cs, g, g', n, n', hl, hg, hb => by
    simp only [leavesOf, List.forall_mem_append] at hl
    obtain ⟨g₁, n₁, h₁, hb⟩ := buildActionGraph_cons_ok hb
    exact buildActionGraph_closed source cs g₁ g' n₁ n' hl.2
      (buildChild_closed source c g g₁ n n₁ hl.1 hg h₁) hb

theorem buildChild_closed (source : Node) : ∀ (c : Child) (g g' : Graph) (n n' : Nat),
    (∀ l ∈ c.leaves, LeafResolves refString USER defs entity l) →
    g.Closed (· = source) (Reached defs) →
    buildChild xid refString USER entity source c g n = .ok (g', n') →
    g'.Closed (· = source) (Reached defs)
  | .rewrite operation children, g, g', n, n', hl, hg, hb => by
    obtain ⟨ag, h, rfl⟩ := buildChild_rewrite_ok hb
    have hrw : (⟨"logic", xid n, operation⟩ : Node) ∈ g.nodes ++ [⟨"logic", xid n, operation⟩] :=
      List.mem_append_right _ (List.mem_singleton_self _)
    exact ((hg.addNode _).addEdge (.inr rfl) (.inl hrw) none).addGraph
      (buildActionGraph_closed _ children .empty ag (n + 1) n' hl Graph.closed_empty h)
      fun v hv => .inl (hv ▸ hrw)
  | .leaf ⟨.tupleToUserSet t r, x⟩, g, g', n, n', hl, hg, hb => by
    obtain ⟨re, hre, hne⟩ := hl _ (List.mem_singleton_self _)
    simp only [buildChild, Option.mem_def.1 hre] at hb
    cases hb
    exact hg.addEdge (.inr rfl) (.inr ⟨_, _, hne, rfl⟩) _
  | .leaf ⟨.computedUserSet r, x⟩, g, g', n, n', hl, hg, hb => by
    cases hb
    exact hg.addEdge (.inr rfl) (.inr ⟨_, _, hl _ (List.mem_singleton_self _), rfl⟩) _
  | .leaf ⟨.other, _⟩, _, _, _, _, _, hg, hb | .none, _, _, _, _, _, hg, hb => by
    cases hb
    exact hg

end

theorem tupleSetsFound_of_resolves {ls : List Leaf}
    (h : ∀ l ∈ ls, LeafResolves refString USER defs entity l) : TupleSetsFound entity ls := by
  intro ⟨ty, x⟩ hl t r (hty : ty = _)
  subst hty
  obtain ⟨re, hre, -⟩ := h _ hl
  simp [Option.mem_def.1 hre]

/-- The relations loop adds the node of each relation, in order. -/
theorem relationsLoop_nodes : ∀ (g : Graph) (res : List RelationDefinition),
    (relationsLoop entity g res).nodes = g.nodes ++ res.map (reNode entity)
  | g, [] => by simp [relationsLoop]
  | g, re :: res => by
    simp [relationsLoop, relationsLoop_nodes _ res, Graph.addEdge, Graph.addNode]

theorem relationsLoop_closed {outside : Node → Prop} {ends : String → Prop} :
    ∀ (g : Graph) (res : List RelationDefinition), g.Closed outside ends →
      entityNode entity ∈ g.nodes → (relationsLoop entity g res).Closed outside ends
  | _, [], hg, _ => hg
  | _, _ :: res, hg, he => relationsLoop_closed _ res
      ((hg.addNode _).addEdge (.inl (List.mem_append_left _ he))
        (.inl (List.mem_append_right _ (List.mem_singleton_self _))) none)
      (List.mem_append_left _ he)

/-- The permissions loop keeps the nodes it is given and adds the node of each permission. -/
theorem permissionsLoop_nodes : ∀ (ps : List PermissionDefinition) (g g' : Graph) (n n' : Nat),
    permissionsLoop xid refString USER entity ps g n = .ok (g', n') →
      g.nodes <+: g'.nodes ∧ ∀ p ∈ ps, acNode entity p ∈ g'.nodes
  | [], g, _, n, _, h => by
    cases h
    simp
  | p :: ps, g, g', n, n', h => by
    obtain ⟨ag, n₁, -, h⟩ := permissionsLoop_cons_ok h
    obtain ⟨hpre, hmem⟩ := permissionsLoop_nodes ps _ g' n₁ n' h
    have hac : acNode entity p ∈ g.nodes ++ [acNode entity p] ++ ag.nodes := by simp
    have hg : g.nodes <+: g.nodes ++ [acNode entity p] ++ ag.nodes :=
      (List.prefix_append _ _).trans (List.prefix_append _ _)
    exact ⟨hg.trans hpre, List.forall_mem_cons.2 ⟨hpre.subset hac, hmem⟩⟩

theorem permissionsLoop_closed : ∀ (ps : List PermissionDefinition) (g g' : Graph) (n n' : Nat),
    (∀ p ∈ ps, ∀ l ∈ p.child.leaves, LeafResolves refString USER defs entity l) →
    g.Closed (fun _ => False) (Reached defs) → entityNode entity ∈ g.nodes →
    permissionsLoop xid refString USER entity ps g n = .ok (g', n') →
      g'.Closed (fun _ => False) (Reached defs)
  | [], _, _, _, _, _, hg, _, h => by cases h; exact hg
  | p :: ps, g, g', n, n', hl, hg, he, h => by
    rw [List.forall_mem_cons] at hl
    obtain ⟨ag, n₁, hb, h⟩ := permissionsLoop_cons_ok h
    have hag := buildActionGraph_closed _ [p.child] .empty ag n n₁
      (by simpa only [leavesOf, List.append_nil] using hl.1) Graph.closed_empty hb
    have hac : acNode entity p ∈ g.nodes ++ [acNode entity p] := by simp
    exact permissionsLoop_closed ps _ g' n₁ n' hl.2
      (((hg.addNode _).addEdge (.inl (List.mem_append_left _ he)) (.inl hac) none).addGraph
        hag fun v hv => .inl (hv ▸ hac)) (List.mem_append_left _ (List.mem_append_left _ he)) h

/-- `EntityToGraph` succeeds on an entity whose rules resolve, and draws a closed graph with
the node of each relation and permission. -/
theorem entityToGraph_spec (n : Nat) (h : RulesResolve refString USER defs entity) :
    ∃ eg n', entityToGraph xid refString USER entity n = .ok (eg, n') ∧
      eg.Closed (fun _ => False) (Reached defs) ∧
      (∀ re ∈ entity.relations, reNode entity re ∈ eg.nodes) ∧
      ∀ p ∈ entity.permissions, acNode entity p ∈ eg.nodes := by
  obtain ⟨⟨eg, n'⟩, hok⟩ := (@permissionsLoop_ok_iff xid refString USER entity
    entity.permissions (relationsLoop entity (Graph.empty.addNode (entityNode entity))
      entity.relations) n).2 fun p hp => tupleSetsFound_of_resolves (h p hp)
  have hen : entityNode entity ∈ (Graph.empty.addNode (entityNode entity)).nodes := by
    simp [Graph.addNode, Graph.empty]
  obtain ⟨hpre, hac⟩ := permissionsLoop_nodes _ _ eg n n' hok
  refine ⟨eg, n', hok, permissionsLoop_closed _ _ eg n n' h
    (relationsLoop_closed _ _ (Graph.closed_empty.addNode _) hen) ?_ hok,
    fun re hre => hpre.subset ?_, hac⟩
  · rw [relationsLoop_nodes]
    exact List.mem_append_left _ hen
  · rw [relationsLoop_nodes]
    exact List.mem_append_right _ (List.mem_map_of_mem _ hre)

end Convert

section Schema

variable {xid : Nat → String} {refString : RelationReference → String} {USER : String}
  {defs : List EntityDefinition}

/-- The loop of `SchemaToGraph` over entities whose rules resolve succeeds, keeps the graph
it is given closed and its nodes, and adds the node of every relation and permission. -/
theorem schemaToGraph_spec : ∀ (ens : List EntityDefinition) (g : Graph) (n : Nat),
    (∀ en ∈ ens, RulesResolve refString USER defs en) →
    g.Closed (fun _ => False) (Reached defs) →
    ∃ g' n', schemaToGraph xid refString USER ens g n = .ok (g', n') ∧
      g'.Closed (fun _ => False) (Reached defs) ∧ g.nodes ⊆ g'.nodes ∧
      ∀ en ∈ ens, (∀ re ∈ en.relations, reNode en re ∈ g'.nodes) ∧
        ∀ p ∈ en.permissions, acNode en p ∈ g'.nodes
  | [], g, n, _, hg => ⟨g, n, rfl, hg, fun _ h => h, by simp⟩
  | en :: ens, g, n, h, hg => by
    rw [List.forall_mem_cons] at h
    obtain ⟨eg, n', he, hc, hre, hac⟩ := @entityToGraph_spec xid refString USER defs en n h.1
    obtain ⟨g', n'', hs, hc', hsub, hall⟩ := schemaToGraph_spec ens (g.addGraph eg) n' h.2
      (hg.addGraph hc fun _ h => h.elim)
    have hg' : g.nodes ++ eg.nodes ⊆ g'.nodes := hsub
    refine ⟨g', n'', by simp only [schemaToGraph, he, hs], hc',
      fun v hv => hg' (List.mem_append_left _ hv), List.forall_mem_cons.2 ⟨⟨fun re hr => ?_,
      fun p hp => ?_⟩, hall⟩⟩
    · exact hg' (List.mem_append_right _ (hre re hr))
    · exact hg' (List.mem_append_right _ (hac p hp))

end Schema

/-- **The schema graph is closed.** When the schema's references resolve, `SchemaToGraph`
succeeds, every edge starts at a node of the graph and ends at the id of one, and every
relation and permission of the schema has a node. -/
theorem schemaToGraph_closed (xid : Nat → String) (refString : RelationReference → String)
    (USER : String) (defs : List EntityDefinition) (hwf : WellReferenced refString USER defs)
    (n : Nat) :
    ∃ g n', schemaToGraph xid refString USER defs .empty n = .ok (g, n') ∧
      (∀ e ∈ g.edges, e.source ∈ g.nodes ∧ ∃ v ∈ g.nodes, v.id = e.target.id) ∧
      ∀ id, Reached defs id → ∃ v ∈ g.nodes, v.id = id := by
  obtain ⟨g, n', hs, hc, -, hall⟩ :=
    @schemaToGraph_spec xid refString USER defs defs .empty n hwf Graph.closed_empty
  have hnode : ∀ id, Reached defs id → ∃ v ∈ g.nodes, v.id = id := by
    rintro _ ⟨E, N, ⟨en, hen, rfl, hN⟩, rfl⟩
    obtain ⟨hre, hac⟩ := hall en hen
    rcases hN with hN | hN <;> obtain ⟨x, hx, rfl⟩ := List.mem_map.1 hN
    · exact ⟨_, hre x hx, rfl⟩
    · exact ⟨_, hac x hx, rfl⟩
  refine ⟨g, n', hs, fun e he => ?_, hnode⟩
  obtain ⟨hsrc, htgt⟩ := hc e he
  exact ⟨hsrc.resolve_right id, htgt.elim (fun h => ⟨_, h, rfl⟩) (hnode _)⟩

/-- A repository's `edit` is its `owner` or its parent organization's `member`:
`permission edit = owner or parent.member`. -/
def repositoryDefs : List EntityDefinition :=
  [⟨"user", [], []⟩,
    ⟨"organization", [⟨"member", [⟨"user", ""⟩]⟩], []⟩,
    ⟨"repository", [⟨"parent", [⟨"organization", ""⟩]⟩, ⟨"owner", [⟨"user", ""⟩]⟩],
      [⟨"edit", .rewrite "UNION"
        [.leaf ⟨.computedUserSet "owner", false⟩, .leaf ⟨.tupleToUserSet "parent" "member", false⟩]⟩]⟩]

theorem schemaToGraph_closed_repositoryDefs :
    WellReferenced (·.type) "user" repositoryDefs ∧
    ∃ g n', schemaToGraph toString (·.type) "user" repositoryDefs .empty 0 = .ok (g, n') ∧
      (∀ e ∈ g.edges, e.source ∈ g.nodes ∧ ∃ v ∈ g.nodes, v.id = e.target.id) ∧
      ∀ id, Reached repositoryDefs id → ∃ v ∈ g.nodes, v.id = id :=
  ⟨by decide, schemaToGraph_closed toString (·.type) "user" repositoryDefs (by decide) 0⟩

/-! ## One logic node per rewrite -/

mutual

/-- The rewrites of a rule. -/
def Child.rewrites : Child → Nat
  | .rewrite _ children => rewritesOf children + 1
  | .leaf _ => 0
  | .none => 0

/-- The rewrites of a list of rules. -/
def rewritesOf : List Child → Nat
  | [] => 0
  | c :: cs => c.rewrites + rewritesOf cs

end

/-- The rewrites in the rules of a list of permissions. -/
def permissionRewrites : List PermissionDefinition → Nat
  | [] => 0
  | p :: ps => p.child.rewrites + permissionRewrites ps

/-- The rewrites in the rules of a schema's permissions. -/
def schemaRewrites : List EntityDefinition → Nat
  | [] => 0
  | en :: ens => permissionRewrites en.permissions + schemaRewrites ens

/-- The ids of the logic nodes of `g`, in order. -/
def Graph.logicIds (g : Graph) : List String := (g.nodes.filter (·.type = "logic")).map (·.id)

@[simp] theorem Graph.logicIds_empty : Graph.empty.logicIds = [] := rfl

@[simp] theorem Graph.logicIds_addEdge (g : Graph) (s t : Node) (x : Option Bool) :
    (g.addEdge s t x).logicIds = g.logicIds := rfl

@[simp] theorem Graph.logicIds_addGraph (g h : Graph) :
    (g.addGraph h).logicIds = g.logicIds ++ h.logicIds := by
  simp [Graph.logicIds, Graph.addGraph]

theorem Graph.logicIds_addNode (g : Graph) (v : Node) :
    (g.addNode v).logicIds = g.logicIds ++ if v.type = "logic" then [v.id] else [] := by
  by_cases h : v.type = "logic" <;> simp [Graph.logicIds, Graph.addNode, h]

/-- The ids drawn from `n` on, in two runs. -/
theorem map_range'_append (xid : Nat → String) (n a b : Nat) :
    (List.range' n a).map xid ++ (List.range' (n + a) b).map xid = (List.range' n (a + b)).map xid := by
  rw [← List.map_append, List.range'_append_1, Nat.add_comm]

section Convert

variable {xid : Nat → String} {refString : RelationReference → String} {USER : String}
  {entity : EntityDefinition}

mutual

/-- `buildActionGraph` draws one id per rewrite, and the logic nodes it adds carry the ids
drawn, in order. -/
theorem buildActionGraph_logicIds (source : Node) : ∀ (cs : List Child) (g g' : Graph) (n n' : Nat),
    buildActionGraph xid refString USER entity source cs g n = .ok (g', n') →
      n' = n + rewritesOf cs ∧ g'.logicIds = g.logicIds ++ (List.range' n (rewritesOf cs)).map xid
  | [], _, _, _, _, h => by
    cases h
    simp [rewritesOf]
  | c :: cs, g, g', n, n', h => by
    obtain ⟨g₁, n₁, hc, h⟩ := buildActionGraph_cons_ok h
    obtain ⟨hn₁, hg₁⟩ := buildChild_logicIds source c g g₁ n n₁ hc
    obtain ⟨hn', hg'⟩ := buildActionGraph_logicIds source cs g₁ g' n₁ n' h
    refine ⟨by rw [hn', hn₁, rewritesOf, Nat.add_assoc], ?_⟩
    rw [hg', hg₁, hn₁, List.append_assoc, map_range'_append, rewritesOf]

theorem buildChild_logicIds (source : Node) : ∀ (c : Child) (g g' : Graph) (n n' : Nat),
    buildChild xid refString USER entity source c g n = .ok (g', n') →
      n' = n + c.rewrites ∧ g'.logicIds = g.logicIds ++ (List.range' n c.rewrites).map xid
  | .rewrite operation children, g, g', n, n', h => by
    obtain ⟨ag, hb, rfl⟩ := buildChild_rewrite_ok h
    obtain ⟨rfl, hg⟩ := buildActionGraph_logicIds _ children .empty ag (n + 1) n' hb
    rw [Child.rewrites, List.range'_succ]
    simp [Graph.logicIds_addNode, hg]
    omega
  | .leaf ⟨.tupleToUserSet t _, _⟩, g, g', n, n', h => by
    cases hre : getRelationByName entity t <;> simp only [buildChild, hre] at h
    · cases h
    · cases h
      simp [Child.rewrites]
  | .leaf ⟨.computedUserSet _, _⟩, _, _, _, _, h | .leaf ⟨.other, _⟩, _, _, _, _, h
  | .none, _, _, _, _, h => by
    cases h
    simp [Child.rewrites]

end

theorem relationsLoop_logicIds :
    ∀ (g : Graph) (res : List RelationDefinition), (relationsLoop entity g res).logicIds = g.logicIds
  | _, [] => rfl
  | g, _ :: res => by
    rw [relationsLoop, relationsLoop_logicIds _ res, Graph.logicIds_addEdge, Graph.logicIds_addNode]
    simp [reNode]

theorem permissionsLoop_logicIds : ∀ (ps : List PermissionDefinition) (g g' : Graph) (n n' : Nat),
    permissionsLoop xid refString USER entity ps g n = .ok (g', n') →
      n' = n + permissionRewrites ps ∧
      g'.logicIds = g.logicIds ++ (List.range' n (permissionRewrites ps)).map xid
  | [], _, _, _, _, h => by
    cases h
    simp [permissionRewrites]
  | p :: ps, g, g', n, n', h => by
    obtain ⟨ag, n₁, hb, h⟩ := permissionsLoop_cons_ok h
    obtain ⟨hn₁, hg₁⟩ := buildActionGraph_logicIds _ [p.child] .empty ag n n₁ hb
    obtain ⟨hn', hg'⟩ := permissionsLoop_logicIds ps _ g' n₁ n' h
    simp only [rewritesOf, Nat.add_zero] at hn₁ hg₁
    refine ⟨by rw [hn', hn₁, permissionRewrites, Nat.add_assoc], ?_⟩
    rw [hg', hn₁, Graph.logicIds_addGraph, Graph.logicIds_addEdge, Graph.logicIds_addNode, hg₁,
      permissionRewrites]
    simp [acNode, map_range'_append]

end Convert

/-- **One logic node per rewrite.** A successful `SchemaToGraph` draws one id for each
rewrite of the schema's rules, and its logic nodes carry exactly the ids drawn, in order: so
with an id generator that never repeats, no two rewrites share a node. -/
theorem schemaToGraph_logicIds (xid : Nat → String) (refString : RelationReference → String)
    (USER : String) :
    ∀ (defs : List EntityDefinition) (g g' : Graph) (n n' : Nat),
      schemaToGraph xid refString USER defs g n = .ok (g', n') →
        n' = n + schemaRewrites defs ∧
        g'.logicIds = g.logicIds ++ (List.range' n (schemaRewrites defs)).map xid
  | [], _, _, _, _, h => by
    cases h
    simp [schemaRewrites]
  | en :: ens, g, g', n, n', h => by
    obtain ⟨eg, n₁, he, h⟩ := schemaToGraph_cons_ok h
    obtain ⟨hn₁, hg₁⟩ := permissionsLoop_logicIds _ _ eg n n₁ he
    obtain ⟨hn', hg'⟩ := schemaToGraph_logicIds xid refString USER ens _ g' n₁ n' h
    simp only [relationsLoop_logicIds, Graph.logicIds_addNode, Graph.logicIds_empty,
      List.nil_append] at hg₁
    refine ⟨by rw [hn', hn₁, schemaRewrites, Nat.add_assoc], ?_⟩
    rw [hg', Graph.logicIds_addGraph, hg₁, hn₁, schemaRewrites]
    simp [entityNode, map_range'_append]

/-- The repository schema has one rewrite, the `or` of `edit`: its graph has one logic
node, with the first id drawn. -/
theorem schemaToGraph_logicIds_repositoryDefs :
    ∃ g n', schemaToGraph toString (·.type) "user" repositoryDefs .empty 0 = .ok (g, n') ∧
      n' = 0 + schemaRewrites repositoryDefs ∧
      g.logicIds = Graph.empty.logicIds ++ (List.range' 0 (schemaRewrites repositoryDefs)).map toString := by
  obtain ⟨⟨g, n'⟩, h⟩ : ∃ r, schemaToGraph toString (·.type) "user" repositoryDefs .empty 0 = .ok r :=
    ⟨_, rfl⟩
  exact ⟨g, n', h, schemaToGraph_logicIds toString (·.type) "user" repositoryDefs .empty g 0 n' h⟩

end Permify.Development
