import Mathlib.Data.List.Basic

/-!
# Python's abstract syntax

The nodes of Python 3.11's `ast` module, and `ast.NodeVisitor`. Every node
class is a constructor with its fields in the order of `_fields`; the sorts of
the grammar (statements, expressions, patterns) are not told apart, so a fact
about every `Node` is one about every tree the parser can build. Left out is
what holds neither a node nor an identifier: operators, the values of
constants, type comments and positions.
-/

namespace PythonSyntax

inductive ExprContext where
  | load | store | del
deriving DecidableEq, Repr

structure Alias where
  name : String
  asname : Option String := none

inductive Node where
  -- mod
  | module (body : List Node)
  | interactive (body : List Node)
  | expression (body : Node)
  | functionType (argtypes : List Node) (returns : Node)
  -- stmt
  | functionDef (name : String) (args : Node) (body decoratorList : List Node) (returns : Option Node)
  | asyncFunctionDef (name : String) (args : Node) (body decoratorList : List Node) (returns : Option Node)
  | classDef (name : String) (bases keywords body decoratorList : List Node)
  | return_ (value : Option Node)
  | delete (targets : List Node)
  | assign (targets : List Node) (value : Node)
  | augAssign (target value : Node)
  | annAssign (target annotation : Node) (value : Option Node)
  | for_ (target iter : Node) (body orelse : List Node)
  | asyncFor (target iter : Node) (body orelse : List Node)
  | while_ (test : Node) (body orelse : List Node)
  | if_ (test : Node) (body orelse : List Node)
  | with_ (items body : List Node)
  | asyncWith (items body : List Node)
  | match_ (subject : Node) (cases : List Node)
  | raise (exc cause : Option Node)
  | try_ (body handlers orelse finalbody : List Node)
  | tryStar (body handlers orelse finalbody : List Node)
  | assert (test : Node) (msg : Option Node)
  | import_ (names : List Alias)
  | importFrom (module : Option String) (names : List Alias) (level : Nat)
  | global (names : List String)
  | nonlocal (names : List String)
  | expr (value : Node)
  | pass
  | break_
  | continue_
  -- expr
  | boolOp (values : List Node)
  | namedExpr (target value : Node)
  | binOp (left right : Node)
  | unaryOp (operand : Node)
  | lambda (args body : Node)
  | ifExp (test body orelse : Node)
  /-- the key of `**mapping` is `None` -/
  | dict (keys : List (Option Node)) (values : List Node)
  | set (elts : List Node)
  | listComp (elt : Node) (generators : List Node)
  | setComp (elt : Node) (generators : List Node)
  | dictComp (key value : Node) (generators : List Node)
  | generatorExp (elt : Node) (generators : List Node)
  | await (value : Node)
  | yield (value : Option Node)
  | yieldFrom (value : Node)
  | compare (left : Node) (comparators : List Node)
  | call (func : Node) (args keywords : List Node)
  | formattedValue (value : Node) (formatSpec : Option Node)
  | joinedStr (values : List Node)
  | constant
  | attribute (value : Node) (attr : String) (ctx : ExprContext)
  | subscript (value index : Node) (ctx : ExprContext)
  | starred (value : Node) (ctx : ExprContext)
  | name (id : String) (ctx : ExprContext)
  | list (elts : List Node) (ctx : ExprContext)
  | tuple (elts : List Node) (ctx : ExprContext)
  | slice (lower upper step : Option Node)
  -- the other sorts
  | comprehension (target iter : Node) (ifs : List Node)
  | exceptHandler (type : Option Node) (name : Option String) (body : List Node)
  | arguments (posonlyargs args : List Node) (vararg : Option Node) (kwonlyargs : List Node)
      (kwDefaults : List (Option Node)) (kwarg : Option Node) (defaults : List Node)
  | arg (arg : String) (annot : Option Node)
  | keyword (arg : Option String) (value : Node)
  | withitem (contextExpr : Node) (optionalVars : Option Node)
  | matchCase (pattern : Node) (guard : Option Node) (body : List Node)
  -- pattern
  | matchValue (value : Node)
  | matchSingleton
  | matchSequence (patterns : List Node)
  | matchMapping (keys patterns : List Node) (rest : Option String)
  | matchClass (cls : Node) (patterns : List Node) (kwdAttrs : List String) (kwdPatterns : List Node)
  | matchStar (name : Option String)
  | matchAs (pattern : Option Node) (name : Option String)
  | matchOr (patterns : List Node)

namespace Node

/-- `ast.iter_child_nodes`; an alias has no child and is left out. -/
def children : Node → List Node
  | .module body | .interactive body => body
  | .expression body => [body]
  | .functionType argtypes returns => argtypes ++ [returns]
  | .functionDef _ args body decoratorList returns | .asyncFunctionDef _ args body decoratorList returns =>
    args :: (body ++ decoratorList ++ returns.toList)
  | .classDef _ bases keywords body decoratorList => bases ++ keywords ++ body ++ decoratorList
  | .return_ value | .yield value => value.toList
  | .delete targets => targets
  | .assign targets value => targets ++ [value]
  | .augAssign target value | .namedExpr target value => [target, value]
  | .annAssign target annotation value => target :: annotation :: value.toList
  | .for_ target iter body orelse | .asyncFor target iter body orelse => target :: iter :: (body ++ orelse)
  | .while_ test body orelse | .if_ test body orelse => test :: (body ++ orelse)
  | .with_ items body | .asyncWith items body => items ++ body
  | .match_ subject cases => subject :: cases
  | .raise exc cause => exc.toList ++ cause.toList
  | .try_ body handlers orelse finalbody | .tryStar body handlers orelse finalbody => body ++ handlers ++ orelse ++ finalbody
  | .assert test msg => test :: msg.toList
  | .import_ _ | .importFrom _ _ _ | .global _ | .nonlocal _ | .pass | .break_ | .continue_ => []
  | .expr value | .await value | .yieldFrom value => [value]
  | .boolOp values | .joinedStr values => values
  | .binOp left right => [left, right]
  | .unaryOp operand => [operand]
  | .lambda args body => [args, body]
  | .ifExp test body orelse => [test, body, orelse]
  | .dict keys values => keys.filterMap id ++ values
  | .set elts | .list elts _ | .tuple elts _ => elts
  | .listComp elt generators | .setComp elt generators | .generatorExp elt generators => elt :: generators
  | .dictComp key value generators => key :: value :: generators
  | .compare left comparators => left :: comparators
  | .call func args keywords => func :: (args ++ keywords)
  | .formattedValue value formatSpec => value :: formatSpec.toList
  | .constant | .name _ _ => []
  | .attribute value _ _ | .starred value _ | .keyword _ value => [value]
  | .subscript value index _ => [value, index]
  | .slice lower upper step => lower.toList ++ upper.toList ++ step.toList
  | .comprehension target iter ifs => target :: iter :: ifs
  | .exceptHandler type _ body => type.toList ++ body
  | .arguments posonlyargs args vararg kwonlyargs kwDefaults kwarg defaults =>
    posonlyargs ++ args ++ vararg.toList ++ kwonlyargs ++ kwDefaults.filterMap id ++ kwarg.toList ++ defaults
  | .arg _ annotation => annotation.toList
  | .withitem contextExpr optionalVars => contextExpr :: optionalVars.toList
  | .matchCase pattern guard body => pattern :: (guard.toList ++ body)
  | .matchValue value => [value]
  | .matchSingleton | .matchStar _ => []
  | .matchSequence patterns | .matchOr patterns => patterns
  | .matchMapping keys patterns _ => keys ++ patterns
  | .matchClass cls patterns _ kwdPatterns => cls :: (patterns ++ kwdPatterns)
  | .matchAs pattern _ => pattern.toList

theorem mem_filterMap_id_lt {n : Node} {l : List (Option Node)} (h : n ∈ l.filterMap id) : sizeOf n < sizeOf l := by
  obtain ⟨o, ho, hn⟩ := List.mem_filterMap.mp h
  have hlt := List.sizeOf_lt_of_mem ho
  cases o with
  | none => cases hn
  | some m =>
    cases hn
    simp at hlt
    omega

theorem mem_toList_lt {n : Node} {o : Option Node} (h : n ∈ o.toList) : sizeOf n < sizeOf o := by
  cases o with
  | none => cases h
  | some m =>
    rw [Option.toList_some, List.mem_singleton] at h
    subst h
    simp

theorem children_lt {n c : Node} (h : c ∈ n.children) : sizeOf c < sizeOf n := by
  have hl : ∀ {l : List Node}, c ∈ l → sizeOf c < sizeOf l := List.sizeOf_lt_of_mem
  have ho : ∀ {o : Option Node}, c ∈ o.toList → sizeOf c < sizeOf o := mem_toList_lt
  have hk : ∀ {l : List (Option Node)}, c ∈ l.filterMap id → sizeOf c < sizeOf l := mem_filterMap_id_lt
  cases n <;> simp only [children, List.mem_append, List.mem_cons, List.not_mem_nil, or_false] at h <;>
    simp <;> grind

/-- Below every node there are finitely many: what the children hand up holds of every node. -/
theorem induction_children {P : Node → Prop} (h : ∀ n, (∀ c ∈ n.children, P c) → P n) (n : Node) : P n :=
  h n fun c _ => induction_children h c
termination_by sizeOf n
decreasing_by exact children_lt ‹_›

/-- `m` is the node `n` or one below it, at any depth. -/
inductive Within (m : Node) : Node → Prop where
  | self : Within m m
  | child {c n : Node} (hc : c ∈ n.children) (h : Within m c) : Within m n

theorem Within.of_child {c n tree : Node} (hc : c ∈ n.children) (h : Within n tree) : Within c tree := by
  induction h with
  | self => exact .child hc .self
  | child hc' _ ih => exact .child hc' ih

/-! ## Visitors -/

/-- `NodeVisitor.visit`: what the method of the node's class reports, then
`generic_visit` over its children. -/
def visit {β : Type} (report : Node → List β) (n : Node) : List β :=
  report n ++ n.children.attach.flatMap fun c => visit report c.1
termination_by sizeOf n
decreasing_by exact children_lt c.2

variable {β : Type} (report : Node → List β)

theorem visit_eq (n : Node) : n.visit report = report n ++ n.children.flatMap (visit report) := by
  rw [visit, ← List.flatMap_map Subtype.val (visit report), List.attach_map_subtype_val]

/-- A visit reports what the methods report of the nodes of the tree, and nothing else. -/
theorem mem_visit {b : β} {n : Node} : b ∈ n.visit report ↔ ∃ m, Within m n ∧ b ∈ report m := by
  induction n using induction_children with
  | h n ih =>
    rw [visit_eq, List.mem_append, List.mem_flatMap]
    constructor
    · rintro (h | ⟨c, hc, h⟩)
      · exact ⟨n, .self, h⟩
      · obtain ⟨m, hm, hb⟩ := (ih c hc).mp h
        exact ⟨m, .child hc hm, hb⟩
    · rintro ⟨m, hm, hb⟩
      cases hm with
      | self => exact .inl hb
      | child hc hm => exact .inr ⟨_, hc, (ih _ hc).mpr ⟨m, hm, hb⟩⟩

theorem visit_eq_nil {n : Node} : n.visit report = [] ↔ ∀ m, Within m n → report m = [] := by
  simp only [List.eq_nil_iff_forall_not_mem, mem_visit, not_exists, not_and]
  exact ⟨fun h m hm b hb => h b m hm hb, fun h b m hm => h m hm b⟩

/-- On a given tree, `visit` lists the nodes. -/
theorem within_iff {m n : Node} : Within m n ↔ m ∈ n.visit ([·]) := by
  simp [mem_visit]

end Node

end PythonSyntax
