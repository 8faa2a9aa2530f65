/-
What is true of the trees that a parser makes, and what the analysis
relies on. The functions that read a tree are total and take any tree;
most of what can be said of their results holds of trees that the
grammar can give.

`Grammatical` is about calls: parentheses hold one thing, and a member
access right under a call is what is called. `Ranged` is about
positions: children lie inside their parent, one behind the other.
`SingleVariables` is about declarations: one variable each. All three
are checked node by node and can be decided; `Document.sample` has them
all.
-/
import QueryLint.Document
import QueryLint.Proofs.Tree.Position

namespace QueryLint

namespace Tree

-- ============================================================== the grammar

/-- What the grammar promises of calls and of parentheses. -/
structure Grammatical (t : Tree) : Prop where
  invocation_named : ∀ c ∈ t.documentOrder, c.kind = .invocation → c.label.named = true
  parenthesized_named : ∀ c ∈ t.documentOrder, c.kind = .parenthesized → c.label.named = true
  parenthesized_single : ∀ c ∈ t.documentOrder, c.kind = .parenthesized →
    c.namedChildren.length ≤ 1
  /-- A member access right under a call is what is called, and is
  complete. -/
  access_called : ∀ c ∈ t.documentOrder, c.kind = .invocation →
    ∀ d ∈ c.children, d.kind = .memberAccess →
      d.fills .function = true ∧ (d.child? .expression).isSome = true
        ∧ (d.child? .name).isSome = true

instance (t : Tree) : Decidable t.Grammatical :=
  decidable_of_iff
    ((∀ c ∈ t.documentOrder, c.kind = .invocation → c.label.named = true)
      ∧ (∀ c ∈ t.documentOrder, c.kind = .parenthesized → c.label.named = true)
      ∧ (∀ c ∈ t.documentOrder, c.kind = .parenthesized → c.namedChildren.length ≤ 1)
      ∧ (∀ c ∈ t.documentOrder, c.kind = .invocation →
          ∀ d ∈ c.children, d.kind = .memberAccess →
            d.fills .function = true ∧ (d.child? .expression).isSome = true
              ∧ (d.child? .name).isSome = true))
    ⟨fun ⟨h₁, h₂, h₃, h₄⟩ => ⟨h₁, h₂, h₃, h₄⟩, fun ⟨h₁, h₂, h₃, h₄⟩ => ⟨h₁, h₂, h₃, h₄⟩⟩

-- ================================================================== ranges

/-- The byte ranges of a tree fit into each other. -/
structure Ranged (t : Tree) : Prop where
  inside : ∀ c ∈ t.documentOrder, ∀ d ∈ c.children, c.start ≤ d.start ∧ d.stop ≤ c.stop
  ordered : ∀ c ∈ t.documentOrder, c.children.Pairwise (·.stop ≤ ·.start)
  identifier_nonempty : ∀ c ∈ t.documentOrder, c.kind = .identifier → c.start < c.stop

instance (t : Tree) : Decidable t.Ranged :=
  decidable_of_iff
    ((∀ c ∈ t.documentOrder, ∀ d ∈ c.children, c.start ≤ d.start ∧ d.stop ≤ c.stop)
      ∧ (∀ c ∈ t.documentOrder, c.children.Pairwise (·.stop ≤ ·.start))
      ∧ (∀ c ∈ t.documentOrder, c.kind = .identifier → c.start < c.stop))
    ⟨fun ⟨h₁, h₂, h₃⟩ => ⟨h₁, h₂, h₃⟩, fun ⟨h₁, h₂, h₃⟩ => ⟨h₁, h₂, h₃⟩⟩

/-- Whatever is around a node encloses its range. -/
theorem Ranged.enclosed {c : Cursor} (hr : c.top.Ranged) {a : Cursor} (ha : a ∈ c.ancestors) :
    a.start ≤ c.start ∧ c.stop ≤ a.stop := by
  -- going up keeps to the tree, where each parent encloses its child
  have hstep : ∀ p d : Cursor, d.parent? = some p →
      (d.top = c.top ∧ d.start ≤ c.start ∧ c.stop ≤ d.stop) →
      (p.top = c.top ∧ p.start ≤ c.start ∧ c.stop ≤ p.stop) := by
    intro p d hparent hd
    obtain ⟨htop, hstart, hstop⟩ := hd
    have hptop : p.top = c.top := (Cursor.top_eq_of_parent? hparent).symm.trans htop
    have hin := hr.inside p (mem_documentOrder_iff.2 hptop) d (Cursor.mem_children_iff.2 hparent)
    exact ⟨hptop, by omega, by omega⟩
  exact (Cursor.forall_mem_ancestors hstep ⟨rfl, Nat.le_refl _, Nat.le_refl _⟩ a ha).2

-- =============================================================== variables

/-- Statements declare one variable at a time. -/
structure SingleVariables (t : Tree) : Prop where
  declaration : ∀ c ∈ t.documentOrder,
    (c.kind = .localDeclaration ∨ c.kind.declaresInHead = true) →
      (c.namedOfKind .variableDeclaration).length ≤ 1
  declarator : ∀ c ∈ t.documentOrder, c.kind = .variableDeclaration →
    (c.namedOfKind .variableDeclarator).length ≤ 1

instance (t : Tree) : Decidable t.SingleVariables :=
  decidable_of_iff
    ((∀ c ∈ t.documentOrder, (c.kind = .localDeclaration ∨ c.kind.declaresInHead = true) →
        (c.namedOfKind .variableDeclaration).length ≤ 1)
      ∧ (∀ c ∈ t.documentOrder, c.kind = .variableDeclaration →
        (c.namedOfKind .variableDeclarator).length ≤ 1))
    ⟨fun ⟨h₁, h₂⟩ => ⟨h₁, h₂⟩, fun ⟨h₁, h₂⟩ => ⟨h₁, h₂⟩⟩

end Tree

-- ================================================================== samples

/-- A document with a chain of two calls on a local variable, the first
call in parentheses and with a lambda that takes the index. -/
def Document.sample : Document where
  path := "C.cs"
  source := .ofText ("class C\x7bDbSet<U>a;void m()\x7bvar b=a;" ++
    "(b.Where((u,i)=>u)).Select(x=>x);\x7d\x7d")
  tree :=
    named (.other "compilation_unit") none 0 70 [
      named .classDeclaration none 0 70 [
        named .identifier (some .name) 6 7 [],
        named (.other "declaration_list") (some .body) 7 70 [
          named .fieldDeclaration none 8 18 [
            named .variableDeclaration none 8 17 [
              named .genericName (some .type) 8 16 [
                named .identifier none 8 13 [],
                named .typeArgumentList none 13 16 [
                  named .identifier none 14 15 []]],
              named .variableDeclarator none 16 17 [
                named .identifier (some .name) 16 17 []]]],
          named .methodDeclaration none 18 69 [
            named .predefinedType (some .returns) 18 22 [],
            named .identifier (some .name) 23 24 [],
            named .parameterList (some .parameters) 24 26 [],
            named .block (some .body) 26 69 [
              named .localDeclaration none 27 35 [
                named .variableDeclaration none 27 34 [
                  named .implicitType (some .type) 27 30 [],
                  named .variableDeclarator none 31 34 [
                    named .identifier (some .name) 31 32 [],
                    .node ⟨.equalsSign, false, none, 32, 33⟩ [],
                    named .identifier none 33 34 []]]],
              named (.other "expression_statement") none 35 68 [
                named .invocation none 35 67 [
                  named .memberAccess (some .function) 35 61 [
                    named .parenthesized (some .expression) 35 54 [
                      named .invocation none 36 53 [
                        named .memberAccess (some .function) 36 43 [
                          named .identifier (some .expression) 36 37 [],
                          named .identifier (some .name) 38 43 []],
                        named (.other "argument_list") (some .arguments) 43 53 [
                          named .argument none 44 52 [
                            named .lambda none 44 52 [
                              named .parameterList (some .parameters) 44 49 [
                                named .parameter none 45 46 [
                                  named .identifier (some .name) 45 46 []],
                                named .parameter none 47 48 [
                                  named .identifier (some .name) 47 48 []]],
                              named .identifier (some .body) 51 52 []]]]]],
                    named .identifier (some .name) 55 61 []],
                  named (.other "argument_list") (some .arguments) 61 67 [
                    named .argument none 62 66 [
                      named .lambda none 62 66 [
                        named .identifier (some .parameters) 62 63 [],
                        named .identifier (some .body) 65 66 []]]]]]]]]]]
where
  named (kind : Kind) (field : Option Field) (start stop : Nat) (children : List Tree) : Tree :=
    .node ⟨kind, true, field, start, stop⟩ children

/-- A document with one statement that declares two variables, the first
initialized from the second. -/
def Document.twoDeclarators : Document where
  path := "D.cs"
  source := .ofText "class D\x7bvoid m()\x7bint a=b,b=1;\x7d\x7d"
  tree :=
    named (.other "compilation_unit") none 0 31 [
      named .classDeclaration none 0 31 [
        token "class" 0 5,
        named .identifier (some .name) 6 7 [],
        named (.other "declaration_list") (some .body) 7 31 [
          token "\x7b" 7 8,
          named .methodDeclaration none 8 30 [
            named .predefinedType (some .returns) 8 12 [],
            named .identifier (some .name) 13 14 [],
            named .parameterList (some .parameters) 14 16 [token "(" 14 15, token ")" 15 16],
            named .block (some .body) 16 30 [
              token "\x7b" 16 17,
              named .localDeclaration none 17 29 [
                named .variableDeclaration none 17 28 [
                  named .predefinedType (some .type) 17 20 [],
                  named .variableDeclarator none 21 24 [
                    named .identifier (some .name) 21 22 [],
                    token "=" 22 23,
                    named .identifier none 23 24 []],
                  token "," 24 25,
                  named .variableDeclarator none 25 28 [
                    named .identifier (some .name) 25 26 [],
                    token "=" 26 27,
                    named (.other "integer_literal") none 27 28 []]],
                token ";" 28 29],
              token "\x7d" 29 30]],
          token "\x7d" 30 31]]]
where
  named := sample.named
  token (name : String) (start stop : Nat) : Tree :=
    .node ⟨.ofName name, false, none, start, stop⟩ []

end QueryLint
