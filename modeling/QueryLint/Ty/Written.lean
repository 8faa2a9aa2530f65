/-
Types as the source writes them. `Ty.ofTree?` reads a type off its
syntax: keyword types get the names of the types they stand for, of a
qualified name only the last part counts, and arrays and nullable types
are generic types of one argument. There is no answer for `var`, which
leaves the type to the initializer; a type argument that has no answer
becomes `Object`, so inside a type nothing is ever missing.
-/
import QueryLint.Document
import QueryLint.Ty

namespace QueryLint

namespace Ty

/-- The types that keywords stand for. -/
def keywords : List (String × String) :=
  [("bool", "Boolean"), ("byte", "Byte"), ("sbyte", "SByte"), ("char", "Char"),
   ("decimal", "Decimal"), ("double", "Double"), ("float", "Single"),
   ("int", "Int32"), ("uint", "UInt32"), ("nint", "IntPtr"), ("nuint", "UIntPtr"),
   ("long", "Int64"), ("ulong", "UInt64"), ("short", "Int16"), ("ushort", "UInt16"),
   ("object", "Object"), ("string", "String"), ("dynamic", "Object"), ("void", "Void")]

/-- The name of the type that a keyword stands for; any other text names
itself. -/
def ofKeyword (s : String) : String := (keywords.lookup s).getD s

/-- The last of several trees that has a given kind. -/
def lastOfKind? (k : Kind) (ts : List Tree) : Option Tree :=
  (ts.filter (·.kind == k)).getLast?

theorem mem_of_lastOfKind? {k : Kind} {ts : List Tree} {t : Tree}
    (h : lastOfKind? k ts = some t) : t ∈ ts :=
  (List.mem_filter.1 (List.mem_of_getLast? h)).1

/-- The part of a qualified name that names the type: its name field or,
if it has none, its last part. -/
def simplePart? (t : Tree) : Option Tree :=
  (t.child? .name).or t.namedChildren.getLast?

theorem mem_children_of_simplePart? {t u : Tree} (h : simplePart? t = some u) :
    u ∈ t.children := by
  rcases Option.or_eq_some_iff.1 h with h | ⟨-, h⟩
  · exact Tree.mem_children_of_child? h
  · exact Tree.mem_children_of_mem_namedChildren (List.mem_of_getLast? h)

/-- The type that a piece of type syntax denotes; none for `var`. -/
def ofTree? (src : Source) (t : Tree) : Option Ty :=
  match t.kind with
  | .implicitType => none
  | .predefinedType => some (plain (ofKeyword (src.text t)))
  | .identifier => if src.text t = "var" then none else some (plain (src.text t))
  | .genericName =>
    let name := ((lastOfKind? .identifier t.children).map src.text).getD ""
    match _h : lastOfKind? .typeArgumentList t.children with
    | none => some (plain name)
    | some list =>
      some (mk name (list.namedChildren.attach.map fun ⟨u, _⟩ => (ofTree? src u).getD object))
  | .qualifiedName | .aliasQualifiedName =>
    match _h : simplePart? t with
    | none => none
    | some u => ofTree? src u
  | .nullableType =>
    match _h : t.namedChildren.head? with
    | none => none
    | some u => some (mk "Nullable" [(ofTree? src u).getD object])
  | .arrayType =>
    match _h : t.child? .type with
    | none => some (mk "Array" [object])
    | some u => some (mk "Array" [(ofTree? src u).getD object])
  | .tupleType => some (plain "ValueTuple")
  | _ => some (plain (src.text t))
termination_by t.size
decreasing_by
  · exact Nat.lt_trans
      (Tree.size_lt_of_mem_children (Tree.mem_children_of_mem_namedChildren ‹_›))
      (Tree.size_lt_of_mem_children (mem_of_lastOfKind? ‹_›))
  · exact Tree.size_lt_of_mem_children (mem_children_of_simplePart? ‹_›)
  · exact Tree.size_lt_of_mem_children
      (Tree.mem_children_of_mem_namedChildren (List.mem_of_head? ‹_›))
  · exact Tree.size_lt_of_mem_children (Tree.mem_children_of_child? ‹_›)

/-- One level of a written type, without the bookkeeping of termination. -/
theorem ofTree?_eq (src : Source) (t : Tree) :
    ofTree? src t =
      match t.kind with
      | .implicitType => none
      | .predefinedType => some (plain (ofKeyword (src.text t)))
      | .identifier => if src.text t = "var" then none else some (plain (src.text t))
      | .genericName =>
        some (mk (((lastOfKind? .identifier t.children).map src.text).getD "")
          (((lastOfKind? .typeArgumentList t.children).map fun list =>
            list.namedChildren.map fun u => (ofTree? src u).getD object).getD []))
      | .qualifiedName | .aliasQualifiedName => (simplePart? t).bind (ofTree? src)
      | .nullableType =>
        t.namedChildren.head?.map fun u => mk "Nullable" [(ofTree? src u).getD object]
      | .arrayType => some (mk "Array" [((t.child? .type).bind (ofTree? src)).getD object])
      | .tupleType => some (plain "ValueTuple")
      | _ => some (plain (src.text t)) := by
  fun_cases ofTree? src t with
  | case1 hkind => rw [hkind]
  | case2 hkind => rw [hkind]
  | case3 hkind hvar => rw [hkind, if_pos hvar]
  | case4 hkind hvar => rw [hkind, if_neg hvar]
  | case5 hkind name hnone =>
    rw [hkind, hnone]
    rfl
  | case6 hkind name list hlist =>
    rw [hkind, hlist]
    exact congrArg (fun args => some (mk name args))
      (List.attach_map_val (f := fun u => (ofTree? src u).getD object))
  | case7 hkind hnone =>
    rw [hkind, hnone]
    rfl
  | case8 hkind u hsome =>
    rw [hkind, hsome]
    rfl
  | case9 hkind hnone =>
    rw [hkind, hnone]
    rfl
  | case10 hkind u hsome =>
    rw [hkind, hsome]
    rfl
  | case11 hkind hnone =>
    rw [hkind, hnone]
    rfl
  | case12 hkind u hsome =>
    rw [hkind, hsome]
    rfl
  | case13 hkind hnone =>
    rw [hkind, hnone]
    rfl
  | case14 hkind u hsome =>
    rw [hkind, hsome]
    rfl
  | case15 hkind => rw [hkind]
  | case16 =>
    -- none of the kinds above is left
    split
    case h_10 => rfl
    all_goals contradiction

/-- The type in a node's type field, if it has one that can be told. -/
def declared? (src : Source) (t : Tree) : Option Ty := (t.child? .type).bind (ofTree? src)

end Ty

/-- The parameters of a parameter list. One without a name is called
`param`. -/
def Parameter.ofList (src : Source) (list : Tree) : List Parameter :=
  (list.namedOfKind .parameter).map fun p =>
    ⟨((p.child? .name).map src.text).getD "param", Ty.declared? src p⟩

end QueryLint
