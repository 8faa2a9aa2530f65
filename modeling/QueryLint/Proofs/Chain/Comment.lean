/-
Comments in expressions. Parentheses, arguments, calls through a dot and
the parameters of lambdas are read through parts that count and through
fields, so every one of these readings goes with `strip`, at any node.
Whether a call is the last of its chain is told from the nodes around
it; that goes with `strip` at every node that is not itself taken out.
-/
import QueryLint.Proofs.Chain.Partition
import QueryLint.Proofs.Declaration.Comment

namespace QueryLint

@[simp]
theorem Source.simpleName_strip (src : Source) (t : Tree) :
    src.simpleName t.strip = src.simpleName t := by
  have hfind : t.strip.children.find? (·.kind == .identifier)
      = (t.children.find? (·.kind == .identifier)).map Tree.strip := by
    rw [Tree.children_strip]
    exact Tree.find?_stripAll (Label.skips_kind (by decide)) t.children
  unfold simpleName
  rw [Tree.kind_strip, hfind]
  cases t.children.find? (·.kind == .identifier) with
  | none => simp
  | some u => simp

namespace Cursor

-- ============================================================= parentheses

theorem unwrap_strip (c : Cursor) : c.strip.unwrap = c.unwrap.strip := by
  fun_induction unwrap c with
  | case1 c hkind inner hinner ih =>
    rw [← ih]
    apply unwrap_of_head?
    · rw [kind_strip, hkind]
    · rw [namedChildren_strip, List.head?_map, hinner]
      rfl
  | case2 c hkind hnone =>
    rw [unwrap]
    split
    · split
      · next inner hinner =>
        rw [namedChildren_strip, List.head?_map, hnone] at hinner
        cases hinner
      · rfl
    · rfl
  | case3 c hkind =>
    apply unwrap_of_kind_ne
    rw [kind_strip]
    exact hkind

theorem not_isRemark_unwrap {c : Cursor} (h : c.isRemark = false) :
    c.unwrap.isRemark = false := by
  fun_induction unwrap c with
  | case1 c hkind inner hinner ih =>
    exact ih (not_isRemark_of_mem_namedChildren (List.mem_of_head? hinner))
  | case2 => exact h
  | case3 => exact h

theorem outermost_strip {t : Tree} {path : List Frame} (h : isRemark ⟨t, path⟩ = false) :
    outermost t.strip (path.map Frame.strip) = (outermost t path).strip := by
  induction path generalizing t with
  | nil => rfl
  | cons f up ih =>
    have ht : t.isRemark = false := h
    rw [List.map_cons, outermost, outermost]
    show (if f.label.kind = .parenthesized then _ else _) = _
    split
    · rw [f.plug_strip ht]
      exact ih (not_isRemark_of_focus (f.not_isRemark_plug ht))
    · rfl

theorem outside_strip {c : Cursor} (h : c.isRemark = false) :
    c.strip.outside = c.outside.strip :=
  outermost_strip h

theorem isTail_strip {c : Cursor} (h : c.isRemark = false) : c.strip.isTail = c.isTail := by
  unfold isTail
  rw [outside_strip h]
  simp only [fills_strip]
  obtain ⟨t, path⟩ := c.outside
  match path with
  | [] => rfl
  | [_] => rfl
  | _ :: _ :: _ => rfl

-- =================================================================== calls

theorem argumentValue?_strip (c : Cursor) :
    c.strip.argumentValue? = c.argumentValue?.map strip := by
  unfold argumentValue?
  simp [List.filter_map, Function.comp_def]

theorem arguments_strip (c : Cursor) : c.strip.arguments = c.arguments.map strip := by
  unfold arguments
  rw [child?_strip]
  cases c.child? .arguments with
  | none => rfl
  | some list =>
    show (list.strip.namedOfKind _).filterMap _ = _
    rw [namedOfKind_strip, List.filterMap_map, List.map_filterMap]
    refine List.filterMap_congr fun d _ => ?_
    exact argumentValue?_strip d

theorem memberCall?_strip (c : Cursor) :
    c.strip.memberCall? = c.memberCall?.map fun parts => (parts.1.strip, parts.2.strip) := by
  unfold memberCall?
  rw [kind_strip, child?_strip]
  split
  · cases c.child? .function with
    | none => rfl
    | some access =>
      simp only [Option.map_some, kind_strip, child?_strip]
      split
      · cases access.child? .expression with
        | none => rfl
        | some receiver =>
          cases access.child? .name with
          | none => rfl
          | some name => rfl
      · rfl
  · rfl

theorem not_isRemark_of_memberCall? {c receiver name : Cursor}
    (h : c.memberCall? = some (receiver, name)) :
    c.isRemark = false ∧ receiver.isRemark = false := by
  obtain ⟨hkind, access, -, -, hreceiver, -⟩ := memberCall?_eq_some_iff.1 h
  refine ⟨?_, not_isRemark_of_child? hreceiver⟩
  exact not_isRemark_of_skips (Label.skips_kind (by decide)) (beq_iff_eq.2 hkind)

theorem lambdaParameters?_strip (c : Cursor) :
    c.strip.lambdaParameters? = c.lambdaParameters?.map (List.map strip) := by
  unfold lambdaParameters?
  rw [kind_strip, child?_strip]
  split
  · cases c.child? .parameters with
    | none => rfl
    | some list =>
      simp only [Option.map_some, kind_strip, namedOfKind_strip]
      split
      · rfl
      · rfl
  · rfl

theorem lambdaArity?_strip (c : Cursor) : c.strip.lambdaArity? = c.lambdaArity? := by
  unfold lambdaArity?
  rw [arguments_strip]
  cases c.arguments with
  | nil => rfl
  | cons first rest =>
    simp only [List.map_cons, kind_strip, lambdaParameters?_strip, Option.map_map,
      Function.comp_def, List.length_map]

end Cursor

-- ================================================================== chains

def Call.strip (call : Call) : Call := ⟨call.site.strip, call.name.strip⟩

def Chain.strip (chain : Chain) : Chain := ⟨chain.source.strip, chain.calls.map Call.strip⟩

theorem Cursor.chain_strip (c : Cursor) : c.strip.chain = c.chain.strip := by
  induction c using walk_induction with
  | source c hnone =>
    have hnone' : c.strip.memberCall? = none := by rw [memberCall?_strip, hnone]; rfl
    rw [chain_of_memberCall?_eq_none hnone, chain_of_memberCall?_eq_none hnone']
    rfl
  | call c receiver name hcall ih =>
    have hcall' : c.strip.memberCall? = some (receiver.strip, name.strip) := by
      rw [memberCall?_strip, hcall]
      rfl
    rw [chain_of_memberCall? hcall, chain_of_memberCall? hcall', unwrap_strip, ih]
    unfold Chain.strip
    rw [List.map_append]
    rfl

theorem Cursor.not_isRemark_source {c : Cursor} (h : c.isRemark = false) :
    c.chain.source.isRemark = false := by
  induction c using walk_induction with
  | source c hnone =>
    rw [chain_of_memberCall?_eq_none hnone]
    exact h
  | call c receiver name hcall ih =>
    rw [chain_of_memberCall? hcall]
    exact ih (not_isRemark_unwrap (not_isRemark_of_memberCall? hcall).2)

theorem Cursor.not_isRemark_of_mem_calls {c : Cursor} {call : Call} (h : call ∈ c.chain.calls) :
    call.site.isRemark = false := by
  have hsite : call.site ∈ c.chain.sites := List.mem_map_of_mem h
  obtain ⟨⟨receiver, name⟩, hcall⟩ := Option.isSome_iff_exists.1 (mem_sites_iff.1 hsite).2
  exact (not_isRemark_of_memberCall? hcall).1

theorem Cursor.endsChain_strip {c : Cursor} (h : c.isRemark = false) :
    c.strip.endsChain = c.endsChain := by
  unfold endsChain
  rw [memberCall?_strip, Option.isSome_map, isTail_strip h]

end QueryLint
