/-
Chains partition the calls made through a dot. A chain is walked down
from its tail, receiver by receiver (`chain`), while the tail is told by
looking up (`isTail`): the two are written independently, and this file
shows them inverse to each other.

# One relation, two readings

`CallsOn call c` says that `call` is made on `c`, parentheses apart. Read
downward it is a function, the next link of the walk. Read upward it is
one as well (`eq_of_callsOn`): the outermost parentheses around `c` are
the receiver, the access is its parent, the call the parent of that. No
node that is called on is a tail, whatever the tree
(`isTail_eq_false_of_callsOn`), so two tails whose walks meet are the
same.

The converse, that a call which is no tail is called on, needs the tree
to be what the grammar gives (`Tree.Grammatical`): parentheses with one
thing inside, and accesses under a call in their place. Then climbing
from a call ends at a tail, and each call has one (`perm_sites`).
-/
import Mathlib.Logic.Relation
import QueryLint.Chain
import QueryLint.Proofs.Tree.WellFormed

namespace QueryLint

open Relation (ReflTransGen)

namespace Cursor

-- ========================================================== calls, unpacked

/-- A call through a dot, part by part. -/
theorem memberCall?_eq_some_iff {c receiver name : Cursor} :
    c.memberCall? = some (receiver, name) ↔
      c.kind = .invocation ∧ ∃ access, c.child? .function = some access
        ∧ access.kind = .memberAccess ∧ access.child? .expression = some receiver
        ∧ access.child? .name = some name := by
  unfold memberCall?
  constructor
  · intro h
    split at h
    case isFalse => cases h
    case isTrue hkind =>
      split at h
      case h_1 => cases h
      case h_2 access haccess =>
        split at h
        case isFalse => cases h
        case isTrue hmember =>
          split at h
          case h_1 r n hr hn =>
            cases h
            exact ⟨hkind, access, haccess, hmember, hr, hn⟩
          case h_2 => cases h
  · intro h
    obtain ⟨hkind, access, haccess, hmember, hr, hn⟩ := h
    simp only [hkind, if_true, haccess, hmember, hr, hn]

theorem kind_of_memberCall? {c : Cursor} (h : c.memberCall?.isSome = true) :
    c.kind = .invocation := by
  obtain ⟨⟨receiver, name⟩, hcall⟩ := Option.isSome_iff_exists.1 h
  exact (memberCall?_eq_some_iff.1 hcall).1

/-- `call` is a call through a dot on `c`, parentheses apart. -/
def CallsOn (call c : Cursor) : Prop :=
  ∃ receiver name, call.memberCall? = some (receiver, name) ∧ receiver.unwrap = c

theorem memberCall?_of_callsOn {call c : Cursor} (h : CallsOn call c) :
    call.memberCall?.isSome = true := by
  obtain ⟨receiver, name, hcall, -⟩ := h
  rw [hcall]
  rfl

-- ================================================================= unwrapping

theorem unwrap_of_kind_ne {c : Cursor} (h : c.kind ≠ .parenthesized) : c.unwrap = c := by
  rw [unwrap, if_neg h]

theorem unwrap_of_head? {c inner : Cursor} (hkind : c.kind = .parenthesized)
    (hinner : c.namedChildren.head? = some inner) : c.unwrap = inner.unwrap := by
  rw [unwrap, if_pos hkind]
  split
  case h_1 d hd =>
    rw [hinner] at hd
    rw [Option.some.inj hd]
  case h_2 hnone =>
    rw [hinner] at hnone
    cases hnone

/-- What unwrapping passes through is inside the node, and so is what it
ends at: a property that goes from parentheses to what they hold goes
from a node to its unwrapping. -/
theorem unwrap_induction {P : Cursor → Prop}
    (hstep : ∀ c d : Cursor, c.kind = .parenthesized → d.parent? = some c → P c → P d)
    {c : Cursor} (hc : P c) : P c.unwrap := by
  fun_induction unwrap c with
  | case1 c hkind inner hinner ih =>
    exact ih (hstep c inner hkind (parent?_of_mem_namedChildren (List.mem_of_head? hinner)) hc)
  | case2 => exact hc
  | case3 => exact hc

theorem top_unwrap (c : Cursor) : c.unwrap.top = c.top :=
  unwrap_induction (P := fun d => d.top = c.top)
    (fun _ _ _ hparent h => (top_eq_of_parent? hparent).trans h) rfl

theorem length_path_le_unwrap (c : Cursor) : c.path.length ≤ c.unwrap.path.length :=
  unwrap_induction (P := fun d => c.path.length ≤ d.path.length)
    (fun _ _ _ hparent h => by have := length_path_of_parent? hparent; omega) (Nat.le_refl _)

/-- Inside the parentheses there are none left to unwrap. -/
theorem unwrap_unwrap (c : Cursor) : c.unwrap.unwrap = c.unwrap := by
  fun_induction unwrap c with
  | case1 c hkind inner hinner ih => exact ih
  | case2 c hkind hnone =>
    rw [unwrap, if_pos hkind]
    split
    case h_1 d hd =>
      rw [hnone] at hd
      cases hd
    case h_2 => rfl
  | case3 c hkind => exact unwrap_of_kind_ne hkind

-- =============================================================== wrapping up

/-- Parentheses around a node have the same outermost parentheses. -/
theorem outside_of_parenthesized {c p : Cursor} (hparent : c.parent? = some p)
    (hkind : p.kind = .parenthesized) : c.outside = p.outside := by
  obtain ⟨t, path⟩ := c
  cases path with
  | nil => simp [parent?] at hparent
  | cons f up =>
    simp only [parent?, Option.some.injEq] at hparent
    subst hparent
    have hf : f.label.kind = .parenthesized := hkind
    rw [outside, outermost, if_pos hf]
    rfl

/-- A node whose parent is something else is its own outermost. -/
theorem outside_of_not_parenthesized {c p : Cursor} (hparent : c.parent? = some p)
    (hkind : p.kind ≠ .parenthesized) : c.outside = c := by
  obtain ⟨t, path⟩ := c
  cases path with
  | nil => simp [parent?] at hparent
  | cons f up =>
    simp only [parent?, Option.some.injEq] at hparent
    subst hparent
    have hf : f.label.kind ≠ .parenthesized := hkind
    rw [outside, outermost, if_neg hf]

/-- Going down through parentheses does not change what is outermost. -/
theorem outside_unwrap (c : Cursor) : c.unwrap.outside = c.outside :=
  unwrap_induction (P := fun d => d.outside = c.outside)
    (fun _ _ hkind hparent h => (outside_of_parenthesized hparent hkind).trans h) rfl

/-- A node is no tail exactly if the outermost parentheses around it are
the object of an access under a call. -/
theorem isTail_eq_false_iff {c : Cursor} :
    c.isTail = false ↔
      ∃ access call, c.outside.parent? = some access ∧ access.kind = .memberAccess
        ∧ c.outside.fills .expression = true ∧ access.parent? = some call
        ∧ call.kind = .invocation := by
  unfold isTail
  generalize c.outside = o
  obtain ⟨t, path⟩ := o
  match path with
  | [] => simp [parent?]
  | [f] => simp [parent?]
  | f :: g :: up =>
    simp only [parent?, Bool.not_eq_false', Bool.and_eq_true, beq_iff_eq, Option.some.injEq]
    constructor
    · intro h
      obtain ⟨⟨haccess, hfills⟩, hcall⟩ := h
      exact ⟨_, _, rfl, haccess, hfills, rfl, hcall⟩
    · intro h
      obtain ⟨access, call, rfl, haccess, hfills, hparent, hcall⟩ := h
      cases hparent
      exact ⟨⟨haccess, hfills⟩, hcall⟩

-- ============================================================ called-on nodes

/-- Where the receiver of a call stands: it is the outermost of the
parentheses around what the call is made on, and the call is two levels
up. -/
theorem exists_outside_of_callsOn {call c : Cursor} (h : CallsOn call c) :
    ∃ access, c.outside.parent? = some access ∧ access.kind = .memberAccess
      ∧ c.outside.fills .expression = true ∧ access.parent? = some call
      ∧ call.kind = .invocation := by
  obtain ⟨receiver, name, hcall, rfl⟩ := h
  obtain ⟨hkind, access, haccess, hmember, hreceiver, -⟩ := memberCall?_eq_some_iff.1 hcall
  obtain ⟨hparent, hfills⟩ := child?_eq_some_iff.1 hreceiver
  have hne : access.kind ≠ .parenthesized := by
    rw [hmember]
    decide
  have hout : receiver.unwrap.outside = receiver := by
    rw [outside_unwrap, outside_of_not_parenthesized hparent hne]
  rw [hout]
  exact ⟨access, hparent, hmember, hfills, parent?_of_child? haccess, hkind⟩

/-- What a call is made on is no tail. -/
theorem isTail_eq_false_of_callsOn {call c : Cursor} (h : CallsOn call c) :
    c.isTail = false := by
  obtain ⟨access, hparent, hmember, hfills, hcall, hkind⟩ := exists_outside_of_callsOn h
  exact isTail_eq_false_iff.2 ⟨access, call, hparent, hmember, hfills, hcall, hkind⟩

/-- At most one call is made on a node. -/
theorem eq_of_callsOn {a b c : Cursor} (ha : CallsOn a c) (hb : CallsOn b c) : a = b := by
  obtain ⟨x, hx, -, -, hxa, -⟩ := exists_outside_of_callsOn ha
  obtain ⟨y, hy, -, -, hyb, -⟩ := exists_outside_of_callsOn hb
  have hxy : x = y := Option.some.inj (hx.symm.trans hy)
  subst hxy
  exact Option.some.inj (hxa.symm.trans hyb)

theorem top_eq_of_memberCall? {c receiver name : Cursor}
    (h : c.memberCall? = some (receiver, name)) : receiver.top = c.top := by
  obtain ⟨-, access, haccess, -, hreceiver, -⟩ := memberCall?_eq_some_iff.1 h
  rw [top_eq_of_parent? (parent?_of_child? hreceiver),
    top_eq_of_parent? (parent?_of_child? haccess)]

theorem top_eq_of_callsOn {call c : Cursor} (h : CallsOn call c) : call.top = c.top := by
  obtain ⟨receiver, name, hcall, rfl⟩ := h
  rw [top_unwrap, top_eq_of_memberCall? hcall]

theorem length_path_lt_of_callsOn {call c : Cursor} (h : CallsOn call c) :
    call.path.length < c.path.length := by
  obtain ⟨receiver, name, hcall, rfl⟩ := h
  obtain ⟨-, access, haccess, -, hreceiver, -⟩ := memberCall?_eq_some_iff.1 hcall
  have hr := length_path_of_parent? (parent?_of_child? hreceiver)
  have ha := length_path_of_parent? (parent?_of_child? haccess)
  have := length_path_le_unwrap receiver
  omega

theorem size_focus_lt_of_callsOn {call c : Cursor} (h : CallsOn call c) :
    c.focus.size < call.focus.size := by
  obtain ⟨receiver, name, hcall, rfl⟩ := h
  exact Nat.lt_of_le_of_lt (size_focus_unwrap_le _) (size_focus_lt_of_memberCall? hcall)

-- ===================================================================== tails

/-- Whether a node is the last call of a chain. -/
def endsChain (c : Cursor) : Bool := c.memberCall?.isSome && c.isTail

theorem not_callsOn_of_endsChain {call t : Cursor} (ht : t.endsChain = true) :
    ¬ CallsOn call t := by
  intro h
  have hfalse := isTail_eq_false_of_callsOn h
  rw [endsChain, hfalse, Bool.and_false] at ht
  cases ht

/-- Two tails from which one node is reached are the same. -/
theorem eq_of_endsChain {t₁ t₂ c : Cursor} (ht₁ : t₁.endsChain = true)
    (ht₂ : t₂.endsChain = true) (h₁ : ReflTransGen CallsOn t₁ c)
    (h₂ : ReflTransGen CallsOn t₂ c) : t₁ = t₂ := by
  -- upward the way is unique, so one tail is on the way to the other
  have hunique : Relator.RightUnique (Function.swap CallsOn) := fun _ _ _ ha hb =>
    eq_of_callsOn ha hb
  have hup := Relation.ReflTransGen.total_of_right_unique hunique
    (Relation.reflTransGen_swap.2 h₁) (Relation.reflTransGen_swap.2 h₂)
  rcases hup with hup | hup
  · rcases Relation.ReflTransGen.cases_head hup with heq | ⟨call, hcall, -⟩
    · exact heq
    · exact absurd hcall (not_callsOn_of_endsChain ht₁)
  · rcases Relation.ReflTransGen.cases_head hup with heq | ⟨call, hcall, -⟩
    · exact heq.symm
    · exact absurd hcall (not_callsOn_of_endsChain ht₂)

theorem counts_of_named {c : Cursor} (hnamed : c.label.named = true)
    (hkind : c.kind ≠ .comment) : c.label.counts = true := by
  unfold Label.counts
  rw [hnamed, Bool.true_and]
  exact bne_iff_ne.2 hkind

/-- In a tree of the grammar, what parentheses are around is found again
by unwrapping them. -/
theorem unwrap_outside {c : Cursor} (hg : c.top.Grammatical) (hcounts : c.label.counts = true) :
    c.outside.unwrap = c.unwrap := by
  obtain ⟨t, path⟩ := c
  induction path generalizing t with
  | nil => rfl
  | cons f up ih =>
    have hparent : parent? ⟨t, f :: up⟩ = some ⟨f.plug t, up⟩ := rfl
    have htop := top_eq_of_parent? hparent
    have hmem := Tree.mem_documentOrder_iff.2 htop.symm
    by_cases hkind : kind ⟨f.plug t, up⟩ = .parenthesized
    · have hne : kind ⟨f.plug t, up⟩ ≠ .comment := by
        rw [hkind]
        decide
      have hpcounts := counts_of_named (hg.parenthesized_named _ hmem hkind) hne
      have hchild : (⟨t, f :: up⟩ : Cursor) ∈ namedChildren ⟨f.plug t, up⟩ :=
        List.mem_filter.2 ⟨mem_children_iff.2 hparent, hcounts⟩
      -- the parentheses hold one thing, and that is the node
      have hsingle : (namedChildren ⟨f.plug t, up⟩).head? = some ⟨t, f :: up⟩ := by
        have hle := hg.parenthesized_single _ hmem hkind
        match hlist : namedChildren ⟨f.plug t, up⟩, hle, hchild with
        | [d], _, hd => rw [List.mem_singleton.1 hd]; rfl
      rw [outside_of_parenthesized hparent hkind, ih _ (htop ▸ hg) hpcounts,
        unwrap_of_head? hkind hsingle]
    · rw [outside_of_not_parenthesized hparent hkind]

/-- In a tree of the grammar, a call that is no tail is called on. -/
theorem exists_callsOn {c : Cursor} (hg : c.top.Grammatical) (hkind : c.kind = .invocation)
    (htail : c.isTail = false) : ∃ call, CallsOn call c := by
  obtain ⟨access, call, hparent, hmember, hfills, hcall, hinvocation⟩ :=
    isTail_eq_false_iff.1 htail
  have hunwrap : c.outside.unwrap = c := by
    have hcomment : c.kind ≠ .comment := by
      rw [hkind]
      decide
    have hparentheses : c.kind ≠ .parenthesized := by
      rw [hkind]
      decide
    have hcounts :=
      counts_of_named (hg.invocation_named c c.mem_documentOrder_top hkind) hcomment
    rw [unwrap_outside hg hcounts, unwrap_of_kind_ne hparentheses]
  have htop : call.top = c.top := by
    rw [← top_eq_of_parent? hcall, ← top_eq_of_parent? hparent, ← top_unwrap, hunwrap]
  obtain ⟨hfunction, -, hname⟩ := hg.access_called call (Tree.mem_documentOrder_iff.2 htop)
    hinvocation access (mem_children_iff.2 hcall) hmember
  obtain ⟨name, hname⟩ := Option.isSome_iff_exists.1 hname
  refine ⟨call, c.outside, name, memberCall?_eq_some_iff.2 ⟨hinvocation, access, ?_, hmember,
    ?_, hname⟩, hunwrap⟩
  · exact child?_eq_some_iff.2 ⟨hcall, hfunction⟩
  · exact child?_eq_some_iff.2 ⟨hparent, hfills⟩

/-- In a tree of the grammar, every call is reached from a tail. -/
theorem exists_endsChain {c : Cursor} (hg : c.top.Grammatical)
    (hc : c.memberCall?.isSome = true) :
    ∃ t : Cursor, t.endsChain = true ∧ ReflTransGen CallsOn t c := by
  -- climbing from call to call shortens the path to the root
  induction hlength : c.path.length using Nat.strongRecOn generalizing c with
  | ind n ih =>
    cases htail : c.isTail with
    | true =>
      refine ⟨c, ?_, .refl⟩
      rw [endsChain, hc, htail]
      rfl
    | false =>
      obtain ⟨call, hcall⟩ := exists_callsOn hg (kind_of_memberCall? hc) htail
      have hlt := length_path_lt_of_callsOn hcall
      obtain ⟨t, ht, hreach⟩ := ih call.path.length (by omega)
        (by rw [top_eq_of_callsOn hcall]; exact hg) (memberCall?_of_callsOn hcall) rfl
      exact ⟨t, ht, hreach.tail hcall⟩

end Cursor

-- ==================================================================== the walk

/-- The calls of a chain, as nodes. -/
def Chain.sites (chain : Chain) : List Cursor := chain.calls.map Call.site

namespace Cursor

theorem chain_of_memberCall?_eq_none {c : Cursor} (h : c.memberCall? = none) :
    c.chain = ⟨c, []⟩ := by
  rw [chain]
  split
  case h_1 => rfl
  case h_2 r n hcall =>
    rw [h] at hcall
    cases hcall

theorem chain_of_memberCall? {c receiver name : Cursor}
    (h : c.memberCall? = some (receiver, name)) :
    c.chain = ⟨receiver.unwrap.chain.source, receiver.unwrap.chain.calls ++ [⟨c, name⟩]⟩ := by
  rw [chain]
  split
  case h_1 hnone =>
    rw [h] at hnone
    cases hnone
  case h_2 r n hcall =>
    rw [h] at hcall
    cases hcall
    rfl

theorem sites_of_memberCall? {c receiver name : Cursor}
    (h : c.memberCall? = some (receiver, name)) :
    c.chain.sites = receiver.unwrap.chain.sites ++ [c] := by
  unfold Chain.sites
  rw [chain_of_memberCall? h, List.map_append]
  rfl

/-- Induction along the walk: what holds of sources, and of a call if it
holds of what the call is made on, holds of every node. -/
@[elab_as_elim]
theorem walk_induction {P : Cursor → Prop} (source : ∀ c, c.memberCall? = none → P c)
    (call : ∀ c receiver name, c.memberCall? = some (receiver, name) → P receiver.unwrap → P c)
    (c : Cursor) : P c := by
  -- the walk never stays at a node, since receivers are smaller than calls
  induction hsize : c.focus.size using Nat.strongRecOn generalizing c with
  | ind n ih =>
    cases hcall : c.memberCall? with
    | none => exact source c hcall
    | some parts =>
      obtain ⟨receiver, name⟩ := parts
      have hlt : receiver.unwrap.focus.size < c.focus.size :=
        size_focus_lt_of_callsOn ⟨receiver, name, hcall, rfl⟩
      exact call c receiver name hcall (ih _ (hsize ▸ hlt) receiver.unwrap rfl)

/-- The walk down from a node comes by the calls that are reached from
it, and by nothing else. -/
theorem mem_sites_iff {c d : Cursor} :
    d ∈ c.chain.sites ↔ ReflTransGen CallsOn c d ∧ d.memberCall?.isSome = true := by
  induction c using walk_induction with
  | source c hnone =>
    rw [chain_of_memberCall?_eq_none hnone]
    constructor
    · intro h
      cases h
    · intro h
      rcases Relation.ReflTransGen.cases_head h.1 with heq | ⟨e, he, -⟩
      · rw [← heq, hnone] at h
        cases h.2
      · have := memberCall?_of_callsOn he
        rw [hnone] at this
        cases this
  | call c receiver name hcall ih =>
    have hon : CallsOn c receiver.unwrap := ⟨receiver, name, hcall, rfl⟩
    rw [sites_of_memberCall? hcall, List.mem_append, List.mem_singleton, ih]
    constructor
    · intro h
      rcases h with ⟨hreach, hd⟩ | heq
      · exact ⟨.head hon hreach, hd⟩
      · rw [heq]
        exact ⟨.refl, memberCall?_of_callsOn hon⟩
    · intro h
      rcases Relation.ReflTransGen.cases_head h.1 with heq | ⟨e, he, hrest⟩
      · exact .inr heq.symm
      · obtain ⟨r, n, hcall', rfl⟩ := he
        rw [hcall] at hcall'
        cases hcall'
        exact .inl ⟨hrest, h.2⟩

/-- What a walk comes by is in the same tree. -/
theorem top_eq_of_reaches {c d : Cursor} (h : ReflTransGen CallsOn c d) : c.top = d.top := by
  induction h with
  | refl => rfl
  | tail _ hcall ih => exact ih.trans (top_eq_of_callsOn hcall)

theorem size_focus_le_of_reaches {c d : Cursor} (h : ReflTransGen CallsOn c d) :
    d.focus.size ≤ c.focus.size := by
  induction h with
  | refl => exact Nat.le_refl _
  | tail _ hcall ih => exact Nat.le_trans (Nat.le_of_lt (size_focus_lt_of_callsOn hcall)) ih

/-- A walk comes by no call twice. -/
theorem nodup_sites (c : Cursor) : c.chain.sites.Nodup := by
  induction c using walk_induction with
  | source c hnone =>
    rw [chain_of_memberCall?_eq_none hnone]
    exact List.nodup_nil
  | call c receiver name hcall ih =>
    have hlt : receiver.unwrap.focus.size < c.focus.size :=
      size_focus_lt_of_callsOn ⟨receiver, name, hcall, rfl⟩
    have hnew : c ∉ receiver.unwrap.chain.sites := by
      intro h
      have := size_focus_le_of_reaches (mem_sites_iff.1 h).1
      omega
    rw [sites_of_memberCall? hcall]
    refine List.nodup_append.2 ⟨ih, List.nodup_singleton c, ?_⟩
    intro a ha b hb heq
    rw [heq, List.mem_singleton.1 hb] at ha
    exact hnew ha

/-- The source of a chain is where the walk ends. -/
theorem reaches_source (c : Cursor) :
    ReflTransGen CallsOn c c.chain.source ∧ c.chain.source.memberCall? = none := by
  induction c using walk_induction with
  | source c hnone =>
    rw [chain_of_memberCall?_eq_none hnone]
    exact ⟨.refl, hnone⟩
  | call c receiver name hcall ih =>
    rw [chain_of_memberCall? hcall]
    exact ⟨.head ⟨receiver, name, hcall, rfl⟩ ih.1, ih.2⟩

theorem eq_source_of_reaches {c d : Cursor} (h : ReflTransGen CallsOn c d)
    (hd : d.memberCall? = none) : d = c.chain.source := by
  obtain ⟨hsource, hnone⟩ := c.reaches_source
  -- downward the way is unique, and neither end goes on
  have hunique : Relator.RightUnique CallsOn := fun _ _ _ ha hb => by
    obtain ⟨r, n, hcall, rfl⟩ := ha
    obtain ⟨r', n', hcall', rfl⟩ := hb
    rw [hcall] at hcall'
    cases hcall'
    rfl
  have hstop : ∀ {a b : Cursor}, a.memberCall? = none → ReflTransGen CallsOn a b → a = b := by
    intro a b ha hab
    rcases Relation.ReflTransGen.cases_head hab with heq | ⟨e, he, -⟩
    · exact heq
    · have := memberCall?_of_callsOn he
      rw [ha] at this
      cases this
  rcases Relation.ReflTransGen.total_of_right_unique hunique h hsource with hds | hsd
  · exact hstop hd hds
  · exact (hstop hnone hsd).symm

theorem top_source (c : Cursor) : c.chain.source.top = c.top :=
  (top_eq_of_reaches c.reaches_source.1).symm

theorem top_of_mem_sites {c d : Cursor} (h : d ∈ c.chain.sites) : d.top = c.top :=
  (top_eq_of_reaches (mem_sites_iff.1 h).1).symm

/-- The chain of a call is what the chain that it is in comes by up to
there: the same source, and the calls before it. -/
theorem chain_of_split {c : Cursor} {before after : List Call} {call : Call}
    (h : c.chain.calls = before ++ call :: after) :
    ∃ receiver, call.site.memberCall? = some (receiver, call.name)
      ∧ receiver.unwrap.chain = ⟨c.chain.source, before⟩ := by
  induction c using walk_induction generalizing after with
  | source c hnone =>
    rw [chain_of_memberCall?_eq_none hnone] at h
    simp at h
  | call c receiver name hcall ih =>
    rw [chain_of_memberCall? hcall] at h ⊢
    -- the call is the last of the chain, or one of those before it
    rcases List.eq_nil_or_concat after with rfl | ⟨after, last, rfl⟩
    · obtain ⟨hbefore, hlast⟩ := List.append_inj' h rfl
      cases hlast
      exact ⟨receiver, hcall, by rw [← hbefore]⟩
    · rw [List.concat_eq_append, ← List.cons_append, ← List.append_assoc] at h
      obtain ⟨hinner, -⟩ := List.append_inj' h rfl
      exact ih hinner

end Cursor

-- =============================================================== the partition

/-- The tails of a tree, in document order. -/
def Tree.tails (t : Tree) : List Cursor := t.documentOrder.filter Cursor.endsChain

/-- The calls of a tree that are made through a dot, in document order. -/
def Tree.memberCalls (t : Tree) : List Cursor :=
  t.documentOrder.filter (·.memberCall?.isSome)

namespace Tree

theorem flatMap_tails {α : Type} (t : Tree) (f : Cursor → List α) :
    t.tails.flatMap f = t.documentOrder.flatMap fun c => if c.endsChain then f c else [] := by
  unfold tails
  induction t.documentOrder with
  | nil => rfl
  | cons c cs ih =>
    rw [List.filter_cons, List.flatMap_cons, ← ih]
    split
    · rfl
    · rfl

/-- Whatever the tree, the walks from its tails come by no call twice. -/
theorem nodup_flatMap_sites (t : Tree) : (t.tails.flatMap (·.chain.sites)).Nodup := by
  refine List.nodup_flatMap.2 ⟨fun c _ => c.nodup_sites, ?_⟩
  refine ((t.nodup_documentOrder.filter _).imp_of_mem ?_)
  intro a b ha hb hne
  have ha' := (List.mem_filter.1 ha).2
  have hb' := (List.mem_filter.1 hb).2
  intro c hca hcb
  exact hne (Cursor.eq_of_endsChain ha' hb' (Cursor.mem_sites_iff.1 hca).1
    (Cursor.mem_sites_iff.1 hcb).1)

/-- In a tree of the grammar, the walks from the tails come by every call
once. -/
theorem perm_sites {t : Tree} (hg : t.Grammatical) :
    (t.tails.flatMap (·.chain.sites)).Perm t.memberCalls := by
  refine (List.perm_ext_iff_of_nodup t.nodup_flatMap_sites
    (t.nodup_documentOrder.filter _)).2 fun c => ?_
  rw [List.mem_flatMap, List.mem_filter, mem_documentOrder_iff]
  constructor
  · intro h
    obtain ⟨a, ha, hc⟩ := h
    obtain ⟨hreach, hcall⟩ := Cursor.mem_sites_iff.1 hc
    have htop := mem_documentOrder_iff.1 (List.mem_filter.1 ha).1
    exact ⟨(Cursor.top_eq_of_reaches hreach).symm.trans htop, hcall⟩
  · intro h
    obtain ⟨rfl, hcall⟩ := h
    obtain ⟨a, ha, hreach⟩ := Cursor.exists_endsChain hg hcall
    have htop := mem_documentOrder_iff.2 (Cursor.top_eq_of_reaches hreach)
    exact ⟨a, List.mem_filter.2 ⟨htop, ha⟩, Cursor.mem_sites_iff.2 ⟨hreach, hcall⟩⟩

end Tree

/-- Chains partition the calls made through a dot. In any tree, a call is
on the walk from at most one tail, and what a call is made on is never a
tail itself; in a tree of the grammar, every call is on the walk from
exactly one. -/
theorem chains_partition_calls :
    (∀ c t₁ t₂ : Cursor, t₁.endsChain = true → t₂.endsChain = true →
        c ∈ t₁.chain.sites → c ∈ t₂.chain.sites → t₁ = t₂)
      ∧ (∀ call receiver name : Cursor, call.memberCall? = some (receiver, name) →
        receiver.unwrap.isTail = false)
      ∧ (∀ t : Tree, t.Grammatical → ∀ c ∈ t.documentOrder, c.memberCall?.isSome = true →
        ∃! a, a ∈ t.documentOrder ∧ a.endsChain = true ∧ c ∈ a.chain.sites) := by
  have hunique : ∀ c t₁ t₂ : Cursor, t₁.endsChain = true → t₂.endsChain = true →
      c ∈ t₁.chain.sites → c ∈ t₂.chain.sites → t₁ = t₂ := by
    intro c t₁ t₂ ht₁ ht₂ h₁ h₂
    exact Cursor.eq_of_endsChain ht₁ ht₂ (Cursor.mem_sites_iff.1 h₁).1
      (Cursor.mem_sites_iff.1 h₂).1
  refine ⟨hunique, ?_, ?_⟩
  · intro call receiver name hcall
    exact Cursor.isTail_eq_false_of_callsOn ⟨receiver, name, hcall, rfl⟩
  · intro t hg c hc hcall
    have hmem : c ∈ t.tails.flatMap (·.chain.sites) :=
      (Tree.perm_sites hg).mem_iff.2 (List.mem_filter.2 ⟨hc, hcall⟩)
    obtain ⟨a, ha, hca⟩ := List.mem_flatMap.1 hmem
    obtain ⟨hnode, hends⟩ := List.mem_filter.1 ha
    refine ⟨a, ⟨hnode, hends, hca⟩, ?_⟩
    intro b hb
    exact hunique c b a hb.2.1 hends hb.2.2 hca

/-- Both calls of the sample are on the walk from its one tail. -/
theorem sample_calls_on_one_walk :
    Document.sample.tree.Grammatical ∧ Document.sample.tree.memberCalls.length = 2
      ∧ Document.sample.tree.tails.length = 1
      ∧ ∀ c ∈ Document.sample.tree.memberCalls,
          ∃! a, a ∈ Document.sample.tree.documentOrder ∧ a.endsChain = true
            ∧ c ∈ a.chain.sites := by
  have hg : Document.sample.tree.Grammatical := by decide +kernel
  refine ⟨hg, by decide +kernel, by decide +kernel, ?_⟩
  intro c hc
  obtain ⟨hnode, hcall⟩ := List.mem_filter.1 hc
  exact chains_partition_calls.2.2 _ hg c hnode hcall

end QueryLint
