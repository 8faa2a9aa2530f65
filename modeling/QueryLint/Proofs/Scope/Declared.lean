/-
What the scopes of a name declare. A scope below the type around a use
may declare its name in six ways: as a parameter in the list of a lambda
or as its single name, as a parameter of a method or the like, as a local
of a block, as the variable of a `foreach`, or as one in the head of a
`for`, `using` or `fixed`. `Declares` tells them by the syntax alone; no
index comes into it.

The declarations of a name in one scope are listed in the order of the
source (`declarations`, `pairwise_declarations`), and what the scope binds
the name to is what the first of them says (`binding?_eq_said`): the type
that is written, and if there is none, what a variable is made from.
-/
import QueryLint.Proofs.Tree.Position
import QueryLint.Scope

namespace QueryLint

-- =========================================================== declarations

/-- The scopes that declare parameters. -/
def Kind.declaresParameters (k : Kind) : Bool := k == .lambda || k.declaresCallable

/-- The type that is written in a node, if there is a node. -/
def Source.written? (src : Source) (type : Option Cursor) : Option Ty :=
  type.bind fun t => Ty.ofTree? src t.focus

/-- A parameter of a list that has the name of a use. -/
structure ParameterIn (src : Source) (use : Use) (list p : Cursor) : Prop where
  mem : p ∈ list.namedOfKind .parameter
  named : ∃ name, p.child? .name = some name ∧ src.text name.focus = use.name

/-- A declarator of a declaration directly in a statement that has the
name of a use which is not inside it. -/
structure VariableIn (src : Source) (use : Use) (statement declaration declarator : Cursor) :
    Prop where
  declaration_mem : declaration ∈ statement.namedOfKind .variableDeclaration
  declarator_mem : declarator ∈ declaration.namedOfKind .variableDeclarator
  outside : declarator.covers use.offset = false
  named : ∃ name, declarator.declarator.name = some name ∧ src.text name.focus = use.name

/-- The ways in which a scope declares the name of a use, each with the
node that does so and with the node of its type, if there is one. -/
inductive Declares (src : Source) (use : Use) (scope : Cursor) :
    (node : Cursor) → (type : Option Cursor) → Prop
  /-- A parameter in the list of a lambda. -/
  | listed {list p : Cursor} (hscope : scope.kind = .lambda)
      (hlist : scope.child? .parameters = some list) (hkind : list.kind = .parameterList)
      (hp : ParameterIn src use list p) : Declares src use scope p (p.child? .type)
  /-- The single name in front of the arrow of a lambda. -/
  | single {name : Cursor} (hscope : scope.kind = .lambda)
      (hname : scope.child? .parameters = some name) (hkind : name.kind ≠ .parameterList)
      (htext : src.text name.focus = use.name) : Declares src use scope name none
  /-- A parameter of a method, constructor, local function, operator or
  conversion. -/
  | parameter {list p : Cursor} (hscope : scope.kind.declaresCallable = true)
      (hlist : scope.child? .parameters = some list)
      (hp : ParameterIn src use list p) : Declares src use scope p (p.child? .type)
  /-- A local of a block. All statements up to its own begin before the
  use. -/
  | inBlock {statement declaration d : Cursor} (hscope : scope.kind = .block)
      (hstatement : statement ∈ scope.namedChildren) (hkind : statement.kind = .localDeclaration)
      (hbefore : ∀ s ∈ scope.namedChildren, s.index ≤ statement.index → s.start < use.offset)
      (hd : VariableIn src use statement declaration d) :
      Declares src use scope d (declaration.child? .type)
  /-- The variable of a `foreach`, outside the collection that it runs
  through. -/
  | inForEach {item : Cursor} (hscope : scope.kind = .forEachStatement)
      (hitem : scope.child? .left = some item) (htext : src.text item.focus = use.name)
      (houtside : ∀ collection, scope.child? .right = some collection →
        collection.covers use.offset = false) :
      Declares src use scope item (scope.child? .type)
  /-- A variable in the head of a `for`, `using` or `fixed`. -/
  | inHead {declaration d : Cursor} (hscope : scope.kind.declaresInHead = true)
      (hd : VariableIn src use scope declaration d) :
      Declares src use scope d (declaration.child? .type)

/-- The declaration of a type declares no locals. -/
theorem Declares.not_declaresType {src : Source} {use : Use} {scope node : Cursor}
    {type : Option Cursor} (h : Declares src use scope node type) :
    scope.kind.declaresType = false := by
  cases h with
  | listed hscope => rw [hscope]; rfl
  | single hscope => rw [hscope]; rfl
  | parameter hscope =>
    revert hscope
    cases scope.kind <;> simp [Kind.declaresCallable, Kind.declaresType]
  | inBlock hscope => rw [hscope]; rfl
  | inForEach hscope => rw [hscope]; rfl
  | inHead hscope =>
    revert hscope
    cases scope.kind <;> simp [Kind.declaresInHead, Kind.declaresType]

-- ============================================================== the listing

/-- In a list that goes by index, what is taken is what has nothing that
fails up to it. -/
theorem mem_takeWhile_iff_of_pairwise {xs : List Cursor} (h : xs.Pairwise (·.index < ·.index))
    {p : Cursor → Bool} {x : Cursor} :
    x ∈ xs.takeWhile p ↔ x ∈ xs ∧ ∀ y ∈ xs, y.index ≤ x.index → p y = true := by
  induction xs with
  | nil => simp
  | cons y ys ih =>
    obtain ⟨hy, hys⟩ := List.pairwise_cons.1 h
    rw [List.takeWhile_cons]
    split
    · next hp =>
      rw [List.mem_cons, List.mem_cons, ih hys]
      constructor
      · intro hx
        rcases hx with rfl | ⟨hx, hall⟩
        · refine ⟨.inl rfl, ?_⟩
          intro z hz hle
          rcases List.mem_cons.1 hz with rfl | hz
          · exact hp
          · have := hy z hz
            omega
        · refine ⟨.inr hx, ?_⟩
          intro z hz hle
          rcases List.mem_cons.1 hz with rfl | hz
          · exact hp
          · exact hall z hz hle
      · intro hx
        obtain ⟨rfl | hx, hall⟩ := hx
        · exact .inl rfl
        · exact .inr ⟨hx, fun z hz => hall z (List.mem_cons_of_mem y hz)⟩
    · next hp =>
      constructor
      · intro hx
        cases hx
      · intro hx
        obtain ⟨hx, hall⟩ := hx
        refine absurd (hall y List.mem_cons_self ?_) hp
        rcases List.mem_cons.1 hx with rfl | hx
        · exact Nat.le_refl _
        · exact Nat.le_of_lt (hy x hx)

namespace Model

variable (m : Model)

/-- The parameters of a list that have the name of a use, each with the
node of its type. -/
def parametersIn (list : Cursor) (use : Use) : List (Cursor × Option Cursor) :=
  ((list.namedOfKind .parameter).filter (m.isNamed · use.name)).map fun p => (p, p.child? .type)

/-- The declarators directly in a statement that declare the name of a
use. -/
def variablesIn (statement : Cursor) (use : Use) : List (Cursor × Option Cursor) :=
  (statement.namedOfKind .variableDeclaration).flatMap fun declaration =>
    ((declaration.namedOfKind .variableDeclarator).filter (m.declares · use)).map
      (·, declaration.child? .type)

def lambdaDeclarations (scope : Cursor) (use : Use) : List (Cursor × Option Cursor) :=
  match scope.child? .parameters with
  | none => []
  | some list =>
    if list.kind = .parameterList then m.parametersIn list use
    else if m.text list = use.name then [(list, none)] else []

def callableDeclarations (scope : Cursor) (use : Use) : List (Cursor × Option Cursor) :=
  match scope.child? .parameters with
  | none => []
  | some list => m.parametersIn list use

def blockDeclarations (scope : Cursor) (use : Use) : List (Cursor × Option Cursor) :=
  (scope.namedChildren.takeWhile (decide <| ·.start < use.offset)).flatMap fun statement =>
    if statement.kind = .localDeclaration then m.variablesIn statement use else []

def forEachDeclarations (scope : Cursor) (use : Use) : List (Cursor × Option Cursor) :=
  match scope.child? .left with
  | none => []
  | some item =>
    if m.text item = use.name ∧ (scope.child? .right).any (·.covers use.offset) = false then
      [(item, scope.child? .type)]
    else []

/-- The declarations of the name of a use in a scope. -/
def declarations (scope : Cursor) (use : Use) : List (Cursor × Option Cursor) :=
  if scope.kind = .lambda then m.lambdaDeclarations scope use
  else if scope.kind.declaresCallable then m.callableDeclarations scope use
  else if scope.kind = .block then m.blockDeclarations scope use
  else if scope.kind = .forEachStatement then m.forEachDeclarations scope use
  else if scope.kind.declaresInHead then m.variablesIn scope use
  else []

variable {m} {scope node : Cursor} {type : Option Cursor} {use : Use}

theorem isNamed_iff {c : Cursor} {name : String} :
    m.isNamed c name = true ↔ ∃ n, c.child? .name = some n ∧ m.text n = name := by
  unfold isNamed
  cases c.child? .name with
  | none => simp
  | some n => simp

theorem declares_iff {d : Cursor} :
    m.declares d use = true ↔
      d.covers use.offset = false ∧ ∃ n, d.declarator.name = some n ∧ m.text n = use.name := by
  unfold declares
  cases d.declarator.name with
  | none => simp
  | some n => simp

theorem mem_parametersIn_iff {list : Cursor} :
    (node, type) ∈ m.parametersIn list use ↔
      ParameterIn m.source use list node ∧ type = node.child? .type := by
  unfold parametersIn
  simp only [List.mem_map, List.mem_filter, Prod.mk.injEq, isNamed_iff]
  constructor
  · intro h
    obtain ⟨p, ⟨hp, hname⟩, rfl, rfl⟩ := h
    exact ⟨⟨hp, hname⟩, rfl⟩
  · intro h
    obtain ⟨⟨hp, hname⟩, rfl⟩ := h
    exact ⟨node, ⟨hp, hname⟩, rfl, rfl⟩

theorem mem_variablesIn_iff {statement : Cursor} :
    (node, type) ∈ m.variablesIn statement use ↔
      ∃ declaration, VariableIn m.source use statement declaration node
        ∧ type = declaration.child? .type := by
  unfold variablesIn
  simp only [List.mem_flatMap, List.mem_map, List.mem_filter, Prod.mk.injEq, declares_iff]
  constructor
  · intro h
    obtain ⟨declaration, hdeclaration, d, ⟨hd, houtside, hname⟩, rfl, rfl⟩ := h
    exact ⟨declaration, ⟨hdeclaration, hd, houtside, hname⟩, rfl⟩
  · intro h
    obtain ⟨declaration, ⟨hdeclaration, hd, houtside, hname⟩, rfl⟩ := h
    exact ⟨declaration, hdeclaration, node, ⟨hd, houtside, hname⟩, rfl, rfl⟩

theorem declares_of_mem_lambdaDeclarations (hscope : scope.kind = .lambda)
    (h : (node, type) ∈ m.lambdaDeclarations scope use) :
    Declares m.source use scope node type := by
  unfold lambdaDeclarations at h
  split at h
  · cases h
  · next list hlist =>
    split at h
    · next hkind =>
      obtain ⟨hp, rfl⟩ := mem_parametersIn_iff.1 h
      exact .listed hscope hlist hkind hp
    · next hkind =>
      split at h
      · next htext =>
        cases List.mem_singleton.1 h
        exact .single hscope hlist hkind htext
      · cases h

theorem declares_of_mem_callableDeclarations (hscope : scope.kind.declaresCallable = true)
    (h : (node, type) ∈ m.callableDeclarations scope use) :
    Declares m.source use scope node type := by
  unfold callableDeclarations at h
  split at h
  · cases h
  · next list hlist =>
    obtain ⟨hp, rfl⟩ := mem_parametersIn_iff.1 h
    exact .parameter hscope hlist hp

theorem declares_of_mem_blockDeclarations (hscope : scope.kind = .block)
    (h : (node, type) ∈ m.blockDeclarations scope use) :
    Declares m.source use scope node type := by
  obtain ⟨statement, htaken, h⟩ := List.mem_flatMap.1 h
  obtain ⟨hstatement, hbefore⟩ :=
    (mem_takeWhile_iff_of_pairwise (scope.pairwise_children.filter _)).1 htaken
  split at h
  · next hkind =>
    obtain ⟨declaration, hd, rfl⟩ := mem_variablesIn_iff.1 h
    refine .inBlock hscope hstatement hkind ?_ hd
    intro s hs hle
    simpa using hbefore s hs hle
  · cases h

theorem declares_of_mem_forEachDeclarations (hscope : scope.kind = .forEachStatement)
    (h : (node, type) ∈ m.forEachDeclarations scope use) :
    Declares m.source use scope node type := by
  unfold forEachDeclarations at h
  split at h
  · cases h
  · next item hitem =>
    split at h
    · next hdeclares =>
      cases List.mem_singleton.1 h
      refine .inForEach hscope hitem hdeclares.1 ?_
      intro collection hcollection
      simpa [hcollection] using hdeclares.2
    · cases h

/-- What is listed is declared. -/
theorem declares_of_mem_declarations
    (h : (node, type) ∈ m.declarations scope use) : Declares m.source use scope node type := by
  unfold declarations at h
  split at h
  · next hscope => exact declares_of_mem_lambdaDeclarations hscope h
  split at h
  · next hscope => exact declares_of_mem_callableDeclarations hscope h
  split at h
  · next hscope => exact declares_of_mem_blockDeclarations hscope h
  split at h
  · next hscope => exact declares_of_mem_forEachDeclarations hscope h
  split at h
  · next hscope =>
    obtain ⟨declaration, hd, rfl⟩ := mem_variablesIn_iff.1 h
    exact .inHead hscope hd
  · cases h

theorem declarations_of_lambda (h : scope.kind = .lambda) (use : Use) :
    m.declarations scope use = m.lambdaDeclarations scope use := by
  simp [declarations, h]

theorem declarations_of_callable (h : scope.kind.declaresCallable = true) (use : Use) :
    m.declarations scope use = m.callableDeclarations scope use := by
  have hlambda : scope.kind ≠ .lambda := by
    intro hkind
    rw [hkind] at h
    cases h
  simp [declarations, hlambda, h]

theorem declarations_of_block (h : scope.kind = .block) (use : Use) :
    m.declarations scope use = m.blockDeclarations scope use := by
  simp [declarations, h, Kind.declaresCallable]

theorem declarations_of_forEach (h : scope.kind = .forEachStatement) (use : Use) :
    m.declarations scope use = m.forEachDeclarations scope use := by
  simp [declarations, h, Kind.declaresCallable]

theorem declarations_of_head (h : scope.kind.declaresInHead = true) (use : Use) :
    m.declarations scope use = m.variablesIn scope use := by
  unfold declarations
  revert h
  cases scope.kind <;> simp [Kind.declaresInHead, Kind.declaresCallable]

/-- What is declared is listed. -/
theorem mem_declarations_of_declares
    (h : Declares m.source use scope node type) : (node, type) ∈ m.declarations scope use := by
  cases h with
  | listed hscope hlist hkind hp =>
    rw [declarations_of_lambda hscope, lambdaDeclarations, hlist]
    dsimp only
    rw [if_pos hkind]
    exact mem_parametersIn_iff.2 ⟨hp, rfl⟩
  | single hscope hname hkind htext =>
    rw [declarations_of_lambda hscope, lambdaDeclarations, hname]
    dsimp only
    rw [if_neg hkind, if_pos (show m.text node = use.name from htext)]
    exact List.mem_singleton_self _
  | parameter hscope hlist hp =>
    rw [declarations_of_callable hscope, callableDeclarations, hlist]
    exact mem_parametersIn_iff.2 ⟨hp, rfl⟩
  | @inBlock statement declaration _ hscope hstatement hkind hbefore hd =>
    rw [declarations_of_block hscope]
    refine List.mem_flatMap.2 ⟨statement, ?_, ?_⟩
    · refine (mem_takeWhile_iff_of_pairwise (scope.pairwise_children.filter _)).2
        ⟨hstatement, ?_⟩
      intro s hs hle
      simpa using hbefore s hs hle
    · rw [if_pos hkind]
      exact mem_variablesIn_iff.2 ⟨declaration, hd, rfl⟩
  | inForEach hscope hitem htext houtside =>
    have hcollection : (scope.child? .right).any (·.covers use.offset) = false := by
      cases hright : scope.child? .right with
      | none => rfl
      | some collection => exact houtside collection hright
    rw [declarations_of_forEach hscope, forEachDeclarations, hitem]
    dsimp only
    rw [if_pos ⟨htext, hcollection⟩]
    exact List.mem_singleton_self _
  | @inHead declaration _ hscope hd =>
    rw [declarations_of_head hscope]
    exact mem_variablesIn_iff.2 ⟨declaration, hd, rfl⟩

-- ============================================================ in their order

theorem pairwise_parametersIn (list : Cursor) (use : Use) :
    (m.parametersIn list use).Pairwise (·.1.index < ·.1.index) :=
  List.pairwise_map.2 (((list.pairwise_children.filter _).filter _).filter _)

/-- Where nodes stand one behind the other, and each list is in order and
in its node, the lists one after the other are in order. -/
theorem pairwise_flatMap_of_inside {xs : List Cursor}
    {f : Cursor → List (Cursor × Option Cursor)}
    (hxs : xs.Pairwise fun d e => d.index + d.focus.size ≤ e.index)
    (hinside : ∀ d ∈ xs, ∀ entry ∈ f d,
      d.index < entry.1.index ∧ entry.1.index + entry.1.focus.size ≤ d.index + d.focus.size)
    (hf : ∀ d ∈ xs, (f d).Pairwise (·.1.index < ·.1.index)) :
    (xs.flatMap f).Pairwise (·.1.index < ·.1.index) := by
  refine List.pairwise_flatMap.2 ⟨hf, hxs.imp_of_mem ?_⟩
  intro d e hd he hapart entry hentry entry' hentry'
  have hfront := hinside d hd entry hentry
  have hbehind := hinside e he entry' hentry'
  omega

theorem inside_of_mem_variablesIn {statement : Cursor} {entry : Cursor × Option Cursor}
    (h : entry ∈ m.variablesIn statement use) :
    statement.index < entry.1.index
      ∧ entry.1.index + entry.1.focus.size ≤ statement.index + statement.focus.size := by
  obtain ⟨node, type⟩ := entry
  obtain ⟨declaration, hd, -⟩ := mem_variablesIn_iff.1 h
  have hnode := Cursor.index_bounds_of_parent? (Cursor.parent?_of_mem_namedOfKind hd.declarator_mem)
  have hdeclaration :=
    Cursor.index_bounds_of_parent? (Cursor.parent?_of_mem_namedOfKind hd.declaration_mem)
  dsimp only
  omega

theorem pairwise_variablesIn (statement : Cursor) (use : Use) :
    (m.variablesIn statement use).Pairwise (·.1.index < ·.1.index) := by
  refine pairwise_flatMap_of_inside ((statement.pairwise_children_apart.filter _).filter _) ?_ ?_
  · intro declaration _ entry hentry
    obtain ⟨d, hd, rfl⟩ := List.mem_map.1 hentry
    have hbounds := Cursor.index_bounds_of_parent?
      (Cursor.parent?_of_mem_namedOfKind (List.mem_filter.1 hd).1)
    exact hbounds
  · intro declaration _
    exact List.pairwise_map.2 (((declaration.pairwise_children.filter _).filter _).filter _)

theorem pairwise_blockDeclarations (scope : Cursor) (use : Use) :
    (m.blockDeclarations scope use).Pairwise (·.1.index < ·.1.index) := by
  refine pairwise_flatMap_of_inside
    ((scope.pairwise_children_apart.filter _).sublist (List.takeWhile_sublist _)) ?_ ?_
  · intro statement _ entry hentry
    split at hentry
    · exact inside_of_mem_variablesIn hentry
    · cases hentry
  · intro statement _
    split
    · exact pairwise_variablesIn statement use
    · exact .nil

/-- The declarations are listed in the order of the source. -/
theorem pairwise_declarations (scope : Cursor) (use : Use) :
    (m.declarations scope use).Pairwise (·.1.index < ·.1.index) := by
  unfold declarations
  split
  · unfold lambdaDeclarations
    split
    · exact .nil
    split
    · exact pairwise_parametersIn _ use
    split
    · exact List.pairwise_singleton _ _
    · exact .nil
  split
  · unfold callableDeclarations
    split
    · exact .nil
    · exact pairwise_parametersIn _ use
  split
  · exact pairwise_blockDeclarations scope use
  split
  · unfold forEachDeclarations
    split
    · exact .nil
    split
    · exact List.pairwise_singleton _ _
    · exact .nil
  split
  · exact pairwise_variablesIn scope use
  · exact .nil

theorem declarations_eq_nil_iff :
    m.declarations scope use = [] ↔ ∀ node type, ¬ Declares m.source use scope node type := by
  rw [List.eq_nil_iff_forall_not_mem]
  constructor
  · intro h node type hdeclares
    exact h (node, type) (mem_declarations_of_declares hdeclares)
  · intro h entry hentry
    exact h entry.1 entry.2 (declares_of_mem_declarations hentry)

/-- The head of the listing is the first declaration. -/
theorem head?_declarations_eq_some_iff :
    (m.declarations scope use).head? = some (node, type) ↔
      Declares m.source use scope node type
        ∧ ∀ node' type', Declares m.source use scope node' type' → node.index ≤ node'.index := by
  have hpairwise := pairwise_declarations (m := m) scope use
  constructor
  · intro h
    obtain ⟨rest, hlist⟩ := List.head?_eq_some_iff.1 h
    rw [hlist] at hpairwise
    refine ⟨declares_of_mem_declarations (List.mem_of_head? h), ?_⟩
    intro node' type' hdeclares
    have hmem := mem_declarations_of_declares hdeclares
    rw [hlist] at hmem
    rcases List.mem_cons.1 hmem with heq | hrest
    · cases heq
      exact Nat.le_refl _
    · exact Nat.le_of_lt ((List.pairwise_cons.1 hpairwise).1 (node', type') hrest)
  · intro h
    obtain ⟨hdeclares, hfirst⟩ := h
    have hmem := mem_declarations_of_declares hdeclares
    have hdeclared : ∀ entry ∈ m.declarations scope use, node.index ≤ entry.1.index :=
      fun entry hentry => hfirst entry.1 entry.2 (declares_of_mem_declarations hentry)
    cases hlist : m.declarations scope use with
    | nil =>
      rw [hlist] at hmem
      cases hmem
    | cons first rest =>
      rw [hlist] at hmem hpairwise hdeclared
      rcases List.mem_cons.1 hmem with heq | hrest
      · rw [heq]
        rfl
      · have hlt := (List.pairwise_cons.1 hpairwise).1 (node, type) hrest
        have hle := hdeclared first List.mem_cons_self
        dsimp only at hlt
        omega

-- ============================================================ what they say

variable (m)

/-- What a declaration without a written type has its type from. A
parameter has none. -/
def unwritten (scope node : Cursor) : Binding :=
  if scope.kind.declaresParameters then .typed none
  else if scope.kind = .forEachStatement then
    match scope.child? .right with
    | some collection => .elementOf collection
    | none => .typed none
  else
    match node.declarator.value with
    | some value => .typeOf value
    | none => .typed none

/-- What a declaration in a scope says of its name. -/
def said (scope : Cursor) (entry : Cursor × Option Cursor) : Binding :=
  match m.source.written? entry.2 with
  | some t => .typed (some t)
  | none => unwritten scope entry.1

variable {m}

theorem declared?_eq_written? (c : Cursor) :
    m.declared? c = m.source.written? (c.child? .type) := by
  unfold declared? Ty.declared? Source.written?
  rw [Cursor.child?_focus, Option.bind_map]
  rfl

/-- A parameter says what is written, and so does whatever has a type
written. -/
theorem said_eq_typed {entry : Cursor × Option Cursor}
    (h : scope.kind.declaresParameters = true ∨ (m.source.written? entry.2).isSome = true) :
    m.said scope entry = .typed (m.source.written? entry.2) := by
  unfold said
  cases hwritten : m.source.written? entry.2 with
  | some t => rfl
  | none =>
    rw [hwritten] at h
    rcases h with hparameter | hsome
    · simp only [unwritten, if_pos hparameter]
    · cases hsome

theorem inParameters_eq_said (hscope : scope.kind.declaresParameters = true) (list : Cursor)
    (use : Use) :
    m.inParameters (list.namedOfKind .parameter) use
      = (m.parametersIn list use).head?.map (m.said scope) := by
  unfold inParameters parametersIn
  rw [List.head?_map, List.head?_filter, Option.map_map]
  congr 1
  funext p
  rw [declared?_eq_written?, Function.comp_apply, said_eq_typed (.inl hscope)]

theorem inLambda_eq_said (hscope : scope.kind = .lambda) (use : Use) :
    m.inLambda scope use = (m.lambdaDeclarations scope use).head?.map (m.said scope) := by
  have hparameters : scope.kind.declaresParameters = true := by
    rw [hscope]
    rfl
  unfold inLambda Cursor.lambdaParameters? lambdaDeclarations
  rw [if_pos hscope]
  cases scope.child? .parameters with
  | none => rfl
  | some list =>
    dsimp only
    by_cases hkind : list.kind = .parameterList
    · rw [if_pos hkind, if_pos hkind]
      exact inParameters_eq_said hparameters list use
    · rw [if_neg hkind, if_neg hkind]
      dsimp only
      split
      · rw [List.head?_cons, Option.map_some, said_eq_typed (.inl hparameters)]
        rfl
      · rfl

theorem inCallable_eq_said (hscope : scope.kind.declaresCallable = true) (use : Use) :
    m.inCallable scope use = (m.callableDeclarations scope use).head?.map (m.said scope) := by
  have hparameters : scope.kind.declaresParameters = true := by
    unfold Kind.declaresParameters
    rw [hscope, Bool.or_true]
  unfold inCallable callableDeclarations
  cases scope.child? .parameters with
  | none => rfl
  | some list => exact inParameters_eq_said hparameters list use

/-- In a block or a head, variables without a type have it from their
initializers. -/
theorem said_of_variable (hscope : scope.kind = .block ∨ scope.kind.declaresInHead = true)
    (declaration d : Cursor) :
    m.said scope (d, declaration.child? .type)
      = match m.declared? declaration with
        | some t => .typed (some t)
        | none =>
          match d.declarator.value with
          | some value => .typeOf value
          | none => .typed none := by
  have hkind : scope.kind.declaresParameters = false ∧ scope.kind ≠ .forEachStatement := by
    rcases hscope with hblock | hhead
    · rw [hblock]
      decide
    · revert hhead
      cases scope.kind <;>
        simp [Kind.declaresInHead, Kind.declaresParameters, Kind.declaresCallable]
  rw [declared?_eq_written?]
  unfold said unwritten
  cases m.source.written? (declaration.child? .type) with
  | some t => simp
  | none =>
    cases d.declarator.value with
    | some value => simp [hkind]
    | none => simp [hkind]

theorem inHead_eq_said (hscope : scope.kind = .block ∨ scope.kind.declaresInHead = true)
    (statement : Cursor) (use : Use) :
    m.inHead statement use = (m.variablesIn statement use).head?.map (m.said scope) := by
  unfold inHead variablesIn
  rw [List.head?_flatMap, List.map_findSome?]
  congr 1
  funext declaration
  unfold inVariables
  rw [Function.comp_apply, List.head?_map, List.head?_filter, Option.map_map]
  congr 1
  funext d
  exact (said_of_variable hscope declaration d).symm

theorem inBlock_eq_said (hscope : scope.kind = .block) (use : Use) :
    m.inBlock scope use = (m.blockDeclarations scope use).head?.map (m.said scope) := by
  unfold inBlock blockDeclarations
  rw [List.head?_flatMap, List.map_findSome?]
  congr 1
  funext statement
  rw [Function.comp_apply]
  split
  · exact inHead_eq_said (.inl hscope) statement use
  · rfl

/-- The variable of a `foreach` without a type has it from the elements of
the collection. -/
theorem said_of_forEach (hscope : scope.kind = .forEachStatement) (item : Cursor) :
    m.said scope (item, scope.child? .type)
      = match m.declared? scope with
        | some t => .typed (some t)
        | none =>
          match scope.child? .right with
          | some collection => .elementOf collection
          | none => .typed none := by
  have hkind : Kind.forEachStatement.declaresParameters = false := rfl
  rw [declared?_eq_written?]
  unfold said unwritten
  cases m.source.written? (scope.child? .type) with
  | some t => simp
  | none =>
    cases scope.child? .right with
    | some collection => simp [hkind, hscope]
    | none => simp [hkind, hscope]

theorem inForEach_eq_said (hscope : scope.kind = .forEachStatement) (use : Use) :
    m.inForEach scope use = (m.forEachDeclarations scope use).head?.map (m.said scope) := by
  unfold inForEach forEachDeclarations
  cases scope.child? .left with
  | none => rfl
  | some item =>
    have hsaid := said_of_forEach (m := m) hscope item
    by_cases htext : m.text item = use.name
    · cases hright : scope.child? .right with
      | none =>
        rw [hright] at hsaid
        cases hdeclared : m.declared? scope with
        | none => simp [htext, hsaid, hdeclared]
        | some t => simp [htext, hsaid, hdeclared]
      | some collection =>
        rw [hright] at hsaid
        by_cases hcovers : collection.covers use.offset = true
        · simp [htext, hcovers]
        · cases hdeclared : m.declared? scope with
          | none => simp [htext, hsaid, hdeclared, hcovers]
          | some t => simp [htext, hsaid, hdeclared, hcovers]
    · simp [htext]

/-- What a scope binds a name to is what its first declaration says. -/
theorem binding?_eq_said (htype : scope.kind.declaresType = false) (use : Use) :
    m.binding? scope use = (m.declarations scope use).head?.map (m.said scope) := by
  unfold binding? declarations
  by_cases hlambda : scope.kind = .lambda
  · rw [if_pos hlambda, if_pos hlambda, inLambda_eq_said hlambda]
  rw [if_neg hlambda, if_neg hlambda]
  by_cases hcallable : scope.kind.declaresCallable = true
  · rw [if_pos hcallable, if_pos hcallable, inCallable_eq_said hcallable]
  rw [if_neg hcallable, if_neg hcallable]
  by_cases hblock : scope.kind = .block
  · rw [if_pos hblock, if_pos hblock, inBlock_eq_said hblock]
  rw [if_neg hblock, if_neg hblock]
  by_cases heach : scope.kind = .forEachStatement
  · rw [if_pos heach, if_pos heach, inForEach_eq_said heach]
  rw [if_neg heach, if_neg heach]
  by_cases hhead : scope.kind.declaresInHead = true
  · rw [if_pos hhead, if_pos hhead, inHead_eq_said (.inr hhead)]
  rw [if_neg hhead, if_neg hhead, htype]
  rfl

end Model

end QueryLint
