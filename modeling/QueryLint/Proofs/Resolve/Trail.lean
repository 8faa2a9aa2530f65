/-
Resolution without a bound. `resolveWithin` counts its steps down and
gives up at zero; `Settles c type trail` is the same resolution with no
count, told by the nodes it comes by, from `c` to the one whose type is
known outright.

# Why the bound is enough

A step depends on the node alone, so a node settles in one way only
(`Settles.unique`). On a trail no node comes up twice: from the second
time on the rest would be the whole again (`Settles.nodup`). All its
nodes are in one tree (`top_of_step`), so a trail is no longer than the
tree is large. The bound that `resolve` sets is the size of the tree,
and hence `resolve_eq_ok_iff`: a resolution succeeds under that bound
exactly if it has an end at all. From here on nothing counts steps; what
is wanted of a resolution is said of its trail, or one step at a time
(`resolve_of_ask`). In particular two resolutions, be it in trees of
different sizes, come to the same if they take the same steps
(`resolve_eq_of_alike`).
-/
import QueryLint.Proofs.Chain.Partition
import QueryLint.Proofs.Scope.Offer

namespace QueryLint

namespace Model

variable {m : Model}

-- ================================================================ one step

/-- The three ways in which one expression leads to another: a name to
what its variable is initialized with, a member access to its object, a
call to its receiver. -/
theorem step_cases {c other : Cursor} {wanted : Wanted} (h : m.step c = .ask other wanted) :
    (c.unwrap.kind = .identifier ∧ ∃ b, m.meaning? c.unwrap = some b ∧ b.value? = some other)
      ∨ (c.unwrap.kind = .memberAccess ∧ c.unwrap.child? .expression = some other)
      ∨ (∃ name, c.unwrap.memberCall? = some (other, name)) := by
  unfold step ofExpression at h
  split at h
  · next hkind =>
    refine .inl ⟨hkind, ?_⟩
    unfold ofBinding at h
    split at h
    · cases h
    · cases h
    · next value hb =>
      cases h
      exact ⟨_, hb, rfl⟩
    · next collection hb =>
      cases h
      exact ⟨_, hb, rfl⟩
  · cases h
  · cases h
  · next hkind =>
    refine .inr (.inl ⟨hkind, ?_⟩)
    unfold ofAccess at h
    split at h
    · cases h
    · next object hobject =>
      cases h
      exact hobject
  · refine .inr (.inr ?_)
    unfold ofCall at h
    split at h
    · next receiver name hcall =>
      cases h
      exact ⟨name, hcall⟩
    · cases h
  · cases h
  · cases h
  · cases h

/-- A step stays in the tree. -/
theorem top_of_step {c other : Cursor} {wanted : Wanted} (h : m.step c = .ask other wanted) :
    other.top = c.top := by
  rw [← Cursor.top_unwrap c]
  rcases step_cases h with ⟨-, b, hb, hvalue⟩ | ⟨-, hobject⟩ | ⟨name, hcall⟩
  · obtain ⟨scope, hscope, -, holder, guard, hoffers, -, -⟩ :=
      exists_offers_of_meaning? hb hvalue
    rw [hoffers.top_value, Cursor.top_eq_of_mem_ancestors hscope]
  · exact Cursor.top_eq_of_parent? (Cursor.parent?_of_child? hobject)
  · exact Cursor.top_eq_of_memberCall? hcall

/-- Parentheses play no part. -/
theorem step_unwrap (c : Cursor) : m.step c.unwrap = m.step c := by
  unfold step
  rw [Cursor.unwrap_unwrap]

theorem step_of_memberCall? {c receiver name : Cursor}
    (h : c.memberCall? = some (receiver, name)) :
    m.step c = .ask receiver (.call c (m.source.simpleName name.focus)) := by
  have hkind : c.kind = .invocation := (Cursor.memberCall?_eq_some_iff.1 h).1
  have hne : c.kind ≠ .parenthesized := by
    rw [hkind]
    decide
  unfold step ofExpression
  rw [Cursor.unwrap_of_kind_ne hne, hkind]
  show m.ofCall c = _
  unfold ofCall
  rw [h]

-- ================================================================== trails

/-- The expression at a node has the given type, and the resolution comes
by the nodes of the trail. -/
inductive Settles (m : Model) : Cursor → Option Ty → List Cursor → Prop
  | done {c : Cursor} {type : Option Ty} (hstep : m.step c = .done type) :
      Settles m c type [c]
  | ask {c other : Cursor} {wanted : Wanted} {type : Option Ty} {trail : List Cursor}
      (hstep : m.step c = .ask other wanted) (hother : Settles m other type trail) :
      Settles m c (m.fetch wanted type) (c :: trail)

/-- A node settles in one way. -/
theorem Settles.unique {c : Cursor} {type type' : Option Ty} {trail trail' : List Cursor}
    (h : m.Settles c type trail) (h' : m.Settles c type' trail') :
    type = type' ∧ trail = trail' := by
  induction h generalizing type' trail' with
  | done hstep =>
    cases h' with
    | done hstep' =>
      rw [hstep] at hstep'
      cases hstep'
      exact ⟨rfl, rfl⟩
    | ask hstep' _ =>
      rw [hstep] at hstep'
      cases hstep'
  | ask hstep _ ih =>
    cases h' with
    | done hstep' =>
      rw [hstep] at hstep'
      cases hstep'
    | ask hstep' hother' =>
      rw [hstep] at hstep'
      cases hstep'
      obtain ⟨rfl, rfl⟩ := ih hother'
      exact ⟨rfl, rfl⟩

/-- What comes up on a trail settles by what is left of it. -/
theorem Settles.of_mem_trail {c d : Cursor} {type : Option Ty} {trail : List Cursor}
    (h : m.Settles c type trail) (hd : d ∈ trail) :
    ∃ type' trail', m.Settles d type' trail' ∧ trail'.length ≤ trail.length := by
  induction h with
  | done hstep =>
    rw [List.mem_singleton.1 hd]
    exact ⟨_, _, .done hstep, Nat.le_refl _⟩
  | ask hstep hother ih =>
    rcases List.mem_cons.1 hd with rfl | hd
    · exact ⟨_, _, .ask hstep hother, Nat.le_refl _⟩
    · obtain ⟨type', trail', hsettles, hle⟩ := ih hd
      exact ⟨type', trail', hsettles, Nat.le_succ_of_le hle⟩

/-- No node comes up twice on a trail. -/
theorem Settles.nodup {c : Cursor} {type : Option Ty} {trail : List Cursor}
    (h : m.Settles c type trail) : trail.Nodup := by
  induction h with
  | done _ => exact List.nodup_singleton _
  | @ask c other wanted type trail hstep hother ih =>
    refine List.nodup_cons.2 ⟨?_, ih⟩
    intro hmem
    -- the node would settle by a shorter trail as well
    obtain ⟨type', trail', hsettles, hle⟩ := hother.of_mem_trail hmem
    obtain ⟨-, heq⟩ := hsettles.unique (.ask hstep hother)
    rw [heq, List.length_cons] at hle
    omega

theorem Settles.top_of_mem_trail {c : Cursor} {type : Option Ty} {trail : List Cursor}
    (h : m.Settles c type trail) : ∀ d ∈ trail, d.top = c.top := by
  induction h with
  | done _ =>
    intro d hd
    rw [List.mem_singleton.1 hd]
  | ask hstep _ ih =>
    intro d hd
    rcases List.mem_cons.1 hd with rfl | hd
    · rfl
    · rw [ih d hd, top_of_step hstep]

/-- A trail is no longer than the tree is large. -/
theorem Settles.length_trail_le {c : Cursor} {type : Option Ty} {trail : List Cursor}
    (h : m.Settles c type trail) : trail.length ≤ c.top.size :=
  Tree.length_le_size_of_nodup h.nodup h.top_of_mem_trail

-- ============================================================== the bound

/-- A resolution that succeeds within a bound has a trail within it. -/
theorem exists_settles_of_resolveWithin {n : Nat} {c : Cursor} {type : Option Ty}
    (h : m.resolveWithin n c = .ok type) :
    ∃ trail, m.Settles c type trail ∧ trail.length ≤ n := by
  induction n generalizing c type with
  | zero => cases h
  | succ n ih =>
    unfold resolveWithin at h
    split at h
    · next hstep =>
      cases h
      exact ⟨[c], .done hstep, by simp⟩
    · next other wanted hstep =>
      cases hother : m.resolveWithin n other with
      | error e =>
        rw [hother] at h
        cases h
      | ok type' =>
        rw [hother] at h
        cases h
        obtain ⟨trail, hsettles, hle⟩ := ih hother
        exact ⟨c :: trail, .ask hstep hsettles, Nat.succ_le_succ hle⟩

/-- A trail is all that a bound has to allow for. -/
theorem Settles.resolveWithin {n : Nat} {c : Cursor} {type : Option Ty} {trail : List Cursor}
    (h : m.Settles c type trail) (hle : trail.length ≤ n) :
    m.resolveWithin n c = .ok type := by
  induction h generalizing n with
  | done hstep =>
    cases n with
    | zero => simp at hle
    | succ n =>
      unfold Model.resolveWithin
      rw [hstep]
  | ask hstep hother ih =>
    cases n with
    | zero => simp at hle
    | succ n =>
      unfold Model.resolveWithin
      rw [hstep]
      show (m.resolveWithin n _).map _ = _
      rw [ih (Nat.le_of_succ_le_succ hle)]
      rfl

/-- A resolution succeeds exactly if it has an end. -/
theorem resolve_eq_ok_iff {c : Cursor} {type : Option Ty} :
    m.resolve c = .ok type ↔ ∃ trail, m.Settles c type trail := by
  constructor
  · intro h
    obtain ⟨trail, hsettles, -⟩ := exists_settles_of_resolveWithin h
    exact ⟨trail, hsettles⟩
  · intro h
    obtain ⟨trail, hsettles⟩ := h
    exact hsettles.resolveWithin hsettles.length_trail_le

theorem resolve_of_done {c : Cursor} {type : Option Ty} (hstep : m.step c = .done type) :
    m.resolve c = .ok type :=
  resolve_eq_ok_iff.2 ⟨[c], .done hstep⟩

/-- One step of a resolution. -/
theorem resolve_of_ask {c other : Cursor} {wanted : Wanted} {type : Option Ty}
    (hstep : m.step c = .ask other wanted) (hother : m.resolve other = .ok type) :
    m.resolve c = .ok (m.fetch wanted type) := by
  obtain ⟨trail, hsettles⟩ := resolve_eq_ok_iff.1 hother
  exact resolve_eq_ok_iff.2 ⟨c :: trail, .ask hstep hsettles⟩

/-- Parentheses around an expression do not change its type. -/
theorem resolve_of_unwrap {c : Cursor} {type : Option Ty}
    (h : m.resolve c.unwrap = .ok type) : m.resolve c = .ok type := by
  obtain ⟨trail, hsettles⟩ := resolve_eq_ok_iff.1 h
  cases hsettles with
  | done hstep =>
    rw [step_unwrap] at hstep
    exact resolve_of_done hstep
  | ask hstep hother =>
    rw [step_unwrap] at hstep
    exact resolve_of_ask hstep (resolve_eq_ok_iff.2 ⟨_, hother⟩)

-- ========================================================== side by side

/-- There is one way to fail. -/
theorem eq_of_resolveWithin_error {n : Nat} {c : Cursor} {e : AnalysisError}
    (h : m.resolveWithin n c = .error e) : e = .endlessResolution := by
  induction n generalizing c with
  | zero =>
    cases h
    rfl
  | succ n ih =>
    unfold Model.resolveWithin at h
    split at h
    · cases h
    · next other wanted _ =>
      cases hother : m.resolveWithin n other with
      | error e' =>
        rw [hother] at h
        cases h
        exact ih hother
      | ok type =>
        rw [hother] at h
        cases h

/-- Two steps that end with the same type, or lead to related nodes and
do the same with their types. -/
inductive StepsAlike (m : Model) (R : Cursor → Cursor → Prop) : Step → Step → Prop
  | done (type : Option Ty) : StepsAlike m R (.done type) (.done type)
  | ask {other other' : Cursor} {wanted wanted' : Wanted} (hother : R other other')
      (hfetch : m.fetch wanted = m.fetch wanted') :
      StepsAlike m R (.ask other wanted) (.ask other' wanted')

theorem StepsAlike.symm {R : Cursor → Cursor → Prop} {a b : Step} (h : m.StepsAlike R a b) :
    m.StepsAlike (fun c d => R d c) b a := by
  cases h with
  | done type => exact .done type
  | ask hother hfetch => exact .ask hother hfetch.symm

/-- Where related nodes take steps alike, their resolutions run side by
side. -/
theorem Settles.of_alike {R : Cursor → Cursor → Prop}
    (hR : ∀ c c', R c c' → m.StepsAlike R (m.step c) (m.step c')) {c c' : Cursor}
    {type : Option Ty} {trail : List Cursor} (h : m.Settles c type trail) (hc : R c c') :
    ∃ trail', m.Settles c' type trail' := by
  induction h generalizing c' with
  | @done c type hstep =>
    have halike := hR c c' hc
    rw [hstep] at halike
    generalize hstep' : m.step c' = b at halike
    cases halike with
    | done => exact ⟨[c'], .done hstep'⟩
  | @ask c other wanted type trail hstep _ ih =>
    have halike := hR c c' hc
    rw [hstep] at halike
    generalize hstep' : m.step c' = b at halike
    cases halike with
    | @ask _ other' _ wanted' hother hfetch =>
      obtain ⟨trail', hsettles⟩ := ih hother
      rw [hfetch]
      exact ⟨c' :: trail', .ask hstep' hsettles⟩

/-- And they come to the same, also if they do not end. -/
theorem resolve_eq_of_alike {R : Cursor → Cursor → Prop}
    (hR : ∀ c c', R c c' → m.StepsAlike R (m.step c) (m.step c')) {c c' : Cursor} (hc : R c c') :
    m.resolve c = m.resolve c' := by
  have hok : ∀ type, m.resolve c = .ok type ↔ m.resolve c' = .ok type := by
    intro type
    rw [resolve_eq_ok_iff, resolve_eq_ok_iff]
    constructor
    · intro h
      obtain ⟨trail, hsettles⟩ := h
      exact hsettles.of_alike hR hc
    · intro h
      obtain ⟨trail, hsettles⟩ := h
      exact hsettles.of_alike (fun a b hab => (hR b a hab).symm) hc
  cases h : m.resolve c with
  | ok type => exact ((hok type).1 h).symm
  | error e =>
    cases h' : m.resolve c' with
    | ok type =>
      rw [(hok type).2 h'] at h
      cases h
    | error e' => rw [eq_of_resolveWithin_error h, eq_of_resolveWithin_error h']

end Model

end QueryLint
