/-
Reports that mirror each other. What is reported at the end of a chain
depends on little of the tree around it: on the types of the chain's
source and the targets of its calls, on the names that they are written
with, and on where the index parameters stand. Where a tree is changed in
such a way that all of this stays (`Mirrored`), so does the report, also
when it breaks off.
-/
import QueryLint.Proofs.Host.Analysis

namespace QueryLint

/-- Where each answer is another one, changed, so is the list of them; and
both break off together. -/
theorem mapM_eq_map {ε α β γ : Type} {f : α → Except ε β} {g : α → Except ε γ} {h : γ → β}
    {xs : List α} (hall : ∀ x ∈ xs, f x = (g x).map h) :
    xs.mapM f = (xs.mapM g).map (List.map h) := by
  induction xs with
  | nil => rfl
  | cons x xs ih =>
    rw [List.mapM_cons, List.mapM_cons, hall x List.mem_cons_self,
      ih fun y hy => hall y (List.mem_cons_of_mem x hy)]
    cases g x with
    | error e => rfl
    | ok y =>
      cases xs.mapM g with
      | error e => rfl
      | ok ys => rfl

-- ================================================================= queries

/-- The same call, at another site. -/
def Link.map (f : Cursor → Cursor) (link : Link) : Link := ⟨f link.site, link.name, link.target⟩

/-- The same query, with other sites. -/
def Query.map (f : Cursor → Cursor) (query : Query) : Query :=
  ⟨f query.source, query.links.map (Link.map f)⟩

theorem knownLinks_map_map (f : Cursor → Cursor) (links : List (Option Link)) :
    knownLinks (links.map (Option.map (Link.map f))) = (knownLinks links).map (Link.map f) := by
  unfold knownLinks
  rw [List.takeWhile_map, List.filterMap_map, List.map_filterMap]
  simp only [Function.comp_def, Option.isSome_map, id]

/-- The links of a query are calls of its chain. -/
theorem Services.exists_call_of_query? {services : Services} {src : Source} {c : Cursor}
    {query : Query} (h : services.query? src c = .ok (some query)) {link : Link}
    (hlink : link ∈ query.links) : ∃ call ∈ c.chain.calls, link.site = call.site := by
  obtain ⟨-, links, hlinks, rfl⟩ := Services.query?_eq_ok_some_iff.1 h
  obtain ⟨found, hfound, heq⟩ := List.mem_filterMap.1 hlink
  obtain ⟨call, hcall, hok⟩ := exists_question hlinks ((List.takeWhile_sublist _).subset hfound)
  obtain ⟨target, -, htarget⟩ := Services.exists_target_of_link? hok
  rw [id, htarget] at heq
  obtain ⟨method, -, rfl⟩ := Option.map_eq_some_iff.1 heq
  exact ⟨call, hcall, rfl⟩

namespace IndexLambda

/-- Whether the index parameter of a call stands, if there is one, where
that of another does. -/
def SameIndex (site site' : Cursor) : Prop :=
  (indexParameter? site').map Cursor.start = (indexParameter? site).map Cursor.start

/-- The finding at an index parameter that starts at an offset. -/
def findingAt (src : Source) (path name : String) (offset : Nat) : Diagnostic :=
  let point := src.point offset
  { rule
    location := ⟨path, point.row, point.column⟩
    args := ["using the second index parameter in " ++ name] }

theorem check?_eq (src : Source) (path : String) (link : Link) :
    check? src path link
      = if takesIndex link.target then
          ((indexParameter? link.site).map Cursor.start).map (findingAt src path link.name)
        else none := by
  unfold check?
  rw [Option.map_map]
  rfl

theorem check?_map {src : Source} {path : String} {f : Cursor → Cursor} {link : Link}
    (h : SameIndex link.site (f link.site)) :
    check? src path (link.map f) = check? src path link := by
  have hstart : (indexParameter? (link.map f).site).map Cursor.start
      = (indexParameter? link.site).map Cursor.start := h
  rw [check?_eq, check?_eq, hstart]
  rfl

theorem findings_map {src : Source} {path : String} {f : Cursor → Cursor} {query : Query}
    (h : ∀ link ∈ query.links, SameIndex link.site (f link.site)) :
    findings src path (query.map f) = findings src path query := by
  unfold findings
  show (((query.links.map (Link.map f)).takeWhile onQuery).filter (isSensitive ·.name)).filterMap
    (check? src path) = _
  rw [List.takeWhile_map, List.filter_map, List.filterMap_map]
  refine List.filterMap_congr fun link hlink => ?_
  have hmem := (List.takeWhile_sublist _).subset (List.mem_filter.1 hlink).1
  exact check?_map (h link hmem)

-- ================================================================= reports

/-- The chain that ends at a node has a mirror image, on which everything
that the rule asks is answered alike. -/
structure Mirrored (m : Model) (f : Cursor → Cursor) (c : Cursor) : Prop where
  endsChain : (f c).endsChain = c.endsChain
  source : (f c).chain.source = f c.chain.source
  calls : (f c).chain.calls = c.chain.calls.map fun call => ⟨f call.site, f call.name⟩
  type : m.resolve (f c.chain.source) = m.resolve c.chain.source
  target : ∀ call ∈ c.chain.calls, m.resolveMethod (f call.site) = m.resolveMethod call.site
  name : ∀ call ∈ c.chain.calls,
    m.source.simpleName (f call.name).focus = m.source.simpleName call.name.focus
  index : ∀ call ∈ c.chain.calls, SameIndex call.site (f call.site)

namespace Mirrored

variable {m : Model} {f : Cursor → Cursor} {c : Cursor}

theorem link? (h : Mirrored m f c) {call : Call} (hcall : call ∈ c.chain.calls) :
    m.services.link? m.source ⟨f call.site, f call.name⟩
      = (m.services.link? m.source call).map (Option.map (Link.map f)) := by
  unfold Services.link?
  show (m.resolveMethod (f call.site) >>= _)
    = Except.map _ (m.resolveMethod call.site >>= _)
  rw [h.target call hcall, h.name call hcall]
  cases m.resolveMethod call.site with
  | error e => rfl
  | ok target =>
    cases target with
    | none => rfl
    | some method => rfl

theorem query? (h : Mirrored m f c) :
    m.services.query? m.source (f c)
      = (m.services.query? m.source c).map (Option.map (Query.map f)) := by
  have hends' := h.endsChain
  cases hends : c.endsChain with
  | false =>
    rw [hends] at hends'
    rw [Services.query?_of_not_endsChain hends, Services.query?_of_not_endsChain hends']
    rfl
  | true =>
    rw [hends] at hends'
    have hlinks : (f c).chain.calls.mapM (m.services.link? m.source)
        = (c.chain.calls.mapM (m.services.link? m.source)).map
          (List.map (Option.map (Link.map f))) := by
      rw [h.calls, List.mapM_map]
      exact mapM_eq_map fun call hcall => h.link? hcall
    unfold Cursor.endsChain at hends hends'
    unfold Services.query?
    rw [if_pos hends, if_pos hends', hlinks, h.source]
    cases c.chain.calls.mapM (m.services.link? m.source) with
    | error e => rfl
    | ok links =>
      show Except.ok (some (Query.mk (f c.chain.source) (knownLinks (links.map _)))) = _
      rw [knownLinks_map_map]
      rfl

/-- The same is reported at both ends. -/
theorem report (h : Mirrored m f c) (path : String) :
    report m.services m.source path (f c) = report m.services m.source path c := by
  unfold IndexLambda.report
  rw [h.query?]
  cases hquery : m.services.query? m.source c with
  | error e => rfl
  | ok query =>
    cases query with
    | none => rfl
    | some query =>
      have hsource : m.resolve (f query.source) = m.resolve query.source := by
        obtain ⟨-, links, -, rfl⟩ := Services.query?_eq_ok_some_iff.1 hquery
        exact h.type
      have hindex : ∀ link ∈ query.links, SameIndex link.site (f link.site) := by
        intro link hlink
        obtain ⟨call, hcall, hsite⟩ := Services.exists_call_of_query? hquery hlink
        rw [hsite]
        exact h.index call hcall
      show (m.resolve (f query.source) >>= _) = (m.resolve query.source >>= _)
      rw [hsource, findings_map hindex]

end Mirrored

end IndexLambda

end QueryLint
