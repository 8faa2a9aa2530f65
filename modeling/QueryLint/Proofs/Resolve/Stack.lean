/-
Analyses with limited room, held against those without a limit. Room is
all that a limit can take away: whatever comes out in some room is what
comes out at last, or else the room did not do (`CutShort`), for a single
expression (`resolveOn_cutShort`) and for an analysis as a whole
(`analyzeOn_cutShort`).

# How much room it takes

`Needs m c n` follows a resolution to its end and adds up the calls that
are open there. A resolution succeeds in some room exactly if it has an
end and needs no more than that (`resolveOn_eq_ok_iff`). No node comes
up twice on the way, so four calls for each node of the tree are always
enough (`exists_needs_of_resolve`), and an analysis that has so much room
for every document is the analysis without a limit
(`analyzeOn_eq_analyze`).
-/
import QueryLint.Proofs.Host.Analysis
import QueryLint.Proofs.Resolve.Trail
import QueryLint.Stack

namespace QueryLint

-- =============================================================== cut short

/-- What came out is what should come out, or the room did not do. -/
def CutShort {α : Type} (a b : Except AnalysisError α) : Prop :=
  a = b ∨ a = .error .endlessResolution

namespace CutShort

variable {α β : Type}

theorem refl (a : Except AnalysisError α) : CutShort a a := .inl rfl

/-- A computation that is cut short cuts short what comes behind it. -/
theorem bind {a b : Except AnalysisError α} {f g : α → Except AnalysisError β}
    (h : CutShort a b) (hfg : ∀ x, CutShort (f x) (g x)) : CutShort (a >>= f) (b >>= g) := by
  rcases h with rfl | rfl
  · cases a with
    | error e => exact .inl rfl
    | ok x => exact hfg x
  · exact .inr rfl

theorem map {a b : Except AnalysisError α} (h : CutShort a b) (f : α → β) :
    CutShort (a.map f) (b.map f) := by
  rcases h with rfl | rfl
  · exact .inl rfl
  · exact .inr rfl

theorem mapM {f g : α → Except AnalysisError β} (hfg : ∀ x, CutShort (f x) (g x)) (xs : List α) :
    CutShort (xs.mapM f) (xs.mapM g) := by
  induction xs with
  | nil => exact refl _
  | cons x xs ih =>
    rw [List.mapM_cons, List.mapM_cons]
    exact (hfg x).bind fun y => ih.bind fun ys => refl _

/-- What comes out in the end is what should come out. -/
theorem eq_of_ok {a b : Except AnalysisError α} {x : α} (h : CutShort a b) (ha : a = .ok x) :
    b = .ok x := by
  rcases h with rfl | rfl
  · exact ha
  · cases ha

end CutShort

-- ============================================================== resolutions

namespace Model

variable {m : Model}

/-- Without a limit, a type follows from the next one, also if there is
no end. -/
theorem resolve_eq_map_of_ask {c other : Cursor} {wanted : Wanted}
    (hstep : m.step c = .ask other wanted) :
    m.resolve c = (m.resolve other).map (m.fetch wanted) := by
  cases hother : m.resolve other with
  | ok type => exact resolve_of_ask hstep hother
  | error e =>
    cases hc : m.resolve c with
    | error e' =>
      rw [eq_of_resolveWithin_error hc, eq_of_resolveWithin_error hother]
      rfl
    | ok type =>
      -- an end for the first would be one for the other
      obtain ⟨trail, hsettles⟩ := resolve_eq_ok_iff.1 hc
      cases hsettles with
      | done hdone =>
        rw [hstep] at hdone
        cases hdone
      | ask hask hsettles =>
        rw [hstep] at hask
        cases hask
        rw [resolve_eq_ok_iff.2 ⟨_, hsettles⟩] at hother
        cases hother

theorem resolveOn_of_done {room : Nat} {c : Cursor} {type : Option Ty} (hroom : 0 < room)
    (hstep : m.step c = .done type) : m.resolveOn room c = .ok type := by
  unfold resolveOn
  rw [if_neg (Nat.ne_of_gt hroom), hstep]

theorem resolveOn_of_ask {room : Nat} {c other : Cursor} {wanted : Wanted} (hroom : 0 < room)
    (hstep : m.step c = .ask other wanted) :
    m.resolveOn room c = (m.resolveOn (room - wanted.frames) other).map (m.fetch wanted) := by
  rw [resolveOn, if_neg (Nat.ne_of_gt hroom), hstep]

theorem resolveOn_zero (c : Cursor) : m.resolveOn 0 c = .error .endlessResolution := by
  rw [resolveOn, if_pos rfl]

theorem resolveOn_cutShort (room : Nat) (c : Cursor) :
    CutShort (m.resolveOn room c) (m.resolve c) := by
  induction room using Nat.strongRecOn generalizing c with
  | ind room ih =>
    rcases Nat.eq_zero_or_pos room with rfl | hroom
    · exact .inr (resolveOn_zero c)
    · cases hstep : m.step c with
      | done type => exact .inl ((resolveOn_of_done hroom hstep).trans (resolve_of_done hstep).symm)
      | ask other wanted =>
        rw [resolveOn_of_ask hroom hstep, resolve_eq_map_of_ask hstep]
        have := wanted.frames_pos
        exact (ih (room - wanted.frames) (by omega) other).map _

theorem resolveMethodOn_cutShort (room : Nat) (c : Cursor) :
    CutShort (m.resolveMethodOn room c) (m.resolveMethod c) := by
  unfold resolveMethodOn resolveMethod
  cases c.memberCall? with
  | none => exact .refl _
  | some parts => exact (resolveOn_cutShort (room - 1) parts.1).map _

-- ===================================================================== needs

/-- Resolving the expression needs room for so many calls. -/
inductive Needs (m : Model) : Cursor → Nat → Prop
  | done {c : Cursor} {type : Option Ty} (hstep : m.step c = .done type) : Needs m c 1
  | ask {c other : Cursor} {wanted : Wanted} {n : Nat} (hstep : m.step c = .ask other wanted)
      (hother : Needs m other n) : Needs m c (wanted.frames + n)

theorem Needs.pos {c : Cursor} {n : Nat} (h : m.Needs c n) : 0 < n := by
  induction h with
  | done _ => exact Nat.one_pos
  | ask _ _ ih => omega

/-- With less room than it needs, a resolution fails. -/
theorem Needs.resolveOn_of_lt {c : Cursor} {n room : Nat} (h : m.Needs c n) (hlt : room < n) :
    m.resolveOn room c = .error .endlessResolution := by
  induction h generalizing room with
  | done _ =>
    rw [Nat.lt_one_iff.1 hlt]
    exact resolveOn_zero _
  | @ask c other wanted n hstep hother ih =>
    rcases Nat.eq_zero_or_pos room with rfl | hroom
    · exact resolveOn_zero c
    · have := hother.pos
      rw [resolveOn_of_ask hroom hstep, ih (by omega)]
      rfl

/-- With as much, it succeeds. -/
theorem Needs.resolveOn_of_le {c : Cursor} {n room : Nat} (h : m.Needs c n) (hle : n ≤ room) :
    m.resolveOn room c = m.resolve c := by
  induction h generalizing room with
  | done hstep => rw [resolveOn_of_done (by omega) hstep, resolve_of_done hstep]
  | @ask c other wanted n hstep hother ih =>
    have := hother.pos
    rw [resolveOn_of_ask (by omega) hstep, ih (by omega), resolve_eq_map_of_ask hstep]

/-- A resolution that has an end needs some room, and four calls for each
node that it comes by are enough. -/
theorem Settles.exists_needs {c : Cursor} {type : Option Ty} {trail : List Cursor}
    (h : m.Settles c type trail) : ∃ n, m.Needs c n ∧ n ≤ 4 * trail.length := by
  induction h with
  | done hstep => exact ⟨1, .done hstep, by simp⟩
  | @ask c other wanted type trail hstep _ ih =>
    obtain ⟨n, hneeds, hle⟩ := ih
    refine ⟨wanted.frames + n, .ask hstep hneeds, ?_⟩
    have hframes : wanted.frames ≤ 4 := by
      unfold Wanted.frames
      split
      · exact Nat.le_refl 4
      · exact Nat.le_refl 4
      · exact Nat.le_add_right 2 2
      · exact Nat.le_add_right 2 2
    rw [List.length_cons]
    omega

theorem exists_needs_of_resolve {c : Cursor} {type : Option Ty} (h : m.resolve c = .ok type) :
    ∃ n, m.Needs c n ∧ n ≤ 4 * c.top.size := by
  obtain ⟨trail, hsettles⟩ := resolve_eq_ok_iff.1 h
  obtain ⟨n, hneeds, hle⟩ := hsettles.exists_needs
  have := hsettles.length_trail_le
  exact ⟨n, hneeds, by omega⟩

/-- A resolution succeeds in some room exactly if it has an end and needs
no more. -/
theorem resolveOn_eq_ok_iff {room : Nat} {c : Cursor} {type : Option Ty} :
    m.resolveOn room c = .ok type ↔
      m.resolve c = .ok type ∧ ∃ n, m.Needs c n ∧ n ≤ room := by
  constructor
  · intro h
    have hresolve := (resolveOn_cutShort room c).eq_of_ok h
    obtain ⟨n, hneeds, -⟩ := exists_needs_of_resolve hresolve
    refine ⟨hresolve, n, hneeds, ?_⟩
    rcases Nat.lt_or_ge room n with hlt | hle
    · rw [hneeds.resolveOn_of_lt hlt] at h
      cases h
    · exact hle
  · intro h
    obtain ⟨hresolve, n, hneeds, hle⟩ := h
    rw [hneeds.resolveOn_of_le hle, hresolve]

/-- Four calls for each node of the tree are enough for any resolution
that has an end. -/
theorem resolveOn_of_resolve {room : Nat} {c : Cursor} {type : Option Ty}
    (h : m.resolve c = .ok type) (hroom : 4 * c.top.size ≤ room) :
    m.resolveOn room c = .ok type := by
  obtain ⟨n, hneeds, hle⟩ := exists_needs_of_resolve h
  exact resolveOn_eq_ok_iff.2 ⟨h, n, hneeds, by omega⟩

/-- So where all types of a tree can be told, there is room for its
targets. -/
theorem exists_resolveMethodOn {room : Nat} {c : Cursor}
    (htype : ∀ d : Cursor, d.top = c.top → ∃ type, m.resolve d = .ok type)
    (hroom : 4 * c.top.size < room) : ∃ target, m.resolveMethodOn room c = .ok target := by
  unfold resolveMethodOn
  split
  · exact ⟨_, rfl⟩
  · next receiver name hcall =>
    have htop := Cursor.top_eq_of_memberCall? hcall
    obtain ⟨type, htype⟩ := htype receiver htop
    rw [resolveOn_of_resolve htype (by rw [htop]; omega)]
    exact ⟨_, rfl⟩

end Model

-- ================================================================= analyses

/-- Services that give the answers of others, or are cut short. -/
structure Services.CutShort (s s' : Services) : Prop where
  type : ∀ c, QueryLint.CutShort (s.type c) (s'.type c)
  method : ∀ c, QueryLint.CutShort (s.method c) (s'.method c)

theorem Model.servicesOn_cutShort (m : Model) (room : Nat) :
    (m.servicesOn room).CutShort m.services :=
  ⟨m.resolveOn_cutShort room, m.resolveMethodOn_cutShort room⟩

theorem IndexLambda.report_cutShort {s s' : Services} (h : s.CutShort s') (src : Source)
    (path : String) (c : Cursor) :
    CutShort (report s src path c) (report s' src path c) := by
  have hquery : CutShort (s.query? src c) (s'.query? src c) := by
    unfold Services.query?
    split
    · refine CutShort.bind (CutShort.mapM ?_ _) fun _ => .refl _
      intro call
      exact (h.method call.site).bind fun _ => .refl _
    · exact .refl _
  unfold report
  refine hquery.bind ?_
  intro query
  cases query with
  | none => exact .refl _
  | some query => exact (h.type query.source).bind fun _ => .refl _

namespace Host

theorem reportAt_cutShort {s s' : Services} (h : s.CutShort s') (doc : Document) (c : Cursor) :
    CutShort (default.reportAt s doc c) (default.reportAt s' doc c) := by
  rw [reportAt_default, reportAt_default]
  split
  · exact IndexLambda.report_cutShort h _ _ _
  · exact .refl _

/-- Whatever an analysis in some room comes to, it is what the analysis
comes to, or the room did not do. -/
theorem analyzeOn_cutShort (room : Nat) (comp : Compilation) :
    CutShort (default.analyzeOn room comp) (default.analyze comp) := by
  unfold analyzeOn analyze
  refine CutShort.bind (CutShort.mapM ?_ _) fun _ => .refl _
  intro doc
  have hservices := (Model.mk comp.index doc.source).servicesOn_cutShort room
  exact CutShort.bind (CutShort.mapM (reportAt_cutShort hservices doc) _) fun _ => .refl _

/-- With more room than four calls for each node of a document, an
analysis that can tell all types and targets is not cut short. -/
theorem analyzeOn_eq_analyze {room : Nat} {comp : Compilation}
    (htype : ∀ doc ∈ comp.documents, ∀ c : Cursor, c.top = doc.tree →
      ∃ type, (Model.mk comp.index doc.source).resolve c = .ok type)
    (hroom : ∀ doc ∈ comp.documents, 4 * doc.tree.size < room) :
    default.analyzeOn room comp = default.analyze comp := by
  have hdocuments : ∀ doc ∈ comp.documents,
      ∃ ds, default.reportInOn room comp.index doc = .ok ds := by
    intro doc hdoc
    have hlt := hroom doc hdoc
    have hnodes : ∀ c ∈ doc.tree.visit,
        ∃ ds, default.reportAt ((Model.mk comp.index doc.source).servicesOn room) doc c = .ok ds := by
      intro c hc
      refine exists_reportAt_default ?_ ?_ doc
        (Tree.mem_documentOrder_iff.1 (doc.tree.visit_perm.mem_iff.1 hc))
      · intro c htop
        obtain ⟨type, htype⟩ := htype doc hdoc c htop
        exact ⟨type, Model.resolveOn_of_resolve htype (by rw [htop]; omega)⟩
      · intro c htop
        exact Model.exists_resolveMethodOn (htop ▸ htype doc hdoc) (by rw [htop]; exact hlt)
    obtain ⟨found, hfound⟩ := exists_map_eq_ok hnodes
    exact ⟨_, bind_eq_ok_iff.2 ⟨found, mapM_eq_ok_iff.2 hfound, rfl⟩⟩
  obtain ⟨found, hfound⟩ := exists_map_eq_ok hdocuments
  have hok : default.analyzeOn room comp = .ok (Diagnostic.sort found.flatten) :=
    bind_eq_ok_iff.2 ⟨found, mapM_eq_ok_iff.2 hfound, rfl⟩
  rw [hok, (analyzeOn_cutShort room comp).eq_of_ok hok]

end Host

end QueryLint
