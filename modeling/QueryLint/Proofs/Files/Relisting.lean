/-
Directories listed in another order. The table of the file system is then
the same (`Relisted.at?_eq`), so the same files are found
(`Relisted.isSource_iff`) and the same is read in them
(`Relisted.read_eq`).
-/
import QueryLint.Proofs.Files.Walk

namespace QueryLint

-- ================================================================= relisting

/-- Entries that are the same but for the order in which directories list
what they hold. -/
inductive Entry.Relisted : Entry → Entry → Prop where
  | file (bytes : List UInt8) : Relisted (.file bytes) (.file bytes)
  | refused (fault : Fault) : Relisted (.refused fault) (.refused fault)
  | link (target : String) : Relisted (.link target) (.link target)
  | directory {listing other : Listing}
    (names : (listing.map Prod.fst).Perm (other.map Prod.fst))
    (entries : ∀ name e e', (name, e) ∈ listing → (name, e') ∈ other → Relisted e e') :
    Relisted (.directory listing) (.directory other)

namespace Entry

/-- A relisted directory has the entries of the other by the same names. -/
theorem exists_relisted {listing other : Listing}
    (hnames : (listing.map Prod.fst).Perm (other.map Prod.fst)) {name : String} {e' : Entry}
    (h : (name, e') ∈ other) : ∃ e, (name, e) ∈ listing := by
  obtain ⟨⟨n, e⟩, he, rfl⟩ := List.mem_map.1 (hnames.mem_iff.2 (List.mem_map_of_mem h))
  exact ⟨e, he⟩

theorem Relisted.wellFormed {e e' : Entry} (h : e.Relisted e') (hwf : e.WellFormed) :
    e'.WellFormed := by
  induction h with
  | file bytes => exact hwf
  | refused fault => exact hwf
  | link target => exact hwf
  | @directory listing other hnames hentries ih =>
    cases hwf with
    | directory distinct named inside =>
      refine .directory (hnames.nodup_iff.1 distinct) (fun p hp => ?_) fun p hp => ?_
      · obtain ⟨e, he⟩ := exists_relisted hnames hp
        exact named (p.1, e) he
      · obtain ⟨e, he⟩ := exists_relisted hnames hp
        exact ih p.1 e p.2 he hp (inside (p.1, e) he)

theorem Relisted.node_below {e e' : Entry} (h : e.Relisted e') (hwf : e.WellFormed)
    (names : List String) : (e'.below? names).map node = (e.below? names).map node := by
  induction h generalizing names with
  | file bytes => rfl
  | refused fault => rfl
  | link target => rfl
  | @directory listing other hnames hentries ih =>
    have hwf' := (Relisted.directory hnames hentries).wellFormed hwf
    cases hwf with
    | directory distinct named inside =>
    cases hwf' with
    | directory distinct' named' inside' =>
    cases names with
    | nil => rw [below?_nil, below?_nil]; rfl
    | cons name names =>
      rw [below?_cons, below?_cons, listing?, listing?, Option.bind_some, Option.bind_some]
      cases hother : other.lookup name with
      | none =>
        have hnone : listing.lookup name = none := by
          rw [List.lookup_eq_none_iff] at hother ⊢
          intro p hp
          obtain ⟨e', he'⟩ := exists_relisted hnames.symm (show (p.1, p.2) ∈ listing from hp)
          exact hother (p.1, e') he'
        rw [hnone]
      | some e' =>
        have he' := mem_of_lookup hother
        obtain ⟨e, he⟩ := exists_relisted hnames he'
        rw [(lookup_eq_some_iff_mem distinct).2 he]
        exact ih name e e' he he' (inside _ he) names

end Entry

namespace FileSystem

/-- The same file system, with directories listed in another order. -/
structure Relisted (fs other : FileSystem) : Prop where
  working : other.working = fs.working
  entries : fs.root.entry.Relisted other.root.entry

variable {fs other : FileSystem} {path : String} {names : List String}

namespace Relisted

theorem wellFormed (h : fs.Relisted other) (hwf : fs.WellFormed) : other.WellFormed :=
  h.entries.wellFormed hwf

theorem at?_eq (h : fs.Relisted other) (hwf : fs.WellFormed) : other.at? = fs.at? := by
  funext names
  exact h.entries.node_below hwf names

theorem locate_eq (h : fs.Relisted other) (hwf : fs.WellFormed) (path : String) :
    other.locate path = fs.locate path := by
  unfold locate startNames
  rw [h.at?_eq hwf, h.working]

theorem read_eq (h : fs.Relisted other) (hwf : fs.WellFormed) (path : String) :
    other.read path = fs.read path := by
  rw [FileSystem.read_eq, FileSystem.read_eq, h.locate_eq hwf, h.at?_eq hwf]

theorem isSource_iff (h : fs.Relisted other) (hwf : fs.WellFormed) (path : String)
    (names : List String) : other.IsSource path names ↔ fs.IsSource path names := by
  have hdirectory : ∀ path, other.isDirectory path = fs.isDirectory path := by
    intro path
    rw [Bool.eq_iff_iff, isDirectory_iff, isDirectory_iff, h.locate_eq hwf, h.at?_eq hwf]
  have hcounts : ∀ n, other.CountsAsFile (pathOf path names) n
      ↔ fs.CountsAsFile (pathOf path names) n := by
    intro n
    cases n <;> simp [CountsAsFile, hdirectory]
  rw [FileSystem.isSource_iff, FileSystem.isSource_iff, h.locate_eq hwf, h.at?_eq hwf]
  simp only [hcounts]

end Relisted

end FileSystem

end QueryLint
