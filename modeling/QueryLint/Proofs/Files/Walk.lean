/-
Which source files are found below a directory, and in which order. A
file system is well-formed if the names in each directory are names and
differ from each other. There the files that are found are exactly those
that are to be found (`IsSource`), and they come in a fixed order
(`Before`): those of a directory by name, then those in its directories,
directory by directory, by name (`sources_eq`).

Files are told by their names below the directory of the search and not
by their paths, for paths do not show where the directory ends. As each
is found once and the order leaves no choice, the list is known as soon
as it is known what is in it (`eq_of_mem_iff`).
-/
import Mathlib.Data.List.Nodup
import QueryLint.Files.Scan
import QueryLint.Proofs.Files.Locating

namespace QueryLint

-- =============================================================== well-formed

/-- Names as directories have them: each is a name, and no two entries of
a directory have the same. -/
inductive Entry.WellFormed : Entry → Prop where
  | file (bytes : List UInt8) : WellFormed (.file bytes)
  | refused (fault : Fault) : WellFormed (.refused fault)
  | link (target : String) : WellFormed (.link target)
  | directory {listing : Listing} (distinct : (listing.map Prod.fst).Nodup)
    (named : ∀ e ∈ listing, IsName e.1) (inside : ∀ e ∈ listing, WellFormed e.2) :
    WellFormed (.directory listing)

/-- A file system whose directories are well-formed. -/
def FileSystem.WellFormed (fs : FileSystem) : Prop := fs.root.entry.WellFormed

theorem mem_of_lookup {listing : Listing} {name : String} {e : Entry}
    (h : listing.lookup name = some e) : (name, e) ∈ listing := by
  obtain ⟨front, back, rfl, -⟩ := List.lookup_eq_some_iff.1 h
  exact List.mem_append_right front List.mem_cons_self

/-- In a directory a name says which entry. -/
theorem lookup_eq_some_iff_mem {listing : Listing} (h : (listing.map Prod.fst).Nodup)
    {name : String} {e : Entry} : listing.lookup name = some e ↔ (name, e) ∈ listing := by
  refine ⟨mem_of_lookup, fun hmem => ?_⟩
  obtain ⟨front, back, rfl⟩ := List.append_of_mem hmem
  rw [List.lookup_eq_some_iff]
  refine ⟨front, back, rfl, fun p hp => ?_⟩
  rw [List.map_append, List.nodup_append] at h
  have hne : p.1 ≠ name := h.2.2 p.1 (List.mem_map_of_mem hp) name (by simp)
  simpa using hne.symm

namespace Entry

theorem WellFormed.of_below? {e : Entry} (h : e.WellFormed) {names : List String} {inner : Entry}
    (hbelow : e.below? names = some inner) :
    inner.WellFormed ∧ ∀ name ∈ names, IsName name := by
  induction names generalizing e with
  | nil =>
    rw [below?_nil] at hbelow
    cases hbelow
    exact ⟨h, fun name hname => (List.not_mem_nil hname).elim⟩
  | cons name names ih =>
    rw [below?_cons] at hbelow
    cases h with
    | file bytes => cases hbelow
    | refused fault => cases hbelow
    | link target => cases hbelow
    | directory distinct named inside =>
      obtain ⟨next, hnext, hrest⟩ := Option.bind_eq_some_iff.1 hbelow
      have hmem := mem_of_lookup hnext
      obtain ⟨hinner, hnames⟩ := ih (inside _ hmem) hrest
      exact ⟨hinner, List.forall_mem_cons.2 ⟨named _ hmem, hnames⟩⟩

end Entry

-- ===================================================================== order

/-- The order in which files come up, told by their names below the
directory of the search. -/
inductive Before : List String → List String → Prop where
  /-- Files of one directory. -/
  | files {a b : String} (h : a < b) : Before [a] [b]
  /-- A file of a directory and one further down. -/
  | first {a b c : String} {q : List String} : Before [a] (b :: c :: q)
  /-- Files in two of its directories. -/
  | directories {a b c d : String} {p q : List String} (h : a < b) :
    Before (a :: c :: p) (b :: d :: q)
  /-- Files in the same of its directories. -/
  | inside {a : String} {p q : List String} (h : Before p q) : Before (a :: p) (a :: q)

theorem not_before_nil_left {q : List String} : ¬ Before [] q := by
  intro h
  cases h

theorem not_before_nil_right {p : List String} : ¬ Before p [] := by
  intro h
  cases h

theorem Before.asymm {p q : List String} (h : Before p q) : ¬ Before q p := by
  induction h with
  | files h =>
    intro h'
    cases h' with
    | files h' => exact String.lt_asymm h h'
    | inside h' => exact not_before_nil_left h'
  | first =>
    intro h'
    cases h' with
    | inside h' => exact not_before_nil_right h'
  | directories h =>
    intro h'
    cases h' with
    | directories h' => exact String.lt_asymm h h'
    | inside h' => exact String.lt_irrefl _ h
  | inside h ih =>
    intro h'
    cases h' with
    | files h' => exact String.lt_irrefl _ h'
    | first => exact not_before_nil_right h
    | directories h' => exact String.lt_irrefl _ h'
    | inside h' => exact ih h'

/-- A list in order is known by what is in it. -/
theorem eq_of_mem_iff {xs ys : List (List String)} (hxs : xs.Pairwise Before)
    (hys : ys.Pairwise Before) (h : ∀ names, names ∈ xs ↔ names ∈ ys) : xs = ys := by
  have hnodup : ∀ {zs : List (List String)}, zs.Pairwise Before → zs.Nodup := fun hzs =>
    hzs.imp fun hab heq => (heq ▸ hab).asymm (heq ▸ hab)
  have hperm : xs.Perm ys := (List.perm_ext_iff_of_nodup (hnodup hxs) (hnodup hys)).2 h
  exact hperm.eq_of_pairwise (fun a b _ _ hab hba => absurd hba hab.asymm) hxs hys

namespace FileSystem

section ByName

variable {α β : Type} {pairs : List (String × α)}

theorem mem_byName {p : String × α} : p ∈ byName pairs ↔ p ∈ pairs := List.mem_mergeSort

theorem byName_map (f : String × α → β) :
    byName (pairs.map fun p => (p.1, f p)) = (byName pairs).map fun p => (p.1, f p) := by
  unfold byName
  rw [List.map_mergeSort]
  intro a _ b _
  rfl

/-- Distinct names come in strict order. -/
theorem pairwise_byName (h : (pairs.map Prod.fst).Nodup) :
    (byName pairs).Pairwise fun a b => a.1 < b.1 := by
  have hsorted : (byName pairs).Pairwise fun a b => decide (a.1 ≤ b.1) = true :=
    List.pairwise_mergeSort
      (fun a b c hab hbc => by
        rw [decide_eq_true_eq] at *
        exact String.le_trans hab hbc)
      (fun a b => by simpa using String.le_total a.1 b.1) pairs
  have hdistinct : (byName pairs).Pairwise fun a b => a.1 ≠ b.1 := by
    rw [List.nodup_iff_pairwise_ne, List.pairwise_map] at h
    exact h.perm (List.mergeSort_perm pairs _).symm Ne.symm
  refine (hsorted.and hdistinct).imp fun {a b} h => ?_
  obtain ⟨hle, hne⟩ := h
  rw [decide_eq_true_eq] at hle
  exact String.not_le.1 fun hge => hne (String.le_antisymm hle hge)

end ByName

-- ===================================================================== found

/-- The names of directories that are gone into. -/
def Entered (name : String) : Prop :=
  name ≠ "bin" ∧ name ≠ "obj" ∧ name.toList.head? ≠ some '.'

theorem isEntered_iff {name : String} : isEntered name = true ↔ Entered name := by
  have hdot : name.startsWith "." = true ↔ name.toList.head? = some '.' := by
    rw [String.startsWith_string_iff]
    cases name.toList with
    | nil => simp
    | cons c cs => simp [eq_comm]
  unfold isEntered Entered
  rw [Bool.not_eq_true', Bool.or_eq_false_iff, Bool.or_eq_false_iff, beq_eq_false_iff_ne,
    beq_eq_false_iff_ne, and_assoc, ← Bool.not_eq_true, hdot]

theorem isSourceName_iff {name : String} :
    isSourceName name = true ↔ ['.', 'c', 's'] <:+ name.toList := endsWith_iff

/-- What stands at a path counts as a file: links do unless they lead to
a directory. -/
def CountsAsFile (fs : FileSystem) (path : String) : Node → Prop
  | .file _ => True
  | .refused _ => True
  | .link _ => fs.isDirectory path = false
  | .directory => False

/-- A source file below an entry at a path, by its names. -/
structure SourceBelow (fs : FileSystem) (path : String) (entry : Entry) (names : List String) :
    Prop where
  counts : ∃ e, entry.below? names = some e ∧ fs.CountsAsFile (pathOf path names) e.node
  entered : ∀ name ∈ names.dropLast, Entered name
  named : ∃ name, names.getLast? = some name ∧ ['.', 'c', 's'] <:+ name.toList

/-- A source file below the directory that a path leads to, by its names. -/
def IsSource (fs : FileSystem) (path : String) (names : List String) : Prop :=
  ∃ entry, fs.find path = .ok entry ∧ fs.SourceBelow path entry names

variable {fs : FileSystem} {path : String}

theorem not_sourceBelow_nil {entry : Entry} : ¬ fs.SourceBelow path entry [] := by
  intro h
  obtain ⟨name, hname, -⟩ := h.named
  cases hname

theorem sourceBelow_singleton_iff {listing : Listing} (hdistinct : (listing.map Prod.fst).Nodup)
    {name : String} :
    fs.SourceBelow path (.directory listing) [name] ↔
      ∃ e, (name, e) ∈ listing ∧ fs.isFileIn path (name, e) = true
        ∧ isSourceName name = true := by
  have hbelow : ∀ e, (Entry.directory listing).below? [name] = some e ↔ (name, e) ∈ listing := by
    intro e
    rw [Entry.below?_cons, Entry.listing?, Option.bind_some, ← lookup_eq_some_iff_mem hdistinct]
    cases listing.lookup name <;> simp [Entry.below?_nil]
  have hcounts : ∀ e : Entry,
      fs.CountsAsFile (pathOf path [name]) e.node ↔ fs.isFileIn path (name, e) = true := by
    intro e
    cases e <;> simp [CountsAsFile, isFileIn, pathOf, Entry.node]
  constructor
  · intro h
    obtain ⟨e, he, hfile⟩ := h.counts
    obtain ⟨last, hlast, hname⟩ := h.named
    cases hlast
    exact ⟨e, (hbelow e).1 he, (hcounts e).1 hfile, isSourceName_iff.2 hname⟩
  · intro h
    obtain ⟨e, he, hfile, hname⟩ := h
    exact ⟨⟨e, (hbelow e).2 he, (hcounts e).2 hfile⟩, fun d hd => (List.not_mem_nil hd).elim,
      name, rfl, isSourceName_iff.1 hname⟩

theorem sourceBelow_cons_iff {listing : Listing} (hdistinct : (listing.map Prod.fst).Nodup)
    {name : String} {names : List String} (hne : names ≠ []) :
    fs.SourceBelow path (.directory listing) (name :: names) ↔
      isEntered name = true
        ∧ ∃ e, (name, e) ∈ listing ∧ fs.SourceBelow (joinPath path name) e names := by
  have hbelow : ∀ inner, (Entry.directory listing).below? (name :: names) = some inner ↔
      ∃ e, (name, e) ∈ listing ∧ e.below? names = some inner := by
    intro inner
    rw [Entry.below?_cons, Entry.listing?, Option.bind_some, Option.bind_eq_some_iff]
    simp only [lookup_eq_some_iff_mem hdistinct]
  have hdrop : (name :: names).dropLast = name :: names.dropLast := List.dropLast_cons_of_ne_nil hne
  have hlast : (name :: names).getLast? = names.getLast? := by
    rw [← List.singleton_append, List.getLast?_append_of_ne_nil _ hne]
  constructor
  · intro h
    obtain ⟨inner, hinner, hfile⟩ := h.counts
    obtain ⟨e, he, hrest⟩ := (hbelow inner).1 hinner
    have hentered := h.entered
    rw [hdrop, List.forall_mem_cons] at hentered
    have hnamed := h.named
    rw [hlast] at hnamed
    exact ⟨isEntered_iff.2 hentered.1, e, he, ⟨inner, hrest, hfile⟩, hentered.2, hnamed⟩
  · intro h
    obtain ⟨hentered, e, he, hsource⟩ := h
    obtain ⟨inner, hinner, hfile⟩ := hsource.counts
    refine ⟨⟨inner, (hbelow inner).2 ⟨e, he, hinner⟩, hfile⟩, ?_, ?_⟩
    · rw [hdrop, List.forall_mem_cons]
      exact ⟨isEntered_iff.1 hentered, hsource.entered⟩
    · rw [hlast]
      exact hsource.named

theorem sourcesOfEach_eq_map (path : String) (listing : Listing) :
    fs.sourcesOfEach path listing
      = listing.map fun e => (e.1, fs.sourcesIn (joinPath path e.1) e.2) := by
  induction listing with
  | nil => rw [sourcesOfEach, List.map_nil]
  | cons e listing ih => rw [sourcesOfEach, ih, List.map_cons]

/-- Nothing is below what lists nothing. -/
theorem not_sourceBelow_of_listing?_eq_none {entry : Entry} (h : entry.listing? = none)
    {names : List String} : ¬ fs.SourceBelow path entry names := by
  cases names with
  | nil => exact not_sourceBelow_nil
  | cons name names =>
    intro hsource
    obtain ⟨e, he, -⟩ := hsource.counts
    rw [Entry.below?_cons, h] at he
    cases he

theorem sourcesIn_of_listing?_eq_none {entry : Entry} (h : entry.listing? = none) (path : String) :
    fs.sourcesIn path entry = [] := by
  cases entry with
  | file bytes => simp [sourcesIn]
  | refused fault => simp [sourcesIn]
  | link target => simp [sourcesIn]
  | directory listing => cases h

section Directory

variable {listing : Listing} (located : String × Entry → String → List (List String))

/-- The names of the source files that a directory lists. -/
def ownNames (fs : FileSystem) (path : String) (listing : Listing) : List (List String) :=
  (byName (listing.filter fun e => fs.isFileIn path e && isSourceName e.1)).map fun e => [e.1]

/-- The names of the source files in its directories, given those in
each. -/
def deepNames (path : String) (listing : Listing) : List (List String) :=
  ((byName listing).filter (isEntered ·.1)).flatMap fun e =>
    (located e (joinPath path e.1)).map (e.1 :: ·)

theorem mem_ownNames {names : List String} :
    names ∈ fs.ownNames path listing ↔
      ∃ e ∈ listing, fs.isFileIn path e = true ∧ isSourceName e.1 = true ∧ [e.1] = names := by
  simp only [ownNames, List.mem_map, mem_byName, List.mem_filter, Bool.and_eq_true, and_assoc]

theorem mem_deepNames {names : List String} :
    names ∈ deepNames located path listing ↔
      ∃ e ∈ listing, isEntered e.1 = true
        ∧ ∃ rest ∈ located e (joinPath path e.1), e.1 :: rest = names := by
  simp only [deepNames, List.mem_flatMap, List.mem_filter, mem_byName, List.mem_map, and_assoc]

variable {located}

theorem sourcesIn_directory
    (h : ∀ e ∈ listing, ∀ path, fs.sourcesIn path e.2 = (located e path).map (pathOf path)) :
    fs.sourcesIn path (.directory listing)
      = (fs.ownNames path listing ++ deepNames located path listing).map (pathOf path) := by
  rw [sourcesIn, sourcesOfEach_eq_map, byName_map, List.map_append]
  congr 1
  · rw [ownSources, ownNames, List.map_map]
    rfl
  · rw [deepNames, List.filter_map, List.flatMap_map, List.map_flatMap]
    refine List.flatMap_congr fun e he => ?_
    have hmem := mem_byName.1 (List.mem_filter.1 he).1
    rw [h e hmem, List.map_map]
    rfl

theorem pairwise_names (hdistinct : (listing.map Prod.fst).Nodup)
    (horder : ∀ e ∈ listing, ∀ path, (located e path).Pairwise Before)
    (hne : ∀ e ∈ listing, ∀ path, [] ∉ located e path) :
    (fs.ownNames path listing ++ deepNames located path listing).Pairwise Before := by
  have hdeep : ∀ e ∈ (byName listing).filter (isEntered ·.1), ∀ names ∈
      (located e (joinPath path e.1)).map (e.1 :: ·), ∃ next rest, names = e.1 :: next :: rest := by
    intro e he names hnames
    have hmem := mem_byName.1 (List.mem_filter.1 he).1
    obtain ⟨rest, hrest, rfl⟩ := List.mem_map.1 hnames
    cases rest with
    | nil => exact absurd hrest (hne e hmem _)
    | cons next rest => exact ⟨next, rest, rfl⟩
  rw [List.pairwise_append]
  refine ⟨?_, ?_, ?_⟩
  · -- files of the directory itself
    have hfiles : ((listing.filter fun e => fs.isFileIn path e && isSourceName e.1).map
        Prod.fst).Nodup := (List.filter_sublist.map Prod.fst).nodup hdistinct
    rw [ownNames, List.pairwise_map]
    exact (pairwise_byName hfiles).imp fun h => .files h
  · -- files further down
    rw [deepNames, List.pairwise_flatMap]
    constructor
    · intro e he
      rw [List.pairwise_map]
      exact (horder e (mem_byName.1 (List.mem_filter.1 he).1) _).imp fun h => .inside h
    · have hnames := ((pairwise_byName hdistinct).filter (isEntered ·.1)).imp_of_mem
        (S := fun a b => ∀ x ∈ (located a (joinPath path a.1)).map (a.1 :: ·),
          ∀ y ∈ (located b (joinPath path b.1)).map (b.1 :: ·), Before x y)
      refine hnames fun {a b} ha hb hlt x hx y hy => ?_
      obtain ⟨_, _, rfl⟩ := hdeep a ha x hx
      obtain ⟨_, _, rfl⟩ := hdeep b hb y hy
      exact .directories hlt
  · intro x hx y hy
    obtain ⟨a, -, -, -, rfl⟩ := mem_ownNames.1 hx
    rw [deepNames, List.mem_flatMap] at hy
    obtain ⟨b, hb, hy⟩ := hy
    obtain ⟨_, _, rfl⟩ := hdeep b hb y hy
    exact .first

theorem mem_names_iff (hdistinct : (listing.map Prod.fst).Nodup)
    (hmem : ∀ e ∈ listing, ∀ path names,
      names ∈ located e path ↔ fs.SourceBelow path e.2 names) (names : List String) :
    names ∈ fs.ownNames path listing ++ deepNames located path listing ↔
      fs.SourceBelow path (.directory listing) names := by
  rw [List.mem_append, mem_ownNames, mem_deepNames]
  constructor
  · intro h
    obtain ⟨⟨name, e⟩, he, hfile, hname, rfl⟩ | ⟨⟨name, e⟩, he, hentered, rest, hrest, rfl⟩ := h
    · exact (sourceBelow_singleton_iff hdistinct).2 ⟨e, he, hfile, hname⟩
    · have hsource := (hmem (name, e) he _ rest).1 hrest
      have hne : rest ≠ [] := fun hnil => not_sourceBelow_nil (hnil ▸ hsource)
      exact (sourceBelow_cons_iff hdistinct hne).2 ⟨hentered, e, he, hsource⟩
  · intro h
    cases names with
    | nil => exact absurd h not_sourceBelow_nil
    | cons name names =>
      by_cases hne : names = []
      · subst hne
        obtain ⟨e, he, hfile, hname⟩ := (sourceBelow_singleton_iff hdistinct).1 h
        exact .inl ⟨(name, e), he, hfile, hname, rfl⟩
      · obtain ⟨hentered, e, he, hsource⟩ := (sourceBelow_cons_iff hdistinct hne).1 h
        exact .inr ⟨(name, e), he, hentered, names, (hmem (name, e) he _ names).2 hsource, rfl⟩

end Directory

variable (fs) in
/-- The source files in and below an entry, each once and in order. -/
theorem sourcesIn_eq {entry : Entry} (h : entry.WellFormed) :
    ∀ path : String, ∃ located : List (List String),
      fs.sourcesIn path entry = located.map (pathOf path)
        ∧ located.Pairwise Before
        ∧ ∀ names, names ∈ located ↔ fs.SourceBelow path entry names := by
  have hnone : ∀ entry : Entry, entry.listing? = none → ∀ path : String,
      ∃ located : List (List String), fs.sourcesIn path entry = located.map (pathOf path)
        ∧ located.Pairwise Before
        ∧ ∀ names, names ∈ located ↔ fs.SourceBelow path entry names := by
    intro entry hentry path
    refine ⟨[], sourcesIn_of_listing?_eq_none hentry path, .nil, fun names => ?_⟩
    simp [not_sourceBelow_of_listing?_eq_none hentry]
  induction h with
  | file bytes => exact hnone _ rfl
  | refused fault => exact hnone _ rfl
  | link target => exact hnone _ rfl
  | @directory listing hdistinct hnamed hinside ih =>
    intro path
    choose! located hpaths horder hmem using ih
    have hne : ∀ e ∈ listing, ∀ path, [] ∉ located e path := fun e he path h =>
      not_sourceBelow_nil ((hmem e he path []).1 h)
    exact ⟨_, sourcesIn_directory hpaths, pairwise_names hdistinct horder hne,
      mem_names_iff hdistinct hmem⟩

/-- The source files below the directory that a path leads to. -/
theorem sources_eq (hwf : fs.WellFormed) (path : String) :
    ∃ located : List (List String),
      fs.sources path = located.map (pathOf path)
        ∧ located.Pairwise Before
        ∧ ∀ names, names ∈ located ↔ fs.IsSource path names := by
  unfold sources IsSource
  cases hfind : fs.find path with
  | error e =>
    refine ⟨[], rfl, .nil, fun names => ?_⟩
    simp
  | ok entry =>
    obtain ⟨r, -, hbelow⟩ := find_eq_ok_iff.1 hfind
    have hentry : entry.WellFormed := (hwf.of_below? hbelow).1
    obtain ⟨located, hpaths, horder, hmem⟩ := fs.sourcesIn_eq hentry path
    refine ⟨located, hpaths, horder, fun names => ?_⟩
    rw [hmem]
    simp

-- ================================================================== by table

variable {names : List String}

/-- What is found is told by the table. -/
theorem isSource_iff :
    fs.IsSource path names ↔
      ∃ r n, fs.locate path = .ok r ∧ fs.at? (r.1 ++ names) = some n
        ∧ fs.CountsAsFile (pathOf path names) n
        ∧ (∀ name ∈ names.dropLast, Entered name)
        ∧ ∃ name, names.getLast? = some name ∧ ['.', 'c', 's'] <:+ name.toList := by
  have hat : ∀ {r : List String × Nat} {entry : Entry}, fs.root.entry.below? r.1 = some entry →
      fs.at? (r.1 ++ names) = (entry.below? names).map Entry.node := by
    intro r entry hentry
    rw [at?, Entry.below?_append, hentry, Option.bind_some]
  constructor
  · intro h
    obtain ⟨entry, hfind, ⟨e, he, hcounts⟩, hentered, hnamed⟩ := h
    obtain ⟨r, hlocate, hentry⟩ := find_eq_ok_iff.1 hfind
    exact ⟨r, e.node, hlocate, by rw [hat hentry, he]; rfl, hcounts, hentered, hnamed⟩
  · intro h
    obtain ⟨r, n, hlocate, hn, hcounts, hentered, hnamed⟩ := h
    cases hentry : fs.root.entry.below? r.1 with
    | none =>
      rw [at?, Entry.below?_append, hentry] at hn
      cases hn
    | some entry =>
      rw [hat hentry] at hn
      obtain ⟨e, he, rfl⟩ := Option.map_eq_some_iff.1 hn
      exact ⟨entry, find_eq_ok_iff.2 ⟨r, hlocate, hentry⟩, ⟨e, he, hcounts⟩, hentered, hnamed⟩

theorem isDirectory_of_isSource (h : fs.IsSource path names) :
    fs.isDirectory path = true := by
  obtain ⟨r, n, hlocate, hn, -, -, name, hname, -⟩ := isSource_iff.1 h
  refine isDirectory_iff.2 ⟨r, hlocate, ?_⟩
  cases names with
  | nil => cases hname
  | cons first names => exact at?_of_below hn

/-- The names of a source file are names, and there are some. -/
theorem IsSource.isName (hwf : fs.WellFormed) (h : fs.IsSource path names) :
    names ≠ [] ∧ ∀ name ∈ names, IsName name := by
  obtain ⟨entry, hfind, hsource⟩ := h
  obtain ⟨r, -, hentry⟩ := find_eq_ok_iff.1 hfind
  obtain ⟨e, he, -⟩ := hsource.counts
  exact ⟨fun hnil => not_sourceBelow_nil (hnil ▸ hsource),
    ((hwf.of_below? hentry).1.of_below? he).2⟩

end FileSystem

end QueryLint
