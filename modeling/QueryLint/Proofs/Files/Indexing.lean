/-
What comes of taking the source files below a directory into a
compilation, for a parser that has a result for every text.

Each source file that can be read adds its document, and each that
cannot adds a warning and nothing else, in the order in which they are
found (`ofSources_map`). Which files these are and their order is a
matter of the file system alone (`sources_eq`), and neither the order in
which directories list their entries nor a file that cannot be read has a
part in it. `ofDirectory_exact` puts this together.
-/
import QueryLint.CommandLine
import QueryLint.Proofs.Files.Relisting
import QueryLint.Proofs.Files.Removal

namespace QueryLint

namespace FileSystem

-- ================================================================== one file

variable (parser : String → Parse) (fs : FileSystem)

/-- The document of the file at a path, if it can be read. -/
def document? (path : String) : Option Document :=
  match fs.read path with
  | .ok text => some ⟨path, .ofText text, (parser text).tree⟩
  | .error _ => none

/-- The warning about the file at a path, if it cannot be read. -/
def warning? (path : String) : Option Event :=
  match fs.read path with
  | .ok _ => none
  | .error e => some (.unreadable path (e.message path))

/-- All that is told of the file at a path. -/
def told (path : String) : List Event :=
  match fs.read path with
  | .ok text => if (parser text).hasErrors then [.syntaxErrors path] else []
  | .error e => [.unreadable path (e.message path)]

/-- A compilation with the files at some paths taken in. -/
def loadedWith (comp : Compilation) (paths : List String) : Loaded where
  compilation := ⟨comp.documents ++ paths.filterMap (fs.document? parser)⟩
  events := paths.flatMap (fs.told parser)
  added := (paths.filterMap (fs.document? parser)).length

variable {parser fs}

theorem add_eq (loaded : Loaded) (path : String) :
    Loaded.add (fun text => some (parser text)) loaded (path, fs.read path)
      = some ⟨⟨loaded.compilation.documents ++ (fs.document? parser path).toList⟩,
          loaded.events ++ fs.told parser path,
          loaded.added + (fs.document? parser path).toList.length⟩ := by
  unfold document? told
  cases fs.read path with
  | ok text => rfl
  | error e => simp [Loaded.add]

/-- Files are taken in one by one. -/
theorem ofSources_map (comp : Compilation) (paths : List String) :
    Loaded.ofSources (fun text => some (parser text)) comp (paths.map fun p => (p, fs.read p))
      = some (fs.loadedWith parser comp paths) := by
  have hfold : ∀ loaded : Loaded,
      (paths.map fun p => (p, fs.read p)).foldlM (Loaded.add fun text => some (parser text)) loaded
        = some ⟨⟨loaded.compilation.documents ++ paths.filterMap (fs.document? parser)⟩,
            loaded.events ++ paths.flatMap (fs.told parser),
            loaded.added + (paths.filterMap (fs.document? parser)).length⟩ := by
    induction paths with
    | nil => intro loaded; simp
    | cons path paths ih =>
      intro loaded
      rw [List.map_cons, List.foldlM_cons, add_eq, Option.bind_eq_bind, Option.bind_some, ih]
      cases hdoc : fs.document? parser path with
      | none => simp [hdoc]
      | some doc => simp [hdoc]; omega
  have hall := hfold (Loaded.start comp)
  simpa [Loaded.ofSources, Loaded.start, loadedWith] using hall

theorem filter_told (path : String) :
    (fs.told parser path).filter (fun e => e.level == .warning) = (fs.warning? path).toList := by
  unfold told warning?
  cases fs.read path with
  | ok text =>
    cases herrors : (parser text).hasErrors with
    | true => simp [herrors, Event.level, Level.debug, Level.warning]
    | false => simp [herrors]
  | error e => rfl

/-- Only files that can be read matter for the documents. -/
theorem document?_congr {other : FileSystem} {path : String}
    (h : ∀ text, other.read path = .ok text ↔ fs.read path = .ok text) :
    other.document? parser path = fs.document? parser path := by
  unfold document?
  cases hread : fs.read path with
  | ok text => rw [(h text).2 hread]
  | error e =>
    cases hother : other.read path with
    | ok text =>
      rw [(h text).1 hother] at hread
      cases hread
    | error e' => rfl

-- =============================================================== a directory

theorem ofDirectory_eq {comp : Compilation} {path : String} {located : List (List String)}
    (h : fs.sources path = located.map (pathOf path)) :
    Loaded.ofDirectory (fun text => some (parser text)) fs comp path
      = some (fs.loadedWith parser comp (located.map (pathOf path))) := by
  rw [Loaded.ofDirectory, scan, ofSources_map, h]

end FileSystem

namespace Loaded

/-- The source files below a directory have been taken into a
compilation; `located` are their names, in order. -/
structure IndexedExactly (parser : String → Parse) (fs : FileSystem) (comp : Compilation)
    (path : String) (located : List (List String)) (loaded : Loaded) : Prop where
  indexed : ofDirectory (fun text => some (parser text)) fs comp path = some loaded
  /-- The files are exactly the source files. -/
  mem_located : ∀ names, names ∈ located ↔ fs.IsSource path names
  /-- Each comes once, and in order. -/
  ordered : located.Pairwise Before
  /-- Each that can be read adds its document. -/
  documents : loaded.compilation.documents
    = comp.documents ++ located.filterMap fun names => fs.document? parser (pathOf path names)
  /-- The documents that were added are counted. -/
  counted : loaded.compilation.documents.length = comp.documents.length + loaded.added
  /-- Each that cannot be read gives one warning, and nothing else does. -/
  warnings : loaded.events.filter (fun e => e.level == .warning)
    = located.filterMap fun names => fs.warning? (pathOf path names)
  /-- A file whose bytes the system gives can be read, and its own bytes
  are. -/
  readable : ∀ entry names bytes, fs.find path = .ok entry → names ≠ [] →
    entry.below? names = some (.file bytes) →
    fs.read (pathOf path names) = .ok (SourceText.read bytes)
  /-- A file that the system refuses cannot be read. -/
  refused : ∀ entry names fault, fs.find path = .ok entry → names ≠ [] →
    entry.below? names = some (.refused fault) →
    fs.read (pathOf path names) = .error (.fault fault)
  /-- Where there is no directory nothing is done. -/
  nothing : fs.isDirectory path = false → located = [] ∧ loaded = start comp
  /-- A file that cannot be read is refused, and then the directory is
  there without it, or it is a link. Without it the directory, if it is
  there, comes to the same documents. -/
  unreadable : ∀ names e, fs.IsSource path names → fs.read (pathOf path names) = .error e →
    ∃ here links, fs.locate path = .ok (here, links)
      ∧ ((∃ fault, fs.at? (here ++ names) = some (.refused fault))
            ∧ (∃ entry, (fs.remove (here ++ names)).find path = .ok entry)
          ∨ ∃ target, fs.at? (here ++ names) = some (.link target))
      ∧ ∀ entry, (fs.remove (here ++ names)).find path = .ok entry →
        entry.below? names = none
          ∧ ∃ loaded', ofDirectory (fun text => some (parser text)) (fs.remove (here ++ names))
                comp path = some loaded'
            ∧ loaded'.compilation = loaded.compilation ∧ loaded'.added = loaded.added
  /-- The order in which directories list their entries does not matter. -/
  relisted : ∀ other, fs.Relisted other →
    ofDirectory (fun text => some (parser text)) other comp path = some loaded

open FileSystem

variable {parser : String → Parse} {fs : FileSystem} {comp : Compilation} {path : String}
  {located : List (List String)}

/-- Another listing finds the same files, and reads the same in them. -/
theorem ofDirectory_relisted (hwf : fs.WellFormed) (hordered : located.Pairwise Before)
    (hmem : ∀ names, names ∈ located ↔ fs.IsSource path names) {other : FileSystem}
    (h : fs.Relisted other) :
    ofDirectory (fun text => some (parser text)) other comp path
      = some (fs.loadedWith parser comp (located.map (pathOf path))) := by
  obtain ⟨found, hfound, hordered', hmem'⟩ := sources_eq (h.wellFormed hwf) path
  have hsame : found = located := by
    refine eq_of_mem_iff hordered' hordered fun names => ?_
    rw [hmem', hmem, h.isSource_iff hwf]
  have hread : other.read = fs.read := funext fun p => h.read_eq hwf p
  rw [ofDirectory_eq hfound, hsame]
  unfold loadedWith document? told
  rw [hread]

/-- Without a file that cannot be read, the others add what they did. -/
theorem ofDirectory_remove (hwf : fs.WellFormed) (hordered : located.Pairwise Before)
    (hmem : ∀ names, names ∈ located ↔ fs.IsSource path names) {names here : List String}
    {links : Nat} (h : fs.Unreadable path names here links) {entry : Entry}
    (hfind : (fs.remove (here ++ names)).find path = .ok entry) :
    ∃ loaded, ofDirectory (fun text => some (parser text)) (fs.remove (here ++ names)) comp path
        = some loaded
      ∧ loaded.compilation
        = (fs.loadedWith parser comp (located.map (pathOf path))).compilation
      ∧ loaded.added = (fs.loadedWith parser comp (located.map (pathOf path))).added := by
  obtain ⟨found, hfound, hordered', hmem'⟩ := sources_eq (hwf.remove (here ++ names)) path
  have hrest : found = located.filter (· ≠ names) := by
    refine eq_of_mem_iff hordered' (hordered.filter _) fun other => ?_
    rw [hmem', h.isSource_remove_iff hwf hfind, List.mem_filter, hmem]
    simp
  have hdocuments : (found.map (pathOf path)).filterMap
        ((fs.remove (here ++ names)).document? parser)
      = (located.map (pathOf path)).filterMap (fs.document? parser) := by
    rw [hrest, List.filterMap_map, List.filterMap_map, List.filterMap_filter]
    refine List.filterMap_congr fun other hother => ?_
    by_cases hgone : other = names
    · have hnone : fs.document? parser (pathOf path names) = none := by
        unfold document?
        cases hread : fs.read (pathOf path names) with
        | ok text => exact absurd hread (h.unread text)
        | error e => rfl
      simp [hgone, hnone]
    · obtain ⟨hne, hnames⟩ := ((hmem other).1 hother).isName hwf
      have hsame : (fs.remove (here ++ names)).document? parser (pathOf path other)
          = fs.document? parser (pathOf path other) :=
        document?_congr fun text => h.read_remove_iff hwf hne hnames hfind
      simp [hgone, hsame]
  refine ⟨_, ofDirectory_eq hfound, ?_, ?_⟩
  · unfold loadedWith
    rw [hdocuments]
  · unfold loadedWith
    rw [hdocuments]

theorem filter_events (paths : List String) :
    (fs.loadedWith parser comp paths).events.filter (fun e => e.level == .warning)
      = paths.filterMap fs.warning? := by
  rw [loadedWith, List.filter_flatMap, List.filterMap_eq_flatMap_toList]
  exact List.flatMap_congr fun path _ => filter_told path

/-- An entry of a directory that is not a link is read by its path. -/
theorem read_of_below? (hwf : fs.WellFormed) {entry e : Entry} {names : List String}
    (hfind : fs.find path = .ok entry) (hne : names ≠ []) (hbelow : entry.below? names = some e)
    (hlink : ∀ target, e.node ≠ .link target) : fs.read (pathOf path names) = e.node.text := by
  obtain ⟨⟨here, links⟩, hlocate, hentry⟩ := find_eq_ok_iff.1 hfind
  have hnames := ((hwf.of_below? hentry).1.of_below? hbelow).2
  refine read_of_at? hlocate hne hnames ?_ hlink
  rw [at?, Entry.below?_append, hentry, Option.bind_some, hbelow]
  rfl

/-- The source files below a directory are taken in, all of them and
nothing else, in an order that depends on their names alone. -/
theorem ofDirectory_exact (parser : String → Parse) (fs : FileSystem) (hwf : fs.WellFormed)
    (comp : Compilation) (path : String) :
    ∃ located loaded, IndexedExactly parser fs comp path located loaded := by
  obtain ⟨located, hpaths, hordered, hmem⟩ := sources_eq hwf path
  refine ⟨located, _, ofDirectory_eq hpaths, hmem, hordered, ?_, ?_, ?_, ?_, ?_, ?_, ?_, ?_⟩
  · rw [loadedWith, List.filterMap_map]
    rfl
  · rw [loadedWith, List.length_append]
  · rw [filter_events, List.filterMap_map]
    rfl
  · intro entry names bytes hfind hne hfile
    exact read_of_below? hwf hfind hne hfile (by simp [Entry.node])
  · intro entry names fault hfind hne hrefused
    exact read_of_below? hwf hfind hne hrefused (by simp [Entry.node])
  · intro hnone
    have hnil : located = [] := by
      refine List.eq_nil_iff_forall_not_mem.2 fun names hnames => ?_
      rw [isDirectory_of_isSource ((hmem names).1 hnames)] at hnone
      cases hnone
    refine ⟨hnil, ?_⟩
    rw [hnil]
    simp [loadedWith, start]
  · intro names e hsource hread
    obtain ⟨⟨here, links⟩, n, hlocate, -⟩ := isSource_iff.1 hsource
    have hunreadable : fs.Unreadable path names here links :=
      ⟨hlocate, hsource, fun text htext => by rw [hread] at htext; cases htext⟩
    refine ⟨here, links, hlocate, ?_, fun entry hfind => ⟨hunreadable.below?_remove hwf hfind,
      ofDirectory_remove hwf hordered hmem hunreadable hfind⟩⟩
    rcases hunreadable.refused_or_link hwf with ⟨fault, hrefused⟩ | ⟨target, hlink, -⟩
    · exact .inl ⟨⟨fault, hrefused⟩, hunreadable.exists_find_remove hwf hrefused⟩
    · exact .inr ⟨target, hlink⟩
  · exact fun other h => ofDirectory_relisted hwf hordered hmem h

/-- What comes of an empty text. -/
def emptyParse : Parse := ⟨.node ⟨.other "compilation_unit", true, none, 0, 0⟩ [], false⟩

/-- A directory with empty files in it and below it, one that there is no
right to read, a hidden directory and one for build output, and links:
one to a directory, one to a file and one that leads nowhere. -/
def mixedTree : FileSystem where
  entries := [("work", .directory [
    ("p", .directory [
      ("sub", .directory [("up.cs", .link ".."), ("c.cs", .file [])]),
      ("b.cs", .file []),
      ("bin", .directory [("d.cs", .file [])]),
      (".git", .directory [("e.cs", .file [])]),
      ("a.cs", .link "gone"),
      ("Z.cs", .link "/work/p/sub/c.cs"),
      ("k.cs", .refused ⟨13, "Permission denied", false⟩),
      ("notes.txt", .file [])])])]
  working := ["work"]

theorem mixedTree_indexed :
    mixedTree.WellFormed ∧ ∃ located loaded,
      IndexedExactly (fun _ => emptyParse) mixedTree .empty "p" located loaded := by
  have hwf : mixedTree.WellFormed := by
    have hfile : (Entry.file []).WellFormed := .file []
    have hsub : (Entry.directory [("up.cs", .link ".."), ("c.cs", .file [])]).WellFormed :=
      .directory (by decide) (by decide) (by simp [Entry.WellFormed.link, hfile])
    have hbin : (Entry.directory [("d.cs", .file [])]).WellFormed :=
      .directory (by decide) (by decide) (by simp [hfile])
    have hgit : (Entry.directory [("e.cs", .file [])]).WellFormed :=
      .directory (by decide) (by decide) (by simp [hfile])
    refine .directory (by decide) (by decide) ?_
    simp only [mixedTree, List.forall_mem_singleton]
    refine .directory (by decide) (by decide) ?_
    rw [List.forall_mem_singleton]
    refine .directory (by decide) (by decide) ?_
    simp [Entry.WellFormed.link, Entry.WellFormed.refused, hfile, hsub, hbin, hgit]
  exact ⟨hwf, ofDirectory_exact (fun _ => emptyParse) mixedTree hwf .empty "p"⟩

end Loaded

end QueryLint
