/-
Where paths lead, by names. Following a path from place to place comes to
what following it from names to names does (`Stands.follow`). So where a
path leads is known by names (`locate`), and with it what can be read
there (`read_eq`) and whether it is a directory (`isDirectory_iff`): all
of this depends on the table of the file system, and not on the order in
which directories list their entries.

A path that is made longer by names leads from where it led, with the
links that were left there (`locate_pathOf`), and if there are only
directories on the way, no link is followed (`leads_of_settled`).
-/
import QueryLint.Proofs.Files.Resolution

namespace QueryLint

-- ==================================================================== places

namespace FileSystem

/-- A place of a file system, with the names that lead there. -/
inductive Stands (fs : FileSystem) : List String → Place → Prop where
  | root : Stands fs [] ⟨.directory fs.entries, []⟩
  | inside {names : List String} {name : String} {listing : Listing} {above : List Entry}
    {e : Entry} (h : Stands fs names ⟨.directory listing, above⟩)
    (hname : listing.lookup name = some e) :
    Stands fs (names ++ [name]) ⟨e, .directory listing :: above⟩

variable {fs : FileSystem} {names : List String} {place : Place}

theorem Stands.below?_eq (h : fs.Stands names place) :
    fs.root.entry.below? names = some place.entry := by
  induction h with
  | root => exact Entry.below?_nil _
  | inside _ hname ih =>
    rw [Entry.below?_append, ih, Option.bind_some, Entry.below?_cons, Entry.listing?,
      Option.bind_some, hname, Option.bind_some, Entry.below?_nil]

theorem Stands.at?_eq (h : fs.Stands names place) : fs.at? names = some place.entry.node := by
  rw [at?, h.below?_eq]
  rfl

theorem Stands.at?_inside {listing : Listing} {above : List Entry}
    (h : fs.Stands names ⟨.directory listing, above⟩) (name : String) :
    fs.at? (names ++ [name]) = (listing.lookup name).map Entry.node := by
  rw [at?, Entry.below?_append, h.below?_eq, Option.bind_some, Entry.below?_cons, Entry.listing?,
    Option.bind_some]
  cases listing.lookup name with
  | none => rfl
  | some e => rw [Option.bind_some, Entry.below?_nil]

theorem Stands.top_eq (h : fs.Stands names place) : place.top = fs.root := by
  induction h with
  | root => rfl
  | inside _ _ ih =>
    rw [Place.top, List.getLastD_cons]
    exact ih

/-- A place and names that have been followed come to the same, or stop
for the same reason. -/
inductive Follows (fs : FileSystem) :
    Except FileError Place → Except FileError (List String × Nat) → Prop where
  | stop (e : FileError) : Follows fs (.error e) (.error e)
  | come {place : Place} {r : List String × Nat} (h : fs.Stands r.1 place) :
    Follows fs (.ok place) (.ok r)

/-- What is done where a link comes up. -/
def onward : Nat → Place → List String → Except FileError Place
  | 0 => fun _ _ => .error .tooManyLinks
  | links + 1 => Place.follow links

theorem follow_eq_walk (links : Nat) : Place.follow links = Place.walk (onward links) := by
  cases links with
  | zero => rfl
  | succ links => rfl

/-- One part of a path, from a place, is the move from its names. -/
theorem Stands.walk_cons (h : fs.Stands names place) (links : Nat) (part : String)
    (rest : List String) :
    match move fs.at? names part with
    | .stop e => Place.walk (onward links) place (part :: rest) = .error e
    | .go next => ∃ place', fs.Stands next place'
        ∧ Place.walk (onward links) place (part :: rest) = Place.walk (onward links) place' rest
    | .link next target => ∃ place', fs.Stands next place'
        ∧ Place.walk (onward links) place (part :: rest)
          = onward links place' (target ++ rest) := by
  obtain ⟨entry, above⟩ := place
  have hnode := h.at?_eq
  unfold move
  rw [Place.walk, hnode]
  cases entry with
  | file bytes => rfl
  | refused fault => rfl
  | link target => rfl
  | directory listing =>
    simp only [Entry.node, Entry.listing?, ne_eq, not_true_eq_false, if_false]
    by_cases hstay : part = "" ∨ part = "."
    · rw [if_pos hstay, if_pos hstay]
      exact ⟨_, h, rfl⟩
    rw [if_neg hstay, if_neg hstay]
    by_cases hup : part = ".."
    · rw [if_pos hup, if_pos hup]
      cases h with
      | root => exact ⟨_, .root, rfl⟩
      | inside hfront hname =>
        refine ⟨_, ?_, rfl⟩
        rw [List.dropLast_concat]
        exact hfront
    rw [if_neg hup, if_neg hup, h.at?_inside]
    cases hname : listing.lookup part with
    | none => rfl
    | some e =>
      cases e with
      | file bytes => exact ⟨_, h.inside hname, rfl⟩
      | refused fault => exact ⟨_, h.inside hname, rfl⟩
      | directory inner => exact ⟨_, h.inside hname, rfl⟩
      | link target =>
        refine ⟨if isAbsolute target then Place.top ⟨.directory listing, above⟩
          else ⟨.directory listing, above⟩, ?_, rfl⟩
        by_cases habs : isAbsolute target = true
        · rw [if_pos habs, if_pos habs, h.top_eq]
          exact .root
        · rw [if_neg habs, if_neg habs]
          exact h

/-- Following a path from a place is following it from its names. -/
theorem Stands.follow (h : fs.Stands names place) (links : Nat) (parts : List String) :
    fs.Follows (Place.follow links place parts) (resolve fs.at? links names parts) := by
  induction links, names, parts using resolve.induct fs.at? generalizing place with
  | case1 links names =>
    rw [follow_eq_walk, resolve_nil]
    exact .come h
  | case2 links names part rest e hmove =>
    have hwalk := h.walk_cons links part rest
    rw [hmove] at hwalk
    rw [follow_eq_walk, resolve_stop hmove, hwalk]
    exact .stop e
  | case3 names part rest next links hmove ih =>
    have hwalk := h.walk_cons links part rest
    rw [hmove] at hwalk
    obtain ⟨place', hplace, hwalk⟩ := hwalk
    rw [follow_eq_walk, resolve_go hmove, hwalk, ← follow_eq_walk]
    exact ih hplace
  | case4 names part rest next target hmove =>
    have hwalk := h.walk_cons 0 part rest
    rw [hmove] at hwalk
    obtain ⟨place', -, hwalk⟩ := hwalk
    rw [follow_eq_walk, resolve_link_zero hmove, hwalk]
    exact .stop .tooManyLinks
  | case5 names part rest next target links hmove ih =>
    have hwalk := h.walk_cons (links + 1) part rest
    rw [hmove] at hwalk
    obtain ⟨place', hplace, hwalk⟩ := hwalk
    rw [follow_eq_walk, resolve_link hmove, hwalk]
    exact ih hplace

-- ================================================================== locating

variable (fs) in
/-- The names of where a path starts. -/
def startNames (path : String) : Except FileError (List String) :=
  if isAbsolute path then .ok [] else (resolve fs.at? maxLinks [] fs.working).map Prod.fst

variable (fs) in
/-- The names of what a path leads to, and how many links are left. -/
def locate (path : String) : Except FileError (List String × Nat) :=
  if path.isEmpty then .error .missing
  else fs.startNames path >>= fun names => resolve fs.at? maxLinks names (pathParts path)

variable {path : String}

theorem start_eq (path : String) :
    (∃ e, fs.startNames path = .error e ∧ fs.start path = .error e)
      ∨ ∃ names place, fs.startNames path = .ok names ∧ fs.start path = .ok place
        ∧ fs.Stands names place := by
  unfold startNames start
  cases isAbsolute path with
  | true => exact .inr ⟨[], fs.root, rfl, rfl, .root⟩
  | false =>
    have hfollow : fs.Follows (Place.follow maxLinks fs.root fs.working)
        (resolve fs.at? maxLinks [] fs.working) := Stands.root.follow maxLinks fs.working
    rw [if_neg Bool.false_ne_true, if_neg Bool.false_ne_true]
    generalize Place.follow maxLinks fs.root fs.working = place at hfollow ⊢
    generalize resolve fs.at? maxLinks [] fs.working = names at hfollow ⊢
    cases hfollow with
    | stop e => exact .inl ⟨e, rfl, rfl⟩
    | come h => exact .inr ⟨_, _, rfl, rfl, h⟩

/-- A path leads somewhere move by move, from the root or from where the
working directory is. -/
theorem locate_eq_ok_iff {r : List String × Nat} :
    fs.locate path = .ok r ↔
      path.isEmpty = false ∧ ∃ start,
        (if isAbsolute path then start = []
          else ∃ left, Leads fs.at? maxLinks [] fs.working (start, left))
        ∧ Leads fs.at? maxLinks start (pathParts path) r := by
  unfold locate startNames
  cases path.isEmpty with
  | true => simp
  | false =>
    rw [if_neg Bool.false_ne_true, bind_eq_ok_iff]
    simp only [resolve_eq_ok_iff, true_and]
    refine exists_congr fun start => and_congr_left fun _ => ?_
    cases isAbsolute path with
    | true => simp [eq_comm]
    | false =>
      simp only [Bool.false_eq_true, if_false, ← resolve_eq_ok_iff]
      cases resolve fs.at? maxLinks [] fs.working with
      | error e => simp [Except.map]
      | ok r => simp [Except.map, Prod.ext_iff]

/-- In another file system a path leads where it leads in this, if it does
so from where it starts and starts where it does. -/
theorem locate_of_leads {fs' : FileSystem} {r : List String × Nat} (h : fs.locate path = .ok r)
    (hworking : fs'.working = fs.working)
    (hstart : ∀ start left, Leads fs.at? maxLinks start (pathParts path) r →
      Leads fs.at? maxLinks [] fs.working (start, left) →
      Leads fs'.at? maxLinks [] fs.working (start, left))
    (hpath : ∀ start, Leads fs.at? maxLinks start (pathParts path) r →
      Leads fs'.at? maxLinks start (pathParts path) r) :
    fs'.locate path = .ok r := by
  obtain ⟨hne, start, hfrom, hleads⟩ := locate_eq_ok_iff.1 h
  refine locate_eq_ok_iff.2 ⟨hne, start, ?_, hpath start hleads⟩
  split at hfrom
  · next habs => rw [if_pos habs]; exact hfrom
  · next habs =>
    obtain ⟨left, hleft⟩ := hfrom
    rw [if_neg habs, hworking]
    exact ⟨left, hstart start left hleads hleft⟩

/-- What a path leads to stands where its names lead. -/
theorem find_eq (path : String) :
    (∃ e, fs.locate path = .error e ∧ fs.find path = .error e)
      ∨ ∃ r place, fs.locate path = .ok r ∧ fs.find path = .ok place.entry
        ∧ fs.Stands r.1 place := by
  unfold locate find
  by_cases hempty : path.isEmpty = true
  · rw [if_pos hempty, if_pos hempty]
    exact .inl ⟨.missing, rfl, rfl⟩
  rw [if_neg hempty, if_neg hempty]
  obtain ⟨e, hnames, hstart⟩ | ⟨names, start, hnames, hstart, hstands⟩ := fs.start_eq path
  · rw [hnames, hstart]
    exact .inl ⟨e, rfl, rfl⟩
  · rw [hnames, hstart]
    have hfollow := hstands.follow maxLinks (pathParts path)
    show (∃ e, resolve fs.at? maxLinks names (pathParts path) = .error e
        ∧ (Place.follow maxLinks start (pathParts path) >>= fun place => pure place.entry)
          = .error e) ∨ ∃ r place, resolve fs.at? maxLinks names (pathParts path) = .ok r
        ∧ (Place.follow maxLinks start (pathParts path) >>= fun place => pure place.entry)
          = .ok place.entry ∧ fs.Stands r.1 place
    generalize Place.follow maxLinks start (pathParts path) = place at hfollow ⊢
    generalize resolve fs.at? maxLinks names (pathParts path) = r at hfollow ⊢
    cases hfollow with
    | stop e => exact .inl ⟨e, rfl, rfl⟩
    | come h => exact .inr ⟨_, _, rfl, rfl, h⟩

theorem find_eq_ok_iff {entry : Entry} :
    fs.find path = .ok entry ↔
      ∃ r, fs.locate path = .ok r ∧ fs.root.entry.below? r.1 = some entry := by
  obtain ⟨e, hlocate, hfind⟩ | ⟨r, place, hlocate, hfind, hstands⟩ := fs.find_eq path
  · simp [hlocate, hfind]
  · simp [hlocate, hfind, hstands.below?_eq]

theorem isDirectory_iff :
    fs.isDirectory path = true ↔ ∃ r, fs.locate path = .ok r ∧ fs.at? r.1 = some .directory := by
  unfold isDirectory
  obtain ⟨e, hlocate, hfind⟩ | ⟨r, place, hlocate, hfind, hstands⟩ := fs.find_eq path
  · simp [hlocate, hfind]
  · rw [hfind, hlocate]
    simp only [Except.ok.injEq, exists_eq_left', hstands.at?_eq]
    cases place.entry <;> simp [Entry.isDirectory, Entry.listing?, Entry.node]

/-- What can be read where names lead. -/
def textAt (table : List String → Option Node) (names : List String) : Except FileError String :=
  match table names with
  | some n => n.text
  | none => .error .isDirectory

theorem read_eq (path : String) : fs.read path = fs.locate path >>= fun r => textAt fs.at? r.1 := by
  unfold read bytes
  obtain ⟨e, hlocate, hfind⟩ | ⟨r, place, hlocate, hfind, hstands⟩ := fs.find_eq path
  · rw [hlocate, hfind]
    rfl
  · rw [hlocate, hfind]
    show _ = textAt fs.at? r.1
    unfold textAt
    rw [hstands.at?_eq]
    cases place.entry <;> rfl

theorem textAt_eq_ok_iff {table : List String → Option Node} {names : List String}
    {text : String} :
    textAt table names = .ok text ↔
      ∃ bytes, table names = some (.file bytes) ∧ SourceText.read bytes = text := by
  unfold textAt
  cases table names with
  | none => simp
  | some n => cases n <;> simp [Node.text]

/-- What can be read are files, and their own bytes are. -/
theorem read_eq_ok_iff {text : String} :
    fs.read path = .ok text ↔
      ∃ r bytes, fs.locate path = .ok r ∧ fs.at? r.1 = some (.file bytes)
        ∧ SourceText.read bytes = text := by
  rw [read_eq, bind_eq_ok_iff]
  simp only [textAt_eq_ok_iff, exists_and_left]

-- ============================================================= going down

/-- The empty part behind a last slash stays where it is. -/
theorem resolve_stem {start : List String} {r : List String × Nat}
    (h : resolve fs.at? maxLinks start (pathParts path) = .ok r) :
    resolve fs.at? maxLinks start (stem path) = .ok r := by
  rcases pathParts_eq_stem path with hparts | hparts
  · rw [← hparts]
    exact h
  · rw [hparts, resolve_eq_ok_iff, leads_append_iff] at h
    obtain ⟨⟨middle, left⟩, hmiddle, hlast⟩ := h
    rw [resolve_eq_ok_iff]
    cases hlast with
    | go hmove hend =>
      obtain ⟨-, ⟨-, hsame⟩ | ⟨habs, -⟩ | ⟨habs, -⟩⟩ := move_eq_go_iff.1 hmove
      · cases hend
        subst hsame
        exact hmiddle
      · exact absurd habs (by decide)
      · exact absurd (.inl rfl) habs
    | link hmove _ =>
      obtain ⟨-, habs, -⟩ := move_eq_link_iff.1 hmove
      exact absurd (.inl rfl) habs

/-- A path and names below it: the names are followed from where the path
leads, with the links that are left there. -/
theorem locate_pathOf {here names : List String} {links : Nat}
    (hlocate : fs.locate path = .ok (here, links)) (hne : names ≠ [])
    (hnames : ∀ name ∈ names, IsName name) :
    fs.locate (pathOf path names) = resolve fs.at? links here names := by
  have hpath : path ≠ "" := by
    intro h
    rw [h] at hlocate
    cases hlocate
  unfold locate at hlocate ⊢
  rw [if_neg (by simpa using hpath)] at hlocate
  obtain ⟨start, hstart, hresolve⟩ := bind_eq_ok_iff.1 hlocate
  have hstart' : fs.startNames (pathOf path names) = .ok start := by
    rw [← hstart]
    unfold startNames
    rw [isAbsolute_pathOf hpath]
  rw [if_neg (by simpa using pathOf_ne_empty hpath), hstart', pathParts_pathOf hne hpath hnames]
  show resolve fs.at? maxLinks start (stem path ++ names) = _
  rw [resolve_append, resolve_stem hresolve]
  rfl

/-- Names lead through directories without a link. -/
theorem leads_of_settled {links : Nat} {names : List String}
    (hnames : ∀ name ∈ names, IsName name) :
    ∀ {here : List String}, Settled fs.at? (here ++ names) →
      Leads fs.at? links here names (here ++ names, links) := by
  induction names with
  | nil =>
    intro here _
    rw [List.append_nil]
    exact .here links here
  | cons name names ih =>
    intro here h
    obtain ⟨n, hn, -⟩ := id h
    have hname := hnames name List.mem_cons_self
    have hnext : Settled fs.at? (here ++ [name]) := by
      cases names with
      | nil => exact h
      | cons next names =>
        rw [← List.singleton_append, ← List.append_assoc] at hn
        exact settled_of_directory (at?_of_below hn)
    have hmove : move fs.at? here name = .go (here ++ [name]) :=
      move_eq_go_iff.2 ⟨at?_of_below hn, .inr (.inr
        ⟨not_or.2 ⟨hname.ne_empty, hname.ne_dot⟩, hname.ne_dots, rfl, hnext⟩)⟩
    rw [← List.singleton_append, ← List.append_assoc] at h ⊢
    exact .go hmove (ih (fun m hm => hnames m (List.mem_cons_of_mem name hm)) h)

/-- From a directory, names that lead through directories alone lead to
what stands there, and nowhere else. -/
theorem eq_of_leads_of_settled {links : Nat} {here names : List String}
    (hnames : ∀ name ∈ names, IsName name) (hsettled : Settled fs.at? (here ++ names))
    {r : List String × Nat} (h : Leads fs.at? links here names r) : r.1 = here ++ names := by
  have hthere : Leads fs.at? links here names (here ++ names, links) :=
    leads_of_settled hnames hsettled
  rw [← resolve_eq_ok_iff, resolve_eq_ok_iff.2 h] at hthere
  cases hthere
  rfl

/-- What is above a directory is a directory. -/
theorem at?_dropLast {names : List String} (h : fs.at? names = some .directory) :
    fs.at? names.dropLast = some .directory := by
  rcases List.eq_nil_or_concat names with hnil | ⟨front, name, hconcat⟩
  · rw [hnil]
    exact fs.at?_nil
  · rw [List.concat_eq_append] at hconcat
    rw [hconcat] at h ⊢
    rw [List.dropLast_concat]
    exact at?_of_below h

/-- No path ends at a link. -/
theorem settled_of_leads {links : Nat} {names parts : List String} {r : List String × Nat}
    (h : Leads fs.at? links names parts r) (hstart : Settled fs.at? names) :
    Settled fs.at? r.1 := by
  induction h with
  | here links names => exact hstart
  | go hmove _ ih =>
    obtain ⟨hdir, ⟨-, rfl⟩ | ⟨-, rfl⟩ | ⟨-, -, rfl, hnext⟩⟩ := move_eq_go_iff.1 hmove
    · exact ih hstart
    · exact ih (settled_of_directory (at?_dropLast hdir))
    · exact ih hnext
  | link hmove _ ih =>
    obtain ⟨hdir, -, -, target, -, rfl, -⟩ := move_eq_link_iff.1 hmove
    refine ih (settled_of_directory ?_)
    split
    · exact fs.at?_nil
    · exact hdir

/-- What stands below a directory and is not a link is read by its path. -/
theorem read_of_at? {here names : List String} {links : Nat}
    (hlocate : fs.locate path = .ok (here, links)) (hne : names ≠ [])
    (hnames : ∀ name ∈ names, IsName name) {n : Node} (hn : fs.at? (here ++ names) = some n)
    (hnode : ∀ target, n ≠ .link target) : fs.read (pathOf path names) = n.text := by
  have hleads : Leads fs.at? links here names (here ++ names, links) :=
    leads_of_settled hnames ⟨n, hn, hnode⟩
  rw [FileSystem.read_eq, locate_pathOf hlocate hne hnames, resolve_eq_ok_iff.2 hleads]
  show textAt fs.at? (here ++ names) = _
  rw [textAt, hn]

end FileSystem

end QueryLint
