/-
A file system without one of its entries. The entry is missing from the
table, with all below it (`at?_remove`). Where this is a source file that
cannot be read, the other files are found as before and as much is read
in them (`Unreadable.isSource_remove_iff`, `Unreadable.read_remove_iff`),
as long as the directory of the search is still there.

# The file and the path to its directory

A file that is refused is on no path to a directory, so the directory is
still there without it (`Unreadable.exists_find_remove`). A link may be
on the path to the directory, and so often that no link is left to follow
it once more. Then it cannot be read there, and yet without it there is
no such directory.
-/
import QueryLint.Proofs.Files.Walk

namespace QueryLint

-- =============================================================== taking away

/-- An entry without what names lead to. -/
def Entry.remove : (gone : List String) → Entry → Entry
  | [name], directory listing => directory (listing.filter fun p => p.1 != name)
  | name :: rest, directory listing =>
    directory (listing.map fun p => (p.1, if p.1 = name then remove rest p.2 else p.2))
  | _, e => e

/-- A file system without what names lead to from the root. -/
def FileSystem.remove (fs : FileSystem) (gone : List String) : FileSystem :=
  { fs with entries := (fs.root.entry.remove gone).listing?.getD [] }

theorem lookup_filter_ne (listing : Listing) (gone name : String) :
    (listing.filter fun p => p.1 != gone).lookup name
      = if name = gone then none else listing.lookup name := by
  induction listing with
  | nil => simp
  | cons p listing ih =>
    by_cases hp : p.1 = gone
    · have hfilter : ((p :: listing).filter fun p => p.1 != gone)
          = listing.filter fun p => p.1 != gone := List.filter_cons_of_neg (by simp [hp])
      rw [hfilter, ih, List.lookup_cons]
      by_cases hname : name = gone
      · rw [if_pos hname, if_pos hname]
      · rw [if_neg hname, if_neg hname, beq_false_of_ne (hp ▸ hname)]
    · rw [List.filter_cons_of_pos (by simp [hp]), List.lookup_cons, List.lookup_cons, ih]
      by_cases hname : name = p.1
      · simp [hname, hp]
      · rw [beq_false_of_ne hname]

theorem lookup_map_snd (listing : Listing) (f : String × Entry → Entry) (name : String) :
    (listing.map fun p => (p.1, f p)).lookup name
      = (listing.lookup name).map fun e => f (name, e) := by
  induction listing with
  | nil => rfl
  | cons p listing ih =>
    rw [List.map_cons, List.lookup_cons, List.lookup_cons, ih]
    by_cases hname : name = p.1
    · rw [hname, beq_self_eq_true]
      rfl
    · rw [beq_false_of_ne hname]

namespace Entry

theorem remove_singleton (name : String) (listing : Listing) :
    (directory listing).remove [name] = directory (listing.filter fun p => p.1 != name) := by
  rw [remove]

theorem remove_cons {rest : List String} (hrest : rest ≠ []) (name : String) (listing : Listing) :
    (directory listing).remove (name :: rest)
      = directory (listing.map fun p => (p.1, if p.1 = name then p.2.remove rest else p.2)) := by
  cases rest with
  | nil => exact absurd rfl hrest
  | cons next rest => rw [remove]; simp

theorem remove_of_listing?_eq_none {e : Entry} (h : e.listing? = none) (gone : List String) :
    e.remove gone = e := by
  cases e with
  | file bytes => simp [remove]
  | refused fault => simp [remove]
  | link target => simp [remove]
  | directory listing => cases h

/-- It stays what it is. -/
theorem node_remove (gone : List String) (e : Entry) : (e.remove gone).node = e.node := by
  cases e with
  | file bytes => rw [remove_of_listing?_eq_none rfl]
  | refused fault => rw [remove_of_listing?_eq_none rfl]
  | link target => rw [remove_of_listing?_eq_none rfl]
  | directory listing =>
    cases gone with
    | nil => simp [remove]
    | cons name rest =>
      by_cases hrest : rest = []
      · rw [hrest, remove_singleton]
        rfl
      · rw [remove_cons hrest]
        rfl

theorem eq_directory {e : Entry} {listing : Listing} (h : e.listing? = some listing) :
    e = directory listing := by
  cases e with
  | file bytes => cases h
  | refused fault => cases h
  | link target => cases h
  | directory listing => cases h; rfl

/-- One name further down, something is gone only behind the first of the
names that lead to it. -/
theorem below?_remove_cons (name : String) (rest : List String) (listing : Listing)
    (other : String) (names : List String) :
    ((directory listing).remove (name :: rest)).below? (other :: names)
      = if other ≠ name then (directory listing).below? (other :: names)
        else if rest = [] then none
        else (listing.lookup other).bind fun e => (e.remove rest).below? names := by
  by_cases hrest : rest = []
  · subst hrest
    rw [remove_singleton, below?_cons, below?_cons, listing?, listing?, Option.bind_some,
      Option.bind_some, lookup_filter_ne]
    by_cases hother : other = name
    · simp [hother]
    · simp [hother]
  · rw [remove_cons hrest, below?_cons, below?_cons, listing?, listing?, Option.bind_some,
      Option.bind_some, lookup_map_snd]
    by_cases hother : other = name
    · rw [hother, if_neg (not_not.2 rfl), if_neg hrest]
      cases listing.lookup name with
      | none => rfl
      | some inner => simp
    · simp [hother]

/-- What is left: all but what is gone and what is below it. -/
theorem node_below_remove {gone : List String} (hgone : gone ≠ []) (e : Entry)
    (names : List String) :
    ((e.remove gone).below? names).map node
      = if gone <+: names then none else (e.below? names).map node := by
  induction gone generalizing e names with
  | nil => exact absurd rfl hgone
  | cons name rest ih =>
    cases hlisting : e.listing? with
    | none =>
      -- nothing is below what lists nothing
      rw [remove_of_listing?_eq_none hlisting]
      cases names with
      | nil => simp
      | cons other names => simp [below?_cons, hlisting]
    | some listing =>
      obtain rfl : e = directory listing := eq_directory hlisting
      cases names with
      | nil => simp [below?_nil, node_remove]
      | cons other names =>
        rw [below?_remove_cons]
        simp only [List.cons_prefix_cons]
        by_cases hother : other = name
        · by_cases hrest : rest = []
          · simp [hother, hrest]
          · rw [below?_cons, listing?, Option.bind_some, hother]
            cases listing.lookup name with
            | none => simp [hrest]
            | some inner => simp [hrest, ih hrest inner names]
        · simp [hother, Ne.symm hother]

theorem WellFormed.remove (gone : List String) {e : Entry} (h : e.WellFormed) :
    (e.remove gone).WellFormed := by
  induction h generalizing gone with
  | file bytes =>
    rw [remove_of_listing?_eq_none rfl]
    exact .file bytes
  | refused fault =>
    rw [remove_of_listing?_eq_none rfl]
    exact .refused fault
  | link target =>
    rw [remove_of_listing?_eq_none rfl]
    exact .link target
  | @directory listing hdistinct hnamed hinside ih =>
    cases gone with
    | nil =>
      rw [Entry.remove]
      · exact .directory hdistinct hnamed hinside
      all_goals simp
    | cons name rest =>
      by_cases hrest : rest = []
      · subst hrest
        rw [remove_singleton]
        exact .directory ((List.filter_sublist.map Prod.fst).nodup hdistinct)
          (fun p hp => hnamed p (List.mem_filter.1 hp).1)
          fun p hp => hinside p (List.mem_filter.1 hp).1
      · rw [remove_cons hrest]
        refine .directory ?_ (fun p hp => ?_) fun p hp => ?_
        · rw [List.map_map]
          exact hdistinct
        · obtain ⟨q, hq, rfl⟩ := List.mem_map.1 hp
          exact hnamed q hq
        · obtain ⟨q, hq, rfl⟩ := List.mem_map.1 hp
          dsimp only
          split
          · exact ih q hq rest
          · exact hinside q hq

end Entry

namespace FileSystem

theorem root_remove (fs : FileSystem) (gone : List String) :
    (fs.remove gone).root.entry = fs.root.entry.remove gone := by
  unfold remove root
  cases gone with
  | nil => simp [Entry.remove, Entry.listing?]
  | cons name rest =>
    by_cases hrest : rest = []
    · subst hrest
      rw [Entry.remove_singleton]
      rfl
    · rw [Entry.remove_cons hrest]
      rfl

theorem WellFormed.remove {fs : FileSystem} (h : fs.WellFormed) (gone : List String) :
    (fs.remove gone).WellFormed := by
  unfold WellFormed
  rw [root_remove]
  exact Entry.WellFormed.remove gone h

section

variable {fs : FileSystem} {gone : List String} (hgone : fs.at? gone ≠ some .directory)

include hgone

/-- Taking away what is no directory leaves everything else where it is. -/
theorem at?_remove (names : List String) :
    (fs.remove gone).at? names = if names = gone then none else fs.at? names := by
  have hne : gone ≠ [] := by
    intro h
    rw [h] at hgone
    exact hgone fs.at?_nil
  rw [at?, root_remove, Entry.node_below_remove hne]
  by_cases heq : names = gone
  · rw [heq, if_pos (List.prefix_refl gone), if_pos rfl]
  · rw [if_neg heq]
    split
    · next hprefix =>
      -- only a directory has anything below it
      obtain ⟨back, rfl⟩ := hprefix
      cases back with
      | nil => exact absurd (List.append_nil gone) heq
      | cons name back =>
        cases hbelow : fs.at? (gone ++ name :: back) with
        | none => rfl
        | some n => exact absurd (at?_of_below hbelow) hgone
    · rfl

theorem at?_remove_of_ne {names : List String} (h : names ≠ gone) :
    (fs.remove gone).at? names = fs.at? names := by
  rw [at?_remove hgone, if_neg h]

theorem at?_of_at?_remove {names : List String} {n : Node}
    (h : (fs.remove gone).at? names = some n) : fs.at? names = some n := by
  rw [at?_remove hgone] at h
  split at h
  · cases h
  · exact h

/-- A path that leads somewhere with less leads there with more. -/
theorem locate_of_locate_remove {path : String} {r : List String × Nat}
    (h : (fs.remove gone).locate path = .ok r) : fs.locate path = .ok r := by
  have hmore : ∀ {start parts : List String} {r : List String × Nat},
      Leads (fs.remove gone).at? maxLinks start parts r → Leads fs.at? maxLinks start parts r :=
    Leads.of_subtable fun _ _ => at?_of_at?_remove hgone
  exact locate_of_leads h rfl (fun _ _ _ => hmore) fun _ => hmore

end

-- ================================================================ unreadable

variable {fs : FileSystem} {path : String} {here names : List String} {links : Nat}

/-- A source file that cannot be read, below the directory at `here`. -/
structure Unreadable (fs : FileSystem) (path : String) (names here : List String) (links : Nat) :
    Prop where
  located : fs.locate path = .ok (here, links)
  source : fs.IsSource path names
  unread : ∀ text, fs.read (pathOf path names) ≠ .ok text

namespace Unreadable

/-- It is refused, or it is a link and not to a directory. -/
theorem refused_or_link (hwf : fs.WellFormed) (h : fs.Unreadable path names here links) :
    (∃ fault, fs.at? (here ++ names) = some (.refused fault))
      ∨ ∃ target, fs.at? (here ++ names) = some (.link target)
        ∧ fs.isDirectory (pathOf path names) = false := by
  obtain ⟨hne, hnames⟩ := h.source.isName hwf
  obtain ⟨r, n, hlocate, hn, hcounts, -⟩ := FileSystem.isSource_iff.1 h.source
  rw [h.located] at hlocate
  cases hlocate
  cases n with
  | file bytes =>
    exact absurd (read_of_at? h.located hne hnames hn (by simp)) (h.unread _)
  | refused fault => exact .inl ⟨fault, hn⟩
  | link target => exact .inr ⟨target, hn, hcounts⟩
  | directory => cases hcounts

theorem not_directory (hwf : fs.WellFormed) (h : fs.Unreadable path names here links) :
    fs.at? (here ++ names) ≠ some .directory := by
  rcases h.refused_or_link hwf with ⟨fault, hn⟩ | ⟨target, hn, -⟩
  · rw [hn]
    simp
  · rw [hn]
    simp

theorem directory_at (hwf : fs.WellFormed) (h : fs.Unreadable path names here links) :
    fs.at? here = some .directory := by
  obtain ⟨hne, -⟩ := h.source.isName hwf
  obtain ⟨r, n, hlocate, hn, -⟩ := FileSystem.isSource_iff.1 h.source
  rw [h.located] at hlocate
  cases hlocate
  cases names with
  | nil => exact absurd rfl hne
  | cons name names => exact at?_of_below hn

/-- It has a name, and stands in a directory that is reached without a
link. -/
theorem exists_name (hwf : fs.WellFormed) (h : fs.Unreadable path names here links) :
    ∃ front name, names = front ++ [name] ∧ IsName name
      ∧ Leads fs.at? links here front (here ++ front, links) := by
  obtain ⟨hne, hnames⟩ := h.source.isName hwf
  obtain ⟨r, n, hlocate, hn, -⟩ := FileSystem.isSource_iff.1 h.source
  rw [h.located] at hlocate
  cases hlocate
  obtain ⟨front, name, rfl⟩ : ∃ front name, names = front ++ [name] :=
    ⟨names.dropLast, names.getLast hne, (List.dropLast_concat_getLast hne).symm⟩
  rw [← List.append_assoc] at hn
  refine ⟨front, name, rfl, hnames name (List.mem_append_right front List.mem_cons_self), ?_⟩
  exact leads_of_settled (fun m hm => hnames m (List.mem_append_left _ hm))
    (settled_of_directory (at?_of_below hn))

/-- With the links that are left at the directory, it leads at best to a
file that is refused. -/
theorem refused_of_leads (hwf : fs.WellFormed) (h : fs.Unreadable path names here links)
    {r : List String × Nat} (hleads : Leads fs.at? links here names r) :
    ∃ fault, fs.at? r.1 = some (.refused fault) := by
  obtain ⟨hne, hnames⟩ := h.source.isName hwf
  have hlocate : fs.locate (pathOf path names) = .ok r := by
    rw [locate_pathOf h.located hne hnames, resolve_eq_ok_iff.2 hleads]
  rcases h.refused_or_link hwf with ⟨fault, hrefused⟩ | ⟨target, -, hdirectory⟩
  · rw [eq_of_leads_of_settled hnames (settled_of_refused hrefused) hleads]
    exact ⟨fault, hrefused⟩
  · obtain ⟨n, hn, hnode⟩ := settled_of_leads hleads (settled_of_directory (h.directory_at hwf))
    cases n with
    | file bytes => exact absurd (read_eq_ok_iff.2 ⟨r, bytes, hlocate, hn, rfl⟩) (h.unread _)
    | refused fault => exact ⟨fault, hn⟩
    | link target => exact absurd rfl (hnode target)
    | directory =>
      rw [isDirectory_iff.2 ⟨r, hlocate, hn⟩] at hdirectory
      cases hdirectory

/-- Without it, a path leads where it led, unless that is a file that is
refused, with no more links than are left at the directory. -/
theorem leads_remove_iff (hwf : fs.WellFormed) (h : fs.Unreadable path names here links)
    {l : Nat} (hle : l ≤ links) {start parts : List String} {r : List String × Nat}
    (hend : ∀ fault, fs.at? r.1 ≠ some (.refused fault)) :
    Leads (fs.remove (here ++ names)).at? l start parts r ↔ Leads fs.at? l start parts r := by
  have hgone := h.not_directory hwf
  constructor
  · exact Leads.of_subtable fun q n hn => at?_of_at?_remove hgone hn
  · intro hleads
    obtain ⟨front, name, rfl, -, hfront⟩ := h.exists_name hwf
    rw [← List.append_assoc] at hgone ⊢
    exact hleads.without hgone (fun q hq => at?_remove_of_ne hgone hq)
      (fun r' hr' => h.refused_of_leads hwf (leads_append_iff.2 ⟨_, hfront, hr'⟩)) hend hle

/-- Unless it is a link, no path to a directory goes through it, with any
number of links. -/
theorem leads_remove_of_directory (hwf : fs.WellFormed) (h : fs.Unreadable path names here links)
    {fault : Fault} (hrefused : fs.at? (here ++ names) = some (.refused fault))
    {start parts : List String} {r : List String × Nat} (hr : fs.at? r.1 = some .directory)
    (hleads : Leads fs.at? maxLinks start parts r) :
    Leads (fs.remove (here ++ names)).at? maxLinks start parts r := by
  have hgone := h.not_directory hwf
  obtain ⟨front, name, rfl, hname, -⟩ := h.exists_name hwf
  rw [← List.append_assoc] at hgone hrefused ⊢
  refine hleads.without hgone (fun q hq => at?_remove_of_ne hgone hq) (fun r' hr' => ?_)
    (by simp [hr]) (Nat.le_refl maxLinks)
  rw [eq_of_leads_of_settled (List.forall_mem_singleton.2 hname) (settled_of_refused hrefused) hr']
  exact ⟨fault, hrefused⟩

/-- So then the directory is still there without it. -/
theorem exists_find_remove (hwf : fs.WellFormed) (h : fs.Unreadable path names here links)
    {fault : Fault} (hrefused : fs.at? (here ++ names) = some (.refused fault)) :
    ∃ entry, (fs.remove (here ++ names)).find path = .ok entry := by
  have hdirectory := h.directory_at hwf
  have hgone := h.not_directory hwf
  have hlocate : (fs.remove (here ++ names)).locate path = .ok (here, links) := by
    refine locate_of_leads h.located rfl (fun start left hleads => ?_) fun start => ?_
    · refine h.leads_remove_of_directory hwf hrefused ?_
      by_cases hdir : fs.at? start = some .directory
      · exact hdir
      · have hsame : here = start := hleads.eq_of_not_directory hdir
        rw [← hsame]
        exact hdirectory
    · exact h.leads_remove_of_directory hwf hrefused hdirectory
  have hstill : (fs.remove (here ++ names)).at? here = some .directory := by
    rw [at?_remove_of_ne hgone, hdirectory]
    intro heq
    rw [← heq] at hgone
    exact hgone hdirectory
  obtain ⟨entry, hentry, -⟩ := Option.map_eq_some_iff.1 hstill
  exact ⟨entry, find_eq_ok_iff.2 ⟨_, hlocate, hentry⟩⟩

/-- If there is a directory without it, it is the one there was. -/
theorem locate_remove (hwf : fs.WellFormed) (h : fs.Unreadable path names here links)
    {entry : Entry} (hfind : (fs.remove (here ++ names)).find path = .ok entry) :
    (fs.remove (here ++ names)).locate path = .ok (here, links) := by
  obtain ⟨r, hlocate, -⟩ := find_eq_ok_iff.1 hfind
  have hbefore := locate_of_locate_remove (h.not_directory hwf) hlocate
  rw [h.located] at hbefore
  cases hbefore
  exact hlocate

/-- Without it, nothing is where it was. -/
theorem below?_remove (hwf : fs.WellFormed) (h : fs.Unreadable path names here links)
    {entry : Entry} (hfind : (fs.remove (here ++ names)).find path = .ok entry) :
    entry.below? names = none := by
  obtain ⟨r, hlocate, hentry⟩ := find_eq_ok_iff.1 hfind
  rw [h.locate_remove hwf hfind] at hlocate
  cases hlocate
  have hnone := at?_remove (h.not_directory hwf) (here ++ names)
  rw [if_pos rfl, at?, Entry.below?_append, hentry, Option.bind_some] at hnone
  exact Option.map_eq_none_iff.1 hnone

section Without

variable (hwf : fs.WellFormed) (h : fs.Unreadable path names here links) {other : List String}
  (hne : other ≠ []) (hnames : ∀ name ∈ other, IsName name) {entry : Entry}
  (hfind : (fs.remove (here ++ names)).find path = .ok entry)

include hwf h hne hnames hfind

/-- Without it, other files lead to what they led to, unless that is
refused. -/
theorem reaches_remove_iff {r : List String × Nat} {n : Node} (hn : ∀ fault, n ≠ .refused fault) :
    ((fs.remove (here ++ names)).locate (pathOf path other) = .ok r
        ∧ (fs.remove (here ++ names)).at? r.1 = some n) ↔
      fs.locate (pathOf path other) = .ok r ∧ fs.at? r.1 = some n := by
  have hgone := h.not_directory hwf
  rw [locate_pathOf (h.locate_remove hwf hfind) hne hnames, locate_pathOf h.located hne hnames,
    resolve_eq_ok_iff, resolve_eq_ok_iff]
  constructor
  · intro hreaches
    obtain ⟨hleads, hat⟩ := hreaches
    exact ⟨hleads.of_subtable fun _ _ => at?_of_at?_remove hgone, at?_of_at?_remove hgone hat⟩
  · intro hreaches
    obtain ⟨hleads, hat⟩ := hreaches
    have hend : ∀ fault, fs.at? r.1 ≠ some (.refused fault) := by simpa [hat] using hn
    refine ⟨(h.leads_remove_iff hwf (Nat.le_refl links) hend).2 hleads, ?_⟩
    rw [at?_remove_of_ne hgone, hat]
    intro heq
    obtain ⟨m, hm, hnode⟩ := settled_of_leads hleads (settled_of_directory (h.directory_at hwf))
    rw [heq] at hm hend
    rcases h.refused_or_link hwf with ⟨fault, hfault⟩ | ⟨target, htarget, -⟩
    · exact hend fault hfault
    · rw [htarget] at hm
      cases hm
      exact hnode target rfl

theorem read_remove_iff {text : String} :
    (fs.remove (here ++ names)).read (pathOf path other) = .ok text ↔
      fs.read (pathOf path other) = .ok text := by
  rw [read_eq_ok_iff, read_eq_ok_iff]
  refine exists_congr fun r => exists_congr fun bytes => ?_
  rw [← and_assoc, ← and_assoc, h.reaches_remove_iff hwf hne hnames hfind (by simp)]

theorem isDirectory_remove :
    (fs.remove (here ++ names)).isDirectory (pathOf path other)
      = fs.isDirectory (pathOf path other) := by
  rw [Bool.eq_iff_iff, isDirectory_iff, isDirectory_iff]
  exact exists_congr fun r => h.reaches_remove_iff hwf hne hnames hfind (by simp)

end Without

/-- Without it, the other files are found. -/
theorem isSource_remove_iff (hwf : fs.WellFormed) (h : fs.Unreadable path names here links)
    {entry : Entry} (hfind : (fs.remove (here ++ names)).find path = .ok entry)
    (other : List String) :
    (fs.remove (here ++ names)).IsSource path other ↔ fs.IsSource path other ∧ other ≠ names := by
  have hat : ∀ n, (fs.remove (here ++ names)).at? (here ++ other) = some n ↔
      fs.at? (here ++ other) = some n ∧ other ≠ names := by
    intro n
    rw [at?_remove (h.not_directory hwf)]
    by_cases heq : other = names
    · simp [heq]
    · simp [heq]
  have hcounts : other ≠ [] → (∀ name ∈ other, IsName name) → ∀ n,
      (fs.remove (here ++ names)).CountsAsFile (pathOf path other) n ↔
        fs.CountsAsFile (pathOf path other) n := by
    intro hne hnames n
    cases n with
    | file bytes => exact Iff.rfl
    | refused fault => exact Iff.rfl
    | link target =>
      unfold CountsAsFile
      rw [h.isDirectory_remove hwf hne hnames hfind]
    | directory => exact Iff.rfl
  constructor
  · intro hsource
    obtain ⟨hne, hnames⟩ := hsource.isName (hwf.remove _)
    obtain ⟨r, n, hlocate, hn, hfile, hrest⟩ := FileSystem.isSource_iff.1 hsource
    rw [h.locate_remove hwf hfind] at hlocate
    cases hlocate
    obtain ⟨hn, hother⟩ := (hat n).1 hn
    exact ⟨FileSystem.isSource_iff.2
      ⟨_, n, h.located, hn, (hcounts hne hnames n).1 hfile, hrest⟩, hother⟩
  · intro hsource
    obtain ⟨hsource, hother⟩ := hsource
    obtain ⟨hne, hnames⟩ := hsource.isName hwf
    obtain ⟨r, n, hlocate, hn, hfile, hrest⟩ := FileSystem.isSource_iff.1 hsource
    rw [h.located] at hlocate
    cases hlocate
    exact FileSystem.isSource_iff.2 ⟨_, n, h.locate_remove hwf hfind, (hat n).2 ⟨hn, hother⟩,
      (hcounts hne hnames n).2 hfile, hrest⟩

end Unreadable

end FileSystem

end QueryLint
