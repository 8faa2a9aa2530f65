/-
Following a path by names alone. A file system can be seen as a table:
for each list of names from the root, what stands there, if anything does
(`FileSystem.at?`). The order in which directories list their entries is
not in the table. A path is followed in the table from names to names
(`resolve`), one part a move (`move`), and where it leads anywhere, it
does so move by move (`Leads`).

# Links that are left

`resolve` also tells how many links may still be followed. So a path can
be cut anywhere, and the back part is followed from where the front part
leads, with the links that are left there (`resolve_append`).

# What leads to nothing that can be read

The more links may be followed, the more paths lead somewhere, and to the
same (`Leads.of_le`). Suppose that an entry leads at best to a file that
cannot be read, with some number of links to go. Then it does so with
fewer, and a path with no more links than that which goes through it ends
there, for only a directory leads on. So if the entry is taken away, all
other paths lead where they led before (`Leads.without`).
-/
import Mathlib.Tactic.SplitIfs
import QueryLint.Proofs.Files.Path
import QueryLint.Proofs.Outcome

namespace QueryLint

-- =============================================================== the table

/-- What stands somewhere, without what a directory lists. -/
inductive Node where
  | file (bytes : List UInt8)
  | refused (fault : Fault)
  | link (target : String)
  | directory
deriving DecidableEq

/-- What is read where something stands. -/
def Node.text : Node → Except FileError String
  | file bytes => .ok (SourceText.read bytes)
  | refused fault => .error (.fault fault)
  | _ => .error .isDirectory

namespace Entry

def node : Entry → Node
  | file bytes => .file bytes
  | refused fault => .refused fault
  | link target => .link target
  | directory _ => .directory

/-- The entry that names lead to, each in the directory before it. -/
def below? : Entry → List String → Option Entry
  | e, [] => some e
  | e, name :: names => (e.listing?.bind (·.lookup name)).bind (below? · names)

theorem below?_nil (e : Entry) : e.below? [] = some e := by
  rw [below?]

theorem below?_cons (e : Entry) (name : String) (names : List String) :
    e.below? (name :: names) = (e.listing?.bind (·.lookup name)).bind (·.below? names) := by
  rw [below?]

theorem below?_append (e : Entry) (front back : List String) :
    e.below? (front ++ back) = (e.below? front).bind (·.below? back) := by
  induction front generalizing e with
  | nil => rw [List.nil_append, below?_nil, Option.bind_some]
  | cons name front ih =>
    rw [List.cons_append, below?_cons, below?_cons, Option.bind_assoc (e.listing?.bind _)]
    exact Option.bind_congr fun inner _ => ih inner

end Entry

namespace FileSystem

variable (fs : FileSystem)

/-- What stands where names lead from the root. -/
def at? (names : List String) : Option Node := (fs.root.entry.below? names).map Entry.node

theorem at?_nil : fs.at? [] = some .directory := by
  rw [at?, Entry.below?_nil]
  rfl

variable {fs}

/-- Whatever has something below it is a directory. -/
theorem at?_of_below {names back : List String} {name : String} {n : Node}
    (h : fs.at? (names ++ name :: back) = some n) : fs.at? names = some .directory := by
  unfold at? at h ⊢
  rw [Entry.below?_append] at h
  cases hentry : fs.root.entry.below? names with
  | none =>
    rw [hentry] at h
    cases h
  | some e =>
    rw [hentry, Option.bind_some, Entry.below?_cons] at h
    cases e with
    | file bytes => cases h
    | refused fault => cases h
    | link target => cases h
    | directory listing => rfl

end FileSystem

-- ================================================================ following

/-- What one part of a path does. -/
inductive Move where
  | stop (e : FileError)
  | go (names : List String)
  /-- A link: it is followed from `names` by the parts of its target. -/
  | link (names target : List String)

/-- One part of a path, from where names lead. -/
def move (table : List String → Option Node) (names : List String) (part : String) : Move :=
  if table names ≠ some .directory then .stop .notDirectory
  else if part = "" ∨ part = "." then .go names
  else if part = ".." then .go names.dropLast
  else
    match table (names ++ [part]) with
    | none => .stop .missing
    | some (.link target) => .link (if isAbsolute target then [] else names) (pathParts target)
    | some _ => .go (names ++ [part])

/-- Something stands where names lead, and it is not a link. -/
def Settled (table : List String → Option Node) (names : List String) : Prop :=
  ∃ n, table names = some n ∧ ∀ target, n ≠ .link target

theorem settled_of_directory {table : List String → Option Node} {names : List String}
    (h : table names = some .directory) : Settled table names :=
  ⟨.directory, h, fun target heq => by cases heq⟩

theorem settled_of_refused {table : List String → Option Node} {names : List String}
    {fault : Fault} (h : table names = some (.refused fault)) : Settled table names :=
  ⟨.refused fault, h, fun target heq => by cases heq⟩

/-- The ways to go on without a link. -/
theorem move_eq_go_iff {table : List String → Option Node} {names next : List String}
    {part : String} :
    move table names part = .go next ↔
      table names = some .directory
        ∧ (((part = "" ∨ part = ".") ∧ names = next)
          ∨ (part = ".." ∧ names.dropLast = next)
          ∨ (¬ (part = "" ∨ part = ".") ∧ part ≠ ".." ∧ names ++ [part] = next
            ∧ Settled table (names ++ [part]))) := by
  unfold move Settled
  by_cases hdir : table names = some .directory
  · rw [if_neg (not_not.2 hdir)]
    by_cases hstay : part = "" ∨ part = "."
    · have hup : part ≠ ".." := by
        rcases hstay with h | h <;> rw [h] <;> decide
      simp [hdir, hstay, hup]
    · by_cases hup : part = ".."
      · simp [hdir, hup]
      · rw [if_neg hstay, if_neg hup]
        cases hnext : table (names ++ [part]) with
        | none => simp [hdir, hstay, hup]
        | some n => cases n <;> simp [hdir, hstay, hup]
  · rw [if_pos hdir]
    simp [hdir]

/-- The one way to come to a link. -/
theorem move_eq_link_iff {table : List String → Option Node} {names next parts : List String}
    {part : String} :
    move table names part = .link next parts ↔
      table names = some .directory ∧ ¬ (part = "" ∨ part = ".") ∧ part ≠ ".."
        ∧ ∃ target, table (names ++ [part]) = some (.link target)
          ∧ (if isAbsolute target then [] else names) = next ∧ pathParts target = parts := by
  unfold move
  by_cases hdir : table names = some .directory
  · rw [if_neg (not_not.2 hdir)]
    by_cases hstay : part = "" ∨ part = "."
    · simp [hstay]
    · by_cases hup : part = ".."
      · simp [hup]
      · rw [if_neg hstay, if_neg hup]
        cases hnext : table (names ++ [part]) with
        | none => simp
        | some n => cases n <;> simp [hdir, hstay, hup]
  · rw [if_pos hdir]
    simp [hdir]

/-- Follows the parts of a path from where names lead, and tells where it
ends and how many links are left. -/
def resolve (table : List String → Option Node) (links : Nat) (names : List String) :
    List String → Except FileError (List String × Nat)
  | [] => .ok (names, links)
  | part :: rest =>
    match move table names part, links with
    | .stop e, _ => .error e
    | .go next, links => resolve table links next rest
    | .link _ _, 0 => .error .tooManyLinks
    | .link next target, links + 1 => resolve table links next (target ++ rest)
termination_by parts => (links, parts.length)

section

variable {table : List String → Option Node} {links : Nat} {names next target rest : List String}
  {part : String}

theorem resolve_nil : resolve table links names [] = .ok (names, links) := by
  rw [resolve]

theorem resolve_stop {e : FileError} (h : move table names part = .stop e) :
    resolve table links names (part :: rest) = .error e := by
  rw [resolve.eq_def]
  simp only [h]

theorem resolve_go (h : move table names part = .go next) :
    resolve table links names (part :: rest) = resolve table links next rest := by
  rw [resolve.eq_def]
  simp only [h]

theorem resolve_link_zero (h : move table names part = .link next target) :
    resolve table 0 names (part :: rest) = .error .tooManyLinks := by
  rw [resolve.eq_def]
  simp only [h]

theorem resolve_link (h : move table names part = .link next target) :
    resolve table (links + 1) names (part :: rest) = resolve table links next (target ++ rest) := by
  rw [resolve.eq_def]
  simp only [h]

end

/-- A path can be cut anywhere. -/
theorem resolve_append (table : List String → Option Node) (links : Nat)
    (names front back : List String) :
    resolve table links names (front ++ back)
      = resolve table links names front >>= fun r => resolve table r.2 r.1 back := by
  induction links, names, front using resolve.induct table with
  | case1 links names => rw [List.nil_append, resolve_nil]; rfl
  | case2 links names part rest e hmove =>
    rw [List.cons_append, resolve_stop hmove, resolve_stop hmove]; rfl
  | case3 names part rest next links hmove ih =>
    rw [List.cons_append, resolve_go hmove, resolve_go hmove, ih]
  | case4 names part rest next target hmove =>
    rw [List.cons_append, resolve_link_zero hmove, resolve_link_zero hmove]; rfl
  | case5 names part rest next target links hmove ih =>
    rw [List.cons_append, resolve_link hmove, resolve_link hmove, ← ih, List.append_assoc]

/-- A path that leads somewhere, move by move. -/
inductive Leads (table : List String → Option Node) :
    (links : Nat) → (names parts : List String) → (result : List String × Nat) → Prop where
  | here (links : Nat) (names : List String) : Leads table links names [] (names, links)
  | go {links : Nat} {names next rest : List String} {part : String} {r : List String × Nat}
    (hmove : move table names part = .go next) (h : Leads table links next rest r) :
    Leads table links names (part :: rest) r
  | link {links : Nat} {names next target rest : List String} {part : String}
    {r : List String × Nat} (hmove : move table names part = .link next target)
    (h : Leads table links next (target ++ rest) r) :
    Leads table (links + 1) names (part :: rest) r

section

variable {table : List String → Option Node} {links : Nat} {names parts : List String}
  {r : List String × Nat}

theorem resolve_eq_ok_iff :
    resolve table links names parts = .ok r ↔ Leads table links names parts r := by
  constructor
  · intro h
    induction links, names, parts using resolve.induct table with
    | case1 links names =>
      rw [resolve_nil] at h
      cases h
      exact .here links names
    | case2 links names part rest e hmove =>
      rw [resolve_stop hmove] at h
      cases h
    | case3 names part rest next links hmove ih =>
      rw [resolve_go hmove] at h
      exact .go hmove (ih h)
    | case4 names part rest next target hmove =>
      rw [resolve_link_zero hmove] at h
      cases h
    | case5 names part rest next target links hmove ih =>
      rw [resolve_link hmove] at h
      exact .link hmove (ih h)
  · intro h
    induction h with
    | here links names => exact resolve_nil
    | go hmove _ ih => rw [resolve_go hmove, ih]
    | link hmove _ ih => rw [resolve_link hmove, ih]

theorem leads_append_iff {front back : List String} :
    Leads table links names (front ++ back) r ↔
      ∃ middle, Leads table links names front middle ∧ Leads table middle.2 middle.1 back r := by
  rw [← resolve_eq_ok_iff, resolve_append, bind_eq_ok_iff]
  simp only [resolve_eq_ok_iff]

/-- With more links to go, a path leads where it led. -/
theorem Leads.of_le (h : Leads table links names parts r) {more : Nat} (hle : links ≤ more) :
    ∃ left, Leads table more names parts (r.1, left) := by
  induction h generalizing more with
  | here links names => exact ⟨more, .here more names⟩
  | go hmove _ ih =>
    obtain ⟨left, hleft⟩ := ih hle
    exact ⟨left, .go hmove hleft⟩
  | link hmove _ ih =>
    obtain ⟨more, rfl⟩ : ∃ m, more = m + 1 := ⟨more - 1, by omega⟩
    obtain ⟨left, hleft⟩ := ih (Nat.le_of_succ_le_succ hle)
    exact ⟨left, .link hmove hleft⟩

end

-- ============================================================== other tables

/-- What is reached with less in the table is reached with more. -/
theorem Leads.of_subtable {table smaller : List String → Option Node}
    (hsub : ∀ names n, smaller names = some n → table names = some n) {links : Nat}
    {names parts : List String} {r : List String × Nat}
    (h : Leads smaller links names parts r) : Leads table links names parts r := by
  induction h with
  | here links names => exact .here links names
  | go hmove _ ih =>
    obtain ⟨hdir, hstay | hup | ⟨hstay, hup, hnext, n, hn, hnode⟩⟩ := move_eq_go_iff.1 hmove
    · exact .go (move_eq_go_iff.2 ⟨hsub _ _ hdir, .inl hstay⟩) ih
    · exact .go (move_eq_go_iff.2 ⟨hsub _ _ hdir, .inr (.inl hup)⟩) ih
    · exact .go (move_eq_go_iff.2 ⟨hsub _ _ hdir,
        .inr (.inr ⟨hstay, hup, hnext, n, hsub _ _ hn, hnode⟩)⟩) ih
  | link hmove _ ih =>
    obtain ⟨hdir, hstay, hup, target, htarget, hnext⟩ := move_eq_link_iff.1 hmove
    exact .link (move_eq_link_iff.2 ⟨hsub _ _ hdir, hstay, hup, target, hsub _ _ htarget, hnext⟩) ih

/-- From anything but a directory a path leads nowhere else. -/
theorem Leads.eq_of_not_directory {table : List String → Option Node} {links : Nat}
    {names parts : List String} {r : List String × Nat} (h : Leads table links names parts r)
    (hnames : table names ≠ some .directory) : r.1 = names := by
  cases h with
  | here links names => rfl
  | go hmove _ => exact absurd (move_eq_go_iff.1 hmove).1 hnames
  | link hmove _ => exact absurd (move_eq_link_iff.1 hmove).1 hnames

/-- If an entry leads at best to a file that cannot be read, with some
number of links to go, then without it all paths to anything else lead
where they did, with no more than that number. -/
theorem Leads.without {table smaller : List String → Option Node} {directory : List String}
    {name : String} {most : Nat}
    (hgone : table (directory ++ [name]) ≠ some .directory)
    (hrest : ∀ names, names ≠ directory ++ [name] → smaller names = table names)
    (hdead : ∀ r, Leads table most directory [name] r → ∃ fault, table r.1 = some (.refused fault))
    {links : Nat} {names parts : List String} {r : List String × Nat}
    (h : Leads table links names parts r) (hend : ∀ fault, table r.1 ≠ some (.refused fault))
    (hle : links ≤ most) : Leads smaller links names parts r := by
  have hdirectory : ∀ names, table names = some .directory → smaller names = some .directory := by
    intro names hdir
    rw [hrest, hdir]
    intro heq
    rw [heq] at hdir
    exact hgone hdir
  -- a path through the entry would end where the entry leads
  have hpast : ∀ {links : Nat} {rest : List String}, links ≤ most →
      ¬ Leads table links directory ([name] ++ rest) r := by
    intro links rest hle hall
    obtain ⟨middle, hmiddle, hback⟩ := leads_append_iff.1 hall
    obtain ⟨left, hleft⟩ := hmiddle.of_le hle
    obtain ⟨fault, hfault⟩ := hdead _ hleft
    refine hend fault ?_
    rw [hback.eq_of_not_directory (by rw [hfault]; simp), hfault]
  induction h with
  | here links names => exact .here links names
  | @go links names next rest part r hmove hleads ih =>
    obtain ⟨hdir, hstay | hup | ⟨hstay, hup, hnext, n, hn, hnode⟩⟩ := move_eq_go_iff.1 hmove
    · exact .go (move_eq_go_iff.2 ⟨hdirectory _ hdir, .inl hstay⟩) (ih hend hle hpast)
    · exact .go (move_eq_go_iff.2 ⟨hdirectory _ hdir, .inr (.inl hup)⟩) (ih hend hle hpast)
    · refine .go (move_eq_go_iff.2 ⟨hdirectory _ hdir,
        .inr (.inr ⟨hstay, hup, hnext, n, ?_, hnode⟩)⟩) (ih hend hle hpast)
      rw [hrest, hn]
      intro heq
      obtain ⟨rfl, hpart⟩ := List.append_inj' heq rfl
      rw [List.singleton_inj] at hpart
      subst hpart
      exact hpast hle (.go hmove hleads)
  | @link links names next parts rest part r hmove hleads ih =>
    obtain ⟨hdir, hstay, hup, other, hother, hnext⟩ := move_eq_link_iff.1 hmove
    refine .link (move_eq_link_iff.2 ⟨hdirectory _ hdir, hstay, hup, other, ?_, hnext⟩)
      (ih hend (Nat.le_of_succ_le hle) hpast)
    rw [hrest, hother]
    intro heq
    obtain ⟨rfl, hpart⟩ := List.append_inj' heq rfl
    rw [List.singleton_inj] at hpart
    subst hpart
    exact hpast hle (.link hmove hleads)

end QueryLint
