/-
The text of paths. The name of an entry is joined to the path of its
directory with a slash, unless the path ends in one, so the parts of the
joined path are those of the directory and then the name
(`pathParts_pathOf`). A last part that is empty, behind a slash at the
end of the path, is lost in this; it would have led nowhere else anyway.
-/
import Mathlib.Data.List.Basic
import QueryLint.Files.Basic

namespace QueryLint

-- ==================================================================== names

/-- A name that an entry may have: no part of a path that means something
else, and not more than one part. -/
structure IsName (name : String) : Prop where
  ne_empty : name ≠ ""
  ne_dot : name ≠ "."
  ne_dots : name ≠ ".."
  no_slash : '/' ∉ name.toList

instance (name : String) : Decidable (IsName name) :=
  decidable_of_iff (name ≠ "" ∧ name ≠ "." ∧ name ≠ ".." ∧ '/' ∉ name.toList)
    ⟨fun h => ⟨h.1, h.2.1, h.2.2.1, h.2.2.2⟩, fun h => ⟨h.1, h.2, h.3, h.4⟩⟩

/-- The path that names lead to from a path, each in the directory
before it. -/
def pathOf (path : String) (names : List String) : String := names.foldl joinPath path

-- ================================================================== cutting

theorem cutAtSlashes_ne_nil (cs : List Char) : cutAtSlashes cs ≠ [] := by
  cases cs with
  | nil => simp [cutAtSlashes]
  | cons c cs =>
    rw [cutAtSlashes]
    split
    · exact List.cons_ne_nil _ _
    · split
      · exact List.cons_ne_nil _ _
      · exact List.cons_ne_nil _ _

theorem cutAtSlashes_of_not_mem {cs : List Char} (h : '/' ∉ cs) : cutAtSlashes cs = [cs] := by
  induction cs with
  | nil => rfl
  | cons c cs ih =>
    have hc : c ≠ '/' := fun hc => h (hc ▸ List.mem_cons_self)
    rw [cutAtSlashes, ih fun hcs => h (List.mem_cons_of_mem c hcs)]
    exact if_neg hc

theorem cutAtSlashes_slash (front back : List Char) :
    cutAtSlashes (front ++ '/' :: back) = cutAtSlashes front ++ cutAtSlashes back := by
  induction front with
  | nil =>
    cases hback : cutAtSlashes back with
    | nil => exact absurd hback (cutAtSlashes_ne_nil back)
    | cons part parts => simp [cutAtSlashes, hback]
  | cons c front ih =>
    cases hfront : cutAtSlashes front with
    | nil => exact absurd hfront (cutAtSlashes_ne_nil front)
    | cons part parts =>
      rw [hfront] at ih
      by_cases hc : c = '/'
      · simp [cutAtSlashes, ih, hfront, hc]
      · simp [cutAtSlashes, ih, hfront, hc]

-- ================================================================== joining

theorem endsWith_iff {s ending : String} :
    s.endsWith ending = true ↔ ending.toList <:+ s.toList := by
  have hslice : s.endsWith ending = s.toSlice.endsWith ending := rfl
  rw [hslice, String.Slice.endsWith_string_iff, String.copy_toSlice]

/-- The parts of a path, but for an empty one behind a last slash. -/
def stem (path : String) : List String :=
  if path.endsWith "/" then (pathParts path).dropLast else pathParts path

theorem pathParts_joinPath {path name : String} (hpath : path ≠ "") (hname : '/' ∉ name.toList) :
    pathParts (joinPath path name) = stem path ++ [name] := by
  have hempty : path.isEmpty = false := by simpa using hpath
  unfold joinPath stem pathParts
  cases hslash : path.endsWith "/" with
  | true =>
    obtain ⟨front, hfront⟩ := endsWith_iff.1 hslash
    replace hfront : path.toList = front ++ ['/'] := hfront.symm
    have hlist : path.toList ++ name.toList = front ++ '/' :: name.toList := by simp [hfront]
    rw [hempty, Bool.or_true, if_pos rfl, if_pos rfl, String.toList_append, hlist,
      cutAtSlashes_slash, cutAtSlashes_of_not_mem hname, hfront, cutAtSlashes_slash]
    simp [cutAtSlashes]
  | false =>
    have hlist : (path ++ "/" ++ name).toList = path.toList ++ '/' :: name.toList := by simp
    rw [hempty, Bool.or_false, if_neg Bool.false_ne_true, if_neg Bool.false_ne_true, hlist,
      cutAtSlashes_slash, cutAtSlashes_of_not_mem hname]
    simp

/-- What a last slash leaves out of the stem is an empty part. -/
theorem pathParts_eq_stem (path : String) :
    pathParts path = stem path ∨ pathParts path = stem path ++ [""] := by
  unfold stem
  cases hslash : path.endsWith "/" with
  | false => exact .inl rfl
  | true =>
    obtain ⟨front, hfront⟩ := endsWith_iff.1 hslash
    replace hfront : path.toList = front ++ ['/'] := hfront.symm
    have hparts : pathParts path = (cutAtSlashes front).map String.ofList ++ [""] := by
      unfold pathParts
      rw [hfront, cutAtSlashes_slash]
      simp [cutAtSlashes]
    rw [if_pos rfl, hparts, List.dropLast_concat]
    exact .inr rfl

theorem joinPath_ne_empty {path name : String} (hpath : path ≠ "") : joinPath path name ≠ "" := by
  unfold joinPath
  split
  · simp [hpath]
  · simp [hpath]

/-- A name does not end in a slash, so all parts of a joined path count. -/
theorem stem_joinPath {path name : String} (hpath : path ≠ "") (hname : IsName name) :
    stem (joinPath path name) = stem path ++ [name] := by
  have hend : (joinPath path name).endsWith "/" = false := by
    rw [Bool.eq_false_iff]
    intro hslash
    obtain ⟨front, hfront⟩ := endsWith_iff.1 hslash
    have hlast : (joinPath path name).toList.getLast? = name.toList.getLast? := by
      have hne : name.toList ≠ [] := by simpa using hname.ne_empty
      unfold joinPath
      split
      · rw [String.toList_append, List.getLast?_append_of_ne_nil _ hne]
      · rw [String.toList_append, List.getLast?_append_of_ne_nil _ hne]
    rw [← hfront, show "/".toList = ['/'] from rfl, List.getLast?_concat] at hlast
    exact hname.no_slash (List.mem_of_getLast? hlast.symm)
  rw [stem, hend, if_neg Bool.false_ne_true, pathParts_joinPath hpath hname.no_slash]

theorem pathParts_pathOf {names : List String} (hne : names ≠ []) :
    ∀ {path : String}, path ≠ "" → (∀ name ∈ names, IsName name) →
      pathParts (pathOf path names) = stem path ++ names := by
  induction names with
  | nil => exact absurd rfl hne
  | cons name names ih =>
    intro path hpath hnames
    have hname := hnames name List.mem_cons_self
    cases names with
    | nil => exact pathParts_joinPath hpath hname.no_slash
    | cons next names =>
      have hrest : pathParts (pathOf (joinPath path name) (next :: names))
          = stem (joinPath path name) ++ next :: names :=
        ih (List.cons_ne_nil next names) (joinPath_ne_empty hpath)
          fun n hn => hnames n (List.mem_cons_of_mem name hn)
      rw [stem_joinPath hpath hname, List.append_assoc] at hrest
      exact hrest

theorem pathOf_ne_empty {names : List String} :
    ∀ {path : String}, path ≠ "" → pathOf path names ≠ "" := by
  induction names with
  | nil => exact fun hpath => hpath
  | cons name names ih => exact fun hpath => ih (joinPath_ne_empty hpath)

theorem isAbsolute_joinPath {path name : String} (hpath : path ≠ "") :
    isAbsolute (joinPath path name) = isAbsolute path := by
  have hfirst : (joinPath path name).toList.head? = path.toList.head? := by
    have hne : path.toList ≠ [] := by simpa using hpath
    unfold joinPath
    split
    · rw [String.toList_append, List.head?_append_of_ne_nil _ hne]
    · rw [String.append_assoc, String.toList_append, List.head?_append_of_ne_nil _ hne]
  have hhead : ∀ s : String, isAbsolute s = true ↔ s.toList.head? = some '/' := by
    intro s
    rw [isAbsolute, String.startsWith_string_iff]
    cases s.toList with
    | nil => simp
    | cons c cs => simp [eq_comm]
  rw [Bool.eq_iff_iff, hhead, hhead, hfirst]

theorem isAbsolute_pathOf {names : List String} :
    ∀ {path : String}, path ≠ "" → isAbsolute (pathOf path names) = isAbsolute path := by
  induction names with
  | nil => exact fun _ => rfl
  | cons name names ih =>
    intro path hpath
    exact (ih (joinPath_ne_empty hpath)).trans (isAbsolute_joinPath hpath)

end QueryLint
