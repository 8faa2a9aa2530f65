/-
Reading a source file puts its text in a normal form. Whatever bytes a
file holds, there is a text, and its lines end in newlines alone
(`not_mem_foldLines`). A text in this form can be stored in several ways,
with or without a mark in front and with returns for its newlines
(`Spells`), and all of them are read as that text (`read_encode`,
`read_mark_encode`).

The one text in normal form that is not read back from its plain bytes is
one that begins with U+FEFF, for there these bytes are the mark. No other
text can be mistaken for a mark or for the beginning of one
(`dropMark_encode`): the decoder knows, since it gives back what was
encoded and a mark decodes to U+FEFF.
-/
import QueryLint.Document
import QueryLint.Files.Basic
import QueryLint.Proofs.Text.Utf8

namespace QueryLint

namespace SourceText

-- ==================================================================== lines

/-- A text and a way to write it: a newline may be written as a return
with a newline, or as a return alone if no newline is behind it. -/
inductive Spells : (text written : List Char) → Prop where
  | nil : Spells [] []
  | char {c : Char} {text written : List Char} (hc : c ≠ '\r') (h : Spells text written) :
    Spells (c :: text) (c :: written)
  | pair {text written : List Char} (h : Spells text written) :
    Spells ('\n' :: text) ('\r' :: '\n' :: written)
  | lone {text written : List Char} (hbehind : written.head? ≠ some '\n')
    (h : Spells text written) : Spells ('\n' :: text) ('\r' :: written)

/-- A text without returns may be written as it stands. -/
theorem spells_self {text : List Char} (h : '\r' ∉ text) : Spells text text := by
  induction text with
  | nil => exact .nil
  | cons c text ih =>
    refine .char (fun hc => h (hc ▸ List.mem_cons_self)) (ih fun hmem => h ?_)
    exact List.mem_cons_of_mem c hmem

theorem not_mem_foldLines (cs : List Char) : '\r' ∉ foldLines cs := by
  fun_induction foldLines cs with
  | case1 rest ih => simpa using ih
  | case2 rest hpair ih => simpa using ih
  | case3 c rest hpair hlone ih =>
    intro hmem
    rcases List.mem_cons.1 hmem with hc | hmem
    · exact hlone hc.symm
    · exact ih hmem
  | case4 => exact List.not_mem_nil

theorem foldLines_char {c : Char} (hc : c ≠ '\r') (cs : List Char) :
    foldLines (c :: cs) = c :: foldLines cs := by
  rw [foldLines.eq_3]
  · intro rest h
    exact absurd h hc
  · exact hc

theorem foldLines_lone {cs : List Char} (h : cs.head? ≠ some '\n') :
    foldLines ('\r' :: cs) = '\n' :: foldLines cs := by
  rw [foldLines.eq_2]
  intro rest hrest
  rw [hrest] at h
  exact h rfl

/-- However the newlines of a text are written, they are read as such. -/
theorem Spells.foldLines_eq {text written : List Char} (h : Spells text written) :
    foldLines written = text := by
  induction h with
  | nil => rfl
  | char hc _ ih => rw [foldLines_char hc, ih]
  | pair _ ih => rw [foldLines.eq_1, ih]
  | lone hbehind _ ih => rw [foldLines_lone hbehind, ih]

/-- Writing newlines otherwise puts no mark in front. -/
theorem Spells.head?_ne {text written : List Char} (h : Spells text written)
    (htext : text.head? ≠ some '\uFEFF') : written.head? ≠ some '\uFEFF' := by
  cases h with
  | nil => exact htext
  | char hc h => exact htext
  | pair h => simp
  | lone hbehind h => simp

-- ===================================================================== mark

/-- The byte order mark. -/
def mark : List UInt8 := [0xEF, 0xBB, 0xBF]

/-- No text is stored as the beginning of a mark, and none as something
behind a mark but one that begins with U+FEFF. -/
theorem dropMark_encode {cs : List Char} (h : cs.head? ≠ some '\uFEFF') :
    dropMark (Utf8.encode cs) = Utf8.encode cs := by
  have hback := Utf8.decode_encode cs
  unfold dropMark
  split
  · next heq =>
    rw [heq] at hback
    rw [← hback] at heq
    exact absurd heq (by decide)
  · next heq =>
    rw [heq] at hback
    rw [← hback] at heq
    exact absurd heq (by decide)
  · next rest heq =>
    rw [heq] at hback
    have hmark : Utf8.decode (0xEF :: 0xBB :: 0xBF :: rest) = '\uFEFF' :: Utf8.decode rest :=
      Utf8.decode_append ['\uFEFF'] rest
    rw [← hback, hmark] at h
    exact absurd rfl h
  · rfl

theorem read_encode {text written : List Char} (hspells : Spells text written)
    (hfirst : text.head? ≠ some '\uFEFF') :
    read (Utf8.encode written) = String.ofList text := by
  unfold read
  rw [dropMark_encode (hspells.head?_ne hfirst), Utf8.decode_encode, hspells.foldLines_eq]

theorem read_mark_encode {text written : List Char} (hspells : Spells text written) :
    read (mark ++ Utf8.encode written) = String.ofList text := by
  show String.ofList (foldLines (Utf8.decode (Utf8.encode written))) = _
  rw [Utf8.decode_encode, hspells.foldLines_eq]

end SourceText

-- ==================================================================== files

namespace FileSystem

/-- Some bytes are stored in the file at a path. -/
def Stores (fs : FileSystem) (path : String) (bytes : List UInt8) : Prop :=
  fs.find path = .ok (.file bytes)

theorem Stores.read {fs : FileSystem} {path : String} {bytes : List UInt8}
    (h : fs.Stores path bytes) : fs.read path = .ok (SourceText.read bytes) := by
  unfold FileSystem.read FileSystem.bytes
  rw [show fs.find path = _ from h]
  rfl

/-- Every text that is read has newlines for line endings. -/
theorem not_mem_of_read {fs : FileSystem} {path text : String} (h : fs.read path = .ok text) :
    '\r' ∉ text.toList := by
  unfold FileSystem.read at h
  cases hbytes : fs.bytes path with
  | error e =>
    rw [hbytes] at h
    cases h
  | ok bytes =>
    rw [hbytes] at h
    cases h
    unfold SourceText.read
    rw [String.toList_ofList]
    exact SourceText.not_mem_foldLines _

/-- Reading is a normal form. Every file has a text, without returns; a
text without returns is read from its bytes, plain or behind a mark, with
its newlines written in any way, unless it begins like a mark; so a text
that was read is read again from the bytes that a source has of it. -/
theorem reading_normalizes :
    (∀ (fs : FileSystem) (path : String) (bytes : List UInt8), fs.Stores path bytes →
      ∃ text, fs.read path = .ok text ∧ '\r' ∉ text.toList)
      ∧ (∀ text : String, '\r' ∉ text.toList → text.toList.head? ≠ some '\uFEFF' →
        SourceText.Spells text.toList text.toList
          ∧ ∀ written, SourceText.Spells text.toList written → ∀ (fs : FileSystem) (path : String),
            fs.Stores path (Utf8.encode written)
                ∨ fs.Stores path (SourceText.mark ++ Utf8.encode written) →
              fs.read path = .ok text)
      ∧ ∀ (fs : FileSystem) (path text : String), fs.read path = .ok text →
        text.toList.head? ≠ some '\uFEFF' → ∀ (fs' : FileSystem) (path' : String),
          fs'.Stores path' (Source.ofText text).bytes.toList → fs'.read path' = .ok text := by
  have hplain : ∀ (text : String) (written : List Char), text.toList.head? ≠ some '\uFEFF' →
      SourceText.Spells text.toList written → ∀ (fs : FileSystem) (path : String),
        fs.Stores path (Utf8.encode written) → fs.read path = .ok text := by
    intro text written hfirst hspells fs path hstores
    rw [hstores.read, SourceText.read_encode hspells hfirst, String.ofList_toList]
  refine ⟨?_, ?_, ?_⟩
  · intro fs path bytes hstores
    exact ⟨_, hstores.read, not_mem_of_read hstores.read⟩
  · intro text hreturns hfirst
    refine ⟨SourceText.spells_self hreturns, ?_⟩
    intro written hspells fs path hstores
    rcases hstores with hstores | hstores
    · exact hplain text written hfirst hspells fs path hstores
    · rw [hstores.read, SourceText.read_mark_encode hspells, String.ofList_toList]
  · intro fs path text hread hfirst fs' path' hstores
    exact hplain text text.toList hfirst (SourceText.spells_self (not_mem_of_read hread)) fs' path'
      hstores

/-- A file system with one file. -/
def single (bytes : List UInt8) : FileSystem := ⟨[("a.cs", .file bytes)], []⟩

theorem stores_single (bytes : List UInt8) : (single bytes).Stores "a.cs" bytes := by
  unfold Stores
  with_unfolding_all rfl

/-- Two newlines and a last one, each written in another way behind a
mark, are read as newlines, and from there on the text stays as it is. -/
theorem line_endings_read :
    (single (SourceText.mark ++ Utf8.encode ['\r', '\r', '\n', 'é', '\n'])).read "a.cs"
        = .ok "\n\né\n"
      ∧ (single (Source.ofText "\n\né\n").bytes.toList).read "a.cs" = .ok "\n\né\n" := by
  have hspells : SourceText.Spells "\n\né\n".toList ['\r', '\r', '\n', 'é', '\n'] :=
    .lone (by decide) (.pair (.char (by decide) (.char (by decide) .nil)))
  have hread := (reading_normalizes.2.1 "\n\né\n" (by decide) (by decide)).2 _ hspells _ _
    (.inr (stores_single _))
  exact ⟨hread, reading_normalizes.2.2 _ _ _ hread (by decide) _ _ (stores_single _)⟩

end FileSystem

end QueryLint
