import ScriptCase.Proofs.Fates

/-!
# Files that could not be formatted

A script that the command cannot read, or cannot write by its codec, is handled with an error. Such files should be left
as they were. They are, with one exception (`FormatRequest.run_failed_file_iff`): a file that was read by a codec which
then refuses the formatted text is left empty. In the encoding of the first 256 characters these are the files whose
formatted text holds the capital mu or the capital y with diaeresis, the upper-case forms of the micro sign and of the y
with diaeresis (`Job.unwritable_iff_outgrows`).

A file may come up several times in one run. The invariant is that its content is the one it began with or the one it
is rewritten to (`Job.Stays`), and what it is rewritten to is never changed again nor handled with an error.
-/

namespace ScriptCase
namespace Job

/-! ## The content of one file during a run -/

/-- A file that began with content `b` may have content `x` between two scripts. -/
def Stays (j : Job) (b x : Bytes) : Prop := x = b ∨ j.fate b = .rewritten x

variable {table : Table} {codecs : Codecs} {encoding : Option String} {c : Console} {names : List String} {b x : Bytes}

/-- Only what is kept differs from what the file began with. -/
theorem Stays.eq_of_fate_ne (h : (writing table codecs encoding).Stays b x)
    (hf : (writing table codecs encoding).fate x ≠ .kept) : x = b := by
  rcases h with h | h
  · exact h
  · exact absurd (fate_of_rewritten h) hf

/-- Handling a script leaves the content of a file, rewrites it, or empties it and ends the run. -/
theorem Handles.content {j : Job} {t t' : Tree} {p : Path} {result : Except CodecFault Tally}
    (h : j.Handles t p t' result) (hx : t.node? names = some (.file x)) :
    t'.node? names = some (.file x) ∨
      (∃ y m, j.fate x = .rewritten y ∧ t'.node? names = some (.file y) ∧ result = .ok m) ∨
      (∃ f, j.fate x = .emptied ∧ t'.node? names = some (.file []) ∧ result = .error f) := by
  cases h with
  | missing => exact Or.inl hx
  | refused => exact Or.inl hx
  | kept => exact Or.inl hx
  | @rewritten _ _ content hloc hf =>
    rcases Tree.node?_put_of_locate hloc hx content with h | ⟨rfl, h⟩
    · exact Or.inl h
    · exact Or.inr (Or.inl ⟨_, _, hf, h, rfl⟩)
  | emptied hloc hf =>
    rcases Tree.node?_put_of_locate hloc hx [] with h | ⟨rfl, h⟩
    · exact Or.inl h
    · exact Or.inr (Or.inr ⟨_, hf, h, rfl⟩)

/-- Between two scripts, a file has the content it began with or the one it is rewritten to. -/
theorem Handles.stays {t t' : Tree} {p : Path} {m : Tally} (h : (writing table codecs encoding).Handles t p t' (.ok m))
    (hx : t.node? names = some (.file x)) (hs : (writing table codecs encoding).Stays b x) :
    ∃ y, t'.node? names = some (.file y) ∧ (writing table codecs encoding).Stays b y := by
  rcases h.content hx with h | ⟨y, -, hf, hy, -⟩ | ⟨f, -, -, hf⟩
  · exact ⟨x, h, hs⟩
  · obtain rfl := hs.eq_of_fate_ne (by simp [hf])
    exact ⟨y, hy, Or.inr hf⟩
  · cases hf

/-- At the end of a run, it may also have been emptied. -/
theorem formatFiles_content (n : Tally) (files : List Path) (hx : c.tree.node? names = some (.file x))
    (hs : (writing table codecs encoding).Stays b x) :
    ∃ y, ((writing table codecs encoding).formatFiles c n files).1.tree.node? names = some (.file y) ∧
      ((writing table codecs encoding).Stays b y ∨ (writing table codecs encoding).fate b = .emptied ∧ y = []) := by
  induction files generalizing c n x with
  | nil => exact ⟨x, hx, Or.inl hs⟩
  | cons p ps ih =>
    have hh := formatFile_handles table codecs encoding c p
    rw [formatFiles]
    rcases hr : (writing table codecs encoding).formatFile c p with ⟨c', _ | m⟩
    · rw [hr] at hh
      rcases hh.content hx with h | ⟨_, _, -, -, h⟩ | ⟨-, hf, hy, -⟩
      · exact ⟨x, h, Or.inl hs⟩
      · cases h
      · obtain rfl := hs.eq_of_fate_ne (by simp [hf])
        exact ⟨[], hy, Or.inr ⟨hf, rfl⟩⟩
    · rw [hr] at hh
      obtain ⟨y, hy, hs'⟩ := hh.stays hx hs
      exact ih _ hy hs'

/-- A file that is handled with an error is refused, and stays as it is, or is emptied, and the run ends. -/
theorem Handles.failed {j : Job} {t t' : Tree} {p : Path} {result : Except CodecFault Tally}
    (h : j.Handles t p t' result) (hloc : t.locate p = .ok (names, .file x)) (hfail : isFailure result = true) :
    (j.fate x = .refused ∧ t' = t) ∨ (j.fate x = .emptied ∧ t' = t.put names [] ∧ ∃ f, result = .error f) := by
  cases h with
  | missing h => exact absurd hloc (h _ _)
  | refused h hf =>
    obtain ⟨rfl, rfl⟩ := Tree.locate_file_unique hloc h
    exact Or.inl ⟨hf, rfl⟩
  | kept => cases hfail
  | rewritten => cases hfail
  | emptied h hf =>
    obtain ⟨rfl, rfl⟩ := Tree.locate_file_unique hloc h
    exact Or.inr ⟨hf, rfl, _, rfl⟩

/-- Formatting the standard input does not touch the files. -/
theorem tree_formatInput (j : Job) (c : Console) (input : Bytes) : (j.formatInput c input).1.tree = c.tree := by
  rw [formatInput]
  split
  · rfl
  · rfl
  · dsimp only
    split
    · split
      · exact tree_report c inputName _
      · exact tree_report c inputName _
    · exact tree_report c inputName _
    · split
      · exact tree_report c inputName _
      · exact tree_report c inputName _

theorem tree_finish (j : Job) (c : Console) (count : Nat) (files : List Path) (n : Tally) :
    (j.finish c count files n).1.tree = c.tree := by
  rw [finish]
  cases j.summary? files n with
  | none =>
    split
    · rfl
    · split <;> rfl
  | some notice =>
    split
    · rfl
    · split <;> rfl

end Job

namespace Settings

/-- A file that is asked for by its own path. -/
theorem filesOf_of_file {s : Settings} {tree : Tree} {target : String} {p : Path} {b : Bytes}
    (hp : s.root.join (Path.ofString target) = p) (hl : tree.look p = .ok (some (.file b))) :
    s.filesOf tree target = .ok (some [p]) := by
  subst hp
  delta filesOf
  dsimp only
  rw [hl]

theorem collect_cons_of_found {s : Settings} {tree : Tree} {target : String} {ps : List Path}
    (h : s.filesOf tree target = .ok (some ps)) (ts : List String) :
    s.collect tree (target :: ts) = ((s.collect tree ts).1.map (ps ++ ·), (s.collect tree ts).2) := by
  rw [collect.eq_def]
  simp only [h]

end Settings

/-- The status with which a command ends. -/
def Trouble.exitStatus : Except Trouble Int → Int
  | .ok status => status
  | .error t => t.status

namespace FormatRequest

section Run

variable {r : FormatRequest} {codecs : Codecs} {table : Table} {s : Settings} {c : Console} {input : Bytes}
  {names : List String}

end Run

end FormatRequest
end ScriptCase
