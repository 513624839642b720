import ScriptCase.Proofs.InPlace
import ScriptCase.Proofs.Shape

/-!
# Runs over scripts

The command goes through its scripts one after another. What it counts for a script is told by the fate that the script
has at that moment (`Job.tally_of_formatFile`). A run that only lists scripts leaves the tree as it is and prints those
whose fate is a change (`Job.formatFiles_check`). A run that overwrites scripts changes what later ones are read from,
but it refuses no script that it would not have refused at the start (`Job.errors_formatFiles_write`), and if it gets to
its end, every script has become what its fate at the start says (`Job.node?_formatFiles_of_mem`).
-/

namespace ScriptCase

namespace Fate

/-- The file does not stay as it is, if it may be written. -/
def isChange : Fate → Bool
  | .rewritten _ => true
  | .emptied => true
  | _ => false

/-- What a script of this fate adds to the tally. -/
def tally (f : Fate) : Tally := ⟨if f.isChange then 1 else 0, if f = .refused then 1 else 0⟩

/-- What becomes of the content of a file. -/
def content (old : Bytes) : Fate → Bytes
  | .rewritten new => new
  | .emptied => []
  | _ => old

variable {f : Fate}

theorem eq_kept_iff : f = .kept ↔ f ≠ .refused ∧ f.isChange = false := by
  cases f <;> simp [isChange]

theorem ne_refused_of_isChange (h : f.isChange = true) : f ≠ .refused := by
  rintro rfl
  cases h

theorem content_of_not_isChange (h : f.isChange = false) (b : Bytes) : f.content b = b := by
  cases f with
  | rewritten new => cases h
  | emptied => cases h
  | _ => rfl

end Fate

namespace Job

/-- The fate of the file at a path; what is no file is refused. -/
def fateAt (j : Job) (t : Tree) (p : Path) : Fate :=
  match t.locate p with
  | .ok (_, .file b) => j.fate b
  | _ => .refused

variable {j : Job} {table : Table} {codecs : Codecs} {encoding : Option String} {c : Console} {t t' : Tree}
  {p q : Path} {m n : Tally} {files : List Path} {names : List String} {b x : Bytes}

theorem fateAt_of_locate (h : t.locate p = .ok (names, .file b)) : j.fateAt t p = j.fate b := by
  rw [fateAt, h]

theorem fateAt_of_not_file (h : ¬∃ names b, t.locate p = .ok (names, .file b)) : j.fateAt t p = .refused := by
  rw [fateAt]
  split
  · next hloc => exact absurd ⟨_, _, hloc⟩ h
  · rfl

theorem exists_of_fateAt_ne (h : j.fateAt t p ≠ .refused) : ∃ names b, t.locate p = .ok (names, .file b) := by
  by_contra hnone
  exact h (fateAt_of_not_file hnone)

/-! ## One script -/

theorem fateAt_of_readFile_error {f : ReadFault} (h : j.readFile t p = .error f) : j.fateAt t p = .refused := by
  rw [fateAt]
  split
  · next names b hloc =>
    have hread : t.read p = .ok b := by rw [Tree.read, hloc]
    rw [readFile_of_read hread] at h
    rw [fate]
    cases hd : j.fileCodec >>= fun codec => codec.decode b with
    | error f => rfl
    | ok old => rw [hd] at h; cases h
  · rfl

theorem isChange_fateAt_of_readFile {old : Text} (h : j.readFile t p = .ok old) :
    (j.fateAt t p).isChange = (j.formatter.formatText old).isChanged ∧ j.fateAt t p ≠ .refused := by
  cases hread : t.read p with
  | error f =>
    obtain ⟨f', hf'⟩ := readFile_of_read_error (j := j) hread
    rw [h] at hf'
    cases hf'
  | ok b =>
    obtain ⟨names, hloc⟩ := Tree.exists_locate_of_read hread
    rw [readFile_of_read hread, mapError_eq_ok_iff] at h
    rw [fateAt_of_locate hloc, fate, h]
    dsimp only
    split
    · next hc =>
      rw [hc]
      split
      · exact ⟨rfl, by simp⟩
      · exact ⟨rfl, by simp⟩
    · next hc =>
      rw [Bool.not_eq_true] at hc
      rw [hc]
      exact ⟨rfl, by simp⟩

/-- A script is counted by its fate. -/
theorem tally_of_formatFile (hj : j.formatter = .ofTable table) (h : (j.formatFile c p).2 = .ok m) :
    m = (j.fateAt c.tree p).tally := by
  rw [formatFile] at h
  cases hread : j.readFile c.tree p with
  | error f =>
    rw [fateAt_of_readFile_error hread]
    rw [hread] at h
    cases f with
    | reported reason => exact (Except.ok.inj h).symm
    | fatal f => cases h
  | ok old =>
    have hnone : (j.formatter.formatText old).failures = [] := hj ▸ Formatter.formatText_failures table old
    obtain ⟨hchange, hne⟩ := isChange_fateAt_of_readFile hread
    rw [Fate.tally, if_neg hne, hchange]
    simp only [hread, hnone] at h
    split at h
    · next hc =>
      obtain ⟨u, -, rfl⟩ := map_eq_ok_iff.mp h
      rw [if_pos hc]
      rfl
    · next hc =>
      rw [if_neg hc]
      exact (Except.ok.inj h).symm

/-- A script that is kept is handled without an error, whatever the job is. -/
theorem formatFile_of_kept (hj : j.formatter = .ofTable table) (h : j.fateAt c.tree p = .kept) :
    (j.formatFile c p).2 = .ok ⟨0, 0⟩ := by
  have hok : ∃ m, (j.formatFile c p).2 = .ok m := by
    rw [formatFile]
    cases hread : j.readFile c.tree p with
    | error f =>
      rw [fateAt_of_readFile_error hread] at h
      cases h
    | ok old =>
      obtain ⟨hchange, -⟩ := isChange_fateAt_of_readFile hread
      rw [h] at hchange
      dsimp only
      rw [← hchange]
      exact ⟨_, rfl⟩
  obtain ⟨m, hm⟩ := hok
  rw [hm, tally_of_formatFile hj hm, h]
  rfl

/-- Only a job that overwrites scripts changes files. -/
theorem tree_formatFile (hmode : j.mode ≠ .write) : (j.formatFile c p).1.tree = c.tree := by
  rw [formatFile]
  split
  · rfl
  · rfl
  · dsimp only
    split
    · rw [settle]
      split
      · exact tree_report c p.text _
      · exact tree_report c p.text _
      · next h => exact absurd h hmode
    · exact tree_report c p.text _

/-! ## One script after another -/

/-- What holds between the consoles before and after each script holds between those before and after a run. -/
theorem rel_formatFiles {R : Console → Console → Prop} (hrefl : ∀ c, R c c)
    (htrans : ∀ {c c' c''}, R c c' → R c' c'' → R c c'') (hstep : ∀ c p, R c (j.formatFile c p).1)
    (c : Console) (n : Tally) (files : List Path) :
    R c (j.formatFiles c n files).1 := by
  induction files generalizing c n with
  | nil => exact hrefl _
  | cons p ps ih =>
    have hfirst := hstep c p
    rw [formatFiles]
    rcases hr : j.formatFile c p with ⟨c', f | k⟩
    · rw [hr] at hfirst
      exact hfirst
    · rw [hr] at hfirst
      exact htrans hfirst (ih c' (n.add k))

/-- A run that gets to its end gets behind its first script. -/
theorem formatFiles_cons_of_ok {ps : List Path} (h : (j.formatFiles c n (p :: ps)).2 = .ok m) :
    ∃ c' k, j.formatFile c p = (c', .ok k) ∧ j.formatFiles c n (p :: ps) = j.formatFiles c' (n.add k) ps := by
  rw [formatFiles] at h ⊢
  rcases hr : j.formatFile c p with ⟨c', f | k⟩
  · rw [hr] at h
    cases h
  · exact ⟨c', k, rfl, rfl⟩

theorem tree_formatFiles (hmode : j.mode ≠ .write) : (j.formatFiles c n files).1.tree = c.tree :=
  (rel_formatFiles (R := fun c c' => c.tree = c'.tree) (fun _ => rfl) Eq.trans
    (fun _ _ => (tree_formatFile hmode).symm) c n files).symm

/-! ## Runs that list scripts -/

theorem printed_report (c : Console) (name : String) (r : Report) : (report c name r).printed = c.printed := by
  have hfold : ∀ (l : List LineFailure) (c : Console),
      (l.foldl (fun c f => c.notify (.lineFailure name f)) c).printed = c.printed := by
    intro l
    induction l with
    | nil => exact fun c => rfl
    | cons f l ih => exact fun c => ih _
  exact hfold _ _

/-- A script is listed if its fate is a change. -/
theorem printed_formatFile_check (hmode : j.mode = .check) : (j.formatFile c p).1.printed =
    c.printed ++ if (j.fateAt c.tree p).isChange then [.wouldReformat p] else [] := by
  rw [formatFile]
  cases hread : j.readFile c.tree p with
  | error f =>
    rw [fateAt_of_readFile_error hread]
    cases f with
    | reported reason => exact (List.append_nil _).symm
    | fatal f => exact (List.append_nil _).symm
  | ok old =>
    rw [(isChange_fateAt_of_readFile hread).1]
    dsimp only
    split
    · rw [settle, hmode]
      exact congrArg (· ++ [Printed.wouldReformat p]) (printed_report c p.text _)
    · rw [List.append_nil]
      exact printed_report c p.text _

/-- A run that gets to its end lists all scripts whose fate is a change, and counts them and those that are refused. -/
theorem formatFiles_check (hj : j.formatter = .ofTable table) (hmode : j.mode = .check)
    (h : (j.formatFiles c n files).2 = .ok m) :
    (j.formatFiles c n files).1.printed =
        c.printed ++ (files.filter fun p => (j.fateAt c.tree p).isChange).map .wouldReformat ∧
      m.changed = n.changed + files.countP (fun p => (j.fateAt c.tree p).isChange) ∧
      m.errors = n.errors + files.countP (fun p => j.fateAt c.tree p = .refused) := by
  induction files generalizing c n with
  | nil =>
    obtain rfl := Except.ok.inj h
    exact ⟨(List.append_nil _).symm, rfl, rfl⟩
  | cons p ps ih =>
    have htree := tree_formatFile (j := j) (c := c) (p := p) (by simp [hmode])
    have hprinted := printed_formatFile_check (c := c) (p := p) hmode
    obtain ⟨c', k, hr, hrest⟩ := formatFiles_cons_of_ok h
    have hk := tally_of_formatFile (m := k) hj (by rw [hr])
    rw [hr] at htree hprinted
    rw [hrest] at h ⊢
    obtain ⟨hp, hchanged, herrors⟩ := ih h
    dsimp only at htree hprinted
    rw [hp, hchanged, herrors, htree, hprinted, hk]
    refine ⟨?_, ?_, ?_⟩
    · rw [List.filter_cons, List.append_assoc]
      split <;> rfl
    · rw [List.countP_cons, Nat.add_comm (ps.countP _), ← Nat.add_assoc]
      rfl
    · rw [List.countP_cons, Nat.add_comm (ps.countP _), ← Nat.add_assoc]
      simp only [Tally.add, Fate.tally, decide_eq_true_eq]

/-- A run finds nothing to do where all scripts are kept. -/
theorem formatFiles_of_kept (hj : j.formatter = .ofTable table) (hmode : j.mode ≠ .write)
    (h : ∀ p ∈ files, j.fateAt c.tree p = .kept) : (j.formatFiles c n files).2 = .ok n := by
  induction files generalizing c with
  | nil => rfl
  | cons p ps ih =>
    have htree := tree_formatFile (j := j) (c := c) (p := p) hmode
    have hresult := formatFile_of_kept hj (h p (List.mem_cons_self ..))
    rw [formatFiles]
    rcases hr : j.formatFile c p with ⟨c', f | k⟩
    · rw [hr] at hresult
      cases hresult
    · rw [hr] at htree hresult
      obtain rfl := Except.ok.inj hresult
      exact ih fun q hq => htree ▸ h q (List.mem_cons_of_mem _ hq)

/-! ## Runs that overwrite scripts -/

theorem Handles.sameShape {result : Except CodecFault Tally} (h : j.Handles t p t' result) : t.SameShape t' := by
  cases h with
  | missing => exact .refl t
  | refused => exact .refl t
  | kept => exact .refl t
  | rewritten h => exact .put (Tree.node?_of_locate h) _
  | emptied h => exact .put (Tree.node?_of_locate h) _

/-- A run changes nothing but the content of files. -/
theorem sameShape_formatFiles (c : Console) (n : Tally) (files : List Path) :
    c.tree.SameShape ((writing table codecs encoding).formatFiles c n files).1.tree :=
  rel_formatFiles (R := fun c c' => c.tree.SameShape c'.tree) (fun c => .refl c.tree) .trans
    (fun c p => (formatFile_handles table codecs encoding c p).sameShape) c n files

/-- The path of a file that has been handled leads to the same place, where a file is that began with the same
content. -/
theorem Handles.locate (h : (writing table codecs encoding).Handles t p t' (.ok m))
    (hq : t.locate q = .ok (names, .file x)) (hs : (writing table codecs encoding).Stays b x) :
    ∃ y, t'.locate q = .ok (names, .file y) ∧ (writing table codecs encoding).Stays b y := by
  obtain ⟨y, hy, hstays⟩ := h.stays (Tree.node?_of_locate hq) hs
  obtain ⟨z, hz⟩ := h.sameShape.locate_file hq
  obtain rfl : y = z := by simpa [hy] using Tree.node?_of_locate hz
  exact ⟨y, hz, hstays⟩

theorem Stays.refused_iff (h : (writing table codecs encoding).Stays b x) :
    (writing table codecs encoding).fate x = .refused ↔ (writing table codecs encoding).fate b = .refused := by
  rcases h with rfl | h
  · exact Iff.rfl
  · rw [fate_of_rewritten h, h]
    simp

theorem ne_of_fate_rewritten {new : Bytes} (h : (writing table codecs encoding).fate b = .rewritten new) : new ≠ b := by
  rintro rfl
  have hkept := fate_of_rewritten h
  rw [h] at hkept
  cases hkept

/-- Handling a script does not change which scripts are refused. -/
theorem Handles.refused_iff (h : (writing table codecs encoding).Handles t p t' (.ok m)) (q : Path) :
    (writing table codecs encoding).fateAt t' q = .refused ↔ (writing table codecs encoding).fateAt t q = .refused := by
  by_cases hq : ∃ names b, t.locate q = .ok (names, .file b)
  · obtain ⟨names, b, hq⟩ := hq
    obtain ⟨y, hy, hstays⟩ := h.locate hq (Or.inl rfl)
    rw [fateAt_of_locate hq, fateAt_of_locate hy]
    exact hstays.refused_iff
  · have hq' : ¬∃ names b, t'.locate q = .ok (names, .file b) := by
      rintro ⟨names, b, hb⟩
      obtain ⟨b', hb'⟩ := h.sameShape.symm.locate_file hb
      exact hq ⟨names, b', hb'⟩
    exact iff_of_true (fateAt_of_not_file hq') (fateAt_of_not_file hq)

/-- Nor does a run that gets to its end. -/
theorem refused_formatFiles_iff (h : ((writing table codecs encoding).formatFiles c n files).2 = .ok m) (q : Path) :
    (writing table codecs encoding).fateAt ((writing table codecs encoding).formatFiles c n files).1.tree q = .refused ↔
      (writing table codecs encoding).fateAt c.tree q = .refused := by
  induction files generalizing c n with
  | nil => exact Iff.rfl
  | cons p ps ih =>
    have hh := formatFile_handles table codecs encoding c p
    obtain ⟨c', k, hr, hrest⟩ := formatFiles_cons_of_ok h
    rw [hr] at hh
    rw [hrest] at h ⊢
    exact (ih h).trans (hh.refused_iff q)

/-- A run that gets to its end counts the scripts that it would have refused at the start. -/
theorem errors_formatFiles_write (h : ((writing table codecs encoding).formatFiles c n files).2 = .ok m) :
    m.errors = n.errors + files.countP (fun p => (writing table codecs encoding).fateAt c.tree p = .refused) := by
  induction files generalizing c n with
  | nil =>
    obtain rfl := Except.ok.inj h
    rfl
  | cons p ps ih =>
    have hh := formatFile_handles table codecs encoding c p
    obtain ⟨c', k, hr, hrest⟩ := formatFiles_cons_of_ok h
    have hk := tally_of_formatFile (m := k) (writing_formatter table codecs encoding) (by rw [hr])
    rw [hr] at hh
    rw [hrest] at h
    rw [ih h, List.countP_cons, Nat.add_comm (ps.countP _), ← Nat.add_assoc, hk]
    simp only [hh.refused_iff, Tally.add, Fate.tally, decide_eq_true_eq]

/-- What is kept or refused stays as it is. -/
theorem node?_formatFiles_of_settled (n : Tally) (files : List Path) (hx : c.tree.node? names = some (.file x))
    (hf : ((writing table codecs encoding).fate x).isChange = false) :
    ((writing table codecs encoding).formatFiles c n files).1.tree.node? names = some (.file x) := by
  have hs : (writing table codecs encoding).Stays x x := Or.inl rfl
  obtain ⟨y, hy, hcases⟩ := formatFiles_content n files hx hs
  rcases hcases with (rfl | hrewritten) | ⟨hemptied, -⟩
  · exact hy
  · rw [hrewritten] at hf
    cases hf
  · rw [hemptied] at hf
    cases hf

/-- A script that is handled without ending the run becomes what its fate at the start says, and is settled then. -/
theorem Handles.meets (h : (writing table codecs encoding).Handles t p t' (.ok m))
    (hloc : t.locate p = .ok (names, .file x)) (hs : (writing table codecs encoding).Stays b x) :
    ∃ y, t'.node? names = some (.file y) ∧ y = ((writing table codecs encoding).fate b).content b ∧
      ((writing table codecs encoding).fate y).isChange = false := by
  have hnode := Tree.node?_of_locate hloc
  cases h with
  | missing h => exact absurd hloc (h _ _)
  | refused h hf =>
    obtain ⟨rfl, rfl⟩ := Tree.locate_file_unique hloc h
    obtain rfl := hs.eq_of_fate_ne (by simp [hf])
    exact ⟨_, hnode, by rw [hf]; rfl, by rw [hf]; rfl⟩
  | kept h hf =>
    obtain ⟨rfl, rfl⟩ := Tree.locate_file_unique hloc h
    refine ⟨_, hnode, ?_, by rw [hf]; rfl⟩
    rcases hs with rfl | hs
    · rw [hf]
      rfl
    · rw [hs]
      rfl
  | @rewritten _ _ content h hf =>
    obtain ⟨rfl, rfl⟩ := Tree.locate_file_unique hloc h
    obtain rfl := hs.eq_of_fate_ne (by simp [hf])
    refine ⟨content, ?_, by rw [hf]; rfl, by rw [fate_of_rewritten hf]; rfl⟩
    rw [Tree.node?_put hnode, if_pos rfl]

/-- A script that comes up in a run which gets to its end has become what its fate at the start says. -/
theorem node?_formatFiles_of_mem (h : ((writing table codecs encoding).formatFiles c n files).2 = .ok m)
    (hp : p ∈ files) (hloc : c.tree.locate p = .ok (names, .file x)) (hs : (writing table codecs encoding).Stays b x) :
    ∃ y, ((writing table codecs encoding).formatFiles c n files).1.tree.node? names = some (.file y) ∧
      y = ((writing table codecs encoding).fate b).content b ∧
      ((writing table codecs encoding).fate y).isChange = false := by
  induction files generalizing c n x with
  | nil => cases hp
  | cons q qs ih =>
    have hh := formatFile_handles table codecs encoding c q
    obtain ⟨c', k, hr, hrest⟩ := formatFiles_cons_of_ok h
    rw [hr] at hh
    rw [hrest] at h ⊢
    -- Until it comes up for the first time, its content is one that it may have.
    rcases List.mem_cons.mp hp with rfl | hp
    · obtain ⟨y, hy, hcontent, hf⟩ := hh.meets hloc hs
      exact ⟨y, node?_formatFiles_of_settled _ qs hy hf, hcontent, hf⟩
    · obtain ⟨y, hy, hstays⟩ := hh.locate hloc hs
      exact ih h hp hy hstays

/-- A script that comes up and is not refused is kept by any later run. -/
theorem fateAt_formatFiles_of_mem (h : ((writing table codecs encoding).formatFiles c n files).2 = .ok m)
    (hp : p ∈ files) (hf : (writing table codecs encoding).fateAt c.tree p ≠ .refused) :
    (writing table codecs encoding).fateAt ((writing table codecs encoding).formatFiles c n files).1.tree p =
      .kept := by
  obtain ⟨names, b, hloc⟩ := exists_of_fateAt_ne hf
  obtain ⟨y, hy, -, hsettled⟩ := node?_formatFiles_of_mem h hp hloc (Or.inl rfl)
  have hshape : c.tree.SameShape ((writing table codecs encoding).formatFiles c n files).1.tree :=
    sameShape_formatFiles c n files
  obtain ⟨z, hz⟩ := hshape.locate_file hloc
  obtain rfl : y = z := by simpa [hy] using Tree.node?_of_locate hz
  rw [Fate.eq_kept_iff]
  refine ⟨mt (refused_formatFiles_iff h p).mp hf, ?_⟩
  rw [fateAt_of_locate hz]
  exact hsettled

/-- Handling a script leaves all places alone but its own. -/
theorem Handles.node?_of_ne {result : Except CodecFault Tally} (h : j.Handles t p t' result)
    (hne : ∀ b, t.locate p ≠ .ok (names, .file b)) : t'.node? names = t.node? names := by
  cases h with
  | missing => rfl
  | refused => rfl
  | kept => rfl
  | rewritten h =>
    rw [Tree.node?_put (Tree.node?_of_locate h), if_neg]
    rintro rfl
    exact hne _ h
  | emptied h =>
    rw [Tree.node?_put (Tree.node?_of_locate h), if_neg]
    rintro rfl
    exact hne _ h

/-- A place that no script leads to stays as it is. -/
theorem node?_formatFiles_of_not_mem (h : ∀ p ∈ files, ∀ b, c.tree.locate p ≠ .ok (names, .file b)) :
    ((writing table codecs encoding).formatFiles c n files).1.tree.node? names = c.tree.node? names := by
  induction files generalizing c n with
  | nil => rfl
  | cons p ps ih =>
    have hh := formatFile_handles table codecs encoding c p
    have hnode := hh.node?_of_ne (h p (List.mem_cons_self ..))
    rw [formatFiles]
    rcases hr : (writing table codecs encoding).formatFile c p with ⟨c', f | k⟩
    · rw [hr] at hnode
      exact hnode
    · rw [hr] at hnode hh
      refine (ih fun q hq b hb => ?_).trans hnode
      obtain ⟨b', hb'⟩ := hh.sameShape.symm.locate_file hb
      exact h q (List.mem_cons_of_mem _ hq) b' hb'

/-! ## Scripts in UTF-8 -/

theorem reported_of_decode_error {b : Bytes} {f : ReadFault}
    (h : ((Utf8.decode b).mapError CodecFault.undecodable).mapError .ofCodec = .error f) :
    ∃ reason, f = .reported reason := by
  cases hd : Utf8.decode b with
  | error g =>
    rw [hd] at h
    exact ⟨_, (Except.error.inj h).symm⟩
  | ok old =>
    rw [hd] at h
    cases h

section Utf8

variable (he : j.encoding = some "utf-8")
include he

theorem codecName_utf8 (file : Bool) : j.codecName file = .ok "utf-8" := by
  rw [codecName, he]
  rfl

theorem fileCodec_utf8 : j.fileCodec = .ok Encoding.utf8.fileCodec := by
  have hfound : j.codecs.file "utf-8" = .ok Encoding.utf8.fileCodec := j.codecs.file_encoding rfl
  rw [fileCodec, codecName_utf8 he]
  exact congrArg (Except.mapError CodecFault.notFound) hfound

theorem inlineCodec_utf8 : j.inlineCodec = .ok Encoding.utf8.inlineCodec := by
  have hfound : j.codecs.inline "utf-8" = .ok Encoding.utf8.inlineCodec := j.codecs.inline_encoding rfl
  rw [inlineCodec, codecName_utf8 he]
  exact congrArg (Except.mapError CodecFault.notFound) hfound

/-- What cannot be read is reported. -/
theorem readFile_utf8_error {f : ReadFault} (h : j.readFile t p = .error f) : ∃ reason, f = .reported reason := by
  rw [readFile, codecName_utf8 he] at h
  cases hread : t.read p with
  | error g =>
    rw [hread] at h
    exact ⟨_, (Except.error.inj h).symm⟩
  | ok b =>
    rw [hread, fileCodec_utf8 he] at h
    exact reported_of_decode_error h

theorem readInput_utf8_error {input : Bytes} {f : ReadFault} (h : j.readInput input = .error f) :
    ∃ reason, f = .reported reason := by
  rw [readInput, codecName_utf8 he, inlineCodec_utf8 he] at h
  dsimp only at h
  split at h
  · cases h
  · exact reported_of_decode_error h

theorem settle_utf8 (c : Console) (p : Path) (old new : Text) : (j.settle c p old new).2 = .ok () := by
  have hencode : j.encodeFile new = .ok (Utf8.encode new) := by rw [encodeFile, fileCodec_utf8 he]; rfl
  rw [settle]
  split
  · rfl
  · rfl
  · rw [overwrite, hencode]

/-- A script never ends a run. -/
theorem exists_formatFile_utf8 (c : Console) (p : Path) : ∃ m, (j.formatFile c p).2 = .ok m := by
  rw [formatFile]
  cases hread : j.readFile c.tree p with
  | error f =>
    obtain ⟨reason, rfl⟩ := readFile_utf8_error he hread
    exact ⟨_, rfl⟩
  | ok old =>
    dsimp only
    split
    · exact ⟨_, map_eq_ok_iff.mpr ⟨(), settle_utf8 he _ _ _ _, rfl⟩⟩
    · exact ⟨_, rfl⟩

theorem exists_formatFiles_utf8 (c : Console) (n : Tally) (files : List Path) :
    ∃ m, (j.formatFiles c n files).2 = .ok m := by
  induction files generalizing c n with
  | nil => exact ⟨n, rfl⟩
  | cons p ps ih =>
    obtain ⟨k, hk⟩ := exists_formatFile_utf8 he c p
    rw [formatFiles]
    rcases hr : j.formatFile c p with ⟨c', f | k⟩
    · rw [hr] at hk
      cases hk
    · exact ih c' (n.add k)

/-- The standard input never ends a run either. -/
theorem exists_formatInput_utf8 (c : Console) (input : Bytes) : ∃ m, (j.formatInput c input).2 = .ok m := by
  rw [formatInput]
  cases hread : j.readInput input with
  | error f =>
    obtain ⟨reason, rfl⟩ := readInput_utf8_error he hread
    exact ⟨_, rfl⟩
  | ok old =>
    have hencode : j.encodeOutput (j.formatter.formatText old).text =
        .ok (Utf8.encode (j.formatter.formatText old).text) := by
      rw [encodeOutput, inlineCodec_utf8 he]
      rfl
    dsimp only
    rw [hencode]
    split <;> exact ⟨_, rfl⟩

end Utf8

/-- The fate of a file in UTF-8. -/
theorem fate_utf8 (table : Table) (codecs : Codecs) (b : Bytes) : (writing table codecs (some "utf-8")).fate b =
    match Utf8.decode b with
    | .error _ => .refused
    | .ok old =>
      if ((Formatter.ofTable table).formatText old).text = old then .kept
      else .rewritten (Utf8.encode ((Formatter.ofTable table).formatText old).text) := by
  have he : (writing table codecs (some "utf-8")).fileCodec = .ok Encoding.utf8.fileCodec := fileCodec_utf8 rfl
  have hstream : Encoding.utf8.fileCodec.decode b = (Utf8.decode b).mapError .undecodable := rfl
  cases hd : Utf8.decode b with
  | error f => exact fate_of_decode_error (f := .undecodable f) he (by rw [hstream, hd]; rfl)
  | ok old => exact fate_of_decode he (by rw [hstream, hd]; rfl)

end Job
end ScriptCase
