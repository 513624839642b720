import ScriptCase.Proofs.DryRun

/-!
# Checking after formatting

A check of scripts that were formatted without an error finds nothing to do (`World.check_passes`), in any encoding,
unless the settings or the keyword table were themselves among the files that were formatted.

The check starts from another tree, but one of the same shape. It reaches the same settings, the same table and the same
files, and every file is kept now (`Job.fateAt_formatFiles_of_mem`).
-/

namespace ScriptCase

/-- The file at a path is among the collected ones, by this path or another. -/
def Settings.Collects (s : Settings) (t : Tree) (targets : List String) (q : Path) : Prop :=
  ∃ files records, s.collect t targets = (.ok files, records) ∧
    ∃ p ∈ files, ∃ names b, t.locate p = .ok (names, .file b) ∧ t.locate q = .ok (names, .file b)

/-- The files that a request reads before it looks for scripts: the settings and the keyword table. -/
def FormatRequest.Reads (r : FormatRequest) (s : Settings) (q : Path) : Prop :=
  s.source = some q ∨ ∃ p, s.tableAt r.table? = some p ∧ p.onDisk? = some q

/-- A file that is not among the scripts is read after a run as it was before. -/
theorem Job.read_formatFiles {table : Table} {codecs : Codecs} {encoding : Option String} {c : Console}
    {files : List Path} {q : Path} (n : Tally) (h : ¬∃ p ∈ files, ∃ names b, c.tree.locate p = .ok (names, .file b) ∧
      c.tree.locate q = .ok (names, .file b)) :
    ((writing table codecs encoding).formatFiles c n files).1.tree.read q = c.tree.read q := by
  refine (sameShape_formatFiles c n files).read fun names b hq => ?_
  rw [node?_formatFiles_of_not_mem, Tree.node?_of_locate hq]
  intro p hp b' hloc
  obtain rfl : b' = b := by simpa [Tree.node?_of_locate hloc] using Tree.node?_of_locate hq
  exact h ⟨p, hp, names, b', hloc, hq⟩

namespace World

variable {w : World} {words : List String} {r : FormatRequest} {s : Settings} {table : Table} {files : List Path}
  {front args : List String} {i : Invocation}

theorem Asks.unique {s' : Settings} (h : w.Asks words r s) (h' : w.Asks words r s') : s' = s := by
  obtain ⟨p, place, -, records, hp, hplace, -, -, hload⟩ := h
  obtain ⟨p', place', -, records', hp', hplace', -, -, hload'⟩ := h'
  obtain rfl := Except.ok.inj (hp.symm.trans hp')
  obtain rfl := Except.ok.inj (hplace.symm.trans hplace')
  exact Except.ok.inj (congrArg Prod.fst (hload'.symm.trans hload))

/-- Settings are reached from another tree of the same shape, if their file is the same. -/
theorem Asks.of_sameShape {t : Tree} (h : w.Asks words r s) (hshape : w.tree.SameShape t)
    (hread : ∀ q, s.source = some q → t.read q = w.tree.read q) : ({ w with tree := t } : World).Asks words r s := by
  obtain ⟨p, place, i, records, hp, hplace, hi, hr, hload⟩ := h
  exact ⟨p, place, i, records, hp, hshape.cwd ▸ hplace, hi, hr, Settings.load_of_sameShape hshape hload hread⟩

/-- So are the table and the files. -/
theorem works_of_sameShape {t t' : Tree} (hw : r.Works s t table files) (hshape : t.SameShape t')
    (hread : ∀ p q, s.tableAt r.table? = some p → p.onDisk? = some q → t'.read q = t.read q) :
    ∃ files', r.Works s t' table files' ∧ ∀ p, p ∈ files' ↔ p ∈ files := by
  obtain ⟨records, hmade⟩ := hw.made
  obtain ⟨records', hfound⟩ := hw.found
  obtain ⟨files', hfound', hmem⟩ := Settings.collect_of_sameShape hshape hfound
  refine ⟨files', ⟨⟨records, ?_⟩, ⟨records', hfound'⟩, ?_⟩, hmem⟩
  · rw [Settings.table_of_sameShape hshape hread, hmade]
  · refine hw.any.imp_left fun hne hnil => hne ?_
    rw [List.eq_nil_iff_forall_not_mem] at hnil ⊢
    exact fun p hp => hnil p ((hmem p).mpr hp)

/-- A run over files without an error gets to its end and refuses none of them. -/
theorem exists_formatFiles_of_status (h : w.Asks words r s) (hmode : r.mode = .write) (hinput : r.wantsInput = false)
    (hzero : (w.run words).ending = .status 0) : ∃ table files c m, r.Works s w.tree table files ∧ c.tree = w.tree ∧
      ((Job.writing table w.codecs r.encoding).formatFiles c ⟨0, 0⟩ files).2 = .ok m ∧
      (w.run words).console.tree = ((Job.writing table w.codecs r.encoding).formatFiles c ⟨0, 0⟩ files).1.tree ∧
      ∀ p ∈ files, (Job.writing table w.codecs r.encoding).fateAt w.tree p ≠ .refused := by
  by_cases hw : ∃ table files, r.Works s w.tree table files
  · obtain ⟨table, files, hw⟩ := hw
    have hjob : r.job w.codecs table = Job.writing table w.codecs r.encoding := by rw [FormatRequest.job, hmode]; rfl
    obtain ⟨c, htree, -, hshows⟩ := run_of_works_files h hw hinput
    rw [hjob] at hshows
    have hstatus := hshows.ending.symm.trans hzero
    cases hm : ((Job.writing table w.codecs r.encoding).formatFiles c ⟨0, 0⟩ files).2 with
    | error f =>
      rw [hm] at hstatus
      cases hstatus
    | ok m =>
      rw [hm, FormatRequest.status_eq_zero_iff, Job.errors_formatFiles_write hm, htree] at hstatus
      refine ⟨table, files, c, m, hw, htree, hm, hshows.tree, ?_⟩
      simpa using hstatus.2
  · have hfailed := (run_of_not_works h hw).ending
    rw [hzero] at hfailed
    cases hfailed

/-- A check succeeds where all files are kept. -/
theorem run_check_of_kept (h : w.Asks words r s) (hw : r.Works s w.tree table files) (hmode : r.mode = .check)
    (hinput : r.wantsInput = false)
    (hkept : ∀ p ∈ files, (Job.writing table w.codecs r.encoding).fateAt w.tree p = .kept) :
    (w.run words).ending = .status 0 := by
  obtain ⟨c, htree, -, hshows⟩ := run_of_works_files h hw hinput
  have hresult : ((r.job w.codecs table).formatFiles c ⟨0, 0⟩ files).2 = .ok ⟨0, 0⟩ :=
    Job.formatFiles_of_kept rfl (by simp [FormatRequest.job, hmode]) (htree ▸ hkept)
  rw [hshows.ending, hresult, FormatRequest.status_eq_zero_iff]
  exact ⟨fun _ => rfl, rfl⟩

/--
If scripts were formatted with the status 0, and neither the settings nor the keyword table are in a file that was
among them, then a check of the resulting tree by the same command line has the status 0 and changes nothing.
-/
theorem check_passes (h : FormatLine front args i r) (hmode : r.mode = .write) (hinput : r.wantsInput = false)
    (hapart : ∀ s, w.Asks (front ++ "format" :: args) r s → ∀ q, r.Reads s q → ¬s.Collects w.tree r.targets q)
    (hzero : (w.run (front ++ "format" :: args)).ending = .status 0) :
    let after : World := { w with tree := (w.run (front ++ "format" :: args)).console.tree }
    (after.run (front ++ "format" :: "--check" :: args)).ending = .status 0 ∧
      (after.run (front ++ "format" :: "--check" :: args)).console.tree = after.tree := by
  intro after
  rcases h.asks_or_run_eq hmode w with ⟨s, ha⟩ | ⟨heq, htree, -⟩
  · obtain ⟨table, files, c, m, hw, hc, hm, htree, hrefused⟩ := exists_formatFiles_of_status ha hmode hinput hzero
    have hshape : w.tree.SameShape after.tree := by
      rw [show after.tree = _ from htree, ← hc]
      exact Job.sameShape_formatFiles c ⟨0, 0⟩ files
    have hread : ∀ q, r.Reads s q → after.tree.read q = w.tree.read q := by
      intro q hq
      obtain ⟨records, hfound⟩ := hw.found
      rw [show after.tree = _ from htree, Job.read_formatFiles, hc]
      rw [hc]
      exact fun hp => hapart s ha q hq ⟨files, records, hfound, hp⟩
    have hafter : after.Asks (front ++ "format" :: args) r s := ha.of_sameShape hshape fun q hq => hread q (Or.inl hq)
    have hcheck := h.asks_check hmode hafter
    obtain ⟨files', hw', hmem⟩ := works_of_sameShape hw hshape fun p q hp hq => hread q (Or.inr ⟨p, hp, hq⟩)
    have hw' : FormatRequest.Works { r with mode := .check } s after.tree table files' := ⟨hw'.made, hw'.found, hw'.any⟩
    refine ⟨run_check_of_kept hcheck hw' rfl hinput fun p hp => ?_, tree_run_of_mode hcheck (by simp)⟩
    have hp := (hmem p).mp hp
    rw [show after.tree = _ from htree]
    exact Job.fateAt_formatFiles_of_mem hm hp (hc ▸ hrefused p hp)
  · have hafter : after = w := congrArg (fun t => ({ w with tree := t } : World)) htree
    rw [hafter, heq]
    exact ⟨hzero, htree⟩

/-- A header that is formatted beside a settings file, and then checked. -/
theorem check_passes_header :
    let w : World :=
      ⟨⟨[(["scpfmt.toml"], .file []), (["a"], .file [0x5b, 0x61, 0x5d])], ⟨1, []⟩⟩, [], ⟨none, none⟩, .plain⟩
    let after : World := { w with tree := (w.run ["format", "a"]).console.tree }
    (after.run ["format", "--check", "a"]).ending = .status 0 := by
  have hload : ∃ records, (Settings.load ⟨[(["scpfmt.toml"], .file []), (["a"], .file [0x5b, 0x61, 0x5d])], ⟨1, []⟩⟩
      ⟨1, []⟩ none).collect = (.ok { Settings.default ⟨1, []⟩ with source := some ⟨1, ["scpfmt.toml"]⟩ }, records) :=
    ⟨_, rfl⟩
  intro w after
  let s : Settings := { Settings.default ⟨1, []⟩ with source := some ⟨1, ["scpfmt.toml"]⟩ }
  have hline : FormatLine [] ["a"] ⟨none, false, none, some (.format ⟨["a"], .write, none, some "utf-8"⟩)⟩
      ⟨["a"], .write, none, some "utf-8"⟩ := ⟨⟨_, rfl, rfl⟩, rfl, rfl⟩
  obtain ⟨records, hload⟩ := hload
  have hasks : w.Asks ["format", "a"] ⟨["a"], .write, none, some "utf-8"⟩ s :=
    ⟨_, ⟨⟨1, []⟩, none⟩, _, records, rfl, rfl, rfl, rfl, hload⟩
  have hplace : w.tree.locate ⟨1, ["a"]⟩ = .ok (["a"], .file [0x5b, 0x61, 0x5d]) := rfl
  have hfound : s.collect w.tree ["a"] = (.ok [⟨1, ["a"]⟩], []) :=
    Settings.collect_cons_of_found (Settings.filesOf_of_file (b := [0x5b, 0x61, 0x5d]) (by cbv) rfl) []
  have hworks : FormatRequest.Works ⟨["a"], .write, none, some "utf-8"⟩ s w.tree .bundled [⟨1, ["a"]⟩] :=
    ⟨⟨_, rfl⟩, ⟨_, hfound⟩, Or.inl (by decide)⟩
  have hzero : (w.run ["format", "a"]).ending = .status 0 := by
    refine (run_write_status hasks hworks rfl rfl (by decide)).mpr fun p hp => ?_
    obtain rfl := List.mem_singleton.mp hp
    rw [Job.fateAt_of_locate hplace, Job.fate_bundled_header]
    simp
  refine (check_passes hline rfl (by decide) (fun s' ha q hq => ?_) hzero).1
  obtain rfl : s' = s := hasks.unique ha
  obtain rfl : q = ⟨1, ["scpfmt.toml"]⟩ := by
    rcases hq with hq | ⟨_, hp, -⟩
    · exact (Option.some.inj hq).symm
    · cases hp
  rintro ⟨files, records, hfiles, p, hp, names, b, hloc, hq⟩
  obtain ⟨hfiles, -⟩ := Prod.mk.inj (hfound.symm.trans hfiles)
  obtain rfl := Except.ok.inj hfiles
  obtain rfl := List.mem_singleton.mp hp
  have hsettings : w.tree.locate ⟨1, ["scpfmt.toml"]⟩ = .ok (["scpfmt.toml"], .file []) := rfl
  have hscript := (Prod.mk.inj (Except.ok.inj (hplace.symm.trans hloc))).1
  have hsource := (Prod.mk.inj (Except.ok.inj (hsettings.symm.trans hq))).1
  exact absurd (hscript.trans hsource.symm) (by decide)

end World
end ScriptCase
