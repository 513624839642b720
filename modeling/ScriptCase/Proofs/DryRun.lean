import ScriptCase.Proofs.DiskEffect

/-!
# Checking as a dry run

The same command line with the switch for checks tells what it would do without it (`World.check_foretells`): the files
that it lists are those that would be rewritten, and its status is 0 just if no file would be rewritten and the status
would be 0.

Both runs come to the same table and the same files, or to none. A check sees the fates of all files in the tree at the
start. The other run meets them one by one in a tree that changes under it, but the files that it refuses are the same
(`Job.errors_formatFiles_write`), and those that it rewrites are those whose fate at the start is a change.
-/

namespace ScriptCase

/-- The outcome lists the file at a place as one to be formatted. -/
def Outcome.Lists (o : Outcome) (t : Tree) (names : List String) : Prop :=
  ∃ p b, .wouldReformat p ∈ o.console.printed ∧ t.locate p = .ok (names, .file b)

/-- One outcome tells about another one, both from the tree `t`, without a change of its own. -/
structure Outcome.Foretells (dry wet : Outcome) (t : Tree) : Prop where
  tree : dry.console.tree = t
  /-- What is listed are files. -/
  files : ∀ p, .wouldReformat p ∈ dry.console.printed → ∃ names b, t.locate p = .ok (names, .file b)
  lists : ∀ names, dry.Lists t names ↔ wet.console.tree.node? names ≠ t.node? names
  status : dry.ending = .status 0 ↔ wet.ending = .status 0 ∧ ∀ names, wet.console.tree.node? names = t.node? names

/-- Where nothing is done, there is nothing to tell. -/
theorem Outcome.Foretells.of_idle {dry wet : Outcome} {t : Tree} (hdry : dry.console.tree = t)
    (hnone : ∀ p, .wouldReformat p ∉ dry.console.printed) (hwet : wet.console.tree = t)
    (hending : dry.ending = .status 0 ↔ wet.ending = .status 0) : dry.Foretells wet t where
  tree := hdry
  files p hp := absurd hp (hnone p)
  lists names := by
    rw [hwet]
    refine iff_of_false ?_ (fun hne => hne rfl)
    rintro ⟨p, b, hp, -⟩
    exact hnone p hp
  status := by
    rw [hwet, hending]
    simp

namespace World

variable {w : World} {words : List String} {r : FormatRequest} {s : Settings} {table : Table} {files : List Path}

section Work

variable (h : w.Asks words r s) (hw : r.Works s w.tree table files) (he : r.encoding = some "utf-8")

include h hw he

/-- A check lists the files whose fate is a change, and its status is 0 if every file is kept. -/
theorem run_check (hmode : r.mode = .check) (hinput : r.wantsInput = false) :
    (∀ p, .wouldReformat p ∈ (w.run words).console.printed ↔
      p ∈ files ∧ ((Job.writing table w.codecs (some "utf-8")).fateAt w.tree p).isChange = true) ∧
    ((w.run words).ending = .status 0 ↔
      ∀ p ∈ files, (Job.writing table w.codecs (some "utf-8")).fateAt w.tree p = .kept) := by
  obtain ⟨c, htree, hprinted, hshows⟩ := run_of_works_files h hw hinput
  have hfate : ∀ p, (r.job w.codecs table).fateAt c.tree p =
      (Job.writing table w.codecs (some "utf-8")).fateAt w.tree p := by
    intro p
    rw [htree, FormatRequest.job, he]
    rfl
  obtain ⟨m, hm⟩ := Job.exists_formatFiles_utf8 (j := r.job w.codecs table) he c ⟨0, 0⟩ files
  obtain ⟨hlisted, hchanged, herrors⟩ := Job.formatFiles_check (j := r.job w.codecs table) rfl hmode hm
  simp only [hfate, hprinted] at hlisted hchanged herrors
  rw [hm] at hshows
  refine ⟨fun p => ?_, ?_⟩
  · rw [hshows.printed, hlisted]
    simp
  · rw [hshows.ending, FormatRequest.status_eq_zero_iff, hchanged, herrors]
    simp only [hmode, Nat.zero_add, List.countP_eq_zero, Fate.eq_kept_iff, decide_eq_true_eq, Bool.not_eq_true]
    constructor
    · exact fun hs p hp => ⟨hs.2 p hp, hs.1 trivial p hp⟩
    · exact fun hs => ⟨fun _ p hp => (hs p hp).2, fun p hp => (hs p hp).1⟩

variable (hmode : r.mode = .write)
include hmode

/-- A file changes if it comes up and its fate is a change. -/
theorem node?_run_ne_iff (names : List String) : (w.run words).console.tree.node? names ≠ w.tree.node? names ↔
    ∃ p b, (p ∈ files ∧ ((Job.writing table w.codecs (some "utf-8")).fateAt w.tree p).isChange = true) ∧
      w.tree.locate p = .ok (names, .file b) := by
  constructor
  · intro hne
    by_cases hp : ∃ p ∈ files, ∃ b, w.tree.locate p = .ok (names, .file b)
    · obtain ⟨p, hp, b, hloc⟩ := hp
      refine ⟨p, b, ⟨hp, Bool.of_not_eq_false fun hsame => hne ?_⟩, hloc⟩
      rw [Job.fateAt_of_locate hloc] at hsame
      rw [node?_run_of_mem h hw hmode he hp hloc, Tree.node?_of_locate hloc, Fate.content_of_not_isChange hsame]
    · exact absurd (node?_run_of_not_mem h hw hmode he fun p hmem b hb => hp ⟨p, hmem, b, hb⟩) hne
  · rintro ⟨p, b, ⟨hp, hchange⟩, hloc⟩
    rw [Job.fateAt_of_locate hloc] at hchange
    rw [node?_run_of_mem h hw hmode he hp hloc, Tree.node?_of_locate hloc]
    cases hf : (Job.writing table w.codecs (some "utf-8")).fate b with
    | refused => rw [hf] at hchange; cases hchange
    | kept => rw [hf] at hchange; cases hchange
    | rewritten new => simpa [Fate.content] using Job.ne_of_fate_rewritten hf
    | emptied => exact absurd hf Job.fate_utf8_ne_emptied

/-- No file changes if no fate is a change. -/
theorem node?_run_eq_iff : (∀ names, (w.run words).console.tree.node? names = w.tree.node? names) ↔
    ∀ p ∈ files, ((Job.writing table w.codecs (some "utf-8")).fateAt w.tree p).isChange = false := by
  constructor
  · intro hsame p hp
    refine Bool.of_not_eq_true fun hchange => ?_
    obtain ⟨names, b, hloc⟩ := Job.exists_of_fateAt_ne (Fate.ne_refused_of_isChange hchange)
    exact (node?_run_ne_iff h hw he hmode names).mpr ⟨p, b, ⟨hp, hchange⟩, hloc⟩ (hsame names)
  · intro hkept names
    by_contra hne
    obtain ⟨p, b, ⟨hp, hchange⟩, -⟩ := (node?_run_ne_iff h hw he hmode names).mp hne
    rw [hkept p hp] at hchange
    cases hchange

/-- The status is 0 if no file is refused. -/
theorem run_write_status (hinput : r.wantsInput = false) : (w.run words).ending = .status 0 ↔
    ∀ p ∈ files, (Job.writing table w.codecs (some "utf-8")).fateAt w.tree p ≠ .refused := by
  have hjob : r.job w.codecs table = Job.writing table w.codecs (some "utf-8") := by
    rw [FormatRequest.job, hmode, he]
    rfl
  obtain ⟨c, htree, -, hshows⟩ := run_of_works_files h hw hinput
  rw [hjob] at hshows
  obtain ⟨m, hm⟩ := Job.exists_formatFiles_utf8 (j := .writing table w.codecs (some "utf-8")) rfl c ⟨0, 0⟩ files
  rw [hm] at hshows
  rw [hshows.ending, FormatRequest.status_eq_zero_iff, Job.errors_formatFiles_write hm, htree]
  simp [hmode]

end Work

/-- A check of scripts in UTF-8 tells what the same command line does without the switch. -/
theorem check_foretells {front args : List String} {i : Invocation} (h : FormatLine front args i r)
    (hmode : r.mode = .write) (hinput : r.wantsInput = false) (he : r.encoding = some "utf-8") (w : World) :
    (w.run (front ++ "format" :: "--check" :: args)).Foretells (w.run (front ++ "format" :: args)) w.tree := by
  rcases h.asks_or_run_eq hmode w with ⟨s, hwet⟩ | ⟨heq, htree, hnone⟩
  · have hdry := h.asks_check hmode hwet
    by_cases hw : ∃ table files, r.Works s w.tree table files
    · obtain ⟨table, files, hw⟩ := hw
      have hw' : FormatRequest.Works { r with mode := .check } s w.tree table files := ⟨hw.made, hw.found, hw.any⟩
      obtain ⟨hlisted, hstatus⟩ := run_check hdry hw' he rfl hinput
      refine ⟨tree_run_of_mode hdry (by simp), fun p hp => ?_, fun names => ?_, ?_⟩
      · exact Job.exists_of_fateAt_ne (Fate.ne_refused_of_isChange ((hlisted p).mp hp).2)
      · rw [node?_run_ne_iff hwet hw he hmode]
        simp only [Outcome.Lists, hlisted]
      · rw [hstatus, run_write_status hwet hw he hmode hinput, node?_run_eq_iff hwet hw he hmode]
        simp only [Fate.eq_kept_iff, ← forall_and]
    · have hw' : ¬∃ table files, FormatRequest.Works { r with mode := .check } s w.tree table files :=
        fun ⟨table, files, hw'⟩ => hw ⟨table, files, hw'.made, hw'.found, hw'.any⟩
      have hdry := run_of_not_works hdry hw'
      have hwet := run_of_not_works hwet hw
      refine .of_idle hdry.tree (fun p => ?_) hwet.tree (by rw [hdry.ending, hwet.ending])
      rw [hdry.printed]
      exact List.not_mem_nil
  · rw [heq]
    exact .of_idle htree hnone htree Iff.rfl

/-- A header that is not in upper case is listed, and it is rewritten without the switch. -/
theorem check_foretells_header :
    let w : World := ⟨⟨[(["a"], .file [0x5b, 0x61, 0x5d])], ⟨1, []⟩⟩, [], ⟨none, none⟩, .plain⟩
    (w.run ["format", "--check", "a"]).Lists w.tree ["a"] ∧
      (w.run ["format", "a"]).console.tree.node? ["a"] ≠ w.tree.node? ["a"] := by
  intro w
  have hline : FormatLine [] ["a"] ⟨none, false, none, some (.format ⟨["a"], .write, none, some "utf-8"⟩)⟩
      ⟨["a"], .write, none, some "utf-8"⟩ := ⟨⟨_, rfl, rfl⟩, rfl, rfl⟩
  have hasks : w.Asks ["format", "--check", "a"] ⟨["a"], .check, none, some "utf-8"⟩ (.default ⟨1, []⟩) :=
    ⟨_, ⟨⟨1, []⟩, none⟩, _, [], rfl, rfl, rfl, rfl, rfl⟩
  have hplace : w.tree.locate ⟨1, ["a"]⟩ = .ok (["a"], .file [0x5b, 0x61, 0x5d]) := rfl
  have hfound : (Settings.default ⟨1, []⟩).collect w.tree ["a"] = (.ok [⟨1, ["a"]⟩], []) :=
    Settings.collect_cons_of_found (Settings.filesOf_of_file (b := [0x5b, 0x61, 0x5d]) (by cbv) rfl) []
  have hworks : FormatRequest.Works ⟨["a"], .check, none, some "utf-8"⟩ (.default ⟨1, []⟩) w.tree .bundled
      [⟨1, ["a"]⟩] := ⟨⟨_, rfl⟩, ⟨_, hfound⟩, Or.inl (by decide)⟩
  have hlists : (w.run ["format", "--check", "a"]).Lists w.tree ["a"] := by
    refine ⟨⟨1, ["a"]⟩, _, ((run_check hasks hworks rfl rfl (by decide)).1 _).mpr ⟨by decide, ?_⟩, hplace⟩
    rw [Job.fateAt_of_locate hplace, Job.fate_bundled_header]
    rfl
  exact ⟨hlists, ((check_foretells hline rfl (by decide) rfl w).lists ["a"]).mp hlists⟩

end World
end ScriptCase
