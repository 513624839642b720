import ScriptCase.Proofs.Outcomes

/-!
# What formatting does to the disk

For scripts in UTF-8, `FormatRequest.Rewrites` says which files a request rewrites, and to what, in terms of the tree at
the start alone. `World.run_rewrites` says that a run does just this: files that are rewritten hold their formatted text
afterwards, every other place of the tree is as it was, and only a request to overwrite scripts changes anything.

The run reads later scripts from a tree that earlier ones have changed, and a script may come up several times. What
makes the end independent of this is in `Job.node?_formatFiles_of_mem`.
-/

namespace ScriptCase

namespace Job

variable {j : Job} {table : Table} {codecs : Codecs} {b : Bytes}

theorem fate_utf8_eq_rewritten_iff {new : Bytes} : (writing table codecs (some "utf-8")).fate b = .rewritten new ↔
    ∃ text, Utf8.decode b = .ok text ∧ ((Formatter.ofTable table).formatText text).text ≠ text ∧
      new = Utf8.encode ((Formatter.ofTable table).formatText text).text := by
  rw [fate_utf8]
  cases hd : Utf8.decode b with
  | error f => simp
  | ok text =>
    dsimp only
    split
    · next hsame => simp [hsame]
    · next hne => simp [hne, eq_comm (a := new)]

theorem fate_utf8_ne_emptied : (writing table codecs (some "utf-8")).fate b ≠ .emptied := by
  rw [fate_utf8]
  split
  · simp
  · split <;> simp

/-- The fate of a file with nothing but a header, by the rules of the bundled table. -/
theorem fate_bundled_header :
    (writing .bundled codecs (some "utf-8")).fate [0x5b, 0x61, 0x5d] = .rewritten [0x5b, 0x41, 0x5d] := by
  rw [fate_utf8]
  decide +kernel

theorem tree_formatAll (hmode : j.mode ≠ .write) (c : Console) (input : Option Bytes) (files : List Path) :
    (j.formatAll c input files).1.tree = c.tree := by
  cases input with
  | none => exact tree_formatFiles hmode
  | some bytes =>
    have htree := tree_formatInput j c bytes
    rw [formatAll]
    rcases hr : j.formatInput c bytes with ⟨c', f | n⟩
    · rw [hr] at htree
      exact htree
    · rw [hr] at htree
      exact (tree_formatFiles hmode).trans htree

/-- With scripts in UTF-8, every file is gone through. -/
theorem formatAll_utf8 (he : j.encoding = some "utf-8") (c : Console) (input : Option Bytes) (files : List Path) :
    ∃ c' n m, c'.tree = c.tree ∧ j.formatAll c input files = j.formatFiles c' n files ∧
      (j.formatFiles c' n files).2 = .ok m := by
  cases input with
  | none =>
    obtain ⟨m, hm⟩ := exists_formatFiles_utf8 he c ⟨0, 0⟩ files
    exact ⟨c, _, m, rfl, rfl, hm⟩
  | some bytes =>
    have htree := tree_formatInput j c bytes
    obtain ⟨n, hn⟩ := exists_formatInput_utf8 he c bytes
    rw [formatAll]
    rcases hr : j.formatInput c bytes with ⟨c', f | n⟩
    · rw [hr] at hn
      cases hn
    · rw [hr] at htree
      obtain ⟨m, hm⟩ := exists_formatFiles_utf8 he c' n files
      exact ⟨c', n, m, htree, rfl, hm⟩

end Job

namespace FormatRequest

/-- The request rewrites the file at a place: scripts are overwritten, a path that leads to the file is among the
collected ones, and its content is the text of a script that is not formatted. -/
structure Rewrites (r : FormatRequest) (s : Settings) (t : Tree) (names : List String) (old new : Bytes) : Prop where
  mode : r.mode = .write
  collected : ∃ files records, s.collect t r.targets = (.ok files, records) ∧
    ∃ p ∈ files, t.locate p = .ok (names, .file old)
  formatted : ∃ table records text, (s.table t r.table?).collect = (.ok table, records) ∧
    Utf8.decode old = .ok text ∧ ((Formatter.ofTable table).formatText text).text ≠ text ∧
    new = Utf8.encode ((Formatter.ofTable table).formatText text).text

variable {r : FormatRequest} {s : Settings} {t : Tree} {table : Table} {files : List Path} {names : List String}
  {old new : Bytes}

theorem Rewrites.works (h : r.Rewrites s t names old new) : ∃ table files, r.Works s t table files := by
  obtain ⟨files, records, hfound, p, hp, -⟩ := h.collected
  obtain ⟨table, records', -, hmade, -⟩ := h.formatted
  exact ⟨table, files, ⟨records', hmade⟩, ⟨records, hfound⟩, Or.inl (List.ne_nil_of_mem hp)⟩

/-- Rewriting is the fate of a file that comes up. -/
theorem Works.rewrites_iff (hw : r.Works s t table files) (hmode : r.mode = .write) (codecs : Codecs) :
    r.Rewrites s t names old new ↔ (∃ p ∈ files, t.locate p = .ok (names, .file old)) ∧
      (Job.writing table codecs (some "utf-8")).fate old = .rewritten new := by
  obtain ⟨records, hmade⟩ := hw.made
  obtain ⟨records', hfound⟩ := hw.found
  rw [Job.fate_utf8_eq_rewritten_iff]
  constructor
  · rintro ⟨-, ⟨files', _, hfound', hp⟩, table', _, text, hmade', htext⟩
    obtain ⟨hfiles, -⟩ := Prod.mk.inj (hfound.symm.trans hfound')
    obtain ⟨htable, -⟩ := Prod.mk.inj (hmade.symm.trans hmade')
    obtain rfl := Except.ok.inj hfiles
    obtain rfl := Except.ok.inj htable
    exact ⟨hp, text, htext⟩
  · rintro ⟨hp, text, htext⟩
    exact ⟨hmode, ⟨files, _, hfound, hp⟩, table, _, text, hmade, htext⟩

end FormatRequest

namespace World

variable {w : World} {words : List String} {r : FormatRequest} {s : Settings}

/-- Only a request to overwrite scripts changes files. -/
theorem tree_run_of_mode (h : w.Asks words r s) (hmode : r.mode ≠ .write) : (w.run words).console.tree = w.tree := by
  by_cases hw : ∃ table files, r.Works s w.tree table files
  · obtain ⟨table, files, hw⟩ := hw
    obtain ⟨c, htree, -, hshows, -⟩ := run_of_works h hw
    rw [hshows.tree, Job.tree_formatAll hmode, htree]
  · exact (run_of_not_works h hw).tree

section Work

variable {table : Table} {files : List Path} (h : w.Asks words r s) (hw : r.Works s w.tree table files)
  (hmode : r.mode = .write) (he : r.encoding = some "utf-8")
include h hw hmode he

/-- The files of a run over scripts in UTF-8 are gone through to the end. -/
theorem exists_formatFiles_of_works :
    ∃ c n m, c.tree = w.tree ∧ ((Job.writing table w.codecs (some "utf-8")).formatFiles c n files).2 = .ok m ∧
      (w.run words).console.tree = ((Job.writing table w.codecs (some "utf-8")).formatFiles c n files).1.tree := by
  have hjob : r.job w.codecs table = Job.writing table w.codecs (some "utf-8") := by
    rw [FormatRequest.job, hmode, he]
    rfl
  obtain ⟨c, htree, -, hshows, -⟩ := run_of_works h hw
  rw [hjob] at hshows
  obtain ⟨c', n, m, htree', hall, hm⟩ := Job.formatAll_utf8 (j := .writing table w.codecs (some "utf-8")) rfl c
    (r.input? w.input) files
  exact ⟨c', n, m, htree'.trans htree, hm, by rw [hshows.tree, hall]⟩

theorem node?_run_of_mem {p : Path} {names : List String} {b : Bytes} (hp : p ∈ files)
    (hloc : w.tree.locate p = .ok (names, .file b)) : (w.run words).console.tree.node? names =
      some (.file (((Job.writing table w.codecs (some "utf-8")).fate b).content b)) := by
  obtain ⟨c, n, m, htree, hm, hrun⟩ := exists_formatFiles_of_works h hw hmode he
  obtain ⟨y, hy, rfl, -⟩ := Job.node?_formatFiles_of_mem hm hp (htree ▸ hloc) (Or.inl rfl)
  rw [hrun, hy]

theorem node?_run_of_not_mem {names : List String}
    (hnone : ∀ p ∈ files, ∀ b, w.tree.locate p ≠ .ok (names, .file b)) :
    (w.run words).console.tree.node? names = w.tree.node? names := by
  obtain ⟨c, n, m, htree, hm, hrun⟩ := exists_formatFiles_of_works h hw hmode he
  rw [hrun, ← htree]
  exact Job.node?_formatFiles_of_not_mem (htree ▸ hnone)

end Work

/--
A run that formats scripts in UTF-8 changes nothing unless it is to overwrite them, and then it changes those files to
their formatted text that are among the collected ones, hold a text, and are not formatted. Every other place of the
tree is as it was.
-/
theorem run_rewrites (h : w.Asks words r s) (he : r.encoding = some "utf-8") (names : List String) :
    (r.mode ≠ .write → (w.run words).console.tree = w.tree) ∧
      (∀ old new, r.Rewrites s w.tree names old new →
        w.tree.node? names = some (.file old) ∧ (w.run words).console.tree.node? names = some (.file new)) ∧
      ((¬∃ old new, r.Rewrites s w.tree names old new) →
        (w.run words).console.tree.node? names = w.tree.node? names) := by
  refine ⟨tree_run_of_mode h, fun old new hr => ?_, fun hnone => ?_⟩
  · obtain ⟨table, files, hw⟩ := hr.works
    obtain ⟨⟨p, hp, hloc⟩, hf⟩ := (hw.rewrites_iff hr.mode w.codecs).mp hr
    refine ⟨Tree.node?_of_locate hloc, ?_⟩
    rw [node?_run_of_mem h hw hr.mode he hp hloc, hf]
    rfl
  · by_cases hmode : r.mode = .write
    · by_cases hw : ∃ table files, r.Works s w.tree table files
      · obtain ⟨table, files, hw⟩ := hw
        by_cases hp : ∃ p ∈ files, ∃ b, w.tree.locate p = .ok (names, .file b)
        · obtain ⟨p, hp, b, hloc⟩ := hp
          -- The file comes up, and it is not one that is rewritten.
          have hstays : ((Job.writing table w.codecs (some "utf-8")).fate b).content b = b := by
            cases hf : (Job.writing table w.codecs (some "utf-8")).fate b with
            | refused => rfl
            | kept => rfl
            | rewritten new => exact absurd ⟨b, new, (hw.rewrites_iff hmode w.codecs).mpr ⟨⟨p, hp, hloc⟩, hf⟩⟩ hnone
            | emptied => exact absurd hf Job.fate_utf8_ne_emptied
          rw [node?_run_of_mem h hw hmode he hp hloc, hstays]
          exact (Tree.node?_of_locate hloc).symm
        · exact node?_run_of_not_mem h hw hmode he fun p hmem b hb => hp ⟨p, hmem, b, hb⟩
      · rw [(run_of_not_works h hw).tree]
    · rw [tree_run_of_mode h hmode]

/-- The type word of a header in a file that is asked for twice comes in upper case; a file beside it stays as it is. -/
theorem run_rewrites_twice :
    let w : World :=
      ⟨⟨[(["a"], .file [0x5b, 0x61, 0x5d]), (["b"], .file [0x5b, 0x61, 0x5d])], ⟨1, []⟩⟩, [], ⟨none, none⟩, .plain⟩
    let after := (w.run ["format", "a", "a"]).console.tree
    after.node? ["a"] = some (.file [0x5b, 0x41, 0x5d]) ∧ after.node? ["b"] = some (.file [0x5b, 0x61, 0x5d]) := by
  intro w after
  have hasks : w.Asks ["format", "a", "a"] ⟨["a", "a"], .write, none, some "utf-8"⟩ (.default ⟨1, []⟩) :=
    ⟨_, ⟨⟨1, []⟩, none⟩, _, [], rfl, rfl, rfl, rfl, rfl⟩
  have hplace : w.tree.locate ⟨1, ["a"]⟩ = .ok (["a"], .file [0x5b, 0x61, 0x5d]) := rfl
  have hfile : (Settings.default ⟨1, []⟩).filesOf w.tree "a" = .ok (some [⟨1, ["a"]⟩]) :=
    Settings.filesOf_of_file (b := [0x5b, 0x61, 0x5d]) (by cbv) rfl
  have hfound : (Settings.default ⟨1, []⟩).collect w.tree ["a", "a"] = (.ok [⟨1, ["a"]⟩, ⟨1, ["a"]⟩], []) := by
    rw [Settings.collect_cons_of_found hfile, Settings.collect_cons_of_found hfile]
    rfl
  have hworks : FormatRequest.Works ⟨["a", "a"], .write, none, some "utf-8"⟩ (.default ⟨1, []⟩) w.tree .bundled
      [⟨1, ["a"]⟩, ⟨1, ["a"]⟩] := ⟨⟨_, rfl⟩, ⟨_, hfound⟩, Or.inl (by decide)⟩
  have hrewrites := (hworks.rewrites_iff rfl .plain).mpr ⟨⟨⟨1, ["a"]⟩, by decide, hplace⟩, Job.fate_bundled_header⟩
  refine ⟨((run_rewrites hasks rfl ["a"]).2.1 _ _ hrewrites).2, (run_rewrites hasks rfl ["b"]).2.2 ?_⟩
  rintro ⟨old, new, h⟩
  obtain ⟨⟨p, hp, hloc⟩, -⟩ := (hworks.rewrites_iff rfl .plain).mp h
  obtain rfl : p = ⟨1, ["a"]⟩ := by simpa using hp
  simp [hplace] at hloc

end World
end ScriptCase
