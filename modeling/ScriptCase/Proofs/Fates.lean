import ScriptCase.Command.Format
import ScriptCase.Proofs.FormatText

/-!
# What becomes of a script

What the command that formats scripts does to a file depends on the content of the file alone (`Job.fate`): it is
refused, kept, rewritten, or emptied and given up. `Job.formatFile_handles` says that formatting one file is no more
than meeting its fate.

A file that was rewritten is kept from then on (`Job.fate_of_rewritten`), so that a file which comes up twice is not
changed twice. A file is emptied if its formatted text cannot be written by the codec that it was read by
(`Job.Unwritable`, `Job.fate_eq_emptied_iff`). Among the encodings only that of the first 256 characters refuses the
formatted text of a file, and only if it holds one of two characters that are none of these
(`Job.unwritable_iff_outgrows`).
-/

namespace ScriptCase

/-! ## The tree after a write -/

namespace Tree

variable {t : Tree} {names : List String} {b : Bytes}

theorem ne_nil_of_node?_file (h : t.node? names = some (.file b)) : names ≠ [] := by
  rintro rfl
  cases h

theorem find?_put (t : Tree) (names names' : List String) (content : Bytes) :
    (t.put names content).nodes.find? (·.1 == names') =
      (t.nodes.find? (·.1 == names')).map fun e => if e.1 = names then (e.1, .file content) else e := by
  rw [put, List.find?_map]
  congr 2
  funext e
  rw [Function.comp_apply]
  split <;> rfl

/-- A write changes the content of one file and nothing else. -/
theorem node?_put (h : t.node? names = some (.file b)) (content : Bytes) (names' : List String) :
    (t.put names content).node? names' = if names' = names then some (.file content) else t.node? names' := by
  by_cases hnil : names' = []
  · subst hnil
    rw [if_neg (Ne.symm (ne_nil_of_node?_file h))]
    rfl
  · have hnode : ∀ t : Tree, t.node? names' = (t.nodes.find? (·.1 == names')).map (·.2) := fun t =>
      if_neg (by simpa using hnil)
    rw [hnode, hnode, find?_put, Option.map_map]
    split
    · next he =>
      subst he
      rw [hnode] at h
      obtain ⟨e, hfind, -⟩ := Option.map_eq_some_iff.mp h
      have hkey : e.1 = names' := by simpa using List.find?_some hfind
      simp [hfind, hkey]
    · next he =>
      cases hfind : t.nodes.find? (·.1 == names') with
      | none => rfl
      | some e =>
        have hkey : e.1 = names' := by simpa using List.find?_some hfind
        simp [hkey, he]

/-- A path leads to what stands at the place. -/
theorem node?_of_follow {place ns : List String} {n : Node} (h : t.follow place ns = .ok (names, n)) :
    t.node? names = some n := by
  induction ns generalizing place with
  | nil =>
    rw [follow] at h
    split at h
    · next hn =>
      obtain ⟨rfl, rfl⟩ := Prod.mk.inj (Except.ok.inj h)
      exact hn
    · cases h
  | cons m ns ih =>
    rw [follow] at h
    split at h
    · split at h
      · cases h
      · split at h
        · exact ih h
        · exact ih h
    · cases h
    · cases h

theorem node?_of_locate {p : Path} {n : Node} (h : t.locate p = .ok (names, n)) : t.node? names = some n := by
  rw [locate] at h
  split at h
  · cases h
  · split at h
    · cases h
    · exact node?_of_follow h

/-- A file that is there before a write is there after it, and its content is what was written if it changed. -/
theorem node?_put_of_locate {p : Path} {names' : List String} {x : Bytes} (h : t.locate p = .ok (names, .file b))
    (hx : t.node? names' = some (.file x)) (content : Bytes) :
    (t.put names content).node? names' = some (.file x) ∨
      (b = x ∧ (t.put names content).node? names' = some (.file content)) := by
  have hnode := node?_of_locate h
  rw [node?_put hnode]
  split
  · next he =>
    refine Or.inr ⟨?_, rfl⟩
    simpa [he, hnode] using hx
  · exact Or.inl hx

theorem locate_file_unique {p : Path} {names' : List String} {b' : Bytes} (h : t.locate p = .ok (names, .file b))
    (h' : t.locate p = .ok (names', .file b')) : names' = names ∧ b' = b := by
  simpa [h, eq_comm] using h'

/-- Only files can be read. -/
theorem exists_locate_of_read {p : Path} (h : t.read p = .ok b) : ∃ names, t.locate p = .ok (names, .file b) := by
  rw [read] at h
  split at h
  · next hloc => exact ⟨_, by rw [hloc, Except.ok.inj h]⟩
  · cases h
  · cases h

theorem exists_read_error {p : Path} (h : ∀ names b, t.locate p ≠ .ok (names, .file b)) :
    ∃ f, t.read p = .error f := by
  cases hr : t.read p with
  | error f => exact ⟨f, rfl⟩
  | ok b =>
    obtain ⟨names, hloc⟩ := exists_locate_of_read hr
    exact absurd hloc (h names b)

end Tree

/-! ## Fates -/

/-- What becomes of a file that is to be formatted. -/
inductive Fate where
  /-- It cannot be read. -/
  | refused
  /-- It is formatted already. -/
  | kept
  | rewritten (content : Bytes)
  /-- Its formatted text cannot be written, which is found out when the file is empty. -/
  | emptied
  deriving DecidableEq, Repr

namespace Job

/-- The fate of a file by its content. -/
def fate (j : Job) (b : Bytes) : Fate :=
  match j.fileCodec >>= fun codec => codec.decode b with
  | .error _ => .refused
  | .ok old =>
    let r := j.formatter.formatText old
    if r.isChanged then
      match j.encodeFile r.text with
      | .ok content => .rewritten content
      | .error _ => .emptied
    else .kept

/-- A script was handled with an error, whether this ended the command or not. -/
def isFailure : Except CodecFault Tally → Bool
  | .ok n => n.errors != 0
  | .error _ => true

/-- How a script at a path is handled: the tree afterwards and the result. -/
inductive Handles (j : Job) (t : Tree) (p : Path) : Tree → Except CodecFault Tally → Prop
  | missing {result : Except CodecFault Tally} (h : ∀ names b, t.locate p ≠ .ok (names, .file b)) :
      Handles j t p t result
  | refused {names : List String} {b : Bytes} {result : Except CodecFault Tally}
      (h : t.locate p = .ok (names, .file b)) (hf : j.fate b = .refused) (hr : isFailure result = true) :
      Handles j t p t result
  | kept {names : List String} {b : Bytes} (h : t.locate p = .ok (names, .file b)) (hf : j.fate b = .kept) :
      Handles j t p t (.ok ⟨0, 0⟩)
  | rewritten {names : List String} {b content : Bytes} (h : t.locate p = .ok (names, .file b))
      (hf : j.fate b = .rewritten content) : Handles j t p (t.put names content) (.ok ⟨1, 0⟩)
  | emptied {names : List String} {b : Bytes} {f : CodecFault} (h : t.locate p = .ok (names, .file b))
      (hf : j.fate b = .emptied) : Handles j t p (t.put names []) (.error f)

theorem tree_report (c : Console) (name : String) (r : Report) : (report c name r).tree = c.tree := by
  have hfold : ∀ (l : List LineFailure) (c : Console),
      (l.foldl (fun c f => c.notify (.lineFailure name f)) c).tree = c.tree := by
    intro l
    induction l with
    | nil => exact fun c => rfl
    | cons f l ih => exact fun c => ih _
  exact hfold _ _

/-- A file is read in the encoding of the job; a missing or unusable name of it is a fault like any other. -/
theorem readFile_of_read {j : Job} {t : Tree} {p : Path} {b : Bytes} (h : t.read p = .ok b) :
    j.readFile t p = (j.fileCodec >>= fun codec => codec.decode b).mapError .ofCodec := by
  rw [readFile, h]
  cases hname : j.codecName true with
  | ok name => rfl
  | error f =>
    have hf : j.fileCodec = .error f := by rw [fileCodec, hname]; rfl
    rw [hf]
    rw [codecName] at hname
    split at hname
    · obtain rfl := Except.error.inj hname
      rfl
    · split at hname
      · obtain rfl := Except.error.inj hname
        rfl
      · cases hname

theorem readFile_of_read_error {j : Job} {t : Tree} {p : Path} {f : FileFault} (h : t.read p = .error f) :
    ∃ f', j.readFile t p = .error f' := by
  rw [readFile, h]
  split
  · exact ⟨_, rfl⟩
  · exact ⟨_, rfl⟩
  · next hc => cases hc

/-- What cannot be read leaves the tree as it is. -/
theorem formatFile_of_readFile_error {j : Job} {c : Console} {p : Path} {f : ReadFault}
    (h : j.readFile c.tree p = .error f) :
    (j.formatFile c p).1.tree = c.tree ∧ isFailure (j.formatFile c p).2 = true := by
  rw [formatFile, h]
  cases f with
  | reported reason => exact ⟨rfl, rfl⟩
  | fatal f => exact ⟨rfl, rfl⟩

/-- A job that overwrites scripts, with the rules of a table. -/
def writing (table : Table) (codecs : Codecs) (encoding : Option String) : Job :=
  ⟨.ofTable table, .write, codecs, encoding⟩

variable (table : Table) (codecs : Codecs) (encoding : Option String)

@[simp] theorem writing_formatter : (writing table codecs encoding).formatter = .ofTable table := rfl

@[simp] theorem writing_mode : (writing table codecs encoding).mode = .write := rfl

section Read

variable {table codecs encoding} {c : Console} {p : Path} {old : Text}
variable (h : (writing table codecs encoding).readFile c.tree p = .ok old)
include h

theorem formatFile_of_unchanged (hc : ((Formatter.ofTable table).formatText old).isChanged = false) :
    ((writing table codecs encoding).formatFile c p).1.tree = c.tree ∧
      ((writing table codecs encoding).formatFile c p).2 = .ok ⟨0, 0⟩ := by
  simp only [formatFile, h, writing_formatter, hc, Formatter.formatText_failures]
  exact ⟨tree_report c p.text _, rfl⟩

theorem formatFile_of_encoded (hc : ((Formatter.ofTable table).formatText old).isChanged = true) {content : Bytes}
    (he : (writing table codecs encoding).encodeFile ((Formatter.ofTable table).formatText old).text = .ok content) :
    ((writing table codecs encoding).formatFile c p).1.tree = c.tree.write p content ∧
      ((writing table codecs encoding).formatFile c p).2 = .ok ⟨1, 0⟩ := by
  simp only [formatFile, h, writing_formatter, hc, Formatter.formatText_failures, settle, writing_mode, overwrite, he]
  exact ⟨congrArg (Tree.write · p content) (tree_report c p.text _), rfl⟩

theorem formatFile_of_unencodable (hc : ((Formatter.ofTable table).formatText old).isChanged = true) {f : CodecFault}
    (he : (writing table codecs encoding).encodeFile ((Formatter.ofTable table).formatText old).text = .error f) :
    ((writing table codecs encoding).formatFile c p).1.tree = c.tree.write p [] ∧
      ((writing table codecs encoding).formatFile c p).2 = .error f := by
  simp only [formatFile, h, writing_formatter, hc, Formatter.formatText_failures, settle, writing_mode, overwrite, he]
  exact ⟨congrArg (Tree.write · p []) (tree_report c p.text _), rfl⟩

end Read

/-- Formatting a file is meeting its fate. -/
theorem formatFile_handles (c : Console) (p : Path) :
    Handles (writing table codecs encoding) c.tree p ((writing table codecs encoding).formatFile c p).1.tree
      ((writing table codecs encoding).formatFile c p).2 := by
  by_cases hfile : ∃ names b, c.tree.locate p = .ok (names, .file b)
  · obtain ⟨names, b, hloc⟩ := hfile
    have hread : c.tree.read p = .ok b := by rw [Tree.read, hloc]
    have hwrite : ∀ content, c.tree.write p content = c.tree.put names content := fun _ => by rw [Tree.write, hloc]
    have hfile := readFile_of_read (j := writing table codecs encoding) hread
    cases hdec : (writing table codecs encoding).fileCodec >>= fun codec => codec.decode b with
    | error f =>
      rw [hdec] at hfile
      obtain ⟨htree, hfail⟩ := formatFile_of_readFile_error hfile
      rw [htree]
      exact .refused hloc (by rw [fate, hdec]) hfail
    | ok old =>
      rw [hdec] at hfile
      cases hc : ((Formatter.ofTable table).formatText old).isChanged with
      | false =>
        obtain ⟨htree, hresult⟩ := formatFile_of_unchanged hfile hc
        rw [htree, hresult]
        exact .kept hloc (by rw [fate, hdec]; simp [hc])
      | true =>
        cases he : (writing table codecs encoding).encodeFile ((Formatter.ofTable table).formatText old).text with
        | ok content =>
          obtain ⟨htree, hresult⟩ := formatFile_of_encoded hfile hc he
          rw [htree, hresult, hwrite]
          exact .rewritten hloc (by rw [fate, hdec]; simp [hc, he])
        | error f =>
          obtain ⟨htree, hresult⟩ := formatFile_of_unencodable hfile hc he
          rw [htree, hresult, hwrite]
          exact .emptied hloc (by rw [fate, hdec]; simp [hc, he])
  · have hnone : ∀ names b, c.tree.locate p ≠ .ok (names, .file b) := fun names b h => hfile ⟨names, b, h⟩
    obtain ⟨f, hf⟩ := Tree.exists_read_error hnone
    obtain ⟨f', hf'⟩ := readFile_of_read_error (j := writing table codecs encoding) hf
    rw [(formatFile_of_readFile_error hf').1]
    exact .missing hnone

/-! ## Which fates follow which -/

section Codec

variable {table codecs encoding} {codec : Codec} {f : CodecFault} {b : Bytes} {old : Text}

theorem fate_of_fileCodec_error (he : (writing table codecs encoding).fileCodec = .error f) (b : Bytes) :
    (writing table codecs encoding).fate b = .refused := by
  rw [fate, he]
  rfl

theorem decode_of_fileCodec (he : (writing table codecs encoding).fileCodec = .ok codec) (b : Bytes) :
    ((writing table codecs encoding).fileCodec >>= fun codec => codec.decode b) = codec.decode b := by
  rw [he]
  rfl

theorem fate_of_decode_error (he : (writing table codecs encoding).fileCodec = .ok codec)
    (hd : codec.decode b = .error f) : (writing table codecs encoding).fate b = .refused := by
  rw [fate, decode_of_fileCodec he, hd]

theorem fate_of_decode (he : (writing table codecs encoding).fileCodec = .ok codec) (hd : codec.decode b = .ok old) :
    (writing table codecs encoding).fate b =
      if ((Formatter.ofTable table).formatText old).text = old then .kept
      else match codec.encode ((Formatter.ofTable table).formatText old).text with
        | .ok content => .rewritten content
        | .error _ => .emptied := by
  have henc : (writing table codecs encoding).encodeFile ((Formatter.ofTable table).formatText old).text =
      codec.encode ((Formatter.ofTable table).formatText old).text := by
    rw [encodeFile, he]
    rfl
  rw [fate, decode_of_fileCodec he, hd]
  simp only [writing_formatter, henc]
  cases hc : ((Formatter.ofTable table).formatText old).isChanged with
  | false => rw [if_neg (by simp), if_pos ((Formatter.isChanged_formatText table old).mp hc)]
  | true =>
    have hne : ((Formatter.ofTable table).formatText old).text ≠ old := fun h => by
      rw [(Formatter.isChanged_formatText table old).mpr h] at hc
      cases hc
    rw [if_pos rfl, if_neg hne]

/-- A fate other than refusal needs a codec by which the content can be read. -/
theorem exists_of_fate_ne_refused (h : (writing table codecs encoding).fate b ≠ .refused) :
    ∃ codec old, (writing table codecs encoding).fileCodec = .ok codec ∧ codec.decode b = .ok old := by
  cases he : (writing table codecs encoding).fileCodec with
  | error f => exact absurd (fate_of_fileCodec_error he b) h
  | ok codec =>
    cases hd : codec.decode b with
    | error f => exact absurd (fate_of_decode_error he hd) h
    | ok old => exact ⟨codec, old, rfl, hd⟩

/-- What was rewritten is kept from then on: it is read back as it was written, and a formatted text stays as it is. -/
theorem fate_of_rewritten {content : Bytes} (h : (writing table codecs encoding).fate b = .rewritten content) :
    (writing table codecs encoding).fate content = .kept := by
  have hne : (writing table codecs encoding).fate b ≠ .refused := by simp [h]
  obtain ⟨codec, old, he, hd⟩ := exists_of_fate_ne_refused hne
  rw [fate_of_decode he hd] at h
  split at h
  · cases h
  · split at h
    · next henc =>
      obtain rfl := Fate.rewritten.inj h
      have hcased : Text.IsCasedFrom ((Formatter.ofTable table).formatText old).text old := fun c hc =>
        Formatter.exists_of_mem_formatText table old hc
      rw [fate_of_decode he (codec.readsBack hd hcased henc)]
      rw [if_pos (Formatter.formatText_text_idem table old)]
    · cases h

/-- The file can be read, but its formatted text, which is another one, cannot be written. -/
def Unwritable (j : Job) (b : Bytes) : Prop :=
  ∃ codec old f, j.fileCodec = .ok codec ∧ codec.decode b = .ok old ∧ (j.formatter.formatText old).text ≠ old ∧
    codec.encode (j.formatter.formatText old).text = .error f

/-- The only files that are emptied. -/
theorem fate_eq_emptied_iff :
    (writing table codecs encoding).fate b = .emptied ↔ (writing table codecs encoding).Unwritable b := by
  constructor
  · intro h
    have hne : (writing table codecs encoding).fate b ≠ .refused := by simp [h]
    obtain ⟨codec, old, he, hd⟩ := exists_of_fate_ne_refused hne
    rw [fate_of_decode he hd] at h
    split at h
    · cases h
    · next hchanged =>
      split at h
      · cases h
      · next henc => exact ⟨codec, old, _, he, hd, hchanged, henc⟩
  · rintro ⟨codec, old, f, he, hd, hchanged, henc⟩
    rw [writing_formatter] at hchanged henc
    rw [fate_of_decode he hd, if_neg hchanged, henc]

end Codec

/-! ## Texts that an encoding refuses -/

section Encodings

variable {table codecs encoding} {e : Encoding} {b : Bytes} {old : Text}

/-- The text of bytes that are read as characters one by one. -/
def latinText (b : Bytes) : Text := b.map fun x => Char.ofNat x.toNat

theorem toNat_of_mem_latinText {c : Char} (h : c ∈ latinText b) : ∃ x ∈ b, c.toNat = x.toNat := by
  obtain ⟨x, hx, rfl⟩ := List.mem_map.mp h
  have hlt : x.toNat < 0x100 := x.toNat_lt
  exact ⟨x, hx, Text.toNat_ofNat_of_valid (Or.inl (by omega))⟩

theorem decode_latin1 (b : Bytes) : Encoding.latin1.decode b = .ok (latinText b) :=
  Encoding.decodeBelow_eq_ok_iff.mpr ⟨fun x _ => x.toNat_lt, rfl⟩

/-- A formatted text of ASCII is one of ASCII. -/
theorem toNat_lt_of_ascii (hd : Encoding.ascii.decode b = .ok old) {c : Char}
    (hc : c ∈ ((Formatter.ofTable table).formatText old).text) : c.toNat < 0x80 := by
  obtain ⟨hlt, rfl⟩ := Encoding.decodeBelow_eq_ok_iff.mp hd
  obtain ⟨d, hm, h⟩ := Formatter.exists_of_mem_formatText table _ hc
  obtain ⟨x, hx, hdx⟩ := toNat_of_mem_latinText hm
  have hd' : d.toNat < 0x80 := by rw [hdx]; exact hlt x hx
  rcases h with rfl | rfl
  · exact hd'
  · exact Text.toNat_upper_lt hd'

/-- A formatted text of the first 256 characters has two others at most. -/
theorem eq_of_mem_formatText_latinText {c : Char} (hc : c ∈ ((Formatter.ofTable table).formatText (latinText b)).text)
    (hge : 0x100 ≤ c.toNat) : c = '\u039c' ∨ c = '\u0178' := by
  obtain ⟨d, hm, h⟩ := Formatter.exists_of_mem_formatText table _ hc
  obtain ⟨x, hx, hdx⟩ := toNat_of_mem_latinText hm
  have hd : d.toNat < 0x100 := by rw [hdx]; exact x.toNat_lt
  rcases h with rfl | rfl
  · omega
  · exact (Text.upper_latin hd).resolve_left (by omega)

/-- The bytes are read as the first 256 characters, and the formatted text has other characters. -/
def Outgrows (j : Job) (b : Bytes) : Prop :=
  ∃ c ∈ (j.formatter.formatText (latinText b)).text, c = '\u039c' ∨ c = '\u0178'

/-- A text that was read in an encoding cannot be written once it is formatted just if it is one of the first 256
characters and outgrows them. -/
theorem encode_formatText_error_iff (hd : e.decode b = .ok old) :
    (∃ f, e.encode ((Formatter.ofTable table).formatText old).text = .error f) ↔
      e = .latin1 ∧ (writing table codecs encoding).Outgrows b := by
  cases e with
  | latin1 =>
    obtain ⟨-, rfl⟩ := Encoding.decodeBelow_eq_ok_iff.mp hd
    constructor
    · rintro ⟨f, hf⟩
      obtain ⟨c, hc, hge⟩ := Encoding.exists_le_of_encodeBelow_error hf
      exact ⟨rfl, c, hc, eq_of_mem_formatText_latinText hc hge⟩
    · rintro ⟨-, c, hc, hcase⟩
      have hge : 0x100 ≤ c.toNat := by rcases hcase with rfl | rfl <;> decide
      cases henc : Encoding.latin1.encode ((Formatter.ofTable table).formatText (latinText b)).text with
      | error f => exact ⟨f, henc⟩
      | ok bs => exact absurd (Encoding.lt_of_encodeBelow_ok henc c hc) (by omega)
  | ascii =>
    refine iff_of_false ?_ (by simp)
    rintro ⟨f, hf⟩
    obtain ⟨c, hc, hge⟩ := Encoding.exists_le_of_encodeBelow_error hf
    exact absurd (toNat_lt_of_ascii hd hc) (by omega)
  | _ => exact iff_of_false (by rintro ⟨_, ⟨⟩⟩) (by simp)

end Encodings

end Job
end ScriptCase
