import ScriptCase.Editor.Server
import ScriptCase.Proofs.Offsets

/-!
# Documents in step with the editor

An editor keeps texts of its own, changes them by offsets, and tells the server of each change by positions. The server
knows nothing but what it is told (`Server.hear`). Along every run of such messages it holds the text of every document
that the editor has open, and of no other (`Server.hear_in_step`).

One message keeps the two in step and touches one document (`Client.Act.receive_in_step`); this comes down to a single
change, whose positions lead the server to the offsets that the client meant (`Document.applyChange_change`).
-/

namespace ScriptCase

open Text

/-! ## What the server hears -/

namespace Server

/-- A message about a document. -/
inductive Notice where
  | opened (uri : String) (text : Text) (version : Int)
  | changed (uri : String) (version : Int) (changes : List Change)
  | closed (uri : String)

/-- The workspace after a message. -/
def receive (reader : UriReader) (tree : Tree) (w : Workspace) : Notice → Except Mishap Workspace
  | .opened uri text version => .ok (w.didOpen uri text version)
  | .changed uri version changes => didChange reader tree w uri version changes
  | .closed uri => .ok (w.didClose uri)

/-- The workspace after messages, as far as none of them fails. -/
def hear (reader : UriReader) (tree : Tree) (w : Workspace) (notices : List Notice) : Except Mishap Workspace :=
  notices.foldlM (receive reader tree) w

end Server

/-! ## What the editor does -/

namespace Client

/-- A change that a client makes to a text of its own. -/
inductive Edit where
  /-- New text for the characters from one offset up to another. -/
  | splice (start stop : Nat) (new : Text)
  /-- New text for all of it. -/
  | renew (new : Text)

namespace Edit

/-- The text after an edit. -/
def apply (t : Text) : Edit → Text
  | .splice start stop new => t.take start ++ new ++ t.drop stop
  | .renew new => new

/-- The offsets of the edit are in order and none of them stands inside a break. -/
def Fits (t : Text) : Edit → Prop
  | .splice start stop _ => start ≤ stop ∧ stop ≤ t.length ∧ ¬InsideBreak t start ∧ ¬InsideBreak t stop
  | .renew _ => True

/-- The edit as the server is told of it, with positions in the text before the edit. -/
def change (t : Text) : Edit → Change
  | .splice start stop new => ⟨some (positionAt t start, positionAt t stop), new⟩
  | .renew new => ⟨none, new⟩

end Edit

/-- Every edit fits the text that the ones before it left. -/
def EditsFit : Text → List Edit → Prop
  | _, [] => True
  | t, e :: es => e.Fits t ∧ EditsFit (e.apply t) es

/-- The changes that the server is told of. -/
def changes : Text → List Edit → List Change
  | _, [] => []
  | t, e :: es => e.change t :: changes (e.apply t) es

/-- The texts that a client has open, by their URIs. -/
abbrev Texts := String → Option Text

/-- Nothing is open. -/
def noTexts : Texts := fun _ => none

/-- What a client does with a document. -/
inductive Act where
  | opens (uri : String) (text : Text) (version : Int)
  | edits (uri : String) (version : Int) (edits : List Edit)
  | closes (uri : String)

namespace Act

/-- The document that it is done with. -/
def uri : Act → String
  | .opens uri _ _ => uri
  | .edits uri _ _ => uri
  | .closes uri => uri

/-- The texts afterwards. -/
def after (held : Texts) : Act → Texts
  | .opens uri text _ => Function.update held uri (some text)
  | .edits uri _ es => Function.update held uri ((held uri).map (es.foldl Edit.apply))
  | .closes uri => Function.update held uri none

/-- Edits are made to open documents only, and they fit. -/
def Fits (held : Texts) : Act → Prop
  | .opens _ _ _ => True
  | .edits uri _ es => ∃ t, held uri = some t ∧ EditsFit t es
  | .closes _ => True

/-- The message to the server. -/
def notice (held : Texts) : Act → Server.Notice
  | .opens uri text version => .opened uri text version
  | .edits uri version es => .changed uri version (changes ((held uri).getD []) es)
  | .closes uri => .closed uri

end Act

/-- Everything that is done fits the texts at the time. -/
def ActsFit : Texts → List Act → Prop
  | _, [] => True
  | held, a :: as => a.Fits held ∧ ActsFit (a.after held) as

/-- The messages of a run. -/
def notices : Texts → List Act → List Server.Notice
  | _, [] => []
  | held, a :: as => a.notice held :: notices (a.after held) as

/-- The texts after a run. -/
def texts (held : Texts) (acts : List Act) : Texts := acts.foldl Act.after held

theorem actsFit_append {held : Texts} {as bs : List Act} :
    ActsFit held (as ++ bs) ↔ ActsFit held as ∧ ActsFit (texts held as) bs := by
  induction as generalizing held with
  | nil => exact (true_and _).symm.to_iff
  | cons a as ih => simp only [List.cons_append, ActsFit, ih, and_assoc]; rfl

theorem notices_append {held : Texts} {as bs : List Act} :
    notices held (as ++ bs) = notices held as ++ notices (texts held as) bs := by
  induction as generalizing held with
  | nil => rfl
  | cons a as ih => simp only [List.cons_append, notices, ih]; rfl

end Client

/-! ## One change, and the changes of one message -/

namespace Document

open Client

theorem applyChange_change {t : Text} {e : Edit} (h : e.Fits t) : applyChange t (e.change t) = e.apply t := by
  cases e with
  | splice start stop new =>
    obtain ⟨hle, hlen, hstart, hstop⟩ := h
    simp only [Edit.change, applyChange, Edit.apply, offsetAt_positionAt (Nat.le_trans hle hlen) hstart,
      offsetAt_positionAt hlen hstop]
  | renew new => rfl

theorem applyChanges_changes {t : Text} {es : List Edit} (h : EditsFit t es) :
    applyChanges t (changes t es) = es.foldl Edit.apply t := by
  induction es generalizing t with
  | nil => rfl
  | cons e es ih =>
    obtain ⟨he, hes⟩ := h
    calc applyChanges t (changes t (e :: es))
        = applyChanges (applyChange t (e.change t)) (changes (e.apply t) es) := rfl
      _ = es.foldl Edit.apply (e.apply t) := by rw [applyChange_change he, ih hes]

end Document

/-! ## The documents of a workspace -/

namespace Workspace

theorem document?_filter (w : Workspace) (uri uri' : String) :
    ({ w with documents := w.documents.filter (·.1 != uri) } : Workspace).document? uri' =
      if uri' = uri then none else w.document? uri' := by
  simp only [document?, List.find?_filter]
  split
  · next h => simp [h]
  · next h =>
    congr 2
    funext p
    by_cases hp : p.1 = uri'
    · simp [hp, h]
    · simp [hp]

theorem document?_didClose (w : Workspace) (uri uri' : String) :
    (w.didClose uri).document? uri' = if uri' = uri then none else w.document? uri' := w.document?_filter uri uri'

theorem document?_keep (w : Workspace) (d : Document) (uri : String) :
    (w.keep d).document? uri = if uri = d.uri then some d else w.document? uri := by
  have hfilter := w.document?_filter d.uri uri
  simp only [document?] at hfilter
  simp only [document?, keep, List.find?_append, Option.map_or, hfilter]
  split
  · next h => simp [h]
  · next h => simp [Ne.symm h]

/-- The disk is not looked at for a document that is open. -/
theorem didChange_of_open {reader : UriReader} {tree : Tree} {w : Workspace} {uri : String} {d : Document}
    (hd : w.document? uri = some d) (version : Int) (changes : List Change) :
    w.didChange reader tree uri version changes =
      .ok (w.keep (d.update (Document.applyChanges d.text changes) version)) := by
  rw [didChange, documentOrDisk, hd]
  rfl

/-- The workspace has the texts of the client open and no others, each under its own URI. -/
structure InStep (w : Workspace) (held : Client.Texts) : Prop where
  text : ∀ uri, (w.document? uri).map (·.text) = held uri
  uri : ∀ {uri d}, w.document? uri = some d → d.uri = uri

theorem InStep.keep {w : Workspace} {held : Client.Texts} (h : w.InStep held) (d : Document) :
    (w.keep d).InStep (Function.update held d.uri (some d.text)) where
  text uri := by
    rw [document?_keep, Function.update_apply]
    split
    · rfl
    · exact h.text uri
  uri := by
    intro uri d' hd
    rw [document?_keep] at hd
    split at hd
    · next hu => rw [← Option.some.inj hd, hu]
    · exact h.uri hd

theorem InStep.didClose {w : Workspace} {held : Client.Texts} (h : w.InStep held) (uri : String) :
    (w.didClose uri).InStep (Function.update held uri none) where
  text uri' := by
    rw [document?_didClose, Function.update_apply]
    split
    · rfl
    · exact h.text uri'
  uri := by
    intro uri' d hd
    rw [document?_didClose] at hd
    split at hd
    · cases hd
    · exact h.uri hd

end Workspace

/-! ## One message, and a run of messages -/

open Client

variable {w : Workspace} {held : Texts}

/-- A message keeps the workspace in step with the client and touches no document but the one that it is about. -/
theorem Client.Act.receive_in_step (reader : UriReader) (tree : Tree) {a : Act} (h : w.InStep held)
    (hf : a.Fits held) :
    ∃ w', Server.receive reader tree w (a.notice held) = .ok w' ∧ w'.InStep (a.after held) ∧
      ∀ uri, uri ≠ a.uri → w'.document? uri = w.document? uri := by
  cases a with
  | opens uri text version =>
    exact ⟨_, rfl, h.keep ⟨uri, text, version⟩, fun uri' hne => (w.document?_keep _ uri').trans (if_neg hne)⟩
  | closes uri =>
    exact ⟨_, rfl, h.didClose uri, fun uri' hne => (w.document?_didClose uri uri').trans (if_neg hne)⟩
  | edits uri version es =>
    obtain ⟨t, ht, hes⟩ := hf
    have hafter : (Act.edits uri version es).after held =
        Function.update held uri (some (es.foldl Edit.apply t)) := by rw [Act.after, ht]; rfl
    rw [hafter, Act.notice, ht, Option.getD_some, Server.receive, Server.didChange]
    split
    · next hempty =>
      -- a message without changes comes from no edits
      obtain rfl : es = [] := by
        cases es with
        | nil => rfl
        | cons e es => cases hempty
      refine ⟨w, rfl, ?_, fun _ _ => rfl⟩
      rwa [List.foldl_nil, ← ht, Function.update_eq_self]
    · obtain ⟨d, hd, rfl⟩ := Option.map_eq_some_iff.mp ((h.text uri).trans ht)
      obtain rfl := h.uri hd
      rw [Workspace.didChange_of_open hd, Document.applyChanges_changes hes]
      exact ⟨_, rfl, h.keep (d.update (es.foldl Edit.apply d.text) version), fun uri' hne =>
        (w.document?_keep _ uri').trans (if_neg hne)⟩

theorem Server.hear_append {reader : UriReader} {tree : Tree} {as bs : List Notice} {w' : Workspace}
    (h : hear reader tree w as = .ok w') : hear reader tree w (as ++ bs) = hear reader tree w' bs := by
  rw [hear, List.foldlM_append, ← hear, h]
  rfl

theorem Client.run_in_step (reader : UriReader) (tree : Tree) {acts : List Act} (h : w.InStep held)
    (hf : ActsFit held acts) :
    ∃ w', Server.hear reader tree w (notices held acts) = .ok w' ∧ w'.InStep (texts held acts) := by
  induction acts generalizing w held with
  | nil => exact ⟨w, rfl, h⟩
  | cons a as ih =>
    obtain ⟨w₁, hw₁, h₁, -⟩ := a.receive_in_step reader tree h hf.1
    obtain ⟨w₂, hw₂, h₂⟩ := ih h₁ hf.2
    have hfirst : Server.hear reader tree w [a.notice held] = .ok w₁ := by
      rw [Server.hear, List.foldlM_cons, hw₁]
      rfl
    exact ⟨w₂, (Server.hear_append hfirst).trans hw₂, h₂⟩

/--
After every message of a run, the server has the documents of the editor open and no others, with the texts that the
editor has, taken apart at their breaks; and no message touches a document that it is not about.
-/
theorem Server.hear_in_step (reader : UriReader) (tree : Tree) {acts pre : List Act} (hw : w.documents = [])
    (hf : ActsFit noTexts acts) (hpre : pre <+: acts) :
    ∃ w', hear reader tree w (notices noTexts pre) = .ok w' ∧
      (∀ uri, (w'.document? uri).map (·.text) = texts noTexts pre uri) ∧
      (∀ uri d, w'.document? uri = some d → ∃ l : Layout, l.IsSplit d.text ∧ d.lines = l.lines) ∧
      ∀ a, pre ++ [a] <+: acts → ∃ w'', hear reader tree w (notices noTexts (pre ++ [a])) = .ok w'' ∧
        ∀ uri, uri ≠ a.uri → w''.document? uri = w'.document? uri := by
  have hstart : w.InStep noTexts := by
    have hnone : ∀ uri, w.document? uri = none := fun uri => by rw [Workspace.document?, hw]; rfl
    exact ⟨fun uri => by rw [hnone]; rfl, fun hd => by rw [hnone] at hd; cases hd⟩
  obtain ⟨post, rfl⟩ := hpre
  obtain ⟨w', hw', h'⟩ := run_in_step reader tree hstart (actsFit_append.mp hf).1
  refine ⟨w', hw', h'.text, fun uri d _ => ⟨_, Layout.isSplit_ofText d.text, rfl⟩, ?_⟩
  rintro a ⟨post', hpost⟩
  have hfits : a.Fits (texts noTexts pre) := by
    rw [← hpost, List.append_assoc, actsFit_append] at hf
    exact hf.2.1
  obtain ⟨w'', hw'', -, hother⟩ := a.receive_in_step reader tree h' hfits
  refine ⟨w'', ?_, hother⟩
  rw [notices_append, hear_append hw', hear]
  exact (List.foldlM_cons ..).trans (by rw [hw'']; rfl)

/-- Two documents, one of them changed behind a character of two units and across a break of two characters. -/
def Client.shortRun : List Act :=
  [.opens "a" "x😀\r\ny".toList 1, .opens "b" "z".toList 1,
    .edits "a" 2 [.splice 2 4 " ".toList, .splice 4 4 "\r\n".toList], .closes "b"]

theorem Server.hear_in_step_shortRun : ActsFit noTexts shortRun ∧
    ∃ w', hear Uri.fsPath? ⟨[], ⟨1, []⟩⟩ (.start Uri.fsPath? ⟨1, []⟩ none none) (notices noTexts shortRun) = .ok w' ∧
      (w'.document? "a").map (·.text) = some "x😀 y\r\n".toList ∧ w'.document? "b" = none := by
  have hfits : ActsFit noTexts shortRun := by
    refine ⟨trivial, trivial, ⟨_, rfl, ?_, ?_, trivial⟩, trivial, trivial⟩
    · exact ⟨by decide, by decide, by decide, by decide⟩
    · exact ⟨by decide, by decide, by decide, by decide⟩
  obtain ⟨w', hw', htext, -⟩ := hear_in_step Uri.fsPath? ⟨[], ⟨1, []⟩⟩ (w := .start Uri.fsPath? ⟨1, []⟩ none none) rfl
    hfits (List.prefix_refl shortRun)
  exact ⟨hfits, w', hw', (htext "a").trans rfl, Option.map_eq_none_iff.mp ((htext "b").trans rfl)⟩

end ScriptCase
