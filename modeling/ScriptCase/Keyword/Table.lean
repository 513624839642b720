import ScriptCase.Issue
import ScriptCase.Keyword.Category
import ScriptCase.Text.Lowercase
import ScriptCase.Value.Basic

/-!
# Keyword tables

A keyword table lists the tokens of every category. A table is sound when every token is a plain word, no category
lists a token twice, and no token is both a scope and a property, all of this whatever the case. Soundness is part of
the type: a table can only be had from `ofEntries`, which refuses lists that are not sound with the first fault in them.
-/

namespace ScriptCase

/-- Why a keyword table cannot be used. -/
inductive TableFault where
  /-- An entry of a category is not a plain word. -/
  | invalidToken (category : Category) (entry : Value)
  /-- A category lists a token again. -/
  | duplicateToken (category : Category) (token : Text)
  /-- Tokens are both scopes and properties. -/
  | overlap (tokens : List Text)
  /-- There are no categories of these names. -/
  | unknownCategories (names : List String)
  /-- The section of keywords is not a table. -/
  | sectionNotATable
  /-- A category is not a list. -/
  | notAList (category : Category)
  /-- The file cannot be read. -/
  | unreadable (reason : String)
  /-- The file is not well formed. -/
  | malformed (detail : String)

namespace TableFault

/-- What users are told. -/
def message : TableFault → String
  | .invalidToken c entry => "Invalid " ++ c.name ++ " keyword " ++ entry.quoted
  | .duplicateToken c token => "Duplicate " ++ c.name ++ " keyword " ++ String.ofList (Text.quoted token)
  | .overlap tokens =>
    "Tokens listed as both scoped prefixes and assignment keywords: " ++ ", ".intercalate (tokens.map String.ofList)
  | .unknownCategories names => "Unknown keyword categories: " ++ ", ".intercalate names
  | .sectionNotATable => "The [keywords] section must be a table"
  | .notAList c => "'" ++ c.name ++ "' must be a list of keywords"
  | .unreadable reason => "Cannot read keyword table: " ++ reason
  | .malformed detail => "Invalid TOML: " ++ detail

/-- What users may do about it. -/
def hint? : TableFault → Option String
  | .invalidToken _ _ => some "Keywords may only contain letters, digits and underscores."
  | .overlap _ => some "Keep each token in only one of 'scoped' and 'assignment'."
  | .unknownCategories _ => some ("Valid categories are: " ++ Category.listing)
  | _ => none

/-- The issue about the table of a file. -/
def issue (f : TableFault) (path : Option String) : Issue :=
  Issue.ofKind .keywordTable f.message ⟨path, none, none⟩ f.hint?

end TableFault

/-- The entries of the four categories, of whatever kind they are. -/
abbrev Entries := Category → List Value

namespace Entries

/-- Letters and digits of ASCII, and the underscore. -/
def isPlain (c : Char) : Bool := c.isAlphanum || c == '_'

/-- The token of an entry that is a plain word. -/
def token? : Value → Option Text
  | .string t => t.text?.filter fun s => !s.isEmpty && s.all isPlain
  | _ => none

/-- The first fault of a category after the tokens in `seen`, which are in lower case. -/
def categoryFault? (c : Category) : (seen : List Text) → List Value → Option TableFault
  | _, [] => none
  | seen, v :: vs =>
    match token? v with
    | none => some (.invalidToken c v)
    | some t =>
      if seen.elem (Text.lowerText t) then some (.duplicateToken c t)
      else categoryFault? c (Text.lowerText t :: seen) vs

/-- The tokens of a category in lower case. -/
def lowered (e : Entries) (c : Category) : List Text := (e c).filterMap fun v => (token? v).map Text.lowerText

/-- Texts in the order of their code points. -/
def sorted (ts : List Text) : List Text := ts.mergeSort fun a b => decide (String.ofList a ≤ String.ofList b)

/-- The tokens that are both scopes and properties. -/
def shared (e : Entries) : List Text := (e.lowered .scope).filter (e.lowered .assignment).elem

/-- The first fault of a table with these entries. -/
def fault? (e : Entries) : Option TableFault :=
  match Category.all.findSome? fun c => categoryFault? c [] (e c) with
  | some f => some f
  | none => if e.shared.isEmpty then none else some (.overlap (sorted e.shared))

/-- Tokens as entries. -/
def ofTokens (tokens : Category → List Text) : Entries := fun c => (tokens c).map fun t => .string (.ofText t)

/-- A category without a fault holds tokens only. -/
theorem eq_of_categoryFault? {c : Category} {seen : List Text} {vs : List Value}
    (h : categoryFault? c seen vs = none) : (vs.filterMap token?).map (fun t => Value.string (.ofText t)) = vs := by
  induction vs generalizing seen with
  | nil => rfl
  | cons v vs ih =>
    rw [categoryFault?] at h
    cases hv : token? v with
    | none => simp [hv] at h
    | some t =>
      simp only [hv] at h
      split at h
      · exact absurd h (by simp)
      · have hs : v = .string (.ofText t) := by
          cases v <;> simp only [token?, reduceCtorEq] at hv
          exact congrArg Value.string (LooseText.text?_eq_some_iff.mp (Option.eq_some_of_filter_eq_some hv))
        rw [List.filterMap_cons_some hv, List.map_cons, ih h, ← hs]

/-- Entries without a fault are tokens. -/
theorem eq_of_fault? {e : Entries} (h : e.fault? = none) : ofTokens (fun c => (e c).filterMap token?) = e := by
  funext c
  rw [fault?] at h
  split at h
  · exact absurd h (by simp)
  · next hf =>
    rw [List.findSome?_eq_none_iff] at hf
    exact eq_of_categoryFault? (hf c (Category.mem_all c))

end Entries

/-- A sound keyword table. `source` names where it was read from. -/
structure Table where
  tokens : Category → List Text
  source : Option String
  sound : (Entries.ofTokens tokens).fault?.isNone = true

namespace Table

/-- The table with these entries, or the first fault in them. -/
def ofEntries (e : Entries) (source : Option String) : Except TableFault Table :=
  match h : e.fault? with
  | some f => .error f
  | none => .ok ⟨fun c => (e c).filterMap Entries.token?, source, by rw [Entries.eq_of_fault? h, h]; rfl⟩

/-- The tokens of a category as loose texts, such as extensions list. -/
def texts (t : Table) (c : Category) : List LooseText := (t.tokens c).map .ofText

/-- The tokens of the list that are in `seen` in no case, each once. -/
def fresh : (seen : List LooseText) → List LooseText → List LooseText
  | _, [] => []
  | seen, t :: ts => if seen.elem t.lower then fresh seen ts else t :: fresh (t.lower :: seen) ts

/-- Strings in the order of their code points, each once. -/
def sortedNames (names : List String) : List String := (names.mergeSort fun a b => decide (a ≤ b)).eraseDups

/-- The tokens that an extension lists for a category. -/
def listed (extra : List (String × List LooseText)) (c : Category) : List LooseText :=
  ((extra.find? (·.1 == c.name)).map (·.2)).getD []

/-- The table with further tokens behind those of their categories; tokens that are there already are passed over. -/
def extend (t : Table) (extra : List (String × List LooseText)) : Except TableFault Table :=
  match sortedNames ((extra.map (·.1)).filter fun n => (Category.ofName? n).isNone) with
  | [] =>
    ofEntries (fun c => (t.texts c ++ fresh ((t.texts c).map LooseText.lower) (listed extra c)).map .string) t.source
  | unknown => .error (.unknownCategories unknown)

/-- The entries of a category in a section of keywords; a value that is void counts as left out. -/
def entriesIn (fields : List (LooseText × Value)) (c : Category) : Except TableFault (List Value) :=
  match Value.lookup? c.name fields with
  | none => .ok []
  | some v =>
    if v.isVoid then .ok []
    else match v with
      | .array items => .ok items
      | _ => .error (.notAList c)

/-- The table of a document, which is its section `keywords` or, without one, the whole of it. -/
def ofDocument (document : List (LooseText × Value)) (source : Option String) : Except TableFault Table := do
  match (Value.lookup? "keywords" document).getD (.table document) with
  | .table fields =>
    let assignment ← entriesIn fields .assignment
    let scope ← entriesIn fields .scope
    let control ← entriesIn fields .control
    let command ← entriesIn fields .command
    ofEntries (fun | .assignment => assignment | .scope => scope | .control => control | .command => command) source
  | _ => throw .sectionNotATable

/-- The number of tokens of every category, as log records show it. -/
def census (t : Table) : String :=
  ", ".intercalate (Category.all.map fun c => c.name ++ "=" ++ toString (t.tokens c).length)

end Table
end ScriptCase
