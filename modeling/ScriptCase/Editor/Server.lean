import ScriptCase.Editor.Uri
import ScriptCase.Editor.Workspace

/-!
# The language server

The server keeps a workspace and answers what an editor sends: it is started for a folder, learns the editor's own
root once the editor is ready, and passes on what happens to documents.
-/

namespace ScriptCase
namespace Server

/-- The workspace of a server that was started for a folder. -/
def create (reader : UriReader) (cwd : Path) (root config : Option Path) : Except Mishap Workspace :=
  match root with
  | none => .ok (Workspace.start reader cwd none config)
  | some r => (cwd.resolve? r).map fun r => Workspace.start reader cwd (some (Uri.ofPath r)) config

/-- The editor is ready. Its own root counts; without one the root at the start stays. -/
def initialized (reader : UriReader) (tree : Tree) (w : Workspace) (uri : Option String) : Workspace.Step Unit :=
  let step := match uri.filter (· != "") with
    | some u => w.setRoot reader tree (some u)
    | none => w.reload tree
  match step.result with
  | .error _ => step
  | .ok _ =>
    { step with
      records := step.records ++
        [⟨.info, .server, "Workspace initialised at " ++ step.workspace.root.text⟩] }

/-- A document was changed; a message without changes is passed over. -/
def didChange (reader : UriReader) (tree : Tree) (w : Workspace) (uri : String) (version : Int)
    (changes : List Change) : Except Mishap Workspace :=
  if changes.isEmpty then .ok w else w.didChange reader tree uri version changes

end Server
end ScriptCase
