import TaskFlow.Settings
import TaskFlow.Workflow.Cache
import TaskFlow.Workflow.Document.Text

/-!
# Workflow documents in files

Files and directories below a base directory, what is found there at a path, and the workflow
document that lies under a root. Only a regular file of limited size is read; a root without such a
file has no document.
-/

namespace TaskFlow

/-- A path from a directory: an absolute path stands for itself, and an empty one ends with the
slash after the directory. -/
def joinPath (directory path : String) : String :=
  if path.startsWith "/" || directory.isEmpty then path
  else if directory.endsWith "/" then directory ++ path
  else directory ++ "/" ++ path

/-- What may stand at a path: a file of bytes, or a directory. -/
inductive FileEntry where
  | file (content : ByteArray)
  | directory

/-- The entries below a base directory by the names that lead to them. The directories on the way to
an entry are there as well. -/
structure FileTree where
  base : String
  entries : List (List String × FileEntry) := []

/-- What is found at a path. A path that leads through a file, or is not possible at all, cannot be
followed. -/
inductive Found where
  | missing
  | unreachable
  | entry (e : FileEntry)

namespace FileTree

/-- The most bytes of a name on a path. -/
def maxNameSize : Nat := 255

def maxPathSize : Nat := 4095

/-- The entry under the names that lead to it. -/
def entry? (t : FileTree) (names : List String) : Option FileEntry :=
  match t.entries.lookup names with
  | some e => some e
  | none =>
    if names.isEmpty || t.entries.any fun e => names.isPrefixOf e.1 then some .directory else none

/-- The tree with an entry at a path below the base, in the place of one that is there. -/
def put (t : FileTree) (path : String) (e : FileEntry) : FileTree :=
  let names := (path.splitOn "/").filter fun name => name ≠ "" ∧ name ≠ "."
  { t with entries := (names, e) :: t.entries.filter fun old => old.1 ≠ names }

/-- Follows names from a directory, `none` if it is outside the base. There is nothing outside. -/
def follow (t : FileTree) : (here : Option (List String)) → List String → Found
  | _, [] => .entry .directory
  | here, name :: rest =>
    if name = "" || name = "." then t.follow here rest
    else if name = ".." then
      t.follow (here.bind fun names => if names.isEmpty then none else some names.dropLast) rest
    else if maxNameSize < name.utf8ByteSize then .unreachable
    else
      match here.bind fun names => (t.entry? (names ++ [name])).map (names ++ [name], ·) with
      | none => .missing
      | some (names, .directory) => t.follow (some names) rest
      | some (_, .file content) => if rest.isEmpty then .entry (.file content) else .unreachable

def find (t : FileTree) (path : String) : Found :=
  if path.any (· = '\x00') || maxPathSize < path.utf8ByteSize then .unreachable
  else
    let start := t.base.toList
    if start.isPrefixOf path.toList then
      t.follow (some []) ((String.ofList (path.toList.drop start.length)).splitOn "/")
    else if path.isEmpty then .missing
    else t.follow none (path.splitOn "/")

end FileTree

/-- The place of the workflow document from a root. -/
def WorkflowSettings.relativePath (s : WorkflowSettings) : String :=
  joinPath s.directory s.file

/-- The path of the workflow document under a root. -/
def WorkflowSettings.path (s : WorkflowSettings) (root : String) : String :=
  joinPath root s.relativePath

namespace Workflow

def maxDocumentSize : Nat := 1048576

/-- Reads the document at a path. -/
def Document.load (files : FileTree) (path : String) : Except ConfigError (Option Document) :=
  match files.find path with
  | .missing => .ok none
  | .unreachable => .error (.unreadableFile path "the path cannot be followed")
  | .entry .directory => .error (.notRegularFile path)
  | .entry (.file content) =>
    if maxDocumentSize < content.size then
      .error (.invalidValue "workflow document size" (toString content.size)
        s!"exceeds the {maxDocumentSize} byte limit")
    else
      match String.fromUTF8? content with
      | none => .error (.unreadableFile path "the file is not text")
      | some text => (Document.ofFile path text).map some

def Source.ofFiles (files : FileTree) (s : WorkflowSettings) : Source :=
  fun root => Document.load files (s.path root)

end Workflow

end TaskFlow
