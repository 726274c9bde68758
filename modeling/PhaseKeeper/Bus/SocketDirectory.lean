import PhaseKeeper.Bus.Endpoint
import PhaseKeeper.Text.Utf8
/-!
The directory of a socket, which has to exist before the socket can be bound. A directory that is
missing is made, with all directories above it.
-/
namespace PhaseKeeper

/-- The files and directories below a working directory, each as the names that lead to it. -/
structure FileTree where
  files : List (List String)
  directories : List (List String)
deriving DecidableEq, Repr

namespace FileTree

inductive Fault where
  | notFound
  | alreadyExists
  | notADirectory
  | nameTooLong
  | nulInName
deriving DecidableEq, Repr

inductive Step where
  | here
  | up
  | down (name : String)
deriving DecidableEq, Repr

def Step.hasNul : Step → Bool
  | .down name => name.toList.contains '\x00'
  | _ => false

inductive Place where
  | directory (path : List String)
  | file
  | outside
deriving DecidableEq, Repr

def longestName : Nat := 255

def walk (t : FileTree) : Place → List Step → Except Fault Place
  | p, [] => .ok p
  | .outside, _ => .ok .outside
  | .file, _ :: _ => .error .notADirectory
  | .directory path, .here :: r => walk t (.directory path) r
  | .directory [], .up :: _ => .ok .outside
  | .directory path, .up :: r => walk t (.directory path.dropLast) r
  | .directory path, .down name :: r =>
    let next := path ++ [name]
    if longestName < (bytesOf name).length then .error .nameTooLong
    else if t.files.contains next then walk t .file r
    else if t.directories.contains next then walk t (.directory next) r
    else .error .notFound

def makeOne (t : FileTree) : List Step → Except Fault FileTree
  | [] => .error .alreadyExists
  | last :: above => do
    match ← t.walk (.directory []) above.reverse, last with
    | .outside, _ => return t
    | .file, _ => throw .notADirectory
    | .directory path, .down name =>
      match t.walk (.directory path) [last] with
      | .ok _ => throw .alreadyExists
      | .error .notFound => return { t with directories := t.directories ++ [path ++ [name]] }
      | .error e => throw e
    | .directory _, _ => throw .alreadyExists

def isDirectory (t : FileTree) (steps : List Step) : Bool :=
  match t.walk (.directory []) steps.reverse with
  | .ok (.directory _) | .ok .outside => true
  | _ => false

def ensureOne (t : FileTree) (steps : List Step) : Except Fault FileTree :=
  match t.makeOne steps with
  | .ok t => .ok t
  | .error e => if t.isDirectory steps then .ok t else .error e

/-- Makes it, and what is missing above it. What was made stays, whatever fails afterwards. -/
def ensure (t : FileTree) : List Step → Option Fault × FileTree
  | [] => (none, t)
  | last :: above =>
    match t.ensureOne (last :: above) with
    | .ok t => (none, t)
    | .error .notFound =>
      match t.ensure above with
      | (some e, t) => (some e, t)
      | (none, t) =>
        match t.ensureOne (last :: above) with
        | .ok t => (none, t)
        | .error e => (some e, t)
    | .error e => (some e, t)

end FileTree

namespace Endpoint

def segments (path : List Char) : List (List Char) :=
  path.foldr (fun c parts =>
    match c, parts with
    | '/', parts => [] :: parts
    | c, part :: parts => (c :: part) :: parts
    | c, [] => [[c]]) [[]]

def stepsOf (path : List Char) : List FileTree.Step :=
  let step : List Char → Option FileTree.Step
    | [] | ['.'] => none
    | ['.', '.'] => some .up
    | name => some (.down (.ofList name))
  match segments path with
  | ['.'] :: r => .here :: r.filterMap step
  | parts => parts.filterMap step

/-- Makes the directory of a socket. A path that starts at the root lies outside the tree. -/
def ensureDirectory (e : Endpoint) (t : FileTree) : Option FileTree.Fault × FileTree :=
  match e with
  | .tcp _ _ => (none, t)
  | .ipc path =>
    if path.toList.head? = some '/' then (none, t)
    else
      let above := (stepsOf path.toList).reverse.drop 1
      if above.any FileTree.Step.hasNul then (some .nulInName, t) else t.ensure above

end Endpoint
end PhaseKeeper
