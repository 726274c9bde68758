import PhaseKeeper.Settings.Resolved
import PhaseKeeper.Text.Word
/-!
Files that set variables, one `KEY=VALUE` to a line. A value in quotes may go on over the end of the
line; a comment begins with a number sign at the start of a line or after a blank. Reading stops at
the first line that does not parse.
-/
namespace PhaseKeeper.EnvFile

/-- What the end of a line means depends on what stands open there. -/
inductive Scan where
  | plain
  | blank
  | escape
  | quoted (mark : Char)
  | quotedEscape (mark : Char)
deriving DecidableEq, Repr

def Scan.next : Scan → Char → Option Scan
  | .escape, _ => some .plain
  | .quotedEscape q, _ => some (.quoted q)
  | .quoted q, c => some (if c = '\\' then .quotedEscape q else if c = q then .plain else .quoted q)
  | s, c =>
    if s = .blank ∧ c = '#' then none
    else if c = '\\' then some .escape
    else if c = '"' ∨ c = '\'' then some (.quoted c)
    else if s = .plain ∧ Text.isBlank c ∧ c ≠ '\n' ∧ c ≠ '\r' then some .blank
    else some .plain

/-- What stands before a comment, and the state at the end if there is no comment. -/
def Scan.line (s : Scan) : List Char → List Char × Option Scan
  | [] => ([], some s)
  | c :: r =>
    match s.next c with
    | none => ([], none)
    | some s =>
      let (kept, last) := s.line r
      (c :: kept, last)

def pieces : List Char → List (List Char)
  | [] => []
  | '\n' :: r => ['\n'] :: pieces r
  | c :: r =>
    match pieces r, r with
    | line :: rest, _ :: _ => (c :: line) :: rest
    | rest, _ => [c] :: rest

def dropLineEnd (line : List Char) : List Char :=
  match line.reverse with
  | '\n' :: '\r' :: r => r.reverse
  | '\n' :: r => r.reverse
  | _ => line

/-- The lines, given the line that is still open. A line that the file leaves open is `none`. -/
def linesFrom (s : Scan) (held : List Char) : List (List Char) → List (Option (List Char))
  | [] => if s = .plain then [] else [none]
  | piece :: rest =>
    if (Text.skipBlank (held ++ piece)).head? = some '#' then some [] :: linesFrom .plain [] rest
    else
      match s.line piece with
      | (kept, none) => some (held ++ kept) :: linesFrom .plain [] rest
      | (_, some .plain) => some (held ++ dropLineEnd piece) :: linesFrom .plain [] rest
      | (_, some s) => linesFrom s (held ++ piece) rest

def lines (file : List Char) : List (Option (List Char)) := linesFrom .plain [] (pieces file)

/-- Where a value is being read: outside of quotes, after a backslash, between single quotes, in the
name after a dollar sign, in a name between braces, or behind the value. -/
inductive Mode where
  | plain
  | escape
  | single
  | name (name : List Char)
  | braced (name : List Char)
  | behind

def expand (env : Environment) (name : List Char) : List Char :=
  ((env.lookup (.ofList name)).getD "").toList

def escaped? (c : Char) : Option Char :=
  if c = 'n' then some '\n' else if "\\'\"$ ".toList.contains c then some c else none

def value? (env : Environment) (double : Bool) : Mode → List Char → Option (List Char)
  | .single, [] | .braced _, [] => none
  | .name n, [] => if double then none else some (expand env n)
  | _, [] => if double then none else some []
  | .behind, c :: r =>
    if c = '#' then some []
    else if c = ' ' ∨ c = '\t' then value? env double .behind r
    else none
  | .escape, c :: r => do return (← escaped? c) :: (← value? env double .plain r)
  | .single, c :: r =>
    if c = '\'' then value? env double .plain r else (c :: ·) <$> value? env double .single r
  | .name n, c :: r =>
    if Text.isWord c then value? env double (.name (n ++ [c])) r
    else if c = '\x7b' ∧ n = [] then value? env double (.braced []) r
    else if c = '$' then (expand env n ++ ·) <$> value? env double (.name []) r
    else (expand env n ++ c :: ·) <$> value? env double .plain r
  | .braced n, c :: r =>
    if c = '\x7d' then (expand env n ++ ·) <$> value? env double .plain r
    else value? env double (.braced (n ++ [c])) r
  | .plain, c :: r =>
    if c = '$' then value? env double (.name []) r
    else if c = '"' then value? env (!double) .plain r
    else if c = '\\' then value? env double .escape r
    else if double then (c :: ·) <$> value? env double .plain r
    else if c = '\'' then value? env double .single r
    else if c = ' ' ∨ c = '\t' then value? env double .behind r
    else (c :: ·) <$> value? env double .plain r

def name? : List Char → Option (List Char × List Char)
  | [] => none
  | c :: r =>
    if c.isAlpha || c = '_' then
      let inside (c : Char) : Bool := c.isAlphanum || c = '_' || c = '.'
      some (c :: r.takeWhile inside, Text.skipBlank (r.dropWhile inside))
    else none

def assignment? (line : List Char) : Option (String × List Char) := do
  let (name, r) ← name? line
  match r with
  | '=' :: r => return (.ofList name, Text.skipBlank r)
  | _ =>
    if .ofList name ≠ "export" then failure
    let (name, r) ← name? r
    match r with
    | '=' :: r => return (.ofList name, Text.skipBlank r)
    | _ => failure

/-- The environment after one line. A variable that is set already is kept. -/
def applyLine? (env : Environment) (line : List Char) : Option Environment := do
  let line := Text.skipBlank (Text.dropBlankEnd line)
  if line.isEmpty || line.head? = some '#' then return env
  let (name, written) ← assignment? line
  let value ←
    if written.isEmpty || written.head? = some '#' then some []
    else value? env false .plain written
  return if (env.lookup name).isSome then env else (name, .ofList value) :: env

def applyAll (env : Environment) : List (Option (List Char)) → Environment
  | some line :: rest =>
    match applyLine? env line with
    | some env => applyAll env rest
    | none => env
  | _ => env

def load (file : String) (env : Environment) : Environment :=
  let text := file.toList
  applyAll env (lines (if text.head? = some '\uFEFF' then text.drop 1 else text))

end PhaseKeeper.EnvFile
