/-!
# Paths

Paths as they are written. What a path leads to is for a tree to say; here are its names, what is
written around them, and how a path goes on.
-/

namespace RoadFlow.Storage

/-- The names from the root of a tree down to an entry. -/
abbrev Location := List String

/-- A path seen from a directory. -/
structure Path where
  place : Location
  /-- What stands between the slashes. -/
  names : List String
  deriving DecidableEq

namespace Path

/-- A name that leads nowhere else: an empty one, or a dot. -/
def isBlank (name : String) : Bool := name = "" || name = "."

/-- A name that leads to the directory itself or to the one around it, and is that of no entry. -/
def isDots (name : String) : Bool := name = "." || name = ".."

/-- What stands between the slashes of a text. -/
def split (text : String) : List String := (text.toList.splitOn '/').map String.ofList

/-- The path that a text names as seen from a directory, or from the root if it starts with a
slash. -/
def ofString (place : Location) (text : String) : Path :=
  ⟨if text.startsWith "/" then [] else place, split text⟩

def text (p : Path) : String := "/".intercalate p.names

/-- The path that goes on with a text. A slash comes between the two unless there is one; a text
that starts with a slash stands for itself. -/
def join (p : Path) (text : String) : Path :=
  if text.startsWith "/" then ofString p.place text
  else
    let names := if p.names.getLast? = some "" then p.names.dropLast else p.names
    ⟨p.place, names ++ split text⟩

/-- The names up to the last that is not blank. -/
def trimmed (names : List String) : List String := (names.reverse.dropWhile isBlank).reverse

/-- The path without its last name, blank ones apart. -/
def parent? (p : Path) : Option Path :=
  match trimmed p.names with
  | [] => none
  | name :: rest => some ⟨p.place, trimmed (name :: rest).dropLast⟩

/-- The last name, unless it leads upwards. -/
def fileName? (p : Path) : Option String := (trimmed p.names).getLast?.filter (· ≠ "..")

/-- A name without its last ending. A leading point starts no ending. -/
def stem (name : String) : String :=
  let reversed := name.toList.reverse
  let front := (reversed.dropWhile (· ≠ '.')).drop 1
  if front.isEmpty then name else String.ofList front.reverse

/-- The paths that end at one of some names, which are given last first. -/
def endings (place : Location) : List String → List Path
  | [] => []
  | name :: front =>
    if isBlank name then endings place front
    else ⟨place, (name :: front).reverse⟩ :: endings place front

/-- A path and those around it, the nearest first, down to the first name. -/
def withParents (p : Path) : List Path :=
  match endings p.place p.names.reverse with
  | [] => []
  | _ :: parents => p :: parents

/-- The location that a name leads to from another one, if it leads to something. -/
def step (here : Location) (name : String) : Location :=
  if isBlank name then here else if name = ".." then here.dropLast else here ++ [name]

/-- The locations that some names pass from another one. -/
def passed (here : Location) : List String → List Location
  | [] => [here]
  | name :: rest => here :: passed (step here name) rest

/-- The locations that a path passes from the root, if all its names lead to something. -/
def stops (p : Path) : List Location := passed [] (p.place ++ p.names)

end Path

end RoadFlow.Storage
