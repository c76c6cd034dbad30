import RoadFlow.Storage.Path

/-!
# File trees

A directory tree as a value, the nodes that paths lead to, and the operations on it with the faults
that a file system reports. A path is walked name by name: each name but the last has to be that of
a directory, and two dots lead to the directory around the one reached.
-/

namespace RoadFlow.Storage

abbrev Bytes := List UInt8

inductive Fault where
  | notFound
  | exists
  | notDirectory
  | isDirectory
  | busy
  | invalid
  | nameTooLong
  | nameHoldsNul
  deriving DecidableEq

def Fault.message : Fault → String
  | .notFound => "No such file or directory (os error 2)"
  | .busy => "Device or resource busy (os error 16)"
  | .exists => "File exists (os error 17)"
  | .notDirectory => "Not a directory (os error 20)"
  | .isDirectory => "Is a directory (os error 21)"
  | .invalid => "Invalid argument (os error 22)"
  | .nameTooLong => "File name too long (os error 36)"
  | .nameHoldsNul => "file name contained an unexpected NUL byte"

/-- What a path leads to. -/
inductive Entry where
  | file (bytes : Bytes)
  | directory
  deriving DecidableEq

/-! ## Nodes -/

inductive FileNode where
  | file (bytes : Bytes)
  | directory (entries : List (String × FileNode))

namespace FileNode

def entry : FileNode → Entry
  | file bytes => .file bytes
  | directory _ => .directory

/-- The node at a location below another one. -/
def find? (node : FileNode) : Location → Option FileNode
  | [] => some node
  | name :: rest =>
    match node with
    | file _ => none
    | directory entries =>
      match entries.lookup name with
      | none => none
      | some child => child.find? rest

/-- The node with another one at a location below it. Directories that lead there are made. -/
def put (node : FileNode) : Location → FileNode → FileNode
  | [], new => new
  | name :: rest, new =>
    match node with
    | file bytes => file bytes
    | directory entries =>
      let child := (entries.lookup name).getD (directory [])
      directory ((name, child.put rest new) :: entries.filter fun e => e.1 ≠ name)

/-- The node without what is at a location below it. -/
def erase (node : FileNode) : Location → FileNode
  | [] => node
  | name :: rest =>
    match node with
    | file bytes => file bytes
    | directory entries =>
      if rest = [] then directory (entries.filter fun e => e.1 ≠ name)
      else match entries.lookup name with
        | none => directory entries
        | some child =>
          directory ((name, child.erase rest) :: entries.filter fun e => e.1 ≠ name)

end FileNode

/-! ## Trees -/

/-- The entries of a root directory. -/
structure FileTree where
  entries : List (String × FileNode)

namespace FileTree

def empty : FileTree := ⟨[]⟩

def root (t : FileTree) : FileNode := .directory t.entries

/-- The tree of a root. A file is none. -/
def ofRoot : FileNode → FileTree
  | .file _ => empty
  | .directory entries => ⟨entries⟩

def entry? (t : FileTree) (l : Location) : Option Entry := (t.root.find? l).map (·.entry)

def put (t : FileTree) (l : Location) (node : FileNode) : FileTree := ofRoot (t.root.put l node)

def erase (t : FileTree) (l : Location) : FileTree := ofRoot (t.root.erase l)

/-- The tree that a change leads to, or this one with what the change failed of. -/
def settle (t : FileTree) : Except Fault FileTree → FileTree × Except Fault Unit
  | .ok changed => (changed, .ok ())
  | .error fault => (t, .error fault)

/-! ## Walking -/

/-- The longest name of an entry, in bytes. -/
def nameLimit : Nat := 255

/-- The longest path, in bytes. -/
def pathLimit : Nat := 4095

/-- The nodes passed on the way from the root, each under its name, the last one first. -/
abbrev Trail := List (String × FileNode)

def Trail.location (trail : Trail) : Location := (trail.map (·.1)).reverse

/-- The node that a trail ends at. -/
def reached (t : FileTree) : Trail → FileNode
  | [] => t.root
  | (_, node) :: _ => node

/-- The entry of a name among others. -/
def lookUp (entries : List (String × FileNode)) (name : String) : Except Fault (Option FileNode) :=
  if nameLimit < name.utf8ByteSize then .error .nameTooLong else .ok (entries.lookup name)

/-- Goes on by a name. -/
def enter (t : FileTree) (trail : Trail) (name : String) : Except Fault Trail :=
  match t.reached trail with
  | .file _ => .error .notDirectory
  | .directory entries =>
    if Path.isBlank name then .ok trail
    else if name = ".." then .ok trail.tail
    else match lookUp entries name with
      | .error fault => .error fault
      | .ok none => .error .notFound
      | .ok (some node) => .ok ((name, node) :: trail)

/-- Goes on by all names in turn. -/
def walk (t : FileTree) (place : Location) (names : List String) : Except Fault Trail :=
  (place ++ names).foldlM t.enter []

/-- What keeps a path from being walked at all. -/
def pathFault? (p : Path) : Option Fault :=
  let text := p.text
  if text.toList.any (· = '\x00') then some .nameHoldsNul
  else if text.isEmpty then some .notFound
  else if pathLimit < text.utf8ByteSize then some .nameTooLong
  else none

/-- The entry that a path leads to, or why it leads to none. -/
def find (t : FileTree) (p : Path) : Except Fault Entry :=
  match pathFault? p with
  | some fault => .error fault
  | none => (t.walk p.place p.names).map fun trail => (t.reached trail).entry

def isPresent (t : FileTree) (p : Path) : Bool := (t.find p).isOk

def isDirectory (t : FileTree) (p : Path) : Bool :=
  match t.find p with
  | .ok .directory => true
  | _ => false

/-- The bytes of a file. -/
def read (t : FileTree) (p : Path) : Except Fault Bytes :=
  match t.find p with
  | .ok (.file bytes) => .ok bytes
  | .ok .directory => .error .isDirectory
  | .error fault => .error fault

/-! ## Sites

An operation that makes, moves or removes an entry needs the directory that holds it. -/

/-- Where the last name of a path belongs. -/
structure Site where
  directory : Location
  entries : List (String × FileNode)
  /-- The last name, unless it is one of dots or there is none. -/
  name? : Option String
  /-- Whether slashes follow the last name. -/
  slashed : Bool

def Site.target (s : Site) (name : String) : Location := s.directory ++ [name]

/-- The site of a path whose directory exists. -/
def site (t : FileTree) (p : Path) : Except Fault Site :=
  match pathFault? p with
  | some fault => .error fault
  | none =>
    let reversed := p.names.reverse.dropWhile (· = "")
    match t.walk p.place reversed.tail.reverse with
    | .error fault => .error fault
    | .ok trail =>
      match t.reached trail with
      | .file _ => .error .notDirectory
      | .directory entries =>
        .ok ⟨Trail.location trail, entries, reversed.head?.filter fun name => !Path.isDots name,
          p.names.getLast? = some ""⟩

/-- The tree with a file that holds the bytes, in place of any file of that path. -/
def write (t : FileTree) (p : Path) (bytes : Bytes) : Except Fault FileTree := do
  let s ← t.site p
  match s.name? with
  | none => .error .isDirectory
  | some name =>
    if s.slashed then .error .isDirectory
    else match ← lookUp s.entries name with
      | some (.directory _) => .error .isDirectory
      | _ => .ok (t.put (s.target name) (.file bytes))

/-- The tree with a new directory. -/
def makeDirectory (t : FileTree) (p : Path) : Except Fault FileTree := do
  let s ← t.site p
  match s.name? with
  | none => .error .exists
  | some name =>
    match ← lookUp s.entries name with
    | some _ => .error .exists
    | none => .ok (t.put (s.target name) (.directory []))

/-- Makes a directory unless there is one. -/
def ensureDirectory (t : FileTree) (p : Path) : Except Fault FileTree :=
  match t.makeDirectory p with
  | .error .exists => if t.isDirectory p then .ok t else .error .exists
  | result => result

/-- Makes the first of some paths, each of which lies in the next, and has the next made first when
its directory is missing. What is made remains when a later path cannot be. -/
def makeNested (t : FileTree) : List Path → FileTree × Except Fault Unit
  | [] => (t, .error .notFound)
  | p :: parents =>
    match t.ensureDirectory p with
    | .error .notFound =>
      match makeNested t parents with
      | (t, .ok ()) => t.settle (t.ensureDirectory p)
      | failed => failed
    | result => t.settle result

/-- The tree with a directory at the path and at all paths around it. -/
def makeDirectories (t : FileTree) (p : Path) : FileTree × Except Fault Unit :=
  if p.withParents.isEmpty then (t, .ok ()) else t.makeNested p.withParents

/-- The tree with a file moved onto a path, in place of any file there. -/
def rename (t : FileTree) (source target : Path) : Except Fault FileTree := do
  if [source, target].any fun p => p.text.toList.any (· = '\x00') then throw .invalid
  let here ← t.site source
  let there ← t.site target
  match here.name?, there.name? with
  | some old, some new =>
    let moved ← lookUp here.entries old
    let replaced ← lookUp there.entries new
    match moved, replaced with
    | none, _ => throw .notFound
    | some (.directory _), _ => throw .isDirectory
    | some (.file bytes), replaced =>
      if here.slashed || there.slashed then throw .notDirectory
      match replaced with
      | some (.directory _) => throw .isDirectory
      | _ => return (t.erase (here.target old)).put (there.target new) (.file bytes)
  | _, _ => throw .busy

/-- The tree without the file of a path. -/
def remove (t : FileTree) (p : Path) : FileTree :=
  match t.site p with
  | .ok ⟨directory, entries, some name, false⟩ =>
    match entries.lookup name with
    | some (.file _) => t.erase (directory ++ [name])
    | _ => t
  | _ => t

/-- The names in a directory, in order. -/
def list (t : FileTree) (p : Path) : List String :=
  match t.walk p.place p.names with
  | .ok trail =>
    match t.reached trail with
    | .directory entries => (entries.map (·.1)).mergeSort fun a b => a ≤ b
    | .file _ => []
  | .error _ => []

end FileTree

end RoadFlow.Storage
