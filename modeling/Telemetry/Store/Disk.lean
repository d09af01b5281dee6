import Telemetry.Octets
import Telemetry.Store.Tables
import Telemetry.Text.Split

/-!
# The disk

A tree of directories and files, of which some files hold a database. Places in the
tree are lists of names from the root on; a path is a text that leads to a place,
from the root or from the directory that the program runs in.

Each operation either is carried out as a whole or refuses with a `DiskFault` and
changes nothing; only `Disk.makeDirectories` keeps the directories that it made before
it was refused one. The store of snapshots is built on `Disk.write` and `Disk.rename`:
renaming a file puts its contents in the place of another one in one step.

* `Disk.resolve`: the place that a path leads to;
* `Disk.read`, `readText`, `write`, `rename`, `remove`, `makeDirectory`,
  `makeDirectories`;
* `parentPath`: the path of the directory that a path lies in.
-/

namespace Telemetry

/-! ### Faults -/

/-- Why the disk refuses. -/
inductive DiskFault where
  /-- There is nothing there. -/
  | notFound
  /-- There is something there already. -/
  | exists
  /-- A file where a directory is needed. -/
  | notDirectory
  /-- A directory where a file is needed. -/
  | isDirectory
  /-- A place that is in use. -/
  | busy
  /-- A name is too long. -/
  | nameTooLong
  /-- A path with a null character in it. -/
  | nullCharacter
  /-- The file is no text. -/
  | notText
deriving DecidableEq, Repr

/-- The wording of a fault. -/
def DiskFault.message : DiskFault → String
  | .notFound => "No such file or directory (os error 2)"
  | .exists => "File exists (os error 17)"
  | .notDirectory => "Not a directory (os error 20)"
  | .isDirectory => "Is a directory (os error 21)"
  | .busy => "Device or resource busy (os error 16)"
  | .nameTooLong => "File name too long (os error 36)"
  | .nullCharacter => "file name contained an unexpected NUL byte"
  | .notText => "stream did not contain valid UTF-8"

/-! ### Places and paths -/

/-- A place in the tree: names from the root on. -/
abbrev Place : Type := List String

/-- What stands at a place. -/
inductive Node where
  /-- A directory. -/
  | directory
  /-- A file. -/
  | file (content : Octets)
  /-- A file that holds a database. -/
  | database (db : Database)
deriving DecidableEq

/-- The names in a path. -/
def pathNames (path : String) : List String :=
  ((cutAt (· == '/') path.toList).filter fun part => !part.isEmpty).map String.ofList

/-- Text without the slashes, and the names `.`, at its end. Text is held from its end
on, and the slash of the root stays. -/
def dropTrailing : List Char → List Char
  | ['/'] => ['/']
  | '/' :: cs => dropTrailing cs
  | '.' :: '/' :: cs => dropTrailing ('/' :: cs)
  | cs => cs

/-- The path of the directory that a path lies in; that of a name alone is empty. The
root and the empty path lie in none. -/
def parentPath (path : String) : Option String :=
  match dropTrailing path.toList.reverse with
  | [] | ['/'] => none
  | cs => some (String.ofList (dropTrailing (cs.dropWhile (· != '/'))).reverse)

/-! ### The tree -/

/-- A disk, and where on it the program runs. -/
structure Disk where
  /-- What stands where. The root is a directory. -/
  nodes : List (Place × Node)
  /-- The directory that the program runs in. -/
  home : Place
deriving DecidableEq

namespace Disk

/-- What stands at a place. -/
def at? (d : Disk) (p : Place) : Option Node :=
  if p = [] then some .directory else d.nodes.lookup p

/-- The disk with a node set at a place. -/
def set (d : Disk) (p : Place) (n : Node) : Disk :=
  { d with nodes := (p, n) :: d.nodes.filter (·.1 != p) }

/-- The disk without what stands at a place. -/
def clear (d : Disk) (p : Place) : Disk := { d with nodes := d.nodes.filter (·.1 != p) }

/-- An empty disk but for a directory to run in. -/
def blank (home : Place) : Disk :=
  (List.range home.length).foldl (fun d n => d.set (home.take (n + 1)) .directory) ⟨[], home⟩

/-- A place in a directory. -/
def enter (d : Disk) (p : Place) (name : String) : Except DiskFault Place :=
  match d.at? p with
  | none => .error .notFound
  | some .directory =>
    if name = "." then .ok p
    else if name = ".." then .ok p.dropLast
    else if 255 < name.utf8ByteSize then .error .nameTooLong
    else .ok (p ++ [name])
  | some _ => .error .notDirectory

/-- The place that a path leads to, whether or not anything stands there. All of the
directories on the way have to be there. -/
def resolve (d : Disk) (path : String) : Except DiskFault Place :=
  if path.toList.contains '\x00' then .error .nullCharacter
  else if path.isEmpty then .error .notFound
  else if 4096 ≤ path.utf8ByteSize then .error .nameTooLong
  else (pathNames path).foldlM d.enter (if path.toList.head? = some '/' then [] else d.home)

/-- A path that names its end only by where it is from somewhere else. -/
def endsInPoints (path : String) : Bool :=
  match (pathNames path).getLast? with
  | some name => name == "." || name == ".."
  | none => true

/-- A path that can only be that of a directory. -/
def asksDirectory (path : String) : Bool := path.toList.getLast? == some '/'

/-! ### Files -/

/-- The octets that a database shows to whoever reads it as a file. -/
def databaseHead : Octets := octetsOf "SQLite format 3" ++ [0]

/-- The contents of a file. -/
def read (d : Disk) (path : String) : Except DiskFault Octets := do
  match d.at? (← d.resolve path) with
  | none => .error .notFound
  | some .directory => .error .isDirectory
  | some (.file content) => if asksDirectory path then .error .notDirectory else .ok content
  | some (.database _) => if asksDirectory path then .error .notDirectory else .ok databaseHead

/-- The text in a file. -/
def readText (d : Disk) (path : String) : Except DiskFault String := do
  match textOf? (← d.read path) with
  | some text => .ok text
  | none => .error .notText

/-- The disk with a file written. -/
def write (d : Disk) (path : String) (content : Octets) : Except DiskFault Disk := do
  let p ← d.resolve path
  match d.at? p with
  | some .directory => .error .isDirectory
  | some _ => if asksDirectory path then .error .notDirectory else .ok (d.set p (.file content))
  | none => if asksDirectory path then .error .isDirectory else .ok (d.set p (.file content))

/-- The disk with a file in the place of another one, or of nothing. Directories are not
renamed. -/
def rename (d : Disk) (source target : String) : Except DiskFault Disk := do
  let p ← d.resolve source
  let q ← d.resolve target
  if endsInPoints source || endsInPoints target then .error .busy
  else match d.at? p with
    | none => .error .notFound
    | some .directory => .error .isDirectory
    | some node =>
      if asksDirectory source || asksDirectory target then .error .notDirectory
      else match d.at? q with
        | some .directory => .error .isDirectory
        | _ => .ok ((d.clear p).set q node)

/-- The disk without a file. -/
def remove (d : Disk) (path : String) : Except DiskFault Disk := do
  let p ← d.resolve path
  match d.at? p with
  | none => .error .notFound
  | some .directory => .error .isDirectory
  | some _ => if asksDirectory path then .error .notDirectory else .ok (d.clear p)

/-- Does anything stand there? -/
def holds (d : Disk) (path : String) : Bool :=
  match d.resolve path with
  | .ok p =>
    match d.at? p with
    | none => false
    | some .directory => true
    | some _ => !asksDirectory path
  | .error _ => false

/-! ### Directories -/

/-- The disk with a directory made. -/
def makeDirectory (d : Disk) (path : String) : Except DiskFault Disk := do
  let p ← d.resolve path
  match d.at? p with
  | some _ => .error .exists
  | none => .ok (d.set p .directory)

/-- Directories made on the way along some names from a place, as far as they are
missing. One that only the name `.` follows is asked for as being there, so it is not
made; and a file in the way of the last one counts as being there. -/
def makeAll (p : Place) : List String → Disk → Except DiskFault Unit × Disk
  | [], d => (.ok (), d)
  | name :: names, d =>
    match d.enter p name with
    | .error e => (.error e, d)
    | .ok q =>
      match d.at? q with
      | none =>
        if !names.isEmpty && names.all (· == ".") then (.error .notFound, d)
        else makeAll q names (d.set q .directory)
      | some .directory => makeAll q names d
      | some _ => (.error (if names.isEmpty then .exists else .notDirectory), d)

/-- A directory made, and all those on the way to it. Those made before one is refused
stay. -/
def makeDirectories (d : Disk) (path : String) : Except DiskFault Unit × Disk :=
  if path.toList.contains '\x00' then (.error .nullCharacter, d)
  else if 4096 ≤ path.utf8ByteSize then (.error .nameTooLong, d)
  else makeAll (if path.toList.head? = some '/' then [] else d.home) (pathNames path) d

/-! ### Laws -/

/-- A place holds what was set there. -/
theorem at?_set_self {d : Disk} {p : Place} {n : Node} (h : p ≠ []) :
    (d.set p n).at? p = some n := by
  simp [at?, set, h]

/-- Setting a place leaves every other one as it is. -/
theorem at?_set_ne {d : Disk} {p q : Place} {n : Node} (h : q ≠ p) :
    (d.set p n).at? q = d.at? q := by
  have hqp : (q == p) = false := beq_eq_false_iff_ne.2 h
  unfold at? set
  split
  · rfl
  · simp only [List.lookup_cons, hqp]
    induction d.nodes with
    | nil => rfl
    | cons x xs ih =>
      obtain ⟨r, m⟩ := x
      by_cases hr : r = p
      · subst hr
        simpa [List.lookup_cons, hqp] using ih
      · have : ((r, m).1 != p) = true := by simpa using hr
        rw [List.filter_cons, if_pos this, List.lookup_cons, List.lookup_cons]
        split
        · rfl
        · exact ih

end Disk

end Telemetry
