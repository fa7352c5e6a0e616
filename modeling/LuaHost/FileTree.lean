import LuaHost.FileName
import LuaHost.Lookup
import LuaHost.Path

/-!
# A tree of files

Directories, files and symbolic links below one root, with a working directory from which
relative paths start. Looking a path up follows links; every operation says which failure of
the operating system it ends in. Entries are kept under their location, the list of names from
the root, so what an operation leaves alone is what stays under every other location. Names are
those of `FileName`, also in the targets of links.
-/

namespace LuaHost

/-- The names from the root down to an entry. -/
abbrev Location := List String

/-- What is stored at a location. -/
inductive Entry where
  | directory
  | file (content : ByteArray)
  | link (target : String)
  deriving DecidableEq

/-- A failure reported by the operating system or by the reading of a file. -/
inductive OsError where
  | notFound
  | alreadyExists
  | notDirectory
  | isDirectory
  | tooManyLinks
  | busy
  | notEmpty
  | invalidArgument
  | nulByte
  | notText
  | notRegular
  deriving DecidableEq

/-- The words of a failure. -/
def OsError.message : OsError → String
  | .notFound => "No such file or directory (os error 2)"
  | .alreadyExists => "File exists (os error 17)"
  | .notDirectory => "Not a directory (os error 20)"
  | .isDirectory => "Is a directory (os error 21)"
  | .busy => "Device or resource busy (os error 16)"
  | .tooManyLinks => "Too many levels of symbolic links (os error 40)"
  | .notEmpty => "Directory not empty (os error 39)"
  | .invalidArgument => "Invalid argument (os error 22)"
  | .nulByte => "file name contained an unexpected NUL byte"
  | .notText => "stream did not contain valid UTF-8"
  | .notRegular => "the source path is neither a regular file nor a symlink to a regular file"

/-- A file tree. The root is a directory and has no entry of its own. -/
structure FileTree where
  entries : List (Location × Entry)
  workingDirectory : Location

namespace FileTree

/-- A tree that holds the working directory and nothing else. -/
def empty (workingDirectory : Location) : FileTree :=
  ⟨(List.range workingDirectory.length).map fun n => (workingDirectory.take (n + 1), .directory),
    workingDirectory⟩

/-- What is stored at a location. -/
def get? (t : FileTree) (loc : Location) : Option Entry :=
  if loc.isEmpty then some .directory else t.entries.lookup loc

/-- Store an entry at a location, in place of the one there. -/
def put (t : FileTree) (loc : Location) (e : Entry) : FileTree :=
  { t with entries :=
      if (t.entries.lookup loc).isSome then
        t.entries.map fun x => if x.1 = loc then (x.1, e) else x
      else t.entries ++ [(loc, e)] }

/-- Forget the entry at a location. -/
def erase (t : FileTree) (loc : Location) : FileTree :=
  { t with entries := t.entries.filter (·.1 ≠ loc) }

/-- Storing an entry changes what is at its location and nothing else. -/
theorem get?_put (t : FileTree) {loc : Location} (h : loc ≠ []) (e : Entry) (l : Location) :
    (t.put loc e).get? l = if l = loc then some e else t.get? l := by
  by_cases hl : l = []
  · subst hl
    rw [if_neg (fun hloc => h hloc.symm)]
    rfl
  · have key : (t.put loc e).entries.lookup l = if l = loc then some e else t.entries.lookup l := by
      unfold put
      cases hf : t.entries.lookup loc with
      | none =>
        by_cases heq : l = loc
        · subst heq
          simp [lookup_concat, hf]
        · simp [lookup_concat, heq]
      | some old => simp [lookup_map_replace, hf]
    simp [get?, hl, key]

/-- Forgetting an entry changes what is at its location and nothing else. -/
theorem get?_erase (t : FileTree) {loc : Location} (h : loc ≠ []) (l : Location) :
    (t.erase loc).get? l = if l = loc then none else t.get? l := by
  by_cases hl : l = []
  · subst hl
    rw [if_neg (fun hloc => h hloc.symm)]
    rfl
  · have key := lookup_filter_ne loc l t.entries
    simp [get?, hl, erase, ← key]

/-- The names stored directly below a location. -/
def children (t : FileTree) (loc : Location) : List String :=
  t.entries.filterMap fun (l, _) => if l.dropLast = loc then l.getLast? else none

/-- Where a path leads. -/
inductive Place where
  /-- To an entry. -/
  | entry (loc : Location) (e : Entry)
  /-- To a free name in an existing directory. -/
  | vacant (parent : Location) (name : String)
  deriving DecidableEq

/-- The steps of a path; a slash at its end asks for a directory, as a dot does. -/
def steps (path : String) : List String :=
  Path.steps path ++ if Path.endsInSlash path then ["."] else []

/-- Walk along steps from a directory; `follow` goes on behind a link. A link in the last step
is followed only when `last` says so. -/
def walkWith (t : FileTree) (last : Bool)
    (follow : Location → List String → Except OsError Place) :
    Location → List String → Except OsError Place
  | dir, [] => .ok (.entry dir .directory)
  | dir, step :: rest =>
    if step = "." then walkWith t last follow dir rest
    else if step = ".." then walkWith t last follow dir.dropLast rest
    else
      let loc := dir ++ [step]
      match t.get? loc with
      | none => if rest.isEmpty then .ok (.vacant dir step) else .error .notFound
      | some .directory => walkWith t last follow loc rest
      | some (.file content) =>
        if rest.isEmpty then .ok (.entry loc (.file content)) else .error .notDirectory
      | some (.link target) =>
        if rest.isEmpty && !last then .ok (.entry loc (.link target))
        else follow (if Path.isAbsolute target then [] else dir) (steps target ++ rest)

/-- Walk along steps from a directory, through at most `links` links. -/
def walk (t : FileTree) (last : Bool) : Nat → Location → List String → Except OsError Place
  | 0 => walkWith t last fun _ _ => .error .tooManyLinks
  | links + 1 => walkWith t last (walk t last links)

/-- The greatest number of links on the way to an entry. -/
def maxLinks : Nat := 40

/-- Where a path leads, with a link at its end followed or not. -/
def resolve (t : FileTree) (path : String) (last : Bool) : Except OsError Place :=
  if path.toList.contains '\x00' then .error .nulByte
  else if path.isEmpty then .error .notFound
  else walk t last maxLinks (if Path.isAbsolute path then [] else t.workingDirectory) (steps path)

/-- Where a path leads when a link at its end is not followed and slashes behind it are left
aside. -/
def locate (t : FileTree) (path : String) : Except OsError Place :=
  t.resolve (Path.withoutSlashes path) false

/-- The entry that a path leads to behind all links. -/
def target? (t : FileTree) (path : String) : Option Entry :=
  match t.resolve path true with
  | .ok (.entry _ e) => some e
  | _ => none

/-- Whether a path leads to anything. -/
def exists? (t : FileTree) (path : String) : Bool := (t.target? path).isSome

/-- Whether a path leads to a file. -/
def isFile (t : FileTree) (path : String) : Bool :=
  match t.target? path with
  | some (.file _) => true
  | _ => false

/-- Whether a path leads to a directory. -/
def isDirectory (t : FileTree) (path : String) : Bool := t.target? path = some .directory

/-- Whether there is an entry under a path, be it a link that leads nowhere. -/
def hasEntry (t : FileTree) (path : String) : Bool :=
  match t.resolve path false with
  | .ok (.entry _ _) => true
  | _ => false

/-- The content of a file. -/
def read (t : FileTree) (path : String) : Except OsError ByteArray := do
  match ← t.resolve path true with
  | .entry _ (.file content) => .ok content
  | .entry _ _ => .error .isDirectory
  | .vacant _ _ => .error .notFound

/-- The names in a directory, in no particular order. -/
def list (t : FileTree) (path : String) : Except OsError (List String) := do
  match ← t.resolve path true with
  | .entry loc .directory => .ok (t.children loc)
  | .entry _ _ => .error .notDirectory
  | .vacant _ _ => .error .notFound

/-- A tree after an operation, and how the operation ended. -/
abbrev Result := FileTree × Except OsError Unit

/-- Make one directory. -/
def makeDirectory (t : FileTree) (path : String) : Result :=
  match t.resolve path false with
  | .ok (.vacant parent name) => (t.put (parent ++ [name]) .directory, .ok ())
  | .ok (.entry _ _) => (t, .error .alreadyExists)
  | .error e => (t, .error e)

/-- The path of some components, given last component first. -/
def pathOf (reversed : List Path.Component) : String :=
  let names := "/".intercalate (reversed.reverse.filterMap Path.Component.step?)
  if reversed.getLast? = some .root then "/" ++ names else names

/-- Make a directory and those above it, given the components of its path, last one first. A
directory that is there already is as good. -/
def makeDirectories (t : FileTree) : List Path.Component → Result
  | [] => (t, .ok ())
  | last :: above =>
    let path := pathOf (last :: above)
    match t.makeDirectory path with
    | (t, .ok ()) => (t, .ok ())
    | (t, .error .notFound) =>
      match makeDirectories t above with
      | (t, .error e) => (t, .error e)
      | (t, .ok ()) =>
        match t.makeDirectory path with
        | (t, .ok ()) => (t, .ok ())
        | (t, .error e) => if t.isDirectory path then (t, .ok ()) else (t, .error e)
    | (t, .error e) => if t.isDirectory path then (t, .ok ()) else (t, .error e)

/-- Make a directory and those above it. -/
def createDirectories (t : FileTree) (path : String) : Result :=
  t.makeDirectories (Path.components path).reverse

/-- Make a link under a path that is free. -/
def makeLink (t : FileTree) (target path : String) : Result :=
  if target.toList.contains '\x00' then (t, .error .nulByte)
  else match t.resolve path false with
    | .ok (.vacant parent name) => (t.put (parent ++ [name]) (.link target), .ok ())
    | .ok (.entry _ _) => (t, .error .alreadyExists)
    | .error e => (t, .error e)

/-- Remove a file or a link; a slash behind its path asks for a directory. -/
def remove (t : FileTree) (path : String) : Result :=
  match t.locate path with
  | .ok (.entry _ .directory) => (t, .error .isDirectory)
  | .ok (.entry loc _) =>
    if Path.endsInSlash path then (t, .error .notDirectory) else (t.erase loc, .ok ())
  | .ok (.vacant _ _) => (t, .error .notFound)
  | .error e => (t, .error e)

/-- Move everything at and below a location to another one. -/
def transfer (t : FileTree) (source target : Location) : FileTree :=
  let moved (l : Location) := if source.isPrefixOf l then target ++ l.drop source.length else l
  { t with entries := (t.entries.filter (·.1 ≠ target)).map fun (l, e) => (moved l, e) }

/-- Move an entry that is no directory to another location. -/
def relocate (t : FileTree) (source target : Location) (e : Entry) : FileTree :=
  (t.erase source).put target e

/-- A path that ends in a name, and not in dots or at the root. -/
def endsInName (path : String) : Bool :=
  match (Path.steps path).getLast? with
  | some step => step ≠ "." && step ≠ ".."
  | none => false

/-- Give a directory the name of a place that a path leads to, which may be that of an empty
directory. -/
def renameDirectory (t : FileTree) (loc : Location) : Place → Result
  | .vacant parent name =>
    if loc.isPrefixOf parent then (t, .error .invalidArgument)
    else (t.transfer loc (parent ++ [name]), .ok ())
  | .entry loc' .directory =>
    if loc = loc' then (t, .ok ())
    else if loc.isPrefixOf loc' then (t, .error .invalidArgument)
    else if (t.children loc').isEmpty then (t.transfer loc loc', .ok ())
    else (t, .error .notEmpty)
  | .entry _ _ => (t, .error .notDirectory)

/-- Give a file or a link the name of a place that a path leads to, which may be that of another
file or link. -/
def renameFile (t : FileTree) (loc : Location) (e : Entry) : Place → Result
  | .vacant parent name => (t.relocate loc (parent ++ [name]) e, .ok ())
  | .entry _ .directory => (t, .error .isDirectory)
  | .entry loc' _ => if loc = loc' then (t, .ok ()) else (t.relocate loc loc' e, .ok ())

/-- Give an entry another name. A slash behind one of the paths asks for a directory. -/
def rename (t : FileTree) (source target : String) : Result :=
  if !endsInName source || !endsInName target then (t, .error .busy)
  else
    match t.locate source, t.locate target with
    | .error e, _ => (t, .error e)
    | .ok (.vacant _ _), _ => (t, .error .notFound)
    | .ok (.entry _ _), .error e => (t, .error e)
    | .ok (.entry loc .directory), .ok place => t.renameDirectory loc place
    | .ok (.entry loc e), .ok place =>
      if Path.endsInSlash source || Path.endsInSlash target then (t, .error .notDirectory)
      else t.renameFile loc e place

/-- Where a file is written under a path; a slash behind the path asks for a directory. -/
def writable (t : FileTree) (path : String) : Except OsError Place :=
  if Path.endsInSlash path then
    match t.locate path with
    | .ok _ => .error .isDirectory
    | .error e => .error e
  else t.resolve path true

/-- Write a file in the place that a path leads to. -/
def write (t : FileTree) (path : String) (content : ByteArray) : Result :=
  match t.writable path with
  | .ok (.vacant parent name) => (t.put (parent ++ [name]) (.file content), .ok ())
  | .ok (.entry _ .directory) => (t, .error .isDirectory)
  | .ok (.entry loc _) => (t.put loc (.file content), .ok ())
  | .error e => (t, .error e)

/-- Copy the content of a file. -/
def copy (t : FileTree) (source target : String) : Result :=
  match t.resolve source true with
  | .error e => (t, .error e)
  | .ok (.vacant _ _) => (t, .error .notFound)
  | .ok (.entry _ (.file content)) => t.write target content
  | .ok (.entry _ _) => (t, .error .notRegular)

/-- Move a file, by copying it where giving it the other name fails. -/
def move (t : FileTree) (source target : String) : Result :=
  match t.rename source target with
  | (t, .ok ()) => (t, .ok ())
  | (t, .error _) =>
    match t.copy source target with
    | (t, .ok ()) => t.remove source
    | (t, .error e) => (t, .error e)

/-- Put a text into a sorted list of texts. -/
def insertName (s : String) : List String → List String
  | [] => [s]
  | u :: us => if s ≤ u then s :: u :: us else u :: insertName s us

/-- Sort texts by their characters. -/
def sortNames (names : List String) : List String := names.foldr insertName []

/-- The order in which a tree is shown: siblings by name, each directory before its content. -/
def shownBefore : Location → Location → Bool
  | [], _ => true
  | _ :: _, [] => false
  | a :: as, b :: bs => if a = b then shownBefore as bs else a < b

/-- Put an entry into a list of entries in the order shown. -/
def insertShown (x : Location × Entry) : List (Location × Entry) → List (Location × Entry)
  | [] => [x]
  | y :: ys => if shownBefore x.1 y.1 then x :: y :: ys else y :: insertShown x ys

/-- Everything below the working directory, under its location from there. -/
def shown (t : FileTree) : List (Location × Entry) :=
  let below := t.entries.filterMap fun (l, e) =>
    if t.workingDirectory.isPrefixOf l && l ≠ t.workingDirectory
    then some (l.drop t.workingDirectory.length, e) else none
  below.foldr insertShown []

end FileTree

end LuaHost
