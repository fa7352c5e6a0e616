import LuaHost.Text.Blank
import LuaHost.Text.Pieces

/-!
# Deferred requests

Scripts and the host ask for files to be installed, removed or linked for autoload. Requests
of one kind are collected in one comma-separated list until they are run together as a batch.
Reading a list is the same as reading its requests one by one: names are concatenated and a
flag given anywhere holds for the whole batch.
-/

namespace LuaHost

/-- What a deferred request asks for. -/
inductive RequestKind where
  | install
  | remove
  | autoload
  deriving DecidableEq

/-- All kinds of requests. -/
def RequestKind.all : List RequestKind := [.install, .remove, .autoload]

/-- A request list that has been read. -/
@[ext] structure Batch where
  quiet : Bool
  autoload : Bool
  names : List String
  deriving DecidableEq

namespace Batch

/-- The batch that asks for nothing. -/
def empty : Batch := ⟨false, false, []⟩

/-- Both batches together. -/
def append (a b : Batch) : Batch :=
  ⟨a.quiet || b.quiet, a.autoload || b.autoload, a.names ++ b.names⟩

instance : Append Batch where append := append

/-- The batch that only sets the flag a letter stands for; other letters set nothing. -/
def ofFlag (c : Char) : Batch := ⟨c == 'q', c == 'a', []⟩

/-- The batch that only names one file; a name is trimmed, and an empty one is dropped. -/
def ofName (s : List Char) : Batch :=
  let name := Text.trimEnd s
  if name.isEmpty then empty else ⟨false, false, [String.ofList name]⟩

/-- Read one entry of a request list. Blanks may precede each flag and the name; a flag is a
dash and the one character after it. `flag` tells that a dash was just read. -/
def readEntry : (flag : Bool) → List Char → Batch
  | _, [] => empty
  | true, c :: cs => ofFlag c ++ readEntry false cs
  | false, c :: cs =>
    if Text.isBlank c then readEntry false cs
    else if c = '-' then readEntry true cs
    else ofName (c :: cs)

/-- Read a request list, entry by entry. -/
def ofChars (s : List Char) : Batch :=
  (Text.pieces (· == ',') s).foldr (fun entry batch => readEntry false entry ++ batch) empty

/-- Read a request list. -/
def ofText (list : String) : Batch := ofChars list.toList

end Batch

/-- What the engine notes down about deferred requests. -/
inductive Note where
  /-- A request arrived. -/
  | asked (kind : RequestKind) (item : String)
  /-- A batch was taken up. -/
  | ran (kind : RequestKind) (batch : Batch)
  deriving DecidableEq

/-- The request lists that are waiting, one of each kind. -/
structure RequestQueue where
  install : String
  remove : String
  autoload : String
  deriving DecidableEq

namespace RequestQueue

/-- Nothing is waiting. -/
def empty : RequestQueue := ⟨"", "", ""⟩

/-- The waiting list of one kind. -/
def pending (q : RequestQueue) : RequestKind → String
  | .install => q.install
  | .remove => q.remove
  | .autoload => q.autoload

/-- Replace the waiting list of one kind. -/
def setPending (q : RequestQueue) (kind : RequestKind) (list : String) : RequestQueue :=
  match kind with
  | .install => { q with install := list }
  | .remove => { q with remove := list }
  | .autoload => { q with autoload := list }

/-- Append a request to a list; a comma separates it from what is there. -/
def appendRequest (list item : String) : String :=
  if list.isEmpty then item else list ++ "," ++ item

/-- Append a request to the waiting list of its kind. -/
def add (q : RequestQueue) (kind : RequestKind) (item : String) : RequestQueue :=
  q.setPending kind (appendRequest (q.pending kind) item)

/-- Take the waiting list of one kind, leaving it empty. -/
def take (q : RequestQueue) (kind : RequestKind) : String × RequestQueue :=
  (q.pending kind, q.setPending kind "")

/-- Setting one list leaves the others as they were. -/
@[simp] theorem pending_setPending (q : RequestQueue) (kind k : RequestKind) (list : String) :
    (q.setPending kind list).pending k = if k = kind then list else q.pending k := by
  cases kind <;> cases k <;> simp [setPending, pending]

/-- A request is appended to the list of its kind. -/
@[simp] theorem pending_add (q : RequestQueue) (kind k : RequestKind) (item : String) :
    (q.add kind item).pending k =
      if k = kind then appendRequest (q.pending kind) item else q.pending k := by
  simp [add]

/-- Taking a list empties it and leaves the others as they were. -/
@[simp] theorem pending_take (q : RequestQueue) (kind k : RequestKind) :
    (q.take kind).2.pending k = if k = kind then "" else q.pending k := by
  simp [take]

end RequestQueue

end LuaHost
