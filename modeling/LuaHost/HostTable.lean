import LuaHost.Handle
import LuaHost.Lookup

/-!
# Tables exchanged with the host

A host table maps texts to cells. Its entries are kept in strictly increasing order of their
keys, so two tables are equal exactly when they hold the same cells under the same keys.
-/

namespace LuaHost

/-- What the keys or the cells of a host table hold. -/
inductive ItemKind where
  | text
  | handle
  deriving DecidableEq

/-- One value of a host table; `null` stands for a value that could not be taken over. -/
inductive Cell where
  | text (s : String)
  | handle (h : Handle)
  | null
  deriving DecidableEq

/-- A table of the host. -/
structure HostTable where
  keyKind : ItemKind
  cellKind : ItemKind
  entries : List (String × Cell)
  deriving DecidableEq

namespace HostTable

/-- A table without entries. -/
def empty (keyKind cellKind : ItemKind) : HostTable := ⟨keyKind, cellKind, []⟩

/-- Put a cell into entries ordered by key, in place of one with the same key. -/
def insert (key : String) (cell : Cell) : List (String × Cell) → List (String × Cell)
  | [] => [(key, cell)]
  | (k, c) :: rest =>
    if key = k then (key, cell) :: rest
    else if key < k then (key, cell) :: (k, c) :: rest
    else (k, c) :: insert key cell rest

/-- Set the cell under a key. -/
def set (t : HostTable) (key : String) (cell : Cell) : HostTable :=
  { t with entries := insert key cell t.entries }

/-- The cell under a key. -/
def get? (t : HostTable) (key : String) : Option Cell := t.entries.lookup key

/-- The text under a key, if the cell there is one. -/
def getText? (t : HostTable) (key : String) : Option String :=
  match t.get? key with
  | some (.text s) => some s
  | _ => none

/-- Number of entries. -/
def size (t : HostTable) : Nat := t.entries.length

/-- A table of texts, filled from pairs in order. -/
def ofPairs (pairs : List (String × String)) : HostTable :=
  pairs.foldl (fun t (k, v) => t.set k (.text v)) (empty .text .text)

/-- The keys stand in strictly increasing order. -/
def Ordered (entries : List (String × Cell)) : Prop :=
  entries.Pairwise fun a b => a.1 < b.1

/-- Looking up an entry that was put in finds the new cell, and every other key finds what it found
before. -/
theorem lookup_insert (key k : String) (cell : Cell) (entries : List (String × Cell)) :
    (insert key cell entries).lookup k =
      if k = key then some cell else entries.lookup k := by
  induction entries with
  | nil => simp [insert, lookup_cons_eq_ite]
  | cons e rest ih =>
    obtain ⟨k', c⟩ := e
    simp only [insert]
    split
    · rename_i heq
      subst heq
      by_cases h : k = key <;> simp [lookup_cons_eq_ite, h]
    · split
      · by_cases h : k = key <;> simp [lookup_cons_eq_ite, h]
      · rename_i hne _
        simp only [lookup_cons_eq_ite, ih]
        by_cases h : k = key
        · subst h; simp [hne]
        · simp [h]

/-- Setting a cell changes what is under its key and nothing else. -/
@[simp] theorem get?_set (t : HostTable) (key k : String) (cell : Cell) :
    (t.set key cell).get? k = if k = key then some cell else t.get? k :=
  lookup_insert ..

end HostTable

end LuaHost
