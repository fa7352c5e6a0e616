/-!
# Cutting a text at separators

`pieces` cuts at every separator and loses nothing but the separators themselves;
`cut?` cuts at the first one. Lines come in two kinds: `splitLines` keeps an unfinished last
line apart, `lines` treats a line feed (with a carriage return before it) as the end of a line.
-/

namespace LuaHost.Text

/-- The pieces between the characters that `stop` picks: always one more than there are stops. -/
def pieces (stop : Char → Bool) : List Char → List (List Char)
  | [] => [[]]
  | c :: cs =>
    if stop c then [] :: pieces stop cs
    else match pieces stop cs with
      | [] => [[c]]
      | p :: ps => (c :: p) :: ps

/-- The two sides of the first character that `stop` picks. -/
def cut? (stop : Char → Bool) : List Char → Option (List Char × List Char)
  | [] => none
  | c :: cs =>
    if stop c then some ([], cs)
    else (cut? stop cs).map fun (before, after) => (c :: before, after)

/-- The two sides of the first character that `stop` picks, or the whole text and nothing. -/
def cut (stop : Char → Bool) (s : List Char) : List Char × List Char :=
  (cut? stop s).getD (s, [])

/-- The finished lines of a text and what follows its last line feed. -/
def splitLines (s : List Char) : List (List Char) × List Char :=
  let all := pieces (· == '\n') s
  (all.dropLast, all.getLast?.getD [])

/-- Drop one carriage return at the end of a line. -/
def dropReturn (line : List Char) : List Char :=
  if line.getLast? = some '\r' then line.dropLast else line

/-- The lines of a text: an empty last line is not counted, and a carriage return before a
line feed belongs to the line end. -/
def lines (s : List Char) : List (List Char) :=
  let (whole, rest) := splitLines s
  whole.map dropReturn ++ (if rest.isEmpty then [] else [rest])

/-- There is always a piece. -/
theorem pieces_ne_nil (stop : Char → Bool) (s : List Char) : pieces stop s ≠ [] := by
  cases s with
  | nil => simp [pieces]
  | cons c cs =>
    simp only [pieces]
    split
    · simp
    · split <;> simp

/-- No piece holds a separator. -/
theorem not_stop_of_mem_pieces {stop : Char → Bool} {s p : List Char} (hp : p ∈ pieces stop s) :
    ∀ c ∈ p, stop c = false := by
  induction s generalizing p with
  | nil => simp_all [pieces]
  | cons c cs ih =>
    simp only [pieces] at hp
    split at hp
    · rcases List.mem_cons.mp hp with rfl | h
      · simp
      · exact ih h
    · rename_i hc
      split at hp
      · simp_all
      · rename_i q qs heq
        rcases List.mem_cons.mp hp with rfl | h
        · intro d hd
          rcases List.mem_cons.mp hd with rfl | hd
          · simpa using hc
          · exact ih (by rw [heq]; exact List.mem_cons_self ..) d hd
        · exact ih (by rw [heq]; exact List.mem_cons_of_mem _ h)

end LuaHost.Text
