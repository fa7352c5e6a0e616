import LuaHost.Console
import LuaHost.Proofs.Blank
import LuaHost.Proofs.Engine.Reachable
import LuaHost.Proofs.Text

/-!
# Typed lines

A typed line that does not start with a space is either a command or code: its first word tells.
Code is evaluated once, and what it prints is shown. A line that starts with a space is passed
over, whatever follows.
-/

namespace LuaHost

namespace Command

/-- The words that commands start with. -/
def words : List (List Char) :=
  ["/signal", "/load", "/unload", "/reload", "/list", "/listfull", "/version"].map String.toList

/-- The first word of a line. -/
def firstWord (line : List Char) : List Char := line.takeWhile (!· == ' ')

private theorem ofWords_of_notMem {line word rest : List Char} (nonempty : word ≠ [])
    (other : word ∉ words) : ofWords line word rest = .evaluate (String.ofList line) := by
  have typed : ¬word.isEmpty = true := fun e => nonempty (List.isEmpty_iff.mp e)
  simp only [words, List.map_cons, List.map_nil, List.mem_cons, List.not_mem_nil, or_false,
    not_or] at other
  obtain ⟨signal, load, unload, reload, list, listfull, version⟩ := other
  simp only [ofWords, if_neg typed, if_neg signal, if_neg load, if_neg unload, if_neg reload,
    if_neg list, if_neg listfull, if_neg version]

/-- Commands start with a slash. -/
theorem head_of_mem_words {word : List Char} (h : word ∈ words) : word.head? = some '/' := by
  revert word
  decide

private theorem ofLine_eq (text : String) :
    ofLine text = ofWords (Text.trimEnd text.toList) (firstWord (Text.trimEnd text.toList))
      (Text.trim (Text.cut (· == ' ') (Text.trimEnd text.toList)).2) := by
  rw [firstWord, ← Text.cut_fst]
  rfl

/-- A line that starts with a space asks for nothing. -/
theorem ofLine_of_space {text : String} (space : text.toList.head? = some ' ') :
    ofLine text = .nothing := by
  have word : firstWord (Text.trimEnd text.toList) = [] := by
    by_cases gone : Text.trimEnd text.toList = []
    · rw [gone]
      rfl
    · obtain ⟨c, cs, line⟩ := List.exists_cons_of_ne_nil gone
      have head := Text.head?_trimEnd gone
      rw [space, line] at head
      obtain rfl := Option.some.inj head
      rw [line]
      rfl
  rw [ofLine_eq, word]
  rfl

/-- A line that starts with anything else is code, unless it starts with the word of a command. -/
theorem ofLine_of_code {text : String} (typed : ∃ c ∈ text.toList, Text.isBlank c = false)
    (code : firstWord (Text.trim text.toList) ∉ words) (space : text.toList.head? ≠ some ' ') :
    ofLine text = .evaluate (String.ofList (Text.trimEnd text.toList)) := by
  have kept : Text.trimEnd text.toList ≠ [] := by
    intro gone
    obtain ⟨c, hc, letter⟩ := typed
    exact Bool.false_ne_true (letter.symm.trans (Text.trimEnd_eq_nil_iff.mp gone c hc))
  obtain ⟨c, cs, line⟩ := List.exists_cons_of_ne_nil kept
  have head : text.toList.head? = some c := by
    rw [← Text.head?_trimEnd kept, line]
    rfl
  have word : firstWord (c :: cs) = c :: firstWord cs := by
    refine List.takeWhile_cons_of_pos ?_
    have other : c ≠ ' ' := fun same => space (same ▸ head)
    simpa using other
  rw [ofLine_eq, ofWords_of_notMem]
  · rw [line, word]
    exact List.cons_ne_nil _ _
  · cases blank : Text.isBlank c with
    | true =>
      -- The first word starts with this blank, and no command does.
      intro mem
      have slash := head_of_mem_words mem
      rw [line, word] at slash
      obtain rfl := Option.some.inj slash
      exact absurd blank (by decide)
    | false =>
      have whole : Text.trimStart text.toList = text.toList :=
        Text.trimStart_of_head fun d hd => Option.some.inj (head.symm.trans hd) ▸ blank
      rwa [Text.trim, whole] at code

end Command

namespace Console

/-- What a console prints when code is evaluated: what the host is told, and the output of the code
if there is any. -/
def shown (c : Console) (code : String) : List String :=
  let (engine, text) := c.engine.evaluateToText code
  engine.takeEvents.1.toList.filterMap Event.line? ++ (text.filter (· ≠ "")).toList

/-- A console in which code is evaluated once, and what comes of it is printed. -/
structure Evaluated (c : Console) (code : String) (after : Console) : Prop where
  engine : after.engine = (c.engine.perform (.evaluateToText code)).takeEvents.2
  output : after.output = c.output ++ String.join ((c.shown code).map (· ++ "\n"))
  errors : after.errors = c.errors
  isOpen : after.isOpen = c.isOpen

/-- Lines are printed one after the other, and nothing else happens. -/
theorem foldl_print (lines : List String) (c : Console) :
    lines.foldl print c = { c with output := c.output ++ String.join (lines.map (· ++ "\n")) } := by
  induction lines generalizing c with
  | nil => simp
  | cons line lines ih => simp [ih, print, String.append_assoc]

/-- Code is evaluated, and the lines that come of it are printed. -/
theorem perform_evaluate (c : Console) (code : String) :
    c.perform (.evaluate code) =
      (c.shown code).foldl print
        { c with engine := (c.engine.perform (.evaluateToText code)).takeEvents.2 } := by
  rcases result : c.engine.evaluateToText code with ⟨engine, text⟩
  rw [perform, shown, Engine.perform, result, List.foldl_append]
  cases text with
  | none => rfl
  | some text =>
    by_cases empty : text = ""
    · subst empty
      rfl
    · have said : ¬text.isEmpty = true := fun e => empty (String.isEmpty_iff.mp e)
      rw [Option.filter_some_pos (by simpa using empty)]
      simp only [if_neg said]
      rfl

private theorem evaluated_perform (c : Console) (code : String) :
    Evaluated c code (c.perform (.evaluate code)) := by
  rw [perform_evaluate, foldl_print]
  exact ⟨rfl, rfl, rfl, rfl⟩

/-- The code of a command line is typed line by line when the console starts. -/
theorem start_eq_foldl (env : Environment) (files : FileTree) (budget : Nat) (line : CommandLine) :
    start env files budget line =
      line.eval.foldl handleLine (start env files budget { line with eval := [] }) := rfl

/-- A line that is neither blank nor a command is passed over if it starts with a space.
Otherwise it is evaluated once, without the blanks at its end, and what it prints is shown. So it
is with a line of the input, and with every code of the command line in its turn. -/
theorem typed_code_evaluated {line : String} (typed : ∃ c ∈ line.toList, Text.isBlank c = false)
    (code : Command.firstWord (Text.trim line.toList) ∉ Command.words) (c : Console) :
    (line.toList.head? = some ' ' → c.handleLine line = c) ∧
    (line.toList.head? ≠ some ' ' →
      Evaluated c (String.ofList (Text.trimEnd line.toList)) (c.handleLine line)) ∧
    (∀ raw, c.isOpen = true → Text.decode? raw = .ok line → c.readLine raw = c.handleLine line) ∧
    ∀ (env : Environment) (files : FileTree) (budget : Nat) (arguments : CommandLine)
      (before after : List String), arguments.eval = before ++ line :: after →
      start env files budget arguments =
        after.foldl handleLine
          ((start env files budget { arguments with eval := before }).handleLine line) := by
  refine ⟨fun space => ?_, fun other => ?_, fun raw open_ text => ?_, ?_⟩
  · rw [handleLine, Command.ofLine_of_space space]
    rfl
  · rw [handleLine, Command.ofLine_of_code typed code other]
    exact evaluated_perform c _
  · simp only [readLine, open_, text]
    rfl
  · intro env files budget arguments before after turn
    rw [start_eq_foldl, turn, List.foldl_append, List.foldl_cons]
    rfl

/-- A console on which nothing was typed yet. -/
def fresh : Console := ⟨.bare, "", "", true⟩

/-- Code behind a tab, with blanks in it and at its end. -/
def indented : String := "\tprint('a b') \r\n"

/-- The case of code behind a tab, which is trimmed at its end only. -/
theorem typed_code_evaluated_indented :
    (∃ c ∈ indented.toList, Text.isBlank c = false) ∧
      Command.firstWord (Text.trim indented.toList) ∉ Command.words ∧
      Evaluated fresh "\tprint('a b')" (fresh.readLine (Text.encode indented)) := by
  have typed : ∃ c ∈ indented.toList, Text.isBlank c = false := ⟨'p', by decide, by decide⟩
  have code : Command.firstWord (Text.trim indented.toList) ∉ Command.words := by decide
  obtain ⟨-, evaluated, input, -⟩ := typed_code_evaluated typed code fresh
  refine ⟨typed, code, ?_⟩
  rw [input _ rfl (Text.decode?_encode _)]
  exact evaluated (by decide)

set_option maxRecDepth 100000 in
/-- Code behind a space is not evaluated, and nothing is shown. -/
theorem typed_code_ignored :
    (∃ c ∈ " print(1)".toList, Text.isBlank c = false) ∧
      Command.firstWord (Text.trim " print(1)".toList) ∉ Command.words ∧
      fresh.handleLine " print(1)" = fresh ∧
      fresh.shown "print(1)" = ["1"] ∧ fresh.shown " print(1)" = ["1"] ∧
      ∀ code ∈ ["print(1)", " print(1)"],
        ¬Evaluated fresh code (fresh.handleLine " print(1)") := by
  have first : fresh.shown "print(1)" = ["1"] := by decide +kernel
  have second : fresh.shown " print(1)" = ["1"] := by decide +kernel
  refine ⟨⟨'p', by decide, by decide⟩, by decide, rfl, first, second, ?_⟩
  intro code mem evaluated
  have same : fresh.shown code = ["1"] := by
    rcases List.mem_pair.mp mem with rfl | rfl
    · exact first
    · exact second
  have output := evaluated.output
  rw [same] at output
  exact absurd output (by decide)

end Console

end LuaHost
