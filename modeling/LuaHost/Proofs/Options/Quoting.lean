import LuaHost.Proofs.Options.Assignment

/-!
# Values between quotes

Any value can be given to an option when it is written between quotes, whatever characters it has.
-/

namespace LuaHost

namespace Options

variable {name : List Char}

/-- A line gives an option any value that stands between quotes. -/
theorem assigns_quoted (hn : PlainName name) (value : List Char) :
    Assigns (blankForm name (Words.quote value)) name value := by
  have last : (Words.quote value).getLast? = some '"' := by
    rw [Words.quote_eq, ← List.cons_append, List.getLast?_concat]
  have nonempty : Words.quote value ≠ [] := List.cons_ne_nil _ _
  refine ⟨_, ofChars_form hn nonempty (fun d hd => ?_) ' ', ?_⟩
  · obtain rfl := Option.some.inj (last.symm.trans hd)
    decide
  · have bare := Words.spells_bare hn.ne_nil hn.no_quote hn.no_break
    rw [bare.ofChars_append, (Words.spells_quote value).ofChars, assignment_of_words hn,
      List.intercalate_singleton]

/-- A file of one line. -/
theorem ofText_line (env : Environment) {line : List Char} (nonempty : line ≠ [])
    (feed : '\n' ∉ line) :
    ofText env (String.ofList line) = obey env (default env, []) (line, 1) := by
  rw [ofText, String.toList_ofList, Text.lines_of_not_mem feed,
    if_neg (fun e => nonempty (List.isEmpty_iff.mp e))]
  rfl

/-- Words between quotes, one blank apart, are read as they are, empty ones too. So a home directory
between quotes is taken as it is, whatever characters its name has. -/
theorem quoted_words_kept :
    (∀ words : List (List Char),
      Words.ofChars ([' '].intercalate (words.map Words.quote)) = words) ∧
    ∀ (env : Environment) (value : String), value ≠ "" → '\n' ∉ value.toList →
      ofText env (String.ofList ("/set home ".toList ++ Words.quote value.toList)) =
        ({ default env with home := env.expandTilde value }, []) := by
  refine ⟨Words.ofChars_quoted, ?_⟩
  intro env value nonempty feed
  have free : '\n' ∉ "/set home ".toList ++ Words.quote value.toList := by
    intro mem
    rcases List.mem_append.mp mem with mem | mem
    · exact absurd mem (by decide)
    · rcases Words.mem_quote mem with quote | slash | mem
      · exact absurd quote (by decide)
      · exact absurd slash (by decide)
      · exact feed mem
  have assigned : Assigns ("/set home ".toList ++ Words.quote value.toList) "home".toList
      value.toList := assigns_quoted plainName_home value.toList
  rw [ofText_line env (List.append_ne_nil_of_left_ne_nil (by decide) _) free,
    obey_of_assigns assigned, String.ofList_toList, String.ofList_toList, set_home _ _ nonempty]

/-- Blanks, quotes, a backslash and a carriage return in a path below the home of the user. -/
theorem quoted_words_kept_below_home :
    Words.ofChars "\"\" \"a b\" \"\\\"\\\\\"".toList = [[], "a b".toList, "\"\\".toList] ∧
      "~/a =\t\"b\\\r" ≠ "" ∧ '\n' ∉ "~/a =\t\"b\\\r".toList ∧
      ofText user "/set home \"~/a =\t\\\"b\\\\\r\"" =
        (⟨"/u/a =\t\"b\\\r", false, false, 0⟩, []) := by
  obtain ⟨words, home⟩ := quoted_words_kept
  have free : '\n' ∉ "~/a =\t\"b\\\r".toList := by decide
  exact ⟨words [[], "a b".toList, "\"\\".toList], by decide, free,
    home user "~/a =\t\"b\\\r" (by decide) free⟩

end Options

end LuaHost
