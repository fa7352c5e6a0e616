import LuaHost.Core.Run
import LuaHost.Proofs.Core.Lines
import LuaHost.Proofs.Encoding

/-!
# Strings that a script writes

A script may write its strings in one call or in several, which makes no difference. It does make
one whether it joins them first: every string is turned into text on its own, so a character that
is divided between two of them is lost.
-/

namespace LuaHost.Core

open Lua (HostCall Machine Site Value)

/-! ### Texts one after the other -/

/-- Finish a line. -/
def finishLine (c : Core) (line : List Char) : Core := (c.push (String.ofList line)).flush

private theorem write_of_pieces (c : Core) {text : String} {lines : List (List Char)}
    {rest : List Char}
    (cut : Text.pieces (· == '\n') text.toList = lines ++ [rest]) :
    c.write text = (lines.foldl finishLine c).push (String.ofList rest) := by
  simp only [write, Text.splitLines_of_pieces cut]
  rfl

private theorem push_push_ofList (c : Core) (s t : List Char) :
    (c.push (String.ofList s)).push (String.ofList t) = c.push (String.ofList (s ++ t)) := by
  rw [push_push, String.ofList_append]

/-- Texts that are written one after the other are written like the text they make together. -/
theorem write_append (c : Core) (s t : String) : (c.write s).write t = c.write (s ++ t) := by
  obtain ⟨lines, rest, cut⟩ := Text.exists_last (· == '\n') s.toList
  obtain ⟨p, ps, first⟩ := Text.exists_pieces (· == '\n') t.toList
  have unbroken : ∀ x ∈ rest, (x == '\n') = false := fun x hx =>
    Text.not_stop_of_mem_pieces (cut ▸ List.mem_append_right lines List.mem_cons_self) x hx
  have both : Text.pieces (· == '\n') (s ++ t).toList = lines ++ (rest ++ p) :: ps := by
    rw [String.toList_append, Text.pieces_append cut, Text.pieces_append_of_no_stop unbroken first]
  rw [write_of_pieces c cut]
  -- The line that both texts share is finished in the second one, if that ends a line at all.
  obtain ⟨more, last, whole⟩ : ∃ more last, (rest ++ p) :: ps = more ++ [last] :=
    ⟨_, _, (List.dropLast_concat_getLast (List.cons_ne_nil _ _)).symm⟩
  cases more with
  | nil =>
    obtain ⟨rfl, rfl⟩ := List.cons.inj whole
    have alone : Text.pieces (· == '\n') t.toList = [] ++ [p] := first
    rw [write_of_pieces _ alone, write_of_pieces c both]
    exact push_push_ofList _ rest p
  | cons line more =>
    obtain ⟨-, split⟩ := List.cons.inj whole
    have behind : Text.pieces (· == '\n') t.toList = (p :: more) ++ [last] :=
      first.trans (congrArg (p :: ·) split)
    have all : Text.pieces (· == '\n') (s ++ t).toList =
        (lines ++ (rest ++ p) :: more) ++ [last] := by
      rw [both, split, List.append_assoc]
      rfl
    have joined : finishLine ((lines.foldl finishLine c).push (String.ofList rest)) p =
        finishLine (lines.foldl finishLine c) (rest ++ p) :=
      congrArg flush (push_push_ofList _ rest p)
    rw [write_of_pieces _ behind, write_of_pieces c all, List.foldl_append, List.foldl_cons,
      List.foldl_cons, joined]

private theorem foldl_write (c : Core) (texts : List String) :
    texts.foldl write c = c.write (String.join texts) := by
  induction texts generalizing c with
  | nil =>
    have nothing : Text.pieces (· == '\n') "".toList = [] ++ [[]] := rfl
    rw [String.join_nil, write_of_pieces c nothing]
    simp [push, Output.push]
  | cons text texts ih => rw [List.foldl_cons, ih, write_append, String.join_cons]

/-! ### Texts that look the same -/

/-- The event in which a line is logged tells the line. -/
theorem event_log_injective (script : Option String) :
    Function.Injective fun text => (Delivery.log script text).event := by
  intro s t same
  simp only [Delivery.event, Event.print.injEq, true_and] at same
  exact (String.append_right_inj _).mp same

/-- Without an evaluation a line is logged under the name of the script, unless it is empty. -/
theorem filterMap_lineDelivery? {c : Core} (h : c.output.evaluation = none)
    (lines : List (List Char)) :
    lines.filterMap c.lineDelivery? =
      (lines.filter (· ≠ [])).map fun line => .log c.activeName? (String.ofList line) := by
  have one (line : List Char) : c.lineDelivery? line =
      if line = [] then none else some (.log c.activeName? (String.ofList line)) := by
    simp [lineDelivery?, Output.delivery?, h]
  induction lines with
  | nil => rfl
  | cons line lines ih =>
    by_cases nothing : line = []
    · rw [List.filterMap_cons_none (by rw [one, if_pos nothing]), ih,
        List.filter_cons_of_neg (by simpa using nothing)]
    · rw [List.filterMap_cons_some (by rw [one, if_neg nothing]), ih,
        List.filter_cons_of_pos (by simpa using nothing), List.map_cons]

/-- What writing comes to tells how many characters stand in the lines that were written, be they
logged or kept. -/
theorem inLines_eq_of_write_eq {c : Core} (clean : '\n' ∉ c.output.buffer.toList)
    (plain : c.output.evaluation = none ∨ c.output.isCapturing = true) {s t : String}
    (same : c.write s = c.write t) : Text.inLines s.toList = Text.inLines t.toList := by
  rcases plain with logged | kept
  · have h := Output.isCapturing_of_none logged
    -- Empty lines are left out of what is handed over, so where the newlines stood cannot be told:
    -- the characters are counted and not compared.
    have chars {text : List Char} {lines : List (List Char)} {rest : List Char}
        (cut : Text.pieces (· == '\n') (c.output.buffer.toList ++ text) = lines ++ [rest]) :
        Text.inLines c.output.buffer.toList + Text.inLines text =
          (lines.filter (· ≠ [])).flatten.length + rest.length := by
      have flat : (lines ++ [rest]).flatten =
          (c.output.buffer.toList ++ text).filter (· != '\n') := by
        rw [← cut, Text.flatten_pieces]
        rfl
      rw [← Text.inLines_append, Text.inLines, List.countP_eq_length_filter, ← flat,
        List.flatten_append, List.flatten_singleton, List.length_append, List.flatten_filter_ne_nil]
    obtain ⟨lines, rest, cut⟩ := Text.exists_last (· == '\n') (c.output.buffer.toList ++ s.toList)
    obtain ⟨lines', rest', cut'⟩ :=
      Text.exists_last (· == '\n') (c.output.buffer.toList ++ t.toList)
    rw [write_eq_handOver h clean cut, write_eq_handOver h clean cut'] at same
    have left : rest = rest' := by
      rw [← c.buffer_handOver lines rest, same, buffer_handOver]
    have handed : lines.filter (· ≠ []) = lines'.filter (· ≠ []) := by
      have events := congrArg Core.events same
      simp only [handOver, filterMap_lineDelivery? logged, List.map_map] at events
      have listed := congrArg Array.toList ((Array.append_right_inj _).mp events)
      refine (List.map_inj_right fun line line' told => ?_).mp listed
      exact String.ofList_injective (event_log_injective c.activeName? told)
    have before := chars cut
    rw [handed, left, ← chars cut'] at before
    exact Nat.add_left_cancel before
  · rw [write_of_isCapturing kept, write_of_isCapturing kept] at same
    have buffers := congrArg (fun c => c.output.buffer) same
    have filtered := String.ofList_inj.mp ((String.append_right_inj _).mp buffers)
    rw [Text.inLines, List.countP_eq_length_filter, filtered, ← List.countP_eq_length_filter]
    rfl

/-! ### Calls -/

/-- A machine that calls the function that writes on strings. -/
def writing (m : Machine) (site : Site) (strings : List ByteArray) : Machine :=
  { m with control := .call (.builtin .write) (strings.map .str) site }

/-- What is left of a state that scripts reach when a machine was answered what its next step
asks. -/
def answerStep (c : Core) (m : Machine) : Core :=
  match m.step with
  | .asking call _ => (c.answer call).1
  | _ => c

/-- Every string is turned into text on its own. -/
theorem step_writing (m : Machine) (site : Site) (strings : List ByteArray) :
    (writing m site strings).step =
      .asking (.write (String.join (strings.map Text.decode))) (writing m site strings) := by
  have strings_only :
      (strings.map Value.str).findIdx? (fun v => (Lua.Library.writtenText? v).isNone) = none :=
    List.findIdx?_eq_none_iff.mpr (List.forall_mem_map.mpr fun _ _ => rfl)
  have texts : (strings.map Value.str).filterMap Lua.Library.writtenText? =
      strings.map Text.decode := by
    rw [List.filterMap_map]
    exact congrFun (List.filterMap_eq_map (f := Text.decode)) strings
  have asked : Lua.Library.write (strings.map .str) =
      .ask (.write (String.join (strings.map Text.decode))) := by
    rw [Lua.Library.write, strings_only, texts]
  simp only [writing, Machine.step, Machine.call, Lua.Library.call, asked]

private theorem answerStep_writing (c : Core) (m : Machine) (site : Site)
    (strings : List ByteArray) :
    c.answerStep (writing m site strings) = c.write (String.join (strings.map Text.decode)) := by
  rw [answerStep, step_writing]
  rfl

private theorem answerStep_writing_one (c : Core) (m : Machine) (site : Site) (s : ByteArray) :
    c.answerStep (writing m site [s]) = c.write (Text.decode s) := by
  rw [answerStep_writing, List.map_singleton, String.join_cons, String.join_nil,
    String.append_empty]

/-- A run goes on behind the call in the state that the call leaves. -/
theorem run_writing (c : Core) (m : Machine) (site : Site) (strings : List ByteArray)
    (budget : Nat) :
    c.run (budget + 1) (writing m site strings) =
      (c.answerStep (writing m site strings)).run budget { m with control := .values [] } := by
  rw [answerStep_writing, run, runWith, step_writing]
  rfl

/-- The strings of calls that are made one after the other by machines in any states. -/
def strings (calls : List (Machine × Site × ByteArray)) : List ByteArray :=
  calls.map fun (_, _, string) => string

/-- What calls with one string each leave. -/
def answerCalls (c : Core) (calls : List (Machine × Site × ByteArray)) : Core :=
  calls.foldl (fun c (m, site, string) => c.answerStep (writing m site [string])) c

private theorem answerCalls_eq (c : Core) (calls : List (Machine × Site × ByteArray)) :
    c.answerCalls calls = c.write (String.join ((strings calls).map Text.decode)) := by
  rw [← foldl_write]
  induction calls generalizing c with
  | nil => rfl
  | cons call calls ih =>
    obtain ⟨m, site, s⟩ := call
    simp only [answerCalls, strings, List.foldl_cons, List.map_cons, answerStep_writing_one] at ih ⊢
    exact ih _

/-- Strings put together. -/
def joined (strings : List ByteArray) : ByteArray := strings.foldr (· ++ ·) .empty

private theorem toList_joined (strings : List ByteArray) :
    (joined strings).data.toList = (strings.map (·.data.toList)).flatten := by
  induction strings with
  | nil => rfl
  | cons s strings ih =>
    rw [joined, List.foldr_cons, ByteArray.data_append, Array.toList_append, List.map_cons,
      List.flatten_cons, ← ih]
    rfl

private theorem toList_decode (s : ByteArray) :
    (Text.decode s).toList = Text.lossy s.data.toList := by
  rw [Text.decode_eq, String.toList_ofList]

private theorem toList_join_decode (strings : List ByteArray) :
    (String.join (strings.map Text.decode)).toList =
      (strings.map (·.data.toList)).flatMap Text.lossy := by
  simp only [String.toList_join, List.flatMap_map, toList_decode]

/-- It makes no difference whether strings are written in one call or in several. They may as well
be joined first just if no character is divided between them, for instance if all of them are
texts. Otherwise the output differs, be it logged or kept. -/
theorem writes_as_one (c : Core) (calls : List (Machine × Site × ByteArray)) (m m' : Machine)
    (site site' : Site) :
    let pieces := (strings calls).map (·.data.toList)
    let together := c.answerStep (writing m site (strings calls))
    let whole := c.answerStep (writing m' site' [joined (strings calls)])
    c.answerCalls calls = together ∧
      (Text.Undivided pieces → whole = together) ∧
      ((∀ s ∈ strings calls, s.IsValidUTF8) → whole = together) ∧
      ('\n' ∉ c.output.buffer.toList →
        c.output.evaluation = none ∨ c.output.isCapturing = true →
        whole = together → Text.Undivided pieces) := by
  intro pieces together whole
  have ht : together = c.write (String.join ((strings calls).map Text.decode)) :=
    c.answerStep_writing m site _
  have hw : whole = c.write (Text.decode (joined (strings calls))) :=
    c.answerStep_writing_one m' site' _
  have shownWhole : (Text.decode (joined (strings calls))).toList = Text.lossy pieces.flatten := by
    rw [toList_decode, toList_joined]
  have shownApart := toList_join_decode (strings calls)
  have same (undivided : Text.Undivided pieces) : whole = together := by
    rw [ht, hw]
    refine congrArg c.write (String.toList_inj.mp ?_)
    rw [shownWhole, shownApart, Text.lossy_flatten undivided]
  refine ⟨(c.answerCalls_eq calls).trans ht.symm, same,
    fun utf8 => same (Text.undivided_of_utf8 utf8), fun clean plain equal => ?_⟩
  refine Classical.byContradiction fun divided => ?_
  rw [ht, hw] at equal
  have count := inLines_eq_of_write_eq clean plain equal
  rw [shownWhole, shownApart] at count
  exact absurd count (Nat.ne_of_lt (Text.inLines_flatten_lt divided))

/-- Nothing was written yet. -/
def blank : Core := .new ⟨"h", false, false, 0⟩ "GPL3"

/-- A machine that is about to call a value. -/
def idle : Machine := Lua.Interpreter.start Lua.Interpreter.bare .nil []

/-- Two texts, the first of which ends a line. -/
def greeting : List (Machine × Site × ByteArray) :=
  [(idle, .outside, Text.encode "é\n"), (idle, .outside, Text.encode "è")]

/-- The case of two texts that do not cut a character in two. -/
theorem writes_as_one_greeting :
    Text.Undivided ((strings greeting).map (·.data.toList)) ∧
      blank.answerCalls greeting =
        blank.answerStep (writing idle .outside [joined (strings greeting)]) := by
  obtain ⟨inOne, -, texts, divided⟩ := writes_as_one blank greeting idle idle .outside .outside
  have utf8 : ∀ s ∈ strings greeting, s.IsValidUTF8 :=
    List.forall_mem_cons.mpr ⟨String.isValidUTF8 _,
      List.forall_mem_singleton.mpr (String.isValidUTF8 _)⟩
  exact ⟨divided (by decide) (.inl rfl) (texts utf8), inOne.trans (texts utf8).symm⟩

/-- The two bytes of a character in one string each. -/
def halves : List (Machine × Site × ByteArray) :=
  [(idle, .outside, ⟨#[0xC3]⟩), (idle, .outside, ⟨#[0xA9]⟩)]

/-- Written apart the halves of a character show as two faults. -/
theorem writes_divided :
    (blank.answerCalls halves).output.buffer = "\uFFFD\uFFFD" ∧
      (blank.answerStep (writing idle .outside (strings halves))).output.buffer = "\uFFFD\uFFFD" ∧
      (blank.answerStep (writing idle .outside [joined (strings halves)])).output.buffer = "é" := by
  decide +kernel

end LuaHost.Core
