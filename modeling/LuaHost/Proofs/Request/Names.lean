import LuaHost.Proofs.Blank
import LuaHost.Proofs.Request

/-!
# Names in request lists

A request list can be read request by request. The names read off it are canonical: each of them
is a request of its own that asks for nothing else, and so is the list that is made of them.
-/

namespace LuaHost

namespace Batch

/-- A name as it is read off a request list. -/
structure Canonical (name : String) : Prop where
  ne_empty : name ≠ ""
  trimmed : Text.Trimmed name.toList
  no_comma : ',' ∉ name.toList
  no_dash : name.toList.head? ≠ some '-'

/-- The name at the end of an entry is trimmed; the entry stands between commas, and its name
behind the flags. -/
theorem canonical_of_mem_ofName {c : Char} {cs : List Char} (blank : Text.isBlank c = false)
    (dash : c ≠ '-') (comma : ',' ∉ c :: cs) {name : String} (h : name ∈ (ofName (c :: cs)).names) :
    Canonical name := by
  have front := Text.trimEnd_cons blank cs
  have named : (ofName (c :: cs)).names = [String.ofList (Text.trimEnd (c :: cs))] := by
    rw [ofName, front]
    rfl
  rw [named, List.mem_singleton] at h
  subst h
  constructor
  · rw [front]
    exact fun h => List.cons_ne_nil _ _ (String.ofList_eq_empty_iff.mp h)
  · rw [String.toList_ofList]
    exact .trimEnd_of_cons blank cs
  · rw [String.toList_ofList]
    exact fun h => comma ((Text.trimEnd_prefix _).subset h)
  · rw [String.toList_ofList, front, List.head?_cons]
    exact fun h => dash (Option.some.inj h)

private theorem canonical_of_mem_readEntry {flag : Bool} {s : List Char} (comma : ',' ∉ s)
    {name : String}
    (h : name ∈ (readEntry flag s).names) : Canonical name := by
  fun_induction readEntry flag s with
  | case1 => cases h
  | case2 c cs ih =>
    -- The letter of a flag names nothing.
    rw [names_append, List.mem_append] at h
    exact ih (fun mem => comma (List.mem_cons_of_mem c mem)) (h.resolve_left List.not_mem_nil)
  | case3 c cs blank ih => exact ih (fun mem => comma (List.mem_cons_of_mem c mem)) h
  | case4 cs blank ih => exact ih (fun mem => comma (List.mem_cons_of_mem _ mem)) h
  | case5 c cs blank dash =>
    exact canonical_of_mem_ofName (Bool.eq_false_iff.mpr blank) dash comma h

private theorem names_ofChars (s : List Char) :
    (ofChars s).names =
      (Text.pieces (· == ',') s).flatMap fun entry => (readEntry false entry).names := by
  unfold ofChars
  induction Text.pieces (· == ',') s with
  | nil => rfl
  | cons entry entries ih => rw [List.foldr_cons, names_append, ih, List.flatMap_cons]

private theorem canonical_of_mem {list name : String} (h : name ∈ (ofText list).names) :
    Canonical name := by
  rw [ofText, names_ofChars, List.mem_flatMap] at h
  obtain ⟨entry, among, h⟩ := h
  refine canonical_of_mem_readEntry (fun comma => ?_) h
  exact absurd (Text.not_stop_of_mem_pieces among ',' comma) (by decide)

/-- A canonical name is read as itself. -/
theorem ofText_canonical {name : String} (h : Canonical name) :
    ofText name = ⟨false, false, [name]⟩ := by
  rw [ofText, ofChars, Text.pieces_of_not_mem h.no_comma]
  cases chars : name.toList with
  | nil => exact absurd (String.toList_eq_nil_iff.mp chars) h.ne_empty
  | cons c cs =>
    have blank : Text.isBlank c = false := h.trimmed.head c (by rw [chars]; rfl)
    have dash : c ≠ '-' := fun same => h.no_dash (by rw [chars, same]; rfl)
    have kept : Text.trimEnd (c :: cs) = c :: cs := chars ▸ h.trimmed.trimEnd_eq
    have whole : String.ofList (c :: cs) = name := by rw [← chars, String.ofList_toList]
    have read : readEntry false (c :: cs) = ⟨false, false, [name]⟩ := by
      rw [readEntry, if_neg (by rw [blank]; exact Bool.false_ne_true), if_neg dash, ofName, kept,
        whole]
      rfl
    rw [List.foldr_cons, read, List.foldr_nil, append_empty]

/-- Canonical names that are joined by commas are read one by one. -/
theorem ofText_intercalate {names : List String} (h : ∀ name ∈ names, Canonical name) :
    ofText (",".intercalate names) = ⟨false, false, names⟩ := by
  induction names with
  | nil => rfl
  | cons name names ih =>
    have this := ofText_canonical (h name List.mem_cons_self)
    have others := ih fun n hn => h n (List.mem_cons_of_mem name hn)
    cases names with
    | nil => rwa [String.intercalate_singleton]
    | cons next names =>
      have chars : (",".intercalate (name :: next :: names)).toList =
          name.toList ++ ',' :: (",".intercalate (next :: names)).toList := by
        rw [String.intercalate_cons_cons]
        simp
      have apart := ofChars_append_comma name.toList (",".intercalate (next :: names)).toList
      rw [ofText, chars, apart]
      exact congrArg₂ append this others

end Batch

namespace RequestQueue

/-- Put requests of all kinds on their lists, one after the other. -/
def addAll (q : RequestQueue) (requests : List (RequestKind × String)) : RequestQueue :=
  requests.foldl (fun q request => q.add request.1 request.2) q

/-- The requests of one kind. -/
def ofKind (kind : RequestKind) (requests : List (RequestKind × String)) : List String :=
  requests.filterMap fun (k, item) => if k = kind then some item else none

private theorem ofKind_cons (kind k : RequestKind) (item : String)
    (requests : List (RequestKind × String)) :
    ofKind kind ((k, item) :: requests) =
      if k = kind then item :: ofKind kind requests else ofKind kind requests := by
  by_cases same : k = kind <;> simp [ofKind, same]

/-- Requests of other kinds are on other lists. -/
theorem pending_addAll (q : RequestQueue) (kind : RequestKind)
    (requests : List (RequestKind × String)) :
    (q.addAll requests).pending kind =
      (ofKind kind requests).foldl appendRequest (q.pending kind) := by
  induction requests generalizing q with
  | nil => rfl
  | cons request requests ih =>
    obtain ⟨k, item⟩ := request
    rw [addAll, List.foldl_cons, ← addAll, ih, pending_add, ofKind_cons]
    by_cases same : k = kind
    · subst same
      rw [if_pos rfl, if_pos rfl, List.foldl_cons]
    · rw [if_neg (Ne.symm same), if_neg same]

/-- A list that was empty is read as the requests that were put on it: their names in order, and
each flag if it stands in one of them. Taking it leaves it empty. Every name that is read off any
list is canonical, and the names joined by commas are read as these names and no flag. -/
theorem requests_read_apart {q : RequestQueue} {kind : RequestKind} (nothing : q.pending kind = "")
    (requests : List (RequestKind × String)) :
    let taken := (q.addAll requests).take kind
    let items := ofKind kind requests
    (Batch.ofText taken.1).names = items.flatMap (fun item => (Batch.ofText item).names) ∧
    (Batch.ofText taken.1).quiet = items.any (fun item => (Batch.ofText item).quiet) ∧
    (Batch.ofText taken.1).autoload = items.any (fun item => (Batch.ofText item).autoload) ∧
    taken.2.pending kind = "" ∧
    ∀ list : String,
      (∀ name ∈ (Batch.ofText list).names, Batch.Canonical name) ∧
      Batch.ofText (",".intercalate (Batch.ofText list).names) =
        ⟨false, false, (Batch.ofText list).names⟩ := by
  intro taken items
  have read : Batch.ofText taken.1 = Batch.ofRequests items := by
    show Batch.ofText ((q.addAll requests).pending kind) = _
    rw [pending_addAll, nothing, Batch.ofText_foldl_appendRequest]
    rfl
  rw [read]
  refine ⟨Batch.names_ofRequests items, Batch.quiet_ofRequests items,
    Batch.autoload_ofRequests items, ?_, fun list => ?_⟩
  · rw [pending_take, if_pos rfl]
  · exact ⟨fun _ => Batch.canonical_of_mem,
      Batch.ofText_intercalate fun _ => Batch.canonical_of_mem⟩

/-- Requests with flags behind each other, without a name and with two names, and one of another
kind between them. -/
def mixed : List (RequestKind × String) :=
  [(.install, "-q-a a.lua"), (.remove, "y.lua"), (.install, ""), (.install, " b c.lua ,--,- d")]

/-- The case of requests with flags, without a name, with two names and of another kind. -/
theorem requests_read_apart_mixed :
    (⟨"", "x.lua", ""⟩ : RequestQueue).pending .install = "" ∧
      Batch.ofText ((addAll ⟨"", "x.lua", ""⟩ mixed).take .install).1 =
        ⟨true, true, ["a.lua", "b c.lua", "d"]⟩ := by
  have nothing : (⟨"", "x.lua", ""⟩ : RequestQueue).pending .install = "" := rfl
  obtain ⟨names, quiet, autoload, -⟩ := requests_read_apart nothing mixed
  refine ⟨nothing, Batch.ext (quiet.trans ?_) (autoload.trans ?_) (names.trans ?_)⟩
  · decide +kernel
  · decide +kernel
  · decide +kernel

end RequestQueue

end LuaHost
