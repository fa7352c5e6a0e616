import LuaHost.Proofs.Path
import LuaHost.Request
import Mathlib.Data.List.Induction

/-!
# Requests and batches

Reading a request list is the same as reading its requests one by one, however the list came
about. From the notes about one kind of request it can be told which requests every batch was made
of and which are waiting: a batch takes all that came since the batch before it.
-/

namespace LuaHost

open RequestQueue (appendRequest)

namespace Batch

/-- The names of one batch come behind those of the other. -/
@[simp] theorem names_append (a b : Batch) : (a ++ b).names = a.names ++ b.names := rfl

/-- Two batches are quiet if one of them is. -/
@[simp] theorem quiet_append (a b : Batch) : (a ++ b).quiet = (a.quiet || b.quiet) := rfl

/-- Two batches ask for autoload if one of them does. -/
@[simp] theorem autoload_append (a b : Batch) :
    (a ++ b).autoload = (a.autoload || b.autoload) := rfl

/-- A batch without names or flags in front changes nothing. -/
@[simp] theorem empty_append (b : Batch) : empty ++ b = b := rfl

/-- A batch without names or flags behind changes nothing. -/
@[simp] theorem append_empty (b : Batch) : b ++ empty = b := by
  ext1
  · exact Bool.or_false _
  · exact Bool.or_false _
  · exact List.append_nil _

private theorem append_assoc (a b c : Batch) : a ++ b ++ c = a ++ (b ++ c) := by
  ext1
  · exact Bool.or_assoc _ _ _
  · exact Bool.or_assoc _ _ _
  · exact List.append_assoc _ _ _

/-- Joining batches one after the other, with another one at the end. -/
theorem foldr_append {α : Type} (read : α → Batch) (xs : List α) (last : Batch) :
    xs.foldr (fun x batch => read x ++ batch) last =
      xs.foldr (fun x batch => read x ++ batch) empty ++ last := by
  induction xs with
  | nil => rfl
  | cons x xs ih => rw [List.foldr_cons, ih, List.foldr_cons, append_assoc]

/-- Lists with a comma between them are read apart. -/
theorem ofChars_append_comma (a b : List Char) :
    ofChars (a ++ ',' :: b) = ofChars a ++ ofChars b := by
  unfold ofChars
  rw [Text.pieces_append_stop a b rfl, List.foldr_append, foldr_append]

/-- A request at the end of a list is read after the list. -/
theorem ofText_appendRequest (list item : String) :
    ofText (appendRequest list item) = ofText list ++ ofText item := by
  unfold appendRequest
  split
  · next nothing =>
    obtain rfl : list = "" := String.isEmpty_iff.mp nothing
    rfl
  · have chars : (list ++ "," ++ item).toList = list.toList ++ ',' :: item.toList := by simp
    rw [ofText, chars]
    exact ofChars_append_comma _ _

/-- What a number of requests ask for together. -/
def ofRequests (items : List String) : Batch :=
  items.foldr (fun item batch => ofText item ++ batch) empty

/-- A list is read as the requests that were put on it. -/
theorem ofText_foldl_appendRequest (items : List String) (list : String) :
    ofText (items.foldl appendRequest list) = ofText list ++ ofRequests items := by
  induction items generalizing list with
  | nil => exact (append_empty _).symm
  | cons item items ih =>
    rw [List.foldl_cons, ih, ofText_appendRequest, append_assoc]
    rfl

/-- The names of all requests together, in order. -/
theorem names_ofRequests (items : List String) :
    (ofRequests items).names = items.flatMap fun item => (ofText item).names := by
  induction items with
  | nil => rfl
  | cons item items ih =>
    rw [List.flatMap_cons, ← ih]
    rfl

/-- Requests are quiet together if one of them is. -/
theorem quiet_ofRequests (items : List String) :
    (ofRequests items).quiet = items.any fun item => (ofText item).quiet := by
  induction items with
  | nil => rfl
  | cons item items ih =>
    rw [List.any_cons, ← ih]
    rfl

/-- Requests are for autoload together if one of them is. -/
theorem autoload_ofRequests (items : List String) :
    (ofRequests items).autoload = items.any fun item => (ofText item).autoload := by
  induction items with
  | nil => rfl
  | cons item items ih =>
    rw [List.any_cons, ← ih]
    rfl

end Batch

namespace Note

/-- The request of a kind that is noted down. -/
def request? (kind : RequestKind) : Note → Option String
  | .asked k item => if k = kind then some item else none
  | .ran _ _ => none

/-- The batch of a kind that is noted down. -/
def batch? (kind : RequestKind) : Note → Option Batch
  | .asked _ _ => none
  | .ran k batch => if k = kind then some batch else none

end Note

/-- What became of the requests of one kind. -/
structure Docket where
  /-- The batches that were taken up, each with the requests that it was made of. -/
  served : List (List String × Batch)
  /-- The requests that are waiting. -/
  waiting : List String

namespace Docket

/-- A request waits for a batch, and a batch takes every request that waits. -/
def enter (kind : RequestKind) (d : Docket) : Note → Docket
  | .asked k item => if k = kind then { d with waiting := d.waiting ++ [item] } else d
  | .ran k batch => if k = kind then ⟨d.served ++ [(d.waiting, batch)], []⟩ else d

/-- The docket of a kind after some notes. What is on the list before counts as one request. -/
def ofNotes (kind : RequestKind) (list : String) (notes : List Note) : Docket :=
  notes.foldl (enter kind) ⟨[], [list]⟩

/-- The last note is entered last. -/
theorem ofNotes_concat (kind : RequestKind) (list : String) (notes : List Note) (n : Note) :
    ofNotes kind list (notes ++ [n]) = enter kind (ofNotes kind list notes) n := by
  simp only [ofNotes, List.foldl_append, List.foldl_cons, List.foldl_nil]

/-- All requests in the order in which they came. -/
def requests (d : Docket) : List String := d.served.flatMap Prod.fst ++ d.waiting

/-- All batches in the order in which they were taken up. -/
def batches (d : Docket) : List Batch := d.served.map Prod.snd

private theorem requests_enter (kind : RequestKind) (d : Docket) (n : Note) :
    (d.enter kind n).requests = d.requests ++ (n.request? kind).toList := by
  cases n with
  | asked k item => by_cases same : k = kind <;> simp [enter, requests, Note.request?, same]
  | ran k batch => by_cases same : k = kind <;> simp [enter, requests, Note.request?, same]

private theorem batches_enter (kind : RequestKind) (d : Docket) (n : Note) :
    (d.enter kind n).batches = d.batches ++ (n.batch? kind).toList := by
  cases n with
  | asked k item => by_cases same : k = kind <;> simp [enter, batches, Note.batch?, same]
  | ran k batch => by_cases same : k = kind <;> simp [enter, batches, Note.batch?, same]

/-- Every request that was noted down is on the docket, in order. -/
theorem requests_ofNotes (kind : RequestKind) (list : String) (notes : List Note) :
    (ofNotes kind list notes).requests = list :: notes.filterMap (Note.request? kind) := by
  induction notes using List.reverseRecOn with
  | nil => rfl
  | append_singleton notes n ih =>
    rw [ofNotes_concat, requests_enter, ih, List.filterMap_append]
    cases h : n.request? kind <;> simp [h]

/-- Every batch that was noted down is on the docket, in order. -/
theorem batches_ofNotes (kind : RequestKind) (list : String) (notes : List Note) :
    (ofNotes kind list notes).batches = notes.filterMap (Note.batch? kind) := by
  induction notes using List.reverseRecOn with
  | nil => rfl
  | append_singleton notes n ih =>
    rw [ofNotes_concat, batches_enter, ih, List.filterMap_append]
    cases h : n.batch? kind <;> simp [h]

/-- Every batch is what its requests ask for, and the list is made of those that are waiting. -/
structure Sound (d : Docket) (list : String) : Prop where
  served : ∀ x ∈ d.served, x.2 = Batch.ofRequests x.1
  waiting : list = d.waiting.foldl appendRequest ""

namespace Sound

variable {d : Docket} {list : String}

/-- A docket on which nothing is served yet is sound. -/
theorem start (list : String) : (⟨[], [list]⟩ : Docket).Sound list :=
  ⟨fun _ h => absurd h List.not_mem_nil, rfl⟩

/-- What a sound docket has on its list is what the waiting requests ask for. -/
theorem ofText_list (h : d.Sound list) : Batch.ofText list = Batch.ofRequests d.waiting := by
  rw [h.waiting, Batch.ofText_foldl_appendRequest]
  rfl

/-- A request that goes on the list keeps the docket sound. -/
theorem ask (h : d.Sound list) (kind : RequestKind) (item : String) :
    (d.enter kind (.asked kind item)).Sound (appendRequest list item) := by
  have entered : d.enter kind (.asked kind item) =
      { d with waiting := d.waiting ++ [item] } := if_pos rfl
  rw [entered]
  refine ⟨h.served, ?_⟩
  rw [List.foldl_append, ← h.waiting]
  rfl

/-- A batch that is read off the whole list keeps the docket sound. -/
theorem run (h : d.Sound list) (kind : RequestKind) :
    (d.enter kind (.ran kind (.ofText list))).Sound "" := by
  have entered : d.enter kind (.ran kind (.ofText list)) =
      ⟨d.served ++ [(d.waiting, .ofText list)], []⟩ := if_pos rfl
  rw [entered]
  refine ⟨?_, rfl⟩
  intro x hx
  rcases List.mem_append.mp hx with hx | hx
  · exact h.served x hx
  · obtain rfl := List.mem_singleton.mp hx
    exact h.ofText_list

/-- The names of the batches, followed by those on the list, are the names of all requests. -/
theorem names (h : d.Sound list) :
    d.batches.flatMap Batch.names ++ (Batch.ofText list).names =
      d.requests.flatMap fun item => (Batch.ofText item).names := by
  have served : d.batches.flatMap Batch.names =
      (d.served.flatMap Prod.fst).flatMap fun item => (Batch.ofText item).names := by
    rw [batches, List.flatMap_map, List.flatMap_assoc]
    refine List.flatMap_congr fun x hx => ?_
    rw [h.served x hx, Batch.names_ofRequests]
  rw [served, h.ofText_list, Batch.names_ofRequests, requests, List.flatMap_append]

end Sound

/-- A note about another kind changes nothing. -/
theorem enter_asked_of_ne {kind k : RequestKind} (h : k ≠ kind) (d : Docket) (item : String) :
    d.enter kind (.asked k item) = d := if_neg h

/-- A batch of another kind is not entered. -/
theorem enter_ran_of_ne {kind k : RequestKind} (h : k ≠ kind) (d : Docket) (batch : Batch) :
    d.enter kind (.ran k batch) = d := if_neg h

end Docket

end LuaHost
