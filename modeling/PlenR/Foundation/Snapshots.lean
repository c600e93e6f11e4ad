import Mathlib.Data.List.Perm.Basic

/-! Snapshot listeners of a document store.

A listener is a query with the documents it reported last. It reports again
when the result of its query has changed, in any order of the documents, and it
stays registered until someone removes it. What a report does is not decided
here.
-/

set_option autoImplicit false

namespace Foundation.Snapshots

variable {Query Doc : Type}

structure Listener (Query Doc : Type) where
  query : Query
  delivered : Option (List Doc)

def subscribe (query : Query) : Listener Query Doc where
  query := query
  delivered := none

variable [DecidableEq Doc] (result : Query → List Doc)

def deliver (listeners : List (Listener Query Doc)) (position : ℕ) (docs : List Doc) :
    Option (Query × List (Listener Query Doc)) :=
  match listeners[position]? with
  | none => none
  | some listener =>
      -- a report is due when the documents have changed, not when only their order has
      if docs.Perm (result listener.query) ∧ ∀ last ∈ listener.delivered, ¬ docs.Perm last then
        some (listener.query, listeners.set position { listener with delivered := some docs })
      else none

variable {result}

/-- What a report says: it is the result of the query of the listener at the
position and is remembered by that listener only. -/
structure Report (result : Query → List Doc) (listeners : List (Listener Query Doc)) (position : ℕ)
    (docs : List Doc) (query : Query) (remaining : List (Listener Query Doc)) : Prop where
  source : listeners[position]?.map Listener.query = some query
  current : docs.Perm (result query)
  queries : remaining.map Listener.query = listeners.map Listener.query
  remembered : { query := query, delivered := some docs } ∈ remaining
  others : ∀ listener ∈ listeners, listener.query ≠ query → listener ∈ remaining

theorem deliver_report {listeners remaining : List (Listener Query Doc)} {position : ℕ} {docs : List Doc}
    {query : Query} (reported : deliver result listeners position docs = some (query, remaining)) :
    Report result listeners position docs query remaining := by
  unfold deliver at reported
  cases found : listeners[position]? with
  | none => simp [found] at reported
  | some listener =>
    simp only [found] at reported
    split at reported
    next due =>
      cases reported
      obtain ⟨inside, rfl⟩ := List.getElem?_eq_some_iff.mp found
      have within : position < (listeners.map Listener.query).length := by simpa using inside
      have kept : listeners[position].query = (listeners.map Listener.query)[position] := by simp
      constructor
      case source => simp [found]
      case current => exact due.1
      case queries => rw [List.map_set, kept, List.set_getElem_self]
      case remembered => exact List.mem_set inside _
      case others =>
        intro other member different
        obtain ⟨place, bound, rfl⟩ := List.mem_iff_getElem.mp member
        have elsewhere : position ≠ place := fun same => different (by simp only [same])
        refine List.mem_iff_getElem.mpr ⟨place, by simpa using bound, ?_⟩
        exact List.getElem_set_ne elsewhere _
    next => cases reported

omit [DecidableEq Doc] in
theorem Report.query_mem {listeners remaining : List (Listener Query Doc)} {position : ℕ} {docs : List Doc}
    {query : Query} (report : Report result listeners position docs query remaining)
    {listener : Listener Query Doc} (member : listener ∈ remaining) :
    ∃ before ∈ listeners, before.query = listener.query := by
  have present := List.mem_map_of_mem (f := Listener.query) member
  rw [report.queries] at present
  exact List.mem_map.mp present

end Foundation.Snapshots
