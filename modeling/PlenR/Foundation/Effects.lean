import Mathlib.Data.List.Basic

/-! Requests that a handler issues without waiting for them.

A handler issues requests in order until it ends or aborts; a request that was
issued before an abort stays issued. Each request is then performed or fails on
its own, and the handler never learns which.
-/

set_option autoImplicit false

namespace Foundation

/-- What a handler has issued when it ends or aborts. -/
structure Effect (Request : Type) where
  requests : List Request
  aborted : Bool
  deriving DecidableEq

namespace Effect

variable {Request : Type}

def issue (requests : List Request) : Effect Request where
  requests := requests
  aborted := false

def abort : Effect Request where
  requests := []
  aborted := true

/-- What follows is not reached after an abort. -/
def andThen (first second : Effect Request) : Effect Request :=
  if first.aborted then first
  else { requests := first.requests ++ second.requests, aborted := second.aborted }

end Effect

section Perform
variable {Request State : Type} (apply : State → Request → State)

/-- The state after the requests, when `outcomes` says which of them succeed. -/
def perform (outcomes : ℕ → Bool) (state : State) : List Request → State
  | [] => state
  | request :: rest =>
      perform (fun n => outcomes (n + 1)) (if outcomes 0 then apply state request else state) rest

variable {apply}

theorem perform_append (outcomes : ℕ → Bool) (state : State) (first rest : List Request) :
    perform apply outcomes state (first ++ rest) =
      perform apply (fun n => outcomes (first.length + n)) (perform apply outcomes state first) rest := by
  induction first generalizing outcomes state with
  | nil => simp [perform]
  | cons request first ih =>
    simp only [List.cons_append, perform, ih, List.length_cons]
    congr 1
    funext n
    congr 1
    omega

theorem perform_keeps (holds : State → Prop) {requests : List Request} (outcomes : ℕ → Bool) {state : State}
    (start : holds state) (keeps : ∀ request ∈ requests, ∀ state, holds state → holds (apply state request)) :
    holds (perform apply outcomes state requests) := by
  induction requests generalizing outcomes state with
  | nil => exact start
  | cons request rest ih =>
    obtain ⟨here, later⟩ := List.forall_mem_cons.mp keeps
    apply ih _ _ later
    by_cases succeeds : outcomes 0 = true
    · rw [if_pos succeeds]
      exact here state start
    · rw [if_neg succeeds]
      exact start

theorem perform_makes (holds : State → Prop) {requests : List Request} {outcomes : ℕ → Bool} {index : ℕ}
    {request : Request} (issued : requests[index]? = some request) (succeeds : outcomes index = true)
    (state : State) (makes : ∀ state, holds (apply state request))
    (keeps : ∀ request ∈ requests, ∀ state, holds state → holds (apply state request)) :
    holds (perform apply outcomes state requests) := by
  induction requests generalizing outcomes index state with
  | nil => cases issued
  | cons first rest ih =>
    obtain ⟨_, later⟩ := List.forall_mem_cons.mp keeps
    -- either the first request is the successful one, or it comes later
    cases index with
    | zero =>
      obtain rfl := Option.some.inj issued
      apply perform_keeps holds _ _ later
      rw [if_pos succeeds]
      exact makes state
    | succ index => exact ih issued succeeds _ later

end Perform
end Foundation
