import PrussBindings.Lib.Transition

/-!
# A bounded mailbox

The abstract behaviour of a buffered channel: messages go in whole, come out
whole, in order, and a message is turned away exactly when a fixed number of
them is waiting.

* `Step cap` — one operation on the list of waiting messages.
* `accepted`, `delivered` — what a history of operations let in and gave out.
* `Run.conserves` — **nothing is lost, duplicated or reordered**: what was let
  in is what was given out followed by what is still waiting.
* `Run.length_le` — no more than `cap` messages wait.
-/

namespace Mailbox

variable {α : Type}

/-- An operation on a mailbox and its result. -/
inductive Event (α : Type) where
  /-- A message is offered; the flag says whether it was let in. -/
  | put (m : α) (taken : Bool)
  /-- A message is asked for. -/
  | get (r : Option α)
  deriving DecidableEq, Repr

/-- One operation on a mailbox that holds at most `cap` messages. -/
inductive Step (cap : Nat) : List α → Event α → List α → Prop where
  | accept {ms : List α} (m : α) (h : ms.length < cap) : Step cap ms (.put m true) (ms ++ [m])
  | refuse {ms : List α} (m : α) (h : ms.length = cap) : Step cap ms (.put m false) ms
  | deliver (m : α) (ms : List α) : Step cap (m :: ms) (.get (some m)) ms
  | nothing : Step cap [] (.get none) []

/-- The messages a history let in. -/
def accepted (es : List (Event α)) : List α :=
  es.filterMap fun
    | .put m true => some m
    | _ => none

/-- The messages a history gave out. -/
def delivered (es : List (Event α)) : List α :=
  es.filterMap fun
    | .get r => r
    | _ => none

/-- Runs of a mailbox. -/
abbrev Run (cap : Nat) : List α → List (Event α) → List α → Prop :=
  Transition.Run (Step cap)

variable {cap : Nat} {ms ms' : List α} {es : List (Event α)}

/-- **Nothing is lost, duplicated or reordered.** -/
theorem Run.conserves (h : Run cap ms es ms') : ms ++ accepted es = delivered es ++ ms' := by
  induction h with
  | nil ms => simp [accepted, delivered]
  | cons hstep _ ih =>
    cases hstep with
    | accept m _ => simpa [accepted, delivered] using ih
    | refuse m _ => simpa [accepted, delivered] using ih
    | deliver m ms => simpa [accepted, delivered] using ih
    | nothing => simpa [accepted, delivered] using ih

theorem Step.length_le {e : Event α} (h : Step cap ms e ms') (hms : ms.length ≤ cap) :
    ms'.length ≤ cap := by
  cases h with
  | accept m hlt => simpa using hlt
  | refuse m _ => exact hms
  | deliver m ms => simp only [List.length_cons] at hms; omega
  | nothing => exact hms

/-- The bound on the waiting messages holds along every run. -/
theorem Run.length_le (h : Run cap ms es ms') (hms : ms.length ≤ cap) : ms'.length ≤ cap :=
  h.invariant (I := fun ms : List α => ms.length ≤ cap) (fun _ _ _ hI hstep => hstep.length_le hI) hms

end Mailbox
