import Mathlib.Data.List.Induction

namespace mailbox

/-- What happens to a mailbox that holds at most one message: a message is put in
    and replaces the one there, the mailbox is emptied, or its message is taken. -/
inductive Op (α : Type) where
  | put (m : α)
  | drop
  | take

/-- The mailbox, and the messages taken from it in order. -/
structure State (α : Type) where
  slot : Option α
  taken : List α

variable {α : Type}

def State.apply (s : State α) : Op α → State α
  | .put m => { s with slot := some m }
  | .drop => { s with slot := none }
  | .take => { slot := none, taken := s.taken ++ s.slot.toList }

/-- The mailbox after the operations, which find it empty. -/
def run (ops : List (Op α)) : State α := ops.foldl State.apply ⟨none, []⟩

/-- The messages put in. -/
def puts (ops : List (Op α)) : List α :=
  ops.filterMap fun
    | .put m => some m
    | .drop | .take => none

theorem run_append (ops later : List (Op α)) :
    run (ops ++ later) = later.foldl State.apply (run ops) :=
  List.foldl_append

theorem puts_append (ops later : List (Op α)) : puts (ops ++ later) = puts ops ++ puts later :=
  List.filterMap_append

/-- The messages that came through, with the one still in the mailbox. -/
def State.kept (s : State α) : List α := s.taken ++ s.slot.toList

/-- No message is invented, taken twice, or taken before an earlier one. -/
theorem kept_sublist (ops : List (Op α)) : ((run ops).kept).Sublist (puts ops) := by
  induction ops using List.reverseRecOn with
  | nil => exact .refl []
  | append_singleton ops op ih =>
    have htaken : ((run ops).taken).Sublist (puts ops) :=
      (List.sublist_append_left _ _).trans ih
    rw [run_append, puts_append]
    cases op with
    | put m => exact htaken.append (.refl [m])
    | drop => simpa [State.kept, State.apply, puts] using htaken
    | take => simpa [State.kept, State.apply, puts] using ih

/-- While nothing is dropped the last message put in is never lost: it is the
    last one taken, or it is in the mailbox. -/
theorem kept_getLast (ops : List (Op α)) (hops : ∀ op ∈ ops, op ≠ .drop) :
    (run ops).kept.getLast? = (puts ops).getLast? := by
  induction ops using List.reverseRecOn with
  | nil => rfl
  | append_singleton ops op ih =>
    rw [run_append, puts_append]
    have hbefore := ih fun op hop => hops op (by simp [hop])
    cases op with
    | put m => simp [State.kept, State.apply, puts]
    | drop => exact absurd rfl (hops .drop (by simp))
    | take => simpa [State.kept, State.apply, puts] using hbefore

end mailbox
