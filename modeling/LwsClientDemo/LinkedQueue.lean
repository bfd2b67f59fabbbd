import Mathlib.Logic.Function.Basic
import Mathlib.Data.List.Basic
import Mathlib.Data.List.Nodup
import Mathlib.Data.List.Perm.Subperm

namespace linked_queue

variable {α : Type}

/-- A heap cell of a singly linked list. -/
structure Cell (α : Type) where
  val : α
  next : Option Nat

/-- A queue of heap cells with a pointer to the first and the last one. `fresh`
    is an address that no allocated cell has. -/
structure Queue (α : Type) where
  heap : Nat → Option (Cell α)
  head : Option Nat
  tail : Option Nat
  fresh : Nat

def Queue.empty : Queue α := { heap := fun _ => none, head := none, tail := none, fresh := 0 }

/-- `p->next = n` for the cell at address `p`. -/
def setNext (heap : Nat → Option (Cell α)) (p n : Nat) : Nat → Option (Cell α) :=
  Function.update heap p ((heap p).map fun cell => { cell with next := some n })

/-- Append a new cell: `if (tail) tail->next = node; else head = node; tail = node`. -/
def Queue.push (q : Queue α) (a : α) : Queue α :=
  let heap := Function.update q.heap q.fresh (some ⟨a, none⟩)
  match q.tail with
  | some t => { q with heap := setNext heap t q.fresh, tail := some q.fresh, fresh := q.fresh + 1 }
  | none => { heap, head := some q.fresh, tail := some q.fresh, fresh := q.fresh + 1 }

/-- Unlink the first cell: `head = node->next; if (!head) tail = NULL`. -/
def Queue.pop (q : Queue α) : Option α × Queue α :=
  match q.head with
  | none => (none, q)
  | some p =>
    match q.heap p with
    | none => (none, q)
    | some cell => (some cell.val,
        { q with
          heap := Function.update q.heap p none
          head := cell.next
          tail := if cell.next.isNone then none else q.tail })

/-- The loop `while (n) { next = n->next; free(n); n = next; }`. It returns the
    values of the freed cells, or `none` when the fuel does not reach the end. -/
def freeFrom (heap : Nat → Option (Cell α)) : Nat → Option Nat → Option (List α)
  | _, none => some []
  | 0, some _ => none
  | fuel + 1, some p =>
    match heap p with
    | none => none
    | some cell => (freeFrom (Function.update heap p none) fuel cell.next).map (cell.val :: ·)

/-- Free every cell and null both pointers. A list without a cycle has fewer
    cells than `fresh`, so running out of fuel means that the loop never ends. -/
def Queue.flush (q : Queue α) : Option (List α × Queue α) :=
  (freeFrom q.heap q.fresh q.head).map fun freed =>
    (freed, { heap := fun _ => none, head := none, tail := none, fresh := q.fresh })

/-- From pointer `p` the list runs through the given cells and ends. -/
inductive Chain (heap : Nat → Option (Cell α)) : Option Nat → List (Nat × α) → Prop where
  | nil : Chain heap none []
  | cons {p : Nat} {a : α} {next : Option Nat} {cells : List (Nat × α)} :
      heap p = some ⟨a, next⟩ → Chain heap next cells → Chain heap (some p) ((p, a) :: cells)

/-- The pointers describe the list `cells`: it is linked from `head`, its last
    cell is `tail`, and its cells are distinct and below `fresh`. -/
structure Queue.Links (q : Queue α) (cells : List (Nat × α)) : Prop where
  chain : Chain q.heap q.head cells
  tail : q.tail = cells.getLast?.map Prod.fst
  nodup : (cells.map Prod.fst).Nodup
  below : ∀ p ∈ cells.map Prod.fst, p < q.fresh

theorem Queue.empty_links : (Queue.empty : Queue α).Links [] :=
  ⟨.nil, rfl, by simp, by simp⟩

theorem Chain.congr {heap heap' : Nat → Option (Cell α)} {p : Option Nat}
    {cells : List (Nat × α)} (hchain : Chain heap p cells)
    (hsame : ∀ q ∈ cells.map Prod.fst, heap' q = heap q) : Chain heap' p cells := by
  induction hchain with
  | nil => exact .nil
  | cons hcell _ ih =>
    refine .cons ((hsame _ (by simp)).trans hcell) (ih ?_)
    intro q hq
    exact hsame q (by simp only [List.map_cons, List.mem_cons]; exact .inr hq)

theorem Chain.head_isSome {heap : Nat → Option (Cell α)} {p : Option Nat}
    {cells : List (Nat × α)} (hchain : Chain heap p cells) : p.isSome ↔ cells ≠ [] := by
  cases hchain <;> simp

/-- Linking a new last cell behind the old one extends the chain by it. -/
theorem Chain.append_cell {heap : Nat → Option (Cell α)} {p : Option Nat}
    {cells : List (Nat × α)} {t n : Nat} {a b : α}
    (hchain : Chain heap p (cells ++ [(t, a)])) (hnodup : ((cells ++ [(t, a)]).map Prod.fst).Nodup)
    (hnew : n ∉ (cells ++ [(t, a)]).map Prod.fst) :
    Chain (setNext (Function.update heap n (some ⟨b, none⟩)) t n) p
      (cells ++ [(t, a), (n, b)]) := by
  have htn : t ≠ n := by
    rintro rfl
    simp at hnew
  induction cells generalizing p with
  | nil =>
    cases hchain with
    | cons hcell hrest =>
      cases hrest
      refine .cons ?_ (.cons ?_ .nil)
      · simp [setNext, Function.update_of_ne htn, hcell]
      · simp [setNext, Function.update_of_ne (Ne.symm htn)]
  | cons c cells ih =>
    cases hchain with
    | @cons p a' next _ hcell hrest =>
      have hpt : p ≠ t := by
        rintro rfl
        simp at hnodup
      have hpn : p ≠ n := by
        rintro rfl
        simp at hnew
      refine .cons ?_ (ih hrest ?_ ?_)
      · simp [setNext, Function.update_of_ne hpt, Function.update_of_ne hpn, hcell]
      · simp only [List.cons_append, List.map_cons, List.nodup_cons] at hnodup
        exact hnodup.2
      · intro hmem
        exact hnew (by simp only [List.cons_append, List.map_cons, List.mem_cons]; exact .inr hmem)

/-- `push` appends the new cell to the list the pointers describe. -/
theorem Queue.push_links {q : Queue α} {cells : List (Nat × α)} (h : q.Links cells) (a : α) :
    (q.push a).Links (cells ++ [(q.fresh, a)]) := by
  have hfresh : q.fresh ∉ cells.map Prod.fst := fun hmem => absurd (h.below _ hmem) (by omega)
  have hnodup : ((cells ++ [(q.fresh, a)]).map Prod.fst).Nodup := by
    rw [List.map_append, List.nodup_append]
    exact ⟨h.nodup, by simp, by
      intro x hx y hy
      rintro rfl
      simp only [List.map_cons, List.map_nil, List.mem_singleton] at hy
      exact hfresh (hy ▸ hx)⟩
  have hbelow : ∀ p ∈ (cells ++ [(q.fresh, a)]).map Prod.fst, p < q.fresh + 1 := by
    intro p hp
    rw [List.map_append, List.mem_append] at hp
    rcases hp with hp | hp
    · exact Nat.lt_succ_of_lt (h.below p hp)
    · simp only [List.map_cons, List.map_nil, List.mem_singleton] at hp
      omega
  rcases List.eq_nil_or_concat cells with rfl | ⟨init, ⟨t, b⟩, rfl⟩
  · have htail : q.tail = none := h.tail
    have hpush : q.push a = ⟨Function.update q.heap q.fresh (some ⟨a, none⟩),
        some q.fresh, some q.fresh, q.fresh + 1⟩ := by
      simp [Queue.push, htail]
    rw [hpush]
    exact ⟨.cons (by simp) .nil, by simp, hnodup, hbelow⟩
  · rw [List.concat_eq_append] at *
    have htail : q.tail = some t := by simpa using h.tail
    have hpush : q.push a =
        ⟨setNext (Function.update q.heap q.fresh (some ⟨a, none⟩)) t q.fresh,
          q.head, some q.fresh, q.fresh + 1⟩ := by
      simp [Queue.push, htail]
    rw [hpush]
    refine ⟨?_, by simp, hnodup, hbelow⟩
    simpa using h.chain.append_cell (b := a) h.nodup hfresh

theorem Queue.head_eq_none_iff {q : Queue α} {cells : List (Nat × α)} (h : q.Links cells) :
    q.head = none ↔ cells = [] := by
  have := h.chain.head_isSome
  rw [← Option.not_isSome_iff_eq_none, this]
  simp

theorem Queue.tail_eq_none_iff {q : Queue α} {cells : List (Nat × α)} (h : q.Links cells) :
    q.tail = none ↔ cells = [] := by
  rw [h.tail]
  simp

theorem Queue.pop_nil {q : Queue α} (h : q.Links []) : q.pop = (none, q) := by
  have hhead : q.head = none := (q.head_eq_none_iff h).mpr rfl
  simp [Queue.pop, hhead]

/-- `pop` takes the first cell off the list the pointers describe. -/
theorem Queue.pop_cons {q : Queue α} {p : Nat} {a : α} {cells : List (Nat × α)}
    (h : q.Links ((p, a) :: cells)) : q.pop.1 = some a ∧ q.pop.2.Links cells := by
  obtain ⟨hchain, htail, hnodup, hbelow⟩ := h
  cases hhead : q.head with
  | none => rw [hhead] at hchain; cases hchain
  | some p' =>
    rw [hhead] at hchain
    cases hchain with
    | @cons p a next _ hcell hrest =>
      simp only [List.map_cons, List.nodup_cons] at hnodup
      have hpop : q.pop = (some a, { q with
          heap := Function.update q.heap p none
          head := next
          tail := if next.isNone then none else q.tail }) := by
        simp only [Queue.pop, hhead, hcell]
      rw [hpop]
      refine ⟨rfl, ?_, ?_, hnodup.2, ?_⟩
      · refine hrest.congr ?_
        intro r hr
        exact Function.update_of_ne (fun heq : r = p => hnodup.1 (heq ▸ hr)) _ _
      · cases hrest with
        | nil => rfl
        | cons _ _ =>
          simpa [List.getLast?_cons_cons] using htail
      · intro r hr
        exact hbelow r (by simp only [List.map_cons, List.mem_cons]; exact .inr hr)

/-- With fuel for every cell the freeing loop ends and frees exactly the cells
    of the chain, each once. -/
theorem freeFrom_chain {heap : Nat → Option (Cell α)} {p : Option Nat} {cells : List (Nat × α)}
    (hchain : Chain heap p cells) (hnodup : (cells.map Prod.fst).Nodup) {fuel : Nat}
    (hfuel : cells.length ≤ fuel) : freeFrom heap fuel p = some (cells.map Prod.snd) := by
  induction cells generalizing heap p fuel with
  | nil =>
    cases hchain
    cases fuel <;> rfl
  | cons c cells ih =>
    cases hchain with
    | @cons p a next _ hcell hrest =>
      simp only [List.map_cons, List.nodup_cons] at hnodup
      obtain ⟨fuel, rfl⟩ : ∃ k, fuel = k + 1 := ⟨fuel - 1, by simp at hfuel; omega⟩
      have hrest' : Chain (Function.update heap p none) next cells := by
        refine hrest.congr ?_
        intro r hr
        exact Function.update_of_ne (fun heq : r = p => hnodup.1 (heq ▸ hr)) _ _
      have hlen : cells.length ≤ fuel := by simpa using hfuel
      simp [freeFrom, hcell, ih hrest' hnodup.2 hlen]

/-- Distinct addresses below a bound are at most that many. -/
theorem Queue.Links.length_le {q : Queue α} {cells : List (Nat × α)} (h : q.Links cells) :
    cells.length ≤ q.fresh := by
  have hsub : cells.map Prod.fst ⊆ List.range q.fresh := by
    intro p hp
    exact List.mem_range.mpr (h.below p hp)
  have hle := (List.subperm_of_subset h.nodup hsub).length_le
  simpa using hle

/-- The flush loop terminates on every well-linked queue, frees its values in
    order and leaves the empty queue. -/
theorem Queue.flush_links {q : Queue α} {cells : List (Nat × α)} (h : q.Links cells) :
    ∃ q', q.flush = some (cells.map Prod.snd, q') ∧ q'.Links [] := by
  refine ⟨⟨fun _ => none, none, none, q.fresh⟩, ?_, .nil, rfl, by simp, by simp⟩
  simp [Queue.flush, freeFrom_chain h.chain h.nodup h.length_le]

end linked_queue
