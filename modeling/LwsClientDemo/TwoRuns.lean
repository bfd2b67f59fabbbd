import LwsClientDemo.Interleaving
import Mathlib.Data.List.Induction

namespace interleaving

variable {σ ε φ ψ α ι β : Type} {P : System σ ε φ ψ α}
  {ok ok' : Config σ φ ψ → Label ε ψ α → Prop} {R : Config σ φ ψ → Config σ φ ψ → Prop}

/-- What the steps of a run are given, in order. -/
def System.inputs (P : System σ ε φ ψ α) (inp : Config σ φ ψ → Label ε ψ α → Option ι)
    (first : Config σ φ ψ) (ls : List (Label ε ψ α)) : List ι :=
  P.observe (fun cfg l => (inp cfg l).toList) first ls

theorem System.Follows.inputs_snoc {inp : Config σ φ ψ → Label ε ψ α → Option ι}
    {ls : List (Label ε ψ α)} {first mid : Config σ φ ψ} (h : P.Follows ok first ls mid)
    (l : Label ε ψ α) :
    P.inputs inp first (ls ++ [l]) = P.inputs inp first ls ++ (inp mid l).toList :=
  h.observe_snoc l

/-- The inputs of a run of events alone, each of which is an input by itself. -/
theorem System.Follows.inputs_events {inp : Config σ φ ψ → Label ε ψ α → Option ι} {g : ε → Option ι}
    (hg : ∀ cfg e, inp cfg (.event e) = g e) {es : List ε} {first last : Config σ φ ψ}
    (h : P.Follows ok first (es.map .event) last) :
    P.inputs inp first (es.map .event) = es.filterMap g := by
  induction es using List.reverseRecOn generalizing last with
  | nil => rfl
  | append_singleton es e ih =>
    rw [List.map_append, List.map_singleton] at h ⊢
    obtain ⟨mid, hmid, _⟩ := h.of_snoc
    rw [hmid.inputs_snoc, ih hmid, hg, List.filterMap_append]
    cases hge : g e <;> simp [hge]

/-- A step without an input keeps the relation, on its side alone, and shows
    nothing. -/
def System.Silent (P : System σ ε φ ψ α) (ok : Config σ φ ψ → Label ε ψ α → Prop)
    (inp : Config σ φ ψ → Label ε ψ α → Option ι) (out : Config σ φ ψ → Label ε ψ α → List β)
    (I : Config σ φ ψ → Prop) : Prop :=
  ∀ cfg l next, I cfg → ok cfg l → P.step cfg l = some next → inp cfg l = none →
    I next ∧ out cfg l = []

variable {S : List ι → Config σ φ ψ → Config σ φ ψ → Prop} {G : List ι → Prop}

/-- The rule for two runs that are given the same inputs: a relation between
    configurations, which may speak of the inputs so far, is kept by steps without
    an input on either side, and by steps with the same input on both sides that
    show the same. `G` is a condition on the inputs, and on those so far. -/
theorem System.Follows.two_runs_given {inp inp' : Config σ φ ψ → Label ε ψ α → Option ι}
    {out out' : Config σ φ ψ → Label ε ψ α → List β}
    (hsilent : ∀ is cfg', P.Silent ok inp out fun cfg => S is cfg cfg')
    (hsilent' : ∀ is cfg, P.Silent ok' inp' out' fun cfg' => S is cfg cfg')
    (hinit : ∀ is i, G (is ++ [i]) → G is)
    (hboth : ∀ is cfg cfg' l l' next next' i, S is cfg cfg' → G (is ++ [i]) → ok cfg l →
      ok' cfg' l' → P.step cfg l = some next → P.step cfg' l' = some next' → inp cfg l = some i →
      inp' cfg' l' = some i → S (is ++ [i]) next next' ∧ out cfg l = out' cfg' l')
    {ls ls' : List (Label ε ψ α)} {first first' last last' : Config σ φ ψ}
    (h : P.Follows ok first ls last) (h' : P.Follows ok' first' ls' last') (hfirst : S [] first first')
    (hsame : P.inputs inp first ls = P.inputs inp' first' ls')
    (hgood : G (P.inputs inp first ls)) :
    S (P.inputs inp first ls) last last' ∧ P.observe out first ls = P.observe out' first' ls' := by
  induction h generalizing ls' last' with
  | nil =>
    -- Only steps without an input on the other side.
    induction h' with
    | nil => exact ⟨hfirst, rfl⟩
    | @snoc ls' mid' last' l' hmid' hok' hstep' ih =>
      rw [hmid'.inputs_snoc] at hsame
      obtain ⟨hinputs, hnone⟩ := List.append_eq_nil_iff.mp hsame.symm
      obtain ⟨hrel, hout⟩ := ih hinputs.symm
      have hinput : inp' mid' l' = none := by simpa using hnone
      obtain ⟨hnext, hnothing⟩ := hsilent' _ _ mid' l' last' hrel hok' hstep' hinput
      exact ⟨hnext, by rw [hmid'.observe_snoc, hnothing, List.append_nil, hout]⟩
  | @snoc ls mid last l hmid hok hstep ih =>
    rw [hmid.inputs_snoc] at hsame hgood ⊢
    cases hinput : inp mid l with
    | none =>
      rw [hinput, Option.toList_none, List.append_nil] at hsame hgood
      rw [Option.toList_none, List.append_nil]
      obtain ⟨hrel, hout⟩ := ih h' hsame hgood
      obtain ⟨hnext, hnothing⟩ := hsilent _ _ mid l last hrel hok hstep hinput
      exact ⟨hnext, by rw [hmid.observe_snoc, hnothing, List.append_nil, hout]⟩
    | some i =>
      rw [hinput] at hsame hgood
      induction h' with
      | nil => exact absurd (List.append_eq_nil_iff.mp hsame).2 (by simp)
      | @snoc ls' mid' last' l' hmid' hok' hstep' ih' =>
        rw [hmid'.inputs_snoc] at hsame
        cases hinput' : inp' mid' l' with
        | none =>
          rw [hinput', Option.toList_none, List.append_nil] at hsame
          obtain ⟨hrel, hout⟩ := ih' hsame
          obtain ⟨hnext, hnothing⟩ := hsilent' _ _ mid' l' last' hrel hok' hstep' hinput'
          exact ⟨hnext, by rw [hmid'.observe_snoc, hnothing, List.append_nil, hout]⟩
        | some i' =>
          rw [hinput'] at hsame
          obtain ⟨hinputs, hlast⟩ := List.append_inj' hsame rfl
          obtain rfl : i = i' := by simpa using hlast
          obtain ⟨hrel, hout⟩ := ih hmid' hinputs (hinit _ i hgood)
          obtain ⟨hnext, hshow⟩ :=
            hboth _ _ _ _ _ _ _ i hrel hgood hok hok' hstep hstep' hinput hinput'
          exact ⟨hnext, by rw [hmid.observe_snoc, hmid'.observe_snoc, hout, hshow]⟩

/-- The rule for a relation that does not speak of the inputs. -/
theorem System.Follows.two_runs {inp inp' : Config σ φ ψ → Label ε ψ α → Option ι}
    {out out' : Config σ φ ψ → Label ε ψ α → List β}
    (hsilent : ∀ cfg', P.Silent ok inp out fun cfg => R cfg cfg')
    (hsilent' : ∀ cfg, P.Silent ok' inp' out' fun cfg' => R cfg cfg')
    (hboth : ∀ cfg cfg' l l' next next' i, R cfg cfg' → ok cfg l → ok' cfg' l' →
      P.step cfg l = some next → P.step cfg' l' = some next' → inp cfg l = some i →
      inp' cfg' l' = some i → R next next' ∧ out cfg l = out' cfg' l')
    {ls ls' : List (Label ε ψ α)} {first first' last last' : Config σ φ ψ}
    (h : P.Follows ok first ls last) (h' : P.Follows ok' first' ls' last') (hfirst : R first first')
    (hsame : P.inputs inp first ls = P.inputs inp' first' ls') :
    R last last' ∧ P.observe out first ls = P.observe out' first' ls' :=
  System.Follows.two_runs_given (S := fun _ => R) (G := fun _ => True) (fun _ => hsilent)
    (fun _ => hsilent') (fun _ _ _ => trivial)
    (fun _ _ _ _ _ _ _ _ hrel _ hok hok' => hboth _ _ _ _ _ _ _ hrel hok hok') h h' hfirst hsame
    trivial

end interleaving
