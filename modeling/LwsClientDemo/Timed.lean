import LwsClientDemo.Interleaving

namespace interleaving

/-- The time of the last step, and the time each timer is set for. -/
structure Clock (κ : Type) where
  now : Int
  due : κ → Int

/-- How a program uses timers: which ones a step sets, and for how long, and which
    one a step is the firing of. -/
structure Timers (σ ε φ ψ α κ : Type) where
  sets : Config σ φ ψ → Label ε ψ α → κ → List Int
  fires : Label ε ψ α → Option κ

variable {σ ε φ ψ α κ β : Type}

/-- A timer set at time `t` is due that much later. The last setting counts. -/
def Clock.after (k : Clock κ) (T : Timers σ ε φ ψ α κ) (cfg : Config σ φ ψ) (t : Int)
    (l : Label ε ψ α) : Clock κ :=
  { now := t, due := fun i => ((T.sets cfg l i).getLast?.map (t + ·)).getD (k.due i) }

/-- Runs whose steps carry time stamps that do not decrease. A timer fires no
    earlier than the time it is set for; every step meets the condition `ok`. -/
inductive System.Timed (P : System σ ε φ ψ α) (T : Timers σ ε φ ψ α κ)
    (ok : Config σ φ ψ → Clock κ → Int → Label ε ψ α → Prop) (first : Config σ φ ψ) (start : Clock κ) :
    List (Int × Label ε ψ α) → Config σ φ ψ → Clock κ → Prop where
  | nil : P.Timed T ok first start [] first start
  | snoc {ls : List (Int × Label ε ψ α)} {mid last : Config σ φ ψ} {k : Clock κ} {t : Int}
      {l : Label ε ψ α} :
      P.Timed T ok first start ls mid k → k.now ≤ t → (∀ i, T.fires l = some i → k.due i ≤ t) →
        ok mid k t l → P.step mid l = some last →
        P.Timed T ok first start (ls ++ [(t, l)]) last (k.after T mid t l)

/-- What is observed of the steps of a run, with the time stamps. -/
def System.stamped (P : System σ ε φ ψ α) (obs : Config σ φ ψ → Label ε ψ α → List β)
    (cfg : Config σ φ ψ) : List (Int × Label ε ψ α) → List (Int × β)
  | [] => []
  | (t, l) :: ls =>
    (obs cfg l).map (t, ·) ++ ((P.step cfg l).map fun next => P.stamped obs next ls).getD []

variable {P : System σ ε φ ψ α} {T : Timers σ ε φ ψ α κ}
  {ok : Config σ φ ψ → Clock κ → Int → Label ε ψ α → Prop} {first mid last : Config σ φ ψ}
  {start k : Clock κ} {ls : List (Int × Label ε ψ α)} {obs : Config σ φ ψ → Label ε ψ α → List β}

/-- The steps of a timed run are those of a run. -/
theorem System.Timed.follows {ok' : Config σ φ ψ → Label ε ψ α → Prop}
    (h : P.Timed T ok first start ls last k) (himp : ∀ cfg k t l, ok cfg k t l → ok' cfg l) :
    P.Follows ok' first (ls.map Prod.snd) last := by
  induction h with
  | nil => exact .nil
  | snoc _ _ _ hok hstep ih =>
    rw [List.map_append]
    exact ih.snoc (himp _ _ _ _ hok) hstep

theorem System.Timed.stamped_append (h : P.Timed T ok first start ls mid k)
    (ms : List (Int × Label ε ψ α)) :
    P.stamped obs first (ls ++ ms) = P.stamped obs first ls ++ P.stamped obs mid ms := by
  induction h generalizing ms with
  | nil => rfl
  | @snoc ls mid last k t l _ _ _ _ hstep ih =>
    have hlast : P.stamped obs mid [(t, l)] = (obs mid l).map (t, ·) := by
      simp [System.stamped, hstep]
    have hcons : P.stamped obs mid ((t, l) :: ms) =
        (obs mid l).map (t, ·) ++ P.stamped obs last ms := by
      simp [System.stamped, hstep]
    rw [List.append_assoc, List.singleton_append, ih, ih, hlast, hcons, List.append_assoc]

theorem System.Timed.stamped_snoc (h : P.Timed T ok first start ls mid k) (t : Int)
    (l : Label ε ψ α) :
    P.stamped obs first (ls ++ [(t, l)]) = P.stamped obs first ls ++ (obs mid l).map (t, ·) := by
  rw [h.stamped_append]
  cases hstep : P.step mid l <;> simp [System.stamped, hstep]

theorem System.Timed.cons {next : Config σ φ ψ} {t : Int} {l : Label ε ψ α} (hnow : start.now ≤ t)
    (hdue : ∀ i, T.fires l = some i → start.due i ≤ t) (hok : ok first start t l)
    (hstep : P.step first l = some next)
    (h : P.Timed T ok next (start.after T first t l) ls last k) :
    P.Timed T ok first start ((t, l) :: ls) last k := by
  induction h with
  | nil => exact System.Timed.nil.snoc hnow hdue hok hstep
  | snoc _ hnow' hdue' hok' hstep' ih => exact ih.snoc hnow' hdue' hok' hstep'

/-- The steps of a list of stamped labels in order, each under the condition `ok`. -/
def System.clocked (P : System σ ε φ ψ α) (T : Timers σ ε φ ψ α κ)
    (ok : Config σ φ ψ → Clock κ → Int → Label ε ψ α → Prop) [∀ cfg k t l, Decidable (ok cfg k t l)]
    (cfg : Config σ φ ψ) (k : Clock κ) :
    List (Int × Label ε ψ α) → Option (Config σ φ ψ × Clock κ)
  | [] => some (cfg, k)
  | (t, l) :: ls =>
    if k.now ≤ t ∧ (T.fires l).all (fun i => decide (k.due i ≤ t)) = true ∧ ok cfg k t l then
      (P.step cfg l).bind fun next => P.clocked T ok next (k.after T cfg t l) ls
    else none

theorem System.Timed.of_clocked [∀ cfg k t l, Decidable (ok cfg k t l)]
    (hrun : P.clocked T ok first start ls = some (last, k)) : P.Timed T ok first start ls last k := by
  induction ls generalizing first start with
  | nil =>
    cases hrun
    exact .nil
  | cons x ls ih =>
    obtain ⟨t, l⟩ := x
    simp only [System.clocked, Option.ite_none_right_eq_some, Option.bind_eq_some_iff] at hrun
    obtain ⟨⟨hnow, hdue, hok⟩, next, hstep, hrest⟩ := hrun
    refine .cons hnow (fun i hi => ?_) hok hstep (ih hrest)
    rw [hi] at hdue
    simpa using hdue

/-- A timed run that ends with a decidable property witnesses one that has it. -/
theorem System.exists_timed_of_clocked [∀ cfg k t l, Decidable (ok cfg k t l)]
    {p : Config σ φ ψ → Clock κ → Prop} [∀ cfg k, Decidable (p cfg k)]
    (hrun : (P.clocked T ok first start ls).any (fun x => decide (p x.1 x.2)) = true) :
    ∃ last k, P.Timed T ok first start ls last k ∧ p last k := by
  cases hlast : P.clocked T ok first start ls with
  | none => simp [hlast] at hrun
  | some x =>
    rw [hlast] at hrun
    exact ⟨x.1, x.2, .of_clocked hlast, by simpa using hrun⟩

end interleaving
