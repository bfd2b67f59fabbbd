import Mathlib.Logic.Function.Basic
import Mathlib.Data.List.Basic

namespace interleaving

/-- A program with one event-driven service thread and any number of
    application threads over a shared state `σ`. Code is cut into sections that
    run in one step: a frame of type `φ` (service thread) or `ψ` (application
    threads) is the code still to run from one such cut. `ε` are the events the
    idle service thread can be given and `α` the answers of the environment. -/
structure System (σ ε φ ψ α : Type) where
  /-- An event reaches the idle service thread and runs its first section. -/
  deliver : ε → σ → Option (List φ × σ)
  /-- The service thread runs the section of its top frame. -/
  svc : φ → α → σ → Option (List φ × σ)
  /-- Whether application thread `t` may call the function that starts at a frame. -/
  call : Nat → ψ → σ → Bool
  /-- An application thread runs the section of its top frame. -/
  app : ψ → α → σ → Option (List ψ × σ)

/-- The shared state and the frames every thread still has to run. -/
structure Config (σ φ ψ : Type) where
  shared : σ
  svc : List φ
  app : Nat → List ψ

inductive Label (ε ψ α : Type) where
  | event (e : ε)
  | svc (a : α)
  | call (t : Nat) (f : ψ)
  | app (t : Nat) (a : α)

variable {σ ε φ ψ α : Type}

/-- One step of one thread; `none` when the step is not enabled. -/
def System.step (P : System σ ε φ ψ α) (cfg : Config σ φ ψ) :
    Label ε ψ α → Option (Config σ φ ψ)
  | .event e =>
    match cfg.svc with
    | [] => (P.deliver e cfg.shared).map fun r => { cfg with shared := r.2, svc := r.1 }
    | _ :: _ => none
  | .svc a =>
    match cfg.svc with
    | [] => none
    | f :: rest => (P.svc f a cfg.shared).map fun r =>
        { cfg with shared := r.2, svc := r.1 ++ rest }
  | .call t f =>
    if (cfg.app t).isEmpty && P.call t f cfg.shared then
      some { cfg with app := Function.update cfg.app t [f] }
    else none
  | .app t a =>
    match cfg.app t with
    | [] => none
    | f :: rest => (P.app f a cfg.shared).map fun r =>
        { cfg with shared := r.2, app := Function.update cfg.app t (r.1 ++ rest) }

/-- The four shapes of a step, with the configuration taken apart. -/
inductive System.Moves (P : System σ ε φ ψ α) :
    Config σ φ ψ → Label ε ψ α → Config σ φ ψ → Prop where
  | event {e : ε} {s s' : σ} {app : Nat → List ψ} {fs : List φ} :
      P.deliver e s = some (fs, s') → P.Moves ⟨s, [], app⟩ (.event e) ⟨s', fs, app⟩
  | svc {f : φ} {a : α} {s s' : σ} {app : Nat → List ψ} {rest fs : List φ} :
      P.svc f a s = some (fs, s') → P.Moves ⟨s, f :: rest, app⟩ (.svc a) ⟨s', fs ++ rest, app⟩
  | call {t : Nat} {f : ψ} {s : σ} {svc : List φ} {app : Nat → List ψ} :
      app t = [] → P.call t f s = true →
        P.Moves ⟨s, svc, app⟩ (.call t f) ⟨s, svc, Function.update app t [f]⟩
  | app {t : Nat} {f : ψ} {a : α} {s s' : σ} {svc : List φ} {app : Nat → List ψ}
      {rest fs : List ψ} :
      app t = f :: rest → P.app f a s = some (fs, s') →
        P.Moves ⟨s, svc, app⟩ (.app t a) ⟨s', svc, Function.update app t (fs ++ rest)⟩

theorem System.step_moves {P : System σ ε φ ψ α} {cfg cfg' : Config σ φ ψ} {l : Label ε ψ α}
    (hstep : P.step cfg l = some cfg') : P.Moves cfg l cfg' := by
  obtain ⟨s, svc, app⟩ := cfg
  cases l with
  | event e =>
    cases svc with
    | nil =>
      simp only [System.step, Option.map_eq_some_iff] at hstep
      obtain ⟨⟨fs, s'⟩, hdeliver, rfl⟩ := hstep
      exact .event hdeliver
    | cons f rest => simp [System.step] at hstep
  | svc a =>
    cases svc with
    | nil => simp [System.step] at hstep
    | cons f rest =>
      simp only [System.step, Option.map_eq_some_iff] at hstep
      obtain ⟨⟨fs, s'⟩, hsvc, rfl⟩ := hstep
      exact .svc hsvc
  | call t f =>
    simp only [System.step, Bool.and_eq_true, List.isEmpty_iff, Option.ite_none_right_eq_some,
      Option.some.injEq] at hstep
    obtain ⟨⟨hidle, hcall⟩, rfl⟩ := hstep
    exact .call hidle hcall
  | app t a =>
    cases hframes : app t with
    | nil => simp [System.step, hframes] at hstep
    | cons f rest =>
      simp only [System.step, hframes, Option.map_eq_some_iff] at hstep
      obtain ⟨⟨fs, s'⟩, happ, rfl⟩ := hstep
      exact .app hframes happ

theorem System.Moves.step {P : System σ ε φ ψ α} {cfg cfg' : Config σ φ ψ} {l : Label ε ψ α}
    (hmove : P.Moves cfg l cfg') : P.step cfg l = some cfg' := by
  cases hmove with
  | event hdeliver => simp [System.step, hdeliver]
  | svc hsvc => simp [System.step, hsvc]
  | call hidle hcall => simp [System.step, hidle, hcall]
  | app htop happ => simp [System.step, htop, happ]

/-- Where a step leads; a step that is not enabled leads nowhere. -/
def System.after (P : System σ ε φ ψ α) (cfg : Config σ φ ψ) (l : Label ε ψ α) : Config σ φ ψ :=
  (P.step cfg l).getD cfg

theorem System.Moves.after {P : System σ ε φ ψ α} {cfg cfg' : Config σ φ ψ} {l : Label ε ψ α}
    (hmove : P.Moves cfg l cfg') : P.after cfg l = cfg' := by
  rw [System.after, hmove.step, Option.getD_some]

/-- `P.Reaches ok cfg cfg'`: a run leads from `cfg` to `cfg'` and each of its
    steps meets the condition `ok` in the configuration it is taken in. -/
inductive System.Reaches (P : System σ ε φ ψ α) (ok : Config σ φ ψ → Label ε ψ α → Prop)
    (cfg : Config σ φ ψ) : Config σ φ ψ → Prop where
  | refl : P.Reaches ok cfg cfg
  | step {mid last : Config σ φ ψ} {l : Label ε ψ α} :
      P.Reaches ok cfg mid → ok mid l → P.step mid l = some last → P.Reaches ok cfg last

/-- The condition that every step meets. -/
def Any (_ : Config σ φ ψ) (_ : Label ε ψ α) : Prop := True

theorem System.Reaches.trans {P : System σ ε φ ψ α} {ok : Config σ φ ψ → Label ε ψ α → Prop}
    {first mid last : Config σ φ ψ} (h₁ : P.Reaches ok first mid) (h₂ : P.Reaches ok mid last) :
    P.Reaches ok first last := by
  induction h₂ with
  | refl => exact h₁
  | step _ hok hstep ih => exact ih.step hok hstep

theorem System.Reaches.mono {P : System σ ε φ ψ α} {ok ok' : Config σ φ ψ → Label ε ψ α → Prop}
    (himp : ∀ cfg l, ok cfg l → ok' cfg l) {first last : Config σ φ ψ}
    (h : P.Reaches ok first last) : P.Reaches ok' first last := by
  induction h with
  | refl => exact .refl
  | step _ hok hstep ih => exact ih.step (himp _ _ hok) hstep

instance (cfg : Config σ φ ψ) (l : Label ε ψ α) : Decidable (Any cfg l) := .isTrue trivial

/-- `P.Follows ok cfg ls cfg'`: as `Reaches`, with the steps taken in order. -/
inductive System.Follows (P : System σ ε φ ψ α) (ok : Config σ φ ψ → Label ε ψ α → Prop)
    (cfg : Config σ φ ψ) : List (Label ε ψ α) → Config σ φ ψ → Prop where
  | nil : P.Follows ok cfg [] cfg
  | snoc {ls : List (Label ε ψ α)} {mid last : Config σ φ ψ} {l : Label ε ψ α} :
      P.Follows ok cfg ls mid → ok mid l → P.step mid l = some last →
        P.Follows ok cfg (ls ++ [l]) last

theorem System.Follows.reaches {P : System σ ε φ ψ α} {ok : Config σ φ ψ → Label ε ψ α → Prop}
    {ls : List (Label ε ψ α)} {first last : Config σ φ ψ} (h : P.Follows ok first ls last) :
    P.Reaches ok first last := by
  induction h with
  | nil => exact .refl
  | snoc _ hok hstep ih => exact ih.step hok hstep

theorem System.Follows.cons {P : System σ ε φ ψ α} {ok : Config σ φ ψ → Label ε ψ α → Prop}
    {ls : List (Label ε ψ α)} {first next last : Config σ φ ψ} {l : Label ε ψ α}
    (hok : ok first l) (hstep : P.step first l = some next) (h : P.Follows ok next ls last) :
    P.Follows ok first (l :: ls) last := by
  induction h with
  | nil => exact System.Follows.nil.snoc hok hstep
  | snoc _ hok' hstep' ih => exact ih.snoc hok' hstep'

theorem System.Follows.of_snoc {P : System σ ε φ ψ α} {ok : Config σ φ ψ → Label ε ψ α → Prop}
    {ls : List (Label ε ψ α)} {first last : Config σ φ ψ} {l : Label ε ψ α}
    (h : P.Follows ok first (ls ++ [l]) last) :
    ∃ mid, P.Follows ok first ls mid ∧ ok mid l ∧ P.step mid l = some last := by
  generalize hls : ls ++ [l] = ls' at h
  cases h with
  | nil => simp at hls
  | snoc hmid hok hstep =>
    obtain ⟨rfl, hl⟩ := List.append_inj' hls rfl
    obtain rfl := List.singleton_inj.mp hl
    exact ⟨_, hmid, hok, hstep⟩

/-- The labels of a run determine where it leads. -/
theorem System.Follows.unique {P : System σ ε φ ψ α}
    {ok ok' : Config σ φ ψ → Label ε ψ α → Prop} {ls : List (Label ε ψ α)}
    {first last last' : Config σ φ ψ} (h : P.Follows ok first ls last)
    (h' : P.Follows ok' first ls last') : last' = last := by
  induction h generalizing last' with
  | nil =>
    generalize hls : ([] : List (Label ε ψ α)) = ls' at h'
    cases h' with
    | nil => rfl
    | snoc _ _ _ => simp at hls
  | snoc _ _ hstep ih =>
    obtain ⟨mid', hmid', _, hstep'⟩ := h'.of_snoc
    rw [ih hmid', hstep, Option.some.injEq] at hstep'
    exact hstep'.symm

/-- The steps of a list of labels in order, each under the condition `ok`. -/
def System.run (P : System σ ε φ ψ α) (ok : Config σ φ ψ → Label ε ψ α → Prop)
    [∀ cfg l, Decidable (ok cfg l)] (cfg : Config σ φ ψ) :
    List (Label ε ψ α) → Option (Config σ φ ψ)
  | [] => some cfg
  | l :: ls => if ok cfg l then (P.step cfg l).bind fun next => P.run ok next ls else none

theorem System.Follows.of_run {P : System σ ε φ ψ α} {ok : Config σ φ ψ → Label ε ψ α → Prop}
    [∀ cfg l, Decidable (ok cfg l)] {ls : List (Label ε ψ α)} {first last : Config σ φ ψ}
    (hrun : P.run ok first ls = some last) : P.Follows ok first ls last := by
  induction ls generalizing first with
  | nil =>
    cases hrun
    exact .nil
  | cons l ls ih =>
    simp only [System.run, Option.ite_none_right_eq_some, Option.bind_eq_some_iff] at hrun
    obtain ⟨hok, next, hstep, hrest⟩ := hrun
    exact (ih hrest).cons hok hstep

/-- A run that ends in a configuration with a decidable property witnesses a
    reachable configuration that has it. -/
theorem System.exists_follows_of_run {P : System σ ε φ ψ α}
    {ok : Config σ φ ψ → Label ε ψ α → Prop} [∀ cfg l, Decidable (ok cfg l)]
    {ls : List (Label ε ψ α)} {first : Config σ φ ψ} {p : Config σ φ ψ → Prop} [DecidablePred p]
    (hrun : (P.run ok first ls).any (fun cfg => decide (p cfg)) = true) :
    ∃ last, P.Follows ok first ls last ∧ p last := by
  cases hlast : P.run ok first ls with
  | none => simp [hlast] at hrun
  | some last =>
    rw [hlast] at hrun
    exact ⟨last, .of_run hlast, by simpa using hrun⟩

/-- The same with a part `g` of the last configuration that has been computed. -/
theorem System.exists_follows_of_run_eq {γ : Type} {P : System σ ε φ ψ α}
    {ok : Config σ φ ψ → Label ε ψ α → Prop} [∀ cfg l, Decidable (ok cfg l)]
    {ls : List (Label ε ψ α)} {first : Config σ φ ψ} {p : Config σ φ ψ → Prop} [DecidablePred p]
    {g : Config σ φ ψ → γ} {x : γ} (hpart : (P.run ok first ls).map g = some x)
    (hrun : (P.run ok first ls).all (fun cfg => decide (p cfg)) = true) :
    ∃ last, P.Follows ok first ls last ∧ g last = x ∧ p last := by
  cases hlast : P.run ok first ls with
  | none => simp [hlast] at hpart
  | some last =>
    rw [hlast] at hpart hrun
    exact ⟨last, .of_run hlast, by simpa using hpart, by simpa using hrun⟩

/-- The application thread that takes the step. -/
def Label.thread : Label ε ψ α → Option Nat
  | .call t _ | .app t _ => some t
  | .event _ | .svc _ => none

/-- A thread that takes no step keeps its frames. -/
theorem System.Follows.app_eq {P : System σ ε φ ψ α} {ok : Config σ φ ψ → Label ε ψ α → Prop}
    {ls : List (Label ε ψ α)} {t : Nat} {first last : Config σ φ ψ}
    (h : P.Follows ok first ls last) (hls : ∀ l ∈ ls, l.thread ≠ some t) :
    last.app t = first.app t := by
  induction h with
  | nil => rfl
  | @snoc ls mid last l _ _ hstep ih =>
    have hl : l.thread ≠ some t := hls l (by simp)
    rw [← ih fun m hm => hls m (by simp [hm])]
    cases step_moves hstep with
    | event _ => rfl
    | svc _ => rfl
    | call _ _ => exact Function.update_of_ne (fun heq => hl (by simp [Label.thread, heq])) _ _
    | app _ _ => exact Function.update_of_ne (fun heq => hl (by simp [Label.thread, heq])) _ _

/-- In a run of the threads below `n`, the others stay idle. -/
theorem System.Follows.idle {P : System σ ε φ ψ α} {ok : Config σ φ ψ → Label ε ψ α → Prop}
    {ls : List (Label ε ψ α)} {n : Nat} {first last : Config σ φ ψ}
    (h : P.Follows ok first ls last) (hfirst : ∀ t, first.app t = [])
    (hls : (ls.all fun l => l.thread.all (· < n)) = true)
    (hlast : ((List.range n).all fun t => (last.app t).isEmpty) = true) (t : Nat) :
    last.app t = [] := by
  by_cases ht : t < n
  · simpa using List.all_eq_true.mp hlast t (List.mem_range.mpr ht)
  · rw [h.app_eq (t := t) fun l hl hthread => ?_, hfirst]
    have hlt := List.all_eq_true.mp hls l hl
    rw [hthread] at hlt
    exact ht (by simpa using hlt)

/-- The invariant rule: a property of the first configuration that every
    permitted step preserves holds in every configuration reached. -/
theorem System.Reaches.invariant {P : System σ ε φ ψ α}
    {ok : Config σ φ ψ → Label ε ψ α → Prop} {I : Config σ φ ψ → Prop}
    {first last : Config σ φ ψ} (hreach : P.Reaches ok first last) (hfirst : I first)
    (hstep : ∀ cfg l cfg', ok cfg l → P.Moves cfg l cfg' → I cfg → I cfg') : I last := by
  induction hreach with
  | refl => exact hfirst
  | step _ hok h ih => exact hstep _ _ _ hok (step_moves h) ih

/-- The invariant rule for a property that also speaks of the steps taken. -/
theorem System.Follows.invariant {P : System σ ε φ ψ α}
    {ok : Config σ φ ψ → Label ε ψ α → Prop} {I : List (Label ε ψ α) → Config σ φ ψ → Prop}
    {ls : List (Label ε ψ α)} {first last : Config σ φ ψ} (h : P.Follows ok first ls last)
    (hfirst : I [] first)
    (hstep : ∀ ls cfg l cfg', ok cfg l → P.Moves cfg l cfg' → I ls cfg → I (ls ++ [l]) cfg') :
    I ls last := by
  induction h with
  | nil => exact hfirst
  | snoc _ hok h ih => exact hstep _ _ _ _ hok (step_moves h) ih

/-- The invariant rule relative to a property `J` already known of every
    configuration reached. -/
theorem System.Reaches.invariant_under {P : System σ ε φ ψ α}
    {ok : Config σ φ ψ → Label ε ψ α → Prop} {I J : Config σ φ ψ → Prop}
    {first last : Config σ φ ψ} (hreach : P.Reaches ok first last)
    (hknown : ∀ cfg, P.Reaches ok first cfg → J cfg) (hfirst : I first)
    (hstep : ∀ cfg l cfg', J cfg → ok cfg l → P.Moves cfg l cfg' → I cfg → I cfg') : I last := by
  induction hreach with
  | refl => exact hfirst
  | step hmid hok h ih => exact hstep _ _ _ (hknown _ hmid) hok (step_moves h) ih

/-- Frames of the threads other than the one that moved are unchanged. -/
theorem mem_update_app {app : Nat → List ψ} {t u : Nat} {fs : List ψ} {f : ψ} :
    f ∈ Function.update app t fs u ↔ (u = t ∧ f ∈ fs) ∨ (u ≠ t ∧ f ∈ app u) := by
  by_cases h : u = t
  · subst h
    simp
  · simp [h]

/-- A program at rest: its shared state is `quiet`, the service thread runs nothing,
    and the application threads run frames with the property `keeps` only. -/
structure Rests (quiet : σ → Prop) (keeps : ψ → Bool) (cfg : Config σ φ ψ) : Prop where
  shared : quiet cfg.shared
  svc : cfg.svc = []
  app : ∀ t, ∀ f ∈ cfg.app t, keeps f = true

/-- A quiet state lets no event in, and stays quiet under the calls that meet `ok`. -/
structure System.StaysQuiet (P : System σ ε φ ψ α) (ok : Config σ φ ψ → Label ε ψ α → Prop)
    (quiet : σ → Prop) (keeps : ψ → Bool) : Prop where
  deliver : ∀ {s : σ}, quiet s → ∀ e, P.deliver e s = none
  call : ∀ {cfg : Config σ φ ψ} {t : Nat} {f : ψ}, ok cfg (.call t f) →
    P.call t f cfg.shared = true → keeps f = true
  app : ∀ {f : ψ} {a : α} {s s' : σ} {fs : List ψ}, P.app f a s = some (fs, s') →
    keeps f = true → quiet s → quiet s' ∧ ∀ g ∈ fs, keeps g = true

section rests

variable {P : System σ ε φ ψ α} {ok : Config σ φ ψ → Label ε ψ α → Prop} {quiet : σ → Prop}
  {keeps : ψ → Bool} {cfg cfg' : Config σ φ ψ} {l : Label ε ψ α}

theorem Rests.no_event (hrests : Rests quiet keeps cfg) (hquiet : P.StaysQuiet ok quiet keeps)
    (e : ε) : P.step cfg (.event e) = none := by
  simp [System.step, hrests.svc, hquiet.deliver hrests.shared]

theorem Rests.step (hrests : Rests quiet keeps cfg) (hquiet : P.StaysQuiet ok quiet keeps)
    (hok : ok cfg l) (hmove : P.Moves cfg l cfg') : Rests quiet keeps cfg' := by
  obtain ⟨hshared, hsvc, hframes⟩ := hrests
  cases hmove with
  | event hdeliver =>
    rw [hquiet.deliver hshared] at hdeliver
    cases hdeliver
  | svc _ => cases hsvc
  | call _ hcall =>
    refine ⟨hshared, hsvc, fun u g hg => ?_⟩
    rcases mem_update_app.mp hg with ⟨_, hmem⟩ | ⟨_, hmem⟩
    · obtain rfl := List.mem_singleton.mp hmem
      exact hquiet.call hok hcall
    · exact hframes u g hmem
  | @app t f _ _ _ _ _ rest fs htop happ =>
    have hf : keeps f = true := hframes t f (by simp [htop])
    obtain ⟨hshared', hfs⟩ := hquiet.app happ hf hshared
    refine ⟨hshared', hsvc, fun u g hg => ?_⟩
    rcases mem_update_app.mp hg with ⟨_, hmem⟩ | ⟨_, hmem⟩
    · rcases List.mem_append.mp hmem with hpushed | hrest
      · exact hfs g hpushed
      · exact hframes t g (by simp [htop, hrest])
    · exact hframes u g hmem

/-- What is at rest stays at rest. -/
theorem System.Reaches.rests (hreach : P.Reaches ok cfg cfg')
    (hquiet : P.StaysQuiet ok quiet keeps) (hrests : Rests quiet keeps cfg) :
    Rests quiet keeps cfg' :=
  hreach.invariant hrests fun _ _ _ hok hmove h => h.step hquiet hok hmove

end rests

/-- Some application thread still has to run a frame with property `p`. -/
def Pending (app : Nat → List ψ) (p : ψ → Prop) : Prop := ∃ t, ∃ f ∈ app t, p f

/-- A thread that pushes a frame with the property makes it pending. -/
theorem Pending.of_pushed {app : Nat → List ψ} {p : ψ → Prop} {t : Nat} {fs : List ψ} {f : ψ}
    (hf : f ∈ fs) (hp : p f) : Pending (Function.update app t fs) p :=
  ⟨t, f, by simpa using hf, hp⟩

/-- Replacing a top frame that lacks the property keeps a pending frame pending. -/
theorem Pending.update {app : Nat → List ψ} {p : ψ → Prop} {t : Nat} {f : ψ} {rest : List ψ}
    (htop : app t = f :: rest) (hf : ¬ p f) (h : Pending app p) (fs : List ψ) :
    Pending (Function.update app t (fs ++ rest)) p := by
  obtain ⟨u, g, hg, hp⟩ := h
  refine ⟨u, g, ?_, hp⟩
  rw [mem_update_app]
  by_cases hu : u = t
  · subst hu
    rw [htop] at hg
    cases hg with
    | head => exact absurd hp hf
    | tail _ hrest => exact .inl ⟨rfl, List.mem_append_right _ hrest⟩
  · exact .inr ⟨hu, hg⟩

/-- A call by an idle thread keeps a pending frame pending. -/
theorem Pending.call {app : Nat → List ψ} {p : ψ → Prop} {t : Nat} {f : ψ}
    (hidle : app t = []) (h : Pending app p) : Pending (Function.update app t [f]) p := by
  obtain ⟨u, g, hg, hp⟩ := h
  have hu : u ≠ t := by
    rintro rfl
    simp [hidle] at hg
  exact ⟨u, g, by simpa [Function.update_of_ne hu] using hg, hp⟩

/-- Each thread runs one frame at a time, and the threads other than the owner,
    thread 0, run frames with the property `guest` only. -/
structure SoleOwner (guest : ψ → Bool) (app : Nat → List ψ) : Prop where
  single : ∀ t, (app t).length ≤ 1
  others : ∀ t, t ≠ 0 → ∀ f ∈ app t, guest f = true

variable {guest : ψ → Bool} {app : Nat → List ψ} {t : Nat} {f : ψ}

theorem SoleOwner.idle : SoleOwner guest fun _ => [] :=
  ⟨fun _ => by simp, fun _ _ _ hf => by cases hf⟩

/-- A thread has nothing to run behind its top frame. -/
theorem SoleOwner.rest_nil (h : SoleOwner guest app) {rest : List ψ} (htop : app t = f :: rest) :
    rest = [] := by
  have hlen := h.single t
  rw [htop] at hlen
  simpa using hlen

theorem SoleOwner.guest_of_ne (h : SoleOwner guest app) (htop : app t = [f]) (ht : t ≠ 0) :
    guest f = true :=
  h.others t ht f (by simp [htop])

theorem SoleOwner.update (h : SoleOwner guest app) {fs : List ψ} (hlen : fs.length ≤ 1)
    (hfs : t ≠ 0 → ∀ g ∈ fs, guest g = true) : SoleOwner guest (Function.update app t fs) := by
  refine ⟨fun u => ?_, fun u hu g hg => ?_⟩
  · by_cases hu : u = t
    · subst hu
      simpa using hlen
    · simpa [Function.update_of_ne hu] using h.single u
  · rcases mem_update_app.mp hg with ⟨heq, hmem⟩ | ⟨_, hmem⟩
    · exact hfs (heq ▸ hu) g hmem
    · exact h.others u hu g hmem

/-- At most one frame of all threads has the property `p`. -/
structure Exclusive (p : ψ → Bool) (app : Nat → List ψ) : Prop where
  single : ∀ t, (app t).countP p ≤ 1
  same : ∀ {t u : Nat}, 0 < (app t).countP p → 0 < (app u).countP p → t = u

variable {p : ψ → Bool}

theorem countP_update_app_le {fs : List ψ} (hle : fs.countP p ≤ (app t).countP p) (u : Nat) :
    (Function.update app t fs u).countP p ≤ (app u).countP p := by
  by_cases hu : u = t
  · subst hu
    simpa using hle
  · exact Nat.le_of_eq (by rw [Function.update_of_ne hu])

/-- The frames of one thread are replaced, and none of them has the property. -/
theorem countP_update_app {fs : List ψ} (u : Nat) (hothers : ∀ u, u ≠ t → (app u).countP p = 0)
    (hfs : fs.countP p = 0) : (Function.update app t fs u).countP p = 0 := by
  by_cases hu : u = t
  · subst hu
    simpa using hfs
  · rw [Function.update_of_ne hu]
    exact hothers u hu

theorem Exclusive.others (h : Exclusive p app) (ht : 0 < (app t).countP p) {u : Nat} (hu : u ≠ t) :
    (app u).countP p = 0 := by
  by_contra hne
  exact hu (h.same (Nat.pos_of_ne_zero hne) ht)

/-- Two frames with the property are one frame. -/
theorem Exclusive.eq (h : Exclusive p app) {u : Nat} {g : ψ} (hf : f ∈ app t) (hpf : p f = true)
    (hg : g ∈ app u) (hpg : p g = true) : f = g := by
  have htu : t = u := h.same (List.countP_pos_iff.mpr ⟨f, hf, hpf⟩) (List.countP_pos_iff.mpr ⟨g, hg, hpg⟩)
  subst htu
  have hlen := h.single t
  rw [List.countP_eq_length_filter] at hlen
  have hf' : f ∈ (app t).filter p := List.mem_filter.mpr ⟨hf, hpf⟩
  have hg' : g ∈ (app t).filter p := List.mem_filter.mpr ⟨hg, hpg⟩
  match hfilter : (app t).filter p with
  | [] => simp [hfilter] at hf'
  | [k] =>
    rw [hfilter] at hf' hg'
    rw [List.mem_singleton.mp hf', List.mem_singleton.mp hg']
  | _ :: _ :: _ => simp [hfilter] at hlen

theorem Exclusive.idle : Exclusive p fun _ => [] :=
  ⟨fun _ => by simp, fun ht => by simp at ht⟩

/-- A thread passes the frame on, or drops it. -/
theorem Exclusive.update (h : Exclusive p app) {fs : List ψ}
    (hle : fs.countP p ≤ (app t).countP p) : Exclusive p (Function.update app t fs) := by
  have hcount := countP_update_app_le hle
  exact ⟨fun u => Nat.le_trans (hcount u) (h.single u), fun ht hu =>
    h.same (Nat.lt_of_lt_of_le ht (hcount _)) (Nat.lt_of_lt_of_le hu (hcount _))⟩

/-- When no thread has such a frame, one may take it. -/
theorem Exclusive.take {fs : List ψ} (hnone : ∀ u, (app u).countP p = 0)
    (hone : fs.countP p ≤ 1) : Exclusive p (Function.update app t fs) := by
  have hwho : ∀ {u}, 0 < (Function.update app t fs u).countP p → u = t := by
    intro u hpos
    by_contra hu
    rw [Function.update_of_ne hu, hnone u] at hpos
    omega
  refine ⟨fun u => ?_, fun ht hu => (hwho ht).trans (hwho hu).symm⟩
  by_cases hu : u = t
  · subst hu
    simpa using hone
  · rw [Function.update_of_ne hu, hnone u]
    omega

/-- When the thread that has the frame gives it up, no thread has one. -/
theorem Exclusive.release (h : Exclusive p app) (ht : 0 < (app t).countP p) {fs : List ψ}
    (hfs : fs.countP p = 0) (u : Nat) : (Function.update app t fs u).countP p = 0 :=
  countP_update_app u (fun _ hu => h.others ht hu) hfs

/-- What is observed of the steps of a run, in order. -/
def System.observe {β : Type} (P : System σ ε φ ψ α) (obs : Config σ φ ψ → Label ε ψ α → List β)
    (cfg : Config σ φ ψ) : List (Label ε ψ α) → List β
  | [] => []
  | l :: ls => obs cfg l ++ ((P.step cfg l).map fun next => P.observe obs next ls).getD []

variable {β : Type} {P : System σ ε φ ψ α} {ok : Config σ φ ψ → Label ε ψ α → Prop}
  {obs : Config σ φ ψ → Label ε ψ α → List β} {first mid : Config σ φ ψ} {ls : List (Label ε ψ α)}

theorem System.Follows.observe_append (h : P.Follows ok first ls mid) (ms : List (Label ε ψ α)) :
    P.observe obs first (ls ++ ms) = P.observe obs first ls ++ P.observe obs mid ms := by
  induction h generalizing ms with
  | nil => rfl
  | @snoc ls mid last l _ _ hstep ih =>
    have hlast : P.observe obs mid [l] = obs mid l := by
      simp [System.observe, hstep]
    have hcons : P.observe obs mid (l :: ms) = obs mid l ++ P.observe obs last ms := by
      simp [System.observe, hstep]
    rw [List.append_assoc, List.singleton_append, ih, ih, hlast, hcons, List.append_assoc]

theorem System.Follows.observe_snoc (h : P.Follows ok first ls mid) (l : Label ε ψ α) :
    P.observe obs first (ls ++ [l]) = P.observe obs first ls ++ obs mid l := by
  rw [h.observe_append]
  cases hstep : P.step mid l <;> simp [System.observe, hstep]

/-- The invariant rule for what is observed of the steps, relative to a property
    `J` already known of every configuration reached. -/
theorem System.Follows.observed {I : List β → Config σ φ ψ → Prop} {J : Config σ φ ψ → Prop}
    {last : Config σ φ ψ} (h : P.Follows ok first ls last)
    (hknown : ∀ cfg, P.Reaches ok first cfg → J cfg) (hfirst : I [] first)
    (hstep : ∀ bs cfg l cfg', J cfg → ok cfg l → P.Moves cfg l cfg' → I bs cfg →
      I (bs ++ obs cfg l) cfg') : I (P.observe obs first ls) last := by
  induction h with
  | nil => exact hfirst
  | @snoc ls mid last l hmid hok h ih =>
    rw [hmid.observe_snoc]
    exact hstep _ _ _ _ (hknown _ hmid.reaches) hok (step_moves h) ih

end interleaving
