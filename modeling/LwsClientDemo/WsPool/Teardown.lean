import LwsClientDemo.WsPool.Milestones
import LwsClientDemo.WsPool.Registry

open interleaving

namespace lws_client.ws_pool

variable {s s' : Sys} {cfg cfg' : Config} {l : Label} {c d : ClientId}

/-- What only grows in a run: the clients of the pool, and the calls made. -/
structure Grows (s s' : Sys) : Prop where
  clients : s.pool.clients <+: s'.pool.clients
  trace : ∀ c, s.trace c <+: s'.trace c

theorem Grows.of_moves (hmove : system.Moves cfg l cfg') : Grows cfg.shared cfg'.shared := by
  refine ⟨?_, trace_grows hmove⟩
  cases hmove with
  | event hdeliver => rw [deliver_pool hdeliver]
  | svc hsvc =>
    rcases svc_pool hsvc with hpool | ⟨_, _, hs'⟩
    · rw [hpool]
    · dsimp only
      rw [hs']
      exact List.prefix_rfl
  | call _ _ => exact List.prefix_rfl
  | app htop happ =>
    cases app_registers happ with
    | same _ hs _ | start _ hs _ | clear _ hs _ => rw [hs.clients]
    | add _ hclients _ _ => exact hclients ▸ List.prefix_append _ _

theorem Grows.of_reaches {ok : Config → Label → Prop} (h : system.Reaches ok cfg cfg') :
    Grows cfg.shared cfg'.shared := by
  refine h.invariant (I := fun mid => Grows cfg.shared mid.shared)
    ⟨List.prefix_rfl, fun _ => List.prefix_rfl⟩ fun _ _ _ _ hmove hbefore => ?_
  have hstep := Grows.of_moves hmove
  exact ⟨hbefore.clients.trans hstep.clients, fun c => (hbefore.trace c).trans (hstep.trace c)⟩

/-- No client of the pool has been released. -/
def Forgotten (s : Sys) : Prop :=
  ∀ c, c ∈ s.pool.clients ∨ c ∈ s.pool.pending → destroys (s.trace c) = 0

theorem destroy_client_destroys (h : s.destroy_client c = some s') (d : ClientId) :
    destroys (s'.trace d) = destroys (s.trace d) + if d = c then 1 else 0 := by
  have hone : s.destroy_all [c] = some s' := by simp [Sys.destroy_all, h]
  rw [destroy_all_destroys hone, List.count_singleton]
  by_cases hd : d = c
  · simp [hd]
  · simp [hd, Ne.symm hd]

/-- The pool goes on to read, stop and release a client that was stopped and
    released while it was registered. -/
theorem released_never_forgotten {mid : Config} {t : Nat} {a : Answer}
    (hclient : c ∈ cfg.shared.pool.clients) (htop : cfg.app t = [.wsp_client_destroy c])
    (hstep : system.step cfg (.app t a) = some mid) (hreach : system.Reaches Any mid cfg') :
    ¬ Forgotten cfg'.shared ∧
      (∀ {b next rest}, cfg'.svc = .wc_snapshot :: rest →
        system.step cfg' (.svc b) = some next → ∃ snap, c ∈ snap ∧ next.svc = .wc_visit snap :: rest) ∧
      ∀ {b next rest}, cfg'.app 0 = .wsp_pool_destroy :: rest →
        system.step cfg' (.app 0 b) = some next → ∃ snap, c ∈ snap ∧
          next.app 0 = [.destroy_stop snap, .destroy_thread, .destroy_clients snap,
            .destroy_pending snap] ++ rest := by
  have hgrows := Grows.of_reaches hreach
  have hmem : c ∈ cfg'.shared.pool.clients := by
    have hstay := Grows.of_moves (System.step_moves hstep)
    exact hgrows.clients.subset (hstay.clients.subset hclient)
  refine ⟨fun hforgotten => ?_, fun hsvc hnext => ?_, fun hdestroy hnext => ?_⟩
  · have hreleased : 0 < destroys (mid.shared.trace c) := by
      cases System.step_moves hstep with
      | @app _ f a s s' svc app rest fs htop' happ =>
        have happ' : app t = [.wsp_client_destroy c] := htop
        rw [happ', List.cons.injEq] at htop'
        obtain ⟨rfl, _⟩ := htop'
        simp only [system, Sys.app, Option.map_eq_some_iff, Prod.mk.injEq] at happ
        obtain ⟨_, hdestroy, _, rfl⟩ := happ
        dsimp only
        rw [destroy_client_destroys hdestroy, if_pos rfl]
        omega
    have hlater : destroys (mid.shared.trace c) ≤ destroys (cfg'.shared.trace c) :=
      (hgrows.trace c).sublist.countP_le
    have hnone := hforgotten c (.inl hmem)
    omega
  · cases System.step_moves hnext with
    | svc happ =>
      cases hsvc
      cases happ
      exact ⟨_, hmem, rfl⟩
  · cases System.step_moves hnext with
    | app htop' happ =>
      dsimp only at hdestroy
      rw [hdestroy, List.cons.injEq] at htop'
      obtain ⟨rfl, rfl⟩ := htop'
      cases happ
      exact ⟨_, hmem, by simp⟩

/-- Client 0 is added to the started pool and stopped after its first connection
    attempt has been refused. -/
def stopped_run : List Label :=
  [.call 0 .wsp_pool_start, .app 0 {}, .app 0 {}, .app 0 {}, .app 0 {}, .event .service_thread,
    .call 1 (.wsp_pool_add 0), .app 1 {}, .app 1 {}, .app 1 {},
    .event (.event_wait_cancelled true), .svc {}, .svc {}, .svc {}, .svc {}, .svc {}, .svc {},
    .svc {}, .svc {}, .svc {}, .svc {},
    .call 1 (.wsp_client_stop 0), .app 1 {}, .app 1 {}, .app 1 {}, .app 1 {},
    .call 1 (.wsp_client_destroy 0)]

/-- The pool is destroyed after client 0 has been released. -/
def destroy_run : List Label :=
  [.call 0 .wsp_pool_destroy, .app 0 {}, .app 0 {}, .app 0 {}, .app 0 {}, .app 0 {}, .event .exit,
    .app 0 {}, .app 0 {}, .app 0 {}, .event .context_destroyed, .app 0 {}, .app 0 {}, .app 0 {},
    .app 0 {}, .app 0 {}]

theorem released_never_forgotten_stopped :
    ∃ cfg mid cfg' : Config, Reachable cfg ∧ system.step cfg (.app 1 {}) = some mid ∧
      system.Reaches Any mid cfg' ∧ ¬ Forgotten cfg'.shared := by
  obtain ⟨cfg, hfollows, hrelease, hclient, hnext⟩ :
      ∃ cfg, system.Follows Any (initial fresh_client) stopped_run cfg ∧
        cfg.app 1 = [.wsp_client_destroy 0] ∧ 0 ∈ cfg.shared.pool.clients ∧
        (system.step cfg (.app 1 {})).isSome = true :=
    System.exists_follows_of_run_eq (g := fun cfg => cfg.app 1) rfl (by decide)
  obtain ⟨mid, hstep⟩ := Option.isSome_iff_exists.mp hnext
  exact ⟨cfg, mid, mid, ⟨_, fun _ => wsp_client_create_fresh _ _ _ _, hfollows.reaches⟩, hstep, .refl,
    (released_never_forgotten hclient hrelease hstep .refl).1⟩

/-- A client that its owner released is still in the pool, and is released again
    by `wsp_pool_destroy`. -/
theorem released_twice : ∃ cfg cfg' : Config, Reachable cfg ∧ cfg.shared.freed = false ∧
    ¬ Forgotten cfg.shared ∧ system.Reaches Any cfg cfg' ∧ destroys (cfg'.shared.trace 0) = 2 := by
  obtain ⟨cfg, hfollows, hfreed, hclient, hreleased, hrest⟩ :
      ∃ cfg, system.Follows Any (initial fresh_client) (stopped_run ++ [.app 1 {}]) cfg ∧
        cfg.shared.freed = false ∧ 0 ∈ cfg.shared.pool.clients ∧
        destroys (cfg.shared.trace 0) = 1 ∧
        ((system.run Any cfg destroy_run).any fun cfg' =>
          decide (destroys (cfg'.shared.trace 0) = 2)) = true :=
    System.exists_follows_of_run (by decide)
  obtain ⟨cfg', hdestroy, htwice⟩ := System.exists_follows_of_run hrest
  refine ⟨cfg, cfg', ⟨_, fun _ => wsp_client_create_fresh _ _ _ _, hfollows.reaches⟩, hfreed,
    fun hforgotten => ?_, hdestroy.reaches, htwice⟩
  have hnone := hforgotten 0 (.inl hclient)
  omega

/-- The releases of client `c` that a frame of `wsp_pool_destroy` has ahead, the
    last loop apart. -/
def AppFrame.owes (c : ClientId) : AppFrame → Nat
  | .wsp_client_destroy d => ([d]).count c
  | .destroy_clients snap => snap.count c
  | _ => 0

def owed (c : ClientId) (fs : List AppFrame) : Nat := (fs.map (AppFrame.owes c)).sum

@[simp] theorem owed_nil : owed c [] = 0 := rfl

@[simp] theorem owed_cons (f : AppFrame) (fs : List AppFrame) :
    owed c (f :: fs) = f.owes c + owed c fs := by
  simp [owed]

@[simp] theorem owed_append (fs gs : List AppFrame) : owed c (fs ++ gs) = owed c fs + owed c gs := by
  simp [owed]

/-- The copy of `clients` that `wsp_pool_destroy` has taken. -/
def AppFrame.copy : AppFrame → Option (List ClientId)
  | .destroy_pending snap => some snap
  | _ => none

/-- The sections that release no client. -/
theorem Marks.destroys_eq {f : AppFrame} (h : Marks s s' c f) (hcopy : f.copy = .none)
    (hf : f.owes c = 0) : destroys (s'.trace c) = destroys (s.trace c) := by
  have hnone : ∀ {acts : List Act}, Every (fun act => !Act.milestone act) acts →
      destroys acts = 0 := by
    intro acts hacts
    have hsame : Unmarked s { s with trace := fun _ => s.trace c ++ acts } c := ⟨acts, rfl, hacts⟩
    have hkept := hsame.destroys
    rw [destroys_append] at hkept
    omega
  cases h with
  | none hacts => exact hacts.destroys
  | times_out htrace =>
    rw [htrace, destroys_append]
    rfl
  | returns htrace hacts =>
    rw [htrace, destroys_append, destroys_append, hnone hacts]
    rfl
  | destroy _ _ => simp [AppFrame.owes] at hf
  | destroy_all _ _ => cases hcopy

/-- A section makes the releases it owed, or leaves them to the frames it pushes. -/
theorem app_owes {f : AppFrame} {a : Answer} {fs : List AppFrame}
    (h : s.app f a = some (fs, s')) (hcopy : f.copy = none) (hf : f ≠ .wsp_pool_destroy)
    (c : ClientId) :
    destroys (s'.trace c) + owed c fs = destroys (s.trace c) + f.owes c ∧
      ∀ g ∈ fs, g.copy = none := by
  have hleads := app_leads h
  have hmarks := app_marks h c
  cases f with
  | wsp_client_destroy d =>
    simp only [Sys.app, Option.map_eq_some_iff, Prod.mk.injEq] at h
    obtain ⟨_, hdestroy, rfl, rfl⟩ := h
    rw [destroy_client_destroys hdestroy, AppFrame.owes, List.count_singleton]
    by_cases hc : c = d
    · simp [hc]
    · simp [hc, Ne.symm hc]
  | destroy_clients snap =>
    cases snap with
    | nil =>
      cases h
      simp [AppFrame.owes]
    | cons d snap =>
      cases h
      refine ⟨?_, by simp [AppFrame.copy]⟩
      simp only [owed_cons, owed_nil, AppFrame.owes, List.count_cons, List.count_nil]
      omega
  | wsp_pool_destroy => exact absurd rfl hf
  | destroy_pending snap => cases hcopy
  | destroy_stop snap =>
    rw [hmarks.destroys_eq rfl rfl]
    cases snap <;> cases h <;> simp [AppFrame.owes, AppFrame.copy]
  | enqueue d data is_binary =>
    rw [hmarks.destroys_eq rfl rfl]
    cases data <;> cases h <;> simp [AppFrame.owes, AppFrame.copy]
  | _ =>
    rw [hmarks.destroys_eq rfl rfl]
    simp only [AppFrame.leads, List.mem_cons, List.not_mem_nil, or_false] at hleads
    rcases hleads with rfl | rfl <;> simp [AppFrame.owes, AppFrame.copy]

/-- The users of the pool leave the release of its clients to `wsp_pool_destroy`. -/
def NoRelease (_ : Config) (l : Label) : Prop := (l matches .call _ (.wsp_client_destroy _)) = false

instance (cfg : Config) (l : Label) : Decidable (NoRelease cfg l) :=
  inferInstanceAs (Decidable ((l matches .call _ (.wsp_client_destroy _)) = false))

theorem app_live {f : AppFrame} {a : Answer} {fs : List AppFrame} (h : s.app f a = some (fs, s'))
    (hcopy : f.copy = none) : s'.freed = s.freed := by
  refine (app_freed h).resolve_right fun ⟨snap, hf, _⟩ => ?_
  rw [hf] at hcopy
  cases hcopy

/-- The first and the last frame of `wsp_pool_destroy` have nothing behind them. -/
theorem Owner.alone {f : AppFrame} {rest : List AppFrame} (h : Owner (f :: rest) s)
    (hf : f = .wsp_pool_destroy ∨ f.copy.isSome = true) : rest = [] := by
  have hguest : f.guest = false := by
    rcases hf with rfl | hf
    · rfl
    · cases f <;> first | rfl | cases hf
  generalize hstack : f :: rest = stack at h
  cases h with
  | guests hall _ =>
    subst hstack
    rw [hall f (List.mem_cons_self ..)] at hguest
    cases hguest
  | @stop pre rem snap _ hpre _ | @free pre rem snap _ hpre _ =>
    cases pre with
    | nil =>
      cases hstack
      rcases hf with hf | hf <;> cases hf
    | cons g pre =>
      rw [List.cons_append, List.cons.injEq] at hstack
      rw [hstack.1, hpre g (List.mem_cons_self ..)] at hguest
      cases hguest
  | join hpre _ _ =>
    rcases hpre with rfl | rfl <;> cases hstack <;> rcases hf with hf | hf <;> cases hf
  | thread _ | context _ | context_return _ =>
    cases hstack
    rcases hf with hf | hf <;> cases hf
  | freed hnil _ _ =>
    rw [hnil] at hstack
    cases hstack
  | _ =>
    cases hstack
    rfl

/-- The releases of client `c` that the teardown has made and those its stack has
    ahead add up to its copy of `clients`; before it there are none. -/
structure Accounts (c : ClientId) (stack : List AppFrame) (s : Sys) : Prop where
  live : stack ≠ [] → s.freed = false
  before : s.freed = false → (∀ f ∈ stack, f.copy = none) →
    destroys (s.trace c) = 0 ∧ owed c stack = 0
  during : ∀ f ∈ stack, ∀ snap, f.copy = some snap → snap <+: s.pool.clients ∧
    destroys (s.trace c) + owed c stack = snap.count c

/-- The other threads leave the account as it is. -/
theorem Accounts.keep {stack : List AppFrame} (h : Accounts c stack s) (hfreed : s'.freed = s.freed)
    (hgrows : Grows s s') (hsame : destroys (s'.trace c) = destroys (s.trace c)) :
    Accounts c stack s' := by
  refine ⟨fun hne => hfreed.trans (h.live hne), fun hnot hnone => ?_, fun f hf snap hsnap => ?_⟩
  · rw [hsame]
    exact h.before (hfreed ▸ hnot) hnone
  · obtain ⟨hcopied, hsum⟩ := h.during f hf snap hsnap
    exact ⟨hcopied.trans hgrows.clients, hsame ▸ hsum⟩

/-- A call starts with nothing to release. -/
theorem Accounts.call {f : AppFrame} (h : Accounts c [] s) (hfreed : s.freed = false)
    (hf : f.owes c = 0) (hcopy : f.copy = none) : Accounts c [f] s := by
  refine ⟨fun _ => hfreed, fun _ _ => ⟨(h.before hfreed (by simp)).1, by simp [hf]⟩,
    fun g hg snap hsnap => ?_⟩
  obtain rfl := List.mem_singleton.mp hg
  rw [hcopy] at hsnap
  cases hsnap

theorem Accounts.app {f : AppFrame} {a : Answer} {fs rest : List AppFrame}
    (h : Accounts c (f :: rest) s) (howner : Owner (f :: rest) s) (hgrows : Grows s s')
    (happ : s.app f a = some (fs, s')) : Accounts c (fs ++ rest) s' := by
  by_cases hlast : f.copy.isSome = true
  · -- The pool is freed.
    obtain rfl := howner.alone (.inr hlast)
    cases f <;> cases hlast
    simp only [Sys.app, Option.map_eq_some_iff, Prod.mk.injEq] at happ
    obtain ⟨_, _, rfl, rfl⟩ := happ
    exact ⟨fun hne => absurd rfl hne, fun hnot => (by cases hnot), fun g hg => (by cases hg)⟩
  · have hcopy : f.copy = none := by simpa using hlast
    have hlive := h.live (by simp)
    by_cases hfirst : f = .wsp_pool_destroy
    · -- The copy is taken, and nothing has been released so far.
      subst hfirst
      obtain rfl := howner.alone (.inl rfl)
      cases happ
      have hzero := h.before hlive fun g hg => by
        obtain rfl := List.mem_singleton.mp hg
        rfl
      refine ⟨fun _ => hlive, fun _ hnone => ?_, fun g hg snap hsnap => ?_⟩
      · have hsome := hnone (.destroy_pending s.pool.clients) (by simp)
        cases hsome
      · simp only [List.append_nil, List.mem_cons, List.not_mem_nil, or_false] at hg
        rcases hg with rfl | rfl | rfl | rfl <;> cases hsnap
        refine ⟨List.prefix_rfl, ?_⟩
        rw [hzero.1]
        simp [AppFrame.owes]
    · obtain ⟨hmoved, hfs⟩ := app_owes happ hcopy hfirst c
      refine ⟨fun _ => (app_live happ hcopy).trans hlive, fun _ hnone => ?_,
        fun g hg snap hsnap => ?_⟩
      · obtain ⟨hzero, howed⟩ := h.before hlive fun g hg => by
          rcases List.mem_cons.mp hg with rfl | hg
          · exact hcopy
          · exact hnone g (List.mem_append_right _ hg)
        rw [owed_cons] at howed
        rw [owed_append]
        omega
      · rcases List.mem_append.mp hg with hg | hg
        · rw [hfs g hg] at hsnap
          cases hsnap
        · obtain ⟨hcopied, hsum⟩ := h.during g (List.mem_cons_of_mem _ hg) snap hsnap
          refine ⟨hcopied.trans hgrows.clients, ?_⟩
          rw [owed_cons] at hsum
          rw [owed_append]
          omega

/-- The account of client `c`; the threads other than the owner have nothing to
    release. -/
structure Released (c : ClientId) (cfg : Config) : Prop where
  others : ∀ t, t ≠ 0 → owed c (cfg.app t) = 0
  owner : Accounts c (cfg.app 0) cfg.shared

theorem Released.step (hmove : system.Moves cfg l cfg') (hok : NoRelease cfg l)
    (hknown : Lifecycle cfg) (h : Released c cfg) : Released c cfg' := by
  have hgrows := Grows.of_moves hmove
  cases hmove with
  | event hdeliver =>
    exact ⟨h.others, h.owner.keep (deliver_served hdeliver).1.freed hgrows
      (deliver_unmarked hdeliver c).destroys⟩
  | svc hsvc =>
    exact ⟨h.others, h.owner.keep (svc_served hsvc).1.freed hgrows (svc_unmarked hsvc c).destroys⟩
  | @call t f s svc app hidle hcall =>
    have hf : f.owes c = 0 ∧ f.copy = none := by
      cases f with
      | wsp_client_destroy d => exact absurd hok (by simp [NoRelease])
      | _ => first | exact ⟨rfl, rfl⟩ | simp [system, Sys.call] at hcall
    simp only [system, Sys.call, Bool.and_eq_true, Bool.not_eq_true'] at hcall
    refine ⟨fun u hu => ?_, ?_⟩
    · by_cases hut : u = t
      · subst hut
        simp [hf.1]
      · dsimp only
        rw [Function.update_of_ne hut]
        exact h.others u hu
    · by_cases ht : t = 0
      · subst ht
        have hempty : Accounts c (app 0) s := h.owner
        rw [hidle] at hempty
        simpa using hempty.call hcall.1 hf.1 hf.2
      · simpa [Function.update_of_ne (Ne.symm ht)] using h.owner
  | @app t f a s s' svc app rest fs htop happ =>
    by_cases ht : t = 0
    · subst ht
      have howner : Owner (app 0) s := hknown.owner
      have haccounts : Accounts c (app 0) s := h.owner
      rw [htop] at howner haccounts
      refine ⟨fun u hu => ?_, by simpa using haccounts.app howner hgrows (a := a) happ⟩
      dsimp only
      rw [Function.update_of_ne hu]
      exact h.others u hu
    · have hguest := hknown.guests t ht f (by simp [htop])
      have hnone : f.copy = none := by cases f <;> first | rfl | cases hguest
      have hfirst : f ≠ .wsp_pool_destroy := by
        rintro rfl
        cases hguest
      have howed := h.others t ht
      rw [show (⟨s, svc, app⟩ : Config).app t = f :: rest from htop, owed_cons] at howed
      obtain ⟨hmoved, _⟩ := app_owes (f := f) (a := a) happ hnone hfirst c
      have hmono : destroys (s.trace c) ≤ destroys (s'.trace c) :=
        (hgrows.trace c).sublist.countP_le
      refine ⟨fun u hu => ?_, ?_⟩
      · by_cases hut : u = t
        · subst hut
          simp only [Function.update_self, owed_append]
          omega
        · dsimp only
          rw [Function.update_of_ne hut]
          exact h.others u hu
      · have hkept := h.owner.keep (app_live (f := f) (a := a) happ hnone) hgrows (by dsimp only; omega)
        simpa [Function.update_of_ne (Ne.symm ht)] using hkept

/-- In every run in which the users leave the release of the clients to the pool. -/
theorem Reaches.released {ok : Config → Label → Prop} (hok : ∀ cfg l, ok cfg l → NoRelease cfg l)
    {client : ClientId → wsp_client} (h : system.Reaches ok (initial client) cfg) (c : ClientId) :
    Released c cfg := by
  refine h.invariant_under (fun mid hmid => Reaches.lifecycle hmid) ?_
    fun mid l next hknown hmid hmove => Released.step hmove (hok _ _ hmid) hknown
  exact ⟨fun _ _ => rfl, fun hne => absurd rfl hne, fun _ _ => ⟨rfl, rfl⟩, fun f hf => (by cases hf)⟩

/-- The last loop of `wsp_pool_destroy` runs to its end. -/
theorem destroy_all_isSome {cs : List ClientId}
    (h : ∀ c, (ws_flush_queue (s.client c).q).isSome = true) : (s.destroy_all cs).isSome = true := by
  induction cs generalizing s with
  | nil => rfl
  | cons c cs ih =>
    obtain ⟨r, hr⟩ := Option.isSome_iff_exists.mp (h c)
    simp only [Sys.destroy_all, Sys.destroy_client, hr, Option.map_some, Option.bind_some]
    refine ih fun d => ?_
    rw [Sys.act_client]
    split
    · exact h c
    · exact h d

/-- A prefix of a list without duplicates and a suffix of it hold each of its
    elements exactly once when they meet. -/
theorem counts_iff {α : Type} [DecidableEq α] {xs front back : List α} (hnodup : xs.Nodup)
    (hfront : front <+: xs) (hback : back <:+ xs) :
    (∀ x, front.count x + back.count x = if x ∈ xs then 1 else 0) ↔
      back = xs.drop front.length := by
  obtain ⟨rest, rfl⟩ := hfront
  have hcount : ∀ x, front.count x + rest.count x = if x ∈ front ++ rest then 1 else 0 := by
    intro x
    rw [← List.count_append, hnodup.count]
  rw [List.drop_left]
  constructor
  · intro honce
    have hperm : back.Perm rest := by
      rw [List.perm_iff_count]
      intro x
      have hsum := honce x
      rw [← hcount x] at hsum
      omega
    have hsuffix := List.suffix_of_suffix_length_le hback (List.suffix_append front rest)
      (Nat.le_of_eq hperm.length_eq)
    exact hsuffix.eq_of_length hperm.length_eq
  · rintro rfl
    exact hcount

/-- `wsp_pool_destroy` releases every client exactly once when its last loop finds
    in `pending` just the clients added since it took its copy of `clients`. -/
theorem teardown_releases_once {client : ClientId → wsp_client} (hfresh : ∀ c, (client c).Fresh)
    {ls : List Label} (h : system.Follows NoRelease (initial client) ls cfg)
    (hdistinct : (added ls).Nodup) {snap : List ClientId} {rest : List AppFrame}
    (htop : cfg.app 0 = .destroy_pending snap :: rest) (a : Answer) :
    ∃ cfg', system.step cfg (.app 0 a) = some cfg' ∧ cfg'.shared.freed = true ∧
      ((∀ c, destroys (cfg'.shared.trace c) = if c ∈ cfg'.shared.pool.clients then 1 else 0) ↔
        cfg.shared.pool.pending = cfg.shared.pool.clients.drop snap.length) := by
  have hreach := h.reaches
  have hadds := Follows.adds_once hfresh h hdistinct
  have hmembers := Reaches.members (fun _ _ hok => hok.2) hfresh hadds.reaches
  have hregistry := Reaches.registry hreach
  have hreleased := Reaches.released (fun _ _ hok => hok) hreach
  have hflush : ∀ c, (ws_flush_queue (cfg.shared.client c).q).isSome = true := by
    intro c
    obtain ⟨ns, hholds, _⟩ := Reaches.ordered hfresh hreach c
    obtain ⟨q, hq, _⟩ := hholds.flush
    rw [hq]
    rfl
  obtain ⟨s', hall⟩ : ∃ s', cfg.shared.destroy_all cfg.shared.pool.pending = some s' :=
    Option.isSome_iff_exists.mp (destroy_all_isSome hflush)
  have hlifecycle := Reaches.lifecycle hreach
  have howner := hlifecycle.owner
  rw [htop] at howner
  obtain rfl := howner.alone (.inr rfl)
  have hcopied : snap <+: cfg.shared.pool.clients := by
    have hduring := (hreleased 0).owner.during
    rw [htop] at hduring
    exact (hduring (.destroy_pending snap) (by simp) snap rfl).1
  have hclients : s'.pool.clients = cfg.shared.pool.clients := by
    rw [(destroy_all_lws hall).2]
  -- Before the last loop the clients of the copy have been released.
  have hcounts : ∀ c, destroys (s'.trace c) = snap.count c + cfg.shared.pool.pending.count c := by
    intro c
    have hduring := (hreleased c).owner.during
    rw [htop] at hduring
    have hsum := (hduring (.destroy_pending snap) (by simp) snap rfl).2
    have hzero : owed c [.destroy_pending snap] = 0 := rfl
    rw [destroy_all_destroys hall]
    omega
  refine ⟨_, by simp only [System.step, htop, system, Sys.app, hall]; rfl, rfl, ?_⟩
  change (∀ c, destroys (s'.trace c) = if c ∈ s'.pool.clients then 1 else 0) ↔ _
  simp only [hcounts, hclients]
  exact counts_iff hmembers.nodup hcopied hregistry.pending

/-- The pool of a stopped client is destroyed up to the last loop. -/
def teardown_run : List Label := stopped_run.dropLast ++ destroy_run.dropLast

theorem teardown_releases_once_stopped :
    ∃ cfg cfg' : Config, system.Follows NoRelease (initial fresh_client) teardown_run cfg ∧
      system.step cfg (.app 0 {}) = some cfg' ∧
      ∀ c, destroys (cfg'.shared.trace c) = if c ∈ cfg'.shared.pool.clients then 1 else 0 := by
  obtain ⟨cfg, hfollows, hlast, hpending, hclients⟩ :
      ∃ cfg, system.Follows NoRelease (initial fresh_client) teardown_run cfg ∧
        cfg.app 0 = [.destroy_pending [0]] ∧ cfg.shared.pool.pending = [] ∧
        cfg.shared.pool.clients = [0] :=
    System.exists_follows_of_run_eq (g := fun cfg => cfg.app 0) rfl (by decide)
  obtain ⟨cfg', hstep, _, honce⟩ := teardown_releases_once
    (fun _ => wsp_client_create_fresh _ _ _ _) hfollows (by decide) hlast {}
  exact ⟨cfg, cfg', hfollows, hstep, honce.mpr (by rw [hpending, hclients]; rfl)⟩

/-- A client is added to a pool that is never started, and the pool is destroyed. -/
def unstarted_run : List Label :=
  [.call 0 (.wsp_pool_add 0), .app 0 {}, .app 0 {}, .call 0 .wsp_pool_destroy, .app 0 {}, .app 0 {},
    .app 0 {}, .app 0 {}, .app 0 {}, .app 0 {}, .app 0 {}, .app 0 {}, .app 0 {}, .app 0 {},
    .app 0 {}, .app 0 {}, .app 0 {}]

theorem unstarted_released_twice :
    (added unstarted_run).Nodup ∧
      ∃ cfg : Config, system.Follows NoRelease (initial fresh_client) unstarted_run cfg ∧
        0 ∈ cfg.shared.pool.clients ∧ cfg.shared.freed = true ∧
        destroys (cfg.shared.trace 0) = 2 :=
  ⟨by decide, System.exists_follows_of_run (by decide)⟩

end lws_client.ws_pool
