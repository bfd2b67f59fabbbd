import LwsClientDemo.WsPool.Registry

open interleaving

namespace lws_client.ws_pool

/-- What a `wsp_pool_add` returns in the step, if it returns in it. -/
def admission (cfg : Config) : Label → List LwsClientRet_e
  | .app t _ =>
    match cfg.app t with
    | .wsp_pool_add c :: _ => if (cfg.shared.client c).pool then [.LWS_ERR_PARAM] else []
    | .pool_add_locked c :: _ =>
      [if (cfg.shared.pool.add c).isSome then .LWS_OK else .LWS_ERR_PARAM]
    | _ => []
  | _ => []

/-- What the adds of a run from `cfg` return, in the order of their locked sections. -/
def admissions (cfg : Config) (ls : List Label) : List LwsClientRet_e :=
  system.observe admission cfg ls

/-- The answers to `n` adds of distinct clients that depend on the number of
    registered clients only. -/
def timeless (n : Nat) : List LwsClientRet_e :=
  (List.range n).map fun k => if k < WSP_MAX_CLIENTS then .LWS_OK else .LWS_ERR_PARAM

/-- An add finds room for the pending clients a second time, or no room at all. -/
def admits (cfg : Config) (l : Label) : Prop :=
  ∀ c, Adds c cfg l →
    cfg.shared.pool.clients.length + cfg.shared.pool.pending.length < WSP_MAX_CLIENTS ∨
      WSP_MAX_CLIENTS ≤ cfg.shared.pool.clients.length

theorem timeless_succ (n : Nat) : timeless (n + 1) =
    timeless n ++ [if n < WSP_MAX_CLIENTS then .LWS_OK else .LWS_ERR_PARAM] := by
  simp [timeless, List.range_succ]

theorem countP_timeless (n : Nat) : (timeless n).countP (· == .LWS_OK) = min n WSP_MAX_CLIENTS := by
  induction n with
  | zero => rfl
  | succ n ih =>
    rw [timeless_succ, List.countP_append, ih]
    by_cases hn : n < WSP_MAX_CLIENTS
    · simp [hn]
      omega
    · simp [hn]
      omega

variable {client : ClientId → wsp_client} {ls : List Label} {cfg : Config}

/-- Each step of an add of a fresh client returns nothing, or what its locked
    section says. -/
theorem admission_cases {l : Label} (honce : ∀ c, Once c ls cfg) :
    (admission cfg l = [] ∧ ∀ c, ¬ Adds c cfg l) ∨
      ∃ c, Adds c cfg l ∧
        admission cfg l = [if (cfg.shared.pool.add c).isSome then .LWS_OK else .LWS_ERR_PARAM] := by
  cases l with
  | event _ | svc _ | call _ _ => exact .inl ⟨rfl, fun _ hadds => hadds⟩
  | app t a =>
    cases hframes : cfg.app t with
    | nil => exact .inl ⟨by simp [admission, hframes], fun c ⟨rest, htop⟩ => by simp [hframes] at htop⟩
    | cons f rest =>
      cases f with
      | wsp_pool_add c =>
        have hpool := (honce c).adding t (by simp [hframes, AppFrame.adds])
        exact .inl ⟨by simp [admission, hframes, hpool], fun d ⟨_, htop⟩ => by simp [hframes] at htop⟩
      | pool_add_locked c => exact .inr ⟨c, ⟨rest, hframes⟩, by simp [admission, hframes]⟩
      | _ => exact .inl ⟨by simp [admission, hframes], fun d ⟨_, htop⟩ => by simp [hframes] at htop⟩

/-- The registered clients are those whose add has returned `LWS_OK`. -/
theorem Follows.countP_admissions (hfresh : ∀ c, (client c).Fresh)
    (h : system.Follows Any (initial client) ls cfg) (hdistinct : (added ls).Nodup) :
    (admissions (initial client) ls).countP (· == .LWS_OK) = cfg.shared.pool.clients.length := by
  induction h with
  | nil => rfl
  | @snoc ls mid last l hmid _ hstep ih =>
    have hbefore : (added ls).Nodup := by
      rw [added_snoc] at hdistinct
      exact (List.nodup_append.mp hdistinct).1
    have honce := Follows.once hfresh hmid hbefore
    rw [admissions, hmid.observe_snoc, List.countP_append, ← admissions, ih hbefore]
    cases System.step_moves hstep with
    | event hdeliver =>
      dsimp only
      rw [deliver_pool hdeliver]
      rfl
    | svc hsvc =>
      rcases svc_pool hsvc with hpool | ⟨_, _, hs'⟩
      · dsimp only
        rw [hpool]
        rfl
      · dsimp only
        rw [hs']
        rfl
    | call _ _ => rfl
    | @app t f a s s' svc app rest fs htop happ =>
      rcases admission_cases (l := .app t a) honce with ⟨hnone, hnoadd⟩ | ⟨c, ⟨rest', htop'⟩, hret⟩
      · rw [hnone]
        cases app_registers happ with
        | @add c _ _ _ _ => exact absurd ⟨rest, htop⟩ (hnoadd c)
        | same _ hs _ | start _ hs _ | clear _ hs _ =>
          dsimp only
          rw [hs.clients]
          rfl
      · obtain rfl : f = .pool_add_locked c := by
          have hframes : app t = .pool_add_locked c :: rest' := htop'
          rw [htop] at hframes
          exact (List.cons.inj hframes).1
        rw [hret]
        rcases app_add (a := a) happ with ⟨_, hclients, _, hsome, _⟩ | ⟨_, hpool, _, hrefused, _⟩
        · simp [hsome, hclients]
        · simp [hrefused, hpool]

theorem wsp_pool.add_isSome (p : wsp_pool) (c : ClientId) : (p.add c).isSome = true ↔
    p.clients.length + p.pending.length < WSP_MAX_CLIENTS := by
  unfold wsp_pool.add
  split
  · next hfull => simpa using hfull
  · next hroom => simpa using hroom

/-- While the earlier adds have returned what they should, the next one does so
    exactly when it admits its client on time. -/
theorem admits_iff {c : ClientId} {l : Label} {n : Nat} (hadds : Adds c cfg l)
    (hclients : cfg.shared.pool.clients.length = min n WSP_MAX_CLIENTS) :
    ((if (cfg.shared.pool.add c).isSome then LwsClientRet_e.LWS_OK else .LWS_ERR_PARAM) =
      if n < WSP_MAX_CLIENTS then .LWS_OK else .LWS_ERR_PARAM) ↔ admits cfg l := by
  have hcond : admits cfg l ↔
      (cfg.shared.pool.clients.length + cfg.shared.pool.pending.length < WSP_MAX_CLIENTS ∨
        WSP_MAX_CLIENTS ≤ cfg.shared.pool.clients.length) :=
    ⟨fun h => h c hadds, fun h _ _ => h⟩
  simp only [hcond, wsp_pool.add_isSome]
  by_cases hroom : cfg.shared.pool.clients.length + cfg.shared.pool.pending.length < WSP_MAX_CLIENTS
  · have hn : n < WSP_MAX_CLIENTS := by omega
    simp [hroom, hn]
  · by_cases hn : n < WSP_MAX_CLIENTS
    · have hlate : ¬ WSP_MAX_CLIENTS ≤ cfg.shared.pool.clients.length := by omega
      simp [hroom, hn, hlate]
    · have hfull : WSP_MAX_CLIENTS ≤ cfg.shared.pool.clients.length := by omega
      simp [hroom, hn, hfull]

/-- A run answers its adds by their number alone exactly when each step admits
    its client on time. -/
theorem Follows.admissions_eq_timeless (hfresh : ∀ c, (client c).Fresh)
    (h : system.Follows Any (initial client) ls cfg) (hdistinct : (added ls).Nodup) :
    admissions (initial client) ls = timeless (admissions (initial client) ls).length ↔
      system.Follows admits (initial client) ls cfg := by
  induction h with
  | nil => exact ⟨fun _ => .nil, fun _ => rfl⟩
  | @snoc ls mid last l hmid hok hstep ih =>
    have hbefore : (added ls).Nodup := by
      rw [added_snoc] at hdistinct
      exact (List.nodup_append.mp hdistinct).1
    have hclients := Follows.countP_admissions hfresh hmid hbefore
    have hsnoc : admissions (initial client) (ls ++ [l]) =
        admissions (initial client) ls ++ admission mid l := hmid.observe_snoc l
    have hruns : system.Follows admits (initial client) (ls ++ [l]) last ↔
        system.Follows admits (initial client) ls mid ∧ admits mid l := by
      constructor
      · intro hrun
        obtain ⟨mid', hmid', hadmits, _⟩ := hrun.of_snoc
        obtain rfl := hmid.unique hmid'
        exact ⟨hmid', hadmits⟩
      · exact fun ⟨hrun, hadmits⟩ => hrun.snoc hadmits hstep
    rw [hruns, ← ih hbefore, hsnoc]
    rcases admission_cases (Follows.once hfresh hmid hbefore) with ⟨hnone, hnoadd⟩ | ⟨c, hadds, hret⟩
    · rw [hnone, List.append_nil]
      exact ⟨fun hsame => ⟨hsame, fun c hadds => absurd hadds (hnoadd c)⟩, And.left⟩
    · rw [hret, List.length_append, List.length_singleton, timeless_succ]
      constructor
      · intro hsame
        obtain ⟨hsame, hlast⟩ := List.append_inj' hsame rfl
        rw [hsame, countP_timeless] at hclients
        refine ⟨hsame, ?_⟩
        exact (admits_iff hadds hclients.symm).mp (List.singleton_inj.mp hlast)
      · rintro ⟨hsame, hadmits⟩
        rw [hsame, countP_timeless] at hclients
        rw [(admits_iff hadds hclients.symm).mpr hadmits, ← hsame]

/-- A refused add leaves the pool and the client as they were. -/
def Unchanged (cfg cfg' : Config) (c : ClientId) : Prop :=
  cfg'.shared.pool = cfg.shared.pool ∧ cfg'.shared.client c = cfg.shared.client c

theorem add_returns {t : Nat} {a : Answer} {c : ClientId} {rest : List AppFrame} {cfg' : Config}
    (htop : cfg.app t = .pool_add_locked c :: rest) (hstep : system.step cfg (.app t a) = some cfg') :
    ∃ ret, admission cfg (.app t a) = [ret] ∧
      cfg'.shared.trace c = cfg.shared.trace c ++ [.add_returns ret] ∧
      (ret ≠ .LWS_OK → ret = .LWS_ERR_PARAM ∧ Unchanged cfg cfg' c) := by
  cases System.step_moves hstep with
  | @app t f a s s' svc app rest' fs htop' happ =>
    have hframes : app t = .pool_add_locked c :: rest := htop
    rw [htop', List.cons.injEq] at hframes
    obtain ⟨rfl, _⟩ := hframes
    rcases app_add (a := a) happ with ⟨_, _, _, hsome, htrace, _⟩ |
      ⟨_, hpool, hclient, hrefused, htrace⟩
    · refine ⟨.LWS_OK, by simp [admission, htop', hsome], htrace, fun h => absurd rfl h⟩
    · exact ⟨.LWS_ERR_PARAM, by simp [admission, htop', hrefused], htrace,
        fun _ => ⟨rfl, hpool, congrFun hclient c⟩⟩

/-- The adds of a run return the same as in every other interleaving, exactly
    when each of them finds room for the pending clients a second time or the
    pool full. In any case an add that is refused changes nothing. -/
theorem admission_timeless (hfresh : ∀ c, (client c).Fresh)
    (h : system.Follows Any (initial client) ls cfg) (hdistinct : (added ls).Nodup) :
    (admissions (initial client) ls = timeless (admissions (initial client) ls).length ↔
      system.Follows admits (initial client) ls cfg) ∧
    ∀ t a c rest cfg', cfg.app t = .pool_add_locked c :: rest →
      system.step cfg (.app t a) = some cfg' → ∃ ret, admission cfg (.app t a) = [ret] ∧
        cfg'.shared.trace c = cfg.shared.trace c ++ [.add_returns ret] ∧
        (ret ≠ .LWS_OK → ret = .LWS_ERR_PARAM ∧ Unchanged cfg cfg' c) :=
  ⟨Follows.admissions_eq_timeless hfresh h hdistinct, fun _ _ _ _ _ => add_returns⟩

theorem admission_timeless_added : ∃ cfg,
    system.Follows Any (initial fresh_client) connected_run cfg ∧
      (admissions (initial fresh_client) connected_run =
          timeless (admissions (initial fresh_client) connected_run).length ↔
        system.Follows admits (initial fresh_client) connected_run cfg) := by
  obtain ⟨cfg, hfollows, _⟩ : ∃ cfg, system.Follows Any (initial fresh_client) connected_run cfg ∧
      cfg.svc.length = 0 := System.exists_follows_of_run (by decide)
  have hfresh : ∀ c, (fresh_client c).Fresh := fun _ => wsp_client_create_fresh _ _ _ _
  have hdistinct : (added connected_run).Nodup := by decide
  exact ⟨cfg, hfollows, (admission_timeless hfresh hfollows hdistinct).1⟩

/-- Thread 1 adds the clients below `n` to the pool, which is not started. -/
def early_adds (n : Nat) : List Label :=
  (List.range n).flatMap fun c => [.call 1 (.wsp_pool_add c), .app 1 {}, .app 1 {}]

theorem early_adds_succ (n : Nat) : early_adds (n + 1) =
    early_adds n ++ [.call 1 (.wsp_pool_add n)] ++ [.app 1 {}] ++ [.app 1 {}] := by
  simp [early_adds, List.range_succ]

theorem added_early (n : Nat) : added (early_adds n) = List.range n := by
  induction n with
  | zero => rfl
  | succ n ih => simp only [early_adds_succ, added_snoc, ih, List.range_succ, added_by, Option.toList,
      List.append_nil]

/-- After the adds below `n` the clients stand in both arrays. -/
structure Early (n : Nat) (cfg : Config) : Prop where
  clients : cfg.shared.pool.clients = List.range n
  pending : cfg.shared.pool.pending = List.range n
  ctx : cfg.shared.pool.ctx = false
  freed : cfg.shared.freed = false
  idle : cfg.app 1 = []
  joined : ∀ c, n ≤ c → (cfg.shared.client c).pool = false

/-- The next add, up to its locked section. -/
theorem Early.call {n : Nat} (h : Early n cfg) : ∃ mid next,
    system.step cfg (.call 1 (.wsp_pool_add n)) = some mid ∧
    system.step mid (.app 1 {}) = some next ∧ next.app 1 = [.pool_add_locked n] ∧
    next.shared = cfg.shared := by
  refine ⟨⟨cfg.shared, cfg.svc, Function.update cfg.app 1 [.wsp_pool_add n]⟩,
    ⟨cfg.shared, cfg.svc, Function.update (Function.update cfg.app 1 [.wsp_pool_add n]) 1
      [.pool_add_locked n]⟩, ?_, ?_, ?_, rfl⟩
  · simp [System.step, system, Sys.call, h.idle, h.freed]
  · simp [System.step, system, Sys.app, h.joined n (Nat.le_refl n)]
  · simp

theorem Early.add {n : Nat} (h : Early n cfg) (hroom : n + n < WSP_MAX_CLIENTS)
    (hfollows : system.Follows Any (initial client) (early_adds n) cfg) :
    ∃ last, system.Follows Any (initial client) (early_adds (n + 1)) last ∧ Early (n + 1) last := by
  obtain ⟨mid, next, hmid, hnext, htop, hshared⟩ := h.call
  have hfit : ¬ n + n ≥ WSP_MAX_CLIENTS := by omega
  have hlast : system.step next (.app 1 {}) = some
      ⟨(next.shared.setPool { next.shared.pool with
          clients := List.range (n + 1), pending := List.range (n + 1) }).act n
            ({ next.shared.client n with pool := true }, [.add_returns .LWS_OK]),
        next.svc, Function.update next.app 1 []⟩ := by
    simp [System.step, system, Sys.app, htop, hshared, wsp_pool.add, h.clients, h.pending, h.freed,
      h.ctx, hfit, List.range_succ]
  refine ⟨_, early_adds_succ n ▸ ((hfollows.snoc trivial hmid).snoc trivial hnext).snoc trivial hlast,
    rfl, rfl, ?_, ?_, ?_, fun c hc => ?_⟩
  · simp [Sys.setPool, hshared, h.ctx]
  · simp [Sys.setPool, hshared, h.freed]
  · simp
  · have hne : c ≠ n := by omega
    simp [Sys.setPool, hne, hshared, h.joined c (by omega)]

theorem early_adds_follows (n : Nat) (hn : n ≤ 128) : ∃ cfg,
    system.Follows Any (initial fresh_client) (early_adds n) cfg ∧ Early n cfg := by
  induction n with
  | zero => exact ⟨initial fresh_client, .nil, rfl, rfl, rfl, rfl, rfl, fun _ _ => rfl⟩
  | succ n ih =>
    obtain ⟨cfg, hfollows, hearly⟩ := ih (by omega)
    refine hearly.add ?_ hfollows
    simp only [WSP_MAX_CLIENTS]
    omega

/-- Before the start the 129th client is refused. -/
theorem early_add_refused : ∃ ls cfg, system.Follows Any (initial fresh_client) ls cfg ∧
    (added ls).Nodup ∧ cfg.shared.pool.clients.length = 128 ∧
    admissions (initial fresh_client) ls ≠
      timeless (admissions (initial fresh_client) ls).length := by
  obtain ⟨cfg, hfollows, hearly⟩ := early_adds_follows 128 (Nat.le_refl _)
  obtain ⟨mid, next, hmid, hnext, htop, hshared⟩ := hearly.call
  have hlast : system.step next (.app 1 {}) = some
      ⟨next.shared.act 128 (next.shared.client 128, [.add_returns .LWS_ERR_PARAM]), next.svc,
        Function.update next.app 1 []⟩ := by
    simp [System.step, system, Sys.app, htop, hshared, wsp_pool.add, hearly.clients, hearly.pending,
      hearly.freed, WSP_MAX_CLIENTS]
  have hrun := ((hfollows.snoc trivial hmid).snoc trivial hnext).snoc trivial hlast
  have hdistinct : (added (early_adds 128 ++ [.call 1 (.wsp_pool_add 128)] ++ [.app 1 {}] ++
      [.app 1 {}])).Nodup := by
    rw [← early_adds_succ, added_early]
    exact List.nodup_range
  refine ⟨_, _, hrun, hdistinct, ?_, fun hsame => ?_⟩
  · simp [hshared, hearly.clients]
  · have hfresh : ∀ c, (fresh_client c).Fresh := fun _ => wsp_client_create_fresh _ _ _ _
    obtain ⟨next', hnext', hadmits, _⟩ :=
      ((Follows.admissions_eq_timeless hfresh hrun hdistinct).mp hsame).of_snoc
    obtain rfl := ((hfollows.snoc trivial hmid).snoc trivial hnext).unique hnext'
    have hneed := hadmits 128 ⟨[], htop⟩
    rw [hshared, hearly.clients, hearly.pending] at hneed
    simp [WSP_MAX_CLIENTS] at hneed

end lws_client.ws_pool
