import LwsClientDemo.Interleaving
import LwsClientDemo.WsPool.Client

open interleaving

namespace lws_client.ws_pools

open ws_pool

/-- A `wsp_pool_t` pointer. -/
abbrev PoolId := Nat

/-- Any number of pools. `back` is `c->pool`, `cancelled` an `lws_cancel_service`
    of a context whose EVENT_WAIT_CANCELLED is outstanding, and `returns` what the
    adds of a client have returned, in order. -/
structure Pools where
  pool : PoolId → wsp_pool
  back : ClientId → Option PoolId
  cancelled : PoolId → Bool
  returns : ClientId → List (PoolId × LwsClientRet_e)

/-- What an add of client `c` to pool `p` returns. -/
def Pools.ret (s : Pools) (p : PoolId) (c : ClientId) (ret : LwsClientRet_e) : Pools :=
  { s with returns := Function.update s.returns c (s.returns c ++ [(p, ret)]) }

/-- The code of `wsp_pool_add`, cut at its lock. -/
inductive AddFrame where
  | wsp_pool_add (p : PoolId) (c : ClientId)
  | pool_add_locked (p : PoolId) (c : ClientId)
  | pool_add_wake (p : PoolId)

/-- The service thread of pool `p` takes the pending clients. -/
inductive TakeEvent where
  | event_wait_cancelled (p : PoolId)

def Pools.deliver : TakeEvent → Pools → Option (List Empty × Pools)
  | .event_wait_cancelled p, s =>
    if s.cancelled p then
      some ([], { s with
        pool := Function.update s.pool p { s.pool p with pending := [] }
        cancelled := Function.update s.cancelled p false })
    else none

def Pools.call : AddFrame → Bool
  | .wsp_pool_add _ _ => true
  | _ => false

def Pools.app (f : AddFrame) (s : Pools) : Option (List AddFrame × Pools) :=
  match f with
  | .wsp_pool_add p c =>
    if (s.back c).isSome then some ([], s.ret p c .LWS_ERR_PARAM)
    else some ([.pool_add_locked p c], s)
  | .pool_add_locked p c =>
    match (s.pool p).add c with
    | none => some ([], s.ret p c .LWS_ERR_PARAM)
    | some pool =>
      some (if (s.pool p).ctx then [.pool_add_wake p] else [],
        Pools.ret { s with
          pool := Function.update s.pool p pool
          back := Function.update s.back c (some p) } p c .LWS_OK)
  | .pool_add_wake p => some ([], { s with cancelled := Function.update s.cancelled p true })

/-- Pools with their service threads, and the threads that add clients to them. -/
def system : System Pools TakeEvent Empty AddFrame Unit :=
  { deliver := Pools.deliver, svc := (nomatch ·), call := fun _ f _ => Pools.call f
    app := fun f _ => Pools.app f }

abbrev Config := interleaving.Config Pools Empty AddFrame

abbrev Label := interleaving.Label TakeEvent AddFrame Unit

/-- Freshly created pools, started where `ctx` says so, and freshly created clients. -/
def initial (ctx : PoolId → Bool) : Config :=
  { shared := { pool := fun p => { wsp_pool_create with ctx := ctx p }, back := fun _ => none
                cancelled := fun _ => false, returns := fun _ => [] }
    svc := []
    app := fun _ => [] }

/-- The number of adds of client `c` that have returned `LWS_OK`. -/
def Pools.joins (s : Pools) (c : ClientId) : Nat := (s.returns c).countP fun r => r.2 == .LWS_OK

/-- Client `c` has joined at most one pool, once: `c->pool` says which. -/
structure OnePool (c : ClientId) (s : Pools) : Prop where
  joins : s.joins c ≤ 1
  clients : ∀ p, (s.pool p).clients.count c = if s.back c = some p then 1 else 0
  pending : ∀ p, (s.pool p).pending.count c ≤ if s.back c = some p then 1 else 0

/-- The step is the locked section of an add of client `c` that finds room in its
    pool, and `c->pool` set since the test before the lock. -/
def clashes (c : ClientId) (cfg : Config) : Label → Bool
  | .app t _ =>
    match cfg.app t with
    | .pool_add_locked p d :: _ =>
      d == c && ((cfg.shared.pool p).add c).isSome && (cfg.shared.back c).isSome
    | _ => false
  | _ => false

/-- The test of `c->pool` that `wsp_pool_add` makes before the lock still holds in
    the locked section, if the pool has room. -/
def FindsFree (c : ClientId) (cfg : Config) (l : Label) : Prop := clashes c cfg l = false

instance (c : ClientId) (cfg : Config) (l : Label) : Decidable (FindsFree c cfg l) :=
  inferInstanceAs (Decidable (_ = _))

variable {s s' : Pools} {c d : ClientId} {p : PoolId} {f : AddFrame} {fs : List AddFrame}
  {cfg cfg' : Config} {l : Label}

theorem Pools.joins_ret (s : Pools) (p : PoolId) (c d : ClientId) (ret : LwsClientRet_e) :
    (s.ret p c ret).joins d = s.joins d + if d = c ∧ ret = .LWS_OK then 1 else 0 := by
  by_cases hd : d = c
  · subst hd
    cases ret <;> simp [Pools.ret, Pools.joins]
  · simp [Pools.ret, Pools.joins, hd]

/-- What an add does: nothing to client `d`, or it joins the pool. -/
theorem app_cases (h : s.app f = some (fs, s')) (d : ClientId) :
    (s'.joins d = s.joins d ∧ s'.back d = s.back d ∧
      (∀ p, (s'.pool p).clients.count d = (s.pool p).clients.count d ∧
        (s'.pool p).pending.count d = (s.pool p).pending.count d)) ∨
      ∃ p, f = .pool_add_locked p d ∧ ((s.pool p).add d).isSome = true ∧
        s'.joins d = s.joins d + 1 ∧ s'.back d = some p ∧
        ∀ q, (s'.pool q).clients.count d = (s.pool q).clients.count d + (if q = p then 1 else 0) ∧
          (s'.pool q).pending.count d = (s.pool q).pending.count d + if q = p then 1 else 0 := by
  cases f with
  | wsp_pool_add p c =>
    simp only [Pools.app] at h
    split at h <;> cases h
    · exact .inl ⟨by simp [Pools.joins_ret], rfl, fun _ => ⟨rfl, rfl⟩⟩
    · exact .inl ⟨rfl, rfl, fun _ => ⟨rfl, rfl⟩⟩
  | pool_add_locked p c =>
    simp only [Pools.app] at h
    split at h
    · cases h
      exact .inl ⟨by simp [Pools.joins_ret], rfl, fun _ => ⟨rfl, rfl⟩⟩
    · next pool hadd =>
      cases h
      have hpool : pool = { s.pool p with
          clients := (s.pool p).clients ++ [c], pending := (s.pool p).pending ++ [c] } := by
        unfold wsp_pool.add at hadd
        split at hadd
        · cases hadd
        · exact (Option.some.inj hadd).symm
      by_cases hd : d = c
      · subst hd
        refine .inr ⟨p, rfl, by rw [hadd]; rfl, ?_, by simp [Pools.ret], fun q => ?_⟩
        · rw [Pools.joins_ret]
          simp [Pools.joins]
        · by_cases hq : q = p
          · subst hq
            simp [Pools.ret, hpool]
          · simp [Pools.ret, hq]
      · refine .inl ⟨?_, by simp [Pools.ret, hd], fun q => ?_⟩
        · rw [Pools.joins_ret]
          simp [Pools.joins, hd]
        · by_cases hq : q = p
          · subst hq
            simp [Pools.ret, hpool, Ne.symm hd]
          · simp [Pools.ret, hq]
  | pool_add_wake p =>
    cases h
    exact .inl ⟨rfl, rfl, fun _ => ⟨rfl, rfl⟩⟩

theorem deliver_cases {e : TakeEvent} {gs : List Empty} (h : s.deliver e = some (gs, s'))
    (d : ClientId) : s'.joins d = s.joins d ∧ s'.back d = s.back d ∧
      ∀ p, (s'.pool p).clients.count d = (s.pool p).clients.count d ∧
        (s'.pool p).pending.count d ≤ (s.pool p).pending.count d := by
  cases e with
  | event_wait_cancelled q =>
    simp only [Pools.deliver, Option.ite_none_right_eq_some, Option.some.injEq, Prod.mk.injEq] at h
    obtain ⟨_, _, rfl⟩ := h
    refine ⟨rfl, rfl, fun p => ?_⟩
    by_cases hp : p = q
    · subst hp
      simp
    · simp [hp]

/-- The one add of client `c` that has returned `LWS_OK` has set `c->pool`. -/
structure Tally (c : ClientId) (s : Pools) : Prop where
  joins : s.joins c = if (s.back c).isSome then 1 else 0
  clients : ∀ p, (s.pool p).clients.count c = if s.back c = some p then 1 else 0
  pending : ∀ p, (s.pool p).pending.count c ≤ if s.back c = some p then 1 else 0

theorem Tally.onePool (h : Tally c s) : OnePool c s := by
  refine ⟨?_, h.clients, h.pending⟩
  rw [h.joins]
  split <;> omega

/-- A step that adds the client to no pool. -/
theorem Tally.keep (h : Tally c s) (hjoins : s'.joins c = s.joins c) (hback : s'.back c = s.back c)
    (hpools : ∀ p, (s'.pool p).clients.count c = (s.pool p).clients.count c ∧
      (s'.pool p).pending.count c ≤ (s.pool p).pending.count c) : Tally c s' := by
  refine ⟨?_, fun p => ?_, fun p => ?_⟩
  · rw [hjoins, hback]
    exact h.joins
  · rw [(hpools p).1, hback]
    exact h.clients p
  · rw [hback]
    exact Nat.le_trans (hpools p).2 (h.pending p)

theorem Tally.step (hmove : system.Moves cfg l cfg') (hok : FindsFree c cfg l)
    (h : Tally c cfg.shared) : Tally c cfg'.shared := by
  cases hmove with
  | event hdeliver =>
    obtain ⟨hjoins, hback, hpools⟩ := deliver_cases hdeliver c
    exact h.keep hjoins hback hpools
  | @svc f _ _ _ _ _ _ _ => exact nomatch f
  | call _ _ => exact h
  | @app t f a s s' svc app rest fs htop happ =>
    rcases app_cases (f := f) happ c with
      ⟨hjoins, hback, hpools⟩ | ⟨p, rfl, hroom, hjoins, hback, hpools⟩
    · exact h.keep hjoins hback fun p => ⟨(hpools p).1, Nat.le_of_eq (hpools p).2⟩
    · -- The client is in no pool yet.
      have hfree : s.back c = none := by
        simpa [FindsFree, clashes, htop, hroom] using hok
      have hbefore := h.joins
      dsimp only at hbefore ⊢
      refine ⟨?_, fun q => ?_, fun q => ?_⟩
      · rw [hjoins, hback, hbefore, hfree]
        rfl
      · have hclients := h.clients q
        dsimp only at hclients
        rw [(hpools q).1, hclients, hfree, hback]
        by_cases hq : q = p
        · simp [hq]
        · simp [hq, Ne.symm hq]
      · have hpending := h.pending q
        dsimp only at hpending
        rw [hfree, if_neg (by simp)] at hpending
        rw [(hpools q).2, hback]
        by_cases hq : q = p
        · subst hq
          simp
          omega
        · simp [hq, Ne.symm hq]
          omega

/-- No step takes back an add, and every one that has set `c->pool` is counted. -/
theorem joins_step (hmove : system.Moves cfg l cfg') (c : ClientId)
    (hcounted : (cfg.shared.back c).isSome = true → 1 ≤ cfg.shared.joins c) :
    cfg.shared.joins c ≤ cfg'.shared.joins c ∧
      ((cfg'.shared.back c).isSome = true → 1 ≤ cfg'.shared.joins c) ∧
      (cfg'.shared.joins c ≤ 1 → FindsFree c cfg l) := by
  cases hmove with
  | event hdeliver =>
    obtain ⟨hjoins, hback, _⟩ := deliver_cases hdeliver c
    dsimp only at hcounted ⊢
    rw [hjoins, hback]
    exact ⟨Nat.le_refl _, hcounted, fun _ => rfl⟩
  | @svc f _ _ _ _ _ _ _ => exact nomatch f
  | call _ _ => exact ⟨Nat.le_refl _, hcounted, fun _ => rfl⟩
  | @app t f a s s' svc app rest fs htop happ =>
    dsimp only at hcounted ⊢
    rcases app_cases (f := f) happ c with ⟨hjoins, hback, hpools⟩ | ⟨p, rfl, _, hjoins, hback, _⟩
    · rw [hjoins, hback]
      refine ⟨Nat.le_refl _, hcounted, fun _ => ?_⟩
      cases f with
      | pool_add_locked p d =>
        by_cases hd : d = c
        · subst hd
          -- With room the add would have joined the pool.
          have hfull : (s.pool p).add d = none := by
            by_contra hroom
            obtain ⟨pool, hadd⟩ := Option.ne_none_iff_exists'.mp hroom
            simp only [system, Pools.app, hadd, Option.some.injEq, Prod.mk.injEq] at happ
            rw [← happ.2, Pools.joins_ret] at hjoins
            simp [Pools.joins] at hjoins
          simp [FindsFree, clashes, htop, hfull]
        · simp [FindsFree, clashes, htop, hd]
      | wsp_pool_add _ _ | pool_add_wake _ => simp [FindsFree, clashes, htop]
    · rw [hjoins]
      refine ⟨Nat.le_succ _, fun _ => Nat.succ_le_succ (Nat.zero_le _), fun hone => ?_⟩
      have hfree : (s.back c).isSome = false := by
        cases hset : s.back c with
        | none => rfl
        | some q =>
          have hpos := hcounted (by rw [hset]; rfl)
          omega
      simp [FindsFree, clashes, htop, hfree]

/-- A client joins at most one pool, once, exactly in the runs in which no add of
    it that has passed the test of `c->pool` finds another ahead of it. -/
theorem joins_one_pool {ctx : PoolId → Bool} {ls : List Label}
    (h : system.Follows Any (initial ctx) ls cfg) (c : ClientId) :
    OnePool c cfg.shared ↔ system.Follows (FindsFree c) (initial ctx) ls cfg := by
  constructor
  · intro hone
    have hcounted : ((cfg.shared.back c).isSome = true → 1 ≤ cfg.shared.joins c) ∧
        (cfg.shared.joins c ≤ 1 → system.Follows (FindsFree c) (initial ctx) ls cfg) := by
      clear hone
      induction h with
      | nil => exact ⟨fun hsome => (by cases hsome), fun _ => .nil⟩
      | @snoc ls mid last l _ _ hstep ih =>
        obtain ⟨hgrows, hcounted, hfree⟩ := joins_step (System.step_moves hstep) c ih.1
        exact ⟨hcounted, fun hone => (ih.2 (Nat.le_trans hgrows hone)).snoc (hfree hone) hstep⟩
    exact hcounted.2 hone.joins
  · intro hfree
    have htally : Tally c cfg.shared := hfree.reaches.invariant (I := fun mid => Tally c mid.shared)
      ⟨rfl, fun _ => rfl, fun _ => Nat.zero_le _⟩ fun _ _ _ hok hmove => Tally.step hmove hok
    exact htally.onePool

/-- A thread adds client 0 to pool 0. -/
def single_add_run : List Label := [.call 1 (.wsp_pool_add 0 0), .app 1 (), .app 1 ()]

theorem joins_one_pool_single : ∃ cfg : Config,
    system.Follows Any (initial fun _ => true) single_add_run cfg ∧ OnePool 0 cfg.shared ∧
      cfg.shared.back 0 = some 0 := by
  obtain ⟨cfg, hfollows, hback⟩ : ∃ cfg,
      system.Follows Any (initial fun _ => true) single_add_run cfg ∧ cfg.shared.back 0 = some 0 :=
    System.exists_follows_of_run (by decide)
  obtain ⟨cfg', hfree, _⟩ : ∃ cfg', system.Follows (FindsFree 0) (initial fun _ => true)
      single_add_run cfg' ∧ cfg'.shared.back 0 = some 0 :=
    System.exists_follows_of_run (by decide)
  obtain rfl := hfollows.unique hfree
  exact ⟨cfg', hfollows, (joins_one_pool hfollows 0).mpr hfree, hback⟩

/-- Two threads add client 0, one to pool 0 and one to pool 1, and both test
    `c->pool` before either takes a lock. -/
def double_add_run : List Label :=
  [.call 1 (.wsp_pool_add 0 0), .call 2 (.wsp_pool_add 1 0), .app 1 (), .app 2 (), .app 1 (), .app 2 ()]

theorem client_joins_two_pools : ∃ cfg : Config,
    system.Follows Any (initial fun _ => true) double_add_run cfg ∧
      cfg.shared.returns 0 = [(0, .LWS_OK), (1, .LWS_OK)] ∧ cfg.shared.back 0 = some 1 ∧
      (cfg.shared.pool 0).clients = [0] ∧ (cfg.shared.pool 1).clients = [0] ∧
      (cfg.shared.pool 0).pending = [0] ∧ (cfg.shared.pool 1).pending = [0] :=
  System.exists_follows_of_run (by decide)

end lws_client.ws_pools
