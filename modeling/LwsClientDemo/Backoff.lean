import LwsClientDemo.WsClient.Sections
import LwsClientDemo.WsClientV2.Decisions
import LwsClientDemo.WsPool.Decisions

namespace lws_client

/-- `min(init_ms * 2^k, max_ms)`. -/
def capped (init_ms max_ms : Int) (k : Nat) : Int := min (init_ms * 2 ^ k) max_ms

/-- What happens to the connections of a client: ESTABLISHED, a connect call that
    returns NULL, CONNECTION_ERROR or CLOSED. `a` holds the clock and the answer
    of `on_reconnect_decision`. -/
inductive Outcome where
  | established (wsi : WsiId)
  | refused (a : Answer)
  | connection_error (msg : Option String) (a : Answer)
  | closed (a : Answer)

/-- The answers to a failure. -/
def Outcome.failed : Outcome → Option Answer
  | .established _ => none
  | .refused a | .connection_error _ a | .closed a => some a

/-- The waits the documents promise, in microseconds, off by `shift` doublings
    up to the next ESTABLISHED and by `shift'` from then on, after `k` failures
    in a row. -/
def waits (init_ms max_ms : Int) (shift' : Nat) : Nat → Nat → List Outcome → List Int
  | _, _, [] => []
  | shift, k, o :: os =>
    match o.failed with
    | some _ => capped init_ms max_ms (k + shift) * 1000 :: waits init_ms max_ms shift' shift (k + 1) os
    | none => waits init_ms max_ms shift' shift' 0 os

variable {init_ms max_ms : Int} {shift shift' k : Nat} {os : List Outcome}

theorem capped_zero (h : init_ms ≤ max_ms) : capped init_ms max_ms 0 = init_ms := by
  simp [capped, h]

theorem capped_pos (h : 0 < init_ms) (hmax : init_ms ≤ max_ms) (k : Nat) :
    0 < capped init_ms max_ms k := by
  have hpow : 0 < init_ms * 2 ^ k := Int.mul_pos h (by positivity)
  exact lt_min hpow (by omega)

theorem capped_le (k : Nat) : capped init_ms max_ms k ≤ max_ms := min_le_right _ _

/-- One more failure doubles the wait, up to `max_ms`. -/
theorem capped_succ (h : 0 < init_ms) (hmax : init_ms ≤ max_ms) (k : Nat) :
    min (2 * capped init_ms max_ms k) max_ms = capped init_ms max_ms (k + 1) := by
  rw [capped, capped, pow_succ, ← mul_assoc]
  omega

theorem capped_const (h : 0 < init_ms) (k : Nat) : capped init_ms init_ms k = init_ms := by
  have hpow : (1 : Int) ≤ 2 ^ k := one_le_pow₀ (by decide)
  exact min_eq_right (le_mul_of_one_le_right h.le hpow)

/-- With `init_ms = max_ms` a shift makes no difference. -/
theorem waits_const (h : 0 < init_ms) :
    waits init_ms init_ms shift' shift k os = waits init_ms init_ms 0 0 0 os := by
  induction os generalizing shift' shift k with
  | nil => rfl
  | cons o os ih =>
    unfold waits
    split
    · rw [capped_const h, capped_const h]
      exact congrArg (List.cons _) (ih.trans ih.symm)
    · exact ih

/-- Without a failure nothing is waited for. -/
theorem waits_nil (h : ∀ o ∈ os, o.failed = none) : waits init_ms max_ms shift' shift k os = [] := by
  induction os generalizing shift' shift k with
  | nil => rfl
  | cons o os ih =>
    unfold waits
    rw [h o List.mem_cons_self]
    exact ih fun o' ho' => h o' (List.mem_cons_of_mem _ ho')

/-- The first failure tells a shift by one from none. -/
theorem waits_shifted_iff (h : 0 < init_ms) (hmax : init_ms ≤ max_ms) :
    waits init_ms max_ms 1 1 0 os = waits init_ms max_ms 0 0 0 os ↔
      init_ms = max_ms ∨ ∀ o ∈ os, o.failed = none := by
  constructor
  · intro hsame
    induction os with
    | nil => exact .inr (by simp)
    | cons o os ih =>
      unfold waits at hsame
      cases hfailed : o.failed with
      | some a =>
        rw [hfailed] at hsame
        have hhead : capped init_ms max_ms 1 = capped init_ms max_ms 0 := by
          simp only [List.cons.injEq] at hsame
          have heq := hsame.1
          simp only [Nat.zero_add] at heq
          omega
        rw [capped_zero hmax, ← capped_succ h hmax, capped_zero hmax] at hhead
        exact .inl (by omega)
      | none =>
        rw [hfailed] at hsame
        refine (ih hsame).imp_right fun hrest o' ho' => ?_
        rcases List.mem_cons.mp ho' with rfl | ho'
        · exact hfailed
        · exact hrest o' ho'
  · rintro (rfl | hnone)
    · exact waits_const h
    · rw [waits_nil hnone, waits_nil hnone]

section doubling

variable (h : 0 < init_ms) (hmax : init_ms ≤ max_ms) (hint : 2 * max_ms ≤ INT_MAX)

include h hmax hint

/-- `delay *= 2; if (delay > max_ms) delay = max_ms;` -/
theorem capped_doubled (k : Nat) :
    (if int_double (capped init_ms max_ms k) > max_ms then max_ms
      else int_double (capped init_ms max_ms k)) = capped init_ms max_ms (k + 1) := by
  have hpos := capped_pos h hmax k
  have hle : capped init_ms max_ms k ≤ max_ms := capped_le k
  rw [int_double_of_le hpos.le (by omega), ← capped_succ h hmax]
  split <;> omega

end doubling

namespace ws_client

def outcome (c : wsld_client) : Outcome → wsld_client
  | .established w => (established c w).1
  | .refused a => schedule_reconnect { c with wsi := none } a.now
  | .connection_error _ a | .closed a => closed c a.now

/-- The callbacks of a client, and the connect call that
    returns NULL, do to it what their outcome says. -/
theorem outcome_runs {s : Sys} (w : WsiId) (msg : Option String)
    (a : Answer) :
    ∀ o last, (o = .established w ∧ s.callback w a .CLIENT_ESTABLISHED = some ([], last)) ∨
        (o = .connection_error msg a ∧
          s.callback w a (.CLIENT_CONNECTION_ERROR msg) = some ([], last)) ∨
        (o = .closed a ∧ s.callback w a .CLIENT_CLOSED = some ([], last)) ∨
        (o = .refused a ∧ s.svc (.connect_return none) a = some ([], last)) →
      last.c = outcome s.c o := by
  rintro o last (⟨rfl, h⟩ | ⟨rfl, h⟩ | ⟨rfl, h⟩ | ⟨rfl, h⟩) <;> cases h <;> rfl

/-- The time from each failure to `reconnect_at`, in microseconds. -/
def waited (c : wsld_client) : List Outcome → List Int
  | [] => []
  | o :: os =>
    (o.failed.toList.map fun a => (reconnect_due (outcome c o) - a.now) * 1000) ++
      waited (outcome c o) os

/-- The client after `k` failures in a row. -/
structure Backs (init_ms max_ms : Int) (k : Nat) (c : wsld_client) : Prop where
  init : c.reconnect_init_ms = init_ms
  max : c.reconnect_max_ms = max_ms
  stopping : c.stopping = false
  delay : c.reconnect_delay_ms = capped init_ms max_ms k

variable {init_ms max_ms : Int} {k : Nat} {c : wsld_client} {os : List Outcome}

section doubling

variable (h : 0 < init_ms) (hmax : init_ms ≤ max_ms) (hint : 2 * max_ms ≤ INT_MAX)

include h hmax hint

theorem Backs.schedule (hc : Backs init_ms max_ms k c) (now : Int) :
    Backs init_ms max_ms (k + 1) (schedule_reconnect c now) := by
  refine ⟨hc.init, hc.max, hc.stopping, ?_⟩
  simp only [schedule_reconnect, hc.delay, hc.max]
  exact capped_doubled h hmax hint k

/-- v1 waits as the documents promise. -/
theorem Backs.waited (hc : Backs init_ms max_ms k c) :
    ws_client.waited c os = waits init_ms max_ms 0 0 k os := by
  induction os generalizing c k with
  | nil => rfl
  | cons o os ih =>
    have hfailure : ∀ (c' : wsld_client) (now : Int), Backs init_ms max_ms k c' →
        ((reconnect_due (schedule_reconnect c' now) - now) * 1000) ::
          ws_client.waited (schedule_reconnect c' now) os =
        capped init_ms max_ms k * 1000 :: waits init_ms max_ms 0 0 (k + 1) os := by
      intro c' now hc'
      rw [reconnect_due_schedule, hc'.delay, ih (hc'.schedule h hmax hint now)]
      simp
    have hdown : Backs init_ms max_ms k { c with wsi := none } :=
      ⟨hc.init, hc.max, hc.stopping, hc.delay⟩
    have hclosed : ∀ now, closed c now = schedule_reconnect { c with wsi := none } now :=
      fun now => if_neg (by simp [hc.stopping])
    cases o with
    | established w =>
      refine ih ⟨hc.init, hc.max, hc.stopping, ?_⟩
      rw [capped_zero hmax]
      exact hc.init
    | refused a => exact hfailure _ a.now hdown
    | connection_error msg a | closed a =>
      simp only [ws_client.waited, outcome, hclosed]
      exact hfailure _ a.now hdown

end doubling

end ws_client

namespace ws_client_v2

def outcome (c : wsl_client) : Outcome → wsl_client × List Act
  | .established _ => established c
  | .refused a => schedule_reconnect { c with wsi := none, state := .STATE_RECONNECT_WAIT } a.ret
  | .connection_error msg a =>
    let (c, acts) := connection_error c msg
    let (c, more) := schedule_reconnect c a.ret
    (c, acts ++ more)
  | .closed a =>
    let (c, acts) := closed c
    let (c, more) := schedule_reconnect c a.ret
    (c, acts ++ more)

/-- From `s` the first section leads to `schedule_reconnect`, and both do to the
    client what the outcome says. -/
def Schedules (s : Sys) (a : Answer) (first : Option (List Frame × Sys)) (o : Outcome) : Prop :=
  ∃ mid last, first = some ([.schedule_reconnect], mid) ∧
    mid.svc .schedule_reconnect a = some ([], last) ∧ last.c = (outcome s.c o).1 ∧
    last.trace = s.trace ++ (outcome s.c o).2

theorem outcome_runs {s : Sys} (hstop : s.c.stopping = false) (w : WsiId) (msg : Option String)
    (a : Answer) :
    Schedules s a (s.callback w a (.CLIENT_CONNECTION_ERROR msg)) (.connection_error msg a) ∧
      Schedules s a (s.callback w a .CLIENT_CLOSED) (.closed a) ∧
      Schedules s a (s.svc (.connect_return false) a) (.refused a) := by
  have hdown : s.callback w a (.CLIENT_CONNECTION_ERROR msg) = some ([.schedule_reconnect],
      (s.setLws (s.lws.setPhase w .closed)).act (connection_error s.c msg)) := by
    simp only [Sys.callback, hstop, Bool.false_eq_true, if_false]
  have hclosed : s.callback w a .CLIENT_CLOSED = some ([.schedule_reconnect],
      (s.setLws (s.lws.setPhase w .closed)).act (closed s.c)) := by
    simp only [Sys.callback, hstop, Bool.false_eq_true, if_false]
  refine ⟨⟨_, _, hdown, rfl, rfl, ?_⟩, ⟨_, _, hclosed, rfl, rfl, ?_⟩, ⟨_, _, rfl, rfl, rfl, ?_⟩⟩
  · exact List.append_assoc _ _ _
  · exact List.append_assoc _ _ _
  · exact congrArg (· ++ _) (List.append_nil _)

/-- The reconnect timers armed over a history, in microseconds. -/
def waited (c : wsl_client) : List Outcome → List Int
  | [] => []
  | o :: os => scheduled (outcome c o).2 ++ waited (outcome c o).1 os

/-- The client after `n` doublings, 0 standing for the first wait. -/
structure Backs (init_ms max_ms : Int) (n : Nat) (c : wsl_client) : Prop where
  init : c.reconnect_init_ms = init_ms
  max : c.reconnect_max_ms = max_ms
  stopping : c.stopping = false
  asks : c.asks = false
  delay : c.reconnect_delay_ms = if n = 0 then 0 else capped init_ms max_ms (n - 1)

variable {init_ms max_ms : Int} {k n shift : Nat} {c : wsl_client} {os : List Outcome}

theorem Backs.connection_error (hc : Backs init_ms max_ms n c) (msg : Option String) :
    Backs init_ms max_ms n (connection_error c msg).1 ∧
      scheduled (ws_client_v2.connection_error c msg).2 = [] := by
  obtain ⟨_, hclient⟩ := connection_error_client c msg
  refine ⟨?_, ?_⟩
  · rw [hclient]
    exact ⟨hc.init, hc.max, hc.stopping, hc.asks, hc.delay⟩
  · simp only [ws_client_v2.connection_error, hc.stopping]
    cases c.err_cb <;> cases hooked c.hooks (·.on_error) <;> cases c.conn_cb <;>
      cases hooked c.hooks (·.on_disconnected) <;> rfl

theorem Backs.closed (hc : Backs init_ms max_ms n c) :
    Backs init_ms max_ms n (closed c).1 ∧ scheduled (ws_client_v2.closed c).2 = [] := by
  obtain ⟨_, hclient⟩ := closed_client c
  refine ⟨?_, ?_⟩
  · rw [hclient]
    exact ⟨hc.init, hc.max, hc.stopping, hc.asks, hc.delay⟩
  · simp only [ws_client_v2.closed, hc.stopping]
    cases c.conn_cb <;> cases hooked c.hooks (·.on_disconnected) <;> rfl

section doubling

variable (h : 0 < init_ms) (hmax : init_ms ≤ max_ms) (hint : 2 * max_ms ≤ INT_MAX)

include h hmax hint

theorem Backs.schedule (hc : Backs init_ms max_ms n c) (ret : Int) :
    Backs init_ms max_ms (n + 1) (schedule_reconnect c ret).1 ∧
      scheduled (schedule_reconnect c ret).2 = [capped init_ms max_ms n * 1000] := by
  have hdelay : (if c.reconnect_delay_ms = 0 then c.reconnect_init_ms
      else if int_double c.reconnect_delay_ms > c.reconnect_max_ms then c.reconnect_max_ms
      else int_double c.reconnect_delay_ms) = capped init_ms max_ms n := by
    rw [hc.delay, hc.init, hc.max]
    cases n with
    | zero => exact (capped_zero hmax).symm
    | succ n =>
      have hpos := capped_pos h hmax n
      simp only [Nat.add_eq_zero_iff, one_ne_zero, and_false, if_false, Nat.add_sub_cancel]
      rw [if_neg hpos.ne']
      exact capped_doubled h hmax hint n
  have hasks : ¬ hooked c.hooks (·.on_reconnect_decision) = true := by
    simpa [wsl_client.asks] using hc.asks
  unfold schedule_reconnect
  dsimp only
  rw [hdelay, if_neg hasks]
  exact ⟨⟨hc.init, hc.max, hc.stopping, hc.asks, by simp⟩, rfl⟩

/-- v2 waits as the documents promise up to the first ESTABLISHED, and is one
    doubling ahead of them from then on. -/
theorem Backs.waited (hc : Backs init_ms max_ms (k + shift) c) :
    ws_client_v2.waited c os = waits init_ms max_ms 1 shift k os := by
  induction os generalizing c k shift with
  | nil => rfl
  | cons o os ih =>
    have hfailure : ∀ (c' : wsl_client) (acts : List Act) (ret : Int),
        Backs init_ms max_ms (k + shift) c' → scheduled acts = [] →
        scheduled (acts ++ (schedule_reconnect c' ret).2) ++
            ws_client_v2.waited (schedule_reconnect c' ret).1 os =
          capped init_ms max_ms (k + shift) * 1000 :: waits init_ms max_ms 1 shift (k + 1) os := by
      intro c' acts ret hc' hacts
      obtain ⟨hnext, hwait⟩ := hc'.schedule h hmax hint ret
      rw [Nat.add_right_comm] at hnext
      rw [scheduled, List.filterMap_append, ← scheduled, ← scheduled, hacts, hwait, ih hnext]
      rfl
    cases o with
    | established w =>
      have hnone : scheduled (established c).2 = [] := by
        unfold established onWsi
        cases c.wsi <;> cases c.conn_cb <;> cases hooked c.hooks (·.on_connected) <;>
          dsimp only <;> split <;> rfl
      have hup : Backs init_ms max_ms (0 + 1) (established c).1 :=
        ⟨hc.init, hc.max, hc.stopping, hc.asks, (capped_zero hmax ▸ hc.init :)⟩
      simp only [ws_client_v2.waited, outcome, hnone]
      exact ih hup
    | refused a =>
      exact hfailure _ [] a.ret ⟨hc.init, hc.max, hc.stopping, hc.asks, hc.delay⟩ rfl
    | connection_error msg a =>
      obtain ⟨hdown, hacts⟩ := hc.connection_error msg
      exact hfailure _ _ a.ret hdown hacts
    | closed a =>
      obtain ⟨hdown, hacts⟩ := hc.closed
      exact hfailure _ _ a.ret hdown hacts

end doubling

end ws_client_v2

namespace ws_pool

def outcome (c : wsp_client) : Outcome → wsp_client × List Act
  | .established w => established c w
  | .refused a => schedule_reconnect { c with wsi := none } a.ret
  | .connection_error msg a =>
    let (c, acts) := connection_error c msg
    let (c, more) := schedule_reconnect c a.ret
    (c, acts ++ more)
  | .closed a =>
    let (c, acts) := closed c
    let (c, more) := schedule_reconnect c a.ret
    (c, acts ++ more)

/-- From `s` the first section leads to `schedule_reconnect`, and both do to
    client `d` what the outcome says. -/
def Schedules (d : ClientId) (s : Sys) (a : Answer) (first : Option (List Frame × Sys))
    (o : Outcome) : Prop :=
  ∃ mid last, first = some ([.schedule_reconnect d], mid) ∧
    mid.svc (.schedule_reconnect d) a = some ([.schedule_arm d], mid) ∧
    mid.svc (.schedule_arm d) a = some ([], last) ∧ last.client d = (outcome (s.client d) o).1 ∧
    last.trace d = s.trace d ++ (outcome (s.client d) o).2

theorem outcome_runs {s : Sys} {d : ClientId} (hstop : (s.client d).stopping = false) (w : WsiId)
    (msg : Option String) (a : Answer) :
    Schedules d s a (s.callback d w a (.CLIENT_CONNECTION_ERROR msg)) (.connection_error msg a) ∧
      Schedules d s a (s.callback d w a .CLIENT_CLOSED) (.closed a) ∧
      Schedules d s a (s.svc (.connect_return d none) a) (.refused a) := by
  have hdown : s.callback d w a (.CLIENT_CONNECTION_ERROR msg) = some ([.schedule_reconnect d],
      (s.setLws (s.lws.setPhase w .closed)).act d (connection_error (s.client d) msg)) := by
    simp only [Sys.callback, hstop, Bool.false_eq_true, if_false]
  have hclosed : s.callback d w a .CLIENT_CLOSED = some ([.schedule_reconnect d],
      (s.setLws (s.lws.setPhase w .closed)).act d (closed (s.client d))) := by
    simp only [Sys.callback, hstop, Bool.false_eq_true, if_false]
  have hrunning : (connection_error (s.client d) msg).1.stopping = false ∧
      (closed (s.client d)).1.stopping = false := by
    simp [connection_error, closed, hstop]
  refine ⟨⟨_, _, hdown, ?_, rfl, ?_, ?_⟩, ⟨_, _, hclosed, ?_, rfl, ?_, ?_⟩,
    ⟨_, _, rfl, ?_, rfl, ?_, ?_⟩⟩
  all_goals simp [Sys.svc, Sys.setLws, outcome, hstop, hrunning]

/-- The reconnect timers armed over a history, in microseconds. -/
def waited (c : wsp_client) : List Outcome → List Int
  | [] => []
  | o :: os => scheduled (outcome c o).2 ++ waited (outcome c o).1 os

/-- The client after `k` failures in a row. -/
structure Backs (init_ms max_ms : Int) (k : Nat) (c : wsp_client) : Prop where
  init : c.reconnect_init_ms = init_ms
  max : c.reconnect_max_ms = max_ms
  stopping : c.stopping = false
  asks : c.asks = false
  delay : c.reconnect_delay_ms = capped init_ms max_ms k

variable {init_ms max_ms : Int} {k : Nat} {c : wsp_client} {os : List Outcome}

theorem Backs.connection_error (hc : Backs init_ms max_ms k c) (msg : Option String) :
    Backs init_ms max_ms k (connection_error c msg).1 ∧
      scheduled (ws_pool.connection_error c msg).2 = [] := by
  have hrunning : ¬ c.stopping = true := by simp [hc.stopping]
  unfold ws_pool.connection_error
  dsimp only
  rw [if_neg hrunning]
  refine ⟨⟨hc.init, hc.max, hc.stopping, hc.asks, hc.delay⟩, ?_⟩
  cases hooked c.hooks (·.on_error) <;> cases hooked c.hooks (·.on_disconnected) <;> rfl

theorem Backs.closed (hc : Backs init_ms max_ms k c) :
    Backs init_ms max_ms k (closed c).1 ∧ scheduled (ws_pool.closed c).2 = [] := by
  have hrunning : ¬ c.stopping = true := by simp [hc.stopping]
  unfold ws_pool.closed
  dsimp only
  rw [if_neg hrunning]
  refine ⟨⟨hc.init, hc.max, hc.stopping, hc.asks, hc.delay⟩, ?_⟩
  cases hooked c.hooks (·.on_disconnected) <;> rfl

section doubling

variable (h : 0 < init_ms) (hmax : init_ms ≤ max_ms) (hint : 2 * max_ms ≤ INT_MAX)

include h hmax hint

theorem Backs.schedule (hc : Backs init_ms max_ms k c) (ret : Int) :
    Backs init_ms max_ms (k + 1) (schedule_reconnect c ret).1 ∧
      scheduled (schedule_reconnect c ret).2 = [capped init_ms max_ms (k + 1) * 1000] := by
  have hdelay : (if int_double c.reconnect_delay_ms > c.reconnect_max_ms then c.reconnect_max_ms
      else int_double c.reconnect_delay_ms) = capped init_ms max_ms (k + 1) := by
    rw [hc.delay, hc.max]
    exact capped_doubled h hmax hint k
  have hasks : ¬ hooked c.hooks (·.on_reconnect_decision) = true := by
    simpa [wsp_client.asks] using hc.asks
  unfold schedule_reconnect
  dsimp only
  rw [hdelay, if_neg hasks]
  exact ⟨⟨hc.init, hc.max, hc.stopping, hc.asks, rfl⟩, rfl⟩

/-- The pool is one doubling ahead of the documents. -/
theorem Backs.waited (hc : Backs init_ms max_ms k c) :
    ws_pool.waited c os = waits init_ms max_ms 1 1 k os := by
  induction os generalizing c k with
  | nil => rfl
  | cons o os ih =>
    have hfailure : ∀ (c' : wsp_client) (acts : List Act) (ret : Int),
        Backs init_ms max_ms k c' → scheduled acts = [] →
        scheduled (acts ++ (schedule_reconnect c' ret).2) ++
            ws_pool.waited (schedule_reconnect c' ret).1 os =
          capped init_ms max_ms (k + 1) * 1000 :: waits init_ms max_ms 1 1 (k + 1) os := by
      intro c' acts ret hc' hacts
      obtain ⟨hnext, hwait⟩ := hc'.schedule h hmax hint ret
      rw [scheduled, List.filterMap_append, ← scheduled, ← scheduled, hacts, hwait, ih hnext]
      rfl
    cases o with
    | established w =>
      have hnone : scheduled (established c w).2 = [] := by
        unfold established
        cases hooked c.hooks (·.on_connected) <;> rfl
      have hup : Backs init_ms max_ms 0 (established c w).1 :=
        ⟨hc.init, hc.max, hc.stopping, hc.asks, (capped_zero hmax ▸ hc.init :)⟩
      simp only [ws_pool.waited, outcome, hnone]
      exact ih hup
    | refused a =>
      exact hfailure _ [] a.ret ⟨hc.init, hc.max, hc.stopping, hc.asks, hc.delay⟩ rfl
    | connection_error msg a =>
      obtain ⟨hdown, hacts⟩ := hc.connection_error msg
      exact hfailure _ _ a.ret hdown hacts
    | closed a =>
      obtain ⟨hdown, hacts⟩ := hc.closed
      exact hfailure _ _ a.ret hdown hacts

end doubling

end ws_pool

/-- The three clients, with their backoff set to `init_ms` and `max_ms`, wait as
    the documents promise, `min(init_ms * 2^(k-1), max_ms)` for the `k`-th
    failure in a row, exactly when the two are equal or nothing fails. -/
theorem backoff_alike {c : ws_client.wsld_client} {c' : ws_client_v2.wsl_client}
    {c'' : ws_pool.wsp_client} (hc : c.Fresh) (hc' : c'.Fresh) (hc'' : c''.Fresh)
    (hasks' : c'.asks = false) (hasks'' : c''.asks = false) (h : 0 < init_ms)
    (hmax : init_ms ≤ max_ms) (hint : 2 * max_ms ≤ INT_MAX) (os : List Outcome) :
    (ws_client.waited (ws_client.wsld_set_reconnect c init_ms max_ms) os =
        waits init_ms max_ms 0 0 0 os ∧
      ws_client_v2.waited (ws_client_v2.wsl_set_reconnect c' init_ms max_ms) os =
        waits init_ms max_ms 0 0 0 os ∧
      ws_pool.waited (ws_pool.wsp_set_reconnect c'' init_ms max_ms) os =
        waits init_ms max_ms 0 0 0 os) ↔
      init_ms = max_ms ∨ ∀ o ∈ os, o.failed = none := by
  have hv1 : ws_client.Backs init_ms max_ms 0 (ws_client.wsld_set_reconnect c init_ms max_ms) :=
    ⟨rfl, rfl, hc.stopping, (capped_zero hmax).symm⟩
  have hv2 : ws_client_v2.Backs init_ms max_ms (0 + 0)
      (ws_client_v2.wsl_set_reconnect c' init_ms max_ms) :=
    ⟨rfl, rfl, hc'.stopping, hasks', hc'.delay⟩
  have hpool : ws_pool.Backs init_ms max_ms 0 (ws_pool.wsp_set_reconnect c'' init_ms max_ms) :=
    ⟨rfl, rfl, hc''.stopping, hasks'', (capped_zero hmax).symm⟩
  rw [hv1.waited h hmax hint, hv2.waited h hmax hint, hpool.waited h hmax hint]
  constructor
  · rintro ⟨_, _, hsame⟩
    exact (waits_shifted_iff h hmax).mp hsame
  · intro hcond
    refine ⟨rfl, ?_, (waits_shifted_iff h hmax).mpr hcond⟩
    rcases hcond with rfl | hnone
    · exact waits_const h
    · rw [waits_nil hnone, waits_nil hnone]

theorem backoff_alike_constant :
    ws_pool.waited (ws_pool.wsp_set_reconnect
        (ws_pool.wsp_client_create "localhost" 9000 none true) 1000 1000)
      [.refused {}, .established 0, .closed {}] = [1000000, 1000000] := by
  have hsame := (backoff_alike (ws_client.wsld_create_fresh "localhost" 9000 none true)
    (ws_client_v2.wsl_create_fresh "localhost" 9000 none true)
    (ws_pool.wsp_client_create_fresh "localhost" 9000 none true) rfl rfl (by decide)
    (le_refl 1000) (by decide) [.refused {}, .established 0, .closed {}]).mpr (.inl rfl)
  rw [hsame.2.2]
  decide

/-- With the default backoff of 1 s up to 60 s a first failure and a lost
    connection should each be followed by 1 s. v1 waits so, v2 waits 1 s and 2 s,
    and the pool 2 s twice. -/
theorem backoff_differs :
    waits 1000 60000 0 0 0 [.refused {}, .established 0, .closed {}] = [1000000, 1000000] ∧
      ws_client.waited (ws_client.wsld_create "localhost" 9000 none true)
        [.refused {}, .established 0, .closed {}] = [1000000, 1000000] ∧
      ws_client_v2.waited (ws_client_v2.wsl_create "localhost" 9000 none true)
        [.refused {}, .established 0, .closed {}] = [1000000, 2000000] ∧
      ws_pool.waited (ws_pool.wsp_client_create "localhost" 9000 none true)
        [.refused {}, .established 0, .closed {}] = [2000000, 2000000] := by
  decide

end lws_client
