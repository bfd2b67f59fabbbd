import LwsClientDemo.Backoff

namespace lws_client

/-- The `current_delay_ms` of each `on_reconnect_decision`, in order. -/
def offered (acts : List Act) : List Int :=
  acts.filterMap fun
    | .on_reconnect_decision _ current_delay_ms => some current_delay_ms
    | _ => none

theorem offered_append (xs ys : List Act) : offered (xs ++ ys) = offered xs ++ offered ys :=
  List.filterMap_append

/-- The answers of the hook are non-negative `int`s. -/
def Agreeable (os : List Outcome) : Prop :=
  ∀ o ∈ os, ∀ a, o.failed = some a → 0 ≤ a.ret ∧ a.ret ≤ INT_MAX

/-- What a failure asks the hook is in range: at most `max_ms`, and at least
    `init_ms`, or at least 1 once an answer since the last ESTABLISHED was not
    the delay that was offered. -/
def InRange (init_ms max_ms : Int) (overridden : Bool) (acts : List Act) : Prop :=
  ∃ delay, offered acts = [delay] ∧ (if overridden then 1 else init_ms) ≤ delay ∧ delay ≤ max_ms

/-- No failure finds a delay of more than half of `INT_MAX`, and none finds one
    of 0 where `least` is 1. `delay` is the one to be doubled next: `init_ms`
    after an ESTABLISHED, the answer of the hook after a failure. -/
def doubles (least init_ms : Int) : Int → List Outcome → Bool
  | _, [] => true
  | delay, o :: os =>
    match o.failed with
    | none => doubles least init_ms init_ms os
    | some a => decide (least ≤ delay ∧ 2 * delay ≤ INT_MAX) && doubles least init_ms a.ret os

variable {init_ms max_ms delay : Int} {os : List Outcome} {overridden : Bool}

/-- `delay *= 2; if (delay > max_ms) delay = max_ms;` stays in range when the
    doubling does not overflow, and is negative when it does. -/
theorem doubled_range (hpos : 0 < delay) (hint : delay ≤ INT_MAX) (hinit : 0 < init_ms)
    (hmax : init_ms ≤ max_ms) (hlow : overridden = false → init_ms ≤ delay) :
    ((if overridden then 1 else init_ms) ≤
          (if int_double delay > max_ms then max_ms else int_double delay) ∧
        (if int_double delay > max_ms then max_ms else int_double delay) ≤ max_ms) ↔
      2 * delay ≤ INT_MAX := by
  constructor
  · rintro ⟨hge, _⟩
    by_contra hbig
    have hwraps : int_double delay = 2 * delay - 2 ^ 32 := by
      simp only [INT_MAX] at hint hbig
      simp only [int_double, Int.bmod]
      split <;> omega
    simp only [INT_MAX] at hint
    rw [if_neg (by omega)] at hge
    split at hge <;> omega
  · intro hsmall
    rw [int_double_of_le hpos.le hsmall]
    cases overridden with
    | true =>
      simp only [if_true]
      split <;> omega
    | false =>
      have hge := hlow rfl
      simp only [Bool.false_eq_true, if_false]
      split <;> omega

section history

variable {γ : Type} (outcome : γ → Outcome → γ × List Act)

/-- Every failure of a history offers the hook a delay in range. -/
def Sound (init_ms max_ms : Int) : Bool → γ → List Outcome → Prop
  | _, _, [] => True
  | overridden, c, o :: os =>
    match o.failed with
    | none => Sound init_ms max_ms false (outcome c o).1 os
    | some a =>
      InRange init_ms max_ms overridden (outcome c o).2 ∧
        Sound init_ms max_ms (overridden || offered (outcome c o).2 != [a.ret]) (outcome c o).1 os

/-- What one failure does to a client that `Steered` relates to the delay it
    doubles next and to whether the hook has overridden it. -/
def Steers (init_ms max_ms least : Int) (Steered : Int → Bool → γ → Prop) (delay : Int)
    (overridden : Bool) (a : Answer) (r : γ × List Act) : Prop :=
  (InRange init_ms max_ms overridden r.2 ↔ least ≤ delay ∧ 2 * delay ≤ INT_MAX) ∧
    (InRange init_ms max_ms overridden r.2 →
      Steered a.ret (overridden || offered r.2 != [a.ret]) r.1)

variable {outcome} {Steered : Int → Bool → γ → Prop} {least : Int} {c : γ}

theorem sound_iff
    (hup : ∀ delay overridden c w, Steered delay overridden c →
      Steered init_ms false (outcome c (.established w)).1)
    (hdown : ∀ delay overridden c o a, Steered delay overridden c → Outcome.failed o = some a →
      0 ≤ a.ret → a.ret ≤ INT_MAX →
        Steers init_ms max_ms least Steered delay overridden a (outcome c o))
    (hc : Steered delay overridden c) (hos : Agreeable os) :
    Sound outcome init_ms max_ms overridden c os ↔ doubles least init_ms delay os = true := by
  induction os generalizing c delay overridden with
  | nil => exact iff_of_true trivial rfl
  | cons o os ih =>
    have hrest : Agreeable os := fun o ho => hos o (List.mem_cons_of_mem _ ho)
    unfold Sound doubles
    cases hfailed : o.failed with
    | none =>
      cases o with
      | established w => exact ih (hup _ _ _ w hc) hrest
      | refused a | connection_error msg a | closed a => cases hfailed
    | some a =>
      obtain ⟨hret, hret'⟩ := hos o List.mem_cons_self a hfailed
      obtain ⟨hrange, hnext⟩ := hdown _ _ _ _ _ hc hfailed hret hret'
      simp only [Bool.and_eq_true, decide_eq_true_eq]
      constructor
      · rintro ⟨hin, hlater⟩
        exact ⟨hrange.mp hin, (ih (hnext hin) hrest).mp hlater⟩
      · rintro ⟨hsmall, hlater⟩
        have hin := hrange.mpr hsmall
        exact ⟨hin, (ih (hnext hin) hrest).mpr hlater⟩

/-- Calls that offer nothing come before it makes no difference. -/
theorem Steers.prepend {a : Answer} {r : γ × List Act} {acts : List Act}
    (h : Steers init_ms max_ms least Steered delay overridden a r) (hacts : offered acts = []) :
    Steers init_ms max_ms least Steered delay overridden a (r.1, acts ++ r.2) := by
  have hoffers : offered (acts ++ r.2) = offered r.2 := by
    rw [offered_append, hacts, List.nil_append]
  have hsame : InRange init_ms max_ms overridden (acts ++ r.2) ↔
      InRange init_ms max_ms overridden r.2 := by
    rw [InRange, InRange, hoffers]
  refine ⟨hsame.trans h.1, fun hin => ?_⟩
  rw [hoffers]
  exact h.2 (hsame.mp hin)

end history

namespace ws_client_v2

/-- A client with the hook set, the delay it doubles next, and whether the hook
    has overridden it. -/
structure Steered (init_ms max_ms delay : Int) (overridden : Bool) (c : wsl_client) : Prop where
  init : c.reconnect_init_ms = init_ms
  max : c.reconnect_max_ms = max_ms
  stopping : c.stopping = false
  asks : c.asks = true
  reconnect_delay_ms : c.reconnect_delay_ms = delay
  nonneg : 0 ≤ delay
  int : delay ≤ INT_MAX
  low : overridden = false → delay = 0 ∨ init_ms ≤ delay

variable {init_ms max_ms delay : Int} {overridden : Bool} {c : wsl_client} {os : List Outcome}

/-- The handlers that come before `schedule_reconnect` change nothing it reads,
    and ask nothing. -/
theorem Steered.down (hc : Steered init_ms max_ms delay overridden c) :
    (∀ msg, Steered init_ms max_ms delay overridden (connection_error c msg).1 ∧
        offered (connection_error c msg).2 = []) ∧
      Steered init_ms max_ms delay overridden (closed c).1 ∧ offered (closed c).2 = [] := by
  refine ⟨fun msg => ⟨?_, ?_⟩, ?_, ?_⟩
  · obtain ⟨_, hclient⟩ := connection_error_client c msg
    rw [hclient]
    exact ⟨hc.init, hc.max, hc.stopping, hc.asks, hc.reconnect_delay_ms, hc.nonneg, hc.int, hc.low⟩
  · simp only [connection_error, hc.stopping]
    cases c.err_cb <;> cases hooked c.hooks (·.on_error) <;> cases c.conn_cb <;>
      cases hooked c.hooks (·.on_disconnected) <;> rfl
  · obtain ⟨_, hclient⟩ := closed_client c
    rw [hclient]
    exact ⟨hc.init, hc.max, hc.stopping, hc.asks, hc.reconnect_delay_ms, hc.nonneg, hc.int, hc.low⟩
  · simp only [closed, hc.stopping]
    cases c.conn_cb <;> cases hooked c.hooks (·.on_disconnected) <;> rfl

/-- `schedule_reconnect` offers one delay and takes the answer for the next. -/
theorem Steered.schedule (hc : Steered init_ms max_ms delay overridden c) (hinit : 0 < init_ms)
    (hmax : init_ms ≤ max_ms) {a : Answer} (hret : 0 ≤ a.ret) (hret' : a.ret ≤ INT_MAX) :
    Steers init_ms max_ms 0 (Steered init_ms max_ms) delay overridden a
      (schedule_reconnect c a.ret) := by
  have hasks : hooked c.hooks (·.on_reconnect_decision) = true := hc.asks
  have hoffered : offered (schedule_reconnect c a.ret).2 = [if delay = 0 then init_ms
      else if int_double delay > max_ms then max_ms else int_double delay] := by
    unfold schedule_reconnect
    dsimp only
    rw [if_pos hasks, if_neg (by omega), hc.reconnect_delay_ms, hc.init, hc.max]
    rfl
  have hnext : (schedule_reconnect c a.ret).1 =
      { c with
        reconnect_delay_ms := a.ret, state := .STATE_RECONNECT_WAIT, sul := some (a.ret * 1000) } := by
    unfold schedule_reconnect
    dsimp only
    rw [if_pos hasks, if_neg (by omega)]
  refine ⟨?_, fun hrange => ?_⟩
  · simp only [InRange, hoffered, List.cons.injEq, and_true, exists_eq_left', hc.nonneg, true_and]
    by_cases hzero : delay = 0
    · rw [if_pos hzero]
      refine iff_of_true ⟨?_, hmax⟩ (by simp [hzero, INT_MAX])
      split <;> omega
    · rw [if_neg hzero]
      exact doubled_range (lt_of_le_of_ne hc.nonneg (Ne.symm hzero)) hc.int hinit hmax
        fun hnot => (hc.low hnot).resolve_left hzero
  · rw [hnext]
    refine ⟨hc.init, hc.max, hc.stopping, hc.asks, rfl, hret, hret', fun hnot => .inr ?_⟩
    -- The answer is the delay that was offered.
    obtain ⟨offer, heq, hge, _⟩ := hrange
    rw [Bool.or_eq_false_iff] at hnot
    obtain ⟨rfl, hsame⟩ := hnot
    rw [heq] at hsame
    obtain rfl : offer = a.ret := by simpa using hsame
    simpa using hge

/-- A history is sound exactly when every doubling of it stays an `int`. -/
theorem Steered.sound_iff (hc : Steered init_ms max_ms delay overridden c) (hinit : 0 < init_ms)
    (hmax : init_ms ≤ max_ms) (hint : max_ms ≤ INT_MAX) (hos : Agreeable os) :
    Sound outcome init_ms max_ms overridden c os ↔ doubles 0 init_ms delay os = true := by
  refine lws_client.sound_iff (fun delay overridden c w hc => ?_)
    (fun delay overridden c o a hc hfailed hret hret' => ?_) hc hos
  · exact ⟨hc.init, hc.max, hc.stopping, hc.asks, hc.init, hinit.le, hmax.trans hint,
      fun _ => .inr le_rfl⟩
  · obtain ⟨herror, hclosed, hquiet⟩ := hc.down
    cases o with
    | established w => cases hfailed
    | refused a =>
      cases hfailed
      have hrefused : Steered init_ms max_ms delay overridden
          { c with wsi := none, state := .STATE_RECONNECT_WAIT } :=
        ⟨hc.init, hc.max, hc.stopping, hc.asks, hc.reconnect_delay_ms, hc.nonneg, hc.int, hc.low⟩
      exact hrefused.schedule hinit hmax hret hret'
    | connection_error msg a =>
      cases hfailed
      exact ((herror msg).1.schedule hinit hmax hret hret').prepend (herror msg).2
    | closed a =>
      cases hfailed
      exact (hclosed.schedule hinit hmax hret hret').prepend hquiet

theorem Steered.of_fresh (hc : c.Fresh) (hasks : c.asks = true) :
    Steered init_ms max_ms 0 false (wsl_set_reconnect c init_ms max_ms) :=
  ⟨rfl, rfl, hc.stopping, hasks, hc.delay, le_rfl, by decide, fun _ => .inl rfl⟩

end ws_client_v2

namespace ws_pool

/-- A client with the hook set, the delay it doubles next, and whether the hook
    has overridden it. -/
structure Steered (init_ms max_ms delay : Int) (overridden : Bool) (c : wsp_client) : Prop where
  init : c.reconnect_init_ms = init_ms
  max : c.reconnect_max_ms = max_ms
  stopping : c.stopping = false
  asks : c.asks = true
  reconnect_delay_ms : c.reconnect_delay_ms = delay
  nonneg : 0 ≤ delay
  int : delay ≤ INT_MAX
  low : overridden = false → init_ms ≤ delay

variable {init_ms max_ms delay : Int} {overridden : Bool} {c : wsp_client} {os : List Outcome}

/-- The handlers that come before `schedule_reconnect` change nothing it reads,
    and ask nothing. -/
theorem Steered.down (hc : Steered init_ms max_ms delay overridden c) :
    (∀ msg, Steered init_ms max_ms delay overridden (connection_error c msg).1 ∧
        offered (connection_error c msg).2 = []) ∧
      Steered init_ms max_ms delay overridden (closed c).1 ∧ offered (closed c).2 = [] := by
  have hrunning : ¬ c.stopping = true := by simp [hc.stopping]
  unfold connection_error closed
  dsimp only
  refine ⟨fun msg => ?_, ?_⟩
  · rw [if_neg hrunning]
    refine ⟨⟨hc.init, hc.max, hc.stopping, hc.asks, hc.reconnect_delay_ms, hc.nonneg, hc.int, hc.low⟩, ?_⟩
    cases hooked c.hooks (·.on_error) <;> cases hooked c.hooks (·.on_disconnected) <;> rfl
  · rw [if_neg hrunning]
    refine ⟨⟨hc.init, hc.max, hc.stopping, hc.asks, hc.reconnect_delay_ms, hc.nonneg, hc.int, hc.low⟩, ?_⟩
    cases hooked c.hooks (·.on_disconnected) <;> rfl

/-- `schedule_reconnect` offers one delay and takes the answer for the next. A
    delay of 0 stays 0. -/
theorem Steered.schedule (hc : Steered init_ms max_ms delay overridden c) (hinit : 0 < init_ms)
    (hmax : init_ms ≤ max_ms) {a : Answer} (hret : 0 ≤ a.ret) (hret' : a.ret ≤ INT_MAX) :
    Steers init_ms max_ms 1 (Steered init_ms max_ms) delay overridden a
      (schedule_reconnect c a.ret) := by
  have hasks : hooked c.hooks (·.on_reconnect_decision) = true := hc.asks
  have hoffered : offered (schedule_reconnect c a.ret).2 =
      [if int_double delay > max_ms then max_ms else int_double delay] := by
    unfold schedule_reconnect
    dsimp only
    rw [if_pos hasks, if_neg (by omega), hc.reconnect_delay_ms, hc.max]
    rfl
  have hnext : (schedule_reconnect c a.ret).1 =
      { c with
        reconnect_delay_ms := a.ret, state := .STATE_RECONNECT_WAIT, sul := some (a.ret * 1000) } := by
    unfold schedule_reconnect
    dsimp only
    rw [if_pos hasks, if_neg (by omega)]
  refine ⟨?_, fun hrange => ?_⟩
  · simp only [InRange, hoffered, List.cons.injEq, and_true, exists_eq_left']
    by_cases hzero : delay = 0
    · subst hzero
      have hdouble : int_double 0 = 0 := rfl
      rw [hdouble, if_neg (show ¬ 0 > max_ms by omega)]
      refine iff_of_false (fun hin => ?_) (fun hpos => absurd hpos.1 (by decide))
      have hge := hin.1
      split at hge <;> omega
    · have hpos : 0 < delay := lt_of_le_of_ne hc.nonneg (Ne.symm hzero)
      rw [doubled_range hpos hc.int hinit hmax hc.low]
      exact ⟨fun hsmall => ⟨hpos, hsmall⟩, And.right⟩
  · rw [hnext]
    refine ⟨hc.init, hc.max, hc.stopping, hc.asks, rfl, hret, hret', fun hnot => ?_⟩
    -- The answer is the delay that was offered.
    obtain ⟨offer, heq, hge, _⟩ := hrange
    rw [Bool.or_eq_false_iff] at hnot
    obtain ⟨rfl, hsame⟩ := hnot
    rw [heq] at hsame
    obtain rfl : offer = a.ret := by simpa using hsame
    simpa using hge

/-- A history is sound exactly when every doubling of it stays an `int` and
    none starts from 0. -/
theorem Steered.sound_iff (hc : Steered init_ms max_ms delay overridden c) (hinit : 0 < init_ms)
    (hmax : init_ms ≤ max_ms) (hint : max_ms ≤ INT_MAX) (hos : Agreeable os) :
    Sound outcome init_ms max_ms overridden c os ↔ doubles 1 init_ms delay os = true := by
  refine lws_client.sound_iff (fun delay overridden c w hc => ?_)
    (fun delay overridden c o a hc hfailed hret hret' => ?_) hc hos
  · exact ⟨hc.init, hc.max, hc.stopping, hc.asks, hc.init, hinit.le, hmax.trans hint, fun _ => le_rfl⟩
  · obtain ⟨herror, hclosed, hquiet⟩ := hc.down
    cases o with
    | established w => cases hfailed
    | refused a =>
      cases hfailed
      have hrefused : Steered init_ms max_ms delay overridden { c with wsi := none } :=
        ⟨hc.init, hc.max, hc.stopping, hc.asks, hc.reconnect_delay_ms, hc.nonneg, hc.int, hc.low⟩
      exact hrefused.schedule hinit hmax hret hret'
    | connection_error msg a =>
      cases hfailed
      exact ((herror msg).1.schedule hinit hmax hret hret').prepend (herror msg).2
    | closed a =>
      cases hfailed
      exact (hclosed.schedule hinit hmax hret hret').prepend hquiet

theorem Steered.of_fresh (hc : c.Fresh) (hasks : c.asks = true) (hinit : 0 < init_ms)
    (hmax : init_ms ≤ max_ms) (hint : max_ms ≤ INT_MAX) :
    Steered init_ms max_ms init_ms false (wsp_set_reconnect c init_ms max_ms) :=
  ⟨rfl, rfl, hc.stopping, hasks, rfl, hinit.le, hmax.trans hint, fun _ => le_rfl⟩

end ws_pool

/-- In v2 and in the pool every delay offered to `on_reconnect_decision` is in
    range, whatever non-negative values it returns, exactly when no failure
    doubles more than half of `INT_MAX` and, in the pool, none doubles 0. -/
theorem overrides_in_range {c : ws_client_v2.wsl_client} {c' : ws_pool.wsp_client} (hc : c.Fresh)
    (hc' : c'.Fresh) (hasks : c.asks = true) (hasks' : c'.asks = true) (hinit : 0 < init_ms)
    (hmax : init_ms ≤ max_ms) (hint : max_ms ≤ INT_MAX) (hos : Agreeable os) :
    (Sound ws_client_v2.outcome init_ms max_ms false
        (ws_client_v2.wsl_set_reconnect c init_ms max_ms) os ↔ doubles 0 init_ms 0 os = true) ∧
      (Sound ws_pool.outcome init_ms max_ms false (ws_pool.wsp_set_reconnect c' init_ms max_ms) os ↔
        doubles 1 init_ms init_ms os = true) :=
  ⟨(ws_client_v2.Steered.of_fresh hc hasks).sound_iff hinit hmax hint hos,
    (ws_pool.Steered.of_fresh hc' hasks' hinit hmax hint).sound_iff hinit hmax hint hos⟩

/-- A hook that waits 5 ms, and after an ESTABLISHED and another failure 7 s. -/
def overrides : List Outcome :=
  [.refused { ret := 5 }, .refused { ret := 7000 }, .established 0, .closed { ret := 2000 },
    .connection_error none { ret := 2000 }]

theorem agreeable_iff : Agreeable os ↔
    os.all (fun o => o.failed.all fun a => decide (0 ≤ a.ret ∧ a.ret ≤ INT_MAX)) = true := by
  simp [Agreeable, Option.all_eq_true]

theorem overrides_in_range_agreed :
    Sound ws_client_v2.outcome 1000 60000 false
        (ws_client_v2.wsl_set_reconnect ws_client_v2.asking_client 1000 60000) overrides ∧
      Sound ws_pool.outcome 1000 60000 false
        (ws_pool.wsp_set_reconnect (ws_pool.asking_client 0) 1000 60000) overrides := by
  obtain ⟨hv2, hpool⟩ := overrides_in_range ws_client_v2.asking_client_fresh
    (ws_pool.asking_client_fresh 0) rfl rfl (by decide) (show (1000 : Int) ≤ 60000 by decide)
    (by decide) (agreeable_iff.mpr (show overrides.all _ = true by decide))
  exact ⟨hv2.mpr (by decide), hpool.mpr (by decide)⟩

/-- After an answer of 1500000000 ms the doubling overflows in v2, and after an
    answer of 0 the pool offers 0 again. -/
theorem overrides_derail :
    (Agreeable [.refused { ret := 1500000000 }, .refused {}] ∧
      ¬ Sound ws_client_v2.outcome 1000 60000 false
        (ws_client_v2.wsl_set_reconnect ws_client_v2.asking_client 1000 60000)
        [.refused { ret := 1500000000 }, .refused {}]) ∧
    Agreeable [.refused { ret := 0 }, .refused {}] ∧
      ¬ Sound ws_pool.outcome 1000 60000 false
        (ws_pool.wsp_set_reconnect (ws_pool.asking_client 0) 1000 60000)
        [.refused { ret := 0 }, .refused {}] := by
  have hlarge : Agreeable [.refused { ret := 1500000000 }, .refused {}] :=
    agreeable_iff.mpr (by decide)
  have hzero : Agreeable [.refused { ret := 0 }, .refused {}] := agreeable_iff.mpr (by decide)
  have hv2 : ws_client_v2.Steered 1000 60000 0 false
      (ws_client_v2.wsl_set_reconnect ws_client_v2.asking_client 1000 60000) :=
    .of_fresh ws_client_v2.asking_client_fresh rfl
  have hpool := ws_pool.Steered.of_fresh (ws_pool.asking_client_fresh 0) rfl
    (show (0 : Int) < 1000 by decide) (show (1000 : Int) ≤ 60000 by decide) (by decide)
  refine ⟨⟨hlarge, ?_⟩, hzero, ?_⟩
  · rw [hv2.sound_iff (by decide) (by decide) (by decide) hlarge]
    decide
  · rw [hpool.sound_iff (by decide) (by decide) (by decide) hzero]
    decide

end lws_client
