import LwsClientDemo.Traffic

namespace lws_client

/-- `on_reconnect_decision`: the answer to `fail_count` and `current_delay_ms`. -/
abbrev Decision := Int → Int → Int

/-- The hook refuses from `max` failures in a row on. -/
def Decision.Limits (hook : Decision) (max : Int) : Prop :=
  ∀ fail_count delay, max ≤ fail_count → hook fail_count delay < 0

/-- Refuses from `max` failures on, and keeps the delay before. -/
def refuse_from (max : Int) : Decision := fun fail_count delay =>
  if fail_count ≥ max then -1 else delay

/-- The hook of the second scenario of `v2_hooks_demo.c`. -/
def v2_hooks_demo.reconnect_decision (max_failures : Int) : Decision := refuse_from max_failures

/-- The hook of the second scenario of `pool_hooks_demo.c`. -/
def pool_hooks_demo.rc_reconnect_decision (max : Int) : Decision := refuse_from max

theorem refuse_from_limits (max : Int) : (refuse_from max).Limits max := by
  intro fail_count delay h
  simp [refuse_from, h]

/-- `ret` is what the hook answers to the calls. -/
def Decision.answers (hook : Decision) (acts : List Act) (ret : Int) : Bool :=
  acts.all fun
    | .on_reconnect_decision fail_count delay => ret == hook fail_count delay
    | _ => true

theorem Decision.Limits.answer {hook : Decision} {max fail_count delay ret : Int} {acts : List Act}
    (h : hook.Limits max) (hret : hook.answers acts ret = true)
    (hcall : .on_reconnect_decision fail_count delay ∈ acts) (hfail : max ≤ fail_count) : ret < 0 := by
  have hanswer := List.all_eq_true.mp hret _ hcall
  rw [beq_iff_eq] at hanswer
  rw [hanswer]
  exact h fail_count delay hfail

end lws_client
