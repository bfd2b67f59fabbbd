import LwsClientDemo.Traffic
import LwsClientDemo.Population

namespace lws_client

/-- What counts for the heartbeat of a connection: its ESTABLISHED, a PING handed
    to `lws_write` on it, a PONG received on it. -/
inductive Pulse where
  | established
  | ping
  | pong
  deriving DecidableEq

/-- The PINGs that calls write on connection `w`. -/
def pinged (w : WsiId) (acts : List Act) : List Pulse :=
  acts.filterMap fun
    | .lws_write v _ _ .LWS_WRITE_PING => if v = w then some .ping else none
    | _ => none

/-- The times for which calls set the timer of connection `w`, in microseconds. -/
def timers (w : WsiId) (acts : List Act) : List Int :=
  acts.filterMap fun
    | .lws_set_timer_usecs v usecs => if v = w then some usecs else none
    | _ => none

/-- A PING was written and no PONG has been received since. -/
def unanswered (pulses : List Pulse) : Bool := pulses.getLast? == some .ping

/-- Calls that have nothing to do with heartbeats. -/
def Act.timeless : Act → Bool
  | .lws_set_timer_usecs _ _ | .lws_write _ _ _ .LWS_WRITE_PING => false
  | _ => true

variable {w : WsiId} {acts : List Act} {x y : lws_context} {pending pending' : Bool}
  {opened claimed sends : Prop} {pulses : List Pulse} {interval timeout : Int}

@[simp] theorem pinged_append (xs ys : List Act) : pinged w (xs ++ ys) = pinged w xs ++ pinged w ys := by
  simp [pinged]

@[simp] theorem timers_append (xs ys : List Act) : timers w (xs ++ ys) = timers w xs ++ timers w ys := by
  simp [timers]

theorem Every.pinged (h : Every Act.timeless acts) (w : WsiId) : pinged w acts = [] := by
  rw [lws_client.pinged, List.filterMap_eq_nil_iff]
  intro act hact
  have htimeless := h act hact
  cases act with
  | lws_write v buf len wp => cases wp <;> first | rfl | cases htimeless
  | _ => rfl

theorem Every.timers (h : Every Act.timeless acts) (w : WsiId) : timers w acts = [] := by
  rw [lws_client.timers, List.filterMap_eq_nil_iff]
  intro act hact
  have htimeless := h act hact
  cases act <;> first | rfl | cases htimeless

theorem write_node_timeless (n : ws_msg_node_t) (v : WsiId) : Every Act.timeless (write_node n v) := by
  obtain ⟨len, is_binary, buf, _, _⟩ := n
  cases is_binary <;> exact Every.pair rfl rfl

/-- What a step with these calls does to an open connection `w`: nothing to its
    timer, or it is set anew. `claimed` is whether a hook may take a TIMER, `sends`
    whether the step is a WRITEABLE that has a ping to send. -/
inductive Beats (w : WsiId) (opened claimed sends : Prop) (interval timeout : Int) (x y : lws_context)
    (pending pending' : Bool) (acts : List Act) : List Pulse → Prop where
  | quiet : opened → (x.Armed w → y.Armed w) → (x.Failed w → y.Failed w) → pending' = pending →
      timers w acts = [] → Beats w opened claimed sends interval timeout x y pending pending' acts []
  | established : y.Armed w → pending' = false → timers w acts = [interval * 1000] →
      Beats w opened claimed sends interval timeout x y pending pending' acts [.established]
  | ping : opened → sends → (x.Armed w → y.Armed w) → (x.Failed w → y.Failed w) → pending' = true →
      timers w acts = [] → Beats w opened claimed sends interval timeout x y pending pending' acts [.ping]
  | pong : opened → y.Armed w → pending' = false → timers w acts = [interval * 1000] →
      Beats w opened claimed sends interval timeout x y pending pending' acts [.pong]
  | expire : opened → y.Failed w → pending = true → pending' = true → timers w acts = [] →
      Beats w opened claimed sends interval timeout x y pending pending' acts []
  | request : opened → y.Armed w → pending = false → pending' = false →
      timers w acts = [timeout * 1000] →
      Beats w opened claimed sends interval timeout x y pending pending' acts []
  | claim : opened → claimed → y.Armed w → pending' = pending →
      Beats w opened claimed sends interval timeout x y pending pending' acts []

/-- Calls without timers and PINGs leave an open connection as it was. -/
theorem Beats.of_steady (hsteady : x.Steady y) (hopen : y.phase w = some .established)
    (hopened : opened) (hpending : pending' = pending) (hacts : Every Act.timeless acts) :
    Beats w opened claimed sends interval timeout x y pending pending' acts [] :=
  .quiet hopened (hsteady w hopen).2.1 (hsteady w hopen).2.2 hpending (hacts.timers w)

theorem lws_context.steady_connect (x : lws_context) (user : Nat) : x.Steady (x.connect user) := by
  intro v hv
  rw [phase_connect] at hv
  split at hv
  · cases hv
  · next hne =>
    refine ⟨hv, fun harmed => ?_, fun hfailed => ?_⟩
    · simpa [Armed, connect, hne] using harmed
    · simpa [Failed, connect, hne] using hfailed

/-- Connection `w`, open in `y`, was open in `x` for the same user, with no timer or
    failure lost. -/
def lws_context.SteadyAt (x y : lws_context) (w : WsiId) : Prop :=
  ∀ user, y.link w = some (user, .established) → x.link w = some (user, .established) ∧
    (x.Armed w → y.Armed w) ∧ (x.Failed w → y.Failed w)

theorem lws_context.phase_of_link {user : Nat} {p : WsiPhase} (h : x.link w = some (user, p)) :
    x.phase w = some p := by
  rw [phase_eq_link, h]
  rfl

theorem lws_context.SteadyAt.of_eq (h : y.wsi w = x.wsi w) : x.SteadyAt y w := by
  intro user hopen
  simp only [link, Armed, Failed, h] at hopen ⊢
  exact ⟨hopen, id, id⟩

theorem lws_context.SteadyAt.trans {z : lws_context} (h₁ : x.SteadyAt y w) (h₂ : y.SteadyAt z w) :
    x.SteadyAt z w := by
  intro user hopen
  obtain ⟨hmid, harmed, hfailed⟩ := h₂ user hopen
  obtain ⟨hfirst, harmed', hfailed'⟩ := h₁ user hmid
  exact ⟨hfirst, fun h => harmed (harmed' h), fun h => hfailed (hfailed' h)⟩

theorem lws_context.Steady.at (h : x.Steady y) (hlinks : x.SameLinks y) (w : WsiId) :
    x.SteadyAt y w := by
  intro user hopen
  obtain ⟨_, harmed, hfailed⟩ := h w (phase_of_link hopen)
  exact ⟨hlinks.link w ▸ hopen, harmed, hfailed⟩

theorem lws_context.steadyAt_performs (x : lws_context) (acts : List Act) (w : WsiId) :
    x.SteadyAt (x.performs acts) w :=
  (x.steady_performs acts).at (x.sameLinks_performs acts) w

theorem lws_context.steadyAt_fail (x : lws_context) (v w : WsiId) : x.SteadyAt (x.fail v) w :=
  (x.steady_fail v).at (x.sameLinks_fail v) w

theorem lws_context.steadyAt_close (x : lws_context) (v w : WsiId) :
    x.SteadyAt (x.setPhase v .closed) w := by
  by_cases hw : w = v
  · intro user hopen
    rw [link_setPhase, if_pos hw] at hopen
    simp at hopen
  · exact .of_eq (by simp [setPhase, modify, hw])

theorem lws_context.steadyAt_remove (x : lws_context) (v w : WsiId) : x.SteadyAt (x.remove v) w := by
  by_cases hw : w = v
  · intro user hopen
    rw [link_remove, if_pos hw] at hopen
    cases hopen
  · exact .of_eq (by simp [remove, hw])

theorem lws_context.steadyAt_connect (x : lws_context) (user : Nat) (w : WsiId) :
    x.SteadyAt (x.connect user) w := by
  by_cases hw : w = x.next
  · intro user hopen
    rw [link_connect, if_pos hw] at hopen
    simp at hopen
  · exact .of_eq (by simp [connect, hw])

theorem lws_context.steadyAt_modify (x : lws_context) {v w : WsiId} (hw : w ≠ v) (f : Wsi → Wsi) :
    x.SteadyAt (x.modify v f) w :=
  .of_eq (by simp [modify, hw])

/-- The heartbeat of an open connection is sound and alive. -/
structure Alive (w : WsiId) (x : lws_context) (pending : Bool) (pulses : List Pulse) : Prop where
  armed : x.Armed w ∨ x.Failed w
  pending_eq : pending = unanswered pulses

theorem Beats.alive {before : List Pulse}
    (h : Beats w opened claimed sends interval timeout x y pending pending' acts pulses)
    (hbefore : opened → Alive w x pending before) : Alive w y pending' (before ++ pulses) := by
  cases h with
  | quiet hopened harmed hfailed hpending _ =>
    obtain ⟨halive, heq⟩ := hbefore hopened
    exact ⟨halive.imp harmed hfailed, by rw [List.append_nil, hpending, heq]⟩
  | established harmed hpending _ => exact ⟨.inl harmed, by simp [hpending, unanswered]⟩
  | ping hopened _ harmed hfailed hpending _ =>
    exact ⟨(hbefore hopened).armed.imp harmed hfailed, by simp [hpending, unanswered]⟩
  | pong _ harmed hpending _ => exact ⟨.inl harmed, by simp [hpending, unanswered]⟩
  | expire hopened hfailed hbefore' hpending _ =>
    refine ⟨.inr hfailed, ?_⟩
    rw [List.append_nil, hpending, ← hbefore']
    exact (hbefore hopened).pending_eq
  | request hopened harmed hbefore' hpending _ =>
    refine ⟨.inl harmed, ?_⟩
    rw [List.append_nil, hpending, ← hbefore']
    exact (hbefore hopened).pending_eq
  | claim hopened _ harmed hpending =>
    refine ⟨.inl harmed, ?_⟩
    rw [List.append_nil, hpending]
    exact (hbefore hopened).pending_eq

end lws_client
