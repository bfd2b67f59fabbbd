import LwsClientDemo.WsClientV2.Queue

open interleaving

namespace lws_client.ws_client_v2

/-- The delivery of a WRITEABLE while a ping is to be sent. -/
def writes_ping (cfg : Config) : Label → Bool
  | .event (.callback _ .CLIENT_WRITEABLE _) => cfg.shared.c.send_ping
  | _ => false

/-- The `lws_write` calls of one step: none, that of a dequeued node, or that of
    the ping branch. -/
theorem writes_step {cfg cfg' : Config} {l : Label} (hmove : system.Moves cfg l cfg') :
    writes cfg'.shared.trace = writes cfg.shared.trace ∨
      (∃ (n : ws_msg_node_t) (wp : lws_write_protocol), wp ≠ .LWS_WRITE_PING ∧
        writes cfg'.shared.trace = writes cfg.shared.trace ++ [(⟨n.buf, LWS_PRE⟩, n.len, wp)]) ∨
      (writes_ping cfg l = true ∧
        writes cfg'.shared.trace = writes cfg.shared.trace ++ [(ping_buf, 0, .LWS_WRITE_PING)]) := by
  cases hmove with
  | event hdeliver =>
    obtain ⟨_, acts, htrace, heffect⟩ := deliver_spec hdeliver
    dsimp only
    rw [htrace, writes_append]
    cases heffect with
    | plain _ hplain _ _ _ =>
      rw [hplain.writes, List.append_nil]
      exact .inl rfl
    | receive ho hacts _ _ =>
      have hnone := writes_of_delivers (receive_acts (fun _ _ => rfl) (fun _ _ => rfl) ho)
      rw [hacts, hnone, List.append_nil]
      exact .inl rfl
    | ping hping hacts _ _ =>
      rw [hacts]
      exact .inr (.inr ⟨hping, rfl⟩)
    | dequeue _ _ hacts _ _ =>
      rw [hacts]
      exact .inl (List.append_nil _)
    | @exit freed _ _ _ _ hacts _ =>
      have hflush : writes (freed.map fun n => .flush_node n.payload n.is_binary) = [] := by
        simp [writes, List.filterMap_map]
      rw [hacts, hflush, List.append_nil]
      exact .inl rfl
  | svc hsvc =>
    obtain ⟨_, _, _, _, acts, htrace, hacts⟩ := svc_spec hsvc
    dsimp only
    rw [htrace, writes_append]
    rcases hacts with ⟨hplain, _⟩ | ⟨w, n, _, rfl⟩
    · rw [hplain.writes, List.append_nil]
      exact .inl rfl
    · refine .inr (.inl ⟨n, if n.is_binary then .LWS_WRITE_BINARY else .LWS_WRITE_TEXT, ?_, rfl⟩)
      split <;> simp
  | call _ _ => exact .inl rfl
  | app _ happ =>
    obtain ⟨_, _, acts, htrace, hacts⟩ := app_spec happ
    dsimp only
    rw [htrace, writes_append]
    rcases hacts with ⟨_, hplain⟩ | ⟨_, _, rfl⟩ | ⟨n, data, is_binary, _, _, _, rfl⟩
    · rw [hplain.writes, List.append_nil]
      exact .inl rfl
    · exact .inl (List.append_nil _)
    · exact .inl (List.append_nil _)

/-- A data write has header room, in an object sized for it. -/
theorem Reachable.data_room {cfg : Config} (h : Reachable cfg) :
    ∀ x ∈ writes cfg.shared.trace, x.2.2 ≠ .LWS_WRITE_PING →
      HasRoom x.1 x.2.1 ∧ x.1.object.bytes.length = LWS_PRE + x.2.1 := by
  obtain ⟨c, hc, hreach⟩ := h
  refine hreach.invariant (I := fun mid => ∀ x ∈ writes mid.shared.trace,
    x.2.2 ≠ .LWS_WRITE_PING → HasRoom x.1 x.2.1 ∧ x.1.object.bytes.length = LWS_PRE + x.2.1)
    (fun x hx => by cases hx) fun mid l next _ hmove hmid x hx hwp => ?_
  rcases writes_step hmove with hsame | ⟨n, wp, _, hdata⟩ | ⟨_, hping⟩
  · exact hmid x (hsame ▸ hx) hwp
  · rw [hdata, List.mem_append, List.mem_singleton] at hx
    rcases hx with hx | rfl
    · exact hmid x hx hwp
    · exact ⟨n.hasRoom, n.size_eq⟩
  · rw [hping, List.mem_append, List.mem_singleton] at hx
    rcases hx with hx | rfl
    · exact hmid x hx hwp
    · exact absurd rfl hwp

/-- A data write carries a message that was accepted. -/
theorem Reachable.data_carries {cfg : Config} (h : Reachable cfg) :
    ∀ x ∈ writes cfg.shared.trace, x.2.2 ≠ .LWS_WRITE_PING →
      Carries cfg.shared.trace x.1 x.2.1 x.2.2 := by
  intro x hx hwp
  exact .inr ⟨(h.data_room x hx hwp).2, h.fifo.accepted_of_frame (mem_frames hx hwp)⟩

/-- In runs without a WRITEABLE that finds a ping to send, no PING is written. -/
theorem no_ping_written {c : wsl_client} {cfg : Config}
    (h : system.Reaches (fun cfg l => writes_ping cfg l = false) (initial c) cfg) :
    ∀ x ∈ writes cfg.shared.trace, x.2.2 ≠ .LWS_WRITE_PING := by
  refine h.invariant (I := fun mid => ∀ x ∈ writes mid.shared.trace, x.2.2 ≠ .LWS_WRITE_PING)
    (fun x hx => by cases hx) fun mid l next hok hmove hmid x hx => ?_
  rcases writes_step hmove with hsame | ⟨n, wp, hwp, hdata⟩ | ⟨hping, _⟩
  · exact hmid x (hsame ▸ hx)
  · rw [hdata, List.mem_append, List.mem_singleton] at hx
    rcases hx with hx | rfl
    · exact hmid x hx
    · exact hwp
  · rw [hok] at hping
    cases hping

/-- A WRITEABLE that finds a ping to send writes it without header room. -/
theorem ping_write {cfg cfg' : Config} {l : Label} (hstep : system.step cfg l = some cfg')
    (hping : writes_ping cfg l = true) :
    (ping_buf, 0, .LWS_WRITE_PING) ∈ writes cfg'.shared.trace ∧ ¬ HasRoom ping_buf 0 := by
  refine ⟨?_, by decide⟩
  cases System.step_moves hstep with
  | @event e s s' app fs hdeliver =>
    cases e with
    | callback w r a =>
      cases r with
      | CLIENT_WRITEABLE =>
        have hsend : s.c.send_ping = true := hping
        simp only [system, Sys.deliver, Sys.callback, Sys.setLws_c, hsend, if_true,
          Option.ite_none_right_eq_some, Option.some.injEq, Prod.mk.injEq] at hdeliver
        obtain ⟨_, _, rfl⟩ := hdeliver
        rw [Sys.act_trace, writes_append]
        exact List.mem_append_right _ (List.mem_singleton.mpr rfl)
      | _ => cases hping
    | _ => cases hping
  | svc _ => cases hping
  | call _ _ => cases hping
  | app _ _ => cases hping

end lws_client.ws_client_v2
