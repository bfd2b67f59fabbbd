import LwsClientDemo.WsPool.Queue

open interleaving

namespace lws_client.ws_pool

theorem ping_buf_sized : Sized (ping_buf, 0, .LWS_WRITE_PING) := ⟨by decide, fun h => absurd rfl h⟩

theorem Silent.writes {s s' : Sys} {d : ClientId} (h : Silent s s' d) :
    writes (s'.trace d) = writes (s.trace d) := by
  obtain ⟨acts, htrace, hmute⟩ := h.trace
  rw [htrace, writes_append, (Mute.plain hmute).writes, List.append_nil]

/-- What a step hands to `lws_write` for a client has header room: a dequeued
    node, or the array of the ping branch. -/
theorem step_sized {cfg cfg' : Config} {l : Label} {d : ClientId}
    (hmove : system.Moves cfg l cfg') (hsized : ∀ x ∈ writes (cfg.shared.trace d), Sized x) :
    ∀ x ∈ writes (cfg'.shared.trace d), Sized x := by
  cases hmove with
  | event hdeliver =>
    dsimp only at hsized ⊢
    cases deliver_spec hdeliver d with
    | silent _ hsilent _ => rwa [hsilent.writes]
    | receive ho _ htrace =>
      have hnone := writes_of_delivers (receive_acts (fun _ _ => rfl) (fun _ _ => rfl) ho)
      rw [htrace, writes_append, hnone, List.append_nil]
      exact hsized
    | ping hkept htrace =>
      intro x hx
      rw [htrace, writes_append] at hx
      rcases List.mem_append.mp hx with hx | hx
      · exact hsized x hx
      · obtain rfl : x = (ping_buf, 0, .LWS_WRITE_PING) := List.mem_singleton.mp hx
        exact ping_buf_sized
    | dequeue _ _ htrace => rwa [htrace]
  | svc hsvc =>
    dsimp only at hsized ⊢
    rcases (svc_spec hsvc d).2 with ⟨hsilent, _⟩ | ⟨_, _, info, htrace⟩ | ⟨w, n, more, _, _, htrace⟩
    · rwa [hsilent.writes]
    · have hnone : writes [.lws_client_connect_via_info info] = [] := rfl
      rwa [htrace, writes_append, hnone, List.append_nil]
    · intro x hx
      rw [htrace, writes_append] at hx
      rcases List.mem_append.mp hx with hx | hx
      · exact hsized x hx
      · obtain rfl := List.mem_singleton.mp hx
        exact n.sized _
  | call _ _ => exact hsized
  | app htop happ =>
    dsimp only at hsized ⊢
    rcases app_spec happ d with hsilent | ⟨freed, q, _, _, _, htrace⟩ | ⟨n, data, is_binary, _, _, _, htrace, _⟩
    · rwa [hsilent.writes]
    · have hnone : writes (freed.map (fun n => .flush_node n.payload n.is_binary) ++
          [.stop_returns]) = [] := by
        simp [writes, List.filterMap_map]
      rw [htrace, writes_append, hnone, List.append_nil]
      exact hsized
    · rw [htrace, writes_append]
      simpa [writes] using hsized

/-- The frames written to a client are messages it accepted. -/
theorem Ordered.accepted_of_frame {c : wsp_client} {taken : List ws_msg_node_t} {trace : List Act}
    (h : Ordered c taken trace) {m : Message} (hm : m ∈ frames trace) : m ∈ accepted trace := by
  obtain ⟨ns, _, horder, _⟩ := h
  rw [← horder]
  simp [hm]

/-- Every write has header room, and a data write carries an accepted message. -/
theorem Reaches.headroom {ok : Config → Label → Prop} {client : ClientId → wsp_client}
    (hfresh : ∀ c, (client c).Fresh) {cfg : Config} (h : system.Reaches ok (initial client) cfg)
    (d : ClientId) :
    ∀ x ∈ writes (cfg.shared.trace d),
      HasRoom x.1 x.2.1 ∧ Carries (cfg.shared.trace d) x.1 x.2.1 x.2.2 := by
  have hsized : ∀ x ∈ writes (cfg.shared.trace d), Sized x :=
    h.invariant (I := fun mid => ∀ x ∈ writes (mid.shared.trace d), Sized x)
      (fun x hx => by cases hx) fun _ _ _ _ hmove => step_sized hmove
  intro x hx
  obtain ⟨hroom, hsize⟩ := hsized x hx
  refine ⟨hroom, ?_⟩
  by_cases hwp : x.2.2 = .LWS_WRITE_PING
  · exact .inl hwp
  · exact .inr ⟨hsize hwp, (Reaches.ordered hfresh h d).accepted_of_frame (mem_frames hx hwp)⟩

end lws_client.ws_pool
