import LwsClientDemo.Reassembly
import LwsClientDemo.WsPool.Sections

open interleaving

namespace lws_client.ws_pool

/-- No append of a RECEIVE of client `d` fails. -/
def granted (d : ClientId) (cfg : Config) : Label → Prop
  | .event (.callback c _ (.CLIENT_RECEIVE chunk) a) =>
    c = d → (receive (cfg.shared.client c) chunk a.ok).any (fun o => o.ret == 0) = true
  | _ => True

instance (d : ClientId) (cfg : Config) (l : Label) : Decidable (granted d cfg l) := by
  unfold granted
  split <;> infer_instance

/-- The chunks client `d` receives in a run, over all its connections. -/
def received (d : ClientId) (ls : List Label) : List Chunk :=
  ls.filterMap fun
    | .event e => e.receives d
    | _ => none

/-- With `realloc` answering, RECEIVE returns 0 as long as the message fits. -/
theorem receive_returns (c : wsp_client) (chunk : Chunk)
    (hfits : c.frag.len + chunk.data.bytes.length ≤ 2 ^ 62) :
    (receive c chunk true).any (fun o => o.ret == 0) = true := by
  unfold receive
  dsimp only
  split
  · rfl
  · have hbase : (if chunk.is_first_fragment then c.frag.reset else c.frag).len +
        chunk.data.bytes.length ≤ 2 ^ 62 := by
      split
      · simp only [ws_frag_buf_t.reset]
        omega
      · exact hfits
    obtain ⟨f, hf⟩ := ws_frag_append_succeeds _ chunk.data hbase
    rw [hf]
    simp only [Option.map_some, Int.lt_irrefl, if_false, Option.any_some]
    split <;> rfl

section receive

variable {c : wsp_client} {chunk : Chunk} {ok : Bool} {o : Out wsp_client}

/-- What RECEIVE does with a chunk that is a message by itself. -/
theorem receive_whole (h : receive c chunk ok = some o) (hwhole : chunk.whole = true) :
    o.client = c ∧ o.ret = 0 ∧
      o.acts = callIf c.rx_cb (.rx_cb chunk.data.bytes chunk.frame_is_binary) ++
        callIf (hooked c.hooks (·.on_message))
          (.on_message chunk.data.bytes chunk.frame_is_binary) := by
  unfold receive at h
  dsimp only at h
  rw [← chunk.whole_eq, if_pos hwhole] at h
  cases h
  exact ⟨rfl, rfl, rfl⟩

/-- What RECEIVE does with a chunk that it appends. -/
theorem receive_appends (h : receive c chunk ok = some o) (hwhole : chunk.whole = false)
    (hret : o.ret = 0) :
    ∃ g, ws_frag_append (if chunk.is_first_fragment then c.frag.reset else c.frag) chunk.data ok =
        some (0, g) ∧
      o.client = { c with frag := if chunk.last then g.reset else g } ∧
      o.acts = if chunk.last then callIf c.rx_cb (.rx_cb g.contents chunk.frame_is_binary) ++
        callIf (hooked c.hooks (·.on_message) && decide (g.contents.length > 0))
          (.on_message g.contents chunk.frame_is_binary) else [] := by
  unfold receive at h
  dsimp only at h
  rw [← chunk.whole_eq, if_neg (by simp [hwhole])] at h
  simp only [Option.map_eq_some_iff] at h
  obtain ⟨⟨ret, g⟩, happend, rfl⟩ := h
  dsimp only at hret ⊢
  obtain rfl := ws_frag_append_returned happend fun hneg => by simp [hneg] at hret
  refine ⟨g, happend, ?_⟩
  simp only [Int.lt_irrefl, if_false, ws_frag_buf_t.length_contents]
  cases hlast : chunk.last with
  | true =>
    rw [Chunk.last] at hlast
    simp only [hlast, if_true, and_self]
  | false =>
    rw [Chunk.last] at hlast
    simp only [hlast, Bool.false_eq_true, if_false, and_self]

/-- A RECEIVE that returns 0 takes its chunk as the receiver does. -/
theorem receive_take (h : receive c chunk ok = some o) (hret : o.ret = 0) (hrx : c.rx_cb = true)
    (out : List Message) :
    Assembler.take ⟨c.frag.contents, out⟩ chunk =
      ⟨o.client.frag.contents, out ++ deliveries o.acts⟩ := by
  have hcalled : ∀ data is_binary message, deliveries (callIf c.rx_cb (.rx_cb data is_binary) ++
      callIf message (.on_message data is_binary)) = [(data, is_binary)] := by
    intro data is_binary message
    rw [hrx]
    cases message <;> rfl
  cases hwhole : chunk.whole with
  | true =>
    obtain ⟨hclient, _, hacts⟩ := receive_whole h hwhole
    rw [hclient, hacts, hcalled]
    exact if_pos hwhole
  | false =>
    obtain ⟨g, happend, hclient, hacts⟩ := receive_appends h hwhole hret
    rw [hclient, hacts]
    have hpart : ¬ chunk.whole = true := by simp [hwhole]
    refine (if_neg hpart).trans ?_
    dsimp only
    rw [← ws_frag_append_after happend]
    split
    · rw [hcalled]
      rfl
    · simp [deliveries]

end receive

theorem Silent.deliveries {s s' : Sys} {d : ClientId} (h : Silent s s' d) :
    deliveries (s'.trace d) = deliveries (s.trace d) := by
  obtain ⟨acts, htrace, hmute⟩ := h.trace
  rw [htrace, deliveries_append, (Mute.plain hmute).deliveries, List.append_nil]

/-- A step in which client `d` receives no chunk delivers nothing to it. -/
theorem moves_undelivered {cfg cfg' : Config} {l : Label} {d : ClientId}
    (hmove : system.Moves cfg l cfg') (hnone : received d [l] = []) :
    (cfg'.shared.client d).towsp_config = (cfg.shared.client d).towsp_config ∧
      (cfg'.shared.client d).frag = (cfg.shared.client d).frag ∧
      deliveries (cfg'.shared.trace d) = deliveries (cfg.shared.trace d) := by
  cases hmove with
  | @event e s s' app fs hdeliver =>
    dsimp only
    cases deliver_spec hdeliver d with
    | silent _ hsilent _ => exact ⟨hsilent.kept.config, hsilent.kept.frag, hsilent.deliveries⟩
    | receive _ _ _ => simp [received, Event.receives] at hnone
    | ping hkept htrace =>
      rw [htrace]
      exact ⟨hkept.config, hkept.frag, by simp [writeable_ping, deliveries]⟩
    | dequeue _ hc htrace =>
      rw [hc, htrace]
      exact ⟨rfl, rfl, rfl⟩
  | svc hsvc =>
    rcases (svc_spec hsvc d).2 with ⟨hsilent, _⟩ | ⟨_, hkept, info, htrace⟩ | ⟨w, n, more, _, hc, htrace⟩
    · exact ⟨hsilent.kept.config, hsilent.kept.frag, hsilent.deliveries⟩
    · rw [htrace]
      exact ⟨hkept.config, hkept.frag, by simp [deliveries]⟩
    · rw [hc, htrace]
      exact ⟨rfl, rfl, by simp [write_node, deliveries]⟩
  | call _ _ => exact ⟨rfl, rfl, rfl⟩
  | app htop happ =>
    rcases app_spec happ d with hsilent | ⟨freed, q, _, _, hc, htrace⟩ |
      ⟨n, data, is_binary, _, hc, _, htrace, _⟩
    · exact ⟨hsilent.kept.config, hsilent.kept.frag, hsilent.deliveries⟩
    · rw [hc, htrace]
      exact ⟨rfl, rfl, by simp [deliveries, List.filterMap_map]⟩
    · rw [hc, htrace]
      exact ⟨rfl, rfl, by simp [deliveries]⟩

/-- A step in which client `d` receives a chunk is a RECEIVE of it. -/
theorem moves_receive {cfg cfg' : Config} {l : Label} {d : ClientId}
    (hmove : system.Moves cfg l cfg') (hsome : received d [l] ≠ []) :
    ∃ w chunk a o, l = .event (.callback d w (.CLIENT_RECEIVE chunk) a) ∧
      receive (cfg.shared.client d) chunk a.ok = some o ∧ cfg'.shared.client d = o.client ∧
      cfg'.shared.trace d = cfg.shared.trace d ++ o.acts := by
  cases hmove with
  | event hdeliver =>
    cases deliver_spec hdeliver d with
    | silent hnone _ _ => simp [received, hnone] at hsome
    | receive ho hc htrace => exact ⟨_, _, _, _, rfl, ho, hc, htrace⟩
    | ping _ _ | dequeue _ _ _ => simp [received, Event.receives] at hsome
  | svc _ | call _ _ | app _ _ => simp [received] at hsome

/-- Over any run the buffer and the deliveries of a client are those of the
    receiver on the chunks the client has received so far. -/
theorem follows_take {client : ClientId → wsp_client} {d : ClientId} (hfresh : (client d).Fresh)
    (hrx : (client d).rx_cb = true) {ls : List Label} {cfg : Config}
    (h : system.Follows (granted d) (initial client) ls cfg) :
    (cfg.shared.client d).rx_cb = true ∧ (received d ls).foldl Assembler.take ⟨[], []⟩ =
      ⟨(cfg.shared.client d).frag.contents, deliveries (cfg.shared.trace d)⟩ := by
  refine h.invariant (I := fun ls cfg => (cfg.shared.client d).rx_cb = true ∧
    (received d ls).foldl Assembler.take ⟨[], []⟩ =
      ⟨(cfg.shared.client d).frag.contents, deliveries (cfg.shared.trace d)⟩) ⟨hrx, ?_⟩ ?_
  · change (⟨[], []⟩ : Assembler) = ⟨(client d).frag.contents, []⟩
    rw [hfresh.frag]
    rfl
  · rintro ls cfg l cfg' hok hmove ⟨hrx, htake⟩
    have hreceived : received d (ls ++ [l]) = received d ls ++ received d [l] :=
      List.filterMap_append
    rw [hreceived, List.foldl_append, htake]
    by_cases hnone : received d [l] = []
    · obtain ⟨hconfig, hfrag, hdeliveries⟩ := moves_undelivered hmove hnone
      rw [hnone, hfrag, hdeliveries]
      exact ⟨(congrArg wsp_config.rx_cb hconfig).trans hrx, rfl⟩
    · obtain ⟨w, chunk, a, o, rfl, ho, hc, htrace⟩ := moves_receive hmove hnone
      obtain ⟨frag, hfrag⟩ := receive_client ho
      have hret : o.ret = 0 := by
        have hgranted := hok rfl
        rw [ho] at hgranted
        simpa using hgranted
      have hchunk : received d [.event (.callback d w (.CLIENT_RECEIVE chunk) a)] = [chunk] := by
        simp [received, Event.receives]
      rw [hc, htrace, deliveries_append, hchunk]
      exact ⟨by rw [hfrag]; exact hrx, receive_take ho hret hrx _⟩

/-- Over all connections of a client `rx_cb` gets exactly the messages whose last
    chunk arrived. -/
theorem delivers_completed {client : ClientId → wsp_client} {d : ClientId}
    (hfresh : (client d).Fresh) (hrx : (client d).rx_cb = true) {ls : List Label} {cfg : Config}
    (h : system.Follows (granted d) (initial client) ls cfg) {conns : List Connection}
    (hwire : received d ls = conns.flatMap Connection.chunks)
    (hconns : ∀ conn ∈ conns, conn.WellFormed Chunk.last) :
    deliveries (cfg.shared.trace d) = completed conns := by
  obtain ⟨_, htake⟩ := follows_take hfresh hrx h
  have hout := Assembler.take_connections hconns ⟨[], []⟩
  rw [← hwire, htake] at hout
  simpa using hout

end lws_client.ws_pool
