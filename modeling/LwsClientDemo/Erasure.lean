import LwsClientDemo.WsClient.History
import LwsClientDemo.WsPool.History
import LwsClientDemo.WsClient.Queue
import LwsClientDemo.WsPool.Queue

open interleaving

namespace lws_client

/-- The messages given to `rx_cb`. -/
def messages (xs : List Shown) : List Message :=
  xs.filterMap fun
    | .seen (.call (.rx_cb data is_binary)) => some (data, is_binary)
    | _ => none

def chunk_of (byte : UInt8) (is_first is_final : Bool) : Chunk :=
  text_chunk ⟨[byte], one_byte⟩ is_first is_final

/-- Reasons of a session with a message in two chunks, and with a whole message
    that is followed by a chunk of none. -/
def in_two_chunks : List Reason :=
  [.CLIENT_RECEIVE (chunk_of 99 true false), .CLIENT_RECEIVE (chunk_of 100 false true), .TIMER,
    .CLIENT_CLOSED]

def behind_whole : List Reason :=
  [.CLIENT_RECEIVE (chunk_of 99 true true), .CLIENT_RECEIVE (chunk_of 100 false true)]

def stimuli (rs : List Reason) : List Stimulus := rs.map fun r => .callback r {}

end lws_client

namespace lws_client.ws_client

variable {w : WsiId} {rs : List Reason} {ms : List Message} {cfg mid last : Config}

def callbacks (w : WsiId) (rs : List Reason) : List Event := rs.map fun r => .callback w r {}

/-- Connection 0 ends with half a message received and a ping requested, and
    connection 1 is made. -/
def interrupted : List Label :=
  connected_run ++ [.event (.callback 0 (.CLIENT_RECEIVE (chunk_of 97 true false)) {}),
    .event (.callback 0 .TIMER {}), .event (.callback 0 .CLIENT_CLOSED {}),
    .event (.callback 0 .WSI_DESTROY {}), .event (.poll 1000), .svc { connect := .accepted }, .svc {}]

/-- The first connection of a client. -/
def first_connection : List Label := connected_run.take 7

instance (w : WsiId) (cfg : Config) (l : Label) : Decidable (InSession w cfg l) :=
  inferInstanceAs (Decidable (_ ∧ _))

/-- Connection `w` gets ESTABLISHED and the callbacks, and delivers the messages. -/
def delivers (w : WsiId) (rs : List Reason) (ms : List Message) (cfg : Config) : Bool :=
  (system.step cfg (.event (.callback w .CLIENT_ESTABLISHED {}))).any fun mid =>
    (system.run (InSession w) mid ((callbacks w rs).map .event)).isSome &&
      messages (showing w cfg mid ((callbacks w rs).map .event)) == ms

theorem session_of_delivers (h : delivers w rs ms cfg = true) :
    ∃ mid last, Session w cfg mid ((callbacks w rs).map .event) last ∧
      messages (showing w cfg mid ((callbacks w rs).map .event)) = ms := by
  obtain ⟨mid, hmid, hrun⟩ := (Option.any_eq_true _ _).mp h
  simp only [Bool.and_eq_true, beq_iff_eq] at hrun
  obtain ⟨last, hlast⟩ := Option.isSome_iff_exists.mp hrun.1
  exact ⟨mid, last, ⟨⟨{}, hmid⟩, .of_run hlast⟩, hrun.2⟩

/-- What a session of callbacks is given. -/
theorem Session.stimuli (h : Session w cfg mid ((callbacks w rs).map .event) last) :
    system.inputs (stimulus w) mid ((callbacks w rs).map .event) = lws_client.stimuli rs := by
  rw [h.follows.inputs_events (g := fun e => stimulus w cfg (.event e)) fun _ e => by cases e <;> rfl]
  simp [callbacks, stimulus, lws_client.stimuli, List.filterMap_map]

theorem alike_of_empty {cfg cfg' : Config} (h : Reachable cfg) (h' : Reachable cfg')
    (hq : cfg.shared.c.q.has_data = false) (hq' : cfg'.shared.c.q.has_data = false) :
    cfg.shared.c.q.Alike cfg'.shared.c.q := by
  obtain ⟨ns, hns, _⟩ := h.fifo
  obtain ⟨ns', hns', _⟩ := h'.fifo
  exact .of_empty hns hns' hq hq'

end lws_client.ws_client

namespace lws_client.ws_pool

variable {d : ClientId} {w : WsiId} {rs : List Reason} {ms : List Message} {cfg mid last : Config}

def callbacks (d : ClientId) (w : WsiId) (rs : List Reason) : List Event :=
  rs.map fun r => .callback d w r {}

/-- Connection 0 of client 0 ends with half a message received and a ping
    requested, and connection 1 is made. -/
def interrupted : List Label :=
  connected_run ++ [.event (.callback 0 0 (.CLIENT_RECEIVE (chunk_of 97 true false)) {}),
    .event (.callback 0 0 .TIMER {}), .event (.callback 0 0 .CLIENT_CLOSED {}), .svc {}, .svc {},
    .event (.callback 0 0 .WSI_DESTROY {}), .event (.sul_reconnect_cb 0),
    .svc { connect := .accepted }, .svc {}]

/-- The first connection of client 0. -/
def first_connection : List Label := connected_run.take 19

instance (d : ClientId) (w : WsiId) (cfg : Config) (l : Label) : Decidable (InSession d w cfg l) :=
  inferInstanceAs (Decidable (_ ∧ _))

/-- Connection `w` gets ESTABLISHED and the callbacks, and delivers the messages. -/
def delivers (d : ClientId) (w : WsiId) (rs : List Reason) (ms : List Message) (cfg : Config) : Bool :=
  (system.step cfg (.event (.callback d w .CLIENT_ESTABLISHED {}))).any fun mid =>
    (system.run (InSession d w) mid ((callbacks d w rs).map .event)).isSome &&
      messages (showing d w cfg mid ((callbacks d w rs).map .event)) == ms

theorem session_of_delivers (h : delivers d w rs ms cfg = true) :
    ∃ mid last, Session d w cfg mid ((callbacks d w rs).map .event) last ∧
      messages (showing d w cfg mid ((callbacks d w rs).map .event)) = ms := by
  obtain ⟨mid, hmid, hrun⟩ := (Option.any_eq_true _ _).mp h
  simp only [Bool.and_eq_true, beq_iff_eq] at hrun
  obtain ⟨last, hlast⟩ := Option.isSome_iff_exists.mp hrun.1
  exact ⟨mid, last, ⟨⟨{}, hmid⟩, .of_run hlast⟩, hrun.2⟩

/-- What a session of callbacks is given. -/
theorem Session.stimuli (h : Session d w cfg mid ((callbacks d w rs).map .event) last) :
    system.inputs (stimulus d w) mid ((callbacks d w rs).map .event) = lws_client.stimuli rs := by
  rw [h.follows.inputs_events (g := fun e => stimulus d w cfg (.event e)) fun _ e => by cases e <;> rfl]
  simp [callbacks, stimulus, lws_client.stimuli, List.filterMap_map]

theorem alike_of_empty {cfg cfg' : Config} (h : ReachedOnce d cfg) (h' : ReachedOnce d cfg')
    (hq : (cfg.shared.client d).q.has_data = false) (hq' : (cfg'.shared.client d).q.has_data = false) :
    (cfg.shared.client d).q.Alike (cfg'.shared.client d).q := by
  obtain ⟨_, hfresh, hreach⟩ := h
  obtain ⟨_, hfresh', hreach'⟩ := h'
  obtain ⟨ns, hns, _⟩ := Reaches.ordered hfresh hreach d
  obtain ⟨ns', hns', _⟩ := Reaches.ordered hfresh' hreach' d
  exact .of_empty hns hns' hq hq'

end lws_client.ws_pool

namespace lws_client

open ws_client (default_client)

theorem two_chunks_begin : BeginsFirst (stimuli in_two_chunks) := by
  intro k hk
  simp [stimuli, in_two_chunks, chunks, chunk_of, text_chunk, Chunk.whole, Chunk.last] at hk
  rw [← hk]

end lws_client
