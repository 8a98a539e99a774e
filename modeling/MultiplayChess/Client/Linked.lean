import MultiplayChess.Client.Rematch
import MultiplayChess.Server.Deliveries
import MultiplayChess.Server.Places

/-! # Client and server

    Whether a game goes on is for the server to say, and the client hears of
    it later; so both are put together here, with the messages between
    them.  The runs of the two together are runs of each of them. -/

namespace MultiplayChess

open LTS

/-- A client, its connection and the server.  The outbox of the client holds
    all it has ever sent; the server is done with the first `taken`
    messages of it. -/
structure Linked where
  client : Client
  /-- The main thread waits for a name. -/
  prompt : Bool
  /-- The id of the game the client was last told to start. -/
  game_id : CString
  mgr : MatchManager
  /-- The connection at the server. -/
  fd : Int
  on_the_way : List ServerMessage
  taken : Nat

inductive LinkedEvent where
  | server (e : Event)
  /-- The network thread receives the next message. -/
  | receive (env : ClientEnv)
  /-- The network thread finds the connection closed. -/
  | lost
  /-- The network thread connects again. -/
  | connect (fd : Int) (send : Bool)
  /-- The main thread asks for a name. -/
  | open_prompt
  /-- The user enters it; other threads have gone on meanwhile. -/
  | enter_name (env : KeyEnv)
  /-- Anything else the main thread does. -/
  | main (e : ClientEvent)

/-- The message of the connection `fd` the server handles. -/
def Event.takes (fd : Int) : Event → Option ClientMessage
  | .message fd' msg _ => if fd' = fd then some msg else none
  | _ => none

/-- The event is one of the main thread. -/
def ClientEvent.of_main : ClientEvent → Bool
  | .message _ _ => false
  | .lost => false
  | .connected _ => false
  | _ => true

/-- The game a client is in after a message. -/
def told_game (game_id : CString) : ServerMessage → CString
  | .match_game_res res => if starts_game (.match_game_res res) then res.game_id else game_id
  | _ => game_id

namespace Linked

/-- The server handles an event; what it handles for the client is what the
    client has sent next. -/
def serve (s : Linked) (e : Event) : Option Linked :=
  match server_run s.mgr e, e.takes s.fd with
  | none, _ => none
  | some r, none => some { s with mgr := r.1, on_the_way := s.on_the_way ++ inbox s.fd r.2 }
  | some r, some msg =>
    if s.client.outbox[s.taken]? = some msg then
      some { s with mgr := r.1, on_the_way := s.on_the_way ++ inbox s.fd r.2, taken := s.taken + 1 }
    else none

/-- The network keeps the order of the messages. -/
def receive (s : Linked) (env : ClientEnv) : Option Linked :=
  match s.client.connected, s.on_the_way with
  | true, msg :: msgs =>
    some { s with
      client := s.client.receive env msg
      game_id := told_game s.game_id msg
      on_the_way := msgs }
  | _, _ => none

/-- With the old connection all is lost that was on its way. -/
def connect (s : Linked) (fd : Int) (send : Bool) : Option Linked :=
  if s.client.connected then none
  else
    some { s with
      client := s.client.reconnect send
      fd := fd
      on_the_way := []
      taken := s.client.outbox.length }

def open_prompt (s : Linked) : Option Linked :=
  if s.prompt = false ∧ s.client.replay.isNone = true ∧ s.client.state.dialog_active = false ∧
      s.client.state.current_screen = .main then
    some { s with prompt := true }
  else none

/-- The main thread goes on where it has stopped, whatever the screen is by
    now. -/
def enter_name (s : Linked) (env : KeyEnv) : Option Linked :=
  if s.prompt then
    (s.client.handle_main_key env (.char '1')).map fun client =>
      { s with client := client, prompt := false }
  else none

def main (s : Linked) (e : ClientEvent) : Option Linked :=
  if s.prompt = false ∧ e.of_main = true then
    (s.client.step e).map fun client => { s with client := client }
  else none

end Linked

def linked_run (s : Linked) : LinkedEvent → Option Linked
  | .server e => s.serve e
  | .receive env => s.receive env
  | .lost => some { s with client := s.client.lose_connection }
  | .connect fd send => s.connect fd send
  | .open_prompt => s.open_prompt
  | .enter_name env => s.enter_name env
  | .main e => s.main e

/-- Both have just been started. -/
def linked_init : Linked where
  client := init_client
  prompt := false
  game_id := []
  mgr := init_match_manager
  fd := -1
  on_the_way := []
  taken := 0

def linked : System Linked LinkedEvent where
  init s := s = linked_init
  step s e s' := linked_run s e = some s'

section steps

variable {s s' : Linked} {e : Event}

/-- A step of the server adds to what is on the way. -/
theorem serve_spec (h : s.serve e = some s') :
    ∃ out, server_run s.mgr e = some (s'.mgr, out) ∧ s'.client = s.client ∧ s'.fd = s.fd ∧
      s'.on_the_way = s.on_the_way ++ inbox s.fd out := by
  unfold Linked.serve at h
  split at h
  · cases h
  · rename_i r hserver _
    cases h
    exact ⟨r.2, hserver, rfl, rfl, rfl⟩
  · rename_i r msg hserver _
    split at h
    · cases h
      exact ⟨r.2, hserver, rfl, rfl, rfl⟩
    · cases h

/-- A step of the server, seen from the client. -/
theorem serve_cases (h : s.serve e = some s') :
    s'.client = s.client ∧ ∃ out, server_run s.mgr e = some (s'.mgr, out) := by
  obtain ⟨out, hserver, hclient, _⟩ := serve_spec h
  exact ⟨hclient, out, hserver⟩

theorem receive_spec {env : ClientEnv} (h : s.receive env = some s') :
    ∃ msg, s.on_the_way = msg :: s'.on_the_way ∧ s'.client = s.client.receive env msg ∧
      s'.mgr = s.mgr ∧ s'.fd = s.fd := by
  unfold Linked.receive at h
  split at h
  · rename_i msg msgs _ hway
    cases h
    exact ⟨msg, hway, rfl, rfl, rfl⟩
  · cases h

theorem receive_cases {env : ClientEnv} (h : s.receive env = some s') :
    ∃ msg, s.on_the_way.head? = some msg ∧ s'.client = s.client.receive env msg ∧
      s'.mgr = s.mgr := by
  obtain ⟨msg, hway, hclient, hmgr, _⟩ := receive_spec h
  exact ⟨msg, by rw [hway, List.head?_cons], hclient, hmgr⟩

theorem connect_cases {fd : Int} {send : Bool} (h : s.connect fd send = some s') :
    s.client.connected = false ∧ s'.client = s.client.reconnect send ∧ s'.mgr = s.mgr := by
  unfold Linked.connect at h
  split at h
  · cases h
  · rename_i hdown
    cases h
    exact ⟨Bool.eq_false_iff.mpr hdown, rfl, rfl⟩

theorem open_prompt_cases (h : s.open_prompt = some s') :
    s'.client = s.client ∧ s'.mgr = s.mgr := by
  unfold Linked.open_prompt at h
  split at h
  · cases h
    exact ⟨rfl, rfl⟩
  · cases h

theorem enter_name_cases {env : KeyEnv} (h : s.enter_name env = some s') :
    s.client.handle_main_key env (.char '1') = some s'.client ∧ s'.mgr = s.mgr := by
  unfold Linked.enter_name at h
  split at h
  · obtain ⟨client, hkey, rfl⟩ := Option.map_eq_some_iff.mp h
    exact ⟨hkey, rfl⟩
  · cases h

theorem main_cases {e : ClientEvent} (h : s.main e = some s') :
    e.of_main = true ∧ s.client.step e = some s'.client ∧ s'.mgr = s.mgr := by
  unfold Linked.main at h
  split at h
  · rename_i hmain
    obtain ⟨client, hstep, rfl⟩ := Option.map_eq_some_iff.mp h
    exact ⟨hmain.2, hstep, rfl⟩
  · cases h

end steps

theorem linked_server_step {s s' : Linked} {e : LinkedEvent} (hstep : linked.step s e s') :
    s'.mgr = s.mgr ∨ ∃ l, server.step s.mgr l s'.mgr := by
  have hstep : linked_run s e = some s' := hstep
  cases e with
  | server e =>
    obtain ⟨_, out, hserver⟩ := serve_cases hstep
    exact .inr ⟨(e, out), hserver⟩
  | receive env =>
    obtain ⟨_, _, _, hmgr⟩ := receive_cases hstep
    exact .inl hmgr
  | lost =>
    cases hstep
    exact .inl rfl
  | connect fd send => exact .inl (connect_cases hstep).2.2
  | open_prompt => exact .inl (open_prompt_cases hstep).2
  | enter_name env => exact .inl (enter_name_cases hstep).2
  | main e => exact .inl (main_cases hstep).2.2

/-- **The server of a run** takes the steps of a server. -/
theorem linked_server_run {s : Linked} {es : List LinkedEvent} (h : Run linked linked_init es s) :
    ∃ ls, Run server init_match_manager ls s.mgr := by
  apply RunWhere.invariant (P := fun s => ∃ ls, Run server init_match_manager ls s.mgr) ?_ h
  · exact ⟨[], .nil⟩
  · intro s e s' ⟨ls, hrun⟩ _ hstep
    rcases linked_server_step hstep with hmgr | ⟨l, hserver⟩
    · rw [hmgr]
      exact ⟨ls, hrun⟩
    · exact ⟨ls ++ [l], Run.snoc hrun hserver⟩

/-- While the prompt was open, nothing has taken the client from the main
    screen. -/
def answered_in_time (s : Linked) : LinkedEvent → Prop
  | .enter_name _ => s.client.replay = none ∧ s.client.state.dialog_active = false ∧
      s.client.state.current_screen = .main
  | _ => True

theorem linked_client_step {s s' : Linked} {e : LinkedEvent} (hname : answered_in_time s e)
    (hstep : linked.step s e s') :
    s'.client = s.client ∨ ∃ e', session.step s.client e' s'.client := by
  have hstep : linked_run s e = some s' := hstep
  cases e with
  | server e => exact .inl (serve_cases hstep).1
  | receive env =>
    obtain ⟨msg, _, hclient, _⟩ := receive_cases hstep
    exact .inr ⟨.message env msg, congrArg some hclient.symm⟩
  | lost =>
    cases hstep
    exact .inr ⟨.lost, rfl⟩
  | connect fd send => exact .inr ⟨.connected send, congrArg some (connect_cases hstep).2.1.symm⟩
  | open_prompt => exact .inl (open_prompt_cases hstep).1
  | enter_name env =>
    obtain ⟨hreplay, hinactive, hscreen⟩ := hname
    have hkey : s.client.handle_key env (.char '1') = some s'.client := by
      unfold Client.handle_key
      rw [hinactive, hscreen]
      exact (enter_name_cases hstep).1
    exact .inr ⟨.key env (.char '1'), step_key.mpr ⟨hreplay, hkey⟩⟩
  | main e => exact .inr ⟨e, (main_cases hstep).2.1⟩

/-- **The client of a run** takes the steps of a session, as long as the
    prompt is answered in time. -/
theorem linked_client_run {s : Linked} {es : List LinkedEvent}
    (h : RunWhere linked answered_in_time linked_init es s) :
    ∃ es', Run session init_client es' s.client := by
  apply RunWhere.invariant (P := fun s => ∃ es', Run session init_client es' s.client) ?_ h
  · exact ⟨[], .nil⟩
  · intro s e s' ⟨es', hrun⟩ hname hstep
    rcases linked_client_step hname hstep with hclient | ⟨e', hclient⟩
    · rw [hclient]
      exact ⟨es', hrun⟩
    · exact ⟨es' ++ [e'], Run.snoc hrun hclient⟩

/-- `bob` connects and asks for a game; `ann` has asked already. -/
def bob_plays : List LinkedEvent :=
  [.connect 6 true, .server (.message 6 (.ping "Reconnection ping".toList) (.calm 0)),
    .receive ⟨fun _ => 0, true, true⟩,
    .server (.message 5 (.match_game "ann".toList) (.calm 0)),
    .main (.key bob_types (.char '1')),
    .server (.message 6 (.match_game "bob".toList) (.calm 0)),
    .receive ⟨fun _ => 0, true, true⟩]

end MultiplayChess
