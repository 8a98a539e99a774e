import MultiplayChess.Common.Delivery
import MultiplayChess.Server.Places

/-! # Frames and disconnects

    `handle_client_message` takes every receive call that returns `NULL`
    for the end of the connection.  A message without content is packed
    into a frame with an empty body, and `recv_all` reports the empty body
    with the same 0 as the end of the stream. -/

namespace MultiplayChess

open LTS Framing

/-- What `handle_client_message` does with the result of the receive call:
    the message is dispatched, or the player is disconnected and the
    connection closed. -/
def client_event (fd : Int) (env : Env) : Option ClientMessage → Event
  | none => .disconnect fd env
  | some msg => .message fd msg env

theorem server_step_client_event (mgr : MatchManager) (fd : Int) (env : Env)
    (msg : Option ClientMessage) :
    server_step mgr (client_event fd env msg) = handle_client_message mgr env fd msg := by
  cases msg <;> rfl

/-- The step of the server once the receive call has returned. -/
def handle_client_socket (client_message__unpack : List UInt8 → Option ClientMessage) (fd : Int)
    (env : Env) (turns : List Turn) (arrived : List UInt8) : Option Event :=
  (receive_client_message client_message__unpack turns arrived).returned.map (client_event fd env)

section

variable {client_message__unpack : List UInt8 → Option ClientMessage} {body : List UInt8}
  {msg : ClientMessage}

/-- However the kernel hands over a complete frame, the message in it is
    dispatched. -/
structure Dispatched (client_message__unpack : List UInt8 → Option ClientMessage)
    (body : List UInt8) (msg : ClientMessage) : Prop where
  /-- The server goes on once the kernel has had enough turns. -/
  returns : ∀ fd env turns behind, Open turns → 4 + body.length ≤ transfers turns →
    handle_client_socket client_message__unpack fd env turns
      (length_header.frame body ++ behind) ≠ none
  /-- The player is not disconnected. -/
  message : ∀ fd env turns behind e, Open turns →
    handle_client_socket client_message__unpack fd env turns
      (length_header.frame body ++ behind) = some e → e = .message fd msg env
  dispatches : ∀ mgr fd env, server_step mgr (.message fd msg env) =
    (dispatch_client_message mgr env fd msg).map (report_error env fd)
  /-- The answer to a case the server does not know. -/
  unsupported : msg = .unknown → ∀ mgr fd env, ∃ rest ok,
    server_step mgr (.message fd msg env) = .ok ⟨mgr, ⟨fd, .error
      { code := 400, message := "Unsupported message type".toList }, env.sends 0⟩ :: rest, ok⟩ ∧
    (env.sends 0 = true → rest = [])

theorem decode_frame (hfits : Fits body) (behind : List UInt8) :
    ntohl ((length_header.frame body ++ behind).take 4) = body.length :=
  ntohl_htonl hfits

/-- The receive call returns, whatever it makes of the frame. -/
theorem handle_client_socket_returns (hfits : Fits body) (fd : Int) (env : Env)
    {turns : List Turn} (behind : List UInt8) (hopen : Open turns)
    (hturns : 4 + body.length ≤ transfers turns) :
    handle_client_socket client_message__unpack fd env turns
      (length_header.frame body ++ behind) ≠ none := by
  have hheader := decode_frame hfits behind
  have hlen : (length_header.frame body ++ behind).length = 4 + body.length + behind.length := by
    rw [List.length_append, Header.length_frame]
    rfl
  have hdone := (@receive_message_done _ (fun _ => false) client_message__unpack _
    (length_header.frame body ++ behind) hopen (by omega) (by omega)).1
  intro hnone
  exact hdone (Option.map_eq_none_iff.mp hnone)

/-- A message with an unknown case changes nothing and is answered. -/
theorem unknown_message_answered (mgr : MatchManager) (fd : Int) (env : Env) : ∃ rest ok,
    server_step mgr (.message fd .unknown env) = .ok ⟨mgr, ⟨fd, .error
      { code := 400, message := "Unsupported message type".toList }, env.sends 0⟩ :: rest, ok⟩ ∧
    (env.sends 0 = true → rest = []) := by
  have hstep : server_step mgr (.message fd .unknown env) = .ok (report_error env fd
      ⟨mgr, [⟨fd, .error { code := 400, message := "Unsupported message type".toList },
        env.sends 0⟩], env.sends 0⟩) := rfl
  rw [hstep]
  unfold report_error
  split
  · exact ⟨[], _, rfl, fun _ => rfl⟩
  · rename_i hsend
    exact ⟨_, _, rfl, fun h => absurd h hsend⟩

/-- What the server makes of a complete frame. -/
theorem handle_client_socket_frame (hfits : Fits body) {fd : Int} {env : Env}
    {turns : List Turn} {behind : List UInt8} {e : Event} (hopen : Open turns)
    (h : handle_client_socket client_message__unpack fd env turns
      (length_header.frame body ++ behind) = some e) :
    e = client_event fd env (if body.length == 0 then none else client_message__unpack body) := by
  obtain ⟨x, hx, rfl⟩ := Option.map_eq_some_iff.mp h
  obtain ⟨hreceived, _, _, _⟩ := receive_message_read hopen (decode_frame hfits behind) hx
  have hbody : ((length_header.frame body ++ behind).drop 4).take body.length = body :=
    List.take_left
  rw [hreceived, hbody]
  rfl

/-- Four turns hand over the length of an empty body, and the call returns. -/
theorem empty_frame_disconnects (fd : Int) (env : Env) :
    handle_client_socket client_message__unpack fd env (List.replicate 4 (.transfer 0))
      (length_header.frame [] ++ []) = some (.disconnect fd env) := rfl

/-- **No false disconnect.** A complete frame is dispatched if and only if
    its body is not empty. -/
theorem dispatched_iff (hunpack : client_message__unpack body = some msg) (hfits : Fits body) :
    Dispatched client_message__unpack body msg ↔ body ≠ [] := by
  constructor
  · intro hdispatched hnil
    subst hnil
    -- the empty body comes back as the end of the stream
    have hmessage := hdispatched.message 0 (.calm 0) _ _ _ (open_single_bytes 4)
      (empty_frame_disconnects 0 (.calm 0))
    cases hmessage
  · intro hne
    have hlen : (body.length == 0) = false :=
      beq_false_of_ne fun hzero => hne (List.eq_nil_of_length_eq_zero hzero)
    refine ⟨?_, ?_, fun _ _ _ => rfl, ?_⟩
    · intro fd env turns behind hopen hturns
      exact handle_client_socket_returns hfits fd env behind hopen hturns
    · intro fd env turns behind e hopen h
      obtain rfl := handle_client_socket_frame hfits hopen h
      rw [hlen, hunpack]
      rfl
    · rintro rfl
      exact unknown_message_answered

end

/-- The empty body is a message without a case, the one with the bytes
    82 and 0 a ping without text. -/
def unpack_short : List UInt8 → Option ClientMessage
  | [] => some .unknown
  | [82, 0] => some (.ping [])
  | _ => none

theorem dispatched_ping : Dispatched unpack_short [82, 0] (.ping []) ↔ [(82 : UInt8), 0] ≠ [] :=
  dispatched_iff rfl (show 2 < 2 ^ 32 by decide)

/-- What becomes of the game of fd 5 and fd 6 when the connection of fd 5
    is taken for closed. -/
def after_disconnect (es : List Event) : Option (Bool × Bool) :=
  (exec server_run init_match_manager es).bind fun r =>
    (server_run r.2 (.disconnect 5 (.calm 0))).map fun r' =>
      ((r.2.active_games 0).is_active, (r'.1.active_games 0).is_active)

theorem after_disconnect_two_requests : after_disconnect two_requests = some (true, false) := by
  decide +kernel

/-- A message without a case that fd 5 sends in its game against fd 6 is not
    dispatched: the server takes it for a closed connection and ends the
    game. -/
theorem no_false_disconnect_broken :
    unpack_short [] = some .unknown ∧ Fits [] ∧ ¬ Dispatched unpack_short [] .unknown ∧
      ∃ ls mgr e out mgr', Run server init_match_manager ls mgr ∧
        handle_client_socket unpack_short 5 (.calm 0) (List.replicate 4 (.transfer 0))
          (length_header.frame [] ++ []) = some e ∧
        server.step mgr (e, out) mgr' ∧
        (mgr.active_games 0).is_active = true ∧ (mgr'.active_games 0).is_active = false := by
  have hfits : Fits [] := show 0 < 2 ^ 32 by decide
  refine ⟨rfl, hfits, fun hdispatched => (dispatched_iff rfl hfits).mp hdispatched rfl, ?_⟩
  obtain ⟨r, hrun, hr⟩ := Option.bind_eq_some_iff.mp after_disconnect_two_requests
  obtain ⟨q, hq, hgame⟩ := Option.map_eq_some_iff.mp hr
  obtain ⟨hbefore, hafter⟩ := Prod.mk.inj hgame
  exact ⟨r.1, r.2, _, q.2, q.1, exec_run hrun, empty_frame_disconnects 5 (.calm 0), hq, hbefore,
    hafter⟩

end MultiplayChess
