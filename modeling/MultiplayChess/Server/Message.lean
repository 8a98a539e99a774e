import MultiplayChess.Common.Utils

/-! # Messages

    The protobuf messages of `message.proto` that the server reads and
    writes.  An unpacked message always carries the submessage of its case
    and its strings are never null.  Versions, client timestamps and
    response timestamps, which no handler reads or sets, are left out. -/

namespace MultiplayChess

/-- The protobuf enumeration `Team`. -/
inductive ProtoTeam where
  | unspecified
  | white
  | black
  deriving DecidableEq, Repr

/-- The protobuf value of a team. -/
def Team.proto : Team → ProtoTeam
  | .white => .white
  | .black => .black

/-- The protobuf enumeration `GameEndType`. -/
inductive GameEndType where
  | unknown
  | resign
  | disconnect
  | checkmate
  | stalemate
  | draw
  | timeout
  deriving DecidableEq, Repr

/-! ## From the client -/

structure MoveRequest where
  from_coord : CString
  to_coord : CString
  deriving DecidableEq, Repr

/-- `ClientMessage`; `unknown` is a message without a case or with one the
    server does not know. -/
inductive ClientMessage where
  | ping (message : CString)
  | echo (message : CString)
  | match_game (player_id : CString)
  | cancel_match (player_id : CString)
  | move (req : MoveRequest)
  | resign (player_id : CString)
  | chat (message : CString)
  | unknown
  deriving DecidableEq, Repr

/-! ## From the server -/

structure MatchGameResponse where
  game_id : CString := []
  success : Bool
  message : CString
  assigned_team : ProtoTeam := .unspecified
  opponent_name : CString := []
  time_limit_per_player : Int := 0
  game_start_time : Option Int := none
  white_time_remaining : Int := 0
  black_time_remaining : Int := 0
  deriving DecidableEq, Repr

structure CancelMatchResponse where
  player_id : CString
  success : Bool
  message : CString
  deriving DecidableEq, Repr

structure MoveResponse where
  game_id : CString
  player_id : CString
  success : Bool
  message : CString
  updated_fen : CString := []
  deriving DecidableEq, Repr

/-- `MoveBroadcast`; its `promotion` is always `PT_NONE`. -/
structure MoveBroadcast where
  game_id : CString
  player_id : CString
  from_coord : CString
  to_coord : CString
  game_ends : Bool
  winner_team : ProtoTeam
  end_type : GameEndType
  is_check : Bool
  checked_team : ProtoTeam
  white_time_remaining : Int
  black_time_remaining : Int
  move_timestamp : Option Int
  deriving DecidableEq, Repr

structure GameEndBroadcast where
  game_id : CString
  player_id : CString
  winner_team : ProtoTeam
  end_type : GameEndType
  deriving DecidableEq, Repr

structure ChatBroadcast where
  player_id : CString
  message : CString
  deriving DecidableEq, Repr

structure ResignResponse where
  game_id : CString
  player_id : CString
  success : Bool
  message : CString
  deriving DecidableEq, Repr

structure ResignBroadcast where
  game_id : CString
  player_id : CString
  winner_team : ProtoTeam
  deriving DecidableEq, Repr

structure ErrorResponse where
  code : Int
  message : CString
  deriving DecidableEq, Repr

/-- `ServerMessage`, without the `CheckBroadcast` no code sends. -/
inductive ServerMessage where
  | ping_res (message : CString)
  | echo_res (message : CString)
  | match_game_res (res : MatchGameResponse)
  | cancel_match_res (res : CancelMatchResponse)
  | move_res (res : MoveResponse)
  | move_broadcast (res : MoveBroadcast)
  | game_end (res : GameEndBroadcast)
  | chat_broadcast (res : ChatBroadcast)
  | resign_res (res : ResignResponse)
  | resign_broadcast (res : ResignBroadcast)
  | error (res : ErrorResponse)
  deriving DecidableEq, Repr

/-! ## The environment of a handler run -/

/-- What a handler run observes: the results of its successive calls of
    `send_server_message`, `time`, `get_current_time_ms` and of the
    allocation of message timestamps (`none` if `malloc` fails). -/
structure Env where
  sends : Nat → Bool
  time : Nat → Int
  ms : Nat → Int
  timestamp : Nat → Option Int

/-- A call of `send_server_message` and whether it succeeded. -/
structure Sent where
  fd : Int
  msg : ServerMessage
  ok : Bool
  deriving DecidableEq, Repr

/-- `send_server_message`, after the calls `out`. -/
def send_server_message (env : Env) (out : List Sent) (fd : Int) (msg : ServerMessage) :
    List Sent × Bool :=
  (out ++ [⟨fd, msg, env.sends out.length⟩], env.sends out.length)

/-- `send_error_response`. -/
def send_error_response (env : Env) (out : List Sent) (fd code : Int) (message : CString) :
    List Sent × Bool :=
  send_server_message env out fd (.error { code := code, message := message })

/-- An operation without a defined result. -/
inductive Fault where
  | copy_too_long
  | int_overflow
  deriving DecidableEq, Repr

/-- `strcpy` into a buffer of `size` bytes. -/
def strcpy (size : Nat) (s : CString) : Except Fault CString :=
  if s.length < size then .ok s else .error .copy_too_long

/-- `snprintf` of the text `s` into a buffer of `size` bytes. -/
def snprintf (size : Nat) (s : CString) : CString :=
  s.take (size - 1)

/-- `%d` and `%ld`. -/
def decimal (n : Int) : CString :=
  if n < 0 then '-' :: Nat.toDigits 10 n.natAbs else Nat.toDigits 10 n.natAbs

/-- Signed subtraction in `bits` bits. -/
def checked_sub (bits : Nat) (a b : Int) : Except Fault Int :=
  if -(2 ^ (bits - 1)) ≤ a - b ∧ a - b < 2 ^ (bits - 1) then .ok (a - b)
  else .error .int_overflow

end MultiplayChess
