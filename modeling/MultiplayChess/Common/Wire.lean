import MultiplayChess.Server.Message
import Mathlib.Algebra.Order.BigOperators.Group.List
import Mathlib.Algebra.Order.Ring.Nat
import Mathlib.Algebra.Group.Action.Defs

/-! # Sizes of packed messages

    The number of bytes of a `ServerMessage` in the protobuf wire format,
    from the field numbers and types of `message.proto`.  A field that has
    its default value is not packed; a submessage and a text are preceded
    by their lengths.  The characters of a text are its bytes. -/

namespace MultiplayChess

/-! ## Fields -/

/-- A field of a message with its number: a text, a number or enumeration
    value, a flag, or a `google.protobuf.Timestamp` in full seconds. -/
inductive Field where
  | text (field : Nat) (s : CString)
  | int (field : Nat) (n : Int)
  | bool (field : Nat) (b : Bool)
  | timestamp (field : Nat) (seconds : Option Int)

def Field.field : Field → Nat
  | .text field _ => field
  | .int field _ => field
  | .bool field _ => field
  | .timestamp field _ => field

/-- The bytes of a varint, with seven bits each. -/
def varint_size (n : Nat) : Nat :=
  n.log2 / 7 + 1

/-- A field of `len` bytes. -/
def len_size (field len : Nat) : Nat :=
  varint_size (8 * field + 2) + varint_size len + len

/-- Negative numbers are packed with 64 bits. -/
def int_size (field : Nat) (n : Int) : Nat :=
  if n = 0 then 0 else varint_size (8 * field) + varint_size (n % 2 ^ 64).toNat

def Field.size : Field → Nat
  | .text field s => if s = [] then 0 else len_size field s.length
  | .int field n => int_size field n
  | .bool field b => int_size field (if b then 1 else 0)
  | .timestamp _ none => 0
  | .timestamp field (some seconds) => len_size field (int_size 1 seconds)

def ProtoTeam.value : ProtoTeam → Int
  | .unspecified => 0
  | .white => 1
  | .black => 2

def GameEndType.value : GameEndType → Int
  | .unknown => 0
  | .resign => 1
  | .disconnect => 2
  | .checkmate => 3
  | .stalemate => 4
  | .draw => 5
  | .timeout => 6

/-! ## Messages -/

/-- `msg_case`, the field number of the submessage. -/
def ServerMessage.msg_case : ServerMessage → Nat
  | .ping_res _ => 10
  | .echo_res _ => 11
  | .match_game_res _ => 20
  | .cancel_match_res _ => 21
  | .move_res _ => 22
  | .move_broadcast _ => 23
  | .game_end _ => 25
  | .chat_broadcast _ => 26
  | .resign_res _ => 27
  | .resign_broadcast _ => 28
  | .error _ => 99

/-- The fields of the submessage that the server sets. -/
def ServerMessage.fields : ServerMessage → List Field
  | .ping_res message => [.text 1 message]
  | .echo_res message => [.text 1 message]
  | .match_game_res res =>
    [.text 1 res.game_id, .bool 2 res.success, .text 3 res.message,
      .int 4 res.assigned_team.value, .text 5 res.opponent_name,
      .int 6 res.time_limit_per_player, .timestamp 7 res.game_start_time,
      .int 8 res.white_time_remaining, .int 9 res.black_time_remaining]
  | .cancel_match_res res => [.text 1 res.player_id, .bool 2 res.success, .text 3 res.message]
  | .move_res res =>
    [.text 1 res.game_id, .text 2 res.player_id, .bool 3 res.success, .text 4 res.message,
      .text 5 res.updated_fen]
  | .move_broadcast res =>
    [.text 1 res.game_id, .text 2 res.player_id, .text 3 res.from_coord, .text 4 res.to_coord,
      .bool 7 res.game_ends, .int 8 res.winner_team.value, .int 9 res.end_type.value,
      .bool 10 res.is_check, .int 11 res.checked_team.value, .int 12 res.white_time_remaining,
      .int 13 res.black_time_remaining, .timestamp 14 res.move_timestamp]
  | .game_end res =>
    [.text 1 res.game_id, .text 2 res.player_id, .int 3 res.winner_team.value,
      .int 4 res.end_type.value]
  | .chat_broadcast res => [.text 1 res.player_id, .text 2 res.message]
  | .resign_res res =>
    [.text 1 res.game_id, .text 2 res.player_id, .bool 3 res.success, .text 4 res.message]
  | .resign_broadcast res =>
    [.text 1 res.game_id, .text 2 res.player_id, .int 3 res.winner_team.value]
  | .error res => [.int 3 res.code, .text 4 res.message]

/-- The packed size of a `ServerMessage`. -/
def server_message_get_packed_size (msg : ServerMessage) : Nat :=
  len_size msg.msg_case (msg.fields.map Field.size).sum

/-! ## Bounds -/

theorem varint_size_le {n k : Nat} (hk : 0 < k) (h : n < 2 ^ (7 * k)) : varint_size n ≤ k := by
  unfold varint_size
  by_cases hn : n = 0
  · subst hn
    exact hk
  · have hlog : n.log2 < 7 * k := (Nat.log2_lt hn).mpr h
    omega

theorem le_varint_size {n k : Nat} (h : 2 ^ (7 * k) ≤ n) : k + 1 ≤ varint_size n := by
  unfold varint_size
  have hn : n ≠ 0 := by
    have := Nat.two_pow_pos (7 * k)
    omega
  have hlog : 7 * k ≤ n.log2 := (Nat.le_log2 hn).mpr h
  omega

theorem len_size_le {field len : Nat} (hfield : field < 100) (hlen : len < 2 ^ 21) :
    len_size field len ≤ len + 5 := by
  have htag : varint_size (8 * field + 2) ≤ 2 := varint_size_le (k := 2) (by decide) (by omega)
  have hvarint : varint_size len ≤ 3 := varint_size_le (k := 3) (by decide) hlen
  unfold len_size
  omega

theorem int_size_le {field : Nat} (n : Int) (hfield : field < 100) : int_size field n ≤ 12 := by
  have htag : varint_size (8 * field) ≤ 2 := varint_size_le (k := 2) (by decide) (by omega)
  have hvarint : varint_size (n % 2 ^ 64).toNat ≤ 10 := by
    apply varint_size_le (k := 10) (by decide) ?_
    have hsmall : (n % 2 ^ 64).toNat < 2 ^ 64 := by omega
    exact Nat.lt_trans hsmall (by decide)
  unfold int_size
  split
  · exact Nat.zero_le _
  · omega

/-- A field that is not a long text. -/
def Field.Brief : Field → Prop
  | .text _ s => s.length ≤ 256
  | _ => True

theorem Field.Brief.size_le {f : Field} (h : f.Brief) (hfield : f.field < 100) : f.size ≤ 261 := by
  cases f with
  | text field s =>
    have hs : s.length ≤ 256 := h
    have hlen := len_size_le (show field < 100 from hfield) (show s.length < 2 ^ 21 by omega)
    show (if s = [] then 0 else len_size field s.length) ≤ 261
    split
    · exact Nat.zero_le _
    · omega
  | int field n => exact Nat.le_trans (int_size_le n hfield) (by decide)
  | bool field b => exact Nat.le_trans (int_size_le _ hfield) (by decide)
  | timestamp field seconds =>
    cases seconds with
    | none => exact Nat.zero_le _
    | some seconds =>
      have hseconds := int_size_le seconds (show 1 < 100 by decide)
      have := len_size_le (show field < 100 from hfield)
        (show int_size 1 seconds < 2 ^ 21 by omega)
      show len_size field (int_size 1 seconds) ≤ 261
      omega

theorem ServerMessage.field_lt (msg : ServerMessage) :
    msg.msg_case < 100 ∧ msg.fields.length ≤ 12 ∧ ∀ f ∈ msg.fields, f.field < 100 := by
  cases msg <;> simp [ServerMessage.msg_case, ServerMessage.fields, Field.field]

/-- A message without long texts. -/
def ServerMessage.Brief (msg : ServerMessage) : Prop :=
  ∀ f ∈ msg.fields, f.Brief

/-- A message without long texts is short. -/
theorem ServerMessage.Brief.size_le {msg : ServerMessage} (h : msg.Brief) :
    server_message_get_packed_size msg ≤ 2 ^ 20 := by
  obtain ⟨hcase, hcount, hfield⟩ := msg.field_lt
  have hsum : (msg.fields.map Field.size).sum ≤ msg.fields.length * 261 := by
    have := List.sum_le_card_nsmul (msg.fields.map Field.size) 261 (by
      intro n hn
      obtain ⟨f, hf, rfl⟩ := List.mem_map.mp hn
      exact (h f hf).size_le (hfield f hf))
    rwa [List.length_map, smul_eq_mul] at this
  have := len_size_le hcase
    (show (msg.fields.map Field.size).sum < 2 ^ 21 by omega)
  unfold server_message_get_packed_size
  omega

/-! ## Long texts -/

/-- The size of a long field: its length takes three bytes. -/
theorem len_size_le_iff {field len bound : Nat}
    (hlow : 2 ^ 14 + 3 + varint_size (8 * field + 2) ≤ bound) (hhigh : bound < 2 ^ 21) :
    len_size field len ≤ bound ↔ len + 3 + varint_size (8 * field + 2) ≤ bound := by
  unfold len_size
  constructor
  · intro h
    by_cases hlen : 2 ^ 14 ≤ len
    · have := le_varint_size (k := 2) hlen
      omega
    · omega
  · intro h
    have := varint_size_le (k := 3) (n := len) (by decide) (by omega)
    omega

theorem text_size_le_iff {field bound : Nat} (s : CString)
    (hlow : 2 ^ 14 + 3 + varint_size (8 * field + 2) ≤ bound) (hhigh : bound < 2 ^ 21) :
    (Field.text field s).size ≤ bound ↔ s.length + 3 + varint_size (8 * field + 2) ≤ bound := by
  rw [← len_size_le_iff hlow hhigh]
  show (if s = [] then 0 else len_size field s.length) ≤ bound ↔ _
  split
  · rename_i hs
    subst hs
    have : len_size field 0 ≤ bound := (len_size_le_iff hlow hhigh).mpr (by omega)
    exact ⟨fun _ => this, fun _ => Nat.zero_le _⟩
  · exact Iff.rfl

/-- A message with one text of any length, next to fields of `rest`
    bytes. -/
theorem packed_size_le_iff {msg : ServerMessage} (s : CString) (field rest tag : Nat)
    (hcase : varint_size (8 * msg.msg_case + 2) = tag) (htag : tag ≤ 2) (hfield : field ≤ 15)
    (hrest : rest ≤ 1000)
    (hsum : (msg.fields.map Field.size).sum = (Field.text field s).size + rest) :
    server_message_get_packed_size msg ≤ 1024 * 1024 ↔
      s.length + (rest + 7 + tag) ≤ 1024 * 1024 := by
  have hown : varint_size (8 * field + 2) = 1 := by
    apply Nat.le_antisymm (varint_size_le (k := 1) (by decide) (by omega)) ?_
    unfold varint_size
    omega
  unfold server_message_get_packed_size
  rw [len_size_le_iff (by omega) (by decide), hsum, hcase]
  have htext := @text_size_le_iff field (1024 * 1024 - rest - 3 - tag) s (by omega) (by omega)
  omega

end MultiplayChess
