import MultiplayChess.Common.Network

/-! # Delivery of messages

    What one call of a receive function makes of a frame, and what
    successive calls make of the frames that successive calls of a send
    function write, however the kernel cuts the stream into pieces. -/

namespace MultiplayChess

open Framing

variable {Msg : Type}

/-! ## One message -/

/-- What a receive function returns for a length and the bytes it has read:
    nothing for the length 0, since `recv_all` then returns 0 as at the end
    of the stream, and nothing for a length that is too long. -/
def received (too_long : Nat → Bool) (unpack : List UInt8 → Option Msg) (msg_len : Nat)
    (buf : List UInt8) : Option Msg :=
  if too_long msg_len || msg_len == 0 then none else unpack buf

/-- How much of the stream a receive function takes. -/
def taken (too_long : Nat → Bool) (msg_len : Nat) : Nat :=
  if too_long msg_len then 4 else 4 + msg_len

/-- A frame whose length fits into the prefix. -/
def Fits (body : List UInt8) : Prop :=
  body.length < 2 ^ 32

section receive

variable {too_long : Nat → Bool} {unpack : List UInt8 → Option Msg} {turns : List Turn}
  {arrived body : List UInt8} {bodies : List (List UInt8)}

/-- What a receive call that returns has done: it has read the length, and
    unless that is too long as many bytes. -/
theorem receive_message_read {x : Option Msg} {msg_len : Nat} (hopen : Open turns)
    (hmsg_len : ntohl (arrived.take 4) = msg_len)
    (h : (receive_message too_long unpack turns arrived).returned = some x) :
    x = received too_long unpack msg_len ((arrived.drop 4).take msg_len) ∧
      (receive_message too_long unpack turns arrived).stream =
        arrived.drop (taken too_long msg_len) ∧
      taken too_long msg_len ≤ arrived.length ∧
      Open (receive_message too_long unpack turns arrived).turns := by
  unfold receive_message at h ⊢
  unfold received taken
  simp only at h ⊢
  have hlength := fun r => @recv_all_returned 4 turns arrived [] r hopen (Nat.zero_le 4)
  cases hrun : recv_all 4 turns arrived [] with
  | mk result lenbuf stream turns' =>
  simp only [hrun] at h hlength ⊢
  cases result with
  | none => cases h
  | some r =>
    obtain ⟨rfl, hlen, rfl, rfl, hturns⟩ := hlength r rfl
    have hpos : ¬ (((4 : Nat) : Int) ≤ 0) := by decide
    simp only [List.length_nil, Nat.sub_zero, List.nil_append, if_neg hpos, hmsg_len] at hlen h ⊢
    cases hlong : too_long msg_len with
    | true =>
      simp only [hlong, if_true] at h ⊢
      cases h
      exact ⟨rfl, trivial, hlen, hturns⟩
    | false =>
      simp only [hlong, Bool.false_eq_true, if_false] at h ⊢
      have hbody := fun r =>
        @recv_all_returned msg_len turns' (arrived.drop 4) [] r hturns (Nat.zero_le _)
      cases hrun' : recv_all msg_len turns' (arrived.drop 4) [] with
      | mk result' buf stream' turns'' =>
      simp only [hrun'] at h hbody ⊢
      cases result' with
      | none => cases h
      | some r' =>
        obtain ⟨rfl, hlen', rfl, rfl, hturns'⟩ := hbody r' rfl
        simp only [List.length_nil, Nat.sub_zero, List.nil_append, List.length_drop,
          List.drop_drop] at hlen' h ⊢
        by_cases hzero : msg_len = 0
        · -- `recv_all` returned 0, which is taken for the end of the stream
          have hle : (msg_len : Int) ≤ 0 := by omega
          simp only [if_pos hle] at h ⊢
          cases h
          rw [hzero]
          exact ⟨rfl, trivial, hlen, hturns'⟩
        · have hnot : ¬ (msg_len : Int) ≤ 0 := by omega
          have hbeq : (msg_len == 0) = false := beq_false_of_ne hzero
          simp only [if_neg hnot] at h ⊢
          cases h
          rw [hbeq]
          exact ⟨rfl, trivial, by omega, hturns'⟩

/-- A receive call returns once the bytes it asks for have arrived and the
    kernel has had enough turns. -/
theorem receive_message_done (hopen : Open turns)
    (harrived : 4 + ntohl (arrived.take 4) ≤ arrived.length)
    (hturns : 4 + ntohl (arrived.take 4) ≤ transfers turns) :
    (receive_message too_long unpack turns arrived).returned ≠ none ∧
      transfers turns ≤ transfers (receive_message too_long unpack turns arrived).turns +
        (4 + ntohl (arrived.take 4)) := by
  -- first the header
  obtain ⟨hresult, hleft⟩ := recv_all_returns hopen (show [].length ≤ 4 from Nat.zero_le 4)
    (show 4 - 0 ≤ arrived.length by omega) (show 4 - 0 ≤ transfers turns by omega)
  obtain ⟨_, hlen, hbuf, hstream, hopen'⟩ := recv_all_returned hopen (Nat.zero_le 4) hresult
  simp only [List.length_nil, Nat.sub_zero, List.nil_append] at hlen hbuf hstream hleft
  -- then the body, from what the header has left
  obtain ⟨hresult', hleft'⟩ := recv_all_returns hopen'
    (show [].length ≤ ntohl (arrived.take 4) from Nat.zero_le _)
    (show ntohl (arrived.take 4) - 0 ≤ (recv_all 4 turns arrived []).stream.length by
      rw [hstream, List.length_drop]
      omega)
    (by rw [List.length_nil]; omega)
  rw [List.length_nil, Nat.sub_zero] at hleft'
  unfold receive_message
  simp only [hresult, hbuf, hresult']
  split
  · refine ⟨Option.some_ne_none _, ?_⟩
    -- too long: the body is not read
    show transfers turns ≤ transfers (recv_all 4 turns arrived []).turns + _
    omega
  · split
    · refine ⟨Option.some_ne_none _, ?_⟩
      show transfers turns ≤ transfers (recv_all 4 turns arrived []).turns + _
      omega
    · split
      · refine ⟨Option.some_ne_none _, ?_⟩
        show transfers turns ≤ transfers (recv_all _ _ _ []).turns + _
        omega
      · refine ⟨Option.some_ne_none _, ?_⟩
        show transfers turns ≤ transfers (recv_all _ _ _ []).turns + _
        omega

/-- **One call.** A receive call that returns has read the first frame and
    nothing behind it. -/
theorem receive_message_returned {x : Option Msg} (hopen : Open turns)
    (hpre : arrived <+: length_header.frames (body :: bodies)) (hfits : Fits body)
    (h : (receive_message too_long unpack turns arrived).returned = some x) :
    x = received too_long unpack body.length body ∧
      (receive_message too_long unpack turns arrived).stream =
        arrived.drop (taken too_long body.length) ∧
      taken too_long body.length ≤ arrived.length ∧
      Open (receive_message too_long unpack turns arrived).turns := by
  obtain ⟨hx, hstream, hlen, hturns⟩ := receive_message_read hopen rfl h
  have hfour : 4 ≤ arrived.length := by
    apply Nat.le_trans ?_ hlen
    unfold taken
    split
    · exact Nat.le_refl 4
    · exact Nat.le_add_right ..
  -- the prefix is that of the first body
  have hheader : ntohl (arrived.take 4) = body.length := Header.decode_header hpre hfour hfits
  rw [hheader] at hx hstream hlen
  refine ⟨?_, hstream, hlen, hturns⟩
  rw [hx]
  unfold received
  cases hlong : too_long body.length with
  | true => rfl
  | false =>
    unfold taken at hlen
    rw [hlong, if_neg Bool.false_ne_true] at hlen
    rw [show (arrived.drop 4).take body.length = body from (Header.take_body hpre hlen).1]

/-- A receive call returns once the frame has arrived and the kernel has
    had enough turns. -/
theorem receive_message_returns (hopen : Open turns)
    (hpre : arrived <+: length_header.frames (body :: bodies)) (hfits : Fits body)
    (harrived : 4 + body.length ≤ arrived.length) (hturns : 4 + body.length ≤ transfers turns) :
    (receive_message too_long unpack turns arrived).returned ≠ none ∧
      transfers turns ≤
        transfers (receive_message too_long unpack turns arrived).turns + (4 + body.length) := by
  have hfour : 4 ≤ arrived.length := by omega
  have hheader : ntohl (arrived.take 4) = body.length := Header.decode_header hpre hfour hfits
  rw [← hheader]
  rw [← hheader] at harrived hturns
  exact receive_message_done hopen harrived hturns

/-- Before a frame begins to arrive no receive call returns. -/
theorem receive_message_waits (hopen : Open turns) :
    (receive_message too_long unpack turns []).returned = none := by
  have hwaits : (recv_all 4 turns [] []).result = none := by
    cases hresult : (recv_all 4 turns [] []).result with
    | none => rfl
    | some r =>
      have := (recv_all_returned hopen (Nat.zero_le 4) hresult).2.1
      cases this
  unfold receive_message
  simp only [hwaits]

end receive

section send

variable {pack : Msg → List UInt8} {msg : Msg} {turns : List Turn}

/-- What a send call has written, and that it succeeds when it returns. -/
theorem send_message_written (hopen : Open turns) (hsize : (pack msg).length ≤ 2 ^ 20) :
    (send_message pack msg turns).written <+: length_header.frame (pack msg) ∧
      Open (send_message pack msg turns).turns ∧
      ∀ r, (send_message pack msg turns).result = some r →
        0 ≤ r ∧ (send_message pack msg turns).written = length_header.frame (pack msg) := by
  obtain ⟨hpre, hturns, hall⟩ := send_all_written hopen
    (show 0 ≤ (htonl (pack msg).length ++ pack msg).length from Nat.zero_le _)
  refine ⟨hpre, hturns, ?_⟩
  intro r hr
  obtain ⟨r', hr', rfl⟩ := Option.map_eq_some_iff.mp hr
  obtain ⟨rfl, hwritten⟩ := hall r' hr'
  refine ⟨?_, hwritten⟩
  -- the result fits into an `int`
  have hlen : (htonl (pack msg).length ++ pack msg).length = 4 + (pack msg).length :=
    length_header.length_frame (pack msg)
  unfold to_int32
  rw [hlen, Int.bmod_eq_of_le (by omega) (by omega)]
  omega

theorem send_message_returns (hopen : Open turns)
    (hturns : 4 + (pack msg).length ≤ transfers turns) :
    (send_message pack msg turns).result ≠ none ∧
      transfers turns ≤
        transfers (send_message pack msg turns).turns + (4 + (pack msg).length) := by
  have hlen : (htonl (pack msg).length ++ pack msg).length = 4 + (pack msg).length :=
    length_header.length_frame (pack msg)
  obtain ⟨hresult, hleft⟩ := send_all_returns hopen
    (show 0 ≤ (htonl (pack msg).length ++ pack msg).length from Nat.zero_le _)
    (by rw [hlen]; exact hturns)
  rw [hlen] at hleft
  refine ⟨?_, hleft⟩
  unfold send_message
  simp only [hresult]
  exact Option.some_ne_none _

end send

/-! ## Successive calls -/

/-- Successive calls of a send function: the results of those that have
    returned, and all bytes written so far. -/
def send_messages (send : Msg → List Turn → SendRun) :
    List Msg → List Turn → List Int × List UInt8
  | [], _ => ([], [])
  | msg :: msgs, turns =>
    let run := send msg turns
    match run.result with
    | none => ([], run.written)
    | some r =>
      let rest := send_messages send msgs run.turns
      (r :: rest.1, run.written ++ rest.2)

/-- Up to `k` successive calls of a receive function: what those that have
    returned returned. -/
def receive_messages (receive : List Turn → List UInt8 → ReceiveRun Msg) :
    Nat → List Turn → List UInt8 → List (Option Msg)
  | 0, _, _ => []
  | k + 1, turns, stream =>
    let run := receive turns stream
    match run.returned with
    | none => []
    | some x => x :: receive_messages receive k run.turns run.stream

/-- The bytes of the frames of some messages. -/
def frames_of (pack : Msg → List UInt8) (msgs : List Msg) : List UInt8 :=
  length_header.frames (msgs.map pack)

/-- The messages whose packed size the two peers agree on. -/
def Sendable (pack : Msg → List UInt8) (msg : Msg) : Prop :=
  1 ≤ (pack msg).length ∧ (pack msg).length ≤ 1024 * 1024

variable {pack : Msg → List UInt8}

theorem length_frames_cons (msg : Msg) (msgs : List Msg) :
    (frames_of pack (msg :: msgs)).length =
      4 + (pack msg).length + (frames_of pack msgs).length := by
  unfold frames_of
  rw [List.map_cons, Header.frames_cons, List.length_append, Header.length_frame]
  rfl

/-- The bytes written so far are the beginning of the frames, and every
    call that has returned succeeded. -/
theorem send_messages_written {msgs : List Msg} (hsize : ∀ msg ∈ msgs, Sendable pack msg) :
    ∀ {turns : List Turn}, Open turns →
      (send_messages (send_message pack) msgs turns).2 <+: frames_of pack msgs ∧
        (∀ r ∈ (send_messages (send_message pack) msgs turns).1, 0 ≤ r) ∧
        ((frames_of pack msgs).length ≤ transfers turns →
          (send_messages (send_message pack) msgs turns).1.length = msgs.length ∧
          (send_messages (send_message pack) msgs turns).2 = frames_of pack msgs) := by
  induction msgs with
  | nil =>
    intro turns _
    exact ⟨List.nil_prefix, fun r hr => absurd hr List.not_mem_nil, fun _ => ⟨rfl, rfl⟩⟩
  | cons msg msgs ih =>
    intro turns hopen
    have hmsg := (hsize msg (List.mem_cons_self ..)).2
    obtain ⟨hpre, hturns, hall⟩ := send_message_written hopen hmsg
    have hframes : frames_of pack (msg :: msgs) =
        length_header.frame (pack msg) ++ frames_of pack msgs := rfl
    unfold send_messages
    simp only
    cases hresult : (send_message pack msg turns).result with
    | none =>
      -- the call is still waiting, so the turns were not enough
      refine ⟨hpre.trans (List.prefix_append ..), fun r hr => absurd hr List.not_mem_nil, ?_⟩
      intro henough
      rw [length_frames_cons] at henough
      exact absurd hresult (send_message_returns hopen (by omega)).1
    | some r =>
      -- the first frame is written, and the others follow it
      obtain ⟨hr, hwritten⟩ := hall r hresult
      obtain ⟨ihpre, ihr, ihall⟩ := ih (fun m hm => hsize m (List.mem_cons_of_mem _ hm)) hturns
      simp only
      rw [hwritten, hframes]
      refine ⟨(List.prefix_append_right_inj _).mpr ihpre, ?_, ?_⟩
      · intro r' hr'
        rcases List.mem_cons.mp hr' with rfl | hr'
        · exact hr
        · exact ihr r' hr'
      · intro henough
        rw [← hframes, length_frames_cons] at henough
        have := (send_message_returns hopen
          (show 4 + (pack msg).length ≤ transfers turns by omega)).2
        obtain ⟨hlen, hbytes⟩ := ihall (by omega)
        exact ⟨congrArg (· + 1) hlen, congrArg (length_header.frame (pack msg) ++ ·) hbytes⟩

/-- Before anything has arrived no call returns. -/
theorem receive_messages_waits {too_long : Nat → Bool} {unpack : List UInt8 → Option Msg}
    {turns : List Turn} (hopen : Open turns) (k : Nat) :
    receive_messages (receive_message too_long unpack) k turns [] = [] := by
  cases k with
  | zero => rfl
  | succ k =>
    unfold receive_messages
    simp only [receive_message_waits hopen]

/-- The calls that have returned have returned the first messages; all of
    them have once all bytes have arrived and the kernel has had enough
    turns. -/
theorem receive_messages_returned {too_long : Nat → Bool} {unpack : List UInt8 → Option Msg}
    (hlimit : ∀ n ≤ 1024 * 1024, too_long n = false)
    (hunpack : ∀ msg, unpack (pack msg) = some msg) {msgs : List Msg}
    (hsize : ∀ msg ∈ msgs, Sendable pack msg) :
    ∀ {turns : List Turn} {arrived : List UInt8} (k : Nat), Open turns →
      arrived <+: frames_of pack msgs →
      receive_messages (receive_message too_long unpack) k turns arrived <+: msgs.map some ∧
        (arrived = frames_of pack msgs → arrived.length ≤ transfers turns → k = msgs.length →
          receive_messages (receive_message too_long unpack) k turns arrived = msgs.map some) := by
  induction msgs with
  | nil =>
    intro turns arrived k hopen hpre
    obtain rfl := List.prefix_nil.mp hpre
    rw [receive_messages_waits hopen]
    exact ⟨List.nil_prefix, fun _ _ _ => rfl⟩
  | cons msg msgs ih =>
    intro turns arrived k hopen hpre
    obtain ⟨hpos, hmax⟩ := hsize msg (List.mem_cons_self ..)
    have hfits : Fits (pack msg) := show (pack msg).length < 2 ^ 32 by omega
    have hlong := hlimit _ hmax
    cases k with
    | zero =>
      refine ⟨List.nil_prefix, ?_⟩
      intro _ _ hk
      cases hk
    | succ k =>
      unfold receive_messages
      simp only
      -- either the first call is still waiting or it has taken the first frame
      cases hreturned : (receive_message too_long unpack turns arrived).returned with
      | none =>
        refine ⟨List.nil_prefix, ?_⟩
        intro hall henough _
        rw [hall, length_frames_cons] at henough
        exact absurd hreturned (receive_message_returns hopen hpre hfits
          (by rw [hall, length_frames_cons]; omega) (by omega)).1
      | some x =>
        obtain ⟨hx, hstream, htaken, hturns⟩ :=
          receive_message_returned hopen hpre hfits hreturned
        have hempty : ((pack msg).length == 0) = false := beq_false_of_ne (by omega)
        unfold received taken at *
        simp only [hlong, hempty, Bool.or_self, Bool.false_eq_true, if_false,
          hunpack] at hx hstream htaken
        -- what has arrived behind it begins the other frames
        have hrest : arrived.drop (4 + (pack msg).length) <+: frames_of pack msgs := by
          rw [← List.drop_drop]
          exact (Header.take_body hpre htaken).2
        obtain ⟨ihpre, ihall⟩ := ih (fun m hm => hsize m (List.mem_cons_of_mem _ hm))
          k hturns hrest
        simp only [hx, hstream]
        constructor
        · rw [List.map_cons]
          exact (List.prefix_cons_inj _).mpr ihpre
        · intro hall henough hk
          -- the first call had no more turns than its frame has bytes
          rw [List.map_cons, ihall ?_ ?_ (Nat.succ.inj hk)]
          · rw [hall]
            exact List.drop_left' (length_header.length_frame (pack msg))
          · have hlen := congrArg List.length hall
            rw [length_frames_cons] at hlen
            have := (@receive_message_returns _ too_long unpack _ _ _ _ hopen hpre hfits
              (by omega) (by omega)).2
            rw [List.length_drop]
            omega

/-- The peers of a connection understand each other: at any time what the
    receive calls have returned is the beginning of the list of messages,
    and in the end it is all of it. -/
def Understood (pack : Msg → List UInt8) (send : Msg → List Turn → SendRun)
    (receive : List Turn → List UInt8 → ReceiveRun Msg) : Prop :=
  ∀ msgs : List Msg, (∀ msg ∈ msgs, Sendable pack msg) →
    ∀ send_turns recv_turns : List Turn, Open send_turns → Open recv_turns →
      let sent := send_messages send msgs send_turns
      (∀ arrived, arrived <+: sent.2 → ∀ k,
        receive_messages receive k recv_turns arrived <+: msgs.map some) ∧
      (∀ r ∈ sent.1, 0 ≤ r) ∧
      ((frames_of pack msgs).length ≤ transfers send_turns →
        (frames_of pack msgs).length ≤ transfers recv_turns →
        sent.1.length = msgs.length ∧
          receive_messages receive msgs.length recv_turns sent.2 = msgs.map some)

theorem understood_of_limit {too_long : Nat → Bool} {unpack : List UInt8 → Option Msg}
    (hlimit : ∀ n ≤ 1024 * 1024, too_long n = false)
    (hunpack : ∀ msg, unpack (pack msg) = some msg) :
    Understood pack (send_message pack) (receive_message too_long unpack) := by
  intro msgs hsize send_turns recv_turns hsend hrecv sent
  obtain ⟨hpre, hresults, hall⟩ := send_messages_written hsize hsend
  refine ⟨?_, hresults, ?_⟩
  · intro arrived harrived k
    exact (receive_messages_returned hlimit hunpack hsize k hrecv (harrived.trans hpre)).1
  · intro hsent hreceived
    obtain ⟨hlen, hbytes⟩ := hall hsent
    refine ⟨hlen, ?_⟩
    exact (receive_messages_returned hlimit hunpack hsize msgs.length hrecv
      (by rw [hbytes])).2 hbytes (by rw [hbytes]; exact hreceived) rfl

/-- **Framing.** Messages of 1 byte to 1 MiB are delivered in order, none
    lost, duplicated, merged or truncated, whatever pieces the kernel cuts
    the stream into and however often it interrupts the calls. -/
theorem messages_delivered {ClientMsg ServerMsg : Type}
    {client_message__pack : ClientMsg → List UInt8}
    {client_message__unpack : List UInt8 → Option ClientMsg}
    {server_message__pack : ServerMsg → List UInt8}
    {server_message__unpack : List UInt8 → Option ServerMsg}
    (hclient : ∀ msg, client_message__unpack (client_message__pack msg) = some msg)
    (hserver : ∀ msg, server_message__unpack (server_message__pack msg) = some msg) :
    Understood client_message__pack (send_client_message client_message__pack)
        (receive_client_message client_message__unpack) ∧
      Understood server_message__pack (send_server_message_bytes server_message__pack)
        (receive_server_message server_message__unpack) := by
  have hlimit : ∀ n ≤ 1024 * 1024, decide (n > 1024 * 1024) = false := by
    intro n hn
    exact decide_eq_false (by omega)
  exact ⟨understood_of_limit (fun _ _ => rfl) hclient, understood_of_limit hlimit hserver⟩

/-- The packed forms of a ping (`false`) and an echo (`true`) with empty
    text. -/
def pack_empty_text : Bool → List UInt8
  | false => [82, 0]
  | true => [90, 0]

def unpack_empty_text : List UInt8 → Option Bool
  | [82, 0] => some false
  | [90, 0] => some true
  | _ => none

theorem messages_delivered_empty_texts :
    Understood pack_empty_text (send_client_message pack_empty_text)
        (receive_client_message unpack_empty_text) ∧
      Understood pack_empty_text (send_server_message_bytes pack_empty_text)
        (receive_server_message unpack_empty_text) :=
  messages_delivered (by decide) (by decide)

/-- The two messages in pieces of one, two and three bytes. -/
example : receive_messages (receive_client_message unpack_empty_text) 2
    [.transfer 0, .interrupted, .transfer 1, .transfer 0, .transfer 1, .transfer 9, .transfer 0,
      .transfer 0]
    (send_messages (send_client_message pack_empty_text) [false, true]
      [.transfer 2, .interrupted, .transfer 0, .transfer 9, .transfer 9]).2 =
    [some false, some true] := by
  decide

end MultiplayChess
