import MultiplayChess.Framework.Framing
import MultiplayChess.Server.Message

/-! # Sending and receiving messages

    `common/network.c`.  What the kernel makes of the successive calls of
    `send` and `recv` is a list of turns; a call that finds no turn left,
    or `recv` without a byte that has arrived, has not returned yet.
    Packing and unpacking, which protobuf-c does, are parameters, and
    memory is not exhausted. -/

namespace MultiplayChess

open Framing

/-! ## The kernel -/

/-- What a call of `send` or `recv` does: it is interrupted (`EINTR`), it
    fails, it returns 0 because the connection is closed, or it transfers
    as many bytes as it can, up to `n + 1`. -/
inductive Turn where
  | interrupted
  | failed
  | closed
  | transfer (n : Nat)
  deriving DecidableEq, Repr

/-- The connection stays open. -/
def Open (turns : List Turn) : Prop :=
  ∀ t ∈ turns, t ≠ .failed ∧ t ≠ .closed

/-- The turns that transfer bytes. -/
def transfers : List Turn → Nat
  | [] => 0
  | .transfer _ :: turns => transfers turns + 1
  | _ :: turns => transfers turns

/-- A call of `send_all`: the bytes written so far, the result once it has
    returned, and the turns that are left. -/
structure SendRun where
  result : Option Int
  written : List UInt8
  turns : List Turn
  deriving DecidableEq, Repr

/-- `send_all`, with `total` bytes of `buf` sent before. -/
def send_all (buf : List UInt8) : List Turn → Nat → SendRun
  | turns, total =>
    if total < buf.length then
      match turns with
      | [] => ⟨none, [], []⟩
      | .interrupted :: turns => send_all buf turns total
      | .failed :: turns => ⟨some (-1), [], turns⟩
      | .closed :: turns => ⟨some (-1), [], turns⟩
      | .transfer n :: turns =>
        let sent := min (n + 1) (buf.length - total)
        let rest := send_all buf turns (total + sent)
        { rest with written := (buf.drop total).take sent ++ rest.written }
    else ⟨some total, [], turns⟩

/-- A call of `recv_all`: the bytes read so far, the result once it has
    returned, what is left of the bytes that have arrived, and the turns. -/
structure RecvRun where
  result : Option Int
  buf : List UInt8
  stream : List UInt8
  turns : List Turn
  deriving DecidableEq, Repr

/-- `recv_all`, with the bytes `buf` read before. -/
def recv_all (len : Nat) : List Turn → List UInt8 → List UInt8 → RecvRun
  | turns, stream, buf =>
    if buf.length < len then
      match turns with
      | [] => ⟨none, buf, stream, []⟩
      | .interrupted :: turns => recv_all len turns stream buf
      | .failed :: turns => ⟨some (-1), buf, stream, turns⟩
      | .closed :: turns => ⟨some 0, buf, stream, turns⟩
      | .transfer n :: turns =>
        if stream = [] then ⟨none, buf, stream, .transfer n :: turns⟩
        else
          let recvd := min (n + 1) (len - buf.length)
          recv_all len turns (stream.drop recvd) (buf ++ stream.take recvd)
    else ⟨some buf.length, buf, stream, turns⟩

/-! ## The length prefix -/

/-- `htonl` and `memcpy`: the four bytes of a 32-bit number. -/
def htonl (n : Nat) : List UInt8 :=
  [UInt8.ofNat (n / 2 ^ 24), UInt8.ofNat (n / 2 ^ 16), UInt8.ofNat (n / 2 ^ 8), UInt8.ofNat n]

/-- `memcpy` and `ntohl`. -/
def ntohl : List UInt8 → Nat
  | [a, b, c, d] => a.toNat * 2 ^ 24 + b.toNat * 2 ^ 16 + c.toNat * 2 ^ 8 + d.toNat
  | _ => 0

/-- The conversion to 32 bits drops the rest of a larger number. -/
theorem ntohl_htonl_mod (n : Nat) : ntohl (htonl n) = n % 2 ^ 32 := by
  unfold htonl ntohl
  simp only [UInt8.toNat_ofNat']
  omega

theorem ntohl_htonl {n : Nat} (h : n < 2 ^ 32) : ntohl (htonl n) = n :=
  (ntohl_htonl_mod n).trans (Nat.mod_eq_of_lt h)

/-- The length prefix of the protocol. -/
def length_header : Header UInt8 where
  size := 4
  bound := 2 ^ 32
  encode := htonl
  decode := ntohl
  length_encode := fun _ => rfl
  decode_encode := fun _ => ntohl_htonl

/-! ## Messages -/

section messages

variable {Msg : Type}

/-- The common body of `send_client_message` and `send_server_message`; the
    result of `send_all` is converted to `int`. -/
def send_message (pack : Msg → List UInt8) (msg : Msg) (turns : List Turn) : SendRun :=
  let packed := pack msg
  let run := send_all (htonl packed.length ++ packed) turns 0
  { run with result := run.result.map to_int32 }

def send_client_message (client_message__pack : Msg → List UInt8) (msg : Msg)
    (turns : List Turn) : SendRun :=
  send_message client_message__pack msg turns

/-- `send_server_message` of `network.c`; the handlers see only whether it
    fails. -/
def send_server_message_bytes (server_message__pack : Msg → List UInt8) (msg : Msg)
    (turns : List Turn) : SendRun :=
  send_message server_message__pack msg turns

/-- A call of `receive_client_message` or `receive_server_message`: what it
    returned (`none` for `NULL`) once it has. -/
structure ReceiveRun (Msg : Type) where
  returned : Option (Option Msg)
  stream : List UInt8
  turns : List Turn

/-- The common body of the two receive functions; `too_long` is the test on
    the length that only one of them makes. -/
def receive_message (too_long : Nat → Bool) (unpack : List UInt8 → Option Msg)
    (turns : List Turn) (stream : List UInt8) : ReceiveRun Msg :=
  let length := recv_all 4 turns stream []
  match length.result with
  | none => ⟨none, length.stream, length.turns⟩
  | some r =>
    if r ≤ 0 then ⟨some none, length.stream, length.turns⟩
    else
      let msg_len := ntohl length.buf
      if too_long msg_len then ⟨some none, length.stream, length.turns⟩
      else
        let body := recv_all msg_len length.turns length.stream []
        match body.result with
        | none => ⟨none, body.stream, body.turns⟩
        | some r =>
          if r ≤ 0 then ⟨some none, body.stream, body.turns⟩
          else ⟨some (unpack body.buf), body.stream, body.turns⟩

def receive_client_message (client_message__unpack : List UInt8 → Option Msg)
    (turns : List Turn) (stream : List UInt8) : ReceiveRun Msg :=
  receive_message (fun _ => false) client_message__unpack turns stream

def receive_server_message (server_message__unpack : List UInt8 → Option Msg)
    (turns : List Turn) (stream : List UInt8) : ReceiveRun Msg :=
  receive_message (fun msg_len => msg_len > 1024 * 1024) server_message__unpack turns stream

end messages

/-! ## The loops -/

theorem Open.of_cons {t : Turn} {turns : List Turn} (h : Open (t :: turns)) : Open turns :=
  fun t' ht' => h t' (List.mem_cons_of_mem _ ht')

/-- The kernel may hand over one byte at a time. -/
theorem open_single_bytes (n : Nat) : Open (List.replicate n (.transfer 0)) := by
  intro t ht
  rw [List.eq_of_mem_replicate ht]
  constructor
  · intro h
    cases h
  · intro h
    cases h

theorem transfers_single_bytes (n : Nat) : transfers (List.replicate n (.transfer 0)) = n := by
  induction n with
  | zero => rfl
  | succ n ih =>
    rw [List.replicate_succ]
    show transfers _ + 1 = n + 1
    rw [ih]

/-- What `recv_all` has read when it returns, on an open connection: as
    many bytes as it was asked for. -/
theorem recv_all_returned {len : Nat} {turns : List Turn} : ∀ {stream buf : List UInt8} {r : Int},
    Open turns → buf.length ≤ len → (recv_all len turns stream buf).result = some r →
      r = len ∧ len - buf.length ≤ stream.length ∧
        (recv_all len turns stream buf).buf = buf ++ stream.take (len - buf.length) ∧
        (recv_all len turns stream buf).stream = stream.drop (len - buf.length) ∧
        Open (recv_all len turns stream buf).turns := by
  have hdone : ∀ {turns : List Turn} {stream buf : List UInt8}, Open turns → len = buf.length →
      (buf.length : Int) = len ∧ len - buf.length ≤ stream.length ∧
        buf = buf ++ stream.take (len - buf.length) ∧ stream = stream.drop (len - buf.length) ∧
        Open turns := by
    intro turns stream buf hopen heq
    subst heq
    simp [hopen]
  induction turns with
  | nil =>
    intro stream buf r hopen hlen hresult
    unfold recv_all at hresult ⊢
    split at hresult
    · cases hresult
    · rename_i hfull
      rw [if_neg hfull]
      cases hresult
      exact hdone hopen (by omega)
  | cons t turns ih =>
    intro stream buf r hopen hlen hresult
    unfold recv_all at hresult ⊢
    split at hresult
    · rename_i hmore
      rw [if_pos hmore]
      cases t with
      | interrupted => exact ih hopen.of_cons hlen hresult
      | failed => exact absurd rfl (hopen _ (List.mem_cons_self ..)).1
      | closed => exact absurd rfl (hopen _ (List.mem_cons_self ..)).2
      | transfer n =>
        simp only at hresult ⊢
        split at hresult
        · cases hresult
        · rename_i hsome
          rw [if_neg hsome]
          -- the bytes of this turn, and then those of the rest of the loop
          obtain ⟨hr, hleft, hbuf, hstream, hturns⟩ := ih hopen.of_cons (by
            rw [List.length_append, List.length_take]
            omega) hresult
          simp only [List.length_append, List.length_take, List.length_drop] at hleft hbuf hstream
          have hk : min (n + 1) (len - buf.length) ≤ stream.length := by omega
          have hsum : len - (buf.length + min (min (n + 1) (len - buf.length)) stream.length) =
              (len - buf.length) - min (n + 1) (len - buf.length) := by omega
          refine ⟨hr, by omega, ?_, ?_, hturns⟩
          · rw [hbuf, hsum, List.append_assoc, ← List.take_add]
            congr 2
            omega
          · rw [hstream, hsum, List.drop_drop]
            congr 1
            omega
    · rename_i hfull
      rw [if_neg hfull]
      cases hresult
      exact hdone hopen (by omega)

/-- `recv_all` returns once the bytes have arrived and the kernel has had
    as many turns to hand them over. -/
theorem recv_all_returns {len : Nat} {turns : List Turn} : ∀ {stream buf : List UInt8},
    Open turns → buf.length ≤ len → len - buf.length ≤ stream.length →
      len - buf.length ≤ transfers turns →
      (recv_all len turns stream buf).result = some (len : Int) ∧
        transfers turns ≤ transfers (recv_all len turns stream buf).turns + (len - buf.length) := by
  induction turns with
  | nil =>
    intro stream buf _ hlen _ hturns
    -- no turns left, so the buffer was full before
    have hfull : ¬ buf.length < len := by
      simp only [transfers] at hturns
      omega
    unfold recv_all
    rw [if_neg hfull]
    refine ⟨?_, Nat.zero_le _⟩
    simp only [Option.some.injEq, Int.natCast_inj]
    omega
  | cons t turns ih =>
    intro stream buf hopen hlen hstream hturns
    unfold recv_all
    split
    · rename_i hmore
      cases t with
      | interrupted => exact ih hopen.of_cons hlen hstream hturns
      | failed => exact absurd rfl (hopen _ (List.mem_cons_self ..)).1
      | closed => exact absurd rfl (hopen _ (List.mem_cons_self ..)).2
      | transfer n =>
        -- what is missing has arrived, so the kernel hands over at least a byte
        have hsome : stream ≠ [] := by
          intro hnil
          rw [hnil, List.length_nil] at hstream
          omega
        simp only [if_neg hsome]
        simp only [transfers] at hturns ⊢
        -- each byte uses up at most one turn
        obtain ⟨hresult, hleft⟩ := @ih (stream.drop (min (n + 1) (len - buf.length)))
          (buf ++ stream.take (min (n + 1) (len - buf.length))) hopen.of_cons
          (by rw [List.length_append, List.length_take]; omega)
          (by rw [List.length_append, List.length_take, List.length_drop]; omega)
          (by rw [List.length_append, List.length_take]; omega)
        rw [List.length_append, List.length_take] at hleft
        exact ⟨hresult, by omega⟩
    · refine ⟨?_, Nat.le_add_right ..⟩
      simp only [Option.some.injEq, Int.natCast_inj]
      omega

/-- What `send_all` has written when it returns, and before. -/
theorem send_all_written {buf : List UInt8} {turns : List Turn} : ∀ {total : Nat},
    Open turns → total ≤ buf.length →
      (send_all buf turns total).written <+: buf.drop total ∧
        Open (send_all buf turns total).turns ∧
        ∀ r, (send_all buf turns total).result = some r →
          r = buf.length ∧ (send_all buf turns total).written = buf.drop total := by
  -- the loop ends with the whole buffer written
  have hdone : ∀ {turns : List Turn} {total : Nat}, Open turns → total = buf.length →
      ([] : List UInt8) <+: buf.drop total ∧ Open turns ∧
        ∀ r, some (total : Int) = some r → r = buf.length ∧ [] = buf.drop total := by
    intro turns total hopen heq
    refine ⟨List.nil_prefix, hopen, ?_⟩
    intro r hr
    cases hr
    subst heq
    exact ⟨rfl, List.drop_length.symm⟩
  induction turns with
  | nil =>
    intro total hopen hle
    unfold send_all
    split
    · exact ⟨List.nil_prefix, hopen, fun r hr => nomatch hr⟩
    · exact hdone hopen (by omega)
  | cons t turns ih =>
    intro total hopen hle
    unfold send_all
    split
    · cases t with
      | interrupted => exact ih hopen.of_cons hle
      | failed => exact absurd rfl (hopen _ (List.mem_cons_self ..)).1
      | closed => exact absurd rfl (hopen _ (List.mem_cons_self ..)).2
      | transfer n =>
        simp only
        obtain ⟨hpre, hturns, hall⟩ := @ih (total + min (n + 1) (buf.length - total))
          hopen.of_cons (by omega)
        -- this turn writes a piece, the later ones what is behind it
        have hsplit : buf.drop total = (buf.drop total).take (min (n + 1) (buf.length - total)) ++
            buf.drop (total + min (n + 1) (buf.length - total)) := by
          rw [← List.drop_drop, List.take_append_drop]
        refine ⟨?_, hturns, ?_⟩
        · conv => rhs; rw [hsplit]
          exact (List.prefix_append_right_inj _).mpr hpre
        · intro r hr
          obtain ⟨hr, hwritten⟩ := hall r hr
          refine ⟨hr, ?_⟩
          rw [hwritten, ← hsplit]
    · exact hdone hopen (by omega)

/-- `send_all` returns once the kernel has had enough turns. -/
theorem send_all_returns {buf : List UInt8} {turns : List Turn} : ∀ {total : Nat},
    Open turns → total ≤ buf.length → buf.length - total ≤ transfers turns →
      (send_all buf turns total).result = some (buf.length : Int) ∧
        transfers turns ≤ transfers (send_all buf turns total).turns + (buf.length - total) := by
  induction turns with
  | nil =>
    intro total _ hle hturns
    -- no turns left, so all was written before
    have hfull : ¬ total < buf.length := by
      simp only [transfers] at hturns
      omega
    unfold send_all
    rw [if_neg hfull]
    refine ⟨?_, Nat.zero_le _⟩
    simp only [Option.some.injEq, Int.natCast_inj]
    omega
  | cons t turns ih =>
    intro total hopen hle hturns
    unfold send_all
    split
    · cases t with
      | interrupted => exact ih hopen.of_cons hle hturns
      | failed => exact absurd rfl (hopen _ (List.mem_cons_self ..)).1
      | closed => exact absurd rfl (hopen _ (List.mem_cons_self ..)).2
      | transfer n =>
        simp only [transfers] at hturns ⊢
        obtain ⟨hresult, hleft⟩ := @ih (total + min (n + 1) (buf.length - total))
          hopen.of_cons (by omega) (by omega)
        exact ⟨hresult, by omega⟩
    · refine ⟨?_, Nat.le_add_right ..⟩
      simp only [Option.some.injEq, Int.natCast_inj]
      omega

end MultiplayChess
