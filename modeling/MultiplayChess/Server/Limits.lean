import MultiplayChess.Common.Delivery
import MultiplayChess.Server.Sizes

/-! # Messages that are too long for a client

    `receive_server_message` refuses messages of more than 1 MiB;
    `receive_client_message` and the two send functions know no limit.  So a
    client can make the server send a message that no client accepts. -/

namespace MultiplayChess

open LTS Loop Framing

/-! ## Receivable messages -/

section receivable

variable (server_message_pack : ServerMessage → List UInt8)
  (server_message_unpack : List UInt8 → Option ServerMessage)

/-- `server_message__unpack` understands what `server_message__pack` has
    made of the message. -/
def RoundTrips (msg : ServerMessage) : Prop :=
  server_message_unpack (server_message_pack msg) = some msg

/-- However the kernel hands over the packed message, the receive call of
    the client returns once the kernel has had enough turns, and it accepts
    the message and takes no more than its bytes. -/
def Receivable (msg : ServerMessage) : Prop :=
  let packed := server_message_pack msg
  ∀ turns behind, Open turns →
    (4 + packed.length ≤ transfers turns →
      (receive_server_message server_message_unpack turns
        (htonl packed.length ++ packed ++ behind)).returned ≠ none) ∧
    ∀ x, (receive_server_message server_message_unpack turns
        (htonl packed.length ++ packed ++ behind)).returned = some x →
      x = some msg ∧ (receive_server_message server_message_unpack turns
        (htonl packed.length ++ packed ++ behind)).stream = behind

variable {server_message_pack} {server_message_unpack}

/-- A message whose frame is taken off the stream was not too long. -/
theorem Receivable.length_le {msg : ServerMessage}
    (h : Receivable server_message_pack server_message_unpack msg) :
    (server_message_pack msg).length ≤ 1024 * 1024 := by
  unfold Receivable at h
  simp only at h
  generalize server_message_pack msg = packed at h ⊢
  by_contra hlong
  have hheader : ntohl ((htonl packed.length ++ packed ++ []).take 4) =
      packed.length % 2 ^ 32 := ntohl_htonl_mod _
  have hlen : (htonl packed.length ++ packed ++ []).length = 4 + packed.length := by
    rw [List.append_nil, List.length_append]
    rfl
  -- enough turns of one byte each make the call return
  have hopen := open_single_bytes (4 + packed.length)
  obtain ⟨hreturns, haccepts⟩ := h _ [] hopen
  obtain ⟨x, hx⟩ := Option.ne_none_iff_exists'.mp (hreturns (transfers_single_bytes _).ge)
  obtain ⟨_, hstream⟩ := haccepts x hx
  obtain ⟨_, hread, _, _⟩ := receive_message_read hopen hheader hx
  -- it has not taken the whole frame
  have hdrop := congrArg List.length (hread.symm.trans hstream)
  rw [List.length_drop, hlen] at hdrop
  unfold taken at hdrop
  split at hdrop
  · simp only [List.length_nil] at hdrop
    omega
  · rename_i hshort
    simp only [gt_iff_lt, decide_eq_true_eq] at hshort
    simp only [List.length_nil] at hdrop
    have hmod := Nat.mod_le packed.length (2 ^ 32)
    omega

/-- A message within the limit is accepted as it was packed. -/
theorem Receivable.of_length_le {msg : ServerMessage}
    (hround : RoundTrips server_message_pack server_message_unpack msg)
    (hpos : 0 < (server_message_pack msg).length)
    (hle : (server_message_pack msg).length ≤ 1024 * 1024) :
    Receivable server_message_pack server_message_unpack msg := by
  unfold Receivable
  unfold RoundTrips at hround
  simp only
  generalize server_message_pack msg = packed at hround hpos hle ⊢
  intro turns behind hopen
  have hmsg_len : ntohl ((htonl packed.length ++ packed ++ behind).take 4) = packed.length :=
    ntohl_htonl (by omega)
  have hlen : (htonl packed.length ++ packed ++ behind).length =
      4 + packed.length + behind.length := by
    rw [List.length_append, List.length_append]
    rfl
  constructor
  · intro hturns
    exact (receive_message_done hopen (by omega) (by omega)).1
  · intro x hx
    obtain ⟨hreceived, hstream, _, _⟩ := receive_message_read hopen hmsg_len hx
    have hshort : decide (packed.length > 1024 * 1024) = false := decide_eq_false (by omega)
    have hsome : (packed.length == 0) = false := beq_false_of_ne (by omega)
    have hbody : ((htonl packed.length ++ packed ++ behind).drop 4).take packed.length = packed :=
      List.take_left
    have hbehind : (htonl packed.length ++ packed ++ behind).drop (4 + packed.length) = behind := by
      rw [← List.drop_drop]
      exact List.drop_left
    unfold received at hreceived
    unfold taken at hstream
    simp only [hshort, hsome, Bool.or_self, Bool.false_eq_true, if_false] at hreceived hstream
    rw [hbody, hround] at hreceived
    rw [hbehind] at hstream
    exact ⟨hreceived, hstream⟩

/-- The limit of `receive_server_message` is what decides. -/
theorem receivable_iff {msg : ServerMessage}
    (hround : RoundTrips server_message_pack server_message_unpack msg)
    (hpos : 0 < (server_message_pack msg).length) :
    Receivable server_message_pack server_message_unpack msg ↔
      (server_message_pack msg).length ≤ 1024 * 1024 :=
  ⟨Receivable.length_le, Receivable.of_length_le hround hpos⟩

end receivable

/-! ## Runs -/

section runs

variable {server_message_pack : ServerMessage → List UInt8}
  {server_message_unpack : List UInt8 → Option ServerMessage}

/-- Every message of the step can be received. -/
def AllReceivable (server_message_pack : ServerMessage → List UInt8)
    (server_message_unpack : List UInt8 → Option ServerMessage) (l : Event × List Sent) : Prop :=
  Only (Receivable server_message_pack server_message_unpack) l.2

variable (hpack : ∀ msg, (server_message_pack msg).length = server_message_get_packed_size msg)

include hpack

theorem receivable_iff_acceptable {msg : ServerMessage}
    (hround : RoundTrips server_message_pack server_message_unpack msg) :
    Receivable server_message_pack server_message_unpack msg ↔ Acceptable msg := by
  have hpos : 0 < server_message_get_packed_size msg := by
    unfold server_message_get_packed_size len_size varint_size
    omega
  rw [← hpack] at hpos
  refine (receivable_iff hround hpos).trans ?_
  rw [hpack]

/-- **One step.** -/
theorem step_receivable_iff {mgr mgr' : MatchManager} {e : Event} {out : List Sent}
    (hround : Only (RoundTrips server_message_pack server_message_unpack) out)
    (hnames : NamesFit mgr) (hstep : server.step mgr (e, out) mgr') :
    AllReceivable server_message_pack server_message_unpack (e, out) ↔ TextFits mgr e := by
  rw [← step_acceptable_iff hnames hstep]
  exact ⟨fun h s hs => (receivable_iff_acceptable hpack (hround s hs)).mp (h s hs),
    fun h s hs => (receivable_iff_acceptable hpack (hround s hs)).mpr (h s hs)⟩

omit hpack

theorem Run.names_fit {ls : List (Event × List Sent)} {mgr : MatchManager}
    (h : Run server init_match_manager ls mgr) : NamesFit mgr := by
  apply h.invariant ?_ names_fit_init
  intro _ _ _ hnames _ hstep
  exact hnames.step (step_change hstep)

/-- **Messages that can be received.** In a run of the server every message
    it sends is accepted if and only if every text that it copies into a
    message of its own fits into the limit of the clients. -/
theorem all_receivable_iff
    (hpack : ∀ msg, (server_message_pack msg).length = server_message_get_packed_size msg)
    {ls : List (Event × List Sent)} {mgr : MatchManager}
    (hround : ∀ l ∈ ls, Only (RoundTrips server_message_pack server_message_unpack) l.2) :
    RunWhere server (fun _ => AllReceivable server_message_pack server_message_unpack)
        init_match_manager ls mgr ↔
      RunWhere server (fun mgr l => TextFits mgr l.1) init_match_manager ls mgr := by
  apply RunWhere.where_iff_of_labels hround names_fit_init
  · intro _ _ _ hnames hst
    exact hnames.step (step_change hst)
  · intro _ _ _ hnames hsent hst
    exact step_receivable_iff hpack hsent hnames hst

end runs

/-- A packing with the right sizes, and with the bytes of protobuf for the
    echo of `hi`. -/
def pack_hi (msg : ServerMessage) : List UInt8 :=
  if msg = .echo_res "hi".toList then [90, 4, 10, 2, 104, 105]
  else List.replicate (server_message_get_packed_size msg) 0

/-- Unpacking for one message. -/
def unpack_one (msg : ServerMessage) (buf : List UInt8) : Option ServerMessage :=
  if buf = pack_hi msg then some msg else none

theorem length_pack_hi (msg : ServerMessage) :
    (pack_hi msg).length = server_message_get_packed_size msg := by
  unfold pack_hi
  split
  · rename_i hmsg
    subst hmsg
    decide
  · exact List.length_replicate ..

theorem round_trips_one (msg : ServerMessage) : RoundTrips pack_hi (unpack_one msg) msg :=
  if_pos rfl

theorem all_receivable_hi :
    RunWhere server (fun _ => AllReceivable pack_hi (unpack_one (.echo_res "hi".toList)))
      init_match_manager
      [(.message 5 (.echo "hi".toList) (.calm 0), [⟨5, .echo_res "hi".toList, true⟩])]
      init_match_manager := by
  refine (all_receivable_iff length_pack_hi ?_).mpr (RunWhere.cons ?_ rfl .nil)
  · intro l hl s hs
    obtain rfl := List.mem_singleton.mp hl
    obtain rfl := List.mem_singleton.mp hs
    exact round_trips_one _
  · exact (by decide : 2 + 8 ≤ 1024 * 1024)

theorem game_of_two_requests :
    (exec server_run init_match_manager two_requests).map
      (fun r => find_game_by_player_fd r.2 5) = some (some 0) := by
  decide +kernel

theorem handle_chat_calm {mgr : MatchManager} {t : Int} {fd : Int} {text : CString}
    {i : Fin max_active_games} (hfind : find_game_by_player_fd mgr fd = some i) :
    ∃ msg white black, handle_chat_message mgr (.calm t) fd text =
      ⟨mgr, [⟨white, msg, true⟩, ⟨black, msg, true⟩], true⟩ := by
  unfold handle_chat_message
  rw [hfind]
  exact ⟨_, _, _, rfl⟩

/-- A chat message is the same for both players. -/
theorem chat_sent {mgr mgr' : MatchManager} {out : List Sent} {fd : Int} {text : CString}
    {i : Fin max_active_games} (hfind : find_game_by_player_fd mgr fd = some i)
    (hstep : server.step mgr (.message fd (.chat text) (.calm 0), out) mgr') :
    ∃ msg, ∀ s ∈ out, s.msg = msg := by
  obtain ⟨o, ho, _, hout⟩ := message_step_ok hstep
  obtain ⟨msg, white, black, hchat⟩ := @handle_chat_calm mgr 0 fd text i hfind
  have ho : o = handle_chat_message mgr (.calm 0) fd text := (Except.ok.inj ho).symm
  rw [ho, hchat] at hout
  subst hout
  refine ⟨msg, ?_⟩
  show ∀ s ∈ [(⟨white, msg, true⟩ : Sent), ⟨black, msg, true⟩], s.msg = msg
  rw [List.forall_mem_cons, List.forall_mem_singleton]
  exact ⟨rfl, rfl⟩

/-- A chat message of 1 MiB. -/
def long_chat : Event :=
  .message 5 (.chat (List.replicate (1024 * 1024) 'a')) (.calm 0)

theorem all_receivable_broken :
    ¬ ∀ (server_message_pack : ServerMessage → List UInt8)
      (server_message_unpack : List UInt8 → Option ServerMessage),
      (∀ msg, (server_message_pack msg).length = server_message_get_packed_size msg) →
      ∀ (ls : List (Event × List Sent)) (mgr mgr' : MatchManager) (e : Event) (out : List Sent),
        Run server init_match_manager ls mgr → server.step mgr (e, out) mgr' →
        Only (RoundTrips server_message_pack server_message_unpack) out →
        AllReceivable server_message_pack server_message_unpack (e, out) := by
  intro hall
  obtain ⟨⟨ls, mgr⟩, hrun, hfind⟩ := Option.map_eq_some_iff.mp game_of_two_requests
  have hreach : Run server init_match_manager ls mgr := exec_run hrun
  have hstep : server.step mgr (long_chat, _) _ := rfl
  obtain ⟨msg, hsent⟩ := chat_sent hfind hstep
  have hround : Only (RoundTrips pack_hi (unpack_one msg)) _ := fun s hs =>
    (hsent s hs).symm ▸ round_trips_one msg
  have hfits := (step_receivable_iff length_pack_hi hround (Run.names_fit hreach) hstep).mp
    (hall pack_hi (unpack_one msg) length_pack_hi ls mgr _ _ _ hreach hstep hround)
  have hlen : (List.replicate (1024 * 1024) 'a').length + _ ≤ 1024 * 1024 := hfits 0 hfind
  rw [List.length_replicate] at hlen
  omega

end MultiplayChess
