import Mathlib.Data.List.Basic
import Mathlib.Data.List.Infix

/-! # Length-prefixed frames

    A message on a stream of symbols is preceded by a header of fixed size
    that carries its length.  A reader that takes the header, and then as
    many symbols as the header says, takes the frames apart again, however
    much of the stream has arrived. -/

namespace Framing

universe u

variable {β : Type u}

/-- Headers of `size` symbols for the lengths below `bound`. -/
structure Header (β : Type u) where
  size : Nat
  bound : Nat
  encode : Nat → List β
  decode : List β → Nat
  length_encode : ∀ n, (encode n).length = size
  decode_encode : ∀ n, n < bound → decode (encode n) = n

namespace Header

variable (h : Header β)

def frame (body : List β) : List β :=
  h.encode body.length ++ body

def frames (bodies : List (List β)) : List β :=
  bodies.flatMap h.frame

@[simp] theorem frames_cons (body : List β) (bodies : List (List β)) :
    h.frames (body :: bodies) = h.frame body ++ h.frames bodies :=
  List.flatMap_cons

@[simp] theorem length_frame (body : List β) : (h.frame body).length = h.size + body.length := by
  unfold frame
  rw [List.length_append, h.length_encode]

variable {h} {body : List β} {bodies : List (List β)} {arrived : List β}

/-- The header of the first frame, once it has arrived. -/
theorem take_header (hpre : arrived <+: h.frames (body :: bodies))
    (hlen : h.size ≤ arrived.length) : arrived.take h.size = h.encode body.length := by
  obtain ⟨rest, hrest⟩ := hpre
  rw [← @List.take_append_of_le_length _ _ rest _ hlen, hrest, frames_cons, frame,
    List.append_assoc, ← h.length_encode body.length, List.take_left]

/-- The length of the first body, as a reader of the header finds it. -/
theorem decode_header (hpre : arrived <+: h.frames (body :: bodies))
    (hlen : h.size ≤ arrived.length) (hfits : body.length < h.bound) :
    h.decode (arrived.take h.size) = body.length := by
  rw [take_header hpre hlen]
  exact h.decode_encode body.length hfits

/-- The body of the first frame, once it has arrived, and what is behind
    it. -/
theorem take_body (hpre : arrived <+: h.frames (body :: bodies))
    (hlen : h.size + body.length ≤ arrived.length) :
    (arrived.drop h.size).take body.length = body ∧
      (arrived.drop h.size).drop body.length <+: h.frames bodies := by
  obtain ⟨rest, hrest⟩ := hpre
  have hdrop : arrived.drop h.size ++ rest = body ++ h.frames bodies := by
    rw [← List.drop_append_of_le_length (by omega), hrest, frames_cons, frame,
      List.append_assoc, ← h.length_encode body.length, List.drop_left]
  have hleft : body.length ≤ (arrived.drop h.size).length := by
    rw [List.length_drop]
    omega
  refine ⟨?_, rest, ?_⟩
  · rw [← @List.take_append_of_le_length _ _ rest _ hleft, hdrop, List.take_left]
  · rw [← List.drop_append_of_le_length hleft, hdrop, List.drop_left]

end Header

end Framing
