import Mathlib.Data.List.Basic
import Mathlib.Data.List.Range

/-! # Painted windows

    A program paints a window by printing texts at places of it, one after
    the other.  What is seen at a place is the last character that was
    printed there.  So a part of the window shows what has been printed
    into it, whatever else has been painted around it before or after. -/

namespace Painting

universe u v

variable {α : Type u} {β : Type v}

/-- A text that is printed at a place, with its attributes. -/
structure Print (α : Type u) where
  y : Int
  x : Int
  text : List Char
  attr : α

/-- What the text puts at a place. -/
def Print.puts (p : Print α) (y x : Int) : Option (Char × α) :=
  if y = p.y ∧ p.x ≤ x then (p.text[(x - p.x).toNat]?).map fun c => (c, p.attr) else none

/-- What is seen at a place after the prints. -/
def seen : List (Print α) → Int → Int → Option (Char × α)
  | [], _, _ => none
  | p :: ps, y, x => (seen ps y x).or (p.puts y x)

/-- The text that is seen at a place and to the right of it. -/
def text_at (ps : List (Print α)) (y x : Int) (n : Nat) : List (Option Char) :=
  (List.range n).map fun i : Nat => (seen ps y (x + i)).map Prod.fst

/-! ## One print -/

section one

variable {p : Print α} {y x : Int}

/-- The characters of the text, from its place on. -/
theorem puts_at {i : Nat} (hy : y = p.y) (hx : x = p.x + i) :
    p.puts y x = (p.text[i]?).map fun c => (c, p.attr) := by
  have hi : (x - p.x).toNat = i := by omega
  unfold Print.puts
  rw [if_pos ⟨hy, by omega⟩, hi]

/-- Nothing is put beside the text. -/
theorem puts_beside (h : y ≠ p.y ∨ x < p.x ∨ p.x + p.text.length ≤ x) : p.puts y x = none := by
  unfold Print.puts
  split
  · rw [List.getElem?_eq_none (by omega)]
    rfl
  · rfl

@[simp] theorem seen_nil (y x : Int) : seen ([] : List (Print α)) y x = none := rfl

@[simp] theorem seen_singleton (p : Print α) (y x : Int) : seen [p] y x = p.puts y x := rfl

end one

/-! ## Many prints -/

section many

variable {ps qs : List (Print α)} {y x : Int}

/-- What is printed later is seen. -/
@[simp] theorem seen_append (ps qs : List (Print α)) (y x : Int) :
    seen (ps ++ qs) y x = (seen qs y x).or (seen ps y x) := by
  induction ps with
  | nil => exact (Option.or_none).symm
  | cons p ps ih =>
    show (seen (ps ++ qs) y x).or (p.puts y x) = (seen qs y x).or ((seen ps y x).or (p.puts y x))
    rw [ih, Option.or_assoc]

theorem seen_eq_none (h : ∀ p ∈ ps, p.puts y x = none) : seen ps y x = none := by
  induction ps with
  | nil => rfl
  | cons p ps ih =>
    show (seen ps y x).or (p.puts y x) = none
    rw [ih fun q hq => h q (.tail _ hq), h p (.head _)]
    rfl

theorem seen_flatMap_none {l : List β} {f : β → List (Print α)}
    (h : ∀ b ∈ l, seen (f b) y x = none) : seen (l.flatMap f) y x = none := by
  induction l with
  | nil => rfl
  | cons b l ih =>
    rw [List.flatMap_cons, seen_append, ih fun c hc => h c (.tail _ hc), h b (.head _)]
    rfl

/-- Where only one part of a painting prints, that part is seen. -/
theorem seen_flatMap {l : List β} {f : β → List (Print α)} {a : β} (ha : a ∈ l)
    (hothers : ∀ b ∈ l, b ≠ a → seen (f b) y x = none) :
    seen (l.flatMap f) y x = seen (f a) y x := by
  induction l with
  | nil => cases ha
  | cons b l ih =>
    rw [List.flatMap_cons, seen_append]
    have hrest : ∀ c ∈ l, c ≠ a → seen (f c) y x = none := fun c hc => hothers c (.tail _ hc)
    by_cases hmem : a ∈ l
    · rw [ih hmem hrest]
      by_cases hba : b = a
      · rw [hba, Option.or_self]
      · rw [hothers b (.head _) hba, Option.or_none]
    · -- the part is painted here and not again
      have hba : a = b := (List.mem_cons.mp ha).resolve_right hmem
      rw [hba, seen_flatMap_none fun c hc => hrest c hc fun hca => hmem (hca ▸ hc)]
      rfl

end many

/-! ## Parts of a window -/

/-- A rectangle: the rows from `top` to `bottom` and the columns from `left`
    to `right`, without `bottom` and `right`. -/
structure Rect where
  top : Int
  left : Int
  bottom : Int
  right : Int

def Rect.Contains (r : Rect) (y x : Int) : Prop :=
  r.top ≤ y ∧ y < r.bottom ∧ r.left ≤ x ∧ x < r.right

/-- Nothing is printed outside the rectangle. -/
def Within (r : Rect) (ps : List (Print α)) : Prop :=
  ∀ p ∈ ps, r.top ≤ p.y ∧ p.y < r.bottom ∧ r.left ≤ p.x ∧ p.x + p.text.length ≤ r.right

section within

variable {r r' : Rect} {ps qs : List (Print α)} {y x : Int}

theorem Within.nil : Within r ([] : List (Print α)) := by
  intro p hp
  cases hp

theorem Within.append (h : Within r ps) (h' : Within r qs) : Within r (ps ++ qs) := by
  intro p hp
  rcases List.mem_append.mp hp with hp | hp
  · exact h p hp
  · exact h' p hp

theorem Within.flatMap {l : List β} {f : β → List (Print α)} (h : ∀ b ∈ l, Within r (f b)) :
    Within r (l.flatMap f) := by
  intro p hp
  obtain ⟨b, hb, hp⟩ := List.mem_flatMap.mp hp
  exact h b hb p hp

theorem Within.mono (h : Within r ps) (htop : r'.top ≤ r.top) (hleft : r'.left ≤ r.left)
    (hbottom : r.bottom ≤ r'.bottom) (hright : r.right ≤ r'.right) : Within r' ps := by
  intro p hp
  have := h p hp
  omega

/-- What is painted inside is not seen outside. -/
theorem Within.seen_outside (h : Within r ps) (hout : ¬ r.Contains y x) : seen ps y x = none := by
  apply seen_eq_none
  intro p hp
  apply puts_beside
  have hin := h p hp
  unfold Rect.Contains at hout
  omega

end within

/-! ## Reading -/

/-- A text that nothing covers can be read. -/
theorem text_at_eq {ps : List (Print α)} {y x : Int} {text : List Char} {attr : α}
    (h : ∀ i : Nat, i < text.length →
      seen ps y (x + i) = (text[i]?).map fun c => (c, attr)) :
    text_at ps y x text.length = text.map some := by
  apply List.ext_getElem
  · simp [text_at]
  · intro i hi hi'
    have hlen : i < text.length := by simpa using hi'
    simp [text_at, h i hlen, List.getElem?_eq_getElem hlen]

end Painting
