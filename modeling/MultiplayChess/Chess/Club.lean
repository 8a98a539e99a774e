import MultiplayChess.Chess.Soundness
import MultiplayChess.Framework.System
import Mathlib.Logic.Function.Basic

/-! # A chess club

    What the server is for, stated without reference to the code.  Guests
    come to a club with a number of tables.  A guest who finds nobody
    waiting waits; the next one is seated with the one who waits, at a free
    table.  At a table chess is played, without castling, until the rules,
    a resignation, a flag fall or the departure of a player end the game.

    The label of a step is what guests notice of it, in order. -/

namespace MultiplayChess.Chess

open LTS

universe u v w

/-! ## Guests and tables -/

/-- A guest is reached at an address and has a name. -/
structure Guest (A : Type u) (N : Type v) where
  address : A
  name : N

/-- A table with a game on it; `quiet` counts the plies since the last pawn
    move or capture. -/
structure Table (A : Type u) (N : Type v) where
  seat : Team → Guest A N
  position : Position
  quiet : Nat

/-- How the rules end a game. -/
inductive Ending where
  | checkmate (winner : Team)
  | stalemate
  | fifty_moves
  deriving DecidableEq, Repr

/-- How the players end a game. -/
inductive Cause where
  | resigned
  | flagged
  | left
  deriving DecidableEq, Repr

/-- What a guest notices: what it is told, and that its own connection is
    gone. -/
inductive Notice (N : Type v) where
  | started (team : Team) (opponent : N)
  | moved (m : Move) (check : Bool) (ending : Option Ending)
  | over (cause : Cause) (winner : Team)
  | said (speaker : N) (text : List Char)
  | gone

/-- The rules decide that a position with so many quiet plies ends the game,
    or does not. -/
def Decides (p : Position) (quiet : Nat) : Option Ending → Prop
  | some (.checkmate winner) =>
    winner = p.turn.other ∧ InCheck p.board p.turn ∧ ¬ ∃ m, Legal p m
  | some .stalemate => ¬ InCheck p.board p.turn ∧ ¬ ∃ m, Legal p m
  | some .fifty_moves => (∃ m, Legal p m) ∧ 100 ≤ quiet
  | none => (∃ m, Legal p m) ∧ quiet < 100

/-- The quiet plies after the man `c` made the move `m`. -/
def quiet_after (p : Position) (c : Man) (m : Move) (quiet : Nat) : Nat :=
  if c.kind = .pawn ∨ (p.board m.dx m.dy).isSome = true then 0 else quiet + 1

section tables

variable {A : Type u} {N : Type v}

/-- A new game: `g` has the pieces of `team` and `w` the others. -/
def Table.fresh (g w : Guest A N) (team : Team) : Table A N where
  seat t := if t = team then g else w
  position := start
  quiet := 0

/-- The table after the man `c` made the move `m`. -/
def Table.play (t : Table A N) (c : Man) (m : Move) : Table A N :=
  { t with position := t.position.play c m, quiet := quiet_after t.position c m t.quiet }

/-- The man `c` may make the move `m`, and this is what is said of it: check
    or not, and how it ends the game. -/
structure Plays (p : Position) (quiet : Nat) (c : Man) (m : Move) (check : Bool)
    (ending : Option Ending) : Prop where
  moves : PseudoLegal p c m
  safe : ¬ InCheck (after p.board c m) p.turn
  check : check = true ↔ InCheck (p.play c m).board (p.play c m).turn
  ending : Decides (p.play c m) (quiet_after p c m quiet) ending

end tables

/-! ## The club -/

/-- The one who waits and the tables in use. -/
@[ext]
structure Club (A : Type u) (N : Type v) (ι : Type w) where
  waiting : Option (Guest A N)
  tables : ι → Option (Table A N)

section club

variable {A : Type u} {N : Type v} {ι : Type w} [DecidableEq ι]

/-- Nobody is there. -/
def Club.empty : Club A N ι :=
  { waiting := none, tables := fun _ => none }

/-- What is on the table `i`. -/
def Club.set (c : Club A N ι) (i : ι) (t : Option (Table A N)) : Club A N ι :=
  { c with tables := Function.update c.tables i t }

/-- No guest in the club has this address. -/
structure Club.Absent (c : Club A N ι) (a : A) : Prop where
  waiting : ∀ g, c.waiting = some g → g.address ≠ a
  seated : ∀ i t team, c.tables i = some t → (t.seat team).address ≠ a

/-- What the two players of a table notice, the one of `team` first. -/
def Table.tell (t : Table A N) (team : Team) (n : Notice N) : List (A × Notice N) :=
  [((t.seat team).address, n), ((t.seat team.other).address, n)]

/-- The steps of the club. -/
inductive Club.Step (c : Club A N ι) : List (A × Notice N) → Club A N ι → Prop where
  | arrive {g : Guest A N} : c.waiting = none → c.Absent g.address →
      Club.Step c [] { c with waiting := some g }
  | withdraw {g : Guest A N} : c.waiting = some g → Club.Step c [] { c with waiting := none }
  | pair {g w : Guest A N} {i : ι} (team : Team) : c.waiting = some w → c.tables i = none →
      c.Absent g.address →
      Club.Step c [(g.address, .started team w.name), (w.address, .started team.other g.name)]
        { c.set i (some (.fresh g w team)) with waiting := none }
  | move {i : ι} {t : Table A N} {man : Man} {m : Move} {check : Bool} {ending : Option Ending} :
      c.tables i = some t → Plays t.position t.quiet man m check ending →
      Club.Step c (t.tell t.position.turn.other (.moved m check ending))
        (c.set i (if ending = none then some (t.play man m) else none))
  | say {i : ι} {t : Table A N} (team : Team) (text : List Char) : c.tables i = some t →
      Club.Step c (t.tell .white (.said (t.seat team).name text)) c
  | resign {i : ι} {t : Table A N} (team : Team) : c.tables i = some t →
      Club.Step c (t.tell team (.over .resigned team.other)) (c.set i none)
  | flag {i : ι} {t : Table A N} : c.tables i = some t →
      Club.Step c (t.tell .white (.over .flagged t.position.turn.other)) (c.set i none)
  | depart_waiting {g : Guest A N} : c.waiting = some g →
      Club.Step c [(g.address, .gone)] { c with waiting := none }
  | depart_playing {i : ι} {t : Table A N} (team : Team) : c.tables i = some t →
      Club.Step c [((t.seat team).address, .gone),
        ((t.seat team.other).address, .over .left team.other)] (c.set i none)
  | depart_outside {a : A} : c.Absent a → Club.Step c [(a, .gone)] c

/-- The club, from the empty one. -/
def club : System (Club A N ι) (List (A × Notice N)) where
  init c := c = .empty
  step c l c' := c.Step l c'

end club

end MultiplayChess.Chess
