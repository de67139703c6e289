/-!
# ContractMeter.Script.Pattern.Width

How long a match of a part of a regular expression can be:

* `Width` — the least and the greatest length.
* `Width.add`, `Width.either`, `Width.times` — parts in a row, alternatives, repetition.
* `Width.isFixed` — whether a part can be looked for behind a place.

Lengths are counted up to `Width.limit`, which stands for any greater one.
-/

namespace ContractMeter.Script.Pattern

/-- The least and the greatest length of a match. -/
structure Width where
  least : Nat
  greatest : Nat
deriving DecidableEq

namespace Width

def limit : Nat := Nat.pow 2 64

def exactly (n : Nat) : Width := ⟨n, n⟩

/-- One part behind another. -/
def add (v w : Width) : Width :=
  ⟨min limit (v.least + w.least), min limit (v.greatest + w.greatest)⟩

/-- One part or another. -/
def either (v w : Width) : Width :=
  ⟨min v.least w.least, max v.greatest w.greatest⟩

/-- A part that is repeated, perhaps without a bound. -/
def times (w : Width) (low : Nat) (high : Option Nat) : Width where
  least := min limit (w.least * low)
  greatest :=
    match high with
    | some n => min limit (w.greatest * n)
    | none => if w.greatest = 0 then 0 else limit

/-- The greatest length that a match behind a place can have. -/
def lookBehindLimit : Nat := Nat.pow 2 32 - 1

/-- Whether all matches have one length, short enough to be looked for behind a place. -/
def isFixed (w : Width) : Bool :=
  w.least = w.greatest && w.least ≤ lookBehindLimit

end Width

end ContractMeter.Script.Pattern
