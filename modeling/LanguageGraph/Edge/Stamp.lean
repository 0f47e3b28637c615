/-
# Edge.Stamp — the identity of one edge

A store numbers the edges it adds. The number tells apart edges that share their source, type and
destination, and the same history always gives the same numbers.
-/
import LanguageGraph.Text.Digits

namespace LanguageGraph

set_option autoImplicit false

/-- The number of one edge, counted in the order of addition. -/
structure EdgeStamp where
  number : Nat
deriving DecidableEq

namespace EdgeStamp

instance : LE EdgeStamp where
  le first second := first.number ≤ second.number

instance (first second : EdgeStamp) : Decidable (first ≤ second) :=
  inferInstanceAs (Decidable (first.number ≤ second.number))

/-- A number sign and the number. -/
def display (stamp : EdgeStamp) : String :=
  "#" ++ Text.decimal stamp.number

/-- The stamps from `first` up to, and without, `next`. -/
def between (first next : Nat) : List EdgeStamp :=
  (List.range' first (next - first)).map EdgeStamp.mk

end EdgeStamp

end LanguageGraph
