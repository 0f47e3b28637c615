/-
# Time.Timestamp — instants in universal time

A timestamp is a date and a time of day, to the nanosecond, in UTC. The sixtieth second of any minute
may be followed by one more, a leap second; it is kept as written.
-/
import LanguageGraph.Time.Date

namespace LanguageGraph

set_option autoImplicit false

/-- An instant, as the calendar and clock of UTC show it. -/
structure Timestamp where
  date : Date
  hour : Nat
  minute : Nat
  second : Nat
  nanosecond : Nat
  bounds : hour < 24 ∧ minute < 60 ∧ second ≤ 60 ∧ nanosecond < 1000000000
deriving DecidableEq

namespace Timestamp

/-- The instant with a date and a time of day, when the clock can show that time. -/
def of? (date : Date) (hour minute second nanosecond : Nat) : Option Timestamp :=
  if bounds : hour < 24 ∧ minute < 60 ∧ second ≤ 60 ∧ nanosecond < 1000000000 then
    some ⟨date, hour, minute, second, nanosecond, bounds⟩
  else none

theorem of?_self (time : Timestamp) :
    of? time.date time.hour time.minute time.second time.nanosecond = some time := by
  simp [of?, time.bounds]

/-- The beginning of 1970. -/
def epoch : Timestamp :=
  ⟨⟨1970, 1, 1, by decide, by decide⟩, 0, 0, 0, 0, by decide⟩

/-- The instant at which a clock `offset` minutes ahead of UTC shows what `shown` shows. A zone's
offset is less than a day, so the date moves by at most one day. -/
def atOffset? (shown : Timestamp) (offset : Int) : Option Timestamp :=
  let minutes : Int := shown.hour * 60 + shown.minute - offset
  let date? : Option Date :=
    if minutes < 0 then shown.date.previous?
    else if 1440 ≤ minutes then shown.date.next?
    else some shown.date
  let ofDay := (minutes % 1440).toNat
  date?.bind fun date => of? date (ofDay / 60) (ofDay % 60) shown.second shown.nanosecond

/-- A clock at UTC shows the instant itself. -/
theorem atOffset?_zero (time : Timestamp) : time.atOffset? 0 = some time := by
  obtain ⟨date, hour, minute, second, nanosecond, bounds⟩ := time
  have minutes : ((hour : Int) * 60 + minute - 0) % 1440 = ((hour * 60 + minute : Nat) : Int) := by
    omega
  have notBefore : ¬ ((hour : Int) * 60 + minute - 0 < 0) := by omega
  have notAfter : ¬ (1440 ≤ (hour : Int) * 60 + minute - 0) := by omega
  have hours : (hour * 60 + minute) / 60 = hour := by omega
  have rest : (hour * 60 + minute) % 60 = minute := by omega
  simp only [atOffset?, minutes, notBefore, notAfter, if_false, Int.toNat_natCast, hours, rest,
    Option.bind_some]
  exact of?_self ⟨date, hour, minute, second, nanosecond, bounds⟩

end Timestamp

end LanguageGraph
