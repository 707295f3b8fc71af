import IngressControl.Instant.Basic
/-!
Time stamps in universal time, `YYYY-MM-DDTHH:MM:SS` with an optional fraction and a `Z`.

Years outside 0 to 9999 carry their sign. The leap second is written as second sixty.
-/

namespace IngressControl

def padded (width value : Nat) : String :=
  let digits := toString value
  String.ofList (List.replicate (width - digits.length) '0') ++ digits

namespace Instant

def yearText (year : Int) : String :=
  if 0 ≤ year ∧ year ≤ 9999 then padded 4 year.toNat
  else (if year < 0 then "-" else "+") ++ padded 4 year.natAbs

def leading (moment : Instant) : String :=
  let date := Date.ofNumber (moment.second / 86400)
  let ofDay := moment.secondOfDay.toNat
  let second := ofDay % 60 + if moment.isLeap then 1 else 0
  yearText date.year ++ "-" ++ padded 2 date.month ++ "-" ++ padded 2 date.day ++ "T"
    ++ padded 2 (ofDay / 3600) ++ ":" ++ padded 2 (ofDay / 60 % 60) ++ ":" ++ padded 2 second

/-- The fraction with none, three, six or nine digits, the fewest that lose nothing. -/
def fractionText (nano : Nat) : String :=
  if nano = 0 then ""
  else if nano % 1000000 = 0 then "." ++ padded 3 (nano / 1000000)
  else if nano % 1000 = 0 then "." ++ padded 6 (nano / 1000)
  else "." ++ padded 9 nano

def text (moment : Instant) : String :=
  moment.leading ++ fractionText (moment.nano % 1000000000) ++ "Z"

def secondText (moment : Instant) : String := moment.leading ++ "Z"

end Instant

end IngressControl
