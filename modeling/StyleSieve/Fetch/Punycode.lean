/-!
# Labels in ASCII

A label of a host name may hold any letters.  In ASCII it is written as its ASCII
characters, and after a dash as digits that tell, for each other character in
the order of code points, how far on it stands from the one before.
-/

namespace StyleSieve.Fetch.Punycode

/-- The digit with a value below 36. -/
def digit (value : Nat) : Char :=
  if value < 26 then Char.ofNat (0x61 + value) else Char.ofNat (0x30 + value - 26)

/-- The value from which on the digit at a place has a digit after it. -/
def threshold (place bias : Nat) : Nat :=
  if place ≤ bias then 1 else if bias + 26 ≤ place then 26 else place - bias

theorem threshold_pos (place bias : Nat) : 1 ≤ threshold place bias := by
  unfold threshold
  split
  · omega
  · split <;> omega

/-- The digits of a number, from a place on. -/
def digits (bias place value : Nat) : List Char :=
  let least := threshold place bias
  if value < least then [digit value]
  else
    digit (least + (value - least) % (36 - least)) ::
      digits bias (place + 36) ((value - least) / (36 - least))
termination_by value
decreasing_by
  have positive := threshold_pos place bias
  calc (value - threshold place bias) / (36 - threshold place bias)
      ≤ value - threshold place bias := Nat.div_le_self _ _
    _ < value := by omega

/-- A distance scaled down, with the places that this takes. -/
def scaled (distance place : Nat) : Nat × Nat :=
  if 455 < distance then scaled (distance / 35) (place + 36) else (distance, place)
termination_by distance
decreasing_by exact Nat.div_lt_self (by omega) (by omega)

/-- The bias for the next number, after a distance that led to the character
with a given count; the first distance counts less. -/
def nextBias (distance count : Nat) (first : Bool) : Nat :=
  let damped := if first then distance / 700 else distance / 2
  let result := scaled (damped + damped / count) 0
  result.2 + 36 * result.1 / (result.1 + 38)

/-- A label being written: the digits so far, the distance run since the last
one, the bias, and the number of characters that are written. -/
structure Writing where
  written : List Char := []
  distance : Nat := 0
  bias : Nat := 72
  count : Nat

/-- The state after passing a character in search of those with a given code. -/
def pass (plain code : Nat) (state : Writing) (c : Char) : Writing :=
  if c.toNat < code then { state with distance := state.distance + 1 }
  else if c.toNat = code then
    { written := state.written ++ digits state.bias 36 state.distance
      distance := 0
      bias := nextBias state.distance (state.count + 1) (state.count = plain)
      count := state.count + 1 }
  else state

/-- The state after searching a label for the characters with some codes, in
order, where `next` is the first code that is not searched yet. -/
def search (label : List Char) (plain : Nat) : List Nat → Nat → Writing → Writing
  | [], _, state => state
  | code :: codes, next, state =>
      let moved := { state with distance := state.distance + (code - next) * (state.count + 1) }
      let passed := label.foldl (pass plain code) moved
      search label plain codes (code + 1) { passed with distance := passed.distance + 1 }

/-- The form of a label in ASCII, without the mark that it is such a form. -/
def encode (label : List Char) : List Char :=
  let plain := label.filter (·.toNat < 0x80)
  let codes := ((label.filter (0x80 ≤ ·.toNat)).map Char.toNat).eraseDups.mergeSort (· ≤ ·)
  plain ++ (if plain = [] then [] else ['-']) ++
    (search label plain.length codes 0x80 { count := plain.length }).written

end StyleSieve.Fetch.Punycode
