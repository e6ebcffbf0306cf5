/-!
# Identifiers

A uuid is a number of 128 bits. New ones come from a supply, which is an explicit value: a seed and
how many were taken from it.
-/

set_option autoImplicit false

namespace Collocation

/-- How many numbers of 128 bits there are. -/
abbrev Uuid.count : Nat := Nat.pow 2 128

/-- An identifier of 128 bits. -/
structure Uuid where
  number : Fin Uuid.count
deriving DecidableEq

namespace Uuid

/-- The uuid of the lowest 128 bits of a number. -/
def ofNat (n : Nat) : Uuid := ⟨n % count, Nat.mod_lt n (by decide)⟩

/-- The uuid whose bits are all zero. -/
def nil : Uuid := ofNat 0

/-- Uuids are ordered as numbers, which is the order of their texts as well. -/
def le (a b : Uuid) : Bool := a.number ≤ b.number

/-- A uuid of version 4 that carries the lowest 122 bits of a number: forty-eight, the version,
twelve, the variant, and sixty-two. -/
def version4 (n : Nat) : Uuid :=
  let low := n % Nat.pow 2 62
  let middle := n / Nat.pow 2 62 % Nat.pow 2 12
  let high := n / Nat.pow 2 74
  ofNat (((high * 16 + 4) * Nat.pow 2 12 + middle) * Nat.pow 2 64 + Nat.pow 2 63 + low)

end Uuid

/-- A supply of fresh uuids: what the uuid of each number is, and the next number. -/
structure Supply where
  mint : Nat → Uuid
  next : Nat := 0

namespace Supply

/-- The first uuid that was not taken yet, and the supply without it. -/
def take (supply : Supply) : Uuid × Supply :=
  (supply.mint supply.next, { supply with next := supply.next + 1 })

/-- The supply without its first `count` uuids. -/
def skip (supply : Supply) (count : Nat) : Supply :=
  { supply with next := supply.next + count }

/-- The supply of version 4 uuids that counts up from a seed; no two of its first `2 ^ 122` are the
same. -/
def seeded (seed : Nat) : Supply :=
  { mint := fun n => Uuid.version4 (seed + n) }

end Supply

end Collocation
