/-!
# Hexadecimal digits

## Main definitions

* `Text.hexDigits` — a number in a fixed count of hexadecimal digits
* `Text.hexValue?` — the value of a hexadecimal digit
* `Text.ofHexDigits?` — the value of a run of digits
-/

namespace DocLineage.Text

/-- Lower-case hexadecimal digits of `n`, most significant first, exactly `width` of them. -/
def hexDigits : (width : Nat) → (n : Nat) → List Char
  | 0, _ => []
  | width + 1, n => hexDigits width (n / 16) ++ [Nat.digitChar (n % 16)]

@[simp] theorem length_hexDigits (width n : Nat) : (hexDigits width n).length = width := by
  induction width generalizing n with
  | zero => rfl
  | succ width ih => simp [hexDigits, ih]

/-- The value of a hexadecimal digit of either case. -/
def hexValue? (c : Char) : Option Nat :=
  let n := c.toNat
  if 0x30 ≤ n && n ≤ 0x39 then some (n - 0x30)
  else if 0x41 ≤ n && n ≤ 0x46 then some (n - 0x37)
  else if 0x61 ≤ n && n ≤ 0x66 then some (n - 0x57)
  else none

/-- The value of a run of hexadecimal digits, most significant first. -/
def ofHexDigits? (cs : List Char) : Option Nat :=
  cs.foldl (fun acc c => do return (← acc) * 16 + (← hexValue? c)) (some 0)

end DocLineage.Text
