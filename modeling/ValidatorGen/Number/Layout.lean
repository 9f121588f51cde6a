import ValidatorGen.Number.Shortest

/-!
# Layout of decimal digits

How the digits of a decimal number are set out as text: positionally, with zeros put in where the
point lies outside the digits, or with an exponent after the first digit. Which of the two is used
for which numbers belongs to the formats that write them: literals in source code and numbers in
documents have limits of their own, and only one of them writes plus signs in exponents.

The digits themselves are taken as they are. No digit is rounded here, and no zero at the end is
taken away, so the text stands for the number it was made from.
-/

namespace ValidatorGen.Number

namespace Scientific

/-- Digits with a decimal point among them, and no point when no digit follows it. -/
def positional (d : Scientific) : List Char :=
  let digits := d.digits
  if 0 ≤ d.exponent then digits ++ List.replicate d.exponent.toNat '0'
  else
    -- some digits stand behind the point, and perhaps all of them after further zeros
    let places := (-d.exponent).toNat
    if places < digits.length then
      digits.take (digits.length - places) ++ '.' :: digits.drop (digits.length - places)
    else '0' :: '.' :: (List.replicate (places - digits.length) '0' ++ digits)

/-- One digit before the point, the others after it, and the exponent of ten; a positive exponent
is written with a plus sign if `plus` says so. -/
def withExponent (d : Scientific) (plus : Bool) : List Char :=
  let mantissa := match d.digits with
    | [] => []
    | [first] => [first]
    | first :: rest => first :: '.' :: rest
  let power := d.leading
  let sign := if power < 0 then ['-'] else if plus then ['+'] else []
  mantissa ++ 'e' :: (sign ++ Nat.toDigits 10 power.natAbs)

end Scientific

end ValidatorGen.Number
