/-!
# Fields of fixed width

A field is filled up to its width and never cut. Text may stand at either side of its field; a number in a field
of digits is filled with zeros after its sign, which counts as one of its places.
-/

namespace CalcImage.Text

/-- Text at the left of a field of `width` characters. -/
def alignLeft (width : Nat) (s : String) : String :=
  s ++ String.ofList (List.replicate (width - s.length) ' ')

/-- Text at the right of a field of `width` characters. -/
def alignRight (width : Nat) (s : String) : String :=
  String.ofList (List.replicate (width - s.length) ' ') ++ s

/-- The decimal digits of a natural number. -/
def decimal (n : Nat) : List Char := Nat.toDigits 10 n

/-- A number in decimal, with a minus sign when it is below zero. -/
def ofInt (n : Int) : String :=
  String.ofList ((if n < 0 then ['-'] else []) ++ decimal n.natAbs)

/-- A number filled with zeros to `width` places, its sign being one of them. -/
def zeroFilled (width : Nat) (n : Int) : String :=
  let sign := if n < 0 then ['-'] else []
  let ds := decimal n.natAbs
  String.ofList (sign ++ List.replicate (width - sign.length - ds.length) '0' ++ ds)

/-- The texts with `sep` between them. -/
def joined (sep : String) (texts : List String) : String :=
  sep.intercalate texts

end CalcImage.Text
