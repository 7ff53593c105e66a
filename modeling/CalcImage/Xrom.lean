import CalcImage.Numeral

/-!
# Functions of extension modules

A call of an extension function packs a module number and a function number into two bytes. The functions of the two
built-in modules have names; every other call is shown with its two numbers. The packing is defined for all integers, a
negative one standing for its two's complement.
-/

namespace CalcImage.Xrom

open CalcImage.Text

/-- The bits that are set in either number. -/
def bitOr : Int → Int → Int
  | .ofNat m, .ofNat n => .ofNat (m ||| n)
  | .ofNat m, .negSucc n => .negSucc (n - (n &&& m))
  | .negSucc n, .ofNat m => .negSucc (n - (n &&& m))
  | .negSucc m, .negSucc n => .negSucc (m &&& n)

/-- The module and the function that two bytes of a call hold. -/
def split (first second : Int) : Int × Int :=
  (bitOr ((first - 0xA0) * 4) (second / 64), second % 64)

/-- The number of the module of extended functions. -/
def extendedModule : Int := 25

/-- The number of the module of time functions. -/
def timeModule : Int := 26

/-- The extended functions from function 1 on. -/
def extendedLow : List String := [
  "ALENG", "ANUM", "APPCHR", "APPREC", "ARCLREC", "AROT", "ATOX", "CLFL", "CLKEYS", "CRFLAS", "CRFLD", "DELCHR",
  "DELREC", "EMDIR", "FLSIZE", "GETAS", "GETKEY", "GETP", "GETR", "GETREC", "GETRX", "GETSUB", "GETX", "INSCHR",
  "INSREC", "PASN", "PCLPS", "POSA", "POSFL", "PSIZE", "PURFL", "RCLFLAG", "RCLPT", "RCLPTA", "REGMOVE", "REGSWAP",
  "SAVEAS", "SAVEP", "SAVER", "SAVERX", "SAVEX", "SEEKPT", "SEEKPTA", "SIZE?", "STOFLAG", "X<>F", "XTOA"]

/-- The extended functions from function 49 on; function 48 is the head of the module. -/
def extendedHigh : List String := [
  "ASROOM", "CLRGX", "ED", "EMDIRX", "EMROOM", "GETKEYX", "RESZFL", "ΣREG?", "X=NN?", "X#NN?", "X<NN?", "X≤NN?",
  "X>NN?", "X≥NN?"]

/-- The time functions from function 1 on; two numbers have no function. -/
def timeFunctions : List (Option String) := [
  some "ADATE", some "ALMCAT", some "ALMNOW", some "ATIME", some "ATIME24", some "CLK12", some "CLK24", some "CLKT",
  some "CLKTD", some "CLOCK", some "CORRECT", some "DATE", some "DATE+", some "DDAYS", some "DMY", some "DOW",
  some "MDY", some "RCLAF", some "RCLSW", some "RUNSW", some "SETAF", none, some "SETDATE", some "SETSW",
  some "STOPSW", some "SW", some "T+X", some "TIME", some "XYZALM", none, some "CLALMA", some "CLALMX",
  some "CLRALMS", some "RCLALM", some "SWPT"]

/-- The name of a function of a built-in module. -/
def builtin? (module function : Int) : Option String :=
  if module = extendedModule then
    if 1 ≤ function ∧ function ≤ 47 then extendedLow[(function - 1).toNat]?
    else if 49 ≤ function then extendedHigh[(function - 49).toNat]?
    else none
  else if module = timeModule then
    if 1 ≤ function then (timeFunctions[(function - 1).toNat]?).join else none
  else none

/-- The name of a function: its own, or its two numbers. -/
def name (module function : Int) : String :=
  (builtin? module function).getD ("XROM " ++ ofInt module ++ "," ++ ofInt function)

/-- The name of a function, for which both its numbers have to have numerals. -/
def checkedName (module function : Int) : Except Fault String := do
  let _ ← numeral module
  let _ ← numeral function
  return name module function

end CalcImage.Xrom
