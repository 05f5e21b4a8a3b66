import SvcLens.Text.Quoted

namespace SvcLens.Numeral

def shownLength : Nat := 200

def Error.message : Error → String
  | .tooLong digits =>
    "Exceeds the limit (" ++ decimalOfNat maxDigits ++
      " digits) for integer string conversion: value has " ++ decimalOfNat digits ++
      " digits; use sys.set_int_max_str_digits() to increase the limit"
  | .tooLarge =>
    "Exceeds the limit (" ++ decimalOfNat maxDigits ++
      " digits) for integer string conversion" ++
      "; use sys.set_int_max_str_digits() to increase the limit"
  | .notDecimal text =>
    "invalid literal for int() with base 10: " ++
      String.ofList ((Text.Quoted.encode text).toList.take shownLength)

end SvcLens.Numeral
