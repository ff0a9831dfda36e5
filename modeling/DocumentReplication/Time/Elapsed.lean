import DocumentReplication.Text.Numeral

/-!
Lengths of time and how messages show them: in the largest unit that is not 0, with the rest as a
fraction without trailing zeros.
-/

namespace DocumentReplication

structure Elapsed where
  micros : Nat
deriving DecidableEq, Repr

namespace Elapsed

def ofMillis (millis : Nat) : Elapsed := ⟨millis * 1000⟩

def fraction (width value : Nat) : List Char :=
  let kept := ((Decimal.padded width value).reverse.dropWhile (· == '0')).reverse
  if kept.isEmpty then [] else '.' :: kept

def text (span : Elapsed) : String :=
  if span.micros = 0 then "0ns"
  else if span.micros < 1000 then
    String.ofList (Decimal.digits span.micros) ++ "µs"
  else if span.micros < 1000000 then
    String.ofList (Decimal.digits (span.micros / 1000) ++ fraction 3 (span.micros % 1000)) ++ "ms"
  else
    String.ofList (Decimal.digits (span.micros / 1000000) ++ fraction 6 (span.micros % 1000000)) ++
      "s"

end Elapsed

end DocumentReplication
