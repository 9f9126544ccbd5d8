/-!
# Decimal text

Numbers as digits without leading zeros.
-/
namespace GattGateway.Text

def decimalDigits (n : Nat) : List Char := Nat.toDigits 10 n

def decimal (n : Nat) : String := String.ofList (decimalDigits n)

end GattGateway.Text
