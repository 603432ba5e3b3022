/-!
# Powers

Powers of two and of ten, and the number of values of a machine word.
-/

namespace Missive

def pow2 (n : Nat) : Nat := Nat.pow 2 n

def pow10 (n : Nat) : Nat := Nat.pow 10 n

def word32 : Nat := 4294967296

def word64 : Nat := 18446744073709551616

end Missive
