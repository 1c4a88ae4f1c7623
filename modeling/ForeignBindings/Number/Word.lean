/-!
# Words

The bounds of the integers that have 64 bits.
-/

namespace ForeignBindings.Word

/-- The number of words: one more than the largest unsigned integer. -/
def count : Nat := 18446744073709551616

/-- Half the number of words: one more than the largest signed integer. -/
def half : Nat := 9223372036854775808

end ForeignBindings.Word
