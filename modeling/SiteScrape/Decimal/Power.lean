/-!
# Powers of ten

The places of decimal digits.
-/

namespace SiteScrape.Decimal

/-- `10^k`. -/
def tenTo (k : Nat) : Nat := Nat.pow 10 k

theorem tenTo_zero : tenTo 0 = 1 := rfl

theorem tenTo_succ (k : Nat) : tenTo (k + 1) = tenTo k * 10 := rfl

end SiteScrape.Decimal
