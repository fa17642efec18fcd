/-!
# Machine words

Ids, counts, page numbers and row limits are numbers of 64 bits.  The library computes with
unbounded numbers and says here, once, where a word ends:

* `maxWord` and `maxSigned` are the largest unsigned and signed words;
* `toSigned` brings an unsigned number into the signed range by saturation, which is how an id or a
  limit reaches a table keyed by signed words.
-/

namespace ServiceRegistry

def maxWord : Nat := 18446744073709551615

def maxSigned : Int := 9223372036854775807

def minSigned : Int := -9223372036854775808

/-- A number as a signed word; numbers past the largest signed word become it. -/
def toSigned (n : Nat) : Int := min (n : Int) maxSigned

theorem toSigned_nonneg (n : Nat) : 0 ≤ toSigned n := by
  unfold toSigned maxSigned
  omega

theorem toSigned_of_le {n : Nat} (h : (n : Int) ≤ maxSigned) : toSigned n = n := by
  unfold toSigned
  omega

end ServiceRegistry
