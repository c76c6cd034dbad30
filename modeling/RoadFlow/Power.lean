/-!
# Powers of two and ten
-/

namespace RoadFlow

def twoTo (n : Nat) : Nat := Nat.pow 2 n

def tenTo (n : Nat) : Nat := Nat.pow 10 n

end RoadFlow
