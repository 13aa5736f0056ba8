/-!
Sets of groups or cases, as ascending lists of positions and as membership masks.
-/

namespace GroupLasso

abbrev Mask := List Bool

namespace Mask

def empty (count : Nat) : Mask := List.replicate count false

/-- Membership of a position; positions past the end are not members. -/
def contains (mask : Mask) (index : Nat) : Bool := mask.getD index false

def toIndices (mask : Mask) : List Nat :=
  (List.range mask.length).filter mask.contains

/-- Adds a position; one past the end is ignored. -/
def insert (mask : Mask) (index : Nat) : Mask := mask.set index true

def insertAll (mask : Mask) (indices : List Nat) : Mask := indices.foldl insert mask

def ofIndices (indices : List Nat) (count : Nat) : Mask := (empty count).insertAll indices

def union (left right : Mask) : Mask := List.zipWith (· || ·) left right

end Mask

end GroupLasso
