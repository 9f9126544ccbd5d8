/-!
# Lists with one entry for each key

A new entry is merged into the one with its key, in its place, or goes behind all others.
-/
namespace GattGateway

variable {α κ : Type} [DecidableEq κ]

def upsert (key : α → κ) (merge : α → α → α) : List α → α → List α
  | [], x => [x]
  | y :: ys, x => if key y = key x then merge y x :: ys else y :: upsert key merge ys x

end GattGateway
