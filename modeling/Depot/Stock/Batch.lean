import Depot.SortedMap
import Depot.Stock.Key
/-!
# Batches of stock movements

A batch collects movements per key: movements of one key are added up, and the keys stand in key
order, whatever the order in which they came. Sums are exact, so any number of 64-bit quantities
nets to the right total; whether a net movement is possible is decided when the batch is applied.

Main statement: `get?_push`, from which the net movement of a key is the sum of its movements.
-/

namespace Depot

/-- Net movements per key, in key order. A key that was moved stays even if its movements cancel. -/
structure Batch where
  nets : SortedMap StockKey Int
  deriving DecidableEq

namespace Batch

/-- The batch without movements. -/
def empty : Batch := ⟨∅⟩

instance : EmptyCollection Batch := ⟨empty⟩

/-- The net movement of a key, zero if the batch does not have it. -/
def net (b : Batch) (k : StockKey) : Int := (b.nets.get? k).getD 0

/-- Add a movement. -/
def push (b : Batch) (k : StockKey) (delta : Int) : Batch := ⟨b.nets.insert k (b.net k + delta)⟩

/-- The batch of these movements. -/
def ofList (moves : List (StockKey × Int)) : Batch :=
  moves.foldl (fun b m => b.push m.1 m.2) ∅

/-- The net movements, in key order. -/
def toList (b : Batch) : List (StockKey × Int) := b.nets.toList

/-- The number of keys. -/
def size (b : Batch) : Nat := b.nets.size

/-- Whether the batch has no key. -/
def isEmpty (b : Batch) : Bool := b.nets.isEmpty

theorem get?_push (b : Batch) (k k' : StockKey) (delta : Int) :
    (b.push k delta).nets.get? k' =
      if compare k' k = .eq then some (b.net k + delta) else b.nets.get? k' :=
  SortedMap.get?_insert b.nets k k' _

theorem net_push (b : Batch) (k k' : StockKey) (delta : Int) :
    (b.push k delta).net k' = b.net k' + if k' = k then delta else 0 := by
  simp only [net, get?_push]
  by_cases h : k' = k
  · subst h; simp [Std.ReflCmp.compare_self]
  · have : compare k' k ≠ .eq := fun hc => h (Std.LawfulEqOrd.eq_of_compare hc)
    simp [h, this]

end Batch

end Depot
