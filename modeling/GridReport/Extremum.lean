/-!
The greater of two doubles, and their total order.
-/

namespace GridReport.Extremum

/-- The greater of two doubles. What is no number gives way; of two equal doubles the second is
taken. -/
def greater (x y : Float) : Float :=
  if x.isNaN then y else if y.isNaN then x else if y < x then x else y

def greatest (start : Float) (values : List Float) : Float := values.foldl greater start

/-- The rank of a double in the total order: negative before positive, zeros by sign, and what is
no number at either end. -/
def rank (x : Float) : Int :=
  let bits := x.toBits.toNat
  if bits < Nat.pow 2 63 then bits else -((bits - Nat.pow 2 63 : Nat) : Int) - 1

/-- The position and the item of the greatest rank; of equal ranks the last is taken. -/
def lastPeak {α : Type} (measure : α → Int) (items : List α) : Option (Nat × α) :=
  (items.zipIdx.map fun pair => (pair.2, pair.1)).foldl
    (fun best next =>
      match best with
      | none => some next
      | some held => if measure next.2 < measure held.2 then some held else some next)
    none

end GridReport.Extremum
