import GridReport.Store.Fault

/-!
Items that are worked out one after another, up to a fault.

A query is stepped through: what stands in front of a fault has been given when the fault comes, and
a fault behind the last item that is asked for never comes.
-/

namespace GridReport.Store

/-- Items in their order, and the fault that comes after them, if there is one. -/
structure Rows (α : Type) where
  items : List α
  fault? : Option Fault

namespace Rows

variable {α β : Type}

def ofList (items : List α) : Rows α := ⟨items, none⟩

/-- Items that a fault may come in front of. -/
def ofExcept : Except Fault (Rows α) → Rows α
  | .ok rows => rows
  | .error fault => ⟨[], some fault⟩

def all (rows : Rows α) : Except Fault (List α) :=
  match rows.fault? with
  | none => .ok rows.items
  | some fault => .error fault

def first? (rows : Rows α) : Except Fault (Option α) :=
  match rows.items, rows.fault? with
  | item :: _, _ => .ok (some item)
  | [], none => .ok none
  | [], some fault => .error fault

def map (f : α → β) (rows : Rows α) : Rows β := ⟨rows.items.map f, rows.fault?⟩

def flatMap (f : α → Except Fault (List β)) (rows : Rows α) : Rows β := go rows.items
where
  go : List α → Rows β
    | [] => ⟨[], rows.fault?⟩
    | head :: tail =>
      match f head with
      | .error fault => ⟨[], some fault⟩
      | .ok found =>
        let others := go tail
        ⟨found ++ others.items, others.fault?⟩

def filter (test : α → Except Fault Bool) (rows : Rows α) : Rows α :=
  rows.flatMap fun item => return if ← test item then [item] else []

def reverse (rows : Rows α) : Rows α := .ofExcept do return .ofList (← rows.all).reverse

/-- Items after others. -/
def append (front back : Rows α) : Rows α :=
  match front.fault? with
  | some _ => front
  | none => ⟨front.items ++ back.items, back.fault?⟩

/-- Some items after others are left out; a negative limit is none. -/
def part (limit offset : Option Int) (rows : Rows α) : Rows α :=
  let rest : Rows α := ⟨rows.items.drop ((offset.getD 0).toNat), rows.fault?⟩
  match limit with
  | none => rest
  | some most =>
    if most < 0 || rest.items.length < most then rest else ofList (rest.items.take most.toNat)

end Rows

end GridReport.Store
